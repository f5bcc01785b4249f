import IntScript.Decimal.Reading
import IntScript.Decimal.Spelling
import IntScript.Text.Quoted

/-! Values handed in from outside. Programs compute with integers alone; the
console and the bindings also meet other values and say what they cannot do
with them. -/
namespace IntScript
open Decimal (Binary64)

inductive Value where
  | integer (n : Int)
  | real (x : Binary64)
  | text (s : String)
  | truth (b : Bool)
  | nothing
  /-- A value of a type that is none of these: the name of its type, and its text. -/
  | other (type shown : String)
deriving DecidableEq

/-- A text that is no number of the kind asked for. -/
inductive NumberError where
  | notInteger (text : String)
  | notReal (text : String)
deriving DecidableEq

/-- Why a text is no number, in words. Of a text that is no integer only the first
two hundred characters are shown, quotes included. -/
def NumberError.message : NumberError → String
  | .notInteger text =>
    "invalid literal for int() with base 10: " ++
      String.ofList ((Text.quotedChars text.toList).take 200)
  | .notReal text => "could not convert string to float: " ++ Text.quoted text

def readInteger (text : String) : Except NumberError Int :=
  (Decimal.integer? text).elim (.error (.notInteger text)) .ok

namespace Value

def ofIntegerText (text : String) : Except NumberError Value := (readInteger text).map .integer

def ofRealText (text : String) : Except NumberError Value :=
  (Binary64.ofText? text).elim (.error (.notReal text)) (.ok ∘ .real)

/-- The name of a value's type, as messages give it. -/
def typeName : Value → String
  | .integer _ => "int"
  | .real _ => "float"
  | .text _ => "str"
  | .truth _ => "bool"
  | .nothing => "NoneType"
  | .other type _ => type

/-- The text of a value. -/
def spelled : Value → String
  | .integer n => toString n
  | .real x => x.spelled
  | .text s => s
  | .truth true => "True"
  | .truth false => "False"
  | .nothing => "None"
  | .other _ shown => shown

/-- The integer that a value counts as: truth values count as one and zero. -/
def asInteger? : Value → Option Int
  | .integer n => some n
  | .truth b => some (if b then 1 else 0)
  | _ => none

end Value
end IntScript

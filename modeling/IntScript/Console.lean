import IntScript.Value

/-! The host's side of a program: writing lines and adding numbers. Each print
is one line; what cannot be printed or added is refused with a reason, and so is
an operation on too few or too many values. Values of other types than those named
are taken to have no formats and no sums. -/
namespace IntScript
open Decimal (Binary64)

/-- The formats in which the console writes numbers. -/
inductive NumberFormat where
  | integer
  | double
deriving DecidableEq

def NumberFormat.code : NumberFormat → String
  | .integer => "d"
  | .double => "f"

/-- What the host does for a program. -/
inductive Operation where
  | printText
  | printInteger
  | printDouble
  | add
deriving DecidableEq

namespace Operation

def all : List Operation := [.printText, .printInteger, .printDouble, .add]

def name : Operation → String
  | .printText => "print_string"
  | .printInteger => "print_integer"
  | .printDouble => "print_double"
  | .add => "add_integer"

def ofName? (name : String) : Option Operation := all.find? (·.name = name)

/-- The names of the values an operation works on. -/
def parameters : Operation → List String
  | .printText => ["text"]
  | .printInteger | .printDouble => ["number"]
  | .add => ["a", "b"]

/-- Why an operation does not work on `given` values, in words. The console itself
counts as one more value. -/
def countMessage (operation : Operation) (given : Nat) : String :=
  let shown := "ConsoleRuntime." ++ operation.name ++ "() "
  match operation.parameters.drop given with
  | [] =>
    shown ++ "takes " ++ toString (operation.parameters.length + 1) ++
      " positional arguments but " ++ toString (given + 1) ++ " were given"
  | [missing] => shown ++ "missing 1 required positional argument: " ++ Text.quoted missing
  | missing =>
    shown ++ "missing " ++ toString missing.length ++ " required positional arguments: " ++
      " and ".intercalate (missing.map Text.quoted)

end Operation

inductive ConsoleError where
  | wrongCount (operation : Operation) (given : Nat)
  | wrongFormat (format : NumberFormat) (value : Value)
  | noFormats (value : Value)
  | tooLarge
  | noSum (left right : Value)
  | noConcatenation (right : Value)
deriving DecidableEq

/-- Why the console refuses, in words. -/
def ConsoleError.message : ConsoleError → String
  | .wrongCount operation given => operation.countMessage given
  | .wrongFormat format value =>
    "Unknown format code '" ++ format.code ++ "' for object of type '" ++ value.typeName ++ "'"
  | .noFormats value => "unsupported format string passed to " ++ value.typeName ++ ".__format__"
  | .tooLarge => "int too large to convert to float"
  | .noSum left right =>
    "unsupported operand type(s) for +: '" ++ left.typeName ++ "' and '" ++ right.typeName ++ "'"
  | .noConcatenation right =>
    "can only concatenate str (not \"" ++ right.typeName ++ "\") to str"

namespace Console

def line (text : String) : String := text ++ "\n"

/-- Prints a value as text; of nothing, nothing is printed. -/
def printText : Value → String
  | .nothing => ""
  | value => line value.spelled

def printInteger : Value → Except ConsoleError String
  | .integer n => .ok (line (toString n))
  | .truth b => .ok (line (if b then "1" else "0"))
  | .real x => .error (.wrongFormat .integer (.real x))
  | .text s => .error (.wrongFormat .integer (.text s))
  | value => .error (.noFormats value)

/-- The double nearest to an integer, which must not be infinite. -/
def toDouble (n : Int) : Except ConsoleError Binary64 :=
  match Binary64.ofInt n with
  | .infinite _ => .error .tooLarge
  | x => .ok x

/-- Prints a number with six places. -/
def printDouble : Value → Except ConsoleError String
  | .real x => .ok (line (x.fixed 6))
  | .integer n => do return line ((← toDouble n).fixed 6)
  | .truth b => do return line ((← toDouble (if b then 1 else 0)).fixed 6)
  | .text s => .error (.wrongFormat .double (.text s))
  | value => .error (.noFormats value)

/-- Adds two values. Truth values count as integers, texts are joined, and a sum
with a double is a double. -/
def add : Value → Value → Except ConsoleError Value
  | .text a, .text b => .ok (.text (a ++ b))
  | .text _, right => .error (.noConcatenation right)
  | .real x, .real y => .ok (.real (x.add y))
  | .real x, right =>
    match right.asInteger? with
    | some n => do return .real (x.add (← toDouble n))
    | none => .error (.noSum (.real x) right)
  | left, .real y =>
    match left.asInteger? with
    | some n => do return .real ((← toDouble n).add y)
    | none => .error (.noSum left (.real y))
  | left, right =>
    match left.asInteger?, right.asInteger? with
    | some a, some b => .ok (.integer (a + b))
    | _, _ => .error (.noSum left right)

/-- Performs an operation: its result, and the text it writes. -/
def perform (operation : Operation) (values : List Value) : Except ConsoleError (Value × String) :=
  match operation, values with
  | .printText, [value] => .ok (.nothing, printText value)
  | .printInteger, [value] => (printInteger value).map (.nothing, ·)
  | .printDouble, [value] => (printDouble value).map (.nothing, ·)
  | .add, [left, right] => (add left right).map (·, "")
  | _, _ => .error (.wrongCount operation values.length)

end Console
end IntScript

import IntScript.Decimal.Binary64
import IntScript.Text.Blank
import IntScript.Text.Digit

/-! Numbers read from text. Around a number there may be blanks, in front of it a
sign, and underscores between its digits, which may be those of any script. -/
namespace IntScript.Decimal

/-- The blanks that may stand around a number: all but the information separators. -/
def isMargin (c : Char) : Bool :=
  Text.isBlank c && !(0x1C ≤ c.toNat && c.toNat ≤ 0x1F)

def trimMargins (text : List Char) : List Char :=
  ((text.dropWhile isMargin).reverse.dropWhile isMargin).reverse

/-- Splits a sign off the front. -/
def takeSign : List Char → Bool × List Char
  | '-' :: rest => (true, rest)
  | '+' :: rest => (false, rest)
  | text => (false, text)

/-- The sign of a number written in a text, and what follows it in Latin digits. -/
def signedChars (text : String) : Bool × List Char :=
  takeSign (Text.latinDigits (trimMargins text.toList))

/-- The text without its underscores, each of which has to stand between two
digits. `afterDigit` tells whether a digit stands in front of the text. -/
def ungroup? (afterDigit : Bool) : List Char → Option (List Char)
  | [] => some []
  | '_' :: rest =>
    if afterDigit && (rest.head?.any Char.isDigit) then ungroup? false rest else none
  | c :: rest => (ungroup? c.isDigit rest).map (c :: ·)

/-- A non-empty run of digits. -/
def readDigits? (text : List Char) : Option Nat :=
  if text ≠ [] ∧ text.all Char.isDigit then some (Nat.ofDigitChars 10 text 0) else none

def withSign (negative : Bool) (size : Nat) : Int := if negative then -size else size

/-- Reads an integer. -/
def integer? (text : String) : Option Int :=
  let (negative, rest) := signedChars text
  ((ungroup? false rest).bind readDigits?).map (withSign negative)

namespace Binary64

def readExponent? (text : List Char) : Option Int :=
  let (negative, rest) := takeSign text
  (readDigits? rest).map (withSign negative)

/-- Digits with an optional point among them and an optional exponent. -/
def readMagnitude? (negative : Bool) (text : List Char) : Option Binary64 := do
  let body := text.takeWhile (fun c => c ≠ 'e' && c ≠ 'E')
  let whole := body.takeWhile (· ≠ '.')
  let fraction := (body.drop whole.length).drop 1
  let n ← readDigits? (whole ++ fraction)
  let exponent ← match text.drop body.length with
    | [] => some 0
    | _ :: rest => readExponent? rest
  let unit := exponent - fraction.length
  let size := unit + (whole ++ fraction).length
  if n = 0 ∨ size < -330 then return .finite negative 0 0
  else if 310 < size ∧ 310 < unit then return .infinite negative
  else
    let (num, den) := scale 10 unit n 1
    return nearest negative num den

/-- Reads a decimal number, an infinity or the undefined number. -/
def ofText? (text : String) : Option Binary64 :=
  let (negative, rest) := signedChars text
  match String.ofList (rest.map Char.toLower) with
  | "inf" | "infinity" => some (.infinite negative)
  | "nan" => some .undefined
  | _ => (ungroup? false rest).bind (readMagnitude? negative)

end Binary64
end IntScript.Decimal

import IntScript.Decimal.Binary64

/-! Decimal spellings of double-precision numbers. A number can be written with
a fixed count of places, or with the fewest digits that read back as the same
number. -/
namespace IntScript.Decimal

def digits (n : Nat) : List Char := Nat.toDigits 10 n

def padLeft (width : Nat) (text : List Char) : List Char :=
  List.replicate (width - text.length) '0' ++ text

def signText (negative : Bool) : List Char := if negative then ['-'] else []

namespace Binary64

/-- The number with `places` digits behind the point; the exact value is rounded
once, half to even, and the sign stays even if all digits are zero. -/
def fixedChars (places : Nat) : Binary64 → List Char
  | .undefined => ['n', 'a', 'n']
  | .infinite negative => signText negative ++ ['i', 'n', 'f']
  | .finite negative mantissa exponent =>
    let (num, den) := quotient mantissa exponent
    let units := roundHalfEven (num * Nat.pow 10 places) den
    signText negative ++ digits (units / Nat.pow 10 places) ++ '.' ::
      padLeft places (digits (units % Nat.pow 10 places))

def fixed (places : Nat) (x : Binary64) : String := String.ofList (x.fixedChars places)

/-- Number of digits before the point of a positive `num / den`. It is zero or
less if there are none and as many zeros follow the point. -/
def pointPlace (num den : Nat) : Int :=
  if den ≤ num then (digits (num / den)).length
  else
    let zeros := (digits (den / num)).length - 1
    if den = num * Nat.pow 10 zeros then 1 - (zeros : Int) else -(zeros : Int)

/-- A decimal of `count` digits next to `num / den` that reads back as `x`, the
nearer one if both neighbours do. -/
def shortestAt? (x : Binary64) (num den : Nat) (point : Int) (count : Nat) : Option (Nat × Int) :=
  let unit := point - count
  let (n, d) := scale 10 (-unit) num den
  let reads (decimal : Nat) : Bool :=
    let (a, b) := scale 10 unit decimal 1
    nearest false a b = x
  let low := n / d
  let lowFirst := 2 * (n % d) < d ∨ (2 * (n % d) = d ∧ low % 2 = 0)
  let candidates := if lowFirst then [low, low + 1] else [low + 1, low]
  (candidates.find? reads).map (fun decimal => (decimal, unit))

/-- The fewest digits that read back as a positive finite number, with the power
of ten of the last digit. -/
def shortest (mantissa : Nat) (exponent : Int) : Nat × Int :=
  let (num, den) := quotient mantissa exponent
  let point := pointPlace num den
  let counts := (List.range 17).map (· + 1)
  (counts.findSome? (shortestAt? (.finite false mantissa exponent) num den point)).getD (0, 0)

/-- Trailing zeros of a decimal move into its power of ten. -/
def trimZeros : Nat → Nat × Int → Nat × Int
  | 0, decimal => decimal
  | fuel + 1, (n, unit) =>
    if n ≠ 0 ∧ n % 10 = 0 then trimZeros fuel (n / 10, unit + 1) else (n, unit)

/-- Digits with the point after the first `point` of them. From the seventeenth
place on, and below the fourth zero behind the point, an exponent is written. -/
def placePoint (text : List Char) (point : Int) : List Char :=
  if -4 < point ∧ point ≤ 16 then
    if point ≤ 0 then '0' :: '.' :: List.replicate (-point).toNat '0' ++ text
    else if text.length ≤ point.toNat then
      text ++ List.replicate (point.toNat - text.length) '0' ++ ['.', '0']
    else text.take point.toNat ++ '.' :: text.drop point.toNat
  else
    let fraction := match text.drop 1 with
      | [] => []
      | rest => '.' :: rest
    let power := point - 1
    text.take 1 ++ fraction ++ 'e' :: (if power < 0 then '-' else '+') ::
      padLeft 2 (digits power.natAbs)

def shortestChars : Binary64 → List Char
  | .undefined => ['n', 'a', 'n']
  | .infinite negative => signText negative ++ ['i', 'n', 'f']
  | .finite negative mantissa exponent =>
    if mantissa = 0 then signText negative ++ ['0', '.', '0']
    else
      let (n, unit) := trimZeros 17 (shortest mantissa exponent)
      let text := digits n
      signText negative ++ placePoint text (text.length + unit)

/-- The number with the fewest digits that read back as it. -/
def spelled (x : Binary64) : String := String.ofList x.shortestChars

end Binary64
end IntScript.Decimal

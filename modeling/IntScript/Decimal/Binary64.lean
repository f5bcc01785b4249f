import IntScript.Decimal.Rounding

/-! Double-precision numbers as exact multiples of powers of two. Rounding to
the nearest one compares whole quotients, so no digit is lost on the way. -/
namespace IntScript.Decimal

/-- A finite number is `mantissa * 2 ^ exponent` with at most 53 bits in the
mantissa; the sign of zero is kept. -/
inductive Binary64 where
  | finite (negative : Bool) (mantissa : Nat) (exponent : Int)
  | infinite (negative : Bool)
  | undefined
deriving DecidableEq

namespace Binary64

/-- Exponent of the smallest positive number. -/
def leastExponent : Int := -1074

/-- The exponent at which `num / den` has 53 bits before the point, or the least
exponent if it is that small. -/
def exponentFor (num den : Nat) : Int :=
  let guess : Int := (num.log2 : Int) - den.log2 - 52
  let (n, d) := scale 2 (-guess) num den
  max leastExponent (if n / d < Nat.pow 2 52 then guess - 1 else guess)

/-- The number nearest to `num / den`, ties to the even mantissa; infinite if
that is beyond the largest finite one. -/
def nearest (negative : Bool) (num den : Nat) : Binary64 :=
  if num = 0 then .finite negative 0 0
  else
    let exponent := exponentFor num den
    let (n, d) := scale 2 (-exponent) num den
    let mantissa := roundHalfEven n d
    let (mantissa, exponent) :=
      if mantissa = Nat.pow 2 53 then (Nat.pow 2 52, exponent + 1) else (mantissa, exponent)
    if 971 < exponent then .infinite negative else .finite negative mantissa exponent

def ofInt (n : Int) : Binary64 := nearest (decide (n < 0)) n.natAbs 1

/-- Exact value of a finite number as a quotient, without its sign. -/
def quotient (mantissa : Nat) (exponent : Int) : Nat × Nat := scale 2 exponent mantissa 1

/-- The number nearest to the exact sum. -/
def add : Binary64 → Binary64 → Binary64
  | .undefined, _ | _, .undefined => .undefined
  | .infinite s, .infinite t => if s = t then .infinite s else .undefined
  | .infinite s, .finite .. => .infinite s
  | .finite .., .infinite t => .infinite t
  | .finite s m e, .finite t n f =>
    let least := min e f
    let signed (negative : Bool) (magnitude : Nat) : Int :=
      if negative then -(magnitude : Int) else magnitude
    let sum := signed s (m * Nat.pow 2 (e - least).toNat) + signed t (n * Nat.pow 2 (f - least).toNat)
    if sum = 0 then .finite (s && t) 0 0
    else
      let (num, den) := quotient sum.natAbs least
      nearest (decide (sum < 0)) num den

end Binary64
end IntScript.Decimal

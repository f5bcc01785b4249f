/-! Rounding of exact quotients to the nearest natural number. A quotient half
way between two numbers goes to the even one. -/
namespace IntScript.Decimal

def roundHalfEven (num den : Nat) : Nat :=
  let q := num / den
  let twice := 2 * (num % den)
  if den < twice ∨ (twice = den ∧ q % 2 = 1) then q + 1 else q

/-- `num / den` times `base ^ exponent`, as a quotient. -/
def scale (base : Nat) (exponent : Int) (num den : Nat) : Nat × Nat :=
  if 0 ≤ exponent then (num * base.pow exponent.toNat, den)
  else (num, den * base.pow (-exponent).toNat)

end IntScript.Decimal

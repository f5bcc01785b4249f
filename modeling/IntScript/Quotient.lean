/-! Integer division that drops the fraction, so that signs never change the
size of a quotient. -/
namespace IntScript

def truncatedQuotient (dividend divisor : Int) : Int :=
  let size : Int := (dividend.natAbs / divisor.natAbs : Nat)
  if (dividend < 0) ↔ (divisor < 0) then size else -size

/-- The quotient toward zero; there is none by zero. -/
def divide? (dividend divisor : Int) : Option Int :=
  if divisor = 0 then none else some (truncatedQuotient dividend divisor)

end IntScript

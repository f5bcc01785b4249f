import IntScript.Proofs.DirectEvaluation

/-! Quotients toward zero, told by what remains. The remainder is smaller than the divisor
and lies on the side of zero on which the dividend lies, and only one quotient leaves such a
remainder. -/
namespace IntScript

/-- Taking the divisor `q` times from the dividend leaves `r`. -/
structure Leaves (dividend divisor q r : Int) : Prop where
  whole : dividend = divisor * q + r
  small : r.natAbs < divisor.natAbs
  side : r = 0 ∨ r.sign = dividend.sign

namespace Leaves
variable {a b q q' r r' : Int}

theorem divisor_ne_zero (leaves : Leaves a b q r) : b ≠ 0 := by
  rintro rfl
  exact absurd leaves.small (Nat.not_lt_zero _)

theorem nonneg (leaves : Leaves a b q r) (positive : 0 ≤ a) : 0 ≤ r := by
  rcases leaves.side with zero | same
  · exact Int.le_of_eq zero.symm
  · exact Int.sign_nonneg_iff.mp (same ▸ Int.sign_nonneg_iff.mpr positive)

theorem neg (leaves : Leaves a b q r) : Leaves (-a) b (-q) (-r) where
  whole := by rw [leaves.whole, Int.neg_add, Int.mul_neg]
  small := by rw [Int.natAbs_neg]; exact leaves.small
  side := by simpa [Int.sign_neg] using leaves.side

/-- Two remainders on the same side of zero differ by less than the divisor, and a multiple of
the divisor that is less than the divisor is zero. -/
theorem unique_of_nonneg (positive : 0 ≤ a) (leaves : Leaves a b q r)
    (leaves' : Leaves a b q' r') : q = q' := by
  have difference : b * (q - q') = r' - r := by
    rw [Int.mul_sub]
    have := leaves.whole
    have := leaves'.whole
    omega
  have near : (r' - r).natAbs < b.natAbs := by
    have := leaves.nonneg positive
    have := leaves'.nonneg positive
    have := leaves.small
    have := leaves'.small
    omega
  have zero : b * (q - q') = 0 := by
    rw [← difference] at near
    exact Int.eq_zero_of_dvd_of_natAbs_lt_natAbs (Int.dvd_mul_right _ _) near
  have same := (Int.mul_eq_zero.mp zero).resolve_left leaves.divisor_ne_zero
  omega

theorem unique (leaves : Leaves a b q r) (leaves' : Leaves a b q' r') : q = q' := by
  rcases Int.le_total 0 a with positive | negative
  · exact unique_of_nonneg positive leaves leaves'
  · have mirrored : -q = -q' :=
      unique_of_nonneg (Int.neg_nonneg_of_nonpos negative) leaves.neg leaves'.neg
    exact Int.neg_inj.mp mirrored

/-- What division toward zero leaves. -/
theorem of_tdiv (a : Int) (nonzero : b ≠ 0) : Leaves a b (a.tdiv b) (a.tmod b) where
  whole := (Int.mul_tdiv_add_tmod a b).symm
  small := by
    rw [Int.natAbs_tmod]
    exact Nat.mod_lt _ (Int.natAbs_pos.mpr nonzero)
  side := by
    by_cases divides : b ∣ a
    · exact .inl (Int.tmod_eq_zero_of_dvd divides)
    · right
      rw [Int.sign_tmod, if_neg divides]

end Leaves

theorem divide?_eq (a b : Int) : divide? a b = if b = 0 then none else some (a.tdiv b) := by
  rw [divide?, truncatedQuotient_eq_tdiv]

theorem divide?_eq_some_iff {a b q : Int} : divide? a b = some q ↔ ∃ r, Leaves a b q r := by
  rw [divide?_eq]
  constructor
  · intro quotient
    split at quotient
    · cases quotient
    · next nonzero =>
      cases quotient
      exact ⟨_, .of_tdiv a nonzero⟩
  · rintro ⟨r, leaves⟩
    have nonzero := leaves.divisor_ne_zero
    rw [if_neg nonzero, (Leaves.of_tdiv a nonzero).unique leaves]

/-- The sign of a division by evaluated operands is the division of integers. -/
theorem Evaluation.apply_div (limit : Nat) (whole : Node) (a b : Int) (sums : List (Int × Int)) :
    ((apply limit whole .div a b).run.run sums).1.toOption = divide? a b := by
  unfold apply
  cases quotient : divide? a b with
  | some q => rfl
  | none =>
    simp only [run_bind, render]
    cases whole.render limit <;> rfl

/-- Division truncates toward zero. There is a quotient unless the divisor is zero, it is the
only number that leaves a remainder smaller than the divisor and of the sign of the dividend,
and turning the sign of either operand turns its sign. The sign `/` of programs stands for this
division. -/
theorem division_truncates (a b : Int) :
    (divide? a b = none ↔ b = 0) ∧
    (∀ q, divide? a b = some q ↔ ∃ r, Leaves a b q r) ∧
    divide? (-a) b = (divide? a b).map (-·) ∧ divide? a (-b) = (divide? a b).map (-·) ∧
    ∀ limit whole sums,
      ((Evaluation.apply limit whole .div a b).run.run sums).1.toOption = divide? a b := by
  refine ⟨?_, fun q => divide?_eq_some_iff, ?_, ?_, ?_⟩
  · simp [divide?]
  · simp only [divide?_eq, Int.neg_tdiv]
    split <;> rfl
  · simp only [divide?_eq, Int.tdiv_neg, Int.neg_eq_zero]
    split <;> rfl
  · intro limit whole sums
    exact Evaluation.apply_div limit whole a b sums

example : divide? (-7) 2 = some (-3) ∧ divide? (-1) 2 = some 0 := by decide

end IntScript

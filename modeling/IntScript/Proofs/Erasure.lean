import IntScript.Node.Same

/-! Trees are the same exactly if nothing but their places tells them apart. -/
namespace IntScript.Node

/-- The tree without its places. -/
def erase : Node → Node
  | .number value _ => .number value .unknown
  | .string text _ => .string text .unknown
  | .reference name _ => .reference name .unknown
  | .binary op left right _ => .binary op left.erase right.erase .unknown
  | .assignment name value _ => .assignment name value.erase .unknown
  | .print argument _ => .print argument.erase .unknown

theorem allSame_iff (pending : List (Node × Node)) :
    allSame pending = true ↔ ∀ pair ∈ pending, pair.1.erase = pair.2.erase := by
  fun_induction allSame pending with
  | case1 => simp
  | case2 a _ b _ pending ih | case3 a _ b _ pending ih | case4 a _ b _ pending ih =>
    simp [erase, ih]
  | case5 op left right _ op' left' right' _ pending ih =>
    simp only [Bool.and_eq_true, decide_eq_true_eq, ih, List.forall_mem_cons, erase,
      Node.binary.injEq]
    grind
  | case6 name value _ name' value' _ pending ih => simp [erase, ih, and_assoc]
  | case7 argument _ argument' _ pending ih => simp [erase, ih]
  | case8 pair pending numbers strings references binaries assignments prints =>
    obtain ⟨a, b⟩ := pair
    have apart : a.erase ≠ b.erase := by
      intro same
      cases a <;> cases b <;> simp only [erase, reduceCtorEq] at same
      · exact numbers _ _ _ _ rfl
      · exact strings _ _ _ _ rfl
      · exact references _ _ _ _ rfl
      · exact binaries _ _ _ _ _ _ _ _ rfl
      · exact assignments _ _ _ _ _ _ rfl
      · exact prints _ _ _ _ rfl
    simp [apart]

theorem same_iff (a b : Node) : same a b = true ↔ a.erase = b.erase := by
  simp [same, allSame_iff]

theorem samePrograms_iff (first second : List Node) :
    samePrograms first second = true ↔ first.map erase = second.map erase := by
  induction first generalizing second with
  | nil => cases second <;> simp [samePrograms]
  | cons a first ih => cases second <;> simp [samePrograms, same_iff, ih]

end IntScript.Node

import IntScript.Proofs.Erasure
import IntScript.Proofs.Writing
import Mathlib.Data.List.Zip

/-! Trees compared in a loop. Each round takes one of the pending pairs, looks at the kinds, keys
and numbers of children of its two trees, and leaves their children to be compared in pairs. The
rounds are no more than the nodes of either tree, and one that finds nothing pending. The answer
says whether the trees are equal without their places, and trees that are the same are written out
alike. -/
namespace IntScript

/-- What a node says beside its kind and its children. -/
inductive Key where
  | integer (value : Int)
  | text (text : String)
  | operator (op : Operator)
  | none
deriving DecidableEq

namespace Node

def key : Node → Key
  | .number value _ => .integer value
  | .string text _ => .text text
  | .reference name _ | .assignment name _ _ => .text name
  | .binary op _ _ _ => .operator op
  | .print _ _ => .none

/-- The roots of two trees look the same. -/
def Matches (a b : Node) : Prop :=
  a.kind = b.kind ∧ a.key = b.key ∧ a.children.length = b.children.length

instance (a b : Node) : Decidable (Matches a b) := inferInstanceAs (Decidable (_ ∧ _ ∧ _))

theorem matches_comm (a b : Node) : Matches a b ↔ Matches b a := by
  simp only [Matches, eq_comm]

/-- How a round of comparing ends. -/
inductive Round where
  | answer (same : Bool)
  | further (pending : List (Node × Node))

/-- One round. The pair of the last children is the next to be taken. -/
def compareNext : List (Node × Node) → Round
  | [] => .answer true
  | (a, b) :: pending =>
    if Matches a b then .further ((a.children.zip b.children).reverse ++ pending)
    else .answer false

/-- The answer, if it is found in this many rounds. -/
def answerWithin : Nat → List (Node × Node) → Option Bool
  | 0, _ => none
  | rounds + 1, pending =>
    match compareNext pending with
    | .answer same => some same
    | .further pending => answerWithin rounds pending

theorem allSame_cons (a b : Node) (pending : List (Node × Node)) :
    allSame ((a, b) :: pending) =
      (decide (Matches a b) && allSame ((a.children.zip b.children).reverse ++ pending)) := by
  cases a <;> cases b <;> simp [allSame, Matches, kind, key, children]

/-- Comparing the children is less than comparing the trees: the root of the first is gone. -/
theorem pendingSize_children (a b : Node) (pending : List (Node × Node)) :
    pendingSize ((a.children.zip b.children).reverse ++ pending) <
      pendingSize ((a, b) :: pending) := by
  cases a <;> cases b <;>
    simp only [children, List.zip_nil_left, List.zip_nil_right, List.zip_cons_cons,
      List.reverse_cons, List.reverse_nil, List.nil_append, List.cons_append, pendingSize, size] <;>
    omega

/-- A round either finds the answer, or leaves it as it is and fewer nodes to compare. -/
theorem compareNext_spec (pending : List (Node × Node)) :
    match compareNext pending with
    | .answer same => allSame pending = same
    | .further rest => allSame pending = allSame rest ∧ pendingSize rest < pendingSize pending := by
  fun_cases compareNext pending with
  | case1 => simp [allSame]
  | case2 a b pending alike =>
    refine ⟨?_, pendingSize_children a b pending⟩
    rw [allSame_cons, decide_eq_true alike, Bool.true_and]
  | case3 a b pending apart => rw [allSame_cons, decide_eq_false apart, Bool.false_and]

/-- By induction on the rounds: each takes at least one node away. -/
theorem answerWithin_of_pendingSize {rounds : Nat} {pending : List (Node × Node)}
    (enough : pendingSize pending < rounds) :
    answerWithin rounds pending = some (allSame pending) := by
  induction rounds generalizing pending with
  | zero => omega
  | succ rounds ih =>
    have step := compareNext_spec pending
    rw [answerWithin]
    cases outcome : compareNext pending with
    | answer same =>
      rw [outcome] at step
      rw [step]
    | further rest =>
      rw [outcome] at step
      obtain ⟨unchanged, fewer⟩ := step
      rw [unchanged]
      exact ih (by omega)

/-- Pairs taken the other way round are compared in the same rounds. -/
theorem answerWithin_swap (rounds : Nat) (pending : List (Node × Node)) :
    answerWithin rounds (pending.map Prod.swap) = answerWithin rounds pending := by
  induction rounds generalizing pending with
  | zero => rfl
  | succ rounds ih =>
    cases pending with
    | nil => rfl
    | cons pair pending =>
      obtain ⟨a, b⟩ := pair
      have turned : (b.children.zip a.children).reverse ++ pending.map Prod.swap =
          ((a.children.zip b.children).reverse ++ pending).map Prod.swap := by
        rw [List.map_append, List.map_reverse, List.zip_swap]
      simp only [List.map_cons, Prod.swap_prod_mk, answerWithin, compareNext, turned,
        matches_comm b a]
      by_cases alike : Matches a b
      · simp only [if_pos alike]
        exact ih _
      · simp only [if_neg alike]

theorem answerWithin_of_size {a b : Node} {rounds : Nat} (enough : a.size < rounds) :
    answerWithin rounds [(a, b)] = some (a.same b) :=
  answerWithin_of_pendingSize enough

theorem precedence_erase (node : Node) : node.erase.precedence = node.precedence := by
  cases node <;> rfl

theorem writtenLeftward_erase {render : Node → Except RenderError String}
    (below : ∀ node : Node, render node.erase = render node) (node : Node) :
    writtenLeftward render node.erase = writtenLeftward render node := by
  induction node with
  | binary op left right place ih _ =>
    simp only [erase, writtenLeftward, joined, ih, below, precedence_erase]
  | _ => exact below _

/-- Places are not written, whatever the limit. -/
theorem render_erase (limit : Nat) (node : Node) : node.erase.render limit = node.render limit := by
  induction limit generalizing node with
  | zero => rfl
  | succ limit ih =>
    cases node with
    | binary op left right place =>
      rw [render_binary, ← writtenLeftward_erase ih, erase, render_binary]
    | assignment name value place => simp only [erase, render, ih]
    | print argument place => simp only [erase, render, ih]
    | _ => rfl

theorem same_iff_children (a b : Node) :
    a.same b = true ↔ a.kind = b.kind ∧ a.key = b.key ∧
      List.Forall₂ (fun x y => x.same y = true) a.children b.children := by
  simp only [same_iff]
  cases a <;> cases b <;> simp [erase, kind, key, children]

/-- Being the same is an equivalence. -/
theorem same_equivalence : Equivalence fun a b : Node => a.same b = true where
  refl a := (same_iff a a).mpr rfl
  symm := by
    intro a b same
    exact (same_iff b a).mpr ((same_iff a b).mp same).symm
  trans := by
    intro a b c first second
    exact (same_iff a c).mpr (((same_iff a b).mp first).trans ((same_iff b c).mp second))

theorem answerWithin_of_min {a b : Node} {rounds : Nat} (enough : min a.size b.size < rounds) :
    answerWithin rounds [(a, b)] = some (a.same b) := by
  rcases Nat.lt_or_ge a.size rounds with first | low
  · exact answerWithin_of_size first
  · have second : b.size < rounds := by omega
    have turned := answerWithin_swap rounds [(b, a)]
    have same : b.same a = a.same b :=
      Bool.eq_iff_iff.mpr ⟨same_equivalence.symm, same_equivalence.symm⟩
    rw [answerWithin_of_size second, same] at turned
    exact turned

/-- Two trees are compared in no more rounds than the smaller of them has nodes, and one. They are
the same exactly if they are equal without their places, that is if they have the same kind, the
same key and children that are the same one by one. This is an equivalence, and trees that are the
same are written alike, or fail to be written for the same reason. -/
theorem same_is_structural (a b : Node) :
    (∀ more, answerWithin (min a.size b.size + 1 + more) [(a, b)] = some (a.same b)) ∧
    (a.same b = true ↔ a.erase = b.erase) ∧
    (a.same b = true ↔ a.kind = b.kind ∧ a.key = b.key ∧
      List.Forall₂ (fun x y => x.same y = true) a.children b.children) ∧
    Equivalence (fun x y : Node => x.same y = true) ∧
    (a.same b = true → ∀ limit, a.render limit = b.render limit) := by
  refine ⟨fun more => ?_, same_iff a b, same_iff_children a b, same_equivalence, ?_⟩
  · exact answerWithin_of_min (by omega)
  · intro same limit
    rw [← render_erase, (same_iff a b).mp same, render_erase]

/-- The same tree read at two places, with a statement as an operand. -/
theorem same_is_structural_moved :
    let tree (p : Position) : Node :=
      .binary .sub (.number 7 (.ofPosition p)) (.print (.reference "x" .unknown) (.ofPosition p))
        (.ofPosition p)
    tree ⟨1, 1⟩ ≠ tree ⟨2, 5⟩ ∧ answerWithin 5 [(tree ⟨1, 1⟩, tree ⟨2, 5⟩)] = some true ∧
      (tree ⟨1, 1⟩).same (tree ⟨2, 5⟩) = true ∧
      (tree ⟨1, 1⟩).render 3 = .error (.operandStatement .print) ∧
      ∀ limit, (tree ⟨1, 1⟩).render limit = (tree ⟨2, 5⟩).render limit := by
  intro tree
  have compared : answerWithin 5 [(tree ⟨1, 1⟩, tree ⟨2, 5⟩)] = some true := by decide
  obtain ⟨answers, -, -, -, writes⟩ := same_is_structural (tree ⟨1, 1⟩) (tree ⟨2, 5⟩)
  have same : (tree ⟨1, 1⟩).same (tree ⟨2, 5⟩) = true :=
    Option.some.inj ((answers 0).symm.trans compared)
  exact ⟨by decide, compared, same, rfl, writes same⟩

end Node
end IntScript

import IntScript.Proofs.Rerunning
import IntScript.Proofs.RightEdges
import IntScript.Report.Wording

/-! Which fault of an expression is reported. Operands are evaluated before the operator that
joins them, the left one first, so an expression that has no value fails for the fault that stands
first when its parts are listed in that order. -/
namespace IntScript

namespace Node

/-- The parts of an expression, operands before the operator that joins them, from left to right. -/
def postorder : Node → List Node
  | .binary op left right place =>
    left.postorder ++ (right.postorder ++ [.binary op left right place])
  | node => [node]

/-- Evaluation gives this number, if it may use as many levels as it takes. -/
def HasValue (env : Bindings) (node : Node) (n : Int) : Prop :=
  ∃ limit sums after, (evaluate env limit node).run.run sums = (.ok n, after)

/-- A text, a name without a value, or a division of one value by another that is zero. -/
def Faulty (env : Bindings) : Node → Prop
  | .string .. => True
  | .reference name _ => env.get? name = none
  | .binary op left right _ => op = .div ∧ (∃ n, left.HasValue env n) ∧ right.HasValue env 0
  | .number .. | .assignment .. | .print .. => False

/-- What a part is reported as if it is faulty. -/
def complaint : Node → Category
  | .string .. => .typeError
  | .reference .. => .nameError
  | _ => .arithmeticError

/-- The value of an expression that is given the levels it takes. -/
def value? (env : Bindings) (node : Node) : Option Int :=
  ((evaluate env node.levels node).run.run []).1.toOption

variable {env : Bindings} {node : Node} {n : Int}

theorem evaluate_levels {sums after : List (Int × Int)}
    (ran : (Evaluation.direct env node).run.run sums = (.ok n, after)) :
    (evaluate env node.levels node).run.run sums = (.ok n, after) :=
  (Evaluation.evaluate_of_levels (Nat.le_refl _) env sums).trans ran

/-- The value does not depend on the levels, nor on the sums formed before. -/
theorem hasValue_iff : node.HasValue env n ↔ node.value? env = some n := by
  constructor
  · rintro ⟨limit, sums, after, ran⟩
    have enough := evaluate_levels (Evaluation.direct_of_evaluate ran)
    obtain ⟨after', ran'⟩ := Evaluation.evaluate_follows rfl _ _ _ enough []
    rw [value?, ran']
    rfl
  · intro found
    rcases ran : (evaluate env node.levels node).run.run [] with ⟨e | value, after⟩
    · rw [value?, ran] at found
      cases found
    · rw [value?, ran] at found
      cases found
      exact ⟨_, _, _, ran⟩

theorem hasValue_of_direct {sums after : List (Int × Int)}
    (ran : (Evaluation.direct env node).run.run sums = (.ok n, after)) : node.HasValue env n :=
  ⟨node.levels, sums, after, evaluate_levels ran⟩

theorem HasValue.unique {k : Int} (first : node.HasValue env n) (second : node.HasValue env k) :
    n = k := by
  rw [hasValue_iff] at first second
  exact Option.some.inj (first.symm.trans second)

instance (env : Bindings) : DecidablePred (Faulty env)
  | .string .. => .isTrue trivial
  | .reference name _ => inferInstanceAs (Decidable (env.get? name = none))
  | .binary op left right _ =>
    decidable_of_iff (op = .div ∧ (left.value? env).isSome ∧ right.value? env = some 0)
      (by simp only [Faulty, hasValue_iff, Option.isSome_iff_exists])
  | .number .. | .assignment .. | .print .. => .isFalse id

/-- The faulty part that stands first. -/
def firstFault? (env : Bindings) (node : Node) : Option Node :=
  node.postorder.find? (Faulty env ·)

/-- The part itself, if it is faulty. -/
def ownFault? (env : Bindings) (part : Node) : Option Node :=
  if part.Faulty env then some part else none

theorem firstFault?_reference {name : String} {place : Place} :
    (Node.reference name place).firstFault? env = (Node.reference name place).ownFault? env := by
  simp only [firstFault?, postorder, List.find?_singleton, decide_eq_true_eq, ownFault?]

theorem firstFault?_binary {op : Operator} {left right : Node} {place : Place} :
    (Node.binary op left right place).firstFault? env =
      (left.firstFault? env).or
        ((right.firstFault? env).or ((Node.binary op left right place).ownFault? env)) := by
  simp only [firstFault?, postorder, List.find?_append, List.find?_singleton, decide_eq_true_eq,
    ownFault?]

end Node

/-- The error is about this part, not about an operand of it. -/
def EvalError.About (part : Node) : EvalError → Prop
  | .stringOperand text place => part = .string text place
  | .unbound name place => part = .reference name place
  | .zeroDivision expr place =>
    ∃ left right, part = .binary .div left right place ∧ part.written = .ok expr
  | .notStatement .. | .notExpression .. | .operandStatement _ | .tooDeep => False

theorem EvalError.About.notice {part : Node} {e : EvalError} (about : e.About part) :
    ∃ notice, e.notice? = some notice ∧ notice.category = part.complaint ∧
      notice.place = part.place := by
  cases e with
  | stringOperand text place =>
    cases about
    exact ⟨_, rfl, rfl, rfl⟩
  | unbound name place =>
    cases about
    exact ⟨_, rfl, rfl, rfl⟩
  | zeroDivision expr place =>
    obtain ⟨left, right, rfl, -⟩ := about
    exact ⟨_, rfl, rfl, rfl⟩
  | _ => contradiction

namespace Evaluation
variable {env : Bindings} {node : Node}

/-- With a fault the outcome is an error about it, without one it is a value. -/
def Decides : Option Node → Except EvalError Int → Prop
  | none, outcome => ∃ n, outcome = .ok n
  | some part, outcome => ∃ e, outcome = .error e ∧ e.About part

theorem Decides.exists_ok_iff {fault : Option Node} {outcome : Except EvalError Int}
    (decides : Decides fault outcome) : (∃ n, outcome = .ok n) ↔ fault = none := by
  cases fault with
  | none => exact iff_of_true decides rfl
  | some part =>
    obtain ⟨e, rfl, -⟩ := decides
    simp

/-- A computation that goes on from values has the faults of its first part, and then its own. -/
theorem Decides.bind {x : Evaluation Int} {next : Int → Evaluation Int} {first second : Option Node}
    {sums : List (Int × Int)} (decides : Decides first (x.run.run sums).1)
    (others : ∀ a middle, x.run.run sums = (.ok a, middle) →
      Decides second ((next a).run.run middle).1) :
    Decides (first.or second) ((x >>= next).run.run sums).1 := by
  rw [run_bind]
  rcases outcome : x.run.run sums with ⟨e | a, middle⟩
  · rw [outcome] at decides
    cases first with
    | none =>
      obtain ⟨n, returned⟩ := decides
      cases returned
    | some part => exact decides
  · cases decides.exists_ok_iff.mp ⟨a, congrArg Prod.fst outcome⟩
    exact others a middle outcome

theorem operate_decides {op : Operator} {left right : Node} {place : Place} {a b : Int}
    (free : (Node.binary op left right place).statementFree)
    (first : left.HasValue env a) (second : right.HasValue env b) (sums : List (Int × Int)) :
    Decides ((Node.binary op left right place).ownFault? env)
      ((operate (.binary op left right place) op a b).run.run sums).1 := by
  by_cases zero : op = .div ∧ b = 0
  · obtain ⟨rfl, rfl⟩ := zero
    have faulty : (Node.binary .div left right place).Faulty env := ⟨rfl, ⟨a, first⟩, second⟩
    -- the message quotes the division, which can always be written out
    obtain ⟨text, wrote⟩ := Node.written_of_statementFree free
    rw [Node.ownFault?, if_pos faulty]
    simp only [operate, and_self, if_true, written, wrote]
    exact ⟨_, rfl, left, right, rfl, wrote⟩
  · have sound : ¬ (Node.binary op left right place).Faulty env := by
      rintro ⟨rfl, -, divisor⟩
      exact zero ⟨rfl, second.unique divisor⟩
    rw [Node.ownFault?, if_neg sound]
    unfold operate
    rw [if_neg zero]
    cases op <;> exact ⟨_, rfl⟩

theorem direct_decides (free : node.statementFree) (sums : List (Int × Int)) :
    Decides (node.firstFault? env) ((direct env node).run.run sums).1 := by
  induction node generalizing sums with
  | number value place => exact ⟨value, rfl⟩
  | string text place => exact ⟨_, rfl, rfl⟩
  | reference name place =>
    rw [Node.firstFault?_reference, Node.ownFault?, direct]
    cases bound : env.get? name with
    | some value =>
      have sound : ¬ (Node.reference name place).Faulty env := by simp [Node.Faulty, bound]
      rw [if_neg sound]
      exact ⟨value, rfl⟩
    | none =>
      have faulty : (Node.reference name place).Faulty env := bound
      rw [if_pos faulty]
      exact ⟨_, rfl, rfl⟩
  | binary op left right place ihLeft ihRight =>
    obtain ⟨freeLeft, freeRight⟩ := Bool.and_eq_true_iff.mp free
    rw [Node.firstFault?_binary, direct]
    -- the right operand and the operator matter only where all in front of them has a value
    refine (ihLeft freeLeft sums).bind fun a middle ranLeft => ?_
    refine (ihRight freeRight middle).bind fun b last ranRight => ?_
    exact operate_decides free (Node.hasValue_of_direct ranLeft) (Node.hasValue_of_direct ranRight)
      last
  | assignment | print => contradiction

end Evaluation

/-- An expression has a value exactly if none of its parts is faulty. If some are, evaluation fails
for the one that stands first, operands before their operator and from left to right. The error is
reported as what is wrong with that part, at its place. Only an expression nested deeper than the
limit may be stopped by that instead. -/
theorem first_fault_reported (env : Bindings) (limit : Nat) (node : Node)
    (free : node.statementFree = true) (sums : List (Int × Int)) :
    let outcome := ((evaluate env limit node).run.run sums).1
    limit < node.levels ∧ outcome = .error .tooDeep ∨
      ((∃ n, outcome = .ok n) ↔ ∀ part ∈ node.postorder, ¬ part.Faulty env) ∧
      ∀ part, node.postorder.find? (Node.Faulty env ·) = some part →
        ∃ e notice, outcome = .error e ∧ e.About part ∧ e.notice? = some notice ∧
          notice.category = part.complaint ∧ notice.place = part.place := by
  intro outcome
  rcases Evaluation.evaluate_agrees env limit node sums with same | ⟨low, stopped⟩
  · right
    have decides : Evaluation.Decides (node.firstFault? env) outcome := by
      rw [show outcome = ((Evaluation.direct env node).run.run sums).1 from congrArg Prod.fst same]
      exact Evaluation.direct_decides free sums
    constructor
    · rw [decides.exists_ok_iff, Node.firstFault?, List.find?_eq_none]
      simp only [decide_eq_true_eq]
    · intro part found
      rw [Node.firstFault?, found] at decides
      obtain ⟨e, failed, about⟩ := decides
      obtain ⟨notice, noticed, described⟩ := about.notice
      exact ⟨e, notice, failed, about, noticed, described⟩
  · exact .inl ⟨Nat.not_le.mp low, stopped⟩

/-- The divisor has to be evaluated before the division is found faulty, and that comes before the
name to the right of it. -/
theorem first_fault_reported_division :
    let env : Bindings := ⟨[("x", 3)]⟩
    let x : Node := .reference "x" .unknown
    let division : Node :=
      .binary .div (.number 6 .unknown) (.binary .sub x x .unknown) (.ofPosition ⟨1, 3⟩)
    let node : Node := .binary .add division (.reference "y" .unknown) .unknown
    node.statementFree = true ∧ node.postorder.find? (Node.Faulty env ·) = some division ∧
      ∃ e notice, ((evaluate env 3 node).run.run []).1 = .error e ∧ e.About division ∧
        e.notice? = some notice ∧ notice.category = .arithmeticError ∧
        notice.place = .ofPosition ⟨1, 3⟩ := by
  intro env x division node
  have free : node.statementFree = true := rfl
  have found : node.postorder.find? (Node.Faulty env ·) = some division := by decide +kernel
  refine ⟨free, found, ?_⟩
  rcases first_fault_reported env 3 node free [] with ⟨low, -⟩ | ⟨-, reported⟩
  · exact absurd low (by decide)
  · exact reported division found

end IntScript

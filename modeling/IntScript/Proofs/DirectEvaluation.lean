import IntScript.Evaluation
import IntScript.Proofs.Writing

/-! Expressions evaluated by plain recursion: the left operand, then the right
one, then the check for a zero divisor, then the operator. The evaluator that
follows left spines in a loop gives the same outcome and forms the same sums in
the same order, as long as its limit is not reached. -/
namespace IntScript

theorem truncatedQuotient_eq_tdiv (a b : Int) : truncatedQuotient a b = a.tdiv b := by
  obtain ⟨m, rfl | rfl⟩ := Int.eq_nat_or_neg a <;> obtain ⟨n, rfl | rfl⟩ := Int.eq_nat_or_neg b
  all_goals simp only [truncatedQuotient, Int.natAbs_neg, Int.natAbs_natCast, Int.neg_tdiv,
    Int.tdiv_neg, Int.ofNat_tdiv, Int.neg_neg]
  · exact if_pos (by omega)
  · by_cases zero : n = 0
    · simp [zero]
    · exact if_neg (by omega)
  · by_cases zero : m = 0
    · simp [zero]
    · exact if_neg (by omega)
  · by_cases zero : m = 0 ∨ n = 0
    · rcases zero with rfl | rfl <;> simp
    · exact if_pos (by omega)

namespace Evaluation

/-- The source text of a tree, without a limit. -/
def written (node : Node) : Evaluation String :=
  match node.written with
  | .ok text => pure text
  | .error e => throw (.ofRender e)

/-- The value of an operator on evaluated operands. A sum is recorded with its operands. -/
def operate (whole : Node) (op : Operator) (a b : Int) : Evaluation Int :=
  if op = .div ∧ b = 0 then do throw (.zeroDivision (← written whole) whole.place)
  else match op with
    | .add => do
      modify fun sums => (a, b) :: sums
      pure (a + b)
    | .sub => pure (a - b)
    | .mul => pure (a * b)
    | .div => pure (a.tdiv b)

/-- The integer value of an expression, by recursion. -/
def direct (env : Bindings) : Node → Evaluation Int
  | .number value _ => pure value
  | .string text place => throw (.stringOperand text place)
  | .reference name place =>
    match env.get? name with
    | some value => pure value
    | none => throw (.unbound name place)
  | .binary op left right place => do
    let a ← direct env left
    let b ← direct env right
    operate (.binary op left right place) op a b
  | .assignment name value place => do
    throw (.notExpression (← written (.assignment name value place)) place)
  | .print argument place => do throw (.notExpression (← written (.print argument place)) place)

theorem run_bind {α β : Type} (x : Evaluation α) (next : α → Evaluation β)
    (sums : List (Int × Int)) :
    (x >>= next).run.run sums =
      match x.run.run sums with
      | (.ok a, sums) => (next a).run.run sums
      | (.error e, sums) => (.error e, sums) := by
  rw [ExceptT.run_bind, StateT.run_bind]
  rcases x.run.run sums with ⟨_ | a, after⟩ <;> rfl

/-- The same outcome and the same sums, unless the limit is not enough and stops
the computation. -/
def Agrees {α : Type} (enough : Prop) (limited free : Evaluation α) : Prop :=
  ∀ sums, limited.run.run sums = free.run.run sums ∨
    (¬ enough ∧ (limited.run.run sums).1 = .error .tooDeep)

theorem Agrees.refl {α : Type} {enough : Prop} (x : Evaluation α) : Agrees enough x x :=
  fun _ => .inl rfl

theorem Agrees.bind {α β : Type} {enough : Prop} {limited free : Evaluation α}
    {next next' : α → Evaluation β} (first : Agrees enough limited free)
    (second : ∀ a, Agrees enough (next a) (next' a)) :
    Agrees enough (limited >>= next) (free >>= next') := by
  intro sums
  rw [run_bind, run_bind]
  rcases first sums with same | ⟨low, stopped⟩
  · rw [same]
    rcases free.run.run sums with ⟨e | a, after⟩
    · exact .inl rfl
    · exact second a after
  · right
    refine ⟨low, ?_⟩
    rcases outcome : limited.run.run sums with ⟨e | a, after⟩
    · rw [outcome] at stopped
      cases stopped
      rfl
    · rw [outcome] at stopped
      contradiction

theorem Agrees.weaken {α : Type} {enough enough' : Prop} {limited free : Evaluation α}
    (agrees : Agrees enough limited free) (implies : enough' → enough) :
    Agrees enough' limited free := by
  intro sums
  rcases agrees sums with same | ⟨low, stopped⟩
  · exact .inl same
  · exact .inr ⟨fun high => low (implies high), stopped⟩

theorem render_agrees (limit : Nat) (node : Node) :
    Agrees (node.levels ≤ limit) (render limit node) (written node) := by
  intro sums
  rcases node.render_agrees limit with same | ⟨low, stopped⟩
  · left
    rw [render, same]
    rfl
  · right
    refine ⟨low, ?_⟩
    rw [render, stopped]
    rfl

theorem apply_agrees (limit : Nat) (whole : Node) (op : Operator) (a b : Int) :
    Agrees (whole.levels ≤ limit) (apply limit whole op a b) (operate whole op a b) := by
  cases op with
  | add => simpa [apply, sum, operate] using Agrees.refl _
  | sub => simpa [apply, operate] using Agrees.refl _
  | mul => simpa [apply, operate] using Agrees.refl _
  | div =>
    by_cases zero : b = 0
    · simp only [apply, operate, divide?, zero, if_true, and_self]
      exact (render_agrees limit whole).bind fun text => Agrees.refl _
    · simp only [apply, operate, divide?, zero, if_false, and_false, truncatedQuotient_eq_tdiv]
      exact Agrees.refl _

/-- Recursion into left operands only; all other trees are one level deeper. -/
def leftward (env : Bindings) (limit : Nat) : Node → Evaluation Int
  | .binary op left right place => do
    let a ← leftward env limit left
    let b ← evaluate env limit right
    apply (limit + 1) (.binary op left right place) op a b
  | node => evaluate env limit node

theorem leftward_of_kind {env : Bindings} {limit : Nat} {node : Node}
    (kind : node.kind ≠ .binary) : leftward env limit node = evaluate env limit node := by
  cases node with
  | binary => exact absurd rfl kind
  | _ => rfl

theorem evaluate_binary (env : Bindings) (limit : Nat) (op : Operator) (left right : Node)
    (place : Place) :
    evaluate env (limit + 1) (.binary op left right place) =
      leftward env limit (.binary op left right place) := by
  let step (left : Node × Int) (link : Link) : Evaluation (Node × Int) := do
    let right ← evaluate env limit link.right
    return (link.attach left.1, ← apply (limit + 1) (link.attach left.1) link.op left.2 right)
  have joins : ∀ left link, (leftward env limit left >>= fun a => step (left, a) link) =
      leftward env limit (link.attach left) >>= fun b => pure (link.attach left, b) := by
    intro left link
    simp [step, leftward, Link.attach]
  have loop := Node.foldlM_spine _ step joins (.binary op left right place)
  rw [leftward_of_kind (Node.kind_spine _)] at loop
  exact loop

theorem leftward_agrees {env : Bindings} {limit : Nat}
    (below : ∀ node : Node,
      Agrees (node.levels ≤ limit) (evaluate env limit node) (direct env node))
    (node : Node) :
    Agrees (node.levelsOnSpine ≤ limit + 1) (leftward env limit node) (direct env node) := by
  induction node with
  | binary op left right place ih _ =>
    have whole : (Node.binary op left right place).levelsOnSpine =
      max left.levelsOnSpine (right.levels + 1) := Node.levels_binary op left right place
    rw [whole]
    -- the left operand stays on the spine, the right one is a level deeper
    refine (ih.weaken (by omega)).bind fun a => ?_
    refine ((below right).weaken (by omega)).bind fun b => ?_
    exact (apply_agrees (limit + 1) _ op a b).weaken (by rw [Node.levels_binary]; exact id)
  | _ => exact (below _).weaken Nat.le_of_succ_le_succ

theorem evaluate_agrees (env : Bindings) (limit : Nat) (node : Node) :
    Agrees (node.levels ≤ limit) (evaluate env limit node) (direct env node) := by
  induction limit generalizing node with
  | zero =>
    have := node.levels_pos
    exact fun sums => .inr ⟨by omega, rfl⟩
  | succ limit below =>
    cases node with
    | binary op left right place =>
      rw [evaluate_binary]
      exact leftward_agrees below _
    | assignment name value place =>
      exact (render_agrees (limit + 1) _).bind fun text => Agrees.refl _
    | print argument place =>
      exact (render_agrees (limit + 1) _).bind fun text => Agrees.refl _
    | _ => exact Agrees.refl _

theorem evaluate_of_levels {limit : Nat} {node : Node} (enough : node.levels ≤ limit)
    (env : Bindings) (sums : List (Int × Int)) :
    (evaluate env limit node).run.run sums = (direct env node).run.run sums :=
  (evaluate_agrees env limit node sums).resolve_right fun stopped => stopped.1 enough

theorem direct_of_evaluate {env : Bindings} {limit : Nat} {node : Node} {value : Int}
    {sums after : List (Int × Int)}
    (ran : (evaluate env limit node).run.run sums = (.ok value, after)) :
    (direct env node).run.run sums = (.ok value, after) := by
  rcases evaluate_agrees env limit node sums with same | ⟨-, stopped⟩
  · exact same.symm.trans ran
  · rw [ran] at stopped
    cases stopped

end Evaluation

def Node.additions : Node → Nat
  | .number .. | .string .. | .reference .. => 0
  | .binary op left right _ => left.additions + right.additions + if op = .add then 1 else 0
  | .assignment _ value _ => value.additions
  | .print argument _ => argument.additions

namespace Evaluation

theorem run_bind_ok {α β : Type} {x : Evaluation α} {next : α → Evaluation β}
    {sums after : List (Int × Int)} {value : β}
    (ran : (x >>= next).run.run sums = (.ok value, after)) :
    ∃ a middle, x.run.run sums = (.ok a, middle) ∧
      (next a).run.run middle = (.ok value, after) := by
  rw [run_bind] at ran
  rcases outcome : x.run.run sums with ⟨e | a, middle⟩
  · rw [outcome] at ran
    cases ran
  · rw [outcome] at ran
    exact ⟨a, middle, rfl, ran⟩

theorem throw_not_ok {α β : Type} {x : Evaluation α} {e : α → EvalError} {value : β}
    {sums after : List (Int × Int)} :
    (x >>= fun a => throw (e a) : Evaluation β).run.run sums ≠ (.ok value, after) := by
  intro ran
  obtain ⟨a, middle, _, ran⟩ := run_bind_ok ran
  cases ran

theorem operate_sums {whole : Node} {op : Operator} {a b value : Int}
    {sums after : List (Int × Int)}
    (ran : (operate whole op a b).run.run sums = (.ok value, after)) :
    ∃ formed, after = formed ++ sums ∧ formed.length = if op = .add then 1 else 0 := by
  unfold operate at ran
  split at ran
  · exact absurd ran throw_not_ok
  · cases op with
    | add =>
      cases ran
      exact ⟨[(a, b)], rfl, rfl⟩
    | _ =>
      cases ran
      exact ⟨[], rfl, rfl⟩

/-- An expression that has a value forms one sum for each plus sign. -/
theorem direct_sums {env : Bindings} {node : Node} {value : Int} {sums after : List (Int × Int)}
    (ran : (direct env node).run.run sums = (.ok value, after)) :
    ∃ formed, after = formed ++ sums ∧ formed.length = node.additions := by
  induction node generalizing value sums after with
  | number =>
    cases ran
    exact ⟨[], rfl, rfl⟩
  | string => cases ran
  | reference name place =>
    rw [direct] at ran
    split at ran
    · cases ran
      exact ⟨[], rfl, rfl⟩
    · cases ran
  | binary op left right place ihLeft ihRight =>
    obtain ⟨a, middle, ranLeft, ran⟩ := run_bind_ok ran
    obtain ⟨b, last, ranRight, ran⟩ := run_bind_ok ran
    obtain ⟨first, rfl, firstLength⟩ := ihLeft ranLeft
    obtain ⟨second, rfl, secondLength⟩ := ihRight ranRight
    obtain ⟨third, rfl, thirdLength⟩ := operate_sums ran
    refine ⟨third ++ (second ++ first), by simp, ?_⟩
    simp only [List.length_append, firstLength, secondLength, thirdLength, Node.additions]
    omega
  | assignment => exact absurd ran throw_not_ok
  | print => exact absurd ran throw_not_ok

end Evaluation

/-- The loop over left spines does what plain recursion does: the same value or
the same error, and the same sums in the same order. It can only stop earlier, at
a limit smaller than the tree is deep. An expression that has a value forms one sum
for each of its plus signs. -/
theorem evaluate_eq_direct (env : Bindings) (limit : Nat) (node : Node)
    (sums : List (Int × Int)) :
    ((evaluate env limit node).run.run sums = (Evaluation.direct env node).run.run sums ∨
      limit < node.levels ∧ ((evaluate env limit node).run.run sums).1 = .error .tooDeep) ∧
    ∀ value after, (evaluate env limit node).run.run sums = (.ok value, after) →
      ∃ formed, after = formed ++ sums ∧ formed.length = node.additions := by
  have agrees := Evaluation.evaluate_agrees env limit node sums
  rw [Nat.not_le] at agrees
  refine ⟨agrees, fun value after ran => ?_⟩
  rcases agrees with same | ⟨_, stopped⟩
  · exact Evaluation.direct_sums (same ▸ ran)
  · rw [ran] at stopped
    cases stopped

/-- Two sums, the outer one of which is formed last, and a quotient below zero. -/
theorem evaluate_eq_direct_sums :
    let env : Bindings := ⟨[("x", 5)]⟩
    let number (n : Int) : Node := .number n .unknown
    let product : Node := .binary .mul (number 2) (.reference "x" .unknown) .unknown
    let quotient : Node := .binary .div (number (-7)) (number 2) .unknown
    let node : Node := .binary .add (.binary .add product quotient .unknown) (number 1) .unknown
    (evaluate env 3 node).run.run [] = (.ok 8, [(7, 1), (10, -3)]) ∧
      (Evaluation.direct env node).run.run [] = (.ok 8, [(7, 1), (10, -3)]) ∧
      node.additions = 2 := by
  intro env number product quotient node
  have value : (evaluate env 3 node).run.run [] = (.ok 8, [(7, 1), (10, -3)]) := by
    have computed : ((evaluate env 3 node).run.run []).1.toOption = some 8 ∧
        ((evaluate env 3 node).run.run []).2 = [(7, 1), (10, -3)] := by decide +kernel
    obtain ⟨result, sums⟩ := computed
    rcases ran : (evaluate env 3 node).run.run [] with ⟨e | n, after⟩ <;>
      rw [ran] at result sums <;> cases result
    exact congrArg (Prod.mk _) sums
  obtain ⟨same | ⟨low, -⟩, counted⟩ := evaluate_eq_direct env 3 node []
  · obtain ⟨formed, all, count⟩ := counted _ _ value
    refine ⟨value, same.symm.trans value, ?_⟩
    rw [← count, ← List.append_nil formed, ← all]
    rfl
  · exact absurd low (by decide)

end IntScript

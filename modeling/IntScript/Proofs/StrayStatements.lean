import IntScript.Proofs.Blame
import IntScript.Report.Trouble

/-! Trees that cannot be written out. Writing asks each operand how tightly it binds, after it has
written that operand and before it goes on to what stands to the right of it. A statement does not
say, so the first operand that is a statement, in this order, is the one that writing fails at, and
trees without such an operand are written to the end. -/
namespace IntScript

def NodeKind.isStatement : NodeKind → Bool
  | .assignment | .print => true
  | _ => false

namespace Node

/-- All operands in a tree, in the order in which they are asked how tightly they bind. -/
def operands : Node → List Node
  | .number .. | .string .. | .reference .. => []
  | .binary _ left right _ => left.operands ++ ([left] ++ (right.operands ++ [right]))
  | .assignment _ value _ => value.operands
  | .print argument _ => argument.operands

/-- The operands are those of the operators that stand anywhere in the tree. -/
theorem mem_operands {node operand : Node} :
    operand ∈ node.operands ↔ ∃ op left right place,
      Part (.binary op left right place) node ∧ (operand = left ∨ operand = right) := by
  constructor
  · intro member
    induction node with
    | number | string | reference => cases member
    | binary op left right place ihLeft ihRight =>
      simp only [operands, List.mem_append, List.mem_singleton] at member
      rcases member with inLeft | isLeft | inRight | isRight
      · obtain ⟨op', left', right', place', inside, side⟩ := ihLeft inLeft
        exact ⟨op', left', right', place', .left inside, side⟩
      · exact ⟨op, left, right, place, .whole, .inl isLeft⟩
      · obtain ⟨op', left', right', place', inside, side⟩ := ihRight inRight
        exact ⟨op', left', right', place', .right inside, side⟩
      · exact ⟨op, left, right, place, .whole, .inr isRight⟩
    | assignment name value place ih =>
      obtain ⟨op, left, right, place', inside, side⟩ := ih member
      exact ⟨op, left, right, place', .value inside, side⟩
    | print argument place ih =>
      obtain ⟨op, left, right, place', inside, side⟩ := ih member
      exact ⟨op, left, right, place', .argument inside, side⟩
  · rintro ⟨op, left, right, place, inside, side⟩
    induction inside with
    | whole => rcases side with rfl | rfl <;> simp [operands]
    | left inside ih | right inside ih => simp [operands, ih]
    | value inside ih | argument inside ih => exact ih

/-- With a statement among the operands the outcome is the failure it causes, without one there is
an outcome. -/
def Decides {α : Type} : Option Node → Except RenderError α → Prop
  | none, outcome => ∃ a, outcome = .ok a
  | some stray, outcome => outcome = .error (.operandStatement stray.kind)

/-- The operand itself, if it is a statement. -/
def stray? (operand : Node) : Option Node := if operand.kind.isStatement then some operand else none

/-- The statement among the operands that is asked first. -/
def firstStray? (node : Node) : Option Node := node.operands.find? (·.kind.isStatement)

theorem firstStray?_binary (op : Operator) (left right : Node) (place : Place) :
    (Node.binary op left right place).firstStray? =
      left.firstStray?.or (left.stray?.or (right.firstStray?.or right.stray?)) := by
  simp only [firstStray?, operands, stray?, List.find?_append, List.find?_singleton]

theorem isSome_firstStray? (node : Node) :
    node.firstStray?.isSome ↔ ∃ op left right place, Part (.binary op left right place) node ∧
      (left.kind.isStatement ∨ right.kind.isStatement) := by
  rw [firstStray?, List.find?_isSome]
  constructor
  · rintro ⟨operand, member, statement⟩
    obtain ⟨op, left, right, place, inside, rfl | rfl⟩ := mem_operands.mp member
    · exact ⟨op, operand, right, place, inside, .inl statement⟩
    · exact ⟨op, left, operand, place, inside, .inr statement⟩
  · rintro ⟨op, left, right, place, inside, statement | statement⟩
    · exact ⟨left, mem_operands.mpr ⟨op, left, right, place, inside, .inl rfl⟩, statement⟩
    · exact ⟨right, mem_operands.mpr ⟨op, left, right, place, inside, .inr rfl⟩, statement⟩

theorem Decides.bind {α β : Type} {first second : Option Node} {x : Except RenderError α}
    {next : α → Except RenderError β} (decides : Decides first x)
    (others : ∀ a, Decides second (next a)) : Decides (first.or second) (x >>= next) := by
  cases first with
  | some stray =>
    obtain rfl : x = .error (.operandStatement stray.kind) := decides
    rfl
  | none =>
    obtain ⟨a, rfl⟩ := decides
    exact others a

/-- A step that cannot fail changes nothing. -/
theorem Decides.returns {α β : Type} {first : Option Node} {x : Except RenderError α} (f : α → β)
    (decides : Decides first x) : Decides first (do return f (← x)) := by
  have last : ∀ a, Decides none (pure (f a) : Except RenderError β) := fun a => ⟨f a, rfl⟩
  have whole := decides.bind last
  rwa [Option.or_none] at whole

theorem Decides.exists_error_iff {α : Type} {first : Option Node} {x : Except RenderError α}
    (decides : Decides first x) : (∃ e, x = .error e) ↔ first.isSome := by
  cases first with
  | some stray => exact iff_of_true ⟨_, decides⟩ rfl
  | none =>
    obtain ⟨a, rfl⟩ := decides
    simp

theorem precedence_decides (operand : Node) : Decides operand.stray? operand.precedence := by
  cases operand <;> simp [stray?, Decides, kind, NodeKind.isStatement, precedence, precedence?]

theorem written_decides (node : Node) : Decides node.firstStray? node.written := by
  induction node with
  | number | string | reference => exact ⟨_, rfl⟩
  | binary op left right place ihLeft ihRight =>
    rw [firstStray?_binary, written, joined]
    -- the order of these steps is the order of the operands
    refine ihLeft.bind fun leftText => ?_
    refine (precedence_decides left).bind fun leftPrecedence => ?_
    refine ihRight.bind fun rightText => ?_
    exact (precedence_decides right).returns _
  | assignment name value place ih => exact ih.returns _
  | print argument place ih => exact ih.returns _

end Node

theorem precedenceFault_eq (kind : NodeKind) :
    precedenceFault kind =
      ⟨"AttributeError", "'" ++ kind.name ++ "' object has no attribute 'precedence'"⟩ := by
  cases kind <;> rfl

/-- Writing along left spines in a loop gives what plain recursion gives, unless the limit is too
low and stops it. It fails exactly if an operator somewhere in the tree has a statement as an
operand, at the first such operand in the order of writing, and the failure names its kind. -/
theorem render_as_written (limit : Nat) (node : Node) :
    let outcome := node.render limit
    limit < node.levels ∧ outcome = .error .tooDeep ∨
      outcome = node.written ∧
      ((∃ e, outcome = .error e) ↔ ∃ op left right place,
        Node.Part (.binary op left right place) node ∧
          (left.kind.isStatement ∨ right.kind.isStatement)) ∧
      ∀ e, outcome = .error e → ∃ stray,
        node.operands.find? (·.kind.isStatement) = some stray ∧ e = .operandStatement stray.kind ∧
        Trouble.ofRender e = .fault ⟨"AttributeError",
          "'" ++ stray.kind.name ++ "' object has no attribute 'precedence'"⟩ := by
  intro outcome
  rcases node.render_agrees limit with same | ⟨low, stopped⟩
  · right
    have decides : Node.Decides node.firstStray? outcome := by
      rw [show outcome = node.written from same]
      exact node.written_decides
    refine ⟨same, decides.exists_error_iff.trans node.isSome_firstStray?, fun e failed => ?_⟩
    obtain ⟨stray, found⟩ := Option.isSome_iff_exists.mp (decides.exists_error_iff.mp ⟨e, failed⟩)
    rw [found] at decides
    obtain rfl : e = .operandStatement stray.kind := Except.error.inj (failed.symm.trans decides)
    exact ⟨stray, found, rfl, congrArg Trouble.fault (precedenceFault_eq stray.kind)⟩
  · exact .inl ⟨Nat.not_le.mp low, stopped⟩

/-- A left operand that binds less tightly and a right one that binds as tightly are in
parentheses. Of statements the left operand is asked before the right one is written, so the one
in the right operand is not met. -/
theorem render_as_written_left :
    let x : Node := .reference "x" .unknown
    let left : Node := .print (.binary .mul x x .unknown) .unknown
    let right : Node := .binary .add x (.assignment "x" x .unknown) .unknown
    let node : Node := .binary .sub left right .unknown
    let product : Node :=
      .binary .mul (.binary .sub x x .unknown) (.binary .div x x .unknown) .unknown
    let sum : Node := .binary .add product x .unknown
    sum.render 3 = .ok "(x - x) * (x / x) + x" ∧
      sum.written = .ok "(x - x) * (x / x) + x" ∧
      node.operands.find? (·.kind.isStatement) = some left ∧
      node.render 4 = .error (.operandStatement .print) ∧ node.render 4 = node.written := by
  intro x left right node product sum
  have rendered : sum.render 3 = .ok "(x - x) * (x / x) + x" := by
    have computed : (sum.render 3).toOption = some "(x - x) * (x / x) + x" := by decide +kernel
    rcases ran : sum.render 3 with e | text <;> rw [ran] at computed <;> cases computed
    rfl
  have first : node.operands.find? (·.kind.isStatement) = some left := rfl
  obtain ⟨low, -⟩ | ⟨sameSum, -⟩ := render_as_written 3 sum
  · exact absurd low (by decide)
  refine ⟨rendered, sameSum.symm.trans rendered, first, ?_⟩
  obtain ⟨low, -⟩ | ⟨same, fails, named⟩ := render_as_written 4 node
  · exact absurd low (by decide)
  · obtain ⟨e, failed⟩ := fails.mpr ⟨.sub, left, right, .unknown, .whole, .inl rfl⟩
    obtain ⟨stray, found, rfl, -⟩ := named e failed
    cases first.symm.trans found
    exact ⟨failed, same⟩

end IntScript

import IntScript.Node.Render
import IntScript.Proofs.Leftward

/-! Trees written out by plain recursion. The writer that follows left spines in a
loop writes the same, as long as its limit is not reached. -/
namespace IntScript

/-- The same outcome, unless the limit is not enough and stops the computation. -/
def Agrees {ε α : Type} (stop : ε) (enough : Prop) (limited free : Except ε α) : Prop :=
  limited = free ∨ (¬ enough ∧ limited = .error stop)

theorem Agrees.bind {ε α β : Type} {stop : ε} {enough : Prop} {limited free : Except ε α}
    {next next' : α → Except ε β} (first : Agrees stop enough limited free)
    (second : ∀ a, Agrees stop enough (next a) (next' a)) :
    Agrees stop enough (limited >>= next) (free >>= next') := by
  rcases first with rfl | ⟨low, rfl⟩
  · cases limited with
    | error e => exact .inl rfl
    | ok a => exact second a
  · exact .inr ⟨low, rfl⟩

theorem Agrees.weaken {ε α : Type} {stop : ε} {enough enough' : Prop} {limited free : Except ε α}
    (agrees : Agrees stop enough limited free) (implies : enough' → enough) :
    Agrees stop enough' limited free := by
  rcases agrees with same | ⟨low, stopped⟩
  · exact .inl same
  · exact .inr ⟨fun high => low (implies high), stopped⟩

namespace Node

/-- An operator between the texts of its operands. The left one is in parentheses if it
binds less tightly than the operator, the right one also if it binds as tightly. -/
def joined (op : Operator) (left right : Node) (leftText : Except RenderError String)
    (rightText : Except RenderError String) : Except RenderError String := do
  let leftText ← leftText
  let leftPrecedence ← left.precedence
  let rightText ← rightText
  let rightPrecedence ← right.precedence
  return (if leftPrecedence < op.precedence then "(" ++ leftText ++ ")" else leftText) ++
    " " ++ op.symbol ++ " " ++
    (if rightPrecedence ≤ op.precedence then "(" ++ rightText ++ ")" else rightText)

/-- The source text of a tree, by recursion. -/
def written : Node → Except RenderError String
  | .number value _ => .ok (toString value)
  | .string text _ => .ok ("\"" ++ text ++ "\"")
  | .reference name _ => .ok name
  | .binary op left right _ => joined op left right left.written right.written
  | .assignment name value _ => do return name ++ " = " ++ (← value.written)
  | .print argument _ => do return "print(" ++ (← argument.written) ++ ")"

/-- Recursion into left operands only; `render` writes all other trees. -/
def writtenLeftward (render : Node → Except RenderError String) : Node → Except RenderError String
  | .binary op left right _ => joined op left right (writtenLeftward render left) (render right)
  | node => render node

theorem writtenLeftward_of_kind {render : Node → Except RenderError String} {node : Node}
    (kind : node.kind ≠ .binary) : writtenLeftward render node = render node := by
  cases node with
  | binary => exact absurd rfl kind
  | _ => rfl

theorem render_binary (limit : Nat) (op : Operator) (left right : Node) (place : Place) :
    render (limit + 1) (.binary op left right place) =
      writtenLeftward (render limit) (.binary op left right place) := by
  have joins : ∀ left link,
      (writtenLeftward (render limit) left >>= fun text =>
          renderLink (render limit) (left, text) link) =
        writtenLeftward (render limit) (link.attach left) >>= fun text =>
          pure (link.attach left, text) := by
    intro left link
    -- the loop asks for the precedence of its left operand before it writes the right one
    simp [renderLink, parenthesise, writtenLeftward, joined, Link.attach]
  have loop := foldlM_spine _ _ joins (.binary op left right place)
  rw [writtenLeftward_of_kind (kind_spine _)] at loop
  exact loop

theorem joined_agrees {enough : Prop} {op : Operator} {left right : Node}
    {leftText leftText' rightText rightText' : Except RenderError String}
    (first : Agrees .tooDeep enough leftText leftText')
    (second : Agrees .tooDeep enough rightText rightText') :
    Agrees .tooDeep enough (joined op left right leftText rightText)
      (joined op left right leftText' rightText') := by
  refine first.bind fun text => ?_
  refine Agrees.bind (.inl rfl) fun leftPrecedence => ?_
  exact second.bind fun text' => .inl rfl

theorem writtenLeftward_agrees {limit : Nat}
    (below : ∀ node : Node, Agrees .tooDeep (node.levels ≤ limit) (node.render limit) node.written)
    (node : Node) :
    Agrees .tooDeep (node.levelsOnSpine ≤ limit + 1) (writtenLeftward (render limit) node)
      node.written := by
  induction node with
  | binary op left right place ih _ =>
    have whole : (Node.binary op left right place).levelsOnSpine =
      max left.levelsOnSpine (right.levels + 1) := levels_binary op left right place
    rw [whole]
    exact joined_agrees (ih.weaken (by omega)) ((below right).weaken (by omega))
  | _ => exact (below _).weaken Nat.le_of_succ_le_succ

theorem render_agrees (limit : Nat) (node : Node) :
    Agrees .tooDeep (node.levels ≤ limit) (node.render limit) node.written := by
  induction limit generalizing node with
  | zero =>
    have := node.levels_pos
    exact .inr ⟨by omega, rfl⟩
  | succ limit below =>
    cases node with
    | binary op left right place =>
      rw [render_binary]
      exact writtenLeftward_agrees below _
    | assignment name value place =>
      exact Agrees.bind ((below value).weaken Nat.le_of_succ_le_succ) fun text => .inl rfl
    | print argument place =>
      exact Agrees.bind ((below argument).weaken Nat.le_of_succ_le_succ) fun text => .inl rfl
    | _ => exact .inl rfl

end Node
end IntScript

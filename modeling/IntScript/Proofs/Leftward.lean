import IntScript.Node.Spine

/-! A loop along the left spine of a tree is a recursion into left operands. Such
a recursion goes one level deeper only into right operands, into the operand at the
bottom of the spine and into the parts of statements. -/
namespace IntScript

theorem foldlM_attach {m : Type → Type} [Monad m] [LawfulMonad m] {α : Type} {f : Node → m α}
    {step : Node × α → Link → m (Node × α)}
    (joins : ∀ left link, (f left >>= fun a => step (left, a) link) =
      f (link.attach left) >>= fun b => pure (link.attach left, b))
    (links : List Link) (left : Node) :
    (f left >>= fun a => links.foldlM step (left, a)) =
      f (links.foldl (fun left link => link.attach left) left) >>= fun b =>
        pure (links.foldl (fun left link => link.attach left) left, b) := by
  induction links generalizing left with
  | nil => rfl
  | cons link links ih =>
    calc (f left >>= fun a => (link :: links).foldlM step (left, a))
        = (f left >>= fun a => step (left, a) link) >>= links.foldlM step := by
          simp only [List.foldlM_cons, bind_assoc]
      _ = f (link.attach left) >>= fun b => links.foldlM step (link.attach left, b) := by
          simp only [joins, bind_assoc, pure_bind]
      _ = _ := ih (link.attach left)

namespace Node

/-- A loop along the spine that forms what `f` says of each operator is `f`. -/
theorem foldlM_spine {m : Type → Type} [Monad m] [LawfulMonad m] {α : Type} (f : Node → m α)
    (step : Node × α → Link → m (Node × α))
    (joins : ∀ left link, (f left >>= fun a => step (left, a) link) =
      f (link.attach left) >>= fun b => pure (link.attach left, b))
    (node : Node) :
    (do
      let first ← f node.spine.operand
      let whole ← node.spine.links.foldlM step (node.spine.operand, first)
      return whole.2) = f node := by
  have loop := foldlM_attach joins node.spine.links node.spine.operand
  have whole : node.spine.links.foldl (fun left link => link.attach left) node.spine.operand =
    node := node.toNode_spine
  rw [whole] at loop
  rw [← bind_assoc, loop]
  simp

theorem kind_spineFrom (node : Node) (links : List Link) :
    (node.spineFrom links).operand.kind ≠ .binary := by
  induction node generalizing links with
  | binary op left right place ih _ => exact ih _
  | _ => simp [spineFrom, kind]

theorem kind_spine (node : Node) : node.spine.operand.kind ≠ .binary := node.kind_spineFrom []

/-- Levels of recursion that a tree takes when left spines are followed in a loop. -/
def levels : Node → Nat
  | .number .. | .string .. | .reference .. => 1
  | .binary _ left right _ =>
    max (left.levels + if left.kind = .binary then 0 else 1) (right.levels + 1)
  | .assignment _ value _ => value.levels + 1
  | .print argument _ => argument.levels + 1

/-- Levels of a tree that stands on a spine, with those above it. -/
def levelsOnSpine (node : Node) : Nat := node.levels + if node.kind = .binary then 0 else 1

theorem levels_pos (node : Node) : 0 < node.levels := by
  cases node <;> simp only [levels] <;> omega

theorem levels_binary (op : Operator) (left right : Node) (place : Place) :
    (Node.binary op left right place).levels = max left.levelsOnSpine (right.levels + 1) := rfl

end Node
end IntScript

import IntScript.Node

/-! The left spine of a tree. Operators fold to the left, so a long chain of
them is a deep tree on the left side only. Seen as a spine it is a list: the
operand at the bottom and, innermost first, each operator with what stands to
its right. -/
namespace IntScript

/-- An operator with its right operand. -/
structure Link where
  op : Operator
  right : Node
  place : Place
deriving DecidableEq

/-- The tree that a link makes of what stands to its left. -/
def Link.attach (link : Link) (left : Node) : Node :=
  .binary link.op left link.right link.place

structure Spine where
  operand : Node
  links : List Link
deriving DecidableEq

namespace Node

def spineFrom : Node → List Link → Spine
  | .binary op left right place, links => left.spineFrom (⟨op, right, place⟩ :: links)
  | node, links => ⟨node, links⟩

def spine (node : Node) : Spine := node.spineFrom []

end Node

/-- The tree with a given spine. -/
def Spine.toNode (s : Spine) : Node := s.links.foldl (fun left link => link.attach left) s.operand

namespace Node

theorem toNode_spineFrom (node : Node) (links : List Link) :
    (node.spineFrom links).toNode = links.foldl (fun left link => link.attach left) node := by
  induction node generalizing links with
  | binary op left right place ih _ => rw [spineFrom, ih]; rfl
  | _ => rfl

@[simp] theorem toNode_spine (node : Node) : node.spine.toNode = node :=
  node.toNode_spineFrom []

end Node
end IntScript

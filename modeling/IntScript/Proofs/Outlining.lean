import IntScript.Proofs.WrittenPieces

/-! Outlines by plain recursion. An outline goes one level deeper into every part of a tree,
into left operands too. Within the limit, trees of the shape that sources have are outlined
as the recursion says. -/
namespace IntScript.Node
open Piece (textOf)

/-- Levels of a tree, the left operands counted. -/
def height : Node → Nat
  | .number .. | .string .. | .reference .. => 1
  | .binary _ left right _ => max left.height right.height + 1
  | .assignment _ value _ => value.height + 1
  | .print argument _ => argument.height + 1

theorem levels_le_height (node : Node) : node.levels ≤ node.height := by
  induction node with
  | binary op left right place ihLeft ihRight =>
    simp only [levels, height]
    split <;> omega
  | assignment name value place ih => exact Nat.succ_le_succ ih
  | print argument place ih => exact Nat.succ_le_succ ih
  | _ => exact Nat.le_refl 1

/-- A tree above the outlines of its parts. -/
def outlineAbove (node : Node) (indents : Int) (parts : List String) : String :=
  let head := indentation indents ++ node.kind.name ++ "(expr='" ++
    String.ofList (textOf node.pieces) ++ "'"
  match node.children with
  | [] => head ++ ")"
  | _ => head ++ ", nodes=[" ++ ",".intercalate (parts.map ("\n" ++ ·)) ++ "\n" ++
      indentation indents ++ "])"

/-- The outline of a tree, by recursion. -/
def outlined : Node → Int → String
  | .binary op left right place, indents =>
    outlineAbove (.binary op left right place) indents
      [left.outlined (indents + 1), right.outlined (indents + 1)]
  | .assignment name value place, indents =>
    outlineAbove (.assignment name value place) indents [value.outlined (indents + 1)]
  | .print argument place, indents =>
    outlineAbove (.print argument place) indents [argument.outlined (indents + 1)]
  | node, indents => outlineAbove node indents []

theorem outlined_eq (node : Node) (indents : Int) :
    node.outlined indents =
      node.outlineAbove indents (node.children.map (·.outlined (indents + 1))) := by
  cases node <;> rfl

/-- Trees of the shape that sources have: expressions and statements. -/
def Regular (node : Node) : Prop := node.isExpression ∨ node.isStatement

theorem regular_children {node : Node} (shape : node.Regular) :
    ∀ child ∈ node.children, child.Regular := by
  rcases shape with shape | shape
  · cases node with
    | binary op left right place =>
      obtain ⟨shapeLeft, shapeRight⟩ := Bool.and_eq_true_iff.mp shape
      simp [children, Regular, shapeLeft, shapeRight]
    | assignment | print => contradiction
    | _ => simp [children]
  · cases node with
    | assignment name value place =>
      have shapeValue := (Bool.and_eq_true_iff.mp shape).2
      simp [children, Regular, shapeValue]
    | print argument place =>
      have shapeArgument : argument.isExpression := shape
      simp [children, Regular, shapeArgument]
    | _ => contradiction

theorem height_children (node : Node) : ∀ child ∈ node.children, child.height < node.height := by
  cases node with
  | binary op left right place =>
    simp only [children, List.forall_mem_cons, height]
    exact ⟨by omega, by omega, by simp⟩
  | _ => simp [children, height]

theorem render_of_levels {limit : Nat} {node : Node}
    (shape : node.Regular) (low : node.levels ≤ limit) :
    node.render limit = .ok (String.ofList (textOf node.pieces)) := by
  have written : node.written = .ok (String.ofList (textOf node.pieces)) :=
    shape.elim written_of_isExpression written_of_isStatement
  rcases node.render_agrees limit with same | ⟨deep, -⟩
  · exact same.trans written
  · exact absurd low deep

theorem render_of_height {limit : Nat} {node : Node}
    (shape : node.Regular) (low : node.height ≤ limit) :
    node.render limit = .ok (String.ofList (textOf node.pieces)) :=
  render_of_levels shape (Nat.le_trans node.levels_le_height low)

/-- One level of an outline. -/
theorem outline_succ {limit : Nat} {indents : Int} {node : Node} {parts : List String}
    (shape : node.Regular) (low : node.height ≤ limit + 1)
    (below : node.children.mapM (outline limit (indents + 1)) = .ok parts) :
    node.outline (limit + 1) indents = .ok (node.outlineAbove indents parts) := by
  rw [outline, render_of_height shape low]
  cases node with
  | number | string | reference => rfl
  | _ =>
    simp only [children] at below
    simp only [bind, Except.bind, children, below]
    rfl

theorem mapM_outline {limit : Nat} {indents : Int} {nodes : List Node}
    (each : ∀ node ∈ nodes, node.outline limit indents = .ok (node.outlined indents)) :
    nodes.mapM (outline limit indents) = .ok (nodes.map (·.outlined indents)) := by
  induction nodes with
  | nil => rfl
  | cons node nodes ih =>
    obtain ⟨first, others⟩ := List.forall_mem_cons.mp each
    rw [List.mapM_cons, first, ih others]
    rfl

/-- A tree that is no higher than the limit is outlined. -/
theorem outline_of_height {limit : Nat} {node : Node} (shape : node.Regular)
    (low : node.height ≤ limit) (indents : Int) :
    node.outline limit indents = .ok (node.outlined indents) := by
  induction limit generalizing node indents with
  | zero => exact absurd low (by cases node <;> simp [height])
  | succ limit ih =>
    rw [outlined_eq]
    apply outline_succ shape low
    apply mapM_outline
    intro child member
    have lower := node.height_children child member
    exact ih (regular_children shape child member) (by omega) (indents + 1)

theorem outlines_of_height {limit : Nat} {nodes : List Node}
    (shapes : ∀ node ∈ nodes, node.isStatement) (low : ∀ node ∈ nodes, node.height ≤ limit)
    (indents : Int) : nodes.mapM (outline limit indents) = .ok (nodes.map (·.outlined indents)) :=
  mapM_outline fun node member => outline_of_height (.inr (shapes node member)) (low node member) _

end IntScript.Node

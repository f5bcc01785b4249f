import IntScript.Node.Spine
import IntScript.Text.Count

/-! Trees written back as source text, with only the parentheses that
precedence asks for. A limit bounds how deep the writing may nest; only right
operands and the parts of statements nest, long chains of operators do not. -/
namespace IntScript

inductive RenderError where
  /-- A statement stands as an operand, so its precedence is not defined. -/
  | operandStatement (kind : NodeKind)
  | tooDeep
deriving DecidableEq

/-- Depth to which trees may nest when they are written or evaluated. Trees read
within the nesting limit stay below it. -/
def depthLimit : Nat := 1000

namespace Node

def precedence (node : Node) : Except RenderError Nat :=
  match node.precedence? with
  | some p => .ok p
  | none => .error (.operandStatement node.kind)

def parenthesise (needed : Bool) (text : String) : String :=
  if needed then "(" ++ text ++ ")" else text

/-- Joins the text of a left operand with a link. A right operand of equal
precedence takes parentheses, because operators fold to the left. -/
def renderLink (render : Node → Except RenderError String) (left : Node × String) (link : Link) :
    Except RenderError (Node × String) := do
  let leftText := parenthesise ((← left.1.precedence) < link.op.precedence) left.2
  let right ← render link.right
  let rightText := parenthesise ((← link.right.precedence) ≤ link.op.precedence) right
  return (link.attach left.1, leftText ++ " " ++ link.op.symbol ++ " " ++ rightText)

/-- The source text of a tree. -/
def render : Nat → Node → Except RenderError String
  | 0, _ => .error .tooDeep
  | limit + 1, node =>
    match node with
    | .number value _ => .ok (toString value)
    | .string text _ => .ok ("\"" ++ text ++ "\"")
    | .reference name _ => .ok name
    | .binary .. => do
      let operand ← render limit node.spine.operand
      let whole ← node.spine.links.foldlM (renderLink (render limit)) (node.spine.operand, operand)
      return whole.2
    | .assignment name value _ => do return name ++ " = " ++ (← render limit value)
    | .print argument _ => do return "print(" ++ (← render limit argument) ++ ")"

/-- One-line description of a tree: its kind and its source text. -/
def summary (limit : Nat) (node : Node) : Except RenderError String := do
  return node.kind.name ++ "('" ++ (← node.render limit) ++ "')"

/-- Four blanks for each indent; indents below zero give none. -/
def indentation (indents : Int) : String := "".pushn ' ' (4 * indents.toNat)

/-- The tree as an indented outline, one line for each node. -/
def outline : Nat → Int → Node → Except RenderError String
  | 0, _, _ => .error .tooDeep
  | limit + 1, indents, node => do
    let head := indentation indents ++ node.kind.name ++ "(expr='" ++
      (← node.render (limit + 1)) ++ "'"
    match node.children with
    | [] => return head ++ ")"
    | children =>
      let parts ← children.mapM (outline limit (indents + 1))
      return head ++ ", nodes=[" ++ ",".intercalate (parts.map ("\n" ++ ·)) ++ "\n" ++
        indentation indents ++ "])"

end Node

/-- Why a tree cannot be outlined at the indents asked for. -/
inductive OutlineError where
  | indents (error : Text.CountError)
  | render (error : RenderError)
deriving DecidableEq

/-- The outline of a tree at any indents. The indents are looked at first. -/
def Node.outlineAt (limit : Nat) (indents : Int) (node : Node) : Except OutlineError String :=
  match Text.checkCount 4 indents with
  | .error e => .error (.indents e)
  | .ok () => (node.outline limit indents).mapError .render

end IntScript

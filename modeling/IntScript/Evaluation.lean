import IntScript.Bindings
import IntScript.Node.Render
import IntScript.Quotient

/-! Evaluation of expressions and execution of statements.

An expression is evaluated along its left spine, right operands one level
deeper. Sums are formed by the host, so the operands of every sum are recorded.
Execution runs statements in order on a machine of bindings and output and stops
at the first that fails. -/
namespace IntScript

/-- Why a tree cannot be evaluated or executed. -/
inductive EvalError where
  | unbound (name : String) (place : Place)
  | stringOperand (text : String) (place : Place)
  | zeroDivision (expr : String) (place : Place)
  | notStatement (expr : String) (place : Place)
  | notExpression (expr : String) (place : Place)
  /-- A statement stands as an operand in a tree that had to be written out. -/
  | operandStatement (kind : NodeKind)
  | tooDeep
deriving DecidableEq

def EvalError.ofRender : RenderError → EvalError
  | .operandStatement kind => .operandStatement kind
  | .tooDeep => .tooDeep

/-- Computations that may fail and leave a record of the sums formed, the latest
first. -/
abbrev Evaluation := ExceptT EvalError (StateM (List (Int × Int)))

namespace Evaluation

/-- The source text of a tree. -/
def render (limit : Nat) (node : Node) : Evaluation String :=
  match node.render limit with
  | .ok text => pure text
  | .error e => throw (.ofRender e)

def sum (a b : Int) : Evaluation Int := do
  modify ((a, b) :: ·)
  return a + b

/-- The value of an operator on evaluated operands; `whole` is the tree at hand. -/
def apply (limit : Nat) (whole : Node) (op : Operator) (a b : Int) : Evaluation Int :=
  match op with
  | .add => sum a b
  | .sub => pure (a - b)
  | .mul => pure (a * b)
  | .div =>
    match divide? a b with
    | some q => pure q
    | none => do throw (.zeroDivision (← render limit whole) whole.place)

end Evaluation

/-- The integer value of an expression. -/
def evaluate (env : Bindings) : Nat → Node → Evaluation Int
  | 0, _ => throw .tooDeep
  | limit + 1, node =>
    match node with
    | .number value _ => pure value
    | .string text place => throw (.stringOperand text place)
    | .reference name place =>
      match env.get? name with
      | some value => pure value
      | none => throw (.unbound name place)
    | .binary .. => do
      let first ← evaluate env limit node.spine.operand
      let step (left : Node × Int) (link : Link) : Evaluation (Node × Int) := do
        let right ← evaluate env limit link.right
        let whole := link.attach left.1
        return (whole, ← Evaluation.apply (limit + 1) whole link.op left.2 right)
      let result ← node.spine.links.foldlM step (node.spine.operand, first)
      return result.2
    | .assignment .. | .print .. => do
      throw (.notExpression (← Evaluation.render (limit + 1) node) node.place)

/-- What statements act on: the bindings, the text written so far, and the sums
formed so far, the latest first. -/
structure Machine where
  bindings : Bindings := .empty
  output : String := ""
  sums : List (Int × Int) := []
deriving DecidableEq

namespace Machine

def writeLine (m : Machine) (line : String) : Machine := { m with output := m.output ++ line ++ "\n" }

/-- Evaluates an expression and hands its value on. Bindings and output stay as
they are. -/
def withValue (m : Machine) (limit : Nat) (node : Node) (use : Machine → Int → Machine) :
    Except EvalError Unit × Machine :=
  let (result, sums) := (evaluate m.bindings limit node).run.run m.sums
  let m := { m with sums }
  match result with
  | .ok value => (.ok (), use m value)
  | .error e => (.error e, m)

/-- Executes one statement. Only a string that is itself the argument of a print
is printed as text. -/
def execute (limit : Nat) (statement : Node) (m : Machine) : Except EvalError Unit × Machine :=
  match statement with
  | .assignment name value _ =>
    m.withValue limit value fun m n => { m with bindings := m.bindings.insert name n }
  | .print (.string text _) _ => (.ok (), m.writeLine text)
  | .print argument _ => m.withValue limit argument fun m n => m.writeLine (toString n)
  | other =>
    match other.render limit with
    | .ok expr => (.error (.notStatement expr other.place), m)
    | .error e => (.error (.ofRender e), m)

/-- Executes statements in order up to the first that fails. -/
def run (limit : Nat) : List Node → Machine → Except EvalError Unit × Machine
  | [], m => (.ok (), m)
  | statement :: rest, m =>
    match m.execute limit statement with
    | (.ok (), m) => m.run limit rest
    | failed => failed

end Machine
end IntScript

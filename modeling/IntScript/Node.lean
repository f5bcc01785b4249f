import IntScript.Position
import IntScript.Text.Count

/-! Syntax trees. Assignments and prints are statements, all else is an
expression. The type also holds trees that no source has, such as a statement
standing as an operand, because trees may be built and edited by hand. -/
namespace IntScript

inductive Operator where
  | add
  | sub
  | mul
  | div
deriving DecidableEq

namespace Operator

def symbol : Operator → String
  | .add => "+"
  | .sub => "-"
  | .mul => "*"
  | .div => "/"

def ofSymbol? (symbol : String) : Option Operator :=
  [add, sub, mul, div].find? (·.symbol = symbol)

/-- Why a text is no operator, in words. -/
def unknownMessage (symbol : String) : String := "unknown binary operator '" ++ symbol ++ "'"

/-- How tightly an operator binds. -/
def precedence : Operator → Nat
  | .add | .sub => 1
  | .mul | .div => 2

end Operator

inductive Node where
  | number (value : Int) (place : Place)
  | string (text : String) (place : Place)
  | reference (name : String) (place : Place)
  | binary (op : Operator) (left right : Node) (place : Place)
  | assignment (name : String) (value : Node) (place : Place)
  | print (argument : Node) (place : Place)
deriving DecidableEq

inductive NodeKind where
  | number
  | string
  | reference
  | binary
  | assignment
  | print
deriving DecidableEq

/-- The name of a kind, as outlines give it. -/
def NodeKind.name : NodeKind → String
  | .number => "NumberLiteral"
  | .string => "StringLiteral"
  | .reference => "VariableReference"
  | .binary => "BinaryOp"
  | .assignment => "Assignment"
  | .print => "PrintStatement"

/-- Why a child cannot be replaced. -/
inductive ChildError where
  | noSuchChild
  | beyondIndex
deriving DecidableEq

def ChildError.message : ChildError → String
  | .noSuchChild => "list assignment index out of range"
  | .beyondIndex => Text.CountError.beyondIndex.message

namespace Node

def kind : Node → NodeKind
  | .number .. => .number
  | .string .. => .string
  | .reference .. => .reference
  | .binary .. => .binary
  | .assignment .. => .assignment
  | .print .. => .print

def place : Node → Place
  | .number _ p | .string _ p | .reference _ p | .binary _ _ _ p | .assignment _ _ p
  | .print _ p => p

def children : Node → List Node
  | .number .. | .string .. | .reference .. => []
  | .binary _ left right _ => [left, right]
  | .assignment _ value _ => [value]
  | .print argument _ => [argument]

/-- The tree with its children replaced. A list of another length changes nothing. -/
def withChildren : Node → List Node → Node
  | .binary op _ _ p, [left, right] => .binary op left right p
  | .assignment name _ p, [value] => .assignment name value p
  | .print _ p, [argument] => .print argument p
  | node, _ => node

/-- The tree with one child replaced. An index below zero counts from the last
child. -/
def setChild (node : Node) (index : Int) (child : Node) : Except ChildError Node :=
  let count := node.children.length
  let i := if index < 0 then index + count else index
  if !Text.fitsIndex index then .error .beyondIndex
  else if 0 ≤ i ∧ i < count then .ok (node.withChildren (node.children.set i.toNat child))
  else .error .noSuchChild

/-- How tightly an expression binds; statements are no operands and have none. -/
def precedence? : Node → Option Nat
  | .number .. | .string .. | .reference .. => some 3
  | .binary op .. => some op.precedence
  | .assignment .. | .print .. => none

end Node
end IntScript

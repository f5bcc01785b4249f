import IntScript.Node

/-! Equality of trees up to places. Two trees are the same if they have the same
kinds, names, values, operators and children. Pairs still to be compared wait in
a list, so deep trees need no deep recursion. -/
namespace IntScript.Node

/-- Number of nodes in a tree. -/
def size : Node → Nat
  | .number .. | .string .. | .reference .. => 1
  | .binary _ left right _ => left.size + right.size + 1
  | .assignment _ value _ => value.size + 1
  | .print argument _ => argument.size + 1

def pendingSize : List (Node × Node) → Nat
  | [] => 0
  | pair :: pending => pair.1.size + pendingSize pending

/-- All pairs hold the same trees. -/
def allSame : List (Node × Node) → Bool
  | [] => true
  | (.number a _, .number b _) :: pending => a = b && allSame pending
  | (.string a _, .string b _) :: pending => a = b && allSame pending
  | (.reference a _, .reference b _) :: pending => a = b && allSame pending
  | (.binary op left right _, .binary op' left' right' _) :: pending =>
    op = op' && allSame ((right, right') :: (left, left') :: pending)
  | (.assignment name value _, .assignment name' value' _) :: pending =>
    name = name' && allSame ((value, value') :: pending)
  | (.print argument _, .print argument' _) :: pending => allSame ((argument, argument') :: pending)
  | _ :: _ => false
termination_by pending => pendingSize pending
decreasing_by all_goals (simp only [pendingSize, size]; omega)

def same (a b : Node) : Bool := allSame [(a, b)]

/-- Two programs of the same statements in the same order. -/
def samePrograms : List Node → List Node → Bool
  | [], [] => true
  | a :: as, b :: bs => same a b && samePrograms as bs
  | _, _ => false

end IntScript.Node

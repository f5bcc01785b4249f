/-! Counts and indices. A count of repetitions and an index into a list have to
fit into a signed machine word, and so has the length of a repeated text. -/
namespace IntScript.Text

/-- The largest count or index. -/
def largestIndex : Nat := Nat.pow 2 63 - 1

def fitsIndex (n : Int) : Bool := -(largestIndex + 1 : Int) ≤ n && n ≤ largestIndex

inductive CountError where
  | beyondIndex
  | tooLong
deriving DecidableEq

def CountError.message : CountError → String
  | .beyondIndex => "cannot fit 'int' into an index-sized integer"
  | .tooLong => "repeated string is too long"

/-- Refuses to repeat a text of `length` characters too often. A count below zero
repeats nothing. -/
def checkCount (length : Nat) (count : Int) : Except CountError Unit :=
  if !fitsIndex count then .error .beyondIndex
  else if largestIndex < length * count.toNat then .error .tooLong
  else .ok ()

end IntScript.Text

/-! Slices of a text whose bounds may count from either end. A bound below zero
counts from the end, and a bound outside the text is moved to the nearer end. -/
namespace IntScript.Text

/-- The offset that a bound stands for in a text of `length` characters. -/
def offset (length : Nat) (bound : Int) : Nat :=
  if bound < 0 then (length + bound).toNat else min bound.toNat length

theorem offset_of_nonneg (length : Nat) {bound : Int} (nonneg : 0 ≤ bound) :
    offset length bound = min bound.toNat length :=
  if_neg (Int.not_lt.mpr nonneg)

def before (text : List Char) (bound : Int) : List Char :=
  text.take (offset text.length bound)

def onward (text : List Char) (bound : Int) : List Char :=
  text.drop (offset text.length bound)

/-- The characters from `first` up to but excluding `last`. -/
def between (text : List Char) (first last : Int) : List Char :=
  (text.take (offset text.length last)).drop (offset text.length first)

theorem before_append_onward (text : List Char) (bound : Int) :
    before text bound ++ onward text bound = text :=
  List.take_append_drop _ _

end IntScript.Text

/-! Places in a source text. A position is the line and column of a character,
both counted from one; a place is what is known of one. -/
namespace IntScript

structure Position where
  line : Nat
  col : Nat
deriving DecidableEq

namespace Position

def start : Position := ⟨1, 1⟩

/-- The position behind a character. -/
def step (p : Position) (c : Char) : Position :=
  if c = '\n' then ⟨p.line + 1, 1⟩ else ⟨p.line, p.col + 1⟩

/-- The position behind a text. -/
def after (p : Position) (text : List Char) : Position := text.foldl step p

@[simp] theorem after_nil (p : Position) : p.after [] = p := rfl

@[simp] theorem after_cons (p : Position) (c : Char) (text : List Char) :
    p.after (c :: text) = (p.step c).after text := rfl

theorem after_append (p : Position) (first second : List Char) :
    p.after (first ++ second) = (p.after first).after second :=
  List.foldl_append

end Position

/-- Where a node or a report stands. Line and column may each be unknown. -/
structure Place where
  line : Option Int
  col : Option Int
deriving DecidableEq

namespace Place

def unknown : Place := ⟨none, none⟩

def ofPosition (p : Position) : Place := ⟨some p.line, some p.col⟩

/-- Both line and column are known. -/
def isLocated (p : Place) : Bool := p.line.isSome && p.col.isSome

end Place
end IntScript

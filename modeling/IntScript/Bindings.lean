import IntScript.Text.Quoted
import IntScript.Value

/-! Variable bindings. Names are bound to integers and keep the order in which
they were first bound. -/
namespace IntScript

structure Bindings where
  entries : List (String × Int)
deriving DecidableEq

/-- A value that is not an integer cannot be bound. -/
structure NotInteger where
  value : Value
deriving DecidableEq

def NotInteger.message (e : NotInteger) : String :=
  "environment only holds integers, got " ++ e.value.typeName

namespace Bindings

def empty : Bindings := ⟨[]⟩

def insertEntry (name : String) (n : Int) : List (String × Int) → List (String × Int)
  | [] => [(name, n)]
  | (key, old) :: rest =>
    if key = name then (key, n) :: rest else (key, old) :: insertEntry name n rest

/-- Binds a name; a name that is bound already keeps its place. -/
def insert (b : Bindings) (name : String) (n : Int) : Bindings := ⟨insertEntry name n b.entries⟩

/-- Binds a name to a value, which has to be an integer; a truth value is none. -/
def assign (b : Bindings) (name : String) : Value → Except NotInteger Bindings
  | .integer n => .ok (b.insert name n)
  | value => .error ⟨value⟩

def get? (b : Bindings) (name : String) : Option Int := b.entries.lookup name

theorem lookup_insertEntry (name other : String) (n : Int) (entries : List (String × Int)) :
    (insertEntry name n entries).lookup other =
      if other = name then some n else entries.lookup other := by
  induction entries with
  | nil => grind [insertEntry]
  | cons entry rest ih => grind [insertEntry]

/-- A binding changes the value of its own name only. -/
theorem get?_insert (b : Bindings) (name other : String) (n : Int) :
    (b.insert name n).get? other = if other = name then some n else b.get? other :=
  lookup_insertEntry name other n b.entries

def contains (b : Bindings) (name : String) : Bool := (b.get? name).isSome

def size (b : Bindings) : Nat := b.entries.length

/-- One-line description of the bindings. -/
def describe (b : Bindings) : String :=
  let entry (e : String × Int) := Text.quoted e.1 ++ ": " ++ toString e.2
  "Environment(\x7b" ++ ", ".intercalate (b.entries.map entry) ++ "\x7d)"

end Bindings
end IntScript

/-! The registry of sources at work: paths with the text running under them, in
the order in which the paths came in. -/
namespace IntScript

structure Registry where
  entries : List (String × Option String)
deriving DecidableEq

namespace Registry

def empty : Registry := ⟨[]⟩

def registerEntry (path : String) (source : Option String) :
    List (String × Option String) → List (String × Option String)
  | [] => [(path, source)]
  | (key, old) :: rest =>
    if key = path then (key, source) :: rest else (key, old) :: registerEntry path source rest

/-- Registers a path. A path that is registered already keeps its place and gets
the new source. -/
def register (r : Registry) (path : String) (source : Option String) : Registry :=
  ⟨registerEntry path source r.entries⟩

def remove (r : Registry) (path : String) : Registry :=
  ⟨r.entries.filter (·.1 ≠ path)⟩

/-- The entry in the last place. -/
def last? (r : Registry) : Option (String × Option String) := r.entries.getLast?

def paths (r : Registry) : List String := r.entries.map (·.1)

end Registry
end IntScript

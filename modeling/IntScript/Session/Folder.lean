import IntScript.Session.SourceFile

/-! A folder held in memory, so that programs can be run without a disk. Paths
are relative to the folder and have a limited length. A step up from the top leads
to the folder around it. -/
namespace IntScript

inductive FolderEntry where
  | file (contents : ByteArray)
  | folder

/-- Names from the top down, behind a step up for each folder further out. -/
abbrev FolderPlace := List String

structure Folder where
  /-- What stands where, the latest first. -/
  entries : List (FolderPlace × FolderEntry)

namespace Folder

def steps (path : String) : List String := (path.toList.splitOn '/').map String.ofList

/-- Whether a place is the top or one of the folders around it. -/
def isAround (place : FolderPlace) : Bool := place.all (· = "..")

/-- The place one step from another. -/
def move (place : FolderPlace) (step : String) : FolderPlace :=
  if step = "" ∨ step = "." then place
  else if step = ".." then (if isAround place then place ++ [".."] else place.dropLast)
  else place ++ [step]

/-- Puts an entry behind the steps of a path, and makes the folders on the way. -/
def put (f : Folder) (place : FolderPlace) (entry : FolderEntry) : List String → Folder
  | [] => ⟨(place, entry) :: f.entries⟩
  | step :: rest => put ⟨(place, .folder) :: f.entries⟩ (move place step) entry rest

def ofPaths (paths : List (String × FolderEntry)) : Folder :=
  paths.foldl (fun f (path, entry) => f.put [] entry (steps path)) ⟨[]⟩

def isFolder (f : Folder) (place : FolderPlace) : Bool :=
  isAround place || f.entries.any fun
    | (found, .folder) => found = place
    | (_, .file _) => false

def file? (f : Folder) (place : FolderPlace) : Option ByteArray :=
  f.entries.findSome? fun
    | (found, .file contents) => if found = place then some contents else none
    | (_, .folder) => none

/-- Follows steps from a folder. Only the last of them may lead to a file. -/
def follow (f : Folder) (place : FolderPlace) : List String → Option ByteArray
  | [] => none
  | step :: rest =>
    if f.isFolder (move place step) then f.follow (move place step) rest
    else if rest = [] then f.file? (move place step)
    else none

/-- Number of bytes that no path reaches. -/
def pathLimit : Nat := 4096

/-- The files of a folder by their paths. -/
def files (f : Folder) : Files := fun path =>
  if path.toList.head? = some '/' || path.toList.contains '\x00' ||
      pathLimit ≤ path.utf8ByteSize then none
  else f.follow [] (steps path)

end Folder
end IntScript

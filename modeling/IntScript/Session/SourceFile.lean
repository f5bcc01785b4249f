import IntScript.Report
import IntScript.Text.Lines

/-! Source files: their names, and their contents as text. -/
namespace IntScript

/-- Contents of the regular file at a path, if there is one. -/
abbrev Files := String → Option ByteArray

/-- Every source file has a name that ends in this and has more in front. -/
def extension : String := ".pan"

/-- The name under which typed lines run. It is not the name of a file. -/
def promptPath : String := "<in>"

inductive SourceError where
  | wrongExtension (path : String)
  | missing (path : String)
  | unreadable (path : String)
  | reserved (path : String)
deriving DecidableEq

def SourceError.path : SourceError → String
  | .wrongExtension p | .missing p | .unreadable p | .reserved p => p

def SourceError.template : SourceError → String
  | .wrongExtension _ =>
    "'\x7b\x7d' is not a PanLang file, expected a " ++ extension ++ " extension"
  | .missing _ => "'\x7b\x7d' does not exist"
  | .unreadable _ => "'\x7b\x7d' could not be read"
  | .reserved _ => "'\x7b\x7d' is a reserved filename"

def SourceError.notice (e : SourceError) : Notice where
  category := .resourceError
  template := e.template
  values := [e.path]

def isSourcePath (path : String) : Bool :=
  extension.toList.isSuffixOf path.toList && extension.length < path.length

/-- The text of a source file, its line ends unified. -/
def readSource (files : Files) (path : String) : Except SourceError String :=
  if isSourcePath path then
    match files path with
    | none => .error (.missing path)
    | some bytes =>
      match String.fromUTF8? bytes with
      | none => .error (.unreadable path)
      | some text => .ok (Text.unifyLineEnds text)
  else .error (.wrongExtension path)

end IntScript

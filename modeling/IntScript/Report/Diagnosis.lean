import IntScript.Report
import IntScript.Text.Count
import IntScript.Text.Slice

/-! The diagnosis of a report: the source line with the offending part
highlighted, and a line below that underlines it. Tabs are repeated in the
padding, so that the underline stays below the text however wide tabs are. -/
namespace IntScript
open Text (Host Tint)

/-- Errors are red, warnings magenta. -/
def severityTint (warning : Bool) : Tint := if warning then .magenta else .red

/-- What stands below the text in front of the underline. -/
def padding (text : List Char) : List Char := text.map fun c => if c = '\t' then c else ' '

/-- A caret and tildes, `width` characters in all but at least the caret. -/
def underline (width : Nat) : List Char := '^' :: List.replicate (width - 1) '~'

/-- Why a report has no diagnosis. -/
inductive DiagnosisError where
  | noColumn
  | underline (error : Text.CountError)
deriving DecidableEq

def DiagnosisError.message : DiagnosisError → String
  | .noColumn => "unsupported operand type(s) for -: 'NoneType' and 'int'"
  | .underline error => error.message

namespace Report

/-- Number of characters underlined, at least one. -/
def width (r : Report) : Nat := (max (r.stop - r.start) 1).toNat

/-- The diagnosis of a report at a known column. -/
def diagnoseAt (r : Report) (host : Host) (col : Int) (line : String) (warning : Bool) : String :=
  let text := line.toList
  let first := col - 1 + r.start
  let last := first + r.width
  let mark (part : List Char) := host.emphasise (String.ofList part) (some (severityTint warning))
  "  " ++ String.ofList (Text.before text first) ++ mark (Text.between text first last) ++
    String.ofList (Text.onward text last) ++ "\n  " ++
    String.ofList (padding (Text.before text first)) ++ mark (underline r.width)

/-- Refuses an underline that is too long to be written. One no longer than the
subject never is. -/
def checkUnderline (r : Report) : Except Text.CountError Unit :=
  if r.width ≤ r.subject.length then .ok () else Text.checkCount 1 (r.width - 1)

/-- The diagnosis of a report in its line. -/
def diagnose (r : Report) (host : Host) (line : String) (warning : Bool) :
    Except DiagnosisError String :=
  match r.place.col, r.checkUnderline with
  | none, _ => .error .noColumn
  | some _, .error e => .error (.underline e)
  | some col, .ok () => .ok (r.diagnoseAt host col line warning)

end Report
end IntScript

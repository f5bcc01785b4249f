import IntScript.Report.Diagnosis
import IntScript.Report.Registry
import IntScript.Report.Trouble
import IntScript.Text.Lines

/-! The reporter writes reports for the user. Reports are located in the last
registered source. An error makes a fatal reporter ask to leave; any other
reporter forgets its registered sources and goes on. -/
namespace IntScript
open Text (Host)

structure Reporter where
  host : Host
  fatal : Bool := true
  registry : Registry := .empty

namespace Reporter

/-- The line with a number counted from one. -/
def lineAt? (source : String) (number : Int) : Option String :=
  if 0 < number then (Text.lines source)[number.toNat - 1]? else none

/-- The path a report belongs to, and the source line it points at. -/
def locate (r : Reporter) (report : Report) : Option String × Option String :=
  match r.registry.last? with
  | none => (none, none)
  | some (path, none) => (some path, none)
  | some (path, some source) =>
    if report.place.isLocated then (some path, report.place.line.bind (lineAt? source))
    else (some path, none)

/-- Path, line and column in front of a message, as far as they are known. -/
def header (r : Reporter) (report : Report) (path : Option String) : String :=
  let file := path.elim "" (· ++ ":")
  let position := match report.place with
    | ⟨some line, some col⟩ => toString line ++ ":" ++ toString col ++ ":"
    | _ => ""
  if file ++ position = "" then "" else r.host.bold (file ++ position ++ " ")

/-- The diagnosis of a report on lines of its own, if it is to be shown. -/
def diagnosisLines (r : Reporter) (report : Report) (line : Option String) (warning : Bool) :
    Except DiagnosisError String :=
  match line with
  | some line =>
    if report.subject ≠ "" ∧ report.diagnosis then
      (report.diagnose r.host line warning).map (· ++ "\n")
    else .ok ""
  | none => .ok ""

/-- A text with the diagnosis below it, or the fault that leaves the diagnosis out. -/
def withDiagnosis (r : Reporter) (text : String) (report : Report) (line : Option String)
    (warning : Bool) : String × Option InternalFault :=
  match r.diagnosisLines report line warning with
  | .ok lines => (text ++ lines, none)
  | .error e => (text, some e.fault)

/-- Text of a warning. -/
def warningText (r : Reporter) (report : Report) : String × Option InternalFault :=
  let (path, line) := r.locate report
  let text := r.header report path ++
    r.host.emphasise (report.category.label ++ ": ") (some .magenta) ++ report.message ++ "\n"
  r.withDiagnosis text report line true

/-- Text of an error. Internal errors say so and show no source. -/
def errorText (r : Reporter) (report : Report) : String × Option InternalFault :=
  let (path, line) := r.locate report
  let text := r.header report path ++
    (if report.internal then r.host.emphasise "[internal] " (some .red) else "") ++
    r.host.emphasise (report.category.label ++ ": ") (some .red) ++ report.message ++ "\n"
  if report.internal then (text, none) else r.withDiagnosis text report line false

/-- Writes a warning, unless its notice makes no report. -/
def warn (r : Reporter) (notice : Notice) : String × Option InternalFault :=
  match notice.report r.host with
  | .ok report => r.warningText report
  | .error e => ("", some e.fault)

/-- Writes an error: its text, the reporter after it, and the wish to leave if the
reporter is fatal. -/
def throw (r : Reporter) (report : Report) : String × Reporter × Option Trouble :=
  match r.errorText report with
  | (text, some fault) => (text, r, some (.fault fault))
  | (text, none) =>
    if r.fatal then (text, r, some (.leave 1))
    else (text, { r with registry := .empty }, none)

/-- Reports a notice of the reporter's own. -/
def throwNotice (r : Reporter) (notice : Notice) : String × Reporter × Option Trouble :=
  match notice.report r.host with
  | .ok report => r.throw report
  | .error e => ("", r, some (.fault e.fault))

/-- Writes any trouble as an error. Only a report can be located in a source; asking
anything else for its place is a fault. -/
def throwTrouble (r : Reporter) : Trouble → String × Reporter × Option Trouble
  | .reported report => r.throw report
  | other => ("", r, some (.fault (missingFault other.name "located")))

/-- Ends an action under the reporter's care: gives the text written, the reporter
after it, and the trouble that is let through. Wishes to leave pass. A fault of
the program is reported as such, with its text read as a template, and passes
too. -/
def close (r : Reporter) (trouble : Option Trouble) : String × Reporter × Option Trouble :=
  match trouble with
  | none => ("", r, none)
  | some .interrupted => r.throwNotice { category := .general, template := "keyboard interrupt" }
  | some .tooDeep => r.throwNotice {
      category := .general
      template := "expression nesting too deep, maximum recursion depth exceeded" }
  | some (.leave code) => ("", r, some (.leave code))
  | some (.reported report) => r.throw report
  | some (.fault fault) =>
    let (text, after, raised) := r.throwNotice {
      category := .general
      template := "unknown error: '" ++ fault.name ++ ": " ++ fault.text ++ "'"
      internal := true }
    (text, after, some (raised.getD (.fault fault)))

end Reporter
end IntScript

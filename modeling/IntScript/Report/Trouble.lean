import IntScript.Report.Diagnosis
import IntScript.Report.Wording

/-! Everything that can cut an action short: a report, an interrupt by the user,
nesting beyond the limits, a request to leave, or a fault of the program itself. -/
namespace IntScript
open Text (Host TemplateError)

/-- A fault of the program itself: the name of its kind, and a text. -/
structure InternalFault where
  name : String
  text : String
deriving DecidableEq

inductive Trouble where
  | reported (report : Report)
  | interrupted
  | tooDeep
  | leave (code : Int)
  | fault (fault : InternalFault)
deriving DecidableEq

def countFault (e : Text.CountError) : InternalFault := ⟨"OverflowError", e.message⟩

def templateFault (e : TemplateError) : InternalFault :=
  match e with
  | .outOfRange _ | .noCharacter => ⟨"IndexError", e.message⟩
  | .unknownName _ => ⟨"KeyError", e.message⟩
  | .refused refusal => ⟨refusal.kind, e.message⟩
  | .notIndex => ⟨"TypeError", e.message⟩
  | _ => ⟨"ValueError", e.message⟩

def NoticeError.fault : NoticeError → InternalFault
  | .template e => templateFault e
  | .noSubject => ⟨"IndexError", "list index out of range"⟩

/-- The fault of asking something for what it does not have. -/
def missingFault (owner part : String) : InternalFault :=
  ⟨"AttributeError", "'" ++ owner ++ "' object has no attribute '" ++ part ++ "'"⟩

/-- The fault of asking a statement how tightly it binds. -/
def precedenceFault (kind : NodeKind) : InternalFault := missingFault kind.name "precedence"

def ChildError.fault (e : ChildError) : InternalFault := ⟨"IndexError", e.message⟩

def DiagnosisError.fault (e : DiagnosisError) : InternalFault :=
  match e with
  | .noColumn => ⟨"TypeError", e.message⟩
  | .underline error => countFault error

namespace Trouble

/-- The name of the kind of a trouble. -/
def name : Trouble → String
  | .reported _ => "Report"
  | .interrupted => "KeyboardInterrupt"
  | .tooDeep => "RecursionError"
  | .leave _ => "SystemExit"
  | .fault f => f.name

/-- The trouble in a result, if any. -/
def ofResult? : Except Trouble Unit → Option Trouble
  | .ok () => none
  | .error e => some e

def toResult : Option Trouble → Except Trouble Unit
  | none => .ok ()
  | some e => .error e

def ofNotice (notice : Notice) (host : Host) : Trouble :=
  match notice.report host with
  | .ok report => .reported report
  | .error e => .fault e.fault

def ofRender : RenderError → Trouble
  | .operandStatement kind => .fault (precedenceFault kind)
  | .tooDeep => .tooDeep

def ofOutline : OutlineError → Trouble
  | .indents e => .fault (countFault e)
  | .render e => ofRender e

def ofRead (host : Host) : ReadFailure → Trouble
  | .rejected e => ofNotice e.notice host
  | .tooDeep => .tooDeep

def ofEval (host : Host) (e : EvalError) : Trouble :=
  match e.notice?, e with
  | some notice, _ => ofNotice notice host
  | none, .operandStatement kind => .fault (precedenceFault kind)
  | none, _ => .tooDeep

end Trouble
end IntScript

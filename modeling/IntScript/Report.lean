import IntScript.Position
import IntScript.Text.Host
import IntScript.Text.Template

/-! Reports: errors and warnings as the user gets to see them. A notice says
what is to be reported, as a template with values for its fields; its report has
the wording filled in. The first value is the subject, the text that is
underlined in the source. -/
namespace IntScript
open Text (Host fill TemplateError)

inductive Category where
  | general
  | warning
  | syntaxError
  | nameError
  | typeError
  | arithmeticError
  | resourceError
deriving DecidableEq

/-- The words in front of a message. -/
def Category.label : Category → String
  | .general => "error"
  | .warning => "warning"
  | .syntaxError => "syntax error"
  | .nameError => "name error"
  | .typeError => "type error"
  | .arithmeticError => "arithmetic error"
  | .resourceError => "resource error"

structure Notice where
  category : Category
  template : String
  values : List String := [""]
  place : Place := .unknown
  /-- Part of the subject to underline. -/
  start : Int := 0
  /-- End of that part; -1 is the end of the subject. -/
  stop : Int := -1
  /-- Whether the source line is shown. -/
  diagnosis : Bool := true
  /-- Whether the program itself is at fault and not its input. -/
  internal : Bool := false
deriving DecidableEq

structure Report where
  category : Category
  message : String
  subject : String
  place : Place
  start : Int
  stop : Int
  diagnosis : Bool
  internal : Bool
deriving DecidableEq

/-- Why a notice makes no report. -/
inductive NoticeError where
  | template (error : TemplateError)
  | noSubject
deriving DecidableEq

/-- The report of a notice, its values in bold. -/
def Notice.report (notice : Notice) (host : Host) : Except NoticeError Report :=
  match fill host.attributes notice.template (notice.values.map host.bold) with
  | .error e => .error (.template e)
  | .ok message =>
    match notice.values with
    | [] => .error .noSubject
    | subject :: _ => .ok {
        category := notice.category
        message
        subject
        place := notice.place
        start := notice.start
        stop := if notice.stop = -1 then subject.length else notice.stop
        diagnosis := notice.diagnosis
        internal := notice.internal }

end IntScript

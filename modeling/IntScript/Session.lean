import IntScript.Backend
import IntScript.Report.Reporter
import IntScript.Session.SourceFile

/-! Sessions. A session queues the statements of the sources added to it and runs
its queue on its own bindings. A session at the prompt empties its queue with
every run and, unless it persists, starts each run without bindings. -/
namespace IntScript
open Text (Host)

structure Session where
  path : String
  atPrompt : Bool
  persist : Bool
  backend : Option Backend
  /-- Text of the session's file. -/
  source : String
  queue : List Node := []
  bindings : Bindings := .empty
deriving DecidableEq

/-- What an action leaves behind: its result, the session and the reporter after
it, and the text it wrote to the output and about errors. -/
structure Turn (α : Type) where
  result : Except Trouble α
  session : Session
  reporter : Reporter
  out : String := ""
  err : String := ""

/-- Something a session can do, under a reporter. -/
def Action (α : Type) := Session → Reporter → Turn α

namespace Action
variable {α β : Type}

def done (a : α) : Action α := fun s r => { result := .ok a, session := s, reporter := r }

/-- One action after another; trouble in the first leaves the second out. -/
def andThen (first : Action α) (second : α → Action β) : Action β := fun s r =>
  let t := first s r
  match t.result with
  | .error e => { t with result := .error e }
  | .ok a =>
    let u := second a t.session t.reporter
    { u with out := t.out ++ u.out, err := t.err ++ u.err }

instance : Monad Action where
  pure := done
  bind := andThen

def fail (trouble : Trouble) : Action α := fun s r =>
  { result := .error trouble, session := s, reporter := r }

def say (text : String) : Action Unit := fun s r =>
  { result := .ok (), session := s, reporter := r, out := text }

/-- The action under the reporter's care. -/
def guarded (action : Action Unit) : Action Unit := fun s r =>
  let t := action s r
  let (text, reporter, passed) := t.reporter.close (Trouble.ofResult? t.result)
  { t with result := Trouble.toResult passed, reporter, err := t.err ++ text }

end Action

/-- The warnings for unknown characters, until one makes no report. -/
def Reporter.warnings (r : Reporter) : List UnknownCharacter → List String × Option InternalFault
  | [] => ([], none)
  | u :: rest =>
    match r.warn u.notice with
    | (text, some fault) => ([text], some fault)
    | (text, none) =>
      let (texts, fault) := r.warnings rest
      (text :: texts, fault)

/-- Writes a warning for each unknown character. -/
def Reporter.warnAll (r : Reporter) (unknown : List UnknownCharacter) :
    String × Option InternalFault :=
  let (texts, fault) := r.warnings unknown
  (String.join texts, fault)

namespace Session

/-- Starts a session. At the prompt the reporter is no longer fatal. A session
persists unless it is at the prompt, if nothing else is asked for. -/
def start (files : Files) (path : String) (atPrompt : Bool) (persist : Option Bool)
    (backend : Option Backend) (r : Reporter) : Except Trouble Session × Reporter :=
  let r := if atPrompt then { r with fatal := false } else r
  let source :=
    if path ≠ promptPath then readSource files path
    else if atPrompt then .ok ""
    else .error (.reserved path)
  match source with
  | .error e => (.error (.ofNotice e.notice r.host), r)
  | .ok source =>
    (.ok { path, atPrompt, persist := persist.getD (!atPrompt), backend, source }, r)

/-- Registers a source and queues its statements. A source that cannot be read
leaves the queue as it was. -/
def add (source : String) : Action Unit := fun s r =>
  let r := { r with registry := r.registry.register s.path (some source) }
  let parsed := parse nestingLimit source
  let (warnings, fault) := r.warnAll parsed.unknown
  match fault, parsed.program with
  | some fault, _ => { result := .error (.fault fault), session := s, reporter := r, err := warnings }
  | none, .error e =>
    { result := .error (.ofRead r.host e), session := s, reporter := r, err := warnings }
  | none, .ok program =>
    { result := .ok (), session := { s with queue := s.queue ++ program }, reporter := r,
      err := warnings }

/-- Queues the statements of the session's own file. -/
def addOwn : Action Unit := fun s r => add s.source s r

/-- Runs the queue. If all goes well the session's source is no longer at work. -/
def run : Action Unit := fun s r =>
  let bindings := if s.atPrompt && !s.persist then .empty else s.bindings
  let (result, m) := Machine.run depthLimit s.queue { bindings }
  let s := { s with bindings := m.bindings, queue := if s.atPrompt then [] else s.queue }
  match result with
  | .ok () =>
    { result := .ok (), session := s, out := m.output,
      reporter := { r with registry := r.registry.remove s.path } }
  | .error e => { result := .error (.ofEval r.host e), session := s, reporter := r, out := m.output }

/-- Adds a source and runs the queue, under the reporter's care. -/
def runLine (source : String) : Action Unit := Action.guarded do
  add source
  run

/-- Hands the queue to the backend, if there is one. -/
def compile : Action (Option Bool) := fun s r =>
  match s.backend with
  | none => { result := .ok none, session := s, reporter := r }
  | some backend =>
    let (text, success) := backend.lower (some s.queue)
    { result := .ok (some success), session := s, reporter := r, out := text }

/-- The outlines of the queued statements. -/
def outline : Action String := fun s r =>
  { result := match s.queue.mapM (Node.outline depthLimit 0) with
      | .ok outlines => .ok ("\n".intercalate outlines)
      | .error e => .error (.ofRender e)
    session := s
    reporter := r }

end Session
end IntScript

import IntScript.CommandLine
import IntScript.Shell

/-! The program behind the command line: it runs a file, or the shell if there is
none. Everything happens under the care of one reporter. -/
namespace IntScript
open Text (Host)

/-- What the program leaves behind. -/
structure Ending where
  result : Except Trouble Unit
  out : String := ""
  err : String := ""

namespace Program

/-- Runs the session's file: shows it, reads all of it, shows its outline if asked
for, runs it, and hands it to the backend if there is one. -/
def runFile (options : Options) : Action Unit := do
  Session.addOwn
  if options.ast then
    let count ← fun s r => Action.done s.queue.length s r
    Action.say ("--- Abstract Syntax Tree (" ++ toString count ++ " statement(s)) ---\n")
    Action.say ((← Session.outline) ++ "\n")
    Action.say "--- Execution Results ---\n"
  Session.run
  if options.backend then
    let status := if (← Session.compile) = some true then "succeeded" else "failed"
    Action.say ("Code generation " ++ status ++ ".\n")

def banner (file source : String) : String :=
  "--- PanLang Execution from " ++ file ++ " ---\nInput Code:\n" ++ source ++ "\n"

/-- The file mode. -/
def file (host : Host) (files : Files) (options : Options) (path : String) : Ending :=
  let backend := if options.backend then some Backend.announcing else none
  match Session.start files path false none backend { host } with
  | (.error trouble, reporter) =>
    let (text, _, passed) := reporter.close (some trouble)
    { result := Trouble.toResult passed, err := text }
  | (.ok session, reporter) =>
    let t := Action.guarded (runFile options) session reporter
    { result := t.result, out := banner path session.source ++ t.out, err := t.err }

/-- A shell on a fresh session. -/
def freshShell (host : Host) (persist : Option Bool) : Except Trouble Shell :=
  match Session.start (fun _ => none) promptPath true persist none { host } with
  | (.ok session, reporter) => .ok { session, reporter }
  | (.error trouble, _) => .error trouble

/-- The interactive mode. -/
def interactive (host : Host) (persist : Bool) (input : List Char) : Ending :=
  match freshShell host (some persist) with
  | .error trouble => { result := .error trouble }
  | .ok shell =>
    let t := shell.run Shell.greeting input
    let (text, _, passed) := t.shell.reporter.close (Trouble.ofResult? t.result)
    { result := Trouble.toResult passed, out := t.out, err := t.err ++ text }

/-- The whole program on a command line, with the files it finds and its input. -/
def run (host : Host) (files : Files) (arguments : List String) (input : List Char) : Ending :=
  match Command.read arguments with
  | .showHelp => { result := .error (.leave 0), out := Command.helpText }
  | .refuse error => { result := .error (.leave 2), err := Command.errorText error }
  | .start options =>
    match options.file with
    | some path => file host files options path
    | none => interactive host options.persist input

end Program
end IntScript

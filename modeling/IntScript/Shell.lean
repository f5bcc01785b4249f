import IntScript.Session
import IntScript.Shell.Line

/-! The shell: a session at the prompt, fed line by line. Bare commands are for
the shell; any other line runs as a source of its own, also one that starts with
the name of a command. -/
namespace IntScript

structure Shell where
  session : Session
  reporter : Reporter
  /-- The last line that had a name in front, as far as it was kept. -/
  lastLine : String := ""

/-- What a line leaves behind: whether the shell is to stop, the shell after it,
and the text written. -/
structure ShellTurn where
  stop : Except Trouble Bool
  shell : Shell
  out : String := ""
  err : String := ""

namespace Shell

def prompt : String := ">>> "

/-- The name of the end of the input, as a command. -/
def endOfInput : String := "EOF"

def greeting : String :=
  "PanLang REPL :: Python backend\n" ++
  "Type 'exit' to exit, '?' or 'help' for more information."

def farewell : String := "Exiting PanLang REPL.\n"

def helpText (persist : Bool) : String :=
  "Welcome to PanLang!\n\n" ++
  "PanLang statements are either assignments or prints. Variables hold integers, and \n" ++
  "expressions use +, -, * and / with the usual precedence (/ truncates toward zero).\n\n" ++
  "Try it out by typing 'x = 2 + 3 * 4', then 'print(x)'. Strings can only be \n" ++
  "printed directly: 'print(\"hello\")'.\n" ++
  if persist then ""
  else "\nNote: variables are forgotten after every line (start with --persist to keep them).\n"

/-- Runs a line as a source. -/
def runLine (sh : Shell) (line : String) : ShellTurn :=
  let t := Session.runLine line sh.session sh.reporter
  { stop := t.result.map fun _ => false
    shell := { sh with session := t.session, reporter := t.reporter }
    out := t.out
    err := t.err }

/-- Leaves the shell, unless an argument shows that the line is a source. -/
def leave (sh : Shell) (argument : String) : ShellTurn :=
  if argument = "" then { stop := .ok true, shell := sh, out := farewell }
  else sh.runLine sh.lastLine

def help (sh : Shell) (argument : String) : ShellTurn :=
  if argument = "" then { stop := .ok false, shell := sh, out := helpText sh.session.persist }
  else sh.runLine sh.lastLine

/-- Handles one typed line. -/
def handle (sh : Shell) (typed : String) : ShellTurn :=
  match TypedLine.read typed with
  | .empty => { stop := .ok false, shell := sh }
  | .setOff line => sh.runLine line
  | .named name argument line =>
    let sh := { sh with lastLine := if line = endOfInput then "" else line }
    if name = "help" then sh.help argument
    else if name = "exit" then sh.leave argument
    else if name = endOfInput then
      let t := sh.leave argument
      { t with out := "\n" ++ t.out }
    else sh.runLine line

/-- What a run of the shell leaves behind, with the input it did not read. -/
structure LoopTurn where
  result : Except Trouble Unit
  shell : Shell
  out : String
  err : String
  rest : List Char

/-- Prompts for lines and handles them until the shell is to stop. At the end of
the input the shell is told so, which stops it. -/
def loop (sh : Shell) (input : List Char) : LoopTurn :=
  match input with
  | [] =>
    let t := sh.handle endOfInput
    { result := t.stop.map fun _ => (), shell := t.shell, out := prompt ++ t.out, err := t.err,
      rest := [] }
  | c :: cs =>
    let line := (c :: cs).takeWhile (· ≠ '\n')
    let rest := cs.drop line.length
    let t := sh.handle (String.ofList line)
    match t.stop with
    | .ok false =>
      let u := t.shell.loop rest
      { u with out := prompt ++ t.out ++ u.out, err := t.err ++ u.err }
    | stop =>
      { result := stop.map fun _ => (), shell := t.shell, out := prompt ++ t.out, err := t.err,
        rest }
termination_by input.length
decreasing_by simp only [List.length_drop, List.length_cons]; omega

/-- Greets, if there is anything to say, and loops. -/
def run (sh : Shell) (greeting : String) (input : List Char) : LoopTurn :=
  let t := sh.loop input
  { t with out := (if greeting = "" then "" else greeting ++ "\n") ++ t.out }

end Shell
end IntScript

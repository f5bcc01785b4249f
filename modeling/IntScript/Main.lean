import IntScript.Program

/-! The tool itself. It reads the named file or feeds the shell as lines are
typed, and writes what the program has to say. -/
namespace IntScript.Tool

/-- Contents of a file on disk, if it can be read. -/
def fileOnDisk (path : String) : IO (Option ByteArray) := do
  try
    return some (← IO.FS.readBinFile path)
  catch _ =>
    return none

def write (out err : String) : IO Unit := do
  IO.print out
  (← IO.getStdout).flush
  IO.eprint err

/-- The exit status that a result stands for. -/
def status : Except Trouble Unit → UInt32
  | .ok () => 0
  | .error (.leave code) => code.toNat.toUInt32
  | .error _ => 1

/-- Prompts for lines until the shell is to stop. -/
partial def converse (sh : Shell) : IO UInt32 := do
  write Shell.prompt ""
  let typed ← (← IO.getStdin).getLine
  let t := sh.handle (if typed.isEmpty then Shell.endOfInput else typed)
  write t.out t.err
  match t.stop with
  | .ok false => converse t.shell
  | .ok true => return 0
  | .error trouble =>
    let (text, _, passed) := t.shell.reporter.close (some trouble)
    write "" text
    return status (Trouble.toResult passed)

def run (arguments : List String) : IO UInt32 := do
  let host : Text.Host := if ← (← IO.getStdout).isTty then .terminal else .plain
  match Command.read arguments with
  | .start { file := none, persist, .. } =>
    match Program.freshShell host (some persist) with
    | .ok sh =>
      write (Shell.greeting ++ "\n") ""
      converse sh
    | .error trouble => return status (.error trouble)
  | .start { file := some path, .. } =>
    let contents ← fileOnDisk path
    finish (Program.run host (fun asked => if asked = path then contents else none) arguments [])
  | _ => finish (Program.run host (fun _ => none) arguments [])
where
  finish (ending : Ending) : IO UInt32 := do
    write ending.out ending.err
    return status ending.result

end IntScript.Tool

def main (arguments : List String) : IO UInt32 := IntScript.Tool.run arguments

import IntScript.Text.Digit
import IntScript.Text.Quoted

/-! The command line: flags and at most one file.

Short flags may be combined behind one dash and long flags cut short; no flag
takes a value. Two dashes alone end the flags. What starts with a dash and is
neither a flag nor a negative number, and has no space in it, is an unknown flag. -/
namespace IntScript

inductive Flag where
  | help
  | ast
  | persist
  | backend
deriving DecidableEq

namespace Flag

def all : List Flag := [help, ast, persist, backend]

def short : Flag → Char
  | .help => 'h'
  | .ast => 'a'
  | .persist => 'p'
  | .backend => 'b'

def long : Flag → String
  | .help => "--help"
  | .ast => "--ast"
  | .persist => "--persist"
  | .backend => "--backend"

def ofShort? (c : Char) : Option Flag := all.find? (·.short = c)

/-- The flags whose long name starts with the given text. -/
def ofLongStart (text : List Char) : List Flag :=
  all.filter fun f => text.isPrefixOf f.long.toList

/-- Both names of a flag. -/
def names (f : Flag) : String := String.ofList ['-', f.short] ++ "/" ++ f.long

end Flag

/-- What is wrong with a command line. -/
inductive CommandError where
  | unwantedValue (flag : Flag) (value : String)
  | ambiguous (argument : String) (flags : List Flag)
  | unrecognized (arguments : List String)
  | fileOnly
deriving DecidableEq

def CommandError.message : CommandError → String
  | .unwantedValue flag value =>
    "argument " ++ flag.names ++ ": ignored explicit argument " ++ Text.quoted value
  | .ambiguous argument flags =>
    "ambiguous option: " ++ argument ++ " could match " ++ ", ".intercalate (flags.map Flag.long)
  | .unrecognized arguments => "unrecognized arguments: " ++ " ".intercalate arguments
  | .fileOnly => "--ast and --backend only apply when running a file"

/-- One argument, as it stands before the end of the flags. -/
inductive Argument where
  | endOfFlags
  | operand (text : String)
  | unknown (text : String)
  | flags (flags : List Flag)
  | wrong (error : CommandError)
deriving DecidableEq

namespace Argument

/-- Flags behind one dash. `last` is the flag read before, and what follows it has
to be flags too, because it takes no value. -/
def combined (last : Flag) : List Char → Argument
  | [] => .flags [last]
  | c :: rest =>
    match Flag.ofShort? c with
    | none => .wrong (.unwantedValue last (String.ofList (c :: rest)))
    | some next =>
      match combined next rest with
      | .flags more => .flags (last :: more)
      | other => other

/-- A value set off by an equals sign: behind a short flag it is read as further
flags, but it must not be empty. -/
def withValue (flag : Flag) (short : Bool) (value : List Char) : Argument :=
  if short && value ≠ [] then combined flag value
  else .wrong (.unwantedValue flag (String.ofList value))

/-- Digits of any script, which may have a point in front of the last of them. One
line feed at the end does no harm. -/
def isNumber (text : List Char) : Bool :=
  let body := if text.getLast? = some '\n' then text.dropLast else text
  let whole := body.takeWhile Text.isDecimal
  match body.drop whole.length with
  | [] => whole ≠ []
  | '.' :: fraction => fraction ≠ [] && fraction.all Text.isDecimal
  | _ => false

/-- An argument that starts with a dash and names no flag. -/
def unnamed (rest : List Char) : Argument :=
  let text := String.ofList ('-' :: rest)
  if isNumber rest || rest.contains ' ' then .operand text else .unknown text

/-- An argument that starts with two dashes. -/
def long (name : List Char) : Argument :=
  let text := '-' :: '-' :: name
  let front := text.takeWhile (· ≠ '=')
  let value? := match text.drop front.length with
    | [] => none
    | _ :: value => some value
  match Flag.all.find? (·.long.toList = front), Flag.ofLongStart front with
  | some flag, _ | none, [flag] =>
    match value? with
    | none => .flags [flag]
    | some value => withValue flag false value
  | none, [] => unnamed ('-' :: name)
  | none, several => .wrong (.ambiguous (String.ofList text) several)

/-- An argument that starts with one dash. -/
def short (c : Char) (rest : List Char) : Argument :=
  match Flag.ofShort? c, rest with
  | none, _ => unnamed (c :: rest)
  | some flag, '=' :: value => withValue flag true value
  | some flag, rest => combined flag rest

def read (text : String) : Argument :=
  match text.toList with
  | ['-', '-'] => .endOfFlags
  | '-' :: '-' :: name => long name
  | '-' :: c :: rest => short c rest
  | _ => .operand text

end Argument

structure Options where
  file : Option String := none
  ast : Bool := false
  persist : Bool := false
  backend : Bool := false
deriving DecidableEq

def Options.set (o : Options) : Flag → Options
  | .help => o
  | .ast => { o with ast := true }
  | .persist => { o with persist := true }
  | .backend => { o with backend := true }

inductive Command where
  | start (options : Options)
  | showHelp
  | refuse (error : CommandError)
deriving DecidableEq

namespace Command

/-- Options read so far. `atFile` holds right behind the file; `extras` are the
arguments that found no use. -/
structure Progress where
  options : Options := {}
  atFile : Bool := false
  extras : List String := []

/-- An operand is the file if there is none yet. -/
def Progress.operand (p : Progress) (text : String) : Progress :=
  match p.options.file with
  | none => { p with options := { p.options with file := some text }, atFile := true }
  | some _ => { p with atFile := false, extras := p.extras ++ [text] }

/-- The end of the flags is dropped beside the file: right behind it, or in front
of it if it is still to come. -/
def Progress.operands (p : Progress) (rest : List String) : Progress :=
  match p.options.file, rest with
  | none, [] => p
  | none, file :: more =>
    { p with options := { p.options with file := some file }, extras := p.extras ++ more }
  | some _, rest =>
    { p with extras := p.extras ++ if p.atFile then rest else "--" :: rest }

/-- A command line with arguments left over is refused, and so are the options of
the file mode without a file. -/
def Progress.finish (p : Progress) : Command :=
  if p.extras ≠ [] then .refuse (.unrecognized p.extras)
  else if p.options.file = none ∧ (p.options.ast ∨ p.options.backend) then .refuse .fileOnly
  else .start p.options

/-- Goes through the arguments in order. Help and values that a flag does not take
act where they stand. -/
def scan (p : Progress) : List String → Command
  | [] => p.finish
  | text :: rest =>
    match Argument.read text with
    | .endOfFlags => (p.operands rest).finish
    | .operand text => scan (p.operand text) rest
    | .unknown text => scan { p with atFile := false, extras := p.extras ++ [text] } rest
    | .wrong error => .refuse error
    | .flags flags =>
      if flags.contains .help then .showHelp
      else scan { p with options := flags.foldl Options.set p.options, atFile := false } rest

/-- The first argument before the end of the flags that could be several flags. -/
def ambiguous? : List String → Option CommandError
  | [] => none
  | text :: rest =>
    match Argument.read text with
    | .endOfFlags => none
    | .wrong (.ambiguous argument flags) => some (.ambiguous argument flags)
    | _ => ambiguous? rest

/-- What a command line asks for. -/
def read (arguments : List String) : Command :=
  match ambiguous? arguments with
  | some error => .refuse error
  | none => scan {} arguments

def usage : String := "usage: panlang [-h] [-a] [-p] [-b] [file]\n"

def helpText : String :=
  usage ++ "\nPanLang interpreter\n\n" ++
  "positional arguments:\n" ++
  "  file           .pan file to run (if empty, goes to command-line mode)\n\n" ++
  "options:\n" ++
  "  -h, --help     show this help message and exit\n" ++
  "  -a, --ast      display the parsed syntax tree before running (file mode\n" ++
  "                 only)\n" ++
  "  -p, --persist  keep variable bindings from one command-line input to the\n" ++
  "                 next\n" ++
  "  -b, --backend  hand the parsed program to the (mock) code generation backend\n" ++
  "                 after running it (file mode only)\n"

def errorText (error : CommandError) : String :=
  usage ++ "panlang: error: " ++ error.message ++ "\n"

end Command
end IntScript

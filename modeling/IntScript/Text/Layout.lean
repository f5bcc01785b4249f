import IntScript.Text.Count
import IntScript.Text.Digit
import IntScript.Text.Quoted

/-! Layouts: how a text is cut short and padded. A layout is written as a fill
character, an alignment, a width and a precision, each of them optional. Options
that make sense for numbers only can be written too, and are refused. -/
namespace IntScript.Text

inductive Alignment where
  | left
  | right
  | center
  /-- Padding behind the sign, which only numbers have. -/
  | inner
deriving DecidableEq

def Alignment.ofMark? : Char → Option Alignment
  | '<' => some .left
  | '>' => some .right
  | '^' => some .center
  | '=' => some .inner
  | _ => none

structure Layout where
  fill : Char := ' '
  align : Alignment := .left
  sign : Option Char := none
  /-- Whether a zero is to lose its sign. -/
  unsignedZero : Bool := false
  /-- Whether the base of a number is to be shown. -/
  alternate : Bool := false
  width : Option Nat := none
  precision : Option Nat := none
  kind : Char := 's'
deriving DecidableEq

inductive LayoutError where
  | tooManyDigits
  | twoSeparators
  | noPrecision
  | invalid (layout : String)
  | separatorWith (separator kind : Char)
  | unknownKind (kind : Char)
  | sign (mark : Char)
  | unsignedZero
  | alternate
  | inner
deriving DecidableEq

/-- A character in messages: itself between the blank and `limit`, else its code. -/
def shownBelow (limit : Nat) (c : Char) : String :=
  if 0x20 < c.toNat ∧ c.toNat < limit then String.singleton c
  else "\\x" ++ String.ofList (hexadecimal 1 c.toNat)

/-- A kind of layout in messages. -/
def shownKind (kind : Char) : String := shownBelow 0x80 kind

/-- What is wrong with a layout for text, in words. -/
def LayoutError.message : LayoutError → String
  | .tooManyDigits => "Too many decimal digits in format string"
  | .twoSeparators => "Cannot specify both ',' and '_'."
  | .noPrecision => "Format specifier missing precision"
  | .invalid layout => "Invalid format specifier '" ++ layout ++ "' for object of type 'str'"
  | .separatorWith separator kind =>
    "Cannot specify '" ++ String.singleton separator ++ "' with '" ++ shownKind kind ++ "'."
  | .unknownKind kind =>
    "Unknown format code '" ++ shownKind kind ++ "' for object of type 'str'"
  | .sign ' ' => "Space not allowed in string format specifier"
  | .sign _ => "Sign not allowed in string format specifier"
  | .unsignedZero => "Negative zero coercion (z) not allowed in string format specifier"
  | .alternate => "Alternate form (#) not allowed in string format specifier"
  | .inner => "'=' alignment not allowed in string format specifier"

namespace Layout

/-- Fill and alignment at the front of a layout, and what follows. Any character
in front of an alignment mark is the fill, also another mark. -/
def readAlignment : List Char → Option Char × Option Alignment × List Char
  | fill :: mark :: rest =>
    match Alignment.ofMark? mark, Alignment.ofMark? fill with
    | some align, _ => (some fill, some align, rest)
    | none, some align => (none, some align, mark :: rest)
    | none, none => (none, none, fill :: mark :: rest)
  | [mark] =>
    match Alignment.ofMark? mark with
    | some align => (none, some align, [])
    | none => (none, none, [mark])
  | [] => (none, none, [])

/-- Whether a text starts with a character, and what follows it then. -/
def takeFlag (flag : Char) : List Char → Bool × List Char
  | c :: rest => if c = flag then (true, rest) else (false, c :: rest)
  | [] => (false, [])

def takeSign : List Char → Option Char × List Char
  | c :: rest => if c = ' ' ∨ c = '+' ∨ c = '-' then (some c, rest) else (none, c :: rest)
  | [] => (none, [])

/-- A count, which has to fit into a machine word. -/
def readCount (text : List Char) : Except LayoutError (Option Nat × List Char) :=
  match leadingNumber text with
  | (some n, rest) => if largestIndex < n then .error .tooManyDigits else .ok (some n, rest)
  | (none, rest) => .ok (none, rest)

def readPrecision : List Char → Except LayoutError (Option Nat × List Char)
  | '.' :: rest => do
    match ← readCount rest with
    | (none, _) => .error .noPrecision
    | found => .ok found
  | text => .ok (none, text)

/-- The separator of groups of digits, of which there is at most one. -/
def readSeparator (text : List Char) : Except LayoutError (Option Char × List Char) :=
  match text with
  | ',' :: '_' :: _ | '_' :: ',' :: _ => .error .twoSeparators
  | ',' :: rest => .ok (some ',', rest)
  | '_' :: rest => .ok (some '_', rest)
  | _ => .ok (none, text)

/-- The kinds of numbers that can be written with a separator. -/
def separates (separator kind : Char) : Bool :=
  ['d', 'e', 'f', 'g', 'E', 'G', '%', 'F', '\x00'].contains kind ||
    (separator = '_' && ['b', 'o', 'x', 'X'].contains kind)

/-- Reads a layout. -/
def read (text : List Char) : Except LayoutError Layout := do
  let (fill, align, rest) := readAlignment text
  let (sign, rest) := takeSign rest
  let (unsignedZero, rest) := takeFlag 'z' rest
  let (alternate, rest) := takeFlag '#' rest
  let (zeros, rest) := if fill.isNone then takeFlag '0' rest else (false, rest)
  let (width, rest) ← readCount rest
  let (separator, rest) ← readSeparator rest
  let (precision, rest) ← readPrecision rest
  let kind ← match rest with
    | [] => .ok 's'
    | [kind] => .ok kind
    | _ => .error (.invalid (String.ofList text))
  match separator with
  | some mark => if !separates mark kind then throw (.separatorWith mark kind)
  | none => pure ()
  return {
    fill := fill.getD (if zeros then '0' else ' ')
    align := align.getD .left
    sign, unsignedZero, alternate, width, precision, kind }

/-- Refuses what only numbers can have. -/
def checkText (l : Layout) : Except LayoutError Unit :=
  if l.kind ≠ 's' then .error (.unknownKind l.kind)
  else match l.sign with
    | some mark => .error (.sign mark)
    | none =>
      if l.unsignedZero then .error .unsignedZero
      else if l.alternate then .error .alternate
      else if l.align = .inner then .error .inner
      else .ok ()

/-- A text cut to the precision and padded to the width. -/
def place (l : Layout) (text : List Char) : List Char :=
  let shown := l.precision.elim text text.take
  let missing := l.width.getD 0 - shown.length
  let before := match l.align with
    | .right => missing
    | .center => missing / 2
    | _ => 0
  List.replicate before l.fill ++ shown ++ List.replicate (missing - before) l.fill

end Layout

/-- The text in a layout that is still to be read; without one it stays as it is. -/
def laidOut (layout text : List Char) : Except LayoutError (List Char) :=
  if layout = [] then .ok text
  else do
    let l ← Layout.read layout
    l.checkText
    return l.place text

end IntScript.Text

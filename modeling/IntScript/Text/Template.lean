import IntScript.Text.Layout

/-! Message templates. Braces enclose a field, and a doubled brace stands for
itself. The name of a field selects a value: an empty name takes the next one, a
number the one with that index. An index in square brackets selects a character
of it, and what stands behind a dot is left to the host. Behind the name may stand
a conversion and a layout, which may have fields of its own. Values are inserted as
they are and never read as templates. -/
namespace IntScript.Text

/-- How a template counts its fields: the first numbered or empty field decides. -/
inductive Numbering where
  | undecided
  | automatic (next : Nat)
  | manual
deriving DecidableEq

/-- Why the host refuses: the name of the kind of fault, and a text. -/
structure Refusal where
  kind : String
  text : String
deriving DecidableEq

/-- Something of the host that a name leads to, as far as templates ask for it: its
text, its text quoted and quoted in ASCII, and its text in a layout. -/
structure Object where
  spelled : Except Refusal (List Char)
  quoted : Except Refusal (List Char)
  quotedAscii : Except Refusal (List Char)
  laidOut : List Char → Except Refusal (List Char)

/-- What the host finds behind a text, along steps that begin with an attribute. -/
def Attributes := (text steps : List Char) → Except Refusal Object

inductive TemplateError where
  | loneOpen
  | loneClose
  | unclosedField
  | openInField
  | noConversion
  | longConversion
  | unclosedLayout
  | automaticThenManual
  | manualThenAutomatic
  | tooManyDigits
  | outOfRange (index : Nat)
  | unknownName (name : String)
  | emptyStep
  | strayStep
  | refused (refusal : Refusal)
  | noCharacter
  | notIndex
  | unknownConversion (conversion : Char)
  | layout (error : LayoutError)
  | nestedFields
deriving DecidableEq

/-- What is wrong with the template, in words. -/
def TemplateError.message : TemplateError → String
  | .loneOpen => "Single '\x7b' encountered in format string"
  | .loneClose => "Single '\x7d' encountered in format string"
  | .unclosedField => "expected '\x7d' before end of string"
  | .openInField => "unexpected '\x7b' in field name"
  | .noConversion => "end of string while looking for conversion specifier"
  | .longConversion => "expected ':' after conversion specifier"
  | .unclosedLayout => "unmatched '\x7b' in format spec"
  | .automaticThenManual =>
      "cannot switch from automatic field numbering to manual field specification"
  | .manualThenAutomatic =>
      "cannot switch from manual field specification to automatic field numbering"
  | .tooManyDigits => LayoutError.tooManyDigits.message
  | .outOfRange index =>
      "Replacement index " ++ toString index ++ " out of range for positional args tuple"
  | .unknownName name => quoted name
  | .emptyStep => "Empty attribute in format string"
  | .strayStep => "Only '.' or '[' may follow ']' in format field specifier"
  | .refused refusal => refusal.text
  | .noCharacter => "string index out of range"
  | .notIndex => "string indices must be integers, not 'str'"
  | .unknownConversion conversion => "Unknown conversion specifier " ++ shownBelow 0x7F conversion
  | .layout error => error.message
  | .nestedFields => "Max string recursion exceeded"

structure Field where
  name : List Char
  conversion : Option Char := none
  layout : List Char := []
deriving DecidableEq

namespace Field

def endsName (c : Char) : Bool := c = '\x7b' || c = '\x7d' || c = ':' || c = '!'

/-- Splits a text where the name of a field ends, which it does not within square
brackets. -/
def splitName (bracketed : Bool) : List Char → List Char × List Char
  | [] => ([], [])
  | c :: rest =>
    if !bracketed && endsName c then ([], c :: rest)
    else
      let (name, after) := splitName (if bracketed then c ≠ ']' else c = '[') rest
      (c :: name, after)

/-- Splits a text where the layout of a field ends; `inner` counts the braces open
within the layout. -/
def splitLayout (inner : Nat) : List Char → List Char × List Char
  | [] => ([], [])
  | c :: rest =>
    if c = '\x7d' ∧ inner = 0 then ([], c :: rest)
    else
      let within := if c = '\x7b' then inner + 1 else if c = '\x7d' then inner - 1 else inner
      let (layout, after) := splitLayout within rest
      (c :: layout, after)

/-- Reads the layout of a field up to and with the closing brace. -/
def readLayout (field : Field) (text : List Char) : Except TemplateError (Field × List Char) :=
  match splitLayout 0 text with
  | (_, []) => .error .unclosedLayout
  | (layout, _ :: rest) => .ok ({ field with layout }, rest)

/-- Reads a conversion and what follows it up to and with the closing brace. -/
def readConversion (field : Field) : List Char → Except TemplateError (Field × List Char)
  | [] => .error .noConversion
  | [_] => .error .unclosedLayout
  | c :: '\x7d' :: rest => .ok ({ field with conversion := some c }, rest)
  | c :: ':' :: rest => readLayout { field with conversion := some c } rest
  | _ => .error .longConversion

/-- Reads a field up to and with its closing brace. -/
def read (text : List Char) : Except TemplateError (Field × List Char) :=
  match splitName false text with
  | (_, []) => .error .unclosedField
  | (_, '\x7b' :: _) => .error .openInField
  | (name, '\x7d' :: rest) => .ok ({ name }, rest)
  | (name, ':' :: rest) => readLayout { name } rest
  | (name, _ :: rest) => readConversion { name } rest

theorem splitName_length (bracketed : Bool) (text : List Char) :
    (splitName bracketed text).2.length ≤ text.length := by
  induction text generalizing bracketed with
  | nil => exact Nat.le_refl _
  | cons c rest ih =>
    rw [splitName]
    split
    · exact Nat.le_refl _
    · exact Nat.le_succ_of_le (ih _)

theorem splitLayout_length (inner : Nat) (text : List Char) :
    (splitLayout inner text).2.length ≤ text.length := by
  induction text generalizing inner with
  | nil => exact Nat.le_refl _
  | cons c rest ih =>
    rw [splitLayout]
    split
    · exact Nat.le_refl _
    · exact Nat.le_succ_of_le (ih _)

theorem readLayout_length {field found : Field} {text after : List Char}
    (read : field.readLayout text = .ok (found, after)) : after.length < text.length := by
  have bound := splitLayout_length 0 text
  unfold readLayout at read
  split at read
  · cases read
  · next split =>
    cases read
    rw [split] at bound
    exact bound

theorem readConversion_length {field found : Field} {text after : List Char}
    (read : field.readConversion text = .ok (found, after)) : after.length < text.length := by
  unfold readConversion at read
  split at read
  · cases read
  · cases read
  · cases read
    simp only [List.length_cons]
    omega
  · have := readLayout_length read
    simp only [List.length_cons]
    omega
  · cases read

/-- A field takes up some of the text it is read from. -/
theorem read_length {field : Field} {text after : List Char}
    (found : read text = .ok (field, after)) : after.length < text.length := by
  have bound := splitName_length false text
  unfold read at found
  split at found
  · cases found
  · cases found
  · next split =>
    cases found
    rw [split] at bound
    exact bound
  · next split =>
    rw [split] at bound
    exact Nat.lt_trans (readLayout_length found) bound
  · next split =>
    rw [split] at bound
    exact Nat.lt_trans (readConversion_length found) bound

end Field

/-- What the name of a field leads to. -/
inductive Reached where
  | text (chars : List Char)
  | object (found : Object)

namespace Reached

def spelled : Reached → Except TemplateError (List Char)
  | .text chars => .ok chars
  | .object found => found.spelled.mapError .refused

def quoted : Reached → Except TemplateError (List Char)
  | .text chars => .ok (quotedChars chars)
  | .object found => found.quoted.mapError .refused

def quotedAscii : Reached → Except TemplateError (List Char)
  | .text chars => .ok (quotedAsciiChars chars)
  | .object found => found.quotedAscii.mapError .refused

def laidOut (layout : List Char) : Reached → Except TemplateError (List Char)
  | .text chars => (Text.laidOut layout chars).mapError .layout
  | .object found => (found.laidOut layout).mapError .refused

end Reached

namespace Field

def endsStep (c : Char) : Bool := c = '.' || c = '['

/-- An index, if the text is one. It has to fit into a machine word, also if more
than digits follow it. -/
def readIndex (text : List Char) : Except TemplateError (Option Nat) :=
  match leadingNumber text with
  | (none, _) => .ok none
  | (some n, rest) =>
    if largestIndex < n then .error .tooManyDigits
    else if rest = [] then .ok (some n)
    else .ok none

def valueAt (values : List String) (index : Nat) (next : Numbering) :
    Except TemplateError (List Char × Numbering) :=
  match values[index]? with
  | some value => .ok (value.toList, next)
  | none => .error (.outOfRange index)

/-- The value that the first part of a name selects, and how the next field counts. -/
def select (values : List String) (numbering : Numbering) (first : List Char) :
    Except TemplateError (List Char × Numbering) := do
  match first, ← readIndex first, numbering with
  | [], _, .undecided => valueAt values 0 (.automatic 1)
  | [], _, .automatic next => valueAt values next (.automatic (next + 1))
  | [], _, .manual => .error .manualThenAutomatic
  | _, some _, .automatic _ => .error .automaticThenManual
  | _, some index, _ => valueAt values index .manual
  | name, none, _ => .error (.unknownName (String.ofList name))

/-- Follows the further steps of a name from a text: an index in square brackets
selects a character, and from an attribute on it is the host that goes on. -/
def follow (attributes : Attributes) (value : List Char) (steps : List Char) :
    Except TemplateError Reached :=
  match steps with
  | [] => .ok (.text value)
  | '.' :: rest =>
    if rest.takeWhile (!endsStep ·) = [] then .error .emptyStep
    else ((attributes value ('.' :: rest)).map .object).mapError .refused
  | '[' :: rest => do
    let key := rest.takeWhile (· ≠ ']')
    match ← readIndex key with
    | none => .error (if key = [] then .emptyStep else .notIndex)
    | some index =>
      match value[index]? with
      | none => .error .noCharacter
      | some c => follow attributes [c] (rest.drop (key.length + 1))
  | _ => .error .strayStep
termination_by steps.length
decreasing_by simp only [List.length_drop, List.length_cons]; omega

/-- A value after its conversion. The null character stands for no conversion. -/
def convert (value : Reached) : Option Char → Except TemplateError Reached
  | none | some '\x00' => .ok value
  | some 's' => value.spelled.map .text
  | some 'r' => value.quoted.map .text
  | some 'a' => value.quotedAscii.map .text
  | some conversion => .error (.unknownConversion conversion)

end Field

/-- Fills a template from the left, so that the first fault in it is the one
reported. `expand` fills the layouts that have fields of their own. -/
def fillChars (attributes : Attributes)
    (expand : Numbering → List Char → Except TemplateError (List Char × Numbering))
    (values : List String) (numbering : Numbering) (template : List Char) :
    Except TemplateError (List Char × Numbering) :=
  match template with
  | [] => .ok ([], numbering)
  | '\x7b' :: '\x7b' :: rest => do
    let (filled, last) ← fillChars attributes expand values numbering rest
    return ('\x7b' :: filled, last)
  | '\x7d' :: '\x7d' :: rest => do
    let (filled, last) ← fillChars attributes expand values numbering rest
    return ('\x7d' :: filled, last)
  | ['\x7b'] => .error .loneOpen
  | '\x7d' :: _ => .error .loneClose
  | '\x7b' :: rest =>
    match found : Field.read rest with
    | .error e => .error e
    | .ok (field, after) => do
      have := Field.read_length found
      let first := field.name.takeWhile (!Field.endsStep ·)
      let (selected, next) ← Field.select values numbering first
      let value ← Field.follow attributes selected (field.name.drop first.length)
      let converted ← Field.convert value field.conversion
      let (layout, next) ←
        if field.layout.contains '\x7b' then expand next field.layout
        else .ok (field.layout, next)
      let shown ← converted.laidOut layout
      let (filled, last) ← fillChars attributes expand values next after
      return (shown ++ filled, last)
  | c :: rest => do
    let (filled, last) ← fillChars attributes expand values numbering rest
    return (c :: filled, last)
termination_by template.length

/-- Fills a template with at most `depth` templates inside each other. -/
def fillNested (attributes : Attributes) (values : List String) :
    Nat → Numbering → List Char → Except TemplateError (List Char × Numbering)
  | 0, _, _ => .error .nestedFields
  | depth + 1, numbering, template =>
    fillChars attributes (fillNested attributes values depth) values numbering template

/-- The template with its fields replaced by the values. -/
def fill (attributes : Attributes) (template : String) (values : List String) :
    Except TemplateError String := do
  let (filled, _) ← fillNested attributes values 2 .undecided template.toList
  return String.ofList filled

end IntScript.Text

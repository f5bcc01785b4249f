import IntScript.Text.Template

/-! What the wording of reports takes from the host: how emphasis is marked, and what
stands behind the attributes of a text. The program works with any host. -/
namespace IntScript.Text

inductive Tint where
  | red
  | magenta
deriving DecidableEq

structure Host where
  /-- Bold text, in a tint if one is given. -/
  emphasise : String → Option Tint → String
  attributes : Attributes

namespace Host

def bold (host : Host) (text : String) : String := host.emphasise text none

/-- The class of texts. It can be shown, but not laid out. -/
def textClass : Object :=
  let shown := "<class 'str'>".toList
  { spelled := .ok shown
    quoted := .ok shown
    quotedAscii := .ok shown
    laidOut := fun layout =>
      if layout = [] then .ok shown
      else .error ⟨"TypeError", "unsupported format string passed to type.__format__"⟩ }

/-- Attributes of a host whose texts have none but their class. -/
def classAlone : Attributes := fun _ steps =>
  let name := (steps.drop 1).takeWhile (!Field.endsStep ·)
  if steps = ".__class__".toList then .ok textClass
  else .error ⟨"AttributeError", "'str' object has no attribute '" ++ String.ofList name ++ "'"⟩

/-- Without emphasis. -/
def plain : Host where
  emphasise text _ := text
  attributes := classAlone

/-- With emphasis as escape sequences around the text. -/
def terminal : Host where
  emphasise text tint :=
    "\x1b[1m" ++ (match tint with
      | none => ""
      | some .red => "\x1b[31m"
      | some .magenta => "\x1b[35m") ++ text ++ "\x1b[0m"
  attributes := classAlone

end Host
end IntScript.Text

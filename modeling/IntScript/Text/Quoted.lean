import IntScript.Text.Unmarked

/-! The quoted spelling of a text, as tokens and bindings show it. Apostrophes
enclose the text unless it has an apostrophe and no double quote. Characters
that leave no mark on paper are spelled by their code in lowercase hexadecimal. -/
namespace IntScript.Text

/-- Lowercase hexadecimal digits of `n`, with zeros in front up to `width`. -/
def hexadecimal (width n : Nat) : List Char :=
  let digits := Nat.toDigits 16 n
  List.replicate (width - digits.length) '0' ++ digits

/-- A character spelled by its code. -/
def codeEscape (c : Char) : List Char :=
  let n := c.toNat
  if n < 0x100 then '\\' :: 'x' :: hexadecimal 2 n
  else if n < 0x10000 then '\\' :: 'u' :: hexadecimal 4 n
  else '\\' :: 'U' :: hexadecimal 8 n

/-- One character between quotes of the given kind. -/
def escape (quote c : Char) : List Char :=
  if c = quote ∨ c = '\\' then ['\\', c]
  else if c = '\n' then ['\\', 'n']
  else if c = '\r' then ['\\', 'r']
  else if c = '\t' then ['\\', 't']
  else if isUnmarked c then codeEscape c
  else [c]

def quoteMark (text : List Char) : Char :=
  if text.contains '\'' && !text.contains '"' then '"' else '\''

def quotedChars (text : List Char) : List Char :=
  let mark := quoteMark text
  mark :: text.flatMap (escape mark) ++ [mark]

/-- The quoted spelling of a text. -/
def quoted (text : String) : String := String.ofList (quotedChars text.toList)

/-- The quoted spelling with every character beyond ASCII spelled by its code. -/
def quotedAsciiChars (text : List Char) : List Char :=
  (quotedChars text).flatMap fun c => if c.toNat < 0x80 then [c] else codeEscape c

end IntScript.Text

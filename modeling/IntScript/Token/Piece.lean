import IntScript.Token

/-! Pieces of a source text. Every text falls into pieces from the left: tokens,
and between them blanks, comments and characters outside the lexical grammar.
Numbers and words reach as far as they can, and a quote reaches to the very next
quote, there being no escapes. -/
namespace IntScript

/-- Blanks within a line; the line feed is a token of its own. -/
def isSpacing (c : Char) : Bool :=
  c = ' ' || c = '\t' || c = '\r' || c = '\x0c' || c = '\x0b'

def isWordStart (c : Char) : Bool := c.isAlpha || c = '_'

def isWordChar (c : Char) : Bool := isWordStart c || c.isDigit

def symbolKind? : Char → Option TokenKind
  | '=' => some .assign
  | '+' => some .plus
  | '-' => some .minus
  | '*' => some .times
  | '/' => some .divide
  | '(' => some .lparen
  | ')' => some .rparen
  | ',' => some .comma
  | ':' => some .colon
  | _ => none

/-- The kind of a word: the one keyword, or an identifier. -/
def wordKind (word : List Char) : TokenKind :=
  if word = ['p', 'r', 'i', 'n', 't'] then .print else .identifier

theorem symbolKind?_ne_eof (c : Char) : symbolKind? c ≠ some .eof := by
  unfold symbolKind?
  split <;> decide

theorem wordKind_ne_eof (word : List Char) : wordKind word ≠ .eof := by
  unfold wordKind
  split <;> decide

inductive Piece where
  | spacing (c : Char)
  | comment (body : List Char)
  | unknown (c : Char)
  | number (digits : List Char)
  | word (letters : List Char)
  | string (body : List Char) (closed : Bool)
  | newline
  | symbol (kind : TokenKind) (c : Char)
deriving DecidableEq

namespace Piece

/-- The piece at the front of a non-empty text. -/
def first (c : Char) (rest : List Char) : Piece :=
  if isSpacing c then .spacing c
  else if c = '#' then .comment (rest.takeWhile (· ≠ '\n'))
  else if c.isDigit then .number (c :: rest.takeWhile Char.isDigit)
  else if isWordStart c then .word (c :: rest.takeWhile isWordChar)
  else if c = '"' then .string (rest.takeWhile (· ≠ '"')) (rest.contains '"')
  else if c = '\n' then .newline
  else match symbolKind? c with
    | some kind => .symbol kind c
    | none => .unknown c

/-- The characters that a piece takes up in the source. -/
def text : Piece → List Char
  | .spacing c | .unknown c | .symbol _ c => [c]
  | .comment body => '#' :: body
  | .number digits => digits
  | .word letters => letters
  | .string body closed => '"' :: (body ++ if closed then ['"'] else [])
  | .newline => ['\n']

/-- Kind and lexeme of a piece that is a token. The lexeme is the text, except
that a string left open at the end of the source gets its closing quote. -/
def token? : Piece → Option (TokenKind × List Char)
  | .spacing _ | .comment _ | .unknown _ => none
  | .number digits => some (.number, digits)
  | .word letters => some (wordKind letters, letters)
  | .string body _ => some (.string, '"' :: (body ++ ['"']))
  | .newline => some (.newline, ['\n'])
  | .symbol kind c => some (kind, [c])

theorem first_text_length_pos (c : Char) (rest : List Char) : 0 < (first c rest).text.length := by
  unfold first
  repeat' split
  all_goals simp [text]

/-- Up to a character and with it, if it is there at all. -/
theorem takeWhile_closed_prefix (c : Char) (text : List Char) :
    text.takeWhile (· ≠ c) ++ (if text.contains c then [c] else []) <+: text := by
  induction text with
  | nil => simp
  | cons d rest ih => by_cases same : d = c <;> simp_all [eq_comm]

/-- A piece takes up the front of the text it was read from. -/
theorem first_text_append_drop (c : Char) (rest : List Char) :
    (first c rest).text ++ (c :: rest).drop (first c rest).text.length = c :: rest := by
  rw [← List.prefix_iff_eq_append]
  unfold first
  repeat' split
  · simp [text]
  · next hash => simp [text, hash, List.takeWhile_prefix]
  · simp [text, List.takeWhile_prefix]
  · simp [text, List.takeWhile_prefix]
  · next quote => simpa [text, quote] using takeWhile_closed_prefix '"' rest
  · next feed => simp [text, feed]
  · simp [text]
  · simp [text]

/-- Only the end of the source makes a final token. -/
theorem first_token?_ne_eof {c : Char} {rest lexeme : List Char} {kind : TokenKind}
    (token : (first c rest).token? = some (kind, lexeme)) : kind ≠ .eof := by
  unfold first at token
  repeat' split at token
  all_goals simp only [token?, Option.some.injEq, Prod.mk.injEq, reduceCtorEq] at token
  all_goals obtain ⟨rfl, -⟩ := token
  · decide
  · exact wordKind_ne_eof _
  · decide
  · decide
  · rename_i found
    exact fun eof => symbolKind?_ne_eof c (eof ▸ found)

end Piece
end IntScript

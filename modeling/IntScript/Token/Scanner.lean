import IntScript.Token.Piece

/-! Scanning: tokens are drawn from a source one at a time. Blanks and comments
are passed over in silence, and a character outside the lexical grammar is noted
once, when the scanner passes it. At the end of the source the final token is
drawn as often as asked. -/
namespace IntScript

/-- A character outside the lexical grammar, with its position. -/
structure UnknownCharacter where
  char : Char
  position : Position
deriving DecidableEq

structure Scanner where
  /-- The part of the source not yet passed. -/
  rest : List Char
  /-- Number of characters passed. -/
  offset : Nat
  position : Position
  /-- The unknown characters passed, the latest first. -/
  noted : List UnknownCharacter
deriving DecidableEq

namespace Scanner

/-- The unknown characters passed, in source order. -/
def unknown (s : Scanner) : List UnknownCharacter := s.noted.reverse

def start (source : String) : Scanner := ⟨source.toList, 0, .start, []⟩

/-- The scanner behind a piece at its front. -/
def pass (s : Scanner) (piece : Piece) : Scanner where
  rest := s.rest.drop piece.text.length
  offset := s.offset + piece.text.length
  position := s.position.after piece.text
  noted := match piece with
    | .unknown c => ⟨c, s.position⟩ :: s.noted
    | _ => s.noted

theorem unknown_pass (s : Scanner) (piece : Piece) :
    (s.pass piece).unknown = s.unknown ++ match piece with
      | .unknown c => [⟨c, s.position⟩]
      | _ => [] := by
  cases piece <;> simp [pass, unknown]

theorem pass_rest_lt {s : Scanner} {c : Char} {cs : List Char} (front : s.rest = c :: cs) :
    (s.pass (Piece.first c cs)).rest.length < s.rest.length := by
  have := Piece.first_text_length_pos c cs
  simp only [pass, front, List.length_drop, List.length_cons]
  omega

/-- Draws the next token. -/
def next (s : Scanner) : Token × Scanner :=
  match front : s.rest with
  | [] => (.final s.position, s)
  | c :: cs =>
    have := pass_rest_lt front
    match (Piece.first c cs).token? with
    | some (kind, lexeme) =>
      (⟨kind, String.ofList lexeme, s.position⟩, s.pass (Piece.first c cs))
    | none => (s.pass (Piece.first c cs)).next
termination_by s.rest.length

theorem next_of_nil {s : Scanner} (front : s.rest = []) : s.next = (.final s.position, s) := by
  rw [next]
  split
  · rfl
  · simp_all

theorem next_of_token {s : Scanner} {c : Char} {cs lexeme : List Char} {kind : TokenKind}
    (front : s.rest = c :: cs) (token : (Piece.first c cs).token? = some (kind, lexeme)) :
    s.next = (⟨kind, String.ofList lexeme, s.position⟩, s.pass (Piece.first c cs)) := by
  rw [next]
  split
  · simp_all
  · next d ds eq =>
    obtain ⟨rfl, rfl⟩ := List.cons.inj (front.symm.trans eq)
    simp [token]

theorem next_of_gap {s : Scanner} {c : Char} {cs : List Char}
    (front : s.rest = c :: cs) (gap : (Piece.first c cs).token? = none) :
    s.next = (s.pass (Piece.first c cs)).next := by
  rw [next]
  split
  · simp_all
  · next d ds eq =>
    obtain ⟨rfl, rfl⟩ := List.cons.inj (front.symm.trans eq)
    simp [gap]

/-- A token other than the final one leaves less of the source; the final token
leaves nothing of it. -/
theorem next_progress (s : Scanner) :
    (s.next.1.kind = .eof ∧ s.next.2.rest = []) ∨
      (s.next.1.kind ≠ .eof ∧ s.next.2.rest.length < s.rest.length) := by
  fun_induction next s with
  | case1 s front => exact .inl ⟨rfl, front⟩
  | case2 s c cs front less kind lexeme token => exact .inr ⟨Piece.first_token?_ne_eof token, less⟩
  | case3 s c cs front less gap ih =>
    rcases ih with ih | ⟨kind, shorter⟩
    · exact .inl ih
    · exact .inr ⟨kind, Nat.lt_trans shorter less⟩

/-- The tokens from here on, up to and with the final one. -/
def tokens (s : Scanner) : List Token :=
  if final : s.next.1.kind = .eof then [s.next.1]
  else
    have : s.next.2.rest.length < s.rest.length :=
      (s.next_progress.resolve_left (fun h => final h.1)).2
    s.next.1 :: s.next.2.tokens
termination_by s.rest.length

end Scanner
end IntScript

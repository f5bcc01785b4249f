import IntScript.Proofs.Spots
import Mathlib.Data.List.Forall2

/-! Line and column describe the offset. The scanner keeps count of all three, piece by piece.
Counting the source again up to the offset gives the same line and column, and looking a
position up among the lines of the source finds the character at the offset. -/
namespace IntScript

namespace Position

/-- The character is found where the position points to among the lines of the source. -/
def Points (p : Position) (source : String) (c : Char) : Prop :=
  ∃ line, (Text.lines source)[p.line - 1]? = some line ∧ line.toList[p.col - 1]? = some c

/-- The position behind a text points to the next character, if that is on the same line. -/
theorem points_after {source : String} {passed rest : List Char} {c : Char}
    (whole : source.toList = passed ++ c :: rest) (inside : c ≠ '\n') :
    (start.after passed).Points source c := by
  have oneLine : '\n' ∉ [c] := by simpa using inside.symm
  obtain ⟨spot, text, -, -, position⟩ := @Spot.exists_spot source _ [c] _ whole oneLine
  refine ⟨spot.line, ?_, ?_⟩
  · simp [← position, Spot.position, spot.lines, Spot.line]
  · simp [← position, Spot.position, Spot.line, text]

end Position

namespace Piece

theorem first_text_head (c : Char) (cs : List Char) : ∃ tail, (first c cs).text = c :: tail := by
  have front := first_text_append_drop c cs
  have some := first_text_length_pos c cs
  cases text : (first c cs).text with
  | nil =>
    rw [text] at some
    contradiction
  | cons d tail =>
    rw [text] at front
    exact ⟨tail, by rw [(List.cons.inj front).1]⟩

/-- Only a string lacks a quote, and only where the text ends. -/
theorem Fits.missingQuote {piece : Piece} {rest lexeme : List Char} {kind : TokenKind}
    (fits : piece.Fits rest) (token : piece.token? = some (kind, lexeme)) :
    piece.missingQuote = [] ∨ piece.missingQuote = ['"'] ∧ kind = .string ∧ rest = [] := by
  cases piece with
  | string body closed =>
    cases token
    cases closed with
    | true => exact .inl rfl
    | false => exact .inr ⟨rfl, rfl, fits.2 rfl⟩
  | _ => exact .inl rfl

end Piece

/-- The token reaches from the one offset up to the other and carries the position of the
first. The lexeme is what stands there, with the quote that an open string lacks. The final
token stands at the end of the source and is empty. -/
structure Token.Reaches (t : Token) (source : String) (first stop : Nat) : Prop where
  ordered : first ≤ stop
  position : t.position = .recount source.toList first
  final : t.kind = .eof ↔ first = source.length
  lexeme : ∃ quote, t.lexeme.toList = (source.toList.take stop).drop first ++ quote ∧
    (quote = [] ∨ quote = ['"'] ∧ t.kind = .string ∧ stop = source.length)
  points : t.kind ≠ .eof → t.kind ≠ .newline →
    ∃ c ∈ t.lexeme.toList.head?, t.position.Points source c

/-- The unknown character stands at the offset and carries its position. -/
structure UnknownCharacter.StandsAt (u : UnknownCharacter) (source : String) (offset : Nat) :
    Prop where
  char : source.toList[offset]? = some u.char
  position : u.position = .recount source.toList offset
  points : u.position.Points source u.char

namespace Scanner
variable {source : String} {s : Scanner} {passed : List Char}

/-- The unknown characters that were noted stand at offsets behind each other, all of which
were passed. -/
def Noted (source : String) (s : Scanner) : Prop :=
  ∃ offsets : List Nat, offsets.Pairwise (· < ·) ∧ (∀ offset ∈ offsets, offset < s.offset) ∧
    List.Forall₂ (·.StandsAt source ·) s.unknown offsets

/-- The scanner has passed a part of the source and counted along. -/
structure Within (source : String) (s : Scanner) (passed : List Char) : Prop where
  whole : source.toList = passed ++ s.rest
  offset : s.offset = passed.length
  position : s.position = Position.start.after passed
  noted : s.Noted source

theorem within_start (source : String) : Within source (start source) [] :=
  ⟨rfl, rfl, rfl, [], by simp [unknown, start]⟩

theorem Within.recount (within : Within source s passed) :
    s.position = .recount source.toList s.offset := by
  rw [within.position, within.offset, within.whole, Position.recount_append]

/-- Where the scanner stands, an unknown character may stand. -/
theorem Within.standsAt {c : Char} {cs : List Char} (within : Within source s passed)
    (front : s.rest = c :: cs) (outside : isOutside c) :
    UnknownCharacter.StandsAt ⟨c, s.position⟩ source s.offset := by
  have whole := within.whole
  rw [front] at whole
  have inside : c ≠ '\n' := by
    rintro rfl
    contradiction
  refine ⟨?_, within.recount, ?_⟩
  · simp [whole, within.offset]
  · rw [within.position]
    exact Position.points_after whole inside

theorem Within.noted_pass {c : Char} {cs : List Char} (within : Within source s passed)
    (front : s.rest = c :: cs) : (s.pass (Piece.first c cs)).Noted source := by
  obtain ⟨offsets, ordered, below, stand⟩ := within.noted
  have further : s.offset < (s.pass (Piece.first c cs)).offset :=
    Nat.lt_add_of_pos_right (Piece.first_text_length_pos c cs)
  have fits := Piece.first_fits c cs
  have noted := unknown_pass s (Piece.first c cs)
  cases piece : Piece.first c cs with
  | unknown d =>
    obtain rfl : d = c := by
      have front := Piece.first_text_append_drop c cs
      rw [piece] at front
      exact (List.cons.inj front).1
    rw [piece] at fits noted further
    refine ⟨offsets ++ [s.offset], ?_, ?_, ?_⟩
    · simpa [List.pairwise_append, ordered] using below
    · intro offset member
      rcases List.mem_append.mp member with earlier | here
      · exact Nat.lt_trans (below offset earlier) further
      · rwa [List.mem_singleton.mp here]
    · rw [noted]
      exact List.rel_append stand (.cons (within.standsAt front fits) .nil)
  | _ =>
    rw [piece] at noted further
    refine ⟨offsets, ordered, ?_, ?_⟩
    · intro offset member
      exact Nat.lt_trans (below offset member) further
    · rw [noted]
      simpa using stand

theorem Within.pass {c : Char} {cs : List Char} (within : Within source s passed)
    (front : s.rest = c :: cs) :
    Within source (s.pass (Piece.first c cs)) (passed ++ (Piece.first c cs).text) where
  whole := by
    have behind : (s.pass (Piece.first c cs)).rest =
        (c :: cs).drop (Piece.first c cs).text.length := congrArg (List.drop _) front
    rw [List.append_assoc, behind, Piece.first_text_append_drop, ← front]
    exact within.whole
  offset := by
    rw [List.length_append, ← within.offset]
    rfl
  position := by
    rw [Position.after_append, ← within.position]
    rfl
  noted := within.noted_pass front

/-- The final token stands where nothing is left. -/
theorem Within.reaches_final (within : Within source s passed) (front : s.rest = []) :
    (Token.final s.position).Reaches source s.offset s.offset where
  ordered := Nat.le_refl _
  position := within.recount
  final := by
    have whole := within.whole
    rw [front, List.append_nil] at whole
    simp [Token.final, within.offset, ← whole, String.length_toList]
  lexeme := ⟨[], by simp [Token.final], .inl rfl⟩
  points := fun more => absurd rfl more

/-- A token that is drawn reaches over its piece. -/
theorem Within.reaches_piece {c : Char} {cs lexeme : List Char} {kind : TokenKind}
    (within : Within source s passed) (front : s.rest = c :: cs)
    (token : (Piece.first c cs).token? = some (kind, lexeme)) :
    Token.Reaches ⟨kind, String.ofList lexeme, s.position⟩ source s.offset
      (s.pass (Piece.first c cs)).offset where
  ordered := Nat.le_add_right _ _
  position := within.recount
  final := by
    have size := congrArg List.length within.whole
    rw [front, List.length_append, String.length_toList, List.length_cons] at size
    have more : s.offset ≠ source.length := by
      rw [within.offset]
      omega
    simp [Piece.first_token?_ne_eof token, more]
  lexeme := by
    have whole := (within.pass front).whole
    have stop := (within.pass front).offset
    refine ⟨(Piece.first c cs).missingQuote, ?_, ?_⟩
    · rw [String.toList_ofList, Piece.lexeme_eq token, whole, stop, List.take_left, within.offset,
        List.drop_left]
    · rcases (Piece.first_fits c cs).missingQuote token with none | ⟨quote, string, reached⟩
      · exact .inl none
      · have behind : (s.pass (Piece.first c cs)).rest = [] := by
          rw [← reached, ← front]
          rfl
        rw [behind, List.append_nil] at whole
        exact .inr ⟨quote, string, by rw [stop, ← whole, String.length_toList]⟩
  points := by
    intro _ inside
    have notFeed : c ≠ '\n' := by
      rintro rfl
      cases token
      contradiction
    have whole := within.whole
    rw [front] at whole
    obtain ⟨tail, text⟩ := Piece.first_text_head c cs
    refine ⟨c, ?_, within.position ▸ Position.points_after whole notFeed⟩
    rw [String.toList_ofList, Piece.lexeme_eq token, text]
    rfl

/-- Drawing a token passes a part of the source, at the end of which the token stands. -/
theorem Within.next (within : Within source s passed) :
    (∃ further, Within source s.next.2 further) ∧
      ∃ first, s.offset ≤ first ∧ s.next.1.Reaches source first s.next.2.offset := by
  fun_induction Scanner.next s generalizing passed with
  | case1 s front =>
    exact ⟨⟨passed, within⟩, s.offset, Nat.le_refl _, within.reaches_final front⟩
  | case2 s c cs front less kind lexeme token =>
    exact ⟨⟨_, within.pass front⟩, s.offset, Nat.le_refl _, within.reaches_piece front token⟩
  | case3 s c cs front less gap ih =>
    obtain ⟨later, first, behind, reaches⟩ := ih (within.pass front)
    exact ⟨later, first, Nat.le_trans (Nat.le_add_right _ _) behind, reaches⟩

theorem within_after (source : String) (count : Nat) :
    ∃ passed, Within source (TokenFeed.after (start source) count) passed := by
  induction count with
  | zero => exact ⟨[], within_start source⟩
  | succ count ih =>
    obtain ⟨passed, within⟩ := ih
    exact within.next.1

/-- Line and column describe the offset: they are what counting the source again up to the
offset gives, for the scanner, for the unknown characters it noted, and for the token that it
draws next. -/
structure Describes (s : Scanner) (source : String) : Prop where
  offset_le : s.offset ≤ source.length
  rest : s.rest = source.toList.drop s.offset
  position : s.position = .recount source.toList s.offset
  noted : s.Noted source
  next : ∃ first, s.offset ≤ first ∧ s.next.1.Reaches source first s.next.2.offset

/-- However many tokens have been drawn from a source, the offset is one of the source, and line
and column describe it. Each token carries the position of its first character, each unknown
character its own, also behind strings over several lines, and there the lines of the source
have that character. -/
theorem positions_describe_offsets (source : String) (count : Nat) :
    (TokenFeed.after (start source) count).Describes source := by
  obtain ⟨passed, within⟩ := within_after source count
  have size := congrArg List.length within.whole
  refine ⟨?_, ?_, within.recount, within.noted, within.next.2⟩
  · rw [List.length_append, String.length_toList, ← within.offset] at size
    exact size ▸ Nat.le_add_right _ _
  · rw [within.offset, within.whole, List.drop_left]

end Scanner
end IntScript

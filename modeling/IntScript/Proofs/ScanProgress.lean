import IntScript.Proofs.Offsets

/-! Every draw makes progress. The search for a token passes blanks, comments and unknown
characters in turns, and each turn takes up some of the source. So the search ends, at a token or
at the end of the source, and at the end the scanner stays as it is. -/
namespace IntScript

/-- Nothing stands in the text but blanks, comments and unknown characters. A comment has to reach
the end of the text, because the line feed that ends any other one is a token. -/
def isTokenless : List Char → Bool
  | [] => true
  | c :: rest =>
    if c = '#' then !rest.contains '\n' else (c ∈ blanks || isOutside c) && isTokenless rest

/-- What is left behind a comment begins with a line feed, unless there is none. -/
theorem isTokenless_behind_comment (text : List Char) :
    isTokenless (text.drop (text.takeWhile (· ≠ '\n')).length) = !text.contains '\n' := by
  induction text with
  | nil => rfl
  | cons c text ih =>
    by_cases feed : c = '\n'
    · subst feed
      simp [isTokenless, blanks, isOutside]
    · simpa [feed, eq_comm] using ih

namespace Piece

/-- A text is free of tokens if its first piece is none and the rest is free of them. -/
theorem isTokenless_cons (c : Char) (cs : List Char) :
    isTokenless (c :: cs) = ((first c cs).token?.isNone &&
      isTokenless ((c :: cs).drop (first c cs).text.length)) := by
  unfold first
  repeat' split
  · next blank =>
    have other : c ≠ '#' := by
      rintro rfl
      contradiction
    simp [isTokenless, token?, text, isSpacing_iff.mp blank, other]
  · next hash => simpa [isTokenless, token?, text, hash] using (isTokenless_behind_comment cs).symm
  all_goals
    rw [Bool.eq_iff_iff]
    simp_all [isTokenless, token?, text, ← isSpacing_iff, isOutside_iff]

end Piece

namespace Scanner
variable {source : String} {s t : Scanner} {passed : List Char} {turns : Nat}

/-- One turn of the search for a token: a piece that is none is passed. -/
inductive Skips : Scanner → Scanner → Prop where
  | piece {s : Scanner} {c : Char} {cs : List Char} (front : s.rest = c :: cs)
      (gap : (Piece.first c cs).token? = none) : Skips s (s.pass (Piece.first c cs))

/-- A number of turns, one after the other. -/
inductive SkipsOn : Nat → Scanner → Scanner → Prop where
  | none {s : Scanner} : SkipsOn 0 s s
  | more {s t u : Scanner} {turns : Nat} (turn : s.Skips t) (others : SkipsOn turns t u) :
      SkipsOn (turns + 1) s u

/-- The search is over and something is drawn: the token that stands here, or the final one if
nothing is left. -/
inductive Settles (s : Scanner) : Token × Scanner → Prop where
  | final (empty : s.rest = []) : Settles s (.final s.position, s)
  | token {c : Char} {cs lexeme : List Char} {kind : TokenKind} (front : s.rest = c :: cs)
      (found : (Piece.first c cs).token? = some (kind, lexeme)) :
      Settles s (⟨kind, String.ofList lexeme, s.position⟩, s.pass (Piece.first c cs))

theorem Skips.offset_lt (turn : s.Skips t) : s.offset < t.offset := by
  cases turn with
  | piece front gap => exact Nat.lt_add_of_pos_right (Piece.first_text_length_pos _ _)

theorem Skips.within (turn : s.Skips t) (within : Within source s passed) :
    ∃ further, Within source t further := by
  cases turn with
  | piece front gap => exact ⟨_, within.pass front⟩

theorem SkipsOn.offset_le (run : SkipsOn turns s t) : s.offset + turns ≤ t.offset := by
  induction run with
  | none => exact Nat.le_refl _
  | more turn others ih =>
    have further := turn.offset_lt
    omega

theorem SkipsOn.within (run : SkipsOn turns s t) (within : Within source s passed) :
    ∃ further, Within source t further := by
  induction run generalizing passed with
  | none => exact ⟨passed, within⟩
  | more turn others ih =>
    obtain ⟨_, behind⟩ := turn.within within
    exact ih behind

/-- Each turn of a search leads to the same draw. -/
theorem SkipsOn.next_eq (run : SkipsOn turns s t) : s.next = t.next := by
  induction run with
  | none => rfl
  | more turn others ih =>
    cases turn with
    | piece front gap => rw [next_of_gap front gap, ih]

theorem Settles.eq_next {drawn : Token × Scanner} (settles : s.Settles drawn) : drawn = s.next := by
  cases settles with
  | final empty => exact (next_of_nil empty).symm
  | token front found => exact (next_of_token front found).symm

theorem search_ends (s : Scanner) : ∃ turns t, SkipsOn turns s t ∧ t.Settles s.next := by
  fun_induction next s with
  | case1 s front => exact ⟨0, s, .none, .final front⟩
  | case2 s c cs front less kind lexeme token => exact ⟨0, s, .none, .token front token⟩
  | case3 s c cs front less gap ih =>
    obtain ⟨turns, t, run, settles⟩ := ih
    exact ⟨turns + 1, t, .more (.piece front gap) run, settles⟩

/-- A search ends in one way, and what it draws is the next token. -/
theorem search_iff (s : Scanner) (drawn : Token × Scanner) :
    (∃ turns t, SkipsOn turns s t ∧ t.Settles drawn) ↔ drawn = s.next := by
  constructor
  · rintro ⟨turns, t, run, settles⟩
    exact settles.eq_next.trans run.next_eq.symm
  · rintro rfl
    exact search_ends s

theorem next_final_iff (s : Scanner) : s.next.1.kind = .eof ↔ isTokenless s.rest := by
  fun_induction next s with
  | case1 s front => simp [Token.final, front, isTokenless]
  | case2 s c cs front less kind lexeme token =>
    rw [front, Piece.isTokenless_cons, token]
    simpa using Piece.first_token?_ne_eof token
  | case3 s c cs front less gap ih =>
    have behind : (s.pass (Piece.first c cs)).rest =
        (c :: cs).drop (Piece.first c cs).text.length := congrArg (List.drop _) front
    rw [ih, front, Piece.isTokenless_cons, gap, behind]
    simp

/-- At the end of the source a draw leaves the scanner as it is. -/
theorem after_of_empty (empty : s.rest = []) (count : Nat) : TokenFeed.after s count = s := by
  induction count with
  | zero => rfl
  | succ count ih =>
    have drawn : TokenFeed.after s (count + 1) = (TokenFeed.after s count).next.2 := rfl
    rw [drawn, ih, next_of_nil empty]

theorem rest_of_final (final : s.next.1.kind = .eof) : s.next.2.rest = [] := by
  rcases next_progress s with ⟨-, empty⟩ | ⟨more, -⟩
  · exact empty
  · exact absurd final more

/-- Once the final token has been drawn, it is drawn again. -/
theorem next_next_of_final (final : s.next.1.kind = .eof) : s.next.2.next = s.next := by
  have empty := rest_of_final final
  rcases next_upcoming s with ⟨-, last, -⟩ | ⟨more, -⟩
  · have here : s.next.2.position = s.finish := by
      rw [← finish_next, finish, empty, Position.after_nil]
    rw [next_of_nil empty, here, ← last]
  · exact absurd final more

theorem Within.length (within : Within source s passed) :
    s.offset + s.rest.length = source.length := by
  rw [within.offset, ← List.length_append, ← within.whole, String.length_toList]

/-- What a draw does from a point of the source. -/
structure Progresses (s : Scanner) (source : String) : Prop where
  /-- The search for a token ends, and with the next token only. -/
  search : ∀ drawn, (∃ turns t, SkipsOn turns s t ∧ t.Settles drawn) ↔ drawn = s.next
  /-- Each turn of the search takes up some of the source. -/
  bounded : ∀ turns t, SkipsOn turns s t → s.offset + turns ≤ t.offset ∧ t.offset ≤ source.length
  final_iff : s.next.1.kind = .eof ↔ isTokenless s.rest
  /-- With the final token the source is used up, and from then on nothing changes. -/
  rests : s.next.1.kind = .eof → s.next.2.offset = source.length ∧
    ∀ count, TokenFeed.after s.next.2 count = s.next.2 ∧
      (TokenFeed.after s.next.2 count).next = s.next
  moves : s.next.1.kind ≠ .eof → s.offset < s.next.2.offset

theorem Within.progresses (within : Within source s passed) : s.Progresses source where
  search := search_iff s
  bounded turns t run := by
    obtain ⟨further, behind⟩ := run.within within
    exact ⟨run.offset_le, behind.length ▸ Nat.le_add_right _ _⟩
  final_iff := next_final_iff s
  rests final := by
    have empty := rest_of_final final
    obtain ⟨⟨further, behind⟩, -⟩ := within.next
    constructor
    · simpa [empty] using behind.length
    · intro count
      rw [after_of_empty empty]
      exact ⟨rfl, next_next_of_final final⟩
  moves more := by
    obtain ⟨⟨further, behind⟩, -⟩ := within.next
    have shorter := (next_progress s).resolve_left fun final => more final.1
    have here := within.length
    have there := behind.length
    omega

end Scanner
end IntScript

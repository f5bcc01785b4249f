import IntScript.Proofs.Cutting
import IntScript.Token.Window

/-! Drawing tokens goes through the cut of a source piece by piece. The tokens
still to come and the unknown characters still to be noted are read off the cut
of what is left, and every draw moves on by one token. -/
namespace IntScript

/-- The position of an offset, counted again from the front of the text: line feeds in front
of the offset, and characters behind the last of them. -/
def Position.recount (text : List Char) (offset : Nat) : Position where
  line := 1 + (text.take offset).count '\n'
  col := 1 + ((text.take offset).reverse.takeWhile (· ≠ '\n')).length

namespace Position

theorem after_reverse (text : List Char) :
    start.after text.reverse =
      ⟨1 + text.count '\n', 1 + (text.takeWhile (· ≠ '\n')).length⟩ := by
  induction text with
  | nil => rfl
  | cons c text ih =>
    rw [List.reverse_cons, after_append, ih]
    by_cases feed : c = '\n'
    · simp [step, feed, Nat.add_assoc]
    · simp [step, feed, Nat.add_assoc]

theorem recount_eq (text : List Char) (offset : Nat) :
    recount text offset = start.after (text.take offset) := by
  have counted := after_reverse (text.take offset).reverse
  rw [List.reverse_reverse, List.count_reverse] at counted
  exact counted.symm

theorem recount_append (passed rest : List Char) :
    recount (passed ++ rest) passed.length = start.after passed := by
  rw [recount_eq, List.take_left]

end Position

namespace Piece

/-- The tokens among pieces, of which the first stands at `position`. -/
def tokensFrom (position : Position) : List Piece → List Token
  | [] => []
  | piece :: pieces =>
    match piece.token? with
    | some (kind, lexeme) =>
      ⟨kind, String.ofList lexeme, position⟩ :: tokensFrom (position.after piece.text) pieces
    | none => tokensFrom (position.after piece.text) pieces

/-- The unknown characters among pieces, of which the first stands at `position`. -/
def unknownFrom (position : Position) : List Piece → List UnknownCharacter
  | [] => []
  | .unknown c :: pieces => ⟨c, position⟩ :: unknownFrom (position.step c) pieces
  | piece :: pieces => unknownFrom (position.after piece.text) pieces

theorem tokensFrom_append (first second : List Piece) (position : Position) :
    tokensFrom position (first ++ second) =
      tokensFrom position first ++ tokensFrom (position.after (textOf first)) second := by
  induction first generalizing position with
  | nil => rfl
  | cons piece first ih =>
    rw [List.cons_append, tokensFrom, tokensFrom, ih, textOf_cons, Position.after_append]
    cases piece.token? with
    | none => rfl
    | some token => rfl

theorem tokensFrom_of_silent {gap : List Piece} (silent : ∀ piece ∈ gap, piece.token? = none)
    (position : Position) : tokensFrom position gap = [] := by
  induction gap generalizing position with
  | nil => rfl
  | cons piece gap ih =>
    obtain ⟨none, silent⟩ := List.forall_mem_cons.mp silent
    rw [tokensFrom, none]
    exact ih silent _

theorem unknownFrom_cons (piece : Piece) (pieces : List Piece) (position : Position) :
    unknownFrom position (piece :: pieces) =
      unknownFrom position [piece] ++ unknownFrom (position.after piece.text) pieces := by
  cases piece <;> rfl

theorem unknownFrom_append (first second : List Piece) (position : Position) :
    unknownFrom position (first ++ second) =
      unknownFrom position first ++ unknownFrom (position.after (textOf first)) second := by
  induction first generalizing position with
  | nil => rfl
  | cons piece first ih =>
    rw [List.cons_append, unknownFrom_cons, ih, unknownFrom_cons piece first, textOf_cons,
      Position.after_append, List.append_assoc]

/-- Where the piece of a token stands. -/
theorem tokensFrom_split {t : Token} {position : Position} {pieces : List Piece}
    (member : t ∈ tokensFrom position pieces) :
    ∃ before piece behind, pieces = before ++ piece :: behind ∧
      piece.token? = some (t.kind, t.lexeme.toList) ∧
      t.position = position.after (textOf before) := by
  fun_induction tokensFrom position pieces with
  | case1 => contradiction
  | case2 position piece pieces kind lexeme found ih =>
    rcases List.mem_cons.mp member with rfl | member
    · exact ⟨[], piece, pieces, rfl, by rw [found, String.toList_ofList], rfl⟩
    · obtain ⟨before, other, behind, rfl, same, place⟩ := ih member
      refine ⟨piece :: before, other, behind, rfl, same, ?_⟩
      rw [place, textOf_cons, Position.after_append]
  | case3 position piece pieces none ih =>
    obtain ⟨before, other, behind, rfl, same, place⟩ := ih member
    refine ⟨piece :: before, other, behind, rfl, same, ?_⟩
    rw [place, textOf_cons, Position.after_append]

/-- Where an unknown character stands. -/
theorem unknownFrom_split {u : UnknownCharacter} {position : Position} {pieces : List Piece}
    (member : u ∈ unknownFrom position pieces) :
    ∃ before behind, pieces = before ++ .unknown u.char :: behind ∧
      u.position = position.after (textOf before) := by
  induction pieces generalizing position with
  | nil => contradiction
  | cons piece pieces ih =>
    have further (member : u ∈ unknownFrom (position.after piece.text) pieces) :
        ∃ before behind, piece :: pieces = before ++ .unknown u.char :: behind ∧
          u.position = position.after (textOf before) := by
      obtain ⟨before, behind, rfl, place⟩ := ih member
      refine ⟨piece :: before, behind, rfl, ?_⟩
      rw [place, textOf_cons, Position.after_append]
    cases piece with
    | unknown c =>
      rcases List.mem_cons.mp member with rfl | member
      · exact ⟨[], pieces, rfl, rfl⟩
      · exact further member
    | _ => exact further member

theorem mem_tokensFrom {token : Token} {position : Position} {pieces : List Piece}
    (member : token ∈ tokensFrom position pieces) :
    ∃ piece ∈ pieces, piece.token? = some (token.kind, token.lexeme.toList) := by
  obtain ⟨before, piece, behind, rfl, found, -⟩ := tokensFrom_split member
  exact ⟨piece, List.mem_append_right before List.mem_cons_self, found⟩

end Piece

namespace Scanner

/-- The tokens still to be drawn, without the final one. -/
def upcoming (s : Scanner) : List Token := Piece.tokensFrom s.position (Piece.cut s.rest)

def pending (s : Scanner) : List UnknownCharacter :=
  Piece.unknownFrom s.position (Piece.cut s.rest)

def finish (s : Scanner) : Position := s.position.after s.rest

theorem cut_rest {s : Scanner} {c : Char} {cs : List Char} (front : s.rest = c :: cs) :
    Piece.cut s.rest = Piece.first c cs :: Piece.cut (s.pass (Piece.first c cs)).rest := by
  have behind : (s.pass (Piece.first c cs)).rest =
      (c :: cs).drop (Piece.first c cs).text.length := congrArg (List.drop _) front
  rw [front, Piece.cut, behind]

theorem finish_pass {s : Scanner} {c : Char} {cs : List Char} (front : s.rest = c :: cs) :
    (s.pass (Piece.first c cs)).finish = s.finish := by
  simp only [finish, pass, front]
  rw [← Position.after_append, Piece.first_text_append_drop]

/-- What is noted when a piece is passed was pending before. -/
theorem noted_pass {s : Scanner} {c : Char} {cs : List Char} (front : s.rest = c :: cs) :
    (s.pass (Piece.first c cs)).unknown ++ (s.pass (Piece.first c cs)).pending =
      s.unknown ++ s.pending := by
  rw [unknown_pass, List.append_assoc]
  congr 1
  rw [pending, pending, cut_rest front]
  cases Piece.first c cs <;> rfl

/-- The next token is the first of those to come, or the final one if none is. -/
theorem next_upcoming (s : Scanner) :
    (s.upcoming = [] ∧ s.next.1 = .final s.finish ∧ s.next.2.rest = []) ∨
      (s.next.1.kind ≠ .eof ∧ s.upcoming = s.next.1 :: s.next.2.upcoming) := by
  fun_induction next s with
  | case1 s front => exact .inl ⟨by simp [upcoming, front, Piece.cut, Piece.tokensFrom],
      by simp [finish, front], front⟩
  | case2 s c cs front less kind lexeme token =>
    refine .inr ⟨Piece.first_token?_ne_eof token, ?_⟩
    rw [upcoming, cut_rest front, Piece.tokensFrom, token]
    rfl
  | case3 s c cs front less gap ih =>
    have skipped : s.upcoming = (s.pass (Piece.first c cs)).upcoming := by
      rw [upcoming, cut_rest front, Piece.tokensFrom, gap]
      rfl
    rw [skipped, ← finish_pass front]
    exact ih

theorem finish_next (s : Scanner) : s.next.2.finish = s.finish := by
  fun_induction next s with
  | case1 s front => rfl
  | case2 s c cs front less kind lexeme token => exact finish_pass front
  | case3 s c cs front less gap ih => rw [ih, finish_pass front]

theorem noted_next (s : Scanner) :
    s.next.2.unknown ++ s.next.2.pending = s.unknown ++ s.pending := by
  fun_induction next s with
  | case1 s front => rfl
  | case2 s c cs front less kind lexeme token => exact noted_pass front
  | case3 s c cs front less gap ih => rw [ih, noted_pass front]

theorem tokens_eq (s : Scanner) : s.tokens = s.upcoming ++ [.final s.finish] := by
  fun_induction tokens s with
  | case1 s final =>
    rcases next_upcoming s with ⟨none, last, -⟩ | ⟨kind, -⟩
    · rw [none, last, List.nil_append]
    · contradiction
  | case2 s more less ih =>
    rcases next_upcoming s with ⟨-, last, -⟩ | ⟨-, some⟩
    · exact absurd (congrArg Token.kind last) more
    · rw [ih, some, finish_next, List.cons_append]

end Scanner

namespace TokenFeed
variable {σ : Type} [TokenFeed σ]

/-- The feed after a number of draws. -/
def after (s : σ) : Nat → σ
  | 0 => s
  | count + 1 => (next (after s count)).2

end TokenFeed

namespace Scanner

theorem upcoming_of_rest {s : Scanner} (empty : s.rest = []) : s.upcoming = [] := by
  simp [upcoming, empty, Piece.cut, Piece.tokensFrom]

theorem pending_of_rest {s : Scanner} (empty : s.rest = []) : s.pending = [] := by
  simp [pending, empty, Piece.cut, Piece.unknownFrom]

theorem upcoming_after (s : Scanner) (count : Nat) :
    (TokenFeed.after s count).upcoming = s.upcoming.drop count := by
  induction count with
  | zero => rfl
  | succ count ih =>
    rcases next_upcoming (TokenFeed.after s count) with ⟨none, -, empty⟩ | ⟨-, some⟩
    · rw [TokenFeed.after, List.drop_add_one_eq_tail_drop, ← ih, none]
      exact upcoming_of_rest empty
    · rw [List.drop_add_one_eq_tail_drop, ← ih, some]
      rfl

theorem rest_after (s : Scanner) {count : Nat} (drawn : s.upcoming.length < count) :
    (TokenFeed.after s count).rest = [] := by
  obtain ⟨count, rfl⟩ : ∃ before, count = before + 1 := ⟨count - 1, by omega⟩
  rcases next_upcoming (TokenFeed.after s count) with ⟨-, -, empty⟩ | ⟨-, some⟩
  · exact empty
  · rw [upcoming_after, List.drop_eq_nil_of_le (by omega)] at some
    contradiction

theorem noted_after (s : Scanner) (count : Nat) :
    (TokenFeed.after s count).unknown ++ (TokenFeed.after s count).pending =
      s.unknown ++ s.pending := by
  induction count with
  | zero => rfl
  | succ count ih => exact (noted_next _).trans ih

/-- Once the final token is drawn, all unknown characters have been noted. -/
theorem unknown_after (s : Scanner) {count : Nat} (drawn : s.upcoming.length < count) :
    (TokenFeed.after s count).unknown = s.unknown ++ s.pending := by
  have empty : (TokenFeed.after s count).rest = [] := rest_after s drawn
  rw [← noted_after s count, pending_of_rest empty, List.append_nil]

/-- The unknown characters noted by the time that all tokens have been drawn. -/
def allUnknown (s : Scanner) : List UnknownCharacter := (TokenFeed.after s s.tokens.length).unknown

theorem allUnknown_start (source : String) :
    (start source).allUnknown = (start source).pending := by
  rw [allUnknown, unknown_after _ (by simp [tokens_eq])]
  rfl

end Scanner
end IntScript

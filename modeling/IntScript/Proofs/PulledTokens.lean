import IntScript.Proofs.Factorisation
import IntScript.Proofs.Halting
import IntScript.Proofs.SameTokens
import IntScript.Proofs.SessionSteps

/-! Reading a source while its tokens are drawn, against reading the list of all its tokens. The
two give the same, because at each point the window shows the same two tokens. Only the unknown
characters tell how far the scanner has got: to the token behind the one in view. -/
namespace IntScript

namespace Scanner

theorem unknown_pass_eq (s : Scanner) (piece : Piece) :
    (s.pass piece).unknown = s.unknown ++ Piece.unknownFrom s.position [piece] := by
  rw [unknown_pass]
  cases piece <;> rfl

/-- A token is drawn by passing the gap in front of it and its own piece. -/
theorem next_segment {s : Scanner} {gap behind : List Piece} {token : Piece}
    (silent : ∀ piece ∈ gap, piece.token? = none) (reads : token.token? ≠ none)
    (cut : Piece.cut s.rest = gap ++ token :: behind) :
    Piece.cut s.next.2.rest = behind ∧
      s.next.2.position = s.position.after (Piece.textOf (gap ++ [token])) ∧
      s.next.2.unknown = s.unknown ++ Piece.unknownFrom s.position (gap ++ [token]) := by
  fun_induction next s generalizing gap with
  | case1 s front =>
    rw [front] at cut
    simp [Piece.cut] at cut
  | case2 s c cs front less kind lexeme found =>
    rw [cut_rest front] at cut
    cases gap with
    | nil =>
      obtain ⟨rfl, rfl⟩ := List.cons.inj cut
      refine ⟨rfl, ?_, unknown_pass_eq s _⟩
      simp [pass]
    | cons piece gap =>
      obtain ⟨rfl, -⟩ := List.cons.inj cut
      rw [silent _ List.mem_cons_self] at found
      contradiction
  | case3 s c cs front less skipped ih =>
    rw [cut_rest front] at cut
    cases gap with
    | nil =>
      obtain ⟨rfl, -⟩ := List.cons.inj cut
      exact absurd skipped reads
    | cons piece gap =>
      obtain ⟨rfl, rest⟩ := List.cons.inj cut
      obtain ⟨left, position, noted⟩ :=
        ih (fun other member => silent other (List.mem_cons_of_mem _ member)) rest
      refine ⟨left, ?_, ?_⟩
      · rw [position, List.cons_append, Piece.textOf_cons, Position.after_append]
        rfl
      · rw [noted, unknown_pass_eq, List.append_assoc, List.cons_append,
          Piece.unknownFrom_cons _ (gap ++ [token])]
        rfl

/-- The `k`-th token, which is the final one for all that stand behind it. -/
def tokenAt (s : Scanner) (k : Nat) : Token := s.tokens[k]?.getD (.final s.finish)

theorem finish_after (s : Scanner) (count : Nat) :
    (TokenFeed.after s count).finish = s.finish := by
  induction count with
  | zero => rfl
  | succ count ih => exact (finish_next _).trans ih

theorem next_after (s : Scanner) (count : Nat) :
    (TokenFeed.next (TokenFeed.after s count)).1 = s.tokenAt count := by
  have left := upcoming_after s count
  rw [tokenAt, tokens_eq]
  rcases next_upcoming (TokenFeed.after s count) with ⟨none, last, -⟩ | ⟨-, some⟩
  · have drawn : s.upcoming.length ≤ count := by
      rw [none] at left
      exact List.drop_eq_nil_iff.mp left.symm
    rw [List.getElem?_append_right drawn]
    refine last.trans ?_
    rw [finish_after]
    cases count - s.upcoming.length <;> rfl
  · have here : s.upcoming[count]? = (TokenFeed.after s count).next.1 := by
      rw [← List.head?_drop, ← left, some]
      rfl
    rw [List.getElem?_append_left (List.getElem?_eq_some_iff.mp here).1, here]
    rfl

end Scanner

namespace Recorded

theorem next_eq (r : Recorded) :
    next r = (r.tokens.head?.getD (.final r.last), ⟨r.tokens.tail, r.last⟩) := by
  rcases r with ⟨_ | ⟨t, tokens⟩, last⟩ <;> rfl

theorem after_eq (r : Recorded) (count : Nat) :
    TokenFeed.after r count = ⟨r.tokens.drop count, r.last⟩ := by
  induction count with
  | zero => rfl
  | succ count ih =>
    have drawn : TokenFeed.after r (count + 1) = (next (TokenFeed.after r count)).2 := rfl
    rw [drawn, ih, next_eq, List.tail_drop]

theorem next_after (r : Recorded) (count : Nat) :
    (TokenFeed.next (TokenFeed.after r count)).1 = r.tokens[count]?.getD (.final r.last) := by
  have drawn : (TokenFeed.next (TokenFeed.after r count)).1 =
    (next (TokenFeed.after r count)).1 := rfl
  rw [drawn, after_eq, next_eq, List.head?_drop]

end Recorded

/-- Moving a window on is drawing tokens. -/
theorem Window.onward_view {σ : Type} [TokenFeed σ] (feed : σ) (count : Nat) :
    (Window.view feed).onward count = Window.view (TokenFeed.after feed count) := by
  induction count with
  | zero => rfl
  | succ count ih => exact congrArg Window.advance ih

namespace Scanner

theorem current_onward (s : Scanner) (count : Nat) :
    ((Window.view s).onward count).current = s.tokenAt count := by
  rw [Window.onward_view, ← next_after]
  rfl

theorem tokens_eq_tokenAt {s : Scanner} {k : Nat} (inside : k < s.tokens.length) :
    s.tokens[k]? = some (s.tokenAt k) := by
  rw [tokenAt, List.getElem?_eq_getElem inside, Option.getD_some]

theorem length_of_passes {s : Scanner} {front : List Token} {v : Window Scanner}
    (passed : (Window.view s).Passes front v) : front.length < s.tokens.length := by
  obtain ⟨target, whole, final, -⟩ := s.view_passes
  obtain ⟨rest, split, -⟩ := passed.split whole final
  rw [tokens_eq, split]
  simp

end Scanner

namespace Grammar
variable {σ : Type} [TokenFeed σ]

/-- The window at which a routine ends, by returning or by giving up. -/
def leaves {α : Type} (window : α → Window σ) : Except (Halt σ) α → Window σ
  | .ok a => window a
  | .error halt => halt.window

theorem reader_sound (limit : Nat) (phrase : Phrase) :
    Sound phrase (reader (σ := σ) limit phrase) := by
  rcases phrase with _ | _ | _
  · exact factor_sound limit
  · exact expression_sound limit
  · exact chain_sound (factor_sound limit)

theorem reader_movesOn (limit : Nat) (phrase : Phrase) :
    MovesOn (reader (σ := σ) limit phrase) := by
  rcases phrase with _ | _ | _
  · exact factor_movesOn limit
  · exact expression_movesOn limit
  · exact chain_movesOn (factor_sound limit) (factor_movesOn limit)

end Grammar

theorem Segment.length_tokensFrom (position : Position) (segments : List Segment) :
    (tokensFrom position segments).length = segments.length := by
  induction segments generalizing position with
  | nil => rfl
  | cons segment segments ih => exact congrArg Nat.succ (ih _)

namespace Factorisation
variable {source : String}

/-- The unknown characters in front of the first `count` tokens. Behind all others the final token
stands, and in front of it the last gap. -/
def unknownThrough (f : Factorisation source.toList) (count : Nat) : List UnknownCharacter :=
  Piece.unknownFrom .start ((f.segments.take count).flatMap Segment.pieces ++
    if count ≤ f.segments.length then [] else f.last)

/-- What the scanner has passed and what is left, when it has drawn a number of tokens. -/
theorem after_segments (f : Factorisation source.toList) {count : Nat}
    (few : count ≤ f.segments.length) :
    let passed := (f.segments.take count).flatMap Segment.pieces
    let s := TokenFeed.after (Scanner.start source) count
    Piece.cut s.rest = (f.segments.drop count).flatMap Segment.pieces ++ f.last ∧
      s.position = Position.start.after (Piece.textOf passed) ∧
      s.unknown = Piece.unknownFrom .start passed := by
  induction count with
  | zero => exact ⟨f.cut_eq, rfl, rfl⟩
  | succ count ih =>
    obtain ⟨cut, position, noted⟩ := ih (by omega)
    have more : count < f.segments.length := few
    rw [List.drop_eq_getElem_cons more, List.flatMap_cons, Segment.pieces, List.append_assoc,
      List.append_assoc, List.singleton_append] at cut
    obtain ⟨left, further, notedNext⟩ := Scanner.next_segment (f.segments[count].silent)
      f.segments[count].token_ne_none cut
    have taken : (f.segments.take (count + 1)).flatMap Segment.pieces =
        (f.segments.take count).flatMap Segment.pieces ++ f.segments[count].pieces := by
      rw [← List.take_append_getElem more, List.flatMap_append, List.flatMap_singleton]
    refine ⟨left, ?_, ?_⟩
    · rw [taken, Piece.textOf_append, Position.after_append, ← position]
      exact further
    · rw [taken, Piece.unknownFrom_append, ← noted, ← position]
      exact notedNext

theorem upcoming_eq (f : Factorisation source.toList) :
    (Scanner.start source).upcoming = f.tokens := by
  rw [Scanner.upcoming, Scanner.start, f.cut_eq]
  exact Segment.tokensFrom_pieces f.segments f.silent .start

theorem pending_eq (f : Factorisation source.toList) :
    (Scanner.start source).pending = f.unknown := by
  rw [Scanner.pending, Scanner.start, f.cut_eq]
  rfl

theorem unknown_after (f : Factorisation source.toList) (count : Nat) :
    (TokenFeed.after (Scanner.start source) count).unknown = f.unknownThrough count := by
  by_cases few : count ≤ f.segments.length
  · rw [unknownThrough, if_pos few, List.append_nil]
    exact (f.after_segments few).2.2
  · have drawn : (Scanner.start source).upcoming.length < count := by
      rw [f.upcoming_eq, tokens, Segment.length_tokensFrom]
      omega
    rw [Scanner.unknown_after _ drawn, f.pending_eq, unknownThrough, if_neg few,
      List.take_of_length_le (by omega)]
    rfl

end Factorisation

open Grammar (Reading chainFrom expect leaves program reader skipNewlines statement)

end IntScript

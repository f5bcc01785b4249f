import IntScript.Proofs.PulledTokens
import IntScript.Proofs.ScanProgress

/-! How many tokens are drawn. Readers are written for any feed, so they also read from one that
counts the draws. A reader that returns has moved on past a token, and none moves past the final
one, hence reading a source takes at most one draw more than it has tokens. -/
namespace IntScript

/-- A feed with a count of the draws from it. -/
structure Counted (σ : Type) where
  feed : σ
  draws : Nat

namespace Counted
variable {σ : Type} [TokenFeed σ]

def next (s : Counted σ) : Token × Counted σ :=
  let drawn := TokenFeed.next s.feed
  (drawn.1, ⟨drawn.2, s.draws + 1⟩)

instance : TokenFeed (Counted σ) where
  next := next
  size s := TokenFeed.size s.feed
  size_next_le s := TokenFeed.size_next_le s.feed
  size_next_lt s := TokenFeed.size_next_lt s.feed

def start (feed : σ) : Counted σ := ⟨feed, 0⟩

theorem after_eq (s : Counted σ) (count : Nat) :
    TokenFeed.after s count = ⟨TokenFeed.after s.feed count, s.draws + count⟩ := by
  induction count with
  | zero => rfl
  | succ count ih =>
    have drawn : TokenFeed.after s (count + 1) = (next (TokenFeed.after s count)).2 := rfl
    rw [drawn, ih]
    rfl

/-- A window draws two tokens, and one more for each that it moves on. -/
theorem feed_onward (feed : σ) (count : Nat) :
    ((Window.view (start feed)).onward count).feed =
      ⟨((Window.view feed).onward count).feed, count + 2⟩ := by
  have drawn : (Window.view (TokenFeed.after (start feed) count)).feed =
    TokenFeed.after (start feed) (count + 2) := rfl
  rw [Window.onward_view, Window.onward_view, drawn, after_eq, start, Nat.zero_add]
  rfl

theorem alike_start (feed : σ) : (Window.view feed).Alike (Window.view (start feed)) := by
  intro count
  have first (s : Counted σ) : (Window.view s).current = (Window.view s.feed).current := rfl
  rw [Window.onward_view, Window.onward_view, first, after_eq, start]

end Counted

namespace Window
variable {σ τ : Type} [TokenFeed σ] [TokenFeed τ] {w v target : Window σ} {w' v' : Window τ}
  {tokens tokens' rest : List Token}

theorem Passes.current_ne_eof (passed : w.Passes tokens v) {k : Nat} (inside : k < tokens.length) :
    (w.onward k).current.kind ≠ .eof := by
  induction tokens generalizing w k with
  | nil => contradiction
  | cons t tokens ih =>
    obtain ⟨rfl, more, passed⟩ := passed
    cases k with
    | zero => exact more
    | succ k =>
      rw [← onward_advance]
      exact ih passed (Nat.lt_of_succ_lt_succ inside)

theorem Passes.of_alike (passed : w.Passes tokens v) (alike : w.Alike w') :
    w'.Passes tokens (w'.onward tokens.length) := by
  induction tokens generalizing w w' with
  | nil => rfl
  | cons t tokens ih =>
    obtain ⟨rfl, more, passed⟩ := passed
    refine ⟨alike.current, more, ?_⟩
    rw [List.length_cons, ← onward_advance]
    exact ih passed alike.advance

/-- Windows that show the same tokens, before and behind those that were passed, have passed the
same ones. -/
theorem Passes.eq_of_alike (passed : w.Passes tokens v) (passed' : w'.Passes tokens' v')
    (before : w.Alike w') (behind : v.Alike v') (whole : v.Passes rest target)
    (final : target.current.kind = .eof) : tokens' = tokens := by
  -- up to the final token both windows show what was passed and then the same rest
  have through : w.Passes (tokens ++ rest) target := passed.trans whole
  have through' := passed'.trans (whole.of_alike behind)
  have final' : (v'.onward rest.length).current.kind = .eof := by
    rw [behind, ← whole.eq_onward, final]
  have shown : (w'.onward (tokens ++ rest).length).current.kind = .eof := by
    rw [before, ← through.eq_onward, final]
  obtain ⟨same, -⟩ := through'.unique final' (through.of_alike before) shown
  exact List.append_cancel_right same

end Window

namespace Grammar
variable {σ : Type} [TokenFeed σ]

/-- However the reader ends, it has moved on past tokens of which none is the final one, and past
at least one if it returns. -/
def Consumes (reader : Reader σ) : Prop :=
  ∀ w : Window σ, ∃ count, leaves Reading.window (reader w) = w.onward count ∧
    (∀ k < count, (w.onward k).current.kind ≠ .eof) ∧ ∀ r, reader w = .ok r → 0 < count

theorem consumes_of_passes {reader : Reader σ}
    (returns : ∀ {w : Window σ} {r : Reading w}, reader w = .ok r →
      ∃ tokens, w.Passes tokens r.window)
    (moves : MovesOn reader) : Consumes reader := by
  intro w
  cases outcome : reader w with
  | error halt =>
    obtain ⟨tokens, passed⟩ := moves outcome
    refine ⟨tokens.length, passed.eq_onward, fun k => passed.current_ne_eof, ?_⟩
    intro r read
    contradiction
  | ok r =>
    obtain ⟨tokens, passed⟩ := returns outcome
    refine ⟨tokens.length, passed.eq_onward, fun k => passed.current_ne_eof, ?_⟩
    intro _ _
    -- a window that passed nothing would not be shorter
    cases tokens with
    | nil =>
      have stayed : r.window = w := passed
      exact absurd (stayed ▸ r.shorter) (Nat.lt_irrefl _)
    | cons t tokens => exact Nat.succ_pos _

theorem reader_consumes (limit : Nat) (phrase : Phrase) :
    Consumes (reader (σ := σ) limit phrase) := by
  apply consumes_of_passes ?_ (reader_movesOn limit phrase)
  intro w r read
  obtain ⟨tokens, passed, -⟩ := reader_sound limit phrase read
  exact ⟨tokens, passed⟩

theorem statement_consumes (limit : Nat) : Consumes (statement (σ := σ) limit) := by
  apply consumes_of_passes ?_ (statement_movesOn limit)
  intro w r read
  obtain ⟨tokens, passed, -⟩ := statement_sound read
  exact ⟨tokens, passed⟩

theorem program_passes (limit : Nat) (w : Window σ) :
    ∃ tokens, w.Passes tokens (leaves Prod.snd (program limit w)) ∧
      ∀ read, program limit w = .ok read → read.2.current.kind = .eof := by
  cases outcome : program limit w with
  | error halt =>
    obtain ⟨tokens, passed⟩ := program_movesOn outcome
    exact ⟨tokens, passed, fun _ => nofun⟩
  | ok read =>
    obtain ⟨tokens, passed, final, -⟩ := program_sound outcome
    exact ⟨tokens, passed, fun _ same => Except.ok.inj same ▸ final⟩

theorem Tallies.leaves {σ τ α β : Type} [TokenFeed σ] [TokenFeed τ] {related : α → β → Prop}
    {window : α → Window σ} {window' : β → Window τ} {x : Except (Halt σ) α}
    {y : Except (Halt τ) β} (tallies : Tallies related x y)
    (behind : ∀ {a b}, related a b → (window a).Alike (window' b)) :
    (leaves window x).Alike (leaves window' y) := by
  cases tallies with
  | ok same => exact behind same
  | error alike => exact alike

/-- Reading with and without a count moves on by the same number of tokens, and all but the final
one of them are passed if a program is read. -/
theorem program_counted (limit : Nat) (s : Scanner) :
    ∃ count, leaves Prod.snd (program limit (Window.view s)) = (Window.view s).onward count ∧
      leaves Prod.snd (program limit (Window.view (Counted.start s))) =
        (Window.view (Counted.start s)).onward count ∧
      count < s.tokens.length ∧
      ∀ read, program limit (Window.view s) = .ok read → count + 1 = s.tokens.length := by
  obtain ⟨tokens, passed, ended⟩ := program_passes limit (Window.view s)
  obtain ⟨tokens', passed', -⟩ := program_passes limit (Window.view (Counted.start s))
  obtain ⟨target, whole, final, -⟩ := s.view_passes
  obtain ⟨rest, split, left⟩ := passed.split whole final
  have alike := Counted.alike_start s
  have behind := (program_alike limit alike).leaves fun same => same.2
  obtain rfl : tokens' = tokens := passed.eq_of_alike passed' alike behind left final
  refine ⟨tokens'.length, passed.eq_onward, passed'.eq_onward, Scanner.length_of_passes passed, ?_⟩
  intro read outcome
  have last := ended read outcome
  rw [outcome] at passed
  obtain ⟨all, -⟩ := passed.unique last whole final
  rw [all, Scanner.tokens_eq, List.length_append, List.length_singleton]

end Grammar

/-- Reading a source as `parse` does, with the number of draws that it takes. -/
def parseCounted (limit : Nat) (source : String) : Parsed × Nat :=
  match Grammar.program limit (Window.view (Counted.start (Scanner.start source))) with
  | .ok (program, window) => (⟨.ok program, window.feed.feed.unknown⟩, window.feed.draws)
  | .error halt => (⟨.error halt.failure, halt.window.feed.feed.unknown⟩, halt.window.feed.draws)

/-- Counting changes nothing of what is read, and two tokens are drawn besides those passed. -/
theorem parseCounted_eq (limit : Nat) (source : String) :
    ∃ count, parseCounted limit source = (parse limit source, count + 2) ∧
      count < (Scanner.start source).tokens.length ∧
      ∀ nodes, (parse limit source).program = .ok nodes →
        count + 1 = (Scanner.start source).tokens.length := by
  obtain ⟨count, here, counted, few, all⟩ := Grammar.program_counted limit (Scanner.start source)
  have tallies := Grammar.program_alike limit (Counted.alike_start (Scanner.start source))
  have feeds := Counted.feed_onward (Scanner.start source) count
  rw [← here, ← counted] at feeds
  refine ⟨count, ?_, few, ?_⟩
  · unfold parseCounted parse
    revert tallies feeds
    generalize Grammar.program limit (Window.view (Scanner.start source)) = outcome
    generalize Grammar.program limit
      (Window.view (Counted.start (Scanner.start source))) = outcome'
    intro tallies feeds
    cases tallies with
    | @ok read read' same =>
      simp only [Grammar.leaves] at feeds
      simp [feeds, same.1]
    | error alike =>
      simp only [Grammar.leaves] at feeds
      simp [feeds]
  · intro nodes returned
    unfold parse at returned
    split at returned
    · next outcome => exact all _ outcome
    · contradiction

namespace Scanner

theorem length_tokens_le (s : Scanner) : s.tokens.length ≤ s.rest.length + 1 := by
  fun_induction tokens s with
  | case1 s final => simp
  | case2 s more less ih =>
    rw [List.length_cons]
    omega

/-- The final token is drawn from the last of the tokens on. -/
theorem final_draw_iff (s : Scanner) (count : Nat) :
    (TokenFeed.after s count).next.1.kind = .eof ↔ s.tokens.length ≤ count + 1 := by
  have left := upcoming_after s count
  rw [tokens_eq, List.length_append, List.length_singleton, Nat.add_le_add_iff_right]
  rw [← List.drop_eq_nil_iff, ← left]
  rcases next_upcoming (TokenFeed.after s count) with ⟨none, last, -⟩ | ⟨more, some⟩
  · simp [none, last, Token.final]
  · simp [more, some]

end Scanner

open Grammar (Consumes expression factor statement term)

/-- Scanning and reading come to an end. Wherever a scanner stands in a source, also after any
number of draws, it draws the final token exactly if no token is left, and then stays as it is; any
other draw moves it on. The draws up to the final token are as many as the source has tokens. Each
reader that returns has consumed a token, none ever consumes the final one, and so a source is read
with at most one draw more than it has tokens, and with just so many if a program is read. -/
theorem scanning_and_reading_end (limit : Nat) (source : String) :
    (∀ count, ∃ passed,
      Scanner.Within source (TokenFeed.after (Scanner.start source) count) passed) ∧
    (∀ s passed, Scanner.Within source s passed → s.Progresses source) ∧
    (Scanner.start source).tokens.length ≤ source.length + 1 ∧
    (∀ count, (TokenFeed.after (Scanner.start source) count).next.1.kind = .eof ↔
      (Scanner.start source).tokens.length ≤ count + 1) ∧
    (∀ (σ : Type) [TokenFeed σ],
      ∀ reader ∈ [factor (σ := σ) limit, term limit, expression limit, statement limit],
        Consumes reader) ∧
    (parseCounted limit source).1 = parse limit source ∧
    (parseCounted limit source).2 ≤ (Scanner.start source).tokens.length + 1 ∧
    ∀ nodes, (parse limit source).program = .ok nodes →
      (parseCounted limit source).2 = (Scanner.start source).tokens.length + 1 := by
  obtain ⟨count, counted, few, all⟩ := parseCounted_eq limit source
  refine ⟨Scanner.within_after source, fun s passed within => within.progresses, ?_,
    Scanner.final_draw_iff _, ?_, ?_, ?_, ?_⟩
  · rw [← String.length_toList]
    exact Scanner.length_tokens_le _
  · intro σ feed reader member
    simp only [List.mem_cons, List.not_mem_nil, or_false] at member
    rcases member with rfl | rfl | rfl | rfl
    · exact Grammar.reader_consumes limit .factor
    · exact Grammar.reader_consumes limit .term
    · exact Grammar.reader_consumes limit .expression
    · exact Grammar.statement_consumes limit
  · rw [counted]
  · rw [counted]
    exact Nat.succ_le_succ few
  · intro nodes returned
    rw [counted, ← all nodes returned]

/-- Behind the number only gaps are left. All tokens are drawn, and the final one twice. -/
theorem scanning_and_reading_end_gaps :
    let source := "x = $ 1 @ # c"
    let start := Scanner.start source
    let s := TokenFeed.after start 3
    (∃ passed, Scanner.Within source s passed) ∧ isTokenless s.rest ∧ s.next.1.kind = .eof ∧
    s.next.2.offset = 13 ∧ s.next.2.unknown.length = 2 ∧ s.next.2.next = s.next ∧
    start.next.1.kind ≠ .eof ∧ start.offset < start.next.2.offset ∧
    (∃ count > 0, ∃ r, statement nestingLimit (Window.view start) = .ok r ∧
      r.window = (Window.view start).onward count) ∧
    (∃ nodes, (parse nestingLimit source).program = .ok nodes) ∧
    start.tokens.length = 4 ∧ (parseCounted nestingLimit source).2 = 5 := by
  intro source start s
  obtain ⟨reached, progresses, -, -, consume, -, -, all⟩ :=
    scanning_and_reading_end nestingLimit source
  obtain ⟨passed, within⟩ := reached 3
  have progress : s.Progresses source := progresses s passed within
  have gaps : isTokenless s.rest := by decide +kernel
  have final : s.next.1.kind = .eof := progress.final_iff.mpr gaps
  obtain ⟨offset, stays⟩ := progress.rests final
  have more : start.next.1.kind ≠ .eof := by decide +kernel
  have moves := (progresses start [] (Scanner.within_start source)).moves more
  have reads : (statement nestingLimit (Window.view start)).toBool = true := by decide +kernel
  obtain ⟨r, read⟩ := returns_of_toBool reads
  obtain ⟨count, behind, -, consumed⟩ :=
    consume Scanner (statement nestingLimit) (by simp) (Window.view start)
  rw [read] at behind
  have returns : (parse nestingLimit source).program.toBool = true := by decide +kernel
  obtain ⟨nodes, returned⟩ := returns_of_toBool returns
  have four : start.tokens.length = 4 := by decide +kernel
  refine ⟨⟨passed, within⟩, gaps, final, offset.trans (by decide), by decide +kernel, (stays 0).2,
    more, moves, ⟨count, consumed r read, r, read, behind⟩, ⟨nodes, returned⟩, four, ?_⟩
  rw [all nodes returned, four]

end IntScript

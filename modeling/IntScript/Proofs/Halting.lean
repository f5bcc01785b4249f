import IntScript.Proofs.Parsing
import IntScript.Proofs.ViablePrefix

/-! Where reading stops. Reading only moves on, so the window where it stops is reached by
passing tokens, be it that one was rejected or that the limit on parentheses was reached. A
token that is rejected is one of the source, and the unknown characters noted until then are
the first ones of the source. -/
namespace IntScript

namespace Grammar
variable {σ : Type} [TokenFeed σ]

/-- Where the reader stops, it has passed some tokens. -/
def MovesOn (reader : Reader σ) : Prop :=
  ∀ {w : Window σ} {halt : Halt σ}, reader w = .error halt →
    ∃ tokens, w.Passes tokens halt.window

theorem chainFrom_movesOn {level : Level} {operand : Reader σ}
    (sound : Sound level.operand operand) (moves : MovesOn operand) {w : Window σ}
    {left : Reading w} {halt : Halt σ} {tokens : List Token}
    (passed : w.Passes tokens left.window)
    (failed : chainFrom level operand left = .error halt) :
    ∃ tokens, w.Passes tokens halt.window := by
  fun_induction chainFrom level operand left generalizing tokens with
  | case1 left none => contradiction
  | case2 left op found further ih =>
    have operator := passed.trans (Window.passes_current (Level.ne_eof found))
    rcases bind_fails failed with failedRight | ⟨right, readRight, failed⟩
    · obtain ⟨behind, passedRight⟩ := moves failedRight
      exact ⟨_, operator.trans passedRight⟩
    · obtain ⟨behind, passedRight, -⟩ := sound readRight
      exact ih right (operator.trans passedRight) failed

theorem chain_movesOn {level : Level} {operand : Reader σ} (sound : Sound level.operand operand)
    (moves : MovesOn operand) : MovesOn (chain level operand) := by
  intro w halt failed
  rcases bind_fails failed with failedFirst | ⟨left, readLeft, failed⟩
  · exact moves failedFirst
  · obtain ⟨tokens, passed, -⟩ := sound readLeft
    exact chainFrom_movesOn sound moves passed failed

theorem closed_movesOn {inner : Reader σ} (sound : Sound .expression inner)
    (moves : MovesOn inner) : MovesOn (closed inner) := by
  intro w halt failed
  cases outcome : inner w with
  | error halt' =>
    rw [closed_of_error outcome] at failed
    cases failed
    exact moves outcome
  | ok body =>
    obtain ⟨tokens, passed, -⟩ := sound outcome
    by_cases closes : body.window.current.kind = .rparen
    · obtain ⟨shorter, read⟩ := closed_of_rparen outcome closes
      rw [read] at failed
      contradiction
    · rw [closed_of_other outcome closes] at failed
      cases failed
      exact ⟨tokens, passed⟩

theorem operand_movesOn {nested : Option (Reader σ)}
    (sound : ∀ inner ∈ nested, Sound .expression inner)
    (moves : ∀ inner ∈ nested, MovesOn inner) : MovesOn (operand nested) := by
  intro w halt failed
  cases literal : isLiteral w.current.kind with
  | true =>
    obtain ⟨node, shorter, read⟩ := operand_of_literal nested literal
    rw [read] at failed
    contradiction
  | false =>
    by_cases opens : w.current.kind = .lparen
    · cases nested with
      | none =>
        rw [operand_of_deep opens] at failed
        cases failed
        exact ⟨[], rfl⟩
      | some inner =>
        obtain ⟨further, read⟩ := operand_of_lparen inner opens
        rw [read] at failed
        obtain ⟨tokens, passed⟩ :=
          closed_movesOn (sound inner rfl) (moves inner rfl) (wrapped_fails failed)
        exact ⟨_, (Window.passes_current (by simp [opens])).trans passed⟩
    · rw [operand_of_other literal opens] at failed
      cases failed
      exact ⟨[], rfl⟩

theorem factor_movesOn (limit : Nat) : MovesOn (factor (σ := σ) limit) := by
  induction limit with
  | zero =>
    apply operand_movesOn
    · rintro inner ⟨⟩
    · rintro inner ⟨⟩
  | succ limit ih =>
    have termSound : Sound .term (chain .product (factor (σ := σ) limit)) :=
      chain_sound (factor_sound limit)
    apply operand_movesOn
    · rintro inner ⟨⟩
      exact chain_sound termSound
    · rintro inner ⟨⟩
      exact chain_movesOn termSound (chain_movesOn (factor_sound limit) ih)

theorem expression_movesOn (limit : Nat) : MovesOn (expression (σ := σ) limit) :=
  chain_movesOn (chain_sound (factor_sound limit))
    (chain_movesOn (factor_sound limit) (factor_movesOn limit))

theorem statement_movesOn (limit : Nat) : MovesOn (statement (σ := σ) limit) := by
  intro w halt failed
  by_cases starts : Starts w
  · rcases starts with kind | ⟨kind, assigns⟩
    · have keyword : w.Passes [w.current] w.advance := Window.passes_current (by simp [kind])
      by_cases opens : w.peek.kind = .lparen
      · obtain ⟨further, read⟩ := statement_of_print limit kind opens
        rw [read] at failed
        obtain ⟨tokens, passed⟩ := closed_movesOn (expression_sound limit)
          (expression_movesOn limit) (wrapped_fails failed)
        have opening : w.advance.Passes [w.peek] w.advance.advance :=
          Window.passes_current (w := w.advance) (by simp [Window.advance, opens])
        exact ⟨_, keyword.trans (opening.trans passed)⟩
      · rw [statement_of_unopened kind opens] at failed
        cases failed
        exact ⟨_, keyword⟩
    · obtain ⟨further, read⟩ := statement_of_assignment limit kind assigns
      rw [read] at failed
      obtain ⟨tokens, passed⟩ := expression_movesOn limit (wrapped_fails failed)
      exact ⟨w.current :: w.peek :: tokens,
        ⟨rfl, by simp [kind], rfl, by simp [assigns], passed⟩⟩
  · rw [statement_of_other starts] at failed
    cases failed
    exact ⟨[], rfl⟩

theorem program_movesOn {limit : Nat} {w : Window σ} {halt : Halt σ}
    (failed : program limit w = .error halt) : ∃ tokens, w.Passes tokens halt.window := by
  fun_induction program limit w with
  | case1 w ended => contradiction
  | case2 w more ih =>
    obtain ⟨newlines, -, skipped⟩ := skipNewlines_passes w
    rcases bind_fails failed with failedFirst | ⟨first, readFirst, further⟩
    · obtain ⟨tokens, passed⟩ := statement_movesOn limit failedFirst
      exact ⟨_, skipped.trans passed⟩
    · rcases bind_fails further with failedOthers | ⟨rest, -, last⟩
      · obtain ⟨front, passed, -⟩ := statement_sound readFirst
        obtain ⟨tokens, passedOthers⟩ := ih first failedOthers
        exact ⟨_, skipped.trans (passed.trans passedOthers)⟩
      · contradiction

end Grammar

namespace Scanner

/-- While tokens are passed, what is noted was pending before. -/
theorem noted_of_passes {w v : Window Scanner} {tokens : List Token} (passed : w.Passes tokens v) :
    v.feed.unknown ++ v.feed.pending = w.feed.unknown ++ w.feed.pending := by
  induction tokens generalizing w with
  | nil =>
    obtain rfl : v = w := passed
    rfl
  | cons t tokens ih =>
    obtain ⟨-, -, passed⟩ := passed
    exact (ih passed).trans (noted_next w.feed)

/-- A token in view is one of those to come, or the final one. -/
theorem current_of_passes {s : Scanner} {v : Window Scanner} {tokens : List Token}
    (passed : (Window.view s).Passes tokens v) :
    v.current ∈ s.upcoming ∨ v.current = .final s.finish := by
  induction tokens generalizing s with
  | nil =>
    obtain rfl : v = Window.view s := passed
    rcases next_upcoming s with ⟨-, last, -⟩ | ⟨-, some⟩
    · exact .inr last
    · rw [some]
      exact .inl List.mem_cons_self
  | cons t tokens ih =>
    obtain ⟨rfl, more, passed⟩ := passed
    rcases next_upcoming s with ⟨-, last, -⟩ | ⟨-, some⟩
    · exact absurd (congrArg Token.kind last) more
    · rw [some, ← finish_next s]
      -- moving on shows what the scanner has to come behind its next token
      exact (ih (s := s.next.2) passed).imp_left (List.mem_cons_of_mem _)

end Scanner

/-- However reading ends, the unknown characters that it noted are the first ones of the
source. -/
theorem unknown_of_parse (limit : Nat) (source : String) :
    (parse limit source).unknown <+: (Scanner.start source).pending := by
  have noted {v : Window Scanner} {tokens : List Token}
      (passed : (Window.view (Scanner.start source)).Passes tokens v) :
      v.feed.unknown <+: (Scanner.start source).pending := by
    refine ⟨v.feed.pending, ?_⟩
    rw [Scanner.noted_of_passes passed]
    exact Scanner.noted_after (Scanner.start source) 2
  unfold parse
  split
  · next nodes v outcome =>
    obtain ⟨tokens, passed, -⟩ := Grammar.program_sound outcome
    exact noted passed
  · next halt outcome =>
    obtain ⟨tokens, passed⟩ := Grammar.program_movesOn outcome
    exact noted passed

/-- A token that was rejected is one of the source, or the final one. -/
theorem found_of_parse {limit : Nat} {source : String} {e : SyntaxError}
    (rejected : (parse limit source).program = .error (.rejected e)) :
    e.found ∈ (Scanner.start source).upcoming ∨
      e.found = .final (Position.start.after source.toList) := by
  unfold parse at rejected
  split at rejected
  · contradiction
  · next halt outcome =>
    obtain ⟨failure, v⟩ := halt
    obtain rfl : failure = .rejected e := Except.error.inj rejected
    obtain ⟨about, tokens, passed, -⟩ := Grammar.program_careful outcome
    rw [about]
    exact Scanner.current_of_passes passed

end IntScript

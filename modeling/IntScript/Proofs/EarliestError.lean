import IntScript.Proofs.Acceptance
import IntScript.Proofs.Lookahead
import IntScript.Proofs.ViablePrefix
import IntScript.Report.Wording

/-! A syntax error is about the earliest token it can be about: up to there the tokens
begin a program, and with that token no more. A name where a statement must start is the
exception, because the token behind it decides. -/
namespace IntScript

namespace Derivation

/-- The tokens of a program with the final token behind them. -/
def Accepts (tokens : List Token) : Prop :=
  ∃ body final nodes, tokens = body ++ [final] ∧ final.kind = .eof ∧ Program body nodes

theorem Expression.ne_eof {phrase : Phrase} {tokens : List Token} {node : Node}
    (derived : Expression phrase tokens node) : ∀ t ∈ tokens, t.kind ≠ .eof := by
  induction derived with
  | number kind | string kind | reference kind => simp [kind]
  | parenthesised opens body closes ih => simpa [opens, closes, or_imp, forall_and] using ih
  | single operand ih => exact ih
  | join first found last ihFirst ihLast =>
    intro t member
    rcases List.mem_append.mp member with before | behind
    · exact ihFirst t before
    · rcases List.mem_cons.mp behind with rfl | behind
      · exact Level.ne_eof (Level.joins_iff.mp found)
      · exact ihLast t behind

theorem Statement.ne_eof {tokens : List Token} {node : Node} (derived : Statement tokens node) :
    ∀ t ∈ tokens, t.kind ≠ .eof := by
  cases derived with
  | print kind opens body closes =>
    simpa [kind, opens, closes, or_imp, forall_and] using body.ne_eof
  | assignment kind assigns body =>
    simpa [kind, assigns] using body.ne_eof

theorem Newlines.ne_eof {tokens : List Token} (blank : Newlines tokens) :
    ∀ t ∈ tokens, t.kind ≠ .eof := by
  intro t member
  simp [blank t member]

theorem Statements.ne_eof {tokens : List Token} {nodes : List Node}
    (derived : Statements tokens nodes) : ∀ t ∈ tokens, t.kind ≠ .eof := by
  induction derived with
  | none => simp
  | more statement blank others ih =>
    intro t member
    rcases List.mem_append.mp member with front | member
    · exact statement.ne_eof t front
    · rcases List.mem_append.mp member with between | behind
      · exact blank.ne_eof t between
      · exact ih t behind

theorem Program.ne_eof {tokens : List Token} {nodes : List Node} (derived : Program tokens nodes) :
    ∀ t ∈ tokens, t.kind ≠ .eof := by
  obtain ⟨newlines, rest, rfl, blank, statements⟩ := derived
  intro t member
  rcases List.mem_append.mp member with front | behind
  · exact blank.ne_eof t front
  · exact statements.ne_eof t behind

end Derivation

namespace Window
variable {σ : Type} [TokenFeed σ]

theorem Passes.size_le {w target : Window σ} {tokens : List Token}
    (passed : w.Passes tokens target) : target.size + tokens.length ≤ w.size := by
  induction tokens generalizing w with
  | nil =>
    obtain rfl : target = w := passed
    simp
  | cons t tokens ih =>
    obtain ⟨rfl, more, rest⟩ := passed
    have step := advance_size more
    have behind := ih rest
    simp only [List.length_cons]
    omega

theorem Passes.tokens_unique {w target : Window σ} {tokens tokens' : List Token}
    (passed : w.Passes tokens target) (passed' : w.Passes tokens' target) : tokens = tokens' := by
  induction tokens generalizing w tokens' with
  | nil =>
    obtain rfl : target = w := passed
    have := passed'.size_le
    exact (List.length_eq_zero_iff.mp (by omega)).symm
  | cons t tokens ih =>
    cases tokens' with
    | nil =>
      obtain rfl : target = w := passed'
      have := passed.size_le
      simp only [List.length_cons] at this
      omega
    | cons t' tokens' =>
      obtain ⟨rfl, -, rest⟩ := passed
      obtain ⟨rfl, -, rest'⟩ := passed'
      rw [ih rest rest']

end Window

namespace Recorded
open IntScript.Derivation (Accepts Program)

theorem passes_split {tokens passedOver : List Token} {last : Position} {v : Window Recorded}
    (passed : (Window.view (Recorded.mk tokens last)).Passes passedOver v) :
    ∃ rest, tokens = passedOver ++ rest ∧ v = Window.view ⟨rest, last⟩ := by
  induction passedOver generalizing tokens with
  | nil => exact ⟨tokens, rfl, passed⟩
  | cons t passedOver ih =>
    obtain ⟨rfl, more, behind⟩ := passed
    cases tokens with
    | nil => exact absurd rfl more
    | cons first tokens =>
      obtain ⟨rest, rfl, same⟩ := ih behind
      exact ⟨rest, rfl, same⟩

theorem shows_front (front rest : List Token) (last : Position) :
    (Window.view (Recorded.mk (front ++ rest) last)).Shows front (Window.view ⟨rest, last⟩) := by
  induction front with
  | nil => rfl
  | cons t front ih => exact ⟨rfl, ih⟩

theorem passes_front {front : List Token} (inner : ∀ t ∈ front, t.kind ≠ .eof) (rest : List Token)
    (last : Position) :
    (Window.view (Recorded.mk (front ++ rest) last)).Passes front (Window.view ⟨rest, last⟩) := by
  induction front with
  | nil => rfl
  | cons t front ih =>
    obtain ⟨more, inner⟩ := List.forall_mem_cons.mp inner
    exact ⟨rfl, more, ih inner⟩

theorem read_eq_rejected {limit : Nat} {r : Recorded} {e : SyntaxError}
    (rejected : r.read limit = .error (.rejected e)) :
    ∃ v, Grammar.program limit (Window.view r) = .error ⟨.rejected e, v⟩ := by
  unfold read at rejected
  split at rejected
  · contradiction
  · next halt outcome =>
    obtain ⟨failure, window⟩ := halt
    obtain rfl : failure = .rejected e := Except.error.inj rejected
    exact ⟨window, outcome⟩

theorem accepted_not_rejected {tokens : List Token} (accepted : Accepts tokens) (limit : Nat)
    (last : Position) (e : SyntaxError) (v : Window Recorded) :
    Grammar.program limit (Window.view ⟨tokens, last⟩) ≠ .error ⟨.rejected e, v⟩ := by
  obtain ⟨body, final, nodes, rfl, ends, derived⟩ := accepted
  have passed := passes_front derived.ne_eof [final] last
  intro rejected
  rcases Grammar.program_returns derived limit passed ends with ⟨window, deep⟩ | returned
  · rw [deep] at rejected
    cases rejected
  · rw [returned] at rejected
    cases rejected

/-- What is rejected at a token is not accepted with other tokens from there on, if the
first of them is alike. -/
theorem not_accepts {limit : Nat} {front rest other : List Token} {last : Position}
    {e : SyntaxError}
    (rejected : Grammar.program limit (Window.view (Recorded.mk (front ++ rest) last)) =
      .error ⟨.rejected e, Window.view ⟨rest, last⟩⟩)
    (passed : (Window.view (Recorded.mk (front ++ rest) last)).Passes front
      (Window.view ⟨rest, last⟩))
    (alike : (Window.view (Recorded.mk other last)).current.kind =
      (Window.view (Recorded.mk rest last)).current.kind)
    (undecided : e = .noStatement (Window.view (Recorded.mk rest last)).current →
      (Window.view (Recorded.mk rest last)).current.kind = .identifier →
      (Window.view (Recorded.mk other last)).peek.kind ≠ .assign) :
    ¬ Accepts (front ++ other) := by
  intro accepted
  obtain ⟨front', passed', transfers⟩ := Grammar.program_rejects (τ := Recorded) rejected
  obtain rfl := passed'.tokens_unique passed
  have again := transfers (shows_front front' other last) alike
    fun noStatement => undecided (ReadFailure.rejected.inj noStatement)
  exact accepted_not_rejected accepted limit last _ _ again

end Recorded

open IntScript.Derivation (Accepts Program)

/-- A syntax error is reported at the earliest token that no program can go on with. Only
where the token is a name and a program could end in front of it, the token behind it is
needed to tell. -/
theorem rejected_earliest (limit : Nat) (tokens : List Token) (last : Position)
    (error : SyntaxError)
    (rejected : (Recorded.mk tokens last).read limit = .error (.rejected error)) :
    let all := tokens ++ [.final last]
    ∃ k, all[k]? = some error.found ∧
      error.notice.place = .ofPosition error.found.position ∧
      error.notice.values = [error.found.shown] ∧
      (∃ more, Accepts (all.take k ++ more)) ∧
      (¬ (error.found.kind = .identifier ∧ ∃ nodes, Program (all.take k) nodes) →
        ∀ more, ¬ Accepts (all.take (k + 1) ++ more)) ∧
      ∀ more, ¬ Accepts (all.take (k + 2) ++ more) := by
  intro all
  obtain ⟨v, outcome⟩ := Recorded.read_eq_rejected rejected
  obtain ⟨about, front, passed, ⟨more, nodes, begun⟩, starting⟩ := Grammar.program_careful outcome
  obtain ⟨rest, rfl, rfl⟩ := Recorded.passes_split passed
  have split : all = front ++ (rest ++ [Token.final last]) := List.append_assoc ..
  have taken (n : Nat) :
      all.take (front.length + n) = front ++ (rest ++ [Token.final last]).take n := by
    rw [split, List.take_length_add_append]
  have before : all.take front.length = front := by rw [split, List.take_left]
  refine ⟨front.length, ?_, rfl, rfl, ⟨more ++ [Token.final last], ?_⟩, ?_, ?_⟩
  · rw [split, about]
    cases rest <;> simp <;> rfl
  · exact ⟨front ++ more, .final last, nodes, by simp [before], rfl, begun⟩
  · intro decided more
    have first : (rest ++ [Token.final last]).take 1 =
        [(Window.view (Recorded.mk rest last)).current] := by
      cases rest <;> rfl
    rw [taken, first, List.append_assoc]
    refine Recorded.not_accepts outcome passed rfl fun noStatement named => absurd ?_ decided
    rw [before, about]
    exact ⟨named, (starting _ noStatement).2⟩
  · intro more
    rw [taken, List.append_assoc]
    cases rest with
    | nil =>
      refine Recorded.not_accepts outcome passed rfl fun _ named => ?_
      cases named
    | cons t rest =>
      have second : (t :: rest ++ [Token.final last]).take 2 =
          [t, (Window.view (Recorded.mk (t :: rest) last)).peek] := by
        cases rest <;> rfl
      rw [second]
      refine Recorded.not_accepts outcome passed rfl fun noStatement named assigns => ?_
      exact (starting _ noStatement).1 (.inr ⟨named, assigns⟩)

/-- After `print ( 1` a number is out of place. -/
theorem rejected_earliest_number :
    let word : Token := ⟨.print, "print", ⟨1, 1⟩⟩
    let opening : Token := ⟨.lparen, "(", ⟨1, 6⟩⟩
    let one : Token := ⟨.number, "1", ⟨1, 7⟩⟩
    let two : Token := ⟨.number, "2", ⟨1, 9⟩⟩
    let all := [word, opening, one, two, .final ⟨1, 10⟩]
    ∃ k, all[k]? = some two ∧ (∃ more, Accepts (all.take k ++ more)) ∧
      ∀ more, ¬ Accepts (all.take (k + 1) ++ more) := by
  intro word opening one two all
  have rejected : (Recorded.mk [word, opening, one, two] ⟨1, 10⟩).read nestingLimit =
      .error (.rejected (.expected .rparen two)) := by with_unfolding_all rfl
  obtain ⟨k, found, -, -, viable, decided, -⟩ := rejected_earliest _ _ _ _ rejected
  exact ⟨k, found, viable, decided fun named => absurd named.1 (by decide)⟩

end IntScript

import IntScript.Proofs.ReadingSteps
import IntScript.Proofs.Rereading

/-! Where a reader rejects a token, the tokens in front of it can be gone on with: with
some tokens added they are what it was to read. -/
namespace IntScript

namespace Derivation

/-- With some tokens added, these derive the phrase. -/
def Viable (phrase : Phrase) (tokens : List Token) : Prop :=
  ∃ more node, Expression phrase (tokens ++ more) node

namespace Viable

theorem nil (phrase : Phrase) : Viable phrase [] := by
  have zero : Expression .factor [⟨.number, "0", .start⟩] _ := .number rfl
  exact ⟨_, _, zero.loosen phrase.binding_bounds.2⟩

theorem of_expression {phrase : Phrase} {tokens : List Token} {node : Node}
    (derived : Expression phrase tokens node) : Viable phrase tokens := by
  refine ⟨[], node, ?_⟩
  rw [List.append_nil]
  exact derived

theorem single {level : Level} {tokens : List Token} (viable : Viable level.operand tokens) :
    Viable (.chain level) tokens := by
  obtain ⟨more, node, derived⟩ := viable
  exact ⟨more, node, .single derived⟩

theorem join {level : Level} {op : Operator} {t : Token} {before behind : List Token} {left : Node}
    (first : Expression (.chain level) before left) (found : level.Joins t.kind op)
    (viable : Viable level.operand behind) : Viable (.chain level) (before ++ t :: behind) := by
  obtain ⟨more, right, derived⟩ := viable
  have whole := Expression.join first found derived
  rw [← List.cons_append, ← List.append_assoc] at whole
  exact ⟨more, _, whole⟩

theorem parenthesised {opening : Token} {tokens : List Token} (opens : opening.kind = .lparen)
    (viable : Viable .expression tokens) : Viable .factor (opening :: tokens) := by
  obtain ⟨more, node, derived⟩ := viable
  have closes : Token.kind ⟨.rparen, ")", .start⟩ = .rparen := rfl
  have whole := Expression.parenthesised opens derived closes
  rw [List.append_assoc, ← List.cons_append] at whole
  exact ⟨_, _, whole⟩

theorem print {t opening : Token} {tokens : List Token} (kind : t.kind = .print)
    (opens : opening.kind = .lparen) (viable : Viable .expression tokens) :
    ∃ more node, Statement (t :: opening :: tokens ++ more) node := by
  obtain ⟨more, node, derived⟩ := viable
  have closes : Token.kind ⟨.rparen, ")", .start⟩ = .rparen := rfl
  have whole := Statement.print kind opens derived closes
  rw [List.append_assoc, ← List.cons_append, ← List.cons_append] at whole
  exact ⟨_, _, whole⟩

theorem assignment {t sign : Token} {tokens : List Token} (kind : t.kind = .identifier)
    (assigns : sign.kind = .assign) (viable : Viable .expression tokens) :
    ∃ more node, Statement (t :: sign :: tokens ++ more) node := by
  obtain ⟨more, node, derived⟩ := viable
  exact ⟨more, _, .assignment kind assigns derived⟩

end Viable

theorem Program.cons {newlines front tokens : List Token} {node : Node} {nodes : List Node}
    (blank : Newlines newlines) (first : Statement front node) (others : Program tokens nodes) :
    Program (newlines ++ (front ++ tokens)) (node :: nodes) := by
  obtain ⟨between, rest, rfl, blank', statements⟩ := others
  exact ⟨newlines, _, rfl, blank, .more first blank' statements⟩

theorem Program.of_newlines {newlines : List Token} (blank : Newlines newlines) :
    Program newlines [] :=
  ⟨newlines, [], by simp, blank, .none⟩

end Derivation

namespace Grammar
open IntScript.Derivation (Expression Statement Program Viable)
variable {σ : Type} [TokenFeed σ]

/-- The error is about the token where reading stopped, inside a phrase that the tokens in
front of it begin. -/
structure StopsInside (phrase : Phrase) (w : Window σ) (e : SyntaxError) (v : Window σ) : Prop where
  found : e.found = v.current
  inside : ∀ t, e ≠ .noStatement t
  viable : ∃ tokens, w.Passes tokens v ∧ Viable phrase tokens

/-- Where the reader rejects a token it stops inside the phrase. -/
def Careful (phrase : Phrase) (reader : Reader σ) : Prop :=
  ∀ {w v : Window σ} {e : SyntaxError}, reader w = .error ⟨.rejected e, v⟩ →
    StopsInside phrase w e v

theorem chainFrom_careful {level : Level} {operand : Reader σ}
    (sound : Sound level.operand operand) (careful : Careful level.operand operand)
    {w v : Window σ} {left : Reading w} {e : SyntaxError} {tokens : List Token}
    (passed : w.Passes tokens left.window) (derived : Expression (.chain level) tokens left.node)
    (failed : chainFrom level operand left = .error ⟨.rejected e, v⟩) :
    StopsInside (.chain level) w e v := by
  fun_induction chainFrom level operand left generalizing tokens with
  | case1 left none => contradiction
  | case2 left op found further ih =>
    have joins := Level.joins_iff.mpr found
    rcases bind_fails failed with failedRight | ⟨right, readRight, failed⟩
    · obtain ⟨about, inside, behind, passedRight, viable⟩ := careful failedRight
      refine ⟨about, inside, tokens ++ left.window.current :: behind, ?_, viable.join derived joins⟩
      exact passed.trans ⟨rfl, Level.ne_eof found, passedRight⟩
    · obtain ⟨behind, passedRight, derivedRight⟩ := sound readRight
      refine ih right ?_ (derived.join joins derivedRight) failed
      exact passed.trans ⟨rfl, Level.ne_eof found, passedRight⟩

theorem chain_careful {level : Level} {operand : Reader σ} (sound : Sound level.operand operand)
    (careful : Careful level.operand operand) : Careful (.chain level) (chain level operand) := by
  intro w v e failed
  rcases bind_fails failed with failedFirst | ⟨left, readLeft, failed⟩
  · obtain ⟨about, inside, tokens, passed, viable⟩ := careful failedFirst
    exact ⟨about, inside, tokens, passed, viable.single⟩
  · obtain ⟨tokens, passed, derived⟩ := sound readLeft
    exact chainFrom_careful sound careful passed (.single derived) failed

theorem wrapped_fails {w inside : Window σ} {further : inside.size < w.size} {wrap : Node → Node}
    {outcome : Except (Halt σ) (Reading inside)} {halt : Halt σ}
    (failed : wrapped further wrap outcome = .error halt) : outcome = .error halt := by
  cases outcome with
  | error halt' =>
    cases failed
    rfl
  | ok r => contradiction

/-- In front of a missing parenthesis stands the whole of what it was to close. -/
theorem closed_careful {inner : Reader σ} (sound : Sound .expression inner)
    (careful : Careful .expression inner) : Careful .expression (closed inner) := by
  intro w v e failed
  cases outcome : inner w with
  | error halt =>
    rw [closed_of_error outcome] at failed
    cases failed
    exact careful outcome
  | ok body =>
    by_cases closes : body.window.current.kind = .rparen
    · obtain ⟨shorter, read⟩ := closed_of_rparen outcome closes
      rw [read] at failed
      contradiction
    · rw [closed_of_other outcome closes] at failed
      cases failed
      obtain ⟨tokens, passed, derived⟩ := sound outcome
      exact ⟨rfl, by simp, tokens, passed, .of_expression derived⟩

theorem operand_careful {nested : Option (Reader σ)}
    (sound : ∀ inner ∈ nested, Sound .expression inner)
    (careful : ∀ inner ∈ nested, Careful .expression inner) : Careful .factor (operand nested) := by
  intro w v e failed
  cases literal : isLiteral w.current.kind with
  | true =>
    obtain ⟨node, shorter, read⟩ := operand_of_literal nested literal
    rw [read] at failed
    contradiction
  | false =>
    by_cases opens : w.current.kind = .lparen
    · cases nested with
      | none =>
        rw [operand_of_deep opens] at failed
        cases failed
      | some inner =>
        obtain ⟨further, read⟩ := operand_of_lparen inner opens
        rw [read] at failed
        obtain ⟨about, inside, tokens, passed, viable⟩ :=
          closed_careful (sound inner rfl) (careful inner rfl) (wrapped_fails failed)
        exact ⟨about, inside, w.current :: tokens, ⟨rfl, by simp [opens], passed⟩,
          viable.parenthesised opens⟩
    · rw [operand_of_other literal opens] at failed
      cases failed
      exact ⟨rfl, by simp, [], rfl, .nil .factor⟩

theorem factor_careful (limit : Nat) : Careful .factor (factor (σ := σ) limit) := by
  induction limit with
  | zero =>
    apply operand_careful
    · rintro inner ⟨⟩
    · rintro inner ⟨⟩
  | succ limit ih =>
    have termSound : Sound .term (chain .product (factor (σ := σ) limit)) :=
      chain_sound (factor_sound limit)
    apply operand_careful
    · rintro inner ⟨⟩
      exact chain_sound termSound
    · rintro inner ⟨⟩
      exact chain_careful termSound (chain_careful (factor_sound limit) ih)

theorem expression_careful (limit : Nat) : Careful .expression (expression (σ := σ) limit) :=
  chain_careful (chain_sound (factor_sound limit))
    (chain_careful (factor_sound limit) (factor_careful limit))

theorem statement_careful {limit : Nat} {w v : Window σ} {e : SyntaxError} (starts : Starts w)
    (failed : statement limit w = .error ⟨.rejected e, v⟩) :
    e.found = v.current ∧ (∀ t, e ≠ .noStatement t) ∧
      ∃ tokens, w.Passes tokens v ∧ ∃ more node, Statement (tokens ++ more) node := by
  rcases starts with kind | ⟨kind, assigns⟩
  · by_cases opens : w.peek.kind = .lparen
    · obtain ⟨further, read⟩ := statement_of_print limit kind opens
      rw [read] at failed
      obtain ⟨about, inside, tokens, passed, viable⟩ :=
        closed_careful (expression_sound limit) (expression_careful limit) (wrapped_fails failed)
      exact ⟨about, inside, w.current :: w.peek :: tokens,
        ⟨rfl, by simp [kind], rfl, by simp [opens], passed⟩, viable.print kind opens⟩
    · rw [statement_of_unopened kind opens] at failed
      cases failed
      have opening : Token.kind ⟨.lparen, "(", .start⟩ = .lparen := rfl
      obtain ⟨more, node, derived⟩ := (Viable.nil .expression).print kind opening
      exact ⟨rfl, by simp, [w.current], Window.passes_current (by simp [kind]), _, node, derived⟩
  · obtain ⟨further, read⟩ := statement_of_assignment limit kind assigns
    rw [read] at failed
    obtain ⟨about, inside, tokens, passed, viable⟩ :=
      expression_careful limit (wrapped_fails failed)
    exact ⟨about, inside, w.current :: w.peek :: tokens,
      ⟨rfl, by simp [kind], rfl, by simp [assigns], passed⟩, viable.assignment kind assigns⟩

/-- The tokens in front of a rejected one begin a program. Where a statement was to start
they are one. -/
theorem program_careful {limit : Nat} {w v : Window σ} {e : SyntaxError}
    (failed : program limit w = .error ⟨.rejected e, v⟩) :
    e.found = v.current ∧ ∃ tokens, w.Passes tokens v ∧
      (∃ more nodes, Program (tokens ++ more) nodes) ∧
      ∀ t, e = .noStatement t → ¬ Starts v ∧ ∃ nodes, Program tokens nodes := by
  fun_induction program limit w with
  | case1 w ended => contradiction
  | case2 w more ih =>
    obtain ⟨newlines, blank, skipped⟩ := skipNewlines_passes w
    rcases bind_fails failed with failedFirst | ⟨first, readFirst, further⟩
    · by_cases starts : Starts (skipNewlines w)
      · obtain ⟨about, inside, tokens, passed, more, node, derived⟩ :=
          statement_careful starts failedFirst
        refine ⟨about, newlines ++ tokens, skipped.trans passed, ?_, ?_⟩
        · have nothing : Program [] [] := .of_newlines (by simp [Derivation.Newlines])
          exact ⟨more, [node], by simpa using Program.cons blank derived nothing⟩
        · intro t noStatement
          exact absurd noStatement (inside t)
      · rw [statement_of_other starts] at failedFirst
        cases failedFirst
        refine ⟨rfl, newlines, skipped, ⟨[], [], by simpa using .of_newlines blank⟩, ?_⟩
        intro t noStatement
        exact ⟨starts, [], .of_newlines blank⟩
    · rcases bind_fails further with failedOthers | ⟨rest, -, last⟩
      · obtain ⟨front, passed, derived⟩ := statement_sound readFirst
        obtain ⟨about, tokens, passedOthers, ⟨more, nodes, begun⟩, whole⟩ := ih first failedOthers
        refine ⟨about, newlines ++ (front ++ tokens), skipped.trans (passed.trans passedOthers),
          ⟨more, first.node :: nodes, by simpa using Program.cons blank derived begun⟩, ?_⟩
        intro t noStatement
        obtain ⟨other, nodes, complete⟩ := whole t noStatement
        exact ⟨other, first.node :: nodes, .cons blank derived complete⟩
      · contradiction

end Grammar
end IntScript

import IntScript.Proofs.Erasure
import IntScript.Proofs.ReadingCompleteness

/-! Reading a list of tokens accepts the sentences of the grammar and no others,
and returns the tree of the sentence. -/
namespace IntScript

/-- The tokens in front of the final one. -/
def sentence (tokens : List Token) : List Token := tokens.takeWhile (·.kind ≠ .eof)

namespace Recorded

def read (limit : Nat) (r : Recorded) : Except ReadFailure (List Node) :=
  match Grammar.program limit (Window.view r) with
  | .ok (program, _) => .ok program
  | .error halt => .error halt.failure

theorem passes_sentence (tokens : List Token) (last : Position) :
    ∃ target, (Window.view (Recorded.mk tokens last)).Passes (sentence tokens) target ∧
      target.current.kind = .eof := by
  induction tokens with
  | nil => exact ⟨_, rfl, rfl⟩
  | cons t tokens ih =>
    by_cases final : t.kind = .eof
    · refine ⟨Window.view ⟨t :: tokens, last⟩, ?_, final⟩
      simp [sentence, final, Window.Passes]
    · obtain ⟨target, passed, ends⟩ := ih
      refine ⟨target, ?_, ends⟩
      have front : sentence (t :: tokens) = t :: sentence tokens := by simp [sentence, final]
      rw [front]
      exact ⟨rfl, final, passed⟩

theorem read_eq_ok {limit : Nat} {r : Recorded} {program : List Node}
    (returned : r.read limit = .ok program) :
    ∃ target, Grammar.program limit (Window.view r) = .ok (program, target) := by
  unfold read at returned
  split at returned
  · next read target outcome =>
    cases returned
    exact ⟨target, outcome⟩
  · contradiction

theorem not_tooDeep {limit : Nat} {r : Recorded} (unreached : r.read limit ≠ .error .tooDeep) :
    ¬ Grammar.TooDeep (Grammar.program limit (Window.view r)) := by
  rintro ⟨window, failed⟩
  exact unreached (by rw [read, failed])

theorem read_unreached {limit : Nat} {r : Recorded} (enough : r.tokens.length ≤ limit) :
    r.read limit ≠ .error .tooDeep := by
  intro failed
  unfold read at failed
  split at failed
  · contradiction
  · next halt outcome =>
    obtain ⟨failure, window⟩ := halt
    obtain rfl : failure = .tooDeep := Except.error.inj failed
    exact Grammar.program_within enough ⟨window, outcome⟩

/-- The grammar is unambiguous, because what it derives is what is read. -/
theorem program_unique {tokens : List Token} {first second : List Node}
    (derived : Derivation.Program (sentence tokens) first)
    (derived' : Derivation.Program (sentence tokens) second) : first = second := by
  obtain ⟨target, passed, final⟩ := passes_sentence tokens .start
  -- reading with a limit that is never reached returns both of them
  have unreached := not_tooDeep (read_unreached (r := ⟨tokens, .start⟩) (Nat.le_refl _))
  have read := (Grammar.program_returns derived _ passed final).resolve_left unreached
  have read' := (Grammar.program_returns derived' _ passed final).resolve_left unreached
  exact congrArg Prod.fst (Except.ok.inj (read.symm.trans read'))

end Recorded

/-- Tokens derive a program up to places. -/
def Derivation.Yields (tokens : List Token) (nodes : List Node) : Prop :=
  ∃ exact, Derivation.Program tokens exact ∧ Node.samePrograms exact nodes = true

namespace Recorded

theorem program_of_read {limit : Nat} {tokens : List Token} {last : Position} {nodes : List Node}
    (returned : (Recorded.mk tokens last).read limit = .ok nodes) :
    Derivation.Program (sentence tokens) nodes := by
  obtain ⟨after, outcome⟩ := read_eq_ok returned
  obtain ⟨target, passed, final⟩ := passes_sentence tokens last
  exact Grammar.program_derives outcome passed final

theorem read_of_program {limit : Nat} {tokens : List Token} {last : Position} {nodes : List Node}
    (unreached : (Recorded.mk tokens last).read limit ≠ .error .tooDeep)
    (derived : Derivation.Program (sentence tokens) nodes) :
    (Recorded.mk tokens last).read limit = .ok nodes := by
  obtain ⟨target, passed, final⟩ := passes_sentence tokens last
  have outcome := (Grammar.program_returns derived limit passed final).resolve_left
    (not_tooDeep unreached)
  rw [read, outcome]

end Recorded

/-- Unless the nesting limit is reached, which takes at least as many tokens, reading
accepts the sentences of the grammar, returns the one tree that each derives, and
rejects all else with a syntax error. -/
theorem read_iff_yields (limit : Nat) (tokens : List Token) (last : Position)
    (unreached : (Recorded.mk tokens last).read limit ≠ .error .tooDeep) :
    (∀ nodes, (∃ read, (Recorded.mk tokens last).read limit = .ok read ∧
        Node.samePrograms read nodes = true) ↔ Derivation.Yields (sentence tokens) nodes) ∧
    (∀ nodes nodes', Derivation.Yields (sentence tokens) nodes →
      Derivation.Yields (sentence tokens) nodes' → Node.samePrograms nodes nodes' = true) ∧
    ((∀ nodes, ¬ Derivation.Yields (sentence tokens) nodes) →
      ∃ error, (Recorded.mk tokens last).read limit = .error (.rejected error)) ∧
    ∀ more, tokens.length ≤ more → (Recorded.mk tokens last).read more ≠ .error .tooDeep := by
  refine ⟨fun nodes => ⟨?_, ?_⟩, ?_, ?_, fun more enough => Recorded.read_unreached enough⟩
  · rintro ⟨read, returned, same⟩
    exact ⟨read, Recorded.program_of_read returned, same⟩
  · rintro ⟨read, derived, same⟩
    exact ⟨read, Recorded.read_of_program unreached derived, same⟩
  · rintro nodes nodes' ⟨exact, derived, same⟩ ⟨exact', derived', same'⟩
    obtain rfl := Recorded.program_unique derived derived'
    rw [Node.samePrograms_iff] at same same' ⊢
    exact same.symm.trans same'
  · intro none
    cases outcome : (Recorded.mk tokens last).read limit with
    | ok read =>
      refine absurd ⟨read, Recorded.program_of_read outcome, ?_⟩ (none read)
      exact (Node.samePrograms_iff read read).mpr rfl
    | error failure =>
      cases failure with
      | rejected error => exact ⟨error, rfl⟩
      | tooDeep => exact absurd outcome unreached

/-- Two statements on one line, the second one a chain of differences. -/
theorem read_two_assignments :
    let word (name : String) : Token := ⟨.identifier, name, .start⟩
    let digit (text : String) : Token := ⟨.number, text, .start⟩
    let sign : Token := ⟨.assign, "=", .start⟩
    let minus : Token := ⟨.minus, "-", .start⟩
    let tokens := [word "a", sign, digit "1",
      word "b", sign, word "a", minus, digit "2", minus, digit "3", .final .start]
    let difference := Node.binary .sub
      (.binary .sub (.reference "a" .unknown) (.number 2 .unknown) .unknown) (.number 3 .unknown)
      .unknown
    ∃ read, (Recorded.mk tokens .start).read nestingLimit = .ok read ∧
      Node.samePrograms read [.assignment "a" (.number 1 .unknown) .unknown,
        .assignment "b" difference .unknown] = true := by
  intro word digit sign minus tokens difference
  refine ((read_iff_yields nestingLimit tokens .start
    (Recorded.read_unreached (by decide))).1 _).mpr ?_
  have one : Derivation.Statement [word "a", sign, digit "1"] _ :=
    .assignment rfl rfl (.single (.single (.number rfl)))
  have chain : Derivation.Expression .expression
      (([word "a"] ++ minus :: [digit "2"]) ++ minus :: [digit "3"]) _ :=
    .join (.join (.single (.single (.reference rfl))) .minus (.single (.number rfl))) .minus
      (.single (.number rfl))
  have two : Derivation.Statement (word "b" :: sign :: _) _ := .assignment rfl rfl chain
  have both : Derivation.Statements ([word "a", sign, digit "1"] ++ ([] ++ (_ ++ ([] ++ [])))) _ :=
    .more one (by simp [Derivation.Newlines]) (.more two (by simp [Derivation.Newlines]) .none)
  refine ⟨_, ⟨[], _, rfl, by simp [Derivation.Newlines], both⟩, ?_⟩
  rw [Node.samePrograms_iff]
  simp [word, digit, difference, Node.erase, Nat.ofDigitChars]

end IntScript

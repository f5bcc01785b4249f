import IntScript.Proofs.Derivation

/-! What a reader returns is derived from the tokens that it passed. -/
namespace IntScript

theorem bind_returns {ε α β : Type} {x : Except ε α} {next : α → Except ε β} {result : β}
    (returned : (x >>= next) = .ok result) : ∃ a, x = .ok a ∧ next a = .ok result := by
  cases x with
  | error e => contradiction
  | ok a => exact ⟨a, rfl, returned⟩

theorem returns_of_toBool {ε α : Type} {x : Except ε α} (succeeds : x.toBool = true) :
    ∃ a, x = .ok a := by
  cases x with
  | error e => contradiction
  | ok a => exact ⟨a, rfl⟩

theorem bind_fails {ε α β : Type} {x : Except ε α} {next : α → Except ε β} {e : ε}
    (failed : (x >>= next) = .error e) : x = .error e ∨ ∃ a, x = .ok a ∧ next a = .error e := by
  cases x with
  | error e' =>
    cases failed
    exact .inl rfl
  | ok a => exact .inr ⟨a, rfl, failed⟩

namespace Grammar
open IntScript.Derivation (Expression Statement Statements Program)
variable {σ : Type} [TokenFeed σ]

theorem expect_sound {wanted : TokenKind} {w : Window σ} {inner : wanted ≠ .eof}
    {after : { after : Window σ // after.size < w.size }}
    (read : expect wanted w inner = .ok after) :
    w.current.kind = wanted ∧ w.Passes [w.current] after.val := by
  unfold expect at read
  split at read
  · next found =>
    cases read
    exact ⟨found, Window.passes_current (found ▸ inner)⟩
  · contradiction

/-- What a reader returns is derived from the tokens that it passed. -/
def Sound (phrase : Phrase) (reader : Reader σ) : Prop :=
  ∀ {w : Window σ} {r : Reading w}, reader w = .ok r →
    ∃ tokens, w.Passes tokens r.window ∧ Expression phrase tokens r.node

theorem chainFrom_sound {level : Level} {operand : Reader σ} (sound : Sound level.operand operand)
    {w : Window σ} {left r : Reading w} {tokens : List Token}
    (passed : w.Passes tokens left.window) (derived : Expression (.chain level) tokens left.node)
    (read : chainFrom level operand left = .ok r) :
    ∃ tokens, w.Passes tokens r.window ∧ Expression (.chain level) tokens r.node := by
  fun_induction chainFrom level operand left generalizing tokens with
  | case1 left none =>
    cases read
    exact ⟨tokens, passed, derived⟩
  | case2 left op found further ih =>
    obtain ⟨right, readRight, rest⟩ := bind_returns read
    obtain ⟨behind, passedRight, derivedRight⟩ := sound readRight
    refine ih right ?_ (derived.join (Level.joins_iff.mpr found) derivedRight) rest
    exact passed.trans ⟨rfl, Level.ne_eof found, passedRight⟩

theorem chain_sound {level : Level} {operand : Reader σ} (sound : Sound level.operand operand) :
    Sound (.chain level) (chain level operand) := by
  intro w r read
  obtain ⟨left, readLeft, rest⟩ := bind_returns read
  obtain ⟨tokens, passed, derived⟩ := sound readLeft
  exact chainFrom_sound sound passed (.single derived) rest

theorem operand_sound {nested : Option (Reader σ)}
    (sound : ∀ inner ∈ nested, Sound .expression inner) : Sound .factor (operand nested) := by
  intro w r read
  unfold operand at read
  split at read
  · next found =>
    cases read
    exact ⟨[w.current], Window.passes_current (by simp [found]), .number found⟩
  · next found =>
    cases read
    exact ⟨[w.current], Window.passes_current (by simp [found]), .string found⟩
  · next found =>
    cases read
    exact ⟨[w.current], Window.passes_current (by simp [found]), .reference found⟩
  · next opens =>
    cases nested with
    | none => contradiction
    | some inner =>
      obtain ⟨body, readBody, rest⟩ := bind_returns read
      obtain ⟨closed, readClosed, last⟩ := bind_returns rest
      obtain ⟨tokens, passed, derived⟩ := sound inner rfl readBody
      obtain ⟨closes, behind⟩ := expect_sound readClosed
      cases last
      exact ⟨w.current :: (tokens ++ [body.window.current]),
        ⟨rfl, by simp [opens], passed.trans behind⟩, .parenthesised opens derived closes⟩
  · contradiction

theorem factor_sound (limit : Nat) : Sound .factor (factor (σ := σ) limit) := by
  induction limit with
  | zero => exact operand_sound (by simp)
  | succ limit ih =>
    refine operand_sound fun inner nested => ?_
    cases nested
    exact chain_sound (chain_sound ih)

theorem expression_sound (limit : Nat) : Sound .expression (expression (σ := σ) limit) :=
  chain_sound (chain_sound (factor_sound limit))

theorem statement_sound {limit : Nat} {w : Window σ} {r : Reading w}
    (read : statement limit w = .ok r) :
    ∃ tokens, w.Passes tokens r.window ∧ Statement tokens r.node := by
  unfold statement at read
  split at read
  · next kind =>
    obtain ⟨opened, readOpened, rest⟩ := bind_returns read
    obtain ⟨argument, readArgument, rest⟩ := bind_returns rest
    obtain ⟨closed, readClosed, last⟩ := bind_returns rest
    obtain ⟨opens, inside⟩ := expect_sound readOpened
    obtain ⟨tokens, passed, derived⟩ := expression_sound limit readArgument
    obtain ⟨closes, behind⟩ := expect_sound readClosed
    cases last
    exact ⟨w.current :: w.advance.current :: (tokens ++ [argument.window.current]),
      ⟨rfl, by simp [kind], inside.trans (passed.trans behind)⟩, .print kind opens derived closes⟩
  · next kind =>
    split at read
    · next assigns =>
      obtain ⟨value, readValue, last⟩ := bind_returns read
      obtain ⟨tokens, passed, derived⟩ := expression_sound limit readValue
      cases last
      refine ⟨w.current :: w.peek :: tokens, ?_, .assignment kind assigns derived⟩
      exact ⟨rfl, by simp [kind], rfl, by simp [assigns], passed⟩
    · contradiction
  · contradiction

theorem skipNewlines_passes (w : Window σ) :
    ∃ newlines, Derivation.Newlines newlines ∧ w.Passes newlines (skipNewlines w) := by
  fun_induction skipNewlines w with
  | case1 w found shorter ih =>
    obtain ⟨newlines, blank, passed⟩ := ih
    exact ⟨w.current :: newlines, by simpa [Derivation.Newlines, found] using blank,
      rfl, by simp [found], passed⟩
  | case2 w found => exact ⟨[], by simp [Derivation.Newlines], rfl⟩

theorem program_sound {limit : Nat} {w after : Window σ} {nodes : List Node}
    (read : program limit w = .ok (nodes, after)) :
    ∃ tokens, w.Passes tokens after ∧ after.current.kind = .eof ∧ Program tokens nodes := by
  fun_induction program limit w generalizing nodes after with
  | case1 w final =>
    obtain ⟨newlines, blank, passed⟩ := skipNewlines_passes w
    cases read
    exact ⟨newlines, passed, final, newlines, [], by simp, blank, .none⟩
  | case2 w more ih =>
    obtain ⟨newlines, blank, skipped⟩ := skipNewlines_passes w
    obtain ⟨first, readFirst, rest⟩ := bind_returns read
    obtain ⟨⟨others, target⟩, readOthers, last⟩ := bind_returns rest
    obtain ⟨front, passed, derived⟩ := statement_sound readFirst
    obtain ⟨_, passedOthers, final, between, behind, rfl, blank', statements⟩ := ih first readOthers
    cases last
    exact ⟨newlines ++ (front ++ (between ++ behind)),
      skipped.trans (passed.trans passedOthers), final, newlines, _, rfl, blank,
      .more derived blank' statements⟩

theorem program_derives {limit : Nat} {w after target : Window σ} {tokens : List Token}
    {nodes : List Node} (read : program limit w = .ok (nodes, after))
    (passed : w.Passes tokens target) (final : target.current.kind = .eof) :
    Program tokens nodes := by
  obtain ⟨shown, passed', final', derived⟩ := program_sound read
  obtain ⟨rfl, -⟩ := passed'.unique final' passed final
  exact derived

end Grammar
end IntScript

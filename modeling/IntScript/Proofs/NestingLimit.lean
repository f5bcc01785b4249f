import IntScript.Proofs.ReadingSoundness

/-! The limit on open parentheses is reached only if there are more tokens than
the limit allows parentheses. -/
namespace IntScript

namespace Window
variable {σ : Type} [TokenFeed σ]

theorem weight_next_le (feed : σ) :
    weight (TokenFeed.next feed).1 + TokenFeed.size (TokenFeed.next feed).2 ≤
      TokenFeed.size feed := by
  by_cases final : (TokenFeed.next feed).1.kind = .eof
  · have := TokenFeed.size_next_le feed
    simpa [weight, final] using this
  · have := TokenFeed.size_next_lt feed final
    simp only [weight, final, if_false]
    omega

theorem size_view_le (feed : σ) : (view feed).size ≤ TokenFeed.size feed := by
  have first := weight_next_le feed
  have second := weight_next_le (TokenFeed.next feed).2
  simp only [view, size]
  omega

end Window

namespace Grammar
variable {σ : Type}

def TooDeep {α : Type} (outcome : Except (Halt σ) α) : Prop :=
  ∃ window, outcome = .error ⟨.tooDeep, window⟩

theorem TooDeep.bind {α β : Type} {x : Except (Halt σ) α} (deep : TooDeep x)
    (next : α → Except (Halt σ) β) : TooDeep (x >>= next) := by
  obtain ⟨window, rfl⟩ := deep
  exact ⟨window, rfl⟩

theorem TooDeep.of_bind {α β : Type} {x : Except (Halt σ) α} {next : α → Except (Halt σ) β}
    (deep : TooDeep (x >>= next)) : TooDeep x ∨ ∃ a, x = .ok a ∧ TooDeep (next a) := by
  obtain ⟨window, failed⟩ := deep
  rcases bind_fails failed with first | ⟨a, read, second⟩
  · exact .inl ⟨window, first⟩
  · exact .inr ⟨a, read, window, second⟩

variable [TokenFeed σ]

theorem expect_not_tooDeep {wanted : TokenKind} {w : Window σ} {inner : wanted ≠ .eof} :
    ¬ TooDeep (expect wanted w inner) := by
  rintro ⟨window, failed⟩
  unfold expect at failed
  split at failed <;> cases failed

/-- The reader reaches the limit only in a window of more tokens. -/
def Spares (limit : Nat) (reader : Reader σ) : Prop :=
  ∀ {w : Window σ}, TooDeep (reader w) → limit < w.size

theorem chainFrom_spares {limit : Nat} {level : Level} {operand : Reader σ}
    (spares : Spares limit operand) {w : Window σ} {left : Reading w}
    (deep : TooDeep (chainFrom level operand left)) : limit < left.window.size := by
  -- by the recursion of the chain, whose window shrinks with every operand
  fun_induction chainFrom level operand left with
  | case1 left none =>
    obtain ⟨window, failed⟩ := deep
    contradiction
  | case2 left op found further ih =>
    rcases deep.of_bind with deep | ⟨right, -, deep⟩
    · exact Nat.lt_trans (spares deep) further
    · exact Nat.lt_trans (ih right deep) (Nat.lt_trans right.shorter further)

theorem chain_spares {limit : Nat} {level : Level} {operand : Reader σ}
    (spares : Spares limit operand) : Spares limit (chain level operand) := by
  intro w deep
  rcases deep.of_bind with deep | ⟨left, -, deep⟩
  · exact spares deep
  · exact Nat.lt_trans (chainFrom_spares spares deep) left.shorter

theorem operand_deep {nested : Option (Reader σ)} {w : Window σ}
    (deep : TooDeep (operand nested w)) :
    w.current.kind = .lparen ∧ ∀ inner ∈ nested, TooDeep (inner w.advance) := by
  unfold operand at deep
  split at deep
  case h_4 opens =>
    refine ⟨opens, ?_⟩
    rintro inner rfl
    rcases deep.of_bind with deep | ⟨body, -, deep⟩
    · exact deep
    rcases deep.of_bind with deep | ⟨closed, -, window, failed⟩
    · exact absurd deep expect_not_tooDeep
    · contradiction
  all_goals
    obtain ⟨window, failed⟩ := deep
    cases failed

theorem factor_spares (limit : Nat) : Spares (σ := σ) limit (factor limit) := by
  induction limit with
  | zero =>
    intro w deep
    obtain ⟨opens, -⟩ := operand_deep deep
    have := Window.advance_size (w := w) (by simp [opens])
    omega
  | succ limit ih =>
    intro w deep
    obtain ⟨opens, inside⟩ := operand_deep deep
    have := Window.advance_size (w := w) (by simp [opens])
    have := chain_spares (chain_spares ih) (inside _ rfl)
    omega

theorem expression_spares (limit : Nat) : Spares (σ := σ) limit (expression limit) :=
  chain_spares (chain_spares (factor_spares limit))

theorem statement_spares (limit : Nat) : Spares (σ := σ) limit (statement limit) := by
  intro w deep
  unfold statement at deep
  split at deep
  · next kind =>
    have named : w.advance.size < w.size := Window.advance_size (by simp [kind])
    rcases deep.of_bind with deep | ⟨opened, -, deep⟩
    · exact absurd deep expect_not_tooDeep
    rcases deep.of_bind with deep | ⟨argument, -, deep⟩
    · exact Nat.lt_trans (expression_spares limit deep) (Nat.lt_trans opened.property named)
    rcases deep.of_bind with deep | ⟨closed, -, window, failed⟩
    · exact absurd deep expect_not_tooDeep
    · contradiction
  · next kind =>
    split at deep
    · next assigns =>
      have named : w.advance.size < w.size := Window.advance_size (by simp [kind])
      have bound : w.advance.advance.size < w.advance.size :=
        Window.advance_size (by simp [Window.advance, assigns])
      rcases deep.of_bind with deep | ⟨value, -, window, failed⟩
      · exact Nat.lt_trans (expression_spares limit deep) (Nat.lt_trans bound named)
      · contradiction
    · obtain ⟨window, failed⟩ := deep
      cases failed
  · obtain ⟨window, failed⟩ := deep
    cases failed

theorem program_spares {limit : Nat} {w : Window σ} (deep : TooDeep (program limit w)) :
    limit < w.size := by
  fun_induction program limit w with
  | case1 w final =>
    obtain ⟨window, failed⟩ := deep
    contradiction
  | case2 w more ih =>
    have skipped := skipNewlines_size w
    rcases deep.of_bind with deep | ⟨first, -, deep⟩
    · exact Nat.lt_of_lt_of_le (statement_spares limit deep) skipped
    rcases deep.of_bind with deep | ⟨rest, -, window, failed⟩
    · exact Nat.lt_trans (ih first deep) (Nat.lt_of_lt_of_le first.shorter skipped)
    · contradiction

theorem program_within {limit : Nat} {feed : σ} (enough : TokenFeed.size feed ≤ limit) :
    ¬ TooDeep (program limit (Window.view feed)) := by
  intro deep
  have reached := program_spares deep
  have size := Window.size_view_le feed
  omega

end Grammar
end IntScript

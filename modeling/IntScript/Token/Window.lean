import IntScript.Token.Scanner

/-! A view of two tokens. Readers of a source see the current token and the one
after it, and move on by one. Tokens come from a feed, which is either a scanner
at work or a recorded list of tokens. -/
namespace IntScript

/-- A supply of tokens that runs dry: each token but the final one makes it smaller. -/
class TokenFeed (σ : Type) where
  next : σ → Token × σ
  size : σ → Nat
  size_next_le : ∀ s, size (next s).2 ≤ size s
  size_next_lt : ∀ s, (next s).1.kind ≠ .eof → size (next s).2 < size s

instance : TokenFeed Scanner where
  next := Scanner.next
  size s := s.rest.length
  size_next_le s := by
    rcases s.next_progress with ⟨_, empty⟩ | ⟨_, shorter⟩
    · simp [empty]
    · exact Nat.le_of_lt shorter
  size_next_lt s kind := (s.next_progress.resolve_left (fun h => kind h.1)).2

/-- A list of tokens, followed by the final token as often as asked. -/
structure Recorded where
  tokens : List Token
  last : Position
deriving DecidableEq

namespace Recorded

def next : Recorded → Token × Recorded
  | ⟨t :: ts, last⟩ => (t, ⟨ts, last⟩)
  | ⟨[], last⟩ => (.final last, ⟨[], last⟩)

instance : TokenFeed Recorded where
  next := next
  size r := r.tokens.length
  size_next_le r := by
    rcases r with ⟨_ | ⟨t, ts⟩, last⟩ <;> simp [next]
  size_next_lt r kind := by
    rcases r with ⟨_ | ⟨t, ts⟩, last⟩ <;> simp_all [next, Token.final]

end Recorded

structure Window (σ : Type) where
  current : Token
  peek : Token
  feed : σ
deriving DecidableEq

namespace Window
variable {σ : Type} [TokenFeed σ]

/-- The view of the first two tokens of a feed. -/
def view (feed : σ) : Window σ :=
  let first := TokenFeed.next feed
  let second := TokenFeed.next first.2
  ⟨first.1, second.1, second.2⟩

/-- The view one token further on. -/
def advance (w : Window σ) : Window σ :=
  let drawn := TokenFeed.next w.feed
  ⟨w.peek, drawn.1, drawn.2⟩

def weight (t : Token) : Nat := if t.kind = .eof then 0 else 1

/-- A bound on the number of tokens still to come, those in view included. -/
def size (w : Window σ) : Nat := TokenFeed.size w.feed + weight w.current + weight w.peek

theorem advance_size {w : Window σ} (more : w.current.kind ≠ .eof) : w.advance.size < w.size := by
  have here : weight w.current = 1 := if_neg more
  by_cases drawn : (TokenFeed.next w.feed).1.kind = .eof
  · have spent : weight (TokenFeed.next w.feed).1 = 0 := if_pos drawn
    have := TokenFeed.size_next_le w.feed
    simp only [size, advance, here, spent]
    omega
  · have fresh : weight (TokenFeed.next w.feed).1 = 1 := if_neg drawn
    have := TokenFeed.size_next_lt w.feed drawn
    simp only [size, advance, here, fresh]
    omega

end Window
end IntScript

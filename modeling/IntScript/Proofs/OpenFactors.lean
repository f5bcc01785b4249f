import IntScript.Proofs.Nesting
import IntScript.Proofs.Parsing
import IntScript.Proofs.ViablePrefix

/-! Reading within a limit on open factors, against the number that the tokens open. What a
reader returns stands in tokens that stay within the limit, and it runs into the limit only where
the tokens go beyond it. -/
namespace IntScript

namespace Window
variable {σ : Type} [TokenFeed σ] {w v target : Window σ} {limit : Nat}

/-- Between the windows all that opens is closed, with at most `limit` factors open at once. -/
def Balances (limit : Nat) (w v : Window σ) : Prop :=
  ∃ tokens depth, w.Passes tokens v ∧ Nests (tokens.map Token.kind) depth ∧ depth ≤ limit

/-- Further on, more than `limit` factors are open besides those open at the window. -/
def Overruns (limit : Nat) (w : Window σ) : Prop :=
  ∃ tokens v, w.Passes tokens v ∧
    ∀ n : Nesting, n.keyword = false → n.factors + limit < n.most (tokens.map Token.kind)

namespace Balances

theorem trans (front : Balances limit w v) (back : Balances limit v target) :
    Balances limit w target := by
  obtain ⟨first, depth, passed, nests, low⟩ := front
  obtain ⟨second, depth', passed', nests', low'⟩ := back
  exact ⟨first ++ second, max depth depth', passed.trans passed', nests.beside nests', by omega⟩

theorem advance (flat : w.current.kind.isFlat) (more : w.current.kind ≠ .eof) :
    Balances limit w w.advance :=
  ⟨[w.current], 0, passes_current more, Nests.nil.cons flat, Nat.zero_le _⟩

theorem enclosed (inside : Balances limit w.advance v) (opens : w.current.kind = .lparen)
    (closes : v.current.kind = .rparen) : Balances (limit + 1) w v.advance := by
  obtain ⟨tokens, depth, passed, nests, low⟩ := inside
  have behind : v.Passes [v.current] v.advance := passes_current (by simp [closes])
  exact ⟨w.current :: (tokens ++ [v.current]), depth + 1,
    ⟨rfl, by simp [opens], passed.trans behind⟩, nests.parenthesised opens closes, by omega⟩

theorem printed (inside : Balances limit w.advance.advance v) (kind : w.current.kind = .print)
    (opens : w.peek.kind = .lparen) (closes : v.current.kind = .rparen) :
    Balances limit w v.advance := by
  obtain ⟨tokens, depth, passed, nests, low⟩ := inside
  have behind : v.Passes [v.current] v.advance := passes_current (by simp [closes])
  exact ⟨w.current :: w.peek :: (tokens ++ [v.current]), depth,
    ⟨rfl, by simp [kind], rfl, by simp [opens], passed.trans behind⟩,
    nests.print kind opens closes, low⟩

theorem skipNewlines (w : Window σ) : Balances limit w (Grammar.skipNewlines w) := by
  obtain ⟨newlines, blank, passed⟩ := Grammar.skipNewlines_passes w
  exact ⟨newlines, 0, passed, blank.nests, Nat.zero_le _⟩

end Balances

namespace Overruns

theorem behind {limit' : Nat} (front : Balances limit' w v) (beyond : Overruns limit v) :
    Overruns limit w := by
  obtain ⟨first, depth, passed, nests, -⟩ := front
  obtain ⟨second, target, passed', more⟩ := beyond
  refine ⟨first ++ second, target, passed.trans passed', fun n outside => ?_⟩
  have reached := more n outside
  rw [List.map_append, Nesting.most_append, nests.closes n outside]
  omega

theorem lparen (opens : w.current.kind = .lparen) : Overruns 0 w := by
  refine ⟨[w.current], w.advance, passes_current (by simp [opens]), fun n outside => ?_⟩
  rw [List.map_singleton, opens, Nesting.most, Nesting.step_lparen outside, Nesting.most,
    Nesting.factors_opened, if_pos rfl]
  omega

theorem enclosed (inside : Overruns limit w.advance) (opens : w.current.kind = .lparen) :
    Overruns (limit + 1) w := by
  obtain ⟨tokens, target, passed, more⟩ := inside
  refine ⟨w.current :: tokens, target, ⟨rfl, by simp [opens], passed⟩, fun n outside => ?_⟩
  have reached := more (n.opened true) rfl
  rw [Nesting.factors_opened, if_pos rfl] at reached
  rw [List.map_cons, opens, Nesting.most, Nesting.step_lparen outside]
  omega

theorem printed (inside : Overruns limit w.advance.advance) (kind : w.current.kind = .print)
    (opens : w.peek.kind = .lparen) : Overruns limit w := by
  obtain ⟨tokens, target, passed, more⟩ := inside
  refine ⟨w.current :: w.peek :: tokens, target,
    ⟨rfl, by simp [kind], rfl, by simp [opens], passed⟩, fun n outside => ?_⟩
  have reached := more (n.opened false) rfl
  rw [Nesting.factors_opened, if_neg Bool.false_ne_true] at reached
  rw [List.map_cons, List.map_cons, kind, opens, Nesting.most, Nesting.most,
    Nesting.step_print_lparen]
  omega

end Overruns
end Window

namespace Grammar
variable {σ : Type} [TokenFeed σ] {limit : Nat}

/-- A reader stays within the limit, and stops at it only where the tokens go beyond. -/
structure Bounded (limit : Nat) (reader : Reader σ) : Prop where
  within : ∀ {w : Window σ} {r : Reading w}, reader w = .ok r → w.Balances limit r.window
  beyond : ∀ {w : Window σ}, TooDeep (reader w) → w.Overruns limit

theorem chainFrom_within {level : Level} {operand : Reader σ} (bounded : Bounded limit operand)
    {w : Window σ} {left r : Reading w} (before : w.Balances limit left.window)
    (read : chainFrom level operand left = .ok r) : w.Balances limit r.window := by
  fun_induction chainFrom level operand left with
  | case1 left none =>
    cases read
    exact before
  | case2 left op found further ih =>
    obtain ⟨right, readRight, rest⟩ := bind_returns read
    have flat := Level.isFlat (Level.joins_iff.mpr found)
    have sign := before.trans (.advance flat (Level.ne_eof found))
    exact ih right (sign.trans (bounded.within readRight)) rest

theorem chainFrom_beyond {level : Level} {operand : Reader σ} (bounded : Bounded limit operand)
    {w : Window σ} {left : Reading w} (before : w.Balances limit left.window)
    (deep : TooDeep (chainFrom level operand left)) : w.Overruns limit := by
  fun_induction chainFrom level operand left with
  | case1 left none =>
    obtain ⟨window, failed⟩ := deep
    contradiction
  | case2 left op found further ih =>
    have flat := Level.isFlat (Level.joins_iff.mpr found)
    have sign := before.trans (.advance flat (Level.ne_eof found))
    rcases deep.of_bind with deep | ⟨right, readRight, deep⟩
    · exact (bounded.beyond deep).behind sign
    · exact ih right (sign.trans (bounded.within readRight)) deep

theorem chain_bounded {level : Level} {operand : Reader σ} (bounded : Bounded limit operand) :
    Bounded limit (chain level operand) where
  within read := by
    obtain ⟨left, readLeft, rest⟩ := bind_returns read
    exact chainFrom_within bounded (bounded.within readLeft) rest
  beyond deep := by
    rcases deep.of_bind with deep | ⟨left, readLeft, deep⟩
    · exact bounded.beyond deep
    · exact chainFrom_beyond bounded (bounded.within readLeft) deep

theorem wrapped_returns {w inside : Window σ} {further : inside.size < w.size} {wrap : Node → Node}
    {outcome : Except (Halt σ) (Reading inside)} {r : Reading w}
    (read : wrapped further wrap outcome = .ok r) :
    ∃ part, outcome = .ok part ∧ r.window = part.window := by
  cases outcome with
  | error halt => contradiction
  | ok part =>
    cases read
    exact ⟨part, rfl, rfl⟩

theorem TooDeep.of_wrapped {w inside : Window σ} {further : inside.size < w.size}
    {wrap : Node → Node} {outcome : Except (Halt σ) (Reading inside)}
    (deep : TooDeep (wrapped further wrap outcome)) : TooDeep outcome := by
  obtain ⟨window, failed⟩ := deep
  exact ⟨window, wrapped_fails failed⟩

theorem closed_returns {inner : Reader σ} {w : Window σ} {r : Reading w}
    (read : closed inner w = .ok r) :
    ∃ body, inner w = .ok body ∧ body.window.current.kind = .rparen ∧
      r.window = body.window.advance := by
  cases outcome : inner w with
  | error halt =>
    rw [closed_of_error outcome] at read
    contradiction
  | ok body =>
    by_cases closes : body.window.current.kind = .rparen
    · obtain ⟨shorter, read'⟩ := closed_of_rparen outcome closes
      cases read'.symm.trans read
      exact ⟨body, rfl, closes, rfl⟩
    · rw [closed_of_other outcome closes] at read
      contradiction

theorem TooDeep.of_closed {inner : Reader σ} {w : Window σ} (deep : TooDeep (closed inner w)) :
    TooDeep (inner w) := by
  rcases deep.of_bind with deep | ⟨body, -, deep⟩
  · exact deep
  rcases deep.of_bind with deep | ⟨behind, -, window, failed⟩
  · exact absurd deep expect_not_tooDeep
  · contradiction

theorem isFlat_of_literal {kind : TokenKind} (literal : isLiteral kind) :
    kind.isFlat ∧ kind ≠ .eof := by
  cases kind <;> first | contradiction | decide

/-- A factor is a token alone, or it stands in parentheses. -/
theorem operand_returns {nested : Option (Reader σ)} {w : Window σ} {r : Reading w}
    (read : operand nested w = .ok r) :
    isLiteral w.current.kind ∧ r.window = w.advance ∨
      ∃ inner body, nested = some inner ∧ w.current.kind = .lparen ∧
        inner w.advance = .ok body ∧ body.window.current.kind = .rparen ∧
        r.window = body.window.advance := by
  cases literal : isLiteral w.current.kind with
  | true =>
    obtain ⟨node, shorter, read'⟩ := operand_of_literal nested literal
    cases read'.symm.trans read
    exact .inl ⟨rfl, rfl⟩
  | false =>
    by_cases opens : w.current.kind = .lparen
    · cases nested with
      | none =>
        rw [operand_of_deep opens] at read
        contradiction
      | some inner =>
        obtain ⟨further, read'⟩ := operand_of_lparen inner opens
        obtain ⟨part, readPart, same⟩ := wrapped_returns (read'.symm.trans read)
        obtain ⟨body, readBody, closes, same'⟩ := closed_returns readPart
        exact .inr ⟨inner, body, rfl, opens, readBody, closes, same.trans same'⟩
    · rw [operand_of_other literal opens] at read
      contradiction

theorem literal_within {w : Window σ} (literal : isLiteral w.current.kind) :
    w.Balances limit w.advance := by
  obtain ⟨flat, more⟩ := isFlat_of_literal literal
  exact .advance flat more

theorem factor_bounded (limit : Nat) : Bounded (σ := σ) limit (factor limit) := by
  induction limit with
  | zero =>
    constructor
    · intro w r read
      rcases operand_returns read with ⟨literal, same⟩ | ⟨inner, body, nested, -⟩
      · exact same ▸ literal_within literal
      · contradiction
    · intro w deep
      exact .lparen (operand_deep deep).1
  | succ limit ih =>
    have inside : Bounded (σ := σ) limit (expression limit) := chain_bounded (chain_bounded ih)
    constructor
    · intro w r read
      rcases operand_returns read with
        ⟨literal, same⟩ | ⟨inner, body, nested, opens, readBody, closes, same⟩
      · exact same ▸ literal_within literal
      · cases nested
        exact same ▸ (inside.within readBody).enclosed opens closes
    · intro w deep
      obtain ⟨opens, deeper⟩ := operand_deep deep
      exact (inside.beyond (deeper _ rfl)).enclosed opens

theorem expression_bounded (limit : Nat) : Bounded (σ := σ) limit (expression limit) :=
  chain_bounded (chain_bounded (factor_bounded limit))

theorem assignment_front {w : Window σ} (kind : w.current.kind = .identifier)
    (assigns : w.peek.kind = .assign) : w.Balances limit w.advance.advance := by
  have named : w.Balances limit w.advance := .advance (by rw [kind]; rfl) (by simp [kind])
  have sign : w.advance.current.kind = .assign := assigns
  exact named.trans (.advance (by rw [sign]; rfl) (by simp [sign]))

/-- A statement is a print with its parentheses, or a name with its sign and value. -/
theorem statement_parts {w : Window σ} {r : Reading w} (read : statement limit w = .ok r) :
    (w.current.kind = .print ∧ w.peek.kind = .lparen ∧
      ∃ body, expression limit w.advance.advance = .ok body ∧
        body.window.current.kind = .rparen ∧ r.window = body.window.advance) ∨
    (w.current.kind = .identifier ∧ w.peek.kind = .assign ∧
      ∃ value, expression limit w.advance.advance = .ok value ∧ r.window = value.window) := by
  by_cases starts : Starts w
  · rcases starts with kind | ⟨kind, assigns⟩
    · by_cases opens : w.peek.kind = .lparen
      · obtain ⟨further, read'⟩ := statement_of_print limit kind opens
        obtain ⟨part, readPart, same⟩ := wrapped_returns (read'.symm.trans read)
        obtain ⟨body, readBody, closes, same'⟩ := closed_returns readPart
        exact .inl ⟨kind, opens, body, readBody, closes, same.trans same'⟩
      · rw [statement_of_unopened kind opens] at read
        contradiction
    · obtain ⟨further, read'⟩ := statement_of_assignment limit kind assigns
      obtain ⟨value, readValue, same⟩ := wrapped_returns (read'.symm.trans read)
      exact .inr ⟨kind, assigns, value, readValue, same⟩
  · rw [statement_of_other starts] at read
    contradiction

/-- A statement runs into the limit in its expression alone. -/
theorem statement_deep {w : Window σ} (deep : TooDeep (statement limit w)) :
    TooDeep (expression limit w.advance.advance) ∧
      (w.current.kind = .print ∧ w.peek.kind = .lparen ∨
        w.current.kind = .identifier ∧ w.peek.kind = .assign) := by
  by_cases starts : Starts w
  · rcases starts with kind | ⟨kind, assigns⟩
    · by_cases opens : w.peek.kind = .lparen
      · obtain ⟨further, read⟩ := statement_of_print limit kind opens
        rw [read] at deep
        exact ⟨deep.of_wrapped.of_closed, .inl ⟨kind, opens⟩⟩
      · rw [statement_of_unopened kind opens] at deep
        obtain ⟨window, failed⟩ := deep
        cases failed
    · obtain ⟨further, read⟩ := statement_of_assignment limit kind assigns
      rw [read] at deep
      exact ⟨deep.of_wrapped, .inr ⟨kind, assigns⟩⟩
  · rw [statement_of_other starts] at deep
    obtain ⟨window, failed⟩ := deep
    cases failed

theorem statement_bounded (limit : Nat) : Bounded (σ := σ) limit (statement limit) := by
  have inside := expression_bounded (σ := σ) limit
  constructor
  · intro w r read
    rcases statement_parts read with
      ⟨kind, opens, body, readBody, closes, same⟩ | ⟨kind, assigns, value, readValue, same⟩
    · exact same ▸ (inside.within readBody).printed kind opens closes
    · exact same ▸ (assignment_front kind assigns).trans (inside.within readValue)
  · intro w deep
    obtain ⟨deeper, ⟨kind, opens⟩ | ⟨kind, assigns⟩⟩ := statement_deep deep
    · exact (inside.beyond deeper).printed kind opens
    · have front : w.Balances limit w.advance.advance := assignment_front kind assigns
      exact (inside.beyond deeper).behind front

theorem program_balances {w after : Window σ} {nodes : List Node}
    (read : program limit w = .ok (nodes, after)) : w.Balances limit after := by
  fun_induction program limit w generalizing nodes after with
  | case1 w final =>
    cases read
    exact .skipNewlines w
  | case2 w more ih =>
    obtain ⟨first, readFirst, rest⟩ := bind_returns read
    obtain ⟨⟨others, target⟩, readOthers, last⟩ := bind_returns rest
    cases last
    have newlines : w.Balances limit (skipNewlines w) := .skipNewlines w
    have front := newlines.trans ((statement_bounded limit).within readFirst)
    exact front.trans (ih first readOthers)

theorem program_overruns {w : Window σ} (deep : TooDeep (program limit w)) :
    w.Overruns limit := by
  fun_induction program limit w with
  | case1 w final =>
    obtain ⟨window, failed⟩ := deep
    contradiction
  | case2 w more ih =>
    have newlines : w.Balances limit (skipNewlines w) := .skipNewlines w
    rcases deep.of_bind with deep | ⟨first, readFirst, deep⟩
    · exact ((statement_bounded limit).beyond deep).behind newlines
    rcases deep.of_bind with deep | ⟨rest, -, window, failed⟩
    · exact (ih first deep).behind (newlines.trans ((statement_bounded limit).within readFirst))
    · contradiction

end Grammar

/-- The limit is run into only where more factors are open at once. -/
theorem mostOpen_of_tooDeep {limit : Nat} {source : String}
    (deep : (parse limit source).program = .error .tooDeep) :
    limit < mostOpen (Scanner.start source).tokens := by
  unfold parse at deep
  split at deep
  · contradiction
  · next halt outcome =>
    obtain ⟨failure, window⟩ := halt
    obtain rfl : failure = .tooDeep := Except.error.inj deep
    obtain ⟨front, v, passed, more⟩ := Grammar.program_overruns ⟨window, outcome⟩
    obtain ⟨target, whole, final, -⟩ := (Scanner.start source).view_passes
    obtain ⟨rest, split, -⟩ := passed.split whole final
    have reached : 0 + limit < mostOpen front := more .start rfl
    rw [Scanner.tokens_eq, split, List.append_assoc]
    have := mostOpen_le_append front (rest ++ [.final (Scanner.start source).finish])
    omega

/-- A program is read only where no more factors than the limit are open at once. -/
theorem mostOpen_of_parse {limit : Nat} {source : String} {nodes : List Node}
    (returned : (parse limit source).program = .ok nodes) :
    mostOpen (Scanner.start source).tokens ≤ limit := by
  unfold parse at returned
  split at returned
  · next read after outcome =>
    obtain ⟨tokens, depth, passed, nests, low⟩ := Grammar.program_balances outcome
    obtain ⟨-, -, final, -⟩ := Grammar.program_sound outcome
    obtain ⟨target, whole, final', -⟩ := (Scanner.start source).view_passes
    obtain ⟨rfl, -⟩ := passed.unique final whole final'
    have last : Nests ([Token.final (Scanner.start source).finish].map Token.kind) 0 :=
      .of_flat (by simp [Token.final, TokenKind.isFlat])
    rw [Scanner.tokens_eq, (nests.beside last).mostOpen_eq]
    omega
  · contradiction

/-- A statement that was read stands in tokens that nest no deeper than the source. -/
theorem statement_of_parse {limit : Nat} {source : String} {nodes : List Node}
    (returned : (parse limit source).program = .ok nodes) {node : Node} (member : node ∈ nodes) :
    ∃ own, Derivation.Statement own node ∧
      mostOpen own ≤ mostOpen (Scanner.start source).tokens := by
  obtain ⟨own, derived, less⟩ := (program_of_parse returned).mostOpen_of_mem member
  have front := mostOpen_le_append (Scanner.start source).upcoming
    [.final (Scanner.start source).finish]
  rw [Scanner.tokens_eq]
  exact ⟨own, derived, Nat.le_trans less front⟩

end IntScript

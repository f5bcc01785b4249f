import IntScript.Proofs.NestingLimit

/-! Tokens that derive a tree are read as that tree, unless the limit on open
parentheses cuts the reading short. Where a phrase ends is decided by the token
behind it: in a derivation that token cannot go on with the phrase. -/
namespace IntScript.Grammar
open IntScript.Derivation (Expression Statement Statements Program)
variable {σ : Type} [TokenFeed σ]

def reader (limit : Nat) : Phrase → Reader σ
  | .factor => factor limit
  | .chain .product => term limit
  | .chain .sum => expression limit

theorem reader_chain (limit : Nat) (level : Level) :
    reader (σ := σ) limit (.chain level) = chain level (reader limit level.operand) := by
  cases level <;> rfl

/-- A token of this kind cannot go on with the phrase. -/
def Ends : Phrase → TokenKind → Prop
  | .factor, _ => True
  | .chain .product, kind => Level.product.operator? kind = none
  | .chain .sum, kind => Level.sum.operator? kind = none ∧ Level.product.operator? kind = none

theorem ends_chain {level : Level} {kind : TokenKind} :
    Ends (.chain level) kind ↔ level.operator? kind = none ∧ Ends level.operand kind := by
  cases level <;> simp [Ends, Level.operand]

theorem ends_operand_of_operator {level : Level} {kind : TokenKind} {op : Operator}
    (found : level.operator? kind = some op) : Ends level.operand kind := by
  cases level with
  | product => trivial
  | sum => cases kind <;> simp_all [Level.operator?, Ends, Level.operand]

/-- A reader returns the tree and stops at `target`, unless the limit is reached. -/
def Returns {w : Window σ} (outcome : Except (Halt σ) (Reading w)) (node : Node)
    (target : Window σ) : Prop :=
  TooDeep outcome ∨ ∃ shorter, outcome = .ok ⟨node, target, shorter⟩

/-- The reader of a chain has the tree and is about to look for an operator at
`target`, unless the limit is reached. -/
def Gets (limit : Nat) (level : Level) (w : Window σ) (node : Node) (target : Window σ) : Prop :=
  TooDeep (reader limit (.chain level) w) ∨ ∃ shorter,
    reader limit (.chain level) w =
      chainFrom level (reader limit level.operand) ⟨node, target, shorter⟩

theorem chainFrom_of_none {level : Level} {operand : Reader σ} {w : Window σ} {left : Reading w}
    (none : level.operator? left.window.current.kind = none) :
    chainFrom level operand left = .ok left := by
  rw [chainFrom]
  split
  · rfl
  · simp_all

theorem chainFrom_of_some {level : Level} {operand : Reader σ} {w : Window σ} (left : Reading w)
    {op : Operator} (found : level.operator? left.window.current.kind = some op) :
    chainFrom level operand left = operand left.window.advance >>= fun right =>
      chainFrom level operand
        ⟨.binary op left.node right.node (.ofPosition left.window.current.position), right.window,
          Nat.lt_trans (Nat.lt_trans right.shorter (Window.advance_size (Level.ne_eof found)))
            left.shorter⟩ := by
  rw [chainFrom]
  split
  · simp_all
  · next op' found' =>
    obtain rfl := Option.some.inj (found.symm.trans found')
    rfl

theorem returns_of_gets {limit : Nat} {level : Level} {w target : Window σ} {node : Node}
    (gets : Gets limit level w node target)
    (stops : level.operator? target.current.kind = none) :
    Returns (reader limit (.chain level) w) node target := by
  rcases gets with deep | ⟨shorter, read⟩
  · exact .inl deep
  · exact .inr ⟨shorter, by rw [read, chainFrom_of_none stops]⟩

theorem gets_of_operand {limit : Nat} {level : Level} {w target : Window σ} {node : Node}
    (returns : Returns (reader limit level.operand w) node target) :
    Gets limit level w node target := by
  rw [Gets, reader_chain]
  rcases returns with deep | ⟨shorter, read⟩
  · exact .inl (deep.bind _)
  · exact .inr ⟨shorter, by simp only [chain, read]; rfl⟩

theorem gets_of_join {limit : Nat} {level : Level} {op : Operator} {w middle target : Window σ}
    {left right : Node} (gets : Gets limit level w left middle)
    (found : level.operator? middle.current.kind = some op)
    (returns : Returns (reader limit level.operand middle.advance) right target) :
    Gets limit level w (.binary op left right (.ofPosition middle.current.position)) target := by
  rcases gets with deep | ⟨shorter, read⟩
  · exact .inl deep
  rw [Gets, read, chainFrom_of_some ⟨left, middle, shorter⟩ found]
  rcases returns with deep | ⟨shorter', readRight⟩
  · exact .inl (deep.bind _)
  · refine .inr ⟨Nat.lt_trans
      (Nat.lt_trans shorter' (Window.advance_size (Level.ne_eof found))) shorter, ?_⟩
    simp only [readRight]
    rfl

/-- What is known of reading a phrase before the token behind it has been looked at. -/
def Reaches (limit : Nat) (phrase : Phrase) (w : Window σ) (node : Node) (target : Window σ) :
    Prop :=
  match phrase with
  | .factor => Returns (factor limit w) node target
  | .chain level => Ends level.operand target.current.kind → Gets limit level w node target

theorem returns_of_reaches {limit : Nat} {phrase : Phrase} {w target : Window σ} {node : Node}
    (reaches : Reaches limit phrase w node target) (ends : Ends phrase target.current.kind) :
    Returns (reader limit phrase w) node target := by
  cases phrase with
  | factor => exact reaches
  | chain level =>
    obtain ⟨stops, inside⟩ := ends_chain.mp ends
    exact returns_of_gets (reaches inside) stops

theorem factor_eq_operand (limit : Nat) : ∃ nested, factor (σ := σ) limit = operand nested := by
  cases limit with
  | zero => exact ⟨_, rfl⟩
  | succ limit => exact ⟨_, rfl⟩

theorem operand_number {nested : Option (Reader σ)} {w : Window σ}
    (kind : w.current.kind = .number) :
    Returns (operand nested w)
      (.number (Nat.ofDigitChars 10 w.current.lexeme.toList 0) (.ofPosition w.current.position))
      w.advance := by
  refine .inr ⟨Window.advance_size (by simp [kind]), ?_⟩
  unfold operand
  split
  · rfl
  all_goals grind

theorem operand_string {nested : Option (Reader σ)} {w : Window σ}
    (kind : w.current.kind = .string) :
    Returns (operand nested w)
      (.string (String.ofList (w.current.lexeme.toList.drop 1).dropLast)
        (.ofPosition w.current.position)) w.advance := by
  refine .inr ⟨Window.advance_size (by simp [kind]), ?_⟩
  unfold operand
  split
  case h_2 => rfl
  all_goals grind

theorem operand_reference {nested : Option (Reader σ)} {w : Window σ}
    (kind : w.current.kind = .identifier) :
    Returns (operand nested w) (.reference w.current.lexeme (.ofPosition w.current.position))
      w.advance := by
  refine .inr ⟨Window.advance_size (by simp [kind]), ?_⟩
  unfold operand
  split
  case h_3 => rfl
  all_goals grind

theorem expect_of_kind {wanted : TokenKind} {w : Window σ} (inner : wanted ≠ .eof)
    (found : w.current.kind = wanted) :
    ∃ shorter, expect wanted w inner = .ok ⟨w.advance, shorter⟩ :=
  ⟨Window.advance_size (found ▸ inner), dif_pos found⟩

theorem operand_none {w : Window σ} (opens : w.current.kind = .lparen) :
    TooDeep (operand none w) := by
  refine ⟨w, ?_⟩
  unfold operand
  split
  case h_4 => rfl
  all_goals grind

theorem operand_parenthesised {inner : Reader σ} {w middle : Window σ} {node : Node}
    (opens : w.current.kind = .lparen) (returns : Returns (inner w.advance) node middle)
    (closes : middle.current.kind = .rparen) :
    Returns (operand (some inner) w) node middle.advance := by
  unfold operand
  split
  case h_4 =>
    rcases returns with deep | ⟨shorter, read⟩
    · exact .inl (deep.bind _)
    · obtain ⟨less, readClosed⟩ := expect_of_kind (by decide) closes
      have opened : w.advance.size < w.size := Window.advance_size (by simp [opens])
      refine .inr ⟨Nat.lt_trans less (Nat.lt_trans shorter opened), ?_⟩
      simp only [read, readClosed, bind, Except.bind]
  all_goals grind

-- By induction on the derivation. A chain is followed up to the token behind it and no
-- further, because in a longer derivation that token may be its next operator.
theorem reaches_of_derives {phrase : Phrase} {tokens : List Token} {node : Node}
    (derived : Expression phrase tokens node) (limit : Nat) {w target : Window σ}
    (passed : w.Passes tokens target) : Reaches limit phrase w node target := by
  induction derived generalizing limit w target with
  | number kind =>
    obtain ⟨rfl, -, rfl⟩ := passed
    obtain ⟨nested, same⟩ := factor_eq_operand (σ := σ) limit
    rw [Reaches, same]
    exact operand_number kind
  | string kind =>
    obtain ⟨rfl, -, rfl⟩ := passed
    obtain ⟨nested, same⟩ := factor_eq_operand (σ := σ) limit
    rw [Reaches, same]
    exact operand_string kind
  | reference kind =>
    obtain ⟨rfl, -, rfl⟩ := passed
    obtain ⟨nested, same⟩ := factor_eq_operand (σ := σ) limit
    rw [Reaches, same]
    exact operand_reference kind
  | parenthesised opens _ closes ih =>
    obtain ⟨rfl, -, inside⟩ := passed
    obtain ⟨middle, passedBody, rfl, -, rfl⟩ := Window.passes_append.mp inside
    cases limit with
    | zero => exact .inl (operand_none opens)
    | succ limit =>
      have ends : Ends .expression middle.current.kind := by simp [closes, Ends, Level.operator?]
      exact operand_parenthesised opens (returns_of_reaches (ih limit passedBody) ends) closes
  | single _ ih =>
    intro ends
    exact gets_of_operand (returns_of_reaches (ih limit passed) ends)
  | join _ found _ ihLeft ihRight =>
    intro ends
    obtain ⟨middle, before, rfl, -, behind⟩ := Window.passes_append.mp passed
    have operator := Level.joins_iff.mp found
    -- the operator is of this level, so the operand on its left goes no further
    exact gets_of_join (ihLeft limit before (ends_operand_of_operator operator)) operator
      (returns_of_reaches (ihRight limit behind) ends)

theorem expression_returns {tokens : List Token} {node : Node}
    (derived : Expression .expression tokens node) (limit : Nat) {w target : Window σ}
    (passed : w.Passes tokens target) (ends : Ends .expression target.current.kind) :
    Returns (expression limit w) node target :=
  returns_of_reaches (reaches_of_derives derived limit passed) ends

theorem statement_returns {tokens : List Token} {node : Node} (derived : Statement tokens node)
    (limit : Nat) {w target : Window σ} (passed : w.Passes tokens target)
    (ends : Ends .expression target.current.kind) : Returns (statement limit w) node target := by
  cases derived with
  | print kind opens body closes =>
    obtain ⟨rfl, -, rfl, -, inside⟩ := passed
    obtain ⟨middle, passedBody, rfl, -, rfl⟩ := Window.passes_append.mp inside
    have stops : Ends .expression middle.current.kind := by simp [closes, Ends, Level.operator?]
    have named : w.advance.size < w.size := Window.advance_size (by simp [kind])
    obtain ⟨less, readOpened⟩ := expect_of_kind (by decide) opens
    obtain ⟨less', readClosed⟩ := expect_of_kind (by decide) closes
    unfold statement
    split
    case h_1 =>
      rcases expression_returns body limit passedBody stops with deep | ⟨shorter, read⟩
      · simp only [readOpened]
        exact .inl (deep.bind _)
      · refine .inr ⟨Nat.lt_trans less' (Nat.lt_trans shorter (Nat.lt_trans less named)), ?_⟩
        simp only [readOpened, read, readClosed, bind, Except.bind]
    all_goals grind
  | assignment kind assigns body =>
    obtain ⟨rfl, -, rfl, -, passedBody⟩ := passed
    have named : w.advance.size < w.size := Window.advance_size (by simp [kind])
    have bound : w.advance.advance.size < w.advance.size :=
      Window.advance_size (by simp [assigns])
    have sign : w.peek.kind = .assign := assigns
    unfold statement
    split
    case h_2 =>
      rw [dif_pos sign]
      rcases expression_returns body limit passedBody ends with deep | ⟨shorter, read⟩
      · exact .inl (deep.bind _)
      · refine .inr ⟨Nat.lt_trans shorter (Nat.lt_trans bound named), ?_⟩
        simp only [read, bind, Except.bind]
    all_goals grind

theorem skipNewlines_eq {w target : Window σ} {newlines : List Token}
    (blank : Derivation.Newlines newlines) (passed : w.Passes newlines target)
    (stops : target.current.kind ≠ .newline) : skipNewlines w = target := by
  induction newlines generalizing w with
  | nil =>
    obtain rfl : target = w := passed
    rw [skipNewlines, dif_neg stops]
  | cons t newlines ih =>
    obtain ⟨rfl, -, rest⟩ := passed
    have found : w.current.kind = .newline := blank _ List.mem_cons_self
    rw [skipNewlines, dif_pos found]
    exact ih (fun t member => blank t (List.mem_cons_of_mem _ member)) rest

theorem statement_starts {tokens : List Token} {node : Node} (derived : Statement tokens node)
    {w target : Window σ} (passed : w.Passes tokens target) :
    w.current.kind = .print ∨ w.current.kind = .identifier := by
  cases derived with
  | print kind =>
    obtain ⟨rfl, -⟩ := passed
    exact .inl kind
  | assignment kind =>
    obtain ⟨rfl, -⟩ := passed
    exact .inr kind

/-- What stands behind a statement cannot go on with its expression. -/
theorem ends_behind {newlines rest : List Token} {nodes : List Node} {w target : Window σ}
    (blank : Derivation.Newlines newlines) (others : Statements rest nodes)
    (passed : w.Passes (newlines ++ rest) target) (final : target.current.kind = .eof) :
    Ends .expression w.current.kind := by
  cases newlines with
  | cons t newlines =>
    obtain ⟨rfl, -⟩ := passed
    have found : w.current.kind = .newline := blank _ List.mem_cons_self
    simp [found, Ends, Level.operator?]
  | nil =>
    cases others with
    | none =>
      obtain rfl : target = w := passed
      simp [final, Ends, Level.operator?]
    | more statement =>
      rw [List.nil_append] at passed
      obtain ⟨middle, front, -⟩ := Window.passes_append.mp passed
      rcases statement_starts statement front with kind | kind <;>
        simp [kind, Ends, Level.operator?]

theorem program_of_final {limit : Nat} {w : Window σ}
    (final : (skipNewlines w).current.kind = .eof) :
    program limit w = .ok ([], skipNewlines w) := by
  rw [program, if_pos final]

theorem program_of_more {limit : Nat} {w : Window σ}
    (more : (skipNewlines w).current.kind ≠ .eof) :
    program limit w = statement limit (skipNewlines w) >>= fun first =>
      program limit first.window >>= fun rest => .ok (first.node :: rest.1, rest.2) := by
  rw [program, if_neg more]

theorem statements_return {rest : List Token} {nodes : List Node} (derived : Statements rest nodes)
    (limit : Nat) {newlines : List Token} (blank : Derivation.Newlines newlines)
    {w target : Window σ} (passed : w.Passes (newlines ++ rest) target)
    (final : target.current.kind = .eof) :
    TooDeep (program limit w) ∨ program limit w = .ok (nodes, target) := by
  induction derived generalizing newlines w with
  | none =>
    have skipped : skipNewlines w = target :=
      skipNewlines_eq blank (by simpa using passed) (by simp [final])
    right
    rw [program_of_final (skipped ▸ final), skipped]
  | more statement blank' others ih =>
    obtain ⟨start, passedNewlines, front⟩ := Window.passes_append.mp passed
    obtain ⟨middle, passedFirst, behind⟩ := Window.passes_append.mp front
    have starts := statement_starts statement passedFirst
    have skipped : skipNewlines w = start :=
      skipNewlines_eq blank passedNewlines (by rcases starts with kind | kind <;> simp [kind])
    rw [program_of_more (by rw [skipped]; rcases starts with kind | kind <;> simp [kind]), skipped]
    -- with no separator needed, only the token behind a statement tells that it has ended
    rcases statement_returns statement limit passedFirst (ends_behind blank' others behind final)
      with deep | ⟨shorter, read⟩
    · exact .inl (deep.bind _)
    · simp only [read]
      rcases ih blank' behind with deep | readRest
      · exact .inl (deep.bind _)
      · right
        simp only [bind, Except.bind, readRest]

theorem program_returns {tokens : List Token} {nodes : List Node} (derived : Program tokens nodes)
    (limit : Nat) {w target : Window σ} (passed : w.Passes tokens target)
    (final : target.current.kind = .eof) :
    TooDeep (program limit w) ∨ program limit w = .ok (nodes, target) := by
  obtain ⟨newlines, rest, rfl, blank, statements⟩ := derived
  exact statements_return statements limit blank passed final

end IntScript.Grammar

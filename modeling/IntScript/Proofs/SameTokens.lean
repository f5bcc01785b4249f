import IntScript.Proofs.Lookahead

/-! What is read depends on the tokens alone. Windows that show the same tokens from here on, with
feeds of whatever kinds behind them, are read alike: they give the same tree or the same error, and
where the readers stop the windows again show the same tokens. -/
namespace IntScript

namespace Window
variable {σ τ : Type} [TokenFeed σ] [TokenFeed τ]

/-- The view a number of tokens further on. -/
def onward (w : Window σ) : Nat → Window σ
  | 0 => w
  | count + 1 => (w.onward count).advance

theorem onward_advance (w : Window σ) (count : Nat) :
    w.advance.onward count = w.onward (count + 1) := by
  induction count with
  | zero => rfl
  | succ count ih => exact congrArg advance ih

theorem Passes.eq_onward {w v : Window σ} {tokens : List Token} (passed : w.Passes tokens v) :
    v = w.onward tokens.length := by
  induction tokens generalizing w with
  | nil => exact passed
  | cons t tokens ih =>
    obtain ⟨-, -, passed⟩ := passed
    rw [ih passed, onward_advance, List.length_cons]

/-- From here on the windows show the same tokens. -/
def Alike (w : Window σ) (w' : Window τ) : Prop :=
  ∀ count, (w'.onward count).current = (w.onward count).current

namespace Alike
variable {w : Window σ} {w' : Window τ}

theorem current (alike : w.Alike w') : w'.current = w.current := alike 0

theorem peek (alike : w.Alike w') : w'.peek = w.peek := alike 1

theorem advance (alike : w.Alike w') : w.advance.Alike w'.advance := by
  intro count
  rw [onward_advance, onward_advance]
  exact alike (count + 1)

end Alike
end Window

namespace Grammar
variable {σ τ : Type} [TokenFeed σ] [TokenFeed τ]

/-- Both computations return related results, or both stop for one reason at windows that show the
same tokens. -/
inductive Tallies {α β : Type} (related : α → β → Prop) :
    Except (Halt σ) α → Except (Halt τ) β → Prop where
  | ok {a : α} {b : β} (same : related a b) : Tallies related (.ok a) (.ok b)
  | error {failure : ReadFailure} {w : Window σ} {w' : Window τ} (alike : w.Alike w') :
      Tallies related (.error ⟨failure, w⟩) (.error ⟨failure, w'⟩)

theorem Tallies.bind {α β α' β' : Type} {related : α → β → Prop} {related' : α' → β' → Prop}
    {x : Except (Halt σ) α} {y : Except (Halt τ) β} {next : α → Except (Halt σ) α'}
    {next' : β → Except (Halt τ) β'} (first : Tallies related x y)
    (second : ∀ {a b}, related a b → Tallies related' (next a) (next' b)) :
    Tallies related' (x >>= next) (y >>= next') := by
  cases first with
  | ok same => exact second same
  | error alike => exact .error alike

theorem reject_tallies {α β : Type} {related : α → β → Prop} {w : Window σ} {w' : Window τ}
    (alike : w.Alike w') (error : Token → SyntaxError) :
    Tallies related (.error (reject (error w.current) w))
      (.error (reject (error w'.current) w')) := by
  rw [alike.current]
  exact .error alike

structure SameReading {w : Window σ} {w' : Window τ} (r : Reading w) (r' : Reading w') : Prop where
  node : r'.node = r.node
  window : r.window.Alike r'.window

def ReadsAlike (reader : Reader σ) (reader' : Reader τ) : Prop :=
  ∀ {w : Window σ} {w' : Window τ}, w.Alike w' → Tallies SameReading (reader w) (reader' w')

theorem chainFrom_alike {level : Level} {operand : Reader σ} {operand' : Reader τ}
    (operands : ReadsAlike operand operand') {w : Window σ} {w' : Window τ} {left : Reading w}
    {left' : Reading w'} (same : SameReading left left') :
    Tallies SameReading (chainFrom level operand left) (chainFrom level operand' left') := by
  fun_induction chainFrom level operand left generalizing left' with
  | case1 left none =>
    rw [chainFrom_of_none (by rw [same.window.current, none])]
    exact .ok same
  | case2 left op found further ih =>
    have found' : level.operator? left'.window.current.kind = some op := by
      rw [same.window.current, found]
    rw [chainFrom_of_some left' found']
    refine (operands same.window.advance).bind fun right => ih _ ⟨?_, right.window⟩
    simp only [same.node, right.node, same.window.current]

theorem chain_alike {level : Level} {operand : Reader σ} {operand' : Reader τ}
    (operands : ReadsAlike operand operand') :
    ReadsAlike (chain level operand) (chain level operand') := by
  intro w w' alike
  exact (operands alike).bind fun left => chainFrom_alike operands left

theorem expect_alike {wanted : TokenKind} {w : Window σ} {w' : Window τ} (inner : wanted ≠ .eof)
    (alike : w.Alike w') :
    Tallies (fun behind behind' => behind.val.Alike behind'.val) (expect wanted w inner)
      (expect wanted w' inner) := by
  by_cases found : w.current.kind = wanted
  · obtain ⟨shorter, read⟩ := expect_of_kind inner found
    obtain ⟨shorter', read'⟩ := expect_of_kind inner (by rw [alike.current, found])
    rw [read, read']
    exact .ok alike.advance
  · rw [expect_of_other inner found, expect_of_other inner (by rw [alike.current]; exact found)]
    exact reject_tallies alike (.expected wanted)

theorem closed_alike {inner : Reader σ} {inner' : Reader τ} (inside : ReadsAlike inner inner') :
    ReadsAlike (closed inner) (closed inner') := by
  intro w w' alike
  refine (inside alike).bind fun body => ?_
  exact (expect_alike rparen_ne_eof body.window).bind fun behind => .ok ⟨body.node, behind⟩

theorem Tallies.wrapped {w inside : Window σ} {w' inside' : Window τ}
    {outcome : Except (Halt σ) (Reading inside)} {outcome' : Except (Halt τ) (Reading inside')}
    (same : Tallies SameReading outcome outcome') (further : inside.size < w.size)
    (further' : inside'.size < w'.size) (wrap : Node → Node) :
    Tallies SameReading (Grammar.wrapped further wrap outcome)
      (Grammar.wrapped further' wrap outcome') := by
  cases same with
  | ok same => exact .ok ⟨congrArg wrap same.node, same.window⟩
  | error alike => exact .error alike

theorem tallies_of_returns {w target : Window σ} {w' target' : Window τ}
    {outcome : Except (Halt σ) (Reading w)} {outcome' : Except (Halt τ) (Reading w')}
    {node node' : Node} (returns : Returns outcome node target) (clear : ¬ TooDeep outcome)
    (returns' : Returns outcome' node' target') (clear' : ¬ TooDeep outcome')
    (alike : target.Alike target') (same : node' = node) :
    Tallies SameReading outcome outcome' := by
  obtain ⟨shorter, rfl⟩ := returns.resolve_left clear
  obtain ⟨shorter', rfl⟩ := returns'.resolve_left clear'
  exact .ok ⟨same, alike⟩

theorem literal_alike {nested : Option (Reader σ)} {nested' : Option (Reader τ)} {w : Window σ}
    {w' : Window τ} (alike : w.Alike w') (literal : isLiteral w.current.kind) :
    Tallies SameReading (operand nested w) (operand nested' w') := by
  have same : w'.current.kind = w.current.kind := congrArg Token.kind alike.current
  have clear := literal_not_tooDeep nested literal
  have clear' := literal_not_tooDeep nested' (same ▸ literal)
  cases kind : w.current.kind with
  | number =>
    apply tallies_of_returns (operand_number kind) clear (operand_number (same.trans kind)) clear'
      alike.advance
    rw [alike.current]
  | string =>
    apply tallies_of_returns (operand_string kind) clear (operand_string (same.trans kind)) clear'
      alike.advance
    rw [alike.current]
  | identifier =>
    apply tallies_of_returns (operand_reference kind) clear (operand_reference (same.trans kind))
      clear' alike.advance
    rw [alike.current]
  | _ =>
    rw [kind] at literal
    contradiction

theorem operand_alike {nested : Option (Reader σ)} {nested' : Option (Reader τ)}
    (inside : Option.Rel ReadsAlike nested nested') :
    ReadsAlike (operand nested) (operand nested') := by
  intro w w' alike
  have same : w'.current.kind = w.current.kind := congrArg Token.kind alike.current
  cases literal : isLiteral w.current.kind with
  | true => exact literal_alike alike literal
  | false =>
    by_cases opens : w.current.kind = .lparen
    · cases inside with
      | none =>
        rw [operand_of_deep opens, operand_of_deep (same.trans opens)]
        exact .error alike
      | some inside =>
        obtain ⟨further, read⟩ := operand_of_lparen _ opens
        obtain ⟨further', read'⟩ := operand_of_lparen _ (same.trans opens)
        rw [read, read']
        exact (closed_alike inside alike.advance).wrapped further further' id
    · have literal' : isLiteral w'.current.kind = false := same ▸ literal
      have opens' : w'.current.kind ≠ .lparen := same ▸ opens
      rw [operand_of_other literal opens, operand_of_other literal' opens']
      exact reject_tallies alike .noOperand

theorem factor_alike (limit : Nat) :
    ReadsAlike (factor (σ := σ) limit) (factor (σ := τ) limit) := by
  induction limit with
  | zero => exact operand_alike .none
  | succ limit ih => exact operand_alike (.some (chain_alike (chain_alike ih)))

theorem expression_alike (limit : Nat) :
    ReadsAlike (expression (σ := σ) limit) (expression (σ := τ) limit) :=
  chain_alike (chain_alike (factor_alike limit))

theorem starts_alike {w : Window σ} {w' : Window τ} (alike : w.Alike w') :
    Starts w' ↔ Starts w := by
  rw [Starts, Starts, alike.current, alike.peek]

theorem statement_alike (limit : Nat) :
    ReadsAlike (statement (σ := σ) limit) (statement (σ := τ) limit) := by
  intro w w' alike
  have same : w'.current.kind = w.current.kind := congrArg Token.kind alike.current
  have ahead : w'.peek.kind = w.peek.kind := congrArg Token.kind alike.peek
  by_cases starts : Starts w
  · rcases starts with kind | ⟨kind, assigns⟩
    · by_cases opens : w.peek.kind = .lparen
      · obtain ⟨further, read⟩ := statement_of_print limit kind opens
        obtain ⟨further', read'⟩ :=
          statement_of_print limit (same.trans kind) (ahead.trans opens)
        rw [read, read', alike.current]
        exact (closed_alike (expression_alike limit) alike.advance.advance).wrapped further
          further' _
      · rw [statement_of_unopened kind opens,
          statement_of_unopened (same.trans kind) (ahead ▸ opens)]
        exact reject_tallies alike.advance (.expected .lparen)
    · obtain ⟨further, read⟩ := statement_of_assignment limit kind assigns
      obtain ⟨further', read'⟩ :=
        statement_of_assignment limit (same.trans kind) (ahead.trans assigns)
      rw [read, read', alike.current]
      exact (expression_alike limit alike.advance.advance).wrapped further further' _
  · rw [statement_of_other starts, statement_of_other (mt (starts_alike alike).mp starts)]
    exact reject_tallies alike .noStatement

theorem skipNewlines_alike {w : Window σ} {w' : Window τ} (alike : w.Alike w') :
    (skipNewlines w).Alike (skipNewlines w') := by
  fun_induction skipNewlines w generalizing w' with
  | case1 w found shorter ih =>
    have skipped : skipNewlines w' = skipNewlines w'.advance := by
      rw [skipNewlines, dif_pos (by rw [alike.current, found])]
    rw [skipped]
    exact ih alike.advance
  | case2 w other =>
    rw [skipNewlines_of_ne (by rw [alike.current]; exact other)]
    exact alike

/-- Programs are read alike from windows that show the same tokens. -/
theorem program_alike (limit : Nat) {w : Window σ} {w' : Window τ} (alike : w.Alike w') :
    Tallies (fun read read' => read'.1 = read.1 ∧ read.2.Alike read'.2) (program limit w)
      (program limit w') := by
  fun_induction program limit w generalizing w' with
  | case1 w final =>
    have skipped := skipNewlines_alike alike
    rw [program_of_final (by rw [skipped.current, final])]
    exact .ok ⟨rfl, skipped⟩
  | case2 w more ih =>
    have skipped := skipNewlines_alike alike
    rw [program_of_more (by rw [skipped.current]; exact more)]
    refine (statement_alike limit skipped).bind fun first => ?_
    refine (ih _ first.window).bind fun rest => .ok ⟨?_, rest.2⟩
    rw [first.node, rest.1]

end Grammar
end IntScript

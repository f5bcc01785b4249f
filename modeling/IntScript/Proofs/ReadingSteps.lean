import IntScript.Proofs.ReadingCompleteness

/-! What a reader does with the token in view, one equation for each branch. A
parenthesis and a statement pass their first tokens and then leave the rest to one
reader, whose outcome they wrap. -/
namespace IntScript.Grammar
variable {σ : Type} [TokenFeed σ]

/-- The outcome of reading a part further on, as the outcome for the whole. -/
def wrapped {w inside : Window σ} (further : inside.size < w.size) (wrap : Node → Node)
    (outcome : Except (Halt σ) (Reading inside)) : Except (Halt σ) (Reading w) :=
  outcome.map fun r => ⟨wrap r.node, r.window, Nat.lt_trans r.shorter further⟩

theorem rparen_ne_eof : TokenKind.rparen ≠ .eof := by decide

/-- What stands in parentheses, and the closing one behind it. -/
def closed (inner : Reader σ) : Reader σ := fun w => do
  let body ← inner w
  let behind ← expect .rparen body.window rparen_ne_eof
  .ok ⟨body.node, behind.val, Nat.lt_trans behind.property body.shorter⟩

theorem expect_of_other {wanted : TokenKind} {w : Window σ} (inner : wanted ≠ .eof)
    (other : w.current.kind ≠ wanted) :
    expect wanted w inner = .error (reject (.expected wanted w.current) w) :=
  dif_neg other

theorem closed_of_error {inner : Reader σ} {w : Window σ} {halt : Halt σ}
    (failed : inner w = .error halt) : closed inner w = .error halt := by
  rw [closed, failed]
  rfl

theorem closed_of_rparen {inner : Reader σ} {w : Window σ} {body : Reading w}
    (read : inner w = .ok body) (closes : body.window.current.kind = .rparen) :
    ∃ shorter, closed inner w = .ok ⟨body.node, body.window.advance, shorter⟩ := by
  obtain ⟨less, found⟩ := expect_of_kind rparen_ne_eof closes
  refine ⟨Nat.lt_trans less body.shorter, ?_⟩
  rw [closed, read]
  simp only [bind, Except.bind, found]

theorem closed_of_other {inner : Reader σ} {w : Window σ} {body : Reading w}
    (read : inner w = .ok body) (other : body.window.current.kind ≠ .rparen) :
    closed inner w = .error (reject (.expected .rparen body.window.current) body.window) := by
  rw [closed, read]
  simp only [bind, Except.bind, expect_of_other rparen_ne_eof other]

/-- The kinds that a factor is made of alone. -/
def isLiteral : TokenKind → Bool
  | .number | .string | .identifier => true
  | _ => false

theorem literal_not_tooDeep (nested : Option (Reader σ)) {w : Window σ}
    (literal : isLiteral w.current.kind = true) : ¬ TooDeep (operand nested w) := by
  intro deep
  rw [(operand_deep deep).1] at literal
  contradiction

theorem operand_of_literal (nested : Option (Reader σ)) {w : Window σ}
    (literal : isLiteral w.current.kind = true) :
    ∃ node shorter, operand nested w = .ok ⟨node, w.advance, shorter⟩ := by
  have shallow := literal_not_tooDeep nested literal
  cases kind : w.current.kind with
  | number => exact ⟨_, (operand_number kind).resolve_left shallow⟩
  | string => exact ⟨_, (operand_string kind).resolve_left shallow⟩
  | identifier => exact ⟨_, (operand_reference kind).resolve_left shallow⟩
  | _ =>
    rw [kind] at literal
    contradiction

theorem operand_of_deep {w : Window σ} (opens : w.current.kind = .lparen) :
    operand none w = .error ⟨.tooDeep, w⟩ := by
  unfold operand
  split
  case h_4 => rfl
  all_goals grind

theorem operand_of_lparen (inner : Reader σ) {w : Window σ} (opens : w.current.kind = .lparen) :
    ∃ further, operand (some inner) w = wrapped further id (closed inner w.advance) := by
  refine ⟨Window.advance_size (by simp [opens]), ?_⟩
  unfold operand
  split
  case h_4 =>
    simp only [closed, bind, Except.bind]
    cases inner w.advance with
    | error halt => rfl
    | ok body =>
      simp only
      cases expect .rparen body.window rparen_ne_eof <;> rfl
  all_goals grind

theorem operand_of_other {nested : Option (Reader σ)} {w : Window σ}
    (other : isLiteral w.current.kind = false) (closing : w.current.kind ≠ .lparen) :
    operand nested w = .error (reject (.noOperand w.current) w) := by
  unfold operand
  split
  case h_5 => rfl
  all_goals simp_all [isLiteral]

theorem statement_of_print (limit : Nat) {w : Window σ} (kind : w.current.kind = .print)
    (opens : w.peek.kind = .lparen) :
    ∃ further, statement limit w =
      wrapped further (Node.print · (.ofPosition w.current.position))
        (closed (expression limit) w.advance.advance) := by
  obtain ⟨less, found⟩ := expect_of_kind (w := w.advance) (by decide) opens
  have named : w.advance.size < w.size := Window.advance_size (by simp [kind])
  refine ⟨Nat.lt_trans less named, ?_⟩
  unfold statement
  split
  case h_1 =>
    simp only [closed, found, bind, Except.bind]
    cases expression limit w.advance.advance with
    | error halt => rfl
    | ok argument =>
      simp only
      cases expect .rparen argument.window rparen_ne_eof <;> rfl
  all_goals grind

theorem statement_of_unopened {limit : Nat} {w : Window σ} (kind : w.current.kind = .print)
    (other : w.peek.kind ≠ .lparen) :
    statement limit w = .error (reject (.expected .lparen w.peek) w.advance) := by
  unfold statement
  split
  case h_1 =>
    rw [expect_of_other (by decide) other]
    rfl
  all_goals grind

theorem statement_of_assignment (limit : Nat) {w : Window σ} (kind : w.current.kind = .identifier)
    (assigns : w.peek.kind = .assign) :
    ∃ further, statement limit w =
      wrapped further (Node.assignment w.current.lexeme · (.ofPosition w.current.position))
        (expression limit w.advance.advance) := by
  have named : w.advance.size < w.size := Window.advance_size (by simp [kind])
  have bound : w.advance.advance.size < w.advance.size :=
    Window.advance_size (by simp [Window.advance, assigns])
  refine ⟨Nat.lt_trans bound named, ?_⟩
  unfold statement
  split
  case h_2 =>
    rw [dif_pos assigns]
    cases expression limit w.advance.advance <;> rfl
  all_goals grind

/-- A statement starts with the keyword, or with a name that a sign of assignment follows. -/
def Starts (w : Window σ) : Prop :=
  w.current.kind = .print ∨ w.current.kind = .identifier ∧ w.peek.kind = .assign

instance (w : Window σ) : Decidable (Starts w) :=
  inferInstanceAs (Decidable (_ ∨ _ ∧ _))

theorem statement_of_other {limit : Nat} {w : Window σ} (other : ¬ Starts w) :
    statement limit w = .error (reject (.noStatement w.current) w) := by
  unfold statement
  split
  · next kind => exact absurd (.inl kind) other
  · next kind => exact dif_neg fun assigns => other (.inr ⟨kind, assigns⟩)
  · rfl

end IntScript.Grammar

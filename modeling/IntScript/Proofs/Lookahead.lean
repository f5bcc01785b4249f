import IntScript.Proofs.ReadingSteps
import IntScript.Proofs.Rereading

/-! Readers look no further than the token they stop at. Where a window shows the same
tokens up to there, whatever their positions and whatever follows, it is read in the same
way: the same tree up to places, or the same failure. A newline ends a statement just as
the end of the source does. Only where an identifier starts a statement is one more token
looked at. -/
namespace IntScript

/-- The same error about another token. -/
def SyntaxError.about (e : SyntaxError) (t : Token) : SyntaxError :=
  match e with
  | .expected wanted _ => .expected wanted t
  | .noStatement _ => .noStatement t
  | .noOperand _ => .noOperand t

def ReadFailure.about (failure : ReadFailure) (t : Token) : ReadFailure :=
  match failure with
  | .rejected e => .rejected (e.about t)
  | .tooDeep => .tooDeep

/-- A phrase that ends in front of the one kind ends in front of the other too. -/
def TokenKind.EndsAs (kind other : TokenKind) : Prop :=
  other = kind ∨ kind = .eof ∧ other = .newline

theorem TokenKind.EndsAs.eq {kind other : TokenKind} (ends : kind.EndsAs other)
    (more : kind ≠ .eof) : other = kind := by
  rcases ends with same | ⟨final, -⟩
  · exact same
  · exact absurd final more

theorem TokenKind.EndsAs.ne {kind other wanted : TokenKind} (ends : kind.EndsAs other)
    (apart : kind ≠ wanted) (line : wanted ≠ .newline) : other ≠ wanted := by
  rcases ends with same | ⟨-, newline⟩
  · rw [same]
    exact apart
  · rw [newline]
    exact line.symm

namespace Token

theorem kind_of_form {t t' : Token} (form : t.form = t'.form) : t.kind = t'.kind :=
  (Prod.mk.inj form).1

theorem lexeme_of_form {t t' : Token} (form : t.form = t'.form) : t.lexeme = t'.lexeme :=
  String.toList_injective (Prod.mk.inj form).2

end Token

namespace Window
variable {σ τ : Type} [TokenFeed σ] [TokenFeed τ]

/-- The window shows these tokens up to their positions, and behind them it is `target`. -/
def Shows (w : Window σ) : List Token → Window σ → Prop
  | [], target => target = w
  | t :: tokens, target => w.current.form = t.form ∧ w.advance.Shows tokens target

theorem shows_append {w target : Window σ} {first second : List Token} :
    w.Shows (first ++ second) target ↔
      ∃ middle, w.Shows first middle ∧ middle.Shows second target := by
  induction first generalizing w with
  | nil => simp [Shows]
  | cons t first ih => simp [Shows, ih, and_assoc]

theorem endsAs_of_passes {w stop : Window σ} {w' stop' : Window τ} {tokens : List Token}
    (passed : w.Passes tokens stop) (shows : w'.Shows tokens stop')
    (ends : stop.current.kind.EndsAs stop'.current.kind) :
    w.current.kind.EndsAs w'.current.kind := by
  cases tokens with
  | nil =>
    obtain rfl : stop = w := passed
    obtain rfl : stop' = w' := shows
    exact ends
  | cons t tokens =>
    obtain ⟨rfl, -⟩ := passed
    exact .inl (Token.kind_of_form shows.1)

end Window

namespace Grammar
open Token (kind_of_form lexeme_of_form)
open Window (endsAs_of_passes shows_append)
variable {σ τ : Type} [TokenFeed σ] [TokenFeed τ]

/-- The window at which a reader stopped. -/
def stop {w : Window σ} : Except (Halt σ) (Reading w) → Window σ
  | .ok r => r.window
  | .error halt => halt.window

/-- The second outcome is the first one as it looks at `target`. -/
inductive Matches {w : Window σ} {w' : Window τ} (target : Window τ) :
    Except (Halt σ) (Reading w) → Except (Halt τ) (Reading w') → Prop where
  | ok {r : Reading w} {r' : Reading w'} (node : r'.node.erase = r.node.erase)
      (window : r'.window = target) : Matches target (.ok r) (.ok r')
  | error {halt : Halt σ} :
      Matches target (.error halt) (.error ⟨halt.failure.about target.current, target⟩)

theorem Matches.error_eq {w : Window σ} {w' target : Window τ} {halt : Halt σ}
    {outcome : Except (Halt τ) (Reading w')}
    (same : Matches (w := w) target (.error halt) outcome) :
    outcome = .error ⟨halt.failure.about target.current, target⟩ := by
  cases same
  rfl

theorem Matches.ok_eq {w : Window σ} {w' target : Window τ} {r : Reading w}
    {outcome : Except (Halt τ) (Reading w')} (same : Matches target (.ok r) outcome) :
    ∃ r' : Reading w', outcome = .ok r' ∧ r'.node.erase = r.node.erase ∧ r'.window = target := by
  cases same with
  | ok node window => exact ⟨_, rfl, node, window⟩

/-- Windows that show what the first reader passed, up to where it stopped, are read
alike by the second. -/
def Mirrors (reader : Reader σ) (reader' : Reader τ) : Prop :=
  ∀ w, ∃ tokens, w.Passes tokens (stop (reader w)) ∧
    ∀ {w' stop' : Window τ}, w'.Shows tokens stop' →
      (stop (reader w)).current.kind.EndsAs stop'.current.kind →
      Matches stop' (reader w) (reader' w')

theorem operator?_endsAs {level : Level} {kind other : TokenKind} (ends : kind.EndsAs other)
    (stops : level.operator? kind = none) : level.operator? other = none := by
  rcases ends with rfl | ⟨-, rfl⟩
  · exact stops
  · cases level <;> rfl

-- By the recursion of the chain. What it has read so far may differ in its places, and what it
-- is about to read begins at the operator in view.
theorem chainFrom_mirrors (level : Level) {operand : Reader σ} {operand' : Reader τ}
    (mirrors : Mirrors operand operand') {w : Window σ} (left : Reading w) :
    ∃ tokens, left.window.Passes tokens (stop (chainFrom level operand left)) ∧
      ∀ {w' stop' : Window τ} {left' : Reading w'}, left'.node.erase = left.node.erase →
        left'.window.Shows tokens stop' →
        (stop (chainFrom level operand left)).current.kind.EndsAs stop'.current.kind →
        Matches stop' (chainFrom level operand left) (chainFrom level operand' left') := by
  fun_induction chainFrom level operand left with
  | case1 left none =>
    refine ⟨[], rfl, ?_⟩
    intro w' stop' left' node shows ends
    obtain rfl : stop' = left'.window := shows
    rw [chainFrom_of_none (operator?_endsAs ends none)]
    exact .ok node rfl
  | case2 left op found further ih =>
    obtain ⟨behind, passed, transfers⟩ := mirrors left.window.advance
    have same {w' stop' : Window τ} {left' : Reading w'} {tokens : List Token}
        (shows : left'.window.Shows (left.window.current :: tokens) stop') :
        level.operator? left'.window.current.kind = some op := by
      rw [kind_of_form shows.1, found]
    cases outcome : operand left.window.advance with
    | error halt =>
      rw [outcome] at passed transfers
      refine ⟨left.window.current :: behind, ⟨rfl, Level.ne_eof found, passed⟩, ?_⟩
      intro w' stop' left' node shows ends
      rw [chainFrom_of_some left' (same shows), (transfers shows.2 ends).error_eq]
      exact .error
    | ok right =>
      rw [outcome] at passed transfers
      obtain ⟨last, passedLast, transfersLast⟩ := ih right
      refine ⟨left.window.current :: (behind ++ last),
        ⟨rfl, Level.ne_eof found, passed.trans passedLast⟩, ?_⟩
      intro w' stop' left' node shows ends
      obtain ⟨middle', showsRight, showsLast⟩ := shows_append.mp shows.2
      have endsRight := endsAs_of_passes passedLast showsLast ends
      obtain ⟨right', read, nodeRight, rfl⟩ := (transfers showsRight endsRight).ok_eq
      rw [chainFrom_of_some left' (same shows), read]
      refine transfersLast ?_ showsLast ends
      simp only [Node.erase, node, nodeRight]

theorem chain_mirrors {level : Level} {operand : Reader σ} {operand' : Reader τ}
    (mirrors : Mirrors operand operand') :
    Mirrors (chain level operand) (chain level operand') := by
  intro w
  obtain ⟨first, passed, transfers⟩ := mirrors w
  cases outcome : operand w with
  | error halt =>
    rw [outcome] at passed transfers
    simp only [chain, outcome]
    refine ⟨first, passed, ?_⟩
    intro w' stop' shows ends
    rw [(transfers shows ends).error_eq]
    exact .error
  | ok left =>
    rw [outcome] at passed transfers
    obtain ⟨rest, passedRest, transfersRest⟩ := chainFrom_mirrors level mirrors left
    simp only [chain, outcome]
    refine ⟨first ++ rest, passed.trans passedRest, ?_⟩
    intro w' stop' shows ends
    obtain ⟨middle', showsFirst, showsRest⟩ := shows_append.mp shows
    have endsFirst := endsAs_of_passes passedRest showsRest ends
    obtain ⟨left', read, node, rfl⟩ := (transfers showsFirst endsFirst).ok_eq
    rw [read]
    exact transfersRest node showsRest ends

theorem stop_wrapped {w inside : Window σ} (further : inside.size < w.size) (wrap : Node → Node)
    (outcome : Except (Halt σ) (Reading inside)) :
    stop (wrapped further wrap outcome) = stop outcome := by
  cases outcome <;> rfl

theorem Matches.wrapped {w inside : Window σ} {w' inside' target : Window τ}
    {outcome : Except (Halt σ) (Reading inside)} {outcome' : Except (Halt τ) (Reading inside')}
    (same : Matches target outcome outcome') (further : inside.size < w.size)
    (further' : inside'.size < w'.size) {wrap wrap' : Node → Node}
    (alike : ∀ {node node' : Node}, node'.erase = node.erase →
      (wrap' node').erase = (wrap node).erase) :
    Matches target (Grammar.wrapped further wrap outcome)
      (Grammar.wrapped further' wrap' outcome') := by
  cases same with
  | ok node window => exact .ok (alike node) window
  | error => exact .error

theorem closed_mirrors {inner : Reader σ} {inner' : Reader τ} (mirrors : Mirrors inner inner') :
    Mirrors (closed inner) (closed inner') := by
  intro w
  obtain ⟨tokens, passed, transfers⟩ := mirrors w
  cases outcome : inner w with
  | error halt =>
    rw [outcome] at passed transfers
    rw [closed_of_error outcome]
    refine ⟨tokens, passed, ?_⟩
    intro w' stop' shows ends
    rw [closed_of_error (transfers shows ends).error_eq]
    exact .error
  | ok body =>
    rw [outcome] at passed transfers
    by_cases closes : body.window.current.kind = .rparen
    · obtain ⟨shorter, read⟩ := closed_of_rparen outcome closes
      rw [read]
      refine ⟨tokens ++ [body.window.current],
        passed.trans (Window.passes_current (by simp [stop, closes])), ?_⟩
      intro w' stop' shows ends
      obtain ⟨middle', showsBody, form, rfl⟩ := shows_append.mp shows
      have closes' : middle'.current.kind = .rparen := (kind_of_form form).trans closes
      obtain ⟨body', read', node, rfl⟩ :=
        (transfers showsBody (.inl (closes'.trans closes.symm))).ok_eq
      obtain ⟨shorter', closed'⟩ := closed_of_rparen read' closes'
      rw [closed']
      exact .ok node rfl
    · rw [closed_of_other outcome closes]
      refine ⟨tokens, passed, ?_⟩
      intro w' stop' shows ends
      obtain ⟨body', read', -, rfl⟩ := (transfers shows ends).ok_eq
      rw [closed_of_other read' (ends.ne closes (by decide))]
      exact .error

theorem isLiteral_endsAs {kind other : TokenKind} (ends : kind.EndsAs other)
    (literal : isLiteral kind = false) : isLiteral other = false := by
  rcases ends with rfl | ⟨-, rfl⟩
  · exact literal
  · rfl

theorem matches_of_returns {w target : Window σ} {w' target' : Window τ}
    {outcome : Except (Halt σ) (Reading w)} {outcome' : Except (Halt τ) (Reading w')}
    {node node' : Node} (returns : Returns outcome node target) (shallow : ¬ TooDeep outcome)
    (returns' : Returns outcome' node' target') (shallow' : ¬ TooDeep outcome')
    (same : node'.erase = node.erase) : Matches target' outcome outcome' := by
  obtain ⟨_, rfl⟩ := returns.resolve_left shallow
  obtain ⟨_, rfl⟩ := returns'.resolve_left shallow'
  exact .ok same rfl

theorem literal_matches {nested : Option (Reader σ)} {nested' : Option (Reader τ)}
    {w : Window σ} {w' : Window τ} (form : w'.current.form = w.current.form)
    (literal : isLiteral w.current.kind = true) :
    Matches w'.advance (operand nested w) (operand nested' w') := by
  have same := kind_of_form form
  have shallow := literal_not_tooDeep nested literal
  have shallow' := literal_not_tooDeep nested' (same ▸ literal)
  have lexeme := lexeme_of_form form
  cases kind : w.current.kind with
  | number =>
    refine matches_of_returns (operand_number kind) shallow (operand_number (same.trans kind))
      shallow' ?_
    rw [Node.erase, Node.erase, lexeme]
  | string =>
    refine matches_of_returns (operand_string kind) shallow (operand_string (same.trans kind))
      shallow' ?_
    rw [Node.erase, Node.erase, lexeme]
  | identifier =>
    refine matches_of_returns (operand_reference kind) shallow (operand_reference (same.trans kind))
      shallow' ?_
    rw [Node.erase, Node.erase, lexeme]
  | _ =>
    rw [kind] at literal
    contradiction

theorem operand_mirrors {nested : Option (Reader σ)} {nested' : Option (Reader τ)}
    (mirrors : Option.Rel Mirrors nested nested') : Mirrors (operand nested) (operand nested') := by
  intro w
  cases literal : isLiteral w.current.kind with
  | true =>
    obtain ⟨node, shorter, read⟩ := operand_of_literal nested literal
    have more : w.current.kind ≠ .eof := by
      intro final
      rw [final] at literal
      contradiction
    refine ⟨[w.current], by rw [read]; exact Window.passes_current more, ?_⟩
    rintro w' _ ⟨form, rfl⟩ -
    exact literal_matches form literal
  | false =>
    by_cases opens : w.current.kind = .lparen
    · cases mirrors with
      | none =>
        rw [operand_of_deep opens]
        refine ⟨[], rfl, ?_⟩
        rintro w' _ rfl ends
        rw [operand_of_deep ((ends.eq (by simp [stop, opens])).trans opens)]
        exact .error
      | some inner =>
        obtain ⟨further, read⟩ := operand_of_lparen _ opens
        obtain ⟨tokens, passed, transfers⟩ := closed_mirrors inner w.advance
        rw [read, stop_wrapped]
        refine ⟨w.current :: tokens, ⟨rfl, by simp [opens], passed⟩, ?_⟩
        rintro w' stop' ⟨form, shows⟩ ends
        obtain ⟨further', read'⟩ := operand_of_lparen _ ((kind_of_form form).trans opens)
        rw [read']
        exact (transfers shows ends).wrapped further further' id
    · rw [operand_of_other literal opens]
      refine ⟨[], rfl, ?_⟩
      rintro w' _ rfl ends
      rw [operand_of_other (isLiteral_endsAs ends literal) (ends.ne opens (by decide))]
      exact .error

theorem factor_mirrors (limit : Nat) : Mirrors (factor (σ := σ) limit) (factor (σ := τ) limit) := by
  induction limit with
  | zero => exact operand_mirrors .none
  | succ limit ih => exact operand_mirrors (.some (chain_mirrors (chain_mirrors ih)))

theorem expression_mirrors (limit : Nat) :
    Mirrors (expression (σ := σ) limit) (expression (σ := τ) limit) :=
  chain_mirrors (chain_mirrors (factor_mirrors limit))

theorem statement_mirrors (limit : Nat) {w : Window σ} (starts : Starts w) :
    ∃ tokens, w.Passes tokens (stop (statement limit w)) ∧
      ∀ {w' stop' : Window τ}, w'.Shows tokens stop' →
        (stop (statement limit w)).current.kind.EndsAs stop'.current.kind →
        Matches stop' (statement limit w) (statement limit w') := by
  rcases starts with kind | ⟨kind, assigns⟩
  · by_cases opens : w.peek.kind = .lparen
    · obtain ⟨further, read⟩ := statement_of_print limit kind opens
      obtain ⟨tokens, passed, transfers⟩ :=
        closed_mirrors (τ := τ) (expression_mirrors limit) w.advance.advance
      rw [read, stop_wrapped]
      refine ⟨w.current :: w.peek :: tokens,
        ⟨rfl, by simp [kind], rfl, by simp [opens], passed⟩, ?_⟩
      rintro w' stop' ⟨form, formOpening, shows⟩ ends
      obtain ⟨further', read'⟩ := statement_of_print limit
        ((kind_of_form form).trans kind) ((kind_of_form formOpening).trans opens)
      rw [read']
      refine (transfers shows ends).wrapped further further' fun same => ?_
      rw [Node.erase, Node.erase, same]
    · rw [statement_of_unopened kind opens]
      refine ⟨[w.current], Window.passes_current (by simp [kind]), ?_⟩
      rintro w' _ ⟨form, rfl⟩ ends
      rw [statement_of_unopened ((kind_of_form form).trans kind) (ends.ne opens (by decide))]
      exact .error
  · obtain ⟨further, read⟩ := statement_of_assignment limit kind assigns
    obtain ⟨tokens, passed, transfers⟩ := expression_mirrors (τ := τ) limit w.advance.advance
    rw [read, stop_wrapped]
    refine ⟨w.current :: w.peek :: tokens,
      ⟨rfl, by simp [kind], rfl, by simp [assigns], passed⟩, ?_⟩
    rintro w' stop' ⟨form, formSign, shows⟩ ends
    obtain ⟨further', read'⟩ := statement_of_assignment limit
      ((kind_of_form form).trans kind) ((kind_of_form formSign).trans assigns)
    rw [read', lexeme_of_form form]
    refine (transfers shows ends).wrapped further further' fun same => ?_
    rw [Node.erase, Node.erase, same]

theorem starts_of_ok {limit : Nat} {w : Window σ} {r : Reading w}
    (read : statement limit w = .ok r) : Starts w := by
  apply Decidable.byContradiction
  intro other
  rw [statement_of_other other] at read
  contradiction

theorem skipNewlines_shows {newlines : List Token} (blank : Derivation.Newlines newlines)
    {w target : Window σ} (shows : w.Shows newlines target) :
    skipNewlines w = skipNewlines target := by
  induction newlines generalizing w with
  | nil =>
    obtain rfl : target = w := shows
    rfl
  | cons t newlines ih =>
    obtain ⟨form, rest⟩ := shows
    obtain ⟨newline, blank⟩ := List.forall_mem_cons.mp blank
    rw [skipNewlines, dif_pos ((kind_of_form form).trans newline)]
    exact ih blank rest

theorem skipNewlines_of_ne {w : Window σ} (other : w.current.kind ≠ .newline) :
    skipNewlines w = w := by
  rw [skipNewlines, dif_neg other]

theorem program_of_eof {limit : Nat} {w : Window σ} (final : w.current.kind = .eof) :
    program limit w = .ok ([], w) := by
  have stops : skipNewlines w = w := skipNewlines_of_ne (by simp [final])
  rw [program_of_final (by rw [stops, final]), stops]

theorem skipNewlines_stops (w : Window σ) : (skipNewlines w).current.kind ≠ .newline := by
  fun_induction skipNewlines w with
  | case1 w found shorter ih => exact ih
  | case2 w found => exact found

theorem program_of_skipped {limit : Nat} {w other : Window σ}
    (same : skipNewlines w = skipNewlines other) : program limit w = program limit other := by
  by_cases final : (skipNewlines w).current.kind = .eof
  · rw [program_of_final final, program_of_final (same ▸ final), same]
  · rw [program_of_more final, program_of_more (same ▸ final), same]

theorem program_of_statement {limit : Nat} {w start : Window σ} {newlines : List Token}
    (blank : Derivation.Newlines newlines) (shows : w.Shows newlines start)
    (line : start.current.kind ≠ .newline) (more : start.current.kind ≠ .eof) :
    program limit w = statement limit start >>= fun first =>
      program limit first.window >>= fun rest => .ok (first.node :: rest.1, rest.2) := by
  have skipped : skipNewlines w = start :=
    (skipNewlines_shows blank shows).trans (skipNewlines_of_ne line)
  rw [program_of_more (skipped ▸ more), skipped]

/-- A program whose first statement is read starts with that statement wherever the tokens
show again. -/
theorem first_mirrors {limit : Nat} {w stop : Window σ} {first : Reading (skipNewlines w)}
    {behind : List Token} (more : (skipNewlines w).current.kind ≠ .eof)
    (readFirst : statement limit (skipNewlines w) = .ok first)
    (passedBehind : first.window.Passes behind stop) :
    ∃ front, w.Passes (front ++ behind) stop ∧
      ∀ {w' stop' : Window τ}, w'.Shows (front ++ behind) stop' →
        stop.current.kind.EndsAs stop'.current.kind →
        ∃ node middle', node.erase = first.node.erase ∧ middle'.Shows behind stop' ∧
          program limit w' =
            program limit middle' >>= fun rest => .ok (node :: rest.1, rest.2) := by
  obtain ⟨newlines, blank, skipped⟩ := skipNewlines_passes w
  obtain ⟨front, passed, transfers⟩ :=
    statement_mirrors (τ := τ) limit (starts_of_ok readFirst)
  rw [readFirst] at passed transfers
  have passedAll := passed.trans passedBehind
  refine ⟨newlines ++ front, by simpa using skipped.trans passedAll, ?_⟩
  intro w' stop' shows ends
  rw [List.append_assoc] at shows
  obtain ⟨start', showsNewlines, shows⟩ := shows_append.mp shows
  have kind : start'.current.kind = (skipNewlines w).current.kind :=
    (endsAs_of_passes passedAll shows ends).eq more
  obtain ⟨middle', showsFirst, showsBehind⟩ := shows_append.mp shows
  have endsFirst := endsAs_of_passes passedBehind showsBehind ends
  obtain ⟨first', readFirst', node, rfl⟩ := (transfers showsFirst endsFirst).ok_eq
  refine ⟨first'.node, first'.window, node, showsBehind, ?_⟩
  rw [program_of_statement blank showsNewlines (kind ▸ skipNewlines_stops w) (kind ▸ more),
    readFirst']
  rfl

/-- A program that is read to the end is read in the same way in front of anything that
starts on a new line. -/
theorem program_continues {limit : Nat} {w final : Window σ} {nodes : List Node}
    (read : program limit w = .ok (nodes, final)) :
    ∃ tokens, w.Passes tokens final ∧ ∀ {w' stop' : Window τ}, w'.Shows tokens stop' →
      final.current.kind.EndsAs stop'.current.kind →
      ∃ nodes', nodes'.map Node.erase = nodes.map Node.erase ∧
        program limit w' = program limit stop' >>= fun rest => .ok (nodes' ++ rest.1, rest.2) := by
  fun_induction program limit w generalizing nodes final with
  | case1 w ended =>
    cases read
    obtain ⟨newlines, blank, passed⟩ := skipNewlines_passes w
    refine ⟨newlines, passed, ?_⟩
    intro w' stop' shows ends
    refine ⟨[], rfl, ?_⟩
    rw [program_of_skipped (skipNewlines_shows blank shows)]
    cases program limit stop' <;> rfl
  | case2 w more ih =>
    obtain ⟨first, readFirst, further⟩ := bind_returns read
    obtain ⟨⟨others, target⟩, readOthers, last⟩ := bind_returns further
    cases last
    obtain ⟨behind, passedBehind, continues⟩ := ih first readOthers
    obtain ⟨front, passed, again⟩ := first_mirrors (τ := τ) more readFirst passedBehind
    refine ⟨front ++ behind, passed, ?_⟩
    intro w' stop' shows ends
    obtain ⟨node, middle', same, showsBehind, started⟩ := again shows ends
    obtain ⟨others', nodes, continued⟩ := continues showsBehind ends
    refine ⟨node :: others', by simp [same, nodes], ?_⟩
    rw [started, continued]
    cases program limit stop' <;> rfl

/-- A program is rejected at a token whatever stands behind it, and in the same way, except
that a name where a statement must start is rejected for what stands behind it. -/
theorem program_rejects {limit : Nat} {w : Window σ} {halt : Halt σ}
    (failed : program limit w = .error halt) :
    ∃ tokens, w.Passes tokens halt.window ∧ ∀ {w' stop' : Window τ}, w'.Shows tokens stop' →
      stop'.current.kind = halt.window.current.kind →
      (halt.failure = .rejected (.noStatement halt.window.current) →
        halt.window.current.kind = .identifier → stop'.peek.kind ≠ .assign) →
      program limit w' = .error ⟨halt.failure.about stop'.current, stop'⟩ := by
  fun_induction program limit w generalizing halt with
  | case1 w ended => contradiction
  | case2 w more ih =>
    rcases bind_fails failed with failedFirst | ⟨first, readFirst, further⟩
    · obtain ⟨newlines, blank, skipped⟩ := skipNewlines_passes w
      have line := skipNewlines_stops w
      by_cases starts : Starts (skipNewlines w)
      · obtain ⟨front, passed, transfers⟩ := statement_mirrors (τ := τ) limit starts
        rw [failedFirst] at passed transfers
        refine ⟨newlines ++ front, skipped.trans passed, ?_⟩
        intro w' stop' shows same _
        obtain ⟨start', showsNewlines, shows⟩ := shows_append.mp shows
        have kind := (endsAs_of_passes passed shows (.inl same)).eq more
        rw [program_of_statement blank showsNewlines (kind ▸ line) (kind ▸ more),
          (transfers shows (.inl same)).error_eq]
        rfl
      · rw [statement_of_other starts] at failedFirst
        cases failedFirst
        refine ⟨newlines, skipped, ?_⟩
        intro w' stop' shows same undecided
        have other : ¬ Starts stop' := by
          rintro (kind | ⟨kind, assigns⟩)
          · exact starts (.inl (same.symm.trans kind))
          · exact undecided rfl (same.symm.trans kind) assigns
        rw [program_of_statement blank shows (same ▸ line) (same ▸ more), statement_of_other other]
        rfl
    · rcases bind_fails further with failedOthers | ⟨rest, -, last⟩
      · obtain ⟨behind, passedBehind, continues⟩ := ih first failedOthers
        obtain ⟨front, passed, again⟩ := first_mirrors (τ := τ) more readFirst passedBehind
        refine ⟨front ++ behind, passed, ?_⟩
        intro w' stop' shows same undecided
        obtain ⟨node, middle', -, showsBehind, started⟩ := again shows (.inl same)
        rw [started, continues showsBehind same undecided]
        rfl
      · contradiction

end Grammar
end IntScript

import IntScript.Proofs.Parsing
import IntScript.Proofs.ReadingSteps

/-! A limit that is not reached has no part in the outcome. With any larger limit reading gives
the same trees or the same error, and stops at the same place, so there is one outcome that all
limits from some point on give. -/
namespace IntScript

namespace Grammar
variable {σ : Type}

theorem bind_extends {α β : Type} {x x' : Except (Halt σ) α} {next next' : α → Except (Halt σ) β}
    (clear : ¬ TooDeep (x >>= next)) (first : ¬ TooDeep x → x' = x)
    (second : ∀ a, ¬ TooDeep (next a) → next' a = next a) : (x' >>= next') = (x >>= next) := by
  rw [first fun deep => clear (deep.bind next)]
  cases x with
  | error halt => rfl
  | ok a => exact second a clear

variable [TokenFeed σ]

/-- Wherever the first reader stays clear of its limit, the second one does the same. -/
def Extends (reader reader' : Reader σ) : Prop :=
  ∀ {w : Window σ}, ¬ TooDeep (reader w) → reader' w = reader w

theorem chainFrom_extends {level : Level} {operand operand' : Reader σ}
    (ext : Extends operand operand') {w : Window σ} {left : Reading w}
    (clear : ¬ TooDeep (chainFrom level operand left)) :
    chainFrom level operand' left = chainFrom level operand left := by
  fun_induction chainFrom level operand left with
  | case1 left none => exact chainFrom_of_none none
  | case2 left op found further ih =>
    rw [chainFrom_of_some left found]
    exact bind_extends clear ext fun right clear => ih right clear

theorem chain_extends {level : Level} {operand operand' : Reader σ}
    (ext : Extends operand operand') : Extends (chain level operand) (chain level operand') := by
  intro w clear
  exact bind_extends clear ext fun left clear => chainFrom_extends ext clear

theorem closed_extends {inner inner' : Reader σ} (ext : Extends inner inner') :
    Extends (closed inner) (closed inner') := by
  intro w clear
  exact bind_extends clear ext fun body clear => rfl

theorem wrapped_extends {reader reader' : Reader σ} (ext : Extends reader reader')
    {w inside : Window σ} {further : inside.size < w.size} {wrap : Node → Node}
    (clear : ¬ TooDeep (wrapped further wrap (reader inside))) :
    wrapped further wrap (reader' inside) = wrapped further wrap (reader inside) := by
  have inner : ¬ TooDeep (reader inside) := by
    rintro ⟨window, failed⟩
    rw [failed] at clear
    exact clear ⟨window, rfl⟩
  rw [ext inner]

theorem Returns.eq {w target : Window σ} {outcome outcome' : Except (Halt σ) (Reading w)}
    {node : Node} (returns : Returns outcome node target) (clear : ¬ TooDeep outcome)
    (returns' : Returns outcome' node target) (clear' : ¬ TooDeep outcome') :
    outcome' = outcome := by
  obtain ⟨shorter, read⟩ := returns.resolve_left clear
  obtain ⟨shorter', read'⟩ := returns'.resolve_left clear'
  rw [read, read']

theorem literal_extends (nested nested' : Option (Reader σ)) {w : Window σ}
    (literal : isLiteral w.current.kind) : operand nested' w = operand nested w := by
  have clear := literal_not_tooDeep nested literal
  have clear' := literal_not_tooDeep nested' literal
  cases kind : w.current.kind with
  | number => exact (operand_number kind).eq clear (operand_number kind) clear'
  | string => exact (operand_string kind).eq clear (operand_string kind) clear'
  | identifier => exact (operand_reference kind).eq clear (operand_reference kind) clear'
  | _ =>
    rw [kind] at literal
    contradiction

theorem operand_extends {nested nested' : Option (Reader σ)}
    (ext : ∀ inner ∈ nested, ∃ inner' ∈ nested', Extends inner inner') :
    Extends (operand nested) (operand nested') := by
  intro w clear
  cases literal : isLiteral w.current.kind with
  | true => exact literal_extends nested nested' literal
  | false =>
    by_cases opens : w.current.kind = .lparen
    · cases nested with
      | none => exact absurd ⟨w, operand_of_deep opens⟩ clear
      | some inner =>
        obtain ⟨inner', rfl, inside⟩ := ext inner rfl
        obtain ⟨further, read⟩ := operand_of_lparen inner opens
        obtain ⟨further', read'⟩ := operand_of_lparen inner' opens
        rw [read] at clear
        rw [read, read', wrapped_extends (closed_extends inside) clear]
    · rw [operand_of_other literal opens, operand_of_other literal opens]

theorem factor_extends {limit limit' : Nat} (larger : limit ≤ limit') :
    Extends (factor (σ := σ) limit) (factor limit') := by
  induction limit generalizing limit' with
  | zero =>
    obtain ⟨nested, same⟩ := factor_eq_operand (σ := σ) limit'
    rw [same]
    apply operand_extends
    simp
  | succ limit ih =>
    obtain ⟨limit', rfl⟩ : ∃ less, limit' = less + 1 := ⟨limit' - 1, by omega⟩
    apply operand_extends
    rintro inner ⟨⟩
    exact ⟨_, rfl, chain_extends (chain_extends (ih (by omega)))⟩

theorem expression_extends {limit limit' : Nat} (larger : limit ≤ limit') :
    Extends (expression (σ := σ) limit) (expression limit') :=
  chain_extends (chain_extends (factor_extends larger))

theorem statement_extends {limit limit' : Nat} (larger : limit ≤ limit') :
    Extends (statement (σ := σ) limit) (statement limit') := by
  intro w clear
  by_cases starts : Starts w
  · rcases starts with kind | ⟨kind, assigns⟩
    · by_cases opens : w.peek.kind = .lparen
      · obtain ⟨further, read⟩ := statement_of_print limit kind opens
        obtain ⟨further', read'⟩ := statement_of_print limit' kind opens
        rw [read] at clear
        rw [read, read', wrapped_extends (closed_extends (expression_extends larger)) clear]
      · rw [statement_of_unopened kind opens, statement_of_unopened kind opens]
    · obtain ⟨further, read⟩ := statement_of_assignment limit kind assigns
      obtain ⟨further', read'⟩ := statement_of_assignment limit' kind assigns
      rw [read] at clear
      rw [read, read', wrapped_extends (expression_extends larger) clear]
  · rw [statement_of_other starts, statement_of_other starts]

theorem program_extends {limit limit' : Nat} (larger : limit ≤ limit') {w : Window σ}
    (clear : ¬ TooDeep (program limit w)) : program limit' w = program limit w := by
  fun_induction program limit w with
  | case1 w final => exact program_of_final final
  | case2 w more ih =>
    rw [program_of_more more]
    refine bind_extends clear (statement_extends larger) fun first clear => ?_
    exact bind_extends clear (ih first) fun rest clear => rfl

end Grammar

theorem parse_of_larger {limit limit' : Nat} {source : String} (larger : limit ≤ limit')
    (clear : (parse limit source).program ≠ .error .tooDeep) :
    parse limit' source = parse limit source := by
  have unreached : ¬ Grammar.TooDeep (Grammar.program limit (.view (Scanner.start source))) := by
    rintro ⟨window, failed⟩
    exact clear (by rw [parse, failed])
  rw [parse, parse, Grammar.program_extends larger unreached]

/-- Reading without a limit: no source opens more parentheses than it has characters. -/
def parseFreely (source : String) : Parsed := parse source.length source

theorem parseFreely_clear (source : String) : (parseFreely source).program ≠ .error .tooDeep :=
  parse_unreached (Nat.le_refl _)

/-- Every limit that is not reached gives what all larger ones give. -/
theorem parse_eq_parseFreely {limit : Nat} {source : String}
    (clear : (parse limit source).program ≠ .error .tooDeep) :
    parse limit source = parseFreely source := by
  rcases Nat.le_total limit source.length with less | more
  · exact (parse_of_larger less clear).symm
  · exact parse_of_larger more (parseFreely_clear source)

end IntScript

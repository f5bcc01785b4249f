import IntScript.Proofs.Blame
import IntScript.Proofs.LargerLimit
import IntScript.Proofs.OpenFactors

/-! What consumes recursion is nesting and never length. A tree is as deep for the recursions over
it as its paths go into right operands, and only parentheses and the two levels of operators lead
there; the left spines of long chains are followed in loops. -/
namespace IntScript

namespace Node

/-- The most right operands entered on the way from the root to a leaf. -/
def rightEdges : Node → Nat
  | .number .. | .string .. | .reference .. => 0
  | .binary _ left right _ => max left.rightEdges (right.rightEdges + 1)
  | .assignment _ value _ => value.rightEdges
  | .print argument _ => argument.rightEdges

/-- Expressions all the way down, whatever their numbers, texts and names. -/
def statementFree : Node → Bool
  | .number .. | .string .. | .reference .. => true
  | .binary _ left right _ => left.statementFree && right.statementFree
  | .assignment .. | .print .. => false

/-- An operand at the bottom of a spine costs a level, like the right operand that stands
beside it. -/
theorem levelsOnSpine_le {node : Node} (free : node.statementFree)
    (low : node.levels ≤ node.rightEdges + 1) :
    node.levelsOnSpine ≤ max node.rightEdges 1 + 1 := by
  cases node with
  | binary op left right place =>
    have onSpine : (Node.binary op left right place).levelsOnSpine =
      (Node.binary op left right place).levels := rfl
    omega
  | assignment | print => contradiction
  | _ => exact Nat.le_refl 2

theorem levels_le_rightEdges {node : Node} (free : node.statementFree) :
    node.levels ≤ node.rightEdges + 1 := by
  induction node with
  | binary op left right place ihLeft ihRight =>
    obtain ⟨freeLeft, freeRight⟩ := Bool.and_eq_true_iff.mp free
    have spine := levelsOnSpine_le freeLeft (ihLeft freeLeft)
    have below := ihRight freeRight
    rw [levels_binary, rightEdges]
    omega
  | assignment | print => contradiction
  | _ => exact Nat.le_refl 1

theorem precedence_of_statementFree {node : Node} (free : node.statementFree) :
    ∃ precedence, node.precedence = .ok precedence := by
  cases node with
  | assignment | print => contradiction
  | _ => exact ⟨_, rfl⟩

theorem written_of_statementFree {node : Node} (free : node.statementFree) :
    ∃ text, node.written = .ok text := by
  induction node with
  | binary op left right place ihLeft ihRight =>
    obtain ⟨freeLeft, freeRight⟩ := Bool.and_eq_true_iff.mp free
    obtain ⟨leftText, wroteLeft⟩ := ihLeft freeLeft
    obtain ⟨rightText, wroteRight⟩ := ihRight freeRight
    obtain ⟨first, precedesLeft⟩ := precedence_of_statementFree freeLeft
    obtain ⟨second, precedesRight⟩ := precedence_of_statementFree freeRight
    rw [written, joined, wroteLeft, wroteRight, precedesLeft, precedesRight]
    exact ⟨_, rfl⟩
  | assignment | print => contradiction
  | _ => exact ⟨_, rfl⟩

end Node

namespace Evaluation

theorem operate_ne_tooDeep {whole : Node} (free : whole.statementFree) {op : Operator} {a b : Int}
    {sums after : List (Int × Int)} :
    (operate whole op a b).run.run sums ≠ (.error .tooDeep, after) := by
  intro failed
  unfold operate at failed
  split at failed
  · obtain ⟨text, wrote⟩ := Node.written_of_statementFree free
    simp only [written, wrote] at failed
    cases failed
  · cases op <;> cases failed

theorem direct_ne_tooDeep {env : Bindings} {node : Node} (free : node.statementFree)
    {sums after : List (Int × Int)} :
    (direct env node).run.run sums ≠ (.error .tooDeep, after) := by
  intro failed
  induction node generalizing sums after with
  | number | string => cases failed
  | reference name place =>
    rw [direct] at failed
    split at failed <;> cases failed
  | binary op left right place ihLeft ihRight =>
    obtain ⟨freeLeft, freeRight⟩ := Bool.and_eq_true_iff.mp free
    rcases run_bind_error failed with failedLeft | ⟨a, middle, -, failed⟩
    · exact ihLeft freeLeft failedLeft
    rcases run_bind_error failed with failedRight | ⟨b, last, -, failed⟩
    · exact ihRight freeRight failedRight
    · exact operate_ne_tooDeep free failed
  | assignment | print => contradiction

end Evaluation

/-- Right operands that operators of a phrase lead into without parentheses: into a factor of a
product, and before that into a product of a sum. -/
def Phrase.slack : Phrase → Nat
  | .factor => 0
  | .chain .product => 1
  | .chain .sum => 2

theorem Phrase.slack_chain (level : Level) :
    (Phrase.chain level).slack = level.operand.slack + 1 := by
  cases level <;> rfl

namespace Derivation

theorem Expression.rightEdges_le {phrase : Phrase} {tokens : List Token} {node : Node}
    (derived : Expression phrase tokens node) :
    node.rightEdges ≤ 2 * mostOpen tokens + phrase.slack := by
  induction derived with
  | number | string | reference => exact Nat.zero_le _
  | parenthesised opens body closes ih =>
    have inside : Phrase.expression.slack = 2 := rfl
    rw [(body.nests.parenthesised opens closes).mostOpen_eq]
    omega
  | @single level tokens node operand ih =>
    rw [Phrase.slack_chain]
    omega
  | @join level op t before behind left right first found last ihFirst ihLast =>
    rw [(first.nests.join (Level.isFlat found) last.nests).mostOpen_eq, Node.rightEdges]
    rw [Phrase.slack_chain] at ihFirst ⊢
    omega

theorem Statement.rightEdges_le {tokens : List Token} {node : Node}
    (derived : Statement tokens node) : node.rightEdges ≤ 2 * (mostOpen tokens + 1) := by
  cases derived with
  | print kind opens body closes =>
    rw [(body.nests.print kind opens closes).mostOpen_eq]
    exact body.rightEdges_le
  | assignment kind assigns body =>
    rw [(body.nests.assignment kind assigns).mostOpen_eq]
    exact body.rightEdges_le

theorem Expression.statementFree {phrase : Phrase} {tokens : List Token} {node : Node}
    (derived : Expression phrase tokens node) : node.statementFree := by
  induction derived with
  | number | string | reference => rfl
  | parenthesised opens body closes ih => exact ih
  | single operand ih => exact ih
  | join first found last ihFirst ihLast => exact Bool.and_eq_true_iff.mpr ⟨ihFirst, ihLast⟩

end Derivation

theorem rightEdges_of_parse {limit : Nat} {source : String} {nodes : List Node}
    (returned : (parse limit source).program = .ok nodes) {node : Node} (member : node ∈ nodes) :
    node.rightEdges ≤ 2 * (mostOpen (Scanner.start source).tokens + 1) := by
  obtain ⟨own, derived, less⟩ := statement_of_parse returned member
  have few := derived.rightEdges_le
  omega

/-- Levels for the right operands on a path, and one more for the tree itself, are enough. -/
theorem enough_levels {node : Node} (free : node.statementFree) {levels : Nat}
    (enough : node.rightEdges + 1 ≤ levels) (env : Bindings) (sums : List (Int × Int)) :
    (∃ text, node.render levels = .ok text ∧ node.written = .ok text) ∧
      (evaluate env levels node).run.run sums = (Evaluation.direct env node).run.run sums := by
  have fits : node.levels ≤ levels := Nat.le_trans (Node.levels_le_rightEdges free) enough
  constructor
  · obtain ⟨text, wrote⟩ := Node.written_of_statementFree free
    have same := (node.render_agrees levels).resolve_right fun stopped => stopped.1 fits
    exact ⟨text, same.trans wrote, wrote⟩
  · exact Evaluation.evaluate_of_levels fits env sums

/-- Nesting consumes recursion and length does not. Reading ends as it would without a limit,
unless more factors than the limit are open at once. A path of a tree that was read enters at most
two right operands for each open factor and two for the tree itself. Such trees, however long
their left spines are, are written and evaluated in as many levels and one more. -/
theorem recursion_bounded_by_nesting (limit : Nat) (source : String) :
    (parse limit source = parseFreely source ∨
      (parse limit source).program = .error .tooDeep ∧
        limit < mostOpen (Scanner.start source).tokens) ∧
    (parseFreely source).program ≠ .error .tooDeep ∧
    (∀ larger, source.length ≤ larger → parse larger source = parseFreely source) ∧
    (∀ nodes, (parse limit source).program = .ok nodes →
      mostOpen (Scanner.start source).tokens ≤ limit ∧
      ∀ node ∈ nodes, node.rightEdges ≤ 2 * (mostOpen (Scanner.start source).tokens + 1)) ∧
    (∀ (w : Window Scanner) (r : Grammar.Reading w), Grammar.expression limit w = .ok r →
      ∃ tokens, w.Passes tokens r.window ∧ r.node.statementFree ∧
        r.node.rightEdges ≤ 2 * (mostOpen tokens + 1)) ∧
    ∀ (node : Node) (edges levels : Nat), node.statementFree → node.rightEdges ≤ edges →
      edges + 1 ≤ levels →
      (∃ text, node.render levels = .ok text ∧ node.written = .ok text) ∧
      ∀ env sums, (evaluate env levels node).run.run sums =
          (Evaluation.direct env node).run.run sums ∧
        ∀ after, (evaluate env levels node).run.run sums ≠ (.error .tooDeep, after) := by
  refine ⟨?_, parseFreely_clear source, ?_, ?_, ?_, ?_⟩
  · by_cases deep : (parse limit source).program = .error .tooDeep
    · exact .inr ⟨deep, mostOpen_of_tooDeep deep⟩
    · exact .inl (parse_eq_parseFreely deep)
  · intro larger enough
    exact parse_eq_parseFreely (parse_unreached enough)
  · intro nodes returned
    exact ⟨mostOpen_of_parse returned, fun node member => rightEdges_of_parse returned member⟩
  · intro w r read
    obtain ⟨tokens, passed, derived⟩ := Grammar.expression_sound limit read
    exact ⟨tokens, passed, derived.statementFree, derived.rightEdges_le⟩
  · intro node edges levels free few enough
    have fits : node.rightEdges + 1 ≤ levels := by omega
    refine ⟨(enough_levels free fits .empty []).1, fun env sums => ?_⟩
    have same := (enough_levels free fits env sums).2
    refine ⟨same, fun after stopped => ?_⟩
    exact Evaluation.direct_ne_tooDeep free (same.symm.trans stopped)

/-- One factor is open at most, and a path enters four right operands, as many as may be. -/
theorem recursion_bounded_by_nesting_tight :
    let source := "x = 1 + 2 * (3 + 4 * 5)"
    let w := Window.view (Scanner.start "1 + 2 * (3 + 4 * 5)")
    let number (n : Int) : Node := .number n .unknown
    let binary (op : Operator) (left right : Node) : Node := .binary op left right .unknown
    let node := binary .add (number 1) (binary .mul (number 2)
      (binary .add (number 3) (binary .mul (number 4) (number 5))))
    (parse 0 source).program = .error .tooDeep ∧
    (∃ nodes, (parse 1 source).program = .ok nodes ∧
      ∀ node ∈ nodes, node.rightEdges = 4 ∧
        node.rightEdges ≤ 2 * (mostOpen (Scanner.start source).tokens + 1)) ∧
    (∃ r tokens, Grammar.expression 1 w = .ok r ∧ w.Passes tokens r.window ∧
      r.node.rightEdges ≤ 2 * (mostOpen tokens + 1)) ∧
    node.rightEdges = 4 ∧ node.render 4 = .error .tooDeep ∧ (∃ text, node.render 5 = .ok text) ∧
    (evaluate .empty 5 node).run.run [] = (Evaluation.direct .empty node).run.run [] := by
  intro source w number binary node
  obtain ⟨stops, -⟩ := recursion_bounded_by_nesting 0 source
  obtain ⟨-, -, -, few, read, levels⟩ := recursion_bounded_by_nesting 1 source
  refine ⟨?_, ?_, ?_, rfl, rfl, ?_⟩
  · have fails : (parse 0 source).program.toBool = false := by decide +kernel
    have returns : (parseFreely source).program.toBool = true := by decide +kernel
    rcases stops with same | ⟨deep, -⟩
    · rw [same, returns] at fails
      contradiction
    · exact deep
  · have computed : (parse 1 source).program.toBool = true ∧
        ∀ nodes ∈ (parse 1 source).program.toOption, ∀ node ∈ nodes, node.rightEdges = 4 := by
      decide +kernel
    cases outcome : (parse 1 source).program with
    | error failure =>
      rw [outcome] at computed
      exact absurd computed.1 Bool.false_ne_true
    | ok nodes =>
      rw [outcome] at computed
      exact ⟨nodes, rfl, fun node member =>
        ⟨computed.2 nodes rfl node member, (few nodes outcome).2 node member⟩⟩
  · have computed : (Grammar.expression 1 w).toBool = true := by decide +kernel
    cases outcome : Grammar.expression 1 w with
    | error halt =>
      rw [outcome] at computed
      contradiction
    | ok r =>
      obtain ⟨tokens, passed, -, bound⟩ := read w r outcome
      exact ⟨r, tokens, rfl, passed, bound⟩
  · obtain ⟨⟨text, wrote, -⟩, values⟩ := levels node 4 5 rfl (by decide) (by decide)
    exact ⟨⟨text, wrote⟩, (values .empty []).1⟩

end IntScript

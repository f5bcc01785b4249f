import IntScript.Proofs.DirectEvaluation
import IntScript.Proofs.Parsing
import IntScript.Proofs.Running

/-! What an error in a program is to be blamed on. A statement of the shape that sources
have fails because of one of its parts: a name that is not bound, a text where a number is
wanted, or a division whose divisor is zero. Each part was made of a token of the source,
and the error carries the place of that token. -/
namespace IntScript

/-- A tree stands somewhere in another. -/
inductive Node.Part (part : Node) : Node → Prop where
  | whole : Part part part
  | left {op : Operator} {left right : Node} {place : Place} (inside : Part part left) :
      Part part (.binary op left right place)
  | right {op : Operator} {left right : Node} {place : Place} (inside : Part part right) :
      Part part (.binary op left right place)
  | value {name : String} {value : Node} {place : Place} (inside : Part part value) :
      Part part (.assignment name value place)
  | argument {argument : Node} {place : Place} (inside : Part part argument) :
      Part part (.print argument place)

/-- The error is the fault of a part of the tree. -/
def EvalError.Blames (env : Bindings) (node : Node) : EvalError → Prop
  | .unbound name place => Node.Part (.reference name place) node ∧ env.get? name = none
  | .stringOperand text place => Node.Part (.string text place) node
  | .zeroDivision expr place => ∃ left right,
      Node.Part (.binary .div left right place) node ∧
      (Node.binary .div left right place).written = .ok expr ∧
      ∃ sums after, (Evaluation.direct env right).run.run sums = (.ok 0, after)
  | .notStatement .. | .notExpression .. | .operandStatement _ | .tooDeep => False

theorem EvalError.Blames.widen {env : Bindings} {part whole : Node} {e : EvalError}
    (blames : e.Blames env part)
    (wider : ∀ {other : Node}, Node.Part other part → Node.Part other whole) :
    e.Blames env whole := by
  cases e with
  | unbound name place => exact ⟨wider blames.1, blames.2⟩
  | stringOperand text place => exact wider blames
  | zeroDivision expr place =>
    obtain ⟨left, right, inside, others⟩ := blames
    exact ⟨left, right, wider inside, others⟩
  | _ => contradiction

namespace Evaluation

theorem run_bind_error {α β : Type} {x : Evaluation α} {next : α → Evaluation β}
    {sums after : List (Int × Int)} {e : EvalError}
    (failed : (x >>= next).run.run sums = (.error e, after)) :
    x.run.run sums = (.error e, after) ∨
      ∃ a middle, x.run.run sums = (.ok a, middle) ∧
        (next a).run.run middle = (.error e, after) := by
  rw [run_bind] at failed
  rcases outcome : x.run.run sums with ⟨e' | a, middle⟩
  · rw [outcome] at failed
    cases failed
    exact .inl rfl
  · rw [outcome] at failed
    exact .inr ⟨a, middle, rfl, failed⟩

/-- Operators fail on numbers for one reason only. -/
theorem operate_error {whole : Node} {op : Operator} {a b : Int} {sums after : List (Int × Int)}
    {e : EvalError} (shape : whole.isExpression)
    (failed : (operate whole op a b).run.run sums = (.error e, after)) :
    op = .div ∧ b = 0 ∧ ∃ expr, whole.written = .ok expr ∧ e = .zeroDivision expr whole.place := by
  unfold operate at failed
  split at failed
  · next zero =>
    -- a tree of this shape can always be written out
    have text := Node.written_of_isExpression shape
    simp only [written, text] at failed
    cases failed
    exact ⟨zero.1, zero.2, _, text, rfl⟩
  · cases op <;> cases failed

theorem direct_blames {env : Bindings} {node : Node} {sums after : List (Int × Int)}
    {e : EvalError} (shape : node.isExpression)
    (failed : (direct env node).run.run sums = (.error e, after)) : e.Blames env node := by
  induction node generalizing sums after with
  | number => cases failed
  | string text place =>
    cases failed
    exact .whole
  | reference name place =>
    rw [direct] at failed
    split at failed
    · cases failed
    · next unbound =>
      cases failed
      exact ⟨.whole, unbound⟩
  | binary op left right place ihLeft ihRight =>
    obtain ⟨shapeLeft, shapeRight⟩ := Bool.and_eq_true_iff.mp shape
    rcases run_bind_error failed with failedLeft | ⟨a, middle, -, failed⟩
    · exact (ihLeft shapeLeft failedLeft).widen .left
    rcases run_bind_error failed with failedRight | ⟨b, last, ranRight, failed⟩
    · exact (ihRight shapeRight failedRight).widen .right
    · obtain ⟨rfl, rfl, expr, text, rfl⟩ := operate_error shape failed
      exact ⟨left, right, .whole, text, middle, last, ranRight⟩
  | assignment | print => contradiction

theorem evaluate_blames {env : Bindings} {limit : Nat} {node : Node}
    {sums after : List (Int × Int)} {e : EvalError} (shape : node.isExpression)
    (failed : (evaluate env limit node).run.run sums = (.error e, after)) :
    e.Blames env node ∨ e = .tooDeep ∧ limit < node.levels := by
  rcases evaluate_agrees env limit node sums with same | ⟨low, stopped⟩
  · rw [same] at failed
    exact .inl (direct_blames shape failed)
  · rw [failed] at stopped
    cases stopped
    exact .inr ⟨rfl, Nat.not_le.mp low⟩

end Evaluation

namespace Machine

theorem withValue_blames {m after : Machine} {limit : Nat} {node : Node}
    {use : Machine → Int → Machine} {e : EvalError} (shape : node.isExpression)
    (failed : m.withValue limit node use = (.error e, after)) :
    e.Blames m.bindings node ∨ e = .tooDeep ∧ limit < node.levels := by
  obtain ⟨sums, stopped, -⟩ := withValue_fails failed
  exact Evaluation.evaluate_blames shape stopped

/-- A statement that fails is to be blamed, unless it is nested too deep. -/
theorem execute_blames {m after : Machine} {limit : Nat} {statement : Node} {e : EvalError}
    (shape : statement.isStatement)
    (failed : m.execute limit statement = (.error e, after)) :
    e.Blames m.bindings statement ∨ e = .tooDeep ∧ limit < statement.levels := by
  unfold execute at failed
  split at failed
  · next name value place =>
    have shapeValue := (Bool.and_eq_true_iff.mp shape).2
    rcases withValue_blames shapeValue failed with blames | ⟨deep, low⟩
    · exact .inl (blames.widen .value)
    · exact .inr ⟨deep, Nat.lt_succ_of_lt low⟩
  · cases failed
  · next argument place _ =>
    rcases withValue_blames shape failed with blames | ⟨deep, low⟩
    · exact .inl (blames.widen .argument)
    · exact .inr ⟨deep, Nat.lt_succ_of_lt low⟩
  · next assignments texts prints =>
    cases statement with
    | assignment name value place => exact absurd rfl (assignments name value place)
    | print argument place => exact absurd rfl (prints argument place)
    | _ => contradiction

end Machine

/-- The node was made of the token, and stands at its place. -/
def Node.MadeOf : Node → Token → Prop
  | .number value place, t => t.kind = .number ∧
      value = Nat.ofDigitChars 10 t.lexeme.toList 0 ∧ place = .ofPosition t.position
  | .string text place, t => t.kind = .string ∧
      text = String.ofList (t.lexeme.toList.drop 1).dropLast ∧ place = .ofPosition t.position
  | .reference name place, t | .assignment name _ place, t => t.kind = .identifier ∧
      name = t.lexeme ∧ place = .ofPosition t.position
  | .binary op _ _ place, t => (∃ level : Level, level.Joins t.kind op) ∧
      place = .ofPosition t.position
  | .print _ place, t => t.kind = .print ∧ place = .ofPosition t.position

namespace Derivation

theorem Expression.part_made {phrase : Phrase} {tokens : List Token} {node part : Node}
    (derived : Expression phrase tokens node) (inside : part.Part node) :
    ∃ t ∈ tokens, part.MadeOf t := by
  induction derived with
  | number kind =>
    cases inside
    exact ⟨_, List.mem_cons_self, kind, rfl, rfl⟩
  | string kind =>
    cases inside
    exact ⟨_, List.mem_cons_self, kind, rfl, rfl⟩
  | reference kind =>
    cases inside
    exact ⟨_, List.mem_cons_self, kind, rfl, rfl⟩
  | parenthesised opens body closes ih =>
    obtain ⟨t, member, made⟩ := ih inside
    exact ⟨t, by simp [member], made⟩
  | single operand ih => exact ih inside
  | join first found last ihFirst ihLast =>
    cases inside with
    | whole => exact ⟨_, by simp, ⟨_, found⟩, rfl⟩
    | left inside =>
      obtain ⟨t, member, made⟩ := ihFirst inside
      exact ⟨t, by simp [member], made⟩
    | right inside =>
      obtain ⟨t, member, made⟩ := ihLast inside
      exact ⟨t, by simp [member], made⟩

theorem Statement.part_made {tokens : List Token} {node part : Node}
    (derived : Statement tokens node) (inside : part.Part node) :
    ∃ t ∈ tokens, part.MadeOf t := by
  cases derived with
  | print kind opens body closes =>
    cases inside with
    | whole => exact ⟨_, List.mem_cons_self, kind, rfl⟩
    | argument inside =>
      obtain ⟨t, member, made⟩ := body.part_made inside
      exact ⟨t, by simp [member], made⟩
  | assignment kind assigns body =>
    cases inside with
    | whole => exact ⟨_, List.mem_cons_self, kind, rfl, rfl⟩
    | value inside =>
      obtain ⟨t, member, made⟩ := body.part_made inside
      exact ⟨t, by simp [member], made⟩

theorem Statements.part_made {tokens : List Token} {nodes : List Node} {node part : Node}
    (derived : Statements tokens nodes) (member : node ∈ nodes) (inside : part.Part node) :
    ∃ t ∈ tokens, part.MadeOf t := by
  induction derived with
  | none => contradiction
  | more statement blank others ih =>
    rcases List.mem_cons.mp member with rfl | member
    · obtain ⟨t, found, made⟩ := statement.part_made inside
      exact ⟨t, by simp [found], made⟩
    · obtain ⟨t, found, made⟩ := ih member
      exact ⟨t, by simp [found], made⟩

end Derivation

/-- Every part of a statement that was read was made of a token of the source. -/
theorem part_made_of_parse {limit : Nat} {source : String} {nodes : List Node} {node part : Node}
    (read : (parse limit source).program = .ok nodes) (member : node ∈ nodes)
    (inside : part.Part node) : ∃ t ∈ (Scanner.start source).upcoming, part.MadeOf t := by
  obtain ⟨newlines, rest, whole, -, statements⟩ := program_of_parse read
  obtain ⟨t, found, made⟩ := statements.part_made member inside
  exact ⟨t, whole ▸ List.mem_append_right newlines found, made⟩

end IntScript

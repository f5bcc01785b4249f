import IntScript.Proofs.DirectEvaluation
import IntScript.Proofs.Erasure
import IntScript.Proofs.Running

/-! Statements run again. What a run that succeeds does depends on the bindings it starts
from and on the statements up to places. The text written before it and the sums formed
before it stay in front of its own. -/
namespace IntScript

theorem Node.kind_erase (node : Node) : node.erase.kind = node.kind := by
  cases node <;> rfl

theorem Node.kind_of_erase {node other : Node} (same : node.erase = other.erase) :
    node.kind = other.kind := by
  rw [← kind_erase node, same, kind_erase]

namespace Evaluation

/-- Whatever value the first computation gives, the second gives too, after any sums. -/
def Follows {α : Type} (x y : Evaluation α) : Prop :=
  ∀ sums after value, x.run.run sums = (.ok value, after) →
    ∀ sums', ∃ after', y.run.run sums' = (.ok value, after')

theorem Follows.bind {α β : Type} {x y : Evaluation α} {next next' : α → Evaluation β}
    (first : Follows x y) (second : ∀ a, Follows (next a) (next' a)) :
    Follows (x >>= next) (y >>= next') := by
  intro sums after value ran sums'
  obtain ⟨a, middle, ranFirst, ranSecond⟩ := run_bind_ok ran
  obtain ⟨middle', ranFirst'⟩ := first _ _ _ ranFirst sums'
  rw [run_bind, ranFirst']
  exact second a _ _ _ ranSecond middle'

theorem follows_pure {α : Type} (value : α) : Follows (pure value) (pure value) := by
  intro sums after value ran sums'
  cases ran
  exact ⟨sums', rfl⟩

theorem apply_follows (limit : Nat) (whole whole' : Node) (op : Operator) (a b : Int) :
    Follows (apply limit whole op a b) (apply limit whole' op a b) := by
  intro sums after value ran sums'
  cases op with
  | add =>
    cases ran
    exact ⟨(a, b) :: sums', rfl⟩
  | sub | mul => exact follows_pure _ _ _ _ ran sums'
  | div =>
    unfold apply at ran ⊢
    cases quotient : divide? a b with
    | some q =>
      simp only [quotient] at ran ⊢
      exact follows_pure q _ _ _ ran sums'
    | none =>
      simp only [quotient] at ran
      exact absurd ran throw_not_ok

-- The left operand stays on the spine, so the induction is on the tree there and on the
-- limit for all other operands.
theorem leftward_follows {env : Bindings} {limit : Nat}
    (below : ∀ {node other : Node}, node.erase = other.erase →
      Follows (evaluate env limit node) (evaluate env limit other))
    {node other : Node} (same : node.erase = other.erase) :
    Follows (leftward env limit node) (leftward env limit other) := by
  induction node generalizing other with
  | binary op left right place ih _ =>
    cases other with
    | binary op' left' right' place' =>
      simp only [Node.erase, Node.binary.injEq] at same
      obtain ⟨rfl, sameLeft, sameRight, -⟩ := same
      refine (ih sameLeft).bind fun a => ?_
      refine (below sameRight).bind fun b => ?_
      exact apply_follows (limit + 1) _ _ op a b
    | _ => cases same
  | _ =>
    have other : other.kind ≠ .binary := by
      rw [← Node.kind_of_erase same]
      simp [Node.kind]
    rw [leftward_of_kind (by simp [Node.kind]), leftward_of_kind other]
    exact below same

theorem evaluate_follows {env : Bindings} {limit : Nat} {node other : Node}
    (same : node.erase = other.erase) :
    Follows (evaluate env limit node) (evaluate env limit other) := by
  induction limit generalizing node other with
  | zero =>
    intro sums after value ran
    cases ran
  | succ limit below =>
    cases node with
    | number value place =>
      cases other with
      | number value' place' =>
        simp only [Node.erase, Node.number.injEq] at same
        obtain ⟨rfl, -⟩ := same
        exact follows_pure value
      | _ => cases same
    | string text place =>
      intro sums after value ran
      cases ran
    | reference name place =>
      cases other with
      | reference name' place' =>
        simp only [Node.erase, Node.reference.injEq] at same
        obtain ⟨rfl, -⟩ := same
        intro sums after value ran
        unfold evaluate at ran ⊢
        cases bound : env.get? name with
        | some n =>
          simp only [bound] at ran ⊢
          exact follows_pure n _ _ _ ran
        | none =>
          simp only [bound] at ran
          cases ran
      | _ => cases same
    | binary op left right place =>
      cases other with
      | binary op' left' right' place' =>
        rw [evaluate_binary, evaluate_binary]
        exact leftward_follows below same
      | _ => cases same
    | assignment name value place =>
      intro sums after value ran
      exact absurd ran throw_not_ok
    | print argument place =>
      intro sums after value ran
      exact absurd ran throw_not_ok

end Evaluation

namespace Machine

/-- One run led from `m` to `after`, another one from `m'` to `after'`, with the same
effect. -/
structure SameEffect (m after m' after' : Machine) : Prop where
  bindings : after'.bindings = after.bindings
  output : ∃ written, after.output = m.output ++ written ∧ after'.output = m'.output ++ written

theorem withValue_rerun {m after m' : Machine} {limit : Nat} {node other : Node}
    {use : Machine → Int → Machine} (ran : m.withValue limit node use = (.ok (), after))
    (same : node.erase = other.erase) (bindings : m'.bindings = m.bindings)
    (effect : ∀ sums sums' value, SameEffect m (use { m with sums } value) m'
      (use { m' with sums := sums' } value)) :
    ∃ after', m'.withValue limit other use = (.ok (), after') ∧ SameEffect m after m' after' := by
  obtain ⟨value, sums, evaluated, rfl⟩ := withValue_returns ran
  obtain ⟨sums', evaluated'⟩ := Evaluation.evaluate_follows same _ _ _ evaluated m'.sums
  rw [← bindings] at evaluated'
  refine ⟨use { m' with sums := sums' } value, ?_, effect sums sums' value⟩
  rw [withValue, evaluated']

theorem writeLine_sameEffect {m m' : Machine} (bindings : m'.bindings = m.bindings)
    (line : String) (sums sums' : List (Int × Int)) :
    SameEffect m (writeLine { m with sums } line) m' (writeLine { m' with sums := sums' } line) :=
  ⟨bindings, line ++ "\n", String.append_assoc .., String.append_assoc ..⟩

theorem execute_rerun {m after m' : Machine} {limit : Nat} {statement other : Node}
    (done : m.execute limit statement = (.ok (), after)) (same : statement.erase = other.erase)
    (bindings : m'.bindings = m.bindings) :
    ∃ after', m'.execute limit other = (.ok (), after') ∧ SameEffect m after m' after' := by
  cases statement with
  | assignment name value place =>
    cases other with
    | assignment name' value' place' =>
      simp only [Node.erase, Node.assignment.injEq] at same
      obtain ⟨rfl, sameValue, -⟩ := same
      rw [execute_assignment] at done ⊢
      refine withValue_rerun done sameValue bindings fun sums sums' n => ?_
      exact ⟨by rw [bindings], "", by simp, by simp⟩
    | _ => cases same
  | print argument place =>
    cases other with
    | print argument' place' =>
      simp only [Node.erase, Node.print.injEq] at same
      have sameKind := Node.kind_of_erase same.1
      by_cases text : argument.kind = .string
      · cases argument with
        | string line textPlace =>
          cases argument' with
          | string line' textPlace' =>
            simp only [Node.erase, Node.string.injEq] at same
            obtain ⟨⟨rfl, -⟩, -⟩ := same
            cases done
            exact ⟨_, rfl, writeLine_sameEffect bindings line m.sums m'.sums⟩
          | _ => cases sameKind
        | _ => cases text
      · rw [execute_print text] at done
        rw [execute_print (sameKind ▸ text)]
        refine withValue_rerun done same.1 bindings fun sums sums' n => ?_
        exact writeLine_sameEffect bindings (toString n) sums sums'
    | _ => cases same
  | _ =>
    simp only [execute] at done
    split at done <;> cases done

/-- Statements that ran once run again, up to places, from any machine with the same
bindings, and with the same effect. -/
theorem run_rerun {m after : Machine} {limit : Nat} {program other : List Node}
    (ran : m.run limit program = (.ok (), after))
    (same : program.map Node.erase = other.map Node.erase) (m' : Machine)
    (bindings : m'.bindings = m.bindings) :
    ∃ after', m'.run limit other = (.ok (), after') ∧ SameEffect m after m' after' := by
  induction program generalizing m m' other with
  | nil =>
    obtain rfl := List.map_eq_nil_iff.mp same.symm
    cases ran
    exact ⟨m', rfl, bindings, "", by simp, by simp⟩
  | cons statement program ih =>
    obtain ⟨statement', other, rfl, sameFirst, sameRest⟩ := List.map_eq_cons_iff.mp same.symm
    obtain ⟨middle, done, ran⟩ := run_cons_returns ran
    obtain ⟨middle', done', bindings', first, output, output'⟩ :=
      execute_rerun done sameFirst.symm bindings
    obtain ⟨after', ran', bindings', rest, outputRest, outputRest'⟩ :=
      ih ran sameRest.symm middle' bindings'
    refine ⟨after', ?_, bindings', first ++ rest, ?_, ?_⟩
    · rw [run_cons_ok other done', ran']
    · rw [outputRest, output, String.append_assoc]
    · rw [outputRest', output', String.append_assoc]

end Machine
end IntScript

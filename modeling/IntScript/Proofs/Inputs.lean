import IntScript.Proofs.Blame

/-! What a program takes in. A name is an input if some statement reads it before any statement
binds it. Runs that start from bindings with the same inputs go the same way, to the same end, and
a name that is found unbound is always an input. -/
namespace IntScript

namespace Node

/-- The names that a tree refers to. -/
def reads : Node → List String
  | .number .. | .string .. => []
  | .reference name _ => [name]
  | .binary _ left right _ => left.reads ++ right.reads
  | .assignment _ value _ => value.reads
  | .print argument _ => argument.reads

/-- The name that a statement binds. -/
def target? : Node → Option String
  | .assignment name _ _ => some name
  | _ => none

theorem Part.reads {name : String} {place : Place} {node : Node}
    (inside : Part (.reference name place) node) : name ∈ node.reads := by
  induction inside with
  | whole => exact List.mem_cons_self
  | left _ ih => exact List.mem_append_left _ ih
  | right _ ih => exact List.mem_append_right _ ih
  | value _ ih | argument _ ih => exact ih

end Node

/-- One of the statements binds the name. -/
def Binds (program : List Node) (name : String) : Prop :=
  ∃ statement ∈ program, statement.target? = some name

/-- A statement reads the name, and no earlier one binds it. -/
def Inputs (program : List Node) (name : String) : Prop :=
  ∃ before statement behind, program = before ++ statement :: behind ∧
    name ∈ statement.reads ∧ ¬ Binds before name

theorem binds_cons {statement : Node} {rest : List Node} {name : String} :
    Binds (statement :: rest) name ↔ statement.target? = some name ∨ Binds rest name := by
  simp [Binds]

theorem not_inputs_nil {name : String} : ¬ Inputs [] name := by
  simp [Inputs]

theorem inputs_cons {statement : Node} {rest : List Node} {name : String} :
    Inputs (statement :: rest) name ↔
      name ∈ statement.reads ∨ statement.target? ≠ some name ∧ Inputs rest name := by
  constructor
  · rintro ⟨before, reading, behind, split, reads, unbound⟩
    cases before with
    | nil =>
      obtain ⟨rfl, -⟩ := List.cons.inj split
      exact .inl reads
    | cons first before =>
      obtain ⟨rfl, rfl⟩ := List.cons.inj split
      rw [binds_cons, not_or] at unbound
      exact .inr ⟨unbound.1, before, reading, behind, rfl, reads, unbound.2⟩
  · rintro (reads | ⟨other, before, reading, behind, rfl, reads, unbound⟩)
    · exact ⟨[], statement, rest, rfl, reads, by simp [Binds]⟩
    · refine ⟨statement :: before, reading, behind, rfl, reads, ?_⟩
      rw [binds_cons, not_or]
      exact ⟨other, unbound⟩

/-- Both have the name unbound, or bound to the same integer. -/
def Bindings.Agree (names : String → Prop) (env env' : Bindings) : Prop :=
  ∀ name, names name → env'.get? name = env.get? name

namespace Evaluation
variable {env env' : Bindings} {limit : Nat} {node : Node}

theorem leftward_of_agree
    (below : ∀ {node : Node}, env.Agree (· ∈ node.reads) env' →
      evaluate env' limit node = evaluate env limit node)
    (agree : env.Agree (· ∈ node.reads) env') :
    leftward env' limit node = leftward env limit node := by
  induction node with
  | binary op left right place ih _ =>
    have agreeLeft : env.Agree (· ∈ left.reads) env' :=
      fun name reads => agree name (List.mem_append_left _ reads)
    have agreeRight : env.Agree (· ∈ right.reads) env' :=
      fun name reads => agree name (List.mem_append_right _ reads)
    rw [leftward, leftward, ih agreeLeft, below agreeRight]
  | _ => exact below agree

/-- An expression is evaluated alike wherever the names it refers to are the same. -/
theorem evaluate_of_agree (agree : env.Agree (· ∈ node.reads) env') :
    evaluate env' limit node = evaluate env limit node := by
  induction limit generalizing node with
  | zero => rfl
  | succ limit below =>
    cases node with
    | reference name place =>
      have same := agree name List.mem_cons_self
      rw [evaluate, evaluate, same]
    | binary op left right place =>
      rw [evaluate_binary, evaluate_binary]
      exact leftward_of_agree below agree
    | _ => rfl

end Evaluation

namespace Machine

/-- The machines differ in their bindings only, and not at these names. -/
structure Agree (names : String → Prop) (m m' : Machine) : Prop where
  bindings : m.bindings.Agree names m'.bindings
  output : m'.output = m.output
  sums : m'.sums = m.sums

/-- Two statements or runs end alike: both succeed, with machines that agree at some names, or both
fail for the same reason, with machines that agree at others. -/
inductive EndsAlike (succeeded failed : String → Prop) :
    Except EvalError Unit × Machine → Except EvalError Unit × Machine → Prop where
  | ok {after after' : Machine} (agree : after.Agree succeeded after') :
      EndsAlike succeeded failed (.ok (), after) (.ok (), after')
  | error {e : EvalError} {after after' : Machine} (agree : after.Agree failed after') :
      EndsAlike succeeded failed (.error e, after) (.error e, after')

variable {names : String → Prop} {m m' : Machine} {limit : Nat}

theorem Agree.weaken {fewer : String → Prop} (agree : m.Agree names m')
    (weaker : ∀ name, fewer name → names name) : m.Agree fewer m' :=
  { agree with bindings := fun name inside => agree.bindings name (weaker name inside) }

theorem Agree.writeLine (agree : m.Agree names m') (line : String) :
    (m.writeLine line).Agree names (m'.writeLine line) :=
  ⟨agree.bindings, by simp only [Machine.writeLine, agree.output], agree.sums⟩

theorem Agree.insert (agree : m.Agree names m') (target : String) (value : Int) :
    Agree (fun name => names name ∨ target = name)
      { m with bindings := m.bindings.insert target value }
      { m' with bindings := m'.bindings.insert target value } := by
  refine ⟨fun name inside => ?_, agree.output, agree.sums⟩
  rw [Bindings.get?_insert, Bindings.get?_insert]
  by_cases same : name = target
  · rw [if_pos same, if_pos same]
  · rw [if_neg same, if_neg same]
    exact agree.bindings name (inside.resolve_right (Ne.symm same))

theorem withValue_alike {more : String → Prop} {node : Node} {use : Machine → Int → Machine}
    (agree : m.Agree names m') (known : ∀ name ∈ node.reads, names name)
    (uses : ∀ {m m' : Machine} (value : Int), m.Agree names m' →
      (use m value).Agree more (use m' value)) :
    EndsAlike more names (m.withValue limit node use) (m'.withValue limit node use) := by
  have same : evaluate m'.bindings limit node = evaluate m.bindings limit node :=
    Evaluation.evaluate_of_agree fun name reads => agree.bindings name (known name reads)
  unfold withValue
  rw [same, agree.sums]
  rcases (evaluate m.bindings limit node).run.run m.sums with ⟨e | value, sums⟩
  · exact .error ⟨agree.bindings, agree.output, rfl⟩
  · exact .ok (uses value ⟨agree.bindings, agree.output, rfl⟩)

/-- A statement that reads no other names than these ends alike. If it succeeds the machines also
agree at the name that it binds. -/
theorem execute_alike (limit : Nat) (statement : Node) (agree : m.Agree names m')
    (known : ∀ name ∈ statement.reads, names name) :
    EndsAlike (fun name => names name ∨ statement.target? = some name) names
      (m.execute limit statement) (m'.execute limit statement) := by
  cases statement with
  | assignment target value place =>
    rw [execute_assignment, execute_assignment]
    refine withValue_alike agree known fun n agree => ?_
    refine (agree.insert target n).weaken fun name => Or.imp_right fun bound => ?_
    exact Option.some.inj bound
  | print argument place =>
    have weaker : ∀ name, names name ∨ (Node.print argument place).target? = some name →
        names name := by
      rintro name (inside | bound)
      · exact inside
      · cases bound
    by_cases text : argument.kind = .string
    · cases argument with
      | string line linePlace => exact .ok ((agree.writeLine line).weaken weaker)
      | _ => cases text
    · rw [execute_print text, execute_print text]
      exact withValue_alike agree known fun n agree =>
        (agree.writeLine (toString n)).weaken weaker
  | _ =>
    simp only [execute]
    split
    · exact .error agree
    · exact .error agree

theorem run_alike {program : List Node} {after : Machine} (agree : m.Agree names m')
    (known : ∀ name, Inputs program name → names name)
    (ran : m.run limit program = (.ok (), after)) :
    ∃ after', m'.run limit program = (.ok (), after') ∧
      after.Agree (fun name => names name ∨ Binds program name) after' := by
  induction program generalizing m m' names with
  | nil =>
    cases ran
    refine ⟨m', rfl, agree.weaken ?_⟩
    simp [Binds]
  | cons statement rest ih =>
    obtain ⟨middle, done, ran⟩ := run_cons_returns ran
    have first := execute_alike limit statement agree fun name reads =>
      known name (inputs_cons.mpr (.inl reads))
    rw [done] at first
    generalize done' : m'.execute limit statement = outcome at first
    cases first with
    | @ok _ middle' agree =>
      -- what the others take in was known before, or this statement has bound it
      have knownRest : ∀ name, Inputs rest name →
          names name ∨ statement.target? = some name := by
        intro name input
        by_cases bound : statement.target? = some name
        · exact .inr bound
        · exact .inl (known name (inputs_cons.mpr (.inr ⟨bound, input⟩)))
      obtain ⟨after', ran', agree'⟩ := ih agree knownRest ran
      refine ⟨after', by rw [run_cons_ok rest done', ran'], agree'.weaken ?_⟩
      intro name inside
      rwa [binds_cons, ← or_assoc] at inside

theorem inputs_of_reads {program : List Node} {k : Nat} {statement : Node} {name : String}
    (found : program[k]? = some statement) (reads : name ∈ statement.reads)
    (unbound : ¬ Binds (program.take k) name) : Inputs program name := by
  obtain ⟨inside, rfl⟩ := List.getElem?_eq_some_iff.mp found
  refine ⟨program.take k, _, program.drop (k + 1), ?_, reads, unbound⟩
  rw [← List.drop_eq_getElem_cons inside, List.take_append_drop]

theorem inputs_take {program : List Node} {k : Nat} {name : String}
    (input : Inputs (program.take k) name) : Inputs program name := by
  obtain ⟨before, statement, behind, split, reads, unbound⟩ := input
  refine ⟨before, statement, behind ++ program.drop k, ?_, reads, unbound⟩
  rw [← List.cons_append, ← List.append_assoc, ← split, List.take_append_drop]

theorem stopsAt_alike {program : List Node} {k : Nat} {before after : Machine} {e : EvalError}
    (agree : m.Agree (Inputs program) m')
    (stops : StopsAt limit program m k before e after) :
    ∃ before' after', StopsAt limit program m' k before' e after' ∧
      after.Agree (fun name => Inputs program name ∨ Binds (program.take k) name) after' := by
  obtain ⟨statement, found, failed⟩ := stops.fails
  obtain ⟨before', runs, agree⟩ := run_alike agree (fun _ => inputs_take) stops.runs
  have last := execute_alike limit statement agree fun name reads => by
    by_cases bound : Binds (program.take k) name
    · exact .inr bound
    · exact .inl (inputs_of_reads found reads bound)
  rw [failed] at last
  generalize failed' : before'.execute limit statement = outcome at last
  cases last with
  | @error _ _ after' agree => exact ⟨before', after', ⟨runs, statement, found, failed'⟩, agree⟩

theorem execute_binds {statement : Node} {after : Machine}
    (done : m.execute limit statement = (.ok (), after)) (name : String) :
    (after.bindings.get? name).isSome ↔
      (m.bindings.get? name).isSome ∨ statement.target? = some name := by
  unfold execute at done
  split at done
  · next target value place =>
    obtain ⟨n, sums, -, rfl⟩ := withValue_returns done
    rw [Bindings.get?_insert, Node.target?]
    by_cases same : name = target
    · simp [same]
    · simp [same, Ne.symm same]
  · cases done
    simp [writeLine, Node.target?]
  · obtain ⟨n, sums, -, rfl⟩ := withValue_returns done
    simp [writeLine, Node.target?]
  · split at done
    · cases done
    · cases done

/-- After a run the names are bound that were bound before or by one of its statements. -/
theorem run_binds {program : List Node} {after : Machine}
    (ran : m.run limit program = (.ok (), after)) (name : String) :
    (after.bindings.get? name).isSome ↔ (m.bindings.get? name).isSome ∨ Binds program name := by
  induction program generalizing m with
  | nil =>
    cases ran
    simp [Binds]
  | cons statement rest ih =>
    obtain ⟨middle, done, ran⟩ := run_cons_returns ran
    rw [ih ran, execute_binds done, binds_cons, or_assoc]

/-- A name that is found unbound was so before, and is an input. -/
theorem inputs_of_unbound {program : List Node} {name : String} {place : Place} {after : Machine}
    (shapes : ∀ statement ∈ program, statement.isStatement)
    (failed : m.run limit program = (.error (.unbound name place), after)) :
    Inputs program name ∧ m.bindings.get? name = none := by
  obtain ⟨k, before, runs, statement, found, fails⟩ := exists_stopsAt failed
  rcases execute_blames (shapes statement (List.mem_of_getElem? found)) fails with
    ⟨inside, unbound⟩ | ⟨deep, -⟩
  · have neither := mt (run_binds runs name).mpr (by simp [unbound])
    rw [not_or, Option.not_isSome_iff_eq_none] at neither
    exact ⟨inputs_of_reads found inside.reads neither.2, neither.1⟩
  · cases deep

/-- A program depends on the bindings it starts with through its inputs only. From bindings that
agree on these it succeeds just as well, or fails for the same reason at the same statement, with
the same output, and the bindings that it leaves agree on the inputs and on all names that the
statements before that one bind. A name is found unbound only if it is an input without a value, so
a program that binds every name before it reads it meets none. -/
theorem run_depends_on_inputs (limit : Nat) (program : List Node) :
    (∀ (m : Machine) (env : Bindings), m.bindings.Agree (Inputs program) env →
      let other : Machine := { m with bindings := env }
      (other.run limit program).1 = (m.run limit program).1 ∧
      (∀ after, m.run limit program = (.ok (), after) →
        ∃ after', other.run limit program = (.ok (), after') ∧
          after.Agree (fun name => Inputs program name ∨ Binds program name) after') ∧
      (∀ k before e after, StopsAt limit program m k before e after →
        ∃ before' after', StopsAt limit program other k before' e after' ∧
          after.Agree (fun name => Inputs program name ∨ Binds (program.take k) name) after')) ∧
    ((∀ statement ∈ program, statement.isStatement = true) →
      ∀ (m after : Machine) (name : String) (place : Place),
        m.run limit program = (.error (.unbound name place), after) →
          Inputs program name ∧ m.bindings.get? name = none) := by
  refine ⟨fun m env agree => ?_, fun shapes m after name place => inputs_of_unbound shapes⟩
  intro other
  have start : m.Agree (Inputs program) other := ⟨agree, rfl, rfl⟩
  refine ⟨?_, ?_, fun k before e after => stopsAt_alike start⟩
  · rcases ran : m.run limit program with ⟨e | ⟨⟩, after⟩
    · obtain ⟨k, before, stops⟩ := exists_stopsAt ran
      obtain ⟨before', after', stops', -⟩ := stopsAt_alike start stops
      rw [stops'.run_eq]
    · obtain ⟨after', ran', -⟩ := run_alike start (fun _ => id) ran
      rw [ran']
  · exact fun after => run_alike start fun _ => id

/-- The first statement reads the name that it binds, and the second fails. What it would have
bound is left as different as it was. -/
theorem run_depends_on_inputs_division :
    let x : Node := .reference "x" .unknown
    let program : List Node := [
      .assignment "x" (.binary .add x (.reference "y" .unknown) .unknown) .unknown,
      .assignment "z" (.binary .div x (.binary .sub x (.number 5 .unknown) .unknown) .unknown)
        .unknown]
    let m : Machine := { bindings := ⟨[("x", 2), ("y", 3), ("z", 9)]⟩ }
    let other : Machine := { bindings := ⟨[("y", 3), ("x", 2)]⟩ }
    m.bindings.Agree (Inputs program) other.bindings ∧
      ∃ before after, StopsAt 4 program other 1 before (.zeroDivision "x / (x - 5)" .unknown) after ∧
        after.bindings.get? "x" = some 5 := by
  intro x program m other
  have agree : m.bindings.Agree (Inputs program) other.bindings := by
    intro name input
    have known : name = "x" ∨ name = "y" := by
      simp [program, x, inputs_cons, not_inputs_nil, Node.reads, Node.target?] at input
      exact input.elim id fun other => absurd other.2.symm other.1
    rcases known with rfl | rfl
    · decide
    · decide
  have stops : StopsAt 4 program m 1 _ (.zeroDivision "x / (x - 5)" .unknown) _ :=
    ⟨rfl, _, rfl, rfl⟩
  obtain ⟨before, after, stops', same⟩ :=
    ((run_depends_on_inputs 4 program).1 m other.bindings agree).2.2 _ _ _ _ stops
  refine ⟨agree, before, after, stops', ?_⟩
  rw [same.bindings "x" (.inr (by simp [program, Binds, Node.target?]))]
  rfl

end Machine
end IntScript

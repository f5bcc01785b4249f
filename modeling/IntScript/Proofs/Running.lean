import IntScript.Evaluation

/-! Running statements one after the other. A statement that fails leaves the bindings
and the output as they were, and the run stops there: what was done before it stays,
what stands behind it is never looked at. -/
namespace IntScript.Machine

/-- Evaluating an expression hands on the machine as it was, except for the sums. -/
theorem withValue_outcome (m : Machine) (limit : Nat) (node : Node)
    (use : Machine → Int → Machine) :
    ∃ sums, (∃ n, m.withValue limit node use = (.ok (), use { m with sums } n)) ∨
      ∃ e, m.withValue limit node use = (.error e, { m with sums }) := by
  unfold withValue
  rcases (evaluate m.bindings limit node).run.run m.sums with ⟨e | n, sums⟩
  · exact ⟨sums, .inr ⟨e, rfl⟩⟩
  · exact ⟨sums, .inl ⟨n, rfl⟩⟩

theorem withValue_returns {m after : Machine} {limit : Nat} {node : Node}
    {use : Machine → Int → Machine} (ran : m.withValue limit node use = (.ok (), after)) :
    ∃ value sums, (evaluate m.bindings limit node).run.run m.sums = (.ok value, sums) ∧
      after = use { m with sums } value := by
  unfold withValue at ran
  rcases outcome : (evaluate m.bindings limit node).run.run m.sums with ⟨e | value, sums⟩
  · rw [outcome] at ran
    cases ran
  · rw [outcome] at ran
    cases ran
    exact ⟨value, sums, rfl, rfl⟩

theorem withValue_fails {m after : Machine} {limit : Nat} {node : Node}
    {use : Machine → Int → Machine} {e : EvalError}
    (failed : m.withValue limit node use = (.error e, after)) :
    ∃ sums, (evaluate m.bindings limit node).run.run m.sums = (.error e, sums) ∧
      after = { m with sums } := by
  unfold withValue at failed
  rcases outcome : (evaluate m.bindings limit node).run.run m.sums with ⟨e' | value, sums⟩
  · rw [outcome] at failed
    cases failed
    exact ⟨sums, rfl, rfl⟩
  · rw [outcome] at failed
    cases failed

theorem execute_assignment {m : Machine} {limit : Nat} {name : String} {value : Node}
    {place : Place} :
    m.execute limit (.assignment name value place) =
      m.withValue limit value fun m n => { m with bindings := m.bindings.insert name n } := rfl

theorem execute_print {m : Machine} {limit : Nat} {argument : Node} {place : Place}
    (value : argument.kind ≠ .string) :
    m.execute limit (.print argument place) =
      m.withValue limit argument fun m n => m.writeLine (toString n) := by
  cases argument with
  | string => exact absurd rfl value
  | _ => rfl

/-- A statement that fails leaves no trace in the bindings and the output. -/
theorem execute_failed {m after : Machine} {limit : Nat} {statement : Node} {e : EvalError}
    (failed : m.execute limit statement = (.error e, after)) :
    after.bindings = m.bindings ∧ after.output = m.output := by
  unfold execute at failed
  split at failed
  · obtain ⟨sums, -, rfl⟩ := withValue_fails failed
    exact ⟨rfl, rfl⟩
  · cases failed
  · obtain ⟨sums, -, rfl⟩ := withValue_fails failed
    exact ⟨rfl, rfl⟩
  · split at failed
    · cases failed
      exact ⟨rfl, rfl⟩
    · cases failed
      exact ⟨rfl, rfl⟩

theorem run_cons_ok {m middle : Machine} {limit : Nat} {statement : Node} (rest : List Node)
    (done : m.execute limit statement = (.ok (), middle)) :
    m.run limit (statement :: rest) = middle.run limit rest := by
  rw [run, done]

theorem run_cons_failed {m after : Machine} {limit : Nat} {statement : Node} {e : EvalError}
    (rest : List Node) (failed : m.execute limit statement = (.error e, after)) :
    m.run limit (statement :: rest) = (.error e, after) := by
  rw [run, failed]

theorem run_cons_returns {m after : Machine} {limit : Nat} {statement : Node} {rest : List Node}
    (ran : m.run limit (statement :: rest) = (.ok (), after)) :
    ∃ middle, m.execute limit statement = (.ok (), middle) ∧
      middle.run limit rest = (.ok (), after) := by
  rcases done : m.execute limit statement with ⟨e | ⟨⟩, middle⟩
  · rw [run_cons_failed rest done] at ran
    cases ran
  · rw [run_cons_ok rest done] at ran
    exact ⟨middle, rfl, ran⟩

/-- What a run of the first statements leaves is what the others start from. -/
theorem run_append_ok {m middle : Machine} {limit : Nat} {first : List Node} (second : List Node)
    (ran : m.run limit first = (.ok (), middle)) :
    m.run limit (first ++ second) = middle.run limit second := by
  induction first generalizing m with
  | nil =>
    cases ran
    rfl
  | cons statement first ih =>
    obtain ⟨next, done, ran⟩ := run_cons_returns ran
    rw [List.cons_append, run_cons_ok (first ++ second) done]
    exact ih ran

theorem run_append_failed {m after : Machine} {limit : Nat} {first : List Node} {e : EvalError}
    (second : List Node) (failed : m.run limit first = (.error e, after)) :
    m.run limit (first ++ second) = (.error e, after) := by
  induction first generalizing m with
  | nil => cases failed
  | cons statement first ih =>
    rcases done : m.execute limit statement with ⟨e' | ⟨⟩, next⟩
    · rw [run_cons_failed first done] at failed
      rw [List.cons_append, run_cons_failed (first ++ second) done, failed]
    · rw [run_cons_ok first done] at failed
      rw [List.cons_append, run_cons_ok (first ++ second) done]
      exact ih failed

/-- All statements succeed exactly if the first ones do and then the others. -/
theorem run_append_ok_iff {m after : Machine} {limit : Nat} {first second : List Node} :
    m.run limit (first ++ second) = (.ok (), after) ↔
      ∃ middle, m.run limit first = (.ok (), middle) ∧
        middle.run limit second = (.ok (), after) := by
  constructor
  · intro ran
    rcases done : m.run limit first with ⟨e | ⟨⟩, middle⟩
    · rw [run_append_failed second done] at ran
      cases ran
    · rw [run_append_ok second done] at ran
      exact ⟨middle, rfl, ran⟩
  · rintro ⟨middle, done, ran⟩
    rw [run_append_ok second done]
    exact ran

/-- The statements in front of number `k` succeed and lead to `before`, where that
statement fails and leaves `after`. -/
structure StopsAt (limit : Nat) (program : List Node) (m : Machine) (k : Nat) (before : Machine)
    (error : EvalError) (after : Machine) : Prop where
  runs : m.run limit (program.take k) = (.ok (), before)
  fails : ∃ statement, program[k]? = some statement ∧
    before.execute limit statement = (.error error, after)

namespace StopsAt
variable {limit : Nat} {program : List Node} {m before after : Machine} {k : Nat}
  {error : EvalError}

theorem run_take (stops : StopsAt limit program m k before error after) (others : List Node) :
    m.run limit (program.take (k + 1) ++ others) = (.error error, after) := by
  obtain ⟨statement, found, failed⟩ := stops.fails
  have upTo : program.take (k + 1) = program.take k ++ [statement] := by
    rw [List.take_add_one, found, Option.toList_some]
  rw [upTo, List.append_assoc, run_append_ok _ stops.runs]
  exact run_cons_failed others failed

theorem run_eq (stops : StopsAt limit program m k before error after) :
    m.run limit program = (.error error, after) := by
  have upTo := stops.run_take (program.drop (k + 1))
  rwa [List.take_append_drop] at upTo

theorem le_of_stops {before' after' : Machine} {k' : Nat} {error' : EvalError}
    (stops : StopsAt limit program m k before error after)
    (stops' : StopsAt limit program m k' before' error' after') : k' ≤ k := by
  apply Nat.not_lt.mp
  intro later
  -- the statements in front of the later one would include the one that fails
  have longer : program.take k' = program.take (k + 1) ++ (program.take k').drop (k + 1) := by
    have shorter : (program.take k').take (k + 1) = program.take (k + 1) := by
      rw [List.take_take, Nat.min_eq_left (by omega)]
    rw [← shorter, List.take_append_drop]
  have succeeds := stops'.runs
  rw [longer, stops.run_take] at succeeds
  cases succeeds

theorem unique {before' after' : Machine} {k' : Nat} {error' : EvalError}
    (stops : StopsAt limit program m k before error after)
    (stops' : StopsAt limit program m k' before' error' after') : k' = k :=
  Nat.le_antisymm (stops.le_of_stops stops') (stops'.le_of_stops stops)

end StopsAt

/-- A run that fails stops at one of its statements. -/
theorem exists_stopsAt {m after : Machine} {limit : Nat} {program : List Node} {error : EvalError}
    (failed : m.run limit program = (.error error, after)) :
    ∃ k before, StopsAt limit program m k before error after := by
  induction program generalizing m with
  | nil => cases failed
  | cons statement rest ih =>
    rcases done : m.execute limit statement with ⟨e | ⟨⟩, next⟩
    · rw [run_cons_failed rest done] at failed
      cases failed
      exact ⟨0, m, rfl, statement, rfl, done⟩
    · rw [run_cons_ok rest done] at failed
      obtain ⟨k, before, runs, other, found, fails⟩ := ih failed
      have started : m.run limit ((statement :: rest).take (k + 1)) = (.ok (), before) := by
        rw [List.take_succ_cons, run_cons_ok _ done, runs]
      exact ⟨k + 1, before, started, other, found, fails⟩

/-- A run that fails stops at exactly one statement. Bindings and output are what the
statements in front of it left, and any others might stand behind it. A statement that
fails changes neither, and neither does the evaluation of an expression. Programs that
succeed may be run one after the other. -/
theorem run_stops_without_trace (limit : Nat) :
    (∀ program m error after, run limit program m = (.error error, after) →
      ∃ k before, StopsAt limit program m k before error after ∧
        after.bindings = before.bindings ∧ after.output = before.output ∧
        (∀ others, m.run limit (program.take (k + 1) ++ others) = (.error error, after)) ∧
        ∀ k' before' error' after', StopsAt limit program m k' before' error' after' → k' = k) ∧
    (∀ statement m error after, execute limit statement m = (.error error, after) →
      after.bindings = m.bindings ∧ after.output = m.output) ∧
    (∀ (m : Machine) node use, ∃ sums,
      (∃ n, m.withValue limit node use = (.ok (), use { m with sums } n)) ∨
        ∃ e, m.withValue limit node use = (.error e, { m with sums })) ∧
    ∀ p q m after, run limit (p ++ q) m = (.ok (), after) ↔
      ∃ middle, run limit p m = (.ok (), middle) ∧ run limit q middle = (.ok (), after) := by
  refine ⟨?_, ?_, fun m node use => m.withValue_outcome limit node use, ?_⟩
  · intro program m error after failed
    obtain ⟨k, before, stops⟩ := exists_stopsAt failed
    obtain ⟨statement, -, fails⟩ := stops.fails
    obtain ⟨bindings, output⟩ := execute_failed fails
    exact ⟨k, before, stops, bindings, output, stops.run_take,
      fun _ _ _ _ stops' => stops.unique stops'⟩
  · intro statement m error after failed
    exact execute_failed failed
  · intro p q m after
    exact run_append_ok_iff

/-- An assignment that reads its own name and divides by zero, between two prints. -/
theorem run_stops_at_division :
    let x := Node.reference "x" .unknown
    let quotient := Node.binary .div x (.binary .sub x x .unknown) .unknown
    let program := [.assignment "x" (.number 7 .unknown) .unknown, .print x .unknown,
      .assignment "x" quotient .unknown, .print x .unknown]
    let error := EvalError.zeroDivision "x / (x - x)" .unknown
    ∃ before after, StopsAt depthLimit program {} 2 before error after ∧
      run depthLimit program {} = (.error error, after) ∧
      after.bindings = ⟨[("x", 7)]⟩ ∧ after.output = "7\n" := by
  intro x quotient program error
  let before : Machine := { bindings := ⟨[("x", 7)]⟩, output := "7\n" }
  have stops : StopsAt depthLimit program {} 2 before error before := ⟨rfl, _, rfl, rfl⟩
  have failed : run depthLimit program {} = (.error error, before) := rfl
  obtain ⟨k, middle, stops', -, -, -, unique⟩ :=
    (run_stops_without_trace depthLimit).1 program {} error before failed
  obtain rfl := unique 2 before error before stops
  exact ⟨middle, before, stops', failed, rfl, rfl⟩

end IntScript.Machine

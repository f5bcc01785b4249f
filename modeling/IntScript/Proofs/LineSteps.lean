import IntScript.Proofs.Closing

/-! What a source does that is added and run under the reporter's care: it cannot be read,
its run fails, or all goes well. A session at the prompt with nothing queued and nothing
registered comes out of all three as it went in, but for its bindings. -/
namespace IntScript

namespace Session
variable {source : String}

/-- What is written about unknown characters while a source is read. -/
def warningsOf (source : String) (s : Session) (r : Reporter) : String :=
  ((s.registered source r).warnAll (parse nestingLimit source).unknown).1

theorem runLine_of_failure {failure : ReadFailure} (s : Session) (r : Reporter)
    (failed : (parse nestingLimit source).program = .error failure) :
    runLine source s r =
      let closed := (s.registered source r).close (some (.ofRead r.host failure))
      { result := Trouble.toResult closed.2.2
        session := s
        reporter := closed.2.1
        err := warningsOf source s r ++ closed.1 } := by
  have sequence : runLine source s r =
      Action.guarded (Action.andThen (add source) fun _ => run) s r := rfl
  rw [sequence, Action.guarded, Action.andThen, add_of_failure s r failed]
  rfl

theorem runLine_of_error {program : List Node} {m : Machine} {e : EvalError} (s : Session)
    (r : Reporter) (read : (parse nestingLimit source).program = .ok program)
    (ran : Machine.run depthLimit (s.queue ++ program) { bindings := s.startBindings } =
      (.error e, m)) :
    runLine source s r =
      let closed := (s.registered source r).close (some (.ofEval r.host e))
      { result := Trouble.toResult closed.2.2
        session := afterRun { s with queue := s.queue ++ program } m
        reporter := closed.2.1
        out := m.output
        err := warningsOf source s r ++ closed.1 } := by
  have sequence : runLine source s r =
      Action.guarded (Action.andThen (add source) fun _ => run) s r := rfl
  have failed := run_of_error (s := { s with queue := s.queue ++ program })
    (s.registered source r) ran
  rw [sequence, Action.guarded, Action.andThen, add_of_parse s r read]
  simp only [failed, String.empty_append, String.append_empty]
  rfl

theorem runLine_of_ok {program : List Node} {m : Machine} (s : Session) (r : Reporter)
    (read : (parse nestingLimit source).program = .ok program)
    (ran : Machine.run depthLimit (s.queue ++ program) { bindings := s.startBindings } =
      (.ok (), m)) :
    runLine source s r = {
      result := .ok ()
      session := afterRun { s with queue := s.queue ++ program } m
      reporter := { r with registry := (r.registry.register s.path (some source)).remove s.path }
      out := m.output
      err := warningsOf source s r } := by
  have sequence : runLine source s r =
      Action.guarded (Action.andThen (add source) fun _ => run) s r := rfl
  have succeeded := run_of_ok (s := { s with queue := s.queue ++ program })
    (s.registered source r) ran
  rw [sequence, Action.guarded, Action.andThen, add_of_parse s r read]
  simp only [succeeded, Trouble.ofResult?, Reporter.close, Trouble.toResult, String.empty_append,
    String.append_empty]
  rfl

end Session

/-- A source that is registered first and removed again leaves nothing behind. -/
theorem Registry.remove_register_empty (path : String) (source : Option String) :
    (Registry.empty.register path source).remove path = .empty := by
  simp [empty, register, registerEntry, remove]

namespace Session

/-- With nothing queued and nothing registered, a line goes well or its trouble is written,
and it leaves the session and the reporter as they were but for the bindings. -/
theorem runLine_rests {s : Session} {r : Reporter} (prompt : s.atPrompt = true)
    (idle : s.queue = []) (lenient : r.fatal = false) (clean : r.registry = .empty)
    (source : String) :
    ∃ bindings, (runLine source s r).result = .ok () ∧
      (runLine source s r).session = { s with bindings } ∧ (runLine source s r).reporter = r := by
  have cleared : ({ s.registered source r with registry := .empty } : Reporter) = r := by
    rw [registered, ← clean]
  have idle' (program : List Node) (m : Machine) :
      afterRun { s with queue := s.queue ++ program } m = { s with bindings := m.bindings } := by
    simp [afterRun, prompt, ← idle]
  cases read : (parse nestingLimit source).program with
  | error failure =>
    obtain ⟨text, closed⟩ := Reporter.close_ordinary (r := s.registered source r) lenient
      (Trouble.ofRead_ordinary r.host failure)
    simp only [runLine_of_failure s r read, closed, cleared]
    exact ⟨s.bindings, rfl, rfl, trivial⟩
  | ok program =>
    rcases ran : Machine.run depthLimit (s.queue ++ program) { bindings := s.startBindings }
      with ⟨e | ⟨⟩, m⟩
    · have shapes : ∀ node ∈ s.queue ++ program, node.isStatement := by
        rw [idle, List.nil_append]
        exact shape_of_parse read
      obtain ⟨statement, -, due⟩ := Machine.run_error shapes ran
      have usual : e.Due statement ∨ e = .tooDeep := due.imp_right And.left
      obtain ⟨text, closed⟩ := Reporter.close_ordinary (r := s.registered source r) lenient
        (Trouble.ofEval_ordinary r.host usual)
      simp only [runLine_of_error s r read ran, closed, cleared, idle']
      exact ⟨m.bindings, rfl, rfl, trivial⟩
    · have removed := Registry.remove_register_empty s.path (some source)
      simp only [runLine_of_ok s r read ran, clean, removed, idle']
      refine ⟨m.bindings, trivial, rfl, ?_⟩
      rw [← clean]

end Session

end IntScript

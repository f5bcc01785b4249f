import IntScript.Proofs.Reporting

/-! What adding a source and running the queue do to a session. Warnings never get in the
way of adding, so it goes as the reading of the source does. -/
namespace IntScript

namespace Action
variable {α β : Type} {first : Action α} {second : α → Action β} {s : Session} {r : Reporter}

theorem bind_of_ok {a : α} (done : (first s r).result = .ok a) :
    (first >>= second) s r =
      let t := first s r
      let u := second a t.session t.reporter
      { u with out := t.out ++ u.out, err := t.err ++ u.err } := by
  have sequence : (first >>= second) s r = andThen first second s r := rfl
  rw [sequence, andThen, done]

theorem bind_of_error {e : Trouble} (failed : (first s r).result = .error e) :
    (first >>= second) s r = { first s r with result := .error e } := by
  have sequence : (first >>= second) s r = andThen first second s r := rfl
  rw [sequence, andThen, failed]

end Action

namespace Session

/-- The session with its queue run and left to `m`. -/
def afterRun (s : Session) (m : Machine) : Session :=
  { s with bindings := m.bindings, queue := if s.atPrompt then [] else s.queue }

/-- The bindings that a run of the session starts from. -/
def startBindings (s : Session) : Bindings :=
  if s.atPrompt && !s.persist then .empty else s.bindings

/-- The reporter while the session is at work on a source. -/
def registered (s : Session) (source : String) (r : Reporter) : Reporter :=
  { r with registry := r.registry.register s.path (some source) }

theorem add_of_parse {source : String} {program : List Node} (s : Session) (r : Reporter)
    (read : (parse nestingLimit source).program = .ok program) :
    add source s r = {
      result := .ok ()
      session := { s with queue := s.queue ++ program }
      reporter := s.registered source r
      err := ((s.registered source r).warnAll (parse nestingLimit source).unknown).1 } := by
  have faultless := (s.registered source r).warnAll_faultless (parse nestingLimit source).unknown
  simp only [registered] at faultless
  simp only [add, faultless, read, registered]

theorem add_of_failure {source : String} {failure : ReadFailure} (s : Session) (r : Reporter)
    (failed : (parse nestingLimit source).program = .error failure) :
    add source s r = {
      result := .error (.ofRead r.host failure)
      session := s
      reporter := s.registered source r
      err := ((s.registered source r).warnAll (parse nestingLimit source).unknown).1 } := by
  have faultless := (s.registered source r).warnAll_faultless (parse nestingLimit source).unknown
  simp only [registered] at faultless
  simp only [add, faultless, failed, registered]

theorem run_of_ok {s : Session} {m : Machine} (r : Reporter)
    (ran : Machine.run depthLimit s.queue { bindings := s.startBindings } = (.ok (), m)) :
    run s r = {
      result := .ok ()
      session := s.afterRun m
      reporter := { r with registry := r.registry.remove s.path }
      out := m.output } := by
  simp only [startBindings] at ran
  simp only [run, ran]
  rfl

theorem run_of_error {s : Session} {m : Machine} {e : EvalError} (r : Reporter)
    (ran : Machine.run depthLimit s.queue { bindings := s.startBindings } = (.error e, m)) :
    run s r = {
      result := .error (.ofEval r.host e)
      session := s.afterRun m
      reporter := r
      out := m.output } := by
  simp only [startBindings] at ran
  simp only [run, ran]
  rfl

end Session
end IntScript

import IntScript.Proofs.Running
import IntScript.Proofs.SessionSteps

/-! The queue of a session at the prompt, whatever is asked of the session and whatever
trouble that makes. Adding a source is all or nothing, and a run takes the whole queue. So
a statement is executed at most once, and in the order in which the sources came. -/
namespace IntScript

namespace Machine

/-- The statements that a run comes to: all of them, or those up to the first that fails,
with that one. -/
def reached (limit : Nat) : List Node → Machine → List Node
  | [], _ => []
  | statement :: rest, m =>
    match m.execute limit statement with
    | (.ok (), next) => statement :: reached limit rest next
    | (.error _, _) => [statement]

theorem reached_cons_ok {limit : Nat} {statement : Node} {m next : Machine} (rest : List Node)
    (done : m.execute limit statement = (.ok (), next)) :
    reached limit (statement :: rest) m = statement :: reached limit rest next := by
  rw [reached, done]

theorem reached_cons_failed {limit : Nat} {statement : Node} {m after : Machine} {e : EvalError}
    (rest : List Node) (failed : m.execute limit statement = (.error e, after)) :
    reached limit (statement :: rest) m = [statement] := by
  rw [reached, failed]

theorem reached_sublist (limit : Nat) (program : List Node) (m : Machine) :
    (reached limit program m).Sublist program := by
  induction program generalizing m with
  | nil => exact .slnil
  | cons statement rest ih =>
    rcases done : m.execute limit statement with ⟨e | ⟨⟩, next⟩
    · rw [reached_cons_failed rest done]
      exact List.Sublist.cons_cons statement (List.nil_sublist rest)
    · rw [reached_cons_ok rest done]
      exact (ih next).cons_cons statement

theorem reached_append {limit : Nat} {first : List Node} {m middle : Machine} (second : List Node)
    (ran : m.run limit first = (.ok (), middle)) :
    reached limit (first ++ second) m = first ++ reached limit second middle := by
  induction first generalizing m with
  | nil =>
    cases ran
    rfl
  | cons statement first ih =>
    obtain ⟨next, done, ran⟩ := run_cons_returns ran
    rw [List.cons_append, reached_cons_ok _ done, ih ran, List.cons_append]

/-- A run that succeeds comes to all statements. -/
theorem reached_of_ok {limit : Nat} {program : List Node} {m after : Machine}
    (ran : m.run limit program = (.ok (), after)) : reached limit program m = program := by
  have whole := reached_append [] ran
  rwa [List.append_nil, reached, List.append_nil] at whole

/-- A run that stops at a statement has come to those in front of it and to it. -/
theorem StopsAt.reached_eq {limit : Nat} {program : List Node} {m before after : Machine} {k : Nat}
    {error : EvalError} (stops : StopsAt limit program m k before error after) :
    reached limit program m = program.take (k + 1) := by
  obtain ⟨statement, found, failed⟩ := stops.fails
  obtain ⟨inside, rfl⟩ := List.getElem?_eq_some_iff.mp found
  have split : program = program.take k ++ program[k] :: program.drop (k + 1) := by
    rw [← List.drop_eq_getElem_cons inside, List.take_append_drop]
  calc
    reached limit program m
      = reached limit (program.take k ++ program[k] :: program.drop (k + 1)) m := by rw [← split]
    _ = program.take k ++ [program[k]] := by
      rw [reached_append _ stops.runs, reached_cons_failed _ failed]
    _ = program.take (k + 1) := by rw [List.take_append_getElem inside]

end Machine

namespace Session

/-- What may be asked of a session. -/
inductive Request where
  | add (source : String)
  | run
deriving DecidableEq

/-- A request under the reporter at hand. What becomes of a reporter between two calls,
where trouble is caught, is left open. -/
structure Call where
  request : Request
  reporter : Reporter

/-- The statements that a source adds to a queue; a source that cannot be read adds none. -/
def statementsOf (source : String) : List Node :=
  match (parse nestingLimit source).program with
  | .ok program => program
  | .error _ => []

namespace Call

def turn (call : Call) (s : Session) : Turn Unit :=
  match call.request with
  | .add source => Session.add source s call.reporter
  | .run => Session.run s call.reporter

/-- The statements that a call adds. -/
def added (call : Call) : List Node :=
  match call.request with
  | .add source => statementsOf source
  | .run => []

/-- The statements that a call comes to execute. -/
def reached (call : Call) (s : Session) : List Node :=
  match call.request with
  | .add _ => []
  | .run => Machine.reached depthLimit s.queue { bindings := s.startBindings }

end Call

/-- The session after calls, each made whatever trouble there was before. -/
def afterCalls (s : Session) (calls : List Call) : Session :=
  calls.foldl (fun s call => (call.turn s).session) s

/-- The statements that calls come to execute, one after the other. -/
def reachedBy (s : Session) : List Call → List Node
  | [] => []
  | call :: calls => call.reached s ++ reachedBy (call.turn s).session calls

theorem afterCalls_append (s : Session) (first second : List Call) :
    s.afterCalls (first ++ second) = (s.afterCalls first).afterCalls second :=
  List.foldl_append

/-- Adding a source changes the queue at most, and that only if the source can be read. -/
theorem add_session (source : String) (s : Session) (r : Reporter) :
    (add source s r).session = { s with queue := s.queue ++ statementsOf source } := by
  cases read : (parse nestingLimit source).program with
  | ok program => simp only [add_of_parse s r read, statementsOf, read]
  | error failure => simp only [add_of_failure s r read, statementsOf, read, List.append_nil]

theorem run_session (s : Session) (r : Reporter) :
    (run s r).session =
      s.afterRun (Machine.run depthLimit s.queue { bindings := s.startBindings }).2 := by
  rcases ran : Machine.run depthLimit s.queue { bindings := s.startBindings } with ⟨e | ⟨⟩, m⟩
  · rw [run_of_error r ran]
  · rw [run_of_ok r ran]

/-- A call leaves a session what it is, but for its queue and its bindings. -/
theorem turn_session (call : Call) (s : Session) :
    ∃ queue bindings, (call.turn s).session = { s with queue, bindings } := by
  obtain ⟨request, r⟩ := call
  cases request with
  | add source => exact ⟨_, _, add_session source s r⟩
  | run => exact ⟨_, _, run_session s r⟩

theorem afterCalls_session (s : Session) (calls : List Call) :
    ∃ queue bindings, s.afterCalls calls = { s with queue, bindings } := by
  induction calls generalizing s with
  | nil => exact ⟨s.queue, s.bindings, rfl⟩
  | cons call calls ih =>
    obtain ⟨queue, bindings, turned⟩ := turn_session call s
    obtain ⟨queue', bindings', done⟩ := ih (call.turn s).session
    refine ⟨queue', bindings', ?_⟩
    rw [turned] at done
    exact (congrArg (fun t => afterCalls t calls) turned).trans done

theorem queue_turn_run {s : Session} (prompt : s.atPrompt = true) (r : Reporter) :
    (Call.turn ⟨.run, r⟩ s).session.queue = [] := by
  simp only [Call.turn, run_session, afterRun, prompt, if_true]

/-- Right after a run the queue is empty, and so it is where nothing was done yet. -/
theorem queue_rested {s : Session} (prompt : s.atPrompt = true) (idle : s.queue = [])
    {history : List Call}
    (rested : history = [] ∨ ∃ earlier r, history = earlier ++ [⟨.run, r⟩]) :
    (s.afterCalls history).queue = [] := by
  rcases rested with rfl | ⟨earlier, r, rfl⟩
  · exact idle
  · obtain ⟨queue, bindings, before⟩ := s.afterCalls_session earlier
    have prompt' : (s.afterCalls earlier).atPrompt = true := by rw [before, prompt]
    rw [afterCalls_append]
    exact queue_turn_run prompt' r

/-- Sources added one after the other queue the statements of those that can be read. -/
theorem afterCalls_adds (s : Session) (sources : List (String × Reporter)) :
    s.afterCalls (sources.map fun source => ⟨.add source.1, source.2⟩) =
      { s with queue := s.queue ++ sources.flatMap fun source => statementsOf source.1 } := by
  induction sources generalizing s with
  | nil => simp only [List.map_nil, List.flatMap_nil, List.append_nil, afterCalls, List.foldl_nil]
  | cons source sources ih =>
    have first : (Call.turn ⟨.add source.1, source.2⟩ s).session =
        { s with queue := s.queue ++ statementsOf source.1 } := add_session source.1 s source.2
    rw [List.flatMap_cons, ← List.append_assoc]
    exact (congrArg (fun t => afterCalls t _) first).trans (ih _)

/-- Every statement that is executed was added before, and is executed once. -/
theorem reachedBy_sublist {s : Session} (prompt : s.atPrompt = true) (calls : List Call) :
    (s.reachedBy calls).Sublist (s.queue ++ calls.flatMap Call.added) := by
  induction calls generalizing s with
  | nil => exact List.nil_sublist _
  | cons call calls ih =>
    obtain ⟨queue, bindings, turned⟩ := turn_session call s
    have prompt' : (call.turn s).session.atPrompt = true := by rw [turned, prompt]
    have others := ih prompt'
    obtain ⟨request, r⟩ := call
    cases request with
    | add source =>
      -- the statements added here wait in front of all that are added later
      have queued : (Call.turn ⟨.add source, r⟩ s).session.queue =
          s.queue ++ statementsOf source := congrArg Session.queue (add_session source s r)
      rw [queued, List.append_assoc] at others
      exact others
    | run =>
      rw [queue_turn_run prompt r, List.nil_append] at others
      have here := Machine.reached_sublist depthLimit s.queue { bindings := s.startBindings }
      exact here.append others

theorem startBindings_afterCalls {s : Session} (prompt : s.atPrompt = true) (calls : List Call)
    (queue : List Node) :
    startBindings { s.afterCalls calls with queue } =
      if s.persist then (s.afterCalls calls).bindings else .empty := by
  obtain ⟨queue', bindings, after⟩ := s.afterCalls_session calls
  rw [after]
  cases s.persist with
  | true => simp [startBindings]
  | false => simp [startBindings, prompt]

/-- Whatever was asked of a session at the prompt: a source that cannot be read leaves the
session as it is, any other appends its statements to the queue, and neither writes to the
output. A run executes the statements of the sources added since the last run, all of them or
up to the first that fails, on the bindings that the last run left or, without persistence,
on none, and leaves the queue empty. What is executed in all was added before, in this order,
and is executed once. -/
theorem queue_runs_once (s : Session) (prompt : s.atPrompt = true) (idle : s.queue = []) :
    (∀ history source r,
      let before := s.afterCalls history
      let t := add source before r
      t.out = "" ∧
      ((∃ program, (parse nestingLimit source).program = .ok program ∧ t.result = .ok () ∧
          t.session = { before with queue := before.queue ++ program }) ∨
        ∃ failure e, (parse nestingLimit source).program = .error failure ∧
          t.result = .error e ∧ t.session = before)) ∧
    (∀ history (sources : List (String × Reporter)) r,
      (history = [] ∨ ∃ earlier r', history = earlier ++ [⟨.run, r'⟩]) →
      let rested := s.afterCalls history
      let before := s.afterCalls (history ++ sources.map fun source => ⟨.add source.1, source.2⟩)
      let program := sources.flatMap fun source => statementsOf source.1
      let start : Machine := { bindings := if s.persist then rested.bindings else .empty }
      let t := run before r
      before.queue = program ∧ t.session.queue = [] ∧
      ((∃ m, Machine.run depthLimit program start = (.ok (), m) ∧ t.result = .ok () ∧
          Machine.reached depthLimit program start = program ∧
          t.out = m.output ∧ t.session.bindings = m.bindings) ∨
        ∃ k m e after, Machine.StopsAt depthLimit program start k m e after ∧
          t.result = .error (.ofEval r.host e) ∧
          Machine.reached depthLimit program start = program.take (k + 1) ∧
          t.out = m.output ∧ t.session.bindings = m.bindings)) ∧
    ∀ calls, (s.reachedBy calls).Sublist (calls.flatMap Call.added) := by
  refine ⟨?_, ?_, ?_⟩
  · intro history source r before t
    cases read : (parse nestingLimit source).program with
    | ok program =>
      simp only [t, add_of_parse before r read]
      exact ⟨trivial, .inl ⟨program, rfl, trivial, rfl⟩⟩
    | error failure =>
      simp only [t, add_of_failure before r read]
      exact ⟨trivial, .inr ⟨failure, _, rfl, rfl, trivial⟩⟩
  · intro history sources r rests rested before program start t
    have empty : rested.queue = [] := queue_rested prompt idle rests
    have loaded : before = { rested with queue := program } := by
      simp only [before, rested, program, afterCalls_append, afterCalls_adds]
      rw [show (s.afterCalls history).queue = [] from empty, List.nil_append]
    have starts : before.startBindings = start.bindings := by
      rw [loaded]
      exact startBindings_afterCalls prompt history program
    have queued : before.queue = program := by rw [loaded]
    have prompt' : before.atPrompt = true := by
      obtain ⟨queue, bindings, after⟩ := s.afterCalls_session history
      simp only [loaded, rested, after, prompt]
    refine ⟨queued, queue_turn_run prompt' r, ?_⟩
    rcases ran : Machine.run depthLimit program start with ⟨e | ⟨⟩, m⟩
    · right
      have failed := run_of_error (s := before) r (by rw [queued, starts]; exact ran)
      obtain ⟨k, middle, stops⟩ := Machine.exists_stopsAt ran
      obtain ⟨statement, -, fails⟩ := stops.fails
      obtain ⟨bindings, output⟩ := Machine.execute_failed fails
      simp only [t, failed]
      exact ⟨k, middle, e, m, stops, rfl, stops.reached_eq, output, bindings⟩
    · left
      have succeeded := run_of_ok (s := before) r (by rw [queued, starts]; exact ran)
      simp only [t, succeeded]
      exact ⟨m, rfl, trivial, Machine.reached_of_ok ran, rfl, rfl⟩
  · intro calls
    have once := reachedBy_sublist prompt calls
    rwa [idle, List.nil_append] at once

/-- Of four sources added behind a run, one cannot be read and one divides by zero. -/
theorem queue_runs_once_four :
    let s : Session := {
      path := promptPath
      atPrompt := true
      persist := true
      backend := none
      source := "" }
    let r : Reporter := { host := .plain, fatal := false }
    let history : List Call := [⟨.add "x = 6", r⟩, ⟨.add "y = (", r⟩, ⟨.run, r⟩]
    let sources := [("print(x)", r), ("print(", r), ("x = x / 0 print(1)", r), ("print(2)", r)]
    let before := s.afterCalls (history ++ sources.map fun source => ⟨.add source.1, source.2⟩)
    let t := run before r
    s.atPrompt = true ∧ s.queue = [] ∧
      before.queue = sources.flatMap (fun source => statementsOf source.1) ∧
      before.queue.length = 4 ∧ t.session.queue = [] ∧ t.out = "6\n" ∧
      t.session.bindings = ⟨[("x", 6)]⟩ ∧
      ∃ k m e after, k = 1 ∧ Machine.StopsAt depthLimit before.queue { bindings := ⟨[("x", 6)]⟩ }
        k m e after := by
  intro s r history sources before t
  obtain ⟨-, runs, -⟩ := queue_runs_once s rfl rfl
  have rests : history = [] ∨ ∃ earlier r', history = earlier ++ [⟨.run, r'⟩] :=
    .inr ⟨[⟨.add "x = 6", r⟩, ⟨.add "y = (", r⟩], r, rfl⟩
  obtain ⟨queued, emptied, ending⟩ := runs history sources r rests
  have computed : before.queue.length = 4 ∧ t.out = "6\n" ∧
      t.session.bindings = ⟨[("x", 6)]⟩ ∧ t.result.toBool = false ∧
      (s.afterCalls history).bindings = ⟨[("x", 6)]⟩ ∧
      (Machine.reached depthLimit before.queue { bindings := ⟨[("x", 6)]⟩ }).length = 2 := by
    decide +kernel
  obtain ⟨count, out, bindings, fails, left, come⟩ := computed
  refine ⟨rfl, rfl, queued, count, emptied, out, bindings, ?_⟩
  rcases ending with ⟨m, -, succeeds, -⟩ | ⟨k, m, e, after, stops, -, upTo, -⟩
  · rw [show t.result = .ok () from succeeds] at fails
    contradiction
  · rw [← queued, show s.persist = true from rfl, if_pos rfl, left] at stops upTo
    have length := congrArg List.length upTo
    rw [come, List.length_take, count] at length
    exact ⟨k, m, e, after, by omega, stops⟩

end Session
end IntScript

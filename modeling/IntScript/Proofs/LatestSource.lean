import IntScript.Proofs.Pointing
import IntScript.Proofs.Queueing

/-! Where the error of a statement is looked for. The queue of a session may hold statements
of several sources, and the error of a statement carries a place in the source that it was
read from. But a path is registered with one source, the latest, and there the line of the
place is looked up, whichever source the statement came from. -/
namespace IntScript
open Text (Host)

namespace EvalError
variable {source : String} {e : EvalError}

/-- The error makes a report at a place in the source. -/
def Located (source : String) (host : Host) (e : EvalError) : Prop :=
  ∃ (report : Report) (spot : Spot source), Trouble.ofEval host e = .reported report ∧
    report.place = .ofPosition spot.position

theorem located_of_token {t : Token} {notice : Notice} {before subject after : String}
    (found : t ∈ (Scanner.start source).upcoming)
    (named : e.notice? = some notice ∧ notice.place = .ofPosition t.position ∧
      notice.OneField before subject after) (host : Host) : e.Located source host := by
  obtain ⟨some, placed, one⟩ := named
  obtain ⟨spot, position⟩ := Spot.of_upcoming found
  obtain ⟨report, made, -, place, -⟩ := one.trouble host
  refine ⟨report, spot, ?_, ?_⟩
  · simp only [Trouble.ofEval, some, made]
  · rw [place, placed, position]

/-- What a statement of the source is to be blamed for is located in the source. -/
theorem Blames.located {limit : Nat} {nodes : List Node} {statement : Node} {env : Bindings}
    (blames : e.Blames env statement) (read : (parse limit source).program = .ok nodes)
    (member : statement ∈ nodes) (host : Host) : e.Located source host := by
  cases e with
  | unbound name place =>
    obtain ⟨t, found, -, rfl, rfl⟩ := part_made_of_parse read member blames.1
    obtain ⟨notice, some, -, placed, one⟩ := oneField_unbound t.lexeme (.ofPosition t.position)
    exact located_of_token found ⟨some, placed, one⟩ host
  | stringOperand text place =>
    obtain ⟨t, found, -, rfl, rfl⟩ := part_made_of_parse read member blames
    obtain ⟨notice, some, -, placed, one⟩ := oneField_string _ (.ofPosition t.position)
    exact located_of_token found ⟨some, placed, one⟩ host
  | zeroDivision expr place =>
    obtain ⟨left, right, part, -⟩ := blames
    obtain ⟨t, found, -, rfl⟩ := part_made_of_parse read member part
    obtain ⟨notice, some, -, placed, one⟩ := oneField_division expr (.ofPosition t.position)
    exact located_of_token found ⟨some, placed, one⟩ host
  | _ => contradiction

end EvalError

theorem Trouble.eq_toResult {result : Except Trouble Unit} {trouble : Option Trouble}
    (found : ofResult? result = trouble) : result = toResult trouble := by
  subst trouble
  cases result <;> rfl

/-- A place is looked up in the source that is registered last. -/
theorem Reporter.locate_position {r : Reporter} {report : Report} {path source : String}
    {position : Position} (last : r.registry.last? = some (path, some source))
    (place : report.place = .ofPosition position) :
    r.locate report = (some path, lineAt? source position.line) := by
  simp only [locate, last, place]
  rfl

namespace Session

/-- Adds sources one after the other, up to the first that makes trouble. -/
def addEach : List String → Action Unit
  | [] => Action.done ()
  | source :: sources => do
    add source
    addEach sources

/-- Nothing is registered, unless it is the session's own path. -/
def AtWork (s : Session) (r : Reporter) : Prop :=
  r.registry = .empty ∨ ∃ source, r.registry = ⟨[(s.path, source)]⟩

theorem registered_atWork {s : Session} {r : Reporter} (atWork : s.AtWork r) (source : String) :
    (s.registered source r).registry = ⟨[(s.path, some source)]⟩ := by
  rcases atWork with empty | ⟨old, one⟩
  · simp [registered, empty, Registry.empty, Registry.register, Registry.registerEntry]
  · simp [registered, one, Registry.register, Registry.registerEntry]

theorem addEach_cons {source : String} {sources : List String} {s : Session} {r : Reporter}
    (added : (addEach (source :: sources) s r).result = .ok ()) :
    ∃ program, (parse nestingLimit source).program = .ok program ∧
      let s' := { s with queue := s.queue ++ program }
      let rest := addEach sources s' (s.registered source r)
      rest.result = .ok () ∧ (addEach (source :: sources) s r).session = rest.session ∧
        (addEach (source :: sources) s r).reporter = rest.reporter := by
  have sequence : addEach (source :: sources) s r =
      (add source >>= fun _ => addEach sources) s r := rfl
  cases read : (parse nestingLimit source).program with
  | error failure =>
    have failed := add_of_failure s r read
    rw [sequence, Action.bind_of_error (congrArg Turn.result failed)] at added
    cases added
  | ok program =>
    have done := add_of_parse s r read
    rw [sequence, Action.bind_of_ok (congrArg Turn.result done), done] at added ⊢
    exact ⟨program, rfl, added, rfl, rfl⟩

/-- Sources that are added without trouble all wait in the queue, but only the last of them
is registered. -/
theorem addEach_returns {sources : List String} {s : Session} {r : Reporter}
    (atWork : s.AtWork r) (added : (addEach sources s r).result = .ok ()) :
    (∀ source ∈ sources, ∃ program, (parse nestingLimit source).program = .ok program) ∧
      (addEach sources s r).session =
        { s with queue := s.queue ++ sources.flatMap statementsOf } ∧
      (addEach sources s r).reporter.host = r.host ∧
      ∀ latest ∈ sources.getLast?,
        (addEach sources s r).reporter.registry = ⟨[(s.path, some latest)]⟩ := by
  induction sources generalizing s r with
  | nil => simp [addEach, Action.done]
  | cons source sources ih =>
    obtain ⟨program, read, added, session, reporter⟩ := addEach_cons added
    have one := registered_atWork atWork source
    have atWork' : AtWork { s with queue := s.queue ++ program } (s.registered source r) :=
      .inr ⟨_, one⟩
    obtain ⟨readOthers, queued, host, last⟩ := ih atWork' added
    have statements : statementsOf source = program := by simp only [statementsOf, read]
    refine ⟨?_, ?_, ?_, ?_⟩
    · exact List.forall_mem_cons.mpr ⟨⟨program, read⟩, readOthers⟩
    · rw [session, queued, List.flatMap_cons, statements, List.append_assoc]
    · rw [reporter, host]
      rfl
    · intro latest found
      rw [reporter]
      cases sources with
      | nil =>
        cases found
        exact one
      | cons other sources => exact last latest found

/-- The error of a statement that waited in the queue since its source was added carries a
place in that source, but its line is looked up in the latest source. So it is the right line
if no source was added behind that of the statement. -/
theorem located_in_latest (s : Session) (r : Reporter) (clean : r.registry = .empty)
    (earlier later : List String) (source : String)
    (added : (addEach (earlier ++ source :: later) s r).result = .ok ()) (k : Nat)
    (behind : (s.queue ++ earlier.flatMap statementsOf).length ≤ k)
    (within : k < (s.queue ++ earlier.flatMap statementsOf ++ statementsOf source).length)
    (before after : Machine) (e : EvalError) :
    let t := addEach (earlier ++ source :: later) s r
    let u := run t.session t.reporter
    Machine.StopsAt depthLimit t.session.queue { bindings := t.session.startBindings } k before e
        after →
      u.result = .error .tooDeep ∨
      ∃ (report : Report) (spot : Spot source), u.result = .error (.reported report) ∧
        report.place = .ofPosition spot.position ∧
        Reporter.lineAt? source spot.position.line = some spot.line ∧
        u.reporter.locate report =
          (some s.path, Reporter.lineAt? (later.getLast?.getD source) spot.position.line) ∧
        (later = [] → u.reporter.locate report = (some s.path, some spot.line)) := by
  intro t u stops
  obtain ⟨readable, session, host, last⟩ := addEach_returns (.inl clean) added
  obtain ⟨program, read⟩ := readable source (by simp)
  have statements : statementsOf source = program := by simp only [statementsOf, read]
  have ran : u = _ := run_of_error t.reporter stops.run_eq
  obtain ⟨statement, found, failed⟩ := stops.fails
  have member : statement ∈ program := by
    have queue : t.session.queue = s.queue ++ earlier.flatMap statementsOf ++
        (program ++ later.flatMap statementsOf) := by
      simp [t, session, statements]
    rw [queue, List.getElem?_append_right behind, List.getElem?_append_left] at found
    · exact List.mem_of_getElem? found
    · rw [List.length_append, statements] at within
      omega
  rcases Machine.execute_blames (shape_of_parse read statement member) failed with
    blames | ⟨rfl, -⟩
  · right
    obtain ⟨report, spot, made, place⟩ := blames.located read member t.reporter.host
    have latest : t.reporter.registry.last? = some (s.path, some (later.getLast?.getD source)) := by
      rw [last (later.getLast?.getD source) (by simp [List.getLast?_append, List.getLast?_cons])]
      rfl
    have looked := Reporter.locate_position latest place
    rw [ran]
    refine ⟨report, spot, by rw [made], place, spot.lineAt?_position, looked, ?_⟩
    rintro rfl
    rw [looked]
    exact congrArg _ spot.lineAt?_position
  · left
    rw [ran]
    rfl

/-- A division by zero in the second of three sources, behind a statement that was queued
before. -/
theorem located_in_latest_three :
    let s : Session := {
      path := promptPath
      atPrompt := true
      persist := true
      backend := none
      source := ""
      queue := [.print (.number 5 .unknown) .unknown] }
    let t := addEach ["x = 1\nprint(x)", "print(x / 0)", "y = 2\nprint(y)"] s
      { host := .plain, fatal := false }
    let u := run t.session t.reporter
    t.result = .ok () ∧ ∃ (report : Report) (spot : Spot "print(x / 0)"),
      u.result = .error (.reported report) ∧ report.place = .ofPosition spot.position ∧
      Reporter.lineAt? "print(x / 0)" spot.position.line = some spot.line ∧
      u.reporter.locate report =
        (some promptPath, Reporter.lineAt? "y = 2\nprint(y)" spot.position.line) := by
  intro s t u
  let start : Machine := { bindings := t.session.startBindings }
  have computed : Trouble.ofResult? t.result = none ∧ Trouble.ofResult? u.result ≠ some .tooDeep ∧
      (Machine.run depthLimit t.session.queue start).1.toBool = false ∧
      (Machine.reached depthLimit t.session.queue start).length = 4 ∧
      t.session.queue.length = 6 ∧ (statementsOf "x = 1\nprint(x)").length = 2 ∧
      (statementsOf "print(x / 0)").length = 1 := by
    decide +kernel
  obtain ⟨none, notDeep, fails, come, queued, before, own⟩ := computed
  have added : t.result = .ok () := Trouble.eq_toResult none
  rcases ran : Machine.run depthLimit t.session.queue start with ⟨e | ⟨⟩, after⟩
  · obtain ⟨k, middle, stops⟩ := Machine.exists_stopsAt ran
    have fourth : k = 3 := by
      have length := congrArg List.length stops.reached_eq
      rw [come, List.length_take, queued] at length
      omega
    have located := located_in_latest s _ rfl ["x = 1\nprint(x)"] ["y = 2\nprint(y)"]
      "print(x / 0)" added k (by simp [s, before, fourth]) (by simp [s, before, own, fourth])
      middle after e stops
    rcases located with deep | ⟨report, spot, failed, place, line, looked, -⟩
    · exact absurd (congrArg Trouble.ofResult? deep) notDeep
    · exact ⟨added, report, spot, failed, place, line, looked⟩
  · rw [ran] at fails
    contradiction

/-- A statement that waits while another source is added has its error looked up there. -/
theorem error_shown_in_other_source :
    let s : Session := {
      path := promptPath
      atPrompt := true
      persist := true
      backend := none
      source := "" }
    let t := addEach ["print(y)", "x = 1"] s { host := .plain, fatal := false }
    let u := run t.session t.reporter
    t.result = .ok () ∧ ∃ report, u.result = .error (.reported report) ∧
      report.place = .ofPosition ⟨1, 7⟩ ∧ Reporter.lineAt? "print(y)" 1 = some "print(y)" ∧
      u.reporter.locate report = (some promptPath, some "x = 1") := by
  intro s t u
  let report : Report := {
    category := .nameError
    message := "variable 'y' is not defined"
    subject := "y"
    place := .ofPosition ⟨1, 7⟩
    start := 0
    stop := 1
    diagnosis := true
    internal := false }
  have computed : Trouble.ofResult? t.result = none ∧
      Trouble.ofResult? u.result = some (.reported report) ∧
      Reporter.lineAt? "print(y)" 1 = some "print(y)" ∧
      u.reporter.locate report = (some promptPath, some "x = 1") := by decide +kernel
  obtain ⟨added, failed, own, looked⟩ := computed
  exact ⟨Trouble.eq_toResult added, report, Trouble.eq_toResult failed, rfl, own, looked⟩

end Session
end IntScript

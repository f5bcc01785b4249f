import IntScript.Program
import IntScript.Proofs.ErrorTexts
import IntScript.Proofs.Outlining

/-! What the program does with a source file. All of the file is read before any of it is
shown as an outline, run or handed to the backend. Whatever goes wrong is reported once, and
ends the program with its status. What the statements write, and how the program ends, is the
same for all flags. -/
namespace IntScript
open Text (Host)

namespace Program

/-- Statements shown as outlines, in front of what they write. -/
def outlineText (program : List Node) : String :=
  "--- Abstract Syntax Tree (" ++ toString program.length ++ " statement(s)) ---\n" ++
    "\n".intercalate (program.map (·.outlined 0)) ++ "\n" ++ "--- Execution Results ---\n"

/-- What is written when statements are handed to the backend. -/
def backendText (program : List Node) : String :=
  let line (text : String) := "LLVM Backend: " ++ text ++ "\n"
  line "Initializing code generation (mock)." ++
    line ("Processing " ++ toString program.length ++ " statement(s) (mock)...") ++
    line "IR generation complete (mock)." ++ "Code generation succeeded.\n"

/-- What is left to do once a file has been read and shown. -/
def finish (backend : Bool) : Action Unit := do
  Session.run
  if backend then
    let status := if (← Session.compile) = some true then "succeeded" else "failed"
    Action.say ("Code generation " ++ status ++ ".\n")

/-- Shows the queue as outlines before anything else is done. -/
def showOutline (next : Action Unit) : Action Unit := do
  let count ← fun s r => Action.done s.queue.length s r
  Action.say ("--- Abstract Syntax Tree (" ++ toString count ++ " statement(s)) ---\n")
  Action.say ((← Session.outline) ++ "\n")
  Action.say "--- Execution Results ---\n"
  next

theorem runFile_asked {options : Options} (asked : options.ast = true) :
    runFile options = (Session.addOwn >>= fun _ => showOutline (finish options.backend)) := by
  rw [runFile, asked]
  rfl

theorem runFile_unasked {options : Options} (unasked : options.ast = false) :
    runFile options = (Session.addOwn >>= fun _ => finish options.backend) := by
  rw [runFile, unasked]
  rfl

variable {options : Options} {s : Session} {r : Reporter}

theorem showOutline_of_height (next : Action Unit) (shapes : ∀ node ∈ s.queue, node.isStatement)
    (low : ∀ node ∈ s.queue, node.height ≤ depthLimit) :
    showOutline next s r =
      let t := next s r
      { t with out := outlineText s.queue ++ t.out } := by
  have outlines := Node.outlines_of_height shapes low 0
  have shown : Session.outline s r = {
      result := .ok ("\n".intercalate (s.queue.map (·.outlined 0)))
      session := s
      reporter := r } := by
    rw [Session.outline, outlines]
  simp only [showOutline, bind, Action.andThen, Action.done, Action.say, shown,
    String.empty_append, ← String.append_assoc]
  rfl

theorem runFile_of_failure {failure : ReadFailure}
    (failed : (parse nestingLimit s.source).program = .error failure) :
    runFile options s r = {
      result := .error (.ofRead r.host failure)
      session := s
      reporter := s.registered s.source r
      err := Session.warningsOf s.source s r } := by
  have adding : Session.addOwn s r = _ := Session.add_of_failure s r failed
  rw [runFile, Action.bind_of_error (congrArg Turn.result adding), adding]
  rfl

theorem runFile_of_parse {program : List Node} (idle : s.queue = [])
    (read : (parse nestingLimit s.source).program = .ok program)
    (low : options.ast = true → ∀ node ∈ program, node.height ≤ depthLimit) :
    runFile options s r =
      let t := finish options.backend { s with queue := program } (s.registered s.source r)
      { t with
        out := (if options.ast then outlineText program else "") ++ t.out
        err := Session.warningsOf s.source s r ++ t.err } := by
  have adding : Session.addOwn s r = _ := Session.add_of_parse s r read
  cases ast : options.ast with
  | false =>
    rw [runFile_unasked ast, Action.bind_of_ok (congrArg Turn.result adding), adding, idle]
    rfl
  | true =>
    have shown := showOutline_of_height (s := { s with queue := program })
      (r := s.registered s.source r) (finish options.backend) (shape_of_parse read) (low ast)
    rw [runFile_asked ast, Action.bind_of_ok (congrArg Turn.result adding), adding, idle]
    simp only [List.nil_append, shown]
    rfl

theorem finish_of_error {backend : Bool} {m : Machine} {e : EvalError}
    (ran : Machine.run depthLimit s.queue { bindings := s.startBindings } = (.error e, m)) :
    finish backend s r = {
      result := .error (.ofEval r.host e)
      session := s.afterRun m
      reporter := r
      out := m.output } := by
  have running := Session.run_of_error r ran
  rw [finish, Action.bind_of_error (congrArg Turn.result running), running]

theorem finish_of_ok {backend : Bool} {m : Machine} (onFile : s.atPrompt = false)
    (lowers : s.backend = if backend then some .announcing else none)
    (ran : Machine.run depthLimit s.queue { bindings := s.startBindings } = (.ok (), m)) :
    finish backend s r = {
      result := .ok ()
      session := s.afterRun m
      reporter := { r with registry := r.registry.remove s.path }
      out := m.output ++ if backend then backendText s.queue else "" } := by
  have running := Session.run_of_ok r ran
  rw [finish, Action.bind_of_ok (congrArg Turn.result running), running]
  cases backend with
  | false =>
    simp only [Bool.false_eq_true, if_false, pure, Action.done, String.append_empty]
  | true =>
    simp only [if_true] at lowers
    simp only [if_true, bind, Action.andThen, Action.say, Session.compile, Session.afterRun, lowers,
      onFile, String.append_empty]
    rfl

/-- Any file can be named behind any choice of flags. -/
theorem read_flags (path : String) (ast backend : Bool) :
    Command.read ((if ast then ["--ast"] else []) ++ (if backend then ["--backend"] else []) ++
      ["--", path]) = .start { file := some path, ast, backend } := by
  cases ast <;> cases backend <;> rfl

/-- What a source comes to, whatever is asked for besides: the statements that were read, the
text that they write, and the one report of what goes wrong. -/
inductive Fate (host : Host) (path source : String) :
    Option (List Node) → String → Option String → Prop where
  | unread {failure : ReadFailure} {report : String}
      (failed : (parse nestingLimit source).program = .error failure)
      (told : ErrorTold source host path report failure.notice?) :
      Fate host path source none "" (some report)
  | stopped {program : List Node} {k : Nat} {before after : Machine} {e : EvalError}
      {report : String} (read : (parse nestingLimit source).program = .ok program)
      (stops : Machine.StopsAt depthLimit program {} k before e after)
      (told : ErrorTold source host path report e.notice?) :
      Fate host path source (some program) before.output (some report)
  | completed {program : List Node} {m : Machine}
      (read : (parse nestingLimit source).program = .ok program)
      (ran : Machine.run depthLimit program {} = (.ok (), m)) :
      Fate host path source (some program) m.output none

/-- The end of the program on a source of this fate, with these warnings. -/
def ending (path source : String) (options : Options) (program : Option (List Node))
    (output warnings : String) (report : Option String) : Ending :=
  let outline := if options.ast then program.elim "" outlineText else ""
  let backend := if options.backend ∧ report = none then program.elim "" backendText else ""
  { result := if report.isSome then .error (.leave 1) else .ok ()
    out := "--- PanLang Execution from " ++ path ++ " ---\nInput Code:\n" ++ source ++ "\n" ++
      (outline ++ (output ++ backend))
    err := warnings ++ report.getD "" }

/-- A fresh session on a file. -/
def fileSession (path source : String) (options : Options) : Session := {
  path
  atPrompt := false
  persist := true
  backend := if options.backend then some .announcing else none
  source }

/-- The reporter once the file of a session is registered. -/
def fileReporter (host : Host) (path source : String) : Reporter :=
  { host, registry := ⟨[(path, some source)]⟩ }

theorem fileReporter_last (host : Host) (path source : String) :
    (fileReporter host path source).registry.last? = some (path, some source) := rfl

theorem readSource_ne {files : Files} {path source : String}
    (readable : readSource files path = .ok source) : path ≠ promptPath := by
  rintro rfl
  have unnamed : isSourcePath promptPath = false := by decide
  rw [readSource, unnamed] at readable
  cases readable

theorem run_of_turn {host : Host} {files : Files} {path source : String} {arguments : List String}
    {input : List Char} (readable : readSource files path = .ok source)
    (command : Command.read arguments = .start options) (named : options.file = some path)
    {t : Turn Unit} (turn : runFile options (fileSession path source options) { host } = t)
    {text : String} {reporter : Reporter} {passed : Option Trouble}
    (closed : t.reporter.close (Trouble.ofResult? t.result) = (text, reporter, passed)) :
    run host files arguments input = {
      result := Trouble.toResult passed
      out := banner path source ++ t.out
      err := t.err ++ text } := by
  have started : Session.start files path false none
      (if options.backend then some .announcing else none) { host } =
        (.ok (fileSession path source options), { host }) := by
    simp [Session.start, readSource_ne readable, readable, fileSession]
  simp only [run, command, named, file, started, Action.guarded, turn, closed]
  rfl

/-- A file can be named with any flags. If it can be read, it is shown first. If it is no
program, nothing else is written. If it is one, its outline follows if asked for, then the
output of its statements up to the first that fails, and then, if none does, the backend's
words if asked for. Each unknown character that was read is warned of, and trouble is reported
once and ends the program with its status. Statements, output, warnings and report do not depend
on the flags. Only outlines stop at trees that are too high for them. -/
theorem run_file (host : Host) (files : Files) (path source : String)
    (readable : readSource files path = .ok source) :
    (∀ ast backend, ∃ arguments,
      Command.read arguments = .start { file := some path, ast, backend }) ∧
    ∃ program output report, ∃ warning : UnknownCharacter → String,
      Fate host path source program output report ∧
      (∀ u ∈ (parse nestingLimit source).unknown,
        u.notice.Told source host path true (warning u)) ∧
      ∀ arguments options input, Command.read arguments = .start options →
        options.file = some path →
        (options.ast = true → ∀ nodes ∈ program, ∀ node ∈ nodes, node.height ≤ depthLimit) →
        run host files arguments input =
          ending path source options program output
            (String.join ((parse nestingLimit source).unknown.map warning)) report := by
  refine ⟨fun ast backend => ⟨_, read_flags path ast backend⟩, ?_⟩
  have located := fileReporter_last host path source
  have warned : ∀ u ∈ (parse nestingLimit source).unknown,
      u.notice.Told source host path true ((fileReporter host path source).warn u.notice).1 := by
    intro u member
    have pending := (unknown_of_parse nestingLimit source).subset member
    exact UnknownCharacter.told pending located
  have warnings (options : Options) :
      Session.warningsOf source (fileSession path source options) { host } =
        String.join ((parse nestingLimit source).unknown.map
          fun u => ((fileReporter host path source).warn u.notice).1) := by
    rw [Session.warningsOf, Reporter.warnAll_eq]
    rfl
  cases read : (parse nestingLimit source).program with
  | error failure =>
    have closed := Reporter.close_fatal (r := fileReporter host path source) rfl
      (Trouble.ofRead_ordinary host failure)
    have told := ReadFailure.told read located
    refine ⟨none, "", some _, _, .unread read told, warned, ?_⟩
    intro arguments options input command named _
    have turn : runFile options (fileSession path source options) { host } = _ :=
      runFile_of_failure read
    rw [run_of_turn readable command named turn closed]
    simp only [ending, Option.elim_none, ite_self, String.append_empty, ← warnings options]
    rfl
  | ok program =>
    rcases ran : Machine.run depthLimit program {} with ⟨e | ⟨⟩, m⟩
    · obtain ⟨statement, -, due⟩ := Machine.run_error (shape_of_parse read) ran
      have usual : e.Due statement ∨ e = .tooDeep := due.imp_right And.left
      have closed := Reporter.close_fatal (r := fileReporter host path source) rfl
        (Trouble.ofEval_ordinary host usual)
      obtain ⟨k, before, stops⟩ := Machine.exists_stopsAt ran
      obtain ⟨_, -, fails⟩ := stops.fails
      have output : m.output = before.output := (Machine.execute_failed fails).2
      have told := EvalError.told read stops located
      refine ⟨some program, before.output, some _, _, .stopped read stops told, warned, ?_⟩
      intro arguments options input command named low
      have turn : runFile options (fileSession path source options) { host } = _ :=
        runFile_of_parse rfl read fun asked => low asked program rfl
      rw [finish_of_error ran] at turn
      rw [run_of_turn readable command named turn closed, output]
      simp only [ending, reduceCtorEq, and_false, if_false, String.append_empty,
        ← warnings options]
      rfl
    · refine ⟨some program, m.output, none, _, .completed read ran, warned, ?_⟩
      intro arguments options input command named low
      have turn : runFile options (fileSession path source options) { host } = _ :=
        runFile_of_parse rfl read fun asked => low asked program rfl
      rw [finish_of_ok rfl rfl ran] at turn
      rw [run_of_turn readable command named turn rfl]
      simp only [ending, and_true, Option.getD_none, String.append_empty, ← warnings options]
      rfl

/-- An unknown character in front of a name that is not bound, between two prints: what is
written without flags and with all of them. -/
theorem run_file_unbound :
    let source := "print(7)\nx = $y\nprint(x)"
    let files : Files := fun path => if path = "a.pan" then some source.toUTF8 else none
    let plain := run .plain files ["a.pan"] []
    let flagged := run .plain files ["-ab", "a.pan"] []
    let shown := "--- PanLang Execution from a.pan ---\nInput Code:\nprint(7)\nx = $y\nprint(x)\n"
    let warned := "a.pan:2:5: warning: unknown character '$', skipping\n  x = $y\n      ^\n"
    let told := "a.pan:2:6: name error: variable 'y' is not defined\n  x = $y\n       ^\n"
    readSource files "a.pan" = .ok source ∧
      (∃ program output warnings report,
        Fate .plain "a.pan" source (some program) output (some report) ∧
        plain = ending "a.pan" source { file := some "a.pan" } (some program) output warnings
          (some report) ∧
        flagged = ending "a.pan" source { file := some "a.pan", ast := true, backend := true }
          (some program) output warnings (some report)) ∧
      plain.out = shown ++ "7\n" ∧ plain.err = warned ++ told ∧
      flagged.out = shown ++ ("--- Abstract Syntax Tree (3 statement(s)) ---\n" ++
        "PrintStatement(expr='print(7)', nodes=[\n    NumberLiteral(expr='7')\n])\n" ++
        "Assignment(expr='x = y', nodes=[\n    VariableReference(expr='y')\n])\n" ++
        "PrintStatement(expr='print(x)', nodes=[\n    VariableReference(expr='x')\n])\n" ++
        "--- Execution Results ---\n" ++ "7\n") ∧ flagged.err = warned ++ told := by
  intro source files plain flagged shown warned told
  have readable : readSource files "a.pan" = .ok source := by
    have found : files "a.pan" = some source.toUTF8 := rfl
    have decoded : String.fromUTF8? source.toUTF8 = some source := by decide +kernel
    have unified : Text.unifyLineEnds source = source := by decide +kernel
    have named : isSourcePath "a.pan" = true := by decide
    rw [readSource, named, found]
    simp only [if_true, decoded, unified]
  have computed : (parse nestingLimit source).program.toBool = true ∧
      ∀ nodes ∈ (parse nestingLimit source).program.toOption,
        (Machine.run depthLimit nodes {}).1.toBool = false ∧
          ∀ node ∈ nodes, node.height ≤ depthLimit := by
    decide +kernel
  obtain ⟨reads, runs⟩ := computed
  refine ⟨readable, ?_, by decide +kernel⟩
  obtain ⟨-, program, output, report, warning, fate, -, always⟩ :=
    run_file .plain files "a.pan" source readable
  cases fate with
  | unread failed told =>
    rw [failed] at reads
    contradiction
  | completed read ran =>
    obtain ⟨fails, -⟩ := runs _ (congrArg Except.toOption read)
    rw [ran] at fails
    contradiction
  | stopped read stops told =>
    obtain ⟨-, low⟩ := runs _ (congrArg Except.toOption read)
    have unflagged := always ["a.pan"] { file := some "a.pan" } [] (by decide) rfl (by simp)
    refine ⟨_, _, _, _, .stopped read stops told, unflagged, ?_⟩
    refine always ["-ab", "a.pan"] _ [] (by decide) rfl ?_
    rintro - nodes ⟨⟩
    exact low

end Program
end IntScript

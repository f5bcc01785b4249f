import IntScript.Proofs.OpenString

/-! A session at the prompt that persists does with texts one by one what a session on a
file does with all of them at once, joined by newlines, as long as nothing goes wrong. -/
namespace IntScript

theorem Action.bind_returns {α β : Type} {first : Action α} {second : α → Action β} {s : Session}
    {r : Reporter} {b : β} (returned : ((first >>= second) s r).result = .ok b) :
    ∃ a, (first s r).result = .ok a ∧
      (second a (first s r).session (first s r).reporter).result = .ok b ∧
      ((first >>= second) s r).session =
        (second a (first s r).session (first s r).reporter).session ∧
      ((first >>= second) s r).out =
        (first s r).out ++ (second a (first s r).session (first s r).reporter).out := by
  have sequence : (first >>= second) s r = Action.andThen first second s r := rfl
  rw [sequence] at returned ⊢
  unfold Action.andThen at returned ⊢
  cases outcome : (first s r).result with
  | error e =>
    simp only [outcome] at returned
    cases returned
  | ok a =>
    simp only [outcome] at returned ⊢
    exact ⟨a, rfl, returned, rfl, rfl⟩

namespace Session

/-- Adds texts and runs them, one after the other, up to the first that makes trouble. -/
def addRunEach : List String → Action Unit
  | [] => Action.done ()
  | text :: texts => do
    add text
    run
    addRunEach texts

theorem addRunEach_cons {text : String} {texts : List String} {s : Session} {r : Reporter}
    (ok : (addRunEach (text :: texts) s r).result = .ok ()) :
    (add text s r).result = .ok () ∧
      ∃ ran, ran = run (add text s r).session (add text s r).reporter ∧ ran.result = .ok () ∧
      (addRunEach texts ran.session ran.reporter).result = .ok () ∧
      (addRunEach (text :: texts) s r).session =
        (addRunEach texts ran.session ran.reporter).session ∧
      (addRunEach (text :: texts) s r).out =
        (add text s r).out ++ (ran.out ++ (addRunEach texts ran.session ran.reporter).out) := by
  rw [addRunEach] at ok ⊢
  obtain ⟨⟨⟩, added, ok, session, out⟩ := Action.bind_returns ok
  obtain ⟨⟨⟩, ran, ok, session', out'⟩ := Action.bind_returns ok
  exact ⟨added, _, rfl, ran, ok, session.trans session', by rw [out, out']⟩

/-- A text that is added and run at the prompt leaves a session with nothing to do. -/
theorem add_run_returns {text : String} {s : Session} {r : Reporter} (prompt : s.atPrompt = true)
    (persists : s.persist = true) (empty : s.queue = []) (added : (add text s r).result = .ok ())
    (ran : (run (add text s r).session (add text s r).reporter).result = .ok ()) :
    ∃ program m, (parse nestingLimit text).program = .ok program ∧
      Machine.run depthLimit program { bindings := s.bindings } = (.ok (), m) ∧
      (add text s r).out = "" ∧
      (run (add text s r).session (add text s r).reporter).out = m.output ∧
      (run (add text s r).session (add text s r).reporter).session =
        { s with bindings := m.bindings } := by
  cases read : (parse nestingLimit text).program with
  | error failure =>
    rw [add_of_failure s r read] at added
    cases added
  | ok program =>
    have start : startBindings { s with queue := s.queue ++ program } = s.bindings := by
      simp [startBindings, prompt, persists]
    have queue : s.queue ++ program = program := by rw [empty, List.nil_append]
    rw [add_of_parse s r read] at ran ⊢
    rcases outcome : Machine.run depthLimit program { bindings := s.bindings } with ⟨e | ⟨⟩, m⟩
    · rw [run_of_error _ (by rw [start, queue]; exact outcome)] at ran
      cases ran
    · rw [run_of_ok _ (by rw [start, queue]; exact outcome)]
      refine ⟨program, m, rfl, outcome, rfl, rfl, ?_⟩
      simp [afterRun, prompt, ← empty]

theorem addRunEach_runs {texts : List String} {s : Session} {r : Reporter}
    (prompt : s.atPrompt = true) (persists : s.persist = true) (empty : s.queue = [])
    (ok : (addRunEach texts s r).result = .ok ()) :
    ∃ programs m, (texts.mapM fun text => (parse nestingLimit text).program) = .ok programs ∧
      (∀ text ∈ texts, StringsClosed text) ∧
      Machine.run depthLimit programs.flatten { bindings := s.bindings } = (.ok (), m) ∧
      (addRunEach texts s r).out = m.output ∧
      (addRunEach texts s r).session.bindings = m.bindings := by
  induction texts generalizing s r with
  | nil => exact ⟨[], { bindings := s.bindings }, rfl, by simp, rfl, rfl, rfl⟩
  | cons text texts ih =>
    obtain ⟨added, _, rfl, ran, ok, sessionEnd, outEnd⟩ := addRunEach_cons ok
    obtain ⟨program, m, read, first, outAdd, outRun, session⟩ :=
      add_run_returns prompt persists empty added ran
    rw [session] at ok sessionEnd outEnd
    obtain ⟨programs, last, readOthers, closed, rest, out, bindings⟩ :=
      ih (s := { s with bindings := m.bindings }) prompt persists empty ok
    -- the others ran on a fresh machine and run in the same way on what the first one left
    obtain ⟨after, again, bindings', written, output, output'⟩ :=
      Machine.run_rerun rest rfl m rfl
    refine ⟨program :: programs, after, ?_, ?_, ?_, ?_, ?_⟩
    · rw [List.mapM_cons, read, readOthers]
      rfl
    · exact List.forall_mem_cons.mpr ⟨stringsClosed_of_run read first, closed⟩
    · rw [List.flatten_cons, Machine.run_append_ok _ first, again]
    · rw [outEnd, outAdd, outRun, out, output, output', String.empty_append, String.empty_append]
    · rw [sessionEnd, bindings, bindings']

/-- Texts that a persistent session at the prompt adds and runs one by one, without any
trouble, can be added to a session on a file as one source, joined by newlines. The source
reads as the programs of the texts one after the other, and its run succeeds, writes the
same output and ends with the same bindings in the same order. -/
theorem file_agrees_with_prompt (texts : List String) (prompt file : Session) (r r' : Reporter)
    (atPrompt : prompt.atPrompt = true) (persists : prompt.persist = true)
    (idle : prompt.queue = []) (onFile : file.atPrompt = false) (idle' : file.queue = [])
    (same : file.bindings = prompt.bindings)
    (ok : (addRunEach texts prompt r).result = .ok ()) :
    let each := addRunEach texts prompt r
    let added := add ("\n".intercalate texts) file r'
    let ran := run added.session added.reporter
    added.result = .ok () ∧
      (∃ programs, (texts.mapM fun text => (parse nestingLimit text).program) = .ok programs ∧
        Node.samePrograms added.session.queue programs.flatten = true) ∧
      ran.result = .ok () ∧ ran.out = each.out ∧ ran.session.bindings = each.session.bindings := by
  intro each added ran
  obtain ⟨programs, m, read, closed, ranEach, out, bindings⟩ :=
    addRunEach_runs atPrompt persists idle ok
  obtain ⟨whole, readWhole, sameWhole⟩ := parse_joined closed read
  have start : startBindings { file with queue := file.queue ++ whole } = prompt.bindings := by
    simp [startBindings, onFile, same]
  have queue : file.queue ++ whole = whole := by rw [idle', List.nil_append]
  obtain ⟨after, again, bindings', written, output, output'⟩ :=
    Machine.run_rerun ranEach sameWhole.symm { bindings := prompt.bindings } rfl
  have addedWhole := add_of_parse file r' readWhole
  have ranWhole := run_of_ok (s := { file with queue := file.queue ++ whole })
    (file.registered ("\n".intercalate texts) r') (by rw [start, queue]; exact again)
  simp only [each, added, ran, addedWhole, ranWhole]
  refine ⟨trivial, ⟨programs, read, ?_⟩, trivial, ?_, ?_⟩
  · rw [queue, Node.samePrograms_iff]
    exact sameWhole
  · rw [out, output, output']
  · rw [bindings, ← bindings']
    rfl

/-- Texts with a comment, an unknown character and nothing at all. The second text has two
statements on its first line, and the last one binds a name again. -/
theorem file_agrees_with_prompt_four :
    let prompt : Session := {
      path := promptPath
      atPrompt := true
      persist := true
      backend := none
      source := "" }
    let file : Session := {
      path := "sums.pan"
      atPrompt := false
      persist := true
      backend := none
      source := "" }
    let texts := ["x = 7 # seven", "y = x / 2 print(y)\nprint(\"y\")", "", "x = y - 5 @"]
    let each := addRunEach texts prompt { host := .terminal }
    let added := add ("\n".intercalate texts) file { host := .terminal }
    let ran := run added.session added.reporter
    each.result = .ok () ∧ added.result = .ok () ∧ ran.result = .ok () ∧
      ran.out = "3\ny\n" ∧ ran.session.bindings = ⟨[("x", -2), ("y", 3)]⟩ := by
  intro prompt file texts each added ran
  have computed : each.result.toBool = true ∧ each.out = "3\ny\n" ∧
      each.session.bindings = ⟨[("x", -2), ("y", 3)]⟩ := by decide +kernel
  obtain ⟨succeeds, written, bound⟩ := computed
  have ok : each.result = .ok () := by
    cases outcome : each.result with
    | ok => rfl
    | error e =>
      rw [outcome] at succeeds
      contradiction
  obtain ⟨adds, -, runs, out, bindings⟩ :=
    file_agrees_with_prompt texts prompt file _ { host := .terminal } rfl rfl rfl rfl rfl rfl ok
  exact ⟨ok, adds, runs, out.trans written, bindings.trans bound⟩

end Session
end IntScript

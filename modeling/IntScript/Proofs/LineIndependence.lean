import IntScript.Proofs.PromptLoop

/-! Lines typed at a shell that forgets its bindings do not influence each other. Shells that
differ in their bindings and in the line they remember answer a line with the same text, and
once a source has been read its run starts from nothing in both. -/
namespace IntScript

namespace Session

/-- Without persistence a source does the same whatever was bound before. Only if it cannot
be read, the old bindings stay. -/
theorem runLine_forgets {s : Session} (prompt : s.atPrompt = true) (forgets : s.persist = false)
    (bindings : Bindings) (source : String) (r : Reporter) :
    (runLine source { s with bindings } r).out = (runLine source s r).out ∧
      (runLine source { s with bindings } r).err = (runLine source s r).err ∧
      ∀ program, (parse nestingLimit source).program = .ok program →
        (runLine source { s with bindings } r).session = (runLine source s r).session := by
  cases read : (parse nestingLimit source).program with
  | error failure =>
    rw [runLine_of_failure _ r read, runLine_of_failure s r read]
    refine ⟨rfl, rfl, ?_⟩
    intro program ok
    cases ok
  | ok program =>
    have starts : startBindings { s with bindings } = startBindings s := by
      simp [startBindings, prompt, forgets]
    rcases ran : Machine.run depthLimit (s.queue ++ program) { bindings := s.startBindings }
      with ⟨e | ⟨⟩, m⟩
    · have again := runLine_of_error { s with bindings } r read (by rw [starts]; exact ran)
      rw [again, runLine_of_error s r read ran]
      exact ⟨rfl, rfl, fun _ _ => rfl⟩
    · have again := runLine_of_ok { s with bindings } r read (by rw [starts]; exact ran)
      rw [again, runLine_of_ok s r read ran]
      exact ⟨rfl, rfl, fun _ _ => rfl⟩

end Session

namespace Shell

theorem runLine_forgets {sh other : Shell} (alike : sh.Resembles other)
    (prompt : other.session.atPrompt = true) (forgets : other.session.persist = false)
    (source : String) :
    (sh.runLine source).out = (other.runLine source).out ∧
      (sh.runLine source).err = (other.runLine source).err ∧
      ∀ program, (parse nestingLimit source).program = .ok program →
        (sh.runLine source).shell.session = (other.runLine source).shell.session := by
  obtain ⟨bindings, lastLine, rfl⟩ := alike
  exact Session.runLine_forgets prompt forgets bindings source other.reporter

/-- Shells that differ in their bindings and in the line they remember write the same about
any line, and a source that can be read leaves them with the same bindings. -/
theorem handle_forgets {sh other : Shell} (alike : sh.Resembles other)
    (prompt : other.session.atPrompt = true) (forgets : other.session.persist = false)
    (typed : String) :
    (sh.handle typed).out = (other.handle typed).out ∧
      (sh.handle typed).err = (other.handle typed).err ∧
      ∀ source program, (TypedLine.read typed).source? = some source →
        (parse nestingLimit source).program = .ok program →
        (sh.handle typed).shell.session = (other.handle typed).shell.session := by
  cases runs : (TypedLine.read typed).source? with
  | none =>
    rw [sh.handle_of_bare runs, other.handle_of_bare runs]
    obtain ⟨bindings, lastLine, rfl⟩ := alike
    refine ⟨rfl, rfl, ?_⟩
    intro source program some
    cases some
  | some source =>
    rw [sh.handle_of_source runs, other.handle_of_source runs]
    rw [← other.remember_session (TypedLine.read typed)] at prompt forgets
    obtain ⟨sameOut, sameErr, sameSession⟩ :=
      runLine_forgets (alike.remember (TypedLine.read typed)) prompt forgets source
    refine ⟨?_, sameErr, ?_⟩
    · simp only [sameOut]
    · rintro other program ⟨⟩ parses
      exact sameSession program parses

/-- Lines typed at a fresh shell without persistence do not influence each other. After any
two histories, and in a fresh shell, a line writes the same text. If the line is run as a
source that can be read, the bindings after it are the same too. -/
theorem lines_stay_apart (host : Text.Host) :
    ∃ sh, Program.freshShell host (some false) = .ok sh ∧
      ∀ first second : List String, (∀ line ∈ first, asksToLeave line = false) →
        (∀ line ∈ second, asksToLeave line = false) → ∀ typed,
        let t := (sh.afterLines first).handle typed
        let u := (sh.afterLines second).handle typed
        t.out = u.out ∧ t.err = u.err ∧ t.out = (sh.handle typed).out ∧
          t.err = (sh.handle typed).err ∧
          ∀ source program, (TypedLine.read typed).source? = some source →
            (parse nestingLimit source).program = .ok program →
            t.shell.session.bindings = u.shell.session.bindings ∧
              t.shell.session.bindings = (sh.handle typed).shell.session.bindings := by
  obtain ⟨sh, fresh, rests, forgets⟩ : ∃ sh, Program.freshShell host (some false) = .ok sh ∧
      sh.AtRest ∧ sh.session.persist = false := ⟨_, rfl, ⟨rfl, rfl, rfl, rfl⟩, rfl⟩
  refine ⟨sh, fresh, ?_⟩
  intro first second stayFirst staySecond typed t u
  obtain ⟨outFirst, errFirst, boundFirst⟩ :=
    handle_forgets (afterLines_resembles rests stayFirst) rests.prompt forgets typed
  obtain ⟨outSecond, errSecond, boundSecond⟩ :=
    handle_forgets (afterLines_resembles rests staySecond) rests.prompt forgets typed
  refine ⟨outFirst.trans outSecond.symm, errFirst.trans errSecond.symm, outFirst, errFirst, ?_⟩
  intro source program runs parses
  have sameFirst := boundFirst source program runs parses
  have sameSecond := boundSecond source program runs parses
  exact ⟨congrArg Session.bindings (sameFirst.trans sameSecond.symm),
    congrArg Session.bindings sameFirst⟩

/-- A name that an earlier line bound, in front of one that could not be read, is not bound
in a later line, and the bindings are those of the later line alone. -/
theorem lines_stay_apart_forgotten :
    ∃ sh, Program.freshShell .plain (some false) = .ok sh ∧
      let t := (sh.afterLines ["x = 1", "y = ("]).handle "z = 2 print(x)"
      t.err = (sh.handle "z = 2 print(x)").err ∧ t.shell.session.bindings = ⟨[("z", 2)]⟩ := by
  obtain ⟨sh, fresh, apart⟩ := lines_stay_apart .plain
  have stay : ∀ line ∈ ["x = 1", "y = ("], asksToLeave line = false := by decide +kernel
  have runs : (TypedLine.read "z = 2 print(x)").source? = some "z = 2 print(x)" := by
    decide +kernel
  obtain ⟨-, -, -, sameErr, sameBindings⟩ :=
    apart ["x = 1", "y = ("] [] stay (by simp) "z = 2 print(x)"
  refine ⟨sh, fresh, sameErr, ?_⟩
  cases parses : (parse nestingLimit "z = 2 print(x)").program with
  | error failure =>
    have succeeds : (parse nestingLimit "z = 2 print(x)").program.toBool = true := by
      decide +kernel
    rw [parses] at succeeds
    contradiction
  | ok program =>
    rw [(sameBindings _ program runs parses).2, ← Except.ok.inj fresh]
    decide +kernel

/-- A blank line reads as a program without statements, yet it is not run: what an earlier
line bound stays. -/
theorem blank_line_keeps_bindings :
    ∃ sh, Program.freshShell .plain (some false) = .ok sh ∧ asksToLeave "x = 1" = false ∧
      (parse nestingLimit "").program = .ok [] ∧
      ((sh.afterLines ["x = 1"]).handle "").shell.session.bindings = ⟨[("x", 1)]⟩ ∧
      (sh.handle "").shell.session.bindings = .empty := by
  refine ⟨_, rfl, ?_, ?_, ?_, ?_⟩
  · decide +kernel
  · with_unfolding_all rfl
  · decide +kernel
  · decide +kernel

end Shell
end IntScript

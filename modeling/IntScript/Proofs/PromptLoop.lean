import IntScript.Program
import IntScript.Proofs.TypedLines

/-! Conversations at the prompt. Whatever lines are typed, the shell handles all of them up
to the first that asks to leave, or to the end of the input, and then leaves with a farewell.
Between any two lines it is at rest. -/
namespace IntScript.Shell

/-- The lines of an input. Behind the last line feed stands a line only if anything does. -/
def linesOf (input : List Char) : List String :=
  let stretches := (input.splitOn '\n').map String.ofList
  if stretches.getLast? = some "" then stretches.dropLast else stretches

theorem linesOf_nil : linesOf [] = [] := by decide

theorem linesOf_feed {line : List Char} (inside : '\n' ∉ line) (rest : List Char) :
    linesOf (line ++ '\n' :: rest) = String.ofList line :: linesOf rest := by
  have split := List.splitOn_append_cons_self_of_not_mem inside rest
  have more : (rest.splitOn '\n').map String.ofList ≠ [] := by simp
  simp only [linesOf, split, List.map_cons, List.getLast?_cons_of_ne_nil more,
    List.dropLast_cons_of_ne_nil more]
  split <;> rfl

theorem linesOf_unfinished {line : List Char} (inside : '\n' ∉ line) (more : line ≠ []) :
    linesOf line = [String.ofList line] := by
  have split := List.splitOn_eq_singleton inside
  have shown : String.ofList line ≠ "" := fun empty => more (String.ofList_eq_empty_iff.mp empty)
  simp [linesOf, split, shown]

/-- A line reaches up to the next line feed, and the others stand behind that. -/
theorem linesOf_cons (c : Char) (cs : List Char) :
    let line := (c :: cs).takeWhile (· ≠ '\n')
    linesOf (c :: cs) = String.ofList line :: linesOf (cs.drop line.length) := by
  intro line
  have inside : '\n' ∉ line := by
    intro member
    simpa using List.mem_takeWhile_imp member
  have whole : line ++ (c :: cs).dropWhile (· ≠ '\n') = c :: cs := List.takeWhile_append_dropWhile
  cases behind : (c :: cs).dropWhile (· ≠ '\n') with
  | nil =>
    rw [behind, List.append_nil] at whole
    have spent : cs.drop line.length = [] := by
      rw [whole]
      exact List.drop_eq_nil_of_le (by simp)
    rw [spent, linesOf_nil, whole]
    exact linesOf_unfinished (whole ▸ inside) (by simp)
  | cons d rest =>
    have feed : d = '\n' := by
      have head := List.head?_dropWhile_not (fun d : Char => decide (d ≠ '\n')) (c :: cs)
      rw [behind] at head
      simpa using head
    rw [behind, feed] at whole
    have spent : cs.drop line.length = rest := by
      have : (c :: cs).drop (line.length + 1) = rest := by
        rw [← whole]
        simp
      exact this
    rw [spent, ← whole]
    exact linesOf_feed inside rest

/-- The turns that lines take, one after the other. -/
def turns (sh : Shell) : List String → List ShellTurn
  | [] => []
  | line :: lines => sh.handle line :: (sh.handle line).shell.turns lines

/-- The shell after lines. -/
def afterLines (sh : Shell) (lines : List String) : Shell :=
  lines.foldl (fun sh line => (sh.handle line).shell) sh

/-- After lines that do not ask to leave, a shell at rest has other bindings at most. -/
theorem afterLines_resembles {sh : Shell} (rests : sh.AtRest) {lines : List String}
    (stay : ∀ line ∈ lines, asksToLeave line = false) : (sh.afterLines lines).Resembles sh := by
  induction lines generalizing sh with
  | nil => exact ⟨sh.session.bindings, sh.lastLine, rfl⟩
  | cons line lines ih =>
    obtain ⟨stays, others⟩ := List.forall_mem_cons.mp stay
    obtain ⟨-, alike⟩ := handle_rests rests stays
    exact (ih (alike.atRest rests) others).trans alike

theorem turns_go_on {sh : Shell} (rests : sh.AtRest) {lines : List String}
    (stay : ∀ line ∈ lines, asksToLeave line = false) :
    ∀ turn ∈ sh.turns lines, turn.stop = .ok false := by
  induction lines generalizing sh with
  | nil => simp [turns]
  | cons line lines ih =>
    obtain ⟨stays, others⟩ := List.forall_mem_cons.mp stay
    obtain ⟨goesOn, alike⟩ := handle_rests rests stays
    exact List.forall_mem_cons.mpr ⟨goesOn, ih (alike.atRest rests) others⟩

/-- The lines in front of the first that asks to leave. -/
def keptLines (lines : List String) : List String := lines.takeWhile (!asksToLeave ·)

/-- The line that ends a conversation; the end of the input counts as one. -/
def partingLine (lines : List String) : String := (lines.find? asksToLeave).getD "EOF"

theorem keptLines_stay (lines : List String) :
    ∀ line ∈ keptLines lines, asksToLeave line = false := by
  intro line member
  simpa using List.mem_takeWhile_imp member

/-- What the loop leaves behind, in terms of the lines it handled. -/
structure Conversation (sh : Shell) (lines : List String) (t : LoopTurn) : Prop where
  returns : t.result = .ok ()
  out : t.out =
    String.join ((sh.turns (keptLines lines)).map fun turn => ">>> " ++ turn.out) ++ ">>> " ++
      ((if Text.strip (partingLine lines) = "EOF" then "\n" else "") ++ "Exiting PanLang REPL.\n")
  err : t.err = String.join ((sh.turns (keptLines lines)).map ShellTurn.err)
  unread : linesOf t.rest = lines.drop ((keptLines lines).length + 1)
  session : t.shell.session = (sh.afterLines (keptLines lines)).session
  reporter : t.shell.reporter = (sh.afterLines (keptLines lines)).reporter

namespace Conversation

/-- A line that asks to leave ends the conversation, and the lines behind it stay unread. -/
theorem leaves {lines : List String} {typed : String} {rest : List Char} (sh : Shell)
    (first : keptLines lines = []) (parting : partingLine lines = typed)
    (leaves : asksToLeave typed = true) (unread : linesOf rest = lines.drop 1) :
    Conversation sh lines {
      result := (sh.handle typed).stop.map fun _ => ()
      shell := (sh.handle typed).shell
      out := prompt ++ (sh.handle typed).out
      err := (sh.handle typed).err
      rest } := by
  obtain ⟨stop, out, err, session, reporter⟩ := sh.handle_leaves leaves
  constructor
  · rw [stop]
    rfl
  · rw [out, first, parting, turns, List.map_nil, String.join_nil, String.empty_append]
    rfl
  · rw [err, first, turns, List.map_nil, String.join_nil]
  · rw [unread, first, List.length_nil]
  · rw [session, first]
    rfl
  · rw [reporter, first]
    rfl

/-- Any other line is handled, and the conversation goes on. -/
theorem cons {sh : Shell} {line : String} {lines : List String} {u : LoopTurn}
    (stays : asksToLeave line = false) (others : Conversation (sh.handle line).shell lines u) :
    Conversation sh (line :: lines) { u with
      out := prompt ++ (sh.handle line).out ++ u.out
      err := (sh.handle line).err ++ u.err } := by
  have kept : keptLines (line :: lines) = line :: keptLines lines := by
    simp [keptLines, stays]
  have parting : partingLine (line :: lines) = partingLine lines := by
    simp [partingLine, stays]
  obtain ⟨returns, out, err, unread, session, reporter⟩ := others
  constructor
  · exact returns
  · rw [kept, parting, turns, List.map_cons, String.join_cons, out]
    simp only [prompt, String.append_assoc]
  · rw [kept, turns, List.map_cons, String.join_cons, err]
  · rw [unread, kept, List.length_cons, List.drop_succ_cons]
  · rw [session, kept]
    rfl
  · rw [reporter, kept]
    rfl

end Conversation

theorem loop_converses {sh : Shell} (rests : sh.AtRest) (input : List Char) :
    Conversation sh (linesOf input) (sh.loop input) := by
  fun_induction loop sh input with
  | case1 sh t => exact .leaves sh rfl rfl (by decide) rfl
  | case2 sh c cs line rest t goesOn u ih =>
    have lines : linesOf (c :: cs) = String.ofList line :: linesOf rest := linesOf_cons c cs
    have stays : asksToLeave (String.ofList line) = false := by
      apply Bool.eq_false_iff.mpr
      intro leaves
      have stop : t.stop = .ok true := (sh.handle_leaves leaves).1
      rw [goesOn] at stop
      cases stop
    obtain ⟨-, alike⟩ := handle_rests rests stays
    rw [lines]
    exact .cons stays (ih (alike.atRest rests))
  | case3 sh c cs line rest t other =>
    have lines : linesOf (c :: cs) = String.ofList line :: linesOf rest := linesOf_cons c cs
    -- nothing but a wish to leave stops a shell at rest
    have leaves : asksToLeave (String.ofList line) = true := by
      by_contra stays
      exact other (handle_rests rests (Bool.eq_false_iff.mpr stays)).1
    rw [lines]
    apply Conversation.leaves sh _ _ leaves rfl
    · simp [keptLines, leaves]
    · simp [partingLine, leaves]

/-- A shell at rest, such as a fresh one, handles every line of its input up to the first
that asks to leave, or to the end of the input, and then leaves with a farewell. No other
line stops it or lets trouble through, and between any two lines nothing is queued and
nothing is registered. -/
theorem loop_survives :
    (∀ host persist, ∃ sh, Program.freshShell host persist = .ok sh ∧ sh.AtRest ∧
      sh.session.persist = persist.getD false) ∧
    ∀ sh : Shell, sh.AtRest → ∀ input,
      let lines := linesOf input
      let kept := keptLines lines
      let t := sh.loop input
      t.result = .ok () ∧
      (∀ turn ∈ sh.turns kept, turn.stop = .ok false) ∧
      (∀ count, (sh.afterLines (kept.take count)).AtRest) ∧
      t.out = String.join ((sh.turns kept).map fun turn => ">>> " ++ turn.out) ++ ">>> " ++
        ((if Text.strip (partingLine lines) = "EOF" then "\n" else "") ++
          "Exiting PanLang REPL.\n") ∧
      t.err = String.join ((sh.turns kept).map ShellTurn.err) ∧
      t.shell.session = (sh.afterLines kept).session ∧
      t.shell.reporter = (sh.afterLines kept).reporter ∧
      linesOf t.rest = lines.drop (kept.length + 1) := by
  constructor
  · intro host persist
    exact ⟨_, rfl, ⟨rfl, rfl, rfl, rfl⟩, rfl⟩
  · intro sh rests input lines kept t
    have stay := keptLines_stay lines
    obtain ⟨returns, out, err, unread, session, reporter⟩ := loop_converses rests input
    refine ⟨returns, turns_go_on rests stay, ?_, out, err, session, reporter, unread⟩
    intro count
    have stayFirst : ∀ line ∈ kept.take count, asksToLeave line = false :=
      fun line member => stay line (List.mem_of_mem_take member)
    exact (afterLines_resembles rests stayFirst).atRest rests

/-- A division by zero, a text that cannot be read and an assignment to a command's name do
not end the conversation; the word behind blanks does. -/
theorem loop_survives_five :
    let input := "x = 1 / 0\nprint((\n\nexit = @ 2\n\t exit\nprint(2)".toList
    let lines := ["x = 1 / 0", "print((", "", "exit = @ 2", "\t exit", "print(2)"]
    ∃ sh, Program.freshShell .plain (some true) = .ok sh ∧ sh.AtRest ∧ linesOf input = lines ∧
      keptLines lines = lines.take 4 ∧ (sh.loop input).result = .ok () ∧
      (∀ count, (sh.afterLines (lines.take (min count 4))).AtRest) ∧
      linesOf (sh.loop input).rest = ["print(2)"] := by
  intro input lines
  obtain ⟨fresh, survives⟩ := loop_survives
  obtain ⟨sh, started, rests, -⟩ := fresh .plain (some true)
  have cut : linesOf input = lines := by decide +kernel
  have kept : keptLines lines = lines.take 4 := by decide +kernel
  obtain ⟨returns, -, between, -, -, -, -, unread⟩ := survives sh rests input
  rw [cut, kept] at between unread
  refine ⟨sh, started, rests, cut, kept, returns, ?_, unread⟩
  intro count
  rw [← List.take_take]
  exact between count

end IntScript.Shell

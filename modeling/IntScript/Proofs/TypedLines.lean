import IntScript.Proofs.LineSteps
import IntScript.Shell
import Mathlib.Data.List.DropRight

/-! What a typed line does. A line is blank, a bare command, or the source of a program.
Between lines a shell is at rest: nothing is queued and nothing is registered. A line that
does not ask to leave changes the bindings of a shell at rest and the line it remembers, and
nothing else of it. -/
namespace IntScript

namespace Text

theorem stripChars_eq_nil {text : List Char} (empty : stripChars text = []) :
    ∀ c ∈ text, isBlank c = true := by
  have kept : ∀ c ∈ text.dropWhile isBlank, isBlank c = true := List.rdropWhile_eq_nil_iff.mp empty
  intro c member
  rw [← List.takeWhile_append_dropWhile (p := isBlank) (l := text)] at member
  rcases List.mem_append.mp member with front | behind
  · exact List.mem_takeWhile_imp front
  · exact kept c behind

/-- Behind the front of a stripped text, something is left that is not blank or nothing at
all. -/
theorem drop_stripChars {text : List Char} {n : Nat}
    (blank : ∀ c ∈ (stripChars text).drop n, isBlank c = true) : (stripChars text).drop n = [] := by
  by_contra more
  have whole : stripChars text ≠ [] := by
    intro empty
    exact more (by rw [empty, List.drop_nil])
  have last := List.rdropWhile_last_not isBlank (text.dropWhile isBlank) whole
  apply last
  have member := List.getLast_mem more
  rw [List.getLast_drop more] at member
  exact blank _ member

end Text

namespace TypedLine

/-- The source that a line is run as; a blank line and a bare command are none. -/
def source? : TypedLine → Option String
  | .empty => none
  | .setOff line => some line
  | .named name argument line =>
    if argument = "" ∧ (name = "help" ∨ name = "exit" ∨ name = Shell.endOfInput) then none
    else some line

theorem split_of_read {typed name argument line : String}
    (read : TypedLine.read typed = .named name argument line) :
    split line.toList = .named name argument line := by
  unfold TypedLine.read at read
  split at read
  · contradiction
  · contradiction
  · next rest _ =>
    obtain ⟨-, -, rfl⟩ := TypedLine.named.inj read
    rw [String.toList_ofList]
    exact read
  · next chars _ _ _ =>
    obtain ⟨-, -, rfl⟩ := TypedLine.named.inj read
    rw [String.toList_ofList]
    exact read

theorem takeWhile_help (rest : List Char) :
    ("help ".toList ++ rest).takeWhile isWordChar = "help".toList := by
  have chars : "help ".toList = "help".toList ++ [' '] := by decide
  rw [chars, List.append_assoc]
  have word : "help".toList.all isWordChar = true := by decide
  have blank : ∀ c ∈ ([' '] ++ rest).head?, isWordChar c = false := by
    rintro c ⟨⟩
    decide
  exact Piece.takeWhile_eq_iff.mpr ⟨List.all_eq_true.mp word, blank⟩

/-- A command without an argument is all of its line, or the line is the mark that asks for
help. -/
theorem strip_of_bare {typed name line : String}
    (read : TypedLine.read typed = .named name "" line) :
    name = "help" ∧ Text.strip typed = "?" ∨ Text.strip typed = name := by
  unfold TypedLine.read at read
  split at read
  · contradiction
  · contradiction
  · next rest stripped =>
    left
    obtain ⟨named, argument, -⟩ := TypedLine.named.inj read
    rw [takeWhile_help] at named argument
    have blank := Text.stripChars_eq_nil (String.ofList_eq_empty_iff.mp argument)
    -- behind the mark there are blanks at most, and a stripped line does not end in one
    have behind : ∀ c ∈ (Text.stripChars typed.toList).drop 1, Text.isBlank c = true := by
      rw [stripped]
      exact fun c member => blank c (List.mem_cons_of_mem ' ' member)
    have nothing := Text.drop_stripChars behind
    rw [stripped] at nothing
    obtain rfl : rest = [] := nothing
    refine ⟨?_, ?_⟩
    · rw [← named, String.ofList_toList]
    · rw [Text.strip, stripped]
  · right
    obtain ⟨named, argument, -⟩ := TypedLine.named.inj read
    have blank := Text.stripChars_eq_nil (String.ofList_eq_empty_iff.mp argument)
    have nothing := Text.drop_stripChars blank
    have whole := List.prefix_iff_eq_append.mp
      (List.takeWhile_prefix isWordChar (l := Text.stripChars typed.toList))
    rw [nothing, List.append_nil] at whole
    rw [← named, whole, Text.strip]

end TypedLine

namespace Shell

/-- The line asks the shell to leave. -/
def asksToLeave (typed : String) : Bool :=
  Text.strip typed = "exit" || Text.strip typed = "EOF"

/-- The shell once it has seen a line: a line with a name in front is remembered. -/
def remember (sh : Shell) : TypedLine → Shell
  | .named _ _ line => { sh with lastLine := if line = endOfInput then "" else line }
  | .empty | .setOff _ => sh

@[simp] theorem remember_session (sh : Shell) (line : TypedLine) :
    (sh.remember line).session = sh.session := by
  cases line <;> rfl

@[simp] theorem remember_reporter (sh : Shell) (line : TypedLine) :
    (sh.remember line).reporter = sh.reporter := by
  cases line <;> rfl

/-- What is written in front of all else: the end of the input moves to a new line. -/
def lead : TypedLine → String
  | .named name _ _ => if name = endOfInput then "\n" else ""
  | .empty | .setOff _ => ""

/-- What a bare command writes. -/
def answer (persist : Bool) : TypedLine → String
  | .named name _ _ => if name = "help" then helpText persist else farewell
  | .empty | .setOff _ => ""

theorem read_of_leave {typed : String} (leaves : asksToLeave typed = true) :
    TypedLine.read typed = .named (Text.strip typed) "" (Text.strip typed) := by
  have chars : Text.stripChars typed.toList = (Text.strip typed).toList :=
    String.toList_ofList.symm
  simp only [asksToLeave, Bool.or_eq_true, decide_eq_true_eq] at leaves
  rw [TypedLine.read, chars]
  rcases leaves with exit | final
  · rw [exit]
    decide
  · rw [final]
    decide

/-- Where a command has an argument the whole line is remembered, and run. -/
theorem remembered_of_argument {typed name argument line : String}
    (read : TypedLine.read typed = .named name argument line) (more : argument ≠ "") :
    (if line = endOfInput then "" else line) = line := by
  apply if_neg
  rintro rfl
  have whole := TypedLine.split_of_read read
  have final : TypedLine.split endOfInput.toList = .named endOfInput "" endOfInput := by decide
  obtain ⟨-, empty, -⟩ := TypedLine.named.inj (final.symm.trans whole)
  exact more empty.symm

/-- Of the bare commands, two ask to leave. -/
theorem asksToLeave_of_bare {typed name line : String}
    (read : TypedLine.read typed = .named name "" line) :
    asksToLeave typed = (name = "exit" || name = endOfInput) := by
  rcases TypedLine.strip_of_bare read with ⟨rfl, -⟩ | strip
  · apply Bool.eq_false_iff.mpr
    intro leaves
    have named := read_of_leave leaves
    rw [read] at named
    rw [asksToLeave, ← (TypedLine.named.inj named).1] at leaves
    contradiction
  · rw [asksToLeave, strip]
    rfl

theorem endOfInput_ne : endOfInput ≠ "help" ∧ endOfInput ≠ "exit" := by decide

/-- A line that is run as a source is run as the same source by every shell. -/
theorem handle_of_source {typed source : String} (sh : Shell)
    (runs : (TypedLine.read typed).source? = some source) :
    sh.handle typed =
      let t := (sh.remember (TypedLine.read typed)).runLine source
      { t with out := lead (TypedLine.read typed) ++ t.out } := by
  cases read : TypedLine.read typed with
  | empty =>
    rw [read] at runs
    contradiction
  | setOff line =>
    rw [read] at runs
    cases runs
    simp only [handle, read, remember, lead, String.empty_append]
  | named name argument line =>
    rw [read, TypedLine.source?] at runs
    split at runs
    · contradiction
    · next bare =>
      cases runs
      by_cases command : name = "help" ∨ name = "exit" ∨ name = endOfInput
      · have more : argument ≠ "" := fun empty => bare ⟨empty, command⟩
        have remembered := remembered_of_argument read more
        rcases command with rfl | rfl | rfl
        · simp [handle, read, remember, lead, help, more, remembered, endOfInput_ne.1.symm]
        · simp [handle, read, remember, lead, leave, more, remembered, endOfInput_ne.2.symm]
        · simp [handle, read, remember, lead, leave, more, remembered, endOfInput_ne]
      · simp only [not_or] at command
        simp [handle, read, remember, lead, command]

/-- A blank line and a bare command leave the session alone. -/
theorem handle_of_bare {typed : String} (sh : Shell)
    (bare : (TypedLine.read typed).source? = none) :
    sh.handle typed = {
      stop := .ok (asksToLeave typed)
      shell := sh.remember (TypedLine.read typed)
      out := lead (TypedLine.read typed) ++ answer sh.session.persist (TypedLine.read typed) } := by
  cases read : TypedLine.read typed with
  | empty =>
    have stays : asksToLeave typed = false := by
      apply Bool.eq_false_iff.mpr
      intro leaves
      rw [read_of_leave leaves] at read
      contradiction
    simp [handle, read, remember, lead, answer, stays]
  | setOff line =>
    rw [read] at bare
    contradiction
  | named name argument line =>
    rw [read, TypedLine.source?] at bare
    split at bare
    · next command =>
      obtain ⟨rfl, command⟩ := command
      rw [asksToLeave_of_bare read]
      rcases command with rfl | rfl | rfl
      · simp [handle, read, remember, lead, answer, help, endOfInput_ne.1.symm]
      · simp [handle, read, remember, lead, answer, leave, endOfInput_ne.2.symm]
      · simp [handle, read, remember, lead, answer, leave, endOfInput_ne]
    · contradiction

theorem source?_of_leave {typed : String} (leaves : asksToLeave typed = true) :
    (TypedLine.read typed).source? = none := by
  rw [read_of_leave leaves]
  simp only [asksToLeave, Bool.or_eq_true, decide_eq_true_eq] at leaves
  rw [TypedLine.source?, if_pos ⟨rfl, .inr leaves⟩]

/-- Nothing is queued and nothing is registered, and errors are not fatal. -/
structure AtRest (sh : Shell) : Prop where
  prompt : sh.session.atPrompt = true
  idle : sh.session.queue = []
  lenient : sh.reporter.fatal = false
  clean : sh.reporter.registry = .empty

/-- The two shells differ in their bindings at most, and in the line they remember. -/
def Resembles (sh other : Shell) : Prop :=
  ∃ bindings lastLine, sh = ⟨{ other.session with bindings }, other.reporter, lastLine⟩

theorem Resembles.trans {first second third : Shell} (left : first.Resembles second)
    (right : second.Resembles third) : first.Resembles third := by
  obtain ⟨bindings, lastLine, rfl⟩ := left
  obtain ⟨bindings', lastLine', rfl⟩ := right
  exact ⟨bindings, lastLine, rfl⟩

theorem Resembles.atRest {sh other : Shell} (alike : sh.Resembles other) (rests : other.AtRest) :
    sh.AtRest := by
  obtain ⟨bindings, lastLine, rfl⟩ := alike
  exact ⟨rests.prompt, rests.idle, rests.lenient, rests.clean⟩

theorem Resembles.remember {sh other : Shell} (alike : sh.Resembles other) (line : TypedLine) :
    (sh.remember line).Resembles (other.remember line) := by
  obtain ⟨bindings, lastLine, rfl⟩ := alike
  cases line with
  | named name argument line => exact ⟨bindings, _, rfl⟩
  | _ => exact ⟨bindings, lastLine, rfl⟩

theorem remember_resembles (sh : Shell) (line : TypedLine) : (sh.remember line).Resembles sh := by
  cases line with
  | named name argument line => exact ⟨sh.session.bindings, _, rfl⟩
  | _ => exact ⟨sh.session.bindings, sh.lastLine, rfl⟩

theorem runLine_rests {sh : Shell} (rests : sh.AtRest) (source : String) :
    (sh.runLine source).stop = .ok false ∧ (sh.runLine source).shell.Resembles sh := by
  obtain ⟨bindings, result, session, reporter⟩ :=
    Session.runLine_rests rests.prompt rests.idle rests.lenient rests.clean source
  simp only [runLine, result, session, reporter]
  exact ⟨rfl, bindings, sh.lastLine, rfl⟩

/-- A line that does not ask to leave neither stops a shell at rest nor disturbs its rest. -/
theorem handle_rests {sh : Shell} (rests : sh.AtRest) {typed : String}
    (stays : asksToLeave typed = false) :
    (sh.handle typed).stop = .ok false ∧ (sh.handle typed).shell.Resembles sh := by
  have remembers := sh.remember_resembles (TypedLine.read typed)
  cases runs : (TypedLine.read typed).source? with
  | none =>
    rw [sh.handle_of_bare runs, stays]
    exact ⟨rfl, remembers⟩
  | some source =>
    obtain ⟨goesOn, alike⟩ := runLine_rests (remembers.atRest rests) source
    rw [sh.handle_of_source runs]
    exact ⟨goesOn, alike.trans remembers⟩

/-- A line that asks to leave stops the shell with a farewell and leaves all else alone. -/
theorem handle_leaves (sh : Shell) {typed : String} (leaves : asksToLeave typed = true) :
    (sh.handle typed).stop = .ok true ∧
      (sh.handle typed).out =
        (if Text.strip typed = "EOF" then "\n" else "") ++ "Exiting PanLang REPL.\n" ∧
      (sh.handle typed).err = "" ∧ (sh.handle typed).shell.session = sh.session ∧
      (sh.handle typed).shell.reporter = sh.reporter := by
  have named : Text.strip typed ≠ "help" := by
    simp only [asksToLeave, Bool.or_eq_true, decide_eq_true_eq] at leaves
    rcases leaves with exit | final
    · rw [exit]
      decide
    · rw [final]
      decide
  rw [sh.handle_of_bare (source?_of_leave leaves), read_of_leave leaves]
  simp only [lead, answer, named, if_false, remember_session, remember_reporter, and_true]
  exact ⟨congrArg Except.ok leaves, rfl⟩

end Shell
end IntScript

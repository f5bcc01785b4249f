import IntScript.Program
import IntScript.Proofs.TypedLines

/-! Lines that are no bare commands run as sources. A line is run as it stands, also behind
the name of a command, with two exceptions: a question mark in front is spelled out as the
word for help, and a line whose first word is the end of the input starts with a line feed. -/
namespace IntScript

namespace TypedLine

/-- The word that a line starts with, which may be empty. -/
def firstWord (line : String) : String := String.ofList (line.toList.takeWhile isWordChar)

/-- The line is a command and nothing more. -/
def isBareCommand (line : String) : Bool :=
  line = "exit" || line = "help" || line = "?" || line = Shell.endOfInput

/-- A line that does not ask for help by a question mark is kept as it is. -/
theorem read_unasked {typed : String} (more : Text.strip typed ≠ "")
    (unasked : (Text.strip typed).toList.head? ≠ some '?') :
    TypedLine.read typed = .setOff (Text.strip typed) ∧ firstWord (Text.strip typed) = "" ∨
      ∃ argument, TypedLine.read typed =
        .named (firstWord (Text.strip typed)) argument (Text.strip typed) := by
  have chars : (Text.strip typed).toList = Text.stripChars typed.toList := String.toList_ofList
  rw [chars] at unasked
  unfold TypedLine.read firstWord
  rw [chars]
  split
  · next empty =>
    rw [Text.strip, empty] at more
    exact absurd rfl more
  · next rest marked =>
    left
    rw [Text.strip, marked]
    exact ⟨rfl, rfl⟩
  · next rest asked =>
    rw [asked] at unasked
    exact absurd rfl unasked
  · exact .inr ⟨_, rfl⟩

/-- A question mark in front is spelled out. -/
theorem read_asked {typed rest : String} (asked : Text.strip typed = "?" ++ rest) :
    ∃ argument, TypedLine.read typed = .named "help" argument ("help " ++ rest) := by
  have chars : Text.stripChars typed.toList = '?' :: rest.toList := by
    have whole := congrArg String.toList asked
    rwa [Text.strip, String.toList_ofList, String.toList_append] at whole
  have line : String.ofList ("help ".toList ++ rest.toList) = "help " ++ rest := by
    rw [String.ofList_append, String.ofList_toList, String.ofList_toList]
  rw [TypedLine.read, chars]
  simp only [split, takeWhile_help, line, String.ofList_toList]
  exact ⟨_, rfl⟩

/-- A line that starts with a name runs as a source unless it is a bare command. -/
theorem source?_of_named {typed name argument line : String}
    (other : isBareCommand (Text.strip typed) = false)
    (read : TypedLine.read typed = .named name argument line) :
    (TypedLine.read typed).source? = some line := by
  rw [read, source?, if_neg]
  rintro ⟨rfl, command⟩
  apply Bool.eq_false_iff.mp other
  rcases strip_of_bare read with ⟨-, mark⟩ | whole
  · rw [mark]
    rfl
  · rw [whole]
    rcases command with rfl | rfl | rfl <;> rfl

end TypedLine

namespace Shell

/-- The turns write the same and leave the same session and reporter, and the shell goes on
after both or after neither. -/
structure SameEffect (t u : ShellTurn) : Prop where
  stop : t.stop = u.stop
  out : t.out = u.out
  err : t.err = u.err
  session : t.shell.session = u.shell.session
  reporter : t.shell.reporter = u.shell.reporter

/-- What is remembered of a line makes no difference to the source that it is run as. -/
theorem handle_led {typed source text : String} (sh : Shell)
    (runs : (TypedLine.read typed).source? = some source)
    (leads : lead (TypedLine.read typed) = text) :
    SameEffect (sh.handle typed)
      { sh.runLine source with out := text ++ (sh.runLine source).out } := by
  rw [sh.handle_of_source runs, leads]
  constructor <;> simp only [runLine, remember_session, remember_reporter]

theorem handle_unled {typed source : String} (sh : Shell)
    (runs : (TypedLine.read typed).source? = some source)
    (leads : lead (TypedLine.read typed) = "") :
    SameEffect (sh.handle typed) (sh.runLine source) := by
  obtain ⟨stop, out, err, session, reporter⟩ := sh.handle_led runs leads
  exact ⟨stop, out.trans String.empty_append, err, session, reporter⟩

/-- A line that is neither blank nor a bare command has the effect of its text run as a
source, for every state of the shell and whatever command it starts with. If its first word
is the end of the input, a line feed is written in front. If it starts with a question mark,
the text has the word for help in place of that mark. -/
theorem handle_as_typed (sh : Shell) (typed : String) (more : Text.strip typed ≠ "")
    (other : TypedLine.isBareCommand (Text.strip typed) = false) :
    let line := Text.strip typed
    (line.toList.head? ≠ some '?' → TypedLine.firstWord line ≠ endOfInput →
      SameEffect (sh.handle typed) (sh.runLine line)) ∧
    (TypedLine.firstWord line = endOfInput →
      SameEffect (sh.handle typed)
        { sh.runLine line with out := "\n" ++ (sh.runLine line).out }) ∧
    ∀ rest, line = "?" ++ rest →
      SameEffect (sh.handle typed) (sh.runLine ("help " ++ rest)) := by
  intro line
  refine ⟨?_, ?_, ?_⟩
  · intro unasked word
    rcases TypedLine.read_unasked more unasked with ⟨setOff, -⟩ | ⟨argument, named⟩
    · apply sh.handle_unled <;> rw [setOff] <;> rfl
    · apply sh.handle_unled (TypedLine.source?_of_named other named)
      rw [named, lead, if_neg word]
  · intro word
    have unasked : line.toList.head? ≠ some '?' := by
      intro asked
      obtain ⟨rest, chars⟩ := List.head?_eq_some_iff.mp asked
      have mark : ¬ isWordChar '?' = true := by decide
      rw [TypedLine.firstWord, chars, List.takeWhile_cons_of_neg mark] at word
      exact absurd word (by decide)
    rcases TypedLine.read_unasked more unasked with ⟨-, empty⟩ | ⟨argument, named⟩
    · exact absurd (empty.symm.trans word) (by decide)
    · apply sh.handle_led (TypedLine.source?_of_named other named)
      rw [named, lead, if_pos word]
  · intro rest asked
    obtain ⟨argument, named⟩ := TypedLine.read_asked asked
    apply sh.handle_unled (TypedLine.source?_of_named other named)
    rw [named, lead, if_neg endOfInput_ne.1.symm]

/-- An assignment to the name of a command, with blanks around it, in a shell that has a
binding and a statement waiting. -/
theorem handle_as_typed_exit :
    let session : Session := {
      path := promptPath
      atPrompt := true
      persist := true
      backend := none
      source := ""
      queue := [.print (.reference "x" .unknown) .unknown]
      bindings := ⟨[("x", 1)]⟩ }
    let sh : Shell := { session, reporter := { host := .plain, fatal := false } }
    Text.strip "\t exit = 3 " = "exit = 3" ∧
      SameEffect (sh.handle "\t exit = 3 ") (sh.runLine "exit = 3") ∧
      (sh.handle "\t exit = 3 ").out = "1\n" ∧
      (sh.handle "\t exit = 3 ").shell.session.bindings = ⟨[("x", 1), ("exit", 3)]⟩ := by
  intro session sh
  have stripped : Text.strip "\t exit = 3 " = "exit = 3" := by decide +kernel
  obtain ⟨typed, -, -⟩ := handle_as_typed sh "\t exit = 3 " (by rw [stripped]; decide)
    (by rw [stripped]; decide)
  rw [stripped] at typed
  have same := typed (by decide) (by decide +kernel)
  refine ⟨stripped, same, ?_, ?_⟩
  · rw [same.out]
    decide +kernel
  · rw [same.session]
    decide +kernel

/-- Two assignments that are not run as they were typed: one moves to a new line first, the
other is refused because of a word that is not in it. -/
theorem commands_show_through :
    ∃ sh, Program.freshShell .plain (some true) = .ok sh ∧
      (sh.handle "EOF = 3").out = "\n" ∧ (sh.runLine "EOF = 3").out = "" ∧
      (sh.handle "?x = 1").shell.session.bindings = .empty ∧
      (sh.runLine "?x = 1").shell.session.bindings = ⟨[("x", 1)]⟩ := by
  refine ⟨_, rfl, ?_, ?_, ?_, ?_⟩ <;> decide +kernel

end Shell
end IntScript

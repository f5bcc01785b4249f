import IntScript.Proofs.Blame
import IntScript.Proofs.SessionSteps

/-! What a source can do wrong. Statements of the shape that sources have fail in three
ways only: a name is not bound, a divisor is zero, or a text stands where a number is
wanted. Each makes a report, and so does a source that cannot be read. No source makes
the program itself fail. -/
namespace IntScript

/-- The texts in a tree with their places, from left to right. -/
def Node.texts : Node → List (String × Place)
  | .number .. | .reference .. => []
  | .string text place => [(text, place)]
  | .binary _ left right _ => left.texts ++ right.texts
  | .assignment _ value _ => value.texts
  | .print argument _ => argument.texts

/-- Errors that a tree of the shape of sources may end in. A text is only in the way if
it is one of the tree. -/
def EvalError.Due (node : Node) : EvalError → Prop
  | .unbound .. | .zeroDivision .. => True
  | .stringOperand text place => (text, place) ∈ node.texts
  | .notStatement .. | .notExpression .. | .operandStatement _ | .tooDeep => False

theorem Node.Part.texts {text : String} {place : Place} {node : Node}
    (inside : Node.Part (.string text place) node) : (text, place) ∈ node.texts := by
  induction inside with
  | whole => exact List.mem_cons_self
  | left _ ih => exact List.mem_append_left _ ih
  | right _ ih => exact List.mem_append_right _ ih
  | value _ ih | argument _ ih => exact ih

theorem EvalError.Blames.due {env : Bindings} {node : Node} {e : EvalError}
    (blames : e.Blames env node) : e.Due node := by
  cases e with
  | unbound | zeroDivision => trivial
  | stringOperand text place => exact Node.Part.texts blames
  | _ => contradiction

namespace Machine

theorem run_error {m after : Machine} {limit : Nat} {program : List Node} {e : EvalError}
    (shapes : ∀ statement ∈ program, statement.isStatement)
    (failed : m.run limit program = (.error e, after)) :
    ∃ statement ∈ program, e.Due statement ∨ e = .tooDeep ∧ limit < statement.levels := by
  obtain ⟨k, before, -, statement, found, fails⟩ := exists_stopsAt failed
  have member := List.mem_of_getElem? found
  have blames := execute_blames (shapes statement member) fails
  exact ⟨statement, member, blames.imp_left EvalError.Blames.due⟩

end Machine

/-- The report of an error that a statement of a source ends in: a name, an arithmetic
or a type error, the last one about a text of the statement. -/
def Report.Concerns (statement : Node) (host : Text.Host) (report : Report) : Prop :=
  report.category = .nameError ∨ report.category = .arithmeticError ∨
    report.category = .typeError ∧ ∃ text, (text, report.place) ∈ statement.texts ∧
      report.message = "string " ++ host.bold ("\"" ++ text ++ "\"") ++
        " cannot be evaluated as an integer expression"

theorem Trouble.ofEval_due {statement : Node} {e : EvalError} (due : e.Due statement)
    (host : Text.Host) :
    ∃ report, ofEval host e = .reported report ∧ report.Concerns statement host := by
  cases e with
  | unbound name place =>
    obtain ⟨notice, some, category, -, one⟩ := EvalError.oneField_unbound name place
    obtain ⟨report, made, same, -, -⟩ := one.trouble host
    refine ⟨report, ?_, .inl (same.trans category)⟩
    simp only [ofEval, some, made]
  | zeroDivision expr place =>
    obtain ⟨notice, some, category, -, one⟩ := EvalError.oneField_division expr place
    obtain ⟨report, made, same, -, -⟩ := one.trouble host
    refine ⟨report, ?_, .inr (.inl (same.trans category))⟩
    simp only [ofEval, some, made]
  | stringOperand text place =>
    obtain ⟨notice, some, category, placed, one⟩ := EvalError.oneField_string text place
    obtain ⟨report, made, same, located, message⟩ := one.trouble host
    have member : (text, report.place) ∈ statement.texts := by
      rw [located, placed]
      exact due
    refine ⟨report, ?_, .inr (.inr ⟨same.trans category, text, member, message⟩)⟩
    simp only [ofEval, some, made]
  | _ => contradiction

namespace Session

theorem shapes_add {source : String} {program : List Node} {s : Session}
    (shapes : ∀ node ∈ s.queue, node.isStatement)
    (read : (parse nestingLimit source).program = .ok program) :
    ∀ node ∈ s.queue ++ program, node.isStatement := by
  intro node member
  rcases List.mem_append.mp member with waiting | added
  · exact shapes node waiting
  · exact shape_of_parse read node added

theorem add_result (source : String) (s : Session) (r : Reporter) :
    (∃ program, (parse nestingLimit source).program = .ok program ∧
      (add source s r).result = .ok () ∧ (add source s r).session.queue = s.queue ++ program) ∨
    (∃ report, (add source s r).result = .error (.reported report) ∧
      report.category = .syntaxError) ∨
    (add source s r).result = .error .tooDeep ∧
      (parse nestingLimit source).program = .error .tooDeep := by
  cases read : (parse nestingLimit source).program with
  | ok program =>
    rw [add_of_parse s r read]
    exact .inl ⟨program, rfl, rfl, rfl⟩
  | error failure =>
    rw [add_of_failure s r read]
    cases failure with
    | rejected e =>
      obtain ⟨report, made, category, -⟩ := Trouble.ofRead_rejected r.host e
      exact .inr (.inl ⟨report, congrArg Except.error made, category⟩)
    | tooDeep => exact .inr (.inr ⟨rfl, rfl⟩)

theorem run_result {s : Session} (shapes : ∀ node ∈ s.queue, node.isStatement) (r : Reporter) :
    (run s r).result = .ok () ∨
    (∃ statement ∈ s.queue, ∃ report, (run s r).result = .error (.reported report) ∧
      report.Concerns statement r.host) ∨
    (run s r).result = .error .tooDeep ∧ ∃ statement ∈ s.queue, depthLimit < statement.levels := by
  rcases ran : Machine.run depthLimit s.queue { bindings := s.startBindings } with ⟨e | ⟨⟩, m⟩
  · rw [run_of_error r ran]
    obtain ⟨statement, member, due | ⟨rfl, deep⟩⟩ := Machine.run_error shapes ran
    · obtain ⟨report, made, concerns⟩ := Trouble.ofEval_due due r.host
      exact .inr (.inl ⟨statement, member, report, congrArg Except.error made, concerns⟩)
    · exact .inr (.inr ⟨rfl, statement, member, deep⟩)
  · rw [run_of_ok r ran]
    exact .inl rfl

/-- Adding any source and running the queue ends well, or with a report: a syntax error
from adding, a name, arithmetic or type error of one of the statements from running, where
a type error is about a text in that statement. The two limits stop only what is nested
deeper than they allow. -/
theorem add_run_reported (source : String) (s : Session) (r : Reporter)
    (shapes : ∀ node ∈ s.queue, node.isStatement = true) :
    let added := add source s r
    let ran := run added.session added.reporter
    (added.result = .ok () ∨
      (∃ report, added.result = .error (.reported report) ∧ report.category = .syntaxError) ∨
      added.result = .error .tooDeep ∧ (parse nestingLimit source).program = .error .tooDeep) ∧
    (added.result = .ok () →
      (∀ node ∈ added.session.queue, node.isStatement = true) ∧
      (ran.result = .ok () ∨
        (∃ statement ∈ added.session.queue, ∃ report, ran.result = .error (.reported report) ∧
          report.Concerns statement added.reporter.host) ∨
        ran.result = .error .tooDeep ∧
          ∃ statement ∈ added.session.queue, depthLimit < statement.levels)) := by
  intro added ran
  rcases add_result source s r with ⟨program, read, ok, queue⟩ | reported | deep
  · have shaped : ∀ node ∈ added.session.queue, node.isStatement := by
      rw [queue]
      exact shapes_add shapes read
    exact ⟨.inl ok, fun _ => ⟨shaped, run_result shaped added.reporter⟩⟩
  · obtain ⟨report, failed, category⟩ := reported
    refine ⟨.inr (.inl ⟨report, failed, category⟩), fun ok => ?_⟩
    rw [failed] at ok
    cases ok
  · refine ⟨.inr (.inr deep), fun ok => ?_⟩
    rw [deep.1] at ok
    cases ok

/-- Braces, an open quote and characters outside the grammar do no harm, also where a
statement waits that cannot be run. -/
theorem add_run_reported_braces :
    let s : Session := {
      path := promptPath
      atPrompt := true
      persist := true
      backend := none
      source := ""
      queue := [.print (.binary .div (.number 1 .unknown) (.number 0 .unknown) .unknown) .unknown]
      bindings := ⟨[("x", 1)]⟩ }
    let added := add "x = \x7b0!r\x7d % y[\"" s { host := .terminal }
    let ran := run added.session added.reporter
    (∀ node ∈ s.queue, node.isStatement = true) ∧
      (∀ fault, added.result ≠ .error (.fault fault)) ∧
      (added.result = .ok () → ∀ fault, ran.result ≠ .error (.fault fault)) := by
  intro s added ran
  have shapes : ∀ node ∈ s.queue, node.isStatement = true := by decide
  obtain ⟨adding, running⟩ :=
    add_run_reported "x = \x7b0!r\x7d % y[\"" s { host := .terminal } shapes
  refine ⟨shapes, ?_, ?_⟩
  · intro fault failed
    rcases adding with ok | ⟨report, reported, -⟩ | ⟨deep, -⟩
    · exact absurd (ok.symm.trans failed) (by simp)
    · exact absurd (reported.symm.trans failed) (by simp)
    · exact absurd (deep.symm.trans failed) (by simp)
  · intro accepted fault failed
    rcases (running accepted).2 with ok | ⟨_, -, report, reported, -⟩ | ⟨deep, -⟩
    · exact absurd (ok.symm.trans failed) (by simp)
    · exact absurd (reported.symm.trans failed) (by simp)
    · exact absurd (deep.symm.trans failed) (by simp)

end Session
end IntScript

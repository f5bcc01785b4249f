import IntScript.Proofs.Faultless

/-! How the trouble that a source makes ends under a reporter's care. It is a report that
underlines its whole subject, or nesting beyond a limit. Both can be written whatever is
registered. Then a fatal reporter asks to leave, and any other goes on with nothing
registered. -/
namespace IntScript
open Text (Host)

/-- The report underlines its whole subject and is about the input. -/
structure Report.Whole (report : Report) : Prop where
  start : report.start = 0
  stop : report.stop = report.subject.length
  outward : report.internal = false

/-- Trouble that a source may make. -/
def Trouble.Ordinary : Trouble → Prop
  | .reported report => report.Whole
  | .tooDeep => True
  | .interrupted | .leave _ | .fault _ => False

/-- What is said of nesting beyond a limit. -/
def tooDeepNotice : Notice where
  category := .general
  template := "expression nesting too deep, maximum recursion depth exceeded"

theorem report_tooDeepNotice (host : Host) :
    tooDeepNotice.report host = .ok {
      category := .general
      message := "expression nesting too deep, maximum recursion depth exceeded"
      subject := ""
      place := .unknown
      start := 0
      stop := 0
      diagnosis := true
      internal := false } := by
  have plain : Text.isPlain tooDeepNotice.template.toList := by decide
  simp only [Notice.report, Text.fill_plain _ _ plain]
  rfl

theorem Notice.OneField.ordinary {notice : Notice} {before subject after : String}
    (one : notice.OneField before subject after) (start : notice.start = 0)
    (stop : notice.stop = -1) (outward : notice.internal = false) (host : Host) :
    (Trouble.ofNotice notice host).Ordinary := by
  simp only [Trouble.ofNotice, one.report host]
  exact ⟨start, if_pos stop, outward⟩

namespace Trouble

theorem ofRead_ordinary (host : Host) (failure : ReadFailure) :
    (ofRead host failure).Ordinary := by
  cases failure with
  | rejected e =>
    obtain ⟨before, after, one⟩ := e.oneField
    exact one.ordinary rfl rfl rfl host
  | tooDeep => trivial

theorem ofEval_ordinary {statement : Node} {e : EvalError} (host : Host)
    (due : e.Due statement ∨ e = .tooDeep) : (ofEval host e).Ordinary := by
  rcases due with due | rfl
  · cases e with
    | unbound name place =>
      obtain ⟨notice, found, -, -, one⟩ := EvalError.oneField_unbound name place
      cases found
      exact one.ordinary rfl rfl rfl host
    | stringOperand text place =>
      obtain ⟨notice, found, -, -, one⟩ := EvalError.oneField_string text place
      cases found
      exact one.ordinary rfl rfl rfl host
    | zeroDivision expr place =>
      obtain ⟨notice, found, -, -, one⟩ := EvalError.oneField_division expr place
      cases found
      exact one.ordinary rfl rfl rfl host
    | _ => contradiction
  · trivial

end Trouble

namespace Reporter

/-- Without a known column there is no line to show, so no report fails for want of one. -/
theorem errorText_whole {report : Report} (r : Reporter) (whole : report.Whole) :
    (r.errorText report).2 = none := by
  obtain ⟨start, stop, outward⟩ := whole
  have shown : ∃ lines, r.diagnosisLines report (r.locate report).2 false = .ok lines := by
    cases col : report.place.col with
    | some column => exact r.diagnosisLines_whole _ false (by rw [col]; rfl) start stop
    | none =>
      have unlocated : report.place.isLocated = false := by simp [Place.isLocated, col]
      have unseen : (r.locate report).2 = none := by
        unfold locate
        split <;> simp [unlocated]
      exact ⟨"", by rw [unseen]; rfl⟩
  obtain ⟨lines, shown⟩ := shown
  simp only [errorText, outward, withDiagnosis, shown, Bool.false_eq_true, if_false]

theorem throw_whole {report : Report} (r : Reporter) (whole : report.Whole) :
    r.throw report = ((r.errorText report).1,
      if r.fatal then (r, some (.leave 1)) else ({ r with registry := .empty }, none)) := by
  have faultless := r.errorText_whole whole
  rcases written : r.errorText report with ⟨text, fault⟩
  rw [written] at faultless
  obtain rfl : fault = none := faultless
  rw [throw, written]
  cases r.fatal <;> rfl

/-- Ordinary trouble is written as a report. -/
theorem close_whole {r : Reporter} {trouble : Trouble} (ordinary : trouble.Ordinary) :
    ∃ report, report.Whole ∧ r.close (some trouble) = r.throw report := by
  cases trouble with
  | reported report => exact ⟨report, ordinary, rfl⟩
  | tooDeep =>
    have closed : r.close (some .tooDeep) = r.throwNotice tooDeepNotice := rfl
    rw [closed, throwNotice, report_tooDeepNotice]
    exact ⟨_, ⟨rfl, rfl, rfl⟩, rfl⟩
  | _ => contradiction

/-- A reporter that is not fatal writes ordinary trouble, forgets what was registered and
lets nothing through. -/
theorem close_ordinary {r : Reporter} {trouble : Trouble} (lenient : r.fatal = false)
    (ordinary : trouble.Ordinary) :
    ∃ text, r.close (some trouble) = (text, { r with registry := .empty }, none) := by
  obtain ⟨report, whole, closed⟩ := r.close_whole ordinary
  refine ⟨(r.errorText report).1, ?_⟩
  rw [closed, r.throw_whole whole, lenient]
  rfl

/-- A fatal reporter writes ordinary trouble and asks to leave. -/
theorem close_fatal {r : Reporter} {trouble : Trouble} (fatal : r.fatal = true)
    (ordinary : trouble.Ordinary) :
    r.close (some trouble) = ((r.close (some trouble)).1, r, some (.leave 1)) := by
  obtain ⟨report, whole, closed⟩ := r.close_whole ordinary
  rw [closed, r.throw_whole whole, fatal]
  rfl

end Reporter
end IntScript

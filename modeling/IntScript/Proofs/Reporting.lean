import IntScript.Proofs.Filling
import IntScript.Session

/-! Notices and the reports they make. What is said of a source has a wording with one
field for the offending text, so its notice makes a report whatever that text is, and
a warning about a source is always written. -/
namespace IntScript
open Text (Host isPlain)

/-- The wording has one field, between plain texts, for the only value. -/
structure Notice.OneField (notice : Notice) (before subject after : String) : Prop where
  template : notice.template = before ++ "\x7b\x7d" ++ after
  values : notice.values = [subject]
  plainBefore : isPlain before.toList
  plainAfter : isPlain after.toList

namespace Notice.OneField
variable {notice : Notice} {before subject after : String}

theorem report (one : notice.OneField before subject after) (host : Host) :
    notice.report host = .ok {
      category := notice.category
      message := before ++ host.bold subject ++ after
      subject
      place := notice.place
      start := notice.start
      stop := if notice.stop = -1 then subject.length else notice.stop
      diagnosis := notice.diagnosis
      internal := notice.internal } := by
  have filled := Text.fill_field host.attributes (host.bold subject) one.plainBefore one.plainAfter
    one.template
  simp only [Notice.report, one.values, List.map_cons, List.map_nil, filled]

theorem trouble (one : notice.OneField before subject after) (host : Host) :
    ∃ report, Trouble.ofNotice notice host = .reported report ∧
      report.category = notice.category ∧ report.place = notice.place ∧
      report.message = before ++ host.bold subject ++ after := by
  simp only [Trouble.ofNotice, one.report host]
  exact ⟨_, rfl, rfl, rfl, rfl⟩

end Notice.OneField

theorem TokenKind.plain_name (kind : TokenKind) : isPlain kind.name.toList := by
  cases kind <;> decide

theorem plain_append {first second : String} (plain : isPlain first.toList)
    (plain' : isPlain second.toList) : isPlain (first ++ second).toList := by
  simp only [isPlain, String.toList_append, List.all_append, Bool.and_eq_true] at plain plain' ⊢
  exact ⟨plain, plain'⟩

theorem append_field (front before after : String) :
    front ++ (before ++ "\x7b\x7d" ++ after) = front ++ before ++ "\x7b\x7d" ++ after := by
  rw [← String.append_assoc, ← String.append_assoc]

theorem SyntaxError.oneField (e : SyntaxError) :
    ∃ before after, e.notice.OneField before e.found.shown after := by
  have unexpected (found : Token) : isPlain ("unexpected " ++ found.kind.name ++ " '").toList :=
    plain_append (plain_append (by decide) found.kind.plain_name) (by decide)
  cases e with
  | expected wanted found =>
    have named : isPlain ("expected " ++ wanted.name ++ ", got ").toList :=
      plain_append (plain_append (by decide) wanted.plain_name) (by decide)
    have quote : isPlain " ('".toList := by decide
    have plain := plain_append (plain_append named found.kind.plain_name) quote
    exact ⟨_, "')", append_field _ " ('" "')", rfl, plain, by decide⟩
  | noStatement found =>
    have field := append_field ("unexpected " ++ found.kind.name) " '" "' at start of statement"
    exact ⟨_, _, field, rfl, unexpected found, by decide⟩
  | noOperand found =>
    have field := append_field ("unexpected " ++ found.kind.name) " '" "' in expression"
    exact ⟨_, _, field, rfl, unexpected found, by decide⟩

theorem UnknownCharacter.oneField (u : UnknownCharacter) :
    u.notice.OneField "unknown character '" (String.singleton u.char) "', skipping" :=
  ⟨rfl, rfl, by decide, by decide⟩

theorem EvalError.oneField_string (text : String) (place : Place) :
    ∃ notice, (EvalError.stringOperand text place).notice? = some notice ∧
      notice.category = .typeError ∧ notice.place = place ∧
      notice.OneField "string " ("\"" ++ text ++ "\"")
        " cannot be evaluated as an integer expression" :=
  ⟨_, rfl, rfl, rfl, rfl, rfl, by decide, by decide⟩

theorem EvalError.oneField_unbound (name : String) (place : Place) :
    ∃ notice, (EvalError.unbound name place).notice? = some notice ∧
      notice.category = .nameError ∧ notice.place = place ∧
      notice.OneField "variable '" name "' is not defined" :=
  ⟨_, rfl, rfl, rfl, rfl, rfl, by decide, by decide⟩

theorem EvalError.oneField_division (expr : String) (place : Place) :
    ∃ notice, (EvalError.zeroDivision expr place).notice? = some notice ∧
      notice.category = .arithmeticError ∧ notice.place = place ∧
      notice.OneField "division by zero in '" expr "'" :=
  ⟨_, rfl, rfl, rfl, rfl, rfl, by decide, by decide⟩

/-- Rejected tokens make a report, at the token that was found. -/
theorem Trouble.ofRead_rejected (host : Host) (e : SyntaxError) :
    ∃ report, ofRead host (.rejected e) = .reported report ∧ report.category = .syntaxError ∧
      report.place = .ofPosition e.found.position := by
  obtain ⟨before, after, one⟩ := e.oneField
  obtain ⟨report, made, category, place, -⟩ := one.trouble host
  exact ⟨report, made, category, place⟩

/-- An underline of the whole subject can be written, because the subject itself was. -/
theorem Report.checkUnderline_whole {report : Report} (named : report.subject ≠ "")
    (start : report.start = 0) (stop : report.stop = report.subject.length) :
    report.checkUnderline = .ok () := by
  have size : 0 < report.subject.length := by
    rw [Nat.pos_iff_ne_zero]
    intro empty
    exact named (String.length_eq_zero_iff.mp empty)
  apply if_pos
  simp only [width, start, stop]
  omega

/-- A report that underlines its whole subject can be shown in any line. -/
theorem Reporter.diagnosisLines_whole {report : Report} (r : Reporter) (line : Option String)
    (warning : Bool) (col : report.place.col.isSome) (start : report.start = 0)
    (stop : report.stop = report.subject.length) :
    ∃ lines, r.diagnosisLines report line warning = .ok lines := by
  unfold diagnosisLines
  split
  · split
    · next shown =>
      obtain ⟨column, found⟩ := Option.isSome_iff_exists.mp col
      have fits := Report.checkUnderline_whole shown.1 start stop
      simp [Report.diagnose, found, fits, Except.map]
    · exact ⟨_, rfl⟩
  · exact ⟨_, rfl⟩

namespace Reporter

theorem warningText_whole {report : Report} (r : Reporter) (col : report.place.col.isSome)
    (start : report.start = 0) (stop : report.stop = report.subject.length) :
    (r.warningText report).2 = none := by
  obtain ⟨lines, shown⟩ :=
    r.diagnosisLines_whole (r.locate report).2 true col start stop
  simp only [warningText, withDiagnosis, shown]

theorem warn_unknown (r : Reporter) (u : UnknownCharacter) : (r.warn u.notice).2 = none := by
  rw [warn, u.oneField.report r.host]
  exact r.warningText_whole rfl rfl rfl

theorem warnings_eq (r : Reporter) (unknown : List UnknownCharacter) :
    r.warnings unknown = (unknown.map fun u => (r.warn u.notice).1, none) := by
  induction unknown with
  | nil => rfl
  | cons u rest ih =>
    have first := r.warn_unknown u
    rcases warned : r.warn u.notice with ⟨text, fault⟩
    rw [warned] at first
    obtain rfl : fault = none := first
    simp only [warnings, warned, ih, List.map_cons]

/-- Unknown characters are warned about one after the other, and never stumbled over. -/
theorem warnAll_eq (r : Reporter) (unknown : List UnknownCharacter) :
    r.warnAll unknown = (String.join (unknown.map fun u => (r.warn u.notice).1), none) := by
  simp only [warnAll, warnings_eq]

theorem warnAll_faultless (r : Reporter) (unknown : List UnknownCharacter) :
    (r.warnAll unknown).2 = none := by
  rw [warnAll_eq]

end Reporter
end IntScript

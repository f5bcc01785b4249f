import IntScript.Proofs.Marking
import IntScript.Proofs.Reporting
import IntScript.Proofs.Thinning

/-! How a fault of the program itself ends under a reporter's care. Its words are read as a
template. Without braces they are reported as they stand; then a fatal reporter asks to
leave, and any other forgets its sources and lets the fault pass. With braces either the filled
template is reported in their place, or nothing is written and the fault that the template makes
passes instead. Unless a field shows something of the host, the filled template never has the
words as they stand. -/
namespace IntScript
open Text (fill isPlain)

/-- What is to be said of a fault. -/
def InternalFault.words (fault : InternalFault) : String :=
  "unknown error: '" ++ fault.name ++ ": " ++ fault.text ++ "'"

def InternalFault.notice (fault : InternalFault) : Notice where
  category := .general
  template := fault.words
  internal := true

namespace Reporter

/-- An error of the program itself as it is written, behind the path of the last registered
source. -/
def internalText (r : Reporter) (message : String) : String :=
  r.registry.last?.elim "" (fun entry => r.host.bold (entry.1 ++ ": ")) ++
    r.host.emphasise "[internal] " (some .red) ++ r.host.emphasise "error: " (some .red) ++
    message ++ "\n"

/-- What becomes of the reporter and of a fault that was reported. -/
def afterFault (r : Reporter) (fault : InternalFault) : Reporter × Option Trouble :=
  if r.fatal then (r, some (.leave 1)) else ({ r with registry := .empty }, some (.fault fault))

theorem errorText_internal {report : Report} (r : Reporter) (internal : report.internal = true)
    (general : report.category = .general) (nowhere : report.place = .unknown) :
    r.errorText report = (r.internalText report.message, none) := by
  have path : r.header report (r.locate report).1 =
      r.registry.last?.elim "" fun entry => r.host.bold (entry.1 ++ ": ") := by
    rcases last : r.registry.last? with _ | ⟨path, source⟩
    · simp only [locate, header, last, nowhere]
      rfl
    · have named : (r.locate report).1 = some path := by
        cases source with
        | none => simp only [locate, last]
        | some text =>
          simp only [locate, last, nowhere]
          rfl
      rw [named, header, nowhere]
      simp [Place.unknown, String.append_assoc]
  simp only [errorText, internal, if_true, path, general]
  rfl

theorem close_of_fault (r : Reporter) (fault : InternalFault) :
    r.close (some (.fault fault)) =
      ((r.throwNotice fault.notice).1, (r.throwNotice fault.notice).2.1,
        some ((r.throwNotice fault.notice).2.2.getD (.fault fault))) :=
  rfl

/-- The words of a fault that can be filled are reported in the filled form. -/
theorem close_filled {r : Reporter} {fault : InternalFault} {message : String}
    (filled : fill r.host.attributes fault.words [r.host.bold ""] = .ok message) :
    r.close (some (.fault fault)) = (r.internalText message, r.afterFault fault) := by
  obtain ⟨report, made, internal, general, nowhere, rfl⟩ : ∃ report,
      fault.notice.report r.host = .ok report ∧ report.internal = true ∧
        report.category = .general ∧ report.place = .unknown ∧ report.message = message := by
    simp only [Notice.report, InternalFault.notice, List.map_cons, List.map_nil, filled]
    exact ⟨_, rfl, rfl, rfl, rfl, rfl⟩
  have text := r.errorText_internal internal general nowhere
  rw [close_of_fault, throwNotice, made]
  cases fatal : r.fatal <;> simp [throw, text, fatal, afterFault]

theorem close_unfilled {r : Reporter} {fault : InternalFault} {e : Text.TemplateError}
    (failed : fill r.host.attributes fault.words [r.host.bold ""] = .error e) :
    r.close (some (.fault fault)) = ("", r, some (.fault (templateFault e))) := by
  have refused : fault.notice.report r.host = .error (.template e) := by
    simp only [Notice.report, InternalFault.notice, List.map_cons, List.map_nil, failed]
  rw [close_of_fault, throwNotice, refused]
  rfl

/-- Words without braces are written as they are. Words with braces are altered or make way
for another fault, which leaves the registered sources and passes a fatal reporter too. What
they are altered to never has the words as they were, as long as it does not hang on the
attributes that texts have. -/
theorem close_fault (r : Reporter) (fault : InternalFault) :
    (isPlain fault.words.toList = true →
      r.close (some (.fault fault)) = (r.internalText fault.words, r.afterFault fault)) ∧
    (isPlain fault.words.toList = false →
      (∃ message, fill r.host.attributes fault.words [r.host.bold ""] = .ok message ∧
        r.close (some (.fault fault)) = (r.internalText message, r.afterFault fault)) ∨
      ∃ e, fill r.host.attributes fault.words [r.host.bold ""] = .error e ∧
        r.close (some (.fault fault)) = ("", r, some (.fault (templateFault e)))) ∧
    (isPlain fault.words.toList = false → r.host.Marks →
      (∀ attributes, fill attributes fault.words [r.host.bold ""] =
        fill r.host.attributes fault.words [r.host.bold ""]) →
      ∀ message, fill r.host.attributes fault.words [r.host.bold ""] = .ok message →
        ¬ fault.words.toList <:+: message.toList) := by
  refine ⟨?_, ?_, ?_⟩
  · intro plain
    exact close_filled (Text.fill_plain _ _ plain)
  · intro _
    cases filled : fill r.host.attributes fault.words [r.host.bold ""] with
    | ok message => exact .inl ⟨message, rfl, close_filled filled⟩
    | error e => exact .inr ⟨e, rfl, close_unfilled filled⟩
  · intro braced marks independent message filled
    have valuePlain : ∀ value ∈ [r.host.bold ""], isPlain value.toList = true := by
      intro value member
      rw [List.mem_singleton.mp member]
      exact marks.isPlain_bold rfl
    rw [← independent Text.noAttributes] at filled
    exact Text.fill_braced valuePlain filled (by simp [braced])

/-- Doubled braces are reported as single ones. A field that shows an attribute is filled. -/
theorem close_fault_lenient :
    let lenient : Reporter :=
      { host := .plain, fatal := false, registry := ⟨[("a.pan", some "x = 1")]⟩ }
    let plain : InternalFault := ⟨"ZeroDivisionError", "internal"⟩
    let braced : InternalFault := ⟨"KeyError", "\x7b\x7bx\x7d\x7d"⟩
    let shown : InternalFault := ⟨"KeyError", "\x7b.__class__\x7d"⟩
    lenient.close (some (.fault plain)) =
        ("a.pan: [internal] error: unknown error: 'ZeroDivisionError: internal'\n",
          { lenient with registry := .empty }, some (.fault plain)) ∧
      lenient.close (some (.fault braced)) =
        ("a.pan: [internal] error: unknown error: 'KeyError: \x7bx\x7d'\n",
          { lenient with registry := .empty }, some (.fault braced)) ∧
      ¬ braced.words.toList <:+: "unknown error: 'KeyError: \x7bx\x7d'".toList ∧
      lenient.close (some (.fault shown)) =
        ("a.pan: [internal] error: unknown error: 'KeyError: <class 'str'>'\n",
          { lenient with registry := .empty }, some (.fault shown)) := by
  intro lenient plain braced shown
  have bracedWords : braced.words = "unknown error: 'KeyError: \x7b\x7bx\x7d\x7d'" := by decide
  have doubled (attributes : Text.Attributes) : fill attributes braced.words [""] =
      .ok "unknown error: 'KeyError: \x7bx\x7d'" := by
    rw [bracedWords]
    cbv
  have filledClass : fill Text.Host.plain.attributes shown.words [""] =
      .ok "unknown error: 'KeyError: <class 'str'>'" := by
    decide +kernel
  refine ⟨(close_fault lenient plain).1 (by decide), ?_, ?_, ?_⟩
  · obtain ⟨message, filled, closed⟩ | ⟨e, failed, -⟩ :=
      (close_fault lenient braced).2.1 (by decide)
    · cases (doubled lenient.host.attributes).symm.trans filled
      exact closed
    · cases (doubled lenient.host.attributes).symm.trans failed
  · exact (close_fault lenient braced).2.2 (by decide) Text.Host.colourless_plain.marks
      (fun attributes => (doubled attributes).trans (doubled _).symm) _ (doubled _)
  · obtain ⟨message, filled, closed⟩ | ⟨e, failed, -⟩ := (close_fault lenient shown).2.1 (by decide)
    · cases filledClass.symm.trans filled
      exact closed
    · cases filledClass.symm.trans failed

/-- A fault whose text names an unknown field is lost, and no report is written. -/
theorem fault_lost_in_template :
    let fatal : Reporter := { host := .plain }
    fatal.close (some (.fault ⟨"ValueError", "\x7bx\x7d"⟩)) =
      ("", fatal, some (.fault ⟨"KeyError", "'x'"⟩)) := by
  intro fatal
  let values := [fatal.host.bold ""]
  let attributes := fatal.host.attributes
  have behind (rest : List Char) :
      Text.fillChars attributes (Text.fillNested attributes values 1) values .undecided
        ('\x7b' :: 'x' :: '\x7d' :: rest) = .error (.unknownName "x") := by
    rw [Text.fillChars]
    · split
      · next e failed => cases failed
      · next field after found =>
        cases found
        rfl
    all_goals simp
  have front : isPlain "unknown error: 'ValueError: ".toList = true := by decide
  have whole := Text.fillChars_plain_fails values front (behind "'".toList)
  have failed : fill attributes (InternalFault.words ⟨"ValueError", "\x7bx\x7d"⟩) values =
      .error (.unknownName "x") := by
    have chars : (InternalFault.words ⟨"ValueError", "\x7bx\x7d"⟩).toList =
        "unknown error: 'ValueError: ".toList ++ '\x7b' :: 'x' :: '\x7d' :: "'".toList := by
      decide
    rw [fill, Text.fillNested, chars, whole]
    rfl
  have lost : templateFault (.unknownName "x") = ⟨"KeyError", "'x'"⟩ := by decide
  rw [close_unfilled failed, lost]

end Reporter
end IntScript

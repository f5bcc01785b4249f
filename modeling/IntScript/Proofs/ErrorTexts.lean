import IntScript.Proofs.Underlining

/-! The texts of warnings and errors. Each is one message, with a path and a position in front of
it, and the line of the position below it, if that is to be shown. Nesting beyond a limit has no
position, and so no line. -/
namespace IntScript
open Text (Host)

/-- What is written about the notice: its message at a spot of the source and, if the notice is
to be shown, the line of the spot with as much underlined as the subject is long. -/
def Notice.Told (source : String) (host : Host) (path : String) (warning : Bool)
    (notice : Notice) (written : String) : Prop :=
  ∃ (spot : Spot source) (before subject after : String), notice.OneField before subject after ∧
    notice.place = .ofPosition spot.position ∧
    (notice.diagnosis = true → spot.text <+: subject.toList) ∧
    written =
      spot.remark host path warning notice.category (before ++ host.bold subject ++ after) ++
        if notice.diagnosis then spot.underlined host warning subject.length ++ "\n" else ""

/-- What is written about nesting beyond a limit. -/
def tooDeepText (host : Host) (path : String) : String :=
  host.bold (path ++ ": ") ++ host.emphasise "error: " (some .red) ++
    "expression nesting too deep, maximum recursion depth exceeded\n"

/-- What is said when a source is no program, unless it is nested too deep. -/
def ReadFailure.notice? : ReadFailure → Option Notice
  | .rejected e => some e.notice
  | .tooDeep => none

/-- What is written about an error in a source, with a notice or without. -/
def ErrorTold (source : String) (host : Host) (path written : String) : Option Notice → Prop
  | some notice => notice.Told source host path false written
  | none => written = tooDeepText host path

namespace Notice.OneField
variable {notice : Notice} {before subject after source path : String}

theorem told_of_underlines {host : Host} {warning : Bool} {written : String}
    (one : notice.OneField before subject after) (shown : notice.diagnosis = true)
    (underlines : notice.Underlines source host path warning written) :
    notice.Told source host path warning written := by
  obtain ⟨spot, subject', values, place, front, ⟨message, filled, text⟩, -⟩ := underlines
  cases one.values.symm.trans values
  cases (one.filled host).symm.trans filled
  refine ⟨spot, before, subject, after, one, place, fun _ => front, ?_⟩
  rw [text, shown, if_pos rfl]

/-- An error whose line is not shown is told at any spot with its position. -/
theorem told_unshown {r : Reporter} {spot : Spot source}
    (one : notice.OneField before subject after) (range : notice.start = 0 ∧ notice.stop = -1)
    (outward : notice.internal = false) (unshown : notice.diagnosis = false)
    (located : r.registry.last? = some (path, some source))
    (place : notice.place = .ofPosition spot.position) :
    notice.Told source r.host path false (r.close (some (.ofNotice notice r.host))).1 := by
  obtain ⟨start, stop⟩ := range
  refine ⟨spot, before, subject, after, one, place, by simp [unshown], ?_⟩
  rw [Trouble.ofNotice, one.report r.host, r.close_reported ⟨start, if_pos stop, outward⟩,
    r.errorText_unshown located place outward unshown, unshown]
  simp

end Notice.OneField

/-- The token that a syntax error found begins at a spot of the source, be it the end. -/
theorem Spot.of_found {source : String} {t : Token}
    (found : t ∈ (Scanner.start source).upcoming ∨
      t = .final (Position.start.after source.toList)) :
    ∃ spot : Spot source, spot.position = t.position := by
  rcases found with member | rfl
  · exact of_upcoming member
  · have whole : source.toList = source.toList ++ ([] ++ []) := (List.append_nil _).symm
    obtain ⟨spot, -, -, -, position⟩ := exists_spot whole List.not_mem_nil
    exact ⟨spot, position⟩

theorem UnknownCharacter.told {source path : String} {u : UnknownCharacter} {r : Reporter}
    (member : u ∈ (Scanner.start source).pending)
    (located : r.registry.last? = some (path, some source)) :
    u.notice.Told source r.host path true (r.warn u.notice).1 :=
  u.oneField.told_of_underlines rfl (UnknownCharacter.underlines member located).1

theorem SyntaxError.told {limit : Nat} {source path : String} {e : SyntaxError} {r : Reporter}
    (rejected : (parse limit source).program = .error (.rejected e))
    (located : r.registry.last? = some (path, some source)) :
    e.notice.Told source r.host path false (r.close (some (.ofRead r.host (.rejected e)))).1 := by
  obtain ⟨before, after, one⟩ := e.oneField
  cases shown : e.notice.diagnosis with
  | true => exact one.told_of_underlines shown (SyntaxError.underlines rejected shown located)
  | false =>
    obtain ⟨spot, position⟩ := Spot.of_found (found_of_parse rejected)
    exact one.told_unshown ⟨rfl, rfl⟩ rfl shown located (by rw [position]; rfl)

theorem EvalError.Blames.told {limit : Nat} {source path : String} {nodes : List Node}
    {statement : Node} {env : Bindings} {e : EvalError} {r : Reporter}
    (blames : e.Blames env statement) (read : (parse limit source).program = .ok nodes)
    (member : statement ∈ nodes) (located : r.registry.last? = some (path, some source)) :
    ErrorTold source r.host path (r.close (some (.ofEval r.host e))).1 e.notice? := by
  cases e with
  | unbound name place =>
    obtain ⟨notice, noticed, -, -, one⟩ := EvalError.oneField_unbound name place
    cases noticed
    exact one.told_of_underlines rfl (blames.underlines read member located rfl rfl)
  | stringOperand text place =>
    obtain ⟨notice, noticed, -, -, one⟩ := EvalError.oneField_string text place
    cases noticed
    exact one.told_of_underlines rfl (blames.underlines read member located rfl rfl)
  | zeroDivision expr place =>
    obtain ⟨notice, noticed, -, -, one⟩ := EvalError.oneField_division expr place
    cases noticed
    obtain ⟨-, -, spot, -, -, -, position, -⟩ := blames.points read member located
    exact one.told_unshown ⟨rfl, rfl⟩ rfl rfl located position
  | _ => contradiction

/-- Nesting beyond a limit is told of the path alone. -/
theorem Reporter.close_tooDeep {source path : String} {r : Reporter}
    (located : r.registry.last? = some (path, some source)) :
    (r.close (some .tooDeep)).1 = tooDeepText r.host path := by
  have closed : r.close (some .tooDeep) = r.throwNotice tooDeepNotice := rfl
  have message : "expression nesting too deep, maximum recursion depth exceeded" ++ "\n" =
      "expression nesting too deep, maximum recursion depth exceeded\n" := by decide
  have ends : path ++ ": " = path ++ ":" ++ " " := by
    rw [String.append_assoc]
    rfl
  have more : path ++ ":" ≠ "" := by simp [String.append_eq_empty_iff]
  have label : Category.general.label ++ ": " = "error: " := by decide
  simp only [closed, throwNotice, report_tooDeepNotice]
  rw [r.throw_whole ⟨rfl, rfl, rfl⟩, tooDeepText, ends, ← message, ← label]
  simp [errorText, locate, located, header, more, Place.unknown, Place.isLocated, withDiagnosis,
    diagnosisLines, String.append_assoc]

theorem ReadFailure.told {limit : Nat} {source path : String} {failure : ReadFailure}
    {r : Reporter} (failed : (parse limit source).program = .error failure)
    (located : r.registry.last? = some (path, some source)) :
    ErrorTold source r.host path (r.close (some (.ofRead r.host failure))).1 failure.notice? := by
  cases failure with
  | rejected e => exact SyntaxError.told failed located
  | tooDeep => exact Reporter.close_tooDeep located

theorem EvalError.told {limit depth k : Nat} {source path : String} {program : List Node}
    {m before after : Machine} {e : EvalError} {r : Reporter}
    (read : (parse limit source).program = .ok program)
    (stops : Machine.StopsAt depth program m k before e after)
    (located : r.registry.last? = some (path, some source)) :
    ErrorTold source r.host path (r.close (some (.ofEval r.host e))).1 e.notice? := by
  obtain ⟨statement, found, fails⟩ := stops.fails
  have member := List.mem_of_getElem? found
  rcases Machine.execute_blames (shape_of_parse read statement member) fails with
    blames | ⟨rfl, -⟩
  · exact blames.told read member located
  · exact Reporter.close_tooDeep located

end IntScript

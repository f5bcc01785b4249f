import IntScript.Proofs.Halting
import IntScript.Proofs.LineSteps
import IntScript.Proofs.Spots

/-! What is written about a source points at the text that is meant. The scanner counts
positions, tokens and trees carry them into errors, and the reporter finds a line and a
stretch of it by them: both ends agree on the spot. -/
namespace IntScript
open Text (Host fill)

namespace Spot
variable {source : String}

/-- A message about a spot, with the path, the line and the column in front of it. -/
def remark (spot : Spot source) (host : Host) (path : String) (warning : Bool)
    (category : Category) (message : String) : String :=
  host.bold (path ++ ":" ++ toString spot.position.line ++ ":" ++ toString spot.position.col ++
      ": ") ++
    host.emphasise (category.label ++ ": ") (some (if warning then .magenta else .red)) ++
    message ++ "\n"

/-- A message about a spot with the line of the spot below it. -/
def complaint (spot : Spot source) (host : Host) (path : String) (warning : Bool)
    (category : Category) (message : String) : String :=
  spot.remark host path warning category message ++ (spot.diagnosis host warning ++ "\n")

end Spot

/-- What is written about the notice shows the subject where the source has a piece that is
meant: the line where it stands, with nothing but the subject highlighted and underlined. -/
def Notice.Shows (source : String) (host : Host) (path : String) (warning : Bool)
    (notice : Notice) (subject : List Char) (meant : Piece → Prop) (written : String) : Prop :=
  ∃ (spot : Spot source) (piece : Piece), spot.Holds piece ∧ meant piece ∧ spot.text = subject ∧
    notice.place = .ofPosition spot.position ∧
    ∃ message, fill host.attributes notice.template (notice.values.map host.bold) = .ok message ∧
      written = spot.complaint host path warning notice.category message

theorem Place.ofPosition_inj {p q : Position} (same : ofPosition p = ofPosition q) : p = q := by
  obtain ⟨line, col⟩ := p
  obtain ⟨line', col'⟩ := q
  simp only [ofPosition, Place.mk.injEq, Option.some.injEq] at same
  obtain ⟨sameLine, sameCol⟩ := same
  congr 1 <;> omega

namespace Reporter
variable {source path : String} {r : Reporter} {report : Report}

theorem locate_spot (located : r.registry.last? = some (path, some source)) {spot : Spot source}
    (place : report.place = .ofPosition spot.position) :
    r.locate report = (some path, some spot.line) := by
  have known : (Place.ofPosition spot.position).isLocated = true := rfl
  have line : (Place.ofPosition spot.position).line.bind (lineAt? source) = some spot.line :=
    spot.lineAt?_position
  simp only [locate, located, place, known, line, if_true]

theorem header_spot (r : Reporter) (path : String) {spot : Spot source}
    (place : report.place = .ofPosition spot.position) :
    r.header report (some path) = r.host.bold (path ++ ":" ++ toString spot.position.line ++
      ":" ++ toString spot.position.col ++ ": ") := by
  have number (n : Nat) : toString (n : Int) = toString n := rfl
  have ends : ": " = ":" ++ " " := by decide
  have more : path ++ ":" ++ (toString spot.position.line ++ ":" ++
      toString spot.position.col ++ ":") ≠ "" := by
    intro empty
    simp [String.append_eq_empty_iff] at empty
  simp only [header, place, Place.ofPosition, Option.elim, number]
  rw [if_neg more, ends]
  simp only [String.append_assoc]

/-- A report about a text that begins at a spot underlines as much as the text is long. -/
theorem diagnosisLines_underlined (r : Reporter) {spot : Spot source} (warning : Bool)
    (place : report.place = .ofPosition spot.position) (start : report.start = 0)
    (stop : report.stop = report.subject.length) (named : report.subject ≠ "")
    (front : spot.text.length ≤ report.subject.length)
    (ends : spot.text.length ≠ report.subject.length → spot.behind = [])
    (shown : report.diagnosis = true) :
    r.diagnosisLines report spot.line warning =
      .ok (spot.underlined r.host warning report.subject.length ++ "\n") := by
  have width : report.width = report.subject.length := by
    have : report.subject.length ≠ 0 := mt String.length_eq_zero_iff.mp named
    simp only [Report.width, start, stop]
    omega
  have fits := Report.checkUnderline_whole named start stop
  have column : report.place.col = some (spot.position.col : Int) := by
    rw [place]
    rfl
  have made := spot.diagnoseAt_underlined r.host warning start (width ▸ front) (width ▸ ends)
  rw [width] at made
  simp only [diagnosisLines, named, shown, ne_eq, not_false_eq_true, and_self, if_true,
    Report.diagnose, column, fits, made, Except.map]

theorem diagnosisLines_spot (r : Reporter) {spot : Spot source} (warning : Bool)
    (place : report.place = .ofPosition spot.position) (start : report.start = 0)
    (stop : report.stop = report.subject.length) (subject : report.subject.toList = spot.text)
    (more : spot.text ≠ []) (shown : report.diagnosis = true) :
    r.diagnosisLines report spot.line warning = .ok (spot.diagnosis r.host warning ++ "\n") := by
  have size : report.subject.length = spot.text.length := by rw [← subject, String.length_toList]
  have named : report.subject ≠ "" := by
    intro empty
    rw [← subject, empty] at more
    exact more rfl
  rw [r.diagnosisLines_underlined warning place start stop named (Nat.le_of_eq size.symm)
    (fun other => absurd size.symm other) shown, size]
  rfl

theorem errorText_of_lines (r : Reporter) {lines : String}
    (located : r.registry.last? = some (path, some source)) {spot : Spot source}
    (place : report.place = .ofPosition spot.position) (outward : report.internal = false)
    (made : r.diagnosisLines report spot.line false = .ok lines) :
    (r.errorText report).1 =
      spot.remark r.host path false report.category report.message ++ lines := by
  simp only [errorText, locate_spot located place, outward, withDiagnosis, made,
    r.header_spot path place, Spot.remark, Bool.false_eq_true, if_false,
    String.append_empty]

/-- An error is written as a complaint about the spot that it is about. -/
theorem errorText_spot (r : Reporter) (located : r.registry.last? = some (path, some source))
    {spot : Spot source} (place : report.place = .ofPosition spot.position)
    (whole : report.Whole) (subject : report.subject.toList = spot.text) (more : spot.text ≠ [])
    (shown : report.diagnosis = true) :
    (r.errorText report).1 = spot.complaint r.host path false report.category report.message := by
  obtain ⟨start, stop, outward⟩ := whole
  exact r.errorText_of_lines located place outward
    (r.diagnosisLines_spot false place start stop subject more shown)

theorem errorText_unshown (r : Reporter) (located : r.registry.last? = some (path, some source))
    {spot : Spot source} (place : report.place = .ofPosition spot.position)
    (outward : report.internal = false) (unshown : report.diagnosis = false) :
    (r.errorText report).1 = spot.remark r.host path false report.category report.message := by
  have silent : r.diagnosisLines report spot.line false = .ok "" := by
    simp [diagnosisLines, unshown]
  rw [r.errorText_of_lines located place outward silent, String.append_empty]

theorem warningText_spot (r : Reporter) (located : r.registry.last? = some (path, some source))
    {spot : Spot source} (place : report.place = .ofPosition spot.position)
    (whole : report.Whole) (subject : report.subject.toList = spot.text) (more : spot.text ≠ [])
    (shown : report.diagnosis = true) :
    (r.warningText report).1 = spot.complaint r.host path true report.category report.message := by
  obtain ⟨start, stop, -⟩ := whole
  have lines := r.diagnosisLines_spot true place start stop subject more shown
  simp only [warningText, locate_spot located place, withDiagnosis, lines,
    r.header_spot path place, Spot.complaint, Spot.remark, if_true]

/-- What is written when a report ends an action is its text. -/
theorem close_reported (r : Reporter) (whole : report.Whole) :
    (r.close (some (.reported report))).1 = (r.errorText report).1 := by
  rw [close, r.throw_whole whole]

end Reporter

namespace Notice.OneField
variable {notice : Notice} {before subject after : String}

theorem filled (one : notice.OneField before subject after) (host : Host) :
    fill host.attributes notice.template (notice.values.map host.bold) =
      .ok (before ++ host.bold subject ++ after) := by
  rw [one.values]
  exact Text.fill_field _ _ one.plainBefore one.plainAfter one.template

/-- An error whose subject stands at a spot is shown there. -/
theorem shows {source path : String} {r : Reporter} {spot : Spot source} {piece : Piece}
    {meant : Piece → Prop} (one : notice.OneField before subject after)
    (range : notice.start = 0 ∧ notice.stop = -1) (outward : notice.internal = false)
    (shown : notice.diagnosis = true) (located : r.registry.last? = some (path, some source))
    (holds : spot.Holds piece) (means : meant piece) (text : spot.text = subject.toList)
    (more : spot.text ≠ []) (place : notice.place = .ofPosition spot.position) :
    notice.Shows source r.host path false subject.toList meant
      (r.close (some (.ofNotice notice r.host))).1 := by
  obtain ⟨start, stop⟩ := range
  refine ⟨spot, piece, holds, means, text, place, _, one.filled r.host, ?_⟩
  rw [Trouble.ofNotice, one.report r.host, r.close_reported ⟨start, if_pos stop, outward⟩,
    r.errorText_spot located place ⟨start, if_pos stop, outward⟩ text.symm more shown]

end Notice.OneField

namespace Token.Spelled

theorem slash {t : Token} (spelled : t.Spelled) (kind : t.kind = .divide) :
    t.lexeme.toList = ['/'] := by
  have lexeme := spelled.spells
  rw [kind] at lexeme
  exact lexeme

theorem newline {t : Token} (spelled : t.Spelled) (kind : t.kind = .newline) :
    '\n' ∈ t.lexeme.toList := by
  have lexeme := spelled.spells
  rw [kind] at lexeme
  exact lexeme ▸ List.mem_cons_self

end Token.Spelled

theorem isName_line {name : String} (named : isName name) :
    name.toList ≠ [] ∧ '\n' ∉ name.toList := by
  simp only [isName, Bool.and_eq_true, Option.any_eq_true, List.all_eq_true] at named
  obtain ⟨⟨⟨c, head, -⟩, inside⟩, -⟩ := named
  constructor
  · intro empty
    rw [empty] at head
    contradiction
  · intro feed
    exact absurd (inside _ feed) (by decide)

/-- What is written about an error points at the token of the part that is to be blamed. -/
def EvalError.Points (source : String) (host : Host) (path written : String) : EvalError → Prop
  | .unbound name place => ∃ notice, (unbound name place).notice? = some notice ∧
      notice.Shows source host path false name.toList
        (·.Reads .identifier name.toList) written
  | .stringOperand text place => '\n' ∉ text.toList → ¬ OpenQuote source place →
      ∃ notice, (stringOperand text place).notice? = some notice ∧
        let quoted := ("\"" ++ text ++ "\"").toList
        notice.Shows source host path false quoted (·.Reads .string quoted) written
  | .zeroDivision expr place => ∃ notice, (zeroDivision expr place).notice? = some notice ∧
      ∃ (spot : Spot source) (piece : Piece), spot.Holds piece ∧
        piece.Reads .divide ['/'] ∧ place = .ofPosition spot.position ∧
        ∃ message,
          fill host.attributes notice.template (notice.values.map host.bold) = .ok message ∧
          written = spot.remark host path false notice.category message
  | .notStatement .. | .notExpression .. | .operandStatement _ | .tooDeep => False

theorem Level.Joins.kind_divide {level : Level} {kind : TokenKind} (joins : level.Joins kind .div) :
    kind = .divide := by
  cases joins
  rfl

/-- The error of a statement that was read from the source points into the source. -/
theorem EvalError.Blames.points {limit : Nat} {source path : String} {nodes : List Node}
    {statement : Node} {env : Bindings} {e : EvalError} {r : Reporter}
    (blames : e.Blames env statement) (read : (parse limit source).program = .ok nodes)
    (member : statement ∈ nodes) (located : r.registry.last? = some (path, some source)) :
    e.Points source r.host path (r.close (some (.ofEval r.host e))).1 := by
  cases e with
  | unbound name place =>
    obtain ⟨t, found, kind, rfl, rfl⟩ := part_made_of_parse read member blames.1
    obtain ⟨more, inside⟩ := isName_line ((Scanner.spelled_of_upcoming found).isName kind)
    obtain ⟨spot, piece, holds, token, text, position⟩ :=
      Spot.of_token found inside (by simp [kind])
    rw [kind] at token
    obtain ⟨notice, some, -, placed, one⟩ :=
      EvalError.oneField_unbound t.lexeme (.ofPosition t.position)
    refine ⟨notice, some, ?_⟩
    simp only [Trouble.ofEval, some]
    cases some
    exact one.shows ⟨rfl, rfl⟩ rfl rfl located holds token text (text ▸ more)
      (by rw [placed, position])
  | stringOperand text place =>
    intro inside closed
    obtain ⟨t, found, kind, rfl, rfl⟩ := part_made_of_parse read member blames
    obtain ⟨body, -, lexeme⟩ := (Scanner.spelled_of_upcoming found).string_body kind
    have unquoted : (t.lexeme.toList.drop 1).dropLast = body := by simp [lexeme]
    rw [unquoted] at inside ⊢
    rw [String.toList_ofList] at inside
    have quoted : ("\"" ++ String.ofList body ++ "\"").toList = t.lexeme.toList := by simp [lexeme]
    have oneLine : '\n' ∉ t.lexeme.toList := by simp [lexeme, inside]
    obtain ⟨spot, piece, holds, token, text, position⟩ :=
      Spot.of_token found oneLine fun _ => closed
    rw [kind, ← quoted] at token
    obtain ⟨notice, some, -, placed, one⟩ :=
      EvalError.oneField_string (String.ofList body) (.ofPosition t.position)
    refine ⟨notice, some, ?_⟩
    simp only [Trouble.ofEval, some]
    cases some
    exact one.shows ⟨rfl, rfl⟩ rfl rfl located holds token (text.trans quoted.symm)
      (by simp [text, lexeme]) (by rw [placed, position])
  | zeroDivision expr place =>
    obtain ⟨left, right, part, -⟩ := blames
    obtain ⟨t, found, ⟨level, joins⟩, rfl⟩ := part_made_of_parse read member part
    have kind := joins.kind_divide
    have lexeme := (Scanner.spelled_of_upcoming found).slash kind
    obtain ⟨spot, piece, holds, token, -, position⟩ :=
      Spot.of_token found (by simp [lexeme]) (by simp [kind])
    rw [kind, lexeme] at token
    obtain ⟨notice, some, -, placed, one⟩ :=
      EvalError.oneField_division expr (.ofPosition t.position)
    refine ⟨notice, some, spot, piece, holds, token, by rw [position], _, one.filled r.host, ?_⟩
    simp only [Trouble.ofEval, some]
    cases some
    rw [Trouble.ofNotice, one.report r.host, r.close_reported ⟨rfl, rfl, rfl⟩]
    exact r.errorText_unshown located (by rw [position]) rfl rfl
  | _ => contradiction

/-- A warning shows its unknown character. -/
theorem UnknownCharacter.shows {source path : String} {u : UnknownCharacter} {r : Reporter}
    (member : u ∈ (Scanner.start source).pending)
    (located : r.registry.last? = some (path, some source)) :
    u.notice.Shows source r.host path true [u.char] (· = .unknown u.char)
      (r.warn u.notice).1 := by
  obtain ⟨spot, holds, text, position⟩ := Spot.of_unknown member
  refine ⟨spot, _, holds, rfl, text, by rw [position]; rfl, _, u.oneField.filled r.host, ?_⟩
  rw [Reporter.warn, u.oneField.report r.host]
  exact r.warningText_spot located (by rw [position]; rfl) ⟨rfl, rfl, rfl⟩ (by simp [text])
    (by simp [text]) rfl

/-- A syntax error shows its token, if that is shown at all and lies within a line. -/
theorem SyntaxError.shows {limit : Nat} {source path : String} {e : SyntaxError} {r : Reporter}
    (rejected : (parse limit source).program = .error (.rejected e))
    (shown : e.notice.diagnosis = true) (inside : '\n' ∉ e.found.lexeme.toList)
    (closed : e.found.kind = .string → ¬ OpenQuote source (.ofPosition e.found.position))
    (located : r.registry.last? = some (path, some source)) :
    e.notice.Shows source r.host path false e.found.lexeme.toList
      (·.Reads e.found.kind e.found.lexeme.toList)
      (r.close (some (.ofRead r.host (.rejected e)))).1 := by
  have visible : e.found.lexeme ≠ "" := by
    intro empty
    rw [notice, empty] at shown
    contradiction
  have member : e.found ∈ (Scanner.start source).upcoming := by
    refine (found_of_parse rejected).resolve_right ?_
    intro final
    exact visible (congrArg Token.lexeme final)
  have subject : e.found.shown = e.found.lexeme := by
    refine if_neg ?_
    intro feed
    exact inside ((Scanner.spelled_of_upcoming member).newline feed)
  obtain ⟨spot, piece, holds, token, text, position⟩ := Spot.of_token member inside closed
  obtain ⟨before, after, one⟩ := e.oneField
  rw [subject] at one
  refine one.shows ⟨rfl, rfl⟩ rfl shown located holds token text ?_ (by rw [position]; rfl)
  rw [text]
  exact fun empty => visible (String.toList_eq_nil_iff.mp empty)

namespace Session

theorem registered_last (s : Session) (source : String) {r : Reporter}
    (clean : r.registry = .empty) :
    (s.registered source r).registry.last? = some (s.path, some source) := by
  simp [registered, clean, Registry.empty, Registry.register, Registry.registerEntry,
    Registry.last?]

/-- What a session with nothing registered writes about a source points at the text that is
meant. Each warning shows its unknown character. A syntax error shows the token that was
found, a name error the name and a type error the quoted text, each highlighted and
underlined in the line where it stands, as long as it lies within the line and is no open
string. A division by zero is reported at its sign. -/
theorem runLine_points (source : String) (s : Session) (r : Reporter)
    (clean : r.registry = .empty) :
    let parsed := parse nestingLimit source
    ∃ (warning : UnknownCharacter → String) (reported : String),
      (runLine source s r).err = String.join (parsed.unknown.map warning) ++ reported ∧
      (∀ u ∈ parsed.unknown,
        u.notice.Shows source r.host s.path true [u.char] (· = .unknown u.char) (warning u)) ∧
      (∀ e, parsed.program = .error (.rejected e) → e.notice.diagnosis = true →
        '\n' ∉ e.found.lexeme.toList →
        (e.found.kind = .string → ¬ OpenQuote source (.ofPosition e.found.position)) →
        e.notice.Shows source r.host s.path false e.found.lexeme.toList
          (·.Reads e.found.kind e.found.lexeme.toList) reported) ∧
      ∀ program k before e after, parsed.program = .ok program →
        Machine.StopsAt depthLimit (s.queue ++ program) { bindings := s.startBindings } k before e
          after →
        s.queue.length ≤ k →
        ∃ statement, program[k - s.queue.length]? = some statement ∧
          (e = .tooDeep ∧ depthLimit < statement.levels ∨
            e.Blames before.bindings statement ∧ e.Points source r.host s.path reported) := by
  intro parsed
  have located := s.registered_last source clean
  have warned : ∀ u ∈ parsed.unknown,
      u.notice.Shows source r.host s.path true [u.char] (· = .unknown u.char)
        ((s.registered source r).warn u.notice).1 := by
    intro u member
    have pending := (unknown_of_parse nestingLimit source).subset member
    exact UnknownCharacter.shows pending located
  have warnings : warningsOf source s r =
      String.join (parsed.unknown.map fun u => ((s.registered source r).warn u.notice).1) := by
    rw [warningsOf, Reporter.warnAll_eq]
  refine ⟨fun u => ((s.registered source r).warn u.notice).1, ?_⟩
  rw [← warnings]
  cases read : parsed.program with
  | error failure =>
    refine ⟨_, congrArg Turn.err (runLine_of_failure s r read), warned, ?_, ?_⟩
    · rintro e ⟨⟩ shown inside closed
      exact SyntaxError.shows read shown inside closed located
    · intro program k before e after ok
      cases ok
  | ok program =>
    rcases ran : Machine.run depthLimit (s.queue ++ program) { bindings := s.startBindings }
      with ⟨e | ⟨⟩, m⟩
    · refine ⟨_, congrArg Turn.err (runLine_of_error s r read ran), warned, ?_, ?_⟩
      · intro e rejected
        cases rejected
      · rintro program k before e after ⟨⟩ stops later
        cases ran.symm.trans stops.run_eq
        obtain ⟨statement, found, fails⟩ := stops.fails
        rw [List.getElem?_append_right later] at found
        have member := List.mem_of_getElem? found
        refine ⟨statement, found, ?_⟩
        rcases Machine.execute_blames (shape_of_parse read statement member) fails with
          blames | deep
        · exact .inr ⟨blames, blames.points read member located⟩
        · exact .inl deep
    · refine ⟨"", ?_, warned, ?_, ?_⟩
      · rw [runLine_of_ok s r read ran, String.append_empty]
      · intro e rejected
        cases rejected
      · rintro program k before e after ⟨⟩ stops later
        cases ran.symm.trans stops.run_eq

/-- A text over two lines, a tab and an unknown character in front of a name that is not
bound do not shift what is shown. -/
theorem runLine_points_tabbed :
    let source := "print(\"a\nb\")\n\tx = $ y"
    let s : Session := {
      path := promptPath
      atPrompt := true
      persist := false
      backend := none
      source := "" }
    ∃ character name : Spot source,
      character.text = ['$'] ∧ character.position = ⟨3, 6⟩ ∧
      name.text = ['y'] ∧ name.position = ⟨3, 8⟩ ∧
      (runLine source s { host := .plain }).err =
        character.complaint .plain promptPath true .warning "unknown character '$', skipping" ++
          name.complaint .plain promptPath false .nameError "variable 'y' is not defined" ∧
      (runLine source s { host := .plain }).err =
        "<in>:3:6: warning: unknown character '$', skipping\n  \tx = $ y\n  \t    ^\n" ++
          "<in>:3:8: name error: variable 'y' is not defined\n  \tx = $ y\n  \t      ^\n" := by
  intro source s
  let u : UnknownCharacter := ⟨'$', ⟨3, 6⟩⟩
  let program : List Node := [.print (.string "a\nb" ⟨some 1, some 7⟩) ⟨some 1, some 1⟩,
    .assignment "x" (.reference "y" ⟨some 3, some 8⟩) ⟨some 3, some 2⟩]
  let m : Machine := { output := "a\nb\n" }
  have unknown : (parse nestingLimit source).unknown = [u] := by decide +kernel
  have computed : (parse nestingLimit source).program.toOption = some program := by decide +kernel
  have read : (parse nestingLimit source).program = .ok program := by
    cases outcome : (parse nestingLimit source).program with
    | error failure =>
      rw [outcome] at computed
      contradiction
    | ok nodes =>
      rw [outcome] at computed
      exact congrArg Except.ok (Option.some.inj computed)
  have stops : Machine.StopsAt depthLimit (s.queue ++ program) { bindings := s.startBindings } 1 m
      (.unbound "y" ⟨some 3, some 8⟩) m := ⟨rfl, _, rfl, rfl⟩
  obtain ⟨warning, reported, err, warned, -, failed⟩ :=
    runLine_points source s { host := .plain } rfl
  obtain ⟨character, -, -, -, text, place, message, filled, written⟩ :=
    warned u (by rw [unknown]; exact List.mem_cons_self)
  obtain ⟨statement, -, ⟨deep, -⟩ | ⟨-, notice, noticed, points⟩⟩ :=
    failed program 1 m _ m read stops (Nat.zero_le 1)
  · cases deep
  cases noticed
  obtain ⟨name, -, -, -, text', place', message', filled', written'⟩ := points
  have same : message = "unknown character '$', skipping" :=
    Except.ok.inj (filled.symm.trans (u.oneField.filled .plain))
  have same' : message' = "variable 'y' is not defined" := by
    obtain ⟨notice, noticed, -, -, one⟩ := EvalError.oneField_unbound "y" ⟨some 3, some 8⟩
    cases noticed
    exact Except.ok.inj (filled'.symm.trans (one.filled .plain))
  refine ⟨character, name, text, Place.ofPosition_inj place.symm, text',
    Place.ofPosition_inj place'.symm, ?_, by decide +kernel⟩
  rw [err, unknown, written', List.map_singleton, String.join_cons, String.join_nil,
    String.append_empty, written, same, same']
  rfl

end Session
end IntScript

import IntScript.Proofs.Pointing
import IntScript.Proofs.SourceOrder

/-! How far underlines reach. An underline is as long as the text that a report is about, and
what is highlighted above it is cut from one line. The two are of one length unless the text is
a string that does not end in its line, because of a line feed in it or because nothing closes
it. Then the line ends first, and the underline goes on. -/
namespace IntScript
open Text (Host fill)

namespace Position

theorem Precedes.irrefl (p : Position) : ¬ p.Precedes p := by
  unfold Precedes
  omega

/-- A position belongs to one offset of a text only. -/
theorem after_inj {first second whole : List Char} (p : Position) (front : first <+: whole)
    (front' : second <+: whole) (same : p.after first = p.after second) : first = second := by
  have closer {shorter longer : List Char} (front : shorter <+: longer)
      (same : p.after shorter = p.after longer) : shorter = longer := by
    obtain ⟨more, rfl⟩ := front
    by_cases none : more = []
    · rw [none, List.append_nil]
    · have further := precedes_after none (p.after shorter)
      rw [← after_append, ← same] at further
      exact absurd further (Precedes.irrefl _)
  rcases List.prefix_or_prefix_of_prefix front front' with shorter | shorter
  · exact closer shorter same
  · exact (closer shorter same.symm).symm

end Position

theorem Piece.Fits.eq_string {piece : Piece} {rest lexeme : List Char} (fits : piece.Fits rest)
    (token : piece.token? = some (.string, lexeme)) :
    ∃ body closed, piece = .string body closed ∧ lexeme = '"' :: (body ++ ['"']) := by
  cases piece with
  | string body closed =>
    cases token
    exact ⟨body, closed, rfl, rfl⟩
  | word letters =>
    have kind := (Prod.mk.inj (Option.some.inj token)).1
    unfold wordKind at kind
    split at kind <;> cases kind
  | symbol kind c =>
    cases token
    have found : symbolKind? c = some .string := Piece.fits_symbol.mp fits
    unfold symbolKind? at found
    split at found <;> cases found
  | _ => cases token

/-- Only strings have quotes, and only strings and newlines have line feeds. -/
theorem TokenKind.Spells.plain {kind : TokenKind} {lexeme : List Char} (spells : kind.Spells lexeme)
    (text : kind ≠ .string) (feed : kind ≠ .newline) : '"' ∉ lexeme ∧ '\n' ∉ lexeme := by
  cases kind with
  | string | newline | eof => contradiction
  | number =>
    constructor
    · intro quote
      exact absurd (spells _ quote) (by decide)
    · intro feed
      exact absurd (spells _ feed) (by decide)
  | identifier =>
    have letters := spells
    simp only [TokenKind.Spells, isName, Bool.and_eq_true, List.all_eq_true,
      String.toList_ofList] at letters
    obtain ⟨⟨-, inside⟩, -⟩ := letters
    constructor
    · intro quote
      exact absurd (inside _ quote) (by decide)
    · intro feed
      exact absurd (inside _ feed) (by decide)
  | _ =>
    cases spells
    decide

/-- The text begins with a quote but does not end in the line where it begins: it has a line
feed, or nothing closes it. -/
def Overruns (source : String) (place : Place) (subject : List Char) : Prop :=
  subject.head? = some '"' ∧ ('\n' ∈ subject ∨ OpenQuote source place)

namespace Spot
variable {source : String}

/-- The spot has of a text what its line has: all of it, unless the text overruns the line. -/
structure Fronts (spot : Spot source) (subject : List Char) : Prop where
  front : spot.text <+: subject
  whole : spot.text = subject ↔ ¬ Overruns source (.ofPosition spot.position) subject
  ends : spot.text ≠ subject → spot.behind = []

theorem Fronts.of_whole {spot : Spot source} {subject : List Char} (whole : spot.text = subject)
    (within : ¬ Overruns source (.ofPosition spot.position) subject) : spot.Fronts subject where
  front := whole ▸ List.prefix_rfl
  whole := iff_of_true whole within
  ends := fun other => absurd whole other

theorem Fronts.of_part {spot : Spot source} {subject more : List Char}
    (part : subject = spot.text ++ more) (left : more ≠ []) (stops : spot.behind = [])
    (overruns : Overruns source (.ofPosition spot.position) subject) : spot.Fronts subject where
  front := ⟨more, part.symm⟩
  whole := by
    refine iff_of_false ?_ (not_not_intro overruns)
    intro whole
    rw [← whole, List.self_eq_append_right] at part
    exact left part
  ends := fun _ => stops

theorem not_openQuote {before behind : List Piece} {body : List Char}
    (cut : Piece.cut source.toList = before ++ .string body true :: behind) :
    ¬ OpenQuote source (.ofPosition (Position.start.after (Piece.textOf before))) := by
  rintro ⟨front, rest, whole, quoteless, place⟩
  have around := (around_piece cut).1
  have near : Piece.textOf before <+: source.toList := ⟨_, around.symm⟩
  obtain rfl : Piece.textOf before = front :=
    Position.after_inj .start near ⟨_, whole.symm⟩ (Place.ofPosition_inj place)
  have same := List.append_cancel_left (around.symm.trans whole)
  apply quoteless
  rw [← (List.cons.inj same).2]
  simp

/-- A string with a line feed leaves its line. -/
theorem of_broken {before behind : List Piece} {body : List Char} {closed : Bool}
    (cut : Piece.cut source.toList = before ++ .string body closed :: behind)
    (feed : '\n' ∈ body) :
    ∃ spot : Spot source, spot.position = Position.start.after (Piece.textOf before) ∧
      spot.Fronts ('"' :: (body ++ ['"'])) := by
  obtain ⟨head, tail, rfl, inside⟩ := List.eq_append_cons_of_mem feed
  have whole : source.toList = Piece.textOf before ++ (('"' :: head) ++
      '\n' :: (tail ++ ((if closed then ['"'] else []) ++ Piece.textOf behind))) := by
    rw [(around_piece cut).1]
    simp [Piece.text]
  obtain ⟨spot, text, -, stops, position⟩ := exists_spot whole (by simp [inside])
  have part : '"' :: (head ++ '\n' :: tail ++ ['"']) = spot.text ++ '\n' :: (tail ++ ['"']) := by
    simp [text]
  exact ⟨spot, position, .of_part part (by simp) stops ⟨rfl, .inl (by simp)⟩⟩

/-- A string that nothing closes ends with the source, and a quote is added to it. -/
theorem of_open {before behind : List Piece} {body : List Char}
    (cut : Piece.cut source.toList = before ++ .string body false :: behind)
    (inside : '\n' ∉ body) :
    ∃ spot : Spot source, spot.position = Position.start.after (Piece.textOf before) ∧
      spot.Fronts ('"' :: (body ++ ['"'])) := by
  obtain ⟨around, quoteless, reaches⟩ := around_piece cut
  have whole : source.toList = Piece.textOf before ++ (('"' :: body) ++ []) := by
    rw [around, reaches rfl]
    simp [Piece.text]
  obtain ⟨spot, text, -, stops, position⟩ := exists_spot whole (by simp [inside])
  have unclosed : OpenQuote source (.ofPosition spot.position) :=
    ⟨_, body, by simpa using whole, quoteless, congrArg _ position⟩
  have part : '"' :: (body ++ ['"']) = spot.text ++ ['"'] := by simp [text]
  exact ⟨spot, position, .of_part part (by simp) stops ⟨rfl, .inr unclosed⟩⟩

theorem of_closed {before behind : List Piece} {body : List Char}
    (cut : Piece.cut source.toList = before ++ .string body true :: behind)
    (inside : '\n' ∉ body) :
    ∃ spot : Spot source, spot.position = Position.start.after (Piece.textOf before) ∧
      spot.Fronts ('"' :: (body ++ ['"'])) := by
  obtain ⟨spot, -, text, position⟩ := of_piece cut (by simp [Piece.text, inside])
  refine ⟨spot, position, .of_whole text ?_⟩
  rintro ⟨-, feed | unclosed⟩
  · simp [inside] at feed
  · exact not_openQuote cut (position ▸ unclosed)

/-- A token that can be shown begins at a spot that has as much of it as its line. -/
theorem of_shown {t : Token} (member : t ∈ (Scanner.start source).upcoming)
    (visible : t.kind ≠ .newline) :
    ∃ spot : Spot source, spot.position = t.position ∧ spot.Fronts t.lexeme.toList := by
  by_cases kind : t.kind = .string
  · obtain ⟨before, piece, behind, cut, token, place⟩ := Piece.tokensFrom_split member
    rw [kind] at token
    obtain ⟨body, closed, rfl, lexeme⟩ := (around_piece cut).2.eq_string token
    rw [place, lexeme]
    by_cases feed : '\n' ∈ body
    · exact of_broken cut feed
    · cases closed with
      | true => exact of_closed cut feed
      | false => exact of_open cut feed
  · obtain ⟨quoteless, inside⟩ :=
      (Scanner.spelled_of_upcoming member).spells.plain kind visible
    obtain ⟨spot, -, -, -, text, position⟩ :=
      of_token member inside (fun string => absurd string kind)
    refine ⟨spot, position, .of_whole text ?_⟩
    rintro ⟨quote, -⟩
    exact quoteless (List.mem_of_head? quote)

end Spot

theorem length_caretAndTildes {subject : String} (named : subject ≠ "") :
    (caretAndTildes subject.length).length = subject.length := by
  have : subject.length ≠ 0 := mt String.length_eq_zero_iff.mp named
  rw [caretAndTildes, List.length_cons, List.length_replicate]
  omega

namespace Spot.Fronts
variable {source : String} {spot : Spot source} {subject : String}

theorem length_le (fronts : spot.Fronts subject.toList) : spot.text.length ≤ subject.length := by
  rw [← String.length_toList]
  exact fronts.front.length_le

theorem whole_of_length (fronts : spot.Fronts subject.toList)
    (same : spot.text.length = subject.length) : spot.text = subject.toList := by
  rw [← String.length_toList] at same
  exact fronts.front.eq_of_length same

theorem underline_iff (fronts : spot.Fronts subject.toList) (named : subject ≠ "") :
    (caretAndTildes subject.length).length = spot.text.length ↔
      ¬ Overruns source (.ofPosition spot.position) subject.toList := by
  rw [length_caretAndTildes named, ← fronts.whole]
  constructor
  · intro same
    exact fronts.whole_of_length same.symm
  · intro same
    rw [same, String.length_toList]

theorem overrun (fronts : spot.Fronts subject.toList) (named : subject ≠ "")
    (overruns : Overruns source (.ofPosition spot.position) subject.toList) :
    spot.text.length < (caretAndTildes subject.length).length ∧ spot.behind = [] := by
  have part : spot.text ≠ subject.toList := fun whole => fronts.whole.mp whole overruns
  refine ⟨?_, fronts.ends part⟩
  rw [length_caretAndTildes named]
  apply Nat.lt_of_le_of_ne fronts.length_le
  intro same
  exact part (fronts.whole_of_length same)

end Spot.Fronts

/-- What is written about the notice shows the subject where it begins in the source, with an
underline as long as the subject. The highlighted part is just as long, unless the subject
overruns the line. Then it goes to the end of the line, and the underline further. -/
def Notice.Underlines (source : String) (host : Host) (path : String) (warning : Bool)
    (notice : Notice) (written : String) : Prop :=
  ∃ (spot : Spot source) (subject : String), notice.values = [subject] ∧
    notice.place = .ofPosition spot.position ∧ spot.text <+: subject.toList ∧
    (∃ message, fill host.attributes notice.template (notice.values.map host.bold) = .ok message ∧
      written = spot.remark host path warning notice.category message ++
        (spot.underlined host warning subject.length ++ "\n")) ∧
    ((caretAndTildes subject.length).length = spot.text.length ↔
      ¬ Overruns source notice.place subject.toList) ∧
    (Overruns source notice.place subject.toList →
      spot.text.length < (caretAndTildes subject.length).length ∧ spot.behind = [])

/-- An error whose subject begins at a spot is underlined there. -/
theorem Notice.OneField.underlines {notice : Notice} {before subject after source path : String}
    {r : Reporter} {spot : Spot source} (one : notice.OneField before subject after)
    (range : notice.start = 0 ∧ notice.stop = -1) (outward : notice.internal = false)
    (shown : notice.diagnosis = true) (located : r.registry.last? = some (path, some source))
    (fronts : spot.Fronts subject.toList) (named : subject ≠ "")
    (place : notice.place = .ofPosition spot.position) :
    notice.Underlines source r.host path false (r.close (some (.ofNotice notice r.host))).1 := by
  obtain ⟨start, stop⟩ := range
  have ends : spot.text.length ≠ subject.length → spot.behind = [] := by
    intro other
    apply fronts.ends
    intro whole
    rw [whole, String.length_toList] at other
    exact other rfl
  refine ⟨spot, subject, one.values, place, fronts.front, ⟨_, one.filled r.host, ?_⟩, ?_, ?_⟩
  · rw [Trouble.ofNotice, one.report r.host, r.close_reported ⟨start, if_pos stop, outward⟩]
    exact r.errorText_of_lines located place outward (r.diagnosisLines_underlined false place start
      (if_pos stop) named fronts.length_le ends shown)
  · rw [place]
    exact fronts.underline_iff named
  · rw [place]
    exact fronts.overrun named

/-- A warning underlines its unknown character and nothing else. -/
theorem UnknownCharacter.underlines {source path : String} {u : UnknownCharacter} {r : Reporter}
    (member : u ∈ (Scanner.start source).pending)
    (located : r.registry.last? = some (path, some source)) :
    u.notice.Underlines source r.host path true (r.warn u.notice).1 ∧
      ¬ Overruns source u.notice.place [u.char] := by
  have unquoted (place : Place) : ¬ Overruns source place [u.char] := by
    rintro ⟨quote, -⟩
    obtain ⟨before, behind, cut, -⟩ := Piece.unknownFrom_split member
    have outside : isOutside u.char = true := (Spot.around_piece cut).2
    rw [Option.some.inj quote] at outside
    contradiction
  obtain ⟨spot, piece, -, -, text, place, written⟩ := UnknownCharacter.shows member located
  have subject : (String.singleton u.char).toList = [u.char] := String.toList_singleton _
  have fronts : spot.Fronts (String.singleton u.char).toList := by
    rw [subject]
    exact .of_whole text (unquoted _)
  refine ⟨⟨spot, _, rfl, place, fronts.front, ?_, ?_, ?_⟩, unquoted _⟩
  · obtain ⟨message, filled, written⟩ := written
    refine ⟨message, filled, ?_⟩
    rw [written, ← String.length_toList, subject, ← text]
    rfl
  · rw [place]
    exact fronts.underline_iff (by simp)
  · rw [place]
    exact fronts.overrun (by simp)

/-- A syntax error underlines the token that was found, if that is shown at all. -/
theorem SyntaxError.underlines {limit : Nat} {source path : String} {e : SyntaxError}
    {r : Reporter} (rejected : (parse limit source).program = .error (.rejected e))
    (shown : e.notice.diagnosis = true) (located : r.registry.last? = some (path, some source)) :
    e.notice.Underlines source r.host path false
      (r.close (some (.ofRead r.host (.rejected e)))).1 := by
  have visible {lexeme : String} (same : e.found.lexeme = lexeme) :
      Text.strip lexeme ≠ "" := by
    intro blank
    simp [notice, same, blank] at shown
  have named : e.found.lexeme ≠ "" := by
    intro empty
    exact visible empty (by decide)
  have member : e.found ∈ (Scanner.start source).upcoming := by
    refine (found_of_parse rejected).resolve_right ?_
    intro final
    exact named (congrArg Token.lexeme final)
  have other : e.found.kind ≠ .newline := by
    intro feed
    have lexeme := (Scanner.spelled_of_upcoming member).spells
    rw [feed] at lexeme
    have same : e.found.lexeme = "\n" := String.toList_inj.mp lexeme
    exact visible same (by decide)
  obtain ⟨spot, position, fronts⟩ := Spot.of_shown member other
  obtain ⟨before, after, one⟩ := e.oneField
  rw [Token.shown, if_neg other] at one
  exact one.underlines ⟨rfl, rfl⟩ rfl shown located fronts named (by rw [position]; rfl)

/-- The error of a statement that was read from the source underlines the part that is to be
blamed, if that is shown. -/
theorem EvalError.Blames.underlines {limit : Nat} {source path : String} {nodes : List Node}
    {statement : Node} {env : Bindings} {e : EvalError} {r : Reporter} {notice : Notice}
    (blames : e.Blames env statement) (read : (parse limit source).program = .ok nodes)
    (member : statement ∈ nodes) (located : r.registry.last? = some (path, some source))
    (noticed : e.notice? = some notice) (shown : notice.diagnosis = true) :
    notice.Underlines source r.host path false (r.close (some (.ofEval r.host e))).1 := by
  simp only [Trouble.ofEval, noticed]
  cases e with
  | unbound name place =>
    obtain ⟨t, found, kind, rfl, rfl⟩ := part_made_of_parse read member blames.1
    obtain ⟨more, -⟩ := isName_line ((Scanner.spelled_of_upcoming found).isName kind)
    have named : t.lexeme ≠ "" := mt String.toList_eq_nil_iff.mpr more
    obtain ⟨spot, position, fronts⟩ := Spot.of_shown found (by simp [kind])
    obtain ⟨notice, some, -, placed, one⟩ :=
      EvalError.oneField_unbound t.lexeme (.ofPosition t.position)
    cases noticed
    cases some
    exact one.underlines ⟨rfl, rfl⟩ rfl rfl located fronts named (by rw [placed, position])
  | stringOperand text place =>
    obtain ⟨t, found, kind, rfl, rfl⟩ := part_made_of_parse read member blames
    obtain ⟨body, -, lexeme⟩ := (Scanner.spelled_of_upcoming found).string_body kind
    obtain ⟨spot, position, fronts⟩ := Spot.of_shown found (by simp [kind])
    have quoted : ("\"" ++ String.ofList (t.lexeme.toList.drop 1).dropLast ++ "\"").toList =
        t.lexeme.toList := by simp [lexeme]
    rw [← quoted] at fronts
    obtain ⟨notice, some, -, placed, one⟩ := EvalError.oneField_string
      (String.ofList (t.lexeme.toList.drop 1).dropLast) (.ofPosition t.position)
    cases noticed
    cases some
    exact one.underlines ⟨rfl, rfl⟩ rfl rfl located fronts (by simp) (by rw [placed, position])
  | zeroDivision expr place =>
    cases noticed
    contradiction
  | _ => contradiction

namespace Session

/-- What a session with nothing registered writes about a source underlines what it is about. In
every diagnosis, of a warning, a syntax, a name or a type error, the underline is as long as the
highlighted part of the line, unless it is about a string that overruns the line. -/
theorem runLine_underlines (source : String) (s : Session) (r : Reporter)
    (clean : r.registry = .empty) :
    let parsed := parse nestingLimit source
    ∃ (warning : UnknownCharacter → String) (reported : String),
      (runLine source s r).err = String.join (parsed.unknown.map warning) ++ reported ∧
      (∀ u ∈ parsed.unknown, u.notice.Underlines source r.host s.path true (warning u) ∧
        ¬ Overruns source u.notice.place [u.char]) ∧
      (∀ e, parsed.program = .error (.rejected e) → e.notice.diagnosis = true →
        e.notice.Underlines source r.host s.path false reported) ∧
      ∀ program k before e after notice, parsed.program = .ok program →
        Machine.StopsAt depthLimit (s.queue ++ program) { bindings := s.startBindings } k before e
          after →
        s.queue.length ≤ k → e.notice? = some notice → notice.diagnosis = true →
        notice.Underlines source r.host s.path false reported := by
  intro parsed
  have located := s.registered_last source clean
  have warned : ∀ u ∈ parsed.unknown,
      u.notice.Underlines source r.host s.path true ((s.registered source r).warn u.notice).1 ∧
        ¬ Overruns source u.notice.place [u.char] := by
    intro u member
    have pending := (unknown_of_parse nestingLimit source).subset member
    exact UnknownCharacter.underlines pending located
  have warnings : warningsOf source s r =
      String.join (parsed.unknown.map fun u => ((s.registered source r).warn u.notice).1) := by
    rw [warningsOf, Reporter.warnAll_eq]
  refine ⟨fun u => ((s.registered source r).warn u.notice).1, ?_⟩
  rw [← warnings]
  cases read : parsed.program with
  | error failure =>
    refine ⟨_, congrArg Turn.err (runLine_of_failure s r read), warned, ?_, ?_⟩
    · rintro e ⟨⟩ shown
      exact SyntaxError.underlines read shown located
    · intro program k before e after notice ok
      cases ok
  | ok program =>
    rcases ran : Machine.run depthLimit (s.queue ++ program) { bindings := s.startBindings }
      with ⟨e | ⟨⟩, m⟩
    · refine ⟨_, congrArg Turn.err (runLine_of_error s r read ran), warned, ?_, ?_⟩
      · intro e rejected
        cases rejected
      · rintro program k before e after notice ⟨⟩ stops later noticed shown
        cases ran.symm.trans stops.run_eq
        obtain ⟨statement, found, fails⟩ := stops.fails
        rw [List.getElem?_append_right later] at found
        have member := List.mem_of_getElem? found
        rcases Machine.execute_blames (shape_of_parse read statement member) fails with
          blames | ⟨rfl, -⟩
        · exact blames.underlines read member located noticed shown
        · cases noticed
    · refine ⟨"", ?_, warned, ?_, ?_⟩
      · rw [runLine_of_ok s r read ran, String.append_empty]
      · intro e rejected
        cases rejected
      · rintro program k before e after notice ⟨⟩ stops
        cases ran.symm.trans stops.run_eq

/-- An unknown character in front of a string over two lines: the one is underlined as it is, the
other further than its line goes. -/
theorem runLine_underlines_broken :
    let source := "\tx = $\"ab\ncd\""
    let s : Session := {
      path := promptPath
      atPrompt := true
      persist := false
      backend := none
      source := "" }
    ∃ character string : Spot source,
      character.position = ⟨1, 6⟩ ∧ (caretAndTildes 1).length = character.text.length ∧
      string.position = ⟨1, 7⟩ ∧ string.text.length < (caretAndTildes 7).length ∧
      string.behind = [] ∧
      (runLine source s { host := .plain }).err =
        character.remark .plain promptPath true .warning "unknown character '$', skipping" ++
          (character.underlined .plain true 1 ++ "\n") ++
        (string.remark .plain promptPath false .typeError
            "string \"ab\ncd\" cannot be evaluated as an integer expression" ++
          (string.underlined .plain false 7 ++ "\n")) ∧
      (runLine source s { host := .plain }).err =
        "<in>:1:6: warning: unknown character '$', skipping\n  \tx = $\"ab\n  \t    ^\n" ++
          "<in>:1:7: type error: string \"ab\ncd\" cannot be evaluated as an integer expression\n" ++
          "  \tx = $\"ab\n  \t     ^~~~~~~\n" := by
  intro source s
  let u : UnknownCharacter := ⟨'$', ⟨1, 6⟩⟩
  let program : List Node :=
    [.assignment "x" (.string "ab\ncd" ⟨some 1, some 7⟩) ⟨some 1, some 2⟩]
  have unknown : (parse nestingLimit source).unknown = [u] := by decide +kernel
  have read : (parse nestingLimit source).program = .ok program := by
    have computed : (parse nestingLimit source).program.toOption = some program := by
      decide +kernel
    cases outcome : (parse nestingLimit source).program with
    | error failure =>
      rw [outcome] at computed
      contradiction
    | ok nodes =>
      rw [outcome] at computed
      exact congrArg Except.ok (Option.some.inj computed)
  have stops : Machine.StopsAt depthLimit (s.queue ++ program) { bindings := s.startBindings } 0 {}
      (.stringOperand "ab\ncd" ⟨some 1, some 7⟩) {} := ⟨rfl, _, rfl, rfl⟩
  obtain ⟨warning, reported, err, warned, -, failed⟩ :=
    runLine_underlines source s { host := .plain } rfl
  obtain ⟨⟨character, subject, named, place, -, ⟨message, filled, written⟩, fits, -⟩, within⟩ :=
    warned u (by rw [unknown]; exact List.mem_cons_self)
  obtain ⟨string, subject', named', place', -, ⟨message', filled', written'⟩, -, overrun⟩ :=
    failed program 0 {} _ {} _ read stops (Nat.zero_le 0) rfl rfl
  cases named
  cases named'
  have one : (String.singleton u.char).length = 1 := by decide
  have seven : ("\"" ++ "ab\ncd" ++ "\"").length = 7 := by decide
  rw [one, String.toList_singleton] at fits
  rw [one] at written
  rw [seven] at overrun written'
  have same : message = "unknown character '$', skipping" :=
    Except.ok.inj (filled.symm.trans (u.oneField.filled .plain))
  have same' : message' = "string \"ab\ncd\" cannot be evaluated as an integer expression" := by
    obtain ⟨notice, noticed, -, -, one⟩ := EvalError.oneField_string "ab\ncd" ⟨some 1, some 7⟩
    cases noticed
    exact Except.ok.inj (filled'.symm.trans (one.filled .plain))
  obtain ⟨longer, ends⟩ := overrun ⟨rfl, .inl (by decide)⟩
  refine ⟨character, string, Place.ofPosition_inj place.symm, fits.mpr within,
    Place.ofPosition_inj place'.symm, longer, ends, ?_, by decide +kernel⟩
  rw [err, unknown, List.map_singleton, String.join_cons, String.join_nil, String.append_empty,
    written, written', same, same']
  rfl

/-- The underline of a string that nothing closes ends behind the end of its line. -/
theorem underline_passes_line_end :
    let source := "x = \"abc"
    let s : Session := {
      path := promptPath
      atPrompt := true
      persist := false
      backend := none
      source := "" }
    let spot : Spot source := ⟨[], "x = ".toList, "\"abc".toList, [], [], by decide⟩
    (runLine source s { host := .plain }).err =
        spot.remark .plain promptPath false .typeError
            "string \"abc\" cannot be evaluated as an integer expression" ++
          (spot.underlined .plain false 5 ++ "\n") ∧
      (caretAndTildes 5).length ≠ spot.text.length ∧
      spot.line.length < spot.front.length + (caretAndTildes 5).length := by
  decide +kernel

end Session
end IntScript

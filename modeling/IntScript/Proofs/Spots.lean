import IntScript.Proofs.Factorisation
import IntScript.Report.Reporter

/-! Spots of a source: stretches of text within one line, described by the lines of the
source alone. Every token without a line feed and every unknown character stands at a spot,
its position counts the lines above and the characters in front, and a diagnosis made there
highlights and underlines the stretch and nothing else. -/
namespace IntScript
open Text (Host)

namespace Text

theorem offset_append (front rest : List Char) :
    offset (front ++ rest).length (front.length : Int) = front.length := by
  rw [offset_of_nonneg _ (by omega), Int.toNat_natCast, List.length_append]
  omega

theorem before_append (front rest : List Char) : before (front ++ rest) front.length = front := by
  rw [before, offset_append, List.take_left]

theorem onward_append (front rest : List Char) : onward (front ++ rest) front.length = rest := by
  rw [onward, offset_append, List.drop_left]

theorem between_append (front text behind : List Char) :
    between (front ++ (text ++ behind)) front.length (front ++ text).length = text := by
  rw [between, offset_append, ← List.append_assoc, offset_append, List.take_left, List.drop_left]

theorem offset_past {length : Nat} {bound : Int} (past : length ≤ bound) :
    offset length bound = length := by
  rw [offset_of_nonneg _ (by omega)]
  omega

/-- What is cut out at the end of a text ends there, however far the cut goes. -/
theorem between_past (front text : List Char) {last : Int} (past : (front ++ text).length ≤ last) :
    between (front ++ text) front.length last = text := by
  rw [between, offset_append, offset_past past, List.take_length, List.drop_left]

theorem onward_past {text : List Char} {bound : Int} (past : text.length ≤ bound) :
    onward text bound = [] := by
  rw [onward, offset_past past, List.drop_length]

end Text

/-- A stretch of text within one line of a source. -/
structure Spot (source : String) where
  above : List String
  front : List Char
  text : List Char
  behind : List Char
  below : List String
  lines : Text.lines source = above ++ String.ofList (front ++ (text ++ behind)) :: below

/-- What stands below a stretch of the width: a caret, and tildes for all but one character. -/
def caretAndTildes (width : Nat) : List Char := '^' :: List.replicate (width - 1) '~'

/-- The first line of a text, and the lines below it. -/
theorem splitOn_front (text : List Char) :
    ∃ below, text.splitOn '\n' = text.takeWhile (· ≠ '\n') :: below := by
  induction text with
  | nil => exact ⟨[], rfl⟩
  | cons c text ih =>
    obtain ⟨below, split⟩ := ih
    by_cases feed : c = '\n'
    · exact ⟨text.splitOn '\n', by simp [List.splitOn_cons_eq_if_modifyHead, feed]⟩
    · exact ⟨below, by simp [List.splitOn_cons_eq_if_modifyHead, split, feed]⟩

theorem takeWhile_line {text : List Char} (inside : '\n' ∉ text) (after : List Char) :
    (text ++ after).takeWhile (· ≠ '\n') = text ++ after.takeWhile (· ≠ '\n') := by
  refine List.takeWhile_append_of_pos ?_
  intro c member
  exact decide_eq_true fun feed => inside (feed ▸ member)

/-- A stretch that begins behind `before` stands behind as many lines and characters as are
counted there. -/
theorem splitOn_position {text : List Char} (inside : '\n' ∉ text) (before after : List Char)
    (p : Position) :
    ∃ above front below,
      (before ++ (text ++ after)).splitOn '\n' =
        above ++ (front ++ (text ++ after.takeWhile (· ≠ '\n'))) :: below ∧
      before = (above.flatMap fun line => line ++ ['\n']) ++ front ∧
      p.after before =
        ⟨p.line + above.length, (if above = [] then p.col else 1) + front.length⟩ := by
  induction before generalizing p with
  | nil =>
    obtain ⟨below, split⟩ := splitOn_front (text ++ after)
    rw [takeWhile_line inside] at split
    exact ⟨[], [], below, split, rfl, rfl⟩
  | cons c before ih =>
    obtain ⟨above, front, below, split, whole, position⟩ := ih (p.step c)
    rw [List.cons_append, List.splitOn_cons_eq_if_modifyHead, split, Position.after_cons, position]
    by_cases feed : c = '\n'
    · refine ⟨[] :: above, front, below, ?_, ?_, ?_⟩
      · simp [feed]
      · simp [feed, ← whole]
      · have stepped : p.step c = ⟨p.line + 1, 1⟩ := if_pos feed
        rw [stepped]
        cases above with
        | nil => simp
        | cons line above =>
          simp only [List.length_cons, reduceCtorEq, if_false, Position.mk.injEq, and_true]
          omega
    · cases above with
      | nil =>
        refine ⟨[], c :: front, below, ?_, ?_, ?_⟩
        · simp [feed]
        · simp [whole]
        · simp [Position.step, feed]
          omega
      | cons line above =>
        refine ⟨(c :: line) :: above, front, below, ?_, ?_, ?_⟩
        · simp [feed]
        · simp [whole]
        · simp [Position.step, feed]

namespace Spot
variable {source : String}

/-- Line and column, counted from one. -/
def position (spot : Spot source) : Position := ⟨spot.above.length + 1, spot.front.length + 1⟩

/-- The line of a spot. -/
def line (spot : Spot source) : String := String.ofList (spot.front ++ (spot.text ++ spot.behind))

/-- All that stands in front of a spot in the source. -/
def before (spot : Spot source) : List Char :=
  (spot.above.flatMap fun line => line.toList ++ ['\n']) ++ spot.front

theorem exists_spot {before text after : List Char}
    (whole : source.toList = before ++ (text ++ after)) (inside : '\n' ∉ text) :
    ∃ spot : Spot source, spot.text = text ∧ spot.before = before ∧
      spot.behind = after.takeWhile (· ≠ '\n') ∧
      spot.position = Position.start.after before := by
  obtain ⟨above, front, below, split, upTo, position⟩ :=
    splitOn_position inside before after .start
  refine ⟨⟨above.map String.ofList, front, text, _, below.map String.ofList, ?_⟩, rfl, ?_, rfl, ?_⟩
  · rw [Text.lines, whole, split, List.map_append, List.map_cons]
  · simp [Spot.before, upTo, List.flatMap_map]
  · rw [position]
    cases above <;> simp [Spot.position, Position.start] <;> omega

theorem lineAt?_position (spot : Spot source) :
    Reporter.lineAt? source spot.position.line = some spot.line := by
  simp [Reporter.lineAt?, position, spot.lines, line]

/-- The line with the stretch highlighted, and below it a caret and tildes of some width. In front
of the caret stand blanks, and tabs where the line has them. -/
def underlined (spot : Spot source) (host : Host) (warning : Bool) (width : Nat) : String :=
  let tint : Text.Tint := if warning then .magenta else .red
  "  " ++ String.ofList spot.front ++ host.emphasise (String.ofList spot.text) (some tint) ++
    String.ofList spot.behind ++ "\n  " ++
    String.ofList (spot.front.map fun c => if c = '\t' then '\t' else ' ') ++
    host.emphasise (String.ofList (caretAndTildes width)) (some tint)

/-- The line with the stretch highlighted, and an underline below the stretch and nothing else. -/
def diagnosis (spot : Spot source) (host : Host) (warning : Bool) : String :=
  spot.underlined host warning spot.text.length

/-- A report about a text that begins at a spot highlights the spot, if the line ends where the
text goes on. -/
theorem diagnoseAt_underlined {report : Report} (spot : Spot source) (host : Host)
    (warning : Bool) (start : report.start = 0) (wide : spot.text.length ≤ report.width)
    (ends : spot.text.length ≠ report.width → spot.behind = []) :
    report.diagnoseAt host spot.position.col spot.line warning =
      spot.underlined host warning report.width := by
  have first : (spot.position.col : Int) - 1 + report.start = spot.front.length := by
    simp only [position, start]
    omega
  have line : spot.line.toList = spot.front ++ (spot.text ++ spot.behind) := String.toList_ofList
  have parts : Text.between (spot.front ++ (spot.text ++ spot.behind)) spot.front.length
        (spot.front.length + report.width) = spot.text ∧
      Text.onward (spot.front ++ (spot.text ++ spot.behind)) (spot.front.length + report.width) =
        spot.behind := by
    by_cases whole : spot.text.length = report.width
    · have last : (spot.front.length : Int) + report.width =
          ((spot.front ++ spot.text).length : Int) := by simp [whole]
      rw [last]
      exact ⟨Text.between_append _ _ _, by rw [← List.append_assoc, Text.onward_append]⟩
    · have past : ((spot.front ++ spot.text).length : Int) ≤
          spot.front.length + report.width := by
        rw [List.length_append]
        omega
      rw [ends whole, List.append_nil]
      exact ⟨Text.between_past _ _ past, Text.onward_past past⟩
  have blank : padding spot.front = spot.front.map fun c => if c = '\t' then '\t' else ' ' := by
    refine List.map_congr_left fun c _ => ?_
    split <;> simp_all
  simp only [Report.diagnoseAt, line, first, Text.before_append, parts, blank, underlined]
  rfl

end Spot

/-- A quote that nothing closes stands at the place. -/
def OpenQuote (source : String) (place : Place) : Prop :=
  ∃ before body, source.toList = before ++ '"' :: body ∧ '"' ∉ body ∧
    place = .ofPosition (Position.start.after before)

namespace Spot
variable {source : String}

/-- The source falls into pieces that fit, and the piece is the one at the spot. -/
def Holds (spot : Spot source) (piece : Piece) : Prop :=
  ∃ before behind, Piece.textOf (before ++ piece :: behind) = source.toList ∧
    Piece.Fit (before ++ piece :: behind) [] ∧ Piece.textOf before = spot.before ∧
    piece.text = spot.text

/-- A piece of the cut, with the source around it. -/
theorem around_piece {before behind : List Piece} {piece : Piece}
    (cut : Piece.cut source.toList = before ++ piece :: behind) :
    source.toList = Piece.textOf before ++ (piece.text ++ Piece.textOf behind) ∧
      piece.Fits (Piece.textOf behind) := by
  have whole := Piece.textOf_cut source.toList
  have fit := Piece.fit_cut source.toList
  rw [cut] at whole fit
  rw [Piece.textOf_append, Piece.textOf_cons] at whole
  have fits := (Piece.fit_append.mp fit).2.1
  rw [List.append_nil] at fits
  exact ⟨whole.symm, fits⟩

/-- A piece without a line feed stands at a spot. -/
theorem of_piece {before behind : List Piece} {piece : Piece}
    (cut : Piece.cut source.toList = before ++ piece :: behind) (inside : '\n' ∉ piece.text) :
    ∃ spot : Spot source, spot.Holds piece ∧ spot.text = piece.text ∧
      spot.position = Position.start.after (Piece.textOf before) := by
  obtain ⟨spot, text, upTo, -, position⟩ := exists_spot (around_piece cut).1 inside
  have whole := Piece.textOf_cut source.toList
  have fit := Piece.fit_cut source.toList
  rw [cut] at whole fit
  exact ⟨spot, ⟨before, behind, whole, fit, upTo.symm, text.symm⟩, text, position⟩

/-- The first character of a token stands somewhere in a line of the source. -/
theorem of_upcoming {t : Token} (member : t ∈ (Scanner.start source).upcoming) :
    ∃ spot : Spot source, spot.position = t.position := by
  obtain ⟨before, piece, behind, cut, -, place⟩ := Piece.tokensFrom_split member
  obtain ⟨spot, -, -, -, position⟩ :=
    @exists_spot source _ [] _ (around_piece cut).1 List.not_mem_nil
  exact ⟨spot, position.trans place.symm⟩

/-- A token without a line feed, if it is no open string, stands at a spot of the source. -/
theorem of_token {t : Token} (member : t ∈ (Scanner.start source).upcoming)
    (inside : '\n' ∉ t.lexeme.toList)
    (closed : t.kind = .string → ¬ OpenQuote source (.ofPosition t.position)) :
    ∃ (spot : Spot source) (piece : Piece), spot.Holds piece ∧
      piece.Reads t.kind t.lexeme.toList ∧ spot.text = t.lexeme.toList ∧
      spot.position = t.position := by
  obtain ⟨before, piece, behind, cut, token, place⟩ := Piece.tokensFrom_split member
  have lexeme := Piece.lexeme_eq token
  have complete : piece.missingQuote = [] := by
    cases piece with
    | string body shut =>
      cases shut with
      | true => rfl
      | false =>
        obtain ⟨whole, quoteless, reaches⟩ := around_piece cut
        have kind : t.kind = .string := (congrArg Prod.fst (Option.some.inj token)).symm
        refine absurd ⟨Piece.textOf before, body, ?_, quoteless, ?_⟩ (closed kind)
        · rw [whole, reaches rfl]
          simp [Piece.text]
        · rw [place]
          rfl
    | _ => rfl
  rw [complete, List.append_nil] at lexeme
  rw [lexeme] at inside
  obtain ⟨spot, holds, text, position⟩ := of_piece cut inside
  exact ⟨spot, piece, holds, Piece.reads_iff.mpr token, text.trans lexeme.symm,
    position.trans place.symm⟩

/-- An unknown character stands at a spot of the source. -/
theorem of_unknown {u : UnknownCharacter} (member : u ∈ (Scanner.start source).pending) :
    ∃ spot : Spot source, spot.Holds (.unknown u.char) ∧ spot.text = [u.char] ∧
      spot.position = u.position := by
  obtain ⟨before, behind, cut, place⟩ := Piece.unknownFrom_split member
  have outside : isOutside u.char = true := (around_piece cut).2
  have inside : '\n' ∉ [u.char] := by
    intro feed
    rw [← List.mem_singleton.mp feed] at outside
    contradiction
  obtain ⟨spot, holds, text, position⟩ := of_piece cut inside
  exact ⟨spot, holds, text, position.trans place.symm⟩

end Spot
end IntScript

import IntScript.Proofs.RoundTrip
import IntScript.Proofs.SameForms

/-! Tokens written back. The lexemes of a source, joined by single blanks, are cut into tokens of
the same kinds and lexemes, because a blank ends every token and a lexeme has all its quotes. What
stood between the tokens has no part in what is read. -/
namespace IntScript

namespace Piece

/-- The piece with its closing quote. -/
def closedUp : Piece → Piece
  | .string body _ => .string body true
  | piece => piece

@[simp] theorem token?_closedUp (piece : Piece) : piece.closedUp.token? = piece.token? := by
  cases piece <;> rfl

theorem text_closedUp {piece : Piece} {kind : TokenKind} {lexeme : List Char}
    (token : piece.token? = some (kind, lexeme)) : piece.closedUp.text = lexeme := by
  cases piece <;> cases token <;> rfl

theorem Fits.closedUp {piece : Piece} {following rest : List Char} (fits : piece.Fits following)
    (token : piece.token? ≠ none) (breaks : Breaks rest) : piece.closedUp.Fits rest := by
  cases piece with
  | number digits =>
    obtain ⟨nonempty, inside, -⟩ := fits
    refine ⟨nonempty, inside, fun c head => ?_⟩
    have apart := breaks c head
    simp only [isWordChar, Bool.or_eq_false_iff] at apart
    exact apart.2
  | word letters =>
    obtain ⟨first, inside, -⟩ := fits_word.mp fits
    exact fits_word.mpr ⟨first, inside, breaks⟩
  | string body closed => exact ⟨fits.1, by simp⟩
  | comment body => exact absurd rfl token
  | _ => exact fits

end Piece

/-- The pieces are those of the tokens with a blank between each two. -/
structure Spaced (tokens : List Token) (pieces : List Piece) : Prop where
  text : Piece.textOf pieces = [' '].intercalate (tokens.map fun t => t.lexeme.toList)
  forms : pieces.filterMap Piece.token? = tokens.map Token.form
  known : ∀ c, Piece.unknown c ∉ pieces
  fit : Piece.Fit pieces []

namespace Spaced

theorem cons {t : Token} {tokens : List Token} {pieces : List Piece} (spelled : t.Spelled)
    (spaced : Spaced tokens pieces) : ∃ pieces', Spaced (t :: tokens) pieces' := by
  obtain ⟨piece, following, fits, token⟩ := spelled
  have text := Piece.text_closedUp token
  have reads : piece.closedUp.token? = some t.form := by rw [Piece.token?_closedUp, token]
  have known (c : Char) : .unknown c ≠ piece.closedUp := by
    intro unknown
    rw [← unknown] at reads
    contradiction
  have fits {rest : List Char} (breaks : Breaks rest) : piece.closedUp.Fits rest :=
    fits.closedUp (by simp [token]) breaks
  cases tokens with
  | nil =>
    exact ⟨[piece.closedUp], by simp [text], by simp [reads], by simp [known],
      fits breaks_nil, trivial⟩
  | cons next tokens =>
    have blank : (Piece.spacing ' ').token? = none ∧ (Piece.spacing ' ').text = [' '] := ⟨rfl, rfl⟩
    refine ⟨piece.closedUp :: .spacing ' ' :: pieces, ?_, ?_, ?_, ?_⟩
    · simp [text, blank, spaced.text, List.intercalate_cons_cons]
    · simp [reads, blank, spaced.forms]
    · simp [known, spaced.known]
    · exact ⟨fits (breaks_cons (by decide)), Piece.fits_spacing.mpr rfl, spaced.fit⟩

theorem exists_pieces {tokens : List Token} (spelled : ∀ t ∈ tokens, t.Spelled) :
    ∃ pieces, Spaced tokens pieces := by
  induction tokens with
  | nil => exact ⟨[], rfl, rfl, by simp, trivial⟩
  | cons t tokens ih =>
    obtain ⟨spelledFirst, spelled⟩ := List.forall_mem_cons.mp spelled
    obtain ⟨pieces, spaced⟩ := ih spelled
    exact spaced.cons spelledFirst

end Spaced

/-- The lexemes of a source, joined by single blanks. -/
def respaced (source : String) : String :=
  " ".intercalate ((Scanner.start source).tokens.dropLast.map Token.lexeme)

theorem exists_cut_respaced (source : String) :
    ∃ pieces, Spaced (Scanner.start source).upcoming pieces ∧
      Piece.cut (respaced source).toList = pieces := by
  have spelled : ∀ t ∈ (Scanner.start source).upcoming, t.Spelled :=
    fun t member => Scanner.spelled_of_upcoming member
  obtain ⟨pieces, spaced⟩ := Spaced.exists_pieces spelled
  refine ⟨pieces, spaced, ?_⟩
  have text : (respaced source).toList = Piece.textOf pieces := by
    rw [respaced, String.toList_intercalate, spaced.text, Scanner.tokens_eq, List.dropLast_concat,
      List.map_map]
    rfl
  rw [text, Piece.cut_unique spaced.fit]

namespace Scanner

theorem forms_respaced (source : String) :
    (start (respaced source)).tokens.map Token.form = (start source).tokens.map Token.form := by
  obtain ⟨pieces, spaced, cut⟩ := exists_cut_respaced source
  rw [tokens_eq, tokens_eq, List.map_append, List.map_append, form_upcoming, cut, spaced.forms]
  rfl

theorem pending_respaced (source : String) : (start (respaced source)).pending = [] := by
  obtain ⟨pieces, spaced, cut⟩ := exists_cut_respaced source
  have rest : (start (respaced source)).rest = (respaced source).toList := rfl
  rw [pending, rest, cut, Piece.unknownFrom_eq_nil spaced.known]

end Scanner

/-- The lexemes of a source, joined by single blanks, are cut into tokens of the same kinds and
lexemes, with no unknown character among them, and are read alike. So is any other source with
tokens of the same kinds and lexemes: blanks, comments, unknown characters and a missing quote
never matter. -/
theorem respaced_read_alike (source : String) :
    (Scanner.start (respaced source)).tokens.map Token.form =
      (Scanner.start source).tokens.map Token.form ∧
    (Scanner.start (respaced source)).allUnknown = [] ∧
    (∀ limit, (parse limit (respaced source)).unknown = [] ∧
      ReadAlike (Scanner.start source).tokens (Scanner.start (respaced source)).tokens
        (parse limit source).program (parse limit (respaced source)).program) ∧
    ∀ other, (Scanner.start other).tokens.map Token.form =
        (Scanner.start source).tokens.map Token.form →
      ∀ limit, ReadAlike (Scanner.start source).tokens (Scanner.start other).tokens
        (parse limit source).program (parse limit other).program := by
  have forms := Scanner.forms_respaced source
  have pending := Scanner.pending_respaced source
  refine ⟨forms, ?_, fun limit => ⟨?_, readAlike_of_forms limit forms⟩, ?_⟩
  · rw [Scanner.allUnknown_start, pending]
  · have met := unknown_of_parse limit (respaced source)
    rw [pending] at met
    exact List.prefix_nil.mp met
  · intro other same limit
    exact readAlike_of_forms limit same

/-- The last string lacks its quote, and names and signs stand close together. -/
theorem respaced_read_alike_open :
    let source := "x=1$2 # c\n y =\"#"
    let other := "x = 1 2\ny = \"#\""
    respaced source = "x = 1 2 \n y = \"#\"" ∧
      ReadAlike (Scanner.start source).tokens (Scanner.start (respaced source)).tokens
        (parse nestingLimit source).program (parse nestingLimit (respaced source)).program ∧
      ReadAlike (Scanner.start source).tokens (Scanner.start other).tokens
        (parse nestingLimit source).program (parse nestingLimit other).program := by
  intro source other
  have same : (Scanner.start other).tokens.map Token.form =
      (Scanner.start source).tokens.map Token.form := by decide +kernel
  obtain ⟨-, -, again, others⟩ := respaced_read_alike source
  exact ⟨by decide +kernel, (again nestingLimit).2, others other same nestingLimit⟩

end IntScript

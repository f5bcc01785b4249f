import IntScript.Proofs.Scanning

/-! A source is its tokens and the gaps between them, and in one way only. -/
namespace IntScript

/-- What the lexeme of a piece has beyond its text: the quote that an open string
lacks. -/
def Piece.missingQuote : Piece → List Char
  | .string _ false => ['"']
  | _ => []

theorem Piece.lexeme_eq {piece : Piece} {kind : TokenKind} {lexeme : List Char}
    (token : piece.token? = some (kind, lexeme)) : lexeme = piece.text ++ piece.missingQuote := by
  cases piece with
  | string body closed =>
    cases token
    cases closed <;> simp [text, missingQuote]
  | _ => cases token <;> simp [text, missingQuote]

/-- A token of a source with the gap in front of it. Gaps are made of blanks,
comments and unknown characters. -/
structure Segment where
  gap : List Piece
  token : Piece
  kind : TokenKind
  lexeme : List Char
  between : ∀ piece ∈ gap, piece.isGap
  reads : token.Reads kind lexeme

namespace Segment

theorem silent (s : Segment) : ∀ piece ∈ s.gap, piece.token? = none :=
  fun piece member => Piece.isGap_iff.mp (s.between piece member)

theorem token_eq (s : Segment) : s.token.token? = some (s.kind, s.lexeme) :=
  Piece.reads_iff.mp s.reads

def pieces (s : Segment) : List Piece := s.gap ++ [s.token]

/-- The tokens of segments, of which the first begins at `position`. -/
def tokensFrom (position : Position) : List Segment → List Token
  | [] => []
  | s :: segments =>
    ⟨s.kind, String.ofList s.lexeme, position.after (Piece.textOf s.gap)⟩ ::
      tokensFrom (position.after (Piece.textOf s.pieces)) segments

theorem tokensFrom_pieces (segments : List Segment) {last : List Piece}
    (silent : ∀ piece ∈ last, piece.token? = none) (position : Position) :
    Piece.tokensFrom position (segments.flatMap pieces ++ last) =
      tokensFrom position segments := by
  induction segments generalizing position with
  | nil => exact Piece.tokensFrom_of_silent silent position
  | cons s segments ih =>
    rw [List.flatMap_cons, pieces, List.append_assoc, List.append_assoc, Piece.tokensFrom_append,
      Piece.tokensFrom_of_silent s.silent, List.singleton_append, Piece.tokensFrom, s.token_eq, ih,
      tokensFrom]
    simp [pieces, Position.after_append]

theorem textOf_pieces (segments : List Segment) :
    Piece.textOf (segments.flatMap pieces) =
      segments.flatMap fun s => Piece.textOf s.gap ++ s.token.text := by
  simp [Piece.textOf, pieces, List.flatMap_assoc]

theorem exists_segments (pieces : List Piece) :
    ∃ (segments : List Segment) (last : List Piece),
      (∀ piece ∈ last, piece.isGap) ∧ segments.flatMap Segment.pieces ++ last = pieces := by
  induction pieces with
  | nil => exact ⟨[], [], by simp, rfl⟩
  | cons piece pieces ih =>
    obtain ⟨segments, last, between, rfl⟩ := ih
    cases token : piece.token? with
    | some read =>
      exact ⟨⟨[], piece, read.1, read.2, by simp, Piece.reads_iff.mpr token⟩ :: segments, last,
        between, rfl⟩
    | none =>
      have gap := Piece.isGap_iff.mpr token
      cases segments with
      | nil => exact ⟨[], piece :: last, by simpa [gap] using between, rfl⟩
      | cons s segments =>
        have wider : ∀ other ∈ piece :: s.gap, other.isGap := by
          simpa [gap] using s.between
        exact ⟨{ s with gap := piece :: s.gap, between := wider } :: segments, last, between, rfl⟩

/-- The first token of a sequence of pieces is found in one way. -/
theorem gap_unique {gap gap' behind behind' : List Piece} {token token' : Piece}
    (silent : ∀ piece ∈ gap, piece.token? = none) (silent' : ∀ piece ∈ gap', piece.token? = none)
    (reads : token.token? ≠ none) (reads' : token'.token? ≠ none)
    (same : gap ++ token :: behind = gap' ++ token' :: behind') :
    gap = gap' ∧ token = token' ∧ behind = behind' := by
  induction gap generalizing gap' with
  | nil =>
    cases gap' with
    | nil => simpa using same
    | cons piece gap' =>
      obtain ⟨rfl, -⟩ := List.cons.inj same
      exact absurd (silent' token List.mem_cons_self) reads
  | cons piece gap ih =>
    cases gap' with
    | nil =>
      obtain ⟨rfl, -⟩ := List.cons.inj same
      exact absurd (silent piece List.mem_cons_self) reads'
    | cons piece' gap' =>
      obtain ⟨rfl, tail⟩ := List.cons.inj same
      obtain ⟨rfl, rest⟩ := ih (fun other member => silent other (List.mem_cons_of_mem _ member))
        (fun other member => silent' other (List.mem_cons_of_mem _ member)) tail
      exact ⟨rfl, rest⟩

theorem token_ne_none (s : Segment) : s.token.token? ≠ none := by
  simp [s.token_eq]

theorem eq_of_pieces {s t : Segment} (gap : s.gap = t.gap) (token : s.token = t.token) : s = t := by
  have form : some (s.kind, s.lexeme) = some (t.kind, t.lexeme) := by
    rw [← s.token_eq, ← t.token_eq, token]
  cases s
  cases t
  cases gap
  cases token
  cases form
  rfl

theorem segments_unique {segments segments' : List Segment} {last last' : List Piece}
    (silent : ∀ piece ∈ last, piece.token? = none) (silent' : ∀ piece ∈ last', piece.token? = none)
    (same : segments.flatMap pieces ++ last = segments'.flatMap pieces ++ last') :
    segments = segments' ∧ last = last' := by
  induction segments generalizing segments' with
  | nil =>
    cases segments' with
    | nil => exact ⟨rfl, same⟩
    | cons s segments' =>
      -- a token cannot stand in the last gap
      have member : s.token ∈ last := by
        have : last = _ := same
        simp [this, pieces]
      exact absurd (silent _ member) s.token_ne_none
  | cons s segments ih =>
    cases segments' with
    | nil =>
      have member : s.token ∈ last' := by
        have : last' = _ := same.symm
        simp [this, pieces]
      exact absurd (silent' _ member) s.token_ne_none
    | cons s' segments' =>
      simp only [List.flatMap_cons, pieces, List.append_assoc, List.singleton_append] at same
      obtain ⟨gap, token, rest⟩ :=
        gap_unique s.silent s'.silent s.token_ne_none s'.token_ne_none same
      obtain ⟨rfl, rfl⟩ := ih rest
      exact ⟨by rw [eq_of_pieces gap token], rfl⟩

end Segment

/-- A source as `g₀ t₁ g₁ t₂ … tₙ gₙ` with tokens `tᵢ` and gaps `gᵢ`, where no
piece could end elsewhere. -/
structure Factorisation (source : List Char) where
  segments : List Segment
  last : List Piece
  between : ∀ piece ∈ last, piece.isGap
  whole : (segments.flatMap fun s => Piece.textOf s.gap ++ s.token.text) ++ Piece.textOf last =
    source
  fit : Piece.Fit (segments.flatMap Segment.pieces ++ last) []

namespace Factorisation
variable {source : List Char}

def pieces (f : Factorisation source) : List Piece := f.segments.flatMap Segment.pieces ++ f.last

def tokens (f : Factorisation source) : List Token := Segment.tokensFrom .start f.segments

def unknown (f : Factorisation source) : List UnknownCharacter := Piece.unknownFrom .start f.pieces

theorem silent (f : Factorisation source) : ∀ piece ∈ f.last, piece.token? = none :=
  fun piece member => Piece.isGap_iff.mp (f.between piece member)

theorem textOf_pieces (f : Factorisation source) : Piece.textOf f.pieces = source := by
  rw [pieces, Piece.textOf_append, Segment.textOf_pieces, f.whole]

theorem cut_eq (f : Factorisation source) : Piece.cut source = f.pieces :=
  (congrArg Piece.cut f.textOf_pieces).symm.trans (Piece.cut_unique f.fit)

theorem exists_factorisation (source : List Char) : Nonempty (Factorisation source) := by
  obtain ⟨segments, last, between, same⟩ := Segment.exists_segments (Piece.cut source)
  refine ⟨⟨segments, last, between, ?_, same ▸ Piece.fit_cut source⟩⟩
  rw [← Segment.textOf_pieces, ← Piece.textOf_append, same, Piece.textOf_cut]

theorem unique (f g : Factorisation source) : g = f := by
  have same : g.pieces = f.pieces := g.cut_eq.symm.trans f.cut_eq
  obtain ⟨segments, last⟩ := Segment.segments_unique g.silent f.silent same
  cases f
  cases g
  cases segments
  cases last
  rfl

theorem kind_ne_eof (f : Factorisation source) {token : Token} (member : token ∈ f.tokens) :
    token.kind ≠ .eof := by
  rw [tokens, ← Segment.tokensFrom_pieces f.segments f.silent] at member
  obtain ⟨piece, inside, reads⟩ := Piece.mem_tokensFrom member
  obtain ⟨following, fits⟩ := Piece.fits_of_mem f.fit inside
  exact fits.kind_ne_eof reads

/-- The unknown characters are those of the gaps, each with its line and column. -/
theorem unknown_split (f : Factorisation source) {u : UnknownCharacter} (member : u ∈ f.unknown) :
    ∃ before behind, f.pieces = before ++ .unknown u.char :: behind ∧
      u.position = .recount source (Piece.textOf before).length := by
  obtain ⟨before, behind, split, position⟩ := Piece.unknownFrom_split member
  refine ⟨before, behind, split, ?_⟩
  rw [position, ← f.textOf_pieces, split, Piece.textOf_append, Position.recount_append]

end Factorisation

/-- Scanning cuts a source into its tokens and the gaps between them, and notes
the unknown characters of the gaps. No other factorisation of the source exists. -/
theorem scanner_factorises (source : String) :
    ∃ f : Factorisation source.toList,
      (Scanner.start source).tokens =
        f.tokens ++ [.final (Position.start.after source.toList)] ∧
      (∀ token ∈ f.tokens, token.kind ≠ .eof) ∧
      (∀ s ∈ f.segments, s.lexeme = s.token.text ++ s.token.missingQuote) ∧
      (TokenFeed.after (Scanner.start source) (Scanner.start source).tokens.length).unknown =
        f.unknown ∧
      (∀ u ∈ f.unknown, ∃ before behind, f.pieces = before ++ .unknown u.char :: behind ∧
        u.position = .recount source.toList (Piece.textOf before).length) ∧
      ∀ g : Factorisation source.toList, g = f := by
  obtain ⟨f⟩ := Factorisation.exists_factorisation source.toList
  have upcoming : (Scanner.start source).upcoming = f.tokens := by
    rw [Scanner.upcoming, Scanner.start, f.cut_eq]
    exact Segment.tokensFrom_pieces f.segments f.silent .start
  have pending : (Scanner.start source).pending = f.unknown := by
    rw [Scanner.pending, Scanner.start, f.cut_eq]
    rfl
  refine ⟨f, ?_, fun token => f.kind_ne_eof, fun s _ => Piece.lexeme_eq s.token_eq, ?_,
    fun u => f.unknown_split, f.unique⟩
  · rw [Scanner.tokens_eq, upcoming]
    rfl
  · rw [Scanner.unknown_after _ (by simp [Scanner.tokens_eq]), pending]
    rfl

/-- A keyword, a comment with a quote in it, an unknown character, and a string that nothing
closes. -/
theorem scanner_factorises_open :
    let source := "print\tx1=12#\"\n$\"a#"
    ∃ f : Factorisation source.toList,
      f.segments.map (fun s => (String.ofList (Piece.textOf s.gap), String.ofList s.token.text)) =
        [("", "print"), ("\t", "x1"), ("", "="), ("", "12"), ("#\"", "\n"), ("$", "\"a#")] ∧
      f.last = [] ∧
      (Scanner.start source).tokens =
        [⟨.print, "print", ⟨1, 1⟩⟩, ⟨.identifier, "x1", ⟨1, 7⟩⟩, ⟨.assign, "=", ⟨1, 9⟩⟩,
          ⟨.number, "12", ⟨1, 10⟩⟩, ⟨.newline, "\n", ⟨1, 14⟩⟩, ⟨.string, "\"a#\"", ⟨2, 2⟩⟩,
          .final ⟨2, 5⟩] ∧
      (TokenFeed.after (Scanner.start source) 7).unknown = [⟨'$', ⟨2, 1⟩⟩] ∧
      ∀ g : Factorisation source.toList, g = f := by
  intro source
  obtain ⟨f, tokens, -, -, unknown, -, unique⟩ := scanner_factorises source
  let segments : List Segment :=
    [⟨[], .word ['p', 'r', 'i', 'n', 't'], .print, _, by decide, .keyword⟩,
      ⟨[.spacing '\t'], .word ['x', '1'], .identifier, _, by decide, .identifier (by decide)⟩,
      ⟨[], .symbol .assign '=', .assign, _, by decide, .sign _ _⟩,
      ⟨[], .number ['1', '2'], .number, _, by decide, .number _⟩,
      ⟨[.comment ['"']], .newline, .newline, _, by decide, .newline⟩,
      ⟨[.unknown '$'], .string ['a', '#'] false, .string, _, by decide, .string _ _⟩]
  let g : Factorisation source.toList := {
    segments
    last := []
    between := by simp
    whole := by decide
    fit := by
      simp [segments, Segment.pieces, Piece.Fit, Piece.Fits, blanks, signs, isOutside, Piece.text] }
  obtain rfl : g = f := unique g
  have count : (Scanner.start source).tokens.length = 7 := by
    rw [tokens]
    rfl
  refine ⟨g, rfl, rfl, ?_, ?_, unique⟩
  · rw [tokens]
    decide
  · rw [← count, unknown]
    decide

end IntScript

import IntScript.Token.Piece

/-! Every text falls into pieces in one way only. A cut is described without the
reader of pieces: each piece is of its class, and what follows cannot extend it.
Reading piece after piece finds the one cut there is. -/
namespace IntScript

/-- The blanks that may stand within a line. -/
def blanks : List Char := [' ', '\t', '\r', '\x0c', '\x0b']

/-- The signs that are tokens of their own, with the kinds of these tokens. -/
def signs : List (Char × TokenKind) :=
  [('=', .assign), ('+', .plus), ('-', .minus), ('*', .times), ('/', .divide), ('(', .lparen),
    (')', .rparen), (',', .comma), (':', .colon)]

/-- No piece begins with this character, so it stands outside the lexical grammar. -/
def isOutside (c : Char) : Bool :=
  c ∉ blanks && c ≠ '#' && !c.isDigit && !c.isAlpha && c ≠ '_' && c ≠ '"' && c ≠ '\n' &&
    c ∉ signs.map Prod.fst

theorem isSpacing_iff {c : Char} : isSpacing c ↔ c ∈ blanks := by
  simp [isSpacing, blanks, or_assoc]

theorem isWordStart_iff {c : Char} : isWordStart c ↔ c.isAlpha ∨ c = '_' := by
  simp [isWordStart]

theorem isWordChar_iff {c : Char} : isWordChar c ↔ c.isAlpha ∨ c.isDigit ∨ c = '_' := by
  rw [isWordChar, Bool.or_eq_true, isWordStart_iff, or_assoc, @or_comm (c = '_')]

theorem symbolKind?_iff {c : Char} {kind : TokenKind} :
    symbolKind? c = some kind ↔ (c, kind) ∈ signs := by
  constructor
  · intro found
    unfold symbolKind? at found
    split at found <;> cases found <;> decide
  · intro listed
    simp only [signs, List.mem_cons, List.not_mem_nil, or_false, Prod.mk.injEq] at listed
    rcases listed with ⟨rfl, rfl⟩ | ⟨rfl, rfl⟩ | ⟨rfl, rfl⟩ | ⟨rfl, rfl⟩ | ⟨rfl, rfl⟩ | ⟨rfl, rfl⟩ |
      ⟨rfl, rfl⟩ | ⟨rfl, rfl⟩ | ⟨rfl, rfl⟩ <;> rfl

theorem symbolKind?_eq_none {c : Char} : symbolKind? c = none ↔ c ∉ signs.map Prod.fst := by
  simp [Option.eq_none_iff_forall_ne_some, symbolKind?_iff]

/-- The characters outside are those that the reader of pieces finds no class for. -/
theorem isOutside_iff {c : Char} :
    isOutside c ↔ isSpacing c = false ∧ c ≠ '#' ∧ c.isDigit = false ∧ isWordStart c = false ∧
      c ≠ '"' ∧ c ≠ '\n' ∧ symbolKind? c = none := by
  simp only [isOutside, ← isSpacing_iff, ← symbolKind?_eq_none, isWordStart, Bool.and_eq_true,
    Bool.not_eq_true', decide_eq_true_eq, Bool.or_eq_false_iff, decide_eq_false_iff_not, ne_eq,
    Bool.not_eq_true, and_assoc]

theorem isSpacing_not_isWordChar {c : Char} (blank : isSpacing c) : isWordChar c = false := by
  simp only [isSpacing, Bool.or_eq_true, decide_eq_true_eq] at blank
  rcases blank with (((rfl | rfl) | rfl) | rfl) | rfl <;> decide

theorem isWordChar_apart {c : Char} (inside : isWordChar c) : isSpacing c = false ∧ c ≠ '#' := by
  constructor
  · refine Bool.eq_false_iff.mpr fun blank => ?_
    simp [isSpacing_not_isWordChar blank] at inside
  · rintro rfl
    exact absurd inside (by decide)

theorem isWordStart_not_isDigit {c : Char} (letter : isWordStart c) : c.isDigit = false := by
  refine Bool.eq_false_iff.mpr fun digit => ?_
  have below : c.toNat ≤ '9'.toNat := (Char.isDigit_iff_toNat.mp digit).2
  rcases Bool.or_eq_true_iff.mp letter with alpha | underscore
  · rcases Bool.or_eq_true_iff.mp alpha with upper | lower
    · have above : 'A'.val ≤ c.val := (of_decide_eq_true upper).1
      exact absurd (Nat.le_trans (UInt32.le_iff_toNat_le.mp above) below) (by decide)
    · have above : 'a'.val ≤ c.val := of_decide_eq_true (Bool.and_eq_true_iff.mp lower).1
      exact absurd (Nat.le_trans (UInt32.le_iff_toNat_le.mp above) below) (by decide)
  · rw [of_decide_eq_true underscore] at below
    exact absurd below (by decide)

theorem symbolKind?_apart {c : Char} {kind : TokenKind} (found : symbolKind? c = some kind) :
    isSpacing c = false ∧ c ≠ '#' ∧ c.isDigit = false ∧ isWordStart c = false ∧ c ≠ '"' ∧
      c ≠ '\n' := by
  unfold symbolKind? at found
  split at found
  case h_10 => contradiction
  all_goals decide

namespace Piece

/-- A piece may stand in front of `rest`. Comments reach up to the end of the
line, numbers and words reach as far as they can, and a string that is left open
reaches the end of the text. -/
def Fits : Piece → List Char → Prop
  | .spacing c, _ => c ∈ blanks
  | .comment body, rest => '\n' ∉ body ∧ ∀ c ∈ rest.head?, c = '\n'
  | .unknown c, _ => isOutside c
  | .number digits, rest =>
    digits ≠ [] ∧ (∀ c ∈ digits, c.isDigit) ∧ ∀ c ∈ rest.head?, c.isDigit = false
  | .word letters, rest =>
    (∃ c ∈ letters.head?, c.isAlpha ∨ c = '_') ∧
      (∀ c ∈ letters, c.isAlpha ∨ c.isDigit ∨ c = '_') ∧
      ∀ c ∈ rest.head?, ¬ (c.isAlpha ∨ c.isDigit ∨ c = '_')
  | .string body closed, rest => '"' ∉ body ∧ (closed = false → rest = [])
  | .newline, _ => True
  | .symbol kind c, _ => (c, kind) ∈ signs

theorem fits_spacing {c : Char} {rest : List Char} : (spacing c).Fits rest ↔ isSpacing c :=
  isSpacing_iff.symm

theorem fits_symbol {kind : TokenKind} {c : Char} {rest : List Char} :
    (symbol kind c).Fits rest ↔ symbolKind? c = some kind :=
  symbolKind?_iff.symm

theorem fits_word {letters rest : List Char} :
    (word letters).Fits rest ↔ (∃ c ∈ letters.head?, isWordStart c) ∧
      (∀ c ∈ letters, isWordChar c) ∧ ∀ c ∈ rest.head?, isWordChar c = false := by
  simp only [Fits, ← isWordStart_iff, ← isWordChar_iff, Bool.not_eq_true]

/-- What stands between tokens: blanks, comments and characters outside the lexical grammar. -/
def isGap : Piece → Bool
  | .spacing _ | .comment _ | .unknown _ => true
  | .number _ | .word _ | .string .. | .newline | .symbol .. => false

/-- The piece is a token of this kind with this lexeme. A word is an identifier unless it is the
keyword, and every string has both of its quotes. -/
inductive Reads : Piece → TokenKind → List Char → Prop where
  | number (digits : List Char) : Reads (.number digits) .number digits
  | keyword : Reads (.word ['p', 'r', 'i', 'n', 't']) .print ['p', 'r', 'i', 'n', 't']
  | identifier {letters : List Char} (other : letters ≠ ['p', 'r', 'i', 'n', 't']) :
      Reads (.word letters) .identifier letters
  | string (body : List Char) (closed : Bool) :
      Reads (.string body closed) .string ('"' :: (body ++ ['"']))
  | newline : Reads .newline .newline ['\n']
  | sign (kind : TokenKind) (c : Char) : Reads (.symbol kind c) kind [c]

theorem isGap_iff {piece : Piece} : piece.isGap ↔ piece.token? = none := by
  cases piece <;> simp [isGap, token?]

theorem reads_iff {piece : Piece} {kind : TokenKind} {lexeme : List Char} :
    piece.Reads kind lexeme ↔ piece.token? = some (kind, lexeme) := by
  constructor
  · rintro (_ | _ | other | _ | _ | _)
    case identifier => rw [token?, wordKind, if_neg other]
    all_goals rfl
  · intro token
    cases piece with
    | word letters =>
      by_cases keyword : letters = ['p', 'r', 'i', 'n', 't']
      · subst keyword
        cases token
        exact .keyword
      · rw [token?, wordKind, if_neg keyword] at token
        cases token
        exact .identifier keyword
    | spacing | comment | unknown => cases token
    | number digits =>
      cases token
      exact .number lexeme
    | string body closed =>
      cases token
      exact .string body closed
    | newline =>
      cases token
      exact .newline
    | symbol kind c =>
      cases token
      exact .sign kind c

theorem Fits.kind_ne_eof {piece : Piece} {rest lexeme : List Char} {kind : TokenKind}
    (fits : piece.Fits rest) (token : piece.token? = some (kind, lexeme)) : kind ≠ .eof := by
  cases piece with
  | symbol found c =>
    cases token
    exact fun eof => symbolKind?_ne_eof c (eof ▸ fits_symbol.mp fits)
  | word letters =>
    cases token
    exact wordKind_ne_eof _
  | _ => cases token <;> decide

theorem takeWhile_eq_iff {p : Char → Bool} {run rest : List Char} :
    (run ++ rest).takeWhile p = run ↔
      (∀ c ∈ run, p c) ∧ ∀ c ∈ rest.head?, p c = false := by
  induction run with
  | nil =>
    cases rest with
    | nil => simp
    | cons c rest => simp [List.takeWhile_cons]
  | cons c run ih =>
    by_cases inside : p c
    · simp [inside, ih]
    · simp [inside]

theorem takeWhile_maximal (p : Char → Bool) (text : List Char) :
    (∀ c ∈ text.takeWhile p, p c) ∧
      ∀ c ∈ (text.drop (text.takeWhile p).length).head?, p c = false := by
  have whole := List.prefix_iff_eq_append.mp (List.takeWhile_prefix (l := text) p)
  exact takeWhile_eq_iff.mp (by rw [whole])

theorem first_fits (c : Char) (cs : List Char) :
    (first c cs).Fits ((c :: cs).drop (first c cs).text.length) := by
  unfold first
  repeat' split
  · next blank => exact fits_spacing.mpr blank
  · obtain ⟨inside, boundary⟩ := takeWhile_maximal (· ≠ '\n') cs
    simp only [decide_eq_true_eq, decide_eq_false_iff_not, Decidable.not_not, ne_eq]
      at inside boundary
    exact ⟨fun feed => inside _ feed rfl, boundary⟩
  · next digit =>
    obtain ⟨inside, boundary⟩ := takeWhile_maximal Char.isDigit cs
    exact ⟨by simp, by simpa [digit] using inside, boundary⟩
  · next letter =>
    obtain ⟨inside, boundary⟩ := takeWhile_maximal isWordChar cs
    exact fits_word.mpr
      ⟨⟨c, rfl, letter⟩, by simpa [isWordChar, letter] using inside, boundary⟩
  · obtain ⟨inside, -⟩ := takeWhile_maximal (· ≠ '"') cs
    simp only [decide_eq_true_eq] at inside
    refine ⟨fun quote => inside _ quote rfl, ?_⟩
    intro unclosed
    have all : cs.takeWhile (· ≠ '"') = cs := by
      simp only [List.contains_eq_mem, decide_eq_false_iff_not] at unclosed
      have run : (cs ++ []).takeWhile (· ≠ '"') = cs :=
        takeWhile_eq_iff.mpr
          ⟨fun d member => decide_eq_true fun quote => unclosed (quote ▸ member), by simp⟩
      rwa [List.append_nil] at run
    rw [all, unclosed]
    simp [text]
  · trivial
  · next found => exact fits_symbol.mpr found
  · next blank hash digit letter quote feed none => exact isOutside_iff.mpr (by simp [*])

/-- A piece that fits is the one that is read. -/
theorem first_of_fits {piece : Piece} {rest : List Char} (fits : piece.Fits rest) :
    ∃ c cs, piece.text ++ rest = c :: cs ∧ first c cs = piece := by
  cases piece with
  | spacing c =>
    have blank : isSpacing c = true := fits_spacing.mp fits
    exact ⟨c, rest, rfl, by simp [first, blank]⟩
  | comment body =>
    obtain ⟨inside, boundary⟩ := fits
    have run : (body ++ rest).takeWhile (· ≠ '\n') = body := by
      refine takeWhile_eq_iff.mpr ⟨?_, ?_⟩
      · intro c member
        exact decide_eq_true fun feed => inside (feed ▸ member)
      · intro c head
        simp [boundary c head]
    refine ⟨'#', body ++ rest, rfl, ?_⟩
    rw [first, if_neg (by decide), if_pos rfl, run]
  | unknown c =>
    have outside := isOutside_iff.mp fits
    refine ⟨c, rest, rfl, ?_⟩
    simp [first, outside]
  | number digits =>
    obtain ⟨nonempty, inside, boundary⟩ := fits
    obtain ⟨c, digits, rfl⟩ := List.exists_cons_of_ne_nil nonempty
    have digit : c.isDigit = true := inside c List.mem_cons_self
    obtain ⟨blank, hash⟩ := isWordChar_apart (c := c) (by simp [isWordChar, digit])
    have run : (digits ++ rest).takeWhile Char.isDigit = digits :=
      takeWhile_eq_iff.mpr ⟨fun d member => inside d (List.mem_cons_of_mem _ member), boundary⟩
    exact ⟨c, digits ++ rest, rfl, by simp [first, blank, hash, digit, run]⟩
  | word letters =>
    obtain ⟨⟨c, head, letter⟩, inside, boundary⟩ := fits_word.mp fits
    obtain ⟨letters, rfl⟩ := List.head?_eq_some_iff.mp head
    obtain ⟨blank, hash⟩ := isWordChar_apart (inside c List.mem_cons_self)
    have digit := isWordStart_not_isDigit letter
    have run : (letters ++ rest).takeWhile isWordChar = letters :=
      takeWhile_eq_iff.mpr ⟨fun d member => inside d (List.mem_cons_of_mem _ member), boundary⟩
    exact ⟨c, letters ++ rest, rfl, by simp [first, blank, hash, digit, letter, run]⟩
  | string body closed =>
    obtain ⟨inside, reaches⟩ := fits
    have quoteless : ∀ c ∈ body, decide (c ≠ '"') = true :=
      fun c member => decide_eq_true fun quote => inside (quote ▸ member)
    cases closed with
    | true =>
      have run : (body ++ ('"' :: rest)).takeWhile (· ≠ '"') = body :=
        takeWhile_eq_iff.mpr ⟨quoteless, by simp⟩
      refine ⟨'"', body ++ ('"' :: rest), by simp [text], ?_⟩
      -- a quote is none of the first four classes of characters that `first` tries
      rw [first, if_neg (by decide), if_neg (by decide), if_neg (by decide), if_neg (by decide),
        if_pos rfl, run]
      simp
    | false =>
      have run : (body ++ []).takeWhile (· ≠ '"') = body :=
        takeWhile_eq_iff.mpr ⟨quoteless, by simp⟩
      refine ⟨'"', body ++ [], by simp [text, reaches], ?_⟩
      rw [first, if_neg (by decide), if_neg (by decide), if_neg (by decide), if_neg (by decide),
        if_pos rfl, run]
      simp [inside]
  | newline => exact ⟨'\n', rest, rfl, rfl⟩
  | symbol kind c =>
    have found : symbolKind? c = some kind := fits_symbol.mp fits
    obtain ⟨blank, hash, digit, letter, quote, feed⟩ := symbolKind?_apart found
    exact ⟨c, rest, rfl, by simp [first, blank, hash, digit, letter, quote, feed, found]⟩

/-- The characters that pieces take up in the source, one after the other. -/
def textOf (pieces : List Piece) : List Char := pieces.flatMap text

@[simp] theorem textOf_nil : textOf [] = [] := rfl

@[simp] theorem textOf_cons (piece : Piece) (pieces : List Piece) :
    textOf (piece :: pieces) = piece.text ++ textOf pieces := rfl

@[simp] theorem textOf_append (first second : List Piece) :
    textOf (first ++ second) = textOf first ++ textOf second :=
  List.flatMap_append

/-- The pieces may stand one after the other in front of `rest`. -/
def Fit : List Piece → List Char → Prop
  | [], _ => True
  | piece :: pieces, rest => piece.Fits (textOf pieces ++ rest) ∧ Fit pieces rest

theorem fit_append {first second : List Piece} {rest : List Char} :
    Fit (first ++ second) rest ↔ Fit first (textOf second ++ rest) ∧ Fit second rest := by
  induction first with
  | nil => simp [Fit]
  | cons piece first ih => simp [Fit, ih, and_assoc]

theorem fits_of_mem {piece : Piece} {pieces : List Piece} {rest : List Char}
    (fit : Fit pieces rest) (member : piece ∈ pieces) : ∃ following, piece.Fits following := by
  obtain ⟨before, behind, rfl⟩ := List.append_of_mem member
  exact ⟨_, (fit_append.mp fit).2.1⟩

/-- The pieces of a text, read from the left. -/
def cut : List Char → List Piece
  | [] => []
  | c :: cs => first c cs :: cut ((c :: cs).drop (first c cs).text.length)
termination_by text => text.length
decreasing_by
  have := first_text_length_pos c cs
  simp only [List.length_drop, List.length_cons]
  omega

theorem textOf_cut (text : List Char) : textOf (cut text) = text := by
  fun_induction cut text with
  | case1 => rfl
  | case2 c cs ih => rw [textOf_cons, ih, first_text_append_drop]

theorem fit_cut (text : List Char) : Fit (cut text) [] := by
  fun_induction cut text with
  | case1 => trivial
  | case2 c cs ih =>
    refine ⟨?_, ih⟩
    rw [textOf_cut, List.append_nil]
    exact first_fits c cs

/-- Pieces that may stand in front of a text are what is read there first. -/
theorem cut_append {pieces : List Piece} {rest : List Char} (fit : Fit pieces rest) :
    cut (textOf pieces ++ rest) = pieces ++ cut rest := by
  induction pieces with
  | nil => rfl
  | cons piece pieces ih =>
    obtain ⟨c, cs, front, read⟩ := first_of_fits fit.1
    have behind : (c :: cs).drop piece.text.length = textOf pieces ++ rest := by
      rw [← front, List.drop_left]
    rw [textOf_cons, List.append_assoc, front, cut, read, behind, ih fit.2, List.cons_append]

theorem cut_unique {pieces : List Piece} (fit : Fit pieces []) : cut (textOf pieces) = pieces := by
  simpa [cut] using cut_append fit

end Piece
end IntScript

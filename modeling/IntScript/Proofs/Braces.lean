import IntScript.Proofs.Filling
import IntScript.Proofs.ReadingSoundness
import Mathlib.Data.List.DropRight
import Mathlib.Data.List.Infix

/-! Braces in the parts of a template. Numbers, quoted spellings and what a text is laid out
to have none, as long as the text has none and the layout has as many opening as closing
braces. -/
namespace IntScript.Text

/-- Number of opening braces. -/
def opens (text : List Char) : Nat := text.count '\x7b'

/-- Number of closing braces. -/
def closes (text : List Char) : Nat := text.count '\x7d'

@[simp] theorem opens_nil : opens [] = 0 := rfl

@[simp] theorem closes_nil : closes [] = 0 := rfl

@[simp] theorem opens_cons (c : Char) (text : List Char) :
    opens (c :: text) = opens text + if c = '\x7b' then 1 else 0 := by
  simp only [opens, List.count_cons, beq_iff_eq]

@[simp] theorem closes_cons (c : Char) (text : List Char) :
    closes (c :: text) = closes text + if c = '\x7d' then 1 else 0 := by
  simp only [closes, List.count_cons, beq_iff_eq]

@[simp] theorem opens_append (first second : List Char) :
    opens (first ++ second) = opens first + opens second := List.count_append

@[simp] theorem closes_append (first second : List Char) :
    closes (first ++ second) = closes first + closes second := List.count_append

theorem isPlain_iff_forall {text : List Char} :
    isPlain text = true ↔ ∀ c ∈ text, c ≠ '\x7b' ∧ c ≠ '\x7d' := by
  simp [isPlain]

theorem isPlain_iff {text : List Char} :
    isPlain text = true ↔ opens text = 0 ∧ closes text = 0 := by
  rw [isPlain_iff_forall, opens, closes, List.count_eq_zero, List.count_eq_zero]
  constructor
  · intro plain
    exact ⟨fun member => (plain _ member).1 rfl, fun member => (plain _ member).2 rfl⟩
  · rintro ⟨noOpen, noClose⟩ c member
    exact ⟨fun same => noOpen (same ▸ member), fun same => noClose (same ▸ member)⟩

theorem isPlain_singleton {c : Char} : isPlain [c] = true ↔ c ≠ '\x7b' ∧ c ≠ '\x7d' := by
  simp [isPlain]

@[simp] theorem isPlain_append {first second : List Char} :
    isPlain (first ++ second) = true ↔ isPlain first = true ∧ isPlain second = true := by
  simp only [isPlain, List.all_append, Bool.and_eq_true]

theorem isPlain_cons_iff {c : Char} {text : List Char} :
    isPlain (c :: text) = true ↔ isPlain [c] = true ∧ isPlain text = true :=
  @isPlain_append [c] text

theorem isPlain_of_subset {part whole : List Char} (plain : isPlain whole = true)
    (inside : part ⊆ whole) : isPlain part = true :=
  isPlain_iff_forall.mpr fun c member => isPlain_iff_forall.mp plain c (inside member)

/-! Numbers and quoted spellings have no braces of their own. -/

theorem isPlain_takeWhile_isDecimal (text : List Char) :
    isPlain (text.takeWhile isDecimal) = true := by
  rw [isPlain_iff_forall]
  intro c member
  have decimal := List.mem_takeWhile_imp member
  constructor
  · rintro rfl
    exact absurd decimal (by decide)
  · rintro rfl
    exact absurd decimal (by decide)

/-- The text goes on with the rest behind characters of which none is a brace. -/
def GoesOn (text rest : List Char) : Prop := ∃ front, text = front ++ rest ∧ isPlain front = true

theorem GoesOn.refl (text : List Char) : GoesOn text text := ⟨[], rfl, rfl⟩

theorem GoesOn.trans {first second third : List Char} (front : GoesOn first second)
    (behind : GoesOn second third) : GoesOn first third := by
  obtain ⟨before, rfl, plain⟩ := front
  obtain ⟨between, rfl, plain'⟩ := behind
  exact ⟨before ++ between, by rw [List.append_assoc], isPlain_append.mpr ⟨plain, plain'⟩⟩

theorem GoesOn.cons {c : Char} {text rest : List Char} (goesOn : GoesOn text rest)
    (plain : isPlain [c] = true) : GoesOn (c :: text) rest := by
  obtain ⟨front, rfl, inFront⟩ := goesOn
  exact ⟨c :: front, rfl, isPlain_cons_iff.mpr ⟨plain, inFront⟩⟩

theorem GoesOn.isPlain {text rest : List Char} (goesOn : GoesOn text rest)
    (plain : isPlain rest = true) : isPlain text = true := by
  obtain ⟨front, rfl, inFront⟩ := goesOn
  exact isPlain_append.mpr ⟨inFront, plain⟩

theorem leadingNumber_goesOn {text rest : List Char} {number : Option Nat}
    (read : leadingNumber text = (number, rest)) : GoesOn text rest := by
  unfold leadingNumber at read
  split at read
  · cases read
    exact .refl text
  · cases read
    refine ⟨text.takeWhile isDecimal, ?_, isPlain_takeWhile_isDecimal text⟩
    exact (List.prefix_iff_eq_append.mp (List.takeWhile_prefix isDecimal)).symm

theorem isPlain_digitChar : ∀ n < 16, isPlain [Nat.digitChar n] = true := by decide

theorem isPlain_toDigits (n : Nat) : isPlain (Nat.toDigits 16 n) = true := by
  induction n using Nat.strong_induction_on with
  | _ n ih =>
    rw [Nat.toDigits_eq_if (by decide)]
    split
    · next small => exact isPlain_digitChar n small
    · exact isPlain_append.mpr ⟨ih _ (by omega), isPlain_digitChar _ (by omega)⟩

theorem isPlain_codeEscape (c : Char) : isPlain (codeEscape c) = true := by
  have padded (width : Nat) : isPlain (hexadecimal width c.toNat) = true := by
    refine isPlain_append.mpr ⟨?_, isPlain_toDigits _⟩
    rw [isPlain_iff_forall]
    intro zero member
    rw [List.eq_of_mem_replicate member]
    decide
  have marked (mark : Char) (width : Nat) (plain : isPlain [mark] = true) :
      isPlain ('\\' :: mark :: hexadecimal width c.toNat) = true :=
    isPlain_cons_iff.mpr ⟨by decide, isPlain_cons_iff.mpr ⟨plain, padded width⟩⟩
  simp only [codeEscape]
  split_ifs
  · exact marked 'x' 2 (by decide)
  · exact marked 'u' 4 (by decide)
  · exact marked 'U' 8 (by decide)

theorem isPlain_flatMap {text : List Char} {spell : Char → List Char}
    (spelled : ∀ c ∈ text, isPlain (spell c) = true) : isPlain (text.flatMap spell) = true := by
  rw [isPlain_iff_forall]
  intro c member
  obtain ⟨d, inside, found⟩ := List.mem_flatMap.mp member
  exact isPlain_iff_forall.mp (spelled d inside) c found

theorem isPlain_escape {mark c : Char} (plain : isPlain [c] = true) :
    isPlain (escape mark c) = true := by
  unfold escape
  split_ifs
  · exact isPlain_cons_iff.mpr ⟨by decide, plain⟩
  · decide
  · decide
  · decide
  · exact isPlain_codeEscape c
  · exact plain

theorem isPlain_quotedChars {text : List Char} (plain : isPlain text = true) :
    isPlain (quotedChars text) = true := by
  have mark : isPlain [quoteMark text] = true := by
    unfold quoteMark
    split_ifs <;> decide
  refine isPlain_cons_iff.mpr ⟨mark, isPlain_append.mpr ⟨isPlain_flatMap ?_, mark⟩⟩
  intro c member
  exact isPlain_escape (isPlain_of_subset plain (by simpa using member))

theorem isPlain_quotedAsciiChars {text : List Char} (plain : isPlain text = true) :
    isPlain (quotedAsciiChars text) = true := by
  refine isPlain_flatMap fun c member => ?_
  split_ifs
  · exact isPlain_of_subset (isPlain_quotedChars plain) (by simpa using member)
  · exact isPlain_codeEscape c

namespace Layout

/-! A layout for text that has as many opening as closing braces has none. Of all that it may
be made of, only the fill character can be a brace, and that is one alone. -/

theorem takeSign_goesOn {text rest : List Char} {sign : Option Char}
    (taken : takeSign text = (sign, rest)) : GoesOn text rest := by
  unfold takeSign at taken
  split at taken
  · split_ifs at taken with signed
    · cases taken
      refine (GoesOn.refl rest).cons ?_
      rcases signed with rfl | rfl | rfl <;> decide
    · cases taken
      exact .refl _
  · cases taken
    exact .refl _

theorem takeFlag_goesOn {flag : Char} {text rest : List Char} {found : Bool}
    (plain : isPlain [flag] = true) (taken : takeFlag flag text = (found, rest)) :
    GoesOn text rest := by
  unfold takeFlag at taken
  split at taken
  · split_ifs at taken with same
    · cases taken
      exact (GoesOn.refl rest).cons (same ▸ plain)
    · cases taken
      exact .refl _
  · cases taken
    exact .refl _

theorem readCount_goesOn {text rest : List Char} {count : Option Nat}
    (read : readCount text = .ok (count, rest)) : GoesOn text rest := by
  unfold readCount at read
  split at read
  · next n behind found =>
    split_ifs at read
    cases read
    exact leadingNumber_goesOn found
  · next behind found =>
    cases read
    exact leadingNumber_goesOn found

theorem readSeparator_goesOn {text rest : List Char} {separator : Option Char}
    (read : readSeparator text = .ok (separator, rest)) : GoesOn text rest := by
  unfold readSeparator at read
  split at read
  · cases read
  · cases read
  · cases read
    exact (GoesOn.refl rest).cons (by decide)
  · cases read
    exact (GoesOn.refl rest).cons (by decide)
  · cases read
    exact .refl _

theorem readPrecision_goesOn {text rest : List Char} {precision : Option Nat}
    (read : readPrecision text = .ok (precision, rest)) : GoesOn text rest := by
  unfold readPrecision at read
  split at read
  · obtain ⟨⟨count, after⟩, counted, read⟩ := bind_returns read
    cases count with
    | none => cases read
    | some n =>
      cases read
      exact (readCount_goesOn counted).cons (by decide)
  · cases read
    exact .refl _

theorem isPlain_ofMark? {c : Char} {align : Alignment}
    (found : Alignment.ofMark? c = some align) : isPlain [c] = true := by
  unfold Alignment.ofMark? at found
  split at found <;> first | decide | cases found

/-- The fill character stands in front of all else. -/
theorem readAlignment_goesOn {text rest : List Char} {fill : Option Char}
    {align : Option Alignment} (read : readAlignment text = (fill, align, rest)) :
    ∃ behind, text = fill.toList ++ behind ∧ GoesOn behind rest := by
  unfold readAlignment at read
  split at read
  · split at read
    · next marked =>
      cases read
      exact ⟨_, rfl, (GoesOn.refl rest).cons (isPlain_ofMark? marked)⟩
    · next marked =>
      cases read
      exact ⟨_, rfl, (GoesOn.refl _).cons (isPlain_ofMark? marked)⟩
    · cases read
      exact ⟨_, rfl, .refl _⟩
  · split at read
    · next marked =>
      cases read
      exact ⟨_, rfl, (GoesOn.refl _).cons (isPlain_ofMark? marked)⟩
    · cases read
      exact ⟨_, rfl, .refl _⟩
  · cases read
    exact ⟨_, rfl, .refl _⟩

/-- The characters of a layout behind the fill have no brace, but for the kind at the end. -/
theorem read_goesOn {text : List Char} {l : Layout} (read : Layout.read text = .ok l) :
    ∃ (fill : Option Char) (behind rest : List Char), text = fill.toList ++ behind ∧
      GoesOn behind rest ∧ (rest = [] ∨ rest = [l.kind]) ∧
      (fill = some l.fill ∨ fill = none ∧ isPlain [l.fill] = true) := by
  unfold Layout.read at read
  rcases aligned : readAlignment text with ⟨fill, align, rest⟩
  rcases signed : takeSign rest with ⟨sign, rest₁⟩
  rcases flagged : takeFlag 'z' rest₁ with ⟨unsignedZero, rest₂⟩
  rcases flagged' : takeFlag '#' rest₂ with ⟨alternate, rest₃⟩
  rcases zeroed : (if fill.isNone then takeFlag '0' rest₃ else (false, rest₃)) with ⟨zeros, rest₄⟩
  simp only [aligned, signed, flagged, flagged', zeroed] at read
  obtain ⟨⟨width, rest₅⟩, counted, read⟩ := bind_returns read
  obtain ⟨⟨separator, rest₆⟩, separated, read⟩ := bind_returns read
  obtain ⟨⟨precision, rest₇⟩, precise, read⟩ := bind_returns read
  have ending : (rest₇ = [] ∨ rest₇ = [l.kind]) ∧
      l.fill = fill.getD (if zeros then '0' else ' ') := by
    dsimp only at read
    split at read
    · obtain ⟨kind, -, read⟩ := bind_returns read
      split at read
      · split at read
        · cases read
        · cases read
          exact ⟨.inl rfl, rfl⟩
      · cases read
        exact ⟨.inl rfl, rfl⟩
    · obtain ⟨kind, same, read⟩ := bind_returns read
      cases same
      split at read
      · split at read
        · cases read
        · cases read
          exact ⟨.inr rfl, rfl⟩
      · cases read
        exact ⟨.inr rfl, rfl⟩
    · cases read
  obtain ⟨behind, whole, fits⟩ := readAlignment_goesOn aligned
  have zero : GoesOn rest₃ rest₄ := by
    split_ifs at zeroed
    · exact takeFlag_goesOn (by decide) zeroed
    · cases zeroed
      exact .refl _
  have upTo : GoesOn behind rest₇ :=
    ((((((fits.trans (takeSign_goesOn signed)).trans (takeFlag_goesOn (by decide) flagged)).trans
      (takeFlag_goesOn (by decide) flagged')).trans zero).trans (readCount_goesOn counted)).trans
      (readSeparator_goesOn separated)).trans (readPrecision_goesOn precise)
  refine ⟨fill, behind, rest₇, whole, upTo, ending.1, ?_⟩
  rw [ending.2]
  cases fill with
  | some c => exact .inl rfl
  | none =>
    right
    cases zeros <;> exact ⟨rfl, by decide⟩

/-- A layout for text with as many opening as closing braces fills up with no brace. -/
theorem isPlain_fill {text : List Char} {l : Layout} (read : Layout.read text = .ok l)
    (kind : l.kind = 's') (even : opens text = closes text) : isPlain [l.fill] = true := by
  obtain ⟨fill, behind, rest, rfl, goesOn, last, filled⟩ := read_goesOn read
  rcases filled with rfl | ⟨-, plain⟩
  · have lastPlain : isPlain rest = true := by
      rcases last with rfl | rfl
      · rfl
      · rw [kind]
        decide
    obtain ⟨noOpen, noClose⟩ := isPlain_iff.mp (goesOn.isPlain lastPlain)
    -- a brace at the front would be the only one
    rw [isPlain_iff]
    simp only [Option.toList_some, opens_append, closes_append, opens_cons, closes_cons, opens_nil,
      closes_nil, noOpen, noClose] at even ⊢
    by_cases opening : l.fill = '\x7b'
    · rw [opening] at even
      exact absurd even (by decide)
    by_cases closing : l.fill = '\x7d'
    · rw [closing] at even
      exact absurd even (by decide)
    · simp only [opening, closing, if_false, and_self]
  · exact plain

theorem isPlain_place {l : Layout} {text : List Char} (fill : isPlain [l.fill] = true)
    (plain : isPlain text = true) : isPlain (l.place text) = true := by
  have padded (count : Nat) : isPlain (List.replicate count l.fill) = true := by
    refine isPlain_of_subset fill fun c member => ?_
    rw [List.eq_of_mem_replicate member]
    exact List.mem_cons_self
  have shown : isPlain (l.precision.elim text text.take) = true := by
    cases l.precision with
    | none => exact plain
    | some count => exact isPlain_of_subset plain (List.take_subset count text)
  exact isPlain_append.mpr ⟨isPlain_append.mpr ⟨padded _, shown⟩, padded _⟩

end Layout

theorem isPlain_laidOut {layout text shown : List Char}
    (laid : laidOut layout text = .ok shown) (even : opens layout = closes layout)
    (plain : isPlain text = true) : isPlain shown = true := by
  unfold laidOut at laid
  split at laid
  · cases laid
    exact plain
  · obtain ⟨l, read, laid⟩ := bind_returns laid
    obtain ⟨_, checked, laid⟩ := bind_returns laid
    have kind : l.kind = 's' := by
      unfold Layout.checkText at checked
      split at checked
      · cases checked
      · next same => exact not_not.mp same
    cases laid
    exact Layout.isPlain_place (Layout.isPlain_fill read kind even) plain

end IntScript.Text

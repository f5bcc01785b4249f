import IntScript.Proofs.Braces

/-! What becomes of the braces of a template. A doubled brace leaves one brace behind, and a
field that can be filled takes up as many opening as closing braces and shows none, as long
as the values have none and nothing of the host is shown. So a filled template has at most half
of its braces left, and no template with a brace in it comes out as it was. -/
namespace IntScript.Text

/-- Attributes of a host that has none. -/
def noAttributes : Attributes := fun _ _ => .error ⟨"", ""⟩

namespace Reached

/-- A text without braces. -/
def IsPlain : Reached → Prop
  | .text chars => isPlain chars = true
  | .object _ => False

theorem isPlain_laidOut {value : Reached} {layout shown : List Char} (plain : value.IsPlain)
    (laid : value.laidOut layout = .ok shown) (even : opens layout = closes layout) :
    isPlain shown = true := by
  cases value with
  | object found => exact plain.elim
  | text chars =>
    rw [Reached.laidOut] at laid
    cases made : Text.laidOut layout chars with
    | error e =>
      rw [made] at laid
      cases laid
    | ok shown' =>
      rw [made] at laid
      cases laid
      exact Text.isPlain_laidOut made even plain

end Reached

namespace Field

theorem splitName_append (bracketed : Bool) (text : List Char) :
    (splitName bracketed text).1 ++ (splitName bracketed text).2 = text := by
  induction text generalizing bracketed with
  | nil => rfl
  | cons c rest ih =>
    rw [splitName]
    split
    · rfl
    · exact congrArg (c :: ·) (ih _)

/-- A layout closes the braces it opens, and those open in front of it. -/
theorem splitLayout_eq {inner : Nat} {text layout rest : List Char} {c : Char}
    (split : splitLayout inner text = (layout, c :: rest)) :
    text = layout ++ '\x7d' :: rest ∧ inner + opens layout = closes layout := by
  induction text generalizing inner layout with
  | nil => cases split
  | cons d text ih =>
    rw [splitLayout] at split
    split at split
    · next ends =>
      cases split
      exact ⟨by rw [ends.1]; rfl, by rw [ends.2]; rfl⟩
    · next further =>
      rcases inside : splitLayout (if d = '\x7b' then inner + 1 else
        if d = '\x7d' then inner - 1 else inner) text with ⟨front, behind⟩
      simp only [inside] at split
      cases split
      obtain ⟨rfl, count⟩ := ih inside
      refine ⟨rfl, ?_⟩
      rw [opens_cons, closes_cons]
      by_cases opening : d = '\x7b'
      · have other : d ≠ '\x7d' := by rw [opening]; decide
        rw [if_pos opening] at count
        rw [if_pos opening, if_neg other]
        omega
      by_cases closing : d = '\x7d'
      · have more : inner ≠ 0 := fun zero => further ⟨closing, zero⟩
        rw [if_neg opening, if_pos closing] at count ⊢
        omega
      · rw [if_neg opening, if_neg closing] at count ⊢
        omega

theorem readLayout_eq {field found : Field} {text after : List Char}
    (read : field.readLayout text = .ok (found, after)) :
    ∃ layout, found = { field with layout } ∧ text = layout ++ '\x7d' :: after ∧
      opens layout = closes layout := by
  unfold readLayout at read
  split at read
  · cases read
  · next layout c rest split =>
    cases read
    obtain ⟨whole, count⟩ := splitLayout_eq split
    exact ⟨layout, rfl, whole, by omega⟩

/-- Behind the conversion there may be a layout. -/
theorem readConversion_eq {field found : Field} {text after : List Char}
    (bare : field.layout = []) (read : field.readConversion text = .ok (found, after)) :
    ∃ c marks layout, found = { field with conversion := some c, layout } ∧
      text = c :: (marks ++ (layout ++ '\x7d' :: after)) ∧ isPlain marks = true ∧
      opens layout = closes layout := by
  unfold readConversion at read
  split at read
  · cases read
  · cases read
  · next c rest =>
    cases read
    exact ⟨c, [], [], by rw [← bare], rfl, rfl, rfl⟩
  · next c rest =>
    obtain ⟨layout, rfl, rfl, even⟩ := readLayout_eq read
    exact ⟨c, [':'], layout, rfl, rfl, by decide, even⟩
  · cases read

/-- A field is its name, its layout and the closing brace, with marks in between that are no
braces, unless the conversion is one. -/
theorem read_eq {text after : List Char} {field : Field}
    (found : Field.read text = .ok (field, after)) :
    ∃ marks, text = field.name ++ (marks ++ (field.layout ++ '\x7d' :: after)) ∧
      opens field.layout = closes field.layout ∧
      ∀ c ∈ marks, isPlain [c] = true ∨ field.conversion = some c := by
  have whole := splitName_append false text
  unfold Field.read at found
  split at found
  · cases found
  · cases found
  · next name rest split =>
    cases found
    rw [split] at whole
    exact ⟨[], whole.symm, rfl, by simp⟩
  · next name rest split =>
    rw [split] at whole
    obtain ⟨layout, rfl, rfl, even⟩ := readLayout_eq found
    refine ⟨[':'], whole.symm, even, ?_⟩
    intro c member
    rw [List.mem_singleton.mp member]
    exact .inl (by decide)
  · next name mark rest opening closing colon split =>
    rw [split] at whole
    obtain ⟨c, marks, layout, rfl, rfl, plain, even⟩ := readConversion_eq rfl found
    refine ⟨mark :: c :: marks, whole.symm, even, ?_⟩
    intro d member
    rcases List.mem_cons.mp member with rfl | member
    · exact .inl (isPlain_singleton.mpr ⟨opening, closing⟩)
    rcases List.mem_cons.mp member with rfl | member
    · exact .inr rfl
    · exact .inl (isPlain_of_subset plain (by simpa using member))

/-- An index that can be read is made of digits. -/
theorem isPlain_of_index {text : List Char} {index : Nat}
    (read : readIndex text = .ok (some index)) : isPlain text = true := by
  unfold readIndex at read
  split at read
  · cases read
  · next n rest number =>
    split at read
    · cases read
    · split at read
      · next none =>
        rw [none] at number
        exact (leadingNumber_goesOn number).isPlain rfl
      · cases read

theorem isPlain_valueAt {values : List String} {index : Nat} {next last : Numbering}
    {value : List Char} (plain : ∀ value ∈ values, isPlain value.toList = true)
    (found : valueAt values index next = .ok (value, last)) : isPlain value = true := by
  unfold valueAt at found
  split at found
  · next text some =>
    cases found
    exact plain text (List.mem_of_getElem? some)
  · cases found

theorem isPlain_select {values : List String} {numbering next : Numbering}
    {first value : List Char} (plain : ∀ value ∈ values, isPlain value.toList = true)
    (selected : select values numbering first = .ok (value, next)) :
    isPlain first = true ∧ isPlain value = true := by
  unfold select at selected
  obtain ⟨index, read, selected⟩ := bind_returns selected
  split at selected
  · exact ⟨rfl, isPlain_valueAt plain selected⟩
  · exact ⟨rfl, isPlain_valueAt plain selected⟩
  · cases selected
  · cases selected
  · exact ⟨isPlain_of_index read, isPlain_valueAt plain selected⟩
  · cases selected

theorem isPlain_of_key {rest : List Char}
    (key : isPlain (rest.takeWhile (· ≠ ']')) = true)
    (behind : isPlain (rest.drop ((rest.takeWhile (· ≠ ']')).length + 1)) = true) :
    isPlain rest = true := by
  induction rest with
  | nil => rfl
  | cons c rest ih =>
    by_cases bracket : c = ']'
    · rw [List.takeWhile_cons_of_neg (by simpa using bracket)] at behind
      rw [bracket, isPlain_cons_iff]
      exact ⟨by decide, behind⟩
    · rw [List.takeWhile_cons_of_pos (by simpa using bracket)] at key behind
      rw [isPlain_cons_iff] at key ⊢
      exact ⟨key.1, ih key.2 behind⟩

theorem isPlain_follow {value steps : List Char} {reached : Reached} (plain : isPlain value = true)
    (followed : follow noAttributes value steps = .ok reached) :
    isPlain steps = true ∧ reached.IsPlain := by
  fun_induction follow noAttributes value steps with
  | case1 value =>
    cases followed
    exact ⟨rfl, plain⟩
  | case2 => cases followed
  | case3 => cases followed
  | case4 value rest key ih =>
    obtain ⟨index, read, followed⟩ := bind_returns followed
    cases index with
    | none => cases followed
    | some index =>
      dsimp only at followed
      split at followed
      · cases followed
      · next c present =>
        have char : isPlain [c] = true :=
          isPlain_of_subset plain (by simpa using List.mem_of_getElem? present)
        obtain ⟨behind, reached⟩ := ih c char followed
        refine ⟨?_, reached⟩
        rw [isPlain_cons_iff]
        exact ⟨by decide, isPlain_of_key (isPlain_of_index read) behind⟩
  | case5 => cases followed

theorem isPlain_convert {value converted : Reached} {conversion : Option Char}
    (plain : value.IsPlain) (made : convert value conversion = .ok converted) :
    (∀ c ∈ conversion, isPlain [c] = true) ∧ converted.IsPlain := by
  cases value with
  | object found => exact plain.elim
  | text chars =>
    unfold convert at made
    split at made
    · cases made
      exact ⟨by simp, plain⟩
    · cases made
      exact ⟨by simp; decide, plain⟩
    · cases made
      exact ⟨by simp; decide, plain⟩
    · cases made
      exact ⟨by simp; decide, isPlain_quotedChars plain⟩
    · cases made
      exact ⟨by simp; decide, isPlain_quotedAsciiChars plain⟩
    · cases made

/-- Nothing of a field has a brace but its layout, and the text to lay out has none. -/
structure PlainParts (field : Field) (converted : Reached) : Prop where
  name : isPlain field.name = true
  conversion : ∀ c ∈ field.conversion, isPlain [c] = true
  text : converted.IsPlain

theorem plainParts {values : List String} {numbering next : Numbering} {field : Field}
    {selected : List Char} {value converted : Reached}
    (plain : ∀ value ∈ values, isPlain value.toList = true)
    (selects : select values numbering (field.name.takeWhile (!endsStep ·)) = .ok (selected, next))
    (follows : follow noAttributes selected
      (field.name.drop (field.name.takeWhile (!endsStep ·)).length) = .ok value)
    (converts : convert value field.conversion = .ok converted) : field.PlainParts converted := by
  obtain ⟨firstPlain, selectedPlain⟩ := isPlain_select plain selects
  obtain ⟨stepsPlain, valuePlain⟩ := isPlain_follow selectedPlain follows
  obtain ⟨conversionPlain, convertedPlain⟩ := isPlain_convert valuePlain converts
  refine ⟨?_, conversionPlain, convertedPlain⟩
  rw [← List.take_append_drop (field.name.takeWhile (!endsStep ·)).length field.name,
    ← List.prefix_iff_eq_take.mp (List.takeWhile_prefix _)]
  exact isPlain_append.mpr ⟨firstPlain, stepsPlain⟩

end Field

/-- What filling does to the braces: a doubled one leaves one behind, and the fields spend as
many opening as closing ones and leave none. -/
def Thins (template filled : List Char) : Prop :=
  ∃ spent, opens template = 2 * opens filled + spent ∧ closes template = 2 * closes filled + spent

namespace Thins

theorem cons {c : Char} {template filled : List Char} (plain : isPlain [c] = true)
    (thins : Thins template filled) : Thins (c :: template) (c :: filled) := by
  obtain ⟨spent, opened, closed⟩ := thins
  obtain ⟨unopened, unclosed⟩ := isPlain_iff.mp plain
  rw [opens_cons, opens_nil] at unopened
  rw [closes_cons, closes_nil] at unclosed
  refine ⟨spent, ?_, ?_⟩
  · rw [opens_cons, opens_cons]
    omega
  · rw [closes_cons, closes_cons]
    omega

/-- A field leaves the text it shows in front of what the rest leaves, if its layout, once
filled, has as many opening as closing braces. -/
theorem field {field : Field} {converted : Reached} {rest after layout shown filled : List Char}
    (thins : Thins after filled) (found : Field.read rest = .ok (field, after))
    (parts : field.PlainParts converted)
    (even : opens field.layout = closes field.layout → opens layout = closes layout)
    (laid : converted.laidOut layout = .ok shown) :
    Thins ('\x7b' :: rest) (shown ++ filled) := by
  obtain ⟨named, converts, text⟩ := parts
  obtain ⟨marks, rfl, same, marked⟩ := Field.read_eq found
  have marksPlain : isPlain marks = true := by
    rw [isPlain_iff_forall]
    intro c member
    have charPlain : isPlain [c] = true := (marked c member).elim id (converts c)
    exact isPlain_singleton.mp charPlain
  have shownPlain := Reached.isPlain_laidOut text laid (even same)
  obtain ⟨spent, opened, closed⟩ := thins
  rw [isPlain_iff] at named marksPlain shownPlain
  have apart : '\x7d' ≠ '\x7b' := by decide
  refine ⟨spent + opens field.layout + 1, ?_, ?_⟩
  · simp only [opens_cons, opens_append, if_true, if_neg apart]
    omega
  · simp only [closes_cons, closes_append, if_true, if_neg apart.symm]
    omega

theorem even {template filled : List Char} (thins : Thins template filled)
    (same : opens template = closes template) : opens filled = closes filled := by
  obtain ⟨spent, opened, closed⟩ := thins
  omega

end Thins

section Fill

variable {values : List String} (plain : ∀ value ∈ values, isPlain value.toList = true)
include plain

theorem fillChars_thins
    {expand : Numbering → List Char → Except TemplateError (List Char × Numbering)}
    (expands : ∀ {numbering layout filled last},
      expand numbering layout = .ok (filled, last) → Thins layout filled)
    {numbering last : Numbering} {template filled : List Char}
    (done : fillChars noAttributes expand values numbering template = .ok (filled, last)) :
    Thins template filled := by
  fun_induction fillChars noAttributes expand values numbering template generalizing filled last with
  | case1 =>
    cases done
    exact ⟨0, rfl, rfl⟩
  | case2 numbering rest ih =>
    obtain ⟨⟨more, next⟩, filledRest, done⟩ := bind_returns done
    cases done
    obtain ⟨spent, opened, closed⟩ := ih filledRest
    refine ⟨spent, ?_, ?_⟩
    · simp [opened]; omega
    · simp [closed]
  | case3 numbering rest ih =>
    obtain ⟨⟨more, next⟩, filledRest, done⟩ := bind_returns done
    cases done
    obtain ⟨spent, opened, closed⟩ := ih filledRest
    refine ⟨spent, ?_, ?_⟩
    · simp [opened]
    · simp [closed]; omega
  | case4 => cases done
  | case5 => cases done
  | case6 => cases done
  | case7 numbering rest _ _ field after found _ first =>
    rename_i ih
    obtain ⟨⟨selected, next⟩, select, done⟩ := bind_returns done
    obtain ⟨value, follow, done⟩ := bind_returns done
    obtain ⟨converted, convert, done⟩ := bind_returns done
    have parts := Field.plainParts plain select follow convert
    dsimp only at done
    -- a layout with a field in it is filled first, any other is taken as it stands
    split at done
    · obtain ⟨⟨layout, next'⟩, expanded, done⟩ := bind_returns done
      obtain ⟨shown, laid, done⟩ := bind_returns done
      obtain ⟨⟨more, last⟩, filledRest, done⟩ := bind_returns done
      cases done
      exact (ih next' filledRest).field found parts (expands expanded).even laid
    · obtain ⟨⟨layout, next'⟩, same, done⟩ := bind_returns done
      cases same
      obtain ⟨shown, laid, done⟩ := bind_returns done
      obtain ⟨⟨more, last⟩, filledRest, done⟩ := bind_returns done
      cases done
      exact (ih next filledRest).field found parts id laid
  | case8 numbering c rest _ _ _ closing opening ih =>
    obtain ⟨⟨more, next⟩, filledRest, done⟩ := bind_returns done
    cases done
    exact (ih filledRest).cons (isPlain_singleton.mpr ⟨opening, closing⟩)

theorem fillNested_thins {depth : Nat} {numbering last : Numbering} {template filled : List Char}
    (done : fillNested noAttributes values depth numbering template = .ok (filled, last)) :
    Thins template filled := by
  induction depth generalizing numbering last template filled with
  | zero => cases done
  | succ depth ih => exact fillChars_thins plain ih done

theorem fill_thins {template filled : String}
    (done : fill noAttributes template values = .ok filled) :
    Thins template.toList filled.toList := by
  obtain ⟨⟨chars, last⟩, nested, done⟩ := bind_returns done
  cases done
  rw [String.toList_ofList]
  exact fillNested_thins plain nested

/-- A template with braces is not to be found in what it is filled to. -/
theorem fill_braced {template filled : String}
    (done : fill noAttributes template values = .ok filled)
    (braced : ¬ isPlain template.toList = true) : ¬ template.toList <:+: filled.toList := by
  intro inside
  obtain ⟨spent, opened, closed⟩ := fill_thins plain done
  have moreOpens : opens template.toList ≤ opens filled.toList := inside.sublist.count_le _
  have moreCloses : closes template.toList ≤ closes filled.toList := inside.sublist.count_le _
  apply braced
  rw [isPlain_iff]
  omega

end Fill

end IntScript.Text

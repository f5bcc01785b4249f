import IntScript.Text.Template

/-! Templates with one field. Text without braces is copied as it stands, an empty field
takes the next value, and the value is never read as a template itself. So filling a
template of one empty field cannot fail, whatever the value is. -/
namespace IntScript.Text

/-- No brace stands in the text. -/
def isPlain (text : List Char) : Bool := text.all fun c => c ≠ '\x7b' && c ≠ '\x7d'

theorem isPlain_cons {c : Char} {text : List Char} (plain : isPlain (c :: text)) :
    c ≠ '\x7b' ∧ c ≠ '\x7d' ∧ isPlain text := by
  simpa [isPlain, and_assoc] using plain

variable {attributes : Attributes}
  {expand : Numbering → List Char → Except TemplateError (List Char × Numbering)}

theorem fillChars_char (values : List String) (numbering : Numbering) {c : Char}
    (opens : c ≠ '\x7b') (closes : c ≠ '\x7d') (rest : List Char) :
    fillChars attributes expand values numbering (c :: rest) = (do
      let (filled, last) ← fillChars attributes expand values numbering rest
      return (c :: filled, last)) := by
  rw [fillChars]
  all_goals simp_all

theorem fillChars_plain (values : List String) {numbering last : Numbering}
    {text rest filled : List Char} (plain : isPlain text)
    (behind : fillChars attributes expand values numbering rest = .ok (filled, last)) :
    fillChars attributes expand values numbering (text ++ rest) = .ok (text ++ filled, last) := by
  induction text with
  | nil => exact behind
  | cons c text ih =>
    obtain ⟨opens, closes, plain⟩ := isPlain_cons plain
    rw [List.cons_append, fillChars_char values numbering opens closes, ih plain]
    rfl

theorem fillChars_plain_fails (values : List String) {numbering : Numbering}
    {text rest : List Char} {e : TemplateError} (plain : isPlain text)
    (behind : fillChars attributes expand values numbering rest = .error e) :
    fillChars attributes expand values numbering (text ++ rest) = .error e := by
  induction text with
  | nil => exact behind
  | cons c text ih =>
    obtain ⟨opens, closes, plain⟩ := isPlain_cons plain
    rw [List.cons_append, fillChars_char values numbering opens closes, ih plain]
    rfl

/-- The first empty field takes the first value as it is. -/
theorem fillChars_field (value : String) (values : List String) {last : Numbering}
    {rest filled : List Char}
    (behind : fillChars attributes expand (value :: values) (.automatic 1) rest =
      .ok (filled, last)) :
    fillChars attributes expand (value :: values) .undecided ('\x7b' :: '\x7d' :: rest) =
      .ok (value.toList ++ filled, last) := by
  have read : Field.read ('\x7d' :: rest) = .ok ({ name := [] }, rest) := rfl
  rw [fillChars]
  · split
    · next e failed =>
      rw [read] at failed
      cases failed
    · next field after found =>
      rw [read] at found
      cases found
      have selected : Field.select (value :: values) .undecided [] =
          .ok (value.toList, .automatic 1) := rfl
      have shown : (Reached.text value.toList).laidOut [] = .ok value.toList := rfl
      simp [selected, Field.follow, Field.convert, shown, behind, bind, Except.bind, pure,
        Except.pure]
  all_goals simp

/-- A template without fields. -/
theorem fill_plain (attributes : Attributes) {template : String} (values : List String)
    (plain : isPlain template.toList) :
    fill attributes template values = .ok template := by
  have last : fillChars attributes (fillNested attributes values 1) values .undecided [] =
      .ok ([], .undecided) := by
    rw [fillChars]
  have filled := fillChars_plain values plain last
  rw [List.append_nil] at filled
  rw [fill, fillNested, filled]
  exact congrArg Except.ok String.ofList_toList

/-- A template of one empty field between plain texts. -/
theorem fill_field (attributes : Attributes) {template before after : String} (value : String)
    (plainBefore : isPlain before.toList) (plainAfter : isPlain after.toList)
    (whole : template = before ++ "\x7b\x7d" ++ after) :
    fill attributes template [value] = .ok (before ++ value ++ after) := by
  have last : fillChars attributes (fillNested attributes [value] 1) [value] (.automatic 1) [] =
      .ok ([], .automatic 1) := by
    rw [fillChars]
  have behind := fillChars_plain [value] plainAfter last
  have filled := fillChars_plain [value] plainBefore (fillChars_field value [] behind)
  have chars : template.toList = before.toList ++ '\x7b' :: '\x7d' :: (after.toList ++ []) := by
    simp [whole]
  rw [fill, chars, fillNested, filled]
  refine congrArg Except.ok (String.toList_injective ?_)
  simp

end IntScript.Text

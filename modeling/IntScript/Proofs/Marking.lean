import IntScript.Proofs.Filling
import IntScript.Text.Host

/-! What a host may do to a text that it emphasises. Without colours the text stays as it is.
With colours there are escape sequences around it, which hang on the tint and not on the text. -/
namespace IntScript.Text

/-- A row of escape sequences. Each has numbers between an escape character with a bracket and
the letter that ends it. -/
inductive Escapes : List Char → Prop where
  | none : Escapes []
  | more (numbers others : List Char) (numeric : ∀ c ∈ numbers, c.isDigit ∨ c = ';')
      (row : Escapes others) : Escapes ('\x1b' :: '[' :: (numbers ++ 'm' :: others))

/-- No escape sequence has a brace. -/
theorem Escapes.isPlain {text : List Char} (escapes : Escapes text) : isPlain text := by
  induction escapes with
  | none => rfl
  | more numbers others numeric row ih =>
    have numbersPlain : ∀ c ∈ numbers, c ≠ '\x7b' ∧ c ≠ '\x7d' := by
      intro c member
      rcases numeric c member with digit | rfl
      · constructor <;> rintro rfl <;> exact absurd digit (by decide)
      · decide
    simp only [Text.isPlain, List.all_cons, List.all_append, List.all_eq_true, Bool.and_eq_true,
      decide_eq_true_eq] at ih ⊢
    exact ⟨by decide, by decide, numbersPlain, by decide, ih⟩

namespace Host

/-- Emphasis does not show. -/
def Colourless (host : Host) : Prop := ∀ text tint, host.emphasise text tint = text

/-- Emphasis shows as escape sequences around the text. -/
def Marks (host : Host) : Prop :=
  ∀ tint, ∃ before after : String, Escapes before.toList ∧ Escapes after.toList ∧
    ∀ text, host.emphasise text tint = before ++ text ++ after

theorem Colourless.marks {host : Host} (colourless : host.Colourless) : host.Marks := by
  intro tint
  refine ⟨"", "", .none, .none, fun text => ?_⟩
  rw [colourless text tint, String.empty_append, String.append_empty]

theorem Marks.isPlain_bold {host : Host} (marks : host.Marks) {text : String}
    (plain : isPlain text.toList) : isPlain (host.bold text).toList := by
  obtain ⟨before, after, front, back, around⟩ := marks none
  rw [bold, around, String.toList_append, String.toList_append]
  simp only [isPlain, List.all_append, Bool.and_eq_true]
  exact ⟨⟨front.isPlain, plain⟩, back.isPlain⟩

theorem colourless_plain : plain.Colourless := fun _ _ => rfl

theorem marks_terminal : terminal.Marks := by
  have bold : Escapes "\x1b[1m".toList := .more ['1'] [] (by simp) .none
  have reset : Escapes "\x1b[0m".toList := .more ['0'] [] (by simp) .none
  intro tint
  match tint with
  | none => exact ⟨"\x1b[1m", "\x1b[0m", bold, reset, fun text => rfl⟩
  | some .red =>
    refine ⟨"\x1b[1m\x1b[31m", "\x1b[0m", ?_, reset, fun text => rfl⟩
    exact .more ['1'] _ (by simp) (.more ['3', '1'] [] (by simp) .none)
  | some .magenta =>
    refine ⟨"\x1b[1m\x1b[35m", "\x1b[0m", ?_, reset, fun text => rfl⟩
    exact .more ['1'] _ (by simp) (.more ['3', '5'] [] (by simp) .none)

end Host
end IntScript.Text

import IntScript.Proofs.Joining
import IntScript.Proofs.PulledTokens

/-! What is read depends on the forms of the tokens, their kinds and lexemes. Where the forms are
the same, whatever stands between the tokens, the same program is read, or the token at the same
index is rejected for the same reason. -/
namespace IntScript

namespace Window
variable {σ τ : Type} [TokenFeed σ] [TokenFeed τ]

/-- From here on the windows show tokens of the same forms. -/
def Resembles (w : Window σ) (w' : Window τ) : Prop :=
  ∀ count, (w'.onward count).current.form = (w.onward count).current.form

namespace Resembles
variable {w v : Window σ} {w' : Window τ}

theorem advance (alike : w.Resembles w') : w.advance.Resembles w'.advance := by
  intro count
  rw [onward_advance, onward_advance]
  exact alike (count + 1)

theorem kind (alike : w.Resembles w') (count : Nat) :
    (w'.onward count).current.kind = (w.onward count).current.kind :=
  Token.kind_of_form (alike count)

theorem shows {tokens : List Token} (alike : w.Resembles w') (passed : w.Passes tokens v) :
    w'.Shows tokens (w'.onward tokens.length) := by
  induction tokens generalizing w w' with
  | nil => rfl
  | cons t tokens ih =>
    obtain ⟨rfl, -, passed⟩ := passed
    refine ⟨alike 0, ?_⟩
    rw [List.length_cons, ← onward_advance]
    exact ih alike.advance passed

end Resembles
end Window

namespace Grammar
variable {σ τ : Type} [TokenFeed σ] [TokenFeed τ] {limit : Nat} {w : Window σ} {w' : Window τ}

theorem program_resembles {nodes : List Node} {final : Window σ} (alike : w.Resembles w')
    (read : program limit w = .ok (nodes, final)) :
    ∃ nodes' final', nodes'.map Node.erase = nodes.map Node.erase ∧
      program limit w' = .ok (nodes', final') := by
  obtain ⟨tokens, passed, continues⟩ := program_continues (τ := τ) read
  obtain ⟨-, -, ended, -⟩ := program_sound read
  have same : (w'.onward tokens.length).current.kind = final.current.kind := by
    rw [alike.kind, ← passed.eq_onward]
  obtain ⟨nodes', erased, outcome⟩ := continues (alike.shows passed) (.inl same)
  rw [program_of_eof (same.trans ended)] at outcome
  exact ⟨_, _, by simpa using erased, outcome⟩

/-- Reading fails after the same number of tokens. -/
theorem program_fails_alike {halt : Halt σ} (alike : w.Resembles w')
    (failed : program limit w = .error halt) :
    ∃ tokens, w.Passes tokens halt.window ∧
      program limit w' =
        .error ⟨halt.failure.about (w'.onward tokens.length).current, w'.onward tokens.length⟩ := by
  obtain ⟨tokens, passed, transfers⟩ := program_rejects (τ := τ) failed
  have stopped := passed.eq_onward
  refine ⟨tokens, passed, transfers (alike.shows passed) (by rw [alike.kind, stopped]) ?_⟩
  intro noStatement named assigns
  -- the token behind the name decides, and it is of the same form too
  have ahead : (w'.onward tokens.length).peek.kind = halt.window.peek.kind := by
    rw [stopped]
    exact alike.kind (tokens.length + 1)
  obtain ⟨failure, v⟩ := halt
  obtain rfl : failure = .rejected (.noStatement v.current) := noStatement
  obtain ⟨-, _, -, -, starting⟩ := program_careful failed
  exact (starting _ rfl).1 (.inr ⟨named, ahead.symm.trans assigns⟩)

end Grammar

namespace Scanner

theorem form_tokenAt (s : Scanner) (k : Nat) :
    (s.tokenAt k).form = (s.tokens.map Token.form)[k]?.getD (.eof, []) := by
  rw [tokenAt, List.getElem?_map]
  cases s.tokens[k]? with
  | none => rfl
  | some t => rfl

theorem resembles_of_forms {s s' : Scanner}
    (forms : s'.tokens.map Token.form = s.tokens.map Token.form) :
    (Window.view s).Resembles (Window.view s') := by
  intro count
  rw [current_onward, current_onward, form_tokenAt, form_tokenAt, forms]

end Scanner

theorem Token.shown_of_form {t t' : Token} (form : t.form = t'.form) : t.shown = t'.shown := by
  rw [shown, shown, kind_of_form form, lexeme_of_form form]

namespace SyntaxError

theorem found_about (e : SyntaxError) (t : Token) : (e.about t).found = t := by
  cases e <;> rfl

theorem template_about {e : SyntaxError} {t : Token} (kind : t.kind = e.found.kind) :
    (e.about t).template = e.template := by
  cases e with
  | expected wanted found =>
    rw [about, template, template, kind]
    rfl
  | noStatement found =>
    rw [about, template, template, kind]
    rfl
  | noOperand found =>
    rw [about, template, template, kind]
    rfl

/-- The same error about a token of the same form is reported in the same words, at its own
place. -/
theorem notice_about {e : SyntaxError} {t : Token} (form : t.form = e.found.form) :
    (e.about t).notice = { e.notice with place := .ofPosition t.position } := by
  simp only [notice, found_about, template_about (Token.kind_of_form form),
    Token.shown_of_form form, Token.lexeme_of_form form]

end SyntaxError

/-- Two lists of tokens were read alike: as the same program, or both were rejected at the same
index for the same reason, in the same words. -/
inductive ReadAlike (tokens tokens' : List Token) :
    Except ReadFailure (List Node) → Except ReadFailure (List Node) → Prop where
  | program {nodes nodes' : List Node} (same : Node.samePrograms nodes' nodes = true) :
      ReadAlike tokens tokens' (.ok nodes) (.ok nodes')
  | rejected {k : Nat} {e : SyntaxError} {t : Token} (found : tokens[k]? = some e.found)
      (found' : tokens'[k]? = some t)
      (notice : (e.about t).notice = { e.notice with place := .ofPosition t.position }) :
      ReadAlike tokens tokens' (.error (.rejected e)) (.error (.rejected (e.about t)))
  | tooDeep : ReadAlike tokens tokens' (.error .tooDeep) (.error .tooDeep)

theorem readAlike_of_forms (limit : Nat) {source other : String}
    (forms : (Scanner.start other).tokens.map Token.form =
      (Scanner.start source).tokens.map Token.form) :
    ReadAlike (Scanner.start source).tokens (Scanner.start other).tokens
      (parse limit source).program (parse limit other).program := by
  have alike := Scanner.resembles_of_forms forms
  rcases outcome : Grammar.program limit (Window.view (Scanner.start source)) with
    ⟨failure, v⟩ | ⟨nodes, final⟩
  · obtain ⟨tokens, passed, failed⟩ := Grammar.program_fails_alike alike outcome
    rw [parse, parse, outcome, failed]
    cases failure with
    | tooDeep => exact .tooDeep
    | rejected e =>
      have inside := Scanner.length_of_passes passed
      have inside' : tokens.length < (Scanner.start other).tokens.length := by
        have lengths := congrArg List.length forms
        simp only [List.length_map] at lengths
        omega
      have here : e.found = (Scanner.start source).tokenAt tokens.length := by
        rw [(Grammar.program_careful outcome).1, ← Scanner.current_onward, ← passed.eq_onward]
      have form := alike tokens.length
      rw [Scanner.current_onward (Scanner.start source), ← here] at form
      refine .rejected (k := tokens.length) ?_ ?_ (SyntaxError.notice_about form)
      · rw [here]
        exact Scanner.tokens_eq_tokenAt inside
      · rw [Scanner.current_onward]
        exact Scanner.tokens_eq_tokenAt inside'
  · obtain ⟨nodes', final', same, again⟩ := Grammar.program_resembles alike outcome
    rw [parse, parse, outcome, again]
    exact .program ((Node.samePrograms_iff nodes' nodes).mpr same)

end IntScript

import IntScript.Proofs.Faultless
import IntScript.Proofs.Joining
import IntScript.Proofs.Rerunning

/-! A source that leaves a string open may be read, but it cannot be run. The open string
is its last token, so it stands at the end of the value of an assignment, and no
expression with a text in it has a value. -/
namespace IntScript

namespace Piece

theorem token?_of_isOpen {piece : Piece} (unclosed : piece.isOpen = true) :
    ∃ lexeme, piece.token? = some (.string, lexeme) := by
  cases piece with
  | string body closed => exact ⟨_, rfl⟩
  | _ => contradiction

theorem open_last {source : List Char} {piece : Piece} (member : piece ∈ cut source)
    (unclosed : piece.isOpen = true) : ∃ before, cut source = before ++ [piece] := by
  obtain ⟨before, behind, split⟩ := List.append_of_mem member
  have fit := fit_cut source
  rw [split] at fit
  obtain ⟨-, fits, fitBehind⟩ := fit_append.mp fit
  cases behind with
  | nil => exact ⟨before, split⟩
  | cons next behind =>
    obtain ⟨c, cs, nonempty, -⟩ := first_of_fits fitBehind.1
    cases piece with
    | string body closed =>
      cases closed with
      | true => contradiction
      | false =>
        have empty := fits.2 rfl
        rw [textOf_cons, List.append_assoc, nonempty] at empty
        contradiction
    | _ => contradiction

end Piece

theorem Scanner.string_last {source : String} (unclosed : ¬ StringsClosed source) :
    ∃ t, (start source).upcoming.getLast? = some t ∧ t.kind = .string := by
  simp only [StringsClosed, Classical.not_forall, Bool.not_eq_false] at unclosed
  obtain ⟨piece, member, unclosed⟩ := unclosed
  obtain ⟨before, split⟩ := Piece.open_last member unclosed
  obtain ⟨lexeme, token⟩ := Piece.token?_of_isOpen unclosed
  have forms := congrArg List.getLast? (form_upcoming source)
  rw [split, List.filterMap_append, List.filterMap_cons, token, List.getLast?_map,
    List.filterMap_nil, List.getLast?_concat] at forms
  obtain ⟨t, last, form⟩ := Option.map_eq_some_iff.mp forms
  exact ⟨t, last, (Token.form_eq_iff.mp form).1⟩

namespace Derivation

theorem Expression.texts_of_last {phrase : Phrase} {tokens : List Token} {node : Node} {t : Token}
    (derived : Expression phrase tokens node) (last : tokens.getLast? = some t)
    (kind : t.kind = .string) : node.texts ≠ [] := by
  induction derived with
  | number other | reference other =>
    cases last
    exact absurd (other.symm.trans kind) (by decide)
  | string => simp [Node.texts]
  | parenthesised opens body closes ih =>
    rw [← List.cons_append, List.getLast?_concat] at last
    cases last
    exact absurd (closes.symm.trans kind) (by decide)
  | single operand ih => exact ih last
  | @join level op sign before behind left right first found second ihFirst ihSecond =>
    rw [List.getLast?_append, List.getLast?_cons] at last
    cases ending : behind.getLast? with
    | none =>
      rw [ending] at last
      obtain rfl : sign = t := Option.some.inj last
      rw [kind] at found
      cases level <;> contradiction
    | some t' =>
      rw [ending] at last
      cases last
      simp [Node.texts, ihSecond ending]

theorem Statement.texts_of_last {tokens : List Token} {node : Node} {t : Token}
    (derived : Statement tokens node) (last : tokens.getLast? = some t) (kind : t.kind = .string) :
    ∃ name value place, node = .assignment name value place ∧ value.texts ≠ [] := by
  cases derived with
  | print word opens body closes =>
    rw [← List.cons_append, ← List.cons_append, List.getLast?_concat] at last
    cases last
    exact absurd (closes.symm.trans kind) (by decide)
  | @assignment word sign tokens value named assigns body =>
    rw [List.getLast?_cons_cons, List.getLast?_cons] at last
    cases ending : tokens.getLast? with
    | none =>
      rw [ending] at last
      cases last
      exact absurd (assigns.symm.trans kind) (by decide)
    | some t' =>
      rw [ending] at last
      cases last
      exact ⟨_, _, _, rfl, body.texts_of_last ending kind⟩

theorem Newlines.last {newlines : List Token} {t : Token} (blank : Newlines newlines)
    (last : newlines.getLast? = some t) : t.kind = .newline :=
  blank t (List.mem_of_getLast? last)

theorem Statements.texts_of_last {tokens : List Token} {nodes : List Node} {t : Token}
    (derived : Statements tokens nodes) (last : tokens.getLast? = some t)
    (kind : t.kind = .string) :
    ∃ name value place, .assignment name value place ∈ nodes ∧ value.texts ≠ [] := by
  induction derived with
  | none => contradiction
  | @more first newlines rest node nodes statement blank others ih =>
    rw [List.getLast?_append, List.getLast?_append] at last
    cases ending : rest.getLast? with
    | some t' =>
      rw [ending] at last
      cases last
      obtain ⟨name, value, place, member, texts⟩ := ih ending
      exact ⟨name, value, place, List.mem_cons_of_mem _ member, texts⟩
    | none =>
      cases between : newlines.getLast? with
      | some t' =>
        rw [ending, between] at last
        cases last
        exact absurd ((blank.last between).symm.trans kind) (by decide)
      | none =>
        rw [ending, between] at last
        obtain ⟨name, value, place, rfl, texts⟩ := statement.texts_of_last last kind
        exact ⟨name, value, place, List.mem_cons_self, texts⟩

theorem Program.texts_of_last {tokens : List Token} {nodes : List Node} {t : Token}
    (derived : Program tokens nodes) (last : tokens.getLast? = some t) (kind : t.kind = .string) :
    ∃ name value place, .assignment name value place ∈ nodes ∧ value.texts ≠ [] := by
  obtain ⟨newlines, rest, rfl, blank, statements⟩ := derived
  rw [List.getLast?_append] at last
  cases ending : rest.getLast? with
  | some t' =>
    rw [ending] at last
    cases last
    exact statements.texts_of_last ending kind
  | none =>
    rw [ending] at last
    exact absurd ((blank.last last).symm.trans kind) (by decide)

end Derivation

namespace Evaluation

/-- An expression that has a value has no text in it. -/
theorem direct_texts {env : Bindings} {node : Node} {value : Int} {sums after : List (Int × Int)}
    (ran : (direct env node).run.run sums = (.ok value, after)) : node.texts = [] := by
  induction node generalizing value sums after with
  | number | reference => rfl
  | string => cases ran
  | binary op left right place ihLeft ihRight =>
    obtain ⟨a, middle, ranLeft, ran⟩ := run_bind_ok ran
    obtain ⟨b, last, ranRight, -⟩ := run_bind_ok ran
    rw [Node.texts, ihLeft ranLeft, ihRight ranRight, List.append_nil]
  | assignment | print => exact absurd ran throw_not_ok

theorem evaluate_texts {env : Bindings} {limit : Nat} {node : Node} {value : Int}
    {sums after : List (Int × Int)}
    (ran : (evaluate env limit node).run.run sums = (.ok value, after)) : node.texts = [] :=
  direct_texts (direct_of_evaluate ran)

end Evaluation

namespace Machine

theorem execute_of_mem {m after : Machine} {limit : Nat} {program : List Node} {statement : Node}
    (ran : m.run limit program = (.ok (), after)) (member : statement ∈ program) :
    ∃ before next, Machine.execute limit statement before = (.ok (), next) := by
  induction program generalizing m with
  | nil => contradiction
  | cons first rest ih =>
    obtain ⟨middle, done, ran⟩ := run_cons_returns ran
    rcases List.mem_cons.mp member with rfl | member
    · exact ⟨m, middle, done⟩
    · exact ih ran member

end Machine

/-- What can be read and run has no open string. -/
theorem stringsClosed_of_run {limit depth : Nat} {source : String} {program : List Node}
    {m after : Machine} (read : (parse limit source).program = .ok program)
    (ran : m.run depth program = (.ok (), after)) : StringsClosed source := by
  apply Classical.byContradiction
  intro unclosed
  obtain ⟨t, last, kind⟩ := Scanner.string_last unclosed
  obtain ⟨name, value, place, member, texts⟩ := (program_of_parse read).texts_of_last last kind
  obtain ⟨before, next, done⟩ := Machine.execute_of_mem ran member
  rw [Machine.execute_assignment] at done
  obtain ⟨n, sums, evaluated, -⟩ := Machine.withValue_returns done
  exact texts (Evaluation.evaluate_texts evaluated)

end IntScript

import IntScript.Proofs.Lookahead
import IntScript.Proofs.Parsing

/-! Sources joined by newlines. Unless a string is left open at its end, the cut of a
source stays as it is in front of a newline, and so do the forms of its tokens. Sources
that can be read one by one can then be read as one, and the program is theirs one after
the other, up to places. -/
namespace IntScript

namespace Piece

/-- A string that lacks its closing quote. -/
def isOpen : Piece → Bool
  | .string _ closed => !closed
  | _ => false

theorem head_line {p : Char → Prop} {following : List Char}
    (boundary : ∀ c ∈ following.head?, p c) (line : p '\n') (rest : List Char) :
    ∀ c ∈ (following ++ '\n' :: rest).head?, p c := by
  cases following with
  | nil => simpa using line
  | cons d following => simpa using boundary

/-- Only an open string would run on into the next line. -/
theorem Fits.line {piece : Piece} {following : List Char} (fits : piece.Fits following)
    (closed : piece.isOpen = false) (rest : List Char) :
    piece.Fits (following ++ '\n' :: rest) := by
  cases piece with
  | comment body => exact ⟨fits.1, head_line fits.2 rfl rest⟩
  | number digits => exact ⟨fits.1, fits.2.1, head_line fits.2.2 (by decide) rest⟩
  | word letters => exact ⟨fits.1, fits.2.1, head_line fits.2.2 (by decide) rest⟩
  | string body isClosed =>
    refine ⟨fits.1, fun unclosed => ?_⟩
    rw [isOpen, unclosed] at closed
    contradiction
  | _ => exact fits

theorem fit_line {pieces : List Piece} (fit : Fit pieces [])
    (closed : ∀ piece ∈ pieces, piece.isOpen = false) (rest : List Char) :
    Fit pieces ('\n' :: rest) := by
  induction pieces with
  | nil => trivial
  | cons piece pieces ih =>
    obtain ⟨fits, fit⟩ := fit
    obtain ⟨closedFirst, closed⟩ := List.forall_mem_cons.mp closed
    rw [List.append_nil] at fits
    exact ⟨fits.line closedFirst rest, ih fit closed⟩

theorem cut_line {first : List Char} (closed : ∀ piece ∈ cut first, piece.isOpen = false)
    (second : List Char) : cut (first ++ '\n' :: second) = cut first ++ .newline :: cut second := by
  have fit : Fit (cut first ++ [.newline]) second :=
    fit_append.mpr ⟨fit_line (fit_cut first) closed second, trivial, trivial⟩
  have whole := cut_append fit
  rw [textOf_append, textOf_cut] at whole
  simpa [text] using whole

end Piece

/-- Every string of the source has its closing quote. -/
def StringsClosed (source : String) : Prop :=
  ∀ piece ∈ Piece.cut source.toList, piece.isOpen = false

theorem Window.Passes.shows_forms {σ : Type} [TokenFeed σ] {w target : Window σ}
    {tokens tokens' : List Token} (passed : w.Passes tokens target)
    (forms : tokens.map Token.form = tokens'.map Token.form) : w.Shows tokens' target := by
  induction tokens' generalizing w tokens with
  | nil =>
    obtain rfl := List.map_eq_nil_iff.mp forms
    exact passed
  | cons t' tokens' ih =>
    obtain ⟨t, tokens, rfl, form, formsRest⟩ := List.map_eq_cons_iff.mp forms
    obtain ⟨rfl, -, rest⟩ := passed
    exact ⟨form, ih rest formsRest⟩

namespace Scanner

theorem form_upcoming (source : String) :
    (start source).upcoming.map Token.form = (Piece.cut source.toList).filterMap Piece.token? :=
  Piece.form_tokensFrom _ _

theorem upcoming_line {source first second : String} (closed : StringsClosed first)
    (joined : source.toList = first.toList ++ '\n' :: second.toList) :
    ∃ front newline behind, (start source).upcoming = front ++ newline :: behind ∧
      front.map Token.form = (start first).upcoming.map Token.form ∧ newline.kind = .newline ∧
      behind.map Token.form = (start second).upcoming.map Token.form := by
  have forms := form_upcoming source
  rw [joined, Piece.cut_line closed, List.filterMap_append, List.filterMap_cons] at forms
  obtain ⟨front, _, split, formsFront, forms⟩ := List.map_eq_append_iff.mp forms
  obtain ⟨newline, behind, rfl, form, formsBehind⟩ := List.map_eq_cons_iff.mp forms
  rw [form_upcoming, form_upcoming]
  exact ⟨front, newline, behind, split, formsFront, (Token.form_eq_iff.mp form).1, formsBehind⟩

end Scanner

theorem parse_eq_ok {limit : Nat} {source : String} {program : List Node} :
    (parse limit source).program = .ok program ↔
      ∃ final, Grammar.program limit (Window.view (Scanner.start source)) =
        .ok (program, final) := by
  unfold parse
  cases Grammar.program limit (Window.view (Scanner.start source)) with
  | ok read => simp [Prod.ext_iff]
  | error halt => simp

/-- What is read of a source is read wherever its tokens show in front of a newline or the
end. -/
theorem program_of_shows {limit : Nat} {source : String} {program : List Node}
    (read : (parse limit source).program = .ok program) {w stop : Window Scanner}
    (shows : w.Shows (Scanner.start source).upcoming stop)
    (ends : TokenKind.EndsAs .eof stop.current.kind) :
    ∃ again, again.map Node.erase = program.map Node.erase ∧
      Grammar.program limit w =
        Grammar.program limit stop >>= fun rest => .ok (again ++ rest.1, rest.2) := by
  obtain ⟨final, outcome⟩ := parse_eq_ok.mp read
  obtain ⟨tokens, passed, continues⟩ := Grammar.program_continues (τ := Scanner) outcome
  obtain ⟨-, -, ended, -⟩ := Grammar.program_sound outcome
  obtain ⟨target, passed', ended', -⟩ := (Scanner.start source).view_passes
  obtain ⟨rfl, -⟩ := passed.unique ended passed' ended'
  exact continues shows (ended ▸ ends)

theorem parse_line {limit : Nat} {source first second : String} {program program' : List Node}
    (closed : StringsClosed first)
    (joined : source.toList = first.toList ++ '\n' :: second.toList)
    (read : (parse limit first).program = .ok program)
    (read' : (parse limit second).program = .ok program') :
    ∃ whole, (parse limit source).program = .ok whole ∧
      whole.map Node.erase = (program ++ program').map Node.erase := by
  obtain ⟨front, newline, behind, split, forms, kind, forms'⟩ :=
    Scanner.upcoming_line closed joined
  obtain ⟨target, passed, ended, -⟩ := (Scanner.start source).view_passes
  rw [split] at passed
  obtain ⟨middle, passedFront, rfl, -, passedBehind⟩ := Window.passes_append.mp passed
  obtain ⟨again, same, outcome⟩ :=
    program_of_shows read (passedFront.shows_forms forms) (.inr ⟨rfl, kind⟩)
  obtain ⟨again', same', outcome'⟩ :=
    program_of_shows read' (passedBehind.shows_forms forms') (.inl ended)
  have skipped : Grammar.skipNewlines middle = Grammar.skipNewlines middle.advance := by
    rw [Grammar.skipNewlines, dif_pos kind]
  rw [Grammar.program_of_skipped skipped, outcome', Grammar.program_of_eof ended] at outcome
  refine ⟨again ++ (again' ++ []), parse_eq_ok.mpr ⟨_, outcome⟩, ?_⟩
  simp [same, same']

theorem parse_empty (limit : Nat) : (parse limit "").program = .ok [] := by
  have upcoming : (Scanner.start "").upcoming = [] := Scanner.upcoming_of_rest rfl
  have derived : Derivation.Program (Scanner.start "").upcoming [] := by
    rw [upcoming]
    exact ⟨[], [], rfl, by simp [Derivation.Newlines], .none⟩
  rw [parse_of_program (parse_unreached (Nat.zero_le limit)) derived]

theorem mapM_cons_returns {ε α β : Type} {f : α → Except ε β} {a : α} {rest : List α}
    {results : List β} (returned : (a :: rest).mapM f = .ok results) :
    ∃ b others, f a = .ok b ∧ rest.mapM f = .ok others ∧ results = b :: others := by
  rw [List.mapM_cons] at returned
  obtain ⟨b, first, returned⟩ := bind_returns returned
  obtain ⟨others, behind, last⟩ := bind_returns returned
  cases last
  exact ⟨b, others, first, behind, rfl⟩

/-- Sources that can be read one by one can be read as one, joined by newlines. -/
theorem parse_joined {limit : Nat} {texts : List String} {programs : List (List Node)}
    (closed : ∀ text ∈ texts, StringsClosed text)
    (read : (texts.mapM fun text => (parse limit text).program) = .ok programs) :
    ∃ whole, (parse limit ("\n".intercalate texts)).program = .ok whole ∧
      whole.map Node.erase = programs.flatten.map Node.erase := by
  induction texts generalizing programs with
  | nil =>
    cases read
    exact ⟨[], parse_empty limit, rfl⟩
  | cons text texts ih =>
    obtain ⟨closedFirst, closed⟩ := List.forall_mem_cons.mp closed
    obtain ⟨program, others, readFirst, readOthers, rfl⟩ := mapM_cons_returns read
    cases texts with
    | nil =>
      cases readOthers
      have alone : "\n".intercalate [text] = text := by
        apply String.toList_injective
        simp
      rw [alone]
      exact ⟨program, readFirst, by simp⟩
    | cons next texts =>
      obtain ⟨rest, readRest, same⟩ := ih closed readOthers
      have joined : ("\n".intercalate (text :: next :: texts)).toList =
          text.toList ++ '\n' :: ("\n".intercalate (next :: texts)).toList := by
        simp [String.toList_intercalate]
      obtain ⟨whole, readWhole, sameWhole⟩ := parse_line closedFirst joined readFirst readRest
      refine ⟨whole, readWhole, ?_⟩
      rw [sameWhole, List.map_append, same, List.flatten_cons, List.map_append]

end IntScript

import IntScript.Proofs.Acceptance
import IntScript.Proofs.Rereading

/-! Reading a source is reading the tokens of its cut. What comes out has the shape
that sources have, because each token is spelled as its kind asks for. -/
namespace IntScript

namespace Scanner

/-- A window on a scanner shows the tokens still to come, and at the final token all
unknown characters have been noted. -/
theorem view_passes (s : Scanner) :
    ∃ target, (Window.view s).Passes s.upcoming target ∧ target.current.kind = .eof ∧
      target.feed.unknown = s.unknown ++ s.pending := by
  induction tokens : s.upcoming generalizing s with
  | nil =>
    -- a window draws two tokens, and here the first of them is the final one
    have noted : (TokenFeed.after s 2).unknown = s.unknown ++ s.pending :=
      unknown_after s (by simp [tokens])
    refine ⟨Window.view s, rfl, ?_, noted⟩
    rcases next_upcoming s with ⟨-, last, -⟩ | ⟨-, some⟩
    · exact congrArg Token.kind last
    · rw [tokens] at some
      contradiction
  | cons t rest ih =>
    rcases next_upcoming s with ⟨none, -, -⟩ | ⟨more, some⟩
    · rw [tokens] at none
      contradiction
    · obtain ⟨rfl, behind⟩ := List.cons.inj (tokens.symm.trans some)
      obtain ⟨target, passed, final, noted⟩ := ih s.next.2 behind.symm
      exact ⟨target, ⟨rfl, more, passed⟩, final, noted.trans (noted_next s)⟩

end Scanner

theorem parse_unreached {limit : Nat} {source : String} (enough : source.length ≤ limit) :
    (parse limit source).program ≠ .error .tooDeep := by
  intro failed
  unfold parse at failed
  split at failed
  · contradiction
  · next halt outcome =>
    obtain ⟨failure, window⟩ := halt
    obtain rfl : failure = .tooDeep := Except.error.inj failed
    exact Grammar.program_within enough ⟨window, outcome⟩

theorem parse_of_program {limit : Nat} {source : String} {nodes : List Node}
    (unreached : (parse limit source).program ≠ .error .tooDeep)
    (derived : Derivation.Program (Scanner.start source).upcoming nodes) :
    parse limit source = ⟨.ok nodes, (Scanner.start source).pending⟩ := by
  obtain ⟨target, passed, final, noted⟩ := (Scanner.start source).view_passes
  rcases Grammar.program_returns derived limit passed final with ⟨window, failed⟩ | outcome
  · exact absurd (by rw [parse, failed]) unreached
  · have read : parse limit source = ⟨.ok nodes, target.feed.unknown⟩ := by rw [parse, outcome]
    rw [read, noted]
    rfl

theorem program_of_parse {limit : Nat} {source : String} {nodes : List Node}
    (returned : (parse limit source).program = .ok nodes) :
    Derivation.Program (Scanner.start source).upcoming nodes := by
  unfold parse at returned
  split at returned
  · next read after outcome =>
    cases returned
    obtain ⟨target, passed, final, -⟩ := (Scanner.start source).view_passes
    exact Grammar.program_derives outcome passed final
  · contradiction

/-- The lexeme of a token is spelled as its kind asks for. -/
def Token.Spelled (t : Token) : Prop :=
  ∃ piece following, Piece.Fits piece following ∧ piece.token? = some t.form

theorem Scanner.spelled_of_upcoming {s : Scanner} {t : Token} (member : t ∈ s.upcoming) :
    t.Spelled := by
  obtain ⟨piece, inside, token⟩ := Piece.mem_tokensFrom member
  obtain ⟨following, fits⟩ := Piece.fits_of_mem (Piece.fit_cut s.rest) inside
  exact ⟨piece, following, fits, token⟩

/-- The lexemes of tokens of a kind. The final token has none that scanning could find. -/
def TokenKind.Spells : TokenKind → List Char → Prop
  | .number, lexeme => ∀ c ∈ lexeme, c.isDigit
  | .string, lexeme => ∃ body, '"' ∉ body ∧ lexeme = '"' :: (body ++ ['"'])
  | .identifier, lexeme => isName (String.ofList lexeme)
  | .print, lexeme => lexeme = ['p', 'r', 'i', 'n', 't']
  | .newline, lexeme => lexeme = ['\n']
  | .assign, lexeme => lexeme = ['=']
  | .plus, lexeme => lexeme = ['+']
  | .minus, lexeme => lexeme = ['-']
  | .times, lexeme => lexeme = ['*']
  | .divide, lexeme => lexeme = ['/']
  | .lparen, lexeme => lexeme = ['(']
  | .rparen, lexeme => lexeme = [')']
  | .comma, lexeme => lexeme = [',']
  | .colon, lexeme => lexeme = [':']
  | .eof, _ => False

theorem symbolKind?_spells {c : Char} {kind : TokenKind} (found : symbolKind? c = some kind) :
    kind.Spells [c] := by
  unfold symbolKind? at found
  split at found <;> cases found <;> rfl

theorem Piece.Fits.spells {piece : Piece} {following lexeme : List Char} {kind : TokenKind}
    (fits : piece.Fits following) (token : piece.token? = some (kind, lexeme)) :
    kind.Spells lexeme := by
  cases piece with
  | spacing | comment | unknown => cases token
  | number digits =>
    cases token
    exact fits.2.1
  | word letters =>
    cases token
    obtain ⟨first, inside, -⟩ := Piece.fits_word.mp fits
    unfold wordKind
    split
    · assumption
    · next other =>
      have named : String.ofList lexeme ≠ "print" := fun keyword =>
        other (String.ofList_injective keyword)
      simpa [TokenKind.Spells, isName, Option.any_eq_true, named] using And.intro first inside
  | string body closed =>
    cases token
    exact ⟨body, fits.1, rfl⟩
  | newline =>
    cases token
    rfl
  | symbol found c =>
    cases token
    exact symbolKind?_spells (Piece.fits_symbol.mp fits)

namespace Token.Spelled

theorem spells {t : Token} (spelled : t.Spelled) : t.kind.Spells t.lexeme.toList := by
  obtain ⟨piece, following, fits, token⟩ := spelled
  exact fits.spells token

theorem isName {t : Token} (spelled : t.Spelled) (kind : t.kind = .identifier) :
    isName t.lexeme := by
  have lexeme := spelled.spells
  rw [kind] at lexeme
  simpa [TokenKind.Spells] using lexeme

theorem string_body {t : Token} (spelled : t.Spelled) (kind : t.kind = .string) :
    ∃ body, '"' ∉ body ∧ t.lexeme.toList = '"' :: (body ++ ['"']) := by
  have lexeme := spelled.spells
  rw [kind] at lexeme
  exact lexeme

theorem quoteless {t : Token} (spelled : t.Spelled) (kind : t.kind = .string) :
    '"' ∉ (t.lexeme.toList.drop 1).dropLast := by
  obtain ⟨body, quoteless, quoted⟩ := spelled.string_body kind
  simpa [quoted] using quoteless

end Token.Spelled

namespace Derivation

theorem Expression.shape {phrase : Phrase} {tokens : List Token} {node : Node}
    (derived : Expression phrase tokens node) (spelled : ∀ t ∈ tokens, t.Spelled) :
    node.isExpression := by
  induction derived with
  | number kind => simp [Node.isExpression]
  | string kind => simpa [Node.isExpression] using (spelled _ List.mem_cons_self).quoteless kind
  | reference kind => exact (spelled _ List.mem_cons_self).isName kind
  | parenthesised opens body closes ih => exact ih fun t member => spelled t (by simp [member])
  | single operand ih => exact ih spelled
  | join first found last ihFirst ihLast =>
    refine Bool.and_eq_true_iff.mpr ⟨ihFirst ?_, ihLast ?_⟩
    · exact fun t member => spelled t (by simp [member])
    · exact fun t member => spelled t (by simp [member])

theorem Statement.shape {tokens : List Token} {node : Node} (derived : Statement tokens node)
    (spelled : ∀ t ∈ tokens, t.Spelled) : node.isStatement := by
  cases derived with
  | print kind opens body closes => exact body.shape fun t member => spelled t (by simp [member])
  | assignment kind assigns body =>
    refine Bool.and_eq_true_iff.mpr ⟨(spelled _ List.mem_cons_self).isName kind, body.shape ?_⟩
    exact fun t member => spelled t (by simp [member])

theorem Statements.shape {tokens : List Token} {nodes : List Node}
    (derived : Statements tokens nodes) (spelled : ∀ t ∈ tokens, t.Spelled) :
    ∀ node ∈ nodes, node.isStatement := by
  induction derived with
  | none => simp
  | more statement blank others ih =>
    refine List.forall_mem_cons.mpr ⟨statement.shape ?_, ih ?_⟩
    · exact fun t member => spelled t (by simp [member])
    · exact fun t member => spelled t (by simp [member])

end Derivation

theorem shape_of_parse {limit : Nat} {source : String} {nodes : List Node}
    (returned : (parse limit source).program = .ok nodes) : ∀ node ∈ nodes, node.isStatement := by
  obtain ⟨newlines, rest, whole, -, statements⟩ := program_of_parse returned
  refine statements.shape fun t member => ?_
  exact Scanner.spelled_of_upcoming (whole ▸ List.mem_append_right newlines member)

end IntScript

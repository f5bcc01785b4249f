import IntScript.Node.Grammar

/-! The grammar of programs, as derivations of trees from tokens. Nothing here
reads from the left or looks ahead: a derivation says which tokens make up a tree,
and where one tree ends and the next begins is left open.

    program    := NEWLINE* (statement NEWLINE*)*
    statement  := PRINT LPAREN expression RPAREN | IDENTIFIER ASSIGN expression
    expression := term ((PLUS | MINUS) term)*
    term       := factor ((TIMES | DIVIDE) factor)*
    factor     := NUMBER | STRING | IDENTIFIER | LPAREN expression RPAREN -/
namespace IntScript

/-- The phrases that expressions are made of: factors, and what the operators of
a level make of their operands. -/
inductive Phrase where
  | factor
  | chain (level : Level)
deriving DecidableEq

namespace Phrase

abbrev term : Phrase := .chain .product

abbrev expression : Phrase := .chain .sum

end Phrase

namespace Level

/-- What the operators of a level join. -/
def operand : Level → Phrase
  | .sum => .term
  | .product => .factor

/-- The tokens that join operands of a level, and the operators that they stand for. -/
inductive Joins : Level → TokenKind → Operator → Prop where
  | plus : Joins .sum .plus .add
  | minus : Joins .sum .minus .sub
  | times : Joins .product .times .mul
  | divide : Joins .product .divide .div

theorem joins_iff {level : Level} {kind : TokenKind} {op : Operator} :
    level.Joins kind op ↔ level.operator? kind = some op := by
  constructor
  · rintro (_ | _ | _ | _) <;> rfl
  · intro found
    unfold operator? at found
    split at found <;> cases found <;> constructor

end Level

namespace Derivation

/-- Tokens and the tree they derive. Operators of a level fold to the left: what
stands to the left of the last one is a chain of the same level. -/
inductive Expression : Phrase → List Token → Node → Prop where
  | number {t : Token} (kind : t.kind = .number) :
      Expression .factor [t]
        (.number (Nat.ofDigitChars 10 t.lexeme.toList 0) (.ofPosition t.position))
  | string {t : Token} (kind : t.kind = .string) :
      Expression .factor [t]
        (.string (String.ofList (t.lexeme.toList.drop 1).dropLast) (.ofPosition t.position))
  | reference {t : Token} (kind : t.kind = .identifier) :
      Expression .factor [t] (.reference t.lexeme (.ofPosition t.position))
  | parenthesised {opening closing : Token} {tokens : List Token} {node : Node}
      (opens : opening.kind = .lparen) (body : Expression .expression tokens node)
      (closes : closing.kind = .rparen) :
      Expression .factor (opening :: (tokens ++ [closing])) node
  | single {level : Level} {tokens : List Token} {node : Node}
      (operand : Expression level.operand tokens node) : Expression (.chain level) tokens node
  | join {level : Level} {op : Operator} {t : Token} {before behind : List Token}
      {left right : Node} (first : Expression (.chain level) before left)
      (found : level.Joins t.kind op) (last : Expression level.operand behind right) :
      Expression (.chain level) (before ++ t :: behind)
        (.binary op left right (.ofPosition t.position))

inductive Statement : List Token → Node → Prop where
  | print {t opening closing : Token} {tokens : List Token} {argument : Node}
      (kind : t.kind = .print) (opens : opening.kind = .lparen)
      (body : Expression .expression tokens argument) (closes : closing.kind = .rparen) :
      Statement (t :: opening :: (tokens ++ [closing])) (.print argument (.ofPosition t.position))
  | assignment {t sign : Token} {tokens : List Token} {value : Node}
      (kind : t.kind = .identifier) (assigns : sign.kind = .assign)
      (body : Expression .expression tokens value) :
      Statement (t :: sign :: tokens) (.assignment t.lexeme value (.ofPosition t.position))

def Newlines (tokens : List Token) : Prop := ∀ t ∈ tokens, t.kind = .newline

/-- Statements, each with any number of newlines behind it. -/
inductive Statements : List Token → List Node → Prop where
  | none : Statements [] []
  | more {first newlines rest : List Token} {node : Node} {nodes : List Node}
      (statement : Statement first node) (blank : Newlines newlines)
      (others : Statements rest nodes) :
      Statements (first ++ (newlines ++ rest)) (node :: nodes)

def Program (tokens : List Token) (nodes : List Node) : Prop :=
  ∃ newlines rest, tokens = newlines ++ rest ∧ Newlines newlines ∧ Statements rest nodes

end Derivation

namespace Window
variable {σ : Type} [TokenFeed σ]

/-- The window shows these tokens one after the other, none of them final, and
behind them it is `target`. -/
def Passes (w : Window σ) : List Token → Window σ → Prop
  | [], target => target = w
  | t :: tokens, target => w.current = t ∧ t.kind ≠ .eof ∧ w.advance.Passes tokens target

theorem passes_current {w : Window σ} (more : w.current.kind ≠ .eof) :
    w.Passes [w.current] w.advance :=
  ⟨rfl, more, rfl⟩

theorem passes_append {w target : Window σ} {first second : List Token} :
    w.Passes (first ++ second) target ↔
      ∃ middle, w.Passes first middle ∧ middle.Passes second target := by
  induction first generalizing w with
  | nil => simp [Passes]
  | cons t first ih => simp [Passes, ih, and_assoc]

theorem Passes.trans {w middle target : Window σ} {first second : List Token}
    (front : w.Passes first middle) (back : middle.Passes second target) :
    w.Passes (first ++ second) target :=
  passes_append.mpr ⟨middle, front, back⟩

/-- What a window shows up to the final token is one sequence of tokens. -/
theorem Passes.unique {w target target' : Window σ} {tokens tokens' : List Token}
    (passed : w.Passes tokens target) (final : target.current.kind = .eof)
    (passed' : w.Passes tokens' target') (final' : target'.current.kind = .eof) :
    tokens = tokens' ∧ target = target' := by
  induction tokens generalizing w tokens' with
  | nil =>
    obtain rfl : target = w := passed
    cases tokens' with
    | nil => exact ⟨rfl, passed'.symm⟩
    | cons t tokens' =>
      obtain ⟨rfl, more, -⟩ := passed'
      exact absurd final more
  | cons t tokens ih =>
    obtain ⟨rfl, more, rest⟩ := passed
    cases tokens' with
    | nil =>
      obtain rfl : target' = w := passed'
      exact absurd final' more
    | cons t' tokens' =>
      obtain ⟨rfl, -, rest'⟩ := passed'
      obtain ⟨rfl, rfl⟩ := ih rest rest'
      exact ⟨rfl, rfl⟩

/-- Tokens passed on the way to the final one are the first of those up to it. -/
theorem Passes.split {w v target : Window σ} {front tokens : List Token} (passed : w.Passes front v)
    (whole : w.Passes tokens target) (final : target.current.kind = .eof) :
    ∃ rest, tokens = front ++ rest ∧ v.Passes rest target := by
  induction front generalizing w tokens with
  | nil =>
    obtain rfl : v = w := passed
    exact ⟨tokens, rfl, whole⟩
  | cons t front ih =>
    obtain ⟨rfl, more, passed⟩ := passed
    cases tokens with
    | nil =>
      obtain rfl : target = w := whole
      exact absurd final more
    | cons t' tokens =>
      obtain ⟨rfl, -, whole⟩ := whole
      obtain ⟨rest, rfl, behind⟩ := ih passed whole
      exact ⟨rest, rfl, behind⟩

end Window
end IntScript

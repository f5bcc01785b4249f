import IntScript.Node
import IntScript.Token.Window

/-! Reading syntax trees from tokens.

A program is a sequence of statements with any number of newlines around them.
A statement is `print ( expression )` or `name = expression`. Expressions are
sums of products of factors, both levels folded to the left, and a factor is a
literal, a name or an expression in parentheses.

Reading stops at the first token that no statement can go on with. A limit
bounds the number of parenthesised factors open at once; going beyond it is an
ending of its own and not an error of the source. -/
namespace IntScript

/-- Why a token cannot stand where it does. -/
inductive SyntaxError where
  | expected (wanted : TokenKind) (found : Token)
  | noStatement (found : Token)
  | noOperand (found : Token)
deriving DecidableEq

def SyntaxError.found : SyntaxError → Token
  | .expected _ t | .noStatement t | .noOperand t => t

inductive ReadFailure where
  | rejected (error : SyntaxError)
  | tooDeep
deriving DecidableEq

/-- Why reading stopped, and the view at that point. -/
structure Halt (σ : Type) where
  failure : ReadFailure
  window : Window σ

/-- The two levels of operators. -/
inductive Level where
  | sum
  | product
deriving DecidableEq

def Level.operator? : Level → TokenKind → Option Operator
  | .sum, .plus => some .add
  | .sum, .minus => some .sub
  | .product, .times => some .mul
  | .product, .divide => some .div
  | _, _ => none

theorem Level.ne_eof {level : Level} {kind : TokenKind} {op : Operator}
    (found : level.operator? kind = some op) : kind ≠ .eof := by
  rintro rfl
  cases level <;> simp [operator?] at found

namespace Grammar
variable {σ : Type} [TokenFeed σ]

/-- A tree read from the front of a window, and the window behind it. -/
structure Reading (w : Window σ) where
  node : Node
  window : Window σ
  shorter : window.size < w.size

abbrev Reader (σ : Type) [TokenFeed σ] :=
  (w : Window σ) → Except (Halt σ) (Reading w)

def reject (error : SyntaxError) (w : Window σ) : Halt σ := ⟨.rejected error, w⟩

/-- The window behind a token of the wanted kind. -/
def expect (wanted : TokenKind) (w : Window σ) (inner : wanted ≠ .eof) :
    Except (Halt σ) { after : Window σ // after.size < w.size } :=
  if found : w.current.kind = wanted then
    .ok ⟨w.advance, Window.advance_size (found ▸ inner)⟩
  else .error (reject (.expected wanted w.current) w)

/-- Goes on with operators of one level, folding to the left. -/
def chainFrom (level : Level) (operand : Reader σ) {w : Window σ} (left : Reading w) :
    Except (Halt σ) (Reading w) :=
  match found : level.operator? left.window.current.kind with
  | none => .ok left
  | some op => do
    have further := Window.advance_size (Level.ne_eof found)
    let right ← operand left.window.advance
    have shorter : right.window.size < left.window.size := Nat.lt_trans right.shorter further
    chainFrom level operand
      ⟨.binary op left.node right.node (.ofPosition left.window.current.position), right.window,
        Nat.lt_trans shorter left.shorter⟩
termination_by left.window.size

/-- Operands of one level joined by its operators. -/
def chain (level : Level) (operand : Reader σ) : Reader σ := fun w => do
  chainFrom level operand (← operand w)

/-- A factor, given the reader for what stands in parentheses; without one, no
further parenthesis may open. -/
def operand (nested : Option (Reader σ)) : Reader σ := fun w =>
  match found : w.current.kind with
  | .number =>
    let value := Nat.ofDigitChars 10 w.current.lexeme.toList 0
    .ok ⟨.number value (.ofPosition w.current.position), w.advance,
      Window.advance_size (by simp [found])⟩
  | .string =>
    let text := String.ofList (w.current.lexeme.toList.drop 1).dropLast
    .ok ⟨.string text (.ofPosition w.current.position), w.advance,
      Window.advance_size (by simp [found])⟩
  | .identifier =>
    .ok ⟨.reference w.current.lexeme (.ofPosition w.current.position), w.advance,
      Window.advance_size (by simp [found])⟩
  | .lparen =>
    match nested with
    | none => .error ⟨.tooDeep, w⟩
    | some inner => do
      have opened : w.advance.size < w.size := Window.advance_size (by simp [found])
      let body ← inner w.advance
      let closed ← expect .rparen body.window (by decide)
      .ok ⟨body.node, closed.val,
        Nat.lt_trans closed.property (Nat.lt_trans body.shorter opened)⟩
  | _ => .error (reject (.noOperand w.current) w)

/-- A factor with at most `limit` parenthesised factors open at once. -/
def factor : Nat → Reader σ
  | 0 => operand none
  | limit + 1 => operand (some (chain .sum (chain .product (factor limit))))

def term (limit : Nat) : Reader σ := chain .product (factor limit)

def expression (limit : Nat) : Reader σ := chain .sum (term limit)

def statement (limit : Nat) : Reader σ := fun w =>
  match found : w.current.kind with
  | .print => do
    have named : w.advance.size < w.size := Window.advance_size (by simp [found])
    let opened ← expect .lparen w.advance (by decide)
    let argument ← expression limit opened.val
    let closed ← expect .rparen argument.window (by decide)
    .ok ⟨.print argument.node (.ofPosition w.current.position), closed.val,
      Nat.lt_trans closed.property
        (Nat.lt_trans argument.shorter (Nat.lt_trans opened.property named))⟩
  | .identifier =>
    if assigned : w.peek.kind = .assign then do
      have named : w.advance.size < w.size := Window.advance_size (by simp [found])
      have bound : w.advance.advance.size < w.advance.size :=
        Window.advance_size (by simp [Window.advance, assigned])
      let value ← expression limit w.advance.advance
      .ok ⟨.assignment w.current.lexeme value.node (.ofPosition w.current.position), value.window,
        Nat.lt_trans value.shorter (Nat.lt_trans bound named)⟩
    else .error (reject (.noStatement w.current) w)
  | _ => .error (reject (.noStatement w.current) w)

def skipNewlines (w : Window σ) : Window σ :=
  if found : w.current.kind = .newline then
    have : w.advance.size < w.size := Window.advance_size (by simp [found])
    skipNewlines w.advance
  else w
termination_by w.size

theorem skipNewlines_size (w : Window σ) : (skipNewlines w).size ≤ w.size := by
  fun_induction skipNewlines w with
  | case1 w found shorter ih => exact Nat.le_trans ih (Nat.le_of_lt shorter)
  | case2 w found => exact Nat.le_refl _

/-- All statements up to the end of the tokens, and the view there. -/
def program (limit : Nat) (w : Window σ) : Except (Halt σ) (List Node × Window σ) :=
  if (skipNewlines w).current.kind = .eof then .ok ([], skipNewlines w)
  else do
    let first ← statement limit (skipNewlines w)
    have : first.window.size < w.size := Nat.lt_of_lt_of_le first.shorter (skipNewlines_size w)
    let rest ← program limit first.window
    .ok (first.node :: rest.1, rest.2)
termination_by w.size

end Grammar

/-- Outcome of reading a whole source: the statements or why there are none, and
the unknown characters passed until then. -/
structure Parsed where
  program : Except ReadFailure (List Node)
  unknown : List UnknownCharacter

/-- Reads a source with at most `limit` parenthesised factors open at once. -/
def parse (limit : Nat) (source : String) : Parsed :=
  match Grammar.program limit (Window.view (Scanner.start source)) with
  | .ok (program, window) => ⟨.ok program, window.feed.unknown⟩
  | .error halt => ⟨.error halt.failure, halt.window.feed.unknown⟩

/-- The number of parenthesised factors that may be open at once. -/
def nestingLimit : Nat := 400

end IntScript

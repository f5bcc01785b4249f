import IntScript.Proofs.Cutting
import IntScript.Proofs.Writing

/-! The pieces that a tree is written in. For trees of the shape that sources have,
the text of the pieces is what is written, and they may stand one after the other:
none of them runs on into the next. -/
namespace IntScript

/-- A word other than the keyword. -/
def isName (name : String) : Bool :=
  name.toList.head?.any isWordStart && name.toList.all isWordChar && name ≠ "print"

namespace Node

/-- Expressions of the shape that sources have: numbers have no sign and texts have
no quote. -/
def isExpression : Node → Bool
  | .number value _ => 0 ≤ value
  | .string text _ => !text.toList.contains '"'
  | .reference name _ => isName name
  | .binary _ left right _ => left.isExpression && right.isExpression
  | .assignment .. | .print .. => false

/-- Statements of the shape that sources have. -/
def isStatement : Node → Bool
  | .assignment name value _ => isName name && value.isExpression
  | .print argument _ => argument.isExpression
  | _ => false

end Node

def Operator.piece : Operator → Piece
  | .add => .symbol .plus '+'
  | .sub => .symbol .minus '-'
  | .mul => .symbol .times '*'
  | .div => .symbol .divide '/'

namespace Piece

def enclosed (needed : Bool) (pieces : List Piece) : List Piece :=
  if needed then .symbol .lparen '(' :: (pieces ++ [.symbol .rparen ')']) else pieces

end Piece

namespace Node
open Piece (enclosed textOf Fit)

/-- How tightly a tree binds; statements bind least. -/
def binding (node : Node) : Nat := node.precedence?.getD 0

def pieces : Node → List Piece
  | .number value _ => [.number (Nat.toDigits 10 value.toNat)]
  | .string text _ => [.string text.toList true]
  | .reference name _ => [.word name.toList]
  | .binary op left right _ =>
    enclosed (left.binding < op.precedence) left.pieces ++
      .spacing ' ' :: op.piece :: .spacing ' ' ::
        enclosed (right.binding ≤ op.precedence) right.pieces
  | .assignment name value _ =>
    .word name.toList :: .spacing ' ' :: .symbol .assign '=' :: .spacing ' ' :: value.pieces
  | .print argument _ =>
    .word ['p', 'r', 'i', 'n', 't'] :: .symbol .lparen '(' ::
      (argument.pieces ++ [.symbol .rparen ')'])

theorem precedence_of_isExpression {node : Node} (shape : node.isExpression) :
    node.precedence = .ok node.binding := by
  cases node with
  | assignment | print => contradiction
  | _ => rfl

theorem parentheses_ofList (needed : Prop) [Decidable needed] (pieces : List Piece) :
    (if needed then "(" ++ String.ofList (textOf pieces) ++ ")"
      else String.ofList (textOf pieces)) = String.ofList (textOf (enclosed needed pieces)) := by
  apply String.toList_injective
  by_cases holds : needed <;> simp [holds, enclosed, Piece.text]

theorem written_of_isExpression {node : Node} (shape : node.isExpression) :
    node.written = .ok (String.ofList (textOf node.pieces)) := by
  induction node with
  | number value place =>
    obtain ⟨n, rfl⟩ := Int.eq_ofNat_of_zero_le (of_decide_eq_true shape)
    have digits : toString (n : Int) = String.ofList (Nat.toDigits 10 n) :=
      Nat.toString_eq_ofList_toDigits
    simp [written, pieces, Piece.text, digits]
  | string text place =>
    refine congrArg Except.ok (String.toList_injective ?_)
    simp [pieces, Piece.text]
  | reference name place => simp [written, pieces, Piece.text]
  | binary op left right place ihLeft ihRight =>
    obtain ⟨shapeLeft, shapeRight⟩ := Bool.and_eq_true_iff.mp shape
    rw [written, joined, ihLeft shapeLeft, ihRight shapeRight,
      precedence_of_isExpression shapeLeft, precedence_of_isExpression shapeRight]
    refine congrArg Except.ok (String.toList_injective ?_)
    rw [parentheses_ofList, parentheses_ofList]
    cases op <;> simp [pieces, Piece.text, Operator.piece, Operator.symbol]
  | assignment | print => contradiction

theorem written_of_isStatement {node : Node} (shape : node.isStatement) :
    node.written = .ok (String.ofList (textOf node.pieces)) := by
  cases node with
  | assignment name value place =>
    obtain ⟨named, shapeValue⟩ := Bool.and_eq_true_iff.mp shape
    rw [written, written_of_isExpression shapeValue]
    refine congrArg Except.ok (String.toList_injective ?_)
    simp [pieces, Piece.text]
  | print argument place =>
    rw [written, written_of_isExpression shape]
    refine congrArg Except.ok (String.toList_injective ?_)
    simp [pieces, Piece.text]
  | _ => contradiction

end Node

/-- Nothing that extends a word or a number stands at the front. -/
def Breaks (rest : List Char) : Prop := ∀ c ∈ rest.head?, isWordChar c = false

theorem breaks_nil : Breaks [] := by simp [Breaks]

theorem breaks_cons {c : Char} {rest : List Char} (apart : isWordChar c = false) :
    Breaks (c :: rest) := by
  simpa [Breaks] using apart

namespace Piece

theorem fits_number (n : Nat) {rest : List Char} (breaks : Breaks rest) :
    (Piece.number (Nat.toDigits 10 n)).Fits rest := by
  refine ⟨by simp, fun c member => Nat.isDigit_of_mem_toDigits (by decide) (by decide) member, ?_⟩
  intro c head
  have := breaks c head
  simp only [isWordChar, Bool.or_eq_false_iff] at this
  exact this.2

theorem fits_name {name : String} (named : isName name) {rest : List Char} (breaks : Breaks rest) :
    (Piece.word name.toList).Fits rest := by
  simp only [isName, Bool.and_eq_true, Option.any_eq_true, List.all_eq_true] at named
  obtain ⟨⟨⟨c, head, letter⟩, inside⟩, -⟩ := named
  exact fits_word.mpr ⟨⟨c, head, letter⟩, inside, breaks⟩

theorem fit_enclosed {pieces : List Piece} (fit : ∀ {rest}, Breaks rest → Fit pieces rest)
    (needed : Bool) {rest : List Char} (breaks : Breaks rest) :
    Fit (enclosed needed pieces) rest := by
  cases needed with
  | false => exact fit breaks
  | true =>
    have closing : Breaks (textOf [.symbol .rparen ')'] ++ rest) := breaks_cons (by decide)
    exact ⟨fits_symbol.mpr rfl, fit_append.mpr ⟨fit closing, fits_symbol.mpr rfl, trivial⟩⟩

end Piece

namespace Node
open Piece (Fit fits_spacing fits_symbol fits_word)

theorem fit_of_isExpression {node : Node} (shape : node.isExpression) {rest : List Char}
    (breaks : Breaks rest) : Fit node.pieces rest := by
  induction node generalizing rest with
  | number value place => exact ⟨Piece.fits_number _ breaks, trivial⟩
  | string text place =>
    simp only [isExpression, Bool.not_eq_true', List.contains_eq_mem, decide_eq_false_iff_not]
      at shape
    exact ⟨⟨shape, by simp⟩, trivial⟩
  | reference name place => exact ⟨Piece.fits_name shape breaks, trivial⟩
  | binary op left right place ihLeft ihRight =>
    obtain ⟨shapeLeft, shapeRight⟩ := Bool.and_eq_true_iff.mp shape
    -- the blanks around an operator end a word or number in front of it
    refine Piece.fit_append.mpr ⟨?_, fits_spacing.mpr rfl, ?_, fits_spacing.mpr rfl,
      Piece.fit_enclosed (ihRight shapeRight) _ breaks⟩
    · exact Piece.fit_enclosed (ihLeft shapeLeft) _ (breaks_cons (by decide))
    · cases op <;> exact fits_symbol.mpr rfl
  | assignment | print => contradiction

theorem fit_of_isStatement {node : Node} (shape : node.isStatement) {rest : List Char}
    (breaks : Breaks rest) : Fit node.pieces rest := by
  cases node with
  | assignment name value place =>
    obtain ⟨named, shapeValue⟩ := Bool.and_eq_true_iff.mp shape
    exact ⟨Piece.fits_name named (breaks_cons (by decide)), fits_spacing.mpr rfl,
      fits_symbol.mpr rfl, fits_spacing.mpr rfl, fit_of_isExpression shapeValue breaks⟩
  | print argument place =>
    refine ⟨fits_word.mpr ⟨?_, ?_, breaks_cons (by decide)⟩, fits_symbol.mpr rfl,
      Piece.fit_append.mpr ⟨?_, fits_symbol.mpr rfl, trivial⟩⟩
    · exact ⟨'p', rfl, rfl⟩
    · exact List.all_eq_true.mp rfl
    · exact fit_of_isExpression shape (breaks_cons (by decide))
  | _ => contradiction

end Node

end IntScript

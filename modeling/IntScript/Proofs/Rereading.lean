import IntScript.Proofs.Derivation
import IntScript.Proofs.Erasure
import IntScript.Proofs.Scanning
import IntScript.Proofs.WrittenPieces

/-! The tokens of a written tree derive it again, up to places. Parentheses stand
where a tree binds less tightly than its place asks for, so each operand is of the
phrase that the grammar wants there. -/
namespace IntScript

def Token.form (t : Token) : TokenKind × List Char := (t.kind, t.lexeme.toList)

theorem Token.form_eq_iff {t : Token} {kind : TokenKind} {lexeme : List Char} :
    t.form = (kind, lexeme) ↔ t.kind = kind ∧ t.lexeme.toList = lexeme :=
  Prod.mk.injEq .. ▸ Iff.rfl

theorem Piece.form_tokensFrom (position : Position) (pieces : List Piece) :
    (tokensFrom position pieces).map Token.form = pieces.filterMap token? := by
  fun_induction tokensFrom position pieces with
  | case1 => rfl
  | case2 position piece pieces kind lexeme found ih => simp [found, ih, Token.form]
  | case3 position piece pieces none ih => simp [none, ih]

namespace Phrase

def binding : Phrase → Nat
  | .factor => 3
  | .chain .product => 2
  | .chain .sum => 1

theorem binding_bounds (phrase : Phrase) :
    Phrase.expression.binding ≤ phrase.binding ∧ phrase.binding ≤ Phrase.factor.binding := by
  rcases phrase with _ | _ | _ <;> decide

end Phrase

namespace Derivation

/-- A phrase stands wherever one that binds less tightly is wanted. -/
theorem Expression.loosen {tight loose : Phrase} {tokens : List Token} {node : Node}
    (derived : Expression tight tokens node) (order : loose.binding ≤ tight.binding) :
    Expression loose tokens node := by
  rcases tight with _ | _ | _ <;> rcases loose with _ | _ | _ <;>
    simp only [Phrase.binding, Nat.reduceLeDiff] at order
  · exact derived
  · exact .single (.single derived)
  · exact .single derived
  · exact derived
  · exact .single derived
  · exact derived

end Derivation

def Operator.level : Operator → Level
  | .add | .sub => .sum
  | .mul | .div => .product

theorem Operator.piece_token? (op : Operator) :
    ∃ kind lexeme, op.piece.token? = some (kind, lexeme) ∧ op.level.Joins kind op := by
  cases op <;> exact ⟨_, _, rfl, by constructor⟩

theorem Operator.binding_level (op : Operator) :
    (Phrase.chain op.level).binding = op.precedence ∧
      op.level.operand.binding = op.precedence + 1 := by
  cases op <;> exact ⟨rfl, rfl⟩

namespace Node
open IntScript.Derivation (Expression Statement)

/-- The phrase that a tree is without parentheses. -/
def phrase : Node → Phrase
  | .binary op .. => .chain op.level
  | _ => .factor

theorem binding_phrase {node : Node} (shape : node.isExpression) :
    node.phrase.binding = node.binding := by
  cases node with
  | binary op left right place => exact op.binding_level.1
  | assignment | print => contradiction
  | _ => rfl

/-- Tokens of the given forms derive the tree as a phrase, up to places. -/
def Rereads (phrase : Phrase) (forms : List (TokenKind × List Char)) (node : Node) : Prop :=
  ∀ tokens : List Token, tokens.map Token.form = forms →
    ∃ read, Expression phrase tokens read ∧ read.erase = node.erase

/-- With its parentheses a tree is of any phrase that they were put there for. -/
theorem rereads_enclosed {phrase : Phrase} {node : Node} {needed : Bool}
    (rereads : Rereads node.phrase (node.pieces.filterMap Piece.token?) node)
    (tight : needed = false → phrase.binding ≤ node.phrase.binding) :
    Rereads phrase ((Piece.enclosed needed node.pieces).filterMap Piece.token?) node := by
  intro tokens forms
  cases needed with
  | false =>
    obtain ⟨read, derived, same⟩ := rereads tokens forms
    exact ⟨read, derived.loosen (tight rfl), same⟩
  | true =>
    simp only [Piece.enclosed, if_true, List.filterMap_cons, List.filterMap_append, Piece.token?]
      at forms
    obtain ⟨opening, _, rfl, opens, forms⟩ := List.map_eq_cons_iff.mp forms
    obtain ⟨inside, _, rfl, formsInside, forms⟩ := List.map_eq_append_iff.mp forms
    obtain ⟨closing, _, rfl, closes, forms⟩ := List.map_eq_cons_iff.mp forms
    obtain rfl := List.map_eq_nil_iff.mp forms
    obtain ⟨read, derived, same⟩ := rereads inside formsInside
    have body : Expression .expression inside read := derived.loosen node.phrase.binding_bounds.1
    have whole := Expression.parenthesised (Token.form_eq_iff.mp opens).1 body
      (Token.form_eq_iff.mp closes).1
    exact ⟨read, whole.loosen phrase.binding_bounds.2, same⟩

theorem wordKind_of_isName {name : String} (named : isName name) :
    wordKind name.toList = .identifier := by
  simp only [isName, Bool.and_eq_true, decide_eq_true_eq] at named
  refine if_neg fun keyword => named.2 (String.toList_injective ?_)
  rw [keyword]
  decide

theorem rereads_of_isExpression {node : Node} (shape : node.isExpression) :
    Rereads node.phrase (node.pieces.filterMap Piece.token?) node := by
  induction node with
  | number value place =>
    intro tokens forms
    obtain ⟨t, rfl, form⟩ := List.map_eq_singleton_iff.mp forms
    obtain ⟨kind, digits⟩ := Token.form_eq_iff.mp form
    refine ⟨_, .number kind, ?_⟩
    rw [erase, erase, digits, Nat.ofDigitChars_ten_toDigits,
      Int.toNat_of_nonneg (of_decide_eq_true shape)]
  | string text place =>
    intro tokens forms
    obtain ⟨t, rfl, form⟩ := List.map_eq_singleton_iff.mp forms
    obtain ⟨kind, quoted⟩ := Token.form_eq_iff.mp form
    refine ⟨_, .string kind, ?_⟩
    simp [erase, quoted]
  | reference name place =>
    intro tokens forms
    obtain ⟨t, rfl, form⟩ := List.map_eq_singleton_iff.mp forms
    obtain ⟨kind, letters⟩ := Token.form_eq_iff.mp form
    rw [wordKind_of_isName shape] at kind
    exact ⟨_, .reference kind, by rw [erase, erase, String.toList_injective letters]⟩
  | binary op left right place ihLeft ihRight =>
    obtain ⟨shapeLeft, shapeRight⟩ := Bool.and_eq_true_iff.mp shape
    obtain ⟨kind, lexeme, token, found⟩ := op.piece_token?
    obtain ⟨whole, operand⟩ := op.binding_level
    -- an operand without parentheses binds as its side asks for: chains fold to the left,
    -- so equal precedence is enough on the left and too little on the right
    have bareLeft : decide (left.binding < op.precedence) = false →
        (Phrase.chain op.level).binding ≤ left.phrase.binding := by
      intro bare
      have := of_decide_eq_false bare
      rw [binding_phrase shapeLeft]
      omega
    have bareRight : decide (right.binding ≤ op.precedence) = false →
        op.level.operand.binding ≤ right.phrase.binding := by
      intro bare
      have := of_decide_eq_false bare
      rw [binding_phrase shapeRight]
      omega
    have blank : (Piece.spacing ' ').token? = none := rfl
    intro tokens forms
    simp only [pieces, List.filterMap_append, List.filterMap_cons, token, blank] at forms
    obtain ⟨before, _, rfl, formsLeft, forms⟩ := List.map_eq_append_iff.mp forms
    obtain ⟨t, behind, rfl, form, formsRight⟩ := List.map_eq_cons_iff.mp forms
    obtain ⟨readLeft, derivedLeft, sameLeft⟩ :=
      rereads_enclosed (ihLeft shapeLeft) bareLeft before formsLeft
    obtain ⟨readRight, derivedRight, sameRight⟩ :=
      rereads_enclosed (ihRight shapeRight) bareRight behind formsRight
    obtain ⟨rfl, -⟩ := Token.form_eq_iff.mp form
    refine ⟨_, .join derivedLeft found derivedRight, ?_⟩
    rw [erase, erase, sameLeft, sameRight]
  | assignment | print => contradiction

theorem rereads_of_isStatement {node : Node} (shape : node.isStatement) {tokens : List Token}
    (forms : tokens.map Token.form = node.pieces.filterMap Piece.token?) :
    ∃ read, Statement tokens read ∧ read.erase = node.erase := by
  cases node with
  | assignment name value place =>
    obtain ⟨named, shapeValue⟩ := Bool.and_eq_true_iff.mp shape
    obtain ⟨t, _, rfl, word, forms⟩ := List.map_eq_cons_iff.mp forms
    obtain ⟨sign, inside, rfl, assigns, forms⟩ := List.map_eq_cons_iff.mp forms
    obtain ⟨read, derived, same⟩ := rereads_of_isExpression shapeValue inside forms
    obtain ⟨kind, letters⟩ := Token.form_eq_iff.mp word
    rw [wordKind_of_isName named] at kind
    have body := derived.loosen value.phrase.binding_bounds.1
    refine ⟨_, .assignment kind (Token.form_eq_iff.mp assigns).1 body, ?_⟩
    rw [erase, erase, String.toList_injective letters, same]
  | print argument place =>
    obtain ⟨t, _, rfl, word, forms⟩ := List.map_eq_cons_iff.mp forms
    obtain ⟨opening, _, rfl, opens, forms⟩ := List.map_eq_cons_iff.mp forms
    rw [List.filterMap_append] at forms
    obtain ⟨inside, _, rfl, formsInside, forms⟩ := List.map_eq_append_iff.mp forms
    obtain ⟨closing, rfl, closes⟩ := List.map_eq_singleton_iff.mp forms
    obtain ⟨read, derived, same⟩ := rereads_of_isExpression shape inside formsInside
    have kind : t.kind = .print := (Token.form_eq_iff.mp word).1
    have body := derived.loosen argument.phrase.binding_bounds.1
    refine ⟨_, .print kind (Token.form_eq_iff.mp opens).1 body (Token.form_eq_iff.mp closes).1, ?_⟩
    rw [erase, erase, same]
  | _ => contradiction

/-- The pieces of statements on lines of their own. -/
def lines : List Node → List Piece
  | [] => []
  | [node] => node.pieces
  | node :: nodes => node.pieces ++ .newline :: lines nodes

theorem textOf_lines (nodes : List Node) :
    Piece.textOf (lines nodes) =
      ['\n'].intercalate (nodes.map fun node => Piece.textOf node.pieces) := by
  fun_induction lines nodes with
  | case1 => rfl
  | case2 node => simp
  | case3 node nodes more ih =>
    obtain ⟨other, nodes, rfl⟩ := List.exists_cons_of_ne_nil more
    simp [ih, Piece.text, List.intercalate_cons_cons]

theorem fit_lines {nodes : List Node} (shapes : ∀ node ∈ nodes, node.isStatement) :
    Piece.Fit (lines nodes) [] := by
  fun_induction lines nodes with
  | case1 => trivial
  | case2 node => exact fit_of_isStatement (shapes node List.mem_cons_self) breaks_nil
  | case3 node nodes more ih =>
    obtain ⟨shape, shapes⟩ := List.forall_mem_cons.mp shapes
    exact Piece.fit_append.mpr
      ⟨fit_of_isStatement shape (breaks_cons (by decide)), trivial, ih shapes⟩

theorem rereads_lines {nodes : List Node} (shapes : ∀ node ∈ nodes, node.isStatement)
    {tokens : List Token} (forms : tokens.map Token.form = (lines nodes).filterMap Piece.token?) :
    ∃ read, Derivation.Statements tokens read ∧ read.map erase = nodes.map erase := by
  fun_induction lines nodes generalizing tokens with
  | case1 =>
    obtain rfl := List.map_eq_nil_iff.mp forms
    exact ⟨[], .none, rfl⟩
  | case2 node =>
    obtain ⟨read, derived, same⟩ := rereads_of_isStatement (shapes node List.mem_cons_self) forms
    have statements : Derivation.Statements (tokens ++ ([] ++ [])) [read] :=
      .more derived (by simp [Derivation.Newlines]) .none
    exact ⟨[read], by simpa using statements, by simp [same]⟩
  | case3 node nodes more ih =>
    rw [List.filterMap_append] at forms
    obtain ⟨first, _, rfl, formsFirst, forms⟩ := List.map_eq_append_iff.mp forms
    obtain ⟨t, rest, rfl, newline, forms⟩ := List.map_eq_cons_iff.mp forms
    obtain ⟨shape, shapes⟩ := List.forall_mem_cons.mp shapes
    obtain ⟨read, derived, same⟩ := rereads_of_isStatement shape formsFirst
    obtain ⟨others, statements, sameOthers⟩ := ih shapes forms
    have blank : Derivation.Newlines [t] := by
      simpa [Derivation.Newlines] using (Token.form_eq_iff.mp newline).1
    exact ⟨read :: others, .more derived blank statements, by simp [same, sameOthers]⟩

end Node
end IntScript

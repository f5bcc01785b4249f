import IntScript.Proofs.Comparison
import IntScript.Proofs.Parsing
import Mathlib.Data.List.Forall2

/-! The nodes of a program, read from left to right, are the tokens of its source. Newlines, signs
of assignment and parentheses leave no node. Every other token becomes exactly one, which stands at
its place and says what it says. So the places of the nodes go forward through the source. -/
namespace IntScript

namespace Position

/-- In an earlier line, or further to the left in the same line. -/
def Precedes (p q : Position) : Prop := p.line < q.line ∨ p.line = q.line ∧ p.col < q.col

theorem Precedes.trans {p q r : Position} (first : p.Precedes q) (second : q.Precedes r) :
    p.Precedes r := by
  unfold Precedes at *
  omega

theorem precedes_step (p : Position) (c : Char) : p.Precedes (p.step c) := by
  unfold step
  split <;> simp [Precedes]

theorem precedes_after {text : List Char} (some : text ≠ []) (p : Position) :
    p.Precedes (p.after text) := by
  induction text generalizing p with
  | nil => exact absurd rfl some
  | cons c text ih =>
    rw [after_cons]
    cases text with
    | nil => exact p.precedes_step c
    | cons d text => exact (p.precedes_step c).trans (ih (by simp) _)

end Position

namespace Piece

theorem Fits.text_ne_nil {piece : Piece} {rest : List Char} (fits : piece.Fits rest) :
    piece.text ≠ [] := by
  cases piece with
  | number digits => exact fits.1
  | word letters =>
    obtain ⟨⟨c, head, -⟩, -⟩ := fits
    rintro rfl
    cases head
  | _ => simp [text]

/-- Tokens stand behind one another. -/
theorem tokensFrom_precede {pieces : List Piece} {rest : List Char} (fit : Fit pieces rest)
    (p : Position) : ((tokensFrom p pieces).map Token.position).Pairwise Position.Precedes := by
  fun_induction tokensFrom p pieces with
  | case1 => exact .nil
  | case2 p piece pieces kind lexeme token ih =>
    refine List.pairwise_cons.mpr ⟨fun q member => ?_, ih fit.2⟩
    obtain ⟨t, behind, rfl⟩ := List.mem_map.mp member
    obtain ⟨before, -, -, -, -, place⟩ := tokensFrom_split behind
    rw [place, ← Position.after_append]
    exact Position.precedes_after (by simp [fit.1.text_ne_nil]) p
  | case3 p piece pieces none ih => exact ih fit.2

end Piece

/-- The first place is known to stand before the second. -/
def Place.Precedes (p q : Place) : Prop :=
  ∃ a b : Position, p = .ofPosition a ∧ q = .ofPosition b ∧ a.Precedes b

/-- Tokens that leave no node behind. -/
def TokenKind.isSilent : TokenKind → Bool
  | .newline | .assign | .lparen | .rparen | .eof => true
  | _ => false

/-- The nodes of a tree from left to right, each operator between its operands and each statement in
front of what it holds. -/
def Node.inorder : Node → List Node
  | .binary op left right place => left.inorder ++ .binary op left right place :: right.inorder
  | .assignment name value place => .assignment name value place :: value.inorder
  | .print argument place => .print argument place :: argument.inorder
  | node => [node]

namespace Token

/-- What a token says, and what kinds of nodes say it: the number that its digits make, the text
between its quotes, its name, its operator, or just that something is printed. -/
inductive Means (t : Token) : NodeKind → Key → Prop where
  | number (kind : t.kind = .number) (digits : ∀ c ∈ t.lexeme.toList, c.isDigit) :
      Means t .number (.integer (Nat.ofDigitChars 10 t.lexeme.toList 0))
  | string {text : String} (kind : t.kind = .string) (quoted : t.lexeme = "\"" ++ text ++ "\"") :
      Means t .string (.text text)
  | reference (kind : t.kind = .identifier) : Means t .reference (.text t.lexeme)
  | assignment (kind : t.kind = .identifier) : Means t .assignment (.text t.lexeme)
  | operator {level : Level} {op : Operator} (found : level.Joins t.kind op)
      (sign : t.lexeme = op.symbol) : Means t .binary (.operator op)
  | print (kind : t.kind = .print) (keyword : t.lexeme = "print") : Means t .print .none

/-- The node stands at the place of the token and says what the token says. -/
structure Becomes (t : Token) (node : Node) : Prop where
  place : node.place = .ofPosition t.position
  means : t.Means node.kind node.key

theorem Becomes.not_isSilent {t : Token} {node : Node} (becomes : t.Becomes node) :
    t.kind.isSilent = false := by
  obtain ⟨-, means⟩ := becomes
  generalize node.kind = kind, node.key = key at means
  cases means with
  | operator found sign =>
    generalize t.kind = kind at found
    cases found <;> rfl
  | number kind | string kind | reference kind | assignment kind | print kind =>
    rw [kind]
    rfl

namespace Spelled
variable {t : Token}

theorem digits (spelled : t.Spelled) (kind : t.kind = .number) :
    ∀ c ∈ t.lexeme.toList, c.isDigit := by
  have lexeme := spelled.spells
  rw [kind] at lexeme
  exact lexeme

theorem quoted (spelled : t.Spelled) (kind : t.kind = .string) :
    t.lexeme = "\"" ++ String.ofList (t.lexeme.toList.drop 1).dropLast ++ "\"" := by
  obtain ⟨body, -, quoted⟩ := spelled.string_body kind
  apply String.toList_injective
  simp [quoted]

theorem keyword (spelled : t.Spelled) (kind : t.kind = .print) : t.lexeme = "print" := by
  have lexeme := spelled.spells
  rw [kind] at lexeme
  exact String.toList_injective lexeme

theorem sign (spelled : t.Spelled) {level : Level} {op : Operator}
    (found : level.Joins t.kind op) : t.lexeme = op.symbol := by
  have lexeme := spelled.spells
  apply String.toList_injective
  generalize t.kind = kind at found lexeme
  cases found <;> exact lexeme

end Spelled

/-- The tokens that are not silent became the nodes, one by one. -/
def Keep (tokens : List Token) (nodes : List Node) : Prop :=
  List.Forall₂ Becomes (tokens.filter (!·.kind.isSilent)) nodes

namespace Keep
variable {tokens tokens' : List Token} {nodes nodes' : List Node}

theorem append (first : Keep tokens nodes) (second : Keep tokens' nodes') :
    Keep (tokens ++ tokens') (nodes ++ nodes') := by
  rw [Keep, List.filter_append]
  exact List.rel_append first second

theorem single {t : Token} {node : Node} (becomes : t.Becomes node) : Keep [t] [node] := by
  rw [Keep, List.filter_singleton, becomes.not_isSilent]
  exact .cons becomes .nil

theorem silent (silent : ∀ t ∈ tokens, t.kind.isSilent = true) : Keep tokens [] := by
  have none : tokens.filter (!·.kind.isSilent) = [] := by simpa using silent
  rw [Keep, none]
  exact .nil

theorem enclosed {opening closing : Token} (opens : opening.kind = .lparen)
    (body : Keep tokens nodes) (closes : closing.kind = .rparen) :
    Keep (opening :: (tokens ++ [closing])) nodes := by
  have before : Keep [opening] [] := silent (by simp [opens, TokenKind.isSilent])
  have behind : Keep [closing] [] := silent (by simp [closes, TokenKind.isSilent])
  simpa using before.append (body.append behind)

end Keep
end Token

namespace Derivation
open Token (Keep)

theorem Expression.keeps {phrase : Phrase} {tokens : List Token} {node : Node}
    (derived : Expression phrase tokens node) (spelled : ∀ t ∈ tokens, t.Spelled) :
    Keep tokens node.inorder := by
  induction derived with
  | number kind => exact .single ⟨rfl, .number kind ((spelled _ List.mem_cons_self).digits kind)⟩
  | string kind => exact .single ⟨rfl, .string kind ((spelled _ List.mem_cons_self).quoted kind)⟩
  | reference kind => exact .single ⟨rfl, .reference kind⟩
  | parenthesised opens body closes ih =>
    exact .enclosed opens (ih fun t member => spelled t (by simp [member])) closes
  | single operand ih => exact ih spelled
  | join first found last ihFirst ihLast =>
    have before := ihFirst fun t member => spelled t (by simp [member])
    have behind := ihLast fun t member => spelled t (by simp [member])
    have sign := (spelled _ (by simp)).sign found
    exact before.append ((Keep.single ⟨rfl, .operator found sign⟩).append behind)

theorem Statement.keeps {tokens : List Token} {node : Node} (derived : Statement tokens node)
    (spelled : ∀ t ∈ tokens, t.Spelled) : Keep tokens node.inorder := by
  cases derived with
  | print kind opens body closes =>
    have inside := body.keeps fun t member => spelled t (by simp [member])
    have keyword := (spelled _ List.mem_cons_self).keyword kind
    exact (Keep.single ⟨rfl, .print kind keyword⟩).append (.enclosed opens inside closes)
  | @assignment t sign tokens value kind assigns body =>
    have behind := body.keeps fun t member => spelled t (by simp [member])
    have between : Keep [sign] [] := .silent (by simp [assigns, TokenKind.isSilent])
    exact (Keep.single ⟨rfl, .assignment kind⟩).append (between.append behind)

theorem Newlines.keep {tokens : List Token} (blank : Newlines tokens) : Keep tokens [] :=
  .silent fun t member => by rw [blank t member]; rfl

theorem Statements.keeps {tokens : List Token} {nodes : List Node}
    (derived : Statements tokens nodes) (spelled : ∀ t ∈ tokens, t.Spelled) :
    Keep tokens (nodes.flatMap Node.inorder) := by
  induction derived with
  | none => exact .nil
  | more statement blank others ih =>
    have first := statement.keeps fun t member => spelled t (by simp [member])
    have rest := ih fun t member => spelled t (by simp [member])
    exact first.append (blank.keep.append rest)

end Derivation

theorem keep_of_parse {limit : Nat} {source : String} {nodes : List Node}
    (read : (parse limit source).program = .ok nodes) :
    Token.Keep (Scanner.start source).upcoming (nodes.flatMap Node.inorder) := by
  obtain ⟨newlines, rest, whole, blank, statements⟩ := program_of_parse read
  have kept := statements.keeps fun t member =>
    Scanner.spelled_of_upcoming (whole ▸ List.mem_append_right newlines member)
  rw [whole]
  exact blank.keep.append kept

namespace Scanner

theorem filter_tokens (s : Scanner) :
    s.tokens.filter (!·.kind.isSilent) = s.upcoming.filter (!·.kind.isSilent) := by
  rw [tokens_eq, List.filter_append]
  exact List.append_nil _

theorem upcoming_precede (s : Scanner) :
    (s.upcoming.map Token.position).Pairwise Position.Precedes :=
  Piece.tokensFrom_precede (Piece.fit_cut s.rest) s.position

end Scanner

/-- Nodes that tokens became stand at the places of the tokens. -/
theorem Token.Keep.places {tokens : List Token} {nodes : List Node} (kept : Keep tokens nodes) :
    nodes.map Node.place =
      ((tokens.filter (!·.kind.isSilent)).map Token.position).map Place.ofPosition := by
  rw [List.map_map, ← List.forall₂_eq_eq_eq, List.forall₂_map_left_iff, List.forall₂_map_right_iff]
  exact kept.flip.imp fun node t becomes => becomes.place

/-- For every source that can be read, the nodes of the program from left to right are the tokens
of the source in their order, newlines, signs of assignment, parentheses and the final token left
out: each node stands at the place of its token and says what it says. The places go forward. -/
theorem nodes_in_source_order {limit : Nat} {source : String} {nodes : List Node}
    (read : (parse limit source).program = .ok nodes) :
    List.Forall₂ Token.Becomes ((Scanner.start source).tokens.filter (!·.kind.isSilent))
      (nodes.flatMap Node.inorder) ∧
    (nodes.flatMap Node.inorder).Pairwise (fun a b => a.place.Precedes b.place) := by
  have kept := keep_of_parse read
  have forward := (Scanner.start source).upcoming_precede
  refine ⟨(Scanner.start source).filter_tokens ▸ kept, ?_⟩
  rw [← List.pairwise_map, kept.places, List.pairwise_map]
  refine (forward.sublist (List.filter_sublist.map _)).imp ?_
  intro p q precedes
  exact ⟨p, q, rfl, rfl, precedes⟩

/-- A parenthesis keeps the inner operator to the right of the outer one, and a text runs over the
end of a line. -/
theorem nodes_in_source_order_folded :
    let source := "x = 7 - (y - 20) # y\nprint(\"a\nb\")"
    let said (nodes : List Node) := (nodes.flatMap Node.inorder).map fun node =>
      (node.key, node.place)
    let expected : List (Key × Place) := [
      (.text "x", .ofPosition ⟨1, 1⟩), (.integer 7, .ofPosition ⟨1, 5⟩),
      (.operator .sub, .ofPosition ⟨1, 7⟩), (.text "y", .ofPosition ⟨1, 10⟩),
      (.operator .sub, .ofPosition ⟨1, 12⟩), (.integer 20, .ofPosition ⟨1, 14⟩),
      (.none, .ofPosition ⟨2, 1⟩), (.text "a\nb", .ofPosition ⟨2, 7⟩)]
    ∃ nodes, (parse nestingLimit source).program = .ok nodes ∧ said nodes = expected ∧
      List.Forall₂ Token.Becomes ((Scanner.start source).tokens.filter (!·.kind.isSilent))
        (nodes.flatMap Node.inorder) ∧
      (nodes.flatMap Node.inorder).Pairwise (fun a b => a.place.Precedes b.place) := by
  intro source said expected
  have computed : (parse nestingLimit source).program.toOption.map said = some expected := by
    decide +kernel
  have returns : (parse nestingLimit source).program.toBool = true := by decide +kernel
  obtain ⟨nodes, read⟩ := returns_of_toBool returns
  rw [read] at computed
  exact ⟨nodes, read, Option.some.inj computed, nodes_in_source_order read⟩

end IntScript

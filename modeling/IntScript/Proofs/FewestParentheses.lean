import IntScript.Proofs.Joining
import IntScript.Proofs.OpenFactors
import IntScript.Proofs.Outlining
import IntScript.Proofs.RoundTrip

/-! Trees are written with the fewest parentheses. Whatever tokens the grammar derives a tree
from, an operand that binds less tightly than its side asks for stands in parentheses there, and
the writer puts no others. -/
namespace IntScript

namespace Piece

/-- The kinds of the tokens among pieces. -/
def kinds (pieces : List Piece) : List TokenKind := (pieces.filterMap token?).map Prod.fst

theorem kinds_append (first second : List Piece) :
    kinds (first ++ second) = kinds first ++ kinds second := by
  rw [kinds, List.filterMap_append, List.map_append]
  rfl

theorem kinds_of_forms {tokens : List Token} {pieces : List Piece}
    (forms : tokens.map Token.form = pieces.filterMap token?) :
    tokens.map Token.kind = kinds pieces := by
  rw [kinds, ← forms, List.map_map]
  rfl

theorem kinds_enclosed (pieces : List Piece) :
    kinds (enclosed true pieces) = .lparen :: (kinds pieces ++ [.rparen]) := by
  rw [enclosed, if_pos rfl, ← List.singleton_append, kinds_append, kinds_append]
  rfl

theorem nests_enclosed {pieces : List Piece} {depth : Nat} (nests : Nests (kinds pieces) depth)
    (needed : Bool) : Nests (kinds (enclosed needed pieces)) (depth + needed.toNat) := by
  cases needed with
  | false => exact nests
  | true =>
    rw [kinds_enclosed]
    exact nests.enclosed

theorem count_enclosed (pieces : List Piece) (needed : Bool) :
    (kinds (enclosed needed pieces)).count .lparen =
      (kinds pieces).count .lparen + needed.toNat := by
  cases needed with
  | false => rfl
  | true => simp [kinds_enclosed]

end Piece

namespace Scanner

theorem forms_of_fit {pieces : List Piece} (fit : Piece.Fit pieces []) :
    (start (String.ofList (Piece.textOf pieces))).upcoming.map Token.form =
      pieces.filterMap Piece.token? := by
  rw [form_upcoming, String.toList_ofList, Piece.cut_unique fit]

theorem kinds_of_fit {pieces : List Piece} (fit : Piece.Fit pieces []) :
    (start (String.ofList (Piece.textOf pieces))).tokens.map Token.kind =
      Piece.kinds pieces ++ [.eof] := by
  rw [tokens_eq, List.map_append, Piece.kinds_of_forms (forms_of_fit fit)]
  rfl

end Scanner

namespace Node

/-- One if the tree takes parentheses where the phrase is wanted, else zero. -/
def enclosing (node : Node) (phrase : Phrase) : Nat :=
  (decide (node.phrase.binding < phrase.binding)).toNat

/-- The parentheses that the writer puts around operands. -/
def parens : Node → Nat
  | .number .. | .string .. | .reference .. => 0
  | .binary op left right _ => left.parens + left.enclosing (.chain op.level) +
      (right.parens + right.enclosing op.level.operand)
  | .assignment _ value _ => value.parens
  | .print argument _ => argument.parens

/-- How many of them are open at once. -/
def parenDepth : Node → Nat
  | .number .. | .string .. | .reference .. => 0
  | .binary op left right _ => max (left.parenDepth + left.enclosing (.chain op.level))
      (right.parenDepth + right.enclosing op.level.operand)
  | .assignment _ value _ => value.parenDepth
  | .print argument _ => argument.parenDepth

theorem enclosing_of_le {node : Node} {phrase : Phrase}
    (tight : phrase.binding ≤ node.phrase.binding) : node.enclosing phrase = 0 := by
  rw [enclosing, decide_eq_false (Nat.not_lt.mpr tight)]
  rfl

theorem enclosing_le_one (node : Node) (phrase : Phrase) : node.enclosing phrase ≤ 1 :=
  Bool.toNat_le _

theorem enclosing_mono (node : Node) {loose tight : Phrase}
    (order : loose.binding ≤ tight.binding) : node.enclosing loose ≤ node.enclosing tight := by
  by_cases enough : loose.binding ≤ node.phrase.binding
  · rw [enclosing_of_le enough]
    exact Nat.zero_le _
  · have needed : node.phrase.binding < tight.binding := by omega
    have one : node.enclosing tight = 1 := by rw [enclosing, decide_eq_true needed]; rfl
    rw [one]
    exact node.enclosing_le_one loose

theorem phrase_erase (node : Node) : node.erase.phrase = node.phrase := by
  cases node <;> rfl

theorem parens_erase (node : Node) : node.erase.parens = node.parens := by
  induction node with
  | binary op left right place ihLeft ihRight =>
    simp only [erase, parens, enclosing, phrase_erase, ihLeft, ihRight]
  | assignment name value place ih => exact ih
  | print argument place ih => exact ih
  | _ => rfl

theorem parenDepth_erase (node : Node) : node.erase.parenDepth = node.parenDepth := by
  induction node with
  | binary op left right place ihLeft ihRight =>
    simp only [erase, parenDepth, enclosing, phrase_erase, ihLeft, ihRight]
  | assignment name value place ih => exact ih
  | print argument place ih => exact ih
  | _ => rfl

theorem enclosing_left {node : Node} (shape : node.isExpression) (op : Operator) :
    (decide (node.binding < op.precedence)).toNat = node.enclosing (.chain op.level) := by
  rw [enclosing, binding_phrase shape, op.binding_level.1]

theorem enclosing_right {node : Node} (shape : node.isExpression) (op : Operator) :
    (decide (node.binding ≤ op.precedence)).toNat = node.enclosing op.level.operand := by
  rw [enclosing, binding_phrase shape, op.binding_level.2]
  simp only [Nat.lt_succ_iff]

end Node

theorem Operator.kinds_piece (op : Operator) : ∃ kind, op.level.Joins kind op ∧
    ∀ rest, Piece.kinds (.spacing ' ' :: op.piece :: .spacing ' ' :: rest) =
      kind :: Piece.kinds rest := by
  cases op <;> exact ⟨_, by constructor, fun _ => rfl⟩

namespace Node

theorem kinds_binary (op : Operator) (left right : Node) (place : Place) :
    ∃ kind, op.level.Joins kind op ∧
      Piece.kinds (Node.binary op left right place).pieces =
        Piece.kinds (Piece.enclosed (left.binding < op.precedence) left.pieces) ++
          kind :: Piece.kinds (Piece.enclosed (right.binding ≤ op.precedence) right.pieces) := by
  obtain ⟨kind, found, behind⟩ := op.kinds_piece
  exact ⟨kind, found, by rw [pieces, Piece.kinds_append, behind]⟩

theorem kinds_reference {name : String} (named : isName name) (place : Place) :
    Piece.kinds (Node.reference name place).pieces = [.identifier] := by
  rw [← wordKind_of_isName named]
  rfl

/-- What the writer puts is closed again and as deep as said. -/
theorem nests_pieces {node : Node} (shape : node.isExpression) :
    Nests (Piece.kinds node.pieces) node.parenDepth := by
  induction node with
  | number | string => exact Nests.nil.cons rfl
  | reference name place =>
    rw [kinds_reference shape place]
    exact Nests.nil.cons rfl
  | binary op left right place ihLeft ihRight =>
    obtain ⟨shapeLeft, shapeRight⟩ := Bool.and_eq_true_iff.mp shape
    obtain ⟨kind, found, whole⟩ := kinds_binary op left right place
    have first := Piece.nests_enclosed (ihLeft shapeLeft) (left.binding < op.precedence)
    have last := Piece.nests_enclosed (ihRight shapeRight) (right.binding ≤ op.precedence)
    rw [enclosing_left shapeLeft] at first
    rw [enclosing_right shapeRight] at last
    rw [whole]
    exact first.append (last.cons (Level.isFlat found))
  | assignment | print => contradiction

theorem count_pieces {node : Node} (shape : node.isExpression) :
    (Piece.kinds node.pieces).count .lparen = node.parens := by
  induction node with
  | number | string => rfl
  | reference name place =>
    rw [kinds_reference shape place]
    rfl
  | binary op left right place ihLeft ihRight =>
    obtain ⟨shapeLeft, shapeRight⟩ := Bool.and_eq_true_iff.mp shape
    obtain ⟨kind, found, whole⟩ := kinds_binary op left right place
    have other : kind ≠ .lparen := by
      rintro rfl
      exact absurd (Level.isFlat found) (by decide)
    rw [whole, List.count_append, List.count_cons_of_ne other, Piece.count_enclosed,
      Piece.count_enclosed, ihLeft shapeLeft, ihRight shapeRight, enclosing_left shapeLeft,
      enclosing_right shapeRight, parens]
  | assignment | print => contradiction

theorem nests_statement {node : Node} (shape : node.isStatement) :
    Nests (Piece.kinds node.pieces) node.parenDepth := by
  cases node with
  | assignment name value place =>
    obtain ⟨named, shapeValue⟩ := Bool.and_eq_true_iff.mp shape
    have whole : Piece.kinds (Node.assignment name value place).pieces =
        wordKind name.toList :: .assign :: Piece.kinds value.pieces := rfl
    rw [whole, wordKind_of_isName named]
    exact ((nests_pieces shapeValue).cons rfl).cons rfl
  | print argument place =>
    have whole : Piece.kinds (Node.print argument place).pieces =
        .print :: .lparen :: (Piece.kinds argument.pieces ++ [.rparen]) :=
      congrArg (TokenKind.print :: TokenKind.lparen :: ·) (Piece.kinds_append ..)
    rw [whole]
    exact (nests_pieces shape).printed
  | _ => contradiction

/-- Statements on lines of their own nest no deeper than the deepest of them. -/
theorem nests_lines {nodes : List Node} (shapes : ∀ node ∈ nodes, node.isStatement) {bound : Nat}
    (low : ∀ node ∈ nodes, node.parenDepth ≤ bound) :
    ∃ depth, Nests (Piece.kinds (lines nodes)) depth ∧ depth ≤ bound := by
  fun_induction lines nodes with
  | case1 => exact ⟨0, .nil, Nat.zero_le _⟩
  | case2 node =>
    exact ⟨_, nests_statement (shapes node List.mem_cons_self), low node List.mem_cons_self⟩
  | case3 node nodes more ih =>
    obtain ⟨shape, shapes⟩ := List.forall_mem_cons.mp shapes
    obtain ⟨lowFirst, low⟩ := List.forall_mem_cons.mp low
    obtain ⟨depth, nests, lowRest⟩ := ih shapes low
    have newline : Nests (Piece.kinds (.newline :: lines nodes)) depth := nests.cons rfl
    refine ⟨max node.parenDepth depth, ?_, by omega⟩
    rw [Piece.kinds_append]
    exact (nests_statement shape).append newline

end Node

theorem mostOpen_of_nests {pieces : List Piece} (fit : Piece.Fit pieces []) {depth : Nat}
    (nests : Nests (Piece.kinds pieces) depth) :
    mostOpen (Scanner.start (String.ofList (Piece.textOf pieces))).tokens = depth := by
  have final : Nests [TokenKind.eof] 0 := .of_flat (by decide)
  have whole := nests.append final
  rw [← Scanner.kinds_of_fit fit] at whole
  rw [whole.mostOpen_eq, Nat.max_zero]

theorem Level.eq_of_operator {level : Level} {kind : TokenKind} {op : Operator}
    (found : level.Joins kind op) : op.level = level := by
  cases found <;> rfl

namespace Derivation

/-- No tokens derive a tree with fewer parentheses than the writer puts, nor with all of them
less deep. -/
theorem Expression.parens_le {phrase : Phrase} {tokens : List Token} {node : Node}
    (derived : Expression phrase tokens node) :
    node.parens + node.enclosing phrase ≤ (tokens.map Token.kind).count .lparen ∧
      node.parenDepth + node.enclosing phrase ≤ mostOpen tokens := by
  induction derived with
  | number | string | reference =>
    -- a token alone binds as tightly as anything may ask for
    rw [Node.enclosing_of_le (Phrase.binding_bounds _).2]
    exact ⟨Nat.zero_le _, Nat.zero_le _⟩
  | @parenthesised opening closing tokens node opens body closes ih =>
    have loose : node.enclosing .expression = 0 :=
      Node.enclosing_of_le node.phrase.binding_bounds.1
    have one := node.enclosing_le_one .factor
    have count : ((opening :: (tokens ++ [closing])).map Token.kind).count .lparen =
        (tokens.map Token.kind).count .lparen + 1 := by
      simp [opens, closes]
    rw [count, (body.nests.parenthesised opens closes).mostOpen_eq]
    omega
  | @single level tokens node operand ih =>
    have order : (Phrase.chain level).binding ≤ level.operand.binding := by
      cases level <;> decide
    have fewer := node.enclosing_mono order
    omega
  | @join level op t before behind left right first found last ihFirst ihLast =>
    obtain rfl := Level.eq_of_operator found
    have bare : (Node.binary op left right (.ofPosition t.position)).enclosing
        (.chain op.level) = 0 := Node.enclosing_of_le (Nat.le_refl _)
    have other : t.kind ≠ .lparen := by
      intro opens
      exact absurd (Level.isFlat found) (by rw [opens]; decide)
    rw [bare, (first.nests.join (Level.isFlat found) last.nests).mostOpen_eq, List.map_append,
      List.map_cons, List.count_append, List.count_cons_of_ne other, Node.parens, Node.parenDepth]
    omega

theorem Statement.parenDepth_le {tokens : List Token} {node : Node}
    (derived : Statement tokens node) : node.parenDepth ≤ mostOpen tokens := by
  cases derived with
  | print kind opens body closes =>
    have inside := body.parens_le.2
    rw [(body.nests.print kind opens closes).mostOpen_eq]
    exact Nat.le_of_add_right_le inside
  | assignment kind assigns body =>
    have inside := body.parens_le.2
    rw [(body.nests.assignment kind assigns).mostOpen_eq]
    exact Nat.le_of_add_right_le inside

end Derivation

theorem parenDepth_of_parse {limit : Nat} {source : String} {nodes : List Node}
    (returned : (parse limit source).program = .ok nodes) {node : Node} (member : node ∈ nodes) :
    node.parenDepth ≤ mostOpen (Scanner.start source).tokens := by
  obtain ⟨own, derived, less⟩ := statement_of_parse returned member
  exact Nat.le_trans derived.parenDepth_le less

/-- Statements of a source, written on lines of their own, nest no deeper than the source did.
So they can be read again within the same limit. -/
theorem reread_within {limit : Nat} {source : String} {nodes : List Node}
    (returned : (parse limit source).program = .ok nodes) {part : List Node}
    (inside : ∀ node ∈ part, node ∈ nodes) {text : String}
    (written : text.toList = Piece.textOf (Node.lines part)) :
    mostOpen (Scanner.start text).tokens ≤ mostOpen (Scanner.start source).tokens ∧
      ∃ read, parse limit text = ⟨.ok read, []⟩ ∧ Node.samePrograms read part = true := by
  have shapes : ∀ node ∈ part, node.isStatement :=
    fun node member => shape_of_parse returned node (inside node member)
  obtain ⟨depth, nests, low⟩ := Node.nests_lines shapes
    fun node member => parenDepth_of_parse returned (inside node member)
  have deepest : mostOpen (Scanner.start text).tokens = depth := by
    rw [← mostOpen_of_nests (Node.fit_lines shapes) nests, ← written, String.ofList_toList]
  have within := mostOpen_of_parse returned
  refine ⟨by omega, parse_lines shapes written fun deep => ?_⟩
  have beyond := mostOpen_of_tooDeep deep
  omega

/-- A tree is written with the fewest parentheses, and with those least deep, among all tokens
that derive it; the tokens of its text are such tokens. Statements read from a source are
therefore read again from their text, one by one or all of them, within any limit that the source
was read within. -/
theorem fewest_parentheses :
    (∀ (e : Node) (depth : Nat), e.isExpression = true → e.levels ≤ depth →
      ∃ text, e.render depth = .ok text ∧
        (∃ read, Derivation.Expression .expression (Scanner.start text).upcoming read ∧
          read.same e = true) ∧
        ∀ tokens read, Derivation.Expression .expression tokens read → read.same e = true →
          ((Scanner.start text).tokens.map Token.kind).count .lparen ≤
              (tokens.map Token.kind).count .lparen ∧
            mostOpen (Scanner.start text).tokens ≤ mostOpen tokens) ∧
    ∀ limit source nodes, (parse limit source).program = .ok nodes → ∀ depth,
      (∀ s ∈ nodes, s.levels ≤ depth → ∃ text, s.render depth = .ok text ∧
        mostOpen (Scanner.start text).tokens ≤ mostOpen (Scanner.start source).tokens ∧
        ∃ t, parse limit text = ⟨.ok [t], []⟩ ∧ t.same s = true) ∧
      ((∀ s ∈ nodes, s.levels ≤ depth) → ∃ texts, nodes.mapM (Node.render depth) = .ok texts ∧
        mostOpen (Scanner.start ("\n".intercalate texts)).tokens ≤
          mostOpen (Scanner.start source).tokens ∧
        ∃ read, parse limit ("\n".intercalate texts) = ⟨.ok read, []⟩ ∧
          Node.samePrograms read nodes = true) := by
  constructor
  · intro e depth shape enough
    have fit : Piece.Fit e.pieces [] := Node.fit_of_isExpression shape breaks_nil
    refine ⟨_, Node.render_of_levels (.inl shape) enough, ?_, ?_⟩
    · obtain ⟨read, derived, same⟩ :=
        Node.rereads_of_isExpression shape _ (Scanner.forms_of_fit fit)
      exact ⟨read, derived.loosen e.phrase.binding_bounds.1, (Node.same_iff read e).mpr same⟩
    · intro tokens read derived same
      have erased := (Node.same_iff read e).mp same
      have parens : read.parens = e.parens := by
        rw [← read.parens_erase, erased, e.parens_erase]
      have parenDepth : read.parenDepth = e.parenDepth := by
        rw [← read.parenDepth_erase, erased, e.parenDepth_erase]
      obtain ⟨few, low⟩ := derived.parens_le
      rw [Scanner.kinds_of_fit fit, List.count_append, Node.count_pieces shape,
        mostOpen_of_nests fit (Node.nests_pieces shape), ← parens, ← parenDepth]
      exact ⟨Nat.le_of_add_right_le few, Nat.le_of_add_right_le low⟩
  · intro limit source nodes returned depth
    have shapes := shape_of_parse returned
    constructor
    · intro s member enough
      have inside : ∀ node ∈ [s], node ∈ nodes := by simpa using member
      have written : (String.ofList (Piece.textOf s.pieces)).toList =
        Piece.textOf (Node.lines [s]) := String.toList_ofList
      obtain ⟨low, read, reread, same⟩ := reread_within returned inside written
      rw [Node.samePrograms_iff] at same
      obtain ⟨t, rfl, alike⟩ := List.map_eq_singleton_iff.mp same
      exact ⟨_, Node.render_of_levels (.inr (shapes s member)) enough, low, t, reread,
        (Node.same_iff t s).mpr alike⟩
    · intro enough
      have unreached : ∀ s ∈ nodes, s.render depth ≠ .error .tooDeep := by
        intro s member stopped
        rw [Node.render_of_levels (.inr (shapes s member)) (enough s member)] at stopped
        contradiction
      exact ⟨_, Node.mapM_render shapes unreached,
        reread_within returned (fun _ member => member) (toList_intercalate_pieces nodes)⟩

/-- Two of the three parentheses, and one of the two levels, are not needed. -/
theorem fewest_parentheses_redundant :
    let number (n : Int) : Node := .number n .unknown
    let e : Node := .binary .sub (number 1) (.binary .sub (number 2) (number 3) .unknown) .unknown
    let token (kind : TokenKind) (lexeme : String) : Token := ⟨kind, lexeme, .start⟩
    let inner := [token .number "2", token .minus "-", token .number "3"]
    let enclosed (tokens : List Token) := token .lparen "(" :: (tokens ++ [token .rparen ")"])
    let tokens := enclosed [token .number "1"] ++ token .minus "-" :: enclosed (enclosed inner)
    let source := "x = (1) - ((2 - 3))"
    e.render 3 = .ok "1 - (2 - 3)" ∧
    (∃ read, Derivation.Expression .expression tokens read ∧ read.same e = true) ∧
    (tokens.map Token.kind).count .lparen = 3 ∧ mostOpen tokens = 2 ∧
    ((Scanner.start "1 - (2 - 3)").tokens.map Token.kind).count .lparen ≤ 3 ∧
    mostOpen (Scanner.start "1 - (2 - 3)").tokens ≤ 2 ∧
    ∃ nodes, (parse 2 source).program = .ok nodes ∧ ∀ s ∈ nodes,
      ∃ text, s.render 4 = .ok text ∧
        mostOpen (Scanner.start text).tokens ≤ mostOpen (Scanner.start source).tokens ∧
        ∃ t, parse 2 text = ⟨.ok [t], []⟩ ∧ t.same s = true := by
  intro number e token inner enclosed tokens source
  obtain ⟨fewest, again⟩ := fewest_parentheses
  have rendered : e.render 3 = .ok "1 - (2 - 3)" := rfl
  have term {tokens node} (factor : Derivation.Expression .factor tokens node) :
    Derivation.Expression .term tokens node := .single factor
  have sum {tokens node} (factor : Derivation.Expression .factor tokens node) :
    Derivation.Expression .expression tokens node := .single (.single factor)
  have left : Derivation.Expression .factor (enclosed [token .number "1"]) _ :=
    .parenthesised rfl (sum (.number rfl)) rfl
  have right : Derivation.Expression .expression
      ([token .number "2"] ++ token .minus "-" :: [token .number "3"]) _ :=
    .join (sum (.number rfl)) .minus (term (.number rfl))
  have nested : Derivation.Expression .factor (enclosed inner) _ := .parenthesised rfl right rfl
  have last : Derivation.Expression .factor (enclosed (enclosed inner)) _ :=
    .parenthesised rfl (sum nested) rfl
  obtain ⟨read, derived, same⟩ :
      ∃ read, Derivation.Expression .expression tokens read ∧ read.same e = true := by
    refine ⟨_, .join (sum left) .minus (term last), (Node.same_iff _ e).mpr ?_⟩
    simp [Node.erase, token, e, number, Nat.ofDigitChars]
  obtain ⟨text, written, -, few⟩ := fewest e 3 (by decide) (by decide)
  obtain rfl := Except.ok.inj (rendered.symm.trans written)
  obtain ⟨count, depth⟩ := few tokens read derived same
  refine ⟨rendered, ⟨read, derived, same⟩, rfl, rfl, count, depth, ?_⟩
  have computed : (parse 2 source).program.toBool = true ∧
      ∀ nodes ∈ (parse 2 source).program.toOption, ∀ s ∈ nodes, s.levels ≤ 4 := by
    decide +kernel
  cases outcome : (parse 2 source).program with
  | error failure =>
    rw [outcome] at computed
    exact absurd computed.1 Bool.false_ne_true
  | ok nodes =>
    rw [outcome] at computed
    exact ⟨nodes, rfl, fun s member =>
      (again 2 source nodes outcome 4).1 s member (computed.2 nodes rfl s member)⟩

end IntScript

import IntScript.Proofs.Derivation

/-! How many parenthesised factors are open at once, counted along the tokens alone. The
parenthesis of a print is no factor. What the grammar derives closes all that it opens, so the
count for a phrase is found from the counts for its parts: parentheses add one, and of parts
that stand side by side the deeper one decides. -/
namespace IntScript

/-- The parentheses that are open, innermost first, each with whether it belongs to a factor.
One that opens right behind the keyword belongs to its print. -/
structure Nesting where
  marks : List Bool
  keyword : Bool
deriving DecidableEq

namespace Nesting

def start : Nesting := ⟨[], false⟩

def step (n : Nesting) : TokenKind → Nesting
  | .lparen => ⟨(!n.keyword) :: n.marks, false⟩
  | .rparen => ⟨n.marks.tail, false⟩
  | .print => ⟨n.marks, true⟩
  | _ => ⟨n.marks, false⟩

def after (n : Nesting) (kinds : List TokenKind) : Nesting := kinds.foldl step n

/-- One more parenthesis open, of a factor or of a print. -/
def opened (n : Nesting) (mark : Bool) : Nesting := ⟨mark :: n.marks, false⟩

/-- The number of factors that are open. -/
def factors (n : Nesting) : Nat := n.marks.count true

/-- The most factors that are open at once, from here on along the tokens. -/
def most (n : Nesting) : List TokenKind → Nat
  | [] => n.factors
  | kind :: kinds => max n.factors ((n.step kind).most kinds)

@[simp] theorem after_nil (n : Nesting) : n.after [] = n := rfl

@[simp] theorem after_cons (n : Nesting) (kind : TokenKind) (kinds : List TokenKind) :
    n.after (kind :: kinds) = (n.step kind).after kinds := rfl

@[simp] theorem factors_opened (n : Nesting) (mark : Bool) :
    (n.opened mark).factors = n.factors + if mark then 1 else 0 := by
  cases mark <;> simp [factors, opened]

theorem step_lparen {n : Nesting} (outside : n.keyword = false) :
    n.step .lparen = n.opened true := by
  rw [step, outside]
  rfl

theorem step_print_lparen (n : Nesting) : (n.step .print).step .lparen = n.opened false := rfl

theorem after_append (n : Nesting) (first second : List TokenKind) :
    n.after (first ++ second) = (n.after first).after second :=
  List.foldl_append

theorem factors_le_most (n : Nesting) (kinds : List TokenKind) : n.factors ≤ n.most kinds := by
  cases kinds with
  | nil => exact Nat.le_refl _
  | cons kind kinds => exact Nat.le_max_left ..

theorem most_append (n : Nesting) (first second : List TokenKind) :
    n.most (first ++ second) = max (n.most first) ((n.after first).most second) := by
  induction first generalizing n with
  | nil =>
    have := n.factors_le_most second
    simp only [List.nil_append, most, after_nil]
    omega
  | cons kind first ih =>
    simp only [List.cons_append, most, after_cons, ih]
    omega

end Nesting

/-- The most parenthesised factors that are open at once at some point of the tokens. -/
def mostOpen (tokens : List Token) : Nat := Nesting.start.most (tokens.map Token.kind)

/-- Wherever they stand, the tokens close what they open, and no more than `depth` of their own
factors are open at once. -/
structure Nests (kinds : List TokenKind) (depth : Nat) : Prop where
  closes : ∀ n : Nesting, n.keyword = false → n.after kinds = n
  deepest : ∀ n : Nesting, n.keyword = false → n.most kinds = n.factors + depth

/-- Kinds that neither open nor close parentheses, nor tell whose they are. -/
def TokenKind.isFlat : TokenKind → Bool
  | .lparen | .rparen | .print => false
  | _ => true

theorem Nesting.step_flat {n : Nesting} {kind : TokenKind} (outside : n.keyword = false)
    (flat : kind.isFlat) : n.step kind = n := by
  obtain ⟨marks, keyword⟩ := n
  obtain rfl : keyword = false := outside
  cases kind with
  | lparen | rparen | print => contradiction
  | _ => rfl

namespace Nests
variable {kinds : List TokenKind} {depth : Nat}

theorem nil : Nests [] 0 := ⟨fun _ _ => rfl, fun _ _ => rfl⟩

theorem cons {kind : TokenKind} (flat : kind.isFlat) (behind : Nests kinds depth) :
    Nests (kind :: kinds) depth := by
  constructor
  · intro n outside
    rw [Nesting.after_cons, Nesting.step_flat outside flat, behind.closes n outside]
  · intro n outside
    rw [Nesting.most, Nesting.step_flat outside flat, behind.deepest n outside]
    omega

theorem append {others : List TokenKind} {depth' : Nat} (first : Nests kinds depth)
    (second : Nests others depth') : Nests (kinds ++ others) (max depth depth') := by
  constructor
  · intro n outside
    rw [Nesting.after_append, first.closes n outside, second.closes n outside]
  · intro n outside
    rw [Nesting.most_append, first.closes n outside, first.deepest n outside,
      second.deepest n outside]
    omega

/-- What stands behind an opening parenthesis, up to and with the closing one. -/
theorem closing (inside : Nests kinds depth) {n : Nesting} (outside : n.keyword = false)
    (mark : Bool) :
    (n.opened mark).after (kinds ++ [.rparen]) = n ∧
      (n.opened mark).most (kinds ++ [.rparen]) = (n.opened mark).factors + depth := by
  have closed : (n.opened mark).step .rparen = n := by
    obtain ⟨marks, keyword⟩ := n
    obtain rfl : keyword = false := outside
    rfl
  constructor
  · rw [Nesting.after_append, inside.closes _ rfl]
    exact closed
  · rw [Nesting.most_append, inside.closes _ rfl, inside.deepest _ rfl, Nesting.most, closed,
      Nesting.most, Nesting.factors_opened]
    omega

theorem enclosed (inside : Nests kinds depth) :
    Nests (.lparen :: (kinds ++ [.rparen])) (depth + 1) := by
  constructor
  · intro n outside
    rw [Nesting.after_cons, Nesting.step_lparen outside, (inside.closing outside true).1]
  · intro n outside
    rw [Nesting.most, Nesting.step_lparen outside, (inside.closing outside true).2,
      Nesting.factors_opened, if_pos rfl]
    omega

/-- The parenthesis of a print is closed in the same way but not counted. -/
theorem printed (inside : Nests kinds depth) :
    Nests (.print :: .lparen :: (kinds ++ [.rparen])) depth := by
  constructor
  · intro n outside
    rw [Nesting.after_cons, Nesting.after_cons, Nesting.step_print_lparen,
      (inside.closing outside false).1]
  · intro n outside
    have named : (n.step .print).factors = n.factors := rfl
    rw [Nesting.most, Nesting.most, Nesting.step_print_lparen, (inside.closing outside false).2,
      Nesting.factors_opened, named]
    simp

theorem of_flat (flat : ∀ kind ∈ kinds, kind.isFlat) : Nests kinds 0 := by
  induction kinds with
  | nil => exact nil
  | cons kind kinds ih =>
    obtain ⟨here, behind⟩ := List.forall_mem_cons.mp flat
    exact (ih behind).cons here

theorem mostOpen_eq {tokens : List Token} (nests : Nests (tokens.map Token.kind) depth) :
    mostOpen tokens = depth := by
  have deepest := nests.deepest .start rfl
  rwa [Nesting.factors, Nesting.start, List.count_nil, Nat.zero_add] at deepest

/-- No other depth could be given. -/
theorem own {tokens : List Token} (nests : Nests (tokens.map Token.kind) depth) :
    Nests (tokens.map Token.kind) (mostOpen tokens) :=
  nests.mostOpen_eq ▸ nests

section Tokens
variable {opening closing t : Token} {tokens : List Token}

theorem parenthesised (inside : Nests (tokens.map Token.kind) depth)
    (opens : opening.kind = .lparen) (closes : closing.kind = .rparen) :
    Nests ((opening :: (tokens ++ [closing])).map Token.kind) (depth + 1) := by
  simpa [opens, closes] using inside.enclosed

theorem print (inside : Nests (tokens.map Token.kind) depth) (kind : t.kind = .print)
    (opens : opening.kind = .lparen) (closes : closing.kind = .rparen) :
    Nests ((t :: opening :: (tokens ++ [closing])).map Token.kind) depth := by
  simpa [kind, opens, closes] using inside.printed

theorem assignment {sign : Token} (inside : Nests (tokens.map Token.kind) depth)
    (kind : t.kind = .identifier) (assigns : sign.kind = .assign) :
    Nests ((t :: sign :: tokens).map Token.kind) depth := by
  have named : t.kind.isFlat := congrArg TokenKind.isFlat kind
  have bound : sign.kind.isFlat := congrArg TokenKind.isFlat assigns
  exact (inside.cons bound).cons named

variable {before behind : List Token} {depth' : Nat}

theorem beside (first : Nests (before.map Token.kind) depth)
    (last : Nests (behind.map Token.kind) depth') :
    Nests ((before ++ behind).map Token.kind) (max depth depth') := by
  rw [List.map_append]
  exact first.append last

theorem join (first : Nests (before.map Token.kind) depth) (flat : t.kind.isFlat)
    (last : Nests (behind.map Token.kind) depth') :
    Nests ((before ++ t :: behind).map Token.kind) (max depth depth') :=
  first.beside (last.cons flat)

end Tokens
end Nests

theorem mostOpen_le_append (first second : List Token) :
    mostOpen first ≤ mostOpen (first ++ second) := by
  rw [mostOpen, mostOpen, List.map_append, Nesting.most_append]
  exact Nat.le_max_left ..

theorem Level.isFlat {level : Level} {kind : TokenKind} {op : Operator}
    (found : level.Joins kind op) : kind.isFlat := by
  cases found <;> rfl

namespace Derivation

theorem Expression.nests {phrase : Phrase} {tokens : List Token} {node : Node}
    (derived : Expression phrase tokens node) :
    Nests (tokens.map Token.kind) (mostOpen tokens) := by
  induction derived with
  | number kind | string kind | reference kind =>
    exact Nests.own (.of_flat (by simp [kind, TokenKind.isFlat]))
  | parenthesised opens body closes ih => exact (ih.parenthesised opens closes).own
  | single operand ih => exact ih
  | join first found last ihFirst ihLast => exact (ihFirst.join (Level.isFlat found) ihLast).own

theorem Statement.nests {tokens : List Token} {node : Node} (derived : Statement tokens node) :
    Nests (tokens.map Token.kind) (mostOpen tokens) := by
  cases derived with
  | print kind opens body closes => exact (body.nests.print kind opens closes).own
  | assignment kind assigns body => exact (body.nests.assignment kind assigns).own

theorem Newlines.nests {tokens : List Token} (blank : Newlines tokens) :
    Nests (tokens.map Token.kind) 0 := by
  refine .of_flat fun kind member => ?_
  obtain ⟨t, inside, rfl⟩ := List.mem_map.mp member
  rw [blank t inside]
  rfl

theorem Statements.nests {tokens : List Token} {nodes : List Node}
    (derived : Statements tokens nodes) : Nests (tokens.map Token.kind) (mostOpen tokens) := by
  induction derived with
  | none => exact Nests.own .nil
  | more statement blank others ih => exact (statement.nests.beside (blank.nests.beside ih)).own

theorem Statements.mostOpen_of_mem {tokens : List Token} {nodes : List Node} {node : Node}
    (derived : Statements tokens nodes) (member : node ∈ nodes) :
    ∃ own, Statement own node ∧ mostOpen own ≤ mostOpen tokens := by
  induction derived with
  | none => contradiction
  | more statement blank others ih =>
    have whole := (statement.nests.beside (blank.nests.beside others.nests)).mostOpen_eq
    rcases List.mem_cons.mp member with rfl | behind
    · exact ⟨_, statement, by omega⟩
    · obtain ⟨own, derived, less⟩ := ih behind
      exact ⟨own, derived, by omega⟩

/-- No statement of a program nests deeper than the whole. -/
theorem Program.mostOpen_of_mem {tokens : List Token} {nodes : List Node} {node : Node}
    (derived : Program tokens nodes) (member : node ∈ nodes) :
    ∃ own, Statement own node ∧ mostOpen own ≤ mostOpen tokens := by
  obtain ⟨newlines, rest, rfl, blank, statements⟩ := derived
  obtain ⟨own, derived, less⟩ := statements.mostOpen_of_mem member
  have whole := (blank.nests.beside statements.nests).mostOpen_eq
  exact ⟨own, derived, by omega⟩

end Derivation
end IntScript

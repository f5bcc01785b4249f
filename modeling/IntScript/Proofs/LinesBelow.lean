import IntScript.Proofs.Joining
import IntScript.Proofs.ViablePrefix

/-! A source below another one. Joined by a newline, two sources fall into the pieces of
both, unless the first one leaves a string open. The tokens, the unknown characters and the
statements are then those of both, only that what belongs to the second source stands
further down, by as many lines as the first one takes up. -/
namespace IntScript

namespace Position

/-- The position a number of lines further down. -/
def down (lines : Nat) (p : Position) : Position := ⟨p.line + lines, p.col⟩

theorem step_down (lines : Nat) (p : Position) (c : Char) :
    (p.down lines).step c = (p.step c).down lines := by
  by_cases feed : c = '\n'
  · have order : p.line + lines + 1 = p.line + 1 + lines := by omega
    simp [step, down, feed, order]
  · simp [step, down, feed]

theorem after_down (lines : Nat) (p : Position) (text : List Char) :
    (p.down lines).after text = (p.after text).down lines := by
  induction text generalizing p with
  | nil => rfl
  | cons c text ih => rw [after_cons, step_down, ih, after_cons]

theorem line_after (p : Position) (text : List Char) :
    (p.after text).line = p.line + text.count '\n' := by
  induction text generalizing p with
  | nil => rfl
  | cons c text ih =>
    rw [after_cons, ih]
    by_cases feed : c = '\n'
    · simp only [step, feed, if_true, List.count_cons_self]
      omega
    · simp [step, feed]

/-- A new line begins at the first column, whatever stands above it. -/
theorem step_line (text : List Char) :
    (start.after text).step '\n' = start.down (text.count '\n' + 1) := by
  have lines := line_after start text
  have order : 1 + text.count '\n' + 1 = 1 + (text.count '\n' + 1) := by omega
  simp only [start] at lines ⊢
  simp only [step, if_true, down, lines, order]

end Position

namespace Place

def down (lines : Nat) (p : Place) : Place := ⟨p.line.map (· + lines), p.col⟩

theorem ofPosition_down (lines : Nat) (p : Position) :
    ofPosition (p.down lines) = (ofPosition p).down lines := by
  simp [ofPosition, down, Position.down]

end Place

def Token.down (lines : Nat) (t : Token) : Token := { t with position := t.position.down lines }

def UnknownCharacter.down (lines : Nat) (u : UnknownCharacter) : UnknownCharacter :=
  { u with position := u.position.down lines }

/-- The tree with all its places a number of lines further down. -/
def Node.down (lines : Nat) : Node → Node
  | .number value place => .number value (place.down lines)
  | .string text place => .string text (place.down lines)
  | .reference name place => .reference name (place.down lines)
  | .binary op left right place =>
    .binary op (left.down lines) (right.down lines) (place.down lines)
  | .assignment name value place => .assignment name (value.down lines) (place.down lines)
  | .print argument place => .print (argument.down lines) (place.down lines)

namespace Piece

theorem tokensFrom_down (lines : Nat) (position : Position) (pieces : List Piece) :
    tokensFrom (position.down lines) pieces = (tokensFrom position pieces).map (Token.down lines) := by
  induction pieces generalizing position with
  | nil => rfl
  | cons piece pieces ih =>
    rw [tokensFrom, tokensFrom, Position.after_down, ih]
    cases piece.token? with
    | none => rfl
    | some token => rfl

theorem unknownFrom_down (lines : Nat) (position : Position) (pieces : List Piece) :
    unknownFrom (position.down lines) pieces =
      (unknownFrom position pieces).map (UnknownCharacter.down lines) := by
  induction pieces generalizing position with
  | nil => rfl
  | cons piece pieces ih =>
    rw [unknownFrom_cons, unknownFrom_cons piece pieces position, Position.after_down, ih,
      List.map_append]
    cases piece <;> rfl

end Piece

namespace Scanner

section Below
variable {joined first second : String} (closed : StringsClosed first)
  (whole : joined.toList = first.toList ++ '\n' :: second.toList)
include closed whole

theorem cut_below :
    Piece.cut joined.toList = Piece.cut first.toList ++ .newline :: Piece.cut second.toList := by
  rw [whole, Piece.cut_line closed]

theorem upcoming_below :
    (start joined).upcoming = (start first).upcoming ++
      ⟨.newline, "\n", (start first).finish⟩ ::
        (start second).upcoming.map (Token.down (first.toList.count '\n' + 1)) := by
  simp only [upcoming, start, cut_below closed whole]
  rw [Piece.tokensFrom_append, Piece.textOf_cut, Piece.tokensFrom, ← Piece.tokensFrom_down,
    ← Position.step_line]
  rfl

theorem pending_below :
    (start joined).pending = (start first).pending ++
      (start second).pending.map (UnknownCharacter.down (first.toList.count '\n' + 1)) := by
  simp only [pending, start, cut_below closed whole]
  rw [Piece.unknownFrom_append, Piece.textOf_cut, ← Piece.unknownFrom_down, ← Position.step_line]
  rfl

omit closed in
theorem finish_below :
    (start joined).finish = (start second).finish.down (first.toList.count '\n' + 1) := by
  simp only [finish, start, whole]
  rw [Position.after_append, Position.after_cons, Position.step_line, Position.after_down]

end Below
end Scanner

namespace Derivation

theorem Expression.down (lines : Nat) {phrase : Phrase} {tokens : List Token} {node : Node}
    (derived : Expression phrase tokens node) :
    Expression phrase (tokens.map (Token.down lines)) (node.down lines) := by
  induction derived with
  | number kind =>
    rw [Node.down, ← Place.ofPosition_down]
    exact .number kind
  | string kind =>
    rw [Node.down, ← Place.ofPosition_down]
    exact .string kind
  | reference kind =>
    rw [Node.down, ← Place.ofPosition_down]
    exact .reference kind
  | parenthesised opens body closes ih =>
    rw [List.map_cons, List.map_append]
    exact .parenthesised opens ih closes
  | single operand ih => exact .single ih
  | join first found last ihFirst ihLast =>
    rw [List.map_append, List.map_cons, Node.down, ← Place.ofPosition_down]
    exact .join ihFirst found ihLast

theorem Statement.down (lines : Nat) {tokens : List Token} {node : Node}
    (derived : Statement tokens node) :
    Statement (tokens.map (Token.down lines)) (node.down lines) := by
  cases derived with
  | print kind opens body closes =>
    rw [List.map_cons, List.map_cons, List.map_append, Node.down, ← Place.ofPosition_down]
    exact .print kind opens (body.down lines) closes
  | assignment kind assigns body =>
    rw [List.map_cons, List.map_cons, Node.down, ← Place.ofPosition_down]
    exact .assignment kind assigns (body.down lines)

theorem Newlines.down (lines : Nat) {tokens : List Token} (blank : Newlines tokens) :
    Newlines (tokens.map (Token.down lines)) := by
  intro t member
  obtain ⟨other, inside, rfl⟩ := List.mem_map.mp member
  exact blank other inside

theorem Statements.down (lines : Nat) {tokens : List Token} {nodes : List Node}
    (derived : Statements tokens nodes) :
    Statements (tokens.map (Token.down lines)) (nodes.map (Node.down lines)) := by
  induction derived with
  | none => exact .none
  | more statement blank others ih =>
    rw [List.map_append, List.map_append, List.map_cons]
    exact .more (statement.down lines) (blank.down lines) ih

theorem Program.down (lines : Nat) {tokens : List Token} {nodes : List Node}
    (derived : Program tokens nodes) :
    Program (tokens.map (Token.down lines)) (nodes.map (Node.down lines)) := by
  obtain ⟨newlines, rest, rfl, blank, statements⟩ := derived
  exact ⟨_, _, List.map_append, blank.down lines, statements.down lines⟩

theorem Program.behind_newlines {newlines tokens : List Token} {nodes : List Node}
    (blank : Newlines newlines) (derived : Program tokens nodes) :
    Program (newlines ++ tokens) nodes := by
  obtain ⟨others, rest, rfl, blank', statements⟩ := derived
  refine ⟨newlines ++ others, rest, by rw [List.append_assoc], ?_, statements⟩
  exact List.forall_mem_append.mpr ⟨blank, blank'⟩

/-- Statements may be followed by a program on the next line. -/
theorem Statements.line {tokens tokens' : List Token} {nodes nodes' : List Node} {t : Token}
    (derived : Statements tokens nodes) (newline : t.kind = .newline)
    (below : Program tokens' nodes') : Program (tokens ++ t :: tokens') (nodes ++ nodes') := by
  induction derived with
  | none =>
    have blank : Newlines [t] := by simpa [Newlines] using newline
    simpa using below.behind_newlines blank
  | @more front newlines rest node nodes statement blank others ih =>
    have none : Newlines [] := by simp [Newlines]
    simpa using Program.cons none statement (ih.behind_newlines blank)

theorem Program.line {tokens tokens' : List Token} {nodes nodes' : List Node} {t : Token}
    (derived : Program tokens nodes) (newline : t.kind = .newline)
    (below : Program tokens' nodes') : Program (tokens ++ t :: tokens') (nodes ++ nodes') := by
  obtain ⟨newlines, rest, rfl, blank, statements⟩ := derived
  rw [List.append_assoc]
  exact (statements.line newline below).behind_newlines blank

end Derivation

/-- A source below another one, which leaves no string open, is cut and read as it is alone. The
tokens of both sources together are those of the first, a newline in the place of its final
token, and those of the second further down by the lines of the first. So are the unknown
characters, and if both can be read, the statements. -/
theorem lines_below (first second : String) (closed : StringsClosed first) :
    let joined := first ++ "\n" ++ second
    let lines := first.toList.count '\n' + 1
    (∃ front position, (Scanner.start first).tokens = front ++ [.final position] ∧
      (Scanner.start joined).tokens =
        front ++ ⟨.newline, "\n", position⟩ ::
          (Scanner.start second).tokens.map (Token.down lines)) ∧
    (Scanner.start joined).allUnknown = (Scanner.start first).allUnknown ++
      (Scanner.start second).allUnknown.map (UnknownCharacter.down lines) ∧
    ∀ limit nodes nodes', (parse limit first).program = .ok nodes →
      (parse limit second).program = .ok nodes' →
      parse limit joined =
        ⟨.ok (nodes ++ nodes'.map (Node.down lines)), (parse limit first).unknown ++
          (parse limit second).unknown.map (UnknownCharacter.down lines)⟩ := by
  intro joined lines
  have whole : joined.toList = first.toList ++ '\n' :: second.toList := by
    simp [joined]
  have upcoming := Scanner.upcoming_below closed whole
  have pending := Scanner.pending_below closed whole
  refine ⟨⟨(Scanner.start first).upcoming, _, Scanner.tokens_eq _, ?_⟩, ?_, ?_⟩
  · rw [Scanner.tokens_eq, Scanner.tokens_eq, upcoming, Scanner.finish_below whole]
    simp [lines, Token.final, Token.down]
  · rw [Scanner.allUnknown_start, Scanner.allUnknown_start, Scanner.allUnknown_start, pending]
  · intro limit nodes nodes' read read'
    obtain ⟨_, again, -⟩ := parse_line closed whole read read'
    have clear {source : String} {program : List Node}
        (read : (parse limit source).program = .ok program) :
        (parse limit source).program ≠ .error .tooDeep := by
      rw [read]
      simp
    have derived := Derivation.Program.line
      (t := ⟨.newline, "\n", (Scanner.start first).finish⟩) (program_of_parse read) rfl
      ((program_of_parse read').down lines)
    rw [← upcoming] at derived
    rw [parse_of_program (clear again) derived, pending,
      parse_of_program (clear read) (program_of_parse read),
      parse_of_program (clear read') (program_of_parse read')]

/-- Above stand a text over two lines, an unknown character and a comment. -/
theorem lines_below_comment :
    let first := "x = \"a\nb\" $ # c"
    let second := "y = 1 @\nprint(y)"
    let joined := first ++ "\n" ++ second
    StringsClosed first ∧
      (∃ front, (Scanner.start joined).tokens =
        front ++ ⟨.newline, "\n", ⟨2, 9⟩⟩ :: (Scanner.start second).tokens.map (Token.down 2)) ∧
      (Scanner.start joined).allUnknown = [⟨'$', ⟨2, 4⟩⟩, ⟨'@', ⟨3, 7⟩⟩] ∧
      ∃ nodes nodes', (parse nestingLimit first).program = .ok nodes ∧
        (parse nestingLimit second).program = .ok nodes' ∧
        (parse nestingLimit joined).program = .ok (nodes ++ nodes'.map (Node.down 2)) := by
  intro first second joined
  have closed : StringsClosed first := by
    unfold StringsClosed
    decide +kernel
  have taken : first.toList.count '\n' + 1 = 2 := by decide
  obtain ⟨⟨front, position, last, tokens⟩, unknown, statements⟩ := lines_below first second closed
  simp only [taken] at tokens unknown statements
  have final : (Scanner.start first).tokens.getLast? = some (.final ⟨2, 9⟩) := by decide +kernel
  rw [last, List.getLast?_concat] at final
  cases final
  have noted : (Scanner.start first).allUnknown = [⟨'$', ⟨2, 4⟩⟩] ∧
      (Scanner.start second).allUnknown = [⟨'@', ⟨1, 7⟩⟩] := by decide +kernel
  rw [noted.1, noted.2] at unknown
  have returns : (parse nestingLimit first).program.toBool = true ∧
      (parse nestingLimit second).program.toBool = true := by decide +kernel
  obtain ⟨nodes, read⟩ := returns_of_toBool returns.1
  obtain ⟨nodes', read'⟩ := returns_of_toBool returns.2
  refine ⟨closed, ⟨front, tokens⟩, unknown, nodes, nodes', read, read', ?_⟩
  exact congrArg Parsed.program (statements nestingLimit nodes nodes' read read')

end IntScript

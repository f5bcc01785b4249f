import IntScript.Proofs.Parsing

/-! Trees written out and read again come back as they were. -/
namespace IntScript

theorem Piece.unknownFrom_eq_nil {pieces : List Piece} (known : ∀ c, Piece.unknown c ∉ pieces)
    (position : Position) : unknownFrom position pieces = [] := by
  fun_induction unknownFrom position pieces with
  | case1 => rfl
  | case2 position c pieces ih => exact absurd List.mem_cons_self (known c)
  | case3 position piece pieces other ih =>
    exact ih fun c member => known c (List.mem_cons_of_mem _ member)

namespace Node

theorem known_pieces (node : Node) (c : Char) : Piece.unknown c ∉ node.pieces := by
  induction node with
  | binary op left right place ihLeft ihRight =>
    cases op <;> simp only [pieces, Piece.enclosed, Operator.piece] <;> grind
  | _ => simp_all [pieces]

theorem known_lines (nodes : List Node) (c : Char) : Piece.unknown c ∉ lines nodes := by
  fun_induction lines nodes with
  | case1 => simp
  | case2 node => exact node.known_pieces c
  | case3 node nodes more ih => simp [node.known_pieces c, ih]

theorem render_of_isStatement {depth : Nat} {node : Node} (shape : node.isStatement)
    (unreached : node.render depth ≠ .error .tooDeep) :
    node.render depth = .ok (String.ofList (Piece.textOf node.pieces)) := by
  rcases node.render_agrees depth with same | ⟨-, stopped⟩
  · exact same.trans (written_of_isStatement shape)
  · exact absurd stopped unreached

theorem mapM_render {depth : Nat} {nodes : List Node}
    (shapes : ∀ node ∈ nodes, node.isStatement)
    (unreached : ∀ node ∈ nodes, node.render depth ≠ .error .tooDeep) :
    nodes.mapM (render depth) =
      .ok (nodes.map fun node => String.ofList (Piece.textOf node.pieces)) := by
  induction nodes with
  | nil => rfl
  | cons node nodes ih =>
    obtain ⟨shape, shapes⟩ := List.forall_mem_cons.mp shapes
    obtain ⟨first, unreached⟩ := List.forall_mem_cons.mp unreached
    rw [List.mapM_cons, render_of_isStatement shape first, ih shapes unreached]
    rfl

end Node

/-- Statements written on lines of their own and read again are the same. -/
theorem parse_lines {limit : Nat} {nodes : List Node} {source : String}
    (shapes : ∀ node ∈ nodes, node.isStatement)
    (text : source.toList = Piece.textOf (Node.lines nodes))
    (unreached : (parse limit source).program ≠ .error .tooDeep) :
    ∃ read, parse limit source = ⟨.ok read, []⟩ ∧ Node.samePrograms read nodes = true := by
  have cut : Piece.cut (Scanner.start source).rest = Node.lines nodes := by
    rw [Scanner.start, text, Piece.cut_unique (Node.fit_lines shapes)]
  have forms : (Scanner.start source).upcoming.map Token.form =
      (Node.lines nodes).filterMap Piece.token? := by
    rw [Scanner.upcoming, cut, Piece.form_tokensFrom]
  have pending : (Scanner.start source).pending = [] := by
    rw [Scanner.pending, cut, Piece.unknownFrom_eq_nil (Node.known_lines nodes)]
  obtain ⟨read, derived, same⟩ := Node.rereads_lines shapes forms
  refine ⟨read, ?_, (Node.samePrograms_iff read nodes).mpr same⟩
  rw [← pending]
  exact parse_of_program unreached ⟨[], _, rfl, by simp [Derivation.Newlines], derived⟩

theorem toList_intercalate_pieces (nodes : List Node) :
    ("\n".intercalate (nodes.map fun node => String.ofList (Piece.textOf node.pieces))).toList =
      Piece.textOf (Node.lines nodes) := by
  rw [String.toList_intercalate, Node.textOf_lines, List.map_map]
  simp [Function.comp_def]

/-- Statements of the shape that sources have, written out and read again, are the
same: one by one, and all of them on lines of their own. No unknown character is met.
What is read from a source has that shape. Both limits are taken as not reached; as
many levels as the tree has, and as many open parentheses as the source has characters,
are enough. -/
theorem parse_render (limit depth : Nat) :
    (∀ s : Node, s.isStatement = true → s.render depth ≠ .error .tooDeep →
      ∃ text, s.render depth = .ok text ∧ ((parse limit text).program ≠ .error .tooDeep →
        ∃ t, parse limit text = ⟨.ok [t], []⟩ ∧ t.same s = true)) ∧
    (∀ nodes : List Node, (∀ s ∈ nodes, s.isStatement = true) →
      (∀ s ∈ nodes, s.render depth ≠ .error .tooDeep) →
      ∃ texts, nodes.mapM (Node.render depth) = .ok texts ∧
        ((parse limit ("\n".intercalate texts)).program ≠ .error .tooDeep →
          ∃ read, parse limit ("\n".intercalate texts) = ⟨.ok read, []⟩ ∧
            Node.samePrograms read nodes = true)) ∧
    (∀ source nodes, (parse limit source).program = .ok nodes →
      ∀ s ∈ nodes, s.isStatement = true) ∧
    (∀ s : Node, s.isStatement = true → s.levels ≤ depth → s.render depth ≠ .error .tooDeep) ∧
    ∀ source : String, source.length ≤ limit → (parse limit source).program ≠ .error .tooDeep := by
  refine ⟨?_, ?_, fun source nodes => shape_of_parse, ?_, fun source => parse_unreached⟩
  · intro s shape unreached
    refine ⟨_, Node.render_of_isStatement shape unreached, fun within => ?_⟩
    have shapes : ∀ node ∈ [s], node.isStatement := by simpa using shape
    have text : (String.ofList (Piece.textOf s.pieces)).toList = Piece.textOf (Node.lines [s]) :=
      String.toList_ofList
    obtain ⟨read, returned, same⟩ := parse_lines shapes text within
    rw [Node.samePrograms_iff] at same
    obtain ⟨t, rfl, alike⟩ := List.map_eq_singleton_iff.mp same
    exact ⟨t, returned, (Node.same_iff t s).mpr alike⟩
  · intro nodes shapes unreached
    refine ⟨_, Node.mapM_render shapes unreached, fun within => ?_⟩
    exact parse_lines shapes (toList_intercalate_pieces nodes) within
  · intro s shape enough stopped
    rcases s.render_agrees depth with same | ⟨low, -⟩
    · rw [same, Node.written_of_isStatement shape] at stopped
      contradiction
    · exact low enough

/-- Parentheses on both sides, and a comment sign inside a text. -/
theorem parse_render_nested :
    let number (n : Int) : Node := .number n .unknown
    let name (name : String) : Node := .reference name .unknown
    let binary (op : Operator) (left right : Node) : Node := .binary op left right .unknown
    let nested := binary .mul (binary .sub (number 10) (binary .sub (number 2) (name "b")))
      (.string "x # y" .unknown)
    let s := Node.assignment "a" nested .unknown
    s.isStatement = true ∧ s.render depthLimit = .ok "a = (10 - (2 - b)) * \"x # y\"" ∧
      ∃ t, parse nestingLimit "a = (10 - (2 - b)) * \"x # y\"" = ⟨.ok [t], []⟩ ∧
        t.same s = true := by
  intro number name binary nested s
  have shape : s.isStatement = true := by decide
  have rendered : s.render depthLimit = .ok "a = (10 - (2 - b)) * \"x # y\"" := rfl
  obtain ⟨single, -, -, -, within⟩ := parse_render nestingLimit depthLimit
  obtain ⟨text, written, reread⟩ := single s shape (by simp [rendered])
  obtain rfl := Except.ok.inj (rendered.symm.trans written)
  exact ⟨shape, rendered, reread (within _ (by decide))⟩

end IntScript

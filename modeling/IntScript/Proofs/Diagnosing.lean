import IntScript.Proofs.Marking
import IntScript.Report.Diagnosis
import IntScript.Text.Lines

/-! A diagnosis shows its line as it is, whatever column and range a report names. The line is
cut into three parts that make it up again, even where the bounds lie behind its end, and the
underline begins below the second part. Colours add nothing but marks around that part and
around the underline. -/
namespace IntScript
open Text (Escapes Host)

namespace Text

theorem length_before (text : List Char) {bound : Int} (nonneg : 0 ≤ bound) :
    (before text bound).length = min bound.toNat text.length := by
  rw [before, offset_of_nonneg _ nonneg, List.length_take]
  omega

theorem length_between (text : List Char) {first : Int} (width : Nat) (nonneg : 0 ≤ first) :
    (between text first (first + width)).length = min width (text.length - first.toNat) := by
  rw [between, offset_of_nonneg _ nonneg, offset_of_nonneg _ (by omega), List.length_drop,
    List.length_take]
  omega

/-- The three parts of a text at two bounds make it up again. -/
theorem before_between_onward (text : List Char) {first : Int} (width : Nat)
    (nonneg : 0 ≤ first) :
    before text first ++ (between text first (first + width) ++ onward text (first + width)) =
      text := by
  have ordered : offset text.length first ≤ offset text.length (first + width) := by
    rw [offset_of_nonneg _ nonneg, offset_of_nonneg _ (by omega)]
    omega
  have front : before text first =
      (text.take (offset text.length (first + width))).take (offset text.length first) := by
    rw [List.take_take, Nat.min_eq_left ordered, before]
  rw [← List.append_assoc, front, between, List.take_append_drop, onward, List.take_append_drop]

theorem lines_append {first second : String} (inside : '\n' ∉ first.toList)
    (inside' : '\n' ∉ second.toList) : lines (first ++ "\n" ++ second) = [first, second] := by
  have apart : (first ++ "\n" ++ second).toList =
      ['\n'].intercalate [first.toList, second.toList] := by
    simp [List.intercalate]
  have split : (['\n'].intercalate [first.toList, second.toList]).splitOn '\n' =
      [first.toList, second.toList] :=
    List.splitOn_intercalate '\n' (by simp [inside, inside']) (by simp)
  rw [lines, apart, split]
  simp

theorem checkCount_eq_ok {length : Nat} {count : Int} :
    checkCount length count = .ok () ↔
      fitsIndex count ∧ length * count.toNat ≤ largestIndex := by
  unfold checkCount
  cases fitsIndex count with
  | false => simp
  | true =>
    split
    · contradiction
    · split
      · next long => simp [Nat.not_le.mpr long]
      · next short => simp [Nat.not_lt.mp short]

end Text

/-- The parts of a diagnosis: the line in three parts, of which the second is marked, and what
stands below the first and the second. -/
structure Diagnosed where
  front : List Char
  marked : List Char
  behind : List Char
  padding : List Char
  underline : List Char

namespace Diagnosed

/-- The two lines of a diagnosis. -/
def written (d : Diagnosed) (mark : String → String) : String :=
  "  " ++ String.ofList d.front ++ mark (String.ofList d.marked) ++ String.ofList d.behind ++
    "\n  " ++ String.ofList d.padding ++ mark (String.ofList d.underline)

/-- The parts show a line, with an underline of `width` characters that begins below the
character at `offset`, or at the end of a line that is shorter. The padding keeps the tabs of
the line. -/
structure Shows (d : Diagnosed) (line : String) (offset width : Nat) : Prop where
  whole : d.front ++ (d.marked ++ d.behind) = line.toList
  front : d.front.length = min offset line.length
  marked : d.marked.length = min width (line.length - offset)
  padding : d.padding.length = min offset line.length
  tabs : ∀ i < d.padding.length,
    d.padding[i]? = some (if line.toList[i]? = some '\t' then '\t' else ' ')
  underline : d.underline = '^' :: List.replicate (width - 1) '~'

/-- A line without a line feed makes a diagnosis of two lines. -/
theorem Shows.lines {d : Diagnosed} {line : String} {offset width : Nat}
    (shows : d.Shows line offset width) (oneLine : '\n' ∉ line.toList) :
    Text.lines (d.written id) =
      ["  " ++ line, "  " ++ String.ofList d.padding ++ String.ofList d.underline] := by
  have line_eq :
      line = String.ofList d.front ++ String.ofList d.marked ++ String.ofList d.behind := by
    rw [← String.toList_inj]
    simp [← shows.whole]
  have split : d.written id = "  " ++ line ++ "\n" ++
      ("  " ++ String.ofList d.padding ++ String.ofList d.underline) := by
    have ends : "\n  " = "\n" ++ "  " := by decide
    simp only [written, ends, line_eq, id, String.append_assoc]
  have blank : '\n' ∉ d.padding := by
    intro feed
    obtain ⟨i, bound, found⟩ := List.mem_iff_getElem.mp feed
    have kept := shows.tabs i bound
    rw [List.getElem?_eq_getElem bound, found] at kept
    split at kept <;> cases kept
  rw [split]
  apply Text.lines_append
  · simpa using oneLine
  · simp [blank, shows.underline]

end Diagnosed

namespace Report
variable {r : Report} {line : String} {col : Int}

/-- The parts of a diagnosis at a known column. -/
def diagnosed (r : Report) (col : Int) (line : String) : Diagnosed :=
  let first := col - 1 + r.start
  { front := Text.before line.toList first
    marked := Text.between line.toList first (first + r.width)
    behind := Text.onward line.toList (first + r.width)
    padding := padding (Text.before line.toList first)
    underline := underline r.width }

theorem diagnoseAt_eq (r : Report) (host : Host) (col : Int) (line : String) (warning : Bool) :
    r.diagnoseAt host col line warning =
      (r.diagnosed col line).written (host.emphasise · (some (severityTint warning))) :=
  rfl

theorem width_pos (r : Report) : 0 < r.width := by
  rw [width]
  omega

theorem diagnosed_shows (inside : 0 ≤ col - 1 + r.start) :
    (r.diagnosed col line).Shows line (col - 1 + r.start).toNat r.width where
  whole := Text.before_between_onward line.toList r.width inside
  front := by
    rw [← String.length_toList]
    exact Text.length_before line.toList inside
  marked := by
    rw [← String.length_toList]
    exact Text.length_between line.toList r.width inside
  padding := by
    rw [← String.length_toList, ← Text.length_before line.toList inside]
    exact List.length_map _
  tabs := by
    intro i bound
    have front : i < (Text.before line.toList (col - 1 + r.start)).length := by
      rw [← List.length_map]
      exact bound
    have same : line.toList[i]? = (Text.before line.toList (col - 1 + r.start))[i]? := by
      rw [← List.getElem?_append_left front, Text.before_append_onward]
    rw [same]
    simp only [diagnosed, IntScript.padding, List.getElem?_map, List.getElem?_eq_getElem front,
      Option.map_some, Option.some.injEq]
    split <;> simp_all
  underline := rfl

/-- An underline can be written if it is no longer than the subject or else not too long. -/
theorem checkUnderline_eq_ok :
    r.checkUnderline = .ok () ↔ r.width ≤ r.subject.length ∨ r.width ≤ Nat.pow 2 63 := by
  have largest : Text.largestIndex = 9223372036854775807 := rfl
  have power : Nat.pow 2 63 = 9223372036854775808 := rfl
  have positive := r.width_pos
  have count : ((r.width : Int) - 1).toNat = r.width - 1 := by omega
  unfold checkUnderline
  split
  · next whole => simp [whole]
  · next long =>
    rw [Text.checkCount_eq_ok, count, Nat.one_mul]
    simp only [long, false_or, Text.fitsIndex, Bool.and_eq_true, decide_eq_true_eq, largest, power]
    omega

theorem checkUnderline_of_long (long : r.subject.length < r.width)
    (beyond : Nat.pow 2 63 < r.width) : r.checkUnderline = .error .beyondIndex := by
  have largest : Text.largestIndex = 9223372036854775807 := rfl
  have power : Nat.pow 2 63 = 9223372036854775808 := rfl
  rw [power] at beyond
  have unfit : Text.fitsIndex ((r.width : Int) - 1) = false := by
    simp only [Text.fitsIndex, Bool.and_eq_false_iff, decide_eq_false_iff_not, largest]
    omega
  simp [checkUnderline, Nat.not_le.mpr long, Text.checkCount, unfit]

/-- With colours off, a diagnosis is the line itself and below it the padding and the underline.
Colours put escape sequences around the highlighted part and around the underline. This holds of
every line and of every column and range that does not begin in front of the line. Only an
underline that is beyond all limits of a text is refused. -/
theorem diagnose_keeps_line (r : Report) (line : String) (warning : Bool) (col : Int)
    (known : r.place.col = some col) (inside : 0 ≤ col - 1 + r.start)
    (oneLine : '\n' ∉ line.toList) :
    let width := (max (r.stop - r.start) 1).toNat
    (width ≤ r.subject.length ∨ width ≤ Nat.pow 2 63 →
      ∃ d : Diagnosed, d.Shows line (col - 1 + r.start).toNat width ∧
        Text.lines (d.written id) =
          ["  " ++ line, "  " ++ String.ofList d.padding ++ String.ofList d.underline] ∧
        (∀ host : Host, host.Colourless → r.diagnose host line warning = .ok (d.written id)) ∧
        ∀ host : Host, host.Marks → ∃ before after : String,
          Escapes before.toList ∧ Escapes after.toList ∧
          r.diagnose host line warning = .ok (d.written fun text => before ++ text ++ after)) ∧
    (r.subject.length < width → Nat.pow 2 63 < width →
      ∀ host, r.diagnose host line warning = .error (.underline .beyondIndex)) := by
  intro width
  constructor
  · intro room
    have fits : r.checkUnderline = .ok () := checkUnderline_eq_ok.mpr room
    have shows := @diagnosed_shows r line col inside
    refine ⟨r.diagnosed col line, shows, shows.lines oneLine, ?_, ?_⟩
    · intro host colourless
      simp only [diagnose, known, fits, diagnoseAt_eq, colourless _ _]
      rfl
    · intro host marks
      obtain ⟨before, after, front, back, around⟩ := marks (some (severityTint warning))
      refine ⟨before, after, front, back, ?_⟩
      simp only [diagnose, known, fits, diagnoseAt_eq, around]
  · intro long beyond host
    have refused := checkUnderline_of_long long beyond
    simp only [diagnose, known, refused]

/-- A range that begins behind the end of the line, and one that no text is long enough for. -/
theorem diagnose_keeps_line_past_end :
    let r : Report := {
      category := .typeError
      message := "m"
      subject := "x"
      place := .ofPosition ⟨1, 3⟩
      start := 2
      stop := 9
      diagnosis := true
      internal := false }
    let endless : Report := { r with stop := 9223372036854775812 }
    0 ≤ (3 : Int) - 1 + r.start ∧ '\n' ∉ "a\tb".toList ∧
      (∃ d : Diagnosed, d.Shows "a\tb" 4 7 ∧
        Text.lines (d.written id) =
          ["  a\tb", "  " ++ String.ofList d.padding ++ String.ofList d.underline] ∧
        r.diagnose .plain "a\tb" true = .ok (d.written id) ∧
        ∃ before after : String, Escapes before.toList ∧ Escapes after.toList ∧
          r.diagnose .terminal "a\tb" true =
            .ok (d.written fun text => before ++ text ++ after)) ∧
      endless.diagnose .plain "a\tb" true = .error (.underline .beyondIndex) := by
  intro r endless
  have inside : 0 ≤ (3 : Int) - 1 + r.start := by decide
  have oneLine : '\n' ∉ "a\tb".toList := by decide
  refine ⟨inside, oneLine, ?_, ?_⟩
  · obtain ⟨d, shows, lines, colourless, marks⟩ :=
      (diagnose_keeps_line r "a\tb" true 3 rfl inside oneLine).1 (.inr (by decide))
    exact ⟨d, shows, lines, colourless .plain Host.colourless_plain,
      marks .terminal Host.marks_terminal⟩
  · exact (diagnose_keeps_line endless "a\tb" true 3 rfl inside oneLine).2 (by decide)
      (by decide) .plain

/-- Not every report has a diagnosis, whatever the line. -/
theorem diagnose_refuses_endless_underline :
    let r : Report := {
      category := .typeError
      message := "m x"
      subject := "x"
      place := .ofPosition ⟨1, 1⟩
      start := 0
      stop := 9223372036854775809
      diagnosis := true
      internal := false }
    0 ≤ (1 : Int) - 1 + r.start ∧ '\n' ∉ "ab".toList ∧
      ∀ shown, r.diagnose .plain "ab" false ≠ .ok shown := by
  intro r
  have refused : r.checkUnderline = .error .beyondIndex :=
    checkUnderline_of_long (by decide) (by decide)
  have failed : r.diagnose .plain "ab" false = .error (.underline .beyondIndex) := by
    simp only [diagnose, refused]
    rfl
  refine ⟨by decide, by decide, ?_⟩
  intro shown accepted
  cases failed.symm.trans accepted

end Report
end IntScript

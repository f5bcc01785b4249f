import IntScript.Bindings
import IntScript.Proofs.Entries
import Mathlib.Data.List.DropRight

/-! Bindings and the calls that made them. Only integers are bound, and a reset forgets all that was
bound before it. Whatever the calls were, the entries are the summary of what was bound since the
last reset, and every question about them is answered from the entries. -/
namespace IntScript.Bindings

inductive Call where
  | set (name : String) (value : Value)
  | get (name : String) (default : Value)
  | contains (name : String)
  | reset
deriving DecidableEq

inductive Answer where
  | done
  | refused (error : NotInteger)
  | value (value : Value)
  | truth (truth : Bool)
deriving DecidableEq

/-- The answer to a call, and the bindings after it. -/
def answer (b : Bindings) : Call → Answer × Bindings
  | .set name value =>
    match b.assign name value with
    | .ok after => (.done, after)
    | .error e => (.refused e, b)
  | .get name default => (.value ((b.get? name).elim default .integer), b)
  | .contains name => (.truth (b.contains name), b)
  | .reset => (.done, .empty)

def afterCalls (b : Bindings) (calls : List Call) : Bindings :=
  calls.foldl (fun b call => (b.answer call).2) b

/-- The name and the integer that a call binds. -/
def Call.binds? : Call → Option (String × Int)
  | .set name (.integer n) => some (name, n)
  | _ => none

/-- What was bound since the last reset. -/
def boundBy (calls : List Call) : List (String × Int) :=
  (calls.rtakeWhile (· ≠ .reset)).filterMap Call.binds?

theorem afterCalls_concat (b : Bindings) (calls : List Call) (call : Call) :
    b.afterCalls (calls ++ [call]) = ((b.afterCalls calls).answer call).2 := by
  simp [afterCalls]

theorem boundBy_concat (calls : List Call) (call : Call) :
    boundBy (calls ++ [call]) =
      if call = .reset then [] else boundBy calls ++ call.binds?.toList := by
  rw [boundBy, List.rtakeWhile_concat]
  by_cases reset : call = .reset
  · simp [reset]
  · cases bound : call.binds? <;> simp [reset, bound, boundBy]

theorem insertEntry_eq_renew (name : String) (n : Int) (entries : List (String × Int)) :
    insertEntry name n entries = Entries.renew name n entries := by
  induction entries with
  | nil => rfl
  | cons entry entries ih => rw [insertEntry, Entries.renew, ih]

/-- What a call can do to bindings: bind a name, forget all, or nothing. -/
theorem answer_cases (b : Bindings) (call : Call) :
    (∃ name n, call = .set name (.integer n) ∧
      (b.answer call).2.entries = Entries.renew name n b.entries) ∨
    (call = .reset ∧ (b.answer call).2 = .empty) ∨
    (call.binds? = none ∧ call ≠ .reset ∧ (b.answer call).2 = b) := by
  cases call with
  | set name value =>
    cases value with
    | integer n => exact .inl ⟨name, n, rfl, insertEntry_eq_renew name n b.entries⟩
    | _ => exact .inr (.inr ⟨rfl, by simp, rfl⟩)
  | reset => exact .inr (.inl ⟨rfl, rfl⟩)
  | get | contains => exact .inr (.inr ⟨rfl, by simp, rfl⟩)

theorem summarise_answer {b : Bindings} {calls : List Call}
    (summary : Entries.Summarise (boundBy calls) b.entries) (call : Call) :
    Entries.Summarise (boundBy (calls ++ [call])) (b.answer call).2.entries := by
  rw [boundBy_concat]
  obtain ⟨name, n, rfl, after⟩ | ⟨rfl, after⟩ | ⟨none, other, after⟩ := b.answer_cases call
  · rw [if_neg (by simp), after]
    exact summary.renew name n
  · rw [if_pos rfl, after]
    exact .nil
  · rw [if_neg other, none, after, Option.toList_none, List.append_nil]
    exact summary

/-- By induction on the calls, the latest of which comes last. -/
theorem summarise_afterCalls (calls : List Call) :
    Entries.Summarise (boundBy calls) (empty.afterCalls calls).entries := by
  induction calls using List.reverseRecOn with
  | nil => exact .nil
  | append_singleton calls call ih =>
    rw [afterCalls_concat]
    exact summarise_answer ih call

theorem get?_eq_none_iff (b : Bindings) (name : String) :
    b.get? name = none ↔ name ∉ b.entries.map Prod.fst :=
  Entries.lookup_eq_none_iff

theorem answer_get_bound {b : Bindings} {name : String} {n : Int}
    (found : b.get? name = some n) (default : Value) :
    b.answer (.get name default) = (.value (.integer n), b) := by
  rw [answer, found]
  rfl

theorem answer_get_unbound {b : Bindings} {name : String}
    (unbound : name ∉ b.entries.map Prod.fst) (default : Value) :
    b.answer (.get name default) = (.value default, b) := by
  rw [answer, (b.get?_eq_none_iff name).mpr unbound]
  rfl

theorem contains_eq (b : Bindings) (name : String) :
    b.contains name = decide (name ∈ b.entries.map Prod.fst) := by
  rw [Bool.eq_iff_iff, decide_eq_true_iff, contains, Option.isSome_iff_ne_none, ne_eq,
    get?_eq_none_iff, not_not]

theorem answer_set_other (b : Bindings) (name : String) {value : Value}
    (other : ∀ n, value ≠ .integer n) : b.answer (.set name value) = (.refused ⟨value⟩, b) := by
  cases value with
  | integer n => exact absurd rfl (other n)
  | _ => rfl

/-- After any calls the entries are the one summary of what was bound since the last reset: every
name once, in the order in which the names were first bound, with the integer that it was bound to
last. Questions are answered from the entries and change nothing, and a value that is no integer is
refused and changes nothing either. -/
theorem entries_by_history (calls : List Call) :
    let b := empty.afterCalls calls
    (∀ entries, Entries.Summarise (boundBy calls) entries ↔ b.entries = entries) ∧
    (b.entries.map Prod.fst).Nodup ∧ b.size = b.entries.length ∧
    (∀ name n default, (name, n) ∈ b.entries →
      b.answer (.get name default) = (.value (.integer n), b)) ∧
    (∀ name default, name ∉ b.entries.map Prod.fst →
      b.answer (.get name default) = (.value default, b)) ∧
    (∀ name, b.answer (.contains name) =
      (.truth (decide (name ∈ b.entries.map Prod.fst)), b)) ∧
    (∀ name n, (b.answer (.set name (.integer n))).1 = .done) ∧
    ∀ name value, (∀ n, value ≠ .integer n) →
      b.answer (.set name value) = (.refused ⟨value⟩, b) := by
  intro b
  have summary : Entries.Summarise (boundBy calls) b.entries := summarise_afterCalls calls
  refine ⟨fun entries => ⟨summary.unique, fun same => same ▸ summary⟩, summary.distinct, rfl,
    ?_, ?_, ?_, fun name n => rfl, fun name value => b.answer_set_other name⟩
  · intro name n default bound
    exact answer_get_bound ((Entries.lookup_eq_some_iff summary.distinct).mpr bound) default
  · intro name default unbound
    exact answer_get_unbound unbound default
  · intro name
    rw [answer, contains_eq]

/-- A name keeps its place when it is bound again, a truth value is refused in between, and what was
bound before the reset is forgotten. -/
theorem entries_by_history_renewed :
    let calls : List Call := [.set "z" (.integer 9), .reset, .set "x" (.integer 1),
      .set "y" (.integer 2), .set "x" (.truth true), .get "x" .nothing, .set "x" (.integer (-3))]
    let b := empty.afterCalls calls
    b.entries = [("x", -3), ("y", 2)] ∧ Entries.Summarise (boundBy calls) b.entries ∧
      b.answer (.get "x" .nothing) = (.value (.integer (-3)), b) ∧
      b.answer (.get "z" (.text "?")) = (.value (.text "?"), b) ∧
      b.answer (.set "y" (.truth false)) = (.refused ⟨.truth false⟩, b) := by
  intro calls b
  have entries : b.entries = [("x", -3), ("y", 2)] := by decide
  obtain ⟨summary, -, -, found, missing, -, -, refused⟩ := entries_by_history calls
  refine ⟨entries, (summary b.entries).mpr rfl, found "x" (-3) _ ?_, missing "z" _ ?_,
    refused "y" _ (by simp)⟩
  · exact entries ▸ List.mem_cons_self
  · rw [entries]
    decide

end IntScript.Bindings

/-! Lists of keys with values, as registries and bindings keep them. Renewing a key changes its
value where it stands, and a key that is new comes last. After any renewals each key stands once, in
the order in which the keys came in, with the value that it was given last, and no other list is
like that. -/
namespace IntScript.Entries
variable {κ α : Type} [DecidableEq κ]

def renew (key : κ) (value : α) : List (κ × α) → List (κ × α)
  | [] => [(key, value)]
  | (first, old) :: rest =>
    if first = key then (first, value) :: rest else (first, old) :: renew key value rest

theorem keys_renew (key : κ) (value : α) (entries : List (κ × α)) :
    (renew key value entries).map Prod.fst =
      if key ∈ entries.map Prod.fst then entries.map Prod.fst
      else entries.map Prod.fst ++ [key] := by
  induction entries with
  | nil => rfl
  | cons entry entries ih =>
    obtain ⟨first, old⟩ := entry
    by_cases same : first = key
    · simp [renew, same]
    · simp only [renew, same, if_false, List.map_cons, ih, List.mem_cons, Ne.symm same, false_or]
      split <;> rfl

theorem mem_renew {key : κ} {value : α} {entries : List (κ × α)} {entry : κ × α}
    (distinct : (entries.map Prod.fst).Nodup) (member : entry ∈ renew key value entries) :
    entry = (key, value) ∨ entry ∈ entries ∧ entry.1 ≠ key := by
  induction entries with
  | nil => exact .inl (List.mem_singleton.mp member)
  | cons other entries ih =>
    obtain ⟨first, old⟩ := other
    obtain ⟨fresh, distinct⟩ := List.nodup_cons.mp distinct
    by_cases same : first = key
    · rw [renew, if_pos same] at member
      rcases List.mem_cons.mp member with rfl | behind
      · exact .inl (by rw [same])
      · refine .inr ⟨List.mem_cons_of_mem _ behind, fun again => ?_⟩
        exact fresh (List.mem_map.mpr ⟨entry, behind, again.trans same.symm⟩)
    · rw [renew, if_neg same] at member
      rcases List.mem_cons.mp member with rfl | behind
      · exact .inr ⟨List.mem_cons_self, same⟩
      · exact (ih distinct behind).imp_right fun found => ⟨List.mem_cons_of_mem _ found.1, found.2⟩

/-- A key that stands once is looked up where it stands. -/
theorem lookup_eq_some_iff {key : κ} {value : α} {entries : List (κ × α)}
    (distinct : (entries.map Prod.fst).Nodup) :
    entries.lookup key = some value ↔ (key, value) ∈ entries := by
  rw [List.lookup_eq_some_iff]
  constructor
  · rintro ⟨before, behind, rfl, -⟩
    simp
  · intro member
    obtain ⟨before, behind, rfl⟩ := List.append_of_mem member
    refine ⟨before, behind, rfl, fun entry inside => bne_iff_ne.mpr fun same => ?_⟩
    rw [List.map_append, List.map_cons] at distinct
    exact (List.nodup_append.mp distinct).2.2 entry.1 (List.mem_map_of_mem inside) key
      List.mem_cons_self same.symm

theorem lookup_eq_none_iff {key : κ} {entries : List (κ × α)} :
    entries.lookup key = none ↔ key ∉ entries.map Prod.fst := by
  simp only [List.lookup_eq_none_iff, bne_iff_ne, List.mem_map, not_exists, not_and]
  exact forall₂_congr fun _ _ => ne_comm

/-- The entry is the last of its key. -/
def Latest (given : List (κ × α)) (entry : κ × α) : Prop :=
  ∃ before behind, given = before ++ entry :: behind ∧ entry.1 ∉ behind.map Prod.fst

theorem Latest.lookup {given : List (κ × α)} {entry : κ × α} (latest : Latest given entry) :
    given.reverse.lookup entry.1 = some entry.2 := by
  obtain ⟨before, behind, rfl, last⟩ := latest
  refine List.lookup_eq_some_iff.mpr ⟨behind.reverse, before.reverse, by simp, ?_⟩
  intro other inside
  refine bne_iff_ne.mpr fun same => last ?_
  exact same ▸ List.mem_map_of_mem (List.mem_reverse.mp inside)

/-- Of all that was given to keys, the entries hold each key once, in the order in which the keys
were given something first, and with what they were given last. -/
structure Summarise (given entries : List (κ × α)) : Prop where
  keys : ∀ key, key ∈ entries.map Prod.fst ↔ key ∈ given.map Prod.fst
  ordered : (entries.map Prod.fst).Pairwise fun first second =>
    (given.map Prod.fst).idxOf first < (given.map Prod.fst).idxOf second
  latest : ∀ entry ∈ entries, Latest given entry

namespace Summarise
variable {given entries : List (κ × α)}

theorem nil : Summarise ([] : List (κ × α)) [] := ⟨by simp, .nil, by simp⟩

theorem distinct (summary : Summarise given entries) : (entries.map Prod.fst).Nodup := by
  refine summary.ordered.imp ?_
  rintro first second less rfl
  exact Nat.lt_irrefl _ less

theorem renew (summary : Summarise given entries) (key : κ) (value : α) :
    Summarise (given ++ [(key, value)]) (renew key value entries) := by
  have keys := keys_renew key value entries
  have stays {first : κ} (inside : first ∈ entries.map Prod.fst) :
      ((given ++ [(key, value)]).map Prod.fst).idxOf first = (given.map Prod.fst).idxOf first := by
    rw [List.map_append, List.idxOf_append, if_pos ((summary.keys first).mp inside)]
  have before : (entries.map Prod.fst).Pairwise fun first second =>
      ((given ++ [(key, value)]).map Prod.fst).idxOf first <
        ((given ++ [(key, value)]).map Prod.fst).idxOf second := by
    refine summary.ordered.imp_of_mem fun first second less => ?_
    rwa [stays first, stays second]
  refine ⟨fun other => ?_, ?_, fun entry member => ?_⟩
  · have known := summary.keys other
    rw [keys]
    split <;> grind
  · rw [keys]
    split
    · exact before
    · next fresh =>
      refine List.pairwise_append.mpr ⟨before, List.pairwise_singleton .., ?_⟩
      intro first inside last isLast
      obtain rfl := List.mem_singleton.mp isLast
      have new : last ∉ given.map Prod.fst := fun found => fresh ((summary.keys last).mpr found)
      have earlier := List.idxOf_lt_length_of_mem ((summary.keys first).mp inside)
      rw [stays inside, List.map_append, List.idxOf_append, if_neg new]
      omega
  · rcases mem_renew summary.distinct member with rfl | ⟨kept, differs⟩
    · exact ⟨given, [], rfl, by simp⟩
    · obtain ⟨front, behind, rfl, last⟩ := summary.latest entry kept
      exact ⟨front, behind ++ [(key, value)], by simp, by simp [last, differs]⟩

theorem map_lookup (summary : Summarise given entries) :
    entries.map (fun entry => (entry.1, some entry.2)) =
      (entries.map Prod.fst).map fun key => (key, given.reverse.lookup key) := by
  rw [List.map_map]
  refine List.map_congr_left fun entry member => ?_
  rw [Function.comp_apply, (summary.latest entry member).lookup]

/-- There is one summary: the keys have one order, and each key one value that it was given last. -/
theorem unique {entries' : List (κ × α)} (first : Summarise given entries)
    (second : Summarise given entries') : entries = entries' := by
  have keys : entries.map Prod.fst = entries'.map Prod.fst := by
    refine List.Perm.eq_of_pairwise ?_ first.ordered second.ordered ?_
    · intro a b _ _ less greater
      omega
    · refine (List.perm_ext_iff_of_nodup first.distinct second.distinct).mpr fun key => ?_
      rw [first.keys, second.keys]
  have values := first.map_lookup
  rw [keys, ← second.map_lookup] at values
  refine (List.map_inj_right ?_).mp values
  rintro ⟨key, value⟩ ⟨key', value'⟩ same
  cases same
  rfl

end Summarise
end IntScript.Entries

import IntScript.Proofs.Entries
import IntScript.Report.Reporter
import Mathlib.Data.List.Induction
import Mathlib.Data.Nat.Find

/-! Which source the next report is looked up in, whatever was registered, removed and
reported before. A registration stands until its path is removed or an error empties the
registry. A path that is registered again keeps its place. So the path in the last place is
the one whose earliest standing registration is the latest, and its text is that of its latest
registration. The registration that was made last decides only if no other path has come in
behind its own. -/
namespace IntScript

namespace Registry

theorem registerEntry_eq_renew (path : String) (source : Option String)
    (entries : List (String × Option String)) :
    registerEntry path source entries = Entries.renew path source entries := by
  induction entries with
  | nil => rfl
  | cons entry entries ih => rw [registerEntry, Entries.renew, ih]

theorem paths_registerEntry (path : String) (source : Option String)
    (entries : List (String × Option String)) :
    (registerEntry path source entries).map Prod.fst =
      if path ∈ entries.map Prod.fst then entries.map Prod.fst
      else entries.map Prod.fst ++ [path] := by
  rw [registerEntry_eq_renew]
  exact Entries.keys_renew path source entries

theorem mem_registerEntry {path : String} {source : Option String}
    {entries : List (String × Option String)} {entry : String × Option String}
    (distinct : (entries.map Prod.fst).Nodup) (member : entry ∈ registerEntry path source entries) :
    entry = (path, source) ∨ entry ∈ entries ∧ entry.1 ≠ path := by
  rw [registerEntry_eq_renew] at member
  exact Entries.mem_renew distinct member

end Registry

namespace Reporter

/-- What changes the registered sources of a reporter. -/
inductive Call where
  | register (path : String) (source : Option String)
  | remove (path : String)
  | throw (report : Report)
deriving DecidableEq

def answer (r : Reporter) : Call → Reporter
  | .register path source => { r with registry := r.registry.register path source }
  | .remove path => { r with registry := r.registry.remove path }
  | .throw report => (r.throw report).2.1

def afterCalls (r : Reporter) (calls : List Call) : Reporter := calls.foldl answer r

theorem afterCalls_append (r : Reporter) (calls : List Call) (call : Call) :
    r.afterCalls (calls ++ [call]) = (r.afterCalls calls).answer call := by
  simp [afterCalls]

/-- The call reports an error and the reporter goes on. -/
def Clears (r : Reporter) : Call → Prop
  | .throw report => (r.throw report).2.2 = none
  | _ => False

/-- Errors that are reported without further trouble empty the registry; all others leave it. -/
theorem answer_throw (r : Reporter) (report : Report) :
    r.Clears (.throw report) ∧ (r.answer (.throw report)).registry = .empty ∨
      ¬ r.Clears (.throw report) ∧ r.answer (.throw report) = r := by
  rcases shown : r.errorText report with ⟨text, _ | fault⟩
  · cases fatal : r.fatal <;> simp [Clears, answer, Reporter.throw, shown, fatal]
  · simp [Clears, answer, Reporter.throw, shown]

/-- Call number `i` registers the path, which was not removed since, nor was the registry
emptied. -/
structure Stands (r : Reporter) (calls : List Call) (i : Nat) (path : String)
    (source : Option String) : Prop where
  made : calls[i]? = some (.register path source)
  kept : ∀ j call, i < j → calls[j]? = some call →
    call ≠ .remove path ∧ ¬ (r.afterCalls (calls.take j)).Clears call

/-- The earliest registration that stands for its path. -/
def Enters (r : Reporter) (calls : List Call) (i : Nat) (path : String) : Prop :=
  (∃ source, Stands r calls i path source) ∧ ∀ j source, Stands r calls j path source → i ≤ j

/-- The latest registration that stands for its path. -/
def Renews (r : Reporter) (calls : List Call) (i : Nat) (path : String)
    (source : Option String) : Prop :=
  Stands r calls i path source ∧ ∀ j other, Stands r calls j path other → j ≤ i

section
variable {r : Reporter} {calls : List Call} {call : Call} {i : Nat} {path : String}
  {source : Option String}

theorem Stands.lt (stands : Stands r calls i path source) : i < calls.length :=
  (List.getElem?_eq_some_iff.mp stands.made).1

theorem getElem?_concat_eq_some {next : Call} :
    (calls ++ [call])[i]? = some next ↔ calls[i]? = some next ∨ i = calls.length ∧ next = call := by
  grind

/-- One call more: what stood before still does unless the call ends it, and the call itself
may be a registration. -/
theorem stands_append :
    Stands r (calls ++ [call]) i path source ↔
      (Stands r calls i path source ∧ call ≠ .remove path ∧ ¬ (r.afterCalls calls).Clears call) ∨
        (i = calls.length ∧ call = .register path source) := by
  have earlier {j : Nat} (before : j < calls.length) :
      (calls ++ [call]).take j = calls.take j :=
    List.take_append_of_le_length (Nat.le_of_lt before)
  constructor
  · rintro ⟨made, kept⟩
    rcases getElem?_concat_eq_some.mp made with made | ⟨last, same⟩
    · have inside := (List.getElem?_eq_some_iff.mp made).1
      refine .inl ⟨⟨made, fun j other later found => ?_⟩, ?_⟩
      · rw [← earlier (List.getElem?_eq_some_iff.mp found).1]
        exact kept j other later (getElem?_concat_eq_some.mpr (.inl found))
      · have now := kept calls.length call inside List.getElem?_concat_length
        rwa [List.take_left] at now
    · exact .inr ⟨last, same.symm⟩
  · rintro (⟨stands, other, goesOn⟩ | ⟨rfl, rfl⟩)
    · refine ⟨getElem?_concat_eq_some.mpr (.inl stands.made), fun j next later found => ?_⟩
      rcases getElem?_concat_eq_some.mp found with found | ⟨rfl, rfl⟩
      · rw [earlier (List.getElem?_eq_some_iff.mp found).1]
        exact stands.kept j next later found
      · rw [List.take_left]
        exact ⟨other, goesOn⟩
    · refine ⟨List.getElem?_concat_length, fun j next later found => ?_⟩
      have inside := (List.getElem?_eq_some_iff.mp found).1
      rw [List.length_append, List.length_singleton] at inside
      omega

theorem Enters.unique {j : Nat} (first : Enters r calls i path) (second : Enters r calls j path) :
    i = j := by
  obtain ⟨⟨source, stands⟩, least⟩ := first
  obtain ⟨⟨other, stands'⟩, least'⟩ := second
  exact Nat.le_antisymm (least j other stands') (least' i source stands)

theorem Renews.source_unique {j : Nat} {other : Option String}
    (first : Renews r calls i path source) (second : Renews r calls j path other) :
    source = other := by
  obtain rfl : i = j := Nat.le_antisymm (second.2 i source first.1) (first.2 j other second.1)
  have made := first.1.made.symm.trans second.1.made
  cases made
  rfl

/-- A path that stands came in at some point. -/
theorem Stands.exists_enters (stands : Stands r calls i path source) :
    ∃ j, Enters r calls j path := by
  classical
  have some : ∃ j, ∃ other, Stands r calls j path other := ⟨i, source, stands⟩
  exact ⟨Nat.find some, Nat.find_spec some, fun j other found => Nat.find_min' some ⟨other, found⟩⟩

end

/-- The first path came in before the second. -/
def CameBefore (r : Reporter) (calls : List Call) (first second : String) : Prop :=
  ∃ i j, Enters r calls i first ∧ Enters r calls j second ∧ i < j

/-- The entries of a registry are what the history of calls says: the paths that stand, in the
order in which they came in, each with its latest text. -/
structure Records (r : Reporter) (calls : List Call) (entries : List (String × Option String)) :
    Prop where
  complete : ∀ i path source, Stands r calls i path source → path ∈ entries.map Prod.fst
  renewed : ∀ entry ∈ entries, ∃ k, Renews r calls k entry.1 entry.2
  ordered : (entries.map Prod.fst).Pairwise (CameBefore r calls)

namespace Records
variable {r : Reporter} {calls : List Call} {entries : List (String × Option String)}

theorem distinct (records : Records r calls entries) : (entries.map Prod.fst).Nodup := by
  refine records.ordered.imp ?_
  rintro a b ⟨i, j, first, second, less⟩ rfl
  have := first.unique second
  omega

/-- Calls under which the same registrations stand for the paths that are kept. -/
theorem transfer {calls' : List Call} {entries' : List (String × Option String)}
    (records : Records r calls entries) (kept : entries'.Sublist entries)
    (same : ∀ i path source, Stands r calls' i path source ↔
      Stands r calls i path source ∧ path ∈ entries'.map Prod.fst) :
    Records r calls' entries' := by
  have entersSame {i path} (inside : path ∈ entries'.map Prod.fst)
      (enters : Enters r calls i path) : Enters r calls' i path := by
    obtain ⟨⟨source, stands⟩, least⟩ := enters
    exact ⟨⟨source, (same ..).mpr ⟨stands, inside⟩⟩,
      fun j other found => least j other ((same ..).mp found).1⟩
  refine ⟨fun i path source stands => ((same ..).mp stands).2, ?_, ?_⟩
  · intro entry member
    obtain ⟨k, stands, greatest⟩ := records.renewed entry (kept.subset member)
    exact ⟨k, (same ..).mpr ⟨stands, List.mem_map_of_mem member⟩,
      fun j other found => greatest j other ((same ..).mp found).1⟩
  · refine (records.ordered.sublist (kept.map Prod.fst)).imp_of_mem ?_
    rintro a b inside inside' ⟨i, j, first, second, less⟩
    exact ⟨i, j, entersSame inside first, entersSame inside' second, less⟩

theorem remove (records : Records r calls entries) (path : String) :
    Records r (calls ++ [.remove path]) (entries.filter (·.1 ≠ path)) := by
  refine records.transfer List.filter_sublist fun i other source => ?_
  rw [stands_append]
  constructor
  · rintro (⟨stands, differs, -⟩ | ⟨-, registers⟩)
    · obtain ⟨entry, member, rfl⟩ := List.mem_map.mp (records.complete i other source stands)
      refine ⟨stands, List.mem_map.mpr ⟨entry, List.mem_filter.mpr ⟨member, ?_⟩, rfl⟩⟩
      exact decide_eq_true fun same => differs (by rw [same])
    · cases registers
  · rintro ⟨stands, inside⟩
    obtain ⟨entry, member, rfl⟩ := List.mem_map.mp inside
    have differs : entry.1 ≠ path := of_decide_eq_true (List.mem_filter.mp member).2
    exact .inl ⟨stands, fun same => differs (Call.remove.inj same).symm, id⟩

theorem throw (records : Records r calls entries) (report : Report)
    (current : (r.afterCalls calls).registry.entries = entries) :
    Records r (calls ++ [.throw report])
      ((r.afterCalls calls).answer (.throw report)).registry.entries := by
  rcases (r.afterCalls calls).answer_throw report with ⟨clears, empty⟩ | ⟨goesOn, unchanged⟩
  · rw [empty]
    refine records.transfer (List.nil_sublist entries) fun i path source => ?_
    rw [stands_append]
    constructor
    · rintro (⟨-, -, goesOn⟩ | ⟨-, registers⟩)
      · exact absurd clears goesOn
      · cases registers
    · rintro ⟨-, inside⟩
      cases inside
  · rw [unchanged, current]
    refine records.transfer (List.Sublist.refl entries) fun i path source => ?_
    rw [stands_append]
    constructor
    · rintro (⟨stands, -⟩ | ⟨-, registers⟩)
      · exact ⟨stands, records.complete i path source stands⟩
      · cases registers
    · rintro ⟨stands, -⟩
      exact .inl ⟨stands, by simp, goesOn⟩

theorem stands_register {i : Nat} {path other : String} {source text : Option String} :
    Stands r (calls ++ [.register path source]) i other text ↔
      Stands r calls i other text ∨ i = calls.length ∧ other = path ∧ text = source := by
  rw [stands_append]
  constructor
  · rintro (⟨stands, -⟩ | ⟨last, registers⟩)
    · exact .inl stands
    · cases registers
      exact .inr ⟨last, rfl, rfl⟩
  · rintro (stands | ⟨last, rfl, rfl⟩)
    · exact .inl ⟨stands, by simp, id⟩
    · exact .inr ⟨last, rfl⟩

/-- A path that is there already came in where it did. -/
theorem enters_register {i : Nat} {path other : String} (source : Option String)
    (enters : Enters r calls i other) :
    Enters r (calls ++ [.register path source]) i other := by
  obtain ⟨⟨text, stands⟩, least⟩ := enters
  refine ⟨⟨text, stands_register.mpr (.inl stands)⟩, fun j found stands' => ?_⟩
  rcases stands_register.mp stands' with earlier | ⟨rfl, -⟩
  · exact least j found earlier
  · exact Nat.le_of_lt stands.lt

/-- The registration just made is the latest of its path, and leaves those of other paths. -/
theorem renews_register {path : String} {source : Option String}
    (records : Records r calls entries) {entry : String × Option String}
    (found : entry = (path, source) ∨ entry ∈ entries ∧ entry.1 ≠ path) :
    ∃ k, Renews r (calls ++ [.register path source]) k entry.1 entry.2 := by
  rcases found with rfl | ⟨member, differs⟩
  · refine ⟨calls.length, stands_register.mpr (.inr ⟨rfl, rfl, rfl⟩), fun j other stands => ?_⟩
    rcases stands_register.mp stands with earlier | ⟨rfl, -⟩
    · exact Nat.le_of_lt earlier.lt
    · exact Nat.le_refl _
  · obtain ⟨k, stands, greatest⟩ := records.renewed entry member
    refine ⟨k, stands_register.mpr (.inl stands), fun j other stands' => ?_⟩
    rcases stands_register.mp stands' with earlier | ⟨-, same, -⟩
    · exact greatest j other earlier
    · exact absurd same differs

theorem register (records : Records r calls entries) (path : String) (source : Option String) :
    Records r (calls ++ [.register path source]) (Registry.registerEntry path source entries) := by
  have paths := Registry.paths_registerEntry path source entries
  have orderedBefore : (entries.map Prod.fst).Pairwise
      (CameBefore r (calls ++ [.register path source])) := by
    refine records.ordered.imp ?_
    rintro a b ⟨i, j, first, second, less⟩
    exact ⟨i, j, enters_register source first, enters_register source second, less⟩
  refine ⟨?_, fun entry member =>
    records.renews_register (Registry.mem_registerEntry records.distinct member), ?_⟩
  · intro i other text stands
    rw [paths]
    rcases stands_register.mp stands with earlier | ⟨-, rfl, -⟩
    · have inside := records.complete i other text earlier
      split
      · exact inside
      · exact List.mem_append_left _ inside
    · split
      · assumption
      · simp
  · rw [paths]
    split
    · exact orderedBefore
    · next fresh =>
      refine List.pairwise_append.mpr ⟨orderedBefore, List.pairwise_singleton .., ?_⟩
      intro other inside new member
      obtain rfl := List.mem_singleton.mp member
      obtain ⟨entry, member, rfl⟩ := List.mem_map.mp inside
      obtain ⟨k, stands, -⟩ := records.renewed entry member
      obtain ⟨i, enters⟩ := stands.exists_enters
      obtain ⟨text, first⟩ := enters.1
      refine ⟨i, calls.length, enters_register source enters, ⟨⟨source, ?_⟩, ?_⟩, first.lt⟩
      · exact stands_register.mpr (.inr ⟨rfl, rfl, rfl⟩)
      · -- the path was not there, so no earlier registration of it stands
        intro j found stands'
        rcases stands_register.mp stands' with earlier | ⟨rfl, -⟩
        · exact absurd (records.complete j _ found earlier) fresh
        · exact Nat.le_refl _

end Records

/-- By induction on the calls, the latest of which comes last. -/
theorem records_afterCalls {r : Reporter} (clean : r.registry = .empty) (calls : List Call) :
    Records r calls (r.afterCalls calls).registry.entries := by
  induction calls using List.reverseRecOn with
  | nil =>
    have empty : (r.afterCalls []).registry.entries = [] := congrArg Registry.entries clean
    rw [empty]
    refine ⟨fun i path source stands => ?_, by simp, .nil⟩
    exact absurd stands.lt (Nat.not_lt_zero i)
  | append_singleton calls call ih =>
    rw [afterCalls_append]
    cases call with
    | register path source => exact ih.register path source
    | remove path => exact ih.remove path
    | throw report => exact ih.throw report rfl

namespace Records
variable {r : Reporter} {calls : List Call} {entries : List (String × Option String)}
  {path : String} {source : Option String}

/-- No path came in behind that of the last entry. -/
theorem enters_of_getLast? (records : Records r calls entries)
    (last : entries.getLast? = some (path, source)) :
    ∃ i, Enters r calls i path ∧ ∀ j other, Enters r calls j other → j ≤ i := by
  obtain ⟨front, rfl⟩ := List.getLast?_eq_some_iff.mp last
  obtain ⟨k, stands, -⟩ := records.renewed (path, source) (by simp)
  obtain ⟨i, enters⟩ := stands.exists_enters
  refine ⟨i, enters, fun j other enters' => ?_⟩
  obtain ⟨text, stands'⟩ := enters'.1
  have inside := records.complete j other text stands'
  have ordered := records.ordered
  rw [List.map_append] at inside ordered
  rcases List.mem_append.mp inside with before | same
  · obtain ⟨j', i', first, second, less⟩ :=
      (List.pairwise_append.mp ordered).2.2 other before path (by simp)
    have := enters'.unique first
    have := enters.unique second
    omega
  · obtain rfl : other = path := by simpa using same
    exact Nat.le_of_eq (enters'.unique enters)

theorem getLast?_eq_none_iff (records : Records r calls entries) :
    entries.getLast? = none ↔ ∀ i path source, ¬ Stands r calls i path source := by
  rw [List.getLast?_eq_none_iff]
  constructor
  · rintro rfl i path source stands
    cases records.complete i path source stands
  · intro none
    refine List.eq_nil_iff_forall_not_mem.mpr fun entry member => ?_
    obtain ⟨k, stands, -⟩ := records.renewed entry member
    exact none k entry.1 entry.2 stands

theorem getLast?_eq_some_iff (records : Records r calls entries) :
    entries.getLast? = some (path, source) ↔
      (∃ i, Enters r calls i path ∧ ∀ j other, Enters r calls j other → j ≤ i) ∧
        ∃ k, Renews r calls k path source := by
  constructor
  · intro last
    exact ⟨records.enters_of_getLast? last,
      records.renewed (path, source) (List.mem_of_getLast? last)⟩
  · rintro ⟨⟨i, enters, latest⟩, k, renews⟩
    obtain ⟨text, stands⟩ := enters.1
    cases found : entries.getLast? with
    | none => exact absurd stands (records.getLast?_eq_none_iff.mp found i path text)
    | some entry =>
      -- two paths that came in last came in at the same call, so they are one
      obtain ⟨other, text'⟩ := entry
      obtain ⟨j, enters', latest'⟩ := records.enters_of_getLast? found
      obtain rfl : i = j :=
        Nat.le_antisymm (latest' i path enters) (latest j other enters')
      obtain ⟨text'', stands'⟩ := enters'.1
      cases stands.made.symm.trans stands'.made
      obtain ⟨k', renews'⟩ := records.renewed (path, text') (List.mem_of_getLast? found)
      obtain rfl : text' = source := renews'.source_unique renews
      rfl

end Records

/-- The source line of a report in a text, if both are known. -/
def lineIn? (report : Report) (source : Option String) : Option String :=
  if report.place.isLocated then source.bind fun text => report.place.line.bind (lineAt? text)
  else none

theorem locate_eq (r : Reporter) (report : Report) :
    r.locate report = match r.registry.last? with
      | none => (none, none)
      | some (path, source) => (some path, lineIn? report source) := by
  unfold locate lineIn?
  split
  · next none => simp only [none]
  · next path found =>
    simp only [found]
    split <;> rfl
  · next path source found =>
    simp only [found]
    split <;> rfl

/-- After any calls, a report is looked up under the path that came in last among those that
stand, in the text of its latest registration, and under no path if none stands. The latest
registration of all is the one used exactly if no other path came in behind its own. -/
theorem locate_afterCalls (host : Text.Host) (fatal : Bool) (calls : List Call) :
    let r : Reporter := { host, fatal }
    let after := r.afterCalls calls
    (after.registry.last? = none ↔ ∀ i path source, ¬ Stands r calls i path source) ∧
    (∀ path source, after.registry.last? = some (path, source) ↔
      (∃ i, Enters r calls i path ∧ ∀ j other, Enters r calls j other → j ≤ i) ∧
        ∃ k, Renews r calls k path source) ∧
    (∀ k path source, Stands r calls k path source →
      (∀ j other text, Stands r calls j other text → j ≤ k) →
      (after.registry.last? = some (path, source) ↔
        ∀ i j other, Enters r calls i path → Enters r calls j other → j ≤ i)) ∧
    ∀ report, after.locate report = match after.registry.last? with
      | none => (none, none)
      | some (path, source) => (some path, lineIn? report source) := by
  intro r after
  have records : Records r calls after.registry.entries := records_afterCalls rfl calls
  refine ⟨records.getLast?_eq_none_iff, fun path source => records.getLast?_eq_some_iff, ?_,
    after.locate_eq⟩
  intro k path source stands latest
  refine records.getLast?_eq_some_iff.trans ⟨?_, ?_⟩
  · rintro ⟨⟨i, enters, behind⟩, -⟩ i' j other enters' enters''
    rw [← enters.unique enters']
    exact behind j other enters''
  · intro behind
    obtain ⟨i, enters⟩ := stands.exists_enters
    exact ⟨⟨i, enters, fun j other => behind i j other enters⟩, k, stands,
      fun j text => latest j path text⟩

/-- The latest registration renews a path that no other one came in behind: the other path was
removed, and what stood before was forgotten with an error. -/
theorem locate_afterCalls_renewed :
    let r : Reporter := { host := .plain, fatal := false }
    let report : Report := {
      category := .nameError
      message := "variable 'y' is not defined"
      subject := "y"
      place := .ofPosition ⟨1, 7⟩
      start := 0
      stop := 1
      diagnosis := true
      internal := false }
    let calls : List Call := [.register "c" (some "print(y)"), .throw report,
      .register "a" (some "x = 1"), .register "b" (some "y = 2"), .remove "b",
      .register "a" (some "z = 3")]
    Stands r calls 5 "a" (some "z = 3") ∧
      (∀ j other text, Stands r calls j other text → j ≤ 5) ∧
      (r.afterCalls calls).registry.last? = some ("a", some "z = 3") ∧
      ∀ i j other, Enters r calls i "a" → Enters r calls j other → j ≤ i := by
  intro r report calls
  have stands : Stands r (calls.take 5 ++ [.register "a" (some "z = 3")]) 5 "a" (some "z = 3") :=
    stands_append.mpr (.inr ⟨rfl, rfl⟩)
  have latest : ∀ j other text, Stands r calls j other text → j ≤ 5 :=
    fun j other text found => Nat.le_of_lt_succ found.lt
  have last : (r.afterCalls calls).registry.last? = some ("a", some "z = 3") := by decide +kernel
  obtain ⟨-, -, exactly, -⟩ := locate_afterCalls .plain false calls
  exact ⟨stands, latest, last, (exactly 5 "a" (some "z = 3") stands latest).mp last⟩

/-- A path that is registered again stays in front of the one that came in between, so the
report is looked up in the text of the other. -/
theorem renewed_path_overlooked :
    let r : Reporter := { host := .plain, fatal := false }
    let calls : List Call := [.register "a" (some "x = 1"), .register "b" (some "y = 2"),
      .register "a" (some "z = 3")]
    let report : Report := {
      category := .nameError
      message := "variable 'z' is not defined"
      subject := "z"
      place := .ofPosition ⟨1, 1⟩
      start := 0
      stop := 1
      diagnosis := true
      internal := false }
    Stands r calls 2 "a" (some "z = 3") ∧
      (∀ j other text, Stands r calls j other text → j ≤ 2) ∧
      (r.afterCalls calls).registry.last? = some ("b", some "y = 2") ∧
      (r.afterCalls calls).locate report = (some "b", some "y = 2") := by
  intro r calls report
  have stands : Stands r (calls.take 2 ++ [.register "a" (some "z = 3")]) 2 "a" (some "z = 3") :=
    stands_append.mpr (.inr ⟨rfl, rfl⟩)
  refine ⟨stands, ?_, ?_, ?_⟩
  · exact fun j other text found => Nat.le_of_lt_succ found.lt
  · decide
  · decide +kernel

end Reporter
end IntScript

import Mathlib.Data.List.Nodup
import Mathlib.Order.Lattice

/-!
# Lists of keyed values

A finite map as a list of pairs whose keys differ. A key that is found splits
the list around its pair, and replacing or removing the key acts at that place
alone, so that sums and other list-wide readings change by one summand.
-/
namespace MinicoreAgent.Keyed

universe u v
variable {Key : Type u} {Value : Type v} [DecidableEq Key]
variable {entries before after : List (Key × Value)} {key other : Key} {value next : Value}

/-- The value of a key. -/
def find (entries : List (Key × Value)) (key : Key) : Option Value :=
  (entries.find? (fun entry => decide (entry.1 = key))).map (·.2)

/-- Replace the value of a key that is present. -/
def put (entries : List (Key × Value)) (key : Key) (value : Value) : List (Key × Value) :=
  entries.map (fun entry => if entry.1 = key then (key, value) else entry)

/-- Remove a key. -/
def erase (entries : List (Key × Value)) (key : Key) : List (Key × Value) :=
  entries.filter (fun entry => decide (entry.1 ≠ key))

/-- No key occurs twice. -/
def Distinct (entries : List (Key × Value)) : Prop := (entries.map Prod.fst).Nodup

/-- The list around the pair of a key. -/
structure Split (entries : List (Key × Value)) (key : Key) (value : Value)
    (before after : List (Key × Value)) : Prop where
  whole : entries = before ++ (key, value) :: after
  put : ∀ next, put entries key next = before ++ (key, next) :: after
  erase : erase entries key = before ++ after

theorem find_mem (found : find entries key = some value) :
    (key, value) ∈ entries := by
  obtain ⟨⟨name, content⟩, present, same⟩ := Option.map_eq_some_iff.mp found
  have named : name = key := by simpa using List.find?_some present
  have held : content = value := same
  rw [← named, ← held]
  exact List.mem_of_find?_eq_some present

theorem find_none_iff : find entries key = none ↔ ∀ entry ∈ entries, entry.1 ≠ key := by
  simp [find, List.find?_eq_none]

theorem put_absent (absent : ∀ entry ∈ entries, entry.1 ≠ key) (next : Value) :
    put entries key next = entries := by
  unfold put
  refine (List.map_congr_left ?_).trans (List.map_id entries)
  intro entry member
  simp [absent entry member]

theorem erase_absent (absent : ∀ entry ∈ entries, entry.1 ≠ key) : erase entries key = entries := by
  unfold erase
  refine List.filter_eq_self.mpr ?_
  intro entry member
  simpa using absent entry member

/-- In a list of distinct keys a key that is found splits the list. -/
theorem find_split (distinct : Distinct entries) (found : find entries key = some value) :
    ∃ before after, Split entries key value before after := by
  obtain ⟨before, after, whole⟩ := List.append_of_mem (find_mem found)
  have apart : (before.map Prod.fst ++ key :: after.map Prod.fst).Nodup := by
    simpa [Distinct, whole] using distinct
  rw [List.nodup_append] at apart
  obtain ⟨-, rest, across⟩ := apart
  have absentBefore : ∀ entry ∈ before, entry.1 ≠ key := by
    intro entry member
    exact across entry.1 (List.mem_map_of_mem member) key List.mem_cons_self
  have absentAfter : ∀ entry ∈ after, entry.1 ≠ key := by
    intro entry member same
    exact (List.nodup_cons.mp rest).1 (same ▸ List.mem_map_of_mem member)
  refine ⟨before, after, whole, ?_, ?_⟩
  · intro next
    have left := put_absent absentBefore next
    have right := put_absent absentAfter next
    simp only [Keyed.put] at left right
    rw [whole, Keyed.put, List.map_append, List.map_cons, left, right]
    simp
  · have left := erase_absent absentBefore
    have right := erase_absent absentAfter
    simp only [Keyed.erase] at left right
    rw [whole, Keyed.erase, List.filter_append, List.filter_cons, left, right]
    simp

/-- A member of a list of distinct keys is found under its key. -/
theorem mem_find (distinct : Distinct entries) (member : (key, value) ∈ entries) :
    find entries key = some value := by
  obtain ⟨content, found⟩ : ∃ content, find entries key = some content := by
    refine Option.ne_none_iff_exists'.mp ?_
    intro absent
    rw [find_none_iff] at absent
    exact absent _ member rfl
  have other := find_mem found
  have same : (key, content) = (key, value) := by
    have inj := List.inj_on_of_nodup_map distinct
    exact inj other member rfl
  rw [found, (Prod.mk.inj same).2]

theorem Distinct.put (distinct : Distinct entries) (key : Key) (next : Value) :
    Distinct (put entries key next) := by
  have keys : (Keyed.put entries key next).map Prod.fst = entries.map Prod.fst := by
    rw [Keyed.put, List.map_map]
    refine List.map_congr_left ?_
    intro entry _
    by_cases same : entry.1 = key
    · simp [same]
    · simp [same]
  unfold Distinct at distinct ⊢
  rwa [keys]

theorem Distinct.erase (distinct : Distinct entries) (key : Key) :
    Distinct (erase entries key) :=
  distinct.sublist (List.filter_sublist.map Prod.fst)

theorem Distinct.append (distinct : Distinct entries) (absent : find entries key = none)
    (next : Value) : Distinct (entries ++ [(key, next)]) := by
  unfold Distinct at distinct ⊢
  rw [List.map_append]
  refine List.Nodup.append distinct (List.nodup_singleton key) ?_
  rw [List.map_singleton, List.disjoint_singleton]
  intro member
  obtain ⟨entry, present, same⟩ := List.mem_map.mp member
  rw [find_none_iff] at absent
  exact absent entry present same

/-- What is in the list after a replacement was there before or is the new pair. -/
theorem mem_put {entry : Key × Value} (member : entry ∈ put entries key next) :
    entry = (key, next) ∨ entry ∈ entries ∧ entry.1 ≠ key := by
  obtain ⟨old, present, same⟩ := List.mem_map.mp member
  by_cases named : old.1 = key
  · rw [if_pos named] at same
    exact .inl same.symm
  · rw [if_neg named] at same
    exact .inr ⟨same ▸ present, same ▸ named⟩

theorem find_put_self (found : find entries key = some value) :
    find (put entries key next) key = some next := by
  obtain ⟨content, sought⟩ : ∃ content, find (put entries key next) key = some content := by
    refine Option.ne_none_iff_exists'.mp ?_
    intro absent
    have member : (key, next) ∈ put entries key next := by
      refine List.mem_map.mpr ⟨(key, value), find_mem found, by simp⟩
    rw [find_none_iff] at absent
    exact absent _ member rfl
  rcases mem_put (find_mem sought) with same | ⟨-, apart⟩
  · rw [sought, (Prod.mk.inj same).2]
  · exact absurd rfl apart

theorem find_cons (entry : Key × Value) (rest : List (Key × Value)) (key : Key) :
    find (entry :: rest) key = if entry.1 = key then some entry.2 else find rest key := by
  by_cases named : entry.1 = key
  · simp [find, named]
  · simp [find, named]

theorem find_put_other (apart : other ≠ key) :
    find (put entries key next) other = find entries other := by
  induction entries with
  | nil => rfl
  | cons entry rest inductionHypothesis =>
    have changed : put (entry :: rest) key next =
        (if entry.1 = key then (key, next) else entry) :: put rest key next := rfl
    rw [changed, find_cons, find_cons, inductionHypothesis]
    by_cases replaced : entry.1 = key
    · have skipped : ¬ entry.1 = other := fun same => apart (same.symm.trans replaced)
      rw [if_pos replaced, if_neg (Ne.symm apart), if_neg skipped]
    · rw [if_neg replaced]

section Ordered

variable {Key : Type u} [LinearOrder Key] {entries : List (Key × Value)} {key other : Key}

/-- Insert a key at its place in the order, or replace its value. -/
def insert (key : Key) (value : Value) : List (Key × Value) → List (Key × Value)
  | [] => [(key, value)]
  | (other, old) :: rest =>
    if key < other then (key, value) :: (other, old) :: rest
    else if key = other then (key, value) :: rest
    else (other, old) :: insert key value rest

theorem find_insert_self (entries : List (Key × Value)) (key : Key) (value : Value) :
    find (insert key value entries) key = some value := by
  fun_induction insert key value entries with
  | case1 => simp [find_cons]
  | case2 => simp [find_cons]
  | case3 => simp [find_cons]
  | case4 named old rest before apart inductionHypothesis =>
    rw [find_cons, if_neg (fun same => apart same.symm), inductionHypothesis]

theorem find_insert_other (apart : other ≠ key) (value : Value) :
    find (insert key value entries) other = find entries other := by
  fun_induction insert key value entries with
  | case1 => simp [find_cons, apart.symm]
  | case2 => simp [find_cons, apart.symm]
  | case3 => simp [find_cons, apart.symm]
  | case4 named old rest before unequal inductionHypothesis =>
    rw [find_cons, find_cons, inductionHypothesis]

end Ordered

end MinicoreAgent.Keyed

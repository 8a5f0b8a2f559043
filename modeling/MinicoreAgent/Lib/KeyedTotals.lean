import MinicoreAgent.Lib.Keyed
import MinicoreAgent.Lib.Slots
import Mathlib.Tactic.Abel

/-!
# Totals over keyed lists

A measure of the pairs of a keyed list is added up in a commutative monoid.
Replacing, inserting and removing a key change the total by the summand of that
key. Lists that keep their keys in increasing order stay so.
-/
namespace MinicoreAgent.Keyed

open Slots

universe u v w
variable {Key : Type u} {Value : Type v} {M : Type w} [AddCommMonoid M]

section Unordered

variable [DecidableEq Key] {entries : List (Key × Value)} {key other : Key} {value next : Value}

/-- Replace the value of a key, or add the key at the end. -/
def upsert (entries : List (Key × Value)) (key : Key) (value : Value) : List (Key × Value) :=
  if (find entries key).isSome then put entries key value else entries ++ [(key, value)]

theorem find_append (entries : List (Key × Value)) (key other : Key) (value : Value) :
    find (entries ++ [(key, value)]) other =
      (find entries other).or (if key = other then some value else none) := by
  induction entries with
  | nil => simp [find]
  | cons entry rest inductionHypothesis =>
    rw [List.cons_append, find_cons, find_cons, inductionHypothesis]
    split
    · rfl
    · rfl

theorem find_upsert_self (entries : List (Key × Value)) (key : Key) (value : Value) :
    find (upsert entries key value) key = some value := by
  unfold upsert
  cases found : find entries key with
  | none => simp [find_append, found]
  | some old => simpa using find_put_self found

theorem find_upsert_other (apart : other ≠ key) :
    find (upsert entries key value) other = find entries other := by
  unfold upsert
  split
  · exact find_put_other apart
  · simp [find_append, apart.symm]

theorem Distinct.upsert (distinct : Distinct entries) (key : Key) (value : Value) :
    Distinct (upsert entries key value) := by
  unfold Keyed.upsert
  cases found : find entries key with
  | none => simpa using distinct.append found value
  | some old => simpa using distinct.put key value

/-- A total changes by the summand of the key that is set. -/
theorem total_upsert (measure : Key × Value → M) (distinct : Distinct entries) (key : Key)
    (value : Value) :
    total measure (upsert entries key value) +
        ((find entries key).map (fun old => measure (key, old))).getD 0 =
      total measure entries + measure (key, value) := by
  unfold upsert
  cases found : find entries key with
  | none => simp
  | some old =>
    obtain ⟨before, after, split⟩ := find_split distinct found
    have replaced := split.put value
    simp only [Option.isSome_some, if_true, Option.map_some, Option.getD_some]
    rw [replaced, split.whole]
    simp only [total_append, total_cons]
    abel

/-- A removed key takes its summand with it. -/
theorem total_erase (measure : Key × Value → M) (distinct : Distinct entries)
    (found : find entries key = some value) :
    total measure entries = measure (key, value) + total measure (erase entries key) := by
  obtain ⟨before, after, split⟩ := find_split distinct found
  rw [split.erase, split.whole]
  simp only [total_append, total_cons]
  abel

theorem find_erase_self (entries : List (Key × Value)) (key : Key) :
    find (erase entries key) key = none := by
  rw [find_none_iff]
  intro entry member
  simpa using (List.mem_filter.mp member).2

theorem find_erase_other (apart : other ≠ key) :
    find (erase entries key) other = find entries other := by
  induction entries with
  | nil => rfl
  | cons entry rest inductionHypothesis =>
    unfold erase at inductionHypothesis ⊢
    rw [List.filter_cons]
    by_cases named : entry.1 = key
    · have skipped : ¬ entry.1 = other := fun same => apart (same.symm.trans named)
      rw [if_neg (by simpa using named), inductionHypothesis, find_cons, if_neg skipped]
    · rw [if_pos (by simpa using named), find_cons, find_cons, inductionHypothesis]

end Unordered

section Filters

variable {α : Type u}

/-- A total over a filtered list, as a total with the others at zero. -/
theorem total_filter (measure : α → M) (test : α → Bool) (slots : List α) :
    total measure (slots.filter test) =
      total (fun slot => if test slot then measure slot else 0) slots := by
  induction slots with
  | nil => rfl
  | cons slot rest inductionHypothesis =>
    rw [List.filter_cons, total_cons, ← inductionHypothesis]
    by_cases passed : test slot = true
    · simp [passed]
    · simp [passed]

end Filters

section Ordered

variable [LinearOrder Key] {entries : List (Key × Value)} {key other : Key} {value : Value}

/-- The keys are in increasing order. -/
def Sorted (entries : List (Key × Value)) : Prop := entries.Pairwise (fun one two => one.1 < two.1)

theorem Sorted.distinct (sorted : Sorted entries) : Distinct entries := by
  unfold Distinct
  rw [List.nodup_iff_pairwise_ne, List.pairwise_map]
  exact sorted.imp (fun less => ne_of_lt less)

theorem Sorted.filter (sorted : Sorted entries) (test : Key × Value → Bool) :
    Sorted (entries.filter test) :=
  List.Pairwise.filter test sorted

theorem mem_insert {entry : Key × Value} (member : entry ∈ insert key value entries) :
    entry = (key, value) ∨ entry ∈ entries := by
  fun_induction insert key value entries with
  | case1 => simpa using member
  | case2 named old rest before =>
    rcases List.mem_cons.mp member with here | later
    · exact .inl here
    · exact .inr later
  | case3 old rest before =>
    rcases List.mem_cons.mp member with here | later
    · exact .inl here
    · exact .inr (List.mem_cons_of_mem _ later)
  | case4 named old rest before apart inductionHypothesis =>
    rcases List.mem_cons.mp member with here | later
    · exact .inr (here ▸ List.mem_cons_self)
    · rcases inductionHypothesis later with found | found
      · exact .inl found
      · exact .inr (List.mem_cons_of_mem _ found)

theorem Sorted.insert (sorted : Sorted entries) (key : Key) (value : Value) :
    Sorted (insert key value entries) := by
  unfold Sorted at sorted ⊢
  fun_induction Keyed.insert key value entries with
  | case1 => exact List.pairwise_singleton _ _
  | case2 named old rest before =>
    refine List.pairwise_cons.mpr ⟨?_, sorted⟩
    intro entry member
    rcases List.mem_cons.mp member with rfl | later
    · exact before
    · exact lt_trans before ((List.pairwise_cons.mp sorted).1 entry later)
  | case3 old rest before =>
    obtain ⟨first, tail⟩ := List.pairwise_cons.mp sorted
    exact List.pairwise_cons.mpr ⟨first, tail⟩
  | case4 named old rest before apart inductionHypothesis =>
    obtain ⟨first, tail⟩ := List.pairwise_cons.mp sorted
    refine List.pairwise_cons.mpr ⟨?_, inductionHypothesis tail⟩
    intro entry member
    rcases mem_insert member with rfl | later
    · exact lt_of_le_of_ne (not_lt.mp before) (fun same => apart same.symm)
    · exact first entry later

/-- A total grows by the summand that is inserted, and loses the one it replaces. -/
theorem total_insert (measure : Key × Value → M) (sorted : Sorted entries) (key : Key)
    (value : Value) :
    total measure (insert key value entries) +
        ((find entries key).map (fun old => measure (key, old))).getD 0 =
      total measure entries + measure (key, value) := by
  unfold Sorted at sorted
  fun_induction Keyed.insert key value entries with
  | case1 => simp [find]
  | case2 named old rest before =>
    have absent : find ((named, old) :: rest) key = none := by
      rw [find_none_iff]
      intro entry member same
      rcases List.mem_cons.mp member with rfl | later
      · exact absurd same (ne_of_gt before)
      · have after := (List.pairwise_cons.mp sorted).1 entry later
        exact absurd same (ne_of_gt (lt_trans before after))
    rw [absent, total_cons]
    simp only [Option.map_none, Option.getD_none]
    abel
  | case3 old rest before =>
    simp only [find_cons, if_true, Option.map_some, Option.getD_some, total_cons]
    abel
  | case4 named old rest before apart inductionHypothesis =>
    have tail := inductionHypothesis (List.pairwise_cons.mp sorted).2
    rw [find_cons, if_neg (fun same => apart same.symm), total_cons, total_cons, add_assoc, tail]
    abel

end Ordered

end MinicoreAgent.Keyed

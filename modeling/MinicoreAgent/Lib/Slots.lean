import Mathlib.Algebra.BigOperators.Group.List.Basic
import Mathlib.Algebra.Order.Group.Multiset

/-!
# Totals over a list of slots

A list of slots is read through a measure into a commutative monoid and the
values are added up. Replacing one slot changes the total by exactly the
difference of that slot's values, and a new slot adds its own value. A system of
concurrent parties keeps one slot for each party, so what all parties hold
together follows from what the moving party held before and holds after.
-/
namespace MinicoreAgent.Slots

universe u v
variable {α : Type u} {M : Type v} [AddCommMonoid M]

/-- The sum of a measure over all slots. -/
def total (measure : α → M) (slots : List α) : M := (slots.map measure).sum

@[simp] theorem total_nil (measure : α → M) : total measure [] = 0 := rfl

@[simp] theorem total_cons (measure : α → M) (slot : α) (rest : List α) :
    total measure (slot :: rest) = measure slot + total measure rest := by
  simp [total]

@[simp] theorem total_append (measure : α → M) (left right : List α) :
    total measure (left ++ right) = total measure left + total measure right := by
  simp [total]

theorem total_congr {first second : α → M} (same : ∀ slot, first slot = second slot)
    (slots : List α) : total first slots = total second slots := by
  rw [funext same]

theorem total_add (first second : α → M) (slots : List α) :
    total (fun slot => first slot + second slot) slots = total first slots + total second slots := by
  induction slots with
  | nil => simp
  | cons slot rest inductionHypothesis =>
    rw [total_cons, total_cons, total_cons, inductionHypothesis]
    exact add_add_add_comm _ _ _ _

/-- All slots but one, whose value is set apart. -/
theorem total_split (measure : α → M) (slots : List α) (index : Nat) (slot : α)
    (present : slots[index]? = some slot) :
    ∃ others, ∀ replacement,
      total measure slots = measure slot + others ∧
      total measure (slots.set index replacement) = measure replacement + others := by
  induction slots generalizing index with
  | nil => simp at present
  | cons head rest inductionHypothesis =>
    cases index with
    | zero =>
      have same : head = slot := by simpa using present
      subst same
      exact ⟨total measure rest, fun replacement => by simp⟩
    | succ index =>
      obtain ⟨others, split⟩ := inductionHypothesis index (by simpa using present)
      refine ⟨measure head + others, fun replacement => ?_⟩
      obtain ⟨before, after⟩ := split replacement
      simp only [total_cons, List.set_cons_succ, before, after]
      exact ⟨add_left_comm _ _ _, add_left_comm _ _ _⟩

/-- One slot is part of the total. -/
theorem le_total (measure : α → Nat) (slots : List α) (index : Nat) (slot : α)
    (present : slots[index]? = some slot) : measure slot ≤ total measure slots := by
  obtain ⟨others, split⟩ := total_split measure slots index slot present
  have parts := (split slot).1
  omega

theorem total_le_total {first second : α → Nat} (less : ∀ slot, first slot ≤ second slot)
    (slots : List α) : total first slots ≤ total second slots := by
  induction slots with
  | nil => exact Nat.le_refl _
  | cons slot rest inductionHypothesis =>
    simp only [total_cons]
    have head := less slot
    omega

theorem total_one (slots : List α) : total (fun _ => 1) slots = slots.length := by
  induction slots with
  | nil => rfl
  | cons slot rest inductionHypothesis =>
    rw [total_cons, inductionHypothesis, List.length_cons, Nat.add_comm]

/-- What is not nothing together is something in one slot. -/
theorem pos_of_total {measure : α → Nat} {slots : List α} (positive : 0 < total measure slots) :
    ∃ (index : Nat) (slot : α), slots[index]? = some slot ∧ 0 < measure slot := by
  induction slots with
  | nil => exact absurd positive (Nat.lt_irrefl 0)
  | cons head rest inductionHypothesis =>
    rw [total_cons] at positive
    by_cases here : 0 < measure head
    · exact ⟨0, head, rfl, here⟩
    · obtain ⟨index, slot, present, held⟩ := inductionHypothesis (by omega)
      exact ⟨index + 1, slot, present, held⟩

theorem le_total_of_mem (measure : α → Nat) {slots : List α} {slot : α} (member : slot ∈ slots) :
    measure slot ≤ total measure slots := by
  obtain ⟨index, present⟩ := List.getElem?_of_mem member
  exact le_total measure slots index slot present

/-- Two different slots are parts of the total together. -/
theorem two_le_total (measure : α → Nat) (slots : List α) (first second : Nat) (left right : α)
    (apart : first ≠ second) (one : slots[first]? = some left)
    (other : slots[second]? = some right) :
    measure left + measure right ≤ total measure slots := by
  induction slots generalizing first second with
  | nil => simp at one
  | cons head rest inductionHypothesis =>
    simp only [total_cons]
    cases first with
    | zero =>
      obtain rfl : head = left := by simpa using one
      cases second with
      | zero => exact absurd rfl apart
      | succ second =>
        have part := le_total measure rest second right (by simpa using other)
        omega
    | succ first =>
      cases second with
      | zero =>
        obtain rfl : head = right := by simpa using other
        have part := le_total measure rest first left (by simpa using one)
        omega
      | succ second =>
        have parts := inductionHypothesis first second (by omega) (by simpa using one)
          (by simpa using other)
        omega

/-- An element of a total of multisets comes from one slot. -/
theorem mem_total {β : Type v} {measure : α → Multiset β} {slots : List α} {element : β}
    (member : element ∈ total measure slots) :
    ∃ (index : Nat) (slot : α), slots[index]? = some slot ∧ element ∈ measure slot := by
  induction slots with
  | nil => simp at member
  | cons head rest inductionHypothesis =>
    rw [total_cons, Multiset.mem_add] at member
    rcases member with here | later
    · exact ⟨0, head, rfl, here⟩
    · obtain ⟨index, slot, present, held⟩ := inductionHypothesis later
      exact ⟨index + 1, slot, by simpa using present, held⟩

section Replacement

variable {slots spawned : List α} {index position : Nat} {next found old : α}

/-- A slot after one slot was replaced is the replaced one or an old one. -/
theorem set_cases (present : (slots.set index next)[position]? = some found) :
    (position = index ∧ found = next) ∨
      (position ≠ index ∧ slots[position]? = some found) := by
  by_cases same : position = index
  · subst same
    have inside := (List.getElem?_eq_some_iff.mp present).1
    rw [List.getElem?_set_self (by simpa using inside)] at present
    exact .inl ⟨rfl, (Option.some.inj present).symm⟩
  · rw [List.getElem?_set_ne (Ne.symm same)] at present
    exact .inr ⟨same, present⟩

/-- After others were added as well, it may be one of these. -/
theorem replaced_cases (present : (slots.set index next ++ spawned)[position]? = some found) :
    (position = index ∧ found = next) ∨
      (position ≠ index ∧ slots[position]? = some found) ∨
      ∃ offset, position = slots.length + offset ∧ spawned[offset]? = some found := by
  rcases Nat.lt_or_ge position slots.length with inside | beyond
  · rw [List.getElem?_append_left (by simpa using inside)] at present
    rcases set_cases present with replaced | old
    · exact .inl replaced
    · exact .inr (.inl old)
  · rw [List.getElem?_append_right (by simpa using beyond), List.length_set] at present
    exact .inr (.inr ⟨position - slots.length, by omega, present⟩)

/-- The replaced slot. -/
theorem replaced_self (spawned : List α) (present : slots[index]? = some old) :
    (slots.set index next ++ spawned)[index]? = some next := by
  obtain ⟨inside, _⟩ := List.getElem?_eq_some_iff.mp present
  rw [List.getElem?_append_left (by simpa using inside), List.getElem?_set_self inside]

/-- Every other slot stays. -/
theorem replaced_other (spawned : List α) (apart : position ≠ index)
    (present : slots[position]? = some found) :
    (slots.set index next ++ spawned)[position]? = some found := by
  obtain ⟨inside, _⟩ := List.getElem?_eq_some_iff.mp present
  rw [List.getElem?_append_left (by simpa using inside), List.getElem?_set_ne (Ne.symm apart),
    present]

end Replacement

end MinicoreAgent.Slots

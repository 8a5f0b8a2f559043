import Mathlib.Data.List.Infix
import Mathlib.Data.List.Nodup
import Mathlib.Data.List.Perm.Basic
import Mathlib.Data.List.Range

/-!
# Matches of a pattern

A pattern occurs in a text wherever it begins what is left of it, so occurrences may
overlap. A search from left to right reports disjoint matches: it goes on behind the
match it has found. A replacement puts something else between the same gaps.

Patterns are not empty.
-/
namespace MinicoreAgent.Matches

universe u
variable {α : Type u} [DecidableEq α]

/-- The pattern stands at the position. -/
def OccursAt (pattern text : List α) (position : Nat) : Prop := pattern <+: text.drop position

instance (pattern text : List α) (position : Nat) : Decidable (OccursAt pattern text position) :=
  inferInstanceAs (Decidable (pattern <+: text.drop position))

/-- The positions of all occurrences, whether or not they overlap. -/
def occurrences (pattern text : List α) : List Nat :=
  (List.range text.length).filter fun position => OccursAt pattern text position

/-- The first occurrence. -/
def find (pattern : List α) : List α → Option Nat
  | [] => none
  | symbol :: rest =>
    if pattern <+: symbol :: rest then some 0 else (find pattern rest).map (· + 1)

/-- The disjoint matches from a position on, where the text that is left begins. -/
def matchesFrom (pattern : List α) : Nat → Nat → List α → List Nat
  | 0, _, _ => []
  | fuel + 1, position, text =>
    match find pattern text with
    | none => []
    | some offset =>
      (position + offset) :: matchesFrom pattern fuel (position + offset + pattern.length)
        (text.drop (offset + pattern.length))

/-- The disjoint matches from left to right. -/
def matchIndices (pattern text : List α) : List Nat := matchesFrom pattern text.length 0 text

/-- The text from a position on, with the matches of the given size replaced. -/
def splice (text : List α) (size : Nat) (new : List α) : Nat → List Nat → List α
  | lastEnd, [] => text.drop lastEnd
  | lastEnd, start :: rest =>
    (text.drop lastEnd).take (start - lastEnd) ++ new ++ splice text size new (start + size) rest

/-- Replace every match. -/
def replace (pattern new text : List α) : List α :=
  splice text pattern.length new 0 (matchIndices pattern text)

/-- Replace so many matches from the left. -/
def replacen (pattern new : List α) (count : Nat) (text : List α) : List α :=
  splice text pattern.length new 0 ((matchIndices pattern text).take count)

/-- The gaps with the separator between each two. -/
def weave (separator : List α) : List α → List (List α) → List α
  | gap, [] => gap
  | gap, next :: rest => gap ++ separator ++ weave separator next rest

section Occurrences

omit [DecidableEq α]

variable {pattern text : List α} {position : Nat}

theorem occurs_inside (present : pattern ≠ []) (occurs : OccursAt pattern text position) :
    position + pattern.length ≤ text.length := by
  have size := occurs.length_le
  have positive : 0 < pattern.length := List.length_pos_iff.mpr present
  rw [List.length_drop] at size
  omega

theorem occurs_split (occurs : OccursAt pattern text position) :
    text = text.take position ++ pattern ++ text.drop (position + pattern.length) := by
  obtain ⟨rest, whole⟩ := occurs
  have tail : rest = text.drop (position + pattern.length) := by
    rw [← List.drop_drop, ← whole, List.drop_left]
  rw [← tail, List.append_assoc, whole, List.take_append_drop]

theorem occurs_drop (offset : Nat) :
    OccursAt pattern (text.drop offset) position ↔ OccursAt pattern text (offset + position) := by
  rw [OccursAt, OccursAt, List.drop_drop]

end Occurrences

section Search

variable {pattern text : List α} {position : Nat}

theorem mem_occurrences_iff (present : pattern ≠ []) :
    position ∈ occurrences pattern text ↔ OccursAt pattern text position := by
  rw [occurrences, List.mem_filter, List.mem_range, decide_eq_true_eq, and_iff_right_iff_imp]
  intro occurs
  have inside := occurs_inside present occurs
  have positive : 0 < pattern.length := List.length_pos_iff.mpr present
  omega

theorem single_occurrence_iff (present : pattern ≠ []) :
    occurrences pattern text = [position] ↔
      ∀ other, OccursAt pattern text other ↔ other = position := by
  constructor
  · intro single other
    rw [← mem_occurrences_iff present, single, List.mem_singleton]
  · intro only
    have distinct : (occurrences pattern text).Nodup := List.nodup_range.filter _
    apply List.perm_singleton.mp
    apply (List.perm_ext_iff_of_nodup distinct (List.nodup_singleton position)).mpr
    intro other
    rw [mem_occurrences_iff present, only other, List.mem_singleton]

theorem find_none_iff (present : pattern ≠ []) :
    find pattern text = none ↔ ∀ position, ¬ OccursAt pattern text position := by
  induction text with
  | nil =>
    constructor
    · intro _ position occurs
      have size := occurs_inside present occurs
      have positive : 0 < pattern.length := List.length_pos_iff.mpr present
      rw [List.length_nil] at size
      omega
    · intro _
      rfl
  | cons symbol rest inductionHypothesis =>
    rw [find]
    split
    · rename_i starts
      constructor
      · intro found
        cases found
      · intro absent
        exact absurd starts (absent 0)
    · rename_i elsewhere
      rw [Option.map_eq_none_iff, inductionHypothesis]
      constructor
      · intro absent position
        cases position with
        | zero => exact elsewhere
        | succ position => exact absent position
      · intro absent position
        exact absent (position + 1)

theorem find_some_iff (present : pattern ≠ []) :
    find pattern text = some position ↔
      OccursAt pattern text position ∧
        ∀ earlier, OccursAt pattern text earlier → position ≤ earlier := by
  induction text generalizing position with
  | nil =>
    constructor
    · intro found
      cases found
    · rintro ⟨occurs, -⟩
      have size := occurs_inside present occurs
      have positive : 0 < pattern.length := List.length_pos_iff.mpr present
      rw [List.length_nil] at size
      omega
  | cons symbol rest inductionHypothesis =>
    rw [find]
    split
    · rename_i starts
      constructor
      · intro found
        cases found
        exact ⟨starts, fun earlier _ => Nat.zero_le earlier⟩
      · rintro ⟨-, first⟩
        rw [Nat.le_zero.mp (first 0 starts)]
    · rename_i elsewhere
      rw [Option.map_eq_some_iff]
      constructor
      · rintro ⟨offset, found, rfl⟩
        obtain ⟨occurs, first⟩ := inductionHypothesis.mp found
        refine ⟨occurs, ?_⟩
        intro earlier earlier_occurs
        cases earlier with
        | zero => exact absurd earlier_occurs elsewhere
        | succ earlier => exact Nat.succ_le_succ (first earlier earlier_occurs)
      · rintro ⟨occurs, first⟩
        cases position with
        | zero => exact absurd occurs elsewhere
        | succ position =>
          refine ⟨position, inductionHypothesis.mpr ⟨occurs, ?_⟩, rfl⟩
          intro earlier earlier_occurs
          exact Nat.le_of_succ_le_succ (first (earlier + 1) earlier_occurs)

/-- The search step: nothing where the pattern does not occur, else the first occurrence
and the matches of what follows it. -/
theorem matches_from_found (present : pattern ≠ []) (position : Nat) {fuel offset : Nat}
    (enough : text.length ≤ fuel) (found : find pattern text = some offset) :
    ∃ less, (text.drop (offset + pattern.length)).length ≤ less ∧ less < fuel ∧
      matchesFrom pattern fuel position text =
        (position + offset) :: matchesFrom pattern less (position + offset + pattern.length)
          (text.drop (offset + pattern.length)) := by
  have inside := occurs_inside present ((find_some_iff present).mp found).1
  have positive : 0 < pattern.length := List.length_pos_iff.mpr present
  cases fuel with
  | zero => omega
  | succ fuel =>
    refine ⟨fuel, ?_, Nat.lt_succ_self fuel, ?_⟩
    · rw [List.length_drop]
      omega
    · rw [matchesFrom, found]

theorem matches_from_none {fuel : Nat} (absent : find pattern text = none) :
    matchesFrom pattern fuel position text = [] := by
  cases fuel with
  | zero => rfl
  | succ fuel => rw [matchesFrom, absent]

/-- There is no match exactly where the pattern does not occur. -/
theorem no_matches_iff (present : pattern ≠ []) {fuel : Nat}
    (enough : text.length ≤ fuel) :
    matchesFrom pattern fuel position text = [] ↔ ∀ offset, ¬ OccursAt pattern text offset := by
  rw [← find_none_iff present]
  constructor
  · intro none_found
    cases found : find pattern text with
    | none => rfl
    | some offset =>
      obtain ⟨less, -, -, step⟩ := matches_from_found present position enough found
      rw [step] at none_found
      cases none_found
  · intro absent
    exact matches_from_none absent

/-- A search reports one match exactly where every occurrence begins inside the first. -/
theorem single_match_iff (present : pattern ≠ []) (first : Nat) :
    matchIndices pattern text = [first] ↔
      OccursAt pattern text first ∧
        ∀ position, OccursAt pattern text position →
          first ≤ position ∧ position < first + pattern.length := by
  constructor
  · intro single
    cases found : find pattern text with
    | none =>
      rw [matchIndices, matches_from_none found] at single
      cases single
    | some offset =>
      obtain ⟨less, enough, -, step⟩ :=
        matches_from_found present 0 (Nat.le_refl text.length) found
      rw [matchIndices, step, Nat.zero_add] at single
      obtain ⟨rfl, nothing⟩ := List.cons.inj single
      obtain ⟨occurs, least⟩ := (find_some_iff present).mp found
      have none_behind := (no_matches_iff present enough).mp nothing
      refine ⟨occurs, ?_⟩
      intro position position_occurs
      refine ⟨least position position_occurs, ?_⟩
      by_contra behind
      have apart := none_behind (position - (offset + pattern.length))
      rw [occurs_drop, Nat.add_sub_cancel' (Nat.le_of_not_lt behind)] at apart
      exact apart position_occurs
  · rintro ⟨occurs, inside⟩
    have found : find pattern text = some first :=
      (find_some_iff present).mpr ⟨occurs, fun earlier occurring => (inside earlier occurring).1⟩
    obtain ⟨less, enough, -, step⟩ :=
      matches_from_found present 0 (Nat.le_refl text.length) found
    rw [matchIndices, step, Nat.zero_add]
    congr 1
    apply (no_matches_iff present enough).mpr
    intro offset offset_occurs
    have within := (inside _ ((occurs_drop _).mp offset_occurs)).2
    omega

/-- What a search finds of a text, it finds between gaps of the text. -/
theorem matches_weave (present : pattern ≠ []) (text new : List α) :
    ∃ gap gaps, text = weave pattern gap gaps ∧
      gaps.length = (matchIndices pattern text).length ∧
      replace pattern new text = weave new gap gaps := by
  -- The search from any position on, by the text that is left.
  have search (fuel position : Nat) (enough : (text.drop position).length ≤ fuel) :
      ∃ gap gaps, text.drop position = weave pattern gap gaps ∧
        gaps.length = (matchesFrom pattern fuel position (text.drop position)).length ∧
        splice text pattern.length new position
          (matchesFrom pattern fuel position (text.drop position)) = weave new gap gaps := by
    induction fuel using Nat.strongRecOn generalizing position with
    | ind fuel inductionHypothesis =>
      cases found : find pattern (text.drop position) with
      | none =>
        refine ⟨text.drop position, [], rfl, ?_, ?_⟩
        · rw [matches_from_none found, List.length_nil, List.length_nil]
        · rw [matches_from_none found, splice, weave]
      | some offset =>
        obtain ⟨less, shorter, fewer, step⟩ :=
          matches_from_found present position enough found
        have occurs := ((find_some_iff present).mp found).1
        rw [List.drop_drop, ← Nat.add_assoc] at shorter
        obtain ⟨gap, gaps, whole, count, spliced⟩ :=
          inductionHypothesis less fewer (position + offset + pattern.length) shorter
        rw [List.drop_drop, ← Nat.add_assoc] at step
        refine ⟨(text.drop position).take offset, gap :: gaps, ?_, ?_, ?_⟩
        · rw [weave, ← whole]
          have parts := occurs_split occurs
          rwa [List.drop_drop, ← Nat.add_assoc] at parts
        · rw [step, List.length_cons, List.length_cons, count]
        · rw [step, splice, spliced, Nat.add_sub_cancel_left, weave]
  exact search text.length 0 (Nat.le_refl _)

/-- Where the pattern occurs once, the search finds that occurrence. -/
theorem single_match_of_occurrence (present : pattern ≠ []) {first : Nat}
    (single : occurrences pattern text = [first]) : matchIndices pattern text = [first] := by
  have only := (single_occurrence_iff present).mp single
  apply (single_match_iff present first).mpr
  refine ⟨(only first).mpr rfl, ?_⟩
  intro position occurs
  have positive : 0 < pattern.length := List.length_pos_iff.mpr present
  have same := (only position).mp occurs
  omega

/-- A replacement leaves something wherever it puts something. -/
theorem replace_ne_nil (present : pattern ≠ []) (some_text : text ≠ []) {new : List α}
    (some_new : new ≠ []) : replace pattern new text ≠ [] := by
  obtain ⟨gap, gaps, whole, -, replaced⟩ := matches_weave present text new
  rw [replaced]
  cases gaps with
  | nil =>
    rw [weave] at whole ⊢
    exact whole ▸ some_text
  | cons next rest =>
    rw [weave]
    simp [some_new]

/-- The only match is replaced, and nothing else. -/
theorem replace_single {first : Nat} (single : matchIndices pattern text = [first])
    (new : List α) :
    replace pattern new text = text.take first ++ new ++ text.drop (first + pattern.length) := by
  rw [replace, single]
  rfl

/-- Replacing one match replaces the only match. -/
theorem replacen_single {first : Nat} (single : matchIndices pattern text = [first])
    (new : List α) : replacen pattern new 1 text = replace pattern new text := by
  rw [replacen, replace, single]
  rfl

end Search

end MinicoreAgent.Matches

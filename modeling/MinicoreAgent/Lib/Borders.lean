import Mathlib.Data.List.GetD
import Mathlib.Data.List.Infix

/-!
# Longest borders of a pattern

A search that reads its text once keeps the longest beginning of the pattern that
ends where it stands. A table holds, for every beginning of the pattern, the longest
shorter one that ends it; on a mismatch the search falls back along the table. The
table is built by the same step over the pattern itself.
-/
namespace MinicoreAgent.Borders

universe u
variable {α : Type u} [DecidableEq α]

/-- Fall back along the table until the symbol extends what is matched or nothing is
matched. Each round shortens what is matched, which bounds the rounds. -/
def fallBack (pattern : List α) (table : List Nat) (symbol : α) : Nat → Nat → Nat
  | 0, matched => matched
  | rounds + 1, matched =>
    if 0 < matched ∧ pattern[matched]? ≠ some symbol then
      fallBack pattern table symbol rounds (table.getD (matched - 1) 0)
    else matched

/-- Read one symbol. -/
def step (pattern : List α) (table : List Nat) (symbol : α) (matched : Nat) : Nat :=
  let matched := fallBack pattern table symbol matched matched
  if pattern[matched]? = some symbol then matched + 1 else matched

/-- The rest of the table, from the entries so far and what the last one matches. -/
def tableLoop (pattern : List α) : List Nat → Nat → List α → List Nat
  | table, _, [] => table
  | table, matched, symbol :: rest =>
    let matched := step pattern table symbol matched
    tableLoop pattern (table ++ [matched]) matched rest

/-- The longest proper border of every beginning of the pattern. -/
def table (pattern : List α) : List Nat :=
  match pattern with
  | [] => []
  | _ :: rest => tableLoop pattern [0] 0 rest

section Longest

omit [DecidableEq α]

/-- Of the beginnings of the pattern below a limit, so many symbols are the longest
that ends the text. -/
structure Longest (pattern : List α) (limit : Nat) (text : List α) (matched : Nat) : Prop where
  below : matched < limit
  ends : pattern.take matched <:+ text
  longest : ∀ size < limit, pattern.take size <:+ text → size ≤ matched

/-- An entry for each beginning that is not empty, up to some size. -/
def Table (pattern : List α) (table : List Nat) (size : Nat) : Prop :=
  ∀ index < size, Longest pattern (index + 1) (pattern.take (index + 1)) (table.getD index 0)

/-- What ends the text after one more symbol has that symbol last. -/
theorem take_succ_suffix_iff {pattern text : List α} {size : Nat} {symbol : α}
    (present : size < pattern.length) :
    pattern.take (size + 1) <:+ text ++ [symbol] ↔
      pattern[size]? = some symbol ∧ pattern.take size <:+ text := by
  rw [← List.take_append_getElem present, List.getElem?_eq_getElem present]
  constructor
  · rintro ⟨before, whole⟩
    rw [← List.append_assoc] at whole
    obtain ⟨rest, same⟩ := List.append_inj' whole rfl
    exact ⟨by simpa using same, before, rest⟩
  · rintro ⟨same, before, rest⟩
    refine ⟨before, ?_⟩
    rw [← List.append_assoc, rest]
    simpa using same

/-- Two beginnings that end the same text: the shorter one ends the longer one. -/
theorem take_suffix_take {pattern text : List α} {short long : Nat} (ordered : short ≤ long)
    (one : pattern.take short <:+ text) (other : pattern.take long <:+ text) :
    pattern.take short <:+ pattern.take long := by
  apply List.suffix_of_suffix_length_le one other
  simp only [List.length_take]
  omega

end Longest

section Step

variable {pattern text : List α} {borders : List Nat} {symbol : α} {limit size : Nat}

/-- What the fall back keeps: every beginning that the symbol can extend is at most
as long as what is matched. -/
structure Covers (pattern : List α) (limit : Nat) (text : List α) (symbol : α)
    (matched : Nat) : Prop where
  below : matched < limit
  ends : pattern.take matched <:+ text
  covers : ∀ size < limit, pattern.take size <:+ text → pattern[size]? = some symbol →
    size ≤ matched

theorem fall_back_covers (known : Table pattern borders size) {rounds matched : Nat}
    (enough : matched ≤ rounds) (entry : matched ≤ size)
    (covers : Covers pattern limit text symbol matched) :
    Covers pattern limit text symbol (fallBack pattern borders symbol rounds matched) ∧
      (0 < fallBack pattern borders symbol rounds matched →
        pattern[fallBack pattern borders symbol rounds matched]? = some symbol) := by
  induction rounds generalizing matched with
  | zero =>
    have nothing : matched = 0 := by omega
    subst nothing
    exact ⟨covers, by simp [fallBack]⟩
  | succ rounds inductionHypothesis =>
    rw [fallBack]
    split
    · rename_i mismatch
      obtain ⟨some_matched, apart⟩ := mismatch
      have border := known (matched - 1) (by omega)
      rw [show matched - 1 + 1 = matched by omega] at border
      have shorter := border.below
      have below := covers.below
      refine inductionHypothesis (by omega) (by omega) ⟨by omega, ?_, ?_⟩
      · exact border.ends.trans covers.ends
      · intro other inside ends extends_
        have bounded := covers.covers other inside ends extends_
        have different : other ≠ matched := fun same => apart (same ▸ extends_)
        exact border.longest other (by omega) (take_suffix_take bounded ends covers.ends)
    · rename_i matches_
      refine ⟨covers, ?_⟩
      intro some_matched
      rw [not_and, not_not] at matches_
      exact matches_ some_matched

/-- One more symbol extends the longest beginning, below a limit one higher. -/
theorem step_longest (symbol : α) (known : Table pattern borders size) {matched : Nat}
    (inside : limit ≤ pattern.length) (entry : matched ≤ size)
    (longest : Longest pattern limit text matched) :
    Longest pattern (limit + 1) (text ++ [symbol]) (step pattern borders symbol matched) := by
  have start : Covers pattern limit text symbol matched :=
    ⟨longest.below, longest.ends, fun size below ends _ => longest.longest size below ends⟩
  obtain ⟨covers, stopped⟩ := fall_back_covers known (Nat.le_refl _) entry start
  unfold step
  generalize fallBack pattern borders symbol matched matched = fallen at covers stopped
  have present : fallen < pattern.length := Nat.lt_of_lt_of_le covers.below inside
  dsimp only
  split
  · rename_i extends_
    constructor
    · exact Nat.succ_lt_succ covers.below
    · exact (take_succ_suffix_iff present).mpr ⟨extends_, covers.ends⟩
    · intro other below ends
      cases other with
      | zero => exact Nat.zero_le _
      | succ other =>
        obtain ⟨last, before⟩ := (take_succ_suffix_iff (by omega)).mp ends
        exact Nat.succ_le_succ (covers.covers other (by omega) before last)
  · rename_i apart
    have nothing : fallen = 0 := by
      by_contra some_matched
      exact apart (stopped (Nat.pos_of_ne_zero some_matched))
    subst nothing
    constructor
    · exact Nat.succ_pos limit
    · simp
    · intro other below ends
      cases other with
      | zero => exact Nat.le_refl _
      | succ other =>
        obtain ⟨last, before⟩ := (take_succ_suffix_iff (by omega)).mp ends
        have small := covers.covers other (by omega) before last
        have first : other = 0 := by omega
        exact absurd (first ▸ last) apart

omit [DecidableEq α] in
/-- The whole pattern is matched exactly where it ends the text. -/
theorem Longest.whole_iff {matched : Nat}
    (longest : Longest pattern (pattern.length + 1) text matched) :
    matched = pattern.length ↔ pattern <:+ text := by
  constructor
  · rintro rfl
    simpa using longest.ends
  · intro ends
    have bounded := longest.longest pattern.length (Nat.lt_succ_self _) (by simpa using ends)
    exact Nat.le_antisymm (Nat.le_of_lt_succ longest.below) bounded

omit [DecidableEq α] in
/-- A search that has not matched the whole pattern goes on from what is matched. -/
theorem Longest.narrow {matched : Nat}
    (longest : Longest pattern (pattern.length + 1) text matched)
    (partly : matched ≠ pattern.length) : Longest pattern pattern.length text matched where
  below := Nat.lt_of_le_of_ne (Nat.le_of_lt_succ longest.below) partly
  ends := longest.ends
  longest := fun size below ends => longest.longest size (Nat.lt_succ_of_lt below) ends

omit [DecidableEq α] in
/-- Below the whole pattern, a full match falls back to its longest proper border. -/
theorem Longest.restart (known : Table pattern borders pattern.length)
    (present : pattern ≠ []) (whole : pattern <:+ text) :
    Longest pattern pattern.length text (borders.getD (pattern.length - 1) 0) := by
  have positive := List.length_pos_of_ne_nil present
  have border := known (pattern.length - 1) (by omega)
  rw [show pattern.length - 1 + 1 = pattern.length by omega, List.take_length] at border
  constructor
  · exact border.below
  · exact border.ends.trans whole
  · intro size below ends
    refine border.longest size below ?_
    simpa using take_suffix_take (Nat.le_of_lt below) ends (by simpa using whole)

end Step

section Building

variable {pattern : List α} {borders : List Nat}

theorem table_loop_known {done rest : List α} {matched : Nat} (whole : pattern = done ++ rest)
    (filled : borders.length = done.length) (known : Table pattern borders done.length)
    (longest : Longest pattern done.length done matched) :
    (tableLoop pattern borders matched rest).length = pattern.length ∧
      Table pattern (tableLoop pattern borders matched rest) pattern.length := by
  induction rest generalizing done borders matched with
  | nil =>
    rw [List.append_nil] at whole
    subst whole
    exact ⟨filled, known⟩
  | cons symbol rest inductionHypothesis =>
    have bounded : done.length < pattern.length := by simp [whole]
    have extended : Longest pattern (done.length + 1) (done ++ [symbol])
        (step pattern borders symbol matched) :=
      step_longest symbol known (Nat.le_of_lt bounded) (Nat.le_of_lt longest.below) longest
    have beginning : pattern.take (done.length + 1) = done ++ [symbol] := by
      rw [whole, List.take_length_add_append]
      rfl
    rw [tableLoop]
    have beyond : pattern = done ++ [symbol] ++ rest := by simp [whole]
    apply inductionHypothesis beyond (by simp [filled])
    · intro index below
      rw [List.length_append, List.length_singleton] at below
      rcases Nat.lt_succ_iff_lt_or_eq.mp below with earlier | rfl
      · rw [List.getD_append _ _ _ _ (by omega)]
        exact known index earlier
      · rw [beginning, ← filled, List.getD_append_right _ _ _ _ (Nat.le_refl _), filled]
        simpa using extended
    · simpa using extended

/-- The table holds the longest proper borders. -/
theorem table_known (pattern : List α) : Table pattern (table pattern) pattern.length := by
  cases pattern with
  | nil => intro index below; simp at below
  | cons symbol rest =>
    have first : Longest (symbol :: rest) 1 [symbol] 0 := by
      constructor
      · exact Nat.one_pos
      · simp
      · intro size below _
        omega
    have whole : symbol :: rest = [symbol] ++ rest := rfl
    refine (table_loop_known whole rfl ?_ first).2
    intro index below
    have only : index = 0 := by simpa using below
    subst only
    exact first

end Building

end MinicoreAgent.Borders

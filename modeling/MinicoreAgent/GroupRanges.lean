import MinicoreAgent.CompactionProjection
import MinicoreAgent.Lib.Segments

/-!
# The ranges that may be summarized

Every range `compressible_ranges` reports is a block: it begins with an item that
is neither a tool result nor a prompt of the current loop, goes on with tool
results only, and no result that belongs to it follows. The ranges lie one after
the other. Fuel of the number of items suffices for both loops.
-/
namespace MinicoreAgent.Compaction

open HistoryStore (HistoryItem AssistantHistory AssistantPart)
open Results

variable {LoopId CallId Payload Replay Digest : Type}
  [DecidableEq LoopId] [DecidableEq CallId] [DecidableEq Digest]
  (runtime : Runtime LoopId CallId Payload Replay Digest)

/-- A part of the items that may be replaced by one message. -/
structure Block (items : List (HistoryItem Payload Replay)) (loopId : LoopId)
    (start stop : Nat) : Prop where
  nonempty : start < stop
  inside : stop ≤ items.length
  opens : ∀ item, items[start]? = some item → isToolResult item = false
  foreign : ∀ user, items[start]? = some (.user user) → runtime.userLoopId user ≠ loopId
  results : ∀ index, start < index → index < stop →
    ∃ result, items[index]? = some (.toolResult result)
  closes : (∀ item, items[stop]? = some item → isToolResult item = false) ∨
    (stop = start + 1 ∧ ∀ assistant, items[start]? = some (.assistant assistant) →
      callIds runtime assistant.content = [])

section Exchanges

variable {runtime} {items : List (HistoryItem Payload Replay)} {loopId : LoopId}

omit [DecidableEq Digest] in
variable (runtime) in
/-- The matched results are the next items. -/
theorem matched_results_next (assistant : AssistantHistory Payload Replay) (ids : List CallId)
    (rest : List (HistoryItem Payload Replay)) (matched : List CallId) :
    ∃ new, matchedResults runtime assistant ids rest matched = matched ++ new ∧
      ∀ index, index < new.length → ∃ result, rest[index]? = some (.toolResult result) := by
  induction rest generalizing matched with
  | nil => exact ⟨[], by simp [matchedResults], by simp⟩
  | cons item rest inductionHypothesis =>
    unfold matchedResults
    split_ifs with more
    · cases item with
      | toolResult result =>
        dsimp only
        split_ifs with matches'
        · obtain ⟨new, shape, next⟩ :=
            inductionHypothesis (matched ++ [runtime.resultCallId result])
          refine ⟨runtime.resultCallId result :: new, by simp [shape], ?_⟩
          intro index bound
          cases index with
          | zero => exact ⟨result, rfl⟩
          | succ index =>
            rw [List.getElem?_cons_succ]
            exact next index (by simpa using bound)
        · exact ⟨[], by simp, by simp⟩
      | user | assistant | summary => exact ⟨[], by simp, by simp⟩
    · exact ⟨[], by simp, by simp⟩

omit [DecidableEq Digest] in
/-- A complete exchange is a block. -/
theorem exchange_block {index count : Nat}
    (found : exchangeAt runtime (items.drop index) = some count) :
    Block runtime items loopId index (index + 1 + count) := by
  unfold exchangeAt at found
  split at found
  · rename_i assistant rest shape
    have here : items[index]? = some (.assistant assistant) := by
      rw [← List.head?_drop, shape, List.head?_cons]
    have tail (offset : Nat) : items[index + 1 + offset]? = rest[offset]? := by
      have dropped : (items.drop index)[offset + 1]? = rest[offset]? := by
        rw [shape, List.getElem?_cons_succ]
      rw [← dropped, List.getElem?_drop]
      congr 1
      omega
    obtain ⟨new, matched, next⟩ :=
      matched_results_next runtime assistant (callIds runtime assistant.content) rest []
    rw [List.nil_append] at matched
    simp only [matched] at found
    split_ifs at found with invalid closed
    cases found
    refine ⟨by omega, ?_, ?_, ?_, ?_, .inl ?_⟩
    · -- The last item of the block exists.
      by_contra outside
      cases size : new.length with
      | zero =>
        have bound := (List.getElem?_eq_some_iff.mp here).1
        omega
      | succ last =>
        obtain ⟨result, item⟩ := next last (by omega)
        rw [← tail] at item
        have bound := (List.getElem?_eq_some_iff.mp item).1
        omega
    · intro item found
      rw [here] at found
      cases found
      rfl
    · intro user found
      rw [here] at found
      cases found
    · intro position after before
      obtain ⟨offset, rfl⟩ : ∃ offset, position = index + 1 + offset :=
        ⟨position - (index + 1), by omega⟩
      rw [tail]
      exact next offset (by omega)
    · intro item found
      rw [tail] at found
      have := closed.2
      rw [found] at this
      exact this
  · cases found

omit [DecidableEq Digest] in
theorem complete_group_blocks (fuel index : Nat) :
    ∀ range ∈ completeGroupRanges runtime items fuel index,
      Block runtime items loopId range.1 range.2 := by
  induction fuel generalizing index with
  | zero =>
    intro range member
    cases member
  | succ fuel inductionHypothesis =>
    intro range member
    unfold completeGroupRanges at member
    split_ifs at member with inside
    · split at member
      · rename_i count found
        rcases List.mem_cons.mp member with rfl | later
        · exact exchange_block found
        · exact inductionHypothesis _ range later
      · exact inductionHypothesis _ range member
    · cases member

omit [DecidableEq CallId] [DecidableEq Digest] in
/-- An eligible item is a block by itself. -/
theorem eligible_block {baseLen index : Nat} {item : HistoryItem Payload Replay}
    (here : items[index]? = some item) (accepted : eligible runtime baseLen loopId index item) :
    Block runtime items loopId index (index + 1) := by
  have same {other : HistoryItem Payload Replay} (found : items[index]? = some other) :
      item = other := by
    rw [here] at found
    exact Option.some.inj found
  refine ⟨by omega, (List.getElem?_eq_some_iff.mp here).1, ?_, ?_, ?_, .inr ⟨rfl, ?_⟩⟩
  · intro other found
    obtain rfl := same found
    cases item with
    | toolResult => cases accepted
    | user | assistant | summary => rfl
  · intro user found
    obtain rfl := same found
    simp only [eligible, Bool.and_eq_true, decide_eq_true_eq] at accepted
    exact accepted.2
  · intro position after before
    omega
  · intro assistant found
    obtain rfl := same found
    simp only [eligible, Bool.and_eq_true, List.isEmpty_iff] at accepted
    exact accepted.2

end Exchanges

section Ranges

variable {runtime} {items : List (HistoryItem Payload Replay)} {loopId : LoopId}

/-- The keys of ranges. -/
def rangeKeys (ranges : List (EphemeralGroupKey Digest × Nat)) : List (EphemeralGroupKey Digest) :=
  ranges.map Prod.fst

/-- The keys lie one after the other in the items. -/
abbrev LaidKeys (length : Nat) : Nat → List (EphemeralGroupKey Digest) → Prop :=
  Segments.Laid EphemeralGroupKey.start EphemeralGroupKey.stop length

omit [DecidableEq LoopId] [DecidableEq CallId] [DecidableEq Digest] in
theorem group_key_bounds {start stop : Nat} {key : EphemeralGroupKey Digest}
    (made : groupKey runtime items start stop = .ok key) :
    key.start = start ∧ key.stop = stop := by
  obtain ⟨hash, _, rfl⟩ := map_ok.mp made
  exact ⟨rfl, rfl⟩

omit [DecidableEq CallId] [DecidableEq Digest] in
/-- The loop reports blocks in order. -/
theorem ranges_from_laid {baseLen : Nat} {toolRanges : List (Nat × Nat)}
    (blocks : ∀ range ∈ toolRanges, Block runtime items loopId range.1 range.2) (fuel : Nat)
    {index : Nat} {ranges : List (EphemeralGroupKey Digest × Nat)} (bound : index ≤ items.length)
    (reported : rangesFrom runtime baseLen items loopId toolRanges fuel index = .ok ranges) :
    LaidKeys items.length index (rangeKeys ranges) ∧
      ∀ key ∈ rangeKeys ranges, Block runtime items loopId key.start key.stop := by
  -- A range in front of reported ranges, once its block is known.
  have extend {index stop fuel size : Nat} {key : EphemeralGroupKey Digest}
      {ranges : List (EphemeralGroupKey Digest × Nat)}
      (block : Block runtime items loopId index stop)
      (made : groupKey runtime items index stop = .ok key)
      (reported : (rangesFrom runtime baseLen items loopId toolRanges fuel stop).map
        ((key, size) :: ·) = .ok ranges)
      (after : ∀ {ranges}, rangesFrom runtime baseLen items loopId toolRanges fuel stop =
        .ok ranges → LaidKeys items.length stop (rangeKeys ranges) ∧
          ∀ key ∈ rangeKeys ranges, Block runtime items loopId key.start key.stop) :
      LaidKeys items.length index (rangeKeys ranges) ∧
        ∀ key ∈ rangeKeys ranges, Block runtime items loopId key.start key.stop := by
    obtain ⟨starts, stops⟩ := group_key_bounds made
    obtain ⟨later, rest, rfl⟩ := map_ok.mp reported
    obtain ⟨laid, known⟩ := after rest
    constructor
    · refine .cons (Nat.le_of_eq starts.symm) ?_ ?_
      · rw [starts, stops]
        exact block.nonempty
      · rw [stops]
        exact laid
    · intro other member
      rcases List.mem_cons.mp member with rfl | old
      · rw [starts, stops]
        exact block
      · exact known other old
  induction fuel generalizing index ranges with
  | zero =>
    cases reported
    exact ⟨.nil bound, by simp [rangeKeys]⟩
  | succ fuel inductionHypothesis =>
    unfold rangesFrom at reported
    split at reported
    · cases reported
      exact ⟨.nil bound, by simp [rangeKeys]⟩
    · rename_i item here
      have next : index + 1 ≤ items.length := (List.getElem?_eq_some_iff.mp here).1
      split at reported
      · rename_i start stop found
        have starts := List.find?_some found
        have block := blocks _ (List.mem_of_find?_eq_some found)
        rw [decide_eq_true_eq] at starts
        dsimp only at starts block
        rw [starts] at block
        split at reported
        · cases reported
        · rename_i key made
          exact extend block made reported (inductionHypothesis block.inside)
      · split_ifs at reported with accepted
        · split at reported
          · cases reported
          · rename_i key made
            exact extend (eligible_block here accepted) made reported (inductionHypothesis next)
        · obtain ⟨laid, known⟩ := inductionHypothesis next reported
          exact ⟨laid.earlier (by omega), known⟩

omit [DecidableEq Digest] in
theorem compressible_laid {baseLen : Nat} {ranges : List (EphemeralGroupKey Digest × Nat)}
    (reported : compressibleRanges runtime baseLen items loopId = .ok ranges) :
    LaidKeys items.length 0 (rangeKeys ranges) :=
  (ranges_from_laid (complete_group_blocks _ _) _ (Nat.zero_le _) reported).1

omit [DecidableEq Digest] in
theorem compressible_blocks {baseLen : Nat} {ranges : List (EphemeralGroupKey Digest × Nat)}
    (reported : compressibleRanges runtime baseLen items loopId = .ok ranges)
    {key : EphemeralGroupKey Digest} (member : key ∈ rangeKeys ranges) :
    Block runtime items loopId key.start key.stop :=
  (ranges_from_laid (complete_group_blocks _ _) _ (Nat.zero_le _) reported).2 key member

end Ranges

end MinicoreAgent.Compaction

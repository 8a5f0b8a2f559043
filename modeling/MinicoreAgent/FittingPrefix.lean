import MinicoreAgent.PageSizes

/-!
# The part of an item that ends a page

The search for the part moves its middle to a boundary between characters in every round. The
lower bound is zero or fits, the upper bound has only what does not fit above it, and they
approach each other, so the search ends at the greatest boundary that fits.
-/
namespace MinicoreAgent.ReadPages

open Text
open JsonSize
open Results

section Searching

variable {packing : Packing} {remaining : List Char} {fits : Nat → Except AgentError Bool}
  {size : Nat → Nat} {top : Nat}

/-- The search gives an offset, or the budget was denied at one of its probes. -/
theorem search_prefix_returns
    (exactly : ∀ place, isBoundary remaining place = true → place ≤ top →
      fits place = .ok (decide (size place ≤ packing.maxBytes)))
    (short : top ≤ byteLen remaining) {fuel low high : Nat} (inside : high ≤ top)
    (boundary : isBoundary remaining low = true) :
    (∃ found, searchPrefix packing remaining fits fuel low high = .ok found) ∨
      (∃ first last, packing.withinBudget (.probe first last) = false) ∧
        searchPrefix packing remaining fits fuel low high = .error .queryLimit := by
  induction fuel generalizing low high with
  | zero => exact .inl ⟨low, rfl⟩
  | succ fuel inductionHypothesis =>
    rw [searchPrefix]
    split
    · rename_i more
      cases budget : packing.withinBudget (.probe low high) with
      | false =>
        rw [Packing.checkBudget, if_neg (by rw [budget]; exact Bool.false_ne_true)]
        exact .inr ⟨⟨low, high, budget⟩, rfl⟩
      | true =>
        rw [Packing.checkBudget, if_pos budget]
        dsimp only
        split
        · rename_i last
          exact inductionHypothesis (by omega) boundary
        · rename_i middle probe
          obtain ⟨after, below, ends⟩ := probe_spec more (by omega) boundary probe
          rw [exactly middle ends (by omega)]
          split
          · rename_i failed
            cases failed
          · exact inductionHypothesis inside ends
          · exact inductionHypothesis (by omega) boundary
    · exact .inl ⟨low, rfl⟩

/-- What the search finds is zero or fits. -/
theorem search_prefix_fits
    (exactly : ∀ place, isBoundary remaining place = true → place ≤ top →
      fits place = .ok (decide (size place ≤ packing.maxBytes)))
    (short : top ≤ byteLen remaining) {fuel low high found : Nat} (inside : high ≤ top)
    (boundary : isBoundary remaining low = true)
    (fitting : low = 0 ∨ size low ≤ packing.maxBytes)
    (done : searchPrefix packing remaining fits fuel low high = .ok found) :
    found = 0 ∨ size found ≤ packing.maxBytes := by
  induction fuel generalizing low high with
  | zero =>
    cases done
    exact fitting
  | succ fuel inductionHypothesis =>
    rw [searchPrefix] at done
    split at done
    · rename_i more
      split at done
      · cases done
      · split at done
        · exact inductionHypothesis (by omega) boundary fitting done
        · rename_i middle probe
          obtain ⟨after, below, ends⟩ := probe_spec more (by omega) boundary probe
          rw [exactly middle ends (by omega)] at done
          by_cases fine : size middle ≤ packing.maxBytes
          · rw [decide_eq_true fine] at done
            exact inductionHypothesis inside ends (.inr fine) done
          · rw [decide_eq_false fine] at done
            exact inductionHypothesis (by omega) boundary fitting done
    · cases done
      exact fitting

end Searching

section Prefixes

variable {packing : Packing} {frame : PageFrame}

/-- The upper bound of the search is the last boundary within the limit. -/
theorem search_bound (remaining : List Char) (high : Nat) :
    min high ((jsonPrefixLengths (floorPrefix high remaining)).length - 1) =
      floorBoundary remaining high := by
  rw [jsonPrefixLengths, List.length_scanl, (text_sizes_spec _).1, Nat.add_sub_cancel]
  exact Nat.min_eq_right (floor_boundary_le remaining high)

/-- The table has an entry for each byte and one more. At a boundary it is the length of the
escaped text before it. -/
theorem json_prefix_lengths_at {value : List Char} {place : Nat}
    (boundary : isBoundary value place = true) :
    (jsonPrefixLengths value)[place]? =
      some (byteLen ((floorPrefix place value).flatMap escape)) := by
  obtain ⟨rest, whole, length⟩ := floor_prefix_cut boundary
  have entry := json_prefix_length (floorPrefix place value) rest
  rw [← whole, length] at entry
  have inside : place < (jsonPrefixLengths value).length := by
    rw [jsonPrefixLengths, List.length_scanl, (text_sizes_spec _).1]
    exact Nat.lt_succ_of_le (boundary_le boundary)
  have escaped : byteLen ((floorPrefix place value).flatMap escape) =
      ((floorPrefix place value).map escapedLen).sum := by
    rw [byte_len_flat_map]
    exact congrArg List.sum (List.map_congr_left fun char _ => escape_len char)
  rw [escaped, ← entry, List.getD_eq_getElem?_getD, List.getElem?_eq_getElem inside]
  rfl

variable {existing : List ReadItemChunk} {index total : Nat} {before remaining : List Char}

/-- The search for a part of an item gives a boundary that is zero or fits, unless the budget
is denied. -/
theorem largest_fitting_returns (measures : packing.Measures frame) :
    ((∃ first last, packing.withinBudget (.probe first last) = false) ∧
      largestFittingPrefix packing existing (chunksLen existing) index (byteLen before)
        (before ++ remaining) remaining total = .error .queryLimit) ∨
    ∃ length, largestFittingPrefix packing existing (chunksLen existing) index (byteLen before)
        (before ++ remaining) remaining total = .ok length ∧
      (length = 0 ∨ frame.partBytes existing index (byteLen before) total (before ++ remaining)
        remaining length ≤ packing.maxBytes) := by
  rw [largestFittingPrefix]
  generalize min (byteLen remaining) packing.maxBytes = high
  rw [search_bound]
  have short := boundary_le (floor_is_boundary remaining high)
  have exactly : ∀ place, isBoundary remaining place = true →
      place ≤ floorBoundary remaining high →
      probeFits packing existing (chunksLen existing) index (byteLen before) (before ++ remaining)
          remaining total (jsonPrefixLengths (floorPrefix high remaining)) place =
        .ok (decide (frame.partBytes existing index (byteLen before) total (before ++ remaining)
          remaining place ≤ packing.maxBytes)) :=
    fun place ends within => probe_exact measures rfl rfl ends within
  rcases search_prefix_returns exactly short (Nat.le_refl _) boundary_zero with
    ⟨found, done⟩ | ⟨denied, failed⟩
  · refine .inr ⟨floorBoundary remaining found, ?_, ?_⟩
    · rw [done]
      rfl
    · obtain ⟨_, ends⟩ := search_prefix_spec _ _ _ (Nat.zero_le _) short boundary_zero done
      rw [floor_of_boundary ends]
      exact search_prefix_fits exactly short (Nat.le_refl _) boundary_zero (.inl rfl) done
  · refine .inl ⟨denied, ?_⟩
    rw [failed]
    rfl

/-- Where the whole rest of an item does not fit, the search ends, after as many rounds as
there are bytes at most, with the greatest boundary of the rest at which the page is within
its limit, or with zero. Only the budget can end it before. The table that it reads has the
length of the escaped text at every boundary. -/
theorem largest_fitting_prefix_greatest (measures : packing.Measures frame)
    (existing : List ReadItemChunk) (index total : Nat) (before remaining : List Char)
    (whole : packing.maxBytes < frame.partBytes existing index (byteLen before) total
      (before ++ remaining) remaining (byteLen remaining)) :
    (((∃ first last, packing.withinBudget (.probe first last) = false) ∧
        largestFittingPrefix packing existing (chunksLen existing) index (byteLen before)
          (before ++ remaining) remaining total = .error .queryLimit) ∨
      ∃ length, largestFittingPrefix packing existing (chunksLen existing) index (byteLen before)
          (before ++ remaining) remaining total = .ok length ∧
        isBoundary remaining length = true ∧
        (length = 0 ∨ frame.partBytes existing index (byteLen before) total (before ++ remaining)
          remaining length ≤ packing.maxBytes) ∧
        ∀ place, isBoundary remaining place = true →
          frame.partBytes existing index (byteLen before) total (before ++ remaining) remaining
            place ≤ packing.maxBytes → place ≤ length) ∧
    (∀ (fits : Nat → Except AgentError Bool) (high more : Nat), high ≤ byteLen remaining →
      searchPrefix packing remaining fits (high + more) 0 high =
        searchPrefix packing remaining fits high 0 high) ∧
    ∀ (value : List Char) (place : Nat), isBoundary value place = true →
      (jsonPrefixLengths value)[place]? =
        some (byteLen ((floorPrefix place value).flatMap escape)) := by
  refine ⟨?_, ?_, fun value place => json_prefix_lengths_at⟩
  · rcases largest_fitting_returns measures with denied | ⟨length, found, fitting⟩
    · exact .inl denied
    · refine .inr ⟨length, found, largest_fitting_boundary found, fitting, ?_⟩
      intro place boundary fine
      by_contra behind
      have large := largest_fitting_longest measures rfl rfl whole found place boundary
        (Nat.lt_of_not_le behind)
      omega
  · intro fits high more inside
    exact search_prefix_enough high more 0 high (by omega) inside boundary_zero

theorem bare_grows (fewer more : List ReadItemChunk)
    (_ : ∀ chunk ∈ fewer, ∃ other ∈ more, other.index = chunk.index) : 0 ≤ 0 := Nat.le_refl 0

/-- A page with two bytes around its chunks and its cursor, of 116 bytes at most. -/
def bareFrame : PageFrame where
  fixed := 2
  records := fun _ => 0
  grows := bare_grows

def barePacking : Packing where
  maxBytes := 116
  encodedLen := ReadItemChunk.encodedLen
  headerBytes := fun _ _ next => .ok (2 + encodedCursor next)
  withinBudget := fun _ => true

theorem bare_measures : barePacking.Measures bareFrame where
  encodedLen := rfl
  headerBytes := fun _ _ _ => rfl

/-- Of four characters, two fit: the third is written with six bytes. -/
theorem two_characters_fit :
    largestFittingPrefix barePacking [] (chunksLen []) 0 1 ['a', 'ü', '"', '\x01', '€']
        ['ü', '"', '\x01', '€'] 2 = .ok 3 ∧
      ∀ place, isBoundary ['ü', '"', '\x01', '€'] place = true →
        bareFrame.partBytes [] 0 1 2 ['a', 'ü', '"', '\x01', '€'] ['ü', '"', '\x01', '€'] place ≤
          116 → place ≤ 3 := by
  have three : largestFittingPrefix barePacking [] (chunksLen []) 0 1
      ['a', 'ü', '"', '\x01', '€'] ['ü', '"', '\x01', '€'] 2 = .ok 3 := by decide +kernel
  obtain ⟨⟨_, denied⟩ | ⟨length, found, _, _, greatest⟩, _, _⟩ :=
    largest_fitting_prefix_greatest bare_measures [] 0 2 ['a'] ['ü', '"', '\x01', '€']
      (by decide +kernel)
  · have both := three.symm.trans denied
    cases both
  · have same : length = 3 := Except.ok.inj (found.symm.trans three)
    rw [same] at greatest
    exact ⟨three, greatest⟩

end Prefixes

end MinicoreAgent.ReadPages

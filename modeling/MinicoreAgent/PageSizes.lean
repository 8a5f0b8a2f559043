import MinicoreAgent.ItemPages
import MinicoreAgent.Lib.JsonText

/-!
# The size of a page

`pack_items` counts the bytes of a page while it packs: those of the chunks with the commas
between them, and those of everything else, which the caller measures anew for every chunk
that is tried. The escaped text of a part is looked up in a table of its beginnings. What
is counted is the length of the page as it is encoded, and among the pages that end behind
the returned one none would fit.
-/
namespace MinicoreAgent.ReadPages

open Text
open JsonSize
open Results

section Sizes

def ReadCursor.encodedLen (cursor : ReadCursor) : Nat :=
  objectLen [("item", numberLen cursor.item), ("offset", numberLen cursor.offset)]

/-- A cursor that is missing is written as `null`. -/
def encodedCursor (next : Option ReadCursor) : Nat := next.elim 4 ReadCursor.encodedLen

def ReadItemChunk.encodedLen (chunk : ReadItemChunk) : Nat :=
  objectLen [("index", numberLen chunk.index), ("offset", numberLen chunk.offset),
    ("total_bytes", numberLen chunk.totalBytes), ("encoding", stringLen "utf8_json".toList),
    ("data", stringLen chunk.data), ("complete", boolLen chunk.complete)]

def ReadCursor.json (cursor : ReadCursor) : List Char :=
  objectText [("item", numberText cursor.item), ("offset", numberText cursor.offset)]

def cursorJson (next : Option ReadCursor) : List Char := next.elim nullText ReadCursor.json

def ReadItemChunk.json (chunk : ReadItemChunk) : List Char :=
  objectText [("index", numberText chunk.index), ("offset", numberText chunk.offset),
    ("total_bytes", numberText chunk.totalBytes), ("encoding", stringText "utf8_json".toList),
    ("data", stringText chunk.data), ("complete", boolText chunk.complete)]

/-- The bytes of some chunks with the commas between them. -/
def chunksLen (chunks : List ReadItemChunk) : Nat :=
  (chunks.map ReadItemChunk.encodedLen).sum + (chunks.length - 1)

/-- What a page has beside its chunks and its cursor: a part that is always the same, and
the records of the items that are shown. -/
structure PageFrame where
  fixed : Nat
  records : List ReadItemChunk → Nat
  grows : ∀ fewer more, (∀ chunk ∈ fewer, ∃ other ∈ more, other.index = chunk.index) →
    records fewer ≤ records more

def PageFrame.pageBytes (frame : PageFrame) (chunks : List ReadItemChunk)
    (next : Option ReadCursor) : Nat :=
  frame.fixed + frame.records chunks + encodedCursor next + chunksLen chunks

/-- A packing whose sizes are those of the encoded page. -/
structure Packing.Measures (packing : Packing) (frame : PageFrame) : Prop where
  encodedLen : packing.encodedLen = ReadItemChunk.encodedLen
  headerBytes : ∀ existing candidate next, packing.headerBytes existing candidate next =
    .ok (frame.fixed + frame.records (existing ++ candidate.toList) + encodedCursor next)

end Sizes

section Writing

theorem cursor_json_len (next : Option ReadCursor) :
    byteLen (cursorJson next) = encodedCursor next := by
  cases next with
  | none => rfl
  | some cursor =>
    rw [cursorJson, Option.elim_some, ReadCursor.json, object_text_len]
    simp only [List.map_cons, List.map_nil, number_text_len]
    rfl

theorem chunk_json_len (chunk : ReadItemChunk) : byteLen chunk.json = chunk.encodedLen := by
  rw [ReadItemChunk.json, object_text_len]
  simp only [List.map_cons, List.map_nil, number_text_len, string_text_len, bool_text_len]
  rfl

theorem chunks_json_len (chunks : List ReadItemChunk) :
    byteLen (arrayText (chunks.map ReadItemChunk.json)) =
      arrayLen (chunks.map ReadItemChunk.encodedLen) := by
  rw [array_text_len, List.map_map]
  exact congrArg arrayLen (List.map_congr_left fun chunk _ => chunk_json_len chunk)

end Writing

section Counting

variable {packing : Packing} {frame : PageFrame} {existing : List ReadItemChunk}

theorem chunks_len_concat (existing : List ReadItemChunk) (chunk : ReadItemChunk) :
    chunksLen (existing ++ [chunk]) =
      chunksLen existing + (chunk.encodedLen + if existing.isEmpty then 0 else 1) := by
  cases existing with
  | nil => simp [chunksLen]
  | cons first rest =>
    simp only [chunksLen, List.map_append, List.map_cons, List.map_nil, List.sum_append,
      List.sum_cons, List.sum_nil, List.length_append, List.length_cons, List.length_nil,
      List.isEmpty_cons, if_neg Bool.false_ne_true]
    omega

/-- Whether a chunk fits is decided by the size of the page that has it. -/
theorem fitting_chunk_exact (measures : packing.Measures frame) (candidate : ReadItemChunk)
    (next : Option ReadCursor) :
    fittingChunkBytes packing existing (chunksLen existing) candidate next =
      .ok (if frame.pageBytes (existing ++ [candidate]) next ≤ packing.maxBytes then
        some (candidate.encodedLen + if existing.isEmpty then 0 else 1) else none) := by
  have counted : chunksLen existing +
      (candidate.encodedLen + if existing.isEmpty then 0 else 1) +
        (frame.fixed + frame.records (existing ++ [candidate]) + encodedCursor next) =
      frame.pageBytes (existing ++ [candidate]) next := by
    rw [PageFrame.pageBytes, chunks_len_concat]
    omega
  rw [fittingChunkBytes, measures.headerBytes, measures.encodedLen]
  dsimp only [Option.toList]
  rw [counted]

/-- The bytes of a character, each with its escaped size. -/
theorem char_sizes_spec (char : Char) :
    (charSizes char).length = char.utf8Size ∧ (charSizes char).sum = escapedLen char := by
  rw [charSizes]
  by_cases single : char.utf8Size = 1
  · rw [if_pos single]
    refine ⟨single.symm, ?_⟩
    rw [List.sum_singleton, escapedSize, escapedLen, single]
    simp only [List.mem_cons, List.not_mem_nil, or_false, Nat.lt_succ_iff]
  · rw [if_neg single]
    -- A character of several bytes lies behind those that are escaped.
    have far : 127 < char.toNat := by
      rw [Char.utf8Size_eq_one_iff, UInt32.le_iff_toNat_le] at single
      exact Nat.not_le.mp single
    have plain : escapedLen char = char.utf8Size := by
      rw [escapedLen, if_neg, if_neg]
      · omega
      · simp only [List.mem_cons, List.not_mem_nil, or_false]
        omega
    refine ⟨List.length_replicate, ?_⟩
    rw [List.sum_replicate_nat, plain, Nat.mul_one]

theorem text_sizes_spec (text : List Char) :
    (text.flatMap charSizes).length = byteLen text ∧
      (text.flatMap charSizes).sum = (text.map escapedLen).sum := by
  induction text with
  | nil => exact ⟨rfl, rfl⟩
  | cons char rest inductionHypothesis =>
    obtain ⟨length, sum⟩ := char_sizes_spec char
    rw [List.flatMap_cons, List.length_append, List.sum_append, length, sum, inductionHypothesis.1,
      inductionHypothesis.2, byte_len_cons, List.map_cons, List.sum_cons]
    exact ⟨rfl, rfl⟩

/-- The table has the escaped size of every beginning. -/
theorem json_prefix_length (data rest : List Char) :
    (jsonPrefixLengths (data ++ rest)).getD (byteLen data) 0 = (data.map escapedLen).sum := by
  obtain ⟨length, sum⟩ := text_sizes_spec data
  have inside : byteLen data ≤ ((data ++ rest).flatMap charSizes).length := by
    rw [(text_sizes_spec _).1, byte_len_append]
    exact Nat.le_add_right _ _
  have front : ((data ++ rest).flatMap charSizes).take (byteLen data) = data.flatMap charSizes := by
    rw [List.flatMap_append, ← length, List.take_left]
  rw [jsonPrefixLengths, List.getD_eq_getElem?_getD, List.getElem?_scanl, if_pos inside, front,
    Option.getD_some, ← List.sum_eq_foldl, sum]

/-- The records depend on the items that are shown, not on their data. -/
theorem PageFrame.records_last (frame : PageFrame) (existing : List ReadItemChunk)
    {first second : ReadItemChunk} (same : first.index = second.index) :
    frame.records (existing ++ [first]) = frame.records (existing ++ [second]) := by
  have one {first second : ReadItemChunk} (same : first.index = second.index) :
      frame.records (existing ++ [first]) ≤ frame.records (existing ++ [second]) := by
    apply frame.grows
    intro chunk member
    rcases List.mem_append.mp member with earlier | last
    · exact ⟨chunk, List.mem_append_left _ earlier, rfl⟩
    · rw [List.mem_singleton.mp last]
      exact ⟨second, by simp, same.symm⟩
  exact Nat.le_antisymm (one same) (one same.symm)

theorem cursor_len (cursor : ReadCursor) :
    cursor.encodedLen = 19 + numberLen cursor.item + numberLen cursor.offset := by
  have names : objectLen [("item", 0), ("offset", 0)] = 19 := by decide
  rw [ReadCursor.encodedLen, object_len_values]
  simp only [List.map_cons, List.map_nil, List.sum_cons, List.sum_nil, names]
  omega

/-- The size of a chunk: its numbers and its escaped data, beside what is always written. -/
theorem chunk_len (chunk : ReadItemChunk) :
    chunk.encodedLen = 80 + numberLen chunk.index + numberLen chunk.offset +
      numberLen chunk.totalBytes + (chunk.data.map escapedLen).sum + boolLen chunk.complete := by
  have names : objectLen [("index", 0), ("offset", 0), ("total_bytes", 0), ("encoding", 0),
      ("data", 0), ("complete", 0)] = 67 := by decide
  have encoding : stringLen "utf8_json".toList = 11 := by decide
  rw [ReadItemChunk.encodedLen, object_len_values]
  simp only [List.map_cons, List.map_nil, List.sum_cons, List.sum_nil, names, encoding]
  rw [stringLen]
  omega

theorem chunk_len_filled (chunk : ReadItemChunk) (data : List Char) (empty : chunk.data = []) :
    ({ chunk with data := data } : ReadItemChunk).encodedLen =
      chunk.encodedLen + (data.map escapedLen).sum := by
  rw [chunk_len, chunk_len, empty, List.map_nil, List.sum_nil]
  dsimp only
  omega

/-- The size of the page that ends with the first bytes of what is left of an item. -/
def PageFrame.partBytes (frame : PageFrame) (existing : List ReadItemChunk)
    (index offset total : Nat) (json remaining : List Char) (length : Nat) : Nat :=
  frame.pageBytes (existing ++ [makeChunk index offset json (floorPrefix length remaining)])
    (if length = byteLen remaining then nextPosition index total
      else some { item := index, offset := offset + length })

/-- A beginning of a text with a boundary at its end. -/
theorem floor_prefix_cut {text : List Char} {length : Nat}
    (boundary : isBoundary text length = true) :
    ∃ rest, text = floorPrefix length text ++ rest ∧
      byteLen (floorPrefix length text) = length := by
  obtain ⟨rest, whole⟩ := (floor_prefix_spec length text).1
  exact ⟨rest, whole.symm, floor_of_boundary boundary⟩

/-- A probe is decided by the size of the page that ends where it ends. -/
theorem probe_exact (measures : packing.Measures frame) {index offset total middle high : Nat}
    {json before remaining : List Char} (shape : json = before ++ remaining)
    (start : byteLen before = offset) (boundary : isBoundary remaining middle = true)
    (within : middle ≤ floorBoundary remaining high) :
    probeFits packing existing (chunksLen existing) index offset json remaining total
        (jsonPrefixLengths (floorPrefix high remaining)) middle =
      .ok (decide (frame.partBytes existing index offset total json remaining middle ≤
        packing.maxBytes)) := by
  obtain ⟨rest, whole, length⟩ := floor_prefix_cut boundary
  have escaped : (jsonPrefixLengths (floorPrefix high remaining)).getD middle 0 =
      ((floorPrefix middle remaining).map escapedLen).sum := by
    obtain ⟨tail, same⟩ := floor_prefix_begins
      (Nat.le_trans within (floor_boundary_le remaining high)) remaining
    have found := json_prefix_length (floorPrefix middle remaining) tail
    rw [same, length] at found
    exact found
  obtain ⟨candidate, spelled⟩ : ∃ candidate : ReadItemChunk, candidate =
      { index := index, offset := offset, totalBytes := byteLen json, data := [],
        complete := decide (middle = byteLen remaining) } := ⟨_, rfl⟩
  have same : makeChunk index offset json (floorPrefix middle remaining) =
      { candidate with data := floorPrefix middle remaining } := by
    rw [makeChunk, length, spelled]
    simp [shape, start]
  have filled := chunk_len_filled candidate (floorPrefix middle remaining) (by rw [spelled])
  rw [← same] at filled
  have records : frame.records (existing ++ [candidate]) = frame.records
      (existing ++ [makeChunk index offset json (floorPrefix middle remaining)]) :=
    frame.records_last existing (by rw [same])
  simp only [probeFits, ← spelled, measures.headerBytes, measures.encodedLen, escaped,
    Option.toList, PageFrame.partBytes, PageFrame.pageBytes, chunks_len_concat, filled, records,
    decide_eq_true_eq]
  congr 2
  apply propext
  omega

end Counting

section Searching

variable {packing : Packing} {remaining : List Char}

/-- No boundary lies between an offset and the next one. -/
theorem boundary_from_least {value : List Char} {fuel next place : Nat}
    (boundary : isBoundary value place = true) (order : next ≤ place) :
    boundaryFrom value fuel next ≤ place := by
  induction fuel generalizing next with
  | zero => exact order
  | succ fuel inductionHypothesis =>
    rw [boundaryFrom]
    split_ifs with between
    · apply inductionHypothesis
      have other : next ≠ place := by
        rintro rfl
        rw [boundary] at between
        cases between.2
      omega
    · exact order

theorem next_boundary_least {value : List Char} {offset place : Nat}
    (boundary : isBoundary value place = true) (order : offset < place) :
    nextBoundary value offset ≤ place := by
  have inside := boundary_le boundary
  rw [nextBoundary, if_neg (by omega)]
  exact boundary_from_least boundary order

/-- Where sizes grow with the length of the part, apart from the whole, which is known not
to fit, no part fits that is longer than the one that is found. -/
theorem search_prefix_longest {fits : Nat → Except AgentError Bool} {size : Nat → Nat} {top : Nat}
    (exactly : ∀ place, isBoundary remaining place = true → place ≤ top →
      fits place = .ok (decide (size place ≤ packing.maxBytes)))
    (grows : ∀ first second, isBoundary remaining first = true →
      isBoundary remaining second = true → first ≤ second → second < byteLen remaining →
      size first ≤ size second)
    (whole : top = byteLen remaining → packing.maxBytes < size (byteLen remaining))
    (short : top ≤ byteLen remaining) {fuel low high found : Nat} (inside : high ≤ top)
    (enough : high - low ≤ fuel) (boundary : isBoundary remaining low = true)
    (above : ∀ place, isBoundary remaining place = true → high < place → place ≤ top →
      packing.maxBytes < size place)
    (done : searchPrefix packing remaining fits fuel low high = .ok found) (place : Nat)
    (later : isBoundary remaining place = true) (behind : found < place) (within : place ≤ top) :
    packing.maxBytes < size place := by
  induction fuel generalizing low high with
  | zero =>
    cases done
    exact above place later (by omega) within
  | succ fuel inductionHypothesis =>
    rw [searchPrefix] at done
    split_ifs at done with more
    · split at done
      · cases done
      · split at done
        · rename_i probe
          -- There is no boundary left between the bounds.
          apply inductionHypothesis (by omega) (by omega) boundary _ done
          intro between ends order bounded
          rcases Nat.lt_or_ge high between with beyond | below
          · exact above between ends beyond bounded
          · have least := next_boundary_least ends order
            unfold probeAt at probe
            dsimp only at probe
            split_ifs at probe with same past
            omega
        · rename_i middle probe
          obtain ⟨after, below, ends⟩ := probe_spec more (by omega) boundary probe
          rw [exactly middle ends (by omega)] at done
          by_cases fitting : size middle ≤ packing.maxBytes
          · rw [decide_eq_true fitting] at done
            exact inductionHypothesis inside (by omega) ends above done
          · rw [decide_eq_false fitting] at done
            apply inductionHypothesis (by omega) (by omega) boundary _ done
            intro between last order bounded
            rcases Nat.lt_or_eq_of_le (boundary_le last) with part | all
            · have larger := grows middle between ends last (by omega) part
              omega
            · rw [all]
              exact whole (by omega)
    · cases done
      exact above place later (by omega) within

end Searching

section Parts

variable {packing : Packing} {frame : PageFrame} {existing : List ReadItemChunk}
  {index offset total : Nat} {json before remaining : List Char}

theorem floor_prefix_whole (text : List Char) : floorPrefix (byteLen text) text = text := by
  obtain ⟨rest, whole, length⟩ := floor_prefix_cut (@boundary_length text)
  have same := split_unique ((List.append_nil text).trans whole) length.symm
  exact same.1.symm

/-- Escaped text is not shorter than the text. -/
theorem byte_len_le_escaped (text : List Char) : byteLen text ≤ (text.map escapedLen).sum := by
  obtain ⟨length, sum⟩ := text_sizes_spec text
  rw [← length, ← sum]
  apply List.length_le_sum_of_one_le
  intro size member
  obtain ⟨char, _, within⟩ := List.mem_flatMap.mp member
  rw [charSizes] at within
  split at within
  · rw [List.mem_singleton.mp within, escapedSize]
    split_ifs <;> decide
  · rw [List.eq_of_mem_replicate within]

variable (frame existing index offset total json) in
/-- A page takes at least the bytes of the part at its end. -/
theorem part_bytes_ge (boundary : isBoundary remaining length = true) :
    length < frame.partBytes existing index offset total json remaining length := by
  obtain ⟨rest, _, same⟩ := floor_prefix_cut boundary
  have escaped := byte_len_le_escaped (floorPrefix length remaining)
  have chunk := chunk_len (makeChunk index offset json (floorPrefix length remaining))
  change _ = 80 + _ + _ + _ + ((floorPrefix length remaining).map escapedLen).sum + _ at chunk
  rw [PageFrame.partBytes, PageFrame.pageBytes, chunks_len_concat]
  omega

/-- A longer part that is not the whole takes no less. -/
theorem part_bytes_mono (shape : json = before ++ remaining) (start : byteLen before = offset)
    {first second : Nat} (one : isBoundary remaining first = true)
    (other : isBoundary remaining second = true) (order : first ≤ second)
    (short : second < byteLen remaining) :
    frame.partBytes existing index offset total json remaining first ≤
      frame.partBytes existing index offset total json remaining second := by
  obtain ⟨_, _, firstLength⟩ := floor_prefix_cut one
  obtain ⟨_, _, secondLength⟩ := floor_prefix_cut other
  obtain ⟨more, longer⟩ := floor_prefix_begins order remaining
  have escaped : ((floorPrefix first remaining).map escapedLen).sum ≤
      ((floorPrefix second remaining).map escapedLen).sum := by
    rw [← longer, List.map_append, List.sum_append]
    exact Nat.le_add_right _ _
  have open_ {length : Nat} (data : byteLen (floorPrefix length remaining) = length)
      (part : length < byteLen remaining) :
      (makeChunk index offset json (floorPrefix length remaining)).complete = false := by
    rw [makeChunk, data, shape, byte_len_append, start, decide_eq_false_iff_not]
    omega
  have firstChunk := chunk_len (makeChunk index offset json (floorPrefix first remaining))
  have secondChunk := chunk_len (makeChunk index offset json (floorPrefix second remaining))
  rw [open_ firstLength (by omega)] at firstChunk
  rw [open_ secondLength short] at secondChunk
  have records : frame.records
        (existing ++ [makeChunk index offset json (floorPrefix first remaining)]) =
      frame.records (existing ++ [makeChunk index offset json (floorPrefix second remaining)]) :=
    frame.records_last existing rfl
  have numbers := number_len_mono (Nat.add_le_add_left order offset)
  have firstCursor := cursor_len { item := index, offset := offset + first }
  have secondCursor := cursor_len { item := index, offset := offset + second }
  simp only [makeChunk] at firstChunk secondChunk records firstCursor secondCursor
  rw [PageFrame.partBytes, PageFrame.partBytes, if_neg (by omega), if_neg (by omega),
    PageFrame.pageBytes, PageFrame.pageBytes, chunks_len_concat, chunks_len_concat]
  simp only [encodedCursor, Option.elim_some, makeChunk]
  omega

/-- No part fits that is longer than the one that is found, where the whole does not. -/
theorem largest_fitting_longest (measures : packing.Measures frame)
    (shape : json = before ++ remaining) (start : byteLen before = offset)
    (whole : packing.maxBytes < frame.partBytes existing index offset total json remaining
      (byteLen remaining)) {length : Nat}
    (found : largestFittingPrefix packing existing (chunksLen existing) index offset json remaining
      total = .ok length) (place : Nat) (later : isBoundary remaining place = true)
    (behind : length < place) :
    packing.maxBytes < frame.partBytes existing index offset total json remaining place := by
  obtain ⟨low, searched, rfl⟩ := map_ok.mp found
  generalize bounded : min (byteLen remaining) packing.maxBytes = high at searched
  have table : (jsonPrefixLengths (floorPrefix high remaining)).length =
      floorBoundary remaining high + 1 := by
    rw [jsonPrefixLengths, List.length_scanl, (text_sizes_spec _).1, floorBoundary]
  have short := floor_boundary_le remaining high
  rw [table, Nat.add_sub_cancel, Nat.min_eq_right short] at searched
  rcases Nat.lt_or_ge (floorBoundary remaining high) place with beyond | within
  · -- A part that is longer than the whole page may be.
    have far : high < place := by
      by_contra inside
      have floor : floorBoundary remaining place ≤ _ :=
        floor_boundary_mono (Nat.not_lt.mp inside)
      rw [floor_of_boundary later] at floor
      omega
    have bytes := boundary_le later
    have larger := part_bytes_ge frame existing index offset total json later
    omega
  · refine search_prefix_longest
      (fun middle ends inside => probe_exact measures shape start ends inside)
      (fun first second one other order part => part_bytes_mono shape start one other order part)
      (fun _ => whole) (by omega) (Nat.le_refl _) (by omega) boundary_zero
      (fun between _ beyond inside => by omega) searched place later ?_ within
    by_contra inside
    have floor : floorBoundary remaining place ≤ _ :=
      floor_boundary_mono (Nat.not_lt.mp inside)
    rw [floor_of_boundary later] at floor
    omega

end Parts

end MinicoreAgent.ReadPages

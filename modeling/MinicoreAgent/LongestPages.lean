import MinicoreAgent.PageSizes

/-!
# The longest page that fits

The bytes that `pack_items` counts are those of the page it returns. Of all pages that
begin at the same cursor and are cut in the same way, the returned one reaches furthest:
a page that ends behind it is larger than the limit.
-/
namespace MinicoreAgent.ReadPages

open Text
open JsonSize
open Results

section Pages

/-- The cursor that a page ending at some place returns. -/
def cursorAt (total : Nat) (last : ReadCursor) : Option ReadCursor :=
  if last.item < total then some last else none

/-- The pages that begin at a cursor: whole items, and at the end possibly a part of one. An
item is JSON and not empty, so nothing is left only of an item that was read before. -/
inductive PageTo : List (List Char) → ReadCursor → List ReadItemChunk → ReadCursor → Prop
  | ends (supplied : List (List Char)) (cursor : ReadCursor) : PageTo supplied cursor [] cursor
  | spent {json : List Char} {supplied : List (List Char)} {cursor last : ReadCursor}
      {chunks : List ReadItemChunk} (length : byteLen json = cursor.offset)
      (begun : 0 < cursor.offset)
      (later : PageTo supplied { item := cursor.item + 1, offset := 0 } chunks last) :
      PageTo (json :: supplied) cursor chunks last
  | whole {json before data : List Char} {supplied : List (List Char)} {cursor last : ReadCursor}
      {chunks : List ReadItemChunk} (shape : json = before ++ data)
      (length : byteLen before = cursor.offset) (nonempty : data ≠ [])
      (later : PageTo supplied { item := cursor.item + 1, offset := 0 } chunks last) :
      PageTo (json :: supplied) cursor (makeChunk cursor.item cursor.offset json data :: chunks)
        last
  | part {json before data after : List Char} {supplied : List (List Char)} {cursor : ReadCursor}
      (shape : json = before ++ data ++ after) (length : byteLen before = cursor.offset)
      (nonempty : data ≠ []) (more : after ≠ []) :
      PageTo (json :: supplied) cursor [makeChunk cursor.item cursor.offset json data]
        { item := cursor.item, offset := cursor.offset + byteLen data }

variable {supplied : List (List Char)} {cursor last : ReadCursor} {chunks : List ReadItemChunk}

theorem PageTo.forward (page : PageTo supplied cursor chunks last) : ¬ Advanced last cursor := by
  induction page with
  | ends =>
    unfold Advanced
    omega
  | spent _ _ _ inductionHypothesis =>
    unfold Advanced at inductionHypothesis ⊢
    dsimp only at inductionHypothesis
    omega
  | whole _ _ _ _ inductionHypothesis =>
    unfold Advanced at inductionHypothesis ⊢
    dsimp only at inductionHypothesis
    omega
  | part =>
    unfold Advanced
    dsimp only
    omega

theorem chunks_len_grow (front rest : List ReadItemChunk) (chunk : ReadItemChunk) :
    chunksLen front + chunk.encodedLen ≤ chunksLen (front ++ chunk :: rest) := by
  simp only [chunksLen, List.map_append, List.map_cons, List.sum_append, List.sum_cons,
    List.length_append, List.length_cons]
  omega

/-- Whole items at the end make a page larger: the first of their chunks takes more than the
cursor that it replaces. -/
theorem PageTo.grows (page : PageTo supplied cursor chunks last) (fresh : cursor.offset = 0)
    (frame : PageFrame) (front : List ReadItemChunk) (total : Nat) :
    frame.pageBytes front (cursorAt total cursor) ≤
      frame.pageBytes (front ++ chunks) (cursorAt total last) := by
  have begins (json data : List Char) (rest : List ReadItemChunk) :
      frame.pageBytes front (cursorAt total cursor) ≤ frame.pageBytes
        (front ++ makeChunk cursor.item cursor.offset json data :: rest) (cursorAt total last) := by
    have records : frame.records front ≤
        frame.records (front ++ makeChunk cursor.item cursor.offset json data :: rest) :=
      frame.grows _ _ fun chunk member => ⟨chunk, List.mem_append_left _ member, rfl⟩
    have bytes := chunks_len_grow front rest (makeChunk cursor.item cursor.offset json data)
    have chunk := chunk_len (makeChunk cursor.item cursor.offset json data)
    have replaced : encodedCursor (cursorAt total cursor) ≤
        (makeChunk cursor.item cursor.offset json data).encodedLen := by
      simp only [makeChunk] at chunk ⊢
      rw [cursorAt, chunk]
      split_ifs
      · rw [encodedCursor, Option.elim_some, cursor_len]
        omega
      · rw [encodedCursor, Option.elim_none]
        omega
    rw [PageFrame.pageBytes, PageFrame.pageBytes]
    omega
  cases page with
  | ends => rw [List.append_nil]
  | spent length begun => omega
  | whole shape length nonempty later => exact begins _ _ _
  | part shape length nonempty more => exact begins _ _ _

end Pages

section Accounts

variable {packing : Packing} {frame : PageFrame} {start : ReadCursor} {total : Nat} {state : Packed}

/-- The bytes that `pack_items` compares with the limit in the end. -/
def accountedBytes (packing : Packing) (start : ReadCursor) (total : Nat)
    (encoded : List (Except AgentError (Nat × List Char))) : Except AgentError Nat := do
  let state ← packLoop packing start total 0 encoded
    { chunks := [], chunkBytes := 0, position := start }
  let header ← packing.headerBytes state.chunks none (cursorAt total state.position)
  .ok (state.chunkBytes + header)

/-- The bytes of the chunks are counted. -/
def Packed.Counted (state : Packed) : Prop := state.chunkBytes = chunksLen state.chunks

/-- What taking an item has packed. -/
def Taken.packed : Taken → Packed
  | .proceed state => state
  | .stop state => state

theorem Packed.Counted.push (counted : state.Counted) (chunk : ReadItemChunk)
    (position : ReadCursor) : Packed.Counted
      { chunks := state.chunks ++ [chunk]
        chunkBytes := state.chunkBytes + (chunk.encodedLen + if state.chunks.isEmpty then 0 else 1)
        position := position } := by
  unfold Packed.Counted at counted ⊢
  rw [chunks_len_concat, counted]

theorem take_part_counted (measures : packing.Measures frame) (counted : state.Counted)
    {index offset : Nat} {json remaining : List Char} {taken : Taken}
    (done : takePart packing total state index offset json remaining = .ok taken) :
    taken.packed.Counted := by
  unfold takePart at done
  split at done
  · cases done
  · rename_i length found
    by_cases nothing : length = 0
    · rw [if_pos nothing] at done
      split at done
      · cases done
      · cases done
        exact counted
    · rw [if_neg nothing] at done
      split at done
      · cases done
      · cases done
        dsimp only [Taken.packed]
        rw [measures.encodedLen, Nat.add_assoc]
        exact counted.push _ _

theorem take_item_counted (measures : packing.Measures frame) (counted : state.Counted)
    {index : Nat} {json : List Char} {taken : Taken}
    (done : takeItem packing start total state index json = .ok taken) : taken.packed.Counted := by
  unfold takeItem at done
  generalize (if index = start.item then start.offset else 0) = offset at done
  split at done
  · cases done
    exact counted
  · dsimp only at done
    split at done
    · cases done
    · split at done
      · cases done
        exact counted
      · split at done
        · rw [counted, fitting_chunk_exact measures] at done
          split at done
          · cases done
          · rename_i bytes fitting
            split at fitting
            · cases fitting
              cases done
              rw [← counted]
              exact counted.push _ _
            · cases fitting
          · exact take_part_counted measures counted done
        · exact take_part_counted measures counted done

theorem pack_loop_counted (measures : packing.Measures frame) (counted : state.Counted)
    {count : Nat} {encoded : List (Except AgentError (Nat × List Char))} {after : Packed}
    (done : packLoop packing start total count encoded state = .ok after) : after.Counted := by
  induction encoded generalizing count state with
  | nil =>
    unfold packLoop at done
    split at done
    · cases done
    · cases done
      exact counted
  | cons first rest inductionHypothesis =>
    unfold packLoop at done
    split at done
    · cases done
    · cases first with
      | error error => cases done
      | ok item =>
        dsimp only at done
        split at done
        · cases done
        · split at done
          · cases done
          · rename_i taken
            cases done
            exact take_item_counted measures counted taken
          · rename_i taken
            exact inductionHypothesis (take_item_counted measures counted taken) done

/-- A page that is returned, with the state that the loop ended in. -/
theorem pack_items_measured (measures : packing.Measures frame)
    {encoded : List (Except AgentError (Nat × List Char))} {chunks : List ReadItemChunk}
    {next : Option ReadCursor}
    (packed : packItems packing start total encoded = .ok (chunks, next)) :
    ∃ state, packLoop packing start total 0 encoded
        { chunks := [], chunkBytes := 0, position := start } = .ok state ∧
      state.chunks = chunks ∧ cursorAt total state.position = next ∧
      state.chunkBytes + (frame.fixed + frame.records chunks + encodedCursor next) ≤
        packing.maxBytes := by
  unfold packItems at packed
  split at packed
  · cases packed
  · rename_i state looped
    refine ⟨state, looped, ?_⟩
    have place : (if state.position.item < total then some state.position else none) =
      cursorAt total state.position := rfl
    rw [place] at packed
    dsimp only at packed
    split at packed
    · cases packed
    · rw [measures.headerBytes] at packed
      dsimp only at packed
      split at packed
      · cases packed
      · split at packed
        · cases packed
        · rename_i fits
          cases packed
          rw [Option.toList_none, List.append_nil] at fits
          exact ⟨rfl, rfl, Nat.not_lt.mp fits⟩

/-- What `pack_items` accounts for is the size of the page, and it is within the limit. -/
theorem pack_items_exact (measures : packing.Measures frame)
    {encoded : List (Except AgentError (Nat × List Char))} {chunks : List ReadItemChunk}
    {next : Option ReadCursor}
    (packed : packItems packing start total encoded = .ok (chunks, next)) :
    accountedBytes packing start total encoded = .ok (frame.pageBytes chunks next) ∧
      frame.pageBytes chunks next ≤ packing.maxBytes := by
  obtain ⟨state, looped, rfl, rfl, fits⟩ := pack_items_measured measures packed
  have begins : Packed.Counted { chunks := [], chunkBytes := 0, position := start } := rfl
  have counted := pack_loop_counted measures begins looped
  have size : state.chunkBytes +
      (frame.fixed + frame.records state.chunks +
        encodedCursor (cursorAt total state.position)) =
      frame.pageBytes state.chunks (cursorAt total state.position) := by
    rw [PageFrame.pageBytes, counted]
    omega
  rw [size] at fits
  refine ⟨?_, fits⟩
  simp only [accountedBytes, looped, measures.headerBytes, Option.toList_none, List.append_nil]
  exact congrArg Except.ok size

end Accounts

section Longest

variable {packing : Packing} {frame : PageFrame} {start : ReadCursor} {total : Nat} {state : Packed}

/-- The chunk of what is left of an item, if anything is. -/
def restChunks (index offset : Nat) (json remaining : List Char) : List ReadItemChunk :=
  if remaining = [] then [] else [makeChunk index offset json remaining]

theorem PageTo.rest {index offset : Nat} {json before remaining : List Char}
    {supplied : List (List Char)} {chunks : List ReadItemChunk} {last : ReadCursor}
    (shape : json = before ++ remaining) (length : byteLen before = offset) (filled : json ≠ [])
    (later : PageTo supplied ⟨index + 1, 0⟩ chunks last) :
    PageTo (json :: supplied) ⟨index, offset⟩ (restChunks index offset json remaining ++ chunks)
      last := by
  rw [restChunks]
  split_ifs with empty
  · rw [empty, List.append_nil] at shape
    rw [shape] at filled
    have positive := byte_len_pos filled
    exact PageTo.spent (by rw [shape, length]) (by dsimp only; omega) later
  · exact PageTo.whole shape length empty later

/-- Where the whole does not fit, the page is ended by the longest part that does, if any. -/
theorem take_part_longest (measures : packing.Measures frame) (counted : state.Counted)
    {index offset : Nat} {json before remaining : List Char} {taken : Taken}
    (shape : json = before ++ remaining) (length : byteLen before = offset)
    (left : remaining ≠ []) (inside : index < total)
    (reached : state.position = { item := index, offset := offset })
    (whole : packing.maxBytes < frame.partBytes state.chunks index offset total json remaining
      (byteLen remaining))
    (done : takePart packing total state index offset json remaining = .ok taken) :
    ∃ after chunks, taken = .stop after ∧ after.chunks = state.chunks ++ chunks ∧
      (∀ rest, PageTo (json :: rest) state.position chunks after.position) ∧
      ∀ place, isBoundary remaining place = true →
        Advanced after.position { item := index, offset := offset + place } →
          packing.maxBytes <
            frame.partBytes state.chunks index offset total json remaining place := by
  unfold takePart at done
  rw [counted] at done
  split at done
  · cases done
  · rename_i size found
    have longest := largest_fitting_longest measures shape length whole found
    have ends := largest_fitting_boundary found
    by_cases nothing : size = 0
    · rw [if_pos nothing] at done
      split at done
      · cases done
      · cases done
        refine ⟨state, [], rfl, (List.append_nil _).symm, fun rest => PageTo.ends _ _, ?_⟩
        intro place boundary behind
        rw [reached] at behind
        rcases behind with wrong | ⟨_, behind⟩
        · exact absurd wrong (Nat.lt_irrefl _)
        · dsimp only at behind
          exact longest place boundary (by omega)
    · rw [if_neg nothing] at done
      split at done
      · cases done
      · rename_i data rest cut
        obtain ⟨parts, bytes⟩ := split_at_iff.mp cut
        have nonempty : data ≠ [] := by
          rintro rfl
          exact nothing bytes.symm
        cases done
        refine ⟨_, [makeChunk index offset json data], rfl, rfl, ?_⟩
        rw [reached]
        by_cases last : size = byteLen remaining
        · -- The part is all that is left.
          have none : rest = [] := by
            by_contra more
            have positive := byte_len_pos more
            rw [parts, byte_len_append] at last
            omega
          rw [none, List.append_nil] at parts
          subst parts
          have behind : (nextPosition index total).getD { item := total, offset := 0 } =
              { item := index + 1, offset := 0 } := position_after_inside inside
          rw [if_pos last, behind]
          refine ⟨fun more => PageTo.whole shape length left (PageTo.ends _ _), ?_⟩
          rintro place _ (wrong | ⟨wrong, _⟩)
          · dsimp only at wrong
            omega
          · dsimp only at wrong
            omega
        · have more : rest ≠ [] := by
            rintro rfl
            rw [List.append_nil] at parts
            rw [parts] at last
            exact last bytes.symm
          rw [parts, ← List.append_assoc] at shape
          rw [if_neg last, Option.getD_some, ← bytes]
          refine ⟨fun others => PageTo.part shape length nonempty more, ?_⟩
          rintro place boundary (wrong | ⟨_, behind⟩)
          · exact absurd wrong (Nat.lt_irrefl _)
          · dsimp only at behind
            exact longest place boundary (by omega)

/-- A page that goes on with an item is decided by what is taken of the item. -/
theorem take_item_longest (measures : packing.Measures frame) (counted : state.Counted)
    {index : Nat} {json : List Char} {taken : Taken} (inside : index < total)
    (reached : state.position.item = index)
    (offset : state.position.offset = if index = start.item then start.offset else 0)
    (done : takeItem packing start total state index json = .ok taken) :
    ∃ before remaining, json = before ++ remaining ∧ byteLen before = state.position.offset ∧
      ((∃ after, taken = .proceed after ∧ after.position = ⟨index + 1, 0⟩ ∧
        after.chunks = state.chunks ++ restChunks index state.position.offset json remaining) ∨
       (remaining ≠ [] ∧
        packing.maxBytes < frame.partBytes state.chunks index state.position.offset total json
          remaining (byteLen remaining) ∧
        ∃ after chunks, taken = .stop after ∧ after.chunks = state.chunks ++ chunks ∧
          (∀ rest, PageTo (json :: rest) state.position chunks after.position) ∧
          ∀ place, isBoundary remaining place = true →
            Advanced after.position { item := index, offset := state.position.offset + place } →
              packing.maxBytes < frame.partBytes state.chunks index state.position.offset total json
                remaining place)) := by
  have position : state.position = { item := index, offset := state.position.offset } := by
    rw [← reached]
  unfold takeItem at done
  rw [if_neg (by omega), ← offset] at done
  generalize state.position.offset = offset at done position
  dsimp only at done
  split at done
  · cases done
  · rename_i before remaining cut
    obtain ⟨shape, length⟩ := split_at_iff.mp cut
    refine ⟨before, remaining, shape, length, ?_⟩
    have ended : positionAfter total index = { item := index + 1, offset := 0 } :=
      position_after_inside inside
    have all : frame.partBytes state.chunks index offset total json remaining
        (byteLen remaining) =
          frame.pageBytes (state.chunks ++ [makeChunk index offset json remaining])
            (nextPosition index total) := by
      rw [PageFrame.partBytes, if_pos rfl, floor_prefix_whole]
    split at done
    · rename_i empty
      cases done
      rw [List.isEmpty_iff] at empty
      refine Or.inl ⟨_, rfl, ended, ?_⟩
      rw [restChunks, if_pos empty, List.append_nil]
    · rename_i filled
      rw [List.isEmpty_iff] at filled
      split at done
      · rw [counted, fitting_chunk_exact measures] at done
        by_cases fits : frame.pageBytes
            (state.chunks ++ [makeChunk index offset json remaining]) (nextPosition index total) ≤
              packing.maxBytes
        · rw [if_pos fits] at done
          cases done
          refine Or.inl ⟨_, rfl, ended, ?_⟩
          rw [restChunks, if_neg filled]
        · rw [if_neg fits] at done
          right
          have whole : packing.maxBytes < frame.partBytes state.chunks index offset total json
              remaining (byteLen remaining) := by
            rw [all]
            exact Nat.not_le.mp fits
          exact ⟨filled, whole,
            take_part_longest measures counted shape length filled inside position whole done⟩
      · right
        rename_i large
        have whole : packing.maxBytes < frame.partBytes state.chunks index offset total json
            remaining (byteLen remaining) := by
          have bytes := part_bytes_ge frame state.chunks index offset total json
            (@boundary_length remaining)
          omega
        exact ⟨filled, whole,
          take_part_longest measures counted shape length filled inside position whole done⟩

/-- The supplied items, each with its place. -/
def suppliedFrom (first : Nat) (supplied : List (List Char)) :
    List (Except AgentError (Nat × List Char)) :=
  supplied.mapIdx fun place json => .ok (first + place, json)

theorem supplied_from_cons (first : Nat) (json : List Char) (supplied : List (List Char)) :
    suppliedFrom first (json :: supplied) =
      .ok (first, json) :: suppliedFrom (first + 1) supplied := by
  rw [suppliedFrom, List.mapIdx_cons]
  congr 1
  apply List.mapIdx_eq_mapIdx_iff.mpr
  intro place _
  rw [Nat.add_assoc, Nat.add_comm 1 place]

theorem floor_prefix_front (front rest : List Char) :
    floorPrefix (byteLen front) (front ++ rest) = front := by
  have boundary : isBoundary (front ++ rest) (byteLen front) = true :=
    is_boundary_iff.mpr ⟨front, rest, rfl, rfl⟩
  obtain ⟨others, whole, length⟩ := floor_prefix_cut boundary
  exact (split_unique whole length.symm).1.symm

/-- A page that goes further into an item than the one whose last part was taken from it. -/
theorem stopped_longest {index offset : Nat} {json before remaining : List Char}
    {supplied : List (List Char)} {after last : ReadCursor} {longer : List ReadItemChunk}
    (inside : index < total) (shape : json = before ++ remaining) (length : byteLen before = offset)
    (left : remaining ≠ [])
    (whole : packing.maxBytes < frame.partBytes state.chunks index offset total json remaining
      (byteLen remaining))
    (forward : ¬ Advanced after ⟨index, offset⟩)
    (parts : ∀ place, isBoundary remaining place = true → Advanced after ⟨index, offset + place⟩ →
      packing.maxBytes < frame.partBytes state.chunks index offset total json remaining place)
    (page : PageTo (json :: supplied) ⟨index, offset⟩ longer last) (behind : Advanced after last) :
    packing.maxBytes < frame.pageBytes (state.chunks ++ longer) (cursorAt total last) := by
  generalize place_eq : (⟨index, offset⟩ : ReadCursor) = place at page
  cases page with
  | ends =>
    rw [← place_eq] at behind
    exact absurd behind forward
  | spent spent begun later =>
    rw [← place_eq, shape, byte_len_append, length] at spent
    have positive := byte_len_pos left
    dsimp only at spent
    omega
  | whole other bytes nonempty later =>
    subst place_eq
    obtain ⟨rfl, rfl⟩ := split_unique (shape.symm.trans other) (length.trans bytes.symm)
    have grown := later.grows rfl frame
      (state.chunks ++ [makeChunk index offset json remaining]) total
    rw [PageFrame.partBytes, if_pos rfl, floor_prefix_whole] at whole
    rw [List.append_assoc, List.singleton_append] at grown
    exact Nat.lt_of_lt_of_le whole grown
  | @part _ _ data rest _ _ other bytes nonempty more =>
    subst place_eq
    rw [List.append_assoc] at other
    obtain ⟨rfl, rfl⟩ := split_unique (shape.symm.trans other) (length.trans bytes.symm)
    have boundary : isBoundary (data ++ rest) (byteLen data) = true :=
      is_boundary_iff.mpr ⟨data, rest, rfl, rfl⟩
    have large := parts (byteLen data) boundary behind
    have positive := byte_len_pos more
    rw [PageFrame.partBytes, if_neg (by rw [byte_len_append]; omega), floor_prefix_front] at large
    rw [cursorAt, if_pos inside]
    exact large

/-- A page that goes on behind an item of which everything is taken. -/
theorem taken_longest {index offset : Nat} {json before remaining : List Char}
    {supplied : List (List Char)} {after last : ReadCursor} {longer : List ReadItemChunk}
    (shape : json = before ++ remaining) (length : byteLen before = offset)
    (forward : ¬ Advanced after ⟨index + 1, 0⟩)
    (page : PageTo (json :: supplied) ⟨index, offset⟩ longer last) (behind : Advanced after last) :
    ∃ later, PageTo supplied ⟨index + 1, 0⟩ later last ∧
      longer = restChunks index offset json remaining ++ later := by
  generalize place_eq : (⟨index, offset⟩ : ReadCursor) = place at page
  cases page with
  | ends =>
    subst place_eq
    unfold Advanced at forward behind
    dsimp only at forward behind
    omega
  | spent spent begun later =>
    subst place_eq
    rw [shape, byte_len_append, length] at spent
    have empty : remaining = [] := by
      by_contra left
      have positive := byte_len_pos left
      dsimp only at spent
      omega
    exact ⟨_, later, by rw [restChunks, if_pos empty, List.nil_append]⟩
  | whole other bytes nonempty later =>
    subst place_eq
    obtain ⟨rfl, rfl⟩ := split_unique (shape.symm.trans other) (length.trans bytes.symm)
    exact ⟨_, later, by rw [restChunks, if_neg nonempty, List.singleton_append]⟩
  | part other bytes nonempty more =>
    subst place_eq
    unfold Advanced at forward behind
    dsimp only at forward behind
    omega

/-- The loop reads on as far as a page reaches that fits. -/
theorem pack_loop_longest (measures : packing.Measures frame) (count : Nat)
    {supplied : List (List Char)} {state after : Packed} (counted : state.Counted)
    (offset : state.position.offset =
      if state.position.item = start.item then start.offset else 0)
    (order : start.item ≤ state.position.item)
    (inside : state.position.item + supplied.length ≤ total)
    (done : packLoop packing start total count (suppliedFrom state.position.item supplied) state =
      .ok after) :
    ¬ Advanced after.position state.position ∧
    (∃ chunks, after.chunks = state.chunks ++ chunks ∧
      ((∀ text ∈ supplied, text ≠ []) → PageTo supplied state.position chunks after.position)) ∧
    ∀ longer last, PageTo supplied state.position longer last → Advanced after.position last →
      packing.maxBytes < frame.pageBytes (state.chunks ++ longer) (cursorAt total last) := by
  induction supplied generalizing count state with
  | nil =>
    unfold packLoop at done
    split at done
    · cases done
    · cases done
      have stays := (PageTo.ends [] after.position).forward
      refine ⟨stays, ⟨[], (List.append_nil _).symm, fun _ => PageTo.ends _ _⟩, ?_⟩
      intro longer last page behind
      cases page
      exact absurd behind stays
  | cons json supplied inductionHypothesis =>
    rw [List.length_cons] at inside
    rw [supplied_from_cons] at done
    unfold packLoop at done
    dsimp only at done
    split at done
    · cases done
    · split at done
      · cases done
      · split at done
        · cases done
        · rename_i taken
          cases done
          obtain ⟨before, remaining, shape, length, ⟨_, wrong, _⟩ |
            ⟨left, whole, ended, chunks, same, packed, page, parts⟩⟩ :=
            take_item_longest measures counted (by omega) rfl offset taken
          · cases wrong
          · cases same
            have forward := (page []).forward
            refine ⟨forward, ⟨chunks, packed, fun _ => page supplied⟩, ?_⟩
            intro longer last further behind
            exact stopped_longest (by omega) shape length left whole forward parts further behind
        · rename_i next taken
          have counted' : next.Counted := take_item_counted measures counted taken
          obtain ⟨before, remaining, shape, length, ⟨_, same, position, chunks⟩ |
            ⟨_, _, _, _, wrong, _⟩⟩ :=
            take_item_longest measures counted (by omega) rfl offset taken
          · cases same
            have item : next.position.item = state.position.item + 1 := by rw [position]
            rw [← item] at done
            obtain ⟨forward, ⟨more, packed, page⟩, longest⟩ :=
              inductionHypothesis (count + 1) counted'
                (by rw [position, if_neg (by dsimp only; omega)]) (by omega) (by omega) done
            rw [position] at forward page longest
            rw [chunks, List.append_assoc] at packed
            refine ⟨?_, ⟨_, packed, ?_⟩, ?_⟩
            · unfold Advanced at forward ⊢
              dsimp only at forward
              omega
            · intro filled
              exact PageTo.rest shape length (filled json List.mem_cons_self)
                (page fun text member => filled text (List.mem_cons_of_mem _ member))
            · intro longer last further behind
              obtain ⟨later, onward, rfl⟩ := taken_longest shape length forward further behind
              rw [← List.append_assoc, ← chunks]
              exact longest later last onward behind
          · cases wrong

/-- A page reaches furthest: it ends somewhere, and every page that ends behind is larger
than the limit. -/
def Longest (supplied : List (List Char)) (start : ReadCursor) (total maxBytes : Nat)
    (size : List ReadItemChunk → Option ReadCursor → Nat) (chunks : List ReadItemChunk)
    (next : Option ReadCursor) : Prop :=
  ∃ last, cursorAt total last = next ∧
    ((∀ text ∈ supplied, text ≠ []) → PageTo supplied start chunks last) ∧
    ∀ longer later, PageTo supplied start longer later → Advanced last later →
      maxBytes < size longer (cursorAt total later)

theorem pack_items_longest (measures : packing.Measures frame) {supplied : List (List Char)}
    (inside : start.item + supplied.length ≤ total) {chunks : List ReadItemChunk}
    {next : Option ReadCursor}
    (packed : packItems packing start total (suppliedFrom start.item supplied) =
      .ok (chunks, next)) :
    Longest supplied start total packing.maxBytes frame.pageBytes chunks next := by
  obtain ⟨state, looped, rfl, rfl, _⟩ := pack_items_measured measures packed
  have begins : Packed.Counted { chunks := [], chunkBytes := 0, position := start } := rfl
  obtain ⟨_, ⟨chunks, same, page⟩, longest⟩ :=
    pack_loop_longest measures 0 begins (if_pos rfl).symm (Nat.le_refl _) inside looped
  rw [List.nil_append] at same
  refine ⟨state.position, rfl, ?_, longest⟩
  rw [same]
  exact page

end Longest

section Supply

variable {supplied : List (List Char)} {cursor last : ReadCursor} {chunks : List ReadItemChunk}

/-- The bytes of some items from an offset of the first one on. -/
def unreadBytes (supplied : List (List Char)) (offset : Nat) : Nat :=
  match supplied with
  | [] => 0
  | json :: rest => byteLen json - offset + (rest.map byteLen).sum

def dataBytes (chunks : List ReadItemChunk) : Nat :=
  (chunks.map fun chunk => byteLen chunk.data).sum

theorem unread_from_start (supplied : List (List Char)) :
    unreadBytes supplied 0 = (supplied.map byteLen).sum := by
  cases supplied <;> rfl

theorem PageTo.extend (page : PageTo supplied cursor chunks last) (more : List (List Char)) :
    PageTo (supplied ++ more) cursor chunks last := by
  induction page with
  | ends => exact PageTo.ends _ _
  | spent length begun _ inductionHypothesis => exact PageTo.spent length begun inductionHypothesis
  | whole shape length nonempty _ inductionHypothesis =>
    exact PageTo.whole shape length nonempty inductionHypothesis
  | part shape length nonempty rest => exact PageTo.part shape length nonempty rest

/-- A page of more items ends within the first ones, or has everything that they have. -/
theorem PageTo.within {more : List (List Char)}
    (page : PageTo (supplied ++ more) cursor chunks last) :
    PageTo supplied cursor chunks last ∨ unreadBytes supplied cursor.offset ≤ dataBytes chunks := by
  induction supplied generalizing cursor chunks with
  | nil => exact Or.inr (Nat.zero_le _)
  | cons json supplied inductionHypothesis =>
    rw [List.cons_append] at page
    cases page with
    | ends => exact Or.inl (PageTo.ends _ _)
    | spent length begun later =>
      rcases inductionHypothesis later with inside | all
      · exact Or.inl (PageTo.spent length begun inside)
      · right
        rw [unread_from_start] at all
        rw [unreadBytes, length]
        omega
    | whole shape length nonempty later =>
      rcases inductionHypothesis later with inside | all
      · exact Or.inl (PageTo.whole shape length nonempty inside)
      · right
        rw [unread_from_start] at all
        rw [unreadBytes, shape, byte_len_append, length, dataBytes, List.map_cons, List.sum_cons]
        dsimp only [makeChunk, dataBytes] at all ⊢
        omega
    | part shape length nonempty rest => exact Or.inl (PageTo.part shape length nonempty rest)

/-- A page is larger than its data. -/
theorem data_bytes_lt (frame : PageFrame) (chunks : List ReadItemChunk)
    (next : Option ReadCursor) : dataBytes chunks < frame.pageBytes chunks next := by
  have data : dataBytes chunks ≤ (chunks.map ReadItemChunk.encodedLen).sum := by
    apply List.sum_le_sum
    intro chunk member
    have escaped := byte_len_le_escaped chunk.data
    rw [chunk_len]
    omega
  have cursor : 0 < encodedCursor next := by
    cases next with
    | none => decide
    | some cursor =>
      rw [encodedCursor, Option.elim_some, cursor_len]
      omega
  rw [PageFrame.pageBytes, chunksLen]
  omega

/-- Supplying more items than fill the limit changes nothing. -/
theorem Longest.supply {start : ReadCursor} {total maxBytes : Nat} {frame : PageFrame}
    {next : Option ReadCursor}
    (longest : Longest supplied start total maxBytes frame.pageBytes chunks next)
    (more : List (List Char)) (filled : more = [] ∨ maxBytes ≤ unreadBytes supplied start.offset) :
    Longest (supplied ++ more) start total maxBytes frame.pageBytes chunks next := by
  obtain ⟨last, ends, page, longest⟩ := longest
  refine ⟨last, ends, ?_, ?_⟩
  · intro nonempty
    exact (page fun text member => nonempty text (List.mem_append_left _ member)).extend more
  · intro longer later further behind
    rcases further.within with inside | all
    · exact longest longer later inside behind
    · rcases filled with rfl | filled
      · rw [List.append_nil] at further
        exact longest longer later further behind
      · have larger := data_bytes_lt frame longer (cursorAt total later)
        omega

end Supply

end MinicoreAgent.ReadPages

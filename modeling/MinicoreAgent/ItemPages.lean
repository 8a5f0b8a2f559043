import MinicoreAgent.Lib.Results
import MinicoreAgent.Lib.Text

/-!
# Pages of items

`pack_items` of `read.rs` cuts a list of JSON texts into pages of bounded size. A
page holds whole items and at most one part of an item at its end; the cursor
names the item and the byte offset from which the next page goes on. Parts end
between two characters, at the largest offset whose escaped text still fits.

Sizes of encoded chunks and of the rest of the page are parameters, as is the
answer of the budget at each point where it is asked. The walk that follows
`next_cursor` reads every item once, whatever the sizes, limits and answers are.
-/
namespace MinicoreAgent.ReadPages

open Text
open Results

/-- The errors that reading a page can end with. -/
inductive AgentError
  | sessionNotFound
  | store
  | storeUnavailable
  | invalidState
  | queryLimit
  | invalidArguments
  | rpcSerialization
  | internal
  deriving DecidableEq, Repr

/-- `ReadCursor`. -/
structure ReadCursor where
  item : Nat
  offset : Nat
  deriving DecidableEq, Repr

def ReadCursor.start : ReadCursor := { item := 0, offset := 0 }

/-- `ReadItemChunk`; the encoding is always `utf8_json`. -/
structure ReadItemChunk where
  index : Nat
  offset : Nat
  totalBytes : Nat
  data : List Char
  complete : Bool
  deriving DecidableEq, Repr

/-- Where the budget is asked: before and after an item is taken, before each probe
of the search, and around the last size. -/
inductive Checkpoint
  | before (index : Nat)
  | after (index : Nat)
  | probe (low high : Nat)
  | closing
  | closed
  deriving DecidableEq, Repr

/-- What one page is made with: its byte limit, the encoded sizes of a chunk and of
the rest of the page, and the answers of the budget. -/
structure Packing where
  maxBytes : Nat
  encodedLen : ReadItemChunk → Nat
  headerBytes : List ReadItemChunk → Option ReadItemChunk → Option ReadCursor →
    Except AgentError Nat
  withinBudget : Checkpoint → Bool

/-- `check_budget`. -/
def Packing.checkBudget (packing : Packing) (point : Checkpoint) : Except AgentError Unit :=
  if packing.withinBudget point then .ok () else .error .queryLimit

section Functions

/-- `next_position`. -/
def nextPosition (index total : Nat) : Option ReadCursor :=
  if index + 1 < total then some { item := index + 1, offset := 0 } else none

/-- `make_chunk`, with the data already cut. -/
def makeChunk (index offset : Nat) (json data : List Char) : ReadItemChunk :=
  { index := index, offset := offset, totalBytes := byteLen json, data := data,
    complete := decide (offset + byteLen data = byteLen json) }

/-- The escaped size of a byte. -/
def escapedSize (byte : Nat) : Nat :=
  if byte = 34 ∨ byte = 92 ∨ byte = 8 ∨ byte = 9 ∨ byte = 10 ∨ byte = 12 ∨ byte = 13 then 2
  else if byte ≤ 31 then 6
  else 1

/-- The escaped sizes of the bytes of a character. Bytes of a longer character are
not escaped. -/
def charSizes (char : Char) : List Nat :=
  if char.utf8Size = 1 then [escapedSize char.toNat] else List.replicate char.utf8Size 1

/-- `json_prefix_lengths`: the escaped size of every beginning, byte by byte. -/
def jsonPrefixLengths (value : List Char) : List Nat :=
  (value.flatMap charSizes).scanl (· + ·) 0

/-- The loop of `next_boundary`. -/
def boundaryFrom (value : List Char) : Nat → Nat → Nat
  | 0, next => next
  | fuel + 1, next =>
    if next < byteLen value ∧ isBoundary value next = false then boundaryFrom value fuel (next + 1)
    else next

/-- `next_boundary`. -/
def nextBoundary (value : List Char) (offset : Nat) : Nat :=
  if byteLen value ≤ offset then byteLen value
  else boundaryFrom value (byteLen value) (offset + 1)

variable (packing : Packing)

/-- `fitting_chunk_bytes`. -/
def fittingChunkBytes (existing : List ReadItemChunk) (existingBytes : Nat)
    (candidate : ReadItemChunk) (nextCursor : Option ReadCursor) :
    Except AgentError (Option Nat) :=
  let bytes := packing.encodedLen candidate + (if existing.isEmpty then 0 else 1)
  match packing.headerBytes existing (some candidate) nextCursor with
  | .error error => .error error
  | .ok header =>
    .ok (if existingBytes + bytes + header ≤ packing.maxBytes then some bytes else none)

/-- Whether a part of the remaining text fits at the end of the page. The escaped
data is counted from the table. -/
def probeFits (existing : List ReadItemChunk) (existingBytes index offset : Nat)
    (json remaining : List Char) (total : Nat) (lengths : List Nat) (middle : Nat) :
    Except AgentError Bool :=
  let complete := decide (middle = byteLen remaining)
  let nextCursor := if complete then nextPosition index total
    else some { item := index, offset := offset + middle }
  let candidate : ReadItemChunk :=
    { index := index, offset := offset, totalBytes := byteLen json, data := [],
      complete := complete }
  let bytes := packing.encodedLen candidate + lengths.getD middle 0 +
    (if existing.isEmpty then 0 else 1)
  match packing.headerBytes existing (some candidate) nextCursor with
  | .error error => .error error
  | .ok header => .ok (decide (existingBytes + bytes + header ≤ packing.maxBytes))

/-- The offset that is tried between two bounds: the middle, or the next boundary
where no other lies below it. -/
def probeAt (remaining : List Char) (low high : Nat) : Option Nat :=
  let middle := floorBoundary remaining (low + (high - low + 1) / 2)
  if middle = low then
    let next := nextBoundary remaining low
    if high < next then none else some next
  else some middle

/-- The search of `largest_fitting_prefix` between two bounds. -/
def searchPrefix (remaining : List Char) (fits : Nat → Except AgentError Bool) : Nat → Nat → Nat →
    Except AgentError Nat
  | 0, low, _ => .ok low
  | fuel + 1, low, high =>
    if low < high then
      match packing.checkBudget (.probe low high) with
      | .error error => .error error
      | .ok () =>
        match probeAt remaining low high with
        | none => searchPrefix remaining fits fuel low low
        | some middle =>
          match fits middle with
          | .error error => .error error
          | .ok true => searchPrefix remaining fits fuel middle high
          | .ok false => searchPrefix remaining fits fuel low (middle - 1)
    else .ok low

/-- `largest_fitting_prefix`. -/
def largestFittingPrefix (existing : List ReadItemChunk) (existingBytes index offset : Nat)
    (json remaining : List Char) (total : Nat) : Except AgentError Nat :=
  let high := min (byteLen remaining) packing.maxBytes
  let lengths := jsonPrefixLengths (floorPrefix high remaining)
  let high := min high (lengths.length - 1)
  (searchPrefix packing remaining
    (probeFits packing existing existingBytes index offset json remaining total lengths)
    high 0 high).map (floorBoundary remaining)

end Functions

section Packing

variable (packing : Packing) (start : ReadCursor) (total : Nat)

/-- The position behind an item. -/
def positionAfter (index : Nat) : ReadCursor :=
  (nextPosition index total).getD { item := total, offset := 0 }

/-- What the loop of `pack_items` carries: the chunks so far, their bytes, and the
position reached. -/
structure Packed where
  chunks : List ReadItemChunk
  chunkBytes : Nat
  position : ReadCursor

/-- What taking one item leads to. -/
inductive Taken
  | proceed (state : Packed)
  | stop (state : Packed)

/-- A part of an item that does not fit as a whole, at the end of the page. -/
def takePart (state : Packed) (index offset : Nat) (json remaining : List Char) :
    Except AgentError Taken :=
  match largestFittingPrefix packing state.chunks state.chunkBytes index offset json remaining
      total with
  | .error error => .error error
  | .ok length =>
    if length = 0 then
      if state.chunks.isEmpty then .error .invalidArguments else .ok (.stop state)
    else
      match splitAt remaining length with
      | none => .error .internal
      | some (data, _) =>
        let nextCursor := if length = byteLen remaining then nextPosition index total
          else some { item := index, offset := offset + length }
        let chunk := makeChunk index offset json data
        .ok (.stop
          { chunks := state.chunks ++ [chunk]
            chunkBytes := state.chunkBytes + packing.encodedLen chunk +
              (if state.chunks.isEmpty then 0 else 1)
            position := nextCursor.getD { item := total, offset := 0 } })

/-- One item of the loop of `pack_items`. -/
def takeItem (state : Packed) (index : Nat) (json : List Char) : Except AgentError Taken :=
  if index < state.position.item then .ok (.proceed state)
  else
    let offset := if index = start.item then start.offset else 0
    match splitAt json offset with
    | none => .error .invalidArguments
    | some (_, remaining) =>
      if remaining.isEmpty then
        .ok (.proceed { state with position := positionAfter total index })
      else if byteLen remaining ≤ packing.maxBytes then
        let full := makeChunk index offset json remaining
        match fittingChunkBytes packing state.chunks state.chunkBytes full
            (nextPosition index total) with
        | .error error => .error error
        | .ok (some bytes) =>
          .ok (.proceed
            { chunks := state.chunks ++ [full]
              chunkBytes := state.chunkBytes + bytes
              position := positionAfter total index })
        | .ok none => takePart packing total state index offset json remaining
      else takePart packing total state index offset json remaining

/-- The loop of `pack_items`, with the position in the supplied items. -/
def packLoop : Nat → List (Except AgentError (Nat × List Char)) → Packed →
    Except AgentError Packed
  | count, encoded, state =>
    match packing.checkBudget (.before count) with
    | .error error => .error error
    | .ok () =>
      match encoded with
      | [] => .ok state
      | .error error :: _ => .error error
      | .ok (index, json) :: rest =>
        match packing.checkBudget (.after count) with
        | .error error => .error error
        | .ok () =>
          match takeItem packing start total state index json with
          | .error error => .error error
          | .ok (.stop state) => .ok state
          | .ok (.proceed state) => packLoop (count + 1) rest state

/-- `pack_items`. -/
def packItems (encoded : List (Except AgentError (Nat × List Char))) :
    Except AgentError (List ReadItemChunk × Option ReadCursor) :=
  match packLoop packing start total 0 encoded { chunks := [], chunkBytes := 0, position := start }
  with
  | .error error => .error error
  | .ok state =>
    let nextCursor := if state.position.item < total then some state.position else none
    match packing.checkBudget .closing with
    | .error error => .error error
    | .ok () =>
      match packing.headerBytes state.chunks none nextCursor with
      | .error error => .error error
      | .ok header =>
        match packing.checkBudget .closed with
        | .error error => .error error
        | .ok () =>
          if packing.maxBytes < state.chunkBytes + header then .error .invalidArguments
          else .ok (state.chunks, nextCursor)

end Packing

section Pages

/-- The items from a position on, at most as many as the limit, each with its index. -/
def encodedFrom (items : List (List Char)) (start limit : Nat) :
    List (Except AgentError (Nat × List Char)) :=
  ((items.drop start).take limit).mapIdx (fun offset json => .ok (start + offset, json))

/-- One page of the items from a cursor on. -/
def itemPage (items : List (List Char)) (cursor : ReadCursor) (limit : Nat) (packing : Packing) :
    Except AgentError (List ReadItemChunk × Option ReadCursor) :=
  packItems packing cursor items.length (encodedFrom items cursor.item limit)

/-- Pages read one after the other, each from the cursor the last one gave. Limits
and sizes may change from page to page. -/
inductive Walk (items : List (List Char)) : Option ReadCursor → Nat → List ReadItemChunk →
    Option ReadCursor → Prop
  | rest (cursor : Option ReadCursor) : Walk items cursor 0 [] cursor
  | page {cursor : ReadCursor} {next last : Option ReadCursor} {chunks later : List ReadItemChunk}
      {count limit : Nat} {packing : Packing} (positive : 1 ≤ limit)
      (turned : itemPage items cursor limit packing = .ok (chunks, next))
      (walked : Walk items next count later last) :
      Walk items (some cursor) (count + 1) (chunks ++ later) last

end Pages

section Search

variable {packing : Packing} {remaining : List Char} {fits : Nat → Except AgentError Bool}

theorem boundary_from_spec (value : List Char) (fuel next : Nat)
    (inside : next ≤ byteLen value) (enough : byteLen value - next ≤ fuel) :
    next ≤ boundaryFrom value fuel next ∧ isBoundary value (boundaryFrom value fuel next) = true := by
  induction fuel generalizing next with
  | zero =>
    have last : next = byteLen value := by omega
    rw [boundaryFrom, last]
    exact ⟨Nat.le_refl _, boundary_length⟩
  | succ fuel inductionHypothesis =>
    unfold boundaryFrom
    split_ifs with between
    · obtain ⟨later, boundary⟩ := inductionHypothesis (next + 1) (by omega) (by omega)
      exact ⟨by omega, boundary⟩
    · refine ⟨Nat.le_refl _, ?_⟩
      rcases Nat.lt_or_eq_of_le inside with before | last
      · rw [← Bool.not_eq_false]
        exact fun wrong => between ⟨before, wrong⟩
      · rw [last]
        exact boundary_length

/-- The next boundary lies behind an offset inside the text. -/
theorem next_boundary_spec {value : List Char} {offset : Nat} (inside : offset < byteLen value) :
    offset < nextBoundary value offset ∧ isBoundary value (nextBoundary value offset) = true := by
  unfold nextBoundary
  rw [if_neg (by omega)]
  exact boundary_from_spec value (byteLen value) (offset + 1) inside (by omega)

/-- The offset that is tried lies behind the lower bound and between two characters. -/
theorem probe_spec {low high middle : Nat} (order : low < high)
    (inside : high ≤ byteLen remaining) (boundary : isBoundary remaining low = true)
    (probe : probeAt remaining low high = some middle) :
    low < middle ∧ middle ≤ high ∧ isBoundary remaining middle = true := by
  have below := floor_boundary_le remaining (low + (high - low + 1) / 2)
  have above : low ≤ floorBoundary remaining (low + (high - low + 1) / 2) := by
    rw [← floor_of_boundary boundary]
    apply floor_boundary_mono
    rw [floor_of_boundary boundary]
    exact Nat.le_add_right _ _
  unfold probeAt at probe
  dsimp only at probe
  split_ifs at probe with same beyond
  · cases probe
    obtain ⟨later, next⟩ := next_boundary_spec (Nat.lt_of_lt_of_le order inside)
    exact ⟨later, by omega, next⟩
  · cases probe
    exact ⟨by omega, by omega, floor_is_boundary _ _⟩

/-- The search ends at a boundary within its bounds. -/
theorem search_prefix_spec (fuel low high : Nat) (order : low ≤ high)
    (inside : high ≤ byteLen remaining) (boundary : isBoundary remaining low = true) {length : Nat}
    (found : searchPrefix packing remaining fits fuel low high = .ok length) :
    length ≤ high ∧ isBoundary remaining length = true := by
  induction fuel generalizing low high with
  | zero =>
    cases found
    exact ⟨order, boundary⟩
  | succ fuel inductionHypothesis =>
    unfold searchPrefix at found
    split_ifs at found with more
    · split at found
      · cases found
      · split at found
        · obtain ⟨short, ends⟩ :=
            inductionHypothesis low low (Nat.le_refl _) (by omega) boundary found
          exact ⟨by omega, ends⟩
        · rename_i probe
          obtain ⟨above, below, middle⟩ := probe_spec more inside boundary probe
          split at found
          · cases found
          · exact inductionHypothesis _ high below inside middle found
          · obtain ⟨short, ends⟩ :=
              inductionHypothesis low _ (by omega) (by omega) boundary found
            exact ⟨by omega, ends⟩
    · cases found
      exact ⟨order, boundary⟩

/-- The bounds approach each other in every round, so as many rounds as bytes
between them suffice. -/
theorem search_prefix_enough (fuel more low high : Nat) (enough : high - low ≤ fuel)
    (inside : high ≤ byteLen remaining) (boundary : isBoundary remaining low = true) :
    searchPrefix packing remaining fits (fuel + more) low high =
      searchPrefix packing remaining fits fuel low high := by
  induction fuel generalizing low high with
  | zero =>
    have done : ¬ low < high := by omega
    rw [Nat.zero_add]
    cases more with
    | zero => rfl
    | succ more =>
      rw [searchPrefix, searchPrefix, if_neg done]
  | succ fuel inductionHypothesis =>
    rw [Nat.succ_add_eq_add_succ]
    rw [show fuel + more.succ = (fuel + more) + 1 by omega]
    unfold searchPrefix
    split_ifs with active
    · cases packing.checkBudget (.probe low high) with
      | error error => rfl
      | ok _ =>
        dsimp only
        split
        · exact inductionHypothesis low low (by omega) (by omega) boundary
        · rename_i probe
          obtain ⟨above, below, middle⟩ := probe_spec active inside boundary probe
          split
          · rfl
          · exact inductionHypothesis _ high (by omega) inside middle
          · exact inductionHypothesis low _ (by omega) (by omega) boundary
    · rfl

/-- The largest fitting part ends between two characters. -/
theorem largest_fitting_boundary {existing : List ReadItemChunk}
    {existingBytes index offset total length : Nat} {json : List Char}
    (found : largestFittingPrefix packing existing existingBytes index offset json remaining
      total = .ok length) : isBoundary remaining length = true := by
  obtain ⟨low, _, rfl⟩ := map_ok.mp found
  exact floor_is_boundary _ _

end Search

section Reading

/-- One cursor lies behind another. -/
def Advanced (first second : ReadCursor) : Prop :=
  first.item < second.item ∨ (first.item = second.item ∧ first.offset < second.offset)

/-- The chunks are the text between two cursors: whole items, and parts where an
item is cut. An item of which nothing is left has no chunk. -/
inductive Reads (items : List (List Char)) : ReadCursor → List ReadItemChunk → ReadCursor → Prop
  | nil (cursor : ReadCursor) : Reads items cursor [] cursor
  | spent {cursor last : ReadCursor} {json : List Char} {chunks : List ReadItemChunk}
      (here : items[cursor.item]? = some json) (length : byteLen json = cursor.offset)
      (later : Reads items { item := cursor.item + 1, offset := 0 } chunks last) :
      Reads items cursor chunks last
  | whole {cursor last : ReadCursor} {json before data : List Char} {chunks : List ReadItemChunk}
      (here : items[cursor.item]? = some json) (shape : json = before ++ data)
      (length : byteLen before = cursor.offset) (nonempty : data ≠ [])
      (later : Reads items { item := cursor.item + 1, offset := 0 } chunks last) :
      Reads items cursor (makeChunk cursor.item cursor.offset json data :: chunks) last
  | part {cursor last : ReadCursor} {json before data after : List Char}
      {chunks : List ReadItemChunk} (here : items[cursor.item]? = some json)
      (shape : json = before ++ data ++ after) (length : byteLen before = cursor.offset)
      (nonempty : data ≠ []) (more : after ≠ [])
      (later : Reads items { item := cursor.item, offset := cursor.offset + byteLen data } chunks
        last) :
      Reads items cursor (makeChunk cursor.item cursor.offset json data :: chunks) last

variable {items : List (List Char)} {cursor middle last : ReadCursor}
  {chunks more : List ReadItemChunk}

theorem Reads.trans (first : Reads items cursor chunks middle)
    (second : Reads items middle more last) : Reads items cursor (chunks ++ more) last := by
  induction first with
  | nil => exact second
  | spent here length _ inductionHypothesis =>
    exact .spent here length (inductionHypothesis second)
  | whole here shape length nonempty _ inductionHypothesis =>
    exact .whole here shape length nonempty (inductionHypothesis second)
  | part here shape length nonempty rest _ inductionHypothesis =>
    exact .part here shape length nonempty rest (inductionHypothesis second)

theorem byte_len_pos {text : List Char} (nonempty : text ≠ []) : 0 < byteLen text := by
  cases text with
  | nil => exact absurd rfl nonempty
  | cons char rest =>
    rw [byte_len_cons]
    exact Nat.add_pos_left char.utf8Size_pos _

/-- Reading stays in place or advances. -/
theorem Reads.advanced (reads : Reads items cursor chunks last) :
    (chunks = [] ∧ last = cursor) ∨ Advanced cursor last := by
  induction reads with
  | nil => exact .inl ⟨rfl, rfl⟩
  | spent here length _ inductionHypothesis =>
    rcases inductionHypothesis with ⟨_, rfl⟩ | later
    · exact .inr (.inl (Nat.lt_succ_self _))
    · exact .inr (.inl (by unfold Advanced at later; dsimp only at later; omega))
  | whole here shape length nonempty _ inductionHypothesis =>
    rcases inductionHypothesis with ⟨_, rfl⟩ | later
    · exact .inr (.inl (Nat.lt_succ_self _))
    · exact .inr (.inl (by unfold Advanced at later; dsimp only at later; omega))
  | part here shape length nonempty rest _ inductionHypothesis =>
    have positive := byte_len_pos nonempty
    rcases inductionHypothesis with ⟨_, rfl⟩ | later
    · exact .inr (.inr ⟨rfl, by dsimp only; omega⟩)
    · unfold Advanced at later ⊢
      dsimp only at later
      exact .inr (by omega)

/-- Reading ends inside the items or behind the last one. -/
theorem Reads.inside (reads : Reads items cursor chunks last) :
    last = cursor ∨ last.item < items.length ∨
      last = { item := items.length, offset := 0 } := by
  have next {item : Nat} {json : List Char} (here : items[item]? = some json)
      (reached : last = { item := item + 1, offset := 0 } ∨ last.item < items.length ∨
        last = { item := items.length, offset := 0 }) :
      last.item < items.length ∨ last = { item := items.length, offset := 0 } := by
    have bound := (List.getElem?_eq_some_iff.mp here).1
    rcases reached with rfl | reached
    · rcases Nat.lt_or_eq_of_le (Nat.succ_le_of_lt bound) with before | behind
      · exact .inl before
      · exact .inr (by rw [← behind])
    · exact reached
  induction reads with
  | nil => exact .inl rfl
  | spent here length _ inductionHypothesis => exact .inr (next here (inductionHypothesis next))
  | whole here shape length nonempty _ inductionHypothesis =>
    exact .inr (next here (inductionHypothesis next))
  | part here shape length nonempty rest _ inductionHypothesis =>
    rcases inductionHypothesis next with rfl | reached
    · exact .inr (.inl (List.getElem?_eq_some_iff.mp here).1)
    · exact .inr reached

end Reading

section Taking

variable {packing : Packing} {start : ReadCursor} {items : List (List Char)} {state : Packed}
  {index : Nat} {json : List Char}

theorem position_after_inside {total : Nat} (inside : index < total) :
    positionAfter total index = { item := index + 1, offset := 0 } := by
  unfold positionAfter nextPosition
  split_ifs with more
  · rfl
  · have last : total = index + 1 := by omega
    rw [last]
    rfl

/-- A part at the end of a page continues the reading, unless the page ends before
it. An empty page is refused. -/
theorem take_part_spec {offset : Nat} {before remaining : List Char} {taken : Taken}
    (read : Reads items start state.chunks { item := index, offset := offset })
    (reached : state.position = { item := index, offset := offset })
    (here : items[index]? = some json) (shape : json = before ++ remaining)
    (length : byteLen before = offset) (left : remaining ≠ [])
    (done : takePart packing items.length state index offset json remaining = .ok taken) :
    ∃ after, taken = .stop after ∧ Reads items start after.chunks after.position ∧
      after.chunks ≠ [] := by
  have inside := (List.getElem?_eq_some_iff.mp here).1
  unfold takePart at done
  split at done
  · cases done
  · rename_i size found
    by_cases nothing : size = 0
    · rw [if_pos nothing] at done
      split_ifs at done with empty
      cases done
      refine ⟨state, rfl, ?_, by simpa using empty⟩
      rw [reached]
      exact read
    · rw [if_neg nothing] at done
      split at done
      · cases done
      · rename_i data rest cut
        obtain ⟨whole, bytes⟩ := split_at_iff.mp cut
        have nonempty : data ≠ [] := by
          rintro rfl
          exact nothing bytes.symm
        cases done
        refine ⟨_, rfl, ?_, by simp⟩
        dsimp only
        by_cases last : size = byteLen remaining
        · -- The part is all that is left.
          have none : rest = [] := by
            by_contra more
            have positive := byte_len_pos more
            rw [whole, byte_len_append] at last
            omega
          rw [none, List.append_nil] at whole
          subst whole
          have next : (nextPosition index items.length).getD { item := items.length, offset := 0 } =
              { item := index + 1, offset := 0 } := position_after_inside inside
          rw [if_pos last, next]
          exact read.trans (.whole here shape length left (.nil _))
        · have more : rest ≠ [] := by
            rintro rfl
            rw [List.append_nil] at whole
            subst whole
            exact last bytes.symm
          rw [whole, ← List.append_assoc] at shape
          rw [if_neg last, Option.getD_some, ← bytes]
          exact read.trans (.part here shape length nonempty more (.nil _))

/-- Taking the item at the position continues the reading behind it, or ends the page
with something on it. -/
theorem take_item_spec {taken : Taken} (read : Reads items start state.chunks state.position)
    (reached : state.position.item = index)
    (offset : state.position.offset = if index = start.item then start.offset else 0)
    (here : items[index]? = some json)
    (done : takeItem packing start items.length state index json = .ok taken) :
    (∃ after, taken = .proceed after ∧ Reads items start after.chunks after.position ∧
      after.position = { item := index + 1, offset := 0 }) ∨
    (∃ after, taken = .stop after ∧ Reads items start after.chunks after.position ∧
      after.chunks ≠ []) := by
  have inside := (List.getElem?_eq_some_iff.mp here).1
  have position : state.position =
      { item := index, offset := if index = start.item then start.offset else 0 } := by
    rw [← offset, ← reached]
  rw [position] at read
  unfold takeItem at done
  rw [if_neg (by omega)] at done
  dsimp only at done
  generalize (if index = start.item then start.offset else 0) = first at read position done
  split at done
  · cases done
  · rename_i before remaining cut
    obtain ⟨shape, length⟩ := split_at_iff.mp cut
    split_ifs at done with empty small
    · cases done
      rw [List.isEmpty_iff] at empty
      rw [empty, List.append_nil] at shape
      subst shape
      refine .inl ⟨_, rfl, ?_, position_after_inside inside⟩
      dsimp only
      rw [position_after_inside inside]
      have joined := read.trans (.spent here length (.nil _))
      rwa [List.append_nil] at joined
    · rw [List.isEmpty_iff] at empty
      split at done
      · cases done
      · cases done
        refine .inl ⟨_, rfl, ?_, position_after_inside inside⟩
        dsimp only
        rw [position_after_inside inside]
        exact read.trans (.whole here shape length empty (.nil _))
      · exact .inr (take_part_spec read position here shape length empty done)
    · rw [List.isEmpty_iff] at empty
      exact .inr (take_part_spec read position here shape length empty done)

/-- The loop over the items from the position on. -/
theorem pack_loop_spec (count : Nat) {supplied : List (List Char)} {after : Packed}
    (read : Reads items start state.chunks state.position)
    (offset : state.position.offset =
      if state.position.item = start.item then start.offset else 0)
    (order : start.item ≤ state.position.item)
    (rest : ∃ limit, supplied = (items.drop state.position.item).take limit)
    (done : packLoop packing start items.length count
      (supplied.mapIdx (fun place json => .ok (state.position.item + place, json))) state =
        .ok after) :
    Reads items start after.chunks after.position ∧
      (supplied = [] → after = state) ∧
      (supplied ≠ [] → after.chunks ≠ [] ∨ start.item < after.position.item) := by
  induction supplied generalizing count state with
  | nil =>
    unfold packLoop at done
    split at done
    · cases done
    · cases done
      exact ⟨read, fun _ => rfl, fun some => absurd rfl some⟩
  | cons json supplied inductionHypothesis =>
    obtain ⟨here, tail⟩ : items[state.position.item]? = some json ∧
        ∃ limit, supplied = (items.drop (state.position.item + 1)).take limit := by
      obtain ⟨limit, shape⟩ := rest
      cases limit with
      | zero => cases shape
      | succ limit =>
        have inside : state.position.item < items.length := by
          by_contra outside
          rw [List.drop_eq_nil_of_le (by omega)] at shape
          cases shape
        rw [List.drop_eq_getElem_cons inside, List.take_succ_cons] at shape
        obtain ⟨rfl, rest⟩ := List.cons.inj shape
        exact ⟨List.getElem?_eq_getElem inside, limit, rest⟩
    rw [List.mapIdx_cons] at done
    unfold packLoop at done
    dsimp only at done
    split at done
    · cases done
    · split at done
      · cases done
      · split at done
        · cases done
        · rename_i taken
          rcases take_item_spec read rfl offset here taken with
            ⟨_, wrong, _⟩ | ⟨ended, same, reads, shown⟩
          · cases wrong
          · cases same
            cases done
            exact ⟨reads, fun none => (List.cons_ne_nil _ _ none).elim, fun _ => .inl shown⟩
        · rename_i next taken
          rcases take_item_spec read rfl offset here taken with
            ⟨_, same, reads, behind⟩ | ⟨_, wrong, _⟩
          · cases same
            have item : next.position.item = state.position.item + 1 := by rw [behind]
            have shifted : supplied.mapIdx (fun place json =>
                (Except.ok (state.position.item + (place + 1), json) :
                  Except AgentError (Nat × List Char))) =
                supplied.mapIdx (fun place json => .ok (next.position.item + place, json)) := by
              apply List.mapIdx_eq_mapIdx_iff.mpr
              intro place _
              rw [item]
              congr 2
              omega
            rw [shifted] at done
            rw [← item] at tail
            obtain ⟨reads', none, more⟩ := inductionHypothesis (count + 1) reads
              (by rw [behind, if_neg (by dsimp only; omega)]) (by omega) tail done
            refine ⟨reads', fun none => (List.cons_ne_nil _ _ none).elim, fun _ => ?_⟩
            by_cases last : supplied = []
            · rw [none last]
              exact .inr (by omega)
            · exact more last
          · cases wrong

end Taking

section Walking

variable {items : List (List Char)} {cursor last : ReadCursor} {chunks : List ReadItemChunk}

/-- A cursor at an item, or behind the last one. -/
def Within (items : List (List Char)) (cursor : ReadCursor) : Prop :=
  cursor.item < items.length ∨ cursor = { item := items.length, offset := 0 }

/-- The checks after the loop only refuse the page. -/
theorem pack_items_ok {packing : Packing} {total : Nat} {next : Option ReadCursor}
    {encoded : List (Except AgentError (Nat × List Char))}
    (packed : packItems packing cursor total encoded = .ok (chunks, next)) :
    ∃ state, packLoop packing cursor total 0 encoded
        { chunks := [], chunkBytes := 0, position := cursor } = .ok state ∧
      state.chunks = chunks ∧
      (if state.position.item < total then some state.position else none) = next := by
  unfold packItems at packed
  split at packed
  · cases packed
  · rename_i state looped
    refine ⟨state, looped, ?_⟩
    dsimp only at packed
    generalize (if state.position.item < total then some state.position else none) = cursor
      at packed ⊢
    split at packed
    · cases packed
    · split at packed
      · cases packed
      · split at packed
        · cases packed
        · split_ifs at packed
          cases packed
          exact ⟨rfl, rfl⟩

/-- A successful page reads on from its cursor. If it gives a next cursor, that one
lies behind; if it gives none, everything has been read. -/
theorem item_page_spec {limit : Nat} {packing : Packing} {next : Option ReadCursor}
    (inside : Within items cursor) (positive : 1 ≤ limit)
    (turned : itemPage items cursor limit packing = .ok (chunks, next)) :
    ∃ last, Reads items cursor chunks last ∧
      ((next = some last ∧ last.item < items.length ∧ Advanced cursor last) ∨
        (next = none ∧ last = { item := items.length, offset := 0 })) := by
  obtain ⟨state, looped, rfl, rfl⟩ := pack_items_ok turned
  let first : Packed := { chunks := [], chunkBytes := 0, position := cursor }
  have begins : Reads items cursor first.chunks first.position := .nil cursor
  have offset : first.position.offset =
      if first.position.item = cursor.item then cursor.offset else 0 := (if_pos rfl).symm
  obtain ⟨reads, _, more⟩ :=
    pack_loop_spec 0 begins offset (Nat.le_refl _) ⟨limit, rfl⟩ looped
  refine ⟨state.position, reads, ?_⟩
  split_ifs with unread
  · refine .inl ⟨rfl, unread, ?_⟩
    rcases reads.advanced with ⟨empty, same⟩ | advanced
    · -- An item was supplied, so the page did not stay in place.
      rw [same] at unread
      have supplied : (items.drop cursor.item).take limit ≠ [] := by
        rw [List.drop_eq_getElem_cons unread, ← Nat.sub_add_cancel positive, List.take_succ_cons]
        exact List.cons_ne_nil _ _
      rcases more supplied with shown | behind
      · exact absurd empty shown
      · rw [same] at behind
        exact absurd behind (Nat.lt_irrefl _)
    · exact advanced
  · refine .inr ⟨rfl, ?_⟩
    rcases reads.inside with same | before | last
    · rw [same] at unread ⊢
      exact inside.resolve_left unread
    · exact absurd before unread
    · exact last

/-- The bytes that are left to read, and one for each item that is left. -/
def weight (items : List (List Char)) (cursor : ReadCursor) : Nat :=
  ((items.drop cursor.item).map (fun json => byteLen json + 1)).sum - cursor.offset

theorem weight_item {json : List Char} (here : items[cursor.item]? = some json) :
    weight items cursor =
      byteLen json + 1 + weight items { item := cursor.item + 1, offset := 0 } - cursor.offset := by
  obtain ⟨inside, rfl⟩ := List.getElem?_eq_some_iff.mp here
  unfold weight
  rw [List.drop_eq_getElem_cons inside, List.map_cons, List.sum_cons]
  rfl

/-- What is read is no longer left. -/
theorem Reads.weight_lt (reads : Reads items cursor chunks last) :
    last = cursor ∨ weight items last < weight items cursor := by
  induction reads with
  | nil => exact .inl rfl
  | spent here length _ inductionHypothesis =>
    rw [weight_item here]
    rcases inductionHypothesis with rfl | later
    · exact .inr (by omega)
    · exact .inr (by omega)
  | @whole cursor last json before data chunks here shape length nonempty _ inductionHypothesis =>
    have bytes : byteLen json = cursor.offset + byteLen data := by
      rw [shape, byte_len_append, length]
    rw [weight_item here]
    rcases inductionHypothesis with rfl | later
    · exact .inr (by omega)
    · exact .inr (by omega)
  | @part cursor last json before data after chunks here shape length nonempty rest _
      inductionHypothesis =>
    have positive := byte_len_pos nonempty
    have bytes : byteLen json = cursor.offset + byteLen data + byteLen after := by
      rw [shape, byte_len_append, byte_len_append, length]
    have next : weight items { item := cursor.item, offset := cursor.offset + byteLen data } <
        weight items cursor := by
      rw [weight_item here]
      unfold weight
      dsimp only
      obtain ⟨inside, same⟩ := List.getElem?_eq_some_iff.mp here
      rw [List.drop_eq_getElem_cons inside, List.map_cons, List.sum_cons, same]
      omega
    rcases inductionHypothesis with rfl | later
    · exact .inr next
    · exact .inr (Nat.lt_trans later next)

/-- A walk reads on from its cursor, to the end if it gets there, and has no more
pages than there is left to read. -/
theorem walk_spec {count : Nat} {begin finish : Option ReadCursor}
    (walk : Walk items begin count chunks finish) (start : begin = some cursor)
    (inside : Within items cursor) :
    count ≤ weight items cursor + 1 ∧
      ∃ last, Reads items cursor chunks last ∧
        (finish = none → last = { item := items.length, offset := 0 }) := by
  induction walk generalizing cursor with
  | rest begin =>
    subst start
    exact ⟨Nat.zero_le _, cursor, .nil cursor, fun wrong => absurd wrong (by simp)⟩
  | @page cursor' next finish chunks later count limit packing positive turned walked
      inductionHypothesis =>
    cases start
    obtain ⟨last, reads, ⟨rfl, unread, advanced⟩ | ⟨rfl, rfl⟩⟩ :=
      item_page_spec inside positive turned
    · obtain ⟨pages, final, rest, ends⟩ := inductionHypothesis rfl (.inl unread)
      refine ⟨?_, final, reads.trans rest, ends⟩
      rcases reads.weight_lt with rfl | lighter
      · rcases advanced with item | ⟨_, offset⟩
        · exact absurd item (Nat.lt_irrefl _)
        · exact absurd offset (Nat.lt_irrefl _)
      · omega
    · cases walked
      exact ⟨by omega, _, by rwa [List.append_nil], fun _ => rfl⟩

end Walking

section Reassembly

/-- The data of the chunks of one item, joined. -/
def dataOf (chunks : List ReadItemChunk) (index : Nat) : List Char :=
  (chunks.filter (fun chunk => chunk.index = index)).flatMap ReadItemChunk.data

variable {items : List (List Char)} {cursor last : ReadCursor} {chunks : List ReadItemChunk}

theorem data_of_cons (chunk : ReadItemChunk) (chunks : List ReadItemChunk) (index : Nat) :
    dataOf (chunk :: chunks) index =
      (if chunk.index = index then chunk.data else []) ++ dataOf chunks index := by
  unfold dataOf
  by_cases same : chunk.index = index
  · rw [List.filter_cons_of_pos (by simpa using same), List.flatMap_cons, if_pos same]
  · rw [List.filter_cons_of_neg (by simpa using same), if_neg same, List.nil_append]

/-- What reading to the end has shown of an item. -/
structure Shown (cursor : ReadCursor) (chunks : List ReadItemChunk) (index : Nat)
    (json : List Char) : Prop where
  before : index < cursor.item → dataOf chunks index = []
  here : index = cursor.item →
    ∃ past, json = past ++ dataOf chunks index ∧ byteLen past = cursor.offset
  after : cursor.item < index → dataOf chunks index = json

/-- From the item behind on everything is shown, so from this one on it is. -/
theorem Shown.next {index : Nat} {json : List Char}
    (shown : Shown { item := cursor.item + 1, offset := 0 } chunks index json)
    (behind : cursor.item < index) : dataOf chunks index = json := by
  rcases Nat.lt_or_eq_of_le behind with later | adjacent
  · exact shown.after later
  · obtain ⟨past, whole, length⟩ := shown.here adjacent.symm
    cases past with
    | nil => exact whole.symm
    | cons char rest =>
      have positive := byte_len_pos (List.cons_ne_nil char rest)
      dsimp only at length
      omega

/-- From the start, the whole text is shown. -/
theorem Shown.from_start {index : Nat} {json : List Char}
    (shown : Shown ReadCursor.start chunks index json) : dataOf chunks index = json := by
  rcases Nat.eq_zero_or_pos index with rfl | later
  · obtain ⟨past, whole, length⟩ := shown.here rfl
    cases past with
    | nil => exact whole.symm
    | cons char rest =>
      have positive := byte_len_pos (List.cons_ne_nil char rest)
      rw [length] at positive
      cases positive
  · exact shown.after later

theorem Reads.shown (reads : Reads items cursor chunks last)
    (ends : last = { item := items.length, offset := 0 }) {index : Nat} {json : List Char}
    (item : items[index]? = some json) : Shown cursor chunks index json := by
  have bound := (List.getElem?_eq_some_iff.mp item).1
  induction reads with
  | nil =>
    subst ends
    exact ⟨fun _ => rfl, fun same => absurd bound (by dsimp only at same; omega),
      fun later => absurd bound (by dsimp only at later; omega)⟩
  | @spent cursor last text chunks here length _ inductionHypothesis =>
    have shown := inductionHypothesis ends
    refine ⟨fun early => shown.before (Nat.lt_succ_of_lt early), ?_, shown.next⟩
    rintro rfl
    rw [item] at here
    cases here
    refine ⟨json, ?_, length⟩
    rw [shown.before (Nat.lt_succ_self _), List.append_nil]
  | @whole cursor last text past data chunks here shape length nonempty _ inductionHypothesis =>
    have shown := inductionHypothesis ends
    refine ⟨?_, ?_, ?_⟩
    · intro early
      have other : cursor.item ≠ index := by omega
      rw [data_of_cons, shown.before (Nat.lt_succ_of_lt early)]
      simp [makeChunk, other]
    · rintro rfl
      rw [item] at here
      cases here
      refine ⟨past, ?_, length⟩
      rw [data_of_cons, shown.before (Nat.lt_succ_self _)]
      simpa [makeChunk] using shape
    · intro behind
      have other : cursor.item ≠ index := by omega
      rw [data_of_cons, shown.next behind]
      simp [makeChunk, other]
  | @part cursor last text past data rest chunks here shape length nonempty more _
      inductionHypothesis =>
    have shown := inductionHypothesis ends
    refine ⟨?_, ?_, ?_⟩
    · intro early
      have other : cursor.item ≠ index := by omega
      rw [data_of_cons, shown.before early]
      simp [makeChunk, other]
    · rintro rfl
      rw [item] at here
      cases here
      obtain ⟨front, whole, bytes⟩ := shown.here rfl
      -- The text splits at the cut in one way only.
      obtain ⟨rfl, same⟩ := split_unique (whole.symm.trans shape)
        (by rw [bytes, byte_len_append, length])
      refine ⟨past, ?_, length⟩
      rw [data_of_cons, same]
      simpa [makeChunk] using shape
    · intro behind
      have other : cursor.item ≠ index := by omega
      rw [data_of_cons, shown.after behind]
      simp [makeChunk, other]

/-- A chunk is the part of its item that its offset says. -/
def IsPart (items : List (List Char)) (chunk : ReadItemChunk) : Prop :=
  ∃ json past rest, items[chunk.index]? = some json ∧ json = past ++ chunk.data ++ rest ∧
    byteLen past = chunk.offset ∧ chunk.totalBytes = byteLen json ∧
    (chunk.complete = true ↔ rest = [])

/-- The place of a chunk. -/
def placeOf (chunk : ReadItemChunk) : ReadCursor :=
  { item := chunk.index, offset := chunk.offset }

theorem make_chunk_part {json past data rest : List Char}
    (here : items[cursor.item]? = some json) (shape : json = past ++ data ++ rest)
    (length : byteLen past = cursor.offset) :
    IsPart items (makeChunk cursor.item cursor.offset json data) := by
  refine ⟨json, past, rest, here, shape, length, rfl, ?_⟩
  unfold makeChunk
  rw [decide_eq_true_eq, shape, byte_len_append, byte_len_append, length]
  constructor
  · intro whole
    by_contra more
    have positive := byte_len_pos more
    omega
  · rintro rfl
    rfl

theorem Advanced.of_next {next place : ReadCursor} (first : Advanced cursor next)
    (second : place = next ∨ Advanced next place) : Advanced cursor place := by
  rcases second with rfl | second
  · exact first
  · unfold Advanced at first second ⊢
    omega

theorem advanced_item (cursor : ReadCursor) :
    Advanced cursor { item := cursor.item + 1, offset := 0 } :=
  .inl (Nat.lt_succ_self _)

theorem advanced_part (cursor : ReadCursor) {data : List Char} (nonempty : data ≠ []) :
    Advanced cursor { item := cursor.item, offset := cursor.offset + byteLen data } :=
  .inr ⟨rfl, Nat.lt_add_of_pos_right (byte_len_pos nonempty)⟩

/-- The chunks are parts of their items, and none begins before the cursor. -/
theorem Reads.parts (reads : Reads items cursor chunks last) {chunk : ReadItemChunk}
    (member : chunk ∈ chunks) :
    IsPart items chunk ∧ (placeOf chunk = cursor ∨ Advanced cursor (placeOf chunk)) := by
  induction reads with
  | nil => cases member
  | spent here length _ inductionHypothesis =>
    obtain ⟨part, place⟩ := inductionHypothesis member
    exact ⟨part, .inr ((advanced_item _).of_next place)⟩
  | whole here shape length nonempty _ inductionHypothesis =>
    rcases List.mem_cons.mp member with rfl | later
    · rw [← List.append_nil (_ ++ _)] at shape
      exact ⟨make_chunk_part here shape length, .inl rfl⟩
    · obtain ⟨part, place⟩ := inductionHypothesis later
      exact ⟨part, .inr ((advanced_item _).of_next place)⟩
  | part here shape length nonempty more _ inductionHypothesis =>
    rcases List.mem_cons.mp member with rfl | later
    · exact ⟨make_chunk_part here shape length, .inl rfl⟩
    · obtain ⟨part, place⟩ := inductionHypothesis later
      exact ⟨part, .inr ((advanced_part _ nonempty).of_next place)⟩

/-- The chunks stand in the order of their places. -/
theorem Reads.ordered (reads : Reads items cursor chunks last) :
    chunks.Pairwise (fun first second => Advanced (placeOf first) (placeOf second)) := by
  induction reads with
  | nil => exact .nil
  | spent here length _ inductionHypothesis => exact inductionHypothesis
  | whole here shape length nonempty later inductionHypothesis =>
    refine .cons (fun chunk member => ?_) inductionHypothesis
    exact (advanced_item _).of_next (later.parts member).2
  | part here shape length nonempty more later inductionHypothesis =>
    refine .cons (fun chunk member => ?_) inductionHypothesis
    exact (advanced_part _ nonempty).of_next (later.parts member).2

/-- Pages reassemble. From any cursor at the items, a successful page that gives a
next cursor gives one that lies behind, and a walk has no more pages than there are
bytes and items left. The chunks of a walk are parts of their items, in order and
without overlap; once the walk has reached the end, those of each item join to its
text: from the start the whole text, from a later cursor what lies behind it. -/
theorem pages_reassemble (items : List (List Char)) (cursor : ReadCursor)
    (inside : Within items cursor) :
    (∀ limit packing chunks next, 1 ≤ limit →
      itemPage items cursor limit packing = .ok (chunks, some next) → Advanced cursor next) ∧
    ∀ count chunks finish, Walk items (some cursor) count chunks finish →
      count ≤ weight items cursor + 1 ∧
      (∀ chunk ∈ chunks, IsPart items chunk) ∧
      chunks.Pairwise (fun first second => Advanced (placeOf first) (placeOf second)) ∧
      (finish = none → ∀ index json, items[index]? = some json →
        Shown cursor chunks index json ∧
          (cursor = ReadCursor.start → dataOf chunks index = json)) := by
  constructor
  · intro limit packing chunks next positive turned
    obtain ⟨last, _, ⟨same, _, advanced⟩ | ⟨wrong, _⟩⟩ := item_page_spec inside positive turned
    · cases same
      exact advanced
    · cases wrong
  · intro count chunks finish walk
    obtain ⟨pages, last, reads, ends⟩ := walk_spec walk rfl inside
    refine ⟨pages, fun chunk member => (reads.parts member).1, reads.ordered, ?_⟩
    intro done index json item
    have shown := reads.shown (ends done) item
    refine ⟨shown, ?_⟩
    rintro rfl
    exact shown.from_start

/-- Pages of at most two bytes and a letter for each chunk. -/
def samplePacking : Packing where
  maxBytes := 4
  encodedLen := fun chunk => 1 + byteLen chunk.data
  headerBytes := fun _ _ _ => .ok 0
  withinBudget := fun _ => true

/-- An item longer than a page is split between characters and joined again. -/
theorem sample_pages_join :
    ∃ chunks, Walk [['a', 'é', 'b', 'c'], ['d']] (some ReadCursor.start) 2 chunks none ∧
      dataOf chunks 0 = ['a', 'é', 'b', 'c'] ∧ dataOf chunks 1 = ['d'] := by
  have first : itemPage [['a', 'é', 'b', 'c'], ['d']] ReadCursor.start 2 samplePacking =
      .ok ([{ index := 0, offset := 0, totalBytes := 5, data := ['a', 'é'], complete := false }],
        some { item := 0, offset := 3 }) := by decide +kernel
  have second : itemPage [['a', 'é', 'b', 'c'], ['d']] { item := 0, offset := 3 } 2
      { samplePacking with maxBytes := 6 } =
      .ok ([{ index := 0, offset := 3, totalBytes := 5, data := ['b', 'c'], complete := true },
        { index := 1, offset := 0, totalBytes := 1, data := ['d'], complete := true }],
        none) := by decide +kernel
  have walk := Walk.page (by decide : 1 ≤ 2) first
    (.page (by decide : 1 ≤ 2) second (.rest none))
  obtain ⟨_, _, _, joined⟩ :=
    (pages_reassemble [['a', 'é', 'b', 'c'], ['d']] ReadCursor.start (.inl (by decide))).2
      _ _ _ walk
  exact ⟨_, walk, (joined rfl 0 _ rfl).2 rfl, (joined rfl 1 _ rfl).2 rfl⟩

end Reassembly

end MinicoreAgent.ReadPages

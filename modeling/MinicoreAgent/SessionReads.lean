import MinicoreAgent.ItemPages
import MinicoreAgent.ScannedPages

/-!
# Reading a session

`read_session` in the canonical view: the request is checked, a page of the history
is read from the store, its items are encoded with their times, and what fits is
packed into the answer. A loaded Session contributes the number of visible items and
the times it knows.

The page that the store reads is a window of the history, so packing it is packing a
page of the texts of the whole history.
-/
namespace MinicoreAgent.ReadPages

open HistoryStore

section Model

def defaultReadMaxBytes : Nat := 256 * 1024
def maxReadMaxBytes : Nat := 1024 * 1024
def maxReadItems : Nat := 100

/-- `ReadSession` in the canonical view. -/
structure ReadSession where
  cursor : Option ReadCursor
  limit : Nat
  maxBytes : Option Nat
  capturedEnd : Option Nat
  historyRevision : Option String
  projectionRevision : Option String

/-- `validate_max_bytes`. -/
def validateMaxBytes (value : Option Nat) : Except AgentError Unit :=
  if value.any (fun value => value = 0 || maxReadMaxBytes < value) then .error .invalidArguments
  else .ok ()

/-- `valid_revision`. -/
def validRevision (value : String) : Bool :=
  let bytes := value.toUTF8.toList
  bytes.length = 64 && bytes.all isHexDigit

/-- `ReadSession::validate`. -/
def ReadSession.validate (request : ReadSession) : Except AgentError Unit :=
  if ¬ (1 ≤ request.limit ∧ request.limit ≤ maxReadItems) then .error .invalidArguments
  else
    match validateMaxBytes request.maxBytes with
    | .error error => .error error
    | .ok () =>
      if request.projectionRevision.isSome then .error .invalidArguments
      else if request.capturedEnd.isSome ≠ request.historyRevision.isSome ∨
          request.historyRevision.any (fun value => !validRevision value) ∨
          (request.cursor.any (fun cursor => cursor ≠ ReadCursor.start) ∧
            request.capturedEnd.isNone) then .error .invalidArguments
      else .ok ()

/-- `From<StoreError> for AgentError`. -/
def AgentError.ofStore : StoreError → AgentError
  | .sessionNotFound => .sessionNotFound
  | .corrupt => .store
  | .recordTooLarge => .store
  | .unavailable => .storeUnavailable
  | .historyChanged => .invalidState
  | .queryLimit => .queryLimit
  | .invalidArguments => .invalidArguments

/-- `validate_cursor`. -/
def validateCursor (cursor : ReadCursor) (total : Nat) : Except AgentError Unit :=
  if total < cursor.item ∨ (cursor.item = total ∧ cursor.offset ≠ 0) then .error .invalidArguments
  else .ok ()

variable {LoopId Payload Replay : Type}

/-- `read_snapshot`, apart from the info of the record. -/
structure ReadSnapshot (LoopId Payload Replay : Type) where
  history : List (HistoryItem Payload Replay)
  userTimes : Times LoopId

/-- The times that a loaded Session knows. -/
def knownTimes (snapshot : Option (ReadSnapshot LoopId Payload Replay)) : Option (Times LoopId) :=
  snapshot.map ReadSnapshot.userTimes

/-- What one request meets: the record of a Session that is not loaded, the answers
of the budget, and the sizes of what it encodes. -/
structure ReadCalls (LoopId Payload Replay : Type) where
  info : Except AgentError Unit
  begun : Except AgentError Unit
  encodedLen : ReadItemChunk → Nat
  headerBytes : HistoryReadPage LoopId Payload Replay → List ReadItemChunk →
    Option ReadItemChunk → Option ReadCursor → Except AgentError Nat
  withinBudget : Checkpoint → Bool

/-- `ReadSessionResult` in the canonical view, without the info of the record. -/
structure ReadSessionResult (LoopId Payload : Type) where
  items : List ReadItemChunk
  nextCursor : Option ReadCursor
  total : Nat
  records : List (StoredTurnSummary LoopId Payload)
  recordsTruncated : Bool
  historyRevision : String
  capturedEnd : Nat
  trailingIncomplete : Bool

/-- The text of an item with its time, as `serde_json` writes it. -/
abbrev SourceJson (Payload Replay : Type) :=
  HistoryItem Payload Replay → Option String → Option (List Char)

/-- One encoded item. -/
def encodedItem (sourceJson : SourceJson Payload Replay) (index : Nat)
    (entry : HistoryItem Payload Replay × Option String) : Except AgentError (Nat × List Char) :=
  match sourceJson entry.1 entry.2 with
  | none => .error .rpcSerialization
  | some json => .ok (index, json)

/-- `encoded_items`. -/
def encodedItems (sourceJson : SourceJson Payload Replay) (start : Nat)
    (items : List (HistoryItem Payload Replay)) (timestamps : List (Option String)) :
    Except AgentError (List (Except AgentError (Nat × List Char))) :=
  if timestamps.length ≠ items.length then .error .internal
  else
    .ok ((items.zip timestamps).mapIdx fun offset entry =>
      encodedItem sourceJson (start + offset) entry)

/-- `records_for_chunks`. -/
def recordsForChunks (summaries : List (StoredTurnSummary LoopId Payload))
    (chunks : List ReadItemChunk) : List (StoredTurnSummary LoopId Payload) :=
  summaries.filter fun summary =>
    chunks.any fun chunk => summary.itemStart ≤ chunk.index && chunk.index < summary.itemEnd

/-- The request for a page of the store that `read_session` makes. -/
def ReadSession.pageRequest (request : ReadSession)
    (snapshot : Option (ReadSnapshot LoopId Payload Replay)) : PageRequest :=
  { itemOffset := (request.cursor.getD .start).item
    itemLimit := request.limit
    visibleItemCount := snapshot.map fun snapshot => snapshot.history.length
    capturedEnd := request.capturedEnd
    expectedRevision := request.historyRevision }

/-- The limit and the sizes with which a page is packed. -/
def ReadSession.packing (request : ReadSession) (calls : ReadCalls LoopId Payload Replay)
    (page : HistoryReadPage LoopId Payload Replay) : Packing :=
  { maxBytes := request.maxBytes.getD defaultReadMaxBytes
    encodedLen := calls.encodedLen
    headerBytes := calls.headerBytes page
    withinBudget := calls.withinBudget }

/-- `read_session` in the canonical view. -/
def readSession (sourceJson : SourceJson Payload Replay)
    (historyPage : PageRequest → Option (Times LoopId) →
      Except StoreError (HistoryReadPage LoopId Payload Replay))
    (snapshot : Option (ReadSnapshot LoopId Payload Replay)) (calls : ReadCalls LoopId Payload Replay)
    (request : ReadSession) : Except AgentError (ReadSessionResult LoopId Payload) :=
  match request.validate, calls.begun, (if snapshot.isSome then .ok () else calls.info) with
  | .error error, _, _ => .error error
  | _, .error error, _ => .error error
  | _, _, .error error => .error error
  | .ok (), .ok (), .ok () =>
    let cursor := request.cursor.getD .start
    match historyPage (request.pageRequest snapshot) (knownTimes snapshot) with
    | .error error => .error (.ofStore error)
    | .ok page =>
      match validateCursor cursor page.totalItems with
      | .error error => .error error
      | .ok () =>
        match encodedItems sourceJson cursor.item page.parts.items page.parts.userTimes with
        | .error error => .error error
        | .ok encoded =>
          match packItems (request.packing calls page) cursor page.totalItems encoded with
          | .error error => .error error
          | .ok (chunks, nextCursor) =>
            .ok
              { items := chunks
                nextCursor := nextCursor
                total := page.totalItems
                records := recordsForChunks page.parts.turns chunks
                recordsTruncated := page.parts.turnsTruncated
                historyRevision := page.revision
                capturedEnd := page.capturedEnd
                trailingIncomplete := page.trailingIncomplete }

/-- The answer with some items of a page of the store. -/
def sessionResult (page : HistoryReadPage LoopId Payload Replay) (items : List ReadItemChunk)
    (nextCursor : Option ReadCursor) : ReadSessionResult LoopId Payload :=
  { items := items
    nextCursor := nextCursor
    total := page.totalItems
    records := recordsForChunks page.parts.turns items
    recordsTruncated := page.parts.turnsTruncated
    historyRevision := page.revision
    capturedEnd := page.capturedEnd
    trailingIncomplete := page.trailingIncomplete }

end Model

section Steps

variable {LoopId Payload Replay : Type} {sourceJson : SourceJson Payload Replay}
  {historyPage : PageRequest → Option (Times LoopId) →
    Except StoreError (HistoryReadPage LoopId Payload Replay)}
  {snapshot : Option (ReadSnapshot LoopId Payload Replay)}
  {calls : ReadCalls LoopId Payload Replay} {request : ReadSession}
  {result : ReadSessionResult LoopId Payload}

/-- What a request that was accepted is like. -/
theorem validate_ok (valid : request.validate = .ok ()) :
    1 ≤ request.limit ∧ request.capturedEnd.isSome = request.historyRevision.isSome ∧
      (request.capturedEnd = none → request.cursor.getD .start = ReadCursor.start) := by
  unfold ReadSession.validate at valid
  split at valid
  · cases valid
  · rename_i bounded
    split at valid
    · cases valid
    · split at valid
      · cases valid
      · split at valid
        · cases valid
        · rename_i checked
          simp only [not_or, not_and, Option.isNone_iff_eq_none, ne_eq, not_not] at checked
          refine ⟨(not_not.mp bounded).1, checked.1, ?_⟩
          intro unpinned
          cases cursor : request.cursor with
          | none => rfl
          | some cursor' =>
            rw [cursor] at checked
            by_contra apart
            exact checked.2.2 (by simpa using apart) unpinned

/-- A cursor that was accepted lies in the items or at their end. -/
theorem validate_cursor_within {items : List (List Char)} {cursor : ReadCursor}
    (valid : validateCursor cursor items.length = .ok ()) : Within items cursor := by
  unfold validateCursor at valid
  split at valid
  · cases valid
  · rename_i within
    simp only [not_or, Nat.not_lt, not_and, not_not] at within
    rcases Nat.lt_or_eq_of_le within.1 with before | behind
    · exact Or.inl before
    · right
      rw [← behind, ← within.2 behind]

/-- An answer comes from a page of the store whose items were packed. -/
theorem read_session_ok (read : readSession sourceJson historyPage snapshot calls request =
    .ok result) :
    request.validate = .ok () ∧
    ∃ page encoded,
      historyPage (request.pageRequest snapshot) (knownTimes snapshot) = .ok page ∧
      validateCursor (request.cursor.getD .start) page.totalItems = .ok () ∧
      encodedItems sourceJson (request.cursor.getD .start).item page.parts.items
        page.parts.userTimes = .ok encoded ∧
      packItems (request.packing calls page) (request.cursor.getD .start) page.totalItems encoded =
        .ok (result.items, result.nextCursor) ∧
      result = sessionResult page result.items result.nextCursor := by
  unfold readSession at read
  split at read
  · cases read
  · cases read
  · cases read
  · rename_i valid _ _
    dsimp only at read
    split at read
    · cases read
    · rename_i page asked
      split at read
      · cases read
      · rename_i inside
        split at read
        · cases read
        · rename_i encoded encodes
          split at read
          · cases read
          · rename_i chunks nextCursor packed
            cases read
            exact ⟨valid, page, encoded, asked, inside, encodes, packed, rfl⟩

end Steps

section Windows

variable {LoopId Payload Replay Digest : Type}
  (pages : PageExternals LoopId Payload Digest) (times : Option (Times LoopId))

/-- The items of a record with the times that are known of them. -/
def timedItems (storedTimes : List (Option String)) : List (HistoryItem Payload Replay) → Nat →
    List (HistoryItem Payload Replay × Option String)
  | [], _ => []
  | item :: rest, occurrence =>
    let timed : Option String × Nat :=
      match item with
      | .user user => (promptTime pages times storedTimes user occurrence, occurrence + 1)
      | _ => (none, occurrence)
    (item, timed.1) :: timedItems storedTimes rest timed.2

/-- The items of these lines with the times that are known of them. -/
def told (lines : List (StoredLine LoopId Payload Replay)) :
    List (HistoryItem Payload Replay × Option String) :=
  lines.flatMap fun line =>
    timedItems pages times (line.record.normalizedUserTimes.getD []) line.items 0

/-- The part of some entries, which begin at a position, that lies in a range. -/
def window {Entry : Type} (first bound position : Nat) (entries : List Entry) : List Entry :=
  (entries.take (bound - position)).drop (first - position)

variable {pages times} {first bound position : Nat}

theorem window_cons {Entry : Type} (entry : Entry) (rest : List Entry) :
    window first bound position (entry :: rest) =
      if first ≤ position ∧ position < bound then entry :: window first bound (position + 1) rest
      else window first bound (position + 1) rest := by
  unfold window
  by_cases inside : position < bound
  · have more : bound - position = bound - (position + 1) + 1 := by omega
    rw [more, List.take_succ_cons]
    by_cases begun : first ≤ position
    · rw [if_pos ⟨begun, inside⟩, Nat.sub_eq_zero_of_le begun,
        Nat.sub_eq_zero_of_le (Nat.le_succ_of_le begun)]
      rfl
    · have later : first - position = first - (position + 1) + 1 := by omega
      rw [if_neg (fun both => begun both.1), later, List.drop_succ_cons]
  · have none : bound - position = 0 := by omega
    have fewer : bound - (position + 1) = 0 := by omega
    rw [if_neg (fun both => inside both.2), none, fewer, List.take_zero, List.take_zero,
      List.drop_nil, List.drop_nil]

theorem window_append {Entry : Type} (before after : List Entry) :
    window first bound position (before ++ after) =
      window first bound position before ++
        window first bound (position + before.length) after := by
  induction before generalizing position with
  | nil => simp [window]
  | cons entry rest inductionHypothesis =>
    rw [List.cons_append, window_cons, window_cons, inductionHypothesis, List.length_cons,
      show position + 1 + rest.length = position + (rest.length + 1) by omega]
    split <;> rfl

/-- From the first position on, a window is what is left behind an offset. -/
theorem window_start {Entry : Type} (limit : Nat) (entries : List Entry) :
    window first (first + limit) 0 entries = (entries.drop first).take limit := by
  unfold window
  rw [Nat.sub_zero, Nat.sub_zero, List.drop_take, Nat.add_sub_cancel_left]

theorem items_in_range_window (stored : List (Option String))
    (items : List (HistoryItem Payload Replay)) (occurrence : Nat) :
    itemsInRange pages times stored first bound items position occurrence =
      window first bound position (timedItems pages times stored items occurrence) := by
  induction items generalizing position occurrence with
  | nil => simp [itemsInRange, timedItems, window]
  | cons item rest inductionHypothesis =>
    unfold itemsInRange timedItems
    dsimp only
    rw [inductionHypothesis]
    exact (window_cons _ _).symm

@[simp] theorem timed_items_length (stored : List (Option String))
    (items : List (HistoryItem Payload Replay)) (occurrence : Nat) :
    (timedItems pages times stored items occurrence).length = items.length := by
  induction items generalizing occurrence with
  | nil => rfl
  | cons item rest inductionHypothesis =>
    unfold timedItems
    dsimp only
    rw [List.length_cons, inductionHypothesis, List.length_cons]

theorem timed_items_fst (stored : List (Option String))
    (items : List (HistoryItem Payload Replay)) (occurrence : Nat) :
    (timedItems pages times stored items occurrence).map Prod.fst = items := by
  induction items generalizing occurrence with
  | nil => rfl
  | cons item rest inductionHypothesis =>
    unfold timedItems
    dsimp only
    rw [List.map_cons, inductionHypothesis]

theorem told_append (before after : List (StoredLine LoopId Payload Replay)) :
    told pages times (before ++ after) = told pages times before ++ told pages times after := by
  unfold told
  rw [List.flatMap_append]

theorem told_fst (lines : List (StoredLine LoopId Payload Replay)) :
    (told pages times lines).map Prod.fst = lines.flatMap StoredLine.items := by
  unfold told
  rw [List.map_flatMap]
  congr 1
  funext line
  exact timed_items_fst _ _ _

@[simp] theorem told_length (lines : List (StoredLine LoopId Payload Replay)) :
    (told pages times lines).length = itemCount lines := by
  rw [← List.length_map Prod.fst, told_fst, List.length_flatMap]
  rfl

variable {request : PageRequest}

/-- Entries outside the range are not in the window. -/
theorem window_outside {Entry : Type} {entries : List Entry}
    (outside : ¬ (first < position + entries.length ∧ position < bound)) :
    window first bound position entries = [] := by
  unfold window
  rw [List.drop_eq_nil_iff, List.length_take]
  omega

variable (pages times first bound) in
/-- What one record adds to a page. -/
theorem record_window (parts : PageParts LoopId Payload Replay)
    (line : StoredLine LoopId Payload Replay) (start : Nat) :
    let entries := window first bound start
      (timedItems pages times (line.record.normalizedUserTimes.getD []) line.items 0)
    let grown :=
      if first < start + line.items.length ∧ start < bound then
        appendPageRecord pages parts line.record line.items start first bound times
      else parts
    grown.items = parts.items ++ entries.map Prod.fst ∧
      grown.userTimes = parts.userTimes ++ entries.map Prod.snd := by
  intro entries grown
  by_cases overlaps : first < start + line.items.length ∧ start < bound
  · simp only [grown, if_pos overlaps]
    unfold appendPageRecord
    rw [items_in_range_window]
    dsimp only
    split <;> exact ⟨rfl, rfl⟩
  · have none : entries = [] := by
      apply window_outside
      rwa [timed_items_length]
    simp [grown, if_neg overlaps, none]

variable (pages times request) in
/-- The items and times of a page are a window of those of its lines. -/
theorem gather_window (parts : PageParts LoopId Payload Replay) (start : Nat)
    (lines : List (StoredLine LoopId Payload Replay)) :
    (gather pages request times parts start lines).items = parts.items ++
        (window request.itemOffset (request.itemOffset + request.itemLimit) start
          (told pages times lines)).map Prod.fst ∧
      (gather pages request times parts start lines).userTimes = parts.userTimes ++
        (window request.itemOffset (request.itemOffset + request.itemLimit) start
          (told pages times lines)).map Prod.snd := by
  induction lines generalizing parts start with
  | nil => simp [gather, told, window]
  | cons line rest inductionHypothesis =>
    have lineTold : told pages times (line :: rest) =
        timedItems pages times (line.record.normalizedUserTimes.getD []) line.items 0 ++
          told pages times rest := List.flatMap_cons
    obtain ⟨addedItems, addedTimes⟩ :=
      record_window pages times request.itemOffset (request.itemOffset + request.itemLimit) parts
        line start
    obtain ⟨items, userTimes⟩ := inductionHypothesis _ (start + line.items.length)
    rw [lineTold, window_append, timed_items_length, List.map_append, List.map_append, gather,
      items, userTimes, addedItems, addedTimes, List.append_assoc, List.append_assoc]
    exact ⟨rfl, rfl⟩

variable (pages times request) in
/-- The items and times of a page are those behind the offset, up to the limit. -/
theorem page_entries (externals : Externals LoopId Payload Replay Digest)
    (shown : List (StoredLine LoopId Payload Replay)) :
    (pageOf externals pages request times shown).parts.items =
        (((told pages times shown).drop request.itemOffset).take request.itemLimit).map
          Prod.fst ∧
      (pageOf externals pages request times shown).parts.userTimes =
        (((told pages times shown).drop request.itemOffset).take request.itemLimit).map
          Prod.snd := by
  have gathered := gather_window pages times request .empty 0 shown
  rw [window_start] at gathered
  exact gathered

end Windows

section Texts

variable {Payload Replay : Type} (sourceJson : SourceJson Payload Replay)

/-- The text of an item, with another one in place of what cannot be written. -/
def textOf (fill : List Char) (entry : HistoryItem Payload Replay × Option String) : List Char :=
  (sourceJson entry.1 entry.2).getD fill

variable {sourceJson}

/-- Where packing succeeds, it succeeds in the same way if what it did not come to is
something else. -/
theorem pack_loop_refined {packing : Packing} {start : ReadCursor} {total count : Nat}
    {encoded others : List (Except AgentError (Nat × List Char))} {state after : Packed}
    (refined : List.Forall₂ (fun first second => ∀ value, first = .ok value → second = .ok value)
      encoded others)
    (done : packLoop packing start total count encoded state = .ok after) :
    packLoop packing start total count others state = .ok after := by
  induction refined generalizing count state with
  | nil => exact done
  | @cons first second rest more same _ inductionHypothesis =>
    unfold packLoop at done ⊢
    cases budget : packing.checkBudget (.before count) with
    | error error =>
      rw [budget] at done
      cases done
    | ok _ =>
      rw [budget] at done
      cases first with
      | error error => cases done
      | ok value =>
        rw [same value rfl]
        dsimp only at done ⊢
        cases again : packing.checkBudget (.after count) with
        | error error =>
          rw [again] at done
          cases done
        | ok _ =>
          rw [again] at done
          dsimp only at done ⊢
          cases taken : takeItem packing start total state value.1 value.2 with
          | error error =>
            rw [taken] at done
            cases done
          | ok step =>
            rw [taken] at done
            cases step with
            | stop state => exact done
            | proceed state => exact inductionHypothesis done

theorem pack_items_refined {packing : Packing} {start : ReadCursor} {total : Nat}
    {encoded others : List (Except AgentError (Nat × List Char))}
    {packed : List ReadItemChunk × Option ReadCursor}
    (refined : List.Forall₂ (fun first second => ∀ value, first = .ok value → second = .ok value)
      encoded others)
    (done : packItems packing start total encoded = .ok packed) :
    packItems packing start total others = .ok packed := by
  unfold packItems at done ⊢
  split at done
  · cases done
  · rename_i state looped
    rw [pack_loop_refined refined looped]
    exact done

/-- Encoded entries are their texts, as far as they can be written. -/
theorem encoded_refined (fill : List Char) (start : Nat)
    (entries : List (HistoryItem Payload Replay × Option String)) :
    List.Forall₂ (fun first second => ∀ value, first = .ok value → second = .ok value)
      (entries.mapIdx fun offset entry => encodedItem sourceJson (start + offset) entry)
      ((entries.map (textOf sourceJson fill)).mapIdx fun offset json =>
        (.ok (start + offset, json) : Except AgentError (Nat × List Char))) := by
  rw [List.forall₂_iff_get]
  refine ⟨by simp, ?_⟩
  intro position inside _ value encodes
  simp only [List.get_eq_getElem, List.getElem_mapIdx, List.getElem_map] at encodes ⊢
  unfold encodedItem at encodes
  unfold textOf
  split at encodes
  · cases encodes
  · rename_i json written
    rw [written]
    exact encodes

variable {LoopId Digest : Type} {externals : Externals LoopId Payload Replay Digest}
  {pages : PageExternals LoopId Payload Digest}
  {historyPage : PageRequest → Option (Times LoopId) →
    Except StoreError (HistoryReadPage LoopId Payload Replay)}
  {snapshot : Option (ReadSnapshot LoopId Payload Replay)}
  {calls : ReadCalls LoopId Payload Replay} {request : ReadSession}
  {result : ReadSessionResult LoopId Payload} {shown : List (StoredLine LoopId Payload Replay)}

/-- Where the store answers with the page of some lines, the answer to a request is a
page of the texts of these lines. -/
theorem read_is_item_page
    (read : readSession sourceJson historyPage snapshot calls request = .ok result)
    (answered : ∀ page, historyPage (request.pageRequest snapshot) (knownTimes snapshot) =
      .ok page → page = pageOf externals pages (request.pageRequest snapshot) (knownTimes snapshot)
        shown) :
    result.total = itemCount shown ∧ result.capturedEnd = byteCount shown ∧
      result.historyRevision = pages.digestHex (digestOf externals shown) ∧
      ∃ packing, ∀ fill,
        Within ((told pages (knownTimes snapshot) shown).map (textOf sourceJson fill))
            (request.cursor.getD .start) ∧
          itemPage ((told pages (knownTimes snapshot) shown).map (textOf sourceJson fill))
            (request.cursor.getD .start) request.limit packing =
              .ok (result.items, result.nextCursor) := by
  obtain ⟨valid, page, encoded, asked, inside, encodes, packed, answer⟩ := read_session_ok read
  have total : result.total = page.totalItems := congrArg ReadSessionResult.total answer
  have revision : result.historyRevision = page.revision :=
    congrArg ReadSessionResult.historyRevision answer
  have captured : result.capturedEnd = page.capturedEnd :=
    congrArg ReadSessionResult.capturedEnd answer
  have same := answered page asked
  rw [same] at total revision captured inside
  refine ⟨total, captured, revision, request.packing calls page, fun fill => ⟨?_, ?_⟩⟩
  · apply validate_cursor_within
    rw [List.length_map, told_length]
    exact inside
  · obtain ⟨items, userTimes⟩ := page_entries pages (knownTimes snapshot)
      (request.pageRequest snapshot) externals shown
    rw [← same] at items userTimes
    have zipped := List.zip_of_prod items.symm userTimes.symm
    unfold encodedItems at encodes
    split at encodes
    · cases encodes
    · cases encodes
      rw [← zipped] at packed
      unfold itemPage encodedFrom
      rw [List.length_map, told_length, ← List.map_drop, ← List.map_take]
      rw [show page.totalItems = itemCount shown by rw [same]; rfl] at packed
      exact pack_items_refined (encoded_refined fill _ _) packed

end Texts

end MinicoreAgent.ReadPages

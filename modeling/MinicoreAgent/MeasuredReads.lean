import MinicoreAgent.LongestPages
import MinicoreAgent.PinnedReads

/-!
# Sizes of session pages

`read_session` measures its answer once without items. What a page adds are its items, the
records of their turns and the cursor in place of `null`; all this is measured again for
every chunk that is tried. Both views of a Session are packed in this way.
-/
namespace MinicoreAgent.ReadPages

open HistoryStore
open JsonSize
open Text

variable {LoopId Payload Replay : Type}

section Answers

/-- The sizes of what an answer has beside its page: the info of the Session, the summary
of a turn, and the projection of the display view. -/
structure SessionSizes (LoopId Payload : Type) where
  info : Nat
  record : StoredTurnSummary LoopId Payload → Nat
  projection : Option Nat

variable (sizes : SessionSizes LoopId Payload)

def ReadSessionResult.encodedLen (result : ReadSessionResult LoopId Payload) : Nat :=
  objectLen ([("session", sizes.info),
    ("items", arrayLen (result.items.map ReadItemChunk.encodedLen)),
    ("next_cursor", encodedCursor result.nextCursor), ("total", numberLen result.total),
    ("records", arrayLen (result.records.map sizes.record)),
    ("records_truncated", boolLen result.recordsTruncated),
    ("history_revision", stringLen result.historyRevision.toList),
    ("captured_end", numberLen result.capturedEnd),
    ("trailing_incomplete", boolLen result.trailingIncomplete)] ++
    optional "projection" sizes.projection)

/-- The answer before it is packed. -/
def sessionBase (page : HistoryReadPage LoopId Payload Replay) : ReadSessionResult LoopId Payload :=
  { sessionResult page [] none with records := [] }

/-- The bytes beside the chunks, as `read_session` measures them. -/
def sessionHeader (page : HistoryReadPage LoopId Payload Replay) (items : List ReadItemChunk)
    (candidate : Option ReadItemChunk) (nextCursor : Option ReadCursor) : Nat :=
  let records := (recordsForChunks page.parts.turns (items ++ candidate.toList)).map sizes.record
  (sessionBase page).encodedLen sizes + records.sum + (records.length - 1) +
    encodedCursor nextCursor - 4

/-- How `read_session` packs the items of one of its views. -/
def sessionPacking (page : HistoryReadPage LoopId Payload Replay) (maxBytes : Nat)
    (withinBudget : Checkpoint → Bool) : Packing where
  maxBytes := maxBytes
  encodedLen := ReadItemChunk.encodedLen
  headerBytes := fun items candidate nextCursor =>
    .ok (sessionHeader sizes page items candidate nextCursor)
  withinBudget := withinBudget

/-- The end of `read_session`, for the encoded items of either view. -/
def packSession (page : HistoryReadPage LoopId Payload Replay) (cursor : ReadCursor)
    (maxBytes : Nat) (withinBudget : Checkpoint → Bool)
    (encoded : List (Except AgentError (Nat × List Char))) :
    Except AgentError (ReadSessionResult LoopId Payload) :=
  (packItems (sessionPacking sizes page maxBytes withinBudget) cursor page.totalItems encoded).map
    fun packed => sessionResult page packed.1 packed.2

end Answers

section Writing

/-- What an answer has beside its page, as it is written. -/
structure SessionJson (LoopId Payload : Type) where
  info : List Char
  record : StoredTurnSummary LoopId Payload → List Char
  projection : Option (List Char)

def SessionJson.sizes (json : SessionJson LoopId Payload) : SessionSizes LoopId Payload where
  info := byteLen json.info
  record := fun summary => byteLen (json.record summary)
  projection := json.projection.map byteLen

/-- The answer as it is written. -/
def ReadSessionResult.json (json : SessionJson LoopId Payload)
    (result : ReadSessionResult LoopId Payload) : List Char :=
  objectText ([("session", json.info),
    ("items", arrayText (result.items.map ReadItemChunk.json)),
    ("next_cursor", cursorJson result.nextCursor), ("total", numberText result.total),
    ("records", arrayText (result.records.map json.record)),
    ("records_truncated", boolText result.recordsTruncated),
    ("history_revision", stringText result.historyRevision.toList),
    ("captured_end", numberText result.capturedEnd),
    ("trailing_incomplete", boolText result.trailingIncomplete)] ++
    optionalText "projection" json.projection)

/-- What the code measures is the length of what is written. -/
theorem session_json_len (json : SessionJson LoopId Payload)
    (result : ReadSessionResult LoopId Payload) :
    byteLen (result.json json) = result.encodedLen json.sizes := by
  have records : byteLen (arrayText (result.records.map json.record)) =
      arrayLen (result.records.map json.sizes.record) := by
    rw [array_text_len, List.map_map]
    rfl
  rw [ReadSessionResult.json, object_text_len]
  simp only [List.map_append, List.map_cons, List.map_nil, optional_text_len, number_text_len,
    string_text_len, bool_text_len, cursor_json_len, chunks_json_len, records]
  rfl

end Writing

section Frames

variable (sizes : SessionSizes LoopId Payload) (page : HistoryReadPage LoopId Payload Replay)

theorem records_sublist {summaries : List (StoredTurnSummary LoopId Payload)}
    {fewer more : List ReadItemChunk}
    (shown : ∀ chunk ∈ fewer, ∃ other ∈ more, other.index = chunk.index) :
    (recordsForChunks summaries fewer).Sublist (recordsForChunks summaries more) := by
  apply List.monotone_filter_right
  intro summary touched
  obtain ⟨chunk, member, within⟩ := List.any_eq_true.mp touched
  obtain ⟨other, present, same⟩ := shown chunk member
  rw [← same] at within
  exact List.any_eq_true.mpr ⟨other, present, within⟩

/-- The records of a page that shows more items take no fewer bytes. -/
theorem session_records_grow {fewer more : List ReadItemChunk}
    (shown : ∀ chunk ∈ fewer, ∃ other ∈ more, other.index = chunk.index) :
    ((recordsForChunks page.parts.turns fewer).map sizes.record).sum +
        (((recordsForChunks page.parts.turns fewer).map sizes.record).length - 1) ≤
      ((recordsForChunks page.parts.turns more).map sizes.record).sum +
        (((recordsForChunks page.parts.turns more).map sizes.record).length - 1) := by
  have fewerRecords : (recordsForChunks page.parts.turns fewer).Sublist
      (recordsForChunks page.parts.turns more) := records_sublist shown
  have sizes_le := array_len_sublist (fewerRecords.map sizes.record)
  rw [arrayLen, arrayLen] at sizes_le
  omega

/-- What a page of a Session has beside its chunks and its cursor. -/
def sessionFrame : PageFrame where
  fixed := (sessionBase page).encodedLen sizes - 4
  records := fun items =>
    let records := (recordsForChunks page.parts.turns items).map sizes.record
    records.sum + (records.length - 1)
  grows := @session_records_grow _ _ _ sizes page

/-- The parts of an answer that change with the page, beside all that does not. -/
theorem session_fields (result : ReadSessionResult LoopId Payload) :
    result.encodedLen sizes =
      ({ result with items := [], nextCursor := none, records := [] } :
        ReadSessionResult LoopId Payload).encodedLen sizes - 8 +
      arrayLen (result.items.map ReadItemChunk.encodedLen) + encodedCursor result.nextCursor +
      arrayLen (result.records.map sizes.record) ∧
    8 ≤ ({ result with items := [], nextCursor := none, records := [] } :
      ReadSessionResult LoopId Payload).encodedLen sizes := by
  have empty : arrayLen [] = 2 := rfl
  simp only [ReadSessionResult.encodedLen, objectLen, List.map_cons, List.map_nil, List.cons_append,
    List.nil_append, empty, encodedCursor, Option.elim_none]
  generalize (optional "projection" sizes.projection).map
    (fun field => stringLen field.1.toList + 1 + field.2) = rest
  simp only [array_len_cons, List.sum_cons, List.length_cons]
  omega

/-- An answer takes the bytes of its empty form, of its items, its records and its cursor. -/
theorem session_len (items : List ReadItemChunk) (nextCursor : Option ReadCursor) :
    (sessionResult page items nextCursor).encodedLen sizes =
      (sessionFrame sizes page).pageBytes items nextCursor := by
  obtain ⟨fields, least⟩ := session_fields sizes (sessionResult page items nextCursor)
  change _ = (sessionBase page).encodedLen sizes - 8 + _ + _ + _ at fields
  change 8 ≤ (sessionBase page).encodedLen sizes at least
  rw [fields, arrayLen, arrayLen, List.length_map, PageFrame.pageBytes, chunksLen]
  dsimp only [sessionFrame, sessionResult]
  omega

theorem session_measures (maxBytes : Nat) (withinBudget : Checkpoint → Bool) :
    (sessionPacking sizes page maxBytes withinBudget).Measures (sessionFrame sizes page) where
  encodedLen := rfl
  headerBytes := by
    intro existing candidate next
    have least := (session_fields sizes (sessionResult page [] none)).2
    change 8 ≤ (sessionBase page).encodedLen sizes at least
    dsimp only [sessionPacking, sessionHeader, sessionFrame]
    congr 1
    omega

end Frames

section Packing

variable {sizes : SessionSizes LoopId Payload} {page : HistoryReadPage LoopId Payload Replay}
  {cursor : ReadCursor} {maxBytes : Nat} {withinBudget : Checkpoint → Bool}
  {encoded : List (Except AgentError (Nat × List Char))} {result : ReadSessionResult LoopId Payload}

theorem pack_session_ok
    (packed : packSession sizes page cursor maxBytes withinBudget encoded = .ok result) :
    packItems (sessionPacking sizes page maxBytes withinBudget) cursor page.totalItems encoded =
        .ok (result.items, result.nextCursor) ∧
      result = sessionResult page result.items result.nextCursor := by
  obtain ⟨⟨items, nextCursor⟩, done, rfl⟩ := Results.map_ok.mp packed
  exact ⟨done, rfl⟩

/-- What is accounted for is the length of the answer, which is within the limit. -/
theorem pack_session_exact
    (packed : packSession sizes page cursor maxBytes withinBudget encoded = .ok result) :
    accountedBytes (sessionPacking sizes page maxBytes withinBudget) cursor page.totalItems
        encoded = .ok (result.encodedLen sizes) ∧ result.encodedLen sizes ≤ maxBytes := by
  obtain ⟨done, same⟩ := pack_session_ok packed
  have length := session_len sizes page result.items result.nextCursor
  rw [← same] at length
  rw [length]
  exact pack_items_exact (session_measures sizes page maxBytes withinBudget) done

/-- No answer with more of the supplied items is within the limit. -/
theorem pack_session_longest {supplied : List (List Char)}
    (refined : List.Forall₂ (fun first second => ∀ value, first = .ok value → second = .ok value)
      encoded (suppliedFrom cursor.item supplied))
    (inside : cursor.item + supplied.length ≤ page.totalItems)
    (packed : packSession sizes page cursor maxBytes withinBudget encoded = .ok result) :
    Longest supplied cursor page.totalItems maxBytes
      (fun items next => (sessionResult page items next).encodedLen sizes) result.items
      result.nextCursor := by
  obtain ⟨done, _⟩ := pack_session_ok packed
  have lengths : (fun items next => (sessionResult page items next).encodedLen sizes) =
      (sessionFrame sizes page).pageBytes := by
    funext items next
    exact session_len sizes page items next
  rw [lengths]
  exact pack_items_longest (session_measures sizes page maxBytes withinBudget) inside
    (pack_items_refined refined done)

/-- The canonical view with the sizes that the code measures. -/
def ReadCalls.measured (calls : ReadCalls LoopId Payload Replay)
    (sizes : SessionSizes LoopId Payload) : ReadCalls LoopId Payload Replay :=
  { calls with
    encodedLen := ReadItemChunk.encodedLen
    headerBytes := fun page items candidate nextCursor =>
      .ok (sessionHeader sizes page items candidate nextCursor) }

/-- The canonical view is packed like this from a page of the store. -/
theorem read_session_packed {sourceJson : SourceJson Payload Replay}
    {historyPage : PageRequest → Option (Times LoopId) →
      Except StoreError (HistoryReadPage LoopId Payload Replay)}
    {snapshot : Option (ReadSnapshot LoopId Payload Replay)}
    {calls : ReadCalls LoopId Payload Replay} {request : ReadSession}
    (read : readSession sourceJson historyPage snapshot (calls.measured sizes) request =
      .ok result) :
    ∃ page encoded,
      historyPage (request.pageRequest snapshot) (knownTimes snapshot) = .ok page ∧
      encodedItems sourceJson (request.cursor.getD .start).item page.parts.items
        page.parts.userTimes = .ok encoded ∧
      packSession sizes page (request.cursor.getD .start)
        (request.maxBytes.getD defaultReadMaxBytes) calls.withinBudget encoded = .ok result := by
  obtain ⟨_, page, encoded, asked, _, encodes, packed, answer⟩ := read_session_ok read
  refine ⟨page, encoded, asked, encodes, ?_⟩
  have packed : packItems (sessionPacking sizes page (request.maxBytes.getD defaultReadMaxBytes)
      calls.withinBudget) (request.cursor.getD .start) page.totalItems encoded =
        .ok (result.items, result.nextCursor) := packed
  rw [packSession, packed]
  exact congrArg Except.ok answer.symm

end Packing

section Canonical

variable {Digest : Type} [DecidableEq LoopId] {externals : Externals LoopId Payload Replay Digest}
  {pages : PageExternals LoopId Payload Digest} {sourceJson : SourceJson Payload Replay}
  {world : World LoopId Payload Replay} {request : ReadSession}
  {result : ReadSessionResult LoopId Payload} {calls : ReadCalls LoopId Payload Replay}
  {sizes : SessionSizes LoopId Payload}

theorem cursor_inside {cursor : ReadCursor} {total : Nat}
    (valid : validateCursor cursor total = .ok ()) : cursor.item ≤ total := by
  unfold validateCursor at valid
  split at valid
  · cases valid
  · rename_i accepted
    exact Nat.not_lt.mp fun beyond => accepted (Or.inl beyond)

variable (externals pages sourceJson world request sizes) in
/-- An answer that is packed from the page of some lines: what is accounted for is its
length, which is within the limit, and no answer with more of the texts is. -/
structure PackedLines (shown : List (StoredLine LoopId Payload Replay))
    (withinBudget : Checkpoint → Bool) (result : ReadSessionResult LoopId Payload) : Prop where
  exact : ∃ encoded,
    packSession sizes (pageOf externals pages (request.pageRequest world.session)
        (knownTimes world.session) shown) (request.cursor.getD .start)
      (request.maxBytes.getD defaultReadMaxBytes) withinBudget encoded = .ok result ∧
    accountedBytes (sessionPacking sizes (pageOf externals pages
        (request.pageRequest world.session) (knownTimes world.session) shown)
      (request.maxBytes.getD defaultReadMaxBytes) withinBudget) (request.cursor.getD .start)
      (itemCount shown) encoded = .ok (result.encodedLen sizes)
  within : result.encodedLen sizes ≤ request.maxBytes.getD defaultReadMaxBytes
  longest : ∀ fill, Longest
    ((((told pages (knownTimes world.session) shown).map (textOf sourceJson fill)).drop
      (request.cursor.getD .start).item).take request.limit) (request.cursor.getD .start)
    (itemCount shown) (request.maxBytes.getD defaultReadMaxBytes)
    (fun items next => (sessionResult (pageOf externals pages (request.pageRequest world.session)
      (knownTimes world.session) shown) items next).encodedLen sizes)
    result.items result.nextCursor

omit [DecidableEq LoopId] in
/-- An answer in the canonical view is packed from the lines that the request asks for. -/
theorem read_measured
    (streams : ∀ digest first second,
      externals.update (externals.update digest first) second =
        externals.update digest (first ++ second))
    (hexes : ∀ digest, validSha256 (pages.digestHex digest) = true)
    (valid : world.Valid externals pages) {clean : Prop} {limits : HistoryScanLimits}
    {reader : Reader} (answered : reader.Answered clean world.lines)
    (read : readSession sourceJson (world.historyPage externals pages limits reader) world.session
      (calls.measured sizes) request = .ok result) :
    ∃ shown, Shows externals pages (request.pageRequest world.session) world.lines shown ∧
      PackedLines externals pages sourceJson world request sizes shown calls.withinBudget
        result := by
  obtain ⟨accepted, _, _, found, inside, _⟩ := read_session_ok read
  obtain ⟨page, encoded, asked, encodes, packed⟩ := read_session_packed read
  rcases history_page_outcome streams hexes valid (validate_ok accepted).1 answered limits
    (knownTimes world.session) with ⟨shown, shows, paged⟩ | ⟨⟨error, failed⟩, _⟩
  · rw [paged] at asked found
    cases asked
    cases found
    refine ⟨shown, shows, ?_⟩
    obtain ⟨accounted, within⟩ := pack_session_exact packed
    constructor
    · exact ⟨encoded, packed, accounted⟩
    · exact within
    · intro fill
      obtain ⟨items, userTimes⟩ := page_entries pages (knownTimes world.session)
        (request.pageRequest world.session) externals shown
      have zipped := List.zip_of_prod items.symm userTimes.symm
      unfold encodedItems at encodes
      split at encodes
      · cases encodes
      · cases encodes
        rw [← zipped] at packed
        rw [← List.map_drop, ← List.map_take]
        refine pack_session_longest (encoded_refined fill _ _) ?_ packed
        have behind := cursor_inside inside
        dsimp only [pageOf, ReadSession.pageRequest] at behind ⊢
        rw [List.length_map, List.length_take, List.length_drop, told_length]
        omega
  · rw [failed] at asked
    cases asked

end Canonical

end MinicoreAgent.ReadPages

import MinicoreAgent.ResultSources

/-!
# Answering `turn.result`

A request for the result of a turn is answered from one of four places. A source that
was retained because the turn could not be stored comes first. A stored turn of a
loaded Session is shown from the items in memory, which the index of the history file
locates; its record is read only while the identity of its result is not known, and
the identity is kept for later pages. Otherwise the record is read from the file, by
the index or by scanning, and shown as it is.

One request is taken as one step. The second look for a known identity, behind the
lock of the preparation, then finds what the first one found.
-/
namespace MinicoreAgent.TurnResults

open HistoryStore ReadPages

section Records

variable {LoopId Payload Replay Digest : Type} [DecidableEq LoopId]
  (externals : Externals LoopId Payload Replay Digest)
  (pages : PageExternals LoopId Payload Digest)

/-- `scan_limits`, apart from the deadline. -/
def scanLimits : HistoryScanLimits :=
  { maxBytes := maxHistoryScanBytes, maxLines := maxHistoryScanLines }

/-- Whether the line that an entry of the index ends with is the record of a loop. -/
def ofLoop (loopId : LoopId) (entry : HistoryLine LoopId Digest) : Bool :=
  decide (entry.usage.lastLoopId = some loopId)

/-- The entry before a position, if there is one. -/
def entryBefore (index : List (HistoryLine LoopId Digest)) (position : Nat) :
    Option (HistoryLine LoopId Digest) :=
  if position = 0 then none else index[position - 1]?

/-- The place of a loop in the history, and the revision of the file up to it. -/
structure LoopItems where
  start : Nat
  stop : Nat
  sourceRevision : String
  deriving DecidableEq, Repr

/-- `Store::loop_item_source`: the index is searched from its end. -/
def loopItemSource (index : List (HistoryLine LoopId Digest)) (loopId : LoopId)
    (maxLines : Nat) : Option LoopItems :=
  ((index.reverse.take maxLines).findIdx? (ofLoop loopId)).bind fun fromEnd =>
    let position := index.length - 1 - fromEnd
    (index[position]?).map fun entry =>
      { start := ((entryBefore index position).map HistoryLine.items).getD 0
        stop := entry.items
        sourceRevision := pages.digestHex entry.hash }

/-- `decode_result_record`. -/
def decodeResultRecord (line : List UInt8) :
    Except StoreError (StoredLoopRecord LoopId Payload Replay) :=
  match readRecord externals line with
  | none => .error .corrupt
  | some record => .ok record

/-- The record of a line that the index has located. -/
def readIndexedRecord (size : Nat) (answers : FileAnswers) :
    Except StoreError (Option (StoredLoopRecord LoopId Payload Replay)) :=
  match answers.length, answers.opened with
  | .error error, _ => .error error
  | _, .error error => .error error
  | .ok _, .ok () =>
    match readBoundedLine answers.chunks size .empty with
    | .error error => .error error
    | .ok (.complete line, _, _) => (decodeResultRecord externals line).map some
    | .ok _ => .error .historyChanged

/-- The loop of `read_loop_record` without an index. -/
def scanLoopRecord (loopId : LoopId) (limits : HistoryScanLimits) (target scanTarget : Nat) :
    Nat → Chunks → Nat → Nat →
    Except StoreError (Option (StoredLoopRecord LoopId Payload Replay))
  | 0, _, _, _ => .error .unavailable
  | fuel + 1, chunks, remaining, lineCount =>
    if remaining = 0 then if scanTarget < target then .error .queryLimit else .ok none
    else if limits.maxLines ≤ lineCount then .error .queryLimit
    else
      match readBoundedLine chunks remaining .empty with
      | .error error => .error error
      | .ok (.finished, _, _) => .error .historyChanged
      | .ok (.unfinished, _, _) =>
        if scanTarget < target then .error .queryLimit else .ok none
      | .ok (.complete line, rest, left) =>
        if line.isEmpty then .error .corrupt
        else
          match decodeResultRecord externals line with
          | .error error => .error error
          | .ok record =>
            if record.loopId = loopId then .ok (some record)
            else scanLoopRecord loopId limits target scanTarget fuel rest left (lineCount + 1)

/-- `Store::read_loop_record`. -/
def readLoopRecord (index : Option (List (HistoryLine LoopId Digest))) (loopId : LoopId)
    (limits : HistoryScanLimits) (begun : Except StoreError Unit)
    (answersFrom : Nat → FileAnswers) :
    Except StoreError (Option (StoredLoopRecord LoopId Payload Replay)) :=
  match begun, index with
  | .error error, _ => .error error
  | .ok (), some index =>
    match index.findIdx? (ofLoop loopId) with
    | none => .ok none
    | some position =>
      let start := ((entryBefore index position).map HistoryLine.finish).getD 0
      let stop := ((index[position]?).map HistoryLine.finish).getD 0
      if limits.maxBytes < stop - start ∨ limits.maxLines = 0 then .error .queryLimit
      else readIndexedRecord externals (stop - start) (answersFrom start)
  | .ok (), none =>
    let answers := answersFrom 0
    match answers.length, answers.checked, answers.opened with
    | .error error, _, _ => .error error
    | _, .error error, _ => .error error
    | _, _, .error error => .error error
    | .ok target, .ok (), .ok () =>
      let scanTarget := min target limits.maxBytes
      scanLoopRecord externals loopId limits target scanTarget (scanTarget + 1) answers.chunks
        scanTarget 0

end Records

section Identities

variable {LoopId Payload : Type}

/-- `StoredIdentityKey`. -/
structure StoredIdentityKey (LoopId : Type) where
  load : String
  sourceRevision : String
  loopId : LoopId
  deriving DecidableEq

/-- `ReadTurnSummary`. -/
structure ReadTurnSummary (LoopId Payload : Type) where
  loopId : LoopId
  usage : Usage
  facts : Payload
  interrupted : Option Payload
  deriving DecidableEq

/-- `StoredIdentity`, without its charge. -/
structure StoredIdentity (LoopId Payload : Type) where
  key : StoredIdentityKey LoopId
  start : Nat
  stop : Nat
  resultId : String
  total : Nat
  metadata : ReadTurnSummary LoopId Payload
  deriving DecidableEq

def maxStoredIdentities : Nat := 2
def maxStoredIdentityBytes : Nat := 256 * 1024

/-- What keeping identities depends on: their sizes, which of them a reader still
holds, the charges that only readers hold, and whether the load is registered. -/
structure IdentityCalls (LoopId Payload : Type) where
  bytesOf : StoredIdentity LoopId Payload → Nat
  busy : StoredIdentity LoopId Payload → Bool
  outsideBytes : Nat
  outsideCount : Nat
  registered : Bool

/-- The loop of `retain_stored_identity`: the oldest entries go until there is room.
The charge of an entry that a reader holds is released later. -/
def makeRoom (calls : IdentityCalls LoopId Payload) (identity : StoredIdentity LoopId Payload) :
    Nat → Nat → List (StoredIdentity LoopId Payload) → List (StoredIdentity LoopId Payload)
  | outsideBytes, outsideCount, entries =>
    if (entries.map calls.bytesOf).sum + outsideBytes + calls.bytesOf identity ≤
          maxStoredIdentityBytes ∧
        entries.length + outsideCount < maxStoredIdentities then entries ++ [identity]
    else
      match entries with
      | [] => []
      | retired :: rest =>
        if calls.busy retired then
          makeRoom calls identity (outsideBytes + calls.bytesOf retired) (outsideCount + 1) rest
        else makeRoom calls identity outsideBytes outsideCount rest

/-- `retain_stored_identity`. -/
def retainStoredIdentity (calls : IdentityCalls LoopId Payload)
    (identity : StoredIdentity LoopId Payload) (entries : List (StoredIdentity LoopId Payload)) :
    List (StoredIdentity LoopId Payload) :=
  if identity.metadata.interrupted.isSome ∨ maxStoredIdentityBytes < calls.bytesOf identity ∨
      calls.registered = false then entries
  else makeRoom calls identity calls.outsideBytes calls.outsideCount entries

/-- `remove_stored_identities`. -/
def removeStoredIdentities (load : String) (entries : List (StoredIdentity LoopId Payload)) :
    List (StoredIdentity LoopId Payload) :=
  entries.filter fun entry => entry.key.load ≠ load

/-- Keeping an identity adds nothing else. -/
theorem retain_entries {calls : IdentityCalls LoopId Payload}
    {identity entry : StoredIdentity LoopId Payload}
    {entries : List (StoredIdentity LoopId Payload)}
    (member : entry ∈ retainStoredIdentity calls identity entries) :
    entry ∈ entries ∨ entry = identity := by
  have room (outsideBytes outsideCount : Nat)
      (kept : entry ∈ makeRoom calls identity outsideBytes outsideCount entries) :
      entry ∈ entries ∨ entry = identity := by
    clear member
    induction entries generalizing outsideBytes outsideCount with
    | nil =>
      unfold makeRoom at kept
      split at kept
      · exact Or.inr (by simpa using kept)
      · cases kept
    | cons retired rest inductionHypothesis =>
      unfold makeRoom at kept
      split at kept
      · rcases List.mem_append.mp kept with old | new
        · exact Or.inl old
        · exact Or.inr (List.mem_singleton.mp new)
      · dsimp only at kept
        split at kept
        · exact (inductionHypothesis _ _ kept).imp_left (List.mem_cons_of_mem retired)
        · exact (inductionHypothesis _ _ kept).imp_left (List.mem_cons_of_mem retired)
  unfold retainStoredIdentity at member
  split at member
  · exact Or.inl member
  · exact room _ _ member

end Identities

section Answers

variable {LoopId Payload Replay Digest : Type} [DecidableEq LoopId]

/-- `TurnResultRequest`; the Session is fixed. -/
structure TurnResultRequest (LoopId : Type) where
  loopId : LoopId
  load : Option String
  resultId : Option String
  cursor : Option ReadCursor
  limit : Nat
  maxBytes : Option Nat
  deriving DecidableEq

def isLowerHexDigit (byte : UInt8) : Bool := isDigit byte || (97 ≤ byte && byte ≤ 102)

/-- The form of an identity: `r1:` and 64 digits. -/
def validResultId (value : String) : Bool :=
  let bytes := value.toUTF8.toList
  bytes.take 3 = ascii "r1:" && (bytes.drop 3).length = 64 && (bytes.drop 3).all isLowerHexDigit

/-- `TurnResultRequest::validate`. -/
def TurnResultRequest.validate (request : TurnResultRequest LoopId) :
    Except ReadPages.AgentError Unit :=
  if ¬ (1 ≤ request.limit ∧ request.limit ≤ maxReadItems) then .error .invalidArguments
  else if request.cursor.any (fun cursor => cursor ≠ ReadCursor.start) ∧ request.resultId.isNone then
    .error .invalidArguments
  else if request.resultId.any (fun value => !validResultId value) then .error .invalidArguments
  else validateMaxBytes request.maxBytes

def TurnResultRequest.start (request : TurnResultRequest LoopId) : ReadCursor :=
  request.cursor.getD .start

def TurnResultRequest.bound (request : TurnResultRequest LoopId) : Nat :=
  request.maxBytes.getD defaultReadMaxBytes

inductive TurnResultAvailability
  | pending
  | live
  | stored
  | unavailable
  deriving DecidableEq, Repr

/-- `TurnResultPage`. -/
structure TurnResultPage (LoopId Payload : Type) where
  loopId : LoopId
  load : Option String
  resultId : Option String
  persistenceUncertain : Bool
  unavailableReason : Option SessionState.UnavailableReason
  availability : TurnResultAvailability
  outcome : Option (LoopOutcomeView Payload)
  persistence : Option SessionState.TurnPersistence
  usage : Option Usage
  requests : Option Nat
  toolRounds : Option Nat
  finalConfigRevision : Option Nat
  completedAt : Option String
  interrupted : Option Payload
  items : List ReadItemChunk
  nextCursor : Option ReadCursor
  total : Nat
  deriving DecidableEq

/-- What `turn.result` reads of a `CompletionEntry`. -/
structure Completion where
  completionKind : SessionState.CompletionKind
  outcomeKind : Option SessionState.LoopOutcomeView
  persistence : Option SessionState.TurnPersistence
  persistenceUncertain : Bool
  availability : SessionState.ResultAvailability
  unavailableReason : Option SessionState.UnavailableReason
  deriving DecidableEq, Repr

/-- What `turn.result` reads of a loaded Session: its load, its history with the index
of the file, its entries in the catalog, and how its turns stand. -/
structure TurnSession (LoopId Payload Replay Digest : Type) where
  load : String
  history : List (HistoryItem Payload Replay)
  index : List (HistoryLine LoopId Digest)
  lookup : LoopId → Option (Completion × Option (PreparedSource Payload))
  isTurnPending : LoopId → Bool
  completedTurn : LoopId → Option (TurnResult Payload)
  uncertainLoop : Option LoopId

/-- What one request meets: the budget where it is asked, the file system, the sizes of
what is encoded, and what keeping an identity depends on. -/
structure TurnCalls (LoopId Payload : Type) where
  cancelled : Bool
  begun : Except StoreError Unit
  answersFrom : Nat → FileAnswers
  preparing : Bool
  viewBudget : ViewPoint → Bool
  retaining : Bool
  identity : IdentityCalls LoopId Payload
  encodedPage : TurnResultPage LoopId Payload → Nat
  encodedCursor : Option ReadCursor → Nat
  encodedLen : ReadItemChunk → Nat
  withinBudget : Checkpoint → Bool

/-- `empty_turn_page`. -/
def emptyTurnPage (loopId : LoopId) (load : Option String) : TurnResultPage LoopId Payload :=
  { loopId := loopId, load := load, resultId := none, persistenceUncertain := false
    unavailableReason := none, availability := .pending, outcome := none, persistence := none
    usage := none, requests := none, toolRounds := none, finalConfigRevision := none
    completedAt := none, interrupted := none, items := [], nextCursor := none, total := 0 }

/-- `completion_outcome`. -/
def completionOutcome : SessionState.LoopOutcomeView → LoopOutcomeView Payload
  | .completed => .completed
  | .cancelled => .cancelled none
  | .failed => .failed "unavailable_details" none
  | .unknown => .unknown

variable (calls : TurnCalls LoopId Payload) (request : TurnResultRequest LoopId)

/-- `unavailable_turn_page`. -/
def unavailableTurnPage (reason : SessionState.UnavailableReason)
    (outcome : Option (LoopOutcomeView Payload))
    (persistence : Option SessionState.TurnPersistence) (uncertain : Bool) :
    Except TurnError (TurnResultPage LoopId Payload) :=
  let page : TurnResultPage LoopId Payload :=
    { (emptyTurnPage request.loopId request.load : TurnResultPage LoopId Payload) with
      availability := .unavailable
      unavailableReason := some reason
      outcome := outcome
      persistence := persistence
      persistenceUncertain := uncertain }
  if request.bound < calls.encodedPage page then .error (.read .invalidArguments) else .ok page

/-- The limit and the sizes with which a page is packed. -/
def TurnCalls.packing (base : TurnResultPage LoopId Payload) : Packing :=
  { maxBytes := request.bound
    encodedLen := calls.encodedLen
    headerBytes := fun _ _ nextCursor =>
      .ok (calls.encodedPage base + calls.encodedCursor nextCursor - 4)
    withinBudget := calls.withinBudget }

/-- `assemble_turn_page`. -/
def assembleTurnPage (base : TurnResultPage LoopId Payload) (encoded : List (Nat × List Char)) :
    Except TurnError (TurnResultPage LoopId Payload) :=
  match packItems (calls.packing request base) request.start base.total (encoded.map .ok) with
  | .error error => .error (.read error)
  | .ok (items, nextCursor) => .ok { base with items := items, nextCursor := nextCursor }

/-- The identity that a request expects. -/
def checkResultId (resultId : String) : Except TurnError Unit :=
  if request.resultId.any (fun expected => expected ≠ resultId) then .error .staleResult else .ok ()

/-- `retained_turn_page`. -/
def retainedTurnPage (source : PreparedSource Payload) (persistenceUncertain : Bool) :
    Except TurnError (TurnResultPage LoopId Payload) :=
  match checkResultId request source.resultId with
  | .error error => .error error
  | .ok () =>
    let total := source.items.length
    match validateCursor request.start total with
    | .error error => .error (.read error)
    | .ok () =>
      let base : TurnResultPage LoopId Payload :=
        { (emptyTurnPage request.loopId request.load : TurnResultPage LoopId Payload) with
          resultId := some source.resultId
          persistenceUncertain := persistenceUncertain
          availability := .live
          outcome := some source.metadata.outcome
          persistence := some source.metadata.persistence
          usage := some source.metadata.usage
          requests := some source.metadata.requests
          toolRounds := some source.metadata.toolRounds
          finalConfigRevision := some source.metadata.finalConfigRevision
          interrupted := source.interrupted
          total := total }
      let stop := min (request.start.item + request.limit) total
      assembleTurnPage calls request base
        (placed request.start.item
          ((source.items.take stop).drop request.start.item))

variable (externals : Externals LoopId Payload Replay Digest)
  (pages : PageExternals LoopId Payload Digest) (turns : TurnExternals Payload)

/-- The page of a stored turn without its items. -/
def storedBase (metadata : ReadTurnSummary LoopId Payload) (resultId : Option String)
    (total : Nat) : TurnResultPage LoopId Payload :=
  let facts := turns.facts metadata.facts
  { (emptyTurnPage request.loopId request.load : TurnResultPage LoopId Payload) with
    resultId := resultId
    availability := .stored
    outcome := some facts.outcome
    persistence := some .persisted
    usage := some metadata.usage
    requests := some facts.requests
    toolRounds := some facts.toolRounds
    finalConfigRevision := some facts.finalConfigRevision
    completedAt := some facts.completedAt
    interrupted := metadata.interrupted
    total := total }

def summaryOf (record : StoredLoopRecord LoopId Payload Replay) : ReadTurnSummary LoopId Payload :=
  { loopId := record.loopId, usage := record.usage, facts := record.facts
    interrupted := record.interrupted }

/-- `stored_turn_page` and `project_turn_page`. -/
def storedTurnPage (record : StoredLoopRecord LoopId Payload Replay) :
    Except TurnError (TurnResultPage LoopId Payload) :=
  match prepareTurnItems externals pages turns record.items record.interrupted request.start
      request.limit request.bound calls.viewBudget with
  | .error error => .error error
  | .ok prepared =>
    match checkResultId request prepared.resultId with
    | .error error => .error error
    | .ok () =>
      assembleTurnPage calls request
        (storedBase request turns (summaryOf record) (some prepared.resultId) prepared.total)
        prepared.encoded

/-- The end of `turn_result`: the record is read from the file. -/
def coldTurnPage (index : Option (List (HistoryLine LoopId Digest))) :
    Except TurnError (TurnResultPage LoopId Payload) :=
  match readLoopRecord externals index request.loopId scanLimits calls.begun calls.answersFrom with
  | .error error => .error (.read (.ofStore error))
  | .ok none => unavailableTurnPage calls request .notRetained none none false
  | .ok (some record) => storedTurnPage calls request externals pages turns record

/-- The page of a turn whose identity is known. -/
def identityPage (identity : StoredIdentity LoopId Payload)
    (encoded : Except TurnError (List (Nat × List Char))) :
    Except TurnError (TurnResultPage LoopId Payload) :=
  match checkResultId request identity.resultId with
  | .error error => .error error
  | .ok () =>
    match encoded with
    | .error error => .error error
    | .ok encoded =>
      assembleTurnPage calls request
        (storedBase request turns identity.metadata (some identity.resultId) identity.total) encoded

variable (session : TurnSession LoopId Payload Replay Digest)
  (identities : List (StoredIdentity LoopId Payload))

/-- `resident_stored_turn_page`, with the identities it leaves. -/
def residentStoredTurnPage (place : LoopItems) :
    Except TurnError (TurnResultPage LoopId Payload) × List (StoredIdentity LoopId Payload) :=
  let key : StoredIdentityKey LoopId :=
    { load := session.load, sourceRevision := place.sourceRevision, loopId := request.loopId }
  match identities.find? (fun entry => decide (entry.key = key)) with
  | some identity =>
    let view := prepareTurnView externals pages turns session.history identity.start identity.stop
      none request.start request.limit request.bound calls.viewBudget
      (some (identity.resultId, identity.total))
    (identityPage calls request turns identity (view.map PreparedTurnItems.encoded), identities)
  | none =>
    if calls.preparing = false then (.error (.read .queryLimit), identities)
    else
      match readLoopRecord externals (some session.index) request.loopId scanLimits calls.begun
          calls.answersFrom with
      | .error error => (.error (.read (.ofStore error)), identities)
      | .ok none => (unavailableTurnPage calls request .notRetained none none false, identities)
      | .ok (some record) =>
        if record.loopId ≠ request.loopId then (.error (.read .invalidState), identities)
        else
          match prepareTurnView externals pages turns session.history place.start place.stop
              record.interrupted request.start request.limit request.bound calls.viewBudget none with
          | .error error => (.error error, identities)
          | .ok first =>
            if calls.retaining = false then (.error (.read .queryLimit), identities)
            else
              let identity : StoredIdentity LoopId Payload :=
                { key := key, start := place.start, stop := place.stop
                  resultId := first.resultId, total := first.total
                  metadata := summaryOf record }
              (identityPage calls request turns identity (.ok first.encoded),
                retainStoredIdentity calls.identity identity identities)

/-- The part of `turn_result` behind the catalog. -/
def settledTurnPage :
    Except TurnError (TurnResultPage LoopId Payload) × List (StoredIdentity LoopId Payload) :=
  let loopId := request.loopId
  let summary := session.completedTurn loopId
  let uncertain := decide (session.uncertainLoop = some loopId)
  if session.isTurnPending loopId then
    if request.load.isNone then (.error .missingLoad, identities)
    else
      match validateCursor request.start 0 with
      | .error error => (.error (.read error), identities)
      | .ok () =>
        let page : TurnResultPage LoopId Payload := emptyTurnPage loopId request.load
        (if request.bound < calls.encodedPage page then .error (.read .invalidArguments)
          else .ok page, identities)
  else if uncertain || summary.any (fun result => result.persistence = .failed) then
    if request.load.isNone then (.error .missingLoad, identities)
    else
      (unavailableTurnPage calls request .expired (summary.map TurnResult.outcome) (some .failed)
        uncertain, identities)
  else
    match loopItemSource pages session.index loopId scanLimits.maxLines with
    | some place =>
      if place.stop ≤ session.history.length then
        residentStoredTurnPage calls request externals pages turns session identities place
      else (coldTurnPage calls request externals pages turns (some session.index), identities)
    | none => (coldTurnPage calls request externals pages turns (some session.index), identities)

/-- `turn_result` of a loaded Session. -/
def loadedTurnPage :
    Except TurnError (TurnResultPage LoopId Payload) × List (StoredIdentity LoopId Payload) :=
  let settled := settledTurnPage calls request externals pages turns session identities
  match request.load with
  | some load =>
    if load ≠ session.load then (.error .staleLoad, identities)
    else
      match session.lookup request.loopId with
      | some (entry, some source) =>
        (retainedTurnPage calls request source entry.persistenceUncertain, identities)
      | some (entry, none) =>
        if entry.availability = .unavailable then
          match entry.unavailableReason with
          -- `expect`: such an entry has a reason.
          | none => (.error (.read .internal), identities)
          | some reason =>
            let outcome :=
              if entry.completionKind = .internalError then none
              else ((session.completedTurn request.loopId).map TurnResult.outcome).or
                (entry.outcomeKind.map completionOutcome)
            (unavailableTurnPage calls request reason outcome entry.persistence
              entry.persistenceUncertain, identities)
        else settled
      | none => settled
  | none =>
    if (session.lookup request.loopId).any (fun found => found.1.persistence ≠ some .persisted) then
      (.error .missingLoad, identities)
    else settled

/-- `turn_result`, with the identities it leaves. -/
def turnResult (session : Option (TurnSession LoopId Payload Replay Digest)) :
    Except TurnError (TurnResultPage LoopId Payload) × List (StoredIdentity LoopId Payload) :=
  match request.validate with
  | .error error => (.error (.read error), identities)
  | .ok () =>
    if calls.cancelled then (.error (.read .queryLimit), identities)
    else
      match session with
      | some session => loadedTurnPage calls request externals pages turns session identities
      | none =>
        if request.load.isSome then (.error .staleLoad, identities)
        else (coldTurnPage calls request externals pages turns none, identities)

end Answers

section Locating

variable {LoopId Payload Replay Digest : Type} [DecidableEq LoopId]
  {externals : Externals LoopId Payload Replay Digest}
  {pages : PageExternals LoopId Payload Digest}
  {lines before after : List (StoredLine LoopId Payload Replay)}
  {line : StoredLine LoopId Payload Replay} {loopId : LoopId}

omit [DecidableEq LoopId] in
/-- The totals before a line are those of the entry before it. -/
theorem entry_before_totals (whole : lines = before ++ after) :
    (((entryBefore (entriesFrom externals [] lines) before.length).map HistoryLine.items).getD 0 =
        itemCount before) ∧
      ((entryBefore (entriesFrom externals [] lines) before.length).map HistoryLine.finish).getD 0 =
        byteCount before := by
  unfold entryBefore
  by_cases first : before.length = 0
  · rw [if_pos first, List.length_eq_zero_iff.mp first]
    exact ⟨rfl, rfl⟩
  · have inside : before.length - 1 < lines.length := by
      rw [whole, List.length_append]
      omega
    have front : lines.take (before.length - 1 + 1) = before := by
      rw [Nat.sub_add_cancel (by omega), whole, List.take_left]
    rw [if_neg first, entries_get [] lines _ inside, front]
    exact ⟨rfl, rfl⟩

omit [DecidableEq LoopId] in
theorem entry_last_loop :
    (entryOf externals (before ++ [line])).usage.lastLoopId = some line.record.loopId := by
  unfold entryOf
  dsimp only
  rw [List.foldl_append]
  rfl

/-- An entry of the index for a loop is the one at the end of its line. -/
theorem entry_located {position : Nat} {entry : HistoryLine LoopId Digest}
    (found : (entriesFrom externals [] lines)[position]? = some entry)
    (own : ofLoop loopId entry = true) :
    ∃ before line after, lines = before ++ line :: after ∧ before.length = position ∧
      entry = entryOf externals (before ++ [line]) ∧ line.record.loopId = loopId := by
  have count : (entriesFrom externals [] lines).length = lines.length := entries_length [] lines
  have inside : position < lines.length := by
    rw [← count]
    exact (List.getElem?_eq_some_iff.mp found).1
  have shape : lines = lines.take position ++ lines[position] :: lines.drop (position + 1) := by
    rw [← List.drop_eq_getElem_cons inside, List.take_append_drop]
  have last : lines.take (position + 1) = lines.take position ++ [lines[position]] :=
    (List.take_concat_get' lines position inside).symm
  rw [entries_get [] lines position inside, List.nil_append, last] at found
  have same := (Option.some.inj found).symm
  refine ⟨_, _, _, shape, List.length_take_of_le (Nat.le_of_lt inside), same, ?_⟩
  rw [ofLoop, same, decide_eq_true_eq, entry_last_loop] at own
  exact Option.some.inj own

/-- The items that the index gives for a loop are those of its line. -/
theorem loop_item_source_some {maxLines : Nat} {place : LoopItems}
    (found : loopItemSource pages (entriesFrom externals [] lines) loopId maxLines = some place) :
    ∃ before line after, lines = before ++ line :: after ∧ line.record.loopId = loopId ∧
      place.start = itemCount before ∧ place.stop = itemCount before + line.items.length := by
  unfold loopItemSource at found
  obtain ⟨fromEnd, search, found⟩ := Option.bind_eq_some_iff.mp found
  obtain ⟨entry, here, rfl⟩ := Option.map_eq_some_iff.mp found
  obtain ⟨inside, passes, _⟩ := List.findIdx?_eq_some_iff_getElem.mp search
  have bound : fromEnd < (entriesFrom externals [] lines).length := by
    rw [List.length_take, List.length_reverse] at inside
    omega
  -- Searching from the end finds the entry that is taken by its position.
  have own : ofLoop loopId entry = true := by
    rw [List.getElem_take, List.getElem_reverse] at passes
    rw [List.getElem?_eq_getElem (by omega)] at here
    rw [← Option.some.inj here]
    exact passes
  obtain ⟨before, line, after, whole, length, same, loop⟩ := entry_located here own
  refine ⟨before, line, after, whole, loop, ?_, ?_⟩
  · dsimp only
    rw [← length]
    exact (entry_before_totals whole).1
  · dsimp only
    rw [same, entryOf, item_count_append]
    rfl

/-- A file is read from an offset: it has its length, and reading yields its bytes and
whatever is appended in the meantime, or fails. -/
structure Reading (file : List UInt8) (offset : Nat) (answers : FileAnswers) : Prop where
  length : ∀ length, answers.length = .ok length → length = file.length
  chunks : ∃ more, Yields False answers.chunks (file.drop offset ++ more)

omit [DecidableEq LoopId] in
theorem decode_result_record_ok {bytes : List UInt8}
    {record : StoredLoopRecord LoopId Payload Replay}
    (formed : line.WellFormed externals) (same : bytes = line.bytes)
    (decoded : decodeResultRecord externals bytes = .ok record) : record = line.record := by
  rw [decodeResultRecord, same, formed.read.1] at decoded
  exact (Except.ok.inj decoded).symm

omit [DecidableEq LoopId] in
/-- A line is read where it lies in the file. -/
theorem file_at_line (whole : lines = before ++ line :: after) (rest : List UInt8) :
    (fileOf lines ++ rest).drop (byteCount before) =
      line.bytes ++ newline :: (fileOf after ++ rest) := by
  rw [whole, file_of_append, file_of_cons, List.append_assoc]
  unfold byteCount
  rw [List.drop_left, List.append_assoc, List.cons_append]

omit [DecidableEq LoopId] in
/-- The record that the index has located is the one of its line. -/
theorem read_indexed_record_some {rest : List UInt8} {answers : FileAnswers}
    {record : StoredLoopRecord LoopId Payload Replay}
    (formed : line.WellFormed externals) (whole : lines = before ++ line :: after)
    (reading : Reading (fileOf lines ++ rest) (byteCount before) answers)
    (read : readIndexedRecord externals (line.bytes.length + 1) answers = .ok (some record)) :
    record = line.record := by
  obtain ⟨more, yields⟩ := reading.chunks
  rw [file_at_line whole, List.append_assoc, List.cons_append] at yields
  unfold readIndexedRecord at read
  split at read
  · cases read
  · cases read
  · rcases read_line_complete LineBuffer.holds_empty yields formed.oneLine
      (by rw [List.nil_append]; exact formed.fits) (Nat.lt_succ_self _) with
        ⟨_, complete, _⟩ | ⟨_, error, failed⟩
    · rw [complete] at read
      obtain ⟨decoded, decodes, same⟩ := Results.map_ok.mp read
      rw [Option.some.inj same]
      exact decode_result_record_ok formed rfl decodes
    · rw [failed] at read
      cases read

/-- Scanning lines and a tail without a newline finds records of lines only. -/
theorem scan_loop_record_some {limits : HistoryScanLimits} {target scanTarget fuel remaining : Nat}
    {chunks : Chunks} {lineCount : Nat} {tail more : List UInt8}
    {record : StoredLoopRecord LoopId Payload Replay}
    (formed : ∀ line ∈ lines, line.WellFormed externals) (unended : newline ∉ tail)
    (yields : Yields False chunks (fileOf lines ++ tail ++ more))
    (bounded : remaining ≤ (fileOf lines ++ tail).length)
    (read : scanLoopRecord externals loopId limits target scanTarget fuel chunks remaining
      lineCount = .ok (some record)) :
    ∃ line ∈ lines, record = line.record ∧ record.loopId = loopId := by
  induction fuel generalizing lines chunks remaining lineCount with
  | zero => cases read
  | succ fuel inductionHypothesis =>
    unfold scanLoopRecord at read
    split at read
    · split at read <;> cases read
    · split at read
      · cases read
      · split at read
        · cases read
        · cases read
        · split at read <;> cases read
        · rename_i bytes rest left complete
          cases lines with
          | nil =>
            rw [file_of_nil, List.nil_append] at yields bounded
            exact absurd complete (read_line_incomplete yields unended bounded _ _ _)
          | cons line others =>
            have here := formed line List.mem_cons_self
            rw [file_of_cons, List.append_assoc, List.append_assoc, List.cons_append] at yields
            by_cases within : line.bytes.length < remaining
            · rcases read_line_complete LineBuffer.holds_empty yields here.oneLine
                (by rw [List.nil_append]; exact here.fits) within with
                  ⟨next, finished, later⟩ | ⟨_, error, failed⟩
              · rw [finished, List.nil_append] at complete
                cases complete
                split at read
                · cases read
                · split at read
                  · cases read
                  · rename_i decoded decodes
                    have same := decode_result_record_ok here rfl decodes
                    split at read
                    · rename_i own
                      cases read
                      exact ⟨line, List.mem_cons_self, same, own⟩
                    · rw [file_of_cons, List.append_assoc, List.length_append,
                        List.cons_append, List.length_cons] at bounded
                      rw [← List.append_assoc] at later
                      obtain ⟨other, member, found⟩ := inductionHypothesis
                        (fun line member => formed line (List.mem_cons_of_mem _ member)) later
                        (by omega) read
                      exact ⟨other, List.mem_cons_of_mem line member, found⟩
              · rw [failed] at complete
                cases complete
            · exact absurd complete
                (read_line_incomplete yields here.oneLine (Nat.le_of_not_lt within) _ _ _)

/-- A record that is found is the one of a line of its loop. -/
theorem read_loop_record_some {index : Option (List (HistoryLine LoopId Digest))}
    {known others : List (StoredLine LoopId Payload Replay)} {tail : List UInt8}
    {limits : HistoryScanLimits} {begun : Except StoreError Unit}
    {answersFrom : Nat → FileAnswers} {record : StoredLoopRecord LoopId Payload Replay}
    (formed : ∀ line ∈ lines, line.WellFormed externals) (unended : newline ∉ tail)
    (indexed : ∀ entries ∈ index, entries = entriesFrom externals [] known)
    (whole : lines = known ++ others)
    (reading : ∀ offset, Reading (fileOf lines ++ tail) offset (answersFrom offset))
    (read : readLoopRecord externals index loopId limits begun answersFrom = .ok (some record)) :
    ∃ line ∈ lines, record = line.record ∧ record.loopId = loopId := by
  unfold readLoopRecord at read
  split at read
  · cases read
  · rename_i entries
    rw [indexed entries rfl] at read
    split at read
    · cases read
    · rename_i position search
      obtain ⟨inside, passes, _⟩ := List.findIdx?_eq_some_iff_getElem.mp search
      obtain ⟨before, line, after, shape, length, same, loop⟩ :=
        entry_located (List.getElem?_eq_getElem inside) passes
      have finish : ((entriesFrom externals [] known)[position]?.map HistoryLine.finish).getD 0 -
          ((entryBefore (entriesFrom externals [] known) position).map HistoryLine.finish).getD 0 =
            line.bytes.length + 1 := by
        rw [← length, (entry_before_totals shape).2, length, List.getElem?_eq_getElem inside, same,
          Option.map_some, Option.getD_some, entryOf, byte_count_append, byte_count_cons,
          byte_count_nil]
        dsimp only
        omega
      have start : ((entryBefore (entriesFrom externals [] known) before.length).map
          HistoryLine.finish).getD 0 = byteCount before := (entry_before_totals shape).2
      rw [length] at start
      dsimp only at read
      rw [finish, start] at read
      split at read
      · cases read
      · have placed : lines = before ++ line :: (after ++ others) := by
          rw [whole, shape, List.append_assoc, List.cons_append]
        have member : line ∈ lines := by
          rw [placed]
          simp
        have found := read_indexed_record_some (formed line member) placed (reading _) read
        exact ⟨line, member, found, by rw [found, loop]⟩
  · dsimp only at read
    split at read
    · cases read
    · cases read
    · cases read
    · rename_i target length _ _
      obtain ⟨more, yields⟩ := (reading 0).chunks
      rw [List.drop_zero] at yields
      refine scan_loop_record_some formed unended yields ?_ read
      rw [(reading 0).length target length]
      exact Nat.min_le_left _ _

end Locating

section Sound

variable {LoopId Payload Replay Digest : Type}
  {externals : Externals LoopId Payload Replay Digest}
  {pages : PageExternals LoopId Payload Digest} {turns : TurnExternals Payload}
  {calls : TurnCalls LoopId Payload} {request : TurnResultRequest LoopId}
  {page : TurnResultPage LoopId Payload} {texts : List (List Char)}

/-- A page of these texts. -/
structure PageOf (texts : List (List Char)) (request : TurnResultRequest LoopId)
    (page : TurnResultPage LoopId Payload) : Prop where
  total : page.total = texts.length
  within : Within texts request.start
  paged : ∃ limit packing, 1 ≤ limit ∧
    itemPage texts request.start limit packing = .ok (page.items, page.nextCursor)

/-- An answer that shows these texts under this identity. It is refused as stale only
where another identity is expected. -/
structure Answered (texts : List (List Char)) (resultId : String)
    (availability : TurnResultAvailability) (request : TurnResultRequest LoopId)
    (answer : Except TurnError (TurnResultPage LoopId Payload)) : Prop where
  page : ∀ page, answer = .ok page →
    page.availability = availability ∧ page.resultId = some resultId ∧ PageOf texts request page
  stale : answer = .error .staleResult → ∃ expected ∈ request.resultId, expected ≠ resultId

/-- An answer that shows no items, and is not refused as stale. -/
structure Unanswered (answer : Except TurnError (TurnResultPage LoopId Payload)) : Prop where
  page : ∀ page, answer = .ok page → page.availability = .pending ∨ page.availability = .unavailable
  fresh : answer ≠ .error .staleResult

theorem unanswered_read (error : ReadPages.AgentError) :
    Unanswered (.error (.read error) : Except TurnError (TurnResultPage LoopId Payload)) :=
  ⟨by simp, by simp⟩

theorem unavailable_unanswered {reason : SessionState.UnavailableReason}
    {outcome : Option (LoopOutcomeView Payload)}
    {persistence : Option SessionState.TurnPersistence} {uncertain : Bool} :
    Unanswered (unavailableTurnPage calls request reason outcome persistence uncertain) := by
  unfold unavailableTurnPage
  dsimp only
  split
  · exact unanswered_read _
  · refine ⟨?_, by simp⟩
    rintro page ⟨rfl⟩
    exact Or.inr rfl

/-- What a request that was accepted is like. -/
theorem turn_request_valid (valid : request.validate = .ok ()) :
    1 ≤ request.limit ∧ 1 ≤ request.bound := by
  unfold TurnResultRequest.validate at valid
  split at valid
  · cases valid
  · rename_i limited
    split at valid
    · cases valid
    · split at valid
      · cases valid
      · refine ⟨(not_not.mp limited).1, ?_⟩
        unfold validateMaxBytes at valid
        unfold TurnResultRequest.bound
        cases chosen : request.maxBytes with
        | none => decide
        | some bytes =>
          rw [chosen] at valid
          split at valid
          · cases valid
          · rename_i fits
            simp only [Option.any_some, Bool.or_eq_true, decide_eq_true_eq, not_or] at fits
            exact Nat.one_le_iff_ne_zero.mpr fits.1

/-- Packing a part of the texts gives a page of them. -/
theorem assemble_answered {base : TurnResultPage LoopId Payload}
    {encoded : List (Nat × List Char)} {resultId : String}
    {availability : TurnResultAvailability} (total : base.total = texts.length)
    (inside : validateCursor request.start texts.length = .ok ())
    (part : ∃ count, 1 ≤ count ∧ encoded.map .ok = encodedFrom texts request.start.item count)
    (named : base.resultId = some resultId) (offered : base.availability = availability) :
    Answered texts resultId availability request (assembleTurnPage calls request base encoded) := by
  obtain ⟨count, positive, same⟩ := part
  unfold assembleTurnPage
  rw [total, same]
  split
  · exact ⟨by simp, by simp⟩
  · rename_i items nextCursor packed
    refine ⟨?_, by simp⟩
    rintro page ⟨rfl⟩
    exact ⟨offered, named, rfl, validate_cursor_within inside, count, _, positive, packed⟩

/-- A check that fails is a refusal as stale. -/
theorem check_result_id {resultId : String} {error : TurnError}
    (failed : checkResultId request resultId = .error error) :
    ∃ expected ∈ request.resultId, expected ≠ resultId := by
  unfold checkResultId at failed
  split at failed
  · rename_i other
    obtain ⟨expected, member, apart⟩ := (Option.any_eq_true _ _).mp other
    exact ⟨expected, member, by simpa using apart⟩
  · cases failed

/-- A retained source is answered from. -/
theorem retained_answered {source : PreparedSource Payload} {uncertain : Bool}
    (limited : 1 ≤ request.limit) :
    Answered source.items source.resultId .live request
      (retainedTurnPage calls request source uncertain) := by
  unfold retainedTurnPage
  split
  · rename_i failed
    exact ⟨by simp, fun _ => check_result_id failed⟩
  · dsimp only
    split
    · exact ⟨by simp, by simp⟩
    · rename_i inside
      refine assemble_answered rfl inside ⟨request.limit, limited, ?_⟩ rfl rfl
      have bounded : (source.items.take (min (request.start.item + request.limit)
          source.items.length)).drop request.start.item =
            (source.items.drop request.start.item).take request.limit := by
        rw [← List.take_eq_take_min, List.drop_take, Nat.add_sub_cancel_left]
      rw [bounded, encoded_from_placed]

/-- A stored record is answered from, unless it cannot be prepared. -/
theorem stored_answered (streams : Streams externals turns) (limited : 1 ≤ request.limit)
    (room : 1 ≤ request.bound) {line : StoredLine LoopId Payload Replay}
    (formed : line.WellFormed externals) :
    Unanswered (storedTurnPage calls request externals pages turns line.record) ∨
    ∃ texts, Written turns (line.items.filterMap SourceItem.fromHistory) texts ∧
      Answered texts (resultIdOf externals pages turns texts line.record.interrupted) .stored request
        (storedTurnPage calls request externals pages turns line.record) := by
  unfold storedTurnPage
  split
  · rename_i failed
    obtain ⟨cause, rfl⟩ := prepare_turn_view_error failed
    exact Or.inl (unanswered_read cause)
  · rename_i prepared prepares
    right
    obtain ⟨texts, prepared', identity⟩ := prepare_turn_view_unknown streams limited room prepares
    rw [List.take_length, List.drop_zero, ← from_history_normalized formed.read.2] at prepared'
    refine ⟨texts, prepared'.written, ?_⟩
    rw [← identity]
    split
    · rename_i failed
      exact ⟨by simp, fun _ => check_result_id failed⟩
    · exact assemble_answered prepared'.total prepared'.inside prepared'.encoded rfl rfl

variable {session : TurnSession LoopId Payload Replay Digest}
  {identities : List (StoredIdentity LoopId Payload)}
  {lines before after known others : List (StoredLine LoopId Payload Replay)}
  {line : StoredLine LoopId Payload Replay} {tail : List UInt8}

/-- The items of a line, taken out of a history that has them. -/
theorem history_slice {history : List (HistoryItem Payload Replay)}
    (beginning : history <+: lines.flatMap StoredLine.items)
    (whole : lines = before ++ line :: after)
    (inside : itemCount before + line.items.length ≤ history.length) :
    (history.take (itemCount before + line.items.length)).drop (itemCount before) = line.items := by
  have count : (before.flatMap StoredLine.items).length = itemCount before := by
    rw [List.length_flatMap]
    rfl
  obtain ⟨rest, joined⟩ := beginning
  have longer : history.take (itemCount before + line.items.length) =
      (history ++ rest).take (itemCount before + line.items.length) :=
    (List.take_append_of_le_length inside).symm
  rw [longer, joined, whole, List.flatMap_append, List.flatMap_cons, ← count,
    List.take_length_add_append, List.drop_left, List.take_left]

variable (externals pages turns lines) in
/-- A kept identity that is right for its line. -/
def Right (entry : StoredIdentity LoopId Payload) : Prop :=
  ∃ before line after texts, lines = before ++ line :: after ∧
    line.record.loopId = entry.key.loopId ∧ entry.start = itemCount before ∧
    entry.stop = itemCount before + line.items.length ∧
    Written turns (line.items.filterMap SourceItem.fromHistory) texts ∧
    entry.total = texts.length ∧
    entry.resultId = resultIdOf externals pages turns texts line.record.interrupted

variable (externals pages turns) in
/-- What a Session and the identities have to do with the lines of the file: the index
and the history are of the first lines, and what is kept for the load is right. -/
structure Consistent (lines : List (StoredLine LoopId Payload Replay))
    (session : TurnSession LoopId Payload Replay Digest)
    (identities : List (StoredIdentity LoopId Payload)) : Prop where
  known : ∃ known others, lines = known ++ others ∧
    session.index = entriesFrom externals [] known ∧
    session.history <+: known.flatMap StoredLine.items
  right : ∀ entry ∈ identities, entry.key.load = session.load →
    Right externals pages turns lines entry

/-- An answer from some line of the loop that is asked for, or none. -/
def FromLine (externals : Externals LoopId Payload Replay Digest)
    (pages : PageExternals LoopId Payload Digest) (turns : TurnExternals Payload)
    (lines : List (StoredLine LoopId Payload Replay)) (request : TurnResultRequest LoopId)
    (answer : Except TurnError (TurnResultPage LoopId Payload)) : Prop :=
  Unanswered answer ∨
  ∃ line ∈ lines, line.record.loopId = request.loopId ∧ ∃ texts,
    Written turns (line.items.filterMap SourceItem.fromHistory) texts ∧
    Answered texts (resultIdOf externals pages turns texts line.record.interrupted) .stored request
      answer

/-- A page whose identity is right is answered from. -/
theorem identity_answered {identity : StoredIdentity LoopId Payload}
    {encoded : Except TurnError (List (Nat × List Char))} {resultId : String}
    (named : identity.resultId = resultId)
    (refused : ∀ error, encoded = .error error → ∃ cause, error = .read cause)
    (total : identity.total = texts.length)
    (page : ∀ part, encoded = .ok part → validateCursor request.start texts.length = .ok () ∧
      ∃ count, 1 ≤ count ∧ part.map .ok = encodedFrom texts request.start.item count) :
    Answered texts resultId .stored request (identityPage calls request turns identity encoded) := by
  unfold identityPage
  split
  · rename_i failed
    exact ⟨by simp, fun _ => named ▸ check_result_id failed⟩
  · split
    · rename_i error
      obtain ⟨cause, rfl⟩ := refused error rfl
      exact ⟨by simp, by simp⟩
    · rename_i part
      obtain ⟨inside, shown⟩ := page part rfl
      exact assemble_answered total inside shown (by rw [← named]; rfl) rfl

variable [DecidableEq LoopId]

/-- A record that is read from the file is answered from. -/
theorem cold_answered (streams : Streams externals turns) (limited : 1 ≤ request.limit)
    (room : 1 ≤ request.bound) (formed : ∀ line ∈ lines, line.WellFormed externals)
    (unended : newline ∉ tail) {index : Option (List (HistoryLine LoopId Digest))}
    (indexed : ∀ entries ∈ index, entries = entriesFrom externals [] known)
    (whole : lines = known ++ others)
    (reading : ∀ offset, Reading (fileOf lines ++ tail) offset (calls.answersFrom offset)) :
    FromLine externals pages turns lines request
      (coldTurnPage calls request externals pages turns index) := by
  unfold coldTurnPage
  split
  · exact Or.inl (unanswered_read _)
  · exact Or.inl unavailable_unanswered
  · rename_i record read
    obtain ⟨line, member, rfl, loop⟩ :=
      read_loop_record_some formed unended indexed whole reading read
    rcases stored_answered streams limited room (formed line member) with none | answered
    · exact Or.inl none
    · exact Or.inr ⟨line, member, loop, answered⟩

omit [DecidableEq LoopId] in
/-- The view of a turn whose kept identity is right is a page of it. -/
theorem known_view_answered (streams : Streams externals turns) (limited : 1 ≤ request.limit)
    (room : 1 ≤ request.bound) (covered : session.history <+: lines.flatMap StoredLine.items)
    {identity : StoredIdentity LoopId Payload}
    (right : Right externals pages turns lines identity)
    (asked : identity.key.loopId = request.loopId) :
    FromLine externals pages turns lines request
      (identityPage calls request turns identity
        ((prepareTurnView externals pages turns session.history identity.start identity.stop none
          request.start request.limit request.bound calls.viewBudget
          (some (identity.resultId, identity.total))).map PreparedTurnItems.encoded)) := by
  obtain ⟨before, line, after, texts, shape, loop, start, stop, written, total, named⟩ := right
  refine Or.inr ⟨line, by rw [shape]; simp, by rw [loop, asked], texts, written, ?_⟩
  apply identity_answered named _ total
  · intro part encoded
    obtain ⟨prepared, prepares, rfl⟩ := Results.map_ok.mp encoded
    have inside := (prepare_turn_view_ok prepares).1
    rw [stop] at inside
    have slice := history_slice covered shape inside
    rw [start, stop, total] at prepares
    obtain ⟨shown, _⟩ :=
      prepare_turn_view_known streams limited room (by rw [slice]; exact written) prepares
    exact ⟨shown.inside, shown.encoded⟩
  · intro error failed
    cases view : prepareTurnView externals pages turns session.history identity.start identity.stop
        none request.start request.limit request.bound calls.viewBudget
        (some (identity.resultId, identity.total)) with
    | error cause =>
      rw [view] at failed
      cases failed
      exact prepare_turn_view_error view
    | ok prepared =>
      rw [view] at failed
      cases failed

/-- A turn in memory is answered from, and what is kept for it is right. -/
theorem resident_answered (streams : Streams externals turns) (limited : 1 ≤ request.limit)
    (room : 1 ≤ request.bound) (formed : ∀ line ∈ lines, line.WellFormed externals)
    (distinct : (lines.map (fun line => line.record.loopId)).Nodup) (unended : newline ∉ tail)
    (consistent : Consistent externals pages turns lines session identities)
    (reading : ∀ offset, Reading (fileOf lines ++ tail) offset (calls.answersFrom offset))
    {place : LoopItems} {maxLines : Nat}
    (located : loopItemSource pages session.index request.loopId maxLines = some place)
    {answer : Except TurnError (TurnResultPage LoopId Payload)}
    {kept : List (StoredIdentity LoopId Payload)}
    (done : residentStoredTurnPage calls request externals pages turns session identities place =
      (answer, kept)) :
    FromLine externals pages turns lines request answer ∧
      ∀ entry ∈ kept, entry ∈ identities ∨
        entry.key.load = session.load ∧ Right externals pages turns lines entry := by
  obtain ⟨known, others, whole, indexed, history⟩ := consistent.known
  have covered : session.history <+: lines.flatMap StoredLine.items := by
    rw [whole, List.flatMap_append]
    exact history.trans (List.prefix_append _ _)
  have unread (cause : ReadPages.AgentError) :
      FromLine externals pages turns lines request (.error (.read cause)) ∧
        ∀ entry ∈ identities, entry ∈ identities ∨
          entry.key.load = session.load ∧ Right externals pages turns lines entry :=
    ⟨Or.inl (unanswered_read cause), fun entry member => Or.inl member⟩
  unfold residentStoredTurnPage at done
  dsimp only at done
  split at done
  · rename_i identity found
    have same := List.find?_some found
    rw [decide_eq_true_eq] at same
    have own : identity.key.load = session.load := by rw [same]
    have right := consistent.right identity (List.mem_of_find?_eq_some found) own
    cases done
    refine ⟨known_view_answered streams limited room covered right (by rw [same]), ?_⟩
    exact fun entry member => Or.inl member
  · split at done
    · cases done
      exact unread _
    · split at done
      · cases done
        exact unread _
      · cases done
        exact ⟨Or.inl unavailable_unanswered, fun entry member => Or.inl member⟩
      · rename_i record read
        split at done
        · cases done
          exact unread _
        · split at done
          · rename_i failed
            obtain ⟨cause, rfl⟩ := prepare_turn_view_error failed
            cases done
            exact unread _
          · rename_i first prepares
            split at done
            · cases done
              exact unread _
            · cases done
              -- The line whose record was read is the one that the index located.
              obtain ⟨line, member, rfl, loop⟩ :=
                read_loop_record_some formed unended
                  (by rintro _ ⟨rfl⟩; exact indexed) whole reading read
              rw [indexed] at located
              obtain ⟨before, other, after, shape, again, start, stop⟩ :=
                loop_item_source_some located
              have placed : lines = before ++ other :: (after ++ others) := by
                rw [whole, shape, List.append_assoc, List.cons_append]
              have same : other = line := by
                apply List.inj_on_of_nodup_map distinct (by rw [placed]; simp) member
                rw [again, loop]
              subst same
              have inside := (prepare_turn_view_ok prepares).1
              rw [stop] at inside
              have slice := history_slice covered placed inside
              rw [start, stop] at prepares
              obtain ⟨texts, shown, named⟩ :=
                prepare_turn_view_unknown streams limited room prepares
              rw [slice] at shown
              refine ⟨Or.inr ⟨other, member, loop, texts, shown.written, ?_⟩, ?_⟩
              · apply identity_answered named _ shown.total
                · rintro _ ⟨rfl⟩
                  exact ⟨shown.inside, shown.encoded⟩
                · rintro _ ⟨⟩
              · intro entry kept
                rcases retain_entries kept with old | rfl
                · exact Or.inl old
                · exact Or.inr ⟨rfl, before, other, _, texts, placed, loop, start, stop,
                    shown.written, shown.total, named⟩

variable {answer : Except TurnError (TurnResultPage LoopId Payload)}
  {kept : List (StoredIdentity LoopId Payload)}

/-- Behind the catalog, a loaded Session answers from a line or not at all. -/
theorem settled_answered (streams : Streams externals turns) (limited : 1 ≤ request.limit)
    (room : 1 ≤ request.bound) (formed : ∀ line ∈ lines, line.WellFormed externals)
    (distinct : (lines.map (fun line => line.record.loopId)).Nodup) (unended : newline ∉ tail)
    (consistent : Consistent externals pages turns lines session identities)
    (reading : ∀ offset, Reading (fileOf lines ++ tail) offset (calls.answersFrom offset))
    (done : settledTurnPage calls request externals pages turns session identities =
      (answer, kept)) :
    FromLine externals pages turns lines request answer ∧
      ∀ entry ∈ kept, entry ∈ identities ∨
        entry.key.load = session.load ∧ Right externals pages turns lines entry := by
  obtain ⟨known, others, whole, indexed, _⟩ := consistent.known
  have cold : FromLine externals pages turns lines request
      (coldTurnPage calls request externals pages turns (some session.index)) := by
    apply cold_answered streams limited room formed unended _ whole reading
    rintro _ ⟨rfl⟩
    exact indexed
  have idle (entry : StoredIdentity LoopId Payload) (member : entry ∈ identities) :
      entry ∈ identities ∨
        entry.key.load = session.load ∧ Right externals pages turns lines entry := Or.inl member
  unfold settledTurnPage at done
  dsimp only at done
  split at done
  · split at done
    · cases done
      exact ⟨Or.inl ⟨by simp, by simp⟩, idle⟩
    · split at done
      · cases done
        exact ⟨Or.inl (unanswered_read _), idle⟩
      · cases done
        refine ⟨Or.inl ?_, idle⟩
        split
        · exact unanswered_read _
        · refine ⟨?_, by simp⟩
          rintro page ⟨rfl⟩
          exact Or.inl rfl
  · split at done
    · split at done
      · cases done
        exact ⟨Or.inl ⟨by simp, by simp⟩, idle⟩
      · cases done
        exact ⟨Or.inl unavailable_unanswered, idle⟩
    · split at done
      · rename_i place located
        split at done
        · exact resident_answered streams limited room formed distinct unended consistent reading
            located done
        · cases done
          exact ⟨cold, idle⟩
      · cases done
        exact ⟨cold, idle⟩

/-- Every answer is from a retained source, from a line of the loop that is asked for,
or shows no items. What is kept anew is right. -/
theorem turn_result_cases (streams : Streams externals turns)
    (formed : ∀ line ∈ lines, line.WellFormed externals)
    (distinct : (lines.map (fun line => line.record.loopId)).Nodup) (unended : newline ∉ tail)
    {session : Option (TurnSession LoopId Payload Replay Digest)}
    (consistent : ∀ loaded ∈ session, Consistent externals pages turns lines loaded identities)
    (reading : ∀ offset, Reading (fileOf lines ++ tail) offset (calls.answersFrom offset))
    (done : turnResult calls request externals pages turns identities session = (answer, kept)) :
    ((∃ loaded entry source, session = some loaded ∧
        loaded.lookup request.loopId = some (entry, some source) ∧
        Answered source.items source.resultId .live request answer) ∨
      FromLine externals pages turns lines request answer) ∧
    ∀ entry ∈ kept, entry ∈ identities ∨ ∃ loaded ∈ session,
      entry.key.load = loaded.load ∧ Right externals pages turns lines entry := by
  unfold turnResult at done
  split at done
  · cases done
    exact ⟨Or.inr (Or.inl (unanswered_read _)), fun entry member => Or.inl member⟩
  · rename_i valid
    obtain ⟨limited, room⟩ := turn_request_valid valid
    split at done
    · cases done
      exact ⟨Or.inr (Or.inl (unanswered_read _)), fun entry member => Or.inl member⟩
    · cases session with
      | none =>
        dsimp only at done
        split at done
        · cases done
          exact ⟨Or.inr (Or.inl ⟨by simp, by simp⟩), fun entry member => Or.inl member⟩
        · cases done
          refine ⟨Or.inr ?_, fun entry member => Or.inl member⟩
          exact cold_answered streams limited room formed unended (by simp)
            (List.append_nil lines).symm reading
      | some loaded =>
        have settled (done : settledTurnPage calls request externals pages turns loaded identities =
            (answer, kept)) :
            ((∃ other entry source, some loaded = some other ∧
                other.lookup request.loopId = some (entry, some source) ∧
                Answered source.items source.resultId .live request answer) ∨
              FromLine externals pages turns lines request answer) ∧
            ∀ entry ∈ kept, entry ∈ identities ∨ ∃ other ∈ some loaded,
              entry.key.load = other.load ∧ Right externals pages turns lines entry := by
          obtain ⟨answered, right⟩ := settled_answered streams limited room formed distinct unended
            (consistent loaded rfl) reading done
          refine ⟨Or.inr answered, ?_⟩
          intro entry member
          exact (right entry member).imp_right (fun own => ⟨loaded, rfl, own⟩)
        dsimp only at done
        unfold loadedTurnPage at done
        dsimp only at done
        split at done
        · split at done
          · cases done
            exact ⟨Or.inr (Or.inl ⟨by simp, by simp⟩), fun entry member => Or.inl member⟩
          · split at done
            · rename_i entry source found
              cases done
              exact ⟨Or.inl ⟨loaded, entry, source, rfl, found, retained_answered limited⟩,
                fun entry member => Or.inl member⟩
            · split at done
              · split at done
                · cases done
                  exact ⟨Or.inr (Or.inl (unanswered_read _)), fun entry member => Or.inl member⟩
                · cases done
                  exact ⟨Or.inr (Or.inl unavailable_unanswered),
                    fun entry member => Or.inl member⟩
              · exact settled done
            · exact settled done
        · split at done
          · cases done
            exact ⟨Or.inr (Or.inl ⟨by simp, by simp⟩), fun entry member => Or.inl member⟩
          · exact settled done

end Sound

end MinicoreAgent.TurnResults

import MinicoreAgent.HistoryAppend

/-!
# Pages of the history file

`read_history_page` has two readers. A loaded Session has the index of its lines in
memory: the page is located by searching it, and only the lines of the page are
read. Without an index the file is scanned from its beginning and every line is
decoded. A request may be capped at a number of visible items, and it may be pinned
to the end and the revision that an earlier page reported.

Both readers take the file as the chunks that reading yields. A chunk may also be a
failure: an I/O error, or a budget that has run out. The projection for display is
not part of this model.
-/
namespace MinicoreAgent.HistoryStore

/-- What reading a page calls outside: the loop of a prompt, and the text of a
digest. -/
structure PageExternals (LoopId Payload Digest : Type) where
  userLoopId : Payload → LoopId
  digestHex : Digest → String

def isHexDigit (byte : UInt8) : Bool :=
  isDigit byte || (65 ≤ byte && byte ≤ 70) || (97 ≤ byte && byte ≤ 102)

/-- `valid_sha256`. -/
def validSha256 (value : String) : Bool :=
  let bytes := value.toUTF8.toList
  bytes.length = 64 && bytes.all isHexDigit

/-- `StoredTurnSummary`. -/
structure StoredTurnSummary (LoopId Payload : Type) where
  itemStart : Nat
  itemEnd : Nat
  loopId : LoopId
  usage : Usage
  facts : Payload
  interrupted : Option Payload
  deriving DecidableEq

/-- What a page shows of the records: items with their times, and the turns they
belong to. -/
structure PageParts (LoopId Payload Replay : Type) where
  items : List (HistoryItem Payload Replay)
  userTimes : List (Option String)
  turns : List (StoredTurnSummary LoopId Payload)
  turnsTruncated : Bool
  deriving DecidableEq

def PageParts.empty {LoopId Payload Replay : Type} : PageParts LoopId Payload Replay :=
  { items := [], userTimes := [], turns := [], turnsTruncated := false }

/-- `HistoryReadPage`. -/
structure HistoryReadPage (LoopId Payload Replay : Type) where
  parts : PageParts LoopId Payload Replay
  capturedEnd : Nat
  revision : String
  trailingIncomplete : Bool
  totalItems : Nat
  deriving DecidableEq

def maxReadTurnSummaries : Nat := 64

/-- What is asked for: the items of a range, the visible items, and the end and
revision of an earlier page. -/
structure PageRequest where
  itemOffset : Nat
  itemLimit : Nat
  visibleItemCount : Option Nat
  capturedEnd : Option Nat
  expectedRevision : Option String

/-- `HistoryScanLimits`, apart from the deadline. -/
structure HistoryScanLimits where
  maxBytes : Nat
  maxLines : Nat

/-- What reading yields, part by part; a failure ends it. -/
abbrev Chunks := List (Except StoreError (List UInt8))

/-- The answers of the file system and of the budget during one request. -/
structure FileAnswers where
  length : Except StoreError Nat
  checked : Except StoreError Unit
  opened : Except StoreError Unit
  chunks : Chunks

inductive BoundedLine
  | finished
  | complete (line : List UInt8)
  | unfinished
  deriving DecidableEq

/-- `read_bounded_line`: the line, what is left of the chunks, and how many bytes
may still be read. -/
def readBoundedLine : Chunks → Nat → LineBuffer → Except StoreError (BoundedLine × Chunks × Nat)
  | [], remaining, line =>
    if remaining = 0 then
      .ok (if line.buffer.isEmpty then .finished else .unfinished, [], 0)
    else .ok (.finished, [], remaining)
  | .error error :: rest, remaining, line =>
    if remaining = 0 then
      .ok (if line.buffer.isEmpty then .finished else .unfinished, .error error :: rest, 0)
    else .error error
  | .ok chunk :: rest, remaining, line =>
    if remaining = 0 then
      .ok (if line.buffer.isEmpty then .finished else .unfinished, .ok chunk :: rest, 0)
    else if chunk.isEmpty then readBoundedLine rest remaining line
    else
      let part := chunk.take remaining
      match part.findIdx? (· = newline) with
      | some position =>
        let line := line.extend (part.take position)
        if line.oversized then .error .corrupt
        else .ok (.complete line.buffer, .ok (chunk.drop (position + 1)) :: rest,
          remaining - (position + 1))
      | none =>
        let line := line.extend part
        if part.length < chunk.length then
          .ok (if line.buffer.isEmpty then .finished else .unfinished,
            .ok (chunk.drop part.length) :: rest, 0)
        else readBoundedLine rest (remaining - part.length) line

variable {LoopId Payload Replay Digest : Type}
  (externals : Externals LoopId Payload Replay Digest)
  (pages : PageExternals LoopId Payload Digest)

section Records

/-- The time of a prompt: as the loaded Session knows it, else as stored. -/
def promptTime (loadedTimes : Option (Times LoopId)) (storedTimes : List (Option String))
    (user : Payload) (occurrence : Nat) : Option String :=
  (loadedTimes.bind fun times => times (pages.userLoopId user, occurrence)).or
    (storedTimes[occurrence]?).join

/-- The items of a record that lie in the range, with their times. -/
def itemsInRange (loadedTimes : Option (Times LoopId)) (storedTimes : List (Option String))
    (first bound : Nat) : List (HistoryItem Payload Replay) → Nat → Nat →
    List (HistoryItem Payload Replay × Option String)
  | [], _, _ => []
  | item :: rest, position, occurrence =>
    let timed : Option String × Nat :=
      match item with
      | .user user => (promptTime pages loadedTimes storedTimes user occurrence, occurrence + 1)
      | _ => (none, occurrence)
    let later := itemsInRange loadedTimes storedTimes first bound rest (position + 1) timed.2
    if first ≤ position ∧ position < bound then (item, timed.1) :: later else later

/-- `append_page_record`. -/
def appendPageRecord (parts : PageParts LoopId Payload Replay)
    (record : StoredLoopRecord LoopId Payload Replay) (items : List (HistoryItem Payload Replay))
    (itemStart first bound : Nat) (loadedTimes : Option (Times LoopId)) :
    PageParts LoopId Payload Replay :=
  let shown := itemsInRange pages loadedTimes (record.normalizedUserTimes.getD []) first bound
    items itemStart 0
  let summary : StoredTurnSummary LoopId Payload :=
    { itemStart := itemStart, itemEnd := itemStart + items.length, loopId := record.loopId,
      usage := record.usage, facts := record.facts, interrupted := record.interrupted }
  let grown : PageParts LoopId Payload Replay :=
    { parts with
      items := parts.items ++ shown.map Prod.fst
      userTimes := parts.userTimes ++ shown.map Prod.snd }
  if parts.turns.length < maxReadTurnSummaries then
    { grown with turns := parts.turns ++ [summary] }
  else { grown with turnsTruncated := true }

/-- The record of a line and its normalized items. -/
def decodeLine (line : List UInt8) :
    Except StoreError (StoredLoopRecord LoopId Payload Replay × List (HistoryItem Payload Replay)) :=
  match readRecord externals line with
  | none => .error .corrupt
  | some record =>
    match normalizeHistory externals record.items with
    | none => .error .corrupt
    | some normalized => .ok (record, normalized)

end Records

section Indexed

/-- `partition_point` of a partitioned list. -/
def partitionPoint {Entry : Type} (test : Entry → Bool) (entries : List Entry) : Nat :=
  (entries.takeWhile test).length

/-- `IndexedPage`: where the lines of the page are, and what is known of the page
without reading them. -/
structure IndexedPage (LoopId Payload Replay : Type) where
  start : Nat
  stop : Nat
  firstItem : Nat
  page : HistoryReadPage LoopId Payload Replay

/-- The lines of the index that a request may show. -/
def visibleIndex (index : List (HistoryLine LoopId Digest)) (request : PageRequest) :
    List (HistoryLine LoopId Digest) :=
  let count :=
    match request.capturedEnd with
    | none =>
      match request.visibleItemCount with
      | none => index.length
      | some cap => partitionPoint (fun line => decide (line.items ≤ cap)) index
    | some captured => partitionPoint (fun line => decide (line.finish ≤ captured)) index
  index.take count

/-- `indexed_page`. -/
def indexedPage (index : List (HistoryLine LoopId Digest)) (request : PageRequest) :
    Except StoreError (IndexedPage LoopId Payload Replay) :=
  let index := visibleIndex index request
  let last := index.getLast?
  let capturedEnd := (last.map HistoryLine.finish).getD 0
  let totalItems := (last.map HistoryLine.items).getD 0
  if request.capturedEnd.any (fun captured => captured ≠ capturedEnd) ||
      request.visibleItemCount.any (fun cap => cap < totalItems) then .error .historyChanged
  else
    let revision := pages.digestHex ((last.map HistoryLine.hash).getD externals.newDigest)
    if request.expectedRevision.any (fun expected => expected ≠ revision) then
      .error .historyChanged
    else
      let first := partitionPoint (fun line => decide (line.items ≤ request.itemOffset)) index
      let start := if first = 0 then none else index[first - 1]?
      let final := partitionPoint
        (fun line => decide (line.items < request.itemOffset + request.itemLimit)) index
      let startEnd := (start.map HistoryLine.finish).getD 0
      let stop :=
        if request.itemLimit = 0 ∨ first = index.length then startEnd
        else ((index[min final (index.length - 1)]?).map HistoryLine.finish).getD 0
      .ok
        { start := startEnd
          stop := stop
          firstItem := (start.map HistoryLine.items).getD 0
          page :=
            { parts := .empty, capturedEnd := capturedEnd, revision := revision,
              trailingIncomplete := false, totalItems := totalItems } }

/-- The loop of `read_indexed_page`. -/
def readIndexedLines (request : PageRequest) (loadedTimes : Option (Times LoopId))
    (limits : HistoryScanLimits) : Nat → Chunks → Nat → Nat → Nat → Nat →
    PageParts LoopId Payload Replay → Except StoreError (PageParts LoopId Payload Replay)
  | 0, _, _, _, _, _, _ => .error .unavailable
  | fuel + 1, chunks, remaining, scannedLines, scannedBytes, itemStart, parts =>
    if remaining = 0 then .ok parts
    else if limits.maxLines ≤ scannedLines ∨ limits.maxBytes ≤ scannedBytes then
      .error .queryLimit
    else
      match readBoundedLine chunks remaining .empty with
      | .error error => .error error
      | .ok (.complete line, rest, left) =>
        if limits.maxBytes < scannedBytes + (line.length + 1) then .error .queryLimit
        else
          match decodeLine externals line with
          | .error error => .error error
          | .ok (record, items) =>
            readIndexedLines request loadedTimes limits fuel rest left (scannedLines + 1)
              (scannedBytes + (line.length + 1)) (itemStart + items.length)
              (appendPageRecord pages parts record items itemStart request.itemOffset
                (request.itemOffset + request.itemLimit) loadedTimes)
      | .ok _ => .error .historyChanged

/-- `read_indexed_page`, of a file that is read from where the page begins. -/
def readIndexedPage (indexed : IndexedPage LoopId Payload Replay) (request : PageRequest)
    (loadedTimes : Option (Times LoopId)) (limits : HistoryScanLimits) (answers : FileAnswers) :
    Except StoreError (HistoryReadPage LoopId Payload Replay) :=
  match answers.checked, answers.length, answers.opened with
  | .error error, _, _ => .error error
  | _, .error error, _ => .error error
  | _, _, .error error => .error error
  | .ok (), .ok _, .ok () =>
    (readIndexedLines externals pages request loadedTimes limits
      (indexed.stop - indexed.start + 1) answers.chunks (indexed.stop - indexed.start) 0 0
      indexed.firstItem indexed.page.parts).map fun parts => { indexed.page with parts := parts }

/-- `scan_history_page` with an index: the file is read from the offset that the
index gives. -/
def indexedHistoryPage (index : List (HistoryLine LoopId Digest)) (request : PageRequest)
    (loadedTimes : Option (Times LoopId)) (limits : HistoryScanLimits)
    (answersFrom : Nat → FileAnswers) :
    Except StoreError (HistoryReadPage LoopId Payload Replay) :=
  if request.capturedEnd.isSome ≠ request.expectedRevision.isSome then .error .invalidArguments
  else
    match indexedPage externals pages index request with
    | .error error => .error error
    | .ok indexed =>
      readIndexedPage externals pages indexed request loadedTimes limits (answersFrom indexed.start)

end Indexed

section Scanning

/-- The state of the scan. -/
structure Scan (LoopId Payload Replay Digest : Type) where
  chunks : Chunks
  remaining : Nat
  completeEnd : Nat
  hasher : Digest
  lineCount : Nat
  totalItems : Nat
  retainedSourceBytes : Nat
  parts : PageParts LoopId Payload Replay
  stoppedAtVisibleCap : Bool
  trailingIncomplete : Bool

/-- One complete line of the scan. -/
def scanLine (request : PageRequest) (loadedTimes : Option (Times LoopId))
    (limits : HistoryScanLimits) (scanTarget : Nat) (scan : Scan LoopId Payload Replay Digest)
    (line : List UInt8) (rest : Chunks) (left : Nat) :
    Except StoreError (Scan LoopId Payload Replay Digest) :=
  if line.isEmpty then .error .corrupt
  else
    match decodeLine externals line with
    | .error error => .error error
    | .ok (record, normalized) =>
      let recordStart := scan.totalItems
      let recordEnd := recordStart + normalized.length
      let pageEnd := request.itemOffset + request.itemLimit
      let onPage := decide (request.itemOffset < recordEnd ∧ recordStart < pageEnd)
      let retained := scan.retainedSourceBytes + if onPage then line.length else 0
      if request.visibleItemCount.any (fun cap => cap < recordEnd) then .error .historyChanged
      else if onPage ∧ limits.maxBytes - maxLoopRecordBytes < retained then .error .queryLimit
      else
        .ok
          { chunks := rest
            remaining := left
            completeEnd := scanTarget - left
            hasher := externals.update (externals.update scan.hasher line) [newline]
            lineCount := scan.lineCount + 1
            totalItems := recordEnd
            retainedSourceBytes := retained
            parts :=
              if onPage then
                appendPageRecord pages scan.parts record normalized recordStart
                  request.itemOffset pageEnd loadedTimes
              else scan.parts
            stoppedAtVisibleCap :=
              request.visibleItemCount.any (fun cap => 0 < cap ∧ cap = recordEnd)
            trailingIncomplete := false }

/-- The loop of `scan_history_page`. -/
def scanLines (request : PageRequest) (loadedTimes : Option (Times LoopId))
    (limits : HistoryScanLimits) (target scanTarget : Nat) : Nat →
    Scan LoopId Payload Replay Digest → Except StoreError (Scan LoopId Payload Replay Digest)
  | 0, _ => .error .unavailable
  | fuel + 1, scan =>
    if scan.remaining = 0 then .ok scan
    else if limits.maxLines ≤ scan.lineCount then .error .queryLimit
    else
      match readBoundedLine scan.chunks scan.remaining .empty with
      | .error error => .error error
      | .ok (.finished, _, _) => .error .historyChanged
      | .ok (.unfinished, rest, left) =>
        if request.capturedEnd.isSome then .error .historyChanged
        else if scanTarget < target then .error .queryLimit
        else .ok { scan with chunks := rest, remaining := left, trailingIncomplete := true }
      | .ok (.complete line, rest, left) =>
        match scanLine externals pages request loadedTimes limits scanTarget scan line rest left
        with
        | .error error => .error error
        | .ok scan =>
          if scan.stoppedAtVisibleCap then .ok scan
          else scanLines request loadedTimes limits target scanTarget fuel scan

/-- `finish_empty_history_page`. -/
def finishEmptyHistoryPage (request : PageRequest) :
    Except StoreError (HistoryReadPage LoopId Payload Replay) :=
  let revision := pages.digestHex externals.newDigest
  if request.expectedRevision.any (fun expected => expected ≠ revision) then .error .historyChanged
  else
    .ok { parts := .empty, capturedEnd := 0, revision := revision, trailingIncomplete := false,
          totalItems := 0 }

/-- The page of a finished scan. -/
def finishScan (request : PageRequest) (target scanTarget : Nat)
    (scan : Scan LoopId Payload Replay Digest) :
    Except StoreError (HistoryReadPage LoopId Payload Replay) :=
  let revision := pages.digestHex scan.hasher
  if scan.stoppedAtVisibleCap = false ∧ scanTarget < target then .error .queryLimit
  else if scan.remaining ≠ 0 ∧ scan.stoppedAtVisibleCap = false then .error .historyChanged
  else if request.capturedEnd.isSome ∧ scan.completeEnd ≠ target then .error .historyChanged
  else if request.expectedRevision.any (fun expected => expected ≠ revision) then
    .error .historyChanged
  else
    .ok { parts := scan.parts, capturedEnd := scan.completeEnd, revision := revision,
          trailingIncomplete := scan.trailingIncomplete, totalItems := scan.totalItems }

/-- The scan of a file of known length. -/
def scanFile (request : PageRequest) (loadedTimes : Option (Times LoopId))
    (limits : HistoryScanLimits) (target : Nat) (chunks : Chunks) :
    Except StoreError (HistoryReadPage LoopId Payload Replay) :=
  let scanTarget := min target limits.maxBytes
  let first : Scan LoopId Payload Replay Digest :=
    { chunks := chunks, remaining := scanTarget, completeEnd := 0, hasher := externals.newDigest,
      lineCount := 0, totalItems := 0, retainedSourceBytes := 0, parts := .empty,
      stoppedAtVisibleCap := false, trailingIncomplete := false }
  match scanLines externals pages request loadedTimes limits target scanTarget (scanTarget + 1) first
  with
  | .error error => .error error
  | .ok scan => finishScan pages request target scanTarget scan

/-- `scan_history_page` without an index. -/
def scanHistoryPage (request : PageRequest) (loadedTimes : Option (Times LoopId))
    (limits : HistoryScanLimits) (answers : FileAnswers) :
    Except StoreError (HistoryReadPage LoopId Payload Replay) :=
  if request.capturedEnd.isSome ≠ request.expectedRevision.isSome then .error .invalidArguments
  else
    match answers.length with
    | .error error => .error error
    | .ok length =>
      let target := request.capturedEnd.getD length
      if length < target then .error .historyChanged
      else if request.expectedRevision.any (fun expected => !validSha256 expected) then
        .error .invalidArguments
      else
        match answers.checked with
        | .error error => .error error
        | .ok () =>
          if request.visibleItemCount = some 0 then
            if request.capturedEnd.any (fun captured => captured ≠ 0) then .error .historyChanged
            else finishEmptyHistoryPage externals pages request
          else
            match answers.opened with
            | .error error => .error error
            | .ok () =>
              scanFile externals pages request loadedTimes limits target answers.chunks

end Scanning

end MinicoreAgent.HistoryStore

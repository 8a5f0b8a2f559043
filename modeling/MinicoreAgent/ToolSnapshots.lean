import MinicoreAgent.HistoryPages
import MinicoreAgent.RecordChanges
import MinicoreAgent.ToolOutput

/-!
# Saved tool records

A finished record is saved as its facts and the bytes it still retains, with a hash for each
file of bytes. A page of output can be projected from the record in memory, where the bytes
of a process stream lie in the two parts of a ring buffer, or from what was saved and read
back. Both give the same page.
-/
namespace MinicoreAgent.ToolData

open MinicoreAgent.Text (byteLen encode)
open Tools

section Stored

def toolRecordFormatVersion : Nat := 1

/-- `StoredInputSummary` and `StoredResultSummary`. -/
structure StoredSummary where
  totalBytes : Nat
  seen : Bool
  truncated : Bool
  expired : Bool
  fileBytes : Nat
  fileSha256 : Option String
  deriving DecidableEq, Repr

structure StoredStreamWindow where
  startOffset : Nat
  observedEnd : Nat
  seen : Bool
  complete : Bool
  truncated : Bool
  expired : Bool
  fileBytes : Nat
  fileSha256 : Option String
  deriving DecidableEq, Repr

structure StoredFileChange where
  path : List Char
  kind : ChangeKind
  before : ChangeRevision
  after : ChangeRevision
  commitState : ChangeCommitState
  coverage : ChangeCoverage
  beforeCaptured : Bool
  afterCaptured : Bool
  deriving DecidableEq, Repr

structure StoredToolRecord (ToolRef : Type) where
  version : Nat
  toolRef : ToolRef
  name : List Char
  subject : ToolSubject
  subjectTruncated : Bool
  state : ToolExecutionState
  phase : Option ToolPhase
  startedAt : Option (List Char)
  finishedAt : Option (List Char)
  outcome : Option ToolResultOutcome
  input : StoredSummary
  result : StoredSummary
  stdout : StoredStreamWindow
  stderr : StoredStreamWindow
  command : Option CommandResult
  fileChange : Option StoredFileChange
  deriving DecidableEq, Repr

structure ToolPersistenceSnapshot (ToolRef : Type) where
  toolRef : ToolRef
  record : StoredToolRecord ToolRef
  inputBytes : Option Bytes
  resultBytes : Option Bytes
  stdoutBytes : Option Bytes
  stderrBytes : Option Bytes
  fileChangeBefore : Option Bytes
  fileChangeAfter : Option Bytes
  deriving DecidableEq, Repr

def FileChange.stored (change : FileChange) : StoredFileChange where
  path := change.path
  kind := change.kind
  before := change.before
  after := change.after
  commitState := change.commitState
  coverage := change.coverage
  beforeCaptured := change.beforeCaptured
  afterCaptured := change.afterCaptured

/-- A command with the ranges and the retention of the current windows. -/
def ToolRecord.liveCommand (record : ToolRecord) (command : CommandResult) : CommandResult :=
  { command with
    stdoutBaseOffset := record.stdout.liveRange.1
    stdoutObservedEnd := record.stdout.liveRange.2
    stderrBaseOffset := record.stderr.liveRange.1
    stderrObservedEnd := record.stderr.liveRange.2
    outputTruncated := command.outputTruncated || record.stdout.window.truncated ||
      record.stderr.window.truncated || record.stdout.window.expired ||
      record.stderr.window.expired }

variable (hashBytes : Bytes → String)

/-- What is saved of some bytes: the bytes, their number and their hash. -/
def snapshotBlob (bytes : Bytes) (expired : Bool) : Option Bytes × Nat × Option String :=
  if expired || bytes.isEmpty then (none, 0, none)
  else (some bytes, bytes.length, some (hashBytes bytes))

def snapshotText (stream : TextStream) : StoredSummary × Option Bytes :=
  let blob := snapshotBlob hashBytes (encode stream.text) stream.expired
  ({ totalBytes := stream.total
     seen := stream.seen
     truncated := stream.truncated
     expired := stream.expired
     fileBytes := blob.2.1
     fileSha256 := blob.2.2 }, blob.1)

/-- `StreamWindow::snapshot`. -/
def snapshotWindow (window : StreamWindow) : StoredStreamWindow × Option Bytes :=
  let blob := snapshotBlob hashBytes window.bytes window.expired
  ({ startOffset := window.startOffset
     observedEnd := window.observedEnd
     seen := window.seen
     complete := window.complete
     truncated := window.truncated
     expired := window.expired
     fileBytes := blob.2.1
     fileSha256 := blob.2.2 }, blob.1)

variable {ToolRef : Type}

def ToolRecord.snapshot (record : ToolRecord) (toolRef : ToolRef) :
    ToolPersistenceSnapshot ToolRef where
  toolRef := toolRef
  record :=
    { version := toolRecordFormatVersion
      toolRef := toolRef
      name := record.name
      subject := record.subject
      subjectTruncated := record.subjectTruncated
      state := record.state
      phase := record.phase
      startedAt := record.startedAt
      finishedAt := record.finishedAt
      outcome := record.outcome
      input := (snapshotText hashBytes record.input).1
      result := (snapshotText hashBytes record.result).1
      stdout := (snapshotWindow hashBytes record.stdout.window).1
      stderr := (snapshotWindow hashBytes record.stderr.window).1
      command := record.command.map record.liveCommand
      fileChange := record.fileChange.map FileChange.stored }
  inputBytes := (snapshotText hashBytes record.input).2
  resultBytes := (snapshotText hashBytes record.result).2
  stdoutBytes := (snapshotWindow hashBytes record.stdout.window).2
  stderrBytes := (snapshotWindow hashBytes record.stderr.window).2
  fileChangeBefore := record.fileChange.bind fun change => change.beforeBytes.map Snapshot.bytes
  fileChangeAfter := record.fileChange.bind fun change => change.afterBytes.map Snapshot.bytes

def ToolDataInner.snapshotForPersistence [DecidableEq ToolRef] (inner : ToolDataInner ToolRef)
    (toolRef : ToolRef) : Option (ToolPersistenceSnapshot ToolRef) :=
  (inner.get toolRef).bind fun record =>
    if record.isTerminal then some (record.snapshot hashBytes toolRef) else none

/-- The files of a snapshot that hold the bytes of a stream. -/
def ToolPersistenceSnapshot.file (snapshot : ToolPersistenceSnapshot ToolRef) :
    ToolDataStream → Option Bytes
  | .input => snapshot.inputBytes
  | .output => snapshot.resultBytes
  | .stdout => snapshot.stdoutBytes
  | .stderr => snapshot.stderrBytes

/-- The number and the hash of the bytes that a record names for a stream. -/
def StoredToolRecord.blob (record : StoredToolRecord ToolRef) :
    ToolDataStream → Nat × Option String
  | .input => (record.input.fileBytes, record.input.fileSha256)
  | .output => (record.result.fileBytes, record.result.fileSha256)
  | .stdout => (record.stdout.fileBytes, record.stdout.fileSha256)
  | .stderr => (record.stderr.fileBytes, record.stderr.fileSha256)

/-- The bytes of a file if they are those that a record names, and whether they are not. -/
def readBlob (file : Option Bytes) (expectedBytes : Nat) (expectedSha256 : Option String) :
    ToolBlob :=
  if expectedBytes = 0 then (none, false)
  else
    match file with
    | none => (none, true)
    | some bytes =>
      let read := bytes.take (expectedBytes + 1)
      if read.length ≠ expectedBytes then (none, true)
      else if some (hashBytes read) ≠ expectedSha256 then (none, true)
      else (some read, false)

end Stored

section Views

/-- A view of a stream whose bytes lie in two parts. -/
structure SlicedView where
  first : Bytes
  second : Bytes
  base : Nat
  observed : Nat
  seen : Bool
  known : Bool
  complete : Bool
  truncated : Bool
  availability : ToolDataAvailability
  corrupt : Bool
  deriving DecidableEq, Repr

/-- `stream_final`. -/
def ToolRecord.streamFinal (record : ToolRecord) : Bool :=
  match record.command with
  | some command => command.status.isTerminal
  | none => record.state.isTerminal

/-- A window in its ring buffer, whose first part has so many bytes. -/
def ringView (window : StreamWindow) (part : Nat) (final : Bool) : SlicedView where
  first := window.bytes.take part
  second := window.bytes.drop part
  base := window.startOffset
  observed := window.observedEnd
  seen := window.seen
  known := window.seen || window.complete
  complete := window.complete || final
  truncated := window.truncated
  availability := windowAvailability window final
  corrupt := window.corrupt

def heldTextView (stream : TextStream) (terminal : Bool) : SlicedView where
  first := encode stream.text
  second := []
  base := 0
  observed := stream.total
  seen := stream.seen
  known := stream.seen
  complete := terminal
  truncated := stream.truncated
  availability :=
    if stream.corrupt then .unavailable
    else streamAvailability stream.seen stream.expired terminal (byteLen stream.text) stream.total
      stream.truncated
  corrupt := stream.corrupt

def ToolRecord.outputView (record : ToolRecord) (part : Nat) : ToolDataStream → SlicedView
  | .stdout => ringView record.stdout.window part record.streamFinal
  | .stderr => ringView record.stderr.window part record.streamFinal
  | .input => heldTextView record.input record.state.isTerminal
  | .output => heldTextView record.result record.state.isTerminal

/-- `from_stored` of a process stream. -/
def savedWindowView (window : StoredStreamWindow) (terminal : Bool) (blob : ToolBlob) :
    SlicedView where
  first := blob.1.getD []
  second := []
  base := window.startOffset
  observed := window.observedEnd
  seen := window.seen
  known := window.seen || window.complete
  complete := window.complete || terminal
  truncated := window.truncated
  availability :=
    if blob.2 then .unavailable
    else if window.expired then .expired
    else if window.truncated then .partial_
    else if window.seen || window.complete then .available
    else if terminal then .unavailable
    else .pending
  corrupt := blob.2

/-- `from_stored` of a text. -/
def savedTextView (summary : StoredSummary) (terminal : Bool) (blob : ToolBlob) : SlicedView :=
  let bytes := blob.1.getD []
  let corrupt := blob.2 || (Text.decode bytes).isNone
  { first := bytes
    second := []
    base := 0
    observed := summary.totalBytes
    seen := summary.seen
    known := summary.seen
    complete := terminal
    truncated := summary.truncated
    availability :=
      if corrupt then .unavailable
      else streamAvailability summary.seen summary.expired terminal summary.fileBytes
        summary.totalBytes summary.truncated
    corrupt := corrupt }

variable {ToolRef : Type}

/-- Whether no more bytes can arrive, by a stored record. -/
def StoredToolRecord.streamFinal (record : StoredToolRecord ToolRef) : Bool :=
  match record.command with
  | none => record.state.isTerminal
  | some command => command.status.isTerminal

def SlicedView.fromStored (record : StoredToolRecord ToolRef) (stream : ToolDataStream)
    (blob : ToolBlob) : SlicedView :=
  match stream with
  | .stdout => savedWindowView record.stdout record.streamFinal blob
  | .stderr => savedWindowView record.stderr record.streamFinal blob
  | .input => savedTextView record.input record.state.isTerminal blob
  | .output => savedTextView record.result record.state.isTerminal blob

/-- The view with its bytes in one part. -/
def SlicedView.joined (view : SlicedView) : ToolOutputView where
  bytes := view.first ++ view.second
  base := view.base
  observed := view.observed
  seen := view.seen
  known := view.known
  complete := view.complete
  truncated := view.truncated
  availability := view.availability
  corrupt := view.corrupt

/-- The data that fits, from the two parts that are left. -/
def fittingParts (engine : Base64.Engine) (process : Bool) (first second : Bytes)
    (available : Nat) : Option (List Char × Nat) :=
  if process then
    let take := min ((available - 2) / 4 * 3) (first.length + second.length)
    let bytes :=
      if take ≤ first.length then first.take take
      else first ++ second.take (take - first.length)
    some (engine.encode bytes, take)
  else
    (Text.decode first).map fun text =>
      let data := JsonSize.stringWithin text available
      (data, byteLen data)

variable (toolRefLen : ToolRef → Nat) (engine : Base64.Engine)

def SlicedView.project (view : SlicedView) (request : ToolOutputRequest ToolRef)
    (maxBytes : Nat) : Except OutputError (ToolOutputPage ToolRef) :=
  let process := request.stream.isProcess
  let retained := view.first.length + view.second.length
  let stop := view.base + retained
  let base : ToolOutputPage ToolRef :=
    { toolRef := request.toolRef
      stream := request.stream
      encoding := request.stream.encoding
      baseOffset := view.base
      nextOffset := view.observed
      observedEnd := view.observed
      eof := view.complete
      truncated := view.truncated || (!process && stop < view.observed)
      availability := view.availability
      data := [] }
  if view.corrupt || view.availability = .expired then
    if process && !view.corrupt && view.observed < request.offset then .error .invalidArguments
    else
      encodedPage toolRefLen
        { base with
          baseOffset := if view.corrupt then view.base else view.observed
          eof := view.complete || !process
          truncated := true } maxBytes
  else if view.observed < request.offset || (!view.seen && request.offset ≠ 0) then
    .error .invalidArguments
  else if request.offset < view.base then
    encodedPage toolRefLen
      { base with
        nextOffset := if retained = 0 then view.observed else view.base
        eof := view.complete && retained = 0
        truncated := true
        availability := .partial_ } maxBytes
  else if stop < request.offset then
    encodedPage toolRefLen
      { base with
        baseOffset := request.offset
        eof := true
        truncated := true
        availability := .partial_ } maxBytes
  else
    let offset := request.offset - view.base
    let first :=
      if offset < view.first.length then view.first.drop offset
      else view.second.drop (offset - view.first.length)
    let second := if offset < view.first.length then view.second else []
    if first.isEmpty && second.isEmpty then
      encodedPage toolRefLen
        { base with
          baseOffset := request.offset
          nextOffset := request.offset
          eof :=
            if process then view.complete && view.observed ≤ request.offset
            else view.availability ≠ .pending } maxBytes
    else
      let template :=
        { base with baseOffset := request.offset, nextOffset := Tools.u64Max, eof := false }
      let envelope := template.encodedLen toolRefLen
      if maxBytes < envelope then .error .invalidArguments
      else
        match fittingParts engine process first second (maxBytes - envelope + 2) with
        | none => .error .invalidArguments
        | some (data, take) =>
          if take = 0 then .error .invalidArguments
          else
            let next := request.offset + take
            encodedPage toolRefLen
              { base with
                baseOffset := request.offset
                nextOffset := next
                data := data
                eof := if process then view.complete && view.observed ≤ next else stop ≤ next }
              maxBytes

end Views

section Slices

variable {ToolRef : Type} (toolRefLen : ToolRef → Nat) (engine : Base64.Engine)

/-- What is left of two parts from an offset on. -/
theorem parts_left (first second : Bytes) (offset : Nat) :
    (if offset < first.length then first.drop offset else second.drop (offset - first.length)) ++
        (if offset < first.length then second else []) = (first ++ second).drop offset := by
  rw [List.drop_append]
  split
  · rename_i inside
    rw [Nat.sub_eq_zero_of_le (Nat.le_of_lt inside), List.drop_zero]
  · rename_i behind
    rw [List.append_nil, List.drop_eq_nil_of_le (Nat.not_lt.mp behind), List.nil_append]

/-- The data that fits does not depend on where a ring buffer is parted. -/
theorem fitting_parts_eq {process : Bool} {first second : Bytes}
    (whole : process = false → second = []) (available : Nat) :
    fittingParts engine process first second available =
      fittingData engine process (first ++ second) available := by
  rw [fittingParts, fittingData]
  cases process with
  | true =>
    simp only [if_true, List.length_append, List.take_append]
    split
    · rename_i inside
      rw [Nat.sub_eq_zero_of_le inside, List.take_zero, List.append_nil]
    · rename_i beyond
      rw [List.take_of_length_le (Nat.le_of_not_le beyond)]
  | false =>
    rw [whole rfl, List.append_nil]
    rfl

/-- A page does not depend on where a ring buffer is parted. -/
theorem project_joined (view : SlicedView) (request : ToolOutputRequest ToolRef) (maxBytes : Nat)
    (whole : request.stream.isProcess = false → view.second = []) :
    view.project toolRefLen engine request maxBytes =
      view.joined.project toolRefLen engine request maxBytes := by
  have length : view.joined.bytes.length = view.first.length + view.second.length :=
    List.length_append
  have left := parts_left view.first view.second (request.offset - view.base)
  have none_left (first second : Bytes) :
      (first.isEmpty && second.isEmpty) = (first ++ second).isEmpty := by
    cases first with
    | nil => rfl
    | cons byte rest => rfl
  rw [SlicedView.project, ToolOutputView.project]
  simp only [ToolOutputView.page, length]
  rw [none_left, left, fitting_parts_eq engine, left]
  · rfl
  · intro text
    split
    · exact whole text
    · rfl

end Slices

section Intact

/-- No stream of the record was found damaged. -/
structure Intact (record : ToolRecord) : Prop where
  input : record.input.corrupt = false
  result : record.result.corrupt = false
  stdout : record.stdout.window.corrupt = false
  stderr : record.stderr.window.corrupt = false

variable {record : ToolRecord}

theorem Intact.withStream (intact : Intact record) (stream : ToolDataStream)
    {change : RingWindow → RingWindow}
    (same : ∀ ring, (change ring).window.corrupt = ring.window.corrupt) :
    Intact (record.withStream stream change) := by
  obtain ⟨input, result, stdout, stderr⟩ := intact
  cases stream with
  | input => exact ⟨input, result, stdout, stderr⟩
  | output => exact ⟨input, result, stdout, stderr⟩
  | stdout => exact ⟨input, result, (same _).trans stdout, stderr⟩
  | stderr => exact ⟨input, result, stdout, (same _).trans stderr⟩

theorem push_corrupt (ring : RingWindow) (chunk : Bytes) :
    (ring.push chunk).1.window.corrupt = ring.window.corrupt := by
  rcases pushed_window ring chunk with ⟨-, made⟩ | ⟨-, -, made⟩ | ⟨_, -, made⟩
  · rw [made]
  · rw [made]
  · rw [made]

/-- No change of a record damages a stream. -/
theorem Intact.changed (intact : Intact record) (change : RecordChange) :
    Intact (record.changed change) := by
  cases change with
  | invoked invocation =>
    change Intact (record.noteInvocation invocation)
    rw [ToolRecord.noteInvocation]
    split
    · exact intact
    · exact ⟨intact.input, intact.result, intact.stdout, intact.stderr⟩
  | awaiting =>
    change Intact record.markAwaitingPolicy
    rw [ToolRecord.markAwaitingPolicy]
    split
    · exact ⟨intact.input, intact.result, intact.stdout, intact.stderr⟩
    · exact intact
  | cancelling =>
    change Intact record.markCancelling
    rw [ToolRecord.markCancelling]
    split
    · exact intact
    · exact ⟨intact.input, intact.result, intact.stdout, intact.stderr⟩
  | pushed stream chunk granted =>
    exact intact.withStream stream fun ring => push_corrupt ring chunk
  | ended stream => exact intact.withStream stream fun _ => rfl
  | shortened stream => exact intact.withStream stream fun _ => rfl
  | streamFreed stream => exact intact.withStream stream fun _ => rfl
  | _ => exact ⟨intact.input, intact.result, intact.stdout, intact.stderr⟩

theorem Arisen.intact {source : RecordChange → Prop} {pushed : Nat}
    (arisen : Arisen source pushed record) : Intact record :=
  arisen.induct (fun _ => ⟨rfl, rfl, rfl, rfl⟩) fun _ change intact => intact.changed change

end Intact

section Agreement

variable {ToolRef : Type} (toolRefLen : ToolRef → Nat) (engine : Base64.Engine)
  (hashBytes : Bytes → String)

/-- Two views that answer alike: the bytes matter only where they can be read. -/
structure Alike (view other : ToolOutputView) : Prop where
  base : view.base = other.base
  observed : view.observed = other.observed
  seen : view.seen = other.seen
  complete : view.complete = other.complete
  truncated : view.truncated = other.truncated
  availability : view.availability = other.availability
  corrupt : view.corrupt = other.corrupt
  bytes : view.Readable → view.bytes = other.bytes

theorem project_alike {view other : ToolOutputView} (alike : Alike view other)
    (request : ToolOutputRequest ToolRef) (maxBytes : Nat) :
    view.project toolRefLen engine request maxBytes =
      other.project toolRefLen engine request maxBytes := by
  obtain ⟨bytes, base, observed, seen, known, complete, truncated, availability, corrupt⟩ := view
  obtain ⟨bytes', base', observed', seen', known', complete', truncated', availability',
    corrupt'⟩ := other
  obtain ⟨rfl, rfl, rfl, rfl, rfl, rfl, rfl, same⟩ := alike
  rw [ToolOutputView.project, ToolOutputView.project]
  by_cases lost : (corrupt || availability = .expired) = true
  · simp only [lost, if_true]
    rfl
  · have readable : corrupt = false ∧ availability ≠ .expired := by
      simpa using lost
    cases same readable
    rfl

/-- What was saved of some bytes is read back whole. -/
theorem read_snapshot (bytes : Bytes) (expired : Bool) :
    let blob := snapshotBlob hashBytes bytes expired
    readBlob hashBytes blob.1 blob.2.1 blob.2.2 =
      (if expired || bytes.isEmpty then none else some bytes, false) := by
  intro blob
  by_cases nothing : (expired || bytes.isEmpty) = true
  · have empty : blob = (none, 0, none) := if_pos nothing
    rw [empty, if_pos nothing]
    rfl
  · have filled : blob = (some bytes, bytes.length, some (hashBytes bytes)) := if_neg nothing
    have some_bytes : bytes ≠ [] := by
      rintro rfl
      simp at nothing
    have long : bytes.length ≠ 0 := fun none => some_bytes (List.length_eq_zero_iff.mp none)
    rw [filled, if_neg nothing, readBlob, if_neg long]
    simp only [List.take_of_length_le (Nat.le_succ bytes.length), ne_eq, not_true_eq_false,
      if_false]

/-- The bytes that were read back are those in memory, unless they were freed. -/
theorem read_bytes {bytes : Bytes} {expired : Bool} (present : expired = false) :
    ((if expired || bytes.isEmpty then none else some bytes : Option Bytes).getD []) = bytes := by
  cases bytes with
  | nil =>
    rw [List.isEmpty_nil, Bool.or_true]
    rfl
  | cons byte rest =>
    rw [present]
    rfl

theorem window_alike {window : StreamWindow} (intact : window.corrupt = false) (part : Nat)
    (final : Bool) :
    let saved := snapshotWindow hashBytes window
    Alike (ringView window part final).joined
      (savedWindowView saved.1 final
        (readBlob hashBytes saved.2 saved.1.fileBytes saved.1.fileSha256)).joined := by
  intro saved
  have read : readBlob hashBytes saved.2 saved.1.fileBytes saved.1.fileSha256 =
      (if window.expired || window.bytes.isEmpty then none else some window.bytes, false) :=
    read_snapshot hashBytes window.bytes window.expired
  rw [read]
  refine ⟨rfl, rfl, rfl, rfl, rfl, ?_, intact, ?_⟩
  · change windowAvailability window final = _
    rw [windowAvailability, intact]
    rfl
  · intro readable
    have present : window.expired = false := by
      cases expired : window.expired with
      | false => rfl
      | true =>
        have lost : windowAvailability window final = .expired := by
          rw [windowAvailability, intact, expired]
          rfl
        exact absurd lost readable.2
    change window.bytes.take part ++ window.bytes.drop part = _ ++ []
    rw [List.take_append_drop, List.append_nil]
    exact (read_bytes present).symm

theorem text_alike {stream : TextStream} (intact : stream.corrupt = false) (terminal : Bool) :
    let saved := snapshotText hashBytes stream
    Alike (heldTextView stream terminal).joined
      (savedTextView saved.1 terminal
        (readBlob hashBytes saved.2 saved.1.fileBytes saved.1.fileSha256)).joined := by
  intro saved
  have read : readBlob hashBytes saved.2 saved.1.fileBytes saved.1.fileSha256 =
      (if stream.expired || (encode stream.text).isEmpty then none
        else some (encode stream.text), false) :=
    read_snapshot hashBytes (encode stream.text) stream.expired
  have decoded : Text.decode ((if stream.expired || (encode stream.text).isEmpty then none
      else some (encode stream.text) : Option Bytes).getD []) ≠ none := by
    split
    · exact fun nothing => by cases nothing
    · rw [Option.getD_some, Text.decode_encode]
      exact fun nothing => by cases nothing
  have sound : (Text.decode ((if stream.expired || (encode stream.text).isEmpty then none
      else some (encode stream.text) : Option Bytes).getD [])).isNone = false := by
    rw [Option.isNone_eq_false_iff, Option.isSome_iff_ne_none]
    exact decoded
  rw [read]
  refine ⟨rfl, rfl, rfl, rfl, rfl, ?_, ?_, ?_⟩
  · simp only [SlicedView.joined, heldTextView, savedTextView, sound, intact, Bool.false_or,
      Bool.false_eq_true, if_false]
    change streamAvailability _ stream.expired _ _ _ _ =
      streamAvailability stream.seen stream.expired terminal saved.1.fileBytes stream.total
        stream.truncated
    cases expired : stream.expired with
    | true => rfl
    | false =>
      have length : saved.1.fileBytes = byteLen stream.text := by
        change (snapshotBlob hashBytes (encode stream.text) stream.expired).2.1 = _
        rw [snapshotBlob, expired, Bool.false_or, ← Text.encode_length]
        split
        · rename_i nothing
          rw [List.isEmpty_iff.mp nothing]
          rfl
        · rfl
      rw [length]
  · simp only [SlicedView.joined, heldTextView, savedTextView, sound, intact, Bool.or_false]
  · intro readable
    have present : stream.expired = false := by
      cases expired : stream.expired with
      | false => rfl
      | true =>
        have lost : (heldTextView stream terminal).availability = .expired := by
          simp only [heldTextView, intact, streamAvailability, expired, if_true,
            Bool.false_eq_true, if_false]
        exact absurd lost readable.2
    change encode stream.text ++ [] = _ ++ []
    rw [List.append_nil, List.append_nil]
    exact (read_bytes present).symm

variable {hashBytes}

/-- The view of a record and that of its snapshot answer alike. -/
theorem snapshot_alike {record : ToolRecord} (intact : Intact record) (toolRef : ToolRef)
    (part : Nat) (stream : ToolDataStream) :
    let snapshot := record.snapshot hashBytes toolRef
    let blob := snapshot.record.blob stream
    Alike (record.outputView part stream).joined
      (SlicedView.fromStored snapshot.record stream
        (readBlob hashBytes (snapshot.file stream) blob.1 blob.2)).joined := by
  intro snapshot blob
  have final : snapshot.record.streamFinal = record.streamFinal := by
    rw [ToolRecord.streamFinal]
    change (match record.command.map record.liveCommand with
      | none => record.state.isTerminal
      | some command => command.status.isTerminal) = _
    cases record.command with
    | none => rfl
    | some command => rfl
  cases stream with
  | input => exact text_alike hashBytes intact.input record.state.isTerminal
  | output => exact text_alike hashBytes intact.result record.state.isTerminal
  | stdout =>
    change Alike _ (savedWindowView _ snapshot.record.streamFinal _).joined
    rw [final]
    exact window_alike hashBytes intact.stdout part record.streamFinal
  | stderr =>
    change Alike _ (savedWindowView _ snapshot.record.streamFinal _).joined
    rw [final]
    exact window_alike hashBytes intact.stderr part record.streamFinal

/-- Of a view, the second part is used for process streams only. -/
theorem output_view_whole (record : ToolRecord) (part : Nat) (stream : ToolDataStream)
    (text : stream.isProcess = false) : (record.outputView part stream).second = [] := by
  cases stream with
  | input => rfl
  | output => rfl
  | stdout => cases text
  | stderr => cases text

theorem from_stored_whole (record : StoredToolRecord ToolRef) (stream : ToolDataStream)
    (blob : ToolBlob) : (SlicedView.fromStored record stream blob).second = [] := by
  cases stream with
  | input => rfl
  | output => rfl
  | stdout => rfl
  | stderr => rfl

variable (hashBytes) [DecidableEq ToolRef]

/-- A finished record has a snapshot, and wherever its ring buffers are parted, every page of
every stream from every offset and within every bound is the one of the snapshot, or the same
error. -/
theorem warm_and_cold_agree (operations : List (ToolDataCall ToolRef)) (toolRef : ToolRef)
    (record : ToolRecord)
    (found : (operations.foldl ToolDataInner.call .new).get toolRef = some record)
    (ended : record.isTerminal = true) :
    ∃ snapshot, (operations.foldl ToolDataInner.call .new).snapshotForPersistence hashBytes
        toolRef = some snapshot ∧
      ∀ (part : Nat) (request : ToolOutputRequest ToolRef) (maxBytes : Nat),
        (record.outputView part request.stream).project toolRefLen engine request maxBytes =
          (SlicedView.fromStored snapshot.record request.stream
            (readBlob hashBytes (snapshot.file request.stream)
              (snapshot.record.blob request.stream).1
              (snapshot.record.blob request.stream).2)).project
            toolRefLen engine request maxBytes := by
  have arose : ToolDataInner.Arose (fun _ _ => True) _ (operations.foldl ToolDataInner.call .new) :=
    ToolDataInner.Arose.new.run operations fun _ _ _ _ _ => trivial
  have intact : Intact record := (arose toolRef record found).intact
  refine ⟨record.snapshot hashBytes toolRef, ?_, ?_⟩
  · rw [ToolDataInner.snapshotForPersistence, found, Option.bind_some, if_pos ended]
  · intro part request maxBytes
    rw [project_joined, project_joined]
    · exact project_alike toolRefLen engine (snapshot_alike intact toolRef part request.stream)
        request maxBytes
    · exact fun _ => from_stored_whole _ _ _
    · exact output_view_whole record part request.stream

/-- A command that printed four bytes and ended, whose ring buffer is parted after two. -/
theorem sample_pages_agree :
    let operations : List (ToolDataCall Nat) :=
      [.noteRequested 0 "bash".toList, .noteStreamChunk 0 .stdout [104, 101, 108, 112] 0,
        .noteStreamEnd 0 .stdout, .finish 0 .success none]
    ∃ record, (operations.foldl ToolDataInner.call .new).get 0 = some record ∧
      record.isTerminal = true ∧
      (record.outputView 2 .stdout).project (fun _ => 1) Base64.standard ⟨0, .stdout, 1⟩ 200 =
        .ok ⟨0, .stdout, "base64".toList, 1, 4, 4, true, false, .available, "ZWxw".toList⟩ ∧
      ∃ snapshot, (operations.foldl ToolDataInner.call .new).snapshotForPersistence
          (fun _ => "") 0 = some snapshot ∧
        (record.outputView 2 .stdout).project (fun _ => 1) Base64.standard ⟨0, .stdout, 1⟩ 200 =
          (SlicedView.fromStored snapshot.record .stdout
            (readBlob (fun _ => "") snapshot.stdoutBytes snapshot.record.stdout.fileBytes
              snapshot.record.stdout.fileSha256)).project
            (fun _ => 1) Base64.standard ⟨0, .stdout, 1⟩ 200 := by
  intro operations
  let record : ToolRecord :=
    { name := "bash".toList
      state := .succeeded
      outcome := some .success
      stdout := ⟨⟨[104, 101, 108, 112], 0, 4, true, true, false, false, false⟩, 4⟩ }
  have found : (operations.foldl ToolDataInner.call .new).get 0 = some record := by decide +kernel
  obtain ⟨snapshot, saved, agree⟩ := warm_and_cold_agree (fun _ => 1) Base64.standard
    (fun _ => "") operations 0 record found rfl
  exact ⟨record, found, rfl, by decide +kernel, snapshot, saved,
    agree 2 ⟨0, .stdout, 1⟩ 200⟩

end Agreement

end MinicoreAgent.ToolData

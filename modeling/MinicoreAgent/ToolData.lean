import MinicoreAgent.Lib.KeyedTotals
import MinicoreAgent.StreamWindows

/-!
# The tool records of a session

A session keeps one record for each tool call: its input and its result as bounded texts,
the windows on its process streams, the command it owned and the file it changed. The
records share a budget of bytes and a bound on their number. What is over the budget is
freed, oldest record first, and then whole records are removed.

What the operations hand to events is left out.
-/
namespace MinicoreAgent.ToolData

open MinicoreAgent.Text (byteLen floorPrefix)
open Tools (Bytes CommandStatus RingWindow TextStream ToolDataStream ToolExecutionState)

section Facts

inductive ToolResultOutcome where
  | success
  | failed
  | denied
  | cancelled
  | inputProvided
  deriving DecidableEq, Repr

/-- `ToolExecutionState::from_outcome`. -/
def fromOutcome : ToolResultOutcome → ToolExecutionState
  | .success => .succeeded
  | .failed => .failed
  | .denied => .denied
  | .cancelled => .cancelled
  | .inputProvided => .inputProvided

inductive ToolPhase where
  | reading
  | writing
  | matching
  | committing
  | running
  deriving DecidableEq, Repr

def ToolPhase.fromWire (message : List Char) : Option ToolPhase :=
  if message = "reading".toList then some .reading
  else if message = "writing".toList then some .writing
  else if message = "matching".toList then some .matching
  else if message = "committing".toList then some .committing
  else if message = "running".toList then some .running
  else none

/-- The target of a tool call. -/
inductive ToolSubject where
  | file (path : List Char)
  | command (script cwd : List Char)
  | other
  deriving DecidableEq, Repr

def subjectLen : ToolSubject → Nat
  | .file path => byteLen path
  | .command script cwd => byteLen script + byteLen cwd
  | .other => 0

inductive ToolRecordingState where
  | memoryOnly
  | saved
  | failed
  deriving DecidableEq, Repr

structure CommandResult where
  status : CommandStatus
  exitCode : Option Int
  signal : Option Int
  terminationConfirmed : Bool
  stdoutBaseOffset : Nat
  stdoutObservedEnd : Nat
  stderrBaseOffset : Nat
  stderrObservedEnd : Nat
  outputComplete : Bool
  outputTruncated : Bool
  deriving DecidableEq, Repr

end Facts

section Changes

inductive ChangeKind where
  | added
  | modified
  | deleted
  | renamed
  | conflict
  | unknown
  deriving DecidableEq, Repr

inductive ChangeRevision where
  | missing
  | content (sha256 : List Char) (bytes : Nat)
  | metadata (bytes : Nat) (modifiedUnixMs : Option Nat)
  | unknown
  deriving DecidableEq, Repr

inductive ChangeCommitState where
  | notCommitted
  | applied
  | conflict
  | unknown
  deriving DecidableEq, Repr

inductive ChangeCoverage where
  | complete
  | partialChange
  | unavailable
  deriving DecidableEq, Repr

/-- Bytes in a buffer of some capacity. -/
structure Snapshot where
  bytes : Bytes
  capacity : Nat
  deriving DecidableEq, Repr

structure FileChange where
  path : List Char
  kind : ChangeKind
  before : ChangeRevision
  after : ChangeRevision
  commitState : ChangeCommitState
  coverage : ChangeCoverage
  beforeCaptured : Bool
  afterCaptured : Bool
  beforeBytes : Option Snapshot
  afterBytes : Option Snapshot
  beforeCorrupt : Bool
  afterCorrupt : Bool
  deriving DecidableEq, Repr

def changeMetadataBytes : Nat := 512

/-- The capacity of the two snapshots of a change. -/
def FileChange.retained (change : FileChange) : Nat :=
  (change.beforeBytes.map (·.capacity)).getD 0 + (change.afterBytes.map (·.capacity)).getD 0

def FileChange.evict (change : FileChange) : FileChange :=
  { change with beforeBytes := none, afterBytes := none }

end Changes

section Records

def maxSubjectBytes : Nat := 4 * 1024

def commandMetadataBytes : Nat := 128

structure ToolRecord where
  name : List Char
  subject : ToolSubject := .other
  subjectTruncated : Bool := false
  input : TextStream := {}
  result : TextStream := {}
  outputLineCount : Option Nat := none
  state : ToolExecutionState := .requested
  phase : Option ToolPhase := none
  startedAt : Option (List Char) := none
  finishedAt : Option (List Char) := none
  outcome : Option ToolResultOutcome := none
  stdout : RingWindow := {}
  stderr : RingWindow := {}
  command : Option CommandResult := none
  fileChange : Option FileChange := none
  recording : ToolRecordingState := .memoryOnly
  deriving DecidableEq, Repr

/-- The arguments of a call: their JSON text, and the texts among their fields. -/
structure ToolInvocation where
  toolName : List Char
  raw : List Char
  field : List Char → Option (List Char)

/-- `truncate`: a beginning within so many bytes, and whether it leaves something out. -/
def truncate (value : List Char) (bound : Nat) : List Char × Bool :=
  (floorPrefix bound value, byteLen (floorPrefix bound value) < byteLen value)

def stringArg (invocation : ToolInvocation) (keys : List (List Char)) : List Char :=
  (keys.findSome? invocation.field).getD []

def subjectFor (invocation : ToolInvocation) : ToolSubject × Bool :=
  if invocation.toolName ∈
      ["read".toList, "write".toList, "edit".toList, "apply_patch".toList] then
    let path := truncate (stringArg invocation ["path".toList, "file_path".toList]) maxSubjectBytes
    (.file path.1, path.2)
  else if invocation.toolName = "bash".toList then
    let script := truncate (stringArg invocation ["command".toList]) maxSubjectBytes
    let cwd := truncate ((invocation.field "cwd".toList).getD ".".toList) maxSubjectBytes
    (.command script.1 cwd.1, script.2 || cwd.2)
  else (.other, false)

def countLines (text : List Char) : Nat := if text = [] then 0 else text.count '\n' + 1

namespace ToolRecord

variable (record : ToolRecord)

def isTerminal : Bool := record.state.isTerminal && record.command.all (·.status.isTerminal)

def stream : ToolDataStream → Option RingWindow
  | .stdout => some record.stdout
  | .stderr => some record.stderr
  | .input | .output => none

/-- A change of the window that `stream_mut` finds. -/
def withStream (stream : ToolDataStream) (change : RingWindow → RingWindow) : ToolRecord :=
  match stream with
  | .stdout => { record with stdout := change record.stdout }
  | .stderr => { record with stderr := change record.stderr }
  | .input | .output => record

/-- Retained raw bytes and bounded metadata. -/
def retainedBytes : Nat :=
  let command := if record.command.isSome then commandMetadataBytes else 0
  let fileChange := (record.fileChange.map fun change =>
    changeMetadataBytes + byteLen change.path + change.retained).getD 0
  byteLen record.name + subjectLen record.subject + byteLen record.input.text +
    byteLen record.result.text + record.stdout.retained + record.stderr.retained + fileChange +
    command

def noteInvocation (invocation : ToolInvocation) : ToolRecord :=
  if record.input.seen then record
  else
    let subject := subjectFor invocation
    { record with
      subject := subject.1
      subjectTruncated := subject.2
      input := { record.input.observe invocation.raw Tools.maxToolInputBytes with
        expired := false } }

def markAwaitingPolicy : ToolRecord :=
  if record.state = .requested then { record with state := .awaitingPolicy } else record

def markRunning (now : Option (List Char)) : ToolRecord :=
  { record with
    state := if record.state.isTerminal then record.state else .running
    startedAt := if record.startedAt.isNone then now else record.startedAt }

def markCancelling : ToolRecord :=
  if record.state.isTerminal then record else { record with state := .cancelling }

def noteResult (content : List Char) : ToolRecord :=
  { record with
    outputLineCount := some (countLines (truncate content Tools.maxToolResultBytes).1)
    result := { record.result.observe content Tools.maxToolResultBytes with expired := false } }

def endStream (ring : RingWindow) : RingWindow := { ring with window := ring.window.finish }

def cutStream (ring : RingWindow) : RingWindow := { ring with window := ring.window.cut }

/-- A duplicate change is never overwritten. -/
def noteFileChange (change : FileChange) : ToolRecord :=
  { record with fileChange := record.fileChange.or (some change) }

/-- The terminal outcome, and the time of the first one. -/
def finish (outcome : ToolResultOutcome) (now : Option (List Char)) : ToolRecord :=
  { record with
    state := fromOutcome outcome
    outcome := some outcome
    finishedAt := if record.finishedAt.isNone then now else record.finishedAt }

/-- The result text of a report. -/
def captureResult (content : List Char) : ToolRecord :=
  { record with
    outputLineCount := some (countLines (truncate content Tools.maxToolResultBytes).1)
    result := record.result.observe content Tools.maxToolResultBytes }

def evictInput : ToolRecord := { record with input := record.input.evict }

def evictResult : ToolRecord :=
  { record with result := record.result.evict, outputLineCount := none }

def evictChange : ToolRecord := { record with fileChange := record.fileChange.map (·.evict) }

def evictStream (stream : ToolDataStream) : ToolRecord := record.withStream stream RingWindow.evict

/-- Whether the record still has input, result or snapshots that can be freed. -/
def holdsInput : Bool :=
  !record.input.expired && (!record.input.text.isEmpty || 0 < record.input.total)

def holdsResult : Bool :=
  !record.result.expired && (!record.result.text.isEmpty || 0 < record.result.total)

def holdsChange : Bool := record.fileChange.any fun change => 0 < change.retained

/-- The first process stream with a window that can be freed. -/
def heldStream : Option ToolDataStream :=
  [ToolDataStream.stdout, ToolDataStream.stderr].find? fun stream =>
    (record.stream stream).any fun ring =>
      !ring.window.expired && (!ring.window.bytes.isEmpty || 0 < ring.window.observedEnd)

/-- How many of its parts can still be freed. -/
def held : Nat :=
  record.holdsInput.toNat + record.holdsResult.toNat + record.holdsChange.toNat +
    (!record.stdout.window.expired).toNat + (!record.stderr.window.expired).toNat

end ToolRecord

end Records

section Inner

/-- The records by their references, the references in insertion order, and the bytes that
all records retain. -/
structure ToolDataInner (ToolRef : Type) [DecidableEq ToolRef] where
  records : List (ToolRef × ToolRecord)
  distinct : Keyed.Distinct records
  order : List ToolRef
  totalBytes : Nat

def maxToolRecords : Nat := 1024

def maxToolTotalBytes : Nat := 8 * 1024 * 1024

variable {ToolRef : Type} [DecidableEq ToolRef]

namespace ToolDataInner

omit [DecidableEq ToolRef] in
theorem distinct_nil : Keyed.Distinct ([] : List (ToolRef × ToolRecord)) := List.nodup_nil

def new : ToolDataInner ToolRef :=
  { records := [], distinct := distinct_nil, order := [], totalBytes := 0 }

variable (inner : ToolDataInner ToolRef) (toolRef : ToolRef)

def get : Option ToolRecord := Keyed.find inner.records toolRef

theorem distinct_track (absent : ¬ (inner.get toolRef).isSome) (record : ToolRecord) :
    Keyed.Distinct (inner.records ++ [(toolRef, record)]) :=
  inner.distinct.append (Option.not_isSome_iff_eq_none.mp absent) record

def track (name : List Char) : ToolDataInner ToolRef :=
  if present : (inner.get toolRef).isSome then inner
  else
    let record : ToolRecord := { name := name }
    { records := inner.records ++ [(toolRef, record)]
      distinct := inner.distinct_track toolRef present record
      order := inner.order ++ [toolRef]
      totalBytes := inner.totalBytes + record.retainedBytes }

/-- A change of the record that `get_mut` finds. -/
def modify (change : ToolRecord → ToolRecord) : ToolDataInner ToolRef :=
  match inner.get toolRef with
  | none => inner
  | some record =>
    { inner with
      records := Keyed.put inner.records toolRef (change record)
      distinct := inner.distinct.put toolRef (change record) }

def retainedAt : Nat := ((inner.get toolRef).map ToolRecord.retainedBytes).getD 0

/-- A change of a record that keeps the budget exact. -/
def resize (change : ToolRecord → ToolRecord) : ToolDataInner ToolRef :=
  let before := inner.retainedAt toolRef
  let changed := inner.modify toolRef change
  let after := changed.retainedAt toolRef
  { changed with totalBytes := inner.totalBytes - before + after }

/-- The oldest record that holds something loses it. -/
def evictVictim (holds : ToolRecord → Bool) (freed : ToolRecord → Nat)
    (evict : ToolRecord → ToolRecord) : Option (ToolDataInner ToolRef) :=
  (inner.order.find? fun toolRef => (inner.get toolRef).any holds).map fun victim =>
    { inner.modify victim evict with
      totalBytes := inner.totalBytes - ((inner.get victim).map freed).getD 0 }

def freedStream (record : ToolRecord) : Nat :=
  ((record.heldStream.bind record.stream).map RingWindow.retained).getD 0

def evictHeldStream (record : ToolRecord) : ToolRecord :=
  match record.heldStream with
  | none => record
  | some stream => record.evictStream stream

/-- Free the oldest retained bytes: inputs first, then results, then the snapshots of
changes, and the windows of processes last. -/
def evictSomeBytes : Option (ToolDataInner ToolRef) :=
  (inner.evictVictim ToolRecord.holdsInput (byteLen ·.input.text) ToolRecord.evictInput).or <|
    (inner.evictVictim ToolRecord.holdsResult (byteLen ·.result.text) ToolRecord.evictResult).or <|
      (inner.evictVictim ToolRecord.holdsChange
        (fun record => (record.fileChange.map (·.retained)).getD 0) ToolRecord.evictChange).or <|
        inner.evictVictim (·.heldStream.isSome) freedStream evictHeldStream

/-- Remove the oldest finished record, or the oldest one. -/
def removeOldest : Option (ToolDataInner ToolRef) :=
  ((inner.order.find? fun toolRef => (inner.get toolRef).any (·.state.isTerminal)).or
    inner.order.head?).map fun victim =>
      { records := Keyed.erase inner.records victim
        distinct := inner.distinct.erase victim
        order := inner.order.filter (· ≠ victim)
        totalBytes := inner.totalBytes - inner.retainedAt victim }

/-- One turn of the first loop of `enforce_limits`; none ends it. -/
def evictTurn : Option (ToolDataInner ToolRef) :=
  if inner.totalBytes ≤ maxToolTotalBytes then none
  else inner.evictSomeBytes.or inner.removeOldest

/-- One turn of its second loop. -/
def removeTurn : Option (ToolDataInner ToolRef) :=
  if inner.records.length ≤ maxToolRecords then none else inner.removeOldest

/-- What can still be freed or removed. -/
def work : Nat :=
  inner.order.length +
    Slots.total (fun entry : ToolRef × ToolRecord => entry.2.held) inner.records

/-- A loop of partial turns ends with the state that has no further turn; it has no result if
the fuel is used up before. -/
def loop (turn : ToolDataInner ToolRef → Option (ToolDataInner ToolRef)) :
    Nat → ToolDataInner ToolRef → Option (ToolDataInner ToolRef)
  | 0, inner => if (turn inner).isNone then some inner else none
  | fuel + 1, inner =>
    match turn inner with
    | none => some inner
    | some next => loop turn fuel next

/-- `enforce_limits`, if so many turns are enough. -/
def enforceWithin (fuel : Nat) : Option (ToolDataInner ToolRef) :=
  (loop evictTurn fuel inner).bind fun evicted => loop removeTurn fuel evicted

def enforceLimits : ToolDataInner ToolRef := (inner.enforceWithin inner.work).getD inner

end ToolDataInner

end Inner

section Calls

/-- One tool result of a joined report. -/
structure ReportedResult (ToolRef : Type) where
  toolRef : ToolRef
  toolName : List Char
  content : List Char
  outcome : ToolResultOutcome

/-- The operations on the records of a session. A time is what the clock said, if it said
something. -/
inductive ToolDataCall (ToolRef : Type) where
  | noteRequested (toolRef : ToolRef) (name : List Char)
  | noteInvocation (toolRef : ToolRef) (invocation : ToolInvocation)
  | markAwaitingPolicy (toolRef : ToolRef)
  | markRunning (toolRef : ToolRef) (now : Option (List Char))
  | notePhase (toolRef : ToolRef) (phase : List Char)
  | noteResult (toolRef : ToolRef) (content : List Char)
  | markCancelling (toolRef : ToolRef)
  | noteStreamChunk (toolRef : ToolRef) (stream : ToolDataStream) (chunk : Bytes) (granted : Nat)
  | noteStreamEnd (toolRef : ToolRef) (stream : ToolDataStream)
  | noteStreamCut (toolRef : ToolRef) (stream : ToolDataStream)
  | noteCommand (toolRef : ToolRef) (command : CommandResult)
  | noteRecording (toolRef : ToolRef) (recording : ToolRecordingState)
  | noteFileChange (toolRef : ToolRef) (change : FileChange)
  | finish (toolRef : ToolRef) (outcome : ToolResultOutcome) (now : Option (List Char))
  | reconcile (results : List (ReportedResult ToolRef)) (now : Option (List Char))

variable {ToolRef : Type} [DecidableEq ToolRef]

/-- A pushed chunk, in a buffer that may be granted more capacity than is asked for. -/
def pushGranted (chunk : Bytes) (granted : Nat) (ring : RingWindow) : RingWindow :=
  let pushed := (ring.push chunk).1
  { pushed with capacity := max pushed.capacity granted }

namespace ToolDataInner

variable (inner : ToolDataInner ToolRef)

/-- One result of a report: its record has the state and, unless it was freed, the text. -/
def reconcileResult (now : Option (List Char)) (result : ReportedResult ToolRef) :
    ToolDataInner ToolRef :=
  let tracked := inner.track result.toolRef result.toolName
  let captured := (tracked.get result.toolRef).any fun record => !record.result.expired
  let finished := tracked.modify result.toolRef fun record => record.finish result.outcome now
  if captured then finished.resize result.toolRef fun record => record.captureResult result.content
  else finished

def call : ToolDataCall ToolRef → ToolDataInner ToolRef
  | .noteRequested toolRef name => (inner.track toolRef name).enforceLimits
  | .noteInvocation toolRef invocation =>
    ((inner.track toolRef invocation.toolName).resize toolRef fun record =>
      record.noteInvocation invocation).enforceLimits
  | .markAwaitingPolicy toolRef => inner.modify toolRef ToolRecord.markAwaitingPolicy
  | .markRunning toolRef now => inner.modify toolRef fun record => record.markRunning now
  | .notePhase toolRef phase =>
    match ToolPhase.fromWire phase with
    | none => inner
    | some phase => inner.modify toolRef fun record => { record with phase := some phase }
  | .noteResult toolRef content =>
    (inner.resize toolRef fun record => record.noteResult content).enforceLimits
  | .markCancelling toolRef => inner.modify toolRef ToolRecord.markCancelling
  | .noteStreamChunk toolRef stream chunk granted =>
    if (inner.get toolRef).isSome then
      let pushed := inner.resize toolRef fun record =>
        record.withStream stream (pushGranted chunk granted)
      if stream.isProcess then pushed.enforceLimits else pushed
    else inner
  | .noteStreamEnd toolRef stream =>
    inner.resize toolRef fun record => record.withStream stream ToolRecord.endStream
  | .noteStreamCut toolRef stream =>
    inner.resize toolRef fun record => record.withStream stream ToolRecord.cutStream
  | .noteCommand toolRef command =>
    if (inner.get toolRef).isSome then
      (inner.resize toolRef fun record => { record with command := some command }).enforceLimits
    else inner
  | .noteRecording toolRef recording =>
    inner.modify toolRef fun record => { record with recording := recording }
  | .noteFileChange toolRef change =>
    (inner.resize toolRef fun record => record.noteFileChange change).enforceLimits
  | .finish toolRef outcome now => inner.modify toolRef fun record => record.finish outcome now
  | .reconcile results now =>
    (results.foldl (fun inner result => inner.reconcileResult now result) inner).enforceLimits

end ToolDataInner

end Calls

end MinicoreAgent.ToolData

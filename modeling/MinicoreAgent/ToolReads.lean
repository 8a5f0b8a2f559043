import MinicoreAgent.RecordPaths
import MinicoreAgent.ToolSnapshots

/-!
# Reading a tool call

A read takes what the record in memory still has and turns to what was saved of it only where
a finished record has lost what is asked for. What was saved is used if it agrees with the
record. Freeing the parts of a saved record, or removing it, changes no answer.
-/
namespace MinicoreAgent.ToolData

open MinicoreAgent.Text (byteLen encode)
open Tools

section Metadata

/-- The facts of one call, as a client reads them. -/
structure ToolExecutionData (ToolRef : Type) where
  outputLineCount : Option Nat
  toolRef : ToolRef
  name : List Char
  state : ToolExecutionState
  phase : Option ToolPhase
  startedAt : Option (List Char)
  finishedAt : Option (List Char)
  outcome : Option ToolResultOutcome
  inputAvailability : ToolDataAvailability
  outputAvailability : ToolDataAvailability
  inputBytes : Nat
  resultBytes : Nat
  inputTruncated : Bool
  resultTruncated : Bool
  command : Option CommandResult
  recording : ToolRecordingState
  deriving DecidableEq, Repr

structure ReadMetadata (ToolRef : Type) where
  execution : ToolExecutionData ToolRef
  inputSeen : Bool
  resultSeen : Bool
  stdoutEnd : Option Nat
  stderrEnd : Option Nat
  deriving DecidableEq, Repr

def textAvailability (stream : TextStream) (terminal : Bool) : ToolDataAvailability :=
  if stream.corrupt then .unavailable
  else
    streamAvailability stream.seen stream.expired terminal (byteLen stream.text) stream.total
      stream.truncated

variable {ToolRef : Type}

def ToolRecord.executionData (record : ToolRecord) (toolRef : ToolRef) :
    ToolExecutionData ToolRef where
  outputLineCount := record.outputLineCount
  toolRef := toolRef
  name := record.name
  state := record.state
  phase := record.phase
  startedAt := record.startedAt
  finishedAt := record.finishedAt
  outcome := record.outcome
  inputAvailability := textAvailability record.input record.state.isTerminal
  outputAvailability := textAvailability record.result record.state.isTerminal
  inputBytes := record.input.total
  resultBytes := record.result.total
  inputTruncated := record.input.truncated || byteLen record.input.text < record.input.total
  resultTruncated := record.result.truncated || byteLen record.result.text < record.result.total
  command := record.command.map record.liveCommand
  recording := record.recording

/-- The end of a window that anything is known of. -/
def windowEnd (seen complete expired : Bool) (observedEnd : Nat) : Option Nat :=
  if seen || complete || expired || 0 < observedEnd then some observedEnd else none

namespace ReadMetadata

def fromRecord (record : ToolRecord) (toolRef : ToolRef) : ReadMetadata ToolRef :=
  let ended (window : StreamWindow) :=
    windowEnd window.seen window.complete window.expired window.observedEnd
  { execution := record.executionData toolRef
    inputSeen := record.input.seen
    resultSeen := record.result.seen
    stdoutEnd := ended record.stdout.window
    stderrEnd := ended record.stderr.window }

def fromStored (record : StoredToolRecord ToolRef) : ReadMetadata ToolRef :=
  let terminal := record.state.isTerminal
  let ended (window : StoredStreamWindow) :=
    windowEnd window.seen window.complete window.expired window.observedEnd
  let available (summary : StoredSummary) :=
    streamAvailability summary.seen summary.expired terminal summary.fileBytes summary.totalBytes
      summary.truncated
  let command := record.command.map fun command =>
    { command with
      stdoutBaseOffset := record.stdout.startOffset
      stdoutObservedEnd := record.stdout.observedEnd
      stderrBaseOffset := record.stderr.startOffset
      stderrObservedEnd := record.stderr.observedEnd
      outputTruncated := command.outputTruncated || (record.stdout.truncated ||
        record.stderr.truncated || record.stdout.expired || record.stderr.expired) }
  { execution :=
      { outputLineCount := none
        toolRef := record.toolRef
        name := record.name
        state := record.state
        phase := record.phase
        startedAt := record.startedAt
        finishedAt := record.finishedAt
        outcome := record.outcome
        inputAvailability := available record.input
        outputAvailability := available record.result
        inputBytes := record.input.totalBytes
        resultBytes := record.result.totalBytes
        inputTruncated := record.input.truncated ||
          record.input.fileBytes < record.input.totalBytes
        resultTruncated := record.result.truncated ||
          record.result.fileBytes < record.result.totalBytes
        command := command
        recording := .saved }
    inputSeen := record.input.seen
    resultSeen := record.result.seen
    stdoutEnd := ended record.stdout
    stderrEnd := ended record.stderr }

def terminal (metadata : ReadMetadata ToolRef) : Bool :=
  metadata.execution.state.isTerminal &&
    metadata.execution.command.all (·.status.isTerminal)

/-- Two values agree where both are known. -/
def agree {Value : Type} [DecidableEq Value] (left right : Option Value) : Bool :=
  match left, right with
  | some left, some right => left = right
  | _, _ => true

/-- What two reports of a command must have in common. -/
def commandFacts (command : CommandResult) :
    CommandStatus × Option Int × Option Int × Bool × Bool :=
  (command.status, command.exitCode, command.signal, command.terminationConfirmed,
    command.outputComplete)

def compatible (metadata disk : ReadMetadata ToolRef) : Bool :=
  let warm := metadata.execution
  let cold := disk.execution
  warm.name = cold.name &&
    (!warm.state.isTerminal || !cold.state.isTerminal || warm.state = cold.state) &&
    agree warm.outcome cold.outcome &&
    (!metadata.inputSeen || !disk.inputSeen || warm.inputBytes = cold.inputBytes) &&
    (!metadata.resultSeen || !disk.resultSeen || warm.resultBytes = cold.resultBytes) &&
    agree metadata.stdoutEnd disk.stdoutEnd &&
    agree metadata.stderrEnd disk.stderrEnd &&
    agree (warm.command.map commandFacts) (cold.command.map commandFacts)

end ReadMetadata

def usable : ToolDataAvailability → Bool
  | .available | .partial_ => true
  | .pending | .unavailable | .expired => false

end Metadata

section Summaries

structure ToolSummary (ToolRef : Type) where
  metadata : ReadMetadata ToolRef
  subject : ToolSubject
  subjectTruncated : Bool
  input : List Char
  deriving DecidableEq, Repr

variable {ToolRef : Type}

/-- `decode_text`. -/
def decodeText (blob : ToolBlob) : List Char × Bool :=
  match Text.decode (blob.1.getD []) with
  | some text => (text, blob.2)
  | none => ([], true)

namespace ToolSummary

def fromRecord (record : ToolRecord) (toolRef : ToolRef) : ToolSummary ToolRef where
  metadata := .fromRecord record toolRef
  subject := record.subject
  subjectTruncated := record.subjectTruncated
  input := record.input.text

def needsStored (summary : ToolSummary ToolRef) : Bool :=
  summary.metadata.terminal &&
    (!usable summary.metadata.execution.inputAvailability ||
      !usable summary.metadata.execution.outputAvailability)

/-- The summary of what was saved, with the bytes of its input and its result. -/
def fromStored (record : StoredToolRecord ToolRef) (input result : ToolBlob) :
    ToolSummary ToolRef :=
  let input := decodeText input
  let result := decodeText result
  let metadata := ReadMetadata.fromStored record
  let execution := metadata.execution
  { metadata :=
      { metadata with
        execution :=
          { execution with
            inputAvailability := if input.2 then .unavailable else execution.inputAvailability
            outputAvailability := if result.2 then .unavailable else execution.outputAvailability
            outputLineCount :=
              if !result.2 && metadata.resultSeen && !record.result.expired then
                some (countLines result.1)
              else execution.outputLineCount } }
    subject := record.subject
    subjectTruncated := record.subjectTruncated
    input := input.1 }

/-- Whether a saved text is taken: nothing is known of it in memory, or nothing is left. -/
def takes (seen diskSeen : Bool) (warm cold : ToolDataAvailability) : Bool :=
  (!seen && diskSeen) ||
    (!usable warm && (usable cold || (diskSeen && cold = .unavailable)))

def takeTimes (summary disk : ToolSummary ToolRef) : ToolSummary ToolRef :=
  let warm := summary.metadata.execution
  let cold := disk.metadata.execution
  if !summary.metadata.inputSeen && warm.startedAt.isNone then
    { summary with
      metadata :=
        { summary.metadata with
          execution :=
            { warm with
              phase := warm.phase.or cold.phase
              startedAt := cold.startedAt
              finishedAt := cold.finishedAt.or warm.finishedAt } } }
  else summary

def takeInput (summary disk : ToolSummary ToolRef) : ToolSummary ToolRef :=
  let warm := summary.metadata.execution
  let cold := disk.metadata.execution
  if takes summary.metadata.inputSeen disk.metadata.inputSeen warm.inputAvailability
      cold.inputAvailability then
    { metadata :=
        { summary.metadata with
          inputSeen := disk.metadata.inputSeen
          execution :=
            { warm with
              inputBytes := cold.inputBytes
              inputTruncated := cold.inputTruncated
              inputAvailability := cold.inputAvailability } }
      subject := disk.subject
      subjectTruncated := disk.subjectTruncated
      input := disk.input }
  else summary

def takeResult (summary disk : ToolSummary ToolRef) : ToolSummary ToolRef :=
  let warm := summary.metadata.execution
  let cold := disk.metadata.execution
  if takes summary.metadata.resultSeen disk.metadata.resultSeen warm.outputAvailability
      cold.outputAvailability then
    { summary with
      metadata :=
        { summary.metadata with
          resultSeen := disk.metadata.resultSeen
          execution :=
            { warm with
              resultBytes := cold.resultBytes
              resultTruncated := cold.resultTruncated
              outputLineCount := cold.outputLineCount
              outputAvailability := cold.outputAvailability } } }
  else summary

def takeRest (summary disk : ToolSummary ToolRef) : ToolSummary ToolRef :=
  let warm := summary.metadata.execution
  let cold := disk.metadata.execution
  { summary with
    metadata :=
      { summary.metadata with
        execution :=
          { warm with
            command := warm.command.or cold.command
            recording := if warm.recording = .memoryOnly then cold.recording
              else warm.recording } } }

def merge (summary disk : ToolSummary ToolRef) : ToolSummary ToolRef :=
  if summary.metadata.compatible disk.metadata then
    (((summary.takeTimes disk).takeInput disk).takeResult disk).takeRest disk
  else summary

end ToolSummary

end Summaries

section Reads

inductive ReadError where
  | queryLimit
  | toolNotFound
  | page (error : OutputError)
  | store
  deriving DecidableEq, Repr

variable {ToolRef : Type}

/-- A saved record with the bytes of its input and its result, as `tool_read` asks for them. -/
structure StoredSummaryRead (ToolRef : Type) where
  metadata : StoredToolRecord ToolRef
  input : ToolBlob
  result : ToolBlob

/-- A saved record with the bytes of one stream, as `tool_output` asks for them. -/
structure StoredStreamRead (ToolRef : Type) where
  metadata : StoredToolRecord ToolRef
  blob : ToolBlob

/-- `tool_read` up to the projection of the summary: the record in memory, and what a read of
the saved one gives. -/
def toolReadSummary (warm : Option ToolRecord) (toolRef : ToolRef)
    (disk : Except ReadError (Option (StoredSummaryRead ToolRef))) :
    Except ReadError (ToolSummary ToolRef) :=
  let warm := warm.map fun record => ToolSummary.fromRecord record toolRef
  let found : Except ReadError (Option (ToolSummary ToolRef)) :=
    if warm.all ToolSummary.needsStored then
      match disk with
      | .ok (some source) =>
        let stored := ToolSummary.fromStored source.metadata source.input source.result
        match warm with
        | some summary => .ok (some (summary.merge stored))
        | none => .ok (some stored)
      | .ok none => .ok warm
      | .error error => if warm.isNone || error = .queryLimit then .error error else .ok warm
    else .ok warm
  match found with
  | .error error => .error error
  | .ok none => .error .toolNotFound
  | .ok (some summary) => .ok summary

variable (toolRefLen : ToolRef → Nat) (engine : Base64.Engine)

def projectPage (view : SlicedView) (request : ToolOutputRequest ToolRef) (maxBytes : Nat) :
    Except ReadError (ToolOutputPage ToolRef) :=
  (view.project toolRefLen engine request maxBytes).mapError .page

/-- What `tool_output` takes from memory. -/
structure WarmOutput (ToolRef : Type) where
  metadata : ReadMetadata ToolRef
  known : Bool
  needsStored : Bool
  page : Except ReadError (ToolOutputPage ToolRef)

def warmOutput (record : ToolRecord) (part : Nat) (request : ToolOutputRequest ToolRef)
    (maxBytes : Nat) : WarmOutput ToolRef :=
  let metadata := ReadMetadata.fromRecord record request.toolRef
  let view := record.outputView part request.stream
  { metadata := metadata
    known := view.known
    needsStored := metadata.terminal && !usable view.availability
    page := projectPage toolRefLen engine view request maxBytes }

/-- Whether the saved stream is answered with. -/
def WarmOutput.yields (warm : WarmOutput ToolRef) (disk : ReadMetadata ToolRef)
    (view : SlicedView) : Bool :=
  warm.metadata.compatible disk &&
    (usable view.availability || view.corrupt || (!warm.known && view.known))

/-- `tool_output`: the record in memory with its ring buffer parted somewhere, and what a read
of the saved one gives. -/
def toolOutput (record : Option ToolRecord) (part : Nat) (request : ToolOutputRequest ToolRef)
    (maxBytes : Nat) (disk : Except ReadError (Option (StoredStreamRead ToolRef))) :
    Except ReadError (ToolOutputPage ToolRef) :=
  let warm := record.map fun record => warmOutput toolRefLen engine record part request maxBytes
  let fallback := (warm.map WarmOutput.page).getD (.error .toolNotFound)
  if warm.any fun warm => !warm.needsStored then fallback
  else
    match disk with
    | .ok (some source) =>
      let view := SlicedView.fromStored source.metadata request.stream source.blob
      if warm.all fun warm => warm.yields (.fromStored source.metadata) view then
        projectPage toolRefLen engine view request maxBytes
      else fallback
    | .ok none => fallback
    | .error error => if warm.isNone || error = .queryLimit then .error error else fallback

end Reads

section Tidy

/-- A text keeps nothing of what was freed or never seen. -/
structure TextTidy (stream : TextStream) : Prop where
  freed : stream.expired = true → stream.text = []
  unseen : stream.seen = false → stream.total = 0 ∧ stream.text = []

/-- Nothing is known of a window that was never seen. -/
def Unread (ring : RingWindow) : Prop :=
  ring.window.seen = false → ring.window.observedEnd = 0 ∧ ring.window.bytes = []

/-- The parts of a record agree with each other, and nothing of it is damaged. -/
structure Tidy (record : ToolRecord) : Prop where
  input : TextTidy record.input
  result : TextTidy record.result
  counted : record.outputLineCount =
    if record.result.seen && !record.result.expired then some (countLines record.result.text)
    else none
  stdout : Unread record.stdout
  stderr : Unread record.stderr
  intact : Intact record

theorem TextTidy.observe {stream : TextStream} (content : List Char) (bound : Nat)
    (present : (stream.observe content bound).expired = false) :
    TextTidy (stream.observe content bound) where
  freed := by
    intro freed
    rw [present] at freed
    cases freed
  unseen := fun unseen => by cases unseen

theorem TextTidy.evict {stream : TextStream} (tidy : TextTidy stream) : TextTidy stream.evict where
  freed := fun _ => rfl
  unseen := fun unseen => ⟨(tidy.unseen unseen).1, rfl⟩

variable {record later : ToolRecord}

theorem Tidy.new (name : List Char) : Tidy { name := name } where
  input := ⟨fun _ => rfl, fun _ => ⟨rfl, rfl⟩⟩
  result := ⟨fun _ => rfl, fun _ => ⟨rfl, rfl⟩⟩
  counted := rfl
  stdout := fun _ => ⟨rfl, rfl⟩
  stderr := fun _ => ⟨rfl, rfl⟩
  intact := ⟨rfl, rfl, rfl, rfl⟩

/-- A change of one window that sees what it adds. -/
theorem Tidy.withStream (tidy : Tidy record) (stream : ToolDataStream)
    {change : RingWindow → RingWindow}
    (same : ∀ ring, (change ring).window.corrupt = ring.window.corrupt)
    (unread : ∀ ring, Unread ring → Unread (change ring)) :
    Tidy (record.withStream stream change) := by
  have intact := tidy.intact.withStream stream same
  obtain ⟨input, result, counted, out, errors, -⟩ := tidy
  cases stream with
  | input => exact ⟨input, result, counted, out, errors, intact⟩
  | output => exact ⟨input, result, counted, out, errors, intact⟩
  | stdout => exact ⟨input, result, counted, unread _ out, errors, intact⟩
  | stderr => exact ⟨input, result, counted, out, unread _ errors, intact⟩

theorem Tidy.changed (tidy : Tidy record) {change : RecordChange}
    (applies : change.Applies record) : Tidy (record.changed change) := by
  have intact := tidy.intact.changed change
  cases change with
  | invoked invocation =>
    change Tidy (record.noteInvocation invocation)
    rw [ToolRecord.noteInvocation]
    split
    · exact tidy
    · rename_i unseen
      change Intact (record.noteInvocation invocation) at intact
      rw [ToolRecord.noteInvocation, if_neg unseen] at intact
      exact ⟨⟨fun freed => (by cases freed), fun unseen => (by cases unseen)⟩, tidy.result,
        tidy.counted, tidy.stdout, tidy.stderr, intact⟩
  | awaiting =>
    change Tidy record.markAwaitingPolicy
    rw [ToolRecord.markAwaitingPolicy]
    split
    · exact { tidy with intact := { tidy.intact with } }
    · exact tidy
  | started now => exact { tidy with intact := intact }
  | phased phase => exact { tidy with intact := intact }
  | answered content =>
    refine { tidy with
      result := ⟨fun freed => (by cases freed), fun unseen => (by cases unseen)⟩
      counted := ?_
      intact := intact }
    rfl
  | cancelling =>
    change Tidy record.markCancelling
    rw [ToolRecord.markCancelling]
    split
    · exact tidy
    · exact { tidy with intact := { tidy.intact with } }
  | pushed stream chunk granted =>
    apply tidy.withStream stream
    · exact fun ring => push_corrupt ring chunk
    · intro ring _ unseen
      change (ring.push chunk).1.window.seen = false at unseen
      have seen : (ring.push chunk).1.window.seen = true := by
        rcases pushed_window ring chunk with ⟨-, made⟩ | ⟨-, -, made⟩ | ⟨_, -, made⟩ <;> rw [made]
      rw [seen] at unseen
      cases unseen
  | ended stream => exact tidy.withStream stream (fun _ => rfl) fun ring held => held
  | shortened stream => exact tidy.withStream stream (fun _ => rfl) fun ring held => held
  | commanded command => exact { tidy with intact := intact }
  | recorded recording => exact { tidy with intact := intact }
  | fileChanged change => exact { tidy with intact := intact }
  | finished outcome now => exact { tidy with intact := intact }
  | captured content =>
    have present : record.result.expired = false := applies
    have observed : TextTidy (record.result.observe content maxToolResultBytes) :=
      .observe content maxToolResultBytes present
    refine { tidy with result := observed, counted := ?_, intact := intact }
    change some _ = if true && !record.result.expired then _ else none
    rw [present]
    rfl
  | inputFreed => exact { tidy with input := tidy.input.evict, intact := intact }
  | resultFreed =>
    refine { tidy with result := tidy.result.evict, counted := ?_, intact := intact }
    change none = if record.result.seen && !true then _ else none
    rw [Bool.not_true, Bool.and_false]
    rfl
  | snapshotsFreed => exact { tidy with intact := intact }
  | streamFreed stream =>
    have same (ring : RingWindow) : ring.evict.window.corrupt = ring.window.corrupt := rfl
    apply tidy.withStream stream same
    intro ring held unseen
    exact ⟨(held unseen).1, rfl⟩

variable {ToolRef : Type} [DecidableEq ToolRef]

/-- Every record of a run is tidy. -/
theorem run_tidy (operations : List (ToolDataCall ToolRef)) :
    ToolDataInner.Every (fun _ record => Tidy record)
      (operations.foldl ToolDataInner.call .new) := by
  have start : ToolDataInner.Every (fun _ record => Tidy record)
      (ToolDataInner.new : ToolDataInner ToolRef) := by
    intro toolRef record found
    cases found
  generalize (ToolDataInner.new : ToolDataInner ToolRef) = inner at start ⊢
  induction operations generalizing inner with
  | nil => exact start
  | cons operation rest inductionHypothesis =>
    apply inductionHypothesis
    apply start.call operation
    · exact fun _ name _ _ => .new name
    · exact fun _ _ _ _ applies tidy => tidy.changed applies
    · exact fun _ _ _ _ applies tidy => tidy.changed applies

end Tidy

section Shed

/-- Whether a window has something to free. -/
def holdsWindow (ring : RingWindow) : Bool :=
  !ring.window.expired && (!ring.window.bytes.isEmpty || 0 < ring.window.observedEnd)

theorem held_stream_some {record : ToolRecord} {stream : ToolDataStream}
    (held : record.heldStream = some stream) :
    (stream = .stdout ∧ holdsWindow record.stdout = true) ∨
      (stream = .stderr ∧ holdsWindow record.stderr = true) := by
  have holds := List.find?_some held
  have listed := List.mem_of_find?_eq_some held
  simp only [List.mem_cons, List.not_mem_nil, or_false] at listed
  rcases listed with rfl | rfl
  · exact .inl ⟨rfl, holds⟩
  · exact .inr ⟨rfl, holds⟩

def holdsText (stream : TextStream) : Bool :=
  !stream.expired && (!stream.text.isEmpty || 0 < stream.total)

section Parts

variable {Part : Type} {holds : Part → Bool} {evict : Part → Part} {before part : Part}

/-- A part of a record that is as it was, or was freed where there was something to free. -/
def PartKept (holds : Part → Bool) (evict : Part → Part) (before part : Part) : Prop :=
  part = before ∨ (holds before = true ∧ part = evict before)

/-- What is held now was not freed before. -/
theorem PartKept.held (kept : PartKept holds evict before part)
    (gone : ∀ part, holds (evict part) = false) (holding : holds part = true) : part = before := by
  rcases kept with same | ⟨-, freed⟩
  · exact same
  · rw [freed, gone] at holding
    cases holding

theorem PartKept.freed (kept : PartKept holds evict before part)
    (gone : ∀ part, holds (evict part) = false) (holding : holds part = true) :
    PartKept holds evict before (evict part) := by
  have same := kept.held gone holding
  rw [same] at holding ⊢
  exact .inr ⟨holding, rfl⟩

/-- What freeing leaves alone is as it was. -/
theorem PartKept.same {Value : Type} (kept : PartKept holds evict before part)
    (fact : Part → Value) (stays : ∀ part, fact (evict part) = fact part) :
    fact part = fact before := by
  rcases kept with same | ⟨-, freed⟩
  · rw [same]
  · rw [freed, stays]

abbrev TextKept : TextStream → TextStream → Prop := PartKept holdsText TextStream.evict

abbrev WindowKept : RingWindow → RingWindow → Prop := PartKept holdsWindow RingWindow.evict

end Parts

/-- Two records of the same call, told apart by what is retained and by its saving. -/
structure SameCall (record later : ToolRecord) : Prop where
  name : later.name = record.name
  subject : later.subject = record.subject
  subjectTruncated : later.subjectTruncated = record.subjectTruncated
  state : later.state = record.state
  phase : later.phase = record.phase
  startedAt : later.startedAt = record.startedAt
  finishedAt : later.finishedAt = record.finishedAt
  outcome : later.outcome = record.outcome
  command : later.command = record.command

/-- A later record that differs in what was freed since and in what is said about saving. -/
structure Shed (record later : ToolRecord) : Prop where
  facts : SameCall record later
  input : TextKept record.input later.input
  result : TextKept record.result later.result
  lines : later.result = record.result → later.outputLineCount = record.outputLineCount
  stdout : WindowKept record.stdout later.stdout
  stderr : WindowKept record.stderr later.stderr

variable {first record later : ToolRecord}

theorem Shed.refl (record : ToolRecord) : Shed record record where
  facts := ⟨rfl, rfl, rfl, rfl, rfl, rfl, rfl, rfl, rfl⟩
  input := .inl rfl
  result := .inl rfl
  lines := fun _ => rfl
  stdout := .inl rfl
  stderr := .inl rfl

theorem Shed.next (shed : Shed first record) {change : RecordChange}
    (allowed : change.frees = true ∨ ∃ recording, change = .recorded recording)
    (applies : change.Applies record) : Shed first (record.changed change) := by
  obtain ⟨facts, input, result, lines, stdout, stderr⟩ := shed
  cases change with
  | recorded recording => exact ⟨{ facts with }, input, result, lines, stdout, stderr⟩
  | inputFreed =>
    exact ⟨{ facts with }, input.freed (fun _ => rfl) applies, result, lines, stdout, stderr⟩
  | resultFreed =>
    refine ⟨{ facts with }, input, result.freed (fun _ => rfl) applies, ?_, stdout, stderr⟩
    intro same
    have holds : holdsText first.result = true := result.held (fun _ => rfl) applies ▸ applies
    rw [← same] at holds
    cases holds
  | snapshotsFreed => exact ⟨{ facts with }, input, result, lines, stdout, stderr⟩
  | streamFreed stream =>
    have applies : record.heldStream = some stream := applies
    rcases held_stream_some applies with ⟨rfl, holds⟩ | ⟨rfl, holds⟩
    · exact ⟨{ facts with }, input, result, lines, stdout.freed (fun _ => rfl) holds, stderr⟩
    · exact ⟨{ facts with }, input, result, lines, stdout, stderr.freed (fun _ => rfl) holds⟩
  | _ =>
    obtain frees | ⟨_, same⟩ := allowed
    · cases frees
    · cases same

/-- A record that nothing but the limits and its saving touches. -/
theorem Path.shed (path : Path (fun change => ∃ recording, change = .recorded recording) record
    later) : Shed record later := by
  induction path with
  | here => exact .refl record
  | next _ _ allowed applies inductionHypothesis => exact inductionHypothesis.next allowed applies

end Shed

section Saved

variable {ToolRef : Type} {record later : ToolRecord}

theorem usable_seen {stream : TextStream} {terminal : Bool} (intact : stream.corrupt = false)
    (seen : stream.seen = true) (present : stream.expired = false) :
    usable (textAvailability stream terminal) = true := by
  rw [textAvailability, intact, streamAvailability, seen, present]
  simp only [Bool.false_eq_true, if_false, if_true]
  split
  · rfl
  · rfl

/-- What can be freed was seen. -/
theorem held_seen {Item : Type} {seen expired : Bool} {items : List Item} {count : Nat}
    (unseen : seen = false → count = 0 ∧ items = [])
    (holds : (!expired && (!items.isEmpty || 0 < count)) = true) :
    seen = true ∧ expired = false := by
  rw [Bool.and_eq_true, Bool.not_eq_true'] at holds
  refine ⟨?_, holds.1⟩
  cases seen with
  | true => rfl
  | false =>
    obtain ⟨nothing, empty⟩ := unseen rfl
    rw [nothing, empty] at holds
    cases holds.2

variable (hashBytes : Bytes → String)

/-- The saved bytes of a text, read back. -/
theorem decode_saved {stream : TextStream} (tidy : TextTidy stream) :
    let saved := snapshotText hashBytes stream
    decodeText (readBlob hashBytes saved.2 saved.1.fileBytes saved.1.fileSha256) =
      (stream.text, false) ∧ saved.1.fileBytes = byteLen stream.text := by
  intro saved
  have read : readBlob hashBytes saved.2 saved.1.fileBytes saved.1.fileSha256 =
      (if stream.expired || (encode stream.text).isEmpty then none
        else some (encode stream.text), false) :=
    read_snapshot hashBytes (encode stream.text) stream.expired
  have bytes : ((if stream.expired || (encode stream.text).isEmpty then none
      else some (encode stream.text) : Option Bytes).getD []) = encode stream.text := by
    cases expired : stream.expired with
    | false => exact read_bytes rfl
    | true =>
      rw [tidy.freed expired]
      rfl
  constructor
  · rw [read, decodeText, bytes, Text.decode_encode]
  · change (snapshotBlob hashBytes (encode stream.text) stream.expired).2.1 = _
    rw [snapshotBlob, ← Text.encode_length]
    split
    · rename_i nothing
      rcases Bool.or_eq_true_iff.mp nothing with expired | empty
      · rw [tidy.freed expired]
        rfl
      · rw [List.isEmpty_iff.mp empty]
        rfl
    · rfl

theorem saved_availability {stream : TextStream} (tidy : TextTidy stream)
    (intact : stream.corrupt = false) (terminal : Bool) :
    let saved := (snapshotText hashBytes stream).1
    streamAvailability saved.seen saved.expired terminal saved.fileBytes saved.totalBytes
      saved.truncated = textAvailability stream terminal := by
  intro saved
  have length : saved.fileBytes = byteLen stream.text := (decode_saved hashBytes tidy).2
  rw [length, textAvailability, intact]
  rfl

/-- A summary with what else is said about the command and the saving. -/
def ToolSummary.reported (summary : ToolSummary ToolRef) (command : Option CommandResult)
    (recording : ToolRecordingState) : ToolSummary ToolRef :=
  let execution := summary.metadata.execution
  { summary with
    metadata :=
      { summary.metadata with
        execution := { execution with command := command, recording := recording } } }

theorem truncated_again (command out errors expired lost : Bool) :
    (command || out || errors || expired || lost || (out || errors || expired || lost)) =
      (command || out || errors || expired || lost) := by
  revert command out errors expired lost
  decide

/-- The facts of a record with another count of lines, command and word about its saving. -/
def metadataWith (record : ToolRecord) (toolRef : ToolRef) (lines : Option Nat)
    (command : Option CommandResult) (recording : ToolRecordingState) : ReadMetadata ToolRef :=
  { ReadMetadata.fromRecord record toolRef with
    execution :=
      { record.executionData toolRef with
        outputLineCount := lines, command := command, recording := recording } }

/-- The facts that were saved of a record. -/
theorem saved_metadata (tidy : Tidy record) (toolRef : ToolRef) :
    ReadMetadata.fromStored (record.snapshot hashBytes toolRef).record =
      metadataWith record toolRef none (record.command.map record.liveCommand) .saved := by
  let stored := (record.snapshot hashBytes toolRef).record
  have inputBytes : stored.input.fileBytes = byteLen record.input.text :=
    (decode_saved hashBytes tidy.input).2
  have resultBytes : stored.result.fileBytes = byteLen record.result.text :=
    (decode_saved hashBytes tidy.result).2
  have inputAvailable : streamAvailability stored.input.seen stored.input.expired
      stored.state.isTerminal stored.input.fileBytes stored.input.totalBytes
      stored.input.truncated = textAvailability record.input record.state.isTerminal :=
    saved_availability hashBytes tidy.input tidy.intact.input record.state.isTerminal
  have resultAvailable : streamAvailability stored.result.seen stored.result.expired
      stored.state.isTerminal stored.result.fileBytes stored.result.totalBytes
      stored.result.truncated = textAvailability record.result record.state.isTerminal :=
    saved_availability hashBytes tidy.result tidy.intact.result record.state.isTerminal
  have command : (stored.command.map fun command =>
      { command with
        stdoutBaseOffset := stored.stdout.startOffset
        stdoutObservedEnd := stored.stdout.observedEnd
        stderrBaseOffset := stored.stderr.startOffset
        stderrObservedEnd := stored.stderr.observedEnd
        outputTruncated := command.outputTruncated || (stored.stdout.truncated ||
          stored.stderr.truncated || stored.stdout.expired || stored.stderr.expired) }) =
      record.command.map record.liveCommand := by
    change (record.command.map record.liveCommand).map _ = _
    rw [Option.map_map]
    congr 1
    funext command
    simp only [Function.comp_apply, ToolRecord.liveCommand, CommandResult.mk.injEq, true_and]
    exact ⟨rfl, rfl, rfl, rfl, truncated_again _ _ _ _ _⟩
  change ReadMetadata.fromStored stored = _
  rw [ReadMetadata.fromStored]
  dsimp only
  rw [command, inputAvailable, resultAvailable, inputBytes, resultBytes]
  rfl

/-- What was saved of a record is its summary. -/
theorem saved_summary (tidy : Tidy record) (toolRef : ToolRef) :
    let snapshot := record.snapshot hashBytes toolRef
    let stored := snapshot.record
    ToolSummary.fromStored stored
        (readBlob hashBytes snapshot.inputBytes stored.input.fileBytes stored.input.fileSha256)
        (readBlob hashBytes snapshot.resultBytes stored.result.fileBytes
          stored.result.fileSha256) =
      (ToolSummary.fromRecord record toolRef).reported (record.command.map record.liveCommand)
        .saved := by
  intro snapshot stored
  have input : decodeText (readBlob hashBytes snapshot.inputBytes stored.input.fileBytes
      stored.input.fileSha256) = (record.input.text, false) :=
    (decode_saved hashBytes tidy.input).1
  have result : decodeText (readBlob hashBytes snapshot.resultBytes stored.result.fileBytes
      stored.result.fileSha256) = (record.result.text, false) :=
    (decode_saved hashBytes tidy.result).1
  have lines : (if !false && record.result.seen && !record.result.expired then
      some (countLines record.result.text) else none) = record.outputLineCount :=
    tidy.counted.symm
  rw [ToolSummary.fromStored, input, result, saved_metadata hashBytes tidy toolRef]
  change ToolSummary.mk (ReadMetadata.mk (ToolExecutionData.mk
    (if !false && record.result.seen && !record.result.expired then
      some (countLines record.result.text) else none) _ _ _ _ _ _ _ _ _ _ _ _ _ _ _) _ _ _ _)
    _ _ _ = _
  rw [lines]
  rfl

end Saved

section Merges

variable {ToolRef : Type} {record later : ToolRecord}

theorem agree_self {Value : Type} [DecidableEq Value] (value : Option Value) :
    ReadMetadata.agree value value = true := by
  cases value with
  | none => rfl
  | some value => exact decide_eq_true rfl

theorem agree_ends {seen complete expired seen' complete' expired' : Bool} (observed : Nat) :
    ReadMetadata.agree (windowEnd seen complete expired observed)
      (windowEnd seen' complete' expired' observed) = true := by
  rw [windowEnd, windowEnd]
  split
  · split
    · exact decide_eq_true rfl
    · rfl
  · rfl

theorem live_facts (record : ToolRecord) (command : Option CommandResult) :
    (command.map record.liveCommand).map ReadMetadata.commandFacts =
      command.map ReadMetadata.commandFacts := by
  cases command with
  | none => rfl
  | some command => rfl

/-- What is known of the end of a stream stays known. -/
theorem shed_ended {ring before : RingWindow}
    (unread : Unread before) (kept : WindowKept before ring) :
    windowEnd ring.window.seen ring.window.complete ring.window.expired ring.window.observedEnd =
      windowEnd before.window.seen before.window.complete before.window.expired
        before.window.observedEnd := by
  rcases kept with same | ⟨holds, freed⟩
  · rw [same]
  · have seen : before.window.seen = true := (held_seen unread holds).1
    rw [freed, windowEnd, windowEnd]
    change (if before.window.seen || _ || _ || _ then some before.window.observedEnd else none) = _
    rw [seen]
    rfl

/-- A record agrees with what was saved of it before. -/
theorem Shed.compatible (shed : Shed record later) (toolRef : ToolRef) (lines : Option Nat)
    (recording : ToolRecordingState) :
    (ReadMetadata.fromRecord later toolRef).compatible
      (metadataWith record toolRef lines (record.command.map record.liveCommand) recording) =
        true := by
  have stdout := shed.stdout.same (·.window.observedEnd) fun _ => rfl
  have stderr := shed.stderr.same (·.window.observedEnd) fun _ => rfl
  have input := shed.input.same TextStream.total fun _ => rfl
  have result := shed.result.same TextStream.total fun _ => rfl
  rw [ReadMetadata.compatible]
  change (decide (later.name = record.name) &&
    (!later.state.isTerminal || !record.state.isTerminal || decide (later.state = record.state)) &&
    ReadMetadata.agree later.outcome record.outcome &&
    (!later.input.seen || !record.input.seen || decide (later.input.total = record.input.total)) &&
    (!later.result.seen || !record.result.seen ||
      decide (later.result.total = record.result.total)) &&
    ReadMetadata.agree (windowEnd _ _ _ later.stdout.window.observedEnd)
      (windowEnd _ _ _ record.stdout.window.observedEnd) &&
    ReadMetadata.agree (windowEnd _ _ _ later.stderr.window.observedEnd)
      (windowEnd _ _ _ record.stderr.window.observedEnd) &&
    ReadMetadata.agree ((later.command.map later.liveCommand).map ReadMetadata.commandFacts)
      ((record.command.map record.liveCommand).map ReadMetadata.commandFacts)) = true
  rw [shed.facts.name, shed.facts.state, shed.facts.outcome, input, result,
    stdout, stderr, agree_self, agree_ends, agree_ends, live_facts, live_facts,
    shed.facts.command, agree_self]
  simp

/-- A summary with the input of another one. -/
def ToolSummary.inputOf (summary source : ToolSummary ToolRef) : ToolSummary ToolRef :=
  let execution := summary.metadata.execution
  { metadata :=
      { summary.metadata with
        inputSeen := source.metadata.inputSeen
        execution :=
          { execution with
            inputBytes := source.metadata.execution.inputBytes
            inputTruncated := source.metadata.execution.inputTruncated
            inputAvailability := source.metadata.execution.inputAvailability } }
    subject := source.subject
    subjectTruncated := source.subjectTruncated
    input := source.input }

/-- A summary with the result of another one. -/
def ToolSummary.resultOf (summary source : ToolSummary ToolRef) : ToolSummary ToolRef :=
  let execution := summary.metadata.execution
  { summary with
    metadata :=
      { summary.metadata with
        resultSeen := source.metadata.resultSeen
        execution :=
          { execution with
            resultBytes := source.metadata.execution.resultBytes
            resultTruncated := source.metadata.execution.resultTruncated
            outputLineCount := source.metadata.execution.outputLineCount
            outputAvailability := source.metadata.execution.outputAvailability } } }

variable (tidy : Tidy record) (shed : Shed record later) (toolRef : ToolRef)

/-- A text that was freed is taken from what was saved of it. -/
theorem takes_freed {before : TextStream} (tidy : TextTidy before)
    (intact : before.corrupt = false) (holds : holdsText before = true)
    (seen diskSeen terminal : Bool) :
    ToolSummary.takes seen diskSeen (textAvailability before.evict terminal)
      (textAvailability before terminal) = true := by
  obtain ⟨known, present⟩ := held_seen tidy.unseen holds
  have lost : textAvailability before.evict terminal = .expired := by
    rw [textAvailability, streamAvailability]
    change (if before.corrupt then _ else _) = _
    rw [intact]
    rfl
  rw [ToolSummary.takes, lost, usable_seen intact known present]
  simp [usable]

include shed in
/-- An input that is still retained is that of the record before. -/
theorem input_retained (same : later.input = record.input) :
    (ToolSummary.fromRecord later toolRef).inputOf (.fromRecord record toolRef) =
      .fromRecord later toolRef := by
  simp only [ToolSummary.inputOf, ToolSummary.fromRecord, ReadMetadata.fromRecord,
    ToolRecord.executionData, same, shed.facts.subject, shed.facts.subjectTruncated,
    shed.facts.state]

include tidy shed in
theorem input_taken (disk : ToolSummary ToolRef)
    (saved : disk.inputOf (.fromRecord record toolRef) = disk) :
    (ToolSummary.fromRecord later toolRef).takeInput disk =
      (ToolSummary.fromRecord later toolRef).inputOf (.fromRecord record toolRef) := by
  have same_parts : (ToolSummary.fromRecord later toolRef).inputOf disk =
      (ToolSummary.fromRecord later toolRef).inputOf (.fromRecord record toolRef) := by
    rw [← saved]
    rfl
  rw [ToolSummary.takeInput]
  rcases shed.input with same | ⟨holds, freed⟩
  · split
    · exact same_parts
    · exact (input_retained shed toolRef same).symm
  · apply (if_pos _).trans same_parts
    rw [← saved]
    change ToolSummary.takes _ _ (textAvailability later.input later.state.isTerminal)
      (textAvailability record.input record.state.isTerminal) = true
    rw [freed, shed.facts.state]
    exact takes_freed tidy.input tidy.intact.input holds _ _ _

include shed in
/-- A result that is still retained is that of the record before. -/
theorem result_retained {summary : ToolSummary ToolRef}
    (still : summary.resultOf (.fromRecord later toolRef) = summary)
    (same : later.result = record.result) :
    summary.resultOf (.fromRecord record toolRef) = summary := by
  rw [← still]
  simp only [ToolSummary.resultOf, ToolSummary.fromRecord, ReadMetadata.fromRecord,
    ToolRecord.executionData, same, shed.lines same, shed.facts.state]

include tidy shed in
theorem result_taken (summary disk : ToolSummary ToolRef)
    (still : summary.resultOf (.fromRecord later toolRef) = summary)
    (saved : disk.resultOf (.fromRecord record toolRef) = disk) :
    summary.takeResult disk = summary.resultOf (.fromRecord record toolRef) := by
  have same_parts : summary.resultOf disk = summary.resultOf (.fromRecord record toolRef) := by
    rw [← saved]
    rfl
  rw [ToolSummary.takeResult]
  rcases shed.result with same | ⟨holds, freed⟩
  · split
    · exact same_parts
    · exact (result_retained shed toolRef still same).symm
  · apply (if_pos _).trans same_parts
    rw [← saved, ← still]
    change ToolSummary.takes _ _ (textAvailability later.result later.state.isTerminal)
      (textAvailability record.result record.state.isTerminal) = true
    rw [freed, shed.facts.state]
    exact takes_freed tidy.result tidy.intact.result holds _ _ _

include tidy shed in
/-- What was saved gives back the summary that the record had, but for the offsets of its
command. -/
theorem merged_summary (recording : ToolRecordingState) :
    (ToolSummary.fromRecord later toolRef).merge
        ((ToolSummary.fromRecord record toolRef).reported (record.command.map record.liveCommand)
          recording) =
      (ToolSummary.fromRecord record toolRef).reported (later.command.map later.liveCommand)
        (if later.recording = .memoryOnly then recording else later.recording) := by
  let disk := (ToolSummary.fromRecord record toolRef).reported
    (record.command.map record.liveCommand) recording
  have compatible : (ToolSummary.fromRecord later toolRef).metadata.compatible disk.metadata =
      true := shed.compatible toolRef record.outputLineCount recording
  have times : (ToolSummary.fromRecord later toolRef).takeTimes disk =
      .fromRecord later toolRef := by
    rw [ToolSummary.takeTimes]
    split
    · have phase : later.phase.or record.phase = later.phase := by
        rw [shed.facts.phase]
        exact Option.or_self
      have finished : record.finishedAt.or later.finishedAt = later.finishedAt := by
        rw [shed.facts.finishedAt]
        exact Option.or_self
      have started : record.startedAt = later.startedAt := shed.facts.startedAt.symm
      change ToolSummary.mk (ReadMetadata.mk (ToolExecutionData.mk _ _ _ _
        (later.phase.or record.phase) record.startedAt (record.finishedAt.or later.finishedAt)
        _ _ _ _ _ _ _ _ _) _ _ _ _) _ _ _ = _
      rw [phase, finished, started]
      rfl
    · rfl
  have command : (later.command.map later.liveCommand).or
      (record.command.map record.liveCommand) = later.command.map later.liveCommand := by
    rw [← shed.facts.command]
    cases later.command with
    | none => rfl
    | some command => rfl
  rw [ToolSummary.merge, if_pos compatible, times, input_taken tidy shed toolRef disk rfl,
    result_taken tidy shed toolRef _ disk rfl rfl]
  simp only [ToolSummary.takeRest, ToolSummary.reported, ToolSummary.resultOf,
    ToolSummary.inputOf, ToolSummary.fromRecord, ReadMetadata.fromRecord,
    ToolRecord.executionData, shed.facts.name, shed.facts.state, shed.facts.phase,
    shed.facts.startedAt, shed.facts.finishedAt, shed.facts.outcome, command,
    shed_ended tidy.stdout shed.stdout, shed_ended tidy.stderr shed.stderr]

end Merges

section Answers

variable {ToolRef : Type}

/-- What leaves a record alone, but for what it says about its saving. -/
structure ToolDataCall.Leaves (operation : ToolDataCall ToolRef) (toolRef : ToolRef) : Prop where
  changes : ∀ change, operation.Makes toolRef change → ∃ recording, change = .recorded recording
  adds : ∀ name, ¬ operation.Tracks toolRef name

variable [DecidableEq ToolRef] {record later : ToolRecord} {toolRef : ToolRef}

/-- What a run that leaves a record alone makes of it. -/
theorem run_sheds {inner : ToolDataInner ToolRef} (found : inner.get toolRef = some record)
    (operations : List (ToolDataCall ToolRef))
    (leaves : ∀ operation ∈ operations, operation.Leaves toolRef) (later : ToolRecord)
    (foundLater : (operations.foldl ToolDataInner.call inner).get toolRef = some later) :
    Shed record later := by
  have every : ToolDataInner.Every (fun other later => other = toolRef →
      Path (fun change => ∃ recording, change = .recorded recording) record later) inner := by
    rintro other present here rfl
    rw [found] at here
    cases here
    exact .here
  clear found
  induction operations generalizing inner with
  | nil => exact (every toolRef later foundLater rfl).shed
  | cons operation rest inductionHypothesis =>
    obtain ⟨changes, adds⟩ := leaves operation List.mem_cons_self
    apply inductionHypothesis (fun other member => leaves other (List.mem_cons_of_mem _ member))
    · exact foundLater
    · apply every.call operation
      · rintro other name tracks - rfl
        exact absurd tracks (adds name)
      · rintro other present change makes applies before rfl
        exact (before rfl).next change (.inr (changes change makes)) applies
      · exact ToolDataInner.outlasts_path _ record toolRef

variable (toolRefLen : ToolRef → Nat) (engine : Base64.Engine) (hashBytes : Bytes → String)

omit [DecidableEq ToolRef] in
/-- Views that answer alike give one page. -/
theorem project_parts {view other : SlicedView} {request : ToolOutputRequest ToolRef}
    (whole : request.stream.isProcess = false → view.second = [])
    (other_whole : request.stream.isProcess = false → other.second = [])
    (alike : Alike view.joined other.joined) (maxBytes : Nat) :
    projectPage toolRefLen engine view request maxBytes =
      projectPage toolRefLen engine other request maxBytes := by
  rw [projectPage, projectPage, project_joined toolRefLen engine view request maxBytes whole,
    project_joined toolRefLen engine other request maxBytes other_whole,
    project_alike toolRefLen engine alike request maxBytes]

theorem ring_joined (window : StreamWindow) (part part' : Nat) (final : Bool) :
    (ringView window part final).joined = (ringView window part' final).joined := by
  simp only [SlicedView.joined, ringView, List.take_append_drop]

/-- A window of a later record is that of the record before, or it was freed. -/
theorem ring_view {ring before : RingWindow}
    (unread : Unread before) (intact : before.window.corrupt = false)
    (kept : WindowKept before ring) (part part' : Nat) (final : Bool) :
    (ringView ring.window part final).joined = (ringView before.window part' final).joined ∨
      ((ringView ring.window part final).availability = .expired ∧
        usable (ringView before.window part' final).availability = true) := by
  rcases kept with same | ⟨holds, freed⟩
  · rw [same]
    exact .inl (ring_joined _ _ _ _)
  · obtain ⟨seen, present⟩ := held_seen unread holds
    right
    constructor
    · rw [freed]
      change windowAvailability before.window.evict final = .expired
      rw [windowAvailability]
      change (if before.window.corrupt then _ else _) = _
      rw [intact]
      rfl
    · change usable (windowAvailability before.window final) = true
      rw [windowAvailability, intact, present, seen]
      simp only [Bool.false_eq_true, if_false, Bool.true_or, if_true]
      split
      · rfl
      · rfl

/-- A text of a later record is that of the record before, or it was freed. -/
theorem text_view {stream before : TextStream} (tidy : TextTidy before)
    (intact : before.corrupt = false) (kept : TextKept before stream) (terminal : Bool) :
    (heldTextView stream terminal).joined = (heldTextView before terminal).joined ∨
      ((heldTextView stream terminal).availability = .expired ∧
        usable (heldTextView before terminal).availability = true) := by
  rcases kept with same | ⟨holds, freed⟩
  · rw [same]
    exact .inl rfl
  · obtain ⟨seen, present⟩ := held_seen tidy.unseen holds
    right
    constructor
    · rw [freed]
      change (if before.corrupt then _ else _) = _
      rw [intact]
      rfl
    · exact usable_seen intact seen present

/-- A stream of a later record is that of the record before, or it was freed. -/
theorem Shed.view (shed : Shed record later) (tidy : Tidy record) (part part' : Nat)
    (stream : ToolDataStream) :
    (later.outputView part stream).joined = (record.outputView part' stream).joined ∨
      ((later.outputView part stream).availability = .expired ∧
        usable (record.outputView part' stream).availability = true) := by
  have state := shed.facts.state
  have final : later.streamFinal = record.streamFinal := by
    rw [ToolRecord.streamFinal, ToolRecord.streamFinal, shed.facts.command, state]
  cases stream with
  | input =>
    have seen := text_view tidy.input tidy.intact.input shed.input record.state.isTerminal
    simpa only [ToolRecord.outputView, state] using seen
  | output =>
    have seen := text_view tidy.result tidy.intact.result shed.result record.state.isTerminal
    simpa only [ToolRecord.outputView, state] using seen
  | stdout =>
    have seen := ring_view tidy.stdout tidy.intact.stdout shed.stdout part part' record.streamFinal
    simpa only [ToolRecord.outputView, final] using seen
  | stderr =>
    have seen := ring_view tidy.stderr tidy.intact.stderr shed.stderr part part' record.streamFinal
    simpa only [ToolRecord.outputView, final] using seen

omit [DecidableEq ToolRef] in
theorem metadata_terminal (shed : Shed record later) (toolRef : ToolRef)
    (ended : record.isTerminal = true) :
    (ReadMetadata.fromRecord later toolRef).terminal = true := by
  rw [ToolRecord.isTerminal, Bool.and_eq_true] at ended
  change (later.state.isTerminal &&
    (later.command.map later.liveCommand).all (·.status.isTerminal)) = true
  rw [shed.facts.state, shed.facts.command, Bool.and_eq_true]
  refine ⟨ended.1, ?_⟩
  rw [← ended.2]
  cases record.command with
  | none => rfl
  | some command => rfl

/-- The saved stream of a record that its snapshot names. -/
def ToolPersistenceSnapshot.streamRead (snapshot : ToolPersistenceSnapshot ToolRef)
    (stream : ToolDataStream) : StoredStreamRead ToolRef where
  metadata := snapshot.record
  blob := readBlob hashBytes (snapshot.file stream) (snapshot.record.blob stream).1
    (snapshot.record.blob stream).2

/-- The saved texts of a record that its snapshot names. -/
def ToolPersistenceSnapshot.summaryRead (snapshot : ToolPersistenceSnapshot ToolRef) :
    StoredSummaryRead ToolRef where
  metadata := snapshot.record
  input := readBlob hashBytes snapshot.inputBytes snapshot.record.input.fileBytes
    snapshot.record.input.fileSha256
  result := readBlob hashBytes snapshot.resultBytes snapshot.record.result.fileBytes
    snapshot.record.result.fileSha256

omit [DecidableEq ToolRef] in
/-- The page of a record, whatever is left of it in memory. -/
theorem shed_output (tidy : Tidy record) (ended : record.isTerminal = true)
    (left : Option ToolRecord) (shed : ∀ later, left = some later → Shed record later)
    (part part' : Nat) (request : ToolOutputRequest ToolRef) (maxBytes : Nat) :
    toolOutput toolRefLen engine left part request maxBytes
        (.ok (some ((record.snapshot hashBytes request.toolRef).streamRead hashBytes
          request.stream))) =
      projectPage toolRefLen engine (record.outputView part' request.stream) request maxBytes := by
  let source := (record.snapshot hashBytes request.toolRef).streamRead hashBytes request.stream
  have saved : projectPage toolRefLen engine
      (SlicedView.fromStored source.metadata request.stream source.blob) request maxBytes =
      projectPage toolRefLen engine (record.outputView part' request.stream) request maxBytes := by
    symm
    apply project_parts
    · exact output_view_whole record part' request.stream
    · exact fun _ => from_stored_whole _ _ _
    · exact snapshot_alike tidy.intact request.toolRef part' request.stream
  cases left with
  | none => exact saved
  | some later =>
    have shed := shed later rfl
    rcases shed.view tidy part part' request.stream with same | ⟨freed, readable⟩
    · -- Memory and disk give the same page, so it does not matter which one answers.
      have warm : projectPage toolRefLen engine (later.outputView part request.stream) request
          maxBytes =
          projectPage toolRefLen engine (record.outputView part' request.stream) request
            maxBytes := by
        apply project_parts
        · exact output_view_whole later part request.stream
        · exact output_view_whole record part' request.stream
        · rw [same]
          exact ⟨rfl, rfl, rfl, rfl, rfl, rfl, rfl, fun _ => rfl⟩
      rw [toolOutput]
      dsimp only [Option.map_some, Option.getD_some]
      split
      · exact warm
      · split
        · exact saved
        · exact warm
    · have needs : (warmOutput toolRefLen engine later part request maxBytes).needsStored =
          true := by
        change ((ReadMetadata.fromRecord later request.toolRef).terminal &&
          !usable (later.outputView part request.stream).availability) = true
        rw [metadata_terminal shed request.toolRef ended, freed]
        rfl
      have alike : Alike (record.outputView part' request.stream).joined
          (SlicedView.fromStored source.metadata request.stream source.blob).joined :=
        snapshot_alike tidy.intact request.toolRef part' request.stream
      have available : usable (SlicedView.fromStored source.metadata request.stream
          source.blob).availability = true := by
        rw [← readable]
        exact congrArg usable alike.availability.symm
      have compatible : (ReadMetadata.fromRecord later request.toolRef).compatible
          (.fromStored source.metadata) = true := by
        change ReadMetadata.compatible _
          (.fromStored (record.snapshot hashBytes request.toolRef).record) = true
        rw [saved_metadata hashBytes tidy]
        exact shed.compatible request.toolRef none .saved
      have yields : (warmOutput toolRefLen engine later part request maxBytes).yields
          (.fromStored source.metadata)
          (SlicedView.fromStored source.metadata request.stream source.blob) = true := by
        rw [WarmOutput.yields, available]
        simp only [Bool.true_or, Bool.and_true]
        exact compatible
      rw [toolOutput]
      dsimp only [Option.map_some, Option.getD_some]
      split
      · rename_i unneeded
        rw [Option.any_some, needs] at unneeded
        cases unneeded
      · split
        · exact saved
        · rename_i refused
          rw [Option.all_some] at refused
          exact absurd yields refused

omit [DecidableEq ToolRef] in
/-- A record of which neither text was freed has the summary that it had. -/
theorem retained_summary (tidy : Tidy record) (shed : Shed record later) (toolRef : ToolRef)
    (ended : record.isTerminal = true)
    (kept : ¬ (ToolSummary.fromRecord later toolRef).needsStored = true) :
    ToolSummary.fromRecord later toolRef =
      (ToolSummary.fromRecord record toolRef).reported (later.command.map later.liveCommand)
        later.recording := by
  have terminal := metadata_terminal shed toolRef ended
  have needs : (ToolSummary.fromRecord later toolRef).needsStored =
      (!usable (textAvailability later.input later.state.isTerminal) ||
        !usable (textAvailability later.result later.state.isTerminal)) := by
    change ((ReadMetadata.fromRecord later toolRef).terminal && _) = _
    rw [terminal, Bool.true_and]
    rfl
  have expired {stream : TextStream} (intact : stream.corrupt = false) (terminal : Bool) :
      usable (textAvailability stream.evict terminal) = false := by
    rw [textAvailability]
    change usable (if stream.corrupt then _ else _) = _
    rw [intact]
    rfl
  have input : later.input = record.input := by
    rcases shed.input with same | ⟨-, freed⟩
    · exact same
    · refine absurd ?_ kept
      rw [needs, freed, expired tidy.intact.input]
      rfl
  have result : later.result = record.result := by
    rcases shed.result with same | ⟨-, freed⟩
    · exact same
    · refine absurd ?_ kept
      rw [needs, freed, expired tidy.intact.result, Bool.not_false, Bool.or_true]
  simp only [ToolSummary.reported, ToolSummary.fromRecord, ReadMetadata.fromRecord,
    ToolRecord.executionData, shed.facts.name, shed.facts.subject, shed.facts.subjectTruncated,
    shed.facts.state, shed.facts.phase, shed.facts.startedAt, shed.facts.finishedAt,
    shed.facts.outcome, input, result, shed.lines result, shed_ended tidy.stdout shed.stdout,
    shed_ended tidy.stderr shed.stderr]

/-- What two reports of a command share while output is freed: all but the first offsets and
what they say about the loss. -/
def CommandResult.lasting (command : CommandResult) : CommandResult :=
  { command with stdoutBaseOffset := 0, stderrBaseOffset := 0, outputTruncated := false }

omit [DecidableEq ToolRef] in
/-- The summary of a record, whatever is left of it in memory. -/
theorem shed_summary (tidy : Tidy record) (ended : record.isTerminal = true)
    (left : Option ToolRecord)
    (shed : ∀ later, left = some later → Shed record later) (toolRef : ToolRef) :
    ∃ command recording,
      command.map CommandResult.lasting =
        (record.command.map record.liveCommand).map CommandResult.lasting ∧
      toolReadSummary left toolRef
          (.ok (some ((record.snapshot hashBytes toolRef).summaryRead hashBytes))) =
        .ok ((ToolSummary.fromRecord record toolRef).reported command recording) := by
  have saved := saved_summary hashBytes tidy toolRef
  cases left with
  | none =>
    refine ⟨record.command.map record.liveCommand, .saved, rfl, ?_⟩
    exact congrArg Except.ok saved
  | some later =>
    have shed := shed later rfl
    have command : (later.command.map later.liveCommand).map CommandResult.lasting =
        (record.command.map record.liveCommand).map CommandResult.lasting := by
      rw [shed.facts.command]
      cases record.command with
      | none => rfl
      | some command =>
        have stdout := shed.stdout.same (·.window.observedEnd) fun _ => rfl
        have stderr := shed.stderr.same (·.window.observedEnd) fun _ => rfl
        simp only [Option.map_some, CommandResult.lasting, ToolRecord.liveCommand,
          RingWindow.liveRange, stdout, stderr]
    by_cases needed : (ToolSummary.fromRecord later toolRef).needsStored = true
    · have merged := merged_summary tidy shed toolRef .saved
      rw [← saved] at merged
      refine ⟨later.command.map later.liveCommand,
        if later.recording = .memoryOnly then .saved else later.recording, command, ?_⟩
      rw [toolReadSummary]
      dsimp only [Option.map_some]
      rw [if_pos (by rw [Option.all_some]; exact needed)]
      exact congrArg Except.ok merged
    · have whole := retained_summary tidy shed toolRef ended needed
      refine ⟨later.command.map later.liveCommand, later.recording, command, ?_⟩
      rw [toolReadSummary]
      dsimp only [Option.map_some]
      rw [if_neg (by rw [Option.all_some]; exact needed)]
      exact congrArg Except.ok whole

/-- Once a finished record is saved, nothing that the limits free or remove changes a page of its
output: every later read gives the page that the record would have given when it was saved. -/
theorem freed_output_answers (before after : List (ToolDataCall ToolRef)) (toolRef : ToolRef)
    (record : ToolRecord)
    (found : (before.foldl ToolDataInner.call .new).get toolRef = some record)
    (ended : record.isTerminal = true)
    (leaves : ∀ operation ∈ after, operation.Leaves toolRef) :
    ∃ snapshot, (before.foldl ToolDataInner.call .new).snapshotForPersistence hashBytes toolRef =
        some snapshot ∧
      ∀ (part part' : Nat) (request : ToolOutputRequest ToolRef) (maxBytes : Nat),
        request.toolRef = toolRef →
        toolOutput toolRefLen engine (((before ++ after).foldl ToolDataInner.call .new).get toolRef)
            part request maxBytes (.ok (some (snapshot.streamRead hashBytes request.stream))) =
          projectPage toolRefLen engine (record.outputView part' request.stream) request
            maxBytes := by
  refine ⟨record.snapshot hashBytes toolRef, ?_, ?_⟩
  · rw [ToolDataInner.snapshotForPersistence, found, Option.bind_some, if_pos ended]
  · rintro part part' request maxBytes rfl
    apply shed_output toolRefLen engine hashBytes (run_tidy before _ record found) ended
    intro later foundLater
    rw [List.foldl_append] at foundLater
    exact run_sheds found after leaves later foundLater

/-- A second call takes all memory, so that the output of the first one is freed. -/
def crowding : List (ToolDataCall Nat) :=
  [.noteRequested 1 "bash".toList, .noteStreamChunk 1 .stdout [33] (9 * 1024 * 1024)]

theorem crowding_leaves : ∀ operation ∈ crowding, operation.Leaves 0 := by
  intro operation member
  simp only [crowding, List.mem_cons, List.not_mem_nil, or_false] at member
  rcases member with rfl | rfl
  · exact ⟨fun _ makes => (by cases makes), fun _ tracks => (by cases tracks)⟩
  · exact ⟨fun _ makes => (by cases makes), fun _ tracks => (by cases tracks)⟩

theorem sample_output_answers :
    let before : List (ToolDataCall Nat) :=
      [.noteRequested 0 "bash".toList, .noteStreamChunk 0 .stdout [104, 101, 108, 112] 0,
        .finish 0 .success none]
    let left := ((before ++ crowding).foldl ToolDataInner.call .new).get 0
    (left.any fun record => record.stdout.window.expired) = true ∧
      ∃ snapshot, (before.foldl ToolDataInner.call .new).snapshotForPersistence (fun _ => "") 0 =
          some snapshot ∧
        toolOutput (fun _ => 1) Base64.standard left 0 ⟨0, .stdout, 1⟩ 200
            (.ok (some (snapshot.streamRead (fun _ => "") .stdout))) =
          .ok ⟨0, .stdout, "base64".toList, 1, 4, 4, true, false, .available, "ZWxw".toList⟩ := by
  intro before left
  let record : ToolRecord :=
    { name := "bash".toList
      state := .succeeded
      outcome := some .success
      stdout := ⟨⟨[104, 101, 108, 112], 0, 4, true, false, false, false, false⟩, 4⟩ }
  have found : (before.foldl ToolDataInner.call .new).get 0 = some record := by decide +kernel
  obtain ⟨snapshot, saved, answers⟩ := freed_output_answers (fun _ => 1) Base64.standard
    (fun _ => "") before crowding 0 record found rfl crowding_leaves
  refine ⟨by decide +kernel, snapshot, saved, ?_⟩
  rw [answers 0 2 ⟨0, .stdout, 1⟩ 200 rfl]
  decide +kernel

/-- The same for the summary of the call: all of it stays, but for where the retained output
starts, whether it was cut, and what is said about the saving. -/
theorem freed_summary_answers (before after : List (ToolDataCall ToolRef)) (toolRef : ToolRef)
    (record : ToolRecord)
    (found : (before.foldl ToolDataInner.call .new).get toolRef = some record)
    (ended : record.isTerminal = true)
    (leaves : ∀ operation ∈ after, operation.Leaves toolRef) :
    ∃ snapshot, (before.foldl ToolDataInner.call .new).snapshotForPersistence hashBytes toolRef =
        some snapshot ∧
      ∃ command recording,
        command.map CommandResult.lasting =
          (record.command.map record.liveCommand).map CommandResult.lasting ∧
        toolReadSummary (((before ++ after).foldl ToolDataInner.call .new).get toolRef) toolRef
            (.ok (some (snapshot.summaryRead hashBytes))) =
          .ok ((ToolSummary.fromRecord record toolRef).reported command recording) := by
  refine ⟨record.snapshot hashBytes toolRef, ?_, ?_⟩
  · rw [ToolDataInner.snapshotForPersistence, found, Option.bind_some, if_pos ended]
  · apply shed_summary hashBytes (run_tidy before _ record found) ended
    intro later foundLater
    rw [List.foldl_append] at foundLater
    exact run_sheds found after leaves later foundLater

theorem sample_summary_answers :
    let before : List (ToolDataCall Nat) :=
      [.noteInvocation 0 ⟨"bash".toList, "xyz".toList, fun _ => none⟩,
        .noteResult 0 "one".toList, .finish 0 .success none]
    let left := ((before ++ crowding).foldl ToolDataInner.call .new).get 0
    (left.any fun record => record.input.expired && record.result.expired) = true ∧
      ∃ snapshot, (before.foldl ToolDataInner.call .new).snapshotForPersistence (fun _ => "") 0 =
          some snapshot ∧
        ∃ summary, toolReadSummary left 0 (.ok (some (snapshot.summaryRead (fun _ => "")))) =
            .ok summary ∧ summary.input = "xyz".toList ∧
          summary.metadata.execution.outputLineCount = some 1 := by
  intro before left
  let record : ToolRecord :=
    { name := "bash".toList
      subject := .command [] ".".toList
      input := ⟨"xyz".toList, 3, true, false, false, false⟩
      result := ⟨"one".toList, 3, true, false, false, false⟩
      outputLineCount := some 1
      state := .succeeded
      outcome := some .success }
  have found : (before.foldl ToolDataInner.call .new).get 0 = some record := by decide +kernel
  obtain ⟨snapshot, saved, command, recording, -, answers⟩ := freed_summary_answers
    (fun _ => "") before crowding 0 record found rfl crowding_leaves
  exact ⟨by decide +kernel, snapshot, saved, _, answers, rfl, rfl⟩

end Answers

end MinicoreAgent.ToolData

import MinicoreAgent.Lib.Text

/-!
# Retained streams of a tool call

A record keeps the input and the output of one tool call as bounded texts, and for each
process stream a window on the bytes read last. A window keeps at most a mebibyte, drops
its oldest bytes first and never renumbers what it keeps. Retained bytes can be freed at
any time. A finished record is saved with the bytes it still has, and a saved stream can be
found damaged.

The offsets of a stream are machine words of 64 bits in the code. No stream gets so long,
and they are plain numbers here.
-/
namespace MinicoreAgent.Tools

open MinicoreAgent.Text (byteLen encode floorPrefix)

abbrev Bytes := List UInt8

section Streams

inductive ToolDataStream where
  | input
  | output
  | stdout
  | stderr
  deriving DecidableEq, Repr

def ToolDataStream.isProcess : ToolDataStream → Bool
  | .stdout | .stderr => true
  | .input | .output => false

inductive ToolDataAvailability where
  | pending
  | unavailable
  | available
  | partial_
  | expired
  deriving DecidableEq, Repr

inductive ToolExecutionState where
  | requested
  | awaitingPolicy
  | running
  | cancelling
  | succeeded
  | failed
  | denied
  | cancelled
  | inputProvided
  deriving DecidableEq, Repr

def ToolExecutionState.isTerminal : ToolExecutionState → Bool
  | .succeeded | .failed | .denied | .cancelled | .inputProvided => true
  | .requested | .awaitingPolicy | .running | .cancelling => false

inductive CommandStatus where
  | running
  | cancelling
  | exited
  | cancelled
  | timedOut
  | spawnFailed
  | failed
  deriving DecidableEq, Repr

def CommandStatus.isTerminal : CommandStatus → Bool
  | .running | .cancelling => false
  | _ => true

end Streams

section Windows

def maxToolStreamBytes : Nat := 1024 * 1024

def maxToolInputBytes : Nat := 64 * 1024

def maxToolResultBytes : Nat := 256 * 1024

structure StreamWindow where
  bytes : Bytes := []
  startOffset : Nat := 0
  observedEnd : Nat := 0
  seen : Bool := false
  complete : Bool := false
  truncated : Bool := false
  expired : Bool := false
  corrupt : Bool := false
  deriving DecidableEq, Repr

/-- Append a chunk and drop the oldest bytes beyond the window. -/
def StreamWindow.push (window : StreamWindow) (chunk : Bytes) : StreamWindow :=
  let startOffset := if window.bytes.isEmpty then window.observedEnd else window.startOffset
  let window := { window with
    seen := true, startOffset := startOffset, observedEnd := window.observedEnd + chunk.length }
  if chunk.isEmpty then window
  else
    let oldLen := window.bytes.length
    let total := oldLen + chunk.length
    if total ≤ maxToolStreamBytes then
      { window with expired := false, bytes := window.bytes ++ chunk }
    else
      let excess := total - maxToolStreamBytes
      let oldDropped := min excess oldLen
      { window with
        expired := false
        startOffset := startOffset + excess
        truncated := true
        bytes := window.bytes.drop oldDropped ++ chunk.drop (excess - oldDropped) }

def StreamWindow.evict (window : StreamWindow) : StreamWindow :=
  { window with bytes := [], startOffset := window.observedEnd, expired := true, truncated := true }

/-- The end of a stream, and an observation that was cut short. -/
def StreamWindow.finish (window : StreamWindow) : StreamWindow := { window with complete := true }

def StreamWindow.cut (window : StreamWindow) : StreamWindow :=
  { window with complete := true, truncated := true }

end Windows

section Records

/-- The fields that a record has for its input and, in the same way, for its result. -/
structure TextStream where
  text : List Char := []
  total : Nat := 0
  seen : Bool := false
  truncated : Bool := false
  expired : Bool := false
  corrupt : Bool := false
  deriving DecidableEq, Repr

/-- A text as it is retained: its longest beginning within the bound. -/
def TextStream.observe (stream : TextStream) (content : List Char) (bound : Nat) : TextStream :=
  let kept := floorPrefix bound content
  { stream with
    text := kept
    total := byteLen content
    seen := true
    truncated := byteLen kept < byteLen content }

def TextStream.evict (stream : TextStream) : TextStream :=
  { stream with text := [], expired := true }

structure ToolRecord where
  input : TextStream := {}
  result : TextStream := {}
  state : ToolExecutionState := .requested
  stdout : StreamWindow := {}
  stderr : StreamWindow := {}
  command : Option CommandStatus := none
  deriving DecidableEq, Repr

namespace ToolRecord

def stream (record : ToolRecord) : ToolDataStream → Option StreamWindow
  | .stdout => some record.stdout
  | .stderr => some record.stderr
  | .input | .output => none

/-- A change of the window that `stream_mut` finds. -/
def withStream (record : ToolRecord) (stream : ToolDataStream)
    (change : StreamWindow → StreamWindow) : ToolRecord :=
  match stream with
  | .stdout => { record with stdout := change record.stdout }
  | .stderr => { record with stderr := change record.stderr }
  | .input | .output => record

def noteInvocation (record : ToolRecord) (raw : List Char) : ToolRecord :=
  if record.input.seen then record
  else { record with
    input := { record.input.observe raw maxToolInputBytes with expired := false } }

def noteResult (record : ToolRecord) (content : List Char) : ToolRecord :=
  { record with
    result := { record.result.observe content maxToolResultBytes with expired := false } }

/-- The report of a finished loop: what was evicted stays so. -/
def reconcile (record : ToolRecord) (state : ToolExecutionState) (content : List Char) :
    ToolRecord :=
  let result :=
    if record.result.expired then record.result
    else record.result.observe content maxToolResultBytes
  { record with state := state, result := result }

def noteStreamChunk (record : ToolRecord) (stream : ToolDataStream) (chunk : Bytes) : ToolRecord :=
  record.withStream stream (·.push chunk)

def noteStreamEnd (record : ToolRecord) (stream : ToolDataStream) : ToolRecord :=
  record.withStream stream StreamWindow.finish

def noteStreamCut (record : ToolRecord) (stream : ToolDataStream) : ToolRecord :=
  record.withStream stream StreamWindow.cut

def evictInput (record : ToolRecord) : ToolRecord := { record with input := record.input.evict }

def evictResult (record : ToolRecord) : ToolRecord := { record with result := record.result.evict }

def evictStream (record : ToolRecord) (stream : ToolDataStream) : ToolRecord :=
  record.withStream stream StreamWindow.evict

def streamFinal (record : ToolRecord) : Bool :=
  match record.command with
  | some status => status.isTerminal
  | none => record.state.isTerminal

def isTerminal (record : ToolRecord) : Bool :=
  record.state.isTerminal && record.command.all (·.isTerminal)

end ToolRecord

/-- `stream_availability` of a process stream, from its window. -/
def windowAvailability (window : StreamWindow) (final : Bool) : ToolDataAvailability :=
  if window.corrupt then .unavailable
  else if window.expired then .expired
  else if window.truncated then .partial_
  else if window.seen || window.complete then .available
  else if final then .unavailable
  else .pending

def streamAvailability (seen expired terminal : Bool) (retained total : Nat) (truncated : Bool) :
    ToolDataAvailability :=
  if expired then .expired
  else if seen then if truncated || retained < total then .partial_ else .available
  else if terminal then .unavailable
  else .pending

end Records

section Views

structure ToolOutputView where
  bytes : Bytes
  base : Nat
  observed : Nat
  seen : Bool
  known : Bool
  complete : Bool
  truncated : Bool
  availability : ToolDataAvailability
  corrupt : Bool
  deriving DecidableEq, Repr

/-- The view of a window, found damaged or not; `final` says that no more bytes arrive. -/
def windowView (window : StreamWindow) (final : Bool) : ToolOutputView where
  bytes := window.bytes
  base := window.startOffset
  observed := window.observedEnd
  seen := window.seen
  known := window.seen || window.complete
  complete := window.complete || final
  truncated := window.truncated
  availability := windowAvailability window final
  corrupt := window.corrupt

/-- The view of a text of which some bytes are retained. -/
def textView (stream : TextStream) (bytes : Bytes) (terminal : Bool) : ToolOutputView where
  bytes := bytes
  base := 0
  observed := stream.total
  seen := stream.seen
  known := stream.seen
  complete := terminal
  truncated := stream.truncated
  availability :=
    if stream.corrupt then .unavailable
    else streamAvailability stream.seen stream.expired terminal bytes.length stream.total
      stream.truncated
  corrupt := stream.corrupt

def ToolRecord.outputView (record : ToolRecord) (stream : ToolDataStream) : ToolOutputView :=
  match stream with
  | .stdout => windowView record.stdout record.streamFinal
  | .stderr => windowView record.stderr record.streamFinal
  | .input => textView record.input (encode record.input.text) record.state.isTerminal
  | .output => textView record.result (encode record.result.text) record.state.isTerminal

/-- The bytes of a saved stream as they are read back, and whether they are damaged. -/
abbrev ToolBlob := Option Bytes × Bool

/-- `snapshot_blob`. -/
def snapshotBlob (bytes : Bytes) (expired : Bool) : Option Bytes :=
  if expired || bytes.isEmpty then none else some bytes

/-- `read_blob`: nothing was saved, or the saved bytes are found, or they are damaged. -/
inductive ReadBlob (saved : Option Bytes) : ToolBlob → Prop where
  | found : ReadBlob saved (saved, false)
  | damaged (present : saved ≠ none) : ReadBlob saved (none, true)

/-- `from_stored` of a saved process stream. -/
def storedWindowView (window : StreamWindow) (terminal : Bool) (blob : ToolBlob) :
    ToolOutputView :=
  windowView { window with bytes := blob.1.getD [], corrupt := blob.2 } terminal

/-- `from_stored` of a saved text, whose bytes may not be text. -/
def storedTextView (stream : TextStream) (terminal : Bool) (retained : Nat) (blob : ToolBlob) :
    ToolOutputView :=
  let bytes := blob.1.getD []
  let corrupt := blob.2 || (Text.decode bytes).isNone
  let view := textView { stream with corrupt := corrupt } bytes terminal
  { view with
    availability :=
      if corrupt then .unavailable
      else streamAvailability stream.seen stream.expired terminal retained stream.total
        stream.truncated }

/-- The saved bytes of a stream of a record. -/
def ToolRecord.savedBlob (record : ToolRecord) (stream : ToolDataStream) : Option Bytes :=
  match stream with
  | .stdout => snapshotBlob record.stdout.bytes record.stdout.expired
  | .stderr => snapshotBlob record.stderr.bytes record.stderr.expired
  | .input => snapshotBlob (encode record.input.text) record.input.expired
  | .output => snapshotBlob (encode record.result.text) record.result.expired

/-- The view of a record that was saved and read back. -/
def ToolRecord.storedView (record : ToolRecord) (stream : ToolDataStream) (blob : ToolBlob) :
    ToolOutputView :=
  let retained := ((record.savedBlob stream).map List.length).getD 0
  match stream with
  | .stdout => storedWindowView record.stdout record.streamFinal blob
  | .stderr => storedWindowView record.stderr record.streamFinal blob
  | .input => storedTextView record.input record.state.isTerminal retained blob
  | .output => storedTextView record.result record.state.isTerminal retained blob

end Views

section Retention

/-- A window holds the end of all bytes that were pushed, from its start on. -/
structure WindowHolds (window : StreamWindow) (pushed : Bytes) : Prop where
  inside : window.startOffset ≤ pushed.length
  kept : window.bytes = pushed.drop window.startOffset
  observed : window.observedEnd = pushed.length
  unseen : window.seen = false → pushed = []
  intact : window.corrupt = false

theorem WindowHolds.new : WindowHolds {} [] where
  inside := Nat.le_refl 0
  kept := rfl
  observed := rfl
  unseen := fun _ => rfl
  intact := rfl

/-- Where a push starts from, also when nothing is retained. -/
theorem push_start {window : StreamWindow} {pushed : Bytes} (holds : WindowHolds window pushed) :
    let start := if window.bytes.isEmpty then window.observedEnd else window.startOffset
    start ≤ pushed.length ∧ window.bytes = pushed.drop start := by
  intro start
  by_cases empty : window.bytes = []
  · have here : start = pushed.length := by
      rw [← holds.observed]
      exact if_pos (List.isEmpty_iff.mpr empty)
    rw [here, empty]
    exact ⟨Nat.le_refl _, List.drop_length.symm⟩
  · have here : start = window.startOffset :=
      if_neg (by rw [List.isEmpty_iff]; exact empty)
    rw [here]
    exact ⟨holds.inside, holds.kept⟩

/-- Dropping the oldest bytes of a window, then the first ones of a chunk. -/
theorem drop_oldest (front chunk : Bytes) (excess : Nat) :
    front.drop (min excess front.length) ++ chunk.drop (excess - min excess front.length) =
      (front ++ chunk).drop excess := by
  rw [List.drop_append]
  rcases Nat.le_total excess front.length with few | all
  · rw [Nat.min_eq_left few, Nat.sub_self, Nat.sub_eq_zero_of_le few]
  · rw [Nat.min_eq_right all, List.drop_length, List.drop_eq_nil_of_le all]

theorem WindowHolds.push {window : StreamWindow} {pushed : Bytes}
    (holds : WindowHolds window pushed) (chunk : Bytes) :
    WindowHolds (window.push chunk) (pushed ++ chunk) := by
  obtain ⟨inside, kept⟩ := push_start holds
  have observed : window.observedEnd + chunk.length = (pushed ++ chunk).length := by
    rw [List.length_append, holds.observed]
  have joined : window.bytes ++ chunk = (pushed ++ chunk).drop
      (if window.bytes.isEmpty then window.observedEnd else window.startOffset) := by
    rw [List.drop_append_of_le_length inside, ← kept]
  have lengths := congrArg List.length joined
  rw [List.length_append, List.length_drop] at lengths
  have longer : (pushed ++ chunk).length = pushed.length + chunk.length := List.length_append
  rw [StreamWindow.push]
  dsimp only
  split
  · rename_i nothing
    rw [List.isEmpty_iff] at nothing
    subst nothing
    rw [List.append_nil]
    exact ⟨inside, kept, holds.observed, (fun unseen => by cases unseen), holds.intact⟩
  · generalize total_eq : window.bytes.length + chunk.length = total at lengths
    generalize maxToolStreamBytes = bound
    split
    · exact ⟨by dsimp only; omega, joined, observed, (fun unseen => by cases unseen), holds.intact⟩
    · refine ⟨by dsimp only; omega, ?_, observed, (fun unseen => by cases unseen), holds.intact⟩
      dsimp only
      rw [← List.drop_drop, ← joined]
      exact drop_oldest window.bytes chunk (total - bound)

theorem WindowHolds.evict {window : StreamWindow} {pushed : Bytes}
    (holds : WindowHolds window pushed) : WindowHolds window.evict pushed where
  inside := Nat.le_of_eq holds.observed
  kept := by
    change [] = pushed.drop window.observedEnd
    rw [holds.observed, List.drop_length]
  observed := holds.observed
  unseen := holds.unseen
  intact := holds.intact

/-- A retained text is no longer than what was observed of it. -/
structure TextHolds (stream : TextStream) : Prop where
  short : byteLen stream.text ≤ stream.total
  unseen : stream.seen = false → stream.text = []
  intact : stream.corrupt = false

theorem TextHolds.observe {stream : TextStream} (holds : TextHolds stream) (content : List Char)
    (bound : Nat) : TextHolds (stream.observe content bound) where
  short := by
    obtain ⟨rest, whole⟩ := (Text.floor_prefix_spec bound content).1
    change byteLen (floorPrefix bound content) ≤ byteLen content
    calc byteLen (floorPrefix bound content)
        ≤ byteLen (floorPrefix bound content ++ rest) := by
          rw [Text.byte_len_append]
          exact Nat.le_add_right _ _
      _ = byteLen content := by rw [whole]
  unseen := fun unseen => by cases unseen
  intact := holds.intact

theorem TextHolds.evict {stream : TextStream} (holds : TextHolds stream) :
    TextHolds stream.evict where
  short := Nat.zero_le _
  unseen := fun _ => rfl
  intact := holds.intact

end Retention

section Reaching

/-- The records that arise, with all bytes that were ever pushed to their streams. Budgets
may free retained bytes at any time. -/
inductive Reached : ToolRecord → (ToolDataStream → Bytes) → Prop where
  | new : Reached {} fun _ => []
  | moved {record : ToolRecord} {pushed : ToolDataStream → Bytes} (before : Reached record pushed)
      (state : ToolExecutionState) : Reached { record with state := state } pushed
  | commanded {record : ToolRecord} {pushed : ToolDataStream → Bytes}
      (before : Reached record pushed) (status : CommandStatus) :
      Reached { record with command := some status } pushed
  | invoked {record : ToolRecord} {pushed : ToolDataStream → Bytes}
      (before : Reached record pushed) (raw : List Char) :
      Reached (record.noteInvocation raw) pushed
  | answered {record : ToolRecord} {pushed : ToolDataStream → Bytes}
      (before : Reached record pushed) (content : List Char) :
      Reached (record.noteResult content) pushed
  | reconciled {record : ToolRecord} {pushed : ToolDataStream → Bytes}
      (before : Reached record pushed) (state : ToolExecutionState) (content : List Char) :
      Reached (record.reconcile state content) pushed
  | chunk {record : ToolRecord} {pushed : ToolDataStream → Bytes} (before : Reached record pushed)
      (stream : ToolDataStream) (bytes : Bytes) :
      Reached (record.noteStreamChunk stream bytes)
        fun other => if other = stream then pushed other ++ bytes else pushed other
  | finished {record : ToolRecord} {pushed : ToolDataStream → Bytes}
      (before : Reached record pushed) (stream : ToolDataStream) :
      Reached (record.noteStreamEnd stream) pushed
  | shortened {record : ToolRecord} {pushed : ToolDataStream → Bytes}
      (before : Reached record pushed) (stream : ToolDataStream) :
      Reached (record.noteStreamCut stream) pushed
  | freedInput {record : ToolRecord} {pushed : ToolDataStream → Bytes}
      (before : Reached record pushed) : Reached record.evictInput pushed
  | freedResult {record : ToolRecord} {pushed : ToolDataStream → Bytes}
      (before : Reached record pushed) : Reached record.evictResult pushed
  | freedStream {record : ToolRecord} {pushed : ToolDataStream → Bytes}
      (before : Reached record pushed) (stream : ToolDataStream) :
      Reached (record.evictStream stream) pushed

/-- What holds of every record that arises. -/
structure RecordHolds (record : ToolRecord) (pushed : ToolDataStream → Bytes) : Prop where
  input : TextHolds record.input
  result : TextHolds record.result
  stdout : WindowHolds record.stdout (pushed .stdout)
  stderr : WindowHolds record.stderr (pushed .stderr)

theorem RecordHolds.withStream {record : ToolRecord} {pushed later : ToolDataStream → Bytes}
    (holds : RecordHolds record pushed) (stream : ToolDataStream)
    {change : StreamWindow → StreamWindow}
    (changed : ∀ window, WindowHolds window (pushed stream) →
      WindowHolds (change window) (later stream))
    (others : ∀ other, other ≠ stream → later other = pushed other) :
    RecordHolds (record.withStream stream change) later := by
  obtain ⟨input, result, stdout, stderr⟩ := holds
  have same (other : ToolDataStream) (differs : other ≠ stream) {window : StreamWindow}
      (held : WindowHolds window (pushed other)) : WindowHolds window (later other) := by
    rw [others other differs]
    exact held
  cases stream with
  | input => exact ⟨input, result, same .stdout (by decide) stdout, same .stderr (by decide) stderr⟩
  | output =>
    exact ⟨input, result, same .stdout (by decide) stdout, same .stderr (by decide) stderr⟩
  | stdout => exact ⟨input, result, changed _ stdout, same .stderr (by decide) stderr⟩
  | stderr => exact ⟨input, result, same .stdout (by decide) stdout, changed _ stderr⟩

theorem reached_holds {record : ToolRecord} {pushed : ToolDataStream → Bytes}
    (reached : Reached record pushed) : RecordHolds record pushed := by
  induction reached with
  | new =>
    have text : TextHolds {} := ⟨Nat.le_refl 0, fun _ => rfl, rfl⟩
    exact ⟨text, text, WindowHolds.new, WindowHolds.new⟩
  | moved before state holds => exact ⟨holds.input, holds.result, holds.stdout, holds.stderr⟩
  | commanded before status holds => exact ⟨holds.input, holds.result, holds.stdout, holds.stderr⟩
  | @invoked record pushed before raw holds =>
    rw [ToolRecord.noteInvocation]
    split
    · exact holds
    · have observed := holds.input.observe raw maxToolInputBytes
      exact ⟨⟨observed.short, observed.unseen, observed.intact⟩, holds.result, holds.stdout,
        holds.stderr⟩
  | answered before content holds =>
    have observed := holds.result.observe content maxToolResultBytes
    exact ⟨holds.input, ⟨observed.short, observed.unseen, observed.intact⟩, holds.stdout,
      holds.stderr⟩
  | @reconciled record pushed before state content holds =>
    refine ⟨holds.input, ?_, holds.stdout, holds.stderr⟩
    change TextHolds (if record.result.expired then record.result else
      record.result.observe content maxToolResultBytes)
    split
    · exact holds.result
    · exact holds.result.observe content maxToolResultBytes
  | chunk before stream bytes holds =>
    apply holds.withStream
    · intro window held
      rw [if_pos rfl]
      exact held.push bytes
    · intro other differs
      exact if_neg differs
  | finished before stream holds =>
    exact holds.withStream stream (fun window held =>
      ⟨held.inside, held.kept, held.observed, held.unseen, held.intact⟩) fun _ _ => rfl
  | shortened before stream holds =>
    exact holds.withStream stream (fun window held =>
      ⟨held.inside, held.kept, held.observed, held.unseen, held.intact⟩) fun _ _ => rfl
  | freedInput before holds =>
    exact ⟨holds.input.evict, holds.result, holds.stdout, holds.stderr⟩
  | freedResult before holds =>
    exact ⟨holds.input, holds.result.evict, holds.stdout, holds.stderr⟩
  | freedStream before stream holds =>
    exact holds.withStream stream (fun window held => held.evict) fun _ _ => rfl

end Reaching

end MinicoreAgent.Tools

import MinicoreAgent.FileChanges

/-!
# What a saved tool record is checked for

Before a record is saved, and when it is read again, its fields are checked against each
other. A record in memory has what these checks ask for after every run, up to its file
change: a write that failed before its rename can be recorded as a conflict, which the check
of saved changes refuses.
-/
namespace MinicoreAgent.ToolData

open MinicoreAgent.Text (byteLen encode floorPrefix)
open HistoryStore (validSha256)
open Tools
open WorkspaceRead (validateRelativePath)

section Checks

inductive StoreError where
  | unsupportedFormat
  | corrupt
  | recordTooLarge
  deriving DecidableEq, Repr

def knownToolNames : List (List Char) :=
  ["read".toList, "write".toList, "edit".toList, "apply_patch".toList, "bash".toList]

def legacyStoredToolName : List Char := "subagent".toList

/-- The names that a stored record may have. -/
def storedName (name : List Char) : Bool :=
  knownToolNames.contains name || name = legacyStoredToolName

def maxToolInputPersistBytes : Nat := 64 * 1024

def maxToolResultPersistBytes : Nat := 256 * 1024

def maxChangeSnapshotBytes : Nat := 512 * 1024

def maxRecordBytes : Nat := 3 * 1024 * 1024

def matchesOutcome (state : ToolExecutionState) : ToolResultOutcome → Bool
  | .success => state = .succeeded
  | .failed => state = .failed
  | .denied => state = .denied
  | .cancelled => state = .cancelled
  | .inputProvided => state = .inputProvided

def StoredSummary.check (summary : StoredSummary) (cap : Nat) : Except StoreError Unit :=
  if !summary.seen &&
      (summary.totalBytes ≠ 0 || summary.fileBytes ≠ 0 || summary.fileSha256.isSome) then
    .error .corrupt
  else if summary.seen && summary.totalBytes < summary.fileBytes then .error .corrupt
  else if summary.seen && summary.expired &&
      (summary.fileBytes ≠ 0 || summary.fileSha256.isSome) then .error .corrupt
  else if cap < summary.fileBytes then .error .recordTooLarge
  else .ok ()

def StoredStreamWindow.check (window : StoredStreamWindow) : Except StoreError Unit :=
  let consistent : Bool :=
    if !window.seen then
      window.startOffset = 0 && window.observedEnd = 0 && window.fileBytes = 0 &&
        window.fileSha256.isNone
    else if window.expired then
      window.startOffset = window.observedEnd && window.fileBytes = 0 && window.fileSha256.isNone
    else window.observedEnd - window.startOffset = window.fileBytes
  if window.observedEnd < window.startOffset then .error .corrupt
  else if !consistent then .error .corrupt
  else if maxToolStreamBytes < window.fileBytes then .error .recordTooLarge
  else .ok ()

/-- The bytes of a captured content. -/
def contentBytes : ChangeRevision → Nat
  | .content _ bytes => bytes
  | .missing | .metadata _ _ | .unknown => 0

def StoredFileChange.bytes (change : StoredFileChange) : Nat :=
  contentBytes change.before + contentBytes change.after

/-- A content that was captured, within its bound and with a hash. -/
def capturedContent (captured : Bool) (sha256 : List Char) (bytes : Nat) : Bool :=
  captured && bytes ≤ maxChangeSnapshotBytes && validSha256 (String.ofList sha256)

namespace StoredFileChange

variable (change : StoredFileChange)

def beforeFits : Bool :=
  match change.before with
  | .missing => change.beforeCaptured
  | .content sha256 bytes => capturedContent change.beforeCaptured sha256 bytes
  | .metadata _ _ | .unknown => !change.beforeCaptured

def afterFits : Bool :=
  match change.after with
  | .content sha256 bytes => capturedContent change.afterCaptured sha256 bytes
  | .missing | .metadata _ _ | .unknown => !change.afterCaptured

/-- A change that was applied, or that met another one, has a content after it. -/
def commitFits : Bool :=
  match change.commitState with
  | .applied | .conflict =>
    match change.after with
    | .content _ _ => true
    | .missing | .metadata _ _ | .unknown => false
  | .notCommitted | .unknown => true

/-- `validate_stored_file_change`. -/
def check : Except StoreError Unit :=
  if !validateRelativePath change.path then .error .corrupt
  else if !change.beforeFits then .error .corrupt
  else if !change.afterFits then .error .corrupt
  else if !change.commitFits then .error .corrupt
  else .ok ()

end StoredFileChange

/-- `stored_blobs`. -/
def storedBlobs {ToolRef : Type} (stored : StoredToolRecord ToolRef) :
    List (Nat × Option String) :=
  [stored.blob .input, stored.blob .output, stored.blob .stdout, stored.blob .stderr]

/-- Whether a number of bytes comes with a hash exactly when there are some. -/
def hashed (blob : Nat × Option String) : Bool :=
  if blob.1 = 0 then blob.2.isNone else blob.2.any validSha256

def CommandResult.check (command : CommandResult) (stdout stderr : StoredStreamWindow) :
    Except StoreError Unit :=
  if !command.status.isTerminal then .error .corrupt
  else if command.stdoutBaseOffset ≠ stdout.startOffset ||
      command.stdoutObservedEnd ≠ stdout.observedEnd ||
      command.stderrBaseOffset ≠ stderr.startOffset ||
      command.stderrObservedEnd ≠ stderr.observedEnd then .error .corrupt
  else .ok ()

variable {ToolRef : Type}

/-- The bytes of all files of a record. -/
def StoredToolRecord.fileBytes (stored : StoredToolRecord ToolRef) : Nat :=
  stored.input.fileBytes + stored.result.fileBytes + stored.stdout.fileBytes +
    stored.stderr.fileBytes + (stored.fileChange.map StoredFileChange.bytes).getD 0

def refuseIf (bad : Bool) (error : StoreError) : Except StoreError Unit :=
  if bad then .error error else .ok ()

def checkCommand (command : Option CommandResult) (stdout stderr : StoredStreamWindow) :
    Except StoreError Unit :=
  match command with
  | none => .ok ()
  | some command => command.check stdout stderr

def checkChange : Option StoredFileChange → Except StoreError Unit
  | none => .ok ()
  | some change => change.check

/-- `validate_stored_tool_record`. -/
def validateStoredToolRecord [DecidableEq ToolRef] (stored : StoredToolRecord ToolRef)
    (toolRef : ToolRef) : Except StoreError Unit := do
  refuseIf (stored.version ≠ toolRecordFormatVersion) .unsupportedFormat
  refuseIf (stored.toolRef ≠ toolRef) .corrupt
  refuseIf (!storedName stored.name) .corrupt
  refuseIf (!stored.state.isTerminal) .corrupt
  refuseIf (stored.outcome.any fun outcome => !matchesOutcome stored.state outcome) .corrupt
  stored.input.check maxToolInputPersistBytes
  stored.result.check maxToolResultPersistBytes
  stored.stdout.check
  stored.stderr.check
  refuseIf (maxRecordBytes < stored.fileBytes) .recordTooLarge
  refuseIf (!(storedBlobs stored).all hashed) .corrupt
  checkCommand stored.command stored.stdout stored.stderr
  checkChange stored.fileChange

/-- The bytes that are written with a record, as `commit_tool_record_locked` adds them up. -/
def ToolPersistenceSnapshot.rawBytes (snapshot : ToolPersistenceSnapshot ToolRef) : Nat :=
  ([snapshot.inputBytes, snapshot.resultBytes, snapshot.stdoutBytes, snapshot.stderrBytes,
    snapshot.fileChangeBefore, snapshot.fileChangeAfter].map fun bytes =>
      (bytes.map List.length).getD 0).sum

end Checks

section Streams

/-- What the check of a saved text needs. -/
structure TextSound (stream : TextStream) (cap : Nat) : Prop where
  short : byteLen stream.text ≤ cap
  within : byteLen stream.text ≤ stream.total
  unseen : stream.seen = false → stream.total = 0

variable {stream : TextStream} {cap : Nat}

theorem TextSound.new (cap : Nat) : TextSound {} cap :=
  ⟨Nat.zero_le _, Nat.le_refl _, fun _ => rfl⟩

theorem TextSound.observe (stream : TextStream) (content : List Char) (cap : Nat) :
    TextSound (stream.observe content cap) cap where
  short := (Text.floor_prefix_spec cap content).2
  within := by
    obtain ⟨rest, whole⟩ := (Text.floor_prefix_spec cap content).1
    have length := congrArg byteLen whole
    rw [Text.byte_len_append] at length
    change byteLen (floorPrefix cap content) ≤ byteLen content
    omega
  unseen := fun unseen => by cases unseen

theorem TextSound.evict (sound : TextSound stream cap) : TextSound stream.evict cap :=
  ⟨Nat.zero_le _, Nat.zero_le _, sound.unseen⟩

/-- What the check of a saved window needs, after so many bytes of output. -/
structure WindowSound (window : StreamWindow) (count : Nat) : Prop where
  whole : window.startOffset + window.bytes.length = window.observedEnd
  few : window.observedEnd ≤ count
  short : window.bytes.length ≤ maxToolStreamBytes
  freed : window.expired = true → window.bytes = []
  unseen : window.seen = false → window.observedEnd = 0

theorem WindowSound.new : WindowSound {} 0 :=
  ⟨rfl, Nat.le_refl 0, Nat.zero_le _, fun _ => rfl, fun _ => rfl⟩

theorem WindowSound.mono {window : StreamWindow} {count more : Nat}
    (sound : WindowSound window count) (least : count ≤ more) : WindowSound window more :=
  ⟨sound.whole, Nat.le_trans sound.few least, sound.short, sound.freed, sound.unseen⟩

theorem WindowSound.evict {window : StreamWindow} {count : Nat}
    (sound : WindowSound window count) : WindowSound window.evict count :=
  ⟨Nat.add_zero _, sound.few, Nat.zero_le _, fun _ => rfl, sound.unseen⟩

/-- A push keeps a window sound for as long as words can count the output. -/
theorem WindowSound.push {ring : RingWindow} {count : Nat} (sound : WindowSound ring.window count)
    (chunk : Bytes) (counted : count + chunk.length ≤ wordMax) :
    WindowSound (ring.push chunk).1.window (count + chunk.length) := by
  have few := sound.few
  have start : ring.pushStart + ring.window.bytes.length = ring.window.observedEnd := by
    rw [RingWindow.pushStart]
    split
    · rename_i nothing
      rw [List.isEmpty_iff.mp nothing]
      rfl
    · exact sound.whole
  have observed : saturatingAdd ring.window.observedEnd chunk.length =
      ring.window.observedEnd + chunk.length := Nat.min_eq_left (by omega)
  rcases pushed_window ring chunk with ⟨nothing, made⟩ | ⟨some_bytes, fits, made⟩ |
    ⟨excess, much, made⟩
  · rw [made, observed, nothing]
    exact ⟨start, few, sound.short, sound.freed, fun unseen => by cases unseen⟩
  · rw [made, observed]
    refine ⟨?_, ?_, ?_, (fun expired => by cases expired), fun unseen => by cases unseen⟩
    · dsimp only
      rw [List.length_append]
      omega
    · dsimp only
      omega
    · dsimp only
      rw [List.length_append]
      exact fits
  · have moved : saturatingAdd ring.pushStart excess = ring.pushStart + excess :=
      Nat.min_eq_left (by omega)
    rw [made, observed, moved]
    refine ⟨?_, ?_, ?_, (fun expired => by cases expired), fun unseen => by cases unseen⟩
    · dsimp only
      rw [List.length_drop, List.length_append]
      omega
    · dsimp only
      omega
    · dsimp only
      rw [List.length_drop, List.length_append]
      omega

end Streams

section Records

/-- What the check of a saved change needs, and a bound on its two snapshots. -/
structure Storable (change : FileChange) : Prop where
  checked : change.stored.check = .ok ()
  small : change.stored.bytes ≤ 2 * maxChangeSnapshotBytes
  snapshots : (change.beforeBytes.map fun snapshot => snapshot.bytes.length).getD 0 +
    (change.afterBytes.map fun snapshot => snapshot.bytes.length).getD 0 ≤
      2 * maxChangeSnapshotBytes

theorem Storable.evict {change : FileChange} (storable : Storable change) :
    Storable change.evict :=
  ⟨storable.checked, storable.small, Nat.zero_le _⟩

/-- What the checks of a saved record need, of a call that owns a process or does not, after
so many bytes of output. -/
structure RecordSound (owns : Bool) (count : Nat) (record : ToolRecord) : Prop where
  input : TextSound record.input maxToolInputBytes
  result : TextSound record.result maxToolResultBytes
  stdout : WindowSound record.stdout.window count
  stderr : WindowSound record.stderr.window count
  outcome : ∀ outcome, record.outcome = some outcome → record.state = fromOutcome outcome
  quiet : owns = false → record.stdout.window.bytes = [] ∧ record.stderr.window.bytes = []
  change : ∀ change, record.fileChange = some change → owns = false ∧ Storable change

/-- What may happen to a record: output only where the call owns a process, and otherwise file
changes that can be stored. -/
def Proper (owns : Bool) : RecordChange → Prop
  | .pushed _ _ _ => owns = true
  | .fileChanged change => owns = false ∧ Storable change
  | _ => True

theorem RecordSound.new (owns : Bool) (name : List Char) :
    RecordSound owns 0 { name := name } where
  input := .new _
  result := .new _
  stdout := .new
  stderr := .new
  outcome := fun _ absent => by cases absent
  quiet := fun _ => ⟨rfl, rfl⟩
  change := fun _ absent => by cases absent

variable {owns : Bool} {count : Nat} {record : ToolRecord}

theorem RecordSound.withStream (sound : RecordSound owns count record) {more : Nat}
    (least : count ≤ more) (stream : ToolDataStream) {change : RingWindow → RingWindow}
    (changed : ∀ ring, WindowSound ring.window count → WindowSound (change ring).window more)
    (quiet : owns = false → ∀ ring, ring.window.bytes = [] → (change ring).window.bytes = []) :
    RecordSound owns more (record.withStream stream change) := by
  obtain ⟨input, result, stdout, stderr, outcome, silent, changes⟩ := sound
  cases stream with
  | input =>
    exact ⟨input, result, stdout.mono least, stderr.mono least, outcome, silent, changes⟩
  | output =>
    exact ⟨input, result, stdout.mono least, stderr.mono least, outcome, silent, changes⟩
  | stdout =>
    refine ⟨input, result, changed _ stdout, stderr.mono least, outcome, ?_, changes⟩
    exact fun still => ⟨quiet still _ (silent still).1, (silent still).2⟩
  | stderr =>
    refine ⟨input, result, stdout.mono least, changed _ stderr, outcome, ?_, changes⟩
    exact fun still => ⟨(silent still).1, quiet still _ (silent still).2⟩

/-- A state that is no outcome is only replaced while no outcome is known. -/
theorem RecordSound.unfinished (sound : RecordSound owns count record)
    (open_ : record.state.isTerminal = false) : record.outcome = none := by
  cases finished : record.outcome with
  | none => rfl
  | some outcome =>
    rw [sound.outcome outcome finished] at open_
    cases outcome <;> cases open_

/-- Every proper change keeps a record sound. -/
theorem RecordSound.changed (sound : RecordSound owns count record) (change : RecordChange)
    (proper : change.frees = true ∨ Proper owns change)
    (counted : count + change.pushedBytes ≤ wordMax) :
    RecordSound owns (count + change.pushedBytes) (record.changed change) := by
  cases change with
  | invoked invocation =>
    change RecordSound owns count (record.noteInvocation invocation)
    rw [ToolRecord.noteInvocation]
    split
    · exact sound
    · have observed := TextSound.observe record.input invocation.raw maxToolInputBytes
      exact { sound with input := ⟨observed.short, observed.within, observed.unseen⟩ }
  | awaiting =>
    change RecordSound owns count record.markAwaitingPolicy
    rw [ToolRecord.markAwaitingPolicy]
    split
    · rename_i requested
      have none_known : record.outcome = none := sound.unfinished (by rw [requested]; rfl)
      refine { sound with outcome := ?_ }
      intro outcome known
      rw [none_known] at known
      cases known
    · exact sound
  | started now =>
    refine { sound with outcome := ?_ }
    intro outcome known
    change (if record.state.isTerminal then record.state else .running) = _
    split
    · exact sound.outcome outcome known
    · rename_i unfinished
      have none_known := sound.unfinished (Bool.not_eq_true _ ▸ unfinished)
      change record.outcome = some outcome at known
      rw [none_known] at known
      cases known
  | phased phase => exact { sound with }
  | answered content =>
    have observed := TextSound.observe record.result content maxToolResultBytes
    exact { sound with result := ⟨observed.short, observed.within, observed.unseen⟩ }
  | cancelling =>
    change RecordSound owns count record.markCancelling
    rw [ToolRecord.markCancelling]
    split
    · exact sound
    · rename_i unfinished
      have none_known := sound.unfinished (Bool.not_eq_true _ ▸ unfinished)
      refine { sound with outcome := ?_ }
      intro outcome known
      rw [none_known] at known
      cases known
  | pushed stream chunk granted =>
    have owning : owns = true := by
      rcases proper with frees | owning
      · cases frees
      · exact owning
    apply sound.withStream (Nat.le_add_right _ _)
    · exact fun ring held => held.push chunk counted
    · intro silent
      rw [owning] at silent
      cases silent
  | ended stream =>
    apply sound.withStream (Nat.le_refl _)
    · exact fun ring held => ⟨held.whole, held.few, held.short, held.freed, held.unseen⟩
    · exact fun _ ring empty => empty
  | shortened stream =>
    apply sound.withStream (Nat.le_refl _)
    · exact fun ring held => ⟨held.whole, held.few, held.short, held.freed, held.unseen⟩
    · exact fun _ ring empty => empty
  | commanded command => exact { sound with }
  | recorded recording => exact { sound with }
  | fileChanged noted =>
    refine { sound with change := ?_ }
    intro change found
    change record.fileChange.or (some noted) = some change at found
    rcases Option.or_eq_some_iff.mp found with earlier | ⟨-, now⟩
    · exact sound.change change earlier
    · cases now
      rcases proper with frees | proper
      · cases frees
      · exact proper
  | finished outcome now =>
    refine { sound with outcome := ?_ }
    intro known same
    cases same
    rfl
  | captured content =>
    exact { sound with result := .observe record.result content maxToolResultBytes }
  | inputFreed => exact { sound with input := sound.input.evict }
  | resultFreed => exact { sound with result := sound.result.evict }
  | snapshotsFreed =>
    refine { sound with change := ?_ }
    intro change found
    obtain ⟨before, present, rfl⟩ := Option.map_eq_some_iff.mp found
    obtain ⟨silent, storable⟩ := sound.change before present
    exact ⟨silent, storable.evict⟩
  | streamFreed stream =>
    apply sound.withStream (Nat.le_refl _)
    · exact fun ring held => held.evict
    · exact fun _ _ _ => rfl

theorem Arisen.sound (arisen : Arisen (Proper owns) count record) (counted : count ≤ wordMax) :
    RecordSound owns count record := by
  obtain ⟨reached, few, sound⟩ := arisen.counted (RecordSound.new owns)
    fun before record change proper within sound =>
      sound.changed change proper (Nat.le_trans within counted)
  exact { sound with stdout := sound.stdout.mono few, stderr := sound.stderr.mono few }

end Records

section Changes

variable {hashBytes : Bytes → String} {write : FileWrite}

theorem change_check_iff (change : StoredFileChange) :
    change.check = .ok () ↔ validateRelativePath change.path = true ∧
      change.beforeFits = true ∧ change.afterFits = true ∧ change.commitFits = true := by
  rw [StoredFileChange.check]
  cases validateRelativePath change.path <;> cases change.beforeFits <;>
    cases change.afterFits <;> cases change.commitFits <;> simp

theorem content_captured (hashes : ∀ bytes, validSha256 (hashBytes bytes) = true) {bytes : Bytes}
    (short : bytes.length ≤ maxWriteBytes) :
    capturedContent true (hashBytes bytes).toList bytes.length = true := by
  have within : bytes.length ≤ maxChangeSnapshotBytes := short
  rw [capturedContent, String.ofList_toList, hashes, decide_eq_true within]
  rfl

theorem before_fits (hashes : ∀ bytes, validSha256 (hashBytes bytes) = true)
    (admitted : write.Admitted) : (write.change hashBytes).stored.beforeFits = true := by
  rw [StoredFileChange.beforeFits]
  change (match (write.before.revision hashBytes).1 with
    | .missing => (write.before.revision hashBytes).2
    | .content sha256 bytes => capturedContent (write.before.revision hashBytes).2 sha256 bytes
    | .metadata _ _ | .unknown => !(write.before.revision hashBytes).2) = true
  have small := admitted.before
  cases before : write.before with
  | missing => rfl
  | content snapshot stamp stable =>
    rw [before] at small
    exact content_captured hashes (small snapshot rfl)
  | metadata stamp => rfl
  | unknown => rfl

theorem after_fits (hashes : ∀ bytes, validSha256 (hashBytes bytes) = true)
    (admitted : write.Admitted) : (write.change hashBytes).stored.afterFits = true := by
  rw [StoredFileChange.afterFits]
  change (match (if write.observation.renamed then contentRevision hashBytes write.bytes
      else .unknown : ChangeRevision) with
    | .content sha256 bytes => capturedContent write.observation.renamed sha256 bytes
    | .missing | .metadata _ _ | .unknown => !write.observation.renamed) = true
  cases renamed : write.observation.renamed with
  | true => exact content_captured hashes admitted.bytes
  | false => rfl

/-- The state of a commit fits what is known after it, unless a write failed before its rename
and is recorded as a conflict. -/
theorem commit_fits_iff :
    (write.change hashBytes).stored.commitFits = true ↔ ¬write.RefusedConflict := by
  have whole : (write.change hashBytes).stored.commitFits =
      (match write.observation.commitState write.before with
        | .applied | .conflict =>
          (match (if write.observation.renamed then contentRevision hashBytes write.bytes
              else .unknown : ChangeRevision) with
            | .content _ _ => true
            | .missing | .metadata _ _ | .unknown => false)
        | .notCommitted | .unknown => true) := rfl
  rw [whole]
  cases renamed : write.observation.renamed with
  | true =>
    have kept : ¬write.RefusedConflict := fun refused => by
      rw [refused.kept] at renamed
      cases renamed
    refine ⟨fun _ => kept, fun _ => ?_⟩
    cases write.observation.commitState write.before <;> rfl
  | false =>
    cases outcome : write.observation.outcome with
    | ok value =>
      have done := commit_done outcome
      change write.observation.renamed = true at done
      rw [done] at renamed
      cases renamed
    | error error =>
      by_cases lost : error = .unknownOutcome
      · have state : write.observation.commitState write.before = .unknown := by
          rw [AtomicWriteObservation.commitState, outcome, lost]
        rw [state]
        refine ⟨fun _ refused => ?_, fun _ => rfl⟩
        obtain ⟨other, same, known⟩ := refused.failed
        rw [outcome] at same
        cases same
        exact known lost
      · have state : write.observation.commitState write.before =
            if write.observation.expectedMatches = some false then .conflict
            else .notCommitted := by
          rw [AtomicWriteObservation.commitState, outcome, renamed]
          cases error with
          | unknownOutcome => exact absurd rfl lost
          | _ => simp
        rw [state]
        by_cases differs : write.observation.expectedMatches = some false
        · rw [if_pos differs]
          refine ⟨(fun fits => by cases fits), fun kept => ?_⟩
          exact absurd ⟨⟨error, outcome, lost⟩, renamed, differs⟩ kept
        · rw [if_neg differs]
          exact ⟨fun _ refused => differs refused.differs, fun _ => rfl⟩

/-- A write that the tools admit is recorded as a change that can be stored, unless it is such
a conflict. -/
theorem write_checked_iff (hashes : ∀ bytes, validSha256 (hashBytes bytes) = true)
    (admitted : write.Admitted) :
    (write.change hashBytes).stored.check = .ok () ↔ ¬write.RefusedConflict := by
  rw [change_check_iff, before_fits hashes admitted, after_fits hashes admitted,
    commit_fits_iff]
  constructor
  · exact fun fits => fits.2.2.2
  · exact fun kept => ⟨admitted.path, rfl, rfl, kept⟩

theorem write_storable (hashes : ∀ bytes, validSha256 (hashBytes bytes) = true)
    (admitted : write.Admitted) (kept : ¬write.RefusedConflict) :
    Storable (write.change hashBytes) where
  checked := (write_checked_iff hashes admitted).mpr kept
  small := by
    have before : contentBytes (write.before.revision hashBytes).1 ≤ maxChangeSnapshotBytes := by
      have small := admitted.before
      cases found : write.before with
      | content snapshot stamp stable =>
        rw [found] at small
        exact small snapshot rfl
      | _ => exact Nat.zero_le _
    have after : contentBytes (if write.observation.renamed then
        contentRevision hashBytes write.bytes else .unknown) ≤ maxChangeSnapshotBytes := by
      split
      · exact admitted.bytes
      · exact Nat.zero_le _
    change contentBytes (write.before.revision hashBytes).1 + contentBytes
      (if write.observation.renamed then contentRevision hashBytes write.bytes else .unknown) ≤ _
    omega
  snapshots := by
    have before : (write.before.snapshot.map fun snapshot => snapshot.bytes.length).getD 0 ≤
        maxChangeSnapshotBytes := by
      cases found : write.before.snapshot with
      | none => exact Nat.zero_le _
      | some snapshot => exact admitted.before snapshot found
    have after : ((if write.observation.renamed then some ⟨write.bytes, write.bytes.length⟩
        else none : Option Snapshot).map fun snapshot => snapshot.bytes.length).getD 0 ≤
          maxChangeSnapshotBytes := by
      split
      · exact admitted.bytes
      · exact Nat.zero_le _
    change (write.before.snapshot.map fun snapshot => snapshot.bytes.length).getD 0 +
      ((if write.observation.renamed then some ⟨write.bytes, write.bytes.length⟩
        else none : Option Snapshot).map fun snapshot => snapshot.bytes.length).getD 0 ≤ _
    omega

end Changes

section Saving

variable (hashBytes : Bytes → String) {ToolRef : Type} {record : ToolRecord} {owns : Bool}
  {count : Nat}

variable {hashBytes} in
theorem blob_hashed (hashes : ∀ bytes, validSha256 (hashBytes bytes) = true) (bytes : Bytes)
    (expired : Bool) : hashed (snapshotBlob hashBytes bytes expired).2 = true := by
  rw [snapshotBlob]
  split
  · rfl
  · rename_i filled
    have long : bytes.length ≠ 0 := by
      intro none
      rw [List.length_eq_zero_iff.mp none] at filled
      simp at filled
    rw [hashed, if_neg long, Option.any_some, hashes]

/-- How much is saved of some bytes. -/
theorem blob_length (bytes : Bytes) (expired : Bool) :
    (snapshotBlob hashBytes bytes expired).2.1 = if expired then 0 else bytes.length := by
  rw [snapshotBlob]
  cases expired with
  | true => rfl
  | false =>
    cases bytes with
    | nil => rfl
    | cons byte rest => rfl

theorem blob_bytes (bytes : Bytes) (expired : Bool) :
    ((snapshotBlob hashBytes bytes expired).1.map List.length).getD 0 =
      (snapshotBlob hashBytes bytes expired).2.1 := by
  rw [snapshotBlob]
  split
  · rfl
  · rfl

variable {hashBytes} in
theorem blob_hash_none {bytes : Bytes} {expired : Bool}
    (nothing : (snapshotBlob hashBytes bytes expired).2.1 = 0) :
    (snapshotBlob hashBytes bytes expired).2.2 = none := by
  rw [snapshotBlob] at nothing ⊢
  split
  · rfl
  · rename_i filled
    rw [if_neg filled] at nothing
    rw [List.length_eq_zero_iff.mp nothing] at filled
    simp at filled

/-- A sound text passes its check. -/
theorem text_checked {stream : TextStream} {cap : Nat} (sound : TextSound stream cap) :
    (snapshotText hashBytes stream).1.check cap = .ok () ∧
      (snapshotText hashBytes stream).1.fileBytes ≤ cap := by
  have few : (snapshotText hashBytes stream).1.fileBytes =
      if stream.expired then 0 else byteLen stream.text := by
    rw [← Text.encode_length]
    exact blob_length hashBytes (encode stream.text) stream.expired
  have none_hashed : (snapshotText hashBytes stream).1.fileBytes = 0 →
      (snapshotText hashBytes stream).1.fileSha256 = none := blob_hash_none
  have short := sound.short
  have within := sound.within
  have least : (snapshotText hashBytes stream).1.fileBytes ≤ byteLen stream.text := by
    rw [few]
    split
    · exact Nat.zero_le _
    · exact Nat.le_refl _
  refine ⟨?_, Nat.le_trans least short⟩
  rw [StoredSummary.check]
  change (if _ then _ else _) = _
  cases seen : stream.seen with
  | false =>
    have empty := sound.unseen seen
    have nothing : (snapshotText hashBytes stream).1.fileBytes = 0 := by omega
    have unseen : (snapshotText hashBytes stream).1.seen = false := seen
    have total : (snapshotText hashBytes stream).1.totalBytes = 0 := empty
    simp [unseen, total, nothing, none_hashed nothing]
  | true =>
    have seen : (snapshotText hashBytes stream).1.seen = true := seen
    have total : (snapshotText hashBytes stream).1.fileBytes ≤
        (snapshotText hashBytes stream).1.totalBytes := Nat.le_trans least within
    have freed : (snapshotText hashBytes stream).1.expired = true →
        (snapshotText hashBytes stream).1.fileBytes = 0 := by
      intro expired
      have expired : stream.expired = true := expired
      rw [few, expired, if_pos rfl]
    have capped : (snapshotText hashBytes stream).1.fileBytes ≤ cap := Nat.le_trans least short
    cases expired : (snapshotText hashBytes stream).1.expired with
    | true =>
      have nothing := freed expired
      simp [seen, nothing, none_hashed nothing]
    | false => simp [seen, Nat.not_lt.mpr total, Nat.not_lt.mpr capped]

/-- A sound window passes its check. -/
theorem window_checked {window : StreamWindow} (sound : WindowSound window count) :
    (snapshotWindow hashBytes window).1.check = .ok () ∧
      (snapshotWindow hashBytes window).1.fileBytes = window.bytes.length := by
  have length : (snapshotWindow hashBytes window).1.fileBytes = window.bytes.length := by
    have saved := blob_length hashBytes window.bytes window.expired
    change (snapshotBlob hashBytes window.bytes window.expired).2.1 = _
    rw [saved]
    split
    · rename_i expired
      rw [sound.freed expired]
      rfl
    · rfl
  have none_hashed : (snapshotWindow hashBytes window).1.fileBytes = 0 →
      (snapshotWindow hashBytes window).1.fileSha256 = none := blob_hash_none
  have whole := sound.whole
  have short := sound.short
  have start : (snapshotWindow hashBytes window).1.startOffset = window.startOffset := rfl
  have stop : (snapshotWindow hashBytes window).1.observedEnd = window.observedEnd := rfl
  refine ⟨?_, length⟩
  have ordered : ¬(snapshotWindow hashBytes window).1.observedEnd <
      (snapshotWindow hashBytes window).1.startOffset := by omega
  have capped : ¬maxToolStreamBytes < (snapshotWindow hashBytes window).1.fileBytes := by omega
  rw [StoredStreamWindow.check, if_neg ordered, if_neg capped, if_neg]
  rw [Bool.not_eq_true, Bool.not_eq_false']
  cases seen : window.seen with
  | false =>
    have empty := sound.unseen seen
    have unseen : (snapshotWindow hashBytes window).1.seen = false := seen
    have nothing : (snapshotWindow hashBytes window).1.fileBytes = 0 := by omega
    have origin : window.startOffset = 0 := by omega
    simp [unseen, start, stop, origin, empty, nothing, none_hashed nothing]
  | true =>
    have seen : (snapshotWindow hashBytes window).1.seen = true := seen
    cases expired : window.expired with
    | true =>
      have freed : (snapshotWindow hashBytes window).1.expired = true := expired
      have none_left := sound.freed expired
      rw [none_left, List.length_nil] at whole length
      have here : window.startOffset = window.observedEnd := by omega
      simp [seen, freed, start, stop, here, length, none_hashed length]
    | false =>
      have present : (snapshotWindow hashBytes window).1.expired = false := expired
      have span : window.observedEnd - window.startOffset = window.bytes.length := by omega
      simp [seen, present, start, stop, length, span]

/-- What a sound record saves is within the limit: its call has either output or a file
change. -/
theorem saved_bytes (sound : RecordSound owns count record) (toolRef : ToolRef) :
    (record.snapshot hashBytes toolRef).record.fileBytes ≤ maxRecordBytes ∧
      (record.snapshot hashBytes toolRef).rawBytes ≤ maxRecordBytes := by
  have input := (text_checked hashBytes sound.input).2
  have result := (text_checked hashBytes sound.result).2
  have stdout := (window_checked hashBytes sound.stdout).2
  have stderr := (window_checked hashBytes sound.stderr).2
  have inputRaw := blob_bytes hashBytes (encode record.input.text) record.input.expired
  have resultRaw := blob_bytes hashBytes (encode record.result.text) record.result.expired
  have stdoutRaw := blob_bytes hashBytes record.stdout.window.bytes record.stdout.window.expired
  have stderrRaw := blob_bytes hashBytes record.stderr.window.bytes record.stderr.window.expired
  have changes : record.stdout.window.bytes.length + record.stderr.window.bytes.length +
      ((record.fileChange.map FileChange.stored).map StoredFileChange.bytes).getD 0 ≤
        2 * maxToolStreamBytes ∧
      record.stdout.window.bytes.length + record.stderr.window.bytes.length +
        ((record.fileChange.bind fun change => change.beforeBytes.map Snapshot.bytes).map
          List.length).getD 0 +
        ((record.fileChange.bind fun change => change.afterBytes.map Snapshot.bytes).map
          List.length).getD 0 ≤ 2 * maxToolStreamBytes := by
    have stdoutShort := sound.stdout.short
    have stderrShort := sound.stderr.short
    cases changed : record.fileChange with
    | none =>
      constructor
      · change _ + _ + 0 ≤ _
        omega
      · change _ + _ + 0 + 0 ≤ _
        omega
    | some change =>
      obtain ⟨silent, storable⟩ := sound.change change changed
      obtain ⟨stdoutEmpty, stderrEmpty⟩ := sound.quiet silent
      have small := storable.small
      have snapshots := storable.snapshots
      have twice : 2 * maxChangeSnapshotBytes ≤ 2 * maxToolStreamBytes := by decide
      rw [stdoutEmpty, stderrEmpty]
      constructor
      · change 0 + 0 + change.stored.bytes ≤ _
        omega
      · simp only [Option.bind_some, Option.map_map]
        change 0 + 0 + (change.beforeBytes.map fun snapshot => snapshot.bytes.length).getD 0 +
          (change.afterBytes.map fun snapshot => snapshot.bytes.length).getD 0 ≤ _
        omega
  have room : maxToolInputBytes + maxToolResultBytes + 2 * maxToolStreamBytes ≤ maxRecordBytes := by
    decide
  constructor
  · change (snapshotText hashBytes record.input).1.fileBytes +
      (snapshotText hashBytes record.result).1.fileBytes +
      (snapshotWindow hashBytes record.stdout.window).1.fileBytes +
      (snapshotWindow hashBytes record.stderr.window).1.fileBytes +
      ((record.fileChange.map FileChange.stored).map StoredFileChange.bytes).getD 0 ≤ _
    omega
  · have raw : (record.snapshot hashBytes toolRef).rawBytes =
        (snapshotText hashBytes record.input).1.fileBytes +
        ((snapshotText hashBytes record.result).1.fileBytes +
        ((snapshotWindow hashBytes record.stdout.window).1.fileBytes +
        ((snapshotWindow hashBytes record.stderr.window).1.fileBytes +
        (((record.fileChange.bind fun change => change.beforeBytes.map Snapshot.bytes).map
          List.length).getD 0 +
        (((record.fileChange.bind fun change => change.afterBytes.map Snapshot.bytes).map
          List.length).getD 0 + 0))))) := by
      rw [ToolPersistenceSnapshot.rawBytes]
      simp only [List.map_cons, List.map_nil, List.sum_cons, List.sum_nil]
      exact congr (congrArg _ inputRaw) (congr (congrArg _ resultRaw)
        (congr (congrArg _ stdoutRaw) (congrArg (· + _) stderrRaw)))
    rw [raw]
    omega

variable [DecidableEq ToolRef]

/-- A sound record that is finished and known passes its check. -/
theorem record_checked (hashes : ∀ bytes, validSha256 (hashBytes bytes) = true)
    (sound : RecordSound owns count record) (toolRef : ToolRef)
    (ended : record.isTerminal = true)
    (known : record.name ∈ knownToolNames ∨ record.name = legacyStoredToolName) :
    validateStoredToolRecord (record.snapshot hashBytes toolRef).record toolRef = .ok () := by
  have bytes := (saved_bytes hashBytes sound toolRef).1
  have input := (text_checked hashBytes sound.input).1
  have result := (text_checked hashBytes sound.result).1
  have stdout := (window_checked hashBytes sound.stdout).1
  have stderr := (window_checked hashBytes sound.stderr).1
  rw [ToolRecord.isTerminal, Bool.and_eq_true] at ended
  generalize saved : (record.snapshot hashBytes toolRef).record = stored at bytes
  have version : stored.version = toolRecordFormatVersion := by rw [← saved]; rfl
  have same : stored.toolRef = toolRef := by rw [← saved]; rfl
  have named : storedName stored.name = true := by
    have name : stored.name = record.name := by rw [← saved]; rfl
    rw [name, storedName]
    rcases known with listed | legacy
    · rw [List.contains_iff_mem.mpr listed]
      rfl
    · rw [decide_eq_true legacy, Bool.or_true]
  have terminal : stored.state.isTerminal = true := by rw [← saved]; exact ended.1
  have outcome : (stored.outcome.any fun outcome => !matchesOutcome stored.state outcome) =
      false := by
    have outcome : stored.outcome = record.outcome := by rw [← saved]; rfl
    have state : stored.state = record.state := by rw [← saved]; rfl
    rw [outcome, state]
    cases reported : record.outcome with
    | none => rfl
    | some outcome =>
      rw [Option.any_some, sound.outcome outcome reported]
      cases outcome <;> rfl
  have inputChecked : stored.input.check maxToolInputPersistBytes = .ok () := by
    rw [← saved]; exact input
  have resultChecked : stored.result.check maxToolResultPersistBytes = .ok () := by
    rw [← saved]; exact result
  have stdoutChecked : stored.stdout.check = .ok () := by rw [← saved]; exact stdout
  have stderrChecked : stored.stderr.check = .ok () := by rw [← saved]; exact stderr
  have blobs : (storedBlobs stored).all hashed = true := by
    have inputHashed := blob_hashed hashes (encode record.input.text) record.input.expired
    have resultHashed := blob_hashed hashes (encode record.result.text) record.result.expired
    have stdoutHashed := blob_hashed hashes record.stdout.window.bytes record.stdout.window.expired
    have stderrHashed := blob_hashed hashes record.stderr.window.bytes record.stderr.window.expired
    rw [← saved]
    simp only [storedBlobs, List.all_cons, List.all_nil, Bool.and_true, Bool.and_eq_true]
    exact ⟨inputHashed, resultHashed, stdoutHashed, stderrHashed⟩
  have command : checkCommand stored.command stored.stdout stored.stderr = .ok () := by
    rw [← saved]
    change checkCommand (record.command.map record.liveCommand) _ _ = _
    cases owned : record.command with
    | none => rfl
    | some command =>
      have finished : command.status.isTerminal = true := by
        have all := ended.2
        rw [owned] at all
        exact all
      have live : (record.liveCommand command).status.isTerminal = true := finished
      rw [Option.map_some, checkCommand, CommandResult.check, live]
      simp [ToolRecord.liveCommand, ToolRecord.snapshot, snapshotWindow, RingWindow.liveRange]
  have change : checkChange stored.fileChange = .ok () := by
    rw [← saved]
    change checkChange (record.fileChange.map FileChange.stored) = _
    cases changed : record.fileChange with
    | none => rfl
    | some change => exact (sound.change change changed).2.checked
  rw [validateStoredToolRecord]
  simp [refuseIf, version, same, named, terminal, outcome, inputChecked, resultChecked,
    stdoutChecked, stderrChecked, blobs, Nat.not_lt.mpr bytes, command, change]
  rfl

end Saving

section Persisting

variable (hashBytes : Bytes → String) {ToolRef : Type} [DecidableEq ToolRef]

/-- What the tools promise of an operation, up to the conflicts that are refused: a call owns a
process or it changes a file, and a file change is that of a write they admitted. -/
def Allowed (owns : ToolRef → Bool) : ToolDataCall ToolRef → Prop
  | .noteStreamChunk toolRef _ _ _ => owns toolRef = true
  | .noteFileChange toolRef change =>
    owns toolRef = false ∧ ∃ write : FileWrite, write.Admitted ∧ ¬write.RefusedConflict ∧
      change = write.change hashBytes
  | _ => True

variable {hashBytes}

omit [DecidableEq ToolRef] in
theorem allowed_proper (hashes : ∀ bytes, validSha256 (hashBytes bytes) = true)
    {owns : ToolRef → Bool} {operation : ToolDataCall ToolRef} {toolRef : ToolRef}
    {change : RecordChange} (allowed : Allowed hashBytes owns operation)
    (makes : operation.Makes toolRef change) : Proper (owns toolRef) change := by
  cases makes with
  | pushed stream chunk granted => exact allowed
  | fileChanged noted =>
    obtain ⟨silent, write, admitted, kept, rfl⟩ := allowed
    exact ⟨silent, write_storable hashes admitted kept⟩
  | _ => trivial

/-- In every run without a conflict of a write that failed before its rename, the snapshot of
every finished record of a known tool passes the check of saved records, and its bytes are
within the limit of a record. -/
theorem persisted_records_readable (hashes : ∀ bytes, validSha256 (hashBytes bytes) = true)
    (owns : ToolRef → Bool) (operations : List (ToolDataCall ToolRef))
    (allowed : ∀ operation ∈ operations, Allowed hashBytes owns operation)
    (counted : (operations.map ToolDataCall.pushedBytes).sum ≤ wordMax) (toolRef : ToolRef)
    (record : ToolRecord)
    (found : (operations.foldl ToolDataInner.call .new).get toolRef = some record)
    (ended : record.isTerminal = true) (known : record.name ∈ knownToolNames) :
    ∃ snapshot, (operations.foldl ToolDataInner.call .new).snapshotForPersistence hashBytes
        toolRef = some snapshot ∧
      validateStoredToolRecord snapshot.record toolRef = .ok () ∧
      snapshot.record.fileBytes ≤ 3 * 1024 * 1024 ∧ snapshot.rawBytes ≤ 3 * 1024 * 1024 := by
  have arose : ToolDataInner.Arose (fun toolRef => Proper (owns toolRef)) _
      (operations.foldl ToolDataInner.call .new) :=
    ToolDataInner.Arose.new.run operations fun operation member _ _ makes =>
      allowed_proper hashes (allowed operation member) makes
  rw [Nat.zero_add] at arose
  have sound := (arose toolRef record found).sound counted
  obtain ⟨stored, raw⟩ := saved_bytes hashBytes sound toolRef
  refine ⟨record.snapshot hashBytes toolRef, ?_, ?_, stored, raw⟩
  · rw [ToolDataInner.snapshotForPersistence, found, Option.bind_some, if_pos ended]
  · exact record_checked hashBytes hashes sound toolRef ended (.inl known)

def zeroHash : String := "0000000000000000000000000000000000000000000000000000000000000000"

/-- What the system answers where a new file is written without hindrance. -/
def freshCalls : WriteCalls where
  resolved := .ok ()
  target := .ok none
  temp := .ok ()
  written := true
  checked := .missing
  again := .ok ()
  renames := true
  after := .present ⟨1, none⟩
  synced := true

/-- A write of a new file, and a command that printed something. -/
theorem sample_records_readable :
    let write : FileWrite := ⟨"a".toList, .missing, [104], freshCalls⟩
    let operations : List (ToolDataCall Nat) :=
      [.noteRequested 0 "write".toList, .noteFileChange 0 (write.change fun _ => zeroHash),
        .finish 0 .success none, .noteRequested 1 "bash".toList,
        .noteStreamChunk 1 .stdout [104, 105] 0, .finish 1 .success none]
    ∃ record, (operations.foldl ToolDataInner.call .new).get 0 = some record ∧
      record.isTerminal = true ∧ record.name ∈ knownToolNames ∧
      ∃ snapshot, (operations.foldl ToolDataInner.call .new).snapshotForPersistence
          (fun _ => zeroHash) 0 = some snapshot ∧
        validateStoredToolRecord snapshot.record 0 = .ok () ∧
        snapshot.record.fileBytes ≤ 3 * 1024 * 1024 ∧ snapshot.rawBytes ≤ 3 * 1024 * 1024 := by
  intro write operations
  let record : ToolRecord :=
    { name := "write".toList
      state := .succeeded
      outcome := some .success
      fileChange := some (write.change fun _ => zeroHash) }
  have found : (operations.foldl ToolDataInner.call .new).get 0 = some record := by decide +kernel
  have admitted : write.Admitted :=
    ⟨by decide +kernel, (fun snapshot absent => by cases absent), by decide⟩
  have kept : ¬write.RefusedConflict := fun refused => by cases refused.kept
  have allowed : ∀ operation ∈ operations, Allowed (fun _ => zeroHash) (· = 1) operation := by
    intro operation member
    simp only [operations, List.mem_cons, List.not_mem_nil, or_false] at member
    rcases member with rfl | rfl | rfl | rfl | rfl | rfl
    · trivial
    · exact ⟨rfl, write, admitted, kept, rfl⟩
    · trivial
    · trivial
    · rfl
    · trivial
  obtain ⟨snapshot, readable⟩ := persisted_records_readable (fun _ => by decide +kernel)
    (· = 1) operations allowed (by decide +kernel) 0 record found rfl (by decide +kernel)
  exact ⟨record, found, rfl, by decide +kernel, snapshot, readable⟩

/-- A new file is written, and before the rename there is a directory in its place. -/
theorem conflict_record_refused :
    let write : FileWrite :=
      ⟨"a".toList, .missing, [104],
        { freshCalls with checked := .unknown, again := .error .notFile }⟩
    let operations : List (ToolDataCall Nat) :=
      [.noteRequested 0 "write".toList, .noteFileChange 0 (write.change fun _ => zeroHash),
        .finish 0 .failed none]
    write.Admitted ∧ ∃ record, (operations.foldl ToolDataInner.call .new).get 0 = some record ∧
      record.isTerminal = true ∧ record.name ∈ knownToolNames ∧
      ∃ snapshot, (operations.foldl ToolDataInner.call .new).snapshotForPersistence
          (fun _ => zeroHash) 0 = some snapshot ∧
        validateStoredToolRecord snapshot.record 0 = .error .corrupt := by
  intro write operations
  let record : ToolRecord :=
    { name := "write".toList
      state := .failed
      outcome := some .failed
      fileChange := some (write.change fun _ => zeroHash) }
  have found : (operations.foldl ToolDataInner.call .new).get 0 = some record := by decide +kernel
  have admitted : write.Admitted :=
    ⟨by decide +kernel, (fun snapshot absent => by cases absent), by decide⟩
  refine ⟨admitted, record, found, rfl, by decide +kernel, 
    record.snapshot (fun _ => zeroHash) 0, ?_, by decide +kernel⟩
  rw [ToolDataInner.snapshotForPersistence, found]
  rfl

end Persisting

end MinicoreAgent.ToolData

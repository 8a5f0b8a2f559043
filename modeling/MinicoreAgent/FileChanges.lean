import MinicoreAgent.ToolSnapshots
import MinicoreAgent.WorkspaceRead

/-!
# File changes of a tool call

A tool replaces a file by writing a temporary file and renaming it. What was observed before,
at the rename and after it decides what the change of the call is recorded as. What the
system answers on the way is given.
-/
namespace MinicoreAgent.ToolData

open Tools (Bytes)
open WorkspaceRead (validateRelativePath)

section Writing

inductive WorkspaceError where
  | invalidPath
  | escape
  | notFound
  | notFile
  | notDirectory
  | unavailable
  | unknownOutcome
  | tooLarge
  | binary
  deriving DecidableEq, Repr

structure FileStamp where
  len : Nat
  modifiedNanos : Option Nat
  deriving DecidableEq, Repr

def FileStamp.modifiedUnixMs (stamp : FileStamp) : Option Nat :=
  stamp.modifiedNanos.bind fun nanos =>
    if nanos / 1000000 < 2 ^ 64 then some (nanos / 1000000) else none

inductive ExpectedFileState where
  | missing
  | present (stamp : FileStamp)
  deriving DecidableEq, Repr

inductive FileState where
  | missing
  | present (stamp : FileStamp)
  | unknown
  deriving DecidableEq, Repr

structure AtomicWriteObservation where
  outcome : Except WorkspaceError Unit
  before : FileState
  after : FileState
  renamed : Bool
  expectedMatches : Option Bool
  expectedUnknown : Bool

def failedObservation (error : WorkspaceError) : AtomicWriteObservation where
  outcome := .error error
  before := .unknown
  after := .unknown
  renamed := false
  expectedMatches := none
  expectedUnknown := false

def expectedMatchesState : Option ExpectedFileState → FileState → Option Bool
  | none, _ => none
  | some .missing, state => some (decide (state = .missing))
  | some (.present expected), .present actual => some (decide (expected = actual))
  | some (.present _), .missing => some false
  | some (.present _), .unknown => none

/-- What the system answers while a file is replaced: how the target is classified at first,
whether there is a temporary file and whether it was written, the target just before the
rename and how it is classified then, whether it was renamed, the target after that, and
whether the directory was synced. -/
structure WriteCalls where
  resolved : Except WorkspaceError Unit
  target : Except WorkspaceError (Option FileStamp)
  temp : Except WorkspaceError Unit
  written : Bool
  checked : FileState
  again : Except WorkspaceError Unit
  renames : Bool
  after : FileState
  synced : Bool

/-- The observation of a write whose temporary file exists. -/
def renameOver (calls : WriteCalls) (expected : Option ExpectedFileState)
    (observation : AtomicWriteObservation) : AtomicWriteObservation :=
  if !calls.written then { observation with outcome := .error .unavailable }
  else
    let found := expectedMatchesState expected calls.checked
    let expectedUnknown := expected.isSome && found.isNone
    let observation := { observation with
      expectedUnknown := expectedUnknown
      expectedMatches :=
        if expectedUnknown || found.isSome then found else observation.expectedMatches }
    match calls.again with
    | .error error => { observation with outcome := .error error }
    | .ok () =>
      if !calls.renames then { observation with outcome := .error .unavailable }
      else
        { observation with
          renamed := true
          after := calls.after
          outcome := if calls.synced then .ok () else .error .unknownOutcome }

def atomicWrite (calls : WriteCalls) (expected : Option ExpectedFileState) :
    AtomicWriteObservation :=
  match calls.target with
  | .error error => failedObservation error
  | .ok metadata =>
    let before : FileState :=
      match metadata with
      | none => .missing
      | some stamp => .present stamp
    let observation := { failedObservation .unavailable with
      before := before
      expectedMatches := expectedMatchesState expected before }
    match calls.temp with
    | .error error => { observation with outcome := .error error }
    | .ok () => renameOver calls expected observation

/-- `prepare_atomic_write` and the commit that it returns. -/
def commitWrite (calls : WriteCalls) (expected : Option ExpectedFileState) :
    AtomicWriteObservation :=
  match calls.resolved with
  | .error error => failedObservation error
  | .ok () => atomicWrite calls expected

end Writing

section Recording

/-- What is known of a file before it is replaced. -/
inductive FileBefore where
  | missing
  | content (snapshot : Snapshot) (stamp : FileStamp) (stable : Bool)
  | metadata (stamp : FileStamp)
  | unknown
  deriving DecidableEq, Repr

def expectedFileState : FileBefore → Option ExpectedFileState
  | .missing => some .missing
  | .content _ stamp _ | .metadata stamp => some (.present stamp)
  | .unknown => none

variable (hashBytes : Bytes → String)

def contentRevision (bytes : Bytes) : ChangeRevision :=
  .content (hashBytes bytes).toList bytes.length

def metadataRevision (stamp : FileStamp) : ChangeRevision :=
  .metadata stamp.len stamp.modifiedUnixMs

/-- The revision before a change, and whether its file was captured. -/
def FileBefore.revision : FileBefore → ChangeRevision × Bool
  | .missing => (.missing, true)
  | .content snapshot _ _ => (contentRevision hashBytes snapshot.bytes, true)
  | .metadata stamp => (metadataRevision stamp, false)
  | .unknown => (.unknown, false)

def FileBefore.snapshot : FileBefore → Option Snapshot
  | .content snapshot _ _ => some snapshot
  | .missing | .metadata _ | .unknown => none

def FileBefore.stable : FileBefore → Bool
  | .missing | .metadata _ => true
  | .content _ _ stable => stable
  | .unknown => false

namespace AtomicWriteObservation

variable (observation : AtomicWriteObservation) (before : FileBefore)

def unknownFacts : Bool :=
  decide (before = .unknown) || observation.expectedUnknown ||
    decide (observation.before = .unknown) ||
    (observation.renamed && decide (observation.after = .unknown))

def conflict : Bool :=
  !observation.unknownFacts before &&
    ((!before.stable && decide (before ≠ .unknown)) ||
      decide (observation.expectedMatches = some false) ||
      (observation.renamed && decide (observation.after = .missing)))

def commitState : ChangeCommitState :=
  match observation.outcome with
  | .error .unknownOutcome => .unknown
  | .error _ =>
    if !observation.renamed && observation.expectedMatches = some false then .conflict
    else if !observation.renamed then .notCommitted
    else .unknown
  | .ok () =>
    if observation.unknownFacts before then .unknown
    else if observation.conflict before then .conflict
    else .applied

def coverage : ChangeCoverage :=
  if !observation.renamed then .unavailable
  else if observation.unknownFacts before || !(before.revision hashBytes).2 || !before.stable ||
      observation.conflict before || observation.commitState before ≠ .applied then
    if (before.revision hashBytes).1 = .unknown then .unavailable else .partialChange
  else .complete

end AtomicWriteObservation

/-- The change that `record_file_change` notes. -/
def recordFileChange (path : List Char) (before : FileBefore) (afterBytes : Bytes)
    (observation : AtomicWriteObservation) : FileChange where
  path := path
  kind :=
    match (before.revision hashBytes).1 with
    | .missing => .added
    | .unknown => .unknown
    | _ => .modified
  before := (before.revision hashBytes).1
  after := if observation.renamed then contentRevision hashBytes afterBytes else .unknown
  commitState := observation.commitState before
  coverage := observation.coverage hashBytes before
  beforeCaptured := (before.revision hashBytes).2
  afterCaptured := observation.renamed
  beforeBytes := before.snapshot
  afterBytes := if observation.renamed then some ⟨afterBytes, afterBytes.length⟩ else none
  beforeCorrupt := false
  afterCorrupt := false

/-- `MAX_WRITE_BYTES` and `MAX_PATCH_BYTES`. -/
def maxWriteBytes : Nat := 512 * 1024

/-- A write that a tool commits, and what the system answers. -/
structure FileWrite where
  path : List Char
  before : FileBefore
  bytes : Bytes
  calls : WriteCalls

/-- What the tools check before they commit: the path is one inside the workspace, and both
contents are within their bound. -/
structure FileWrite.Admitted (write : FileWrite) : Prop where
  path : validateRelativePath write.path = true
  before : ∀ snapshot, write.before.snapshot = some snapshot →
    snapshot.bytes.length ≤ maxWriteBytes
  bytes : write.bytes.length ≤ maxWriteBytes

def FileWrite.observation (write : FileWrite) : AtomicWriteObservation :=
  commitWrite write.calls (expectedFileState write.before)

/-- The change that `commit_text` records. -/
def FileWrite.change (write : FileWrite) : FileChange :=
  recordFileChange hashBytes write.path write.before write.bytes write.observation

/-- A write that failed before its rename, with a known outcome, and had found another file
than it expected. -/
structure FileWrite.RefusedConflict (write : FileWrite) : Prop where
  failed : ∃ error, write.observation.outcome = .error error ∧ error ≠ .unknownOutcome
  kept : write.observation.renamed = false
  differs : write.observation.expectedMatches = some false

end Recording

section Observations

theorem rename_done {calls : WriteCalls} {expected : Option ExpectedFileState}
    {observation : AtomicWriteObservation}
    (done : (renameOver calls expected observation).outcome = .ok ()) :
    (renameOver calls expected observation).renamed = true := by
  rw [renameOver] at done ⊢
  split
  · rename_i unwritten
    rw [if_pos unwritten] at done
    cases done
  · rename_i written
    rw [if_neg written] at done
    dsimp only at done ⊢
    split
    · rename_i refused
      rw [refused] at done
      cases done
    · rename_i accepted
      rw [accepted] at done
      dsimp only at done
      split
      · rename_i unrenamed
        rw [if_pos unrenamed] at done
        cases done
      · rfl

/-- A write without an error was renamed. -/
theorem commit_done {calls : WriteCalls} {expected : Option ExpectedFileState}
    (done : (commitWrite calls expected).outcome = .ok ()) :
    (commitWrite calls expected).renamed = true := by
  rw [commitWrite] at done ⊢
  cases resolved : calls.resolved with
  | error error =>
    rw [resolved] at done
    cases done
  | ok value =>
    rw [resolved] at done
    simp only [atomicWrite] at done ⊢
    cases target : calls.target with
    | error error =>
      rw [target] at done
      cases done
    | ok metadata =>
      rw [target] at done
      dsimp only at done ⊢
      cases temp : calls.temp with
      | error error =>
        rw [temp] at done
        cases done
      | ok value =>
        rw [temp] at done
        exact rename_done done

end Observations

end MinicoreAgent.ToolData

import MinicoreAgent.RecordChanges

/-!
# The history of one record

For as long as a record is kept, every operation takes it along a path of changes. A record
moves forward only: its state never falls back to an earlier stage, what was said once about
its start, its end and its file stays, and a byte of output that is still retained is the one
that was first read at its offset.
-/
namespace MinicoreAgent.ToolData

open Tools

section Paths

/-- The records that a first one becomes by changes from a source. -/
inductive Path (source : RecordChange → Prop) (first : ToolRecord) : ToolRecord → Prop
  | here : Path source first first
  | next {record : ToolRecord} (path : Path source first record) (change : RecordChange)
      (allowed : change.frees = true ∨ source change) (applies : change.Applies record) :
      Path source first (record.changed change)

variable {ToolRef : Type}

/-- The new records that an operation may add. -/
inductive ToolDataCall.Tracks : ToolDataCall ToolRef → ToolRef → List Char → Prop
  | requested (toolRef : ToolRef) (name : List Char) :
      Tracks (.noteRequested toolRef name) toolRef name
  | invoked (toolRef : ToolRef) (invocation : ToolInvocation) :
      Tracks (.noteInvocation toolRef invocation) toolRef invocation.toolName
  | reported (results : List (ReportedResult ToolRef)) (now : Option (List Char))
      (result : ReportedResult ToolRef) (member : result ∈ results) :
      Tracks (.reconcile results now) result.toolRef result.toolName

namespace ToolDataInner

variable [DecidableEq ToolRef] {inner : ToolDataInner ToolRef} {toolRef : ToolRef}
  {Holds : ToolRef → ToolRecord → Prop}

/-- A change of a record that keeps what holds. -/
theorem Every.change (every : Every Holds inner) {change : ToolRecord → ToolRecord}
    (changed : ∀ record, inner.get toolRef = some record → Holds toolRef record →
      Holds toolRef (change record)) :
    Every Holds (inner.modify toolRef change) ∧ Every Holds (inner.resize toolRef change) :=
  ⟨every.modify (fun _ _ => id) changed, every.resize (fun _ _ => id) changed⟩

theorem get_reconciled (inner : ToolDataInner ToolRef) (now : Option (List Char))
    (result : ReportedResult ToolRef) {other : ToolRef} (present : inner.get other ≠ none) :
    (inner.reconcileResult now result).get other ≠ none := by
  rw [Option.ne_none_iff_isSome] at present ⊢
  have tracked : ((inner.track result.toolRef result.toolName).get other).isSome = true := by
    rw [track]
    split
    · exact present
    · change (Keyed.find (inner.records ++ [(result.toolRef, _)]) other).isSome = true
      rw [Keyed.find_append, Option.isSome_or]
      exact Bool.or_eq_true_iff.mpr (.inl present)
  rw [reconcileResult]
  split
  · change ((ToolDataInner.modify _ result.toolRef _).get other).isSome = true
    rw [get_modify_some, get_modify_some]
    exact tracked
  · rw [get_modify_some]
    exact tracked

theorem Every.reconciled (every : Every Holds inner) (now : Option (List Char))
    (result : ReportedResult ToolRef)
    (new : inner.get result.toolRef = none → Holds result.toolRef { name := result.toolName })
    (made : ∀ record change, (change = .finished result.outcome now ∨
      change = .captured result.content) → change.Applies record → Holds result.toolRef record →
      Holds result.toolRef (record.changed change)) :
    Every Holds (inner.reconcileResult now result) := by
  have tracked := every.track result.toolName new
  have finished (record : ToolRecord) (holds : Holds result.toolRef record) :
      Holds result.toolRef (record.finish result.outcome now) :=
    made record (.finished result.outcome now) (.inl rfl) trivial holds
  have ended := (tracked.change fun record _ => finished record).1
  rw [reconcileResult]
  split
  · rename_i present
    obtain ⟨record, found, retained⟩ := (Option.any_eq_true _ _).mp present
    rw [Bool.not_eq_true'] at retained
    apply (ended.change _).2
    intro later foundLater holds
    rw [get_modify_self found] at foundLater
    cases foundLater
    exact made _ (.captured result.content) (.inr rfl) retained holds
  · exact ended

/-- What holds of the records that an operation adds, and survives the changes that it makes and
what is freed, holds of every record after it. -/
theorem Every.call (every : Every Holds inner) (operation : ToolDataCall ToolRef)
    (new : ∀ toolRef name, operation.Tracks toolRef name → inner.get toolRef = none →
      Holds toolRef { name := name })
    (made : ∀ toolRef record change, operation.Makes toolRef change → change.Applies record →
      Holds toolRef record → Holds toolRef (record.changed change))
    (outlasts : Outlasts Holds) : Every Holds (inner.call operation) := by
  cases operation with
  | noteRequested toolRef name =>
    exact (every.track name (new _ _ (.requested toolRef name))).enforced outlasts
  | noteInvocation toolRef invocation =>
    have tracked := every.track invocation.toolName (new _ _ (.invoked toolRef invocation))
    have changed := tracked.change fun record _ =>
      made _ record _ (.invoked toolRef invocation) trivial
    exact changed.2.enforced outlasts
  | markAwaitingPolicy toolRef =>
    exact (every.change fun record _ => made _ record _ (.awaiting toolRef) trivial).1
  | markRunning toolRef now =>
    exact (every.change fun record _ => made _ record _ (.started toolRef now) trivial).1
  | notePhase toolRef text =>
    rw [ToolDataInner.call]
    split
    · exact every
    · rename_i phase _
      exact (every.change fun record _ => made _ record _ (.phased toolRef text phase) trivial).1
  | noteResult toolRef content =>
    have changed := every.change fun record _ =>
      made _ record _ (.answered toolRef content) trivial
    exact changed.2.enforced outlasts
  | markCancelling toolRef =>
    exact (every.change fun record _ => made _ record _ (.cancelling toolRef) trivial).1
  | noteStreamChunk toolRef stream chunk granted =>
    have changed := every.change fun record _ =>
      made _ record _ (.pushed toolRef stream chunk granted) trivial
    rw [ToolDataInner.call]
    split
    · split
      · exact changed.2.enforced outlasts
      · exact changed.2
    · exact every
  | noteStreamEnd toolRef stream =>
    exact (every.change fun record _ => made _ record _ (.ended toolRef stream) trivial).2
  | noteStreamCut toolRef stream =>
    exact (every.change fun record _ => made _ record _ (.shortened toolRef stream) trivial).2
  | noteCommand toolRef command =>
    have changed := every.change fun record _ =>
      made _ record _ (.commanded toolRef command) trivial
    rw [ToolDataInner.call]
    split
    · exact changed.2.enforced outlasts
    · exact every
  | noteRecording toolRef recording =>
    exact (every.change fun record _ => made _ record _ (.recorded toolRef recording) trivial).1
  | noteFileChange toolRef change =>
    have changed := every.change fun record _ =>
      made _ record _ (.fileChanged toolRef change) trivial
    exact changed.2.enforced outlasts
  | finish toolRef outcome now =>
    exact (every.change fun record _ => made _ record _ (.finished toolRef outcome now) trivial).1
  | reconcile results now =>
    -- What is kept at the start is kept while the results are taken up.
    have reconciled (part : List (ReportedResult ToolRef)) (within : part ⊆ results) :
        ∀ current, Every Holds current →
          (∀ toolRef, inner.get toolRef ≠ none → current.get toolRef ≠ none) →
          Every Holds (part.foldl (fun inner result => inner.reconcileResult now result)
            current) := by
      clear every
      induction part with
      | nil => exact fun current every _ => every
      | cons result rest inductionHypothesis =>
        intro current every kept
        have member := within List.mem_cons_self
        apply inductionHypothesis (fun other later => within (List.mem_cons_of_mem _ later))
        · apply every.reconciled now result
          · intro absent
            apply new _ _ (.reported results now result member)
            by_contra present
            exact kept _ present absent
          · intro record change which applies
            rcases which with rfl | rfl
            · exact made _ record _ (.reported results now result member) applies
            · exact made _ record _ (.captured results now result member) applies
        · intro toolRef present
          exact get_reconciled current now result (kept toolRef present)
    exact (reconciled results (fun _ member => member) inner every fun _ => id).enforced outlasts

omit [DecidableEq ToolRef] in
theorem outlasts_path (source : RecordChange → Prop) (first : ToolRecord) (toolRef : ToolRef) :
    Outlasts fun other record => other = toolRef → Path source first record :=
  fun _ _ change frees applies path same => (path same).next change (.inl frees) applies

variable {source : RecordChange → Prop} {first record later : ToolRecord}

/-- What one operation does to a record that is kept: its own changes of this record, and what
is freed afterwards. -/
theorem call_path (found : inner.get toolRef = some record) (path : Path source first record)
    (operation : ToolDataCall ToolRef)
    (allowed : ∀ change, operation.Makes toolRef change → source change)
    (foundLater : (inner.call operation).get toolRef = some later) : Path source first later := by
  have every : Every (fun other record => other = toolRef → Path source first record) inner := by
    rintro other present here rfl
    rw [found] at here
    cases here
    exact path
  refine every.call operation ?_ ?_ (outlasts_path source first toolRef) toolRef later foundLater
    rfl
  · rintro other name - absent rfl
    rw [found] at absent
    cases absent
  · rintro other present change makes applies before rfl
    exact (before rfl).next change (.inr (allowed change makes)) applies

/-- Along a run that never loses the record, it follows a path. -/
theorem run_path (found : inner.get toolRef = some record) (path : Path source first record)
    (operations : List (ToolDataCall ToolRef))
    (allowed : ∀ operation ∈ operations, ∀ change, operation.Makes toolRef change → source change)
    (kept : ∀ count ≤ operations.length,
      ((operations.take count).foldl ToolDataInner.call inner).get toolRef ≠ none)
    (foundLater : (operations.foldl ToolDataInner.call inner).get toolRef = some later) :
    Path source first later := by
  induction operations generalizing inner record with
  | nil =>
    change inner.get toolRef = some later at foundLater
    rw [found] at foundLater
    cases foundLater
    exact path
  | cons operation rest inductionHypothesis =>
    have present := kept 1 (Nat.succ_le_succ (Nat.zero_le _))
    obtain ⟨next, foundNext⟩ := Option.ne_none_iff_exists'.mp present
    have called := call_path found path operation (allowed operation List.mem_cons_self) foundNext
    apply inductionHypothesis foundNext called _ _ foundLater
    · exact fun other member => allowed other (List.mem_cons_of_mem _ member)
    · exact fun count within => kept (count + 1) (Nat.succ_le_succ within)

end ToolDataInner

end Paths

section Windows

/-- The byte that a window still retains from an offset of its stream. -/
def byteAt (window : StreamWindow) (offset : Nat) : Option UInt8 :=
  if offset < window.startOffset then none else window.bytes[offset - window.startOffset]?

/-- The offsets of a window are words, and they count its bytes for as long as words can. -/
structure Offsets (window : StreamWindow) : Prop where
  inside : window.startOffset ≤ window.observedEnd
  words : window.observedEnd ≤ wordMax
  whole : window.observedEnd < wordMax →
    window.startOffset + window.bytes.length = window.observedEnd

/-- A window never goes back: its offsets and its flags only grow, and a byte is found where it
was or was dropped. -/
structure WindowForward (first later : StreamWindow) : Prop where
  start : first.startOffset ≤ later.startOffset
  observed : first.observedEnd ≤ later.observedEnd
  seen : first.seen = true → later.seen = true
  complete : first.complete = true → later.complete = true
  truncated : first.truncated = true → later.truncated = true
  bytes : later.observedEnd < wordMax → ∀ offset byte, byteAt first offset = some byte →
    offset < later.startOffset ∨ byteAt later offset = some byte

variable {first window later : StreamWindow}

theorem WindowForward.refl (window : StreamWindow) : WindowForward window window where
  start := Nat.le_refl _
  observed := Nat.le_refl _
  seen := id
  complete := id
  truncated := id
  bytes := fun _ _ _ found => .inr found

theorem WindowForward.trans (forward : WindowForward first window)
    (rest : WindowForward window later) : WindowForward first later where
  start := Nat.le_trans forward.start rest.start
  observed := Nat.le_trans forward.observed rest.observed
  seen := fun seen => rest.seen (forward.seen seen)
  complete := fun complete => rest.complete (forward.complete complete)
  truncated := fun truncated => rest.truncated (forward.truncated truncated)
  bytes := by
    intro counted offset byte found
    have observed := rest.observed
    rcases forward.bytes (by omega) offset byte found with dropped | retained
    · exact .inl (Nat.lt_of_lt_of_le dropped rest.start)
    · exact rest.bytes counted offset byte retained

theorem Offsets.new : Offsets {} := ⟨Nat.le_refl _, Nat.zero_le _, fun _ => rfl⟩

/-- Where a push starts: it drops nothing that is retained. -/
theorem push_start_inside {ring : RingWindow} (offsets : Offsets ring.window) :
    ring.window.startOffset ≤ ring.pushStart ∧ ring.pushStart ≤ ring.window.observedEnd ∧
      (ring.window.bytes ≠ [] → ring.pushStart = ring.window.startOffset) := by
  rw [RingWindow.pushStart]
  by_cases nothing : ring.window.bytes.isEmpty = true
  · rw [if_pos nothing]
    refine ⟨offsets.inside, Nat.le_refl _, ?_⟩
    intro some_bytes
    exact absurd (List.isEmpty_iff.mp nothing) some_bytes
  · rw [if_neg nothing]
    exact ⟨Nat.le_refl _, offsets.inside, fun _ => rfl⟩

/-- A byte that is retained lies behind the start. -/
theorem byte_at_some {offset : Nat} {byte : UInt8} (found : byteAt window offset = some byte) :
    window.bytes ≠ [] ∧ window.startOffset ≤ offset ∧
      window.bytes[offset - window.startOffset]? = some byte := by
  rw [byteAt] at found
  split at found
  · cases found
  · rename_i behind
    refine ⟨?_, by omega, found⟩
    intro empty
    rw [empty] at found
    cases found

theorem byte_appended {front : Bytes} {index : Nat} {byte : UInt8}
    (found : front[index]? = some byte) (more : Bytes) : (front ++ more)[index]? = some byte := by
  obtain ⟨inside, -⟩ := List.getElem?_eq_some_iff.mp found
  rw [List.getElem?_append_left inside]
  exact found

/-- A byte stays where the start stays and bytes are added. -/
theorem byte_kept {offset : Nat} {byte : UInt8} (found : byteAt window offset = some byte)
    (start : window.bytes ≠ [] → later.startOffset = window.startOffset) {more : Bytes}
    (bytes : later.bytes = window.bytes ++ more) : byteAt later offset = some byte := by
  obtain ⟨retained, behind, here⟩ := byte_at_some found
  rw [byteAt, start retained, bytes, if_neg (by omega)]
  exact byte_appended here more

/-- A push moves a window forward. -/
theorem push_forward {ring : RingWindow} (offsets : Offsets ring.window) (chunk : Bytes) :
    Offsets (ring.push chunk).1.window ∧ WindowForward ring.window (ring.push chunk).1.window := by
  obtain ⟨later_start, early_start, same_start⟩ := push_start_inside offsets
  obtain ⟨inside, words, whole⟩ := offsets
  have whole_start : ring.window.observedEnd < wordMax →
      ring.pushStart + ring.window.bytes.length = ring.window.observedEnd := by
    intro counted
    by_cases nothing : ring.window.bytes = []
    · rw [RingWindow.pushStart, if_pos (List.isEmpty_iff.mpr nothing), nothing]
      rfl
    · rw [same_start nothing]
      exact whole counted
  have observed : ring.window.observedEnd ≤
      saturatingAdd ring.window.observedEnd chunk.length := by
    rw [saturatingAdd]
    omega
  have bounded : saturatingAdd ring.window.observedEnd chunk.length ≤ wordMax :=
    Nat.min_le_right _ _
  have counts : saturatingAdd ring.window.observedEnd chunk.length < wordMax →
      ring.window.observedEnd < wordMax ∧
        saturatingAdd ring.window.observedEnd chunk.length =
          ring.window.observedEnd + chunk.length := by
    rw [saturatingAdd]
    omega
  rcases pushed_window ring chunk with ⟨nothing, made⟩ | ⟨some_bytes, fits, made⟩ |
    ⟨excess, much, made⟩
  · rw [made]
    constructor
    · refine ⟨Nat.le_trans early_start observed, bounded, ?_⟩
      intro counted
      obtain ⟨before, sum⟩ := counts counted
      dsimp only
      rw [sum, nothing]
      exact whole_start before
    · refine ⟨later_start, observed, fun _ => rfl, id, id, ?_⟩
      intro _ offset byte found
      exact .inr (byte_kept found same_start (List.append_nil _).symm)
  · rw [made]
    constructor
    · refine ⟨Nat.le_trans early_start observed, bounded, ?_⟩
      intro counted
      obtain ⟨before, sum⟩ := counts counted
      have start := whole_start before
      dsimp only
      rw [sum, List.length_append]
      omega
    · refine ⟨later_start, observed, fun _ => rfl, id, id, ?_⟩
      intro _ offset byte found
      exact .inr (byte_kept found same_start rfl)
  · have moved : saturatingAdd ring.pushStart excess ≤
        saturatingAdd ring.window.observedEnd chunk.length := by
      rw [saturatingAdd, saturatingAdd]
      by_cases counted : ring.window.observedEnd < wordMax
      · have start := whole_start counted
        generalize maxToolStreamBytes = bound at much
        omega
      · omega
    have start : ring.pushStart ≤ saturatingAdd ring.pushStart excess := by
      rw [saturatingAdd]
      omega
    rw [made]
    constructor
    · refine ⟨moved, bounded, ?_⟩
      intro counted
      obtain ⟨before, sum⟩ := counts counted
      have start := whole_start before
      have exact_start : saturatingAdd ring.pushStart excess = ring.pushStart + excess := by
        rw [saturatingAdd]
        generalize maxToolStreamBytes = bound at much
        omega
      dsimp only
      rw [sum, exact_start, List.length_drop, List.length_append]
      generalize maxToolStreamBytes = bound at much
      omega
    · refine ⟨Nat.le_trans later_start start, observed, fun _ => rfl, id, fun _ => rfl, ?_⟩
      intro counted offset byte found
      obtain ⟨before, sum⟩ := counts counted
      obtain ⟨retained, behind, here⟩ := byte_at_some found
      have exact_start : saturatingAdd ring.pushStart excess =
          ring.window.startOffset + excess := by
        rw [← same_start retained, saturatingAdd]
        have start := whole_start before
        generalize maxToolStreamBytes = bound at much
        dsimp only at counted
        omega
      by_cases dropped : offset < ring.window.startOffset + excess
      · left
        dsimp only
        rw [exact_start]
        exact dropped
      · right
        rw [byteAt]
        dsimp only
        rw [exact_start, if_neg dropped, List.getElem?_drop]
        have index : excess + (offset - (ring.window.startOffset + excess)) =
            offset - ring.window.startOffset := by omega
        rw [index]
        exact byte_appended here chunk

theorem evict_forward (offsets : Offsets window) :
    Offsets window.evict ∧ WindowForward window window.evict := by
  constructor
  · exact ⟨Nat.le_refl _, offsets.words, fun _ => Nat.add_zero _⟩
  · refine ⟨offsets.inside, Nat.le_refl _, id, id, fun _ => rfl, ?_⟩
    intro counted offset byte found
    obtain ⟨retained, behind, here⟩ := byte_at_some found
    have whole := offsets.whole counted
    obtain ⟨index, -⟩ := List.getElem?_eq_some_iff.mp here
    left
    change offset < window.observedEnd
    omega

end Windows

section Records

/-- How far a call has come: requested, judged, under way or ended. -/
def stage : ToolExecutionState → Nat
  | .requested => 0
  | .awaitingPolicy => 1
  | .running | .cancelling => 2
  | .succeeded | .failed | .denied | .cancelled | .inputProvided => 3

/-- A record that has moved forward from another one. -/
structure Forward (first later : ToolRecord) : Prop where
  name : later.name = first.name
  stage : stage first.state ≤ stage later.state
  outcome : first.outcome.isSome = true → later.outcome.isSome = true
  started : first.startedAt.isSome = true → later.startedAt = first.startedAt
  finished : first.finishedAt.isSome = true → later.finishedAt = first.finishedAt
  command : first.command.isSome = true → later.command.isSome = true
  invoked : first.input.seen = true → later.subject = first.subject ∧
    later.subjectTruncated = first.subjectTruncated ∧
    (later.input = first.input ∨ later.input = first.input.evict)
  answered : first.result.seen = true → later.result.seen = true
  changed : first.fileChange.isSome = true →
    later.fileChange = first.fileChange ∨ later.fileChange = first.fileChange.map (·.evict)
  stdout : WindowForward first.stdout.window later.stdout.window
  stderr : WindowForward first.stderr.window later.stderr.window

variable {first record later : ToolRecord}

theorem Forward.refl (record : ToolRecord) : Forward record record where
  name := rfl
  stage := Nat.le_refl _
  outcome := id
  started := fun _ => rfl
  finished := fun _ => rfl
  command := id
  invoked := fun _ => ⟨rfl, rfl, .inl rfl⟩
  answered := id
  changed := fun _ => .inl rfl
  stdout := .refl _
  stderr := .refl _

theorem Forward.trans (forward : Forward first record) (rest : Forward record later) :
    Forward first later where
  name := rest.name.trans forward.name
  stage := Nat.le_trans forward.stage rest.stage
  outcome := fun known => rest.outcome (forward.outcome known)
  started := by
    intro known
    have same := forward.started known
    rw [← same] at known ⊢
    exact rest.started known
  finished := by
    intro known
    have same := forward.finished known
    rw [← same] at known ⊢
    exact rest.finished known
  command := fun known => rest.command (forward.command known)
  invoked := by
    intro seen
    obtain ⟨subject, cut, input⟩ := forward.invoked seen
    have still : record.input.seen = true := by
      rcases input with same | freed
      · rw [same]
        exact seen
      · rw [freed]
        exact seen
    obtain ⟨subjectNext, cutNext, inputNext⟩ := rest.invoked still
    refine ⟨subjectNext.trans subject, cutNext.trans cut, ?_⟩
    rcases input with same | freed
    · rw [← same]
      exact inputNext
    · rw [freed] at inputNext
      exact .inr (inputNext.elim id id)
  answered := fun seen => rest.answered (forward.answered seen)
  changed := by
    intro known
    have twice (change : Option FileChange) :
        (change.map FileChange.evict).map FileChange.evict = change.map FileChange.evict := by
      cases change with
      | none => rfl
      | some change => rfl
    rcases forward.changed known with same | freed
    · rw [← same] at known ⊢
      exact rest.changed known
    · have still : record.fileChange.isSome = true := by
        rw [freed, Option.isSome_map]
        exact known
      have next := rest.changed still
      rw [freed] at next
      exact .inr (next.elim id fun again => again.trans (twice _))
  stdout := forward.stdout.trans rest.stdout
  stderr := forward.stderr.trans rest.stderr

/-- The offsets of both windows are sound. -/
structure Measured (record : ToolRecord) : Prop where
  stdout : Offsets record.stdout.window
  stderr : Offsets record.stderr.window

/-- A change of one window that moves it forward. -/
theorem stream_forward (measured : Measured record) (stream : ToolDataStream)
    {change : RingWindow → RingWindow}
    (forward : ∀ ring, Offsets ring.window →
      Offsets (change ring).window ∧ WindowForward ring.window (change ring).window) :
    Measured (record.withStream stream change) ∧
      Forward record (record.withStream stream change) := by
  obtain ⟨stdout, stderr⟩ := measured
  have same := Forward.refl record
  cases stream with
  | input => exact ⟨⟨stdout, stderr⟩, same⟩
  | output => exact ⟨⟨stdout, stderr⟩, same⟩
  | stdout =>
    obtain ⟨offsets, moved⟩ := forward record.stdout stdout
    exact ⟨⟨offsets, stderr⟩, { same with stdout := moved }⟩
  | stderr =>
    obtain ⟨offsets, moved⟩ := forward record.stderr stderr
    exact ⟨⟨stdout, offsets⟩, { same with stderr := moved }⟩

theorem ended_stage {state : ToolExecutionState} (outcome : ToolResultOutcome) :
    stage state ≤ stage (fromOutcome outcome) := by
  have last : stage (fromOutcome outcome) = 3 := by
    cases outcome <;> rfl
  rw [last]
  cases state <;> decide

theorem open_stage {state : ToolExecutionState} (unfinished : state.isTerminal = false) :
    stage state ≤ 2 := by
  cases state <;> first | decide | cases unfinished

/-- Every change moves a record forward. -/
theorem changed_forward (measured : Measured record) (change : RecordChange) :
    Measured (record.changed change) ∧ Forward record (record.changed change) := by
  have same := Forward.refl record
  have once (known : Option (List Char)) (now : Option (List Char))
      (present : known.isSome = true) : (if known.isNone then now else known) = known := by
    cases known with
    | none => cases present
    | some time => rfl
  cases change with
  | invoked invocation =>
    change Measured (record.noteInvocation invocation) ∧
      Forward record (record.noteInvocation invocation)
    rw [ToolRecord.noteInvocation]
    split
    · exact ⟨measured, same⟩
    · rename_i unseen
      exact ⟨⟨measured.stdout, measured.stderr⟩,
        { same with invoked := fun seen => absurd seen unseen }⟩
  | awaiting =>
    change Measured record.markAwaitingPolicy ∧ Forward record record.markAwaitingPolicy
    rw [ToolRecord.markAwaitingPolicy]
    split
    · rename_i requested
      refine ⟨⟨measured.stdout, measured.stderr⟩, { same with stage := ?_ }⟩
      rw [requested]
      exact Nat.zero_le _
    · exact ⟨measured, same⟩
  | started now =>
    refine ⟨⟨measured.stdout, measured.stderr⟩, { same with stage := ?_, started := ?_ }⟩
    · change stage record.state ≤
        stage (if record.state.isTerminal then record.state else .running)
      split
      · exact Nat.le_refl _
      · rename_i unfinished
        exact open_stage (Bool.not_eq_true _ ▸ unfinished)
    · exact once record.startedAt now
  | phased phase => exact ⟨⟨measured.stdout, measured.stderr⟩, { same with }⟩
  | answered content =>
    exact ⟨⟨measured.stdout, measured.stderr⟩, { same with answered := fun _ => rfl }⟩
  | cancelling =>
    change Measured record.markCancelling ∧ Forward record record.markCancelling
    rw [ToolRecord.markCancelling]
    split
    · exact ⟨measured, same⟩
    · rename_i unfinished
      exact ⟨⟨measured.stdout, measured.stderr⟩,
        { same with stage := open_stage (Bool.not_eq_true _ ▸ unfinished) }⟩
  | pushed stream chunk granted =>
    exact stream_forward measured stream fun ring offsets => push_forward offsets chunk
  | ended stream =>
    apply stream_forward measured stream
    intro ring offsets
    exact ⟨⟨offsets.inside, offsets.words, offsets.whole⟩,
      { WindowForward.refl ring.window with complete := fun _ => rfl }⟩
  | shortened stream =>
    apply stream_forward measured stream
    intro ring offsets
    exact ⟨⟨offsets.inside, offsets.words, offsets.whole⟩,
      { WindowForward.refl ring.window with complete := fun _ => rfl, truncated := fun _ => rfl }⟩
  | commanded command =>
    exact ⟨⟨measured.stdout, measured.stderr⟩, { same with command := fun _ => rfl }⟩
  | recorded recording => exact ⟨⟨measured.stdout, measured.stderr⟩, { same with }⟩
  | fileChanged change =>
    refine ⟨⟨measured.stdout, measured.stderr⟩, { same with changed := ?_ }⟩
    intro known
    obtain ⟨present, found⟩ := Option.isSome_iff_exists.mp known
    left
    change record.fileChange.or (some change) = record.fileChange
    rw [found]
    rfl
  | finished outcome now =>
    exact ⟨⟨measured.stdout, measured.stderr⟩,
      { same with
        stage := ended_stage outcome
        outcome := fun _ => rfl
        finished := once record.finishedAt now }⟩
  | captured content =>
    exact ⟨⟨measured.stdout, measured.stderr⟩, { same with answered := fun _ => rfl }⟩
  | inputFreed =>
    exact ⟨⟨measured.stdout, measured.stderr⟩,
      { same with invoked := fun _ => ⟨rfl, rfl, .inr rfl⟩ }⟩
  | resultFreed => exact ⟨⟨measured.stdout, measured.stderr⟩, { same with answered := id }⟩
  | snapshotsFreed =>
    exact ⟨⟨measured.stdout, measured.stderr⟩, { same with changed := fun _ => .inr rfl }⟩
  | streamFreed stream =>
    exact stream_forward measured stream fun ring offsets => evict_forward offsets

theorem Path.forward {source : RecordChange → Prop} (path : Path source first later)
    (measured : Measured first) : Measured later ∧ Forward first later := by
  induction path with
  | here => exact ⟨measured, .refl first⟩
  | next _ change _ _ inductionHypothesis =>
    obtain ⟨before, forward⟩ := inductionHypothesis
    obtain ⟨after, further⟩ := changed_forward before change
    exact ⟨after, forward.trans further⟩

theorem Arisen.measured {source : RecordChange → Prop} {pushed : Nat}
    (arisen : Arisen source pushed record) : Measured record :=
  arisen.induct (fun _ => ⟨.new, .new⟩) fun _ change measured => (changed_forward measured change).1

variable {ToolRef : Type} [DecidableEq ToolRef]

/-- For as long as a session keeps a record, whatever it does, the record moves forward. -/
theorem records_move_forward (before after : List (ToolDataCall ToolRef)) (toolRef : ToolRef)
    (first later : ToolRecord)
    (found : (before.foldl ToolDataInner.call .new).get toolRef = some first)
    (kept : ∀ count ≤ after.length,
      ((before ++ after.take count).foldl ToolDataInner.call .new).get toolRef ≠ none)
    (found_later : ((before ++ after).foldl ToolDataInner.call .new).get toolRef = some later) :
    Forward first later := by
  have arose : ToolDataInner.Arose (fun _ _ => True) _ (before.foldl ToolDataInner.call .new) :=
    ToolDataInner.Arose.new.run before fun _ _ _ _ _ => trivial
  have measured : Measured first := (arose toolRef first found).measured
  have path : Path (fun _ => True) first later := by
    rw [List.foldl_append] at found_later
    apply ToolDataInner.run_path found .here after (fun _ _ _ _ => trivial) _ found_later
    intro count within
    rw [← List.foldl_append]
    exact kept count within
  exact (path.forward measured).2

/-- A command that is cancelled too late, prints more and is reported with another outcome. -/
theorem sample_record_forward :
    let before : List (ToolDataCall Nat) :=
      [.noteRequested 0 "bash".toList, .noteStreamChunk 0 .stdout [104, 105] 0,
        .finish 0 .success (some "first".toList)]
    let after : List (ToolDataCall Nat) :=
      [.markCancelling 0, .noteStreamChunk 0 .stdout [33] 0,
        .reconcile [⟨0, "bash".toList, "hi".toList, .failed⟩] (some "second".toList)]
    ∃ first later, (before.foldl ToolDataInner.call .new).get 0 = some first ∧
      ((before ++ after).foldl ToolDataInner.call .new).get 0 = some later ∧
      first.state = .succeeded ∧ later.state = .failed ∧
      later.stdout.window.bytes = [104, 105, 33] ∧ Forward first later := by
  intro before after
  let first : ToolRecord :=
    { name := "bash".toList
      state := .succeeded
      finishedAt := some "first".toList
      outcome := some .success
      stdout := ⟨⟨[104, 105], 0, 2, true, false, false, false, false⟩, 2⟩ }
  let later : ToolRecord :=
    { first with
      state := .failed
      outcome := some .failed
      outputLineCount := some 1
      result := ⟨"hi".toList, 2, true, false, false, false⟩
      stdout := ⟨⟨[104, 105, 33], 0, 3, true, false, false, false, false⟩, 4⟩ }
  have found : (before.foldl ToolDataInner.call .new).get 0 = some first := by decide +kernel
  have found_later : ((before ++ after).foldl ToolDataInner.call .new).get 0 = some later := by
    decide +kernel
  refine ⟨first, later, found, found_later, rfl, rfl, rfl, ?_⟩
  exact records_move_forward before after 0 first later found (by decide +kernel) found_later

end Records

end MinicoreAgent.ToolData

import MinicoreAgent.ToolAccounting

/-!
# What happens to one record

An operation on the records of a session changes the record of the call it is about, and
enforcing the limits frees parts of any record or removes it. Seen from one record, a run is
a sequence of such changes of a new record.
-/
namespace MinicoreAgent.ToolData

open Tools (Bytes ToolDataStream)

section Changes

/-- A change of one record. -/
inductive RecordChange where
  | invoked (invocation : ToolInvocation)
  | awaiting
  | started (now : Option (List Char))
  | phased (phase : ToolPhase)
  | answered (content : List Char)
  | cancelling
  | pushed (stream : ToolDataStream) (chunk : Bytes) (granted : Nat)
  | ended (stream : ToolDataStream)
  | shortened (stream : ToolDataStream)
  | commanded (command : CommandResult)
  | recorded (recording : ToolRecordingState)
  | fileChanged (change : FileChange)
  | finished (outcome : ToolResultOutcome) (now : Option (List Char))
  | captured (content : List Char)
  | inputFreed
  | resultFreed
  | snapshotsFreed
  | streamFreed (stream : ToolDataStream)

/-- Whether it only frees what a record retains. -/
def RecordChange.frees : RecordChange → Bool
  | .inputFreed | .resultFreed | .snapshotsFreed | .streamFreed _ => true
  | _ => false

/-- How many bytes of process output it brings. -/
def RecordChange.pushedBytes : RecordChange → Nat
  | .pushed _ chunk _ => chunk.length
  | _ => 0

def ToolRecord.changed (record : ToolRecord) : RecordChange → ToolRecord
  | .invoked invocation => record.noteInvocation invocation
  | .awaiting => record.markAwaitingPolicy
  | .started now => record.markRunning now
  | .phased phase => { record with phase := some phase }
  | .answered content => record.noteResult content
  | .cancelling => record.markCancelling
  | .pushed stream chunk granted => record.withStream stream (pushGranted chunk granted)
  | .ended stream => record.withStream stream ToolRecord.endStream
  | .shortened stream => record.withStream stream ToolRecord.cutStream
  | .commanded command => { record with command := some command }
  | .recorded recording => { record with recording := recording }
  | .fileChanged change => record.noteFileChange change
  | .finished outcome now => record.finish outcome now
  | .captured content => record.captureResult content
  | .inputFreed => record.evictInput
  | .resultFreed => record.evictResult
  | .snapshotsFreed => record.evictChange
  | .streamFreed stream => record.evictStream stream

/-- When a change is made: the text of a report where the result was not freed, and what is
freed where it is held. -/
def RecordChange.Applies (record : ToolRecord) : RecordChange → Prop
  | .captured _ => record.result.expired = false
  | .inputFreed => record.holdsInput = true
  | .resultFreed => record.holdsResult = true
  | .snapshotsFreed => record.holdsChange = true
  | .streamFreed stream => record.heldStream = some stream
  | _ => True

variable {ToolRef : Type} [DecidableEq ToolRef]

omit [DecidableEq ToolRef] in
/-- The change that an operation makes to the record of a call. -/
inductive ToolDataCall.Makes : ToolDataCall ToolRef → ToolRef → RecordChange → Prop
  | invoked (toolRef : ToolRef) (invocation : ToolInvocation) :
      Makes (.noteInvocation toolRef invocation) toolRef (.invoked invocation)
  | awaiting (toolRef : ToolRef) : Makes (.markAwaitingPolicy toolRef) toolRef .awaiting
  | started (toolRef : ToolRef) (now : Option (List Char)) :
      Makes (.markRunning toolRef now) toolRef (.started now)
  | phased (toolRef : ToolRef) (text : List Char) (phase : ToolPhase) :
      Makes (.notePhase toolRef text) toolRef (.phased phase)
  | answered (toolRef : ToolRef) (content : List Char) :
      Makes (.noteResult toolRef content) toolRef (.answered content)
  | cancelling (toolRef : ToolRef) : Makes (.markCancelling toolRef) toolRef .cancelling
  | pushed (toolRef : ToolRef) (stream : ToolDataStream) (chunk : Bytes) (granted : Nat) :
      Makes (.noteStreamChunk toolRef stream chunk granted) toolRef (.pushed stream chunk granted)
  | ended (toolRef : ToolRef) (stream : ToolDataStream) :
      Makes (.noteStreamEnd toolRef stream) toolRef (.ended stream)
  | shortened (toolRef : ToolRef) (stream : ToolDataStream) :
      Makes (.noteStreamCut toolRef stream) toolRef (.shortened stream)
  | commanded (toolRef : ToolRef) (command : CommandResult) :
      Makes (.noteCommand toolRef command) toolRef (.commanded command)
  | recorded (toolRef : ToolRef) (recording : ToolRecordingState) :
      Makes (.noteRecording toolRef recording) toolRef (.recorded recording)
  | fileChanged (toolRef : ToolRef) (change : FileChange) :
      Makes (.noteFileChange toolRef change) toolRef (.fileChanged change)
  | finished (toolRef : ToolRef) (outcome : ToolResultOutcome) (now : Option (List Char)) :
      Makes (.finish toolRef outcome now) toolRef (.finished outcome now)
  | reported (results : List (ReportedResult ToolRef)) (now : Option (List Char))
      (result : ReportedResult ToolRef) (member : result ∈ results) :
      Makes (.reconcile results now) result.toolRef (.finished result.outcome now)
  | captured (results : List (ReportedResult ToolRef)) (now : Option (List Char))
      (result : ReportedResult ToolRef) (member : result ∈ results) :
      Makes (.reconcile results now) result.toolRef (.captured result.content)

/-- How many bytes of process output an operation brings. -/
def ToolDataCall.pushedBytes : ToolDataCall ToolRef → Nat
  | .noteStreamChunk _ _ chunk _ => chunk.length
  | _ => 0

/-- A record that arose from a new one by changes from a source, with at most so many bytes
of process output. -/
def Arisen (source : RecordChange → Prop) (pushed : Nat) (record : ToolRecord) : Prop :=
  ∃ (name : List Char) (changes : List RecordChange),
    record = changes.foldl ToolRecord.changed { name := name } ∧
    (∀ change ∈ changes, change.frees = true ∨ source change) ∧
    (changes.map RecordChange.pushedBytes).sum ≤ pushed

variable {source : RecordChange → Prop} {pushed more : Nat} {record : ToolRecord}

theorem Arisen.new (source : RecordChange → Prop) (pushed : Nat) (name : List Char) :
    Arisen source pushed { name := name } :=
  ⟨name, [], rfl, (fun change absent => by cases absent), Nat.zero_le _⟩

theorem Arisen.mono (arisen : Arisen source pushed record) (least : pushed ≤ more) :
    Arisen source more record := by
  obtain ⟨name, changes, made, allowed, few⟩ := arisen
  exact ⟨name, changes, made, allowed, Nat.le_trans few least⟩

theorem Arisen.changed (arisen : Arisen source pushed record) (change : RecordChange)
    (allowed : change.frees = true ∨ source change) :
    Arisen source (pushed + change.pushedBytes) (record.changed change) := by
  obtain ⟨name, changes, made, before, few⟩ := arisen
  refine ⟨name, changes ++ [change], ?_, ?_, ?_⟩
  · rw [List.foldl_append, made]
    rfl
  · intro other member
    rcases List.mem_append.mp member with earlier | last
    · exact before other earlier
    · rw [List.mem_singleton.mp last]
      exact allowed
  · rw [List.map_append, List.sum_append]
    simp only [List.map_cons, List.map_nil, List.sum_cons, List.sum_nil]
    omega

/-- What holds of new records and survives every change holds of what arises, also where it
counts the bytes of process output so far. -/
theorem Arisen.counted (arisen : Arisen source pushed record) {Holds : Nat → ToolRecord → Prop}
    (new : ∀ name, Holds 0 { name := name })
    (step : ∀ count record change, change.frees = true ∨ source change →
      count + change.pushedBytes ≤ pushed → Holds count record →
      Holds (count + change.pushedBytes) (record.changed change)) :
    ∃ count ≤ pushed, Holds count record := by
  obtain ⟨name, changes, rfl, allowed, few⟩ := arisen
  have start := new name
  generalize ({ name := name } : ToolRecord) = first at start
  have within : 0 + (changes.map RecordChange.pushedBytes).sum ≤ pushed := by omega
  clear few
  generalize 0 = count at start within
  induction changes generalizing first count with
  | nil => exact ⟨count, by omega, start⟩
  | cons change rest inductionHypothesis =>
    rw [List.map_cons, List.sum_cons] at within
    have changed := step count first change (allowed change List.mem_cons_self) (by omega) start
    apply inductionHypothesis _ _ _ changed
    · omega
    · intro other member
      exact allowed other (List.mem_cons_of_mem _ member)

theorem Arisen.induct (arisen : Arisen source pushed record) {Holds : ToolRecord → Prop}
    (new : ∀ name, Holds { name := name })
    (step : ∀ record change, Holds record → Holds (record.changed change)) : Holds record := by
  obtain ⟨count, -, holds⟩ := arisen.counted (fun name => new name)
    fun _ record change _ _ holds => step record change holds
  exact holds

end Changes

section Records

namespace ToolDataInner

variable {ToolRef : Type} [DecidableEq ToolRef] {inner next : ToolDataInner ToolRef}
  {toolRef : ToolRef} {Holds Later : ToolRef → ToolRecord → Prop}

/-- What holds of every record. -/
def Every (Holds : ToolRef → ToolRecord → Prop) (inner : ToolDataInner ToolRef) : Prop :=
  ∀ toolRef record, inner.get toolRef = some record → Holds toolRef record

theorem Every.modify (every : Every Holds inner) {change : ToolRecord → ToolRecord}
    (weaker : ∀ toolRef record, Holds toolRef record → Later toolRef record)
    (changed : ∀ record, inner.get toolRef = some record → Holds toolRef record →
      Later toolRef (change record)) :
    Every Later (inner.modify toolRef change) := by
  intro other record found
  by_cases same : other = toolRef
  · subst same
    cases before : inner.get other with
    | none =>
      rw [modify_none before, before] at found
      cases found
    | some present =>
      rw [get_modify_self before] at found
      cases found
      exact changed present before (every other present before)
  · rw [get_modify_other same] at found
    exact weaker other record (every other record found)

theorem Every.resize (every : Every Holds inner) {change : ToolRecord → ToolRecord}
    (weaker : ∀ toolRef record, Holds toolRef record → Later toolRef record)
    (changed : ∀ record, inner.get toolRef = some record → Holds toolRef record →
      Later toolRef (change record)) :
    Every Later (inner.resize toolRef change) := by
  intro other record found
  have modified : Every Later (inner.modify toolRef change) := every.modify weaker changed
  exact modified other record found

theorem Every.track (every : Every Holds inner) (name : List Char)
    (new : inner.get toolRef = none → Holds toolRef { name := name }) :
    Every Holds (inner.track toolRef name) := by
  rw [ToolDataInner.track]
  split
  · exact every
  · rename_i absent
    intro other record found
    change Keyed.find (inner.records ++ [(toolRef, _)]) other = some record at found
    rw [Keyed.find_append] at found
    rcases Option.or_eq_some_iff.mp found with earlier | ⟨-, last⟩
    · exact every other record earlier
    · split at last
      · rename_i same
        cases last
        exact same ▸ new (Option.not_isSome_iff_eq_none.mp absent)
      · cases last

/-- Freeing a part of a record, in whatever record that holds it. -/
theorem Every.victim (every : Every Holds inner) {holds : ToolRecord → Bool}
    {freed : ToolRecord → Nat} {evict : ToolRecord → ToolRecord}
    (kept : ∀ toolRef record, holds record = true → Holds toolRef record →
      Holds toolRef (evict record))
    (evicted : inner.evictVictim holds freed evict = some next) : Every Holds next := by
  obtain ⟨victim, sought, rfl⟩ := Option.map_eq_some_iff.mp evicted
  have held := List.find?_some sought
  intro other record found
  change (inner.modify victim evict).get other = some record at found
  by_cases same : other = victim
  · subst same
    cases before : inner.get other with
    | none =>
      rw [modify_none before, before] at found
      cases found
    | some present =>
      rw [before, Option.any_some] at held
      rw [get_modify_self before] at found
      cases found
      exact kept other present held (every other present before)
  · rw [get_modify_other same] at found
    exact every other record found

/-- What survives that parts are freed. -/
def Lasts (Holds : ToolRef → ToolRecord → Prop) : Prop :=
  ∀ toolRef record (change : RecordChange), change.frees = true → Holds toolRef record →
    Holds toolRef (record.changed change)

/-- What survives that parts are freed which a record holds. -/
def Outlasts (Holds : ToolRef → ToolRecord → Prop) : Prop :=
  ∀ toolRef record (change : RecordChange), change.frees = true → change.Applies record →
    Holds toolRef record → Holds toolRef (record.changed change)

omit [DecidableEq ToolRef] in
theorem Lasts.outlasts (lasts : Lasts Holds) : Outlasts Holds :=
  fun toolRef record change frees _ => lasts toolRef record change frees

theorem Every.evicted (every : Every Holds inner) (lasts : Outlasts Holds)
    (evicted : inner.evictSomeBytes = some next) : Every Holds next := by
  rw [evictSomeBytes] at evicted
  rcases Option.or_eq_some_iff.mp evicted with input | ⟨-, others⟩
  · exact every.victim (fun toolRef record => lasts toolRef record .inputFreed rfl) input
  · rcases Option.or_eq_some_iff.mp others with result | ⟨-, others⟩
    · exact every.victim (fun toolRef record => lasts toolRef record .resultFreed rfl) result
    · rcases Option.or_eq_some_iff.mp others with snapshots | stream
      · exact every.victim (fun toolRef record => lasts toolRef record .snapshotsFreed rfl)
          snapshots
      · refine every.victim ?_ stream.2
        intro toolRef record held holds
        obtain ⟨stream, found⟩ := Option.isSome_iff_exists.mp held
        have freed := lasts toolRef record (.streamFreed stream) rfl found holds
        rw [evictHeldStream, found]
        exact freed

theorem Every.removed (every : Every Holds inner) (removed : inner.removeOldest = some next) :
    Every Holds next := by
  obtain ⟨victim, -, records, -, -⟩ := remove_oldest_spec removed
  intro other record found
  rw [ToolDataInner.get, records] at found
  by_cases same : other = victim
  · rw [same, Keyed.find_erase_self] at found
    cases found
  · rw [Keyed.find_erase_other same] at found
    exact every other record found

/-- What every turn of a loop keeps, the loop keeps. -/
theorem loop_keeps {turn : ToolDataInner ToolRef → Option (ToolDataInner ToolRef)}
    {Kept : ToolDataInner ToolRef → Prop}
    (kept : ∀ inner next, turn inner = some next → Kept inner → Kept next) {fuel : Nat}
    {last : ToolDataInner ToolRef} (ended : loop turn fuel inner = some last)
    (before : Kept inner) : Kept last := by
  induction fuel generalizing inner with
  | zero =>
    rw [loop] at ended
    split at ended
    · cases ended
      exact before
    · cases ended
  | succ fuel inductionHypothesis =>
    rw [loop] at ended
    split at ended
    · cases ended
      exact before
    · rename_i next turned
      exact inductionHypothesis ended (kept inner next turned before)

theorem Every.enforced (every : Every Holds inner) (lasts : Outlasts Holds) :
    Every Holds inner.enforceLimits := by
  have enforced := enforce_limits_eq inner
  obtain ⟨evicted, first, second⟩ := Option.bind_eq_some_iff.mp enforced
  apply loop_keeps _ second
  · apply loop_keeps _ first every
    intro inner next turned before
    rw [evictTurn] at turned
    split at turned
    · cases turned
    · rcases Option.or_eq_some_iff.mp turned with freed | ⟨-, removed⟩
      · exact before.evicted lasts freed
      · exact before.removed removed
  · intro inner next turned before
    rw [removeTurn] at turned
    split at turned
    · cases turned
    · exact before.removed turned

end ToolDataInner

end Records

section Runs

namespace ToolDataInner

variable {ToolRef : Type} [DecidableEq ToolRef] {inner : ToolDataInner ToolRef}
  {source : ToolRef → RecordChange → Prop} {pushed : Nat}

/-- Every record arose from a new one. -/
def Arose (source : ToolRef → RecordChange → Prop) (pushed : Nat) (inner : ToolDataInner ToolRef) :
    Prop :=
  Every (fun toolRef record => Arisen (source toolRef) pushed record) inner

omit [DecidableEq ToolRef] in
theorem lasts_arisen (source : ToolRef → RecordChange → Prop) (pushed : Nat) :
    Lasts fun toolRef record => Arisen (source toolRef) pushed record := by
  intro toolRef record change frees arisen
  have changed := arisen.changed change (.inl frees)
  have nothing : change.pushedBytes = 0 := by
    cases change with
    | pushed stream chunk granted => cases frees
    | _ => rfl
  rw [nothing, Nat.add_zero] at changed
  exact changed

theorem Arose.modify (arose : Arose source pushed inner) (toolRef : ToolRef)
    (change : RecordChange) (allowed : source toolRef change) :
    Arose source (pushed + change.pushedBytes)
      (inner.modify toolRef fun record => record.changed change) :=
  Every.modify arose (fun _ _ arisen => arisen.mono (Nat.le_add_right _ _))
    fun _ _ arisen => arisen.changed change (.inr allowed)

theorem Arose.resize (arose : Arose source pushed inner) (toolRef : ToolRef)
    (change : RecordChange) (allowed : source toolRef change) :
    Arose source (pushed + change.pushedBytes)
      (inner.resize toolRef fun record => record.changed change) :=
  Every.resize arose (fun _ _ arisen => arisen.mono (Nat.le_add_right _ _))
    fun _ _ arisen => arisen.changed change (.inr allowed)

theorem Arose.track (arose : Arose source pushed inner) (toolRef : ToolRef) (name : List Char) :
    Arose source pushed (inner.track toolRef name) :=
  Every.track arose name fun _ => .new _ _ name

theorem Arose.enforced (arose : Arose source pushed inner) :
    Arose source pushed inner.enforceLimits :=
  Every.enforced arose (lasts_arisen source pushed).outlasts

theorem Arose.reconciled (arose : Arose source pushed inner) (now : Option (List Char))
    (result : ReportedResult ToolRef)
    (finished : source result.toolRef (.finished result.outcome now))
    (captured : source result.toolRef (.captured result.content)) :
    Arose source pushed (inner.reconcileResult now result) := by
  have tracked := arose.track result.toolRef result.toolName
  have ended := tracked.modify result.toolRef (.finished result.outcome now) finished
  rw [reconcileResult]
  split
  · exact ended.resize result.toolRef (.captured result.content) captured
  · exact ended

/-- Each operation makes its changes. -/
theorem Arose.call (arose : Arose source pushed inner) (operation : ToolDataCall ToolRef)
    (allowed : ∀ toolRef change, operation.Makes toolRef change → source toolRef change) :
    Arose source (pushed + operation.pushedBytes) (inner.call operation) := by
  cases operation with
  | noteRequested toolRef name => exact (arose.track toolRef name).enforced
  | noteInvocation toolRef invocation =>
    have made := allowed toolRef _ (.invoked toolRef invocation)
    exact ((arose.track toolRef invocation.toolName).resize toolRef _ made).enforced
  | markAwaitingPolicy toolRef =>
    exact arose.modify toolRef _ (allowed toolRef _ (.awaiting toolRef))
  | markRunning toolRef now =>
    exact arose.modify toolRef _ (allowed toolRef _ (.started toolRef now))
  | notePhase toolRef text =>
    rw [ToolDataInner.call]
    split
    · exact arose
    · rename_i phase _
      exact arose.modify toolRef _ (allowed toolRef _ (.phased toolRef text phase))
  | noteResult toolRef content =>
    exact (arose.resize toolRef _ (allowed toolRef _ (.answered toolRef content))).enforced
  | markCancelling toolRef =>
    exact arose.modify toolRef _ (allowed toolRef _ (.cancelling toolRef))
  | noteStreamChunk toolRef stream chunk granted =>
    have made := allowed toolRef _ (.pushed toolRef stream chunk granted)
    have resized := arose.resize toolRef _ made
    rw [ToolDataInner.call]
    split
    · split
      · exact resized.enforced
      · exact resized
    · intro other record found
      exact (arose other record found).mono (Nat.le_add_right _ _)
  | noteStreamEnd toolRef stream =>
    exact arose.resize toolRef _ (allowed toolRef _ (.ended toolRef stream))
  | noteStreamCut toolRef stream =>
    exact arose.resize toolRef _ (allowed toolRef _ (.shortened toolRef stream))
  | noteCommand toolRef command =>
    have made := allowed toolRef _ (.commanded toolRef command)
    rw [ToolDataInner.call]
    split
    · exact (arose.resize toolRef _ made).enforced
    · exact arose
  | noteRecording toolRef recording =>
    exact arose.modify toolRef _ (allowed toolRef _ (.recorded toolRef recording))
  | noteFileChange toolRef change =>
    exact (arose.resize toolRef _ (allowed toolRef _ (.fileChanged toolRef change))).enforced
  | finish toolRef outcome now =>
    exact arose.modify toolRef _ (allowed toolRef _ (.finished toolRef outcome now))
  | reconcile results now =>
    have reconciled (part : List (ReportedResult ToolRef)) (within : part ⊆ results) :
        ∀ inner, Arose source pushed inner → Arose source pushed
          (part.foldl (fun inner result => inner.reconcileResult now result) inner) := by
      clear arose
      induction part with
      | nil => exact fun inner arose => arose
      | cons result rest inductionHypothesis =>
        intro inner arose
        have member := within List.mem_cons_self
        apply inductionHypothesis (fun other later => within (List.mem_cons_of_mem _ later))
        apply arose.reconciled now result
        · exact allowed _ _ (.reported results now result member)
        · exact allowed _ _ (.captured results now result member)
    exact (reconciled results (fun _ member => member) inner arose).enforced

/-- Every record of a run arose by what its operations did to it, and by what was freed. -/
theorem Arose.run (arose : Arose source pushed inner) (operations : List (ToolDataCall ToolRef))
    (allowed : ∀ operation ∈ operations, ∀ toolRef change, operation.Makes toolRef change →
      source toolRef change) :
    Arose source (pushed + (operations.map ToolDataCall.pushedBytes).sum)
      (operations.foldl ToolDataInner.call inner) := by
  induction operations generalizing inner pushed with
  | nil => exact arose
  | cons operation rest inductionHypothesis =>
    have called := arose.call operation (allowed operation List.mem_cons_self)
    have rested := inductionHypothesis called fun other member =>
      allowed other (List.mem_cons_of_mem _ member)
    rw [List.map_cons, List.sum_cons, ← Nat.add_assoc]
    exact rested

theorem Arose.new : Arose source 0 (ToolDataInner.new : ToolDataInner ToolRef) := by
  intro toolRef record found
  cases found

end ToolDataInner

end Runs

end MinicoreAgent.ToolData

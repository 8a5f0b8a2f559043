import MinicoreAgent.InputQueue

/-!
# The shared state of one loaded Session

`SessionInner`, the queue, the completion catalog of the load and the objects
shared by reference counting: started loops with their completion channel, and
manual compaction operations with their atomic state. A loop, an operation and a
task are named by their position in the list that owns them, which stands for the
identity of the shared object; the Runtime draws fresh loop ids.

Each function is one critical section of the source. `locked` says that a loop
installation holds the inner lock across its own queue section, the only section
another thread can observe in the middle, and then only through the queue.

Fields that begin with a past participle and are named as logs are history that
the source does not store: they record what was accepted, handed over, returned
and sampled, so that properties of whole runs can be read off a state.
-/
namespace MinicoreAgent.SessionState

open InputQueue

abbrev LoopId := Nat
abbrev OperationRef := Nat
abbrev TaskId := Nat

inductive SessionBlockReason
  | persistence
  | internal
  deriving DecidableEq, Repr

inductive TurnPersistence
  | persisted
  | failed
  deriving DecidableEq, Repr

/-- `LoopOutcomeView` without the payloads of its variants. -/
inductive LoopOutcomeView
  | unknown
  | completed
  | cancelled
  | failed
  deriving DecidableEq, Repr

/-- The value of a turn's completion channel. -/
inductive TurnCompletion
  | finished (outcome : LoopOutcomeView) (persistence : TurnPersistence)
  | internal
  deriving DecidableEq, Repr

/-- A loop the Runtime started for a queue entry. -/
structure StartedLoop where
  prompt : Entry
  generation : Nat
  completion : Option TurnCompletion
  deriving DecidableEq, Repr

/-- What the loop was started for. -/
def StartedLoop.claim (started : StartedLoop) : Claim :=
  { entry := started.prompt, generation := started.generation }

structure ActiveLoop where
  turn : LoopId
  input : QueueItem
  task : TaskId
  generation : Nat
  deriving DecidableEq, Repr

inductive CompactionStatus
  | noop
  | compacted
  | failed
  | unknownWrite
  deriving DecidableEq, Repr

/-- Accounting of the summary utility; it is only passed on. -/
abbrev CompactionUtilityUsage := Nat

structure CompactionResult where
  operationId : String
  status : CompactionStatus
  beforeTokens : Option Nat
  afterTokens : Option Nat
  coveredLoopCount : Nat
  coveredItemCount : Nat
  retainedItemCount : Nat
  utilityUsage : Option CompactionUtilityUsage
  failureKind : Option String
  deriving DecidableEq, Repr

/-- The four values of the operation's atomic state. -/
inductive OperationState
  | running
  | cancelled
  | committing
  | completed
  deriving DecidableEq, Repr

/-- A manual compaction. `cancelGranted`, `commitBegun`, `projected` and
`published` record a cancel that returned true, a passed commit point, a
published projection and the values sent on the result channel. -/
structure CompactionOperation where
  operationId : String
  state : OperationState
  cancellation : Bool
  result : Option CompactionResult
  task : Option TaskId
  cancelGranted : Bool
  commitBegun : Bool
  projected : Bool
  published : List CompactionResult
  deriving DecidableEq, Repr

namespace CompactionOperation

def new (operationId : String) : CompactionOperation :=
  { operationId := operationId, state := .running, cancellation := false, result := none,
    task := none, cancelGranted := false, commitBegun := false, projected := false,
    published := [] }

def cancel (operation : CompactionOperation) : Bool × CompactionOperation :=
  if operation.state = .running then
    (true, { operation with state := .cancelled, cancellation := true, cancelGranted := true })
  else (false, operation)

def cancellationRequested (operation : CompactionOperation) : Bool :=
  operation.state = .cancelled || operation.cancellation

def tryBeginCommit (operation : CompactionOperation) : Bool × CompactionOperation :=
  if operation.state = .running then
    (true, { operation with state := .committing, commitBegun := true })
  else (false, operation)

def commitStarted (operation : CompactionOperation) : Bool := operation.state = .committing

def isCompleted (operation : CompactionOperation) : Bool := operation.state = .completed

def failedResult (operation : CompactionOperation) (failureKind : String)
    (utilityUsage : Option CompactionUtilityUsage) : CompactionResult :=
  { operationId := operation.operationId, status := .failed, beforeTokens := none,
    afterTokens := none, coveredLoopCount := 0, coveredItemCount := 0,
    retainedItemCount := 0, utilityUsage := utilityUsage, failureKind := some failureKind }

def unknownWriteResult (operation : CompactionOperation) : CompactionResult :=
  { operation.failedResult "write_outcome_unknown" none with status := .unknownWrite }

/-- Settles the final result: a cancellation that won the race overrides. -/
def complete (operation : CompactionOperation) (result : CompactionResult) :
    CompactionResult × CompactionOperation :=
  match operation.state with
  | .running => (result, { operation with state := .completed })
  | .cancelled =>
    (operation.failedResult "cancelled" result.utilityUsage,
      { operation with state := .completed })
  | .committing => (result, { operation with state := .completed })
  | .completed => (result, operation)

def publish (operation : CompactionOperation) (result : CompactionResult) :
    CompactionOperation :=
  { operation with result := some result, published := operation.published ++ [result] }

end CompactionOperation

inductive CompactionPhase
  | preparing
  | summarizing
  | merging
  | committing
  deriving DecidableEq, Repr

structure CompactionProgress where
  operationId : String
  phase : CompactionPhase
  coveredItemCount : Nat
  retainedItemCount : Nat
  deriving DecidableEq, Repr

inductive CompletionKind
  | reported
  | internalError
  deriving DecidableEq, Repr

inductive ResultAvailability
  | live
  | stored
  | unavailable
  deriving DecidableEq, Repr

inductive UnavailableReason
  | expired
  | tooLarge
  | resourceLimit
  | internalError
  | notRetained
  deriving DecidableEq, Repr

structure CompletionEntry where
  seq : Nat
  loopId : LoopId
  inputId : Option Nat
  completionKind : CompletionKind
  outcomeKind : Option LoopOutcomeView
  persistence : Option TurnPersistence
  persistenceUncertain : Bool
  availability : ResultAvailability
  unavailableReason : Option UnavailableReason
  afterSavedLoopId : Option LoopId
  deriving DecidableEq, Repr

/-- The part of the result catalog that belongs to this load. `registered` logs
every entry ever inserted. -/
structure LoadResults where
  through : Nat
  entries : List CompletionEntry
  registered : List CompletionEntry
  deriving DecidableEq, Repr

/-- `ResultCatalog::insert` for this load: the entry gets the next sequence
number, and the limits of the whole catalog decide how many of the oldest
entries leave. -/
def LoadResults.insert (results : LoadResults) (entry : CompletionEntry) (evicted : Nat) :
    LoadResults :=
  let numbered := { entry with seq := results.through + 1 }
  { through := results.through + 1
    entries := (results.entries ++ [numbered]).drop evicted
    registered := results.registered ++ [numbered] }

structure CompletionWindow where
  throughSeq : Nat
  retainedFromSeq : Nat
  entries : List CompletionEntry
  truncated : Bool
  deriving DecidableEq, Repr

/-- `ResultCatalog::window` of a registered load. -/
def LoadResults.window (results : LoadResults) : CompletionWindow :=
  let retainedFrom := (results.entries.head?.map (·.seq)).getD (results.through + 1)
  { throughSeq := results.through, retainedFromSeq := retainedFrom,
    entries := results.entries, truncated := 1 < retainedFrom }

structure SessionInner where
  active : Option ActiveLoop
  blocked : Option SessionBlockReason
  closing : Bool
  closed : Bool
  lastSaved : Option LoopId
  uncertainLoop : Option LoopId
  revision : Nat
  compaction : Option OperationRef
  pendingCompaction : Option OperationRef
  compactionProgress : Option CompactionProgress
  lastCompactionResult : Option CompactionResult
  usedCompactionIds : List String
  deriving DecidableEq, Repr

/-- `LoopStatusView`. -/
inductive LoopStatus
  | unknown
  | starting
  | runningModel
  | runningTools
  | waitingForInput
  | finishing
  | finished
  deriving DecidableEq, Repr

/-- What a loop handle reports about its Runtime loop. -/
structure RuntimeState where
  status : LoopStatus
  requestIndex : Nat
  pendingInteraction : Option String
  deriving DecidableEq, Repr

inductive SessionExecution
  | none
  | starting (input : QueueItem)
  | running (loopId : LoopId) (input : QueueItem) (requestIndex : Nat) (phase : LoopStatus)
  | finishing (loopId : LoopId) (input : QueueItem) (requestIndex : Nat)
  deriving DecidableEq, Repr

structure SnapshotInteraction where
  loopId : LoopId
  requestIndex : Nat
  interaction : String
  deriving DecidableEq, Repr

structure SessionSnapshot where
  revision : Nat
  execution : SessionExecution
  pendingInteraction : Option SnapshotInteraction
  queue : Queue
  compaction : Option CompactionProgress
  blockReason : Option SessionBlockReason
  completions : CompletionWindow
  deriving DecidableEq, Repr

/-- How an accepted input reached the Runtime: as the prompt of the loop that was
started for it, or handed to a running loop by `take`. -/
inductive Departure
  | prompt (loopId : LoopId) (entry : Entry)
  | taken (loopId : LoopId) (entry : Entry)
  deriving DecidableEq, Repr

def Departure.entry : Departure → Entry
  | .prompt _ entry => entry
  | .taken _ entry => entry

def Departure.loopId : Departure → LoopId
  | .prompt loopId _ => loopId
  | .taken loopId _ => loopId

/-- The input a departure made the prompt of a loop, if it did. -/
def Departure.prompted : Departure → Option Entry
  | .prompt _ entry => some entry
  | .taken _ _ => none

structure Session where
  queue : QueueState
  inner : SessionInner
  loops : List StartedLoop
  operations : List CompactionOperation
  results : LoadResults
  locked : Bool
  accepted : List Nat
  departed : List Departure
  returned : List Entry
  sampled : List SessionSnapshot
  deriving DecidableEq, Repr

namespace Session

/-- `Session::new`. -/
def new : Session :=
  { queue := QueueState.default
    inner :=
      { active := none, blocked := none, closing := false, closed := false, lastSaved := none,
        uncertainLoop := none, revision := 0, compaction := none, pendingCompaction := none,
        compactionProgress := none, lastCompactionResult := none, usedCompactionIds := [] }
    loops := []
    operations := []
    results := { through := 0, entries := [], registered := [] }
    locked := false
    accepted := []
    departed := []
    returned := []
    sampled := [] }

/-- The value of a loop's completion channel. -/
def completionOf (session : Session) (loopId : LoopId) : Option TurnCompletion :=
  session.loops[loopId]?.bind (·.completion)

/-- An operation reference that is completed. -/
def operationCompleted (session : Session) (operation : OperationRef) : Bool :=
  session.operations[operation]?.any (·.isCompleted)

/-- The result channel of an operation reference holds a value. -/
def operationPublished (session : Session) (operation : OperationRef) : Bool :=
  session.operations[operation]?.any (·.result.isSome)

def cancellationRequested (session : Session) (operation : OperationRef) : Bool :=
  session.operations[operation]?.any (·.cancellationRequested)

/-- Replace the shared operation object. -/
def modifyOperation (session : Session) (operation : OperationRef)
    (change : CompactionOperation → CompactionOperation) : Session :=
  { session with operations := session.operations.modify operation change }

/-- Nothing may start while the Session is blocked, closing, or runs or prepares
a manual compaction. -/
def canStart (session : Session) : Bool :=
  session.inner.blocked.isNone && !session.inner.closing &&
    session.inner.pendingCompaction.isNone &&
    session.inner.compaction.all session.operationCompleted

/-- Claims the head for a new busy period when nothing runs and nothing holds
the queue back. -/
def claimStart (session : Session) : Except AgentError (Option Claim × QueueState) :=
  if session.queue.running || session.queue.paused || !session.canStart then
    .ok (none, session.queue)
  else session.queue.startHead

/-- The state after the new entry is queued and before a claim is tried. -/
def pushed (session : Session) (entry : Entry) : Session :=
  { session with
    queue :=
      { session.queue with
        nextId := entry.id
        items := session.queue.items ++ [entry]
        paused := false }
    accepted := session.accepted ++ [entry.id] }

/-- The state after the pause is cleared and before a claim is tried. -/
def resumed (session : Session) : Session :=
  { session with queue := { session.queue with paused := false } }

/-- Queues one input and claims a turn start when the Session is idle. `valid`
is the verdict of `UserInput::text` and the byte limit on the text. -/
def acceptInput (session : Session) (mode : InputMode) (text : String) (valid : Bool)
    (acceptedAt : Option String) :
    Except AgentError (Nat × Option Claim × Session) :=
  if !valid then .error .invalidInput
  else if session.inner.blocked.isSome then .error .sessionBlocked
  else if session.inner.closing then .error .sessionBusy
  else if session.queue.items.length ≥ maxQueuedInputs then .error .inputQueueFull
  else if !session.queue.running && session.canStart && session.queue.generation = u64Max then
    .error .internal
  else
    match checkedSucc session.queue.nextId with
    | .error error => .error error
    | .ok id =>
      let queued := session.pushed
        { id := id, mode := mode, input := text, acceptedAt := acceptedAt }
      match queued.claimStart with
      | .error error => .error error
      | .ok (claim, queue) => .ok (id, claim, { queued with queue := queue })

def removeInput (session : Session) (id : Nat) : Except AgentError (String × Session) :=
  match session.queue.removeInput id with
  | .error error => .error error
  | .ok (entry, queue) =>
    .ok (entry.input, { session with queue := queue, returned := session.returned ++ [entry] })

def recallInputs (session : Session) : List String × Session :=
  let (recalled, queue) := session.queue.recallInputs
  (recalled.map (·.input),
    { session with queue := queue, returned := session.returned ++ recalled })

def acceptResume (session : Session) : Except AgentError (Option Claim × Session) :=
  if session.inner.blocked.isSome then .error .sessionBlocked
  else if !session.queue.running && !session.queue.items.isEmpty && session.canStart &&
      session.queue.generation = u64Max then
    .error .internal
  else
    match session.resumed.claimStart with
    | .error error => .error error
    | .ok (claim, queue) => .ok (claim, { session.resumed with queue := queue })

/-- `SessionInputs::take` by the loop that the Runtime runs under this id. -/
def take (session : Session) (loopId : LoopId) : Session :=
  match session.loops[loopId]? with
  | none => session
  | some started =>
    let (taken, queue) := session.queue.take started.generation
    { session with
      queue := queue
      departed := session.departed ++ taken.map (Departure.taken loopId) }

/-- `abandon_claim`. -/
def abandonClaim (session : Session) (entry : Entry) (pause : Bool) : Session :=
  { session with queue := session.queue.abandonClaim entry pause }

/-- `validate_install_state`. -/
def validateInstallState (session : Session) (successorOf : Option LoopId) :
    Except AgentError Unit :=
  if session.inner.blocked.isSome then .error .sessionBlocked
  else
    let activeMatches :=
      match session.inner.active, successorOf with
      | none, none => true
      | some active, some turn => active.turn = turn
      | _, _ => false
    if session.inner.closing || !activeMatches || session.inner.pendingCompaction.isSome ||
        session.inner.compaction.any (fun operation => !session.operationCompleted operation) then
      .error .sessionBusy
    else .ok ()

/-- The first half of `install_loop_with_boundary`: the inner lock is taken, the
state validated, and `AgentLoop::start` has spawned the Runtime loop, which may
take inputs from now on. -/
def beginInstall (session : Session) (claim : Claim) : LoopId × Session :=
  (session.loops.length,
    { session with
      loops := session.loops ++
        [{ prompt := claim.entry, generation := claim.generation, completion := none }]
      departed := session.departed ++ [.prompt session.loops.length claim.entry]
      locked := true })

/-- The second half: the entry is no longer starting, the loop becomes the active
one, and the inner lock is released. -/
def finishInstall (session : Session) (claim : Claim) (loopId : LoopId) (task : TaskId) :
    Session :=
  { session with
    queue := { session.queue with starting := none }
    inner :=
      { session.inner with
        active := some
          { turn := loopId, input := claim.entry.item, task := task,
            generation := claim.generation } }
    locked := false }

/-- Send on the completion channel of a loop. -/
def sendCompletion (session : Session) (loopId : LoopId) (completion : TurnCompletion) :
    Session :=
  { session with
    loops := session.loops.modify loopId (fun started =>
      { started with completion := some completion }) }

/-- `CompletionGuard::publish_internal` of an armed guard. -/
def publishInternal (session : Session) (turn : LoopId) (evicted : Nat) : Session :=
  let entry : CompletionEntry :=
    { seq := 0, loopId := turn
      inputId := (session.inner.active.filter (fun active => active.turn = turn)).map
        (·.input.id)
      completionKind := .internalError, outcomeKind := none, persistence := none
      persistenceUncertain := false, availability := .unavailable
      unavailableReason := some .internalError, afterSavedLoopId := session.inner.lastSaved }
  let queue :=
    { session.queue with paused := session.queue.paused || !session.queue.items.isEmpty }
  let blocked : Session :=
    { session with
      inner := { session.inner with blocked := some .internal }
      queue := queue.endPeriod
      results := session.results.insert entry evicted }
  blocked.sendCompletion turn .internal

/-- What the driver knows about a joined and persisted turn. -/
structure TurnReport where
  outcome : LoopOutcomeView
  persistence : TurnPersistence
  uncertain : Bool
  sourceRetained : Bool
  unavailable : Option UnavailableReason
  deriving DecidableEq, Repr

/-- `complete_turn`; the flag says whether the busy period continues with a
successor. -/
def completeTurn (session : Session) (turn : LoopId) (report : TurnReport) (evicted : Nat) :
    Bool × Session :=
  let eligible := report.persistence = .persisted && report.outcome = .completed
  let continuePeriod := eligible && !session.inner.closing && session.queue.head.isSome
  let queue :=
    if continuePeriod then session.queue
    else
      let paused :=
        { session.queue with
          paused := session.queue.paused || (!eligible && !session.queue.items.isEmpty) }
      paused.endPeriod
  let entry : CompletionEntry :=
    { seq := 0, loopId := turn
      inputId := session.inner.active.map (·.input.id)
      completionKind := .reported, outcomeKind := some report.outcome
      persistence := some report.persistence, persistenceUncertain := report.uncertain
      availability :=
        if report.persistence = .persisted then .stored
        else if report.sourceRetained then .live else .unavailable
      unavailableReason := report.unavailable
      afterSavedLoopId := session.inner.lastSaved }
  let inner :=
    if report.persistence = .persisted then { session.inner with lastSaved := some turn }
    else session.inner
  let registered : Session :=
    { session with
      queue := queue, inner := inner, results := session.results.insert entry evicted }
  (continuePeriod,
    registered.sendCompletion turn (.finished report.outcome report.persistence))

/-- The locked part of `start_successor`: claims the head for the driver, or ends
the busy period. -/
def claimSuccessor (session : Session) : Option Claim × Session :=
  if session.inner.closing then
    let queue :=
      { session.queue with paused := session.queue.paused || !session.queue.items.isEmpty }
    (none, { session with queue := queue.endPeriod })
  else
    match session.queue.startHead with
    | .error _ =>
      let queue := { session.queue with paused := true }
      (none, { session with queue := queue.endPeriod })
    | .ok (none, queue) => (none, { session with queue := queue.endPeriod })
    | .ok (some claim, queue) => (some claim, { session with queue := queue })

/-- The locked part of `start_after_compaction`. -/
def claimAfterCompaction (session : Session) : Option Claim × Session :=
  match session.claimStart with
  | .error _ => (none, { session with queue := { session.queue with paused := true } })
  | .ok (claim, queue) => (claim, { session with queue := queue })

/-- `clear_active_task`. -/
def clearActiveTask (session : Session) (task : TaskId) : Session :=
  if session.inner.active.any (fun active => active.task = task) then
    { session with inner := { session.inner with active := none } }
  else session

/-- Forget a reaped operation if it is still the Session's own. -/
def clearCompaction (session : Session) (operation : OperationRef) : Session :=
  if session.inner.compaction = some operation then
    { session with
      inner := { session.inner with compaction := none, compactionProgress := none } }
  else session

def block (session : Session) (reason : SessionBlockReason) : Session :=
  { session with inner := { session.inner with blocked := some reason } }

/-- `check_compaction_admissible`. -/
def checkCompactionAdmissible (session : Session) : Except AgentError Unit :=
  if session.inner.blocked.isSome then .error .sessionBlocked
  else if session.inner.closing || session.inner.pendingCompaction.isSome ||
      session.inner.active.any (fun active => (session.completionOf active.turn).isNone) ||
      session.inner.compaction.any (fun operation => !session.operationPublished operation) then
    .error .sessionBusy
  else .ok ()

def maxUsedCompactionIds : Nat := 4096

/-- `admit_compaction` with `install_admission`. -/
def admitCompaction (session : Session) (operationId : String) :
    Except AgentError (OperationRef × Session) :=
  if session.inner.usedCompactionIds.contains operationId then .error .invalidState
  else
    match session.checkCompactionAdmissible with
    | .error error => .error error
    | .ok () =>
      if session.queue.running then .error .sessionBusy
      else if session.inner.usedCompactionIds.length ≥ maxUsedCompactionIds then
        .error .invalidInput
      else
        .ok (session.operations.length,
          { session with
            operations := session.operations ++ [CompactionOperation.new operationId]
            inner :=
              { session.inner with
                usedCompactionIds := session.inner.usedCompactionIds ++ [operationId]
                pendingCompaction := some session.operations.length } })

/-- The locked part of `start_compaction` after cleanup: the admitted operation
becomes the running one and its worker is spawned as `task`. -/
def startCompaction (session : Session) (operation : OperationRef) (task : TaskId)
    (coveredItemCount retainedItemCount : Nat) : Except AgentError Session :=
  if session.inner.blocked.isSome then .error .sessionBlocked
  else if session.inner.closing || session.inner.active.isSome ||
      session.inner.compaction.isSome then .error .sessionBusy
  else
    let owned := session.modifyOperation operation (fun shared =>
      { shared with task := some task })
    .ok
      { owned with
        inner :=
          { session.inner with
            compaction := some operation
            pendingCompaction := none
            compactionProgress := some
              { operationId :=
                  (session.operations[operation]?.map (·.operationId)).getD ""
                phase := .preparing
                coveredItemCount := coveredItemCount
                retainedItemCount := retainedItemCount } } }

/-- The locked part of `publish_compaction_result`: clears visible progress and
settles the result. -/
def completeCompaction (session : Session) (operation : OperationRef)
    (result : CompactionResult) : CompactionResult × Session :=
  match session.operations[operation]? with
  | none => (result, session)
  | some shared =>
    let (settled, _) := shared.complete result
    let completed := session.modifyOperation operation (fun shared => (shared.complete result).2)
    (settled,
      { completed with
        inner :=
          { session.inner with
            compactionProgress :=
              if session.inner.compaction = some operation then none
              else session.inner.compactionProgress
            lastCompactionResult := some settled } })

/-- `set_compaction_phase`. -/
def setCompactionPhase (session : Session) (operation : OperationRef)
    (phase : CompactionPhase) : Session :=
  if session.inner.compaction = some operation then
    { session with
      inner :=
        { session.inner with
          compactionProgress := session.inner.compactionProgress.map (fun progress =>
            { progress with phase := phase }) } }
  else session

/-- `begin_shutdown`. -/
def beginShutdown (session : Session) : Session :=
  let cancelAll := (session.inner.compaction.toList ++ session.inner.pendingCompaction.toList).foldl
    (fun current operation => current.modifyOperation operation (fun shared => shared.cancel.2))
    session
  { cancelAll with inner := { cancelAll.inner with closing := true } }

/-- `begin_close`: refused while an input is queued or starting. -/
def beginClose (session : Session) : Except AgentError Session :=
  if !session.queue.items.isEmpty || session.queue.starting.isSome then .error .sessionBusy
  else .ok session.beginShutdown

/-- The loop a snapshot treats as active: a completed predecessor still owns the
busy period until the driver settles its tail and decides about a successor. -/
def observedActive (session : Session) : Option ActiveLoop :=
  session.inner.active.filter (fun active =>
    (session.completionOf active.turn).isNone || session.queue.running)

/-- The execution a snapshot shows, given what the active loop's handle reports. -/
def execution (session : Session) (runtime : RuntimeState) : SessionExecution :=
  match session.queue.starting with
  | some entry => .starting entry.item
  | none =>
    match session.observedActive with
    | none => .none
    | some active =>
      match runtime.status with
      | .finishing | .finished => .finishing active.turn active.input runtime.requestIndex
      | phase => .running active.turn active.input runtime.requestIndex phase

/-- `Session::sample`. -/
def sample (session : Session) (runtime : RuntimeState) :
    Except AgentError (SessionSnapshot × Session) :=
  if session.inner.closed then .error .staleLoad
  else
    match checkedSucc session.inner.revision with
    | .error error => .error error
    | .ok revision =>
      let snapshot : SessionSnapshot :=
        { revision := revision
          execution := session.execution runtime
          pendingInteraction := session.observedActive.bind (fun active =>
            runtime.pendingInteraction.map (fun interaction =>
              { loopId := active.turn, requestIndex := runtime.requestIndex,
                interaction := interaction }))
          queue := session.queue.view
          compaction := session.inner.compactionProgress
          blockReason := session.inner.blocked
          completions := session.results.window }
      .ok (snapshot,
        { session with
          inner := { session.inner with revision := revision }
          sampled := session.sampled ++ [snapshot] })

variable {session after : Session}

/-- A claim is taken only from an idle, unpaused queue of a Session that can
start. -/
theorem claim_start_some {claim : Claim} {queue : QueueState}
    (claimed : session.claimStart = .ok (some claim, queue)) :
    session.queue.running = false ∧ session.queue.paused = false ∧ session.canStart = true ∧
      session.queue.startHead = .ok (some claim, queue) := by
  unfold claimStart at claimed
  split at claimed
  · cases claimed
  · rename_i idle
    simp only [Bool.or_eq_true, Bool.not_eq_eq_eq_not, Bool.not_true, not_or,
      Bool.not_eq_true, Bool.not_eq_false] at idle
    exact ⟨idle.1.1, idle.1.2, idle.2, claimed⟩

/-- Without a claim the queue is unchanged, and it is running, paused, held back
or empty. -/
theorem claim_start_none {queue : QueueState}
    (unclaimed : session.claimStart = .ok (none, queue)) :
    queue = session.queue ∧
      (session.queue.running = true ∨ session.queue.paused = true ∨
        session.canStart = false ∨ session.queue.items = []) := by
  unfold claimStart at unclaimed
  split at unclaimed
  · rename_i busy
    cases unclaimed
    refine ⟨rfl, ?_⟩
    simp only [Bool.or_eq_true, Bool.not_eq_eq_eq_not, Bool.not_true] at busy
    rcases busy with (running | paused) | held
    · exact .inl running
    · exact .inr (.inl paused)
    · exact .inr (.inr (.inl held))
  · obtain ⟨empty, rfl⟩ := QueueState.start_head_empty unclaimed
    exact ⟨rfl, .inr (.inr (.inr empty))⟩

/-- A claim fails only on an idle, unpaused, nonempty queue whose generation
counter is exhausted. -/
theorem claim_start_error {error : AgentError} (failed : session.claimStart = .error error) :
    session.queue.running = false ∧ session.queue.paused = false ∧ session.canStart = true ∧
      session.queue.items ≠ [] ∧ u64Max ≤ session.queue.generation := by
  unfold claimStart at failed
  split at failed
  · cases failed
  · rename_i idle
    simp only [Bool.or_eq_true, Bool.not_eq_eq_eq_not, Bool.not_true, not_or,
      Bool.not_eq_true, Bool.not_eq_false] at idle
    obtain ⟨nonempty, exhausted⟩ := QueueState.start_head_error failed
    exact ⟨idle.1.1, idle.1.2, idle.2, nonempty, exhausted⟩

/-- An accepted input found room, was numbered next, and was queued before the
claim was tried. -/
theorem accept_input_ok {mode : InputMode} {text : String} {valid : Bool}
    {acceptedAt : Option String} {id : Nat} {claim : Option Claim}
    (done : session.acceptInput mode text valid acceptedAt = .ok (id, claim, after)) :
    session.inner.blocked = none ∧ session.inner.closing = false ∧
      session.queue.items.length < maxQueuedInputs ∧
      ∃ entry queue, entry.id = session.queue.nextId + 1 ∧ id = entry.id ∧
        (session.pushed entry).claimStart = .ok (claim, queue) ∧
        after = { session.pushed entry with queue := queue } := by
  unfold acceptInput at done
  split at done
  · cases done
  split at done
  · cases done
  split at done
  · cases done
  split at done
  · cases done
  split at done
  · cases done
  rename_i _ unblocked notClosing room _
  split at done
  · cases done
  · rename_i number added
    obtain rfl := checked_succ_ok added
    dsimp only at done
    split at done
    · cases done
    · rename_i claim queue claimed
      cases done
      exact ⟨by simpa using unblocked, by simpa using notClosing, by omega, _, queue, rfl, rfl,
        claimed, rfl⟩

/-- A resumed queue is unpaused before the claim is tried. -/
theorem accept_resume_ok {claim : Option Claim}
    (done : session.acceptResume = .ok (claim, after)) :
    ∃ queue, session.resumed.claimStart = .ok (claim, queue) ∧
      after = { session.resumed with queue := queue } := by
  unfold acceptResume at done
  split at done
  · cases done
  split at done
  · cases done
  split at done
  · cases done
  · rename_i claim queue claimed
    cases done
    exact ⟨queue, claimed, rfl⟩

/-- A sample changes nothing but the revision. -/
theorem sample_ok {runtime : RuntimeState} {snapshot : SessionSnapshot}
    (done : session.sample runtime = .ok (snapshot, after)) :
    session.inner.closed = false ∧ snapshot.revision = session.inner.revision + 1 ∧
      snapshot.execution = session.execution runtime ∧
      snapshot.queue = session.queue.view ∧
      snapshot.completions = session.results.window ∧
      after =
        { session with
          inner := { session.inner with revision := session.inner.revision + 1 }
          sampled := session.sampled ++ [snapshot] } := by
  unfold sample at done
  split at done
  · cases done
  · rename_i loaded
    split at done
    · cases done
    · rename_i revision added
      obtain rfl := checked_succ_ok added
      cases done
      exact ⟨by simpa using loaded, rfl, rfl, rfl, rfl, rfl⟩

/-- Cancelling operations at shutdown leaves everything but their state, and
closes the Session. -/
theorem begin_shutdown_frame (session : Session) :
    ∃ operations, session.beginShutdown =
      { session with
        operations := operations
        inner := { session.inner with closing := true } } := by
  have cancels (references : List OperationRef) (current : Session) :
      ∃ operations, references.foldl (fun current operation =>
        current.modifyOperation operation (fun shared => shared.cancel.2)) current =
          { current with operations := operations } := by
    induction references generalizing current with
    | nil => exact ⟨current.operations, rfl⟩
    | cons reference rest inductionHypothesis =>
      obtain ⟨operations, equal⟩ := inductionHypothesis
        (current.modifyOperation reference (fun shared => shared.cancel.2))
      exact ⟨operations, equal⟩
  obtain ⟨operations, equal⟩ := cancels
    (session.inner.compaction.toList ++ session.inner.pendingCompaction.toList) session
  exact ⟨operations, by simp only [beginShutdown, equal]⟩

/-- Closing is refused unless the queue is empty and nothing starts. -/
theorem begin_close_ok (done : session.beginClose = .ok after) :
    session.queue.items = [] ∧ session.queue.starting = none ∧
      after = session.beginShutdown := by
  unfold beginClose at done
  split at done
  · cases done
  · rename_i empty
    cases done
    simp only [Bool.or_eq_true, Bool.not_eq_eq_eq_not, Bool.not_true, not_or,
      Bool.not_eq_false, List.isEmpty_iff, Option.isSome_iff_ne_none, ne_eq,
      Decidable.not_not] at empty
    exact ⟨empty.1, empty.2, rfl⟩

/-- Claiming for a successor changes only the queue. -/
theorem claim_successor_frame {claim : Option Claim}
    (done : session.claimSuccessor = (claim, after)) :
    ∃ queue, after = { session with queue := queue } := by
  unfold claimSuccessor at done
  split at done
  · cases done
    exact ⟨_, rfl⟩
  · split at done <;> cases done <;> exact ⟨_, rfl⟩

/-- So does claiming after a compaction. -/
theorem claim_after_compaction_frame {claim : Option Claim}
    (done : session.claimAfterCompaction = (claim, after)) :
    ∃ queue, after = { session with queue := queue } := by
  unfold claimAfterCompaction at done
  split at done <;> cases done <;> exact ⟨_, rfl⟩

/-- A started compaction was admitted to an unblocked Session that is not closing
and has neither an active loop nor another compaction. It changes only the
operations and the compaction slots. -/
theorem start_compaction_ok {operation : OperationRef} {task : TaskId} {covered retained : Nat}
    (done : session.startCompaction operation task covered retained = .ok after) :
    session.inner.blocked = none ∧ session.inner.closing = false ∧
      session.inner.active = none ∧ session.inner.compaction = none ∧
      ∃ progress, after =
        { session.modifyOperation operation (fun shared => { shared with task := some task }) with
          inner :=
            { session.inner with
              compaction := some operation
              pendingCompaction := none
              compactionProgress := some progress } } := by
  unfold startCompaction at done
  split at done
  · cases done
  rename_i unblocked
  split at done
  · cases done
  rename_i free
  simp only [Bool.or_eq_true, not_or, Bool.not_eq_true, Option.isSome_eq_false_iff,
    Option.isNone_iff_eq_none] at free
  cases done
  exact ⟨by simpa using unblocked, free.1.1, free.1.2, free.2, _, rfl⟩

/-- An admitted compaction finds the Session unblocked, not closing, without a
busy period and without an admission, an uncompleted turn or an unpublished
compaction. It gets the pending slot. -/
theorem admit_compaction_ok {operationId : String} {operation : OperationRef}
    (done : session.admitCompaction operationId = .ok (operation, after)) :
    session.inner.pendingCompaction = none ∧ session.queue.running = false ∧
      (∀ current, session.inner.compaction = some current →
        session.operationPublished current = true) ∧
      operation = session.operations.length ∧
      session.inner.blocked = none ∧
      after =
        { session with
          operations := session.operations ++ [CompactionOperation.new operationId]
          inner :=
            { session.inner with
              usedCompactionIds := session.inner.usedCompactionIds ++ [operationId]
              pendingCompaction := some session.operations.length } } := by
  unfold admitCompaction at done
  split at done
  · cases done
  split at done
  · cases done
  rename_i admissible
  split at done
  · cases done
  rename_i idle
  split at done
  · cases done
  cases done
  unfold checkCompactionAdmissible at admissible
  split at admissible
  · cases admissible
  rename_i unblocked
  split at admissible
  · cases admissible
  rename_i free
  simp only [Bool.or_eq_true, not_or, Bool.not_eq_true, Option.isSome_eq_false_iff,
    Option.isNone_iff_eq_none] at free
  refine ⟨free.1.1.2, by simpa using idle, ?_, rfl, by simpa using unblocked, rfl⟩
  intro current slot
  simpa [slot] using free.2

end Session

end MinicoreAgent.SessionState

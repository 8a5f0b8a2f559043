import MinicoreAgent.SessionState
import MinicoreAgent.Lib.Runs

/-!
# The concurrent parties of one Session

Client calls, turn drivers and compaction workers run interleaved over the shared
Session. Each party is a process whose constructor says at which point of the
source it stands and what it owns there; one step of the system is one critical
section, or one wait that ended, of one process. Sections that take the inner
lock are disabled while an installation holds it.

What the Runtime, the disk, the clock and the scheduler decide is part of the
action, so a run of the system is one interleaving together with one behaviour of
everything outside the Session. A driver or worker that panics or is dropped is
the action `die`; a caller that drops its future at a suspension point is `drop`.
-/
namespace MinicoreAgent.SessionSystem

open InputQueue SessionState

/-- `AgentLoop::start` refusals, as `map_loop_start_error` groups them. -/
inductive LoopStartError
  | invalidInput
  | invalidConfig
  | other
  deriving DecidableEq, Repr

def mapLoopStartError : LoopStartError → AgentError
  | .invalidInput => .invalidInput
  | .invalidConfig => .invalidSessionSettings
  | .other => .internal

/-- On whose behalf a claim is started: `start_claim` of a push or resume,
`start_after_compaction` at the end of an operation (with the result that is
still to be published, if the operation ran), or `start_successor` on the driver
of the turn it follows. -/
inductive Launcher
  | call
  | ending (operation : OperationRef) (result : Option CompactionResult) (failed : Bool)
  | successor (turn : LoopId)
  deriving DecidableEq, Repr

inductive LaunchStage
  | configure
  | install
  | installing (loopId : LoopId)
  deriving DecidableEq, Repr

/-- The sections of `cleanup_finished` and `reap_finished_compaction`. -/
inductive CleanupStage
  | begin
  | joinTask (task : TaskId)
  | joined (task : TaskId) (failed : Bool)
  | reap
  | reapOperation (operation : OperationRef)
  | joinOperation (operation : OperationRef)
  | reaped (operation : OperationRef) (failed : Bool)
  deriving DecidableEq, Repr

/-- The two callers of `cleanup_finished`. -/
inductive CleanupCaller
  | call (claim : Claim)
  | compaction (operation : OperationRef)
  deriving DecidableEq, Repr

/-- What a worker was given when its operation started. -/
structure CompactionReservation where
  historyLen : Nat
  previousCoveredItemCount : Nat
  deriving DecidableEq, Repr

/-- A generated summary and the history prefix it covers. -/
structure GeneratedSummary where
  beforeTokens : Nat
  afterTokens : Nat
  coveredLoopCount : Nat
  coveredItemCount : Nat
  utilityUsage : Option CompactionUtilityUsage
  deriving DecidableEq, Repr

inductive WorkerStage
  | preparing
  | checking (generated : GeneratedSummary)
  | committing (generated : GeneratedSummary)
  | writing (generated : GeneratedSummary)
  | projecting (generated : GeneratedSummary)
  deriving DecidableEq, Repr

inductive DriverStage
  | joining
  | persisting (outcome : LoopOutcomeView)
  | completing (report : Session.TurnReport)
  | tail (continuePeriod : Bool)
  deriving DecidableEq, Repr

inductive Process
  | cleanup (caller : CleanupCaller) (stage : CleanupStage)
  | launch (launcher : Launcher) (claim : Claim) (stage : LaunchStage)
  | abandon (launcher : Launcher) (claim : Claim) (pause : Bool)
  | admitted (operation : OperationRef)
  | starting (operation : OperationRef)
  | dropping (operation : OperationRef)
  | worker (operation : OperationRef) (reservation : CompactionReservation)
      (stage : WorkerStage)
  | completing (operation : OperationRef) (result : CompactionResult) (failed : Bool)
  | claiming (operation : OperationRef) (result : Option CompactionResult) (failed : Bool)
  | publishing (operation : OperationRef) (result : CompactionResult) (failed : Bool)
  | driver (turn : LoopId) (stage : DriverStage)
  | cancelling (operation : OperationRef)
  | finished (failed : Bool) (joined : Bool)
  deriving DecidableEq, Repr

structure System where
  session : Session
  processes : List Process
  deriving DecidableEq, Repr

/-- How the history append of a turn ended. -/
inductive AppendOutcome
  | written
  | notWritten
  | unknown
  deriving DecidableEq, Repr

/-- What the environment contributes to one step of a process. -/
inductive Choice
  | go
  | refuse (error : LoopStartError)
  | report (outcome : LoopOutcomeView)
  | noReport (evicted : Nat)
  | append (outcome : AppendOutcome) (sourceRetained : Bool)
      (unavailable : Option UnavailableReason)
  | register (evicted : Nat)
  | spawn (reservation : CompactionReservation)
  | phase (phase : CompactionPhase)
  | failure (kind : String) (utilityUsage : Option CompactionUtilityUsage)
  | noop (coveredLoopCount : Nat)
  | generated (summary : GeneratedSummary)
  | commit (deadlinePassed historyChanged : Bool)
  | reject (deadlinePassed : Bool)
  | storeError
  | unknownWrite
  deriving DecidableEq, Repr

inductive Action
  | acceptInput (mode : InputMode) (text : String) (valid : Bool) (acceptedAt : Option String)
  | removeInput (id : Nat)
  | recallInputs
  | acceptResume
  | take (loopId : LoopId)
  | admitCompaction (operationId : String)
  | cancelCompaction (operationId : String)
  | beginShutdown
  | beginClose
  | closeActive (task : TaskId)
  | closeCompaction (operation : OperationRef)
  | unregister
  | sample (runtime : RuntimeState)
  | evict (count : Nat)
  | advance (index : Nat) (choice : Choice)
  | drop (index : Nat)
  | die (index : Nat) (evicted : Nat)
  deriving DecidableEq, Repr

/-- Only a push or resume that finds the Session busy keeps the queue unpaused
when it gives its claim back. -/
def Launcher.pauseOn : Launcher → AgentError → Bool
  | .call, error => error ≠ .sessionBusy
  | .ending _ _ _, _ => true
  | .successor _, _ => true

/-- The turn a new loop must follow on the same worker. -/
def Launcher.successorOf : Launcher → Option LoopId
  | .successor turn => some turn
  | _ => none

/-- How a process goes on once its claim is settled without a loop of its own to
drive. -/
def Launcher.settled : Launcher → Process
  | .ending operation (some result) failed => .publishing operation result failed
  | .ending _ none failed => .finished failed false
  | .call => .finished false false
  | .successor _ => .finished false false

/-- `cleanup_finished` succeeded. -/
def CleanupCaller.cleaned : CleanupCaller → Process
  | .call claim => .launch .call claim .configure
  | .compaction operation => .starting operation

/-- `cleanup_finished` failed. -/
def CleanupCaller.refused : CleanupCaller → AgentError → Process
  | .call claim, error => .abandon .call claim (Launcher.call.pauseOn error)
  | .compaction operation, _ => .dropping operation

/-- `failed_compaction_with_usage`. -/
def failedCompaction (operation : CompactionOperation) (reservation : CompactionReservation)
    (kind : String) (utilityUsage : Option CompactionUtilityUsage) : CompactionResult :=
  { operation.failedResult kind utilityUsage with
    retainedItemCount := reservation.historyLen }

/-- `noop_compaction`. -/
def noopCompaction (operation : CompactionOperation) (reservation : CompactionReservation)
    (coveredLoopCount : Nat) : CompactionResult :=
  { operationId := operation.operationId, status := .noop, beforeTokens := none,
    afterTokens := none, coveredLoopCount := coveredLoopCount,
    coveredItemCount := reservation.previousCoveredItemCount,
    retainedItemCount := reservation.historyLen - reservation.previousCoveredItemCount,
    utilityUsage := none, failureKind := none }

/-- The result of a definite summary write. -/
def compactedResult (operation : CompactionOperation) (reservation : CompactionReservation)
    (generated : GeneratedSummary) : CompactionResult :=
  { operationId := operation.operationId, status := .compacted,
    beforeTokens := some generated.beforeTokens, afterTokens := some generated.afterTokens,
    coveredLoopCount := generated.coveredLoopCount,
    coveredItemCount := generated.coveredItemCount,
    retainedItemCount := reservation.historyLen - generated.coveredItemCount,
    utilityUsage := generated.utilityUsage, failureKind := none }

/-- The result of a summary write whose outcome is unknown. -/
def unknownWriteCompaction (operation : CompactionOperation)
    (reservation : CompactionReservation) (generated : GeneratedSummary) : CompactionResult :=
  { operationId := operation.operationId, status := .unknownWrite,
    beforeTokens := some generated.beforeTokens, afterTokens := some generated.afterTokens,
    coveredLoopCount := generated.coveredLoopCount,
    coveredItemCount := reservation.previousCoveredItemCount,
    retainedItemCount := reservation.historyLen - reservation.previousCoveredItemCount,
    utilityUsage := generated.utilityUsage,
    failureKind := some "write_outcome_unknown" }

/-- The result of a rejected commit: a cancellation is reported before a passed
deadline, and a passed deadline before a changed history. -/
def rejectedCompaction (operation : CompactionOperation) (reservation : CompactionReservation)
    (generated : GeneratedSummary) (deadlinePassed : Bool) : CompactionResult :=
  let kind :=
    if operation.cancellationRequested then "cancelled"
    else if deadlinePassed then "timeout" else "history_changed"
  failedCompaction operation reservation kind generated.utilityUsage

/-- The result `CompactionCompletionGuard::drop` publishes. -/
def guardResult (operation : CompactionOperation) : CompactionResult :=
  if operation.commitStarted then operation.unknownWriteResult
  else if operation.cancellationRequested then operation.failedResult "cancelled" none
  else operation.failedResult "internal" none

namespace System

/-- A freshly loaded Session without any process. -/
def start : System := { session := Session.new, processes := [] }

/-- Replace one process and the shared state. -/
def put (system : System) (index : Nat) (process : Process) (session : Session) : System :=
  { session := session, processes := system.processes.set index process }

/-- Add a process. -/
def spawn (system : System) (process : Process) : System :=
  { system with processes := system.processes ++ [process] }

/-- A call that claimed the head goes on in the background. -/
def spawnCall (system : System) (claim : Option Claim) (session : Session) : System :=
  match claim with
  | none => { system with session := session }
  | some claim => { system with session := session }.spawn (.cleanup (.call claim) .begin)

/-- `OwnedTask::join` of a finished task: only the first join sees a failure. -/
def joinTask (system : System) (task : TaskId) : Option (Bool × System) :=
  match system.processes[task]? with
  | some (.finished failed joined) =>
    some (failed && !joined,
      { system with processes := system.processes.set task (.finished failed true) })
  | _ => none

/-- One section of `cleanup_finished`. -/
def advanceCleanup (system : System) (index : Nat) (caller : CleanupCaller) :
    CleanupStage → Option System
  | .begin =>
    if system.session.locked then none
    else if system.session.inner.blocked.isSome then
      some (system.put index (caller.refused .sessionBlocked) system.session)
    else
      match system.session.inner.active with
      | some active =>
        if (system.session.completionOf active.turn).isSome then
          some (system.put index (.cleanup caller (.joinTask active.task)) system.session)
        else some (system.put index (.cleanup caller .reap) system.session)
      | none => some (system.put index (.cleanup caller .reap) system.session)
  | .joinTask task =>
    (system.joinTask task).map fun (failed, joined) =>
      joined.put index (.cleanup caller (.joined task failed)) system.session
  | .joined task true =>
    if system.session.locked then none
    else
      some (system.put index (caller.refused .sessionBlocked)
        ((system.session.clearActiveTask task).block .internal))
  | .joined task false =>
    if system.session.locked then none
    else if system.session.inner.blocked.isSome then
      some (system.put index (caller.refused .sessionBlocked) system.session)
    else
      some (system.put index (.cleanup caller .reap) (system.session.clearActiveTask task))
  | .reap =>
    if system.session.locked then none
    else
      match system.session.inner.compaction with
      | none => some (system.put index caller.cleaned system.session)
      | some operation =>
        some (system.put index (.cleanup caller (.reapOperation operation)) system.session)
  | .reapOperation operation =>
    if system.session.operationPublished operation then
      some (system.put index (.cleanup caller (.joinOperation operation)) system.session)
    else some (system.put index (caller.refused .sessionBusy) system.session)
  | .joinOperation operation =>
    match system.session.operations[operation]?.bind (·.task) with
    | none =>
      some (system.put index (.cleanup caller (.reaped operation false)) system.session)
    | some task =>
      (system.joinTask task).map fun (failed, joined) =>
        joined.put index (.cleanup caller (.reaped operation failed)) system.session
  | .reaped operation true =>
    if system.session.locked then none
    else
      some (system.put index (caller.refused .sessionBlocked)
        ((system.session.clearCompaction operation).block .internal))
  | .reaped operation false =>
    if system.session.locked then none
    else some (system.put index caller.cleaned (system.session.clearCompaction operation))

/-- One section of starting a claimed turn: the execution config, the validated
start of the Runtime loop, and the installation of the loop with its driver. -/
def advanceLaunch (system : System) (index : Nat) (launcher : Launcher) (claim : Claim) :
    LaunchStage → Choice → Option System
  | .configure, .go =>
    if system.session.locked then none
    else some (system.put index (.launch launcher claim .install) system.session)
  | .configure, .refuse _ =>
    if system.session.locked then none
    else
      some (system.put index
        (.abandon launcher claim (launcher.pauseOn .invalidSessionSettings)) system.session)
  | .install, choice =>
    if system.session.locked then none
    else
      match system.session.validateInstallState launcher.successorOf, choice with
      | .error error, .go =>
        some (system.put index (.abandon launcher claim (launcher.pauseOn error))
          system.session)
      | .ok (), .refuse error =>
        some (system.put index
          (.abandon launcher claim (launcher.pauseOn (mapLoopStartError error))) system.session)
      | .ok (), .go =>
        let (loopId, session) := system.session.beginInstall claim
        some (system.put index (.launch launcher claim (.installing loopId)) session)
      | _, _ => none
  | .installing loopId, .go =>
    match launcher with
    | .successor _ =>
      some (system.put index (.driver loopId .joining)
        (system.session.finishInstall claim loopId index))
    | launcher =>
      some ((system.put index launcher.settled
        (system.session.finishInstall claim loopId system.processes.length)).spawn
          (.driver loopId .joining))
  | _, _ => none

/-- One section of a compaction worker between its start and its result. -/
def advanceWorker (system : System) (index : Nat) (operation : OperationRef)
    (shared : CompactionOperation) (reservation : CompactionReservation) :
    WorkerStage → Choice → Option System
  | .preparing, .phase phase =>
    if system.session.locked then none
    else
      some { system with session := system.session.setCompactionPhase operation phase }
  | .preparing, .failure kind utilityUsage =>
    some (system.put index
      (.completing operation (failedCompaction shared reservation kind utilityUsage) false)
      system.session)
  | .preparing, .noop coveredLoopCount =>
    some (system.put index
      (.completing operation (noopCompaction shared reservation coveredLoopCount) false)
      system.session)
  | .preparing, .generated generated =>
    some (system.put index (.worker operation reservation (.checking generated))
      system.session)
  | .checking generated, .commit deadlinePassed historyChanged =>
    if system.session.locked then none
    else if shared.cancellationRequested || deadlinePassed || system.session.inner.closing ||
        system.session.inner.compaction ≠ some operation || historyChanged then
      some (system.put index
        (.completing operation
          (rejectedCompaction shared reservation generated deadlinePassed) false)
        system.session)
    else
      some (system.put index (.worker operation reservation (.committing generated))
        system.session)
  | .committing generated, .reject deadlinePassed =>
    some (system.put index
      (.completing operation (rejectedCompaction shared reservation generated deadlinePassed)
        false) system.session)
  | .committing generated, .storeError =>
    some (system.put index
      (.completing operation
        (failedCompaction shared reservation "store" generated.utilityUsage) false)
      system.session)
  | .committing generated, .commit deadlinePassed historyChanged =>
    if system.session.locked then none
    else if system.session.inner.closing || system.session.inner.compaction ≠ some operation ||
        historyChanged || shared.cancellationRequested || deadlinePassed ||
        !shared.tryBeginCommit.1 then
      some (system.put index
        (.completing operation
          (rejectedCompaction shared reservation generated deadlinePassed) false)
        system.session)
    else
      some (system.put index (.worker operation reservation (.writing generated))
        (system.session.modifyOperation operation (fun current => current.tryBeginCommit.2)))
  | .writing generated, .storeError =>
    some (system.put index
      (.completing operation
        (failedCompaction shared reservation "store" generated.utilityUsage) false)
      system.session)
  | .writing generated, .unknownWrite =>
    some (system.put index
      (.completing operation (unknownWriteCompaction shared reservation generated) false)
      system.session)
  | .writing generated, .commit _ historyChanged =>
    if system.session.locked then none
    else if !system.session.inner.closing &&
        system.session.inner.compaction = some operation && !historyChanged then
      some (system.put index (.worker operation reservation (.projecting generated))
        system.session)
    else
      some (system.put index
        (.completing operation (compactedResult shared reservation generated) false)
        system.session)
  | .projecting generated, .go =>
    some (system.put index
      (.completing operation (compactedResult shared reservation generated) false)
      (system.session.modifyOperation operation (fun current =>
        { current with projected := true })))
  | _, _ => none

/-- One section of `run_turn`. -/
def advanceDriver (system : System) (index : Nat) (turn : LoopId) :
    DriverStage → Choice → Option System
  | .joining, .report outcome =>
    some (system.put index (.driver turn (.persisting outcome)) system.session)
  | .joining, .noReport evicted =>
    if system.session.locked then none
    else
      some (system.put index (.finished false false)
        (system.session.publishInternal turn evicted))
  | .persisting outcome, .append .written sourceRetained unavailable =>
    if system.session.locked then none
    else
      some (system.put index
        (.driver turn (.completing
          { outcome := outcome, persistence := .persisted, uncertain := false,
            sourceRetained := sourceRetained, unavailable := unavailable }))
        { system.session with inner := { system.session.inner with blocked := none } })
  | .persisting outcome, .append .notWritten sourceRetained unavailable =>
    some (system.put index
      (.driver turn (.completing
        { outcome := outcome, persistence := .failed, uncertain := false,
          sourceRetained := sourceRetained, unavailable := unavailable }))
      system.session)
  | .persisting outcome, .append .unknown sourceRetained unavailable =>
    if system.session.locked then none
    else
      some (system.put index
        (.driver turn (.completing
          { outcome := outcome, persistence := .failed, uncertain := true,
            sourceRetained := sourceRetained, unavailable := unavailable }))
        { system.session with
          inner :=
            { system.session.inner with
              blocked := some .persistence
              uncertainLoop := some turn } })
  | .completing report, .register evicted =>
    if system.session.locked then none
    else
      let (continuePeriod, session) := system.session.completeTurn turn report evicted
      some (system.put index (.driver turn (.tail continuePeriod)) session)
  | .tail false, .go => some (system.put index (.finished false false) system.session)
  | .tail true, .go =>
    if system.session.locked then none
    else
      match system.session.claimSuccessor with
      | (none, session) => some (system.put index (.finished false false) session)
      | (some claim, session) =>
        some (system.put index (.launch (.successor turn) claim .configure) session)
  | _, _ => none

/-- One step of the process at `index`. -/
def advance (system : System) (index : Nat) (choice : Choice) : Process → Option System
  | .cleanup caller stage =>
    if choice = .go then system.advanceCleanup index caller stage else none
  | .launch launcher claim stage => system.advanceLaunch index launcher claim stage choice
  | .abandon launcher claim pause =>
    some (system.put index launcher.settled (system.session.abandonClaim claim.entry pause))
  | .admitted operation =>
    if system.session.cancellationRequested operation then
      if system.session.locked then none
      else
        match system.session.operations[operation]? with
        | none => none
        | some shared =>
          some (system.put index
            (.completing operation (shared.failedResult "cancelled" none) false)
            { system.session with
              inner := { system.session.inner with pendingCompaction := none } })
    else some (system.put index (.cleanup (.compaction operation) .begin) system.session)
  | .starting operation =>
    match choice with
    | .spawn reservation =>
      if system.session.locked then none
      else
        match system.session.startCompaction operation system.processes.length
            reservation.previousCoveredItemCount
            (reservation.historyLen - reservation.previousCoveredItemCount) with
        | .error _ => some (system.put index (.dropping operation) system.session)
        | .ok session =>
          some ((system.put index (.finished false false) session).spawn
            (.worker operation reservation .preparing))
    | _ => none
  | .dropping operation =>
    if system.session.locked then none
    else if system.session.inner.pendingCompaction = some operation then
      some (system.put index (.claiming operation none false)
        { system.session with
          inner := { system.session.inner with pendingCompaction := none } })
    else some (system.put index (.finished false false) system.session)
  | .worker operation reservation stage =>
    match system.session.operations[operation]? with
    | none => none
    | some shared => system.advanceWorker index operation shared reservation stage choice
  | .completing operation result failed =>
    if system.session.locked then none
    else
      let (settled, session) := system.session.completeCompaction operation result
      some (system.put index (.claiming operation (some settled) failed) session)
  | .claiming operation result failed =>
    if system.session.locked then none
    else
      match system.session.claimAfterCompaction with
      | (none, session) =>
        some (system.put index (Launcher.ending operation result failed).settled session)
      | (some claim, session) =>
        some (system.put index (.launch (.ending operation result failed) claim .configure)
          session)
  | .publishing operation result failed =>
    some (system.put index (.finished failed false)
      (system.session.modifyOperation operation (fun shared => shared.publish result)))
  | .driver turn stage => system.advanceDriver index turn stage choice
  | .cancelling operation =>
    some (system.put index (.finished false false)
      (system.session.modifyOperation operation (fun shared => shared.cancel.2)))
  | .finished _ _ => none

/-- A caller drops its future while it is suspended. A dropped claim gives the
entry back; a dropped admission is cleared by its own destructor. -/
def dropCall (system : System) (index : Nat) : Process → Option System
  | .cleanup (.call claim) stage =>
    match stage with
    | .begin | .joinTask _ | .joinOperation _ =>
      some (system.put index (.finished false false)
        (system.session.abandonClaim claim.entry false))
    | _ => none
  | .cleanup (.compaction operation) stage =>
    match stage with
    | .joinTask _ | .joinOperation _ =>
      some (system.put index (.dropping operation) system.session)
    | _ => none
  | .admitted operation => some (system.put index (.dropping operation) system.session)
  | .starting operation => some (system.put index (.dropping operation) system.session)
  | _ => none

/-- A driver or a worker is dropped or panics. The completion guards run: an
armed turn guard publishes an internal completion, a claim held for a successor
is given back, and an armed compaction guard publishes a result. -/
def dieProcess (system : System) (index : Nat) (evicted : Nat) : Process → Option System
  | .driver turn stage =>
    match stage with
    | .tail _ => some (system.put index (.finished true false) system.session)
    | _ =>
      if system.session.locked then none
      else
        some (system.put index (.finished true false)
          (system.session.publishInternal turn evicted))
  | .launch (.successor _) claim stage =>
    match stage with
    | .installing _ => none
    | _ =>
      some (system.put index (.finished true false)
        (system.session.abandonClaim claim.entry false))
  | .abandon (.successor _) claim _ =>
    some (system.put index (.finished true false)
      (system.session.abandonClaim claim.entry false))
  | .worker operation _ _ =>
    match system.session.operations[operation]? with
    | none => none
    | some shared =>
      some (system.put index (.completing operation (guardResult shared) true) system.session)
  | _ => none

/-- Find the operation a `cancel_compaction` request names. -/
def findOperation (session : Session) (operationId : String) : Option OperationRef :=
  (session.inner.pendingCompaction.toList ++ session.inner.compaction.toList).find?
    (fun operation =>
      session.operations[operation]?.any (fun shared => shared.operationId = operationId))

/-- One step of the system. A request that fails leaves no trace and is no step. -/
def step (system : System) : Action → Option System
  | .acceptInput mode text valid acceptedAt =>
    if system.session.locked then none
    else
      match system.session.acceptInput mode text valid acceptedAt with
      | .error _ => none
      | .ok (_, claim, session) => some (system.spawnCall claim session)
  | .removeInput id =>
    match system.session.removeInput id with
    | .error _ => none
    | .ok (_, session) => some { system with session := session }
  | .recallInputs => some { system with session := system.session.recallInputs.2 }
  | .acceptResume =>
    if system.session.locked then none
    else
      match system.session.acceptResume with
      | .error _ => none
      | .ok (claim, session) => some (system.spawnCall claim session)
  | .take loopId => some { system with session := system.session.take loopId }
  | .admitCompaction operationId =>
    if system.session.locked then none
    else
      match system.session.admitCompaction operationId with
      | .error _ => none
      | .ok (operation, session) =>
        some ({ system with session := session }.spawn (.admitted operation))
  | .cancelCompaction operationId =>
    if system.session.locked then none
    else
      (findOperation system.session operationId).map fun operation =>
        system.spawn (.cancelling operation)
  | .beginShutdown =>
    if system.session.locked then none
    else some { system with session := system.session.beginShutdown }
  | .beginClose =>
    if system.session.locked then none
    else
      match system.session.beginClose with
      | .error _ => none
      | .ok session => some { system with session := session }
  | .closeActive task =>
    if system.session.locked || !system.session.inner.closing then none
    else
      (system.joinTask task).map fun (_, joined) =>
        { joined with session := system.session.clearActiveTask task }
  | .closeCompaction operation =>
    if system.session.locked || !system.session.inner.closing then none
    else
      match system.session.operations[operation]?.bind (·.task) with
      | none => none
      | some task =>
        (system.joinTask task).map fun (_, joined) =>
          { joined with session := system.session.clearCompaction operation }
  | .unregister =>
    if system.session.locked then none
    else
      some
        { system with
          session := { system.session with inner := { system.session.inner with closed := true } } }
  | .sample runtime =>
    if system.session.locked then none
    else
      match system.session.sample runtime with
      | .error _ => none
      | .ok (_, session) => some { system with session := session }
  | .evict count =>
    some
      { system with
        session :=
          { system.session with
            results :=
              { system.session.results with
                entries := system.session.results.entries.drop count } } }
  | .advance index choice =>
    system.processes[index]?.bind (system.advance index choice)
  | .drop index => system.processes[index]?.bind (system.dropCall index)
  | .die index evicted => system.processes[index]?.bind (system.dieProcess index evicted)

/-- The states some run of the Session reaches. -/
def Reachable (system : System) : Prop := Runs.Reachable step start system

end System

end MinicoreAgent.SessionSystem

import MinicoreAgent.SessionSystem

/-!
# What one step can do

The step function is inverted once. Every step is a client request, a section of
one process, a join of a finished task, or a shutdown that reaps one. Each
constructor names the guards under which the step happens and the exact state it
leaves, with the Session functions unopened. All invariants are derived from
these cases; none looks into the step function again.
-/
namespace MinicoreAgent.SessionSystem

open InputQueue SessionState

/-- Whether a process moved on, was dropped by its caller, or died. -/
inductive Manner
  | advanced
  | dropped
  | died
  deriving DecidableEq

/-- Client requests that took effect, with the processes they leave behind. -/
inductive ClientStep (session : Session) : Session → List Process → Prop
  | accepted (mode : InputMode) (text : String) (acceptedAt : Option String) (id : Nat)
      (claim : Option Claim) (after : Session) (unlocked : session.locked = false)
      (done : session.acceptInput mode text true acceptedAt = .ok (id, claim, after)) :
      ClientStep session after
        (claim.toList.map (fun claim => .cleanup (.call claim) .begin))
  | removed (id : Nat) (text : String) (after : Session)
      (done : session.removeInput id = .ok (text, after)) : ClientStep session after []
  | recalled : ClientStep session session.recallInputs.2 []
  | resumed (claim : Option Claim) (after : Session) (unlocked : session.locked = false)
      (done : session.acceptResume = .ok (claim, after)) :
      ClientStep session after
        (claim.toList.map (fun claim => .cleanup (.call claim) .begin))
  | took (loopId : LoopId) : ClientStep session (session.take loopId) []
  | admitted (operationId : String) (operation : OperationRef) (after : Session)
      (unlocked : session.locked = false)
      (done : session.admitCompaction operationId = .ok (operation, after)) :
      ClientStep session after [.admitted operation]
  | cancelRequested (operation : OperationRef)
      (known : operation ∈ session.inner.pendingCompaction.toList ++
        session.inner.compaction.toList) :
      ClientStep session session [.cancelling operation]
  | shutDown (unlocked : session.locked = false) : ClientStep session session.beginShutdown []
  | closeBegun (after : Session) (unlocked : session.locked = false)
      (done : session.beginClose = .ok after) : ClientStep session after []
  | unregistered (unlocked : session.locked = false) :
      ClientStep session { session with inner := { session.inner with closed := true } } []
  | sampled (runtime : RuntimeState) (snapshot : SessionSnapshot) (after : Session)
      (unlocked : session.locked = false)
      (done : session.sample runtime = .ok (snapshot, after)) : ClientStep session after []
  | evicted (count : Nat) :
      ClientStep session
        { session with
          results :=
            { session.results with entries := session.results.entries.drop count } } []

/-- One section of a process: from the process to its next point, with the
processes it spawns. `count` is the number of processes before the step. -/
inductive ProcessStep (session : Session) (count index : Nat) :
    Manner → Process → Session → Process → List Process → Prop
  | cleanupBlocked (caller : CleanupCaller) (unlocked : session.locked = false)
      (blocked : session.inner.blocked.isSome) :
      ProcessStep session count index .advanced (.cleanup caller .begin) session
        (caller.refused .sessionBlocked) []
  | cleanupJoins (caller : CleanupCaller) (active : ActiveLoop)
      (unlocked : session.locked = false) (unblocked : session.inner.blocked = none)
      (current : session.inner.active = some active)
      (completed : (session.completionOf active.turn).isSome) :
      ProcessStep session count index .advanced (.cleanup caller .begin) session
        (.cleanup caller (.joinTask active.task)) []
  | cleanupReaps (caller : CleanupCaller) (unlocked : session.locked = false)
      (unblocked : session.inner.blocked = none)
      (pending : ∀ active, session.inner.active = some active →
        session.completionOf active.turn = none) :
      ProcessStep session count index .advanced (.cleanup caller .begin) session
        (.cleanup caller .reap) []
  | joinedFailed (caller : CleanupCaller) (task : TaskId) (unlocked : session.locked = false) :
      ProcessStep session count index .advanced (.cleanup caller (.joined task true))
        ((session.clearActiveTask task).block .internal) (caller.refused .sessionBlocked) []
  | joinedBlocked (caller : CleanupCaller) (task : TaskId) (unlocked : session.locked = false)
      (blocked : session.inner.blocked.isSome) :
      ProcessStep session count index .advanced (.cleanup caller (.joined task false)) session
        (caller.refused .sessionBlocked) []
  | joinedCleared (caller : CleanupCaller) (task : TaskId) (unlocked : session.locked = false)
      (unblocked : session.inner.blocked = none) :
      ProcessStep session count index .advanced (.cleanup caller (.joined task false))
        (session.clearActiveTask task) (.cleanup caller .reap) []
  | nothingToReap (caller : CleanupCaller) (unlocked : session.locked = false)
      (absent : session.inner.compaction = none) :
      ProcessStep session count index .advanced (.cleanup caller .reap) session
        caller.cleaned []
  | reaps (caller : CleanupCaller) (operation : OperationRef)
      (unlocked : session.locked = false)
      (current : session.inner.compaction = some operation) :
      ProcessStep session count index .advanced (.cleanup caller .reap) session
        (.cleanup caller (.reapOperation operation)) []
  | reapsPublished (caller : CleanupCaller) (operation : OperationRef)
      (published : session.operationPublished operation = true) :
      ProcessStep session count index .advanced (.cleanup caller (.reapOperation operation))
        session (.cleanup caller (.joinOperation operation)) []
  | reapsUnpublished (caller : CleanupCaller) (operation : OperationRef)
      (unpublished : session.operationPublished operation = false) :
      ProcessStep session count index .advanced (.cleanup caller (.reapOperation operation))
        session (caller.refused .sessionBusy) []
  | joinsNoTask (caller : CleanupCaller) (operation : OperationRef) :
      ProcessStep session count index .advanced (.cleanup caller (.joinOperation operation))
        session (.cleanup caller (.reaped operation false)) []
  | reapedFailed (caller : CleanupCaller) (operation : OperationRef)
      (unlocked : session.locked = false) :
      ProcessStep session count index .advanced (.cleanup caller (.reaped operation true))
        ((session.clearCompaction operation).block .internal)
        (caller.refused .sessionBlocked) []
  | reapedCleared (caller : CleanupCaller) (operation : OperationRef)
      (unlocked : session.locked = false) :
      ProcessStep session count index .advanced (.cleanup caller (.reaped operation false))
        (session.clearCompaction operation) caller.cleaned []
  | configured (launcher : Launcher) (claim : Claim) (unlocked : session.locked = false) :
      ProcessStep session count index .advanced (.launch launcher claim .configure) session
        (.launch launcher claim .install) []
  | launchRefused (launcher : Launcher) (claim : Claim) (stage : LaunchStage)
      (error : AgentError) (unlocked : session.locked = false)
      (early : stage = .configure ∨ stage = .install)
      (invalid : error = .sessionBusy → stage = .install ∧
        session.validateInstallState launcher.successorOf = .error .sessionBusy) :
      ProcessStep session count index .advanced (.launch launcher claim stage) session
        (.abandon launcher claim (launcher.pauseOn error)) []
  | installBegun (launcher : Launcher) (claim : Claim) (unlocked : session.locked = false)
      (valid : session.validateInstallState launcher.successorOf = .ok ()) :
      ProcessStep session count index .advanced (.launch launcher claim .install)
        (session.beginInstall claim).2
        (.launch launcher claim (.installing (session.beginInstall claim).1)) []
  | successorInstalled (turn : LoopId) (claim : Claim) (loopId : LoopId) :
      ProcessStep session count index .advanced
        (.launch (.successor turn) claim (.installing loopId))
        (session.finishInstall claim loopId index) (.driver loopId .joining) []
  | installed (launcher : Launcher) (claim : Claim) (loopId : LoopId)
      (fresh : launcher.successorOf = none) :
      ProcessStep session count index .advanced (.launch launcher claim (.installing loopId))
        (session.finishInstall claim loopId count) launcher.settled [.driver loopId .joining]
  | abandoned (launcher : Launcher) (claim : Claim) (pause : Bool) :
      ProcessStep session count index .advanced (.abandon launcher claim pause)
        (session.abandonClaim claim.entry pause) launcher.settled []
  | admissionCancelled (operation : OperationRef) (shared : CompactionOperation)
      (unlocked : session.locked = false)
      (known : session.operations[operation]? = some shared)
      (requested : shared.cancellationRequested = true) :
      ProcessStep session count index .advanced (.admitted operation)
        { session with inner := { session.inner with pendingCompaction := none } }
        (.completing operation (shared.failedResult "cancelled" none) false) []
  | admissionProceeds (operation : OperationRef)
      (requested : session.cancellationRequested operation = false) :
      ProcessStep session count index .advanced (.admitted operation) session
        (.cleanup (.compaction operation) .begin) []
  | startRefused (operation : OperationRef) (unlocked : session.locked = false) :
      ProcessStep session count index .advanced (.starting operation) session
        (.dropping operation) []
  | compactionStarted (operation : OperationRef) (reservation : CompactionReservation)
      (covered retained : Nat) (after : Session) (unlocked : session.locked = false)
      (done : session.startCompaction operation count covered retained = .ok after) :
      ProcessStep session count index .advanced (.starting operation) after
        (.finished false false) [.worker operation reservation .preparing]
  | admissionCleared (operation : OperationRef) (unlocked : session.locked = false)
      (ours : session.inner.pendingCompaction = some operation) :
      ProcessStep session count index .advanced (.dropping operation)
        { session with inner := { session.inner with pendingCompaction := none } }
        (.claiming operation none false) []
  | admissionGone (operation : OperationRef) (unlocked : session.locked = false)
      (other : session.inner.pendingCompaction ≠ some operation) :
      ProcessStep session count index .advanced (.dropping operation) session
        (.finished false false) []
  | phaseChanged (operation : OperationRef) (reservation : CompactionReservation)
      (phase : CompactionPhase) (unlocked : session.locked = false) :
      ProcessStep session count index .advanced (.worker operation reservation .preparing)
        (session.setCompactionPhase operation phase)
        (.worker operation reservation .preparing) []
  | workerMoves (operation : OperationRef) (reservation : CompactionReservation)
      (stage next : WorkerStage)
      (forward : (∃ generated, stage = .preparing ∧ next = .checking generated) ∨
        (∃ generated, stage = .checking generated ∧ next = .committing generated) ∨
        (∃ generated, stage = .writing generated ∧ next = .projecting generated)) :
      ProcessStep session count index .advanced (.worker operation reservation stage) session
        (.worker operation reservation next) []
  | workerEnds (operation : OperationRef) (reservation : CompactionReservation)
      (stage : WorkerStage) (result : CompactionResult) :
      ProcessStep session count index .advanced (.worker operation reservation stage) session
        (.completing operation result false) []
  | commitPassed (operation : OperationRef) (shared : CompactionOperation)
      (reservation : CompactionReservation) (generated : GeneratedSummary)
      (unlocked : session.locked = false)
      (known : session.operations[operation]? = some shared)
      (begun : shared.state = .running) :
      ProcessStep session count index .advanced
        (.worker operation reservation (.committing generated))
        (session.modifyOperation operation (fun current => current.tryBeginCommit.2))
        (.worker operation reservation (.writing generated)) []
  | projectionPublished (operation : OperationRef) (reservation : CompactionReservation)
      (generated : GeneratedSummary) (result : CompactionResult) :
      ProcessStep session count index .advanced
        (.worker operation reservation (.projecting generated))
        (session.modifyOperation operation (fun current => { current with projected := true }))
        (.completing operation result false) []
  | compactionCompleted (operation : OperationRef) (result : CompactionResult) (failed : Bool)
      (unlocked : session.locked = false) :
      ProcessStep session count index .advanced (.completing operation result failed)
        (session.completeCompaction operation result).2
        (.claiming operation (some (session.completeCompaction operation result).1) failed) []
  | nothingToStart (operation : OperationRef) (result : Option CompactionResult)
      (failed : Bool) (after : Session) (unlocked : session.locked = false)
      (done : session.claimAfterCompaction = (none, after)) :
      ProcessStep session count index .advanced (.claiming operation result failed) after
        (Launcher.ending operation result failed).settled []
  | startsAfterCompaction (operation : OperationRef) (result : Option CompactionResult)
      (failed : Bool) (claim : Claim) (after : Session) (unlocked : session.locked = false)
      (done : session.claimAfterCompaction = (some claim, after)) :
      ProcessStep session count index .advanced (.claiming operation result failed) after
        (.launch (.ending operation result failed) claim .configure) []
  | resultPublished (operation : OperationRef) (result : CompactionResult) (failed : Bool) :
      ProcessStep session count index .advanced (.publishing operation result failed)
        (session.modifyOperation operation (fun shared => shared.publish result))
        (.finished failed false) []
  | reported (turn : LoopId) (outcome : LoopOutcomeView) :
      ProcessStep session count index .advanced (.driver turn .joining) session
        (.driver turn (.persisting outcome)) []
  | notReported (turn : LoopId) (evicted : Nat) (unlocked : session.locked = false) :
      ProcessStep session count index .advanced (.driver turn .joining)
        (session.publishInternal turn evicted) (.finished false false) []
  | persisted (turn : LoopId) (outcome : LoopOutcomeView) (report : Session.TurnReport)
      (unlocked : session.locked = false) :
      ProcessStep session count index .advanced (.driver turn (.persisting outcome))
        { session with inner := { session.inner with blocked := none } }
        (.driver turn (.completing report)) []
  | notPersisted (turn : LoopId) (outcome : LoopOutcomeView) (report : Session.TurnReport) :
      ProcessStep session count index .advanced (.driver turn (.persisting outcome)) session
        (.driver turn (.completing report)) []
  | persistenceUnknown (turn : LoopId) (outcome : LoopOutcomeView)
      (report : Session.TurnReport) (unlocked : session.locked = false) :
      ProcessStep session count index .advanced (.driver turn (.persisting outcome))
        { session with
          inner :=
            { session.inner with blocked := some .persistence, uncertainLoop := some turn } }
        (.driver turn (.completing report)) []
  | turnCompleted (turn : LoopId) (report : Session.TurnReport) (evicted : Nat)
      (unlocked : session.locked = false) :
      ProcessStep session count index .advanced (.driver turn (.completing report))
        (session.completeTurn turn report evicted).2
        (.driver turn (.tail (session.completeTurn turn report evicted).1)) []
  | driverEnds (turn : LoopId) :
      ProcessStep session count index .advanced (.driver turn (.tail false)) session
        (.finished false false) []
  | noSuccessor (turn : LoopId) (after : Session) (unlocked : session.locked = false)
      (done : session.claimSuccessor = (none, after)) :
      ProcessStep session count index .advanced (.driver turn (.tail true)) after
        (.finished false false) []
  | successorClaimed (turn : LoopId) (claim : Claim) (after : Session)
      (unlocked : session.locked = false)
      (done : session.claimSuccessor = (some claim, after)) :
      ProcessStep session count index .advanced (.driver turn (.tail true)) after
        (.launch (.successor turn) claim .configure) []
  | cancelled (operation : OperationRef) :
      ProcessStep session count index .advanced (.cancelling operation)
        (session.modifyOperation operation (fun shared => shared.cancel.2))
        (.finished false false) []
  | claimDropped (claim : Claim) (stage : CleanupStage) :
      ProcessStep session count index .dropped (.cleanup (.call claim) stage)
        (session.abandonClaim claim.entry false) (.finished false false) []
  | compactionCallDropped (process : Process) (operation : OperationRef)
      (waiting : process = .admitted operation ∨ process = .starting operation ∨
        ∃ stage, process = .cleanup (.compaction operation) stage) :
      ProcessStep session count index .dropped process session (.dropping operation) []
  | driverDied (turn : LoopId) (stage : DriverStage) (evicted : Nat)
      (unlocked : session.locked = false) (armed : ∀ kept, stage ≠ .tail kept) :
      ProcessStep session count index .died (.driver turn stage)
        (session.publishInternal turn evicted) (.finished true false) []
  | tailDied (turn : LoopId) (kept : Bool) :
      ProcessStep session count index .died (.driver turn (.tail kept)) session
        (.finished true false) []
  | launchDied (turn : LoopId) (claim : Claim) (stage : LaunchStage)
      (early : ∀ loopId, stage ≠ .installing loopId) :
      ProcessStep session count index .died (.launch (.successor turn) claim stage)
        (session.abandonClaim claim.entry false) (.finished true false) []
  | abandonDied (turn : LoopId) (claim : Claim) (pause : Bool) :
      ProcessStep session count index .died (.abandon (.successor turn) claim pause)
        (session.abandonClaim claim.entry false) (.finished true false) []
  | workerDied (operation : OperationRef) (reservation : CompactionReservation)
      (stage : WorkerStage) (result : CompactionResult) :
      ProcessStep session count index .died (.worker operation reservation stage) session
        (.completing operation result true) []

/-- The action under which a process takes a step in some manner. -/
def Manner.action (manner : Manner) (index : Nat) : Action → Prop
  | .advance position _ => manner = .advanced ∧ position = index
  | .drop position => manner = .dropped ∧ position = index
  | .die position _ => manner = .died ∧ position = index
  | _ => False

/-- The four ways in which a step changes the system. -/
inductive Transition (before : System) : Action → System → Prop
  | client (action : Action) (session : Session) (spawned : List Process)
      (moved : ClientStep before.session session spawned) :
      Transition before action
        { session := session, processes := before.processes ++ spawned }
  | process (action : Action) (manner : Manner) (index : Nat) (process next : Process)
      (session : Session) (spawned : List Process)
      (present : before.processes[index]? = some process)
      (named : manner.action index action)
      (moved : ProcessStep before.session before.processes.length index manner process session
        next spawned) :
      Transition before action
        { session := session, processes := before.processes.set index next ++ spawned }
  | joined (action : Action) (index task : Nat) (caller : CleanupCaller)
      (stage next : CleanupStage) (failed seen : Bool)
      (present : before.processes[index]? = some (.cleanup caller stage))
      (ended : before.processes[task]? = some (.finished failed seen))
      (waited : (stage = .joinTask task ∧ next = .joined task (failed && !seen)) ∨
        ∃ operation, stage = .joinOperation operation ∧
          next = .reaped operation (failed && !seen)) :
      Transition before action
        { session := before.session
          processes := (before.processes.set task (.finished failed true)).set index
            (.cleanup caller next) }
  | closed (action : Action) (task : Nat) (failed seen : Bool) (session : Session)
      (unlocked : before.session.locked = false) (closing : before.session.inner.closing = true)
      (ended : before.processes[task]? = some (.finished failed seen))
      (reaped : session = before.session.clearActiveTask task ∨
        ∃ operation, before.session.operations[operation]?.bind (·.task) = some task ∧
          session = before.session.clearCompaction operation) :
      Transition before action
        { session := session, processes := before.processes.set task (.finished failed true) }

namespace System

variable {system after : System} {index : Nat}

/-- Replacing a process without spawning is a transition of that process. -/
theorem put_transition {action : Action} {manner : Manner} {process next : Process}
    {session : Session} (present : system.processes[index]? = some process)
    (named : manner.action index action)
    (moved : ProcessStep system.session system.processes.length index manner process session
      next []) : Transition system action (system.put index next session) := by
  have replaced := Transition.process action manner index process next session [] present named
    moved
  simpa [put] using replaced

/-- Replacing a process and spawning another one. -/
theorem put_spawn_transition {action : Action} {manner : Manner}
    {process next spawned : Process} {session : Session}
    (present : system.processes[index]? = some process) (named : manner.action index action)
    (moved : ProcessStep system.session system.processes.length index manner process session
      next [spawned]) :
    Transition system action ((system.put index next session).spawn spawned) :=
  Transition.process action manner index process next session [spawned] present named moved

/-- A join that ended was a join of a finished task. -/
theorem join_task_some {task : TaskId} {failed : Bool} {joined : System}
    (ended : system.joinTask task = some (failed, joined)) :
    ∃ broken seen, system.processes[task]? = some (.finished broken seen) ∧
      failed = (broken && !seen) ∧
      joined = { system with processes := system.processes.set task (.finished broken true) } := by
  unfold joinTask at ended
  split at ended
  · rename_i broken seen found
    obtain ⟨rfl, rfl⟩ := Prod.mk.inj (Option.some.inj ended)
    exact ⟨broken, seen, found, rfl, rfl⟩
  · cases ended

theorem cleanup_transition {caller : CleanupCaller} {stage : CleanupStage} {choice : Choice}
    (present : system.processes[index]? = some (.cleanup caller stage))
    (advanced : system.advanceCleanup index caller stage = some after) :
    Transition system (.advance index choice) after := by
  have named : Manner.advanced.action index (.advance index choice) := ⟨rfl, rfl⟩
  cases stage with
  | begin =>
    simp only [advanceCleanup] at advanced
    split at advanced
    · cases advanced
    · rename_i unlocked
      have unlocked : system.session.locked = false := by simpa using unlocked
      split at advanced
      · rename_i blocked
        cases advanced
        exact put_transition present named (.cleanupBlocked caller unlocked blocked)
      · rename_i unblocked
        have unblocked : system.session.inner.blocked = none := by simpa using unblocked
        split at advanced
        · rename_i active current
          split at advanced
          · rename_i completed
            cases advanced
            exact put_transition present named
              (.cleanupJoins caller active unlocked unblocked current completed)
          · rename_i pending
            cases advanced
            refine put_transition present named (.cleanupReaps caller unlocked unblocked ?_)
            intro other same
            obtain rfl : active = other := Option.some.inj (current.symm.trans same)
            simpa using pending
        · rename_i absent
          cases advanced
          refine put_transition present named (.cleanupReaps caller unlocked unblocked ?_)
          intro other same
          rw [absent] at same
          cases same
  | joinTask task =>
    simp only [advanceCleanup, Option.map_eq_some_iff, Prod.exists] at advanced
    obtain ⟨failed, joined, ended, rfl⟩ := advanced
    obtain ⟨broken, seen, found, rfl, rfl⟩ := join_task_some ended
    exact .joined _ index task caller _ _ broken seen present found (.inl ⟨rfl, rfl⟩)
  | joined task failed =>
    cases failed with
    | true =>
      simp only [advanceCleanup] at advanced
      split at advanced
      · cases advanced
      · rename_i unlocked
        cases advanced
        exact put_transition present named (.joinedFailed caller task (by simpa using unlocked))
    | false =>
      simp only [advanceCleanup] at advanced
      split at advanced
      · cases advanced
      · rename_i unlocked
        have unlocked : system.session.locked = false := by simpa using unlocked
        split at advanced
        · rename_i blocked
          cases advanced
          exact put_transition present named (.joinedBlocked caller task unlocked blocked)
        · rename_i unblocked
          cases advanced
          exact put_transition present named
            (.joinedCleared caller task unlocked (by simpa using unblocked))
  | reap =>
    simp only [advanceCleanup] at advanced
    split at advanced
    · cases advanced
    · rename_i unlocked
      have unlocked : system.session.locked = false := by simpa using unlocked
      split at advanced
      · rename_i absent
        cases advanced
        exact put_transition present named (.nothingToReap caller unlocked absent)
      · rename_i operation current
        cases advanced
        exact put_transition present named (.reaps caller operation unlocked current)
  | reapOperation operation =>
    simp only [advanceCleanup] at advanced
    split at advanced
    · rename_i published
      cases advanced
      exact put_transition present named (.reapsPublished caller operation published)
    · rename_i unpublished
      cases advanced
      exact put_transition present named
        (.reapsUnpublished caller operation (by simpa using unpublished))
  | joinOperation operation =>
    simp only [advanceCleanup] at advanced
    split at advanced
    · cases advanced
      exact put_transition present named (.joinsNoTask caller operation)
    · rename_i task found
      simp only [Option.map_eq_some_iff, Prod.exists] at advanced
      obtain ⟨failed, joined, ended, rfl⟩ := advanced
      obtain ⟨broken, seen, exited, rfl, rfl⟩ := join_task_some ended
      exact .joined _ index task caller _ _ broken seen present exited
        (.inr ⟨operation, rfl, rfl⟩)
  | reaped operation failed =>
    cases failed with
    | true =>
      simp only [advanceCleanup] at advanced
      split at advanced
      · cases advanced
      · rename_i unlocked
        cases advanced
        exact put_transition present named
          (.reapedFailed caller operation (by simpa using unlocked))
    | false =>
      simp only [advanceCleanup] at advanced
      split at advanced
      · cases advanced
      · rename_i unlocked
        cases advanced
        exact put_transition present named
          (.reapedCleared caller operation (by simpa using unlocked))

theorem launch_transition {launcher : Launcher} {claim : Claim} {stage : LaunchStage}
    {choice : Choice} (present : system.processes[index]? = some (.launch launcher claim stage))
    (advanced : system.advanceLaunch index launcher claim stage choice = some after) :
    Transition system (.advance index choice) after := by
  have named : Manner.advanced.action index (.advance index choice) := ⟨rfl, rfl⟩
  unfold advanceLaunch at advanced
  split at advanced
  · split at advanced
    · cases advanced
    · rename_i unlocked
      cases advanced
      exact put_transition present named (.configured launcher claim (by simpa using unlocked))
  · split at advanced
    · cases advanced
    · rename_i unlocked
      cases advanced
      exact put_transition present named
        (.launchRefused launcher claim .configure _ (by simpa using unlocked) (.inl rfl)
          (by intro busy; cases busy))
  · split at advanced
    · cases advanced
    · rename_i unlocked
      have unlocked : system.session.locked = false := by simpa using unlocked
      split at advanced
      · rename_i error invalid
        cases advanced
        exact put_transition present named
          (.launchRefused launcher claim .install error unlocked (.inr rfl)
            (fun busy => ⟨rfl, busy ▸ invalid⟩))
      · rename_i error valid
        cases advanced
        exact put_transition present named
          (.launchRefused launcher claim .install _ unlocked (.inr rfl)
            (by intro busy; cases error <;> cases busy))
      · rename_i valid
        cases advanced
        exact put_transition present named (.installBegun launcher claim unlocked valid)
      · cases advanced
  · split at advanced
    · cases advanced
      exact put_transition present named (.successorInstalled _ claim _)
    · rename_i notSuccessor
      cases advanced
      refine put_spawn_transition present named (.installed _ claim _ ?_)
      cases launcher with
      | successor turn => exact absurd rfl (notSuccessor turn)
      | _ => rfl
  · cases advanced

theorem worker_transition {operation : OperationRef} {shared : CompactionOperation}
    {reservation : CompactionReservation} {stage : WorkerStage} {choice : Choice}
    (present : system.processes[index]? = some (.worker operation reservation stage))
    (known : system.session.operations[operation]? = some shared)
    (advanced : system.advanceWorker index operation shared reservation stage choice =
      some after) : Transition system (.advance index choice) after := by
  have named : Manner.advanced.action index (.advance index choice) := ⟨rfl, rfl⟩
  have ends (result : CompactionResult) : Transition system (.advance index choice)
      (system.put index (.completing operation result false) system.session) :=
    put_transition present named (.workerEnds operation reservation stage result)
  unfold advanceWorker at advanced
  split at advanced
  · split at advanced
    · cases advanced
    · rename_i phase unlocked
      cases advanced
      have moved := put_transition present named
        (.phaseChanged operation reservation phase (by simpa using unlocked))
      have same : system.processes.set index (.worker operation reservation .preparing) =
          system.processes := by
        obtain ⟨bound, found⟩ := List.getElem?_eq_some_iff.mp present
        rw [← found]
        exact List.set_getElem_self bound
      simpa only [put, same] using moved
  · cases advanced
    exact ends _
  · cases advanced
    exact ends _
  · cases advanced
    exact put_transition present named
      (.workerMoves operation reservation _ _ (.inl ⟨_, rfl, rfl⟩))
  · split at advanced
    · cases advanced
    · split at advanced
      · cases advanced
        exact ends _
      · cases advanced
        exact put_transition present named
          (.workerMoves operation reservation _ _ (.inr (.inl ⟨_, rfl, rfl⟩)))
  · cases advanced
    exact ends _
  · cases advanced
    exact ends _
  · split at advanced
    · cases advanced
    · rename_i unlocked
      split at advanced
      · cases advanced
        exact ends _
      · rename_i passed
        cases advanced
        have begun : shared.state = .running := by
          by_cases begun : shared.state = .running
          · exact begun
          · simp [CompactionOperation.tryBeginCommit, begun] at passed
        exact put_transition present named
          (.commitPassed operation shared reservation _ (by simpa using unlocked) known begun)
  · cases advanced
    exact ends _
  · cases advanced
    exact ends _
  · split at advanced
    · cases advanced
    · split at advanced
      · cases advanced
        exact put_transition present named
          (.workerMoves operation reservation _ _ (.inr (.inr ⟨_, rfl, rfl⟩)))
      · cases advanced
        exact ends _
  · cases advanced
    exact put_transition present named (.projectionPublished operation reservation _ _)
  · cases advanced

theorem driver_transition {turn : LoopId} {stage : DriverStage} {choice : Choice}
    (present : system.processes[index]? = some (.driver turn stage))
    (advanced : system.advanceDriver index turn stage choice = some after) :
    Transition system (.advance index choice) after := by
  have named : Manner.advanced.action index (.advance index choice) := ⟨rfl, rfl⟩
  unfold advanceDriver at advanced
  split at advanced
  · cases advanced
    exact put_transition present named (.reported turn _)
  · split at advanced
    · cases advanced
    · rename_i unlocked
      cases advanced
      exact put_transition present named (.notReported turn _ (by simpa using unlocked))
  · split at advanced
    · cases advanced
    · rename_i unlocked
      cases advanced
      exact put_transition present named (.persisted turn _ _ (by simpa using unlocked))
  · cases advanced
    exact put_transition present named (.notPersisted turn _ _)
  · split at advanced
    · cases advanced
    · rename_i unlocked
      cases advanced
      exact put_transition present named
        (.persistenceUnknown turn _ _ (by simpa using unlocked))
  · split at advanced
    · cases advanced
    · rename_i unlocked
      cases advanced
      exact put_transition present named (.turnCompleted turn _ _ (by simpa using unlocked))
  · cases advanced
    exact put_transition present named (.driverEnds turn)
  · split at advanced
    · cases advanced
    · rename_i unlocked
      have unlocked : system.session.locked = false := by simpa using unlocked
      split at advanced
      · rename_i session done
        cases advanced
        exact put_transition present named (.noSuccessor turn session unlocked done)
      · rename_i claim session done
        cases advanced
        exact put_transition present named (.successorClaimed turn claim session unlocked done)
  · cases advanced

theorem advance_transition {process : Process} {choice : Choice}
    (present : system.processes[index]? = some process)
    (advanced : system.advance index choice process = some after) :
    Transition system (.advance index choice) after := by
  have named : Manner.advanced.action index (.advance index choice) := ⟨rfl, rfl⟩
  cases process with
  | cleanup caller stage =>
    simp only [advance] at advanced
    split at advanced
    · exact cleanup_transition present advanced
    · cases advanced
  | launch launcher claim stage => exact launch_transition present advanced
  | abandon launcher claim pause =>
    cases advanced
    exact put_transition present named (.abandoned launcher claim pause)
  | admitted operation =>
    simp only [advance] at advanced
    split at advanced
    · rename_i requested
      split at advanced
      · cases advanced
      · rename_i unlocked
        split at advanced
        · cases advanced
        · rename_i shared known
          cases advanced
          exact put_transition present named
            (.admissionCancelled operation shared (by simpa using unlocked) known
              (by simpa [Session.cancellationRequested, known] using requested))
    · rename_i requested
      cases advanced
      exact put_transition present named
        (.admissionProceeds operation (by simpa using requested))
  | starting operation =>
    simp only [advance] at advanced
    split at advanced
    · rename_i reservation
      split at advanced
      · cases advanced
      · rename_i unlocked
        split at advanced
        · cases advanced
          exact put_transition present named (.startRefused operation (by simpa using unlocked))
        · rename_i session done
          cases advanced
          exact put_spawn_transition present named
            (.compactionStarted operation reservation _ _ session (by simpa using unlocked)
              done)
    · cases advanced
  | dropping operation =>
    simp only [advance] at advanced
    split at advanced
    · cases advanced
    · rename_i unlocked
      split at advanced
      · rename_i ours
        cases advanced
        exact put_transition present named
          (.admissionCleared operation (by simpa using unlocked) ours)
      · rename_i other
        cases advanced
        exact put_transition present named
          (.admissionGone operation (by simpa using unlocked) other)
  | worker operation reservation stage =>
    simp only [advance] at advanced
    split at advanced
    · cases advanced
    · rename_i shared known
      exact worker_transition present known advanced
  | completing operation result failed =>
    simp only [advance] at advanced
    split at advanced
    · cases advanced
    · rename_i unlocked
      cases advanced
      exact put_transition present named
        (.compactionCompleted operation result failed (by simpa using unlocked))
  | claiming operation result failed =>
    simp only [advance] at advanced
    split at advanced
    · cases advanced
    · rename_i unlocked
      have unlocked : system.session.locked = false := by simpa using unlocked
      split at advanced
      · rename_i session done
        cases advanced
        exact put_transition present named
          (.nothingToStart operation result failed session unlocked done)
      · rename_i claim session done
        cases advanced
        exact put_transition present named
          (.startsAfterCompaction operation result failed claim session unlocked done)
  | publishing operation result failed =>
    cases advanced
    exact put_transition present named (.resultPublished operation result failed)
  | driver turn stage => exact driver_transition present advanced
  | cancelling operation =>
    cases advanced
    exact put_transition present named (.cancelled operation)
  | finished failed joined => cases advanced

theorem drop_transition {process : Process}
    (present : system.processes[index]? = some process)
    (dropped : system.dropCall index process = some after) :
    Transition system (.drop index) after := by
  have named : Manner.dropped.action index (.drop index) := ⟨rfl, rfl⟩
  unfold dropCall at dropped
  split at dropped
  · split at dropped <;>
      first
      | cases dropped
        exact put_transition present named (.claimDropped _ _)
      | cases dropped
  · split at dropped <;>
      first
      | cases dropped
        exact put_transition present named
          (.compactionCallDropped _ _ (.inr (.inr ⟨_, rfl⟩)))
      | cases dropped
  · cases dropped
    exact put_transition present named (.compactionCallDropped _ _ (.inl rfl))
  · cases dropped
    exact put_transition present named (.compactionCallDropped _ _ (.inr (.inl rfl)))
  · cases dropped

theorem die_transition {process : Process} {evicted : Nat}
    (present : system.processes[index]? = some process)
    (died : system.dieProcess index evicted process = some after) :
    Transition system (.die index evicted) after := by
  have named : Manner.died.action index (.die index evicted) := ⟨rfl, rfl⟩
  unfold dieProcess at died
  split at died
  · split at died
    · cases died
      exact put_transition present named (.tailDied _ _)
    · rename_i armed
      split at died
      · cases died
      · rename_i unlocked
        cases died
        exact put_transition present named
          (.driverDied _ _ evicted (by simpa using unlocked) armed)
  · split at died
    · cases died
    · rename_i early
      cases died
      exact put_transition present named (.launchDied _ _ _ early)
  · cases died
    exact put_transition present named (.abandonDied _ _ _)
  · split at died
    · cases died
    · cases died
      exact put_transition present named (.workerDied _ _ _ _)
  · cases died

/-- Requests leave the other processes alone and may add one. -/
theorem client_transition {action : Action} {session : Session} {spawned : List Process}
    (moved : ClientStep system.session session spawned) :
    Transition system action
      { session := session, processes := system.processes ++ spawned } :=
  Transition.client action session spawned moved

theorem spawn_call_eq (claim : Option Claim) (session : Session) :
    system.spawnCall claim session =
      { session := session
        processes := system.processes ++
          claim.toList.map (fun claim => .cleanup (.call claim) .begin) } := by
  cases claim <;> simp [spawnCall, spawn]

/-- The inversion of the step function. -/
theorem step_transition {action : Action} (advanced : system.step action = some after) :
    Transition system action after := by
  have quiet (session : Session) (moved : ClientStep system.session session []) :
      Transition system action { system with session := session } := by
    simpa using Transition.client action session [] moved
  cases action with
  | acceptInput mode text valid acceptedAt =>
    simp only [step] at advanced
    split at advanced
    · cases advanced
    · rename_i unlocked
      split at advanced
      · cases advanced
      · rename_i id claim session done
        cases advanced
        cases valid with
        | false => simp [Session.acceptInput] at done
        | true =>
          rw [spawn_call_eq]
          exact client_transition
            (.accepted mode text acceptedAt id claim session (by simpa using unlocked) done)
  | removeInput id =>
    simp only [step] at advanced
    split at advanced
    · cases advanced
    · rename_i text session done
      cases advanced
      exact quiet session (.removed id text session done)
  | recallInputs =>
    cases advanced
    exact quiet _ .recalled
  | acceptResume =>
    simp only [step] at advanced
    split at advanced
    · cases advanced
    · rename_i unlocked
      split at advanced
      · cases advanced
      · rename_i claim session done
        cases advanced
        rw [spawn_call_eq]
        exact client_transition (.resumed claim session (by simpa using unlocked) done)
  | take loopId =>
    cases advanced
    exact quiet _ (.took loopId)
  | admitCompaction operationId =>
    simp only [step] at advanced
    split at advanced
    · cases advanced
    · rename_i unlocked
      split at advanced
      · cases advanced
      · rename_i operation session done
        cases advanced
        exact client_transition
          (.admitted operationId operation session (by simpa using unlocked) done)
  | cancelCompaction operationId =>
    simp only [step] at advanced
    split at advanced
    · cases advanced
    · simp only [Option.map_eq_some_iff] at advanced
      obtain ⟨operation, found, rfl⟩ := advanced
      exact client_transition (.cancelRequested operation (List.mem_of_find?_eq_some found))
  | beginShutdown =>
    simp only [step] at advanced
    split at advanced
    · cases advanced
    · rename_i unlocked
      cases advanced
      exact quiet _ (.shutDown (by simpa using unlocked))
  | beginClose =>
    simp only [step] at advanced
    split at advanced
    · cases advanced
    · rename_i unlocked
      split at advanced
      · cases advanced
      · rename_i session done
        cases advanced
        exact quiet session (.closeBegun session (by simpa using unlocked) done)
  | closeActive task =>
    simp only [step] at advanced
    split at advanced
    · cases advanced
    · rename_i guards
      simp only [Option.map_eq_some_iff, Prod.exists] at advanced
      obtain ⟨failed, joined, ended, rfl⟩ := advanced
      obtain ⟨broken, seen, found, rfl, rfl⟩ := join_task_some ended
      simp only [Bool.or_eq_true, Bool.not_eq_eq_eq_not, Bool.not_true, not_or,
        Bool.not_eq_true, Bool.not_eq_false] at guards
      exact .closed _ task broken seen _ guards.1 guards.2 found (.inl rfl)
  | closeCompaction operation =>
    simp only [step] at advanced
    split at advanced
    · cases advanced
    · rename_i guards
      split at advanced
      · cases advanced
      · rename_i task owned
        simp only [Option.map_eq_some_iff, Prod.exists] at advanced
        obtain ⟨failed, joined, ended, rfl⟩ := advanced
        obtain ⟨broken, seen, found, rfl, rfl⟩ := join_task_some ended
        simp only [Bool.or_eq_true, Bool.not_eq_eq_eq_not, Bool.not_true, not_or,
          Bool.not_eq_true, Bool.not_eq_false] at guards
        exact .closed _ task broken seen _ guards.1 guards.2 found
          (.inr ⟨operation, owned, rfl⟩)
  | unregister =>
    simp only [step] at advanced
    split at advanced
    · cases advanced
    · rename_i unlocked
      cases advanced
      exact quiet _ (.unregistered (by simpa using unlocked))
  | sample runtime =>
    simp only [step] at advanced
    split at advanced
    · cases advanced
    · rename_i unlocked
      split at advanced
      · cases advanced
      · rename_i snapshot session done
        cases advanced
        exact quiet session (.sampled runtime snapshot session (by simpa using unlocked) done)
  | evict count =>
    cases advanced
    exact quiet _ (.evicted count)
  | advance index choice =>
    simp only [step, Option.bind_eq_some_iff] at advanced
    obtain ⟨process, present, moved⟩ := advanced
    exact advance_transition present moved
  | drop index =>
    simp only [step, Option.bind_eq_some_iff] at advanced
    obtain ⟨process, present, moved⟩ := advanced
    exact drop_transition present moved
  | die index evicted =>
    simp only [step, Option.bind_eq_some_iff] at advanced
    obtain ⟨process, present, moved⟩ := advanced
    exact die_transition present moved

end System

end MinicoreAgent.SessionSystem

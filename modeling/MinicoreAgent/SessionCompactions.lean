import MinicoreAgent.CompactionBoard
import MinicoreAgent.SessionSnapshots

/-!
# The Session refines the board

Each process is the handler of at most one compaction. Adding up what all
processes handle turns a system state into a board, and every step of the system
is a sequence of board moves. Compactions and turns exclude each other through the
two slots, and a granted cancellation excludes the commit.
-/
namespace MinicoreAgent.SessionSystem

open InputQueue SessionState CompactionBoard

/-- A worker whose commit point has passed. -/
def WorkerStage.committed : WorkerStage → Bool
  | .writing _ => true
  | .projecting _ => true
  | _ => false

/-- What the end of an operation still owes: the publication of its result, or
nothing for a dropped admission. -/
def endPhase : Option CompactionResult → Phase
  | none => .dropped
  | some result => .settled result

def Launcher.handlers : Launcher → Multiset Handler
  | .ending operation result _ => {⟨operation, endPhase result⟩}
  | _ => 0

/-- The compaction a process handles. -/
def Process.handlers : Process → Multiset Handler
  | .cleanup (.compaction operation) _ => {⟨operation, .admission⟩}
  | .admitted operation => {⟨operation, .admission⟩}
  | .starting operation => {⟨operation, .admission⟩}
  | .dropping operation => {⟨operation, .admission⟩}
  | .worker operation _ stage => {⟨operation, .working stage.committed⟩}
  | .completing operation _ _ => {⟨operation, .completing⟩}
  | .claiming operation result _ => {⟨operation, endPhase result⟩}
  | .publishing operation result _ => {⟨operation, .settled result⟩}
  | .launch launcher _ _ => launcher.handlers
  | .abandon launcher _ _ => launcher.handlers
  | _ => 0

/-- The published operation a cleanup is about to forget. -/
def Process.reaping : Process → Multiset OperationRef
  | .cleanup _ (.joinOperation operation) => {operation}
  | .cleanup _ (.reaped operation _) => {operation}
  | _ => 0

/-- The board of a shared state, given what the processes handle. -/
def boardOf (session : Session) (handlers : Multiset Handler)
    (reaping : Multiset OperationRef) : Board :=
  { operations := session.operations, pending := session.inner.pendingCompaction
    slot := session.inner.compaction, handlers := handlers, reaping := reaping
    running := session.queue.running }

section Refinement

variable (session : Session) (handlers : Multiset Handler) (reaping : Multiset OperationRef)
  {after : Session}

/-- A Session that can start has free slots. -/
theorem can_start_free (able : session.canStart = true) :
    (boardOf session handlers reaping).pending = none ∧
      ∀ operation, (boardOf session handlers reaping).slot = some operation →
        (boardOf session handlers reaping).completed operation := by
  simp only [Session.canStart, Bool.and_eq_true, Option.isNone_iff_eq_none] at able
  obtain ⟨⟨_, pending⟩, slot⟩ := able
  refine ⟨pending, ?_⟩
  intro operation current
  have done : session.operationCompleted operation = true := by
    simpa [show session.inner.compaction = some operation from current] using slot
  simp only [Session.operationCompleted, Option.any_eq_true] at done
  obtain ⟨shared, known, completed⟩ := done
  exact ⟨shared, known, by simpa [CompactionOperation.isCompleted] using completed⟩

/-- Changing the queue changes the board only by the busy flag. -/
theorem queue_moves (queue : QueueState)
    (starts : queue.running = true → session.queue.running = true ∨ session.canStart = true) :
    Moves (boardOf session handlers reaping)
      (boardOf { session with queue := queue } handlers reaping) := by
  cases after : queue.running with
  | false =>
    have stops := Move.stop (boardOf session handlers reaping)
    refine .single ?_
    simpa [boardOf, after] using stops
  | true =>
    rcases starts after with running | able
    · have same : boardOf { session with queue := queue } handlers reaping =
          boardOf session handlers reaping := by simp [boardOf, after, running]
      rw [same]
    · obtain ⟨free, slotCompleted⟩ := can_start_free session handlers reaping able
      have runs := Move.run (boardOf session handlers reaping) free slotCompleted
      refine .single ?_
      simpa [boardOf, after] using runs

/-- The part of the shared state that the board sees stays. -/
structure SameSlots (session after : Session) : Prop where
  operations : after.operations = session.operations := by rfl
  pending : after.inner.pendingCompaction = session.inner.pendingCompaction := by rfl
  slot : after.inner.compaction = session.inner.compaction := by rfl
  running : after.queue.running = session.queue.running := by rfl

/-- Sections that leave the board as it is. -/
theorem still_moves {session : Session} {before next : Multiset Handler}
    {earlier later : Multiset OperationRef} (same : SameSlots session after)
    (handles : before = next) (reaps : earlier = later) :
    Moves (boardOf session before earlier) (boardOf after next later) := by
  have equal : boardOf after next later = boardOf session before earlier := by
    simp only [boardOf, same.operations, same.pending, same.slot, same.running, handles, reaps]
  rw [equal]

theorem clear_active_slots (task : TaskId) : SameSlots session (session.clearActiveTask task) := by
  unfold Session.clearActiveTask
  split <;> exact {}

/-- A claim starts a period only where the Session can start. -/
theorem claim_start_running {claim : Option Claim} {queue : QueueState}
    (claimed : session.claimStart = .ok (claim, queue)) :
    queue.running = true → session.queue.running = true ∨ session.canStart = true := by
  intro running
  cases claim with
  | none =>
    obtain ⟨rfl, _⟩ := Session.claim_start_none claimed
    exact .inl running
  | some claim => exact .inr (Session.claim_start_some claimed).2.2.1

/-- A shutdown cancels the operations in the slots. -/
theorem shutdown_moves :
    Moves (boardOf session handlers reaping)
      (boardOf session.beginShutdown handlers reaping) := by
  have cancels (references : List OperationRef) (current : Session) :
      Moves (boardOf current handlers reaping)
        (boardOf (references.foldl (fun current operation =>
          current.modifyOperation operation (fun shared => shared.cancel.2)) current)
          handlers reaping) := by
    induction references generalizing current with
    | nil => exact .refl
    | cons reference rest inductionHypothesis =>
      exact .head (.cancel (boardOf current handlers reaping) reference)
        (inductionHypothesis (current.modifyOperation reference (fun shared => shared.cancel.2)))
  exact cancels (session.inner.compaction.toList ++ session.inner.pendingCompaction.toList)
    session

/-- A call that goes on in the background handles no compaction. -/
theorem called_handles_nothing (claim : Option Claim) :
    Slots.total Process.handlers
        (claim.toList.map (fun claim => Process.cleanup (.call claim) .begin)) = 0 ∧
      Slots.total Process.reaping
        (claim.toList.map (fun claim => Process.cleanup (.call claim) .begin)) = 0 := by
  cases claim <;> simp [Process.handlers, Process.reaping]

theorem client_board {spawned : List Process} (moved : ClientStep session after spawned) :
    Moves (boardOf session handlers reaping)
      (boardOf after (Slots.total Process.handlers spawned + handlers)
        (Slots.total Process.reaping spawned + reaping)) := by
  cases moved with
  | accepted mode text acceptedAt id claim _ unlocked done =>
    obtain ⟨_, _, _, entry, queue, _, _, claimed, rfl⟩ := Session.accept_input_ok done
    rw [(called_handles_nothing claim).1, (called_handles_nothing claim).2, zero_add, zero_add]
    exact queue_moves session handlers reaping queue
      (claim_start_running (session.pushed entry) claimed)
  | removed id text _ done =>
    unfold Session.removeInput at done
    split at done
    · cases done
    · rename_i entry queue removed
      cases done
      obtain ⟨_, _, _, _, rfl⟩ := QueueState.remove_input_split removed
      exact still_moves {} (by simp) (by simp)
  | resumed claim _ unlocked done =>
    obtain ⟨queue, claimed, rfl⟩ := Session.accept_resume_ok done
    rw [(called_handles_nothing claim).1, (called_handles_nothing claim).2, zero_add, zero_add]
    exact queue_moves session handlers reaping queue
      (claim_start_running session.resumed claimed)
  | took loopId =>
    unfold Session.take
    split
    · exact still_moves {} (by simp) (by simp)
    · refine still_moves { running := ?_ } (by simp) (by simp)
      simp only [QueueState.take]
      split <;> rfl
  | admitted operationId operation _ unlocked done =>
    obtain ⟨free, idle, published, rfl, _, rfl⟩ := Session.admit_compaction_ok done
    have reapable : ∀ operation, (boardOf session handlers reaping).slot = some operation →
        (boardOf session handlers reaping).published operation := by
      intro operation slot
      have sent := published operation slot
      simp only [Session.operationPublished, Option.any_eq_true] at sent
      exact sent
    have enrols := Move.enrol (boardOf session handlers reaping) operationId idle free reapable
    refine .single ?_
    simpa [boardOf, Process.handlers, Process.reaping] using enrols
  | shutDown unlocked =>
    simpa using shutdown_moves session handlers reaping
  | closeBegun _ unlocked done =>
    obtain ⟨_, _, rfl⟩ := Session.begin_close_ok done
    simpa using shutdown_moves session handlers reaping
  | sampled runtime snapshot _ unlocked done =>
    obtain ⟨_, _, _, _, _, rfl⟩ := Session.sample_ok done
    exact still_moves {} (by simp) (by simp)
  | cancelRequested operation known =>
    exact still_moves {} (by simp [Process.handlers]) (by simp [Process.reaping])
  | recalled | unregistered | evicted =>
    exact still_moves {} (by simp) (by simp)

/-- A cleanup that failed or succeeded still handles what its caller handled. -/
theorem refused_handlers (caller : CleanupCaller) (error : AgentError) (stage : CleanupStage) :
    (caller.refused error).handlers = (Process.cleanup caller stage).handlers ∧
      (caller.refused error).reaping = 0 := by
  cases caller <;> exact ⟨rfl, rfl⟩

theorem cleaned_handlers (caller : CleanupCaller) (stage : CleanupStage) :
    caller.cleaned.handlers = (Process.cleanup caller stage).handlers ∧
      caller.cleaned.reaping = 0 := by
  cases caller <;> exact ⟨rfl, rfl⟩

/-- A cleanup that is refused before it looks at an operation changes no slot. -/
theorem refused_board (same : SameSlots session after) (caller : CleanupCaller)
    (error : AgentError) (stage : CleanupStage)
    (looks : (Process.cleanup caller stage).reaping = 0) :
    Moves
      (boardOf session ((Process.cleanup caller stage).handlers + handlers)
        ((Process.cleanup caller stage).reaping + reaping))
      (boardOf after (0 + ((caller.refused error).handlers + handlers))
        (0 + ((caller.refused error).reaping + reaping))) := by
  obtain ⟨handles, none⟩ := refused_handlers caller error stage
  exact still_moves same (by simp [handles]) (by simp [none, looks])

/-- The stages of one cleanup handle the same compaction. -/
theorem cleanup_handlers (caller : CleanupCaller) (stage next : CleanupStage) :
    (Process.cleanup caller stage).handlers = (Process.cleanup caller next).handlers := by
  cases caller <;> rfl

/-- A settled launcher goes on to publish, or leaves a dropped admission. -/
theorem settled_board (launcher : Launcher) :
    launcher.settled.reaping = 0 ∧
      Moves (boardOf session (launcher.handlers + handlers) reaping)
        (boardOf session (launcher.settled.handlers + handlers) reaping) := by
  cases launcher with
  | ending operation result failed =>
    cases result with
    | some result => exact ⟨rfl, .refl⟩
    | none =>
      refine ⟨rfl, .single ?_⟩
      have drops := Move.drop
        (boardOf session (({⟨operation, .dropped⟩} : Multiset Handler) + handlers) reaping)
        operation handlers (Multiset.singleton_add _ _)
      simpa [Launcher.settled, Process.handlers, Launcher.handlers, endPhase, boardOf] using drops
  | call => exact ⟨rfl, .refl⟩
  | successor turn => exact ⟨rfl, .refl⟩

/-- A cleanup that looked at a published operation may look away again. -/
theorem look_away (process : Process) :
    Moves (boardOf session handlers (process.reaping + reaping))
      (boardOf session handlers reaping) := by
  by_cases empty : process.reaping = 0
  · rw [empty, zero_add]
  · have looks : ∃ operation, process.reaping = {operation} := by
      unfold Process.reaping at empty ⊢
      split
      · exact ⟨_, rfl⟩
      · exact ⟨_, rfl⟩
      · simp at empty
    obtain ⟨operation, looks⟩ := looks
    rw [looks]
    exact .single (.turnAway
      (boardOf session handlers (({operation} : Multiset OperationRef) + reaping)) operation
      reaping (Multiset.singleton_add operation reaping))

/-- A cleanup that joined a published operation forgets it. -/
theorem reaped_moves (operation : OperationRef)
    (sound : (boardOf session handlers ({operation} + reaping)).Sound) :
    Moves (boardOf session handlers ({operation} + reaping))
      (boardOf (session.clearCompaction operation) handlers reaping) := by
  have present := sound.reaped operation (by simp [boardOf])
  have away := Move.turnAway
    (boardOf session handlers (({operation} : Multiset OperationRef) + reaping)) operation
    reaping (Multiset.singleton_add operation reaping)
  refine .tail (.single away) ?_
  have forgets := Move.reap (boardOf session handlers reaping) operation present
  have same : (boardOf session handlers reaping).forget operation =
      boardOf (session.clearCompaction operation) handlers reaping := by
    by_cases current : session.inner.compaction = some operation <;>
      simp [boardOf, Board.forget, Session.clearCompaction, current]
  exact same ▸ forgets

/-- A claim given back ends its period. -/
theorem abandon_board (claim : Claim) (pause : Bool) :
    Moves (boardOf session handlers reaping)
      (boardOf (session.abandonClaim claim.entry pause) handlers reaping) := by
  refine queue_moves session handlers reaping (session.queue.abandonClaim claim.entry pause) ?_
  simp [QueueState.abandonClaim, QueueState.endPeriod]

/-- So does an internal completion. -/
theorem publish_internal_board (turn : LoopId) (evicted : Nat) :
    Moves (boardOf session handlers reaping)
      (boardOf (session.publishInternal turn evicted) handlers reaping) := by
  refine queue_moves session handlers reaping (session.publishInternal turn evicted).queue ?_
  simp [Session.publishInternal, Session.sendCompletion, QueueState.endPeriod]

/-- The end of a compaction starts a period only where the Session can start. -/
theorem claim_after_compaction_running {claim : Option Claim}
    (done : session.claimAfterCompaction = (claim, after)) :
    ∃ queue, after = { session with queue := queue } ∧
      (queue.running = true → session.queue.running = true ∨ session.canStart = true) := by
  unfold Session.claimAfterCompaction at done
  split at done
  · cases done
    exact ⟨_, rfl, .inl⟩
  · rename_i claimed
    cases done
    exact ⟨_, rfl, claim_start_running session claimed⟩

/-- One section of a process is a sequence of moves on what that process handles. -/
theorem process_board {count index : Nat} {manner : Manner} {process next : Process}
    {spawned : List Process} (busy : 0 < process.owning → session.queue.running = true)
    (sound : (boardOf session (process.handlers + handlers) (process.reaping + reaping)).Sound)
    (moved : ProcessStep session count index manner process after next spawned) :
    Moves (boardOf session (process.handlers + handlers) (process.reaping + reaping))
      (boardOf after (Slots.total Process.handlers spawned + (next.handlers + handlers))
        (Slots.total Process.reaping spawned + (next.reaping + reaping))) := by
  cases moved with
  | cleanupBlocked caller =>
    exact refused_board session handlers reaping {} caller .sessionBlocked .begin rfl
  | cleanupJoins caller | cleanupReaps caller | reaps caller =>
    exact still_moves {} (by cases caller <;> simp [Process.handlers])
      (by simp [Process.reaping])
  | joinedFailed caller task =>
    have same := clear_active_slots session task
    exact refused_board session handlers reaping ⟨same.operations, same.pending, same.slot,
      same.running⟩ caller .sessionBlocked (.joined task true) rfl
  | joinedBlocked caller task =>
    exact refused_board session handlers reaping {} caller .sessionBlocked (.joined task false) rfl
  | joinedCleared caller task =>
    exact still_moves (clear_active_slots session task)
      (by cases caller <;> simp [Process.handlers]) (by simp [Process.reaping])
  | nothingToReap caller =>
    obtain ⟨same, none⟩ := cleaned_handlers caller .reap
    exact still_moves {} (by simp [same]) (by rw [none]; simp [Process.reaping])
  | reapsPublished caller operation published =>
    have present : (boardOf session ((Process.cleanup caller (.reapOperation operation)).handlers +
        handlers) reaping).published operation := by
      simp only [Session.operationPublished, Option.any_eq_true] at published
      exact published
    refine .single ?_
    have looks := Move.look _ operation present
    simpa [boardOf, Process.reaping, cleanup_handlers caller (.reapOperation operation)
      (.joinOperation operation)] using looks
  | reapsUnpublished caller operation =>
    exact refused_board session handlers reaping {} caller .sessionBusy (.reapOperation operation)
      rfl
  | joinsNoTask caller operation =>
    exact still_moves {} (by cases caller <;> simp [Process.handlers])
      (by simp [Process.reaping])
  | reapedFailed caller operation =>
    obtain ⟨same, none⟩ := refused_handlers caller .sessionBlocked (.reaped operation true)
    have moves := reaped_moves session _ reaping operation sound
    simp only [same, none, Slots.total_nil, zero_add]
    exact moves
  | reapedCleared caller operation =>
    obtain ⟨same, none⟩ := cleaned_handlers caller (.reaped operation false)
    have moves := reaped_moves session _ reaping operation sound
    simp only [same, none, Slots.total_nil, zero_add]
    exact moves
  | configured launcher claim | launchRefused launcher claim | installBegun launcher claim =>
    exact still_moves {} (by simp [Process.handlers]) (by simp [Process.reaping])
  | successorInstalled turn claim loopId =>
    exact still_moves {} (by simp [Process.handlers, Launcher.handlers])
      (by simp [Process.reaping])
  | installed launcher claim loopId =>
    obtain ⟨none, moves⟩ := settled_board session handlers reaping launcher
    refine .trans ?_ (.trans moves ?_)
    · exact still_moves {} (by simp [Process.handlers]) (by simp [Process.reaping])
    · exact still_moves {} (by simp [Process.handlers])
        (by rw [none]; simp [Process.reaping])
  | abandoned launcher claim pause =>
    obtain ⟨none, moves⟩ := settled_board session handlers reaping launcher
    refine .trans ?_ (.trans moves (.trans (abandon_board session _ _ claim pause) ?_))
    · exact still_moves {} (by simp [Process.handlers]) (by simp [Process.reaping])
    · exact still_moves {} (by simp) (by simp [none])
  | admissionCancelled operation shared unlocked known requested =>
    have leaves := Move.leave
      (boardOf session (({⟨operation, .admission⟩} : Multiset Handler) + handlers) reaping)
      operation handlers .completing (Multiset.singleton_add _ _) (.inl rfl)
    refine .single ?_
    simpa [boardOf, Process.handlers, Process.reaping] using leaves
  | admissionCleared operation =>
    have leaves := Move.leave
      (boardOf session (({⟨operation, .admission⟩} : Multiset Handler) + handlers) reaping)
      operation handlers .dropped (Multiset.singleton_add _ _) (.inr rfl)
    refine .single ?_
    simpa [boardOf, Process.handlers, Process.reaping, endPhase] using leaves
  | admissionGone operation unlocked other =>
    obtain ⟨_, _, _, pending, _⟩ := sound.fits ⟨operation, .admission⟩
      (by simp [boardOf, Process.handlers])
    exact absurd pending other
  | admissionProceeds | startRefused =>
    exact still_moves {} (by simp [Process.handlers]) (by simp [Process.reaping])
  | compactionStarted operation reservation covered retained _ unlocked done =>
    obtain ⟨_, _, _, free, progress, rfl⟩ := Session.start_compaction_ok done
    have begins := Move.begin
      (boardOf session (({⟨operation, .admission⟩} : Multiset Handler) + handlers) reaping)
      operation handlers count (Multiset.singleton_add _ _) free
    refine .single ?_
    simpa [boardOf, Board.handle, Process.handlers, Process.reaping, WorkerStage.committed,
      Session.modifyOperation] using begins
  | phaseChanged operation reservation phase =>
    unfold Session.setCompactionPhase
    split <;>
      exact still_moves {} (by simp [Process.handlers]) (by simp [Process.reaping])
  | workerMoves operation reservation stage next forward =>
    have same : next.committed = stage.committed := by
      rcases forward with ⟨_, rfl, rfl⟩ | ⟨_, rfl, rfl⟩ | ⟨_, rfl, rfl⟩ <;> rfl
    exact still_moves {} (by simp [Process.handlers, same])
      (by simp [Process.reaping])
  | workerEnds operation reservation stage result | workerDied operation reservation stage result =>
    have ends := Move.finish
      (boardOf session (({⟨operation, .working stage.committed⟩} : Multiset Handler) + handlers)
        reaping) operation handlers stage.committed (Multiset.singleton_add _ _)
    refine .single ?_
    simpa [boardOf, Process.handlers, Process.reaping] using ends
  | commitPassed operation shared reservation generated unlocked known begun =>
    have commits := Move.commit
      (boardOf session (({⟨operation, .working false⟩} : Multiset Handler) + handlers) reaping)
      operation handlers shared (Multiset.singleton_add _ _) known begun
    refine .single ?_
    simpa [boardOf, Board.handle, Process.handlers, Process.reaping, WorkerStage.committed,
      Session.modifyOperation] using commits
  | projectionPublished operation reservation generated result =>
    have projects := Move.project
      (boardOf session (({⟨operation, .working true⟩} : Multiset Handler) + handlers) reaping)
      operation handlers (Multiset.singleton_add _ _)
    refine .single ?_
    simpa [boardOf, Board.handle, Process.handlers, Process.reaping, WorkerStage.committed,
      Session.modifyOperation] using projects
  | compactionCompleted operation result failed =>
    obtain ⟨shared, known, _⟩ := sound.fits ⟨operation, .completing⟩
      (by simp [boardOf, Process.handlers])
    have found : session.operations[operation]? = some shared := known
    have completes := Move.complete
      (boardOf session (({⟨operation, .completing⟩} : Multiset Handler) + handlers) reaping)
      operation handlers shared result (Multiset.singleton_add _ _) known
    refine .single ?_
    simpa [boardOf, Board.handle, Process.handlers, Process.reaping, endPhase,
      Session.completeCompaction, found, Session.modifyOperation] using completes
  | nothingToStart operation result failed _ unlocked done =>
    obtain ⟨queue, rfl, starts⟩ := claim_after_compaction_running session done
    obtain ⟨none, moves⟩ := settled_board session handlers reaping
      (.ending operation result failed)
    refine .trans ?_ (.trans moves (.trans (queue_moves session _ _ queue starts) ?_))
    · exact still_moves {} (by simp [Process.handlers, Launcher.handlers])
        (by simp [Process.reaping])
    · exact still_moves {} (by simp) (by simp [none])
  | startsAfterCompaction operation result failed claim _ unlocked done =>
    obtain ⟨queue, rfl, starts⟩ := claim_after_compaction_running session done
    refine .trans (queue_moves session _ _ queue starts) ?_
    exact still_moves {} (by simp [Process.handlers, Launcher.handlers])
      (by simp [Process.reaping])
  | resultPublished operation result failed =>
    have publishes := Move.publish
      (boardOf session (({⟨operation, .settled result⟩} : Multiset Handler) + handlers) reaping)
      operation handlers result (Multiset.singleton_add _ _)
    refine .single ?_
    simpa [boardOf, Process.handlers, Process.reaping, Session.modifyOperation] using publishes
  | reported | persisted | notPersisted | persistenceUnknown | driverEnds | tailDied =>
    exact still_moves {} (by simp [Process.handlers]) (by simp [Process.reaping])
  | notReported turn evicted =>
    simpa [Process.handlers, Process.reaping] using
      publish_internal_board session handlers reaping turn evicted
  | turnCompleted turn report evicted =>
    have ends : Moves (boardOf session handlers reaping)
        (boardOf (session.completeTurn turn report evicted).2 handlers reaping) := by
      refine .trans (queue_moves session handlers reaping
        (session.completeTurn turn report evicted).2.queue ?_) ?_
      · intro _
        exact .inl (busy (by simp [Process.owning]))
      · refine still_moves { pending := ?_, slot := ?_ } rfl rfl <;>
          simp only [Session.completeTurn, Session.sendCompletion] <;> split <;> rfl
    simpa [Process.handlers, Process.reaping] using ends
  | noSuccessor turn _ unlocked done =>
    obtain ⟨queue, rfl⟩ := Session.claim_successor_frame done
    have moves := queue_moves session handlers reaping queue
      (fun _ => .inl (busy (by simp [Process.owning])))
    simpa [Process.handlers, Process.reaping] using moves
  | successorClaimed turn claim _ unlocked done =>
    obtain ⟨queue, rfl⟩ := Session.claim_successor_frame done
    have moves := queue_moves session handlers reaping queue
      (fun _ => .inl (busy (by simp [Process.owning])))
    simpa [Process.handlers, Launcher.handlers, Process.reaping] using moves
  | cancelled operation =>
    refine .single ?_
    have cancels := Move.cancel (boardOf session handlers reaping) operation
    simpa [boardOf, Process.handlers, Process.reaping, Session.modifyOperation] using cancels
  | claimDropped claim stage =>
    refine .trans (look_away session _ reaping (.cleanup (.call claim) stage)) ?_
    simpa [Process.handlers, Process.reaping] using
      abandon_board session handlers reaping claim false
  | compactionCallDropped process operation waiting =>
    refine .trans (look_away session _ reaping process) ?_
    rcases waiting with rfl | rfl | ⟨stage, rfl⟩ <;>
      exact still_moves {} (by simp [Process.handlers]) (by simp [Process.reaping])
  | driverDied turn stage evicted unlocked armed =>
    simpa [Process.handlers, Process.reaping] using
      publish_internal_board session handlers reaping turn evicted
  | launchDied turn claim stage early =>
    simpa [Process.handlers, Launcher.handlers, Process.reaping] using
      abandon_board session handlers reaping claim false
  | abandonDied turn claim pause =>
    simpa [Process.handlers, Launcher.handlers, Process.reaping] using
      abandon_board session handlers reaping claim false

end Refinement

/-- Every task an operation has, it had before. -/
def SameTasks (session after : Session) : Prop :=
  ∀ (operation : Nat) (shared : CompactionOperation) (task : TaskId),
    after.operations[operation]? = some shared → shared.task = some task →
    ∃ before, session.operations[operation]? = some before ∧ before.task = some task

theorem same_tasks_of_eq {session after : Session} (same : after.operations = session.operations) :
    SameTasks session after := by
  intro operation shared task known assigned
  exact ⟨shared, same ▸ known, assigned⟩

/-- Changing an operation without its task. -/
theorem same_tasks_modify (session : Session) (operation : OperationRef)
    {change : CompactionOperation → CompactionOperation}
    (keeps : ∀ shared, (change shared).task = shared.task) :
    SameTasks session (session.modifyOperation operation change) := by
  intro other shared task known assigned
  simp only [Session.modifyOperation, List.getElem?_modify] at known
  cases found : session.operations[other]? with
  | none => simp [found] at known
  | some before =>
    refine ⟨before, rfl, ?_⟩
    by_cases same : operation = other
    · obtain rfl : change before = shared := by simpa [found, same] using known
      exact (keeps before).symm.trans assigned
    · obtain rfl : before = shared := by simpa [found, same] using known
      exact assigned

theorem SameTasks.trans {first second third : Session} (one : SameTasks first second)
    (two : SameTasks second third) : SameTasks first third := by
  intro operation shared task known assigned
  obtain ⟨between, present, kept⟩ := two operation shared task known assigned
  exact one operation between task present kept

theorem cancel_keeps_task (shared : CompactionOperation) :
    shared.cancel.2.task = shared.task := shared.cancel_frame.2.2.1

theorem shutdown_tasks (session : Session) : SameTasks session session.beginShutdown := by
  have cancels (references : List OperationRef) (current : Session) :
      SameTasks current (references.foldl (fun current operation =>
        current.modifyOperation operation (fun shared => shared.cancel.2)) current) := by
    induction references generalizing current with
    | nil => exact same_tasks_of_eq rfl
    | cons reference rest inductionHypothesis =>
      exact (same_tasks_modify current reference cancel_keeps_task).trans (inductionHypothesis _)
  exact cancels _ session

section Placement

variable {session after : Session} {spawned : List Process}

theorem ClientStep.tasks (moved : ClientStep session after spawned) : SameTasks session after := by
  cases moved with
  | accepted mode text acceptedAt id claim _ unlocked done =>
    obtain ⟨_, _, _, _, _, _, _, _, rfl⟩ := Session.accept_input_ok done
    exact same_tasks_of_eq rfl
  | removed id text _ done =>
    unfold Session.removeInput at done
    split at done <;> cases done
    exact same_tasks_of_eq rfl
  | resumed claim _ unlocked done =>
    obtain ⟨_, _, rfl⟩ := Session.accept_resume_ok done
    exact same_tasks_of_eq rfl
  | took loopId =>
    unfold Session.take
    split <;> exact same_tasks_of_eq rfl
  | admitted operationId operation _ unlocked done =>
    obtain ⟨_, _, _, _, _, rfl⟩ := Session.admit_compaction_ok done
    intro other shared task known assigned
    rcases Nat.lt_or_ge other session.operations.length with inside | beyond
    · rw [List.getElem?_append_left inside] at known
      exact ⟨shared, known, assigned⟩
    · rw [List.getElem?_append_right beyond] at known
      cases offset : other - session.operations.length with
      | zero =>
        rw [offset] at known
        obtain rfl := Option.some.inj known
        cases assigned
      | succ position => simp [offset] at known
  | shutDown unlocked => exact shutdown_tasks session
  | closeBegun _ unlocked done =>
    obtain ⟨_, _, rfl⟩ := Session.begin_close_ok done
    exact shutdown_tasks session
  | sampled runtime snapshot _ unlocked done =>
    obtain ⟨_, _, _, _, _, rfl⟩ := Session.sample_ok done
    exact same_tasks_of_eq rfl
  | recalled | cancelRequested | unregistered | evicted => exact same_tasks_of_eq rfl

/-- A request hands a new process at most a new admission. -/
theorem ClientStep.new_handlers (moved : ClientStep session after spawned) :
    ∀ other ∈ spawned, ∀ handler ∈ other.handlers,
      ∃ shared, after.operations[handler.operation]? = some shared ∧ shared.task = none := by
  cases moved with
  | accepted mode text acceptedAt id claim | resumed claim =>
    cases claim <;> simp [Process.handlers]
  | admitted operationId operation _ unlocked done =>
    obtain ⟨_, _, _, rfl, _, rfl⟩ := Session.admit_compaction_ok done
    intro other member handler handles
    obtain rfl := List.mem_singleton.mp member
    obtain rfl : handler = ⟨session.operations.length, .admission⟩ := by
      simpa [Process.handlers] using handles
    exact ⟨CompactionOperation.new operationId, by simp, rfl⟩
  | _ => simp [Process.handlers]

/-- A section either keeps all tasks and spawns no handler, or starts a worker as
the next process. -/
theorem ProcessStep.tasks {count index : Nat} {manner : Manner} {process next : Process}
    (moved : ProcessStep session count index manner process after next spawned) :
    (SameTasks session after ∧ ∀ other ∈ spawned, other.handlers = 0) ∨
      ∃ operation reservation, process = .starting operation ∧ next.handlers = 0 ∧
        spawned = [.worker operation reservation .preparing] ∧
        after.operations = session.operations.modify operation
          (fun shared => { shared with task := some count }) := by
  cases moved with
  | compactionStarted operation reservation covered retained _ unlocked done =>
    obtain ⟨_, _, _, _, progress, rfl⟩ := Session.start_compaction_ok done
    exact .inr ⟨operation, reservation, rfl, rfl, rfl, rfl⟩
  | joinedFailed caller task | joinedCleared caller task =>
    refine .inl ⟨same_tasks_of_eq ?_, by simp⟩
    simp only [Session.clearActiveTask, Session.block]
    split <;> rfl
  | reapedFailed caller operation | reapedCleared caller operation =>
    refine .inl ⟨same_tasks_of_eq ?_, by simp⟩
    simp only [Session.clearCompaction, Session.block]
    split <;> rfl
  | phaseChanged operation reservation phase =>
    refine .inl ⟨same_tasks_of_eq ?_, by simp⟩
    unfold Session.setCompactionPhase
    split <;> rfl
  | commitPassed operation shared reservation generated unlocked known begun =>
    refine .inl ⟨same_tasks_modify session operation fun other => ?_, by simp⟩
    unfold CompactionOperation.tryBeginCommit
    split <;> rfl
  | projectionPublished operation =>
    exact .inl ⟨same_tasks_modify session operation fun other => rfl, by simp⟩
  | compactionCompleted operation result failed =>
    refine .inl ⟨?_, by simp⟩
    unfold Session.completeCompaction
    split
    · exact same_tasks_of_eq rfl
    · have keeps : SameTasks session (session.modifyOperation operation
          (fun shared => (shared.complete result).2)) :=
        same_tasks_modify session operation (fun shared => by
          rw [CompactionOperation.complete_eq])
      exact keeps
  | resultPublished operation =>
    exact .inl ⟨same_tasks_modify session operation fun other => rfl, by simp⟩
  | cancelled operation =>
    exact .inl ⟨same_tasks_modify session operation cancel_keeps_task, by simp⟩
  | nothingToStart operation result failed _ unlocked done =>
    obtain ⟨queue, rfl⟩ := Session.claim_after_compaction_frame done
    exact .inl ⟨same_tasks_of_eq rfl, by simp⟩
  | startsAfterCompaction operation result failed claim _ unlocked done =>
    obtain ⟨queue, rfl⟩ := Session.claim_after_compaction_frame done
    exact .inl ⟨same_tasks_of_eq rfl, by simp⟩
  | noSuccessor turn _ unlocked done =>
    obtain ⟨queue, rfl⟩ := Session.claim_successor_frame done
    exact .inl ⟨same_tasks_of_eq rfl, by simp⟩
  | successorClaimed turn claim _ unlocked done =>
    obtain ⟨queue, rfl⟩ := Session.claim_successor_frame done
    exact .inl ⟨same_tasks_of_eq rfl, by simp⟩
  | installed => exact .inl ⟨same_tasks_of_eq rfl, by simp [Process.handlers]⟩
  | _ => exact .inl ⟨same_tasks_of_eq rfl, by simp⟩

/-- A process goes on handling at most the operation it handled. -/
theorem ProcessStep.keeps_operation {count index : Nat} {manner : Manner}
    {process next : Process}
    (moved : ProcessStep session count index manner process after next spawned) :
    ∀ handler ∈ next.handlers, ∃ earlier ∈ process.handlers,
      earlier.operation = handler.operation := by
  have settled (launcher : Launcher) : ∀ handler ∈ launcher.settled.handlers,
      ∃ earlier ∈ launcher.handlers, earlier.operation = handler.operation := by
    cases launcher with
    | ending operation result failed =>
      cases result <;> simp [Launcher.settled, Process.handlers, Launcher.handlers]
    | _ => simp [Launcher.settled, Process.handlers]
  cases moved with
  | cleanupBlocked caller | joinedFailed caller | joinedBlocked caller
  | reapsUnpublished caller | reapedFailed caller =>
    cases caller <;> simp [CleanupCaller.refused, Process.handlers, Launcher.handlers]
  | nothingToReap caller | reapedCleared caller =>
    cases caller <;> simp [CleanupCaller.cleaned, Process.handlers, Launcher.handlers]
  | cleanupJoins caller | cleanupReaps caller | joinedCleared caller | reaps caller
  | reapsPublished caller | joinsNoTask caller =>
    cases caller <;> simp [Process.handlers]
  | installed launcher | abandoned launcher => exact settled launcher
  | nothingToStart operation result failed => exact settled (.ending operation result failed)
  | configured launcher | launchRefused launcher | installBegun launcher =>
    exact fun handler member => ⟨handler, member, rfl⟩
  | compactionCallDropped process operation waiting =>
    rcases waiting with rfl | rfl | ⟨stage, rfl⟩ <;> simp [Process.handlers]
  | _ => simp [Process.handlers, Launcher.handlers]

end Placement

namespace System

variable {system after : System} {action : Action}

/-- What all processes handle together. -/
def handlers (system : System) : Multiset Handler :=
  Slots.total Process.handlers system.processes

def reaping (system : System) : Multiset OperationRef :=
  Slots.total Process.reaping system.processes

def board (system : System) : Board := boardOf system.session system.handlers system.reaping

/-- The handler of an operation with a worker is that worker's process. -/
def HandlersPlaced (system : System) : Prop :=
  ∀ (index : Nat) (process : Process) (handler : Handler) (shared : CompactionOperation)
    (task : TaskId), system.processes[index]? = some process → handler ∈ process.handlers →
    system.session.operations[handler.operation]? = some shared → shared.task = some task →
    index = task

/-- How often the processes handle an operation. -/
theorem handlers_count (processes : List Process) (operation : OperationRef) :
    Slots.total (fun process => (process.handlers.map Handler.operation).count operation)
        processes =
      ((Slots.total Process.handlers processes).map Handler.operation).count operation := by
  induction processes with
  | nil => simp
  | cons process rest inductionHypothesis =>
    simp only [Slots.total_cons, Multiset.map_add, Multiset.count_add, inductionHypothesis]

/-- Two processes handle different operations. -/
theorem handlers_apart (sound : system.board.Sound) {first second : Nat}
    {left right : Process} {one two : Handler} (apart : first ≠ second)
    (placed : system.processes[first]? = some left)
    (other : system.processes[second]? = some right) (handles : one ∈ left.handlers)
    (also_ : two ∈ right.handlers) : one.operation ≠ two.operation := by
  intro same
  have both := Slots.two_le_total
    (fun process => (process.handlers.map Handler.operation).count one.operation)
    system.processes first second left right apart placed other
  have positive (handler : Handler) (process : Process) (member : handler ∈ process.handlers)
      (names : handler.operation = one.operation) :
      1 ≤ (process.handlers.map Handler.operation).count one.operation := by
    rw [Multiset.one_le_count_iff_mem]
    exact Multiset.mem_map.mpr ⟨handler, member, names⟩
  have once := Multiset.nodup_iff_count_le_one.mp sound.distinct one.operation
  have total := handlers_count system.processes one.operation
  have first_ := positive one left handles rfl
  have second_ := positive two right also_ same.symm
  simp only [board, boardOf, handlers] at once
  omega

/-- A finished worker has published the result of its operation. -/
theorem finished_published (sound : system.board.Sound) (placed : system.HandlersPlaced)
    {task : Nat} {failed seen : Bool} {operation : OperationRef}
    (ended : system.processes[task]? = some (.finished failed seen))
    (owned : system.session.operations[operation]?.bind (·.task) = some task) :
    system.board.published operation := by
  obtain ⟨shared, known, assigned⟩ := Option.bind_eq_some_iff.mp owned
  rcases sound.handled operation shared known (by simp [assigned]) with
    ⟨handler, member, rfl⟩ | sent
  · have held : handler ∈ Slots.total Process.handlers system.processes := member
    obtain ⟨index, process, present, handles⟩ := Slots.mem_total held
    have same := placed index process handler shared task present handles known assigned
    subst same
    obtain rfl := Option.some.inj (ended.symm.trans present)
    simp [Process.handlers] at handles
  · exact ⟨shared, known, sent⟩

/-- Every step is a sequence of board moves. -/
theorem step_board (balanced : system.ledger.Sound) (sound : system.board.Sound)
    (placed : system.HandlersPlaced) (advanced : system.step action = some after) :
    Moves system.board after.board := by
  cases step_transition advanced with
  | client session spawned moved =>
    have moves := client_board system.session system.handlers system.reaping moved
    simp only [board, handlers, reaping, Slots.total_append] at moves ⊢
    rwa [add_comm, add_comm (Slots.total Process.reaping spawned)] at moves
  | process manner index process next session spawned present named moved =>
    obtain ⟨handlers, handlersSplit⟩ :=
      Slots.total_split Process.handlers system.processes index process present
    obtain ⟨reaping, reapingSplit⟩ :=
      Slots.total_split Process.reaping system.processes index process present
    have busy : 0 < process.owning → system.session.queue.running = true := by
      intro owns
      have part := Slots.le_total Process.owning system.processes index process present
      exact (balanced.driver_alone (show 0 < system.ledger.owning from
        Nat.lt_of_lt_of_le owns part)).1
    have before : system.board = boardOf system.session (process.handlers + handlers)
        (process.reaping + reaping) := by
      simp only [board, System.handlers, System.reaping, (handlersSplit next).1,
        (reapingSplit next).1]
    rw [before] at sound ⊢
    have moves := process_board system.session handlers reaping busy sound moved
    simp only [board, System.handlers, System.reaping, Slots.total_append,
      (handlersSplit next).2, (reapingSplit next).2]
    rwa [add_comm (Slots.total Process.handlers spawned),
      add_comm (Slots.total Process.reaping spawned)] at moves
  | joined index task caller stage next failed seen present ended waited =>
    have distinct : task ≠ index := by
      rintro rfl
      rw [present] at ended
      cases ended
    have still : (system.processes.set task (.finished failed true))[index]? =
        some (.cleanup caller stage) := by
      rw [List.getElem?_set_ne distinct, present]
    have sameReaping : (Process.cleanup caller next).reaping =
        (Process.cleanup caller stage).reaping := by
      rcases waited with ⟨rfl, rfl⟩ | ⟨operation, rfl, rfl⟩ <;> rfl
    obtain ⟨handlers, handlersSplit⟩ := Slots.total_split Process.handlers _ index _ still
    obtain ⟨reaping, reapingSplit⟩ := Slots.total_split Process.reaping _ index _ still
    refine still_moves {} ?_ ?_
    · simp only [System.handlers]
      rw [(handlersSplit (.cleanup caller next)).2, cleanup_handlers caller next stage,
        ← (handlersSplit (.cleanup caller next)).1,
        total_joined Process.handlers _ task failed seen (fun _ _ => rfl) ended]
    · simp only [System.reaping]
      rw [(reapingSplit (.cleanup caller next)).2, sameReaping,
        ← (reapingSplit (.cleanup caller next)).1,
        total_joined Process.reaping _ task failed seen (fun _ _ => rfl) ended]
  | closed task failed seen session unlocked closing ended reaped =>
    simp only [board, System.handlers, System.reaping]
    rw [total_joined Process.handlers _ task failed seen (fun _ _ => rfl) ended,
      total_joined Process.reaping _ task failed seen (fun _ _ => rfl) ended]
    rcases reaped with rfl | ⟨operation, owned, rfl⟩
    · exact still_moves (clear_active_slots system.session task) rfl rfl
    · have forgets := Move.reap system.board operation (finished_published sound placed ended owned)
      have same : system.board.forget operation =
          boardOf (system.session.clearCompaction operation) system.handlers system.reaping := by
        by_cases current : system.session.inner.compaction = some operation <;>
          simp [board, boardOf, Board.forget, Session.clearCompaction, current]
      exact .single (same ▸ forgets)

/-- A placed handler stays placed while its operation keeps its task. -/
theorem placed_kept {session : Session} (placed : system.HandlersPlaced)
    (tasks : SameTasks system.session session) {index : Nat} {process : Process}
    {handler earlier : Handler} {shared : CompactionOperation} {task : TaskId}
    (present : system.processes[index]? = some process) (member : earlier ∈ process.handlers)
    (names : earlier.operation = handler.operation)
    (known : session.operations[handler.operation]? = some shared)
    (assigned : shared.task = some task) : index = task := by
  obtain ⟨before, found, kept⟩ := tasks handler.operation shared task known assigned
  exact placed index process earlier before task present member (names ▸ found) kept

/-- A section keeps handlers placed, and a new worker is placed at its own task. -/
theorem placed_process (sound : system.board.Sound) (placed : system.HandlersPlaced)
    {manner : Manner} {index : Nat} {process next : Process} {session : Session}
    {spawned : List Process} (present : system.processes[index]? = some process)
    (moved : ProcessStep system.session system.processes.length index manner process session next
      spawned) :
    HandlersPlaced
      { session := session, processes := system.processes.set index next ++ spawned } := by
  intro position found handler shared task located handles known assigned
  rcases moved.tasks with ⟨tasks, idle⟩ | ⟨operation, reservation, rfl, none, rfl, operations⟩
  · rcases Slots.replaced_cases located with ⟨rfl, rfl⟩ | ⟨_, old⟩ | ⟨offset, _, added⟩
    · obtain ⟨earlier, held, names⟩ := moved.keeps_operation handler handles
      exact placed_kept placed tasks present held names known assigned
    · exact placed_kept placed tasks old handles rfl known assigned
    · rw [idle found (List.mem_of_getElem? added)] at handles
      simp at handles
  · simp only [operations] at known
    rcases Slots.replaced_cases located with ⟨_, rfl⟩ | ⟨apart, old⟩ | ⟨offset, rfl, added⟩
    · rw [none] at handles
      simp at handles
    · have admission : (⟨operation, .admission⟩ : Handler) ∈
          (Process.starting operation).handlers := by simp [Process.handlers]
      have other := handlers_apart sound apart old present handles admission
      rw [Board.modified_other _ other] at known
      exact placed position found handler shared task old handles known assigned
    · cases offset with
      | succ offset => simp at added
      | zero =>
        obtain rfl := Option.some.inj added
        obtain rfl : handler = ⟨operation, .working false⟩ := by
          simpa [Process.handlers, WorkerStage.committed] using handles
        cases before : system.session.operations[operation]? with
        | none => simp [before] at known
        | some earlier =>
          rw [Board.modified_self _ before] at known
          obtain rfl := Option.some.inj known
          exact Option.some.inj assigned

theorem step_placed (sound : system.board.Sound) (placed : system.HandlersPlaced)
    (advanced : system.step action = some after) : after.HandlersPlaced := by
  cases step_transition advanced with
  | client session spawned moved =>
    intro position found handler shared task located handles known assigned
    rcases Nat.lt_or_ge position system.processes.length with inside | beyond
    · rw [List.getElem?_append_left inside] at located
      exact placed_kept placed moved.tasks located handles rfl known assigned
    · rw [List.getElem?_append_right beyond] at located
      obtain ⟨fresh, again, unassigned⟩ :=
        moved.new_handlers found (List.mem_of_getElem? located) handler handles
      obtain rfl : shared = fresh := Option.some.inj (known.symm.trans again)
      rw [unassigned] at assigned
      cases assigned
  | process manner index process next session spawned present named moved =>
    exact placed_process sound placed present moved
  | joined index task caller stage next failed seen present ended waited =>
    intro position found handler shared owner located handles known assigned
    rcases Slots.set_cases located with ⟨rfl, rfl⟩ | ⟨_, older⟩
    · rw [cleanup_handlers caller next stage] at handles
      exact placed _ _ handler shared owner present handles known assigned
    · rcases Slots.set_cases older with ⟨_, rfl⟩ | ⟨_, old⟩
      · simp [Process.handlers] at handles
      · exact placed position found handler shared owner old handles known assigned
  | closed task failed seen session unlocked closing ended reaped =>
    have tasks : SameTasks system.session session := by
      apply same_tasks_of_eq
      rcases reaped with rfl | ⟨operation, _, rfl⟩
      · unfold Session.clearActiveTask
        split <;> rfl
      · unfold Session.clearCompaction
        split <;> rfl
    intro position found handler shared owner located handles known assigned
    rcases Slots.set_cases located with ⟨_, rfl⟩ | ⟨_, old⟩
    · simp [Process.handlers] at handles
    · exact placed_kept placed tasks old handles rfl known assigned

/-- The board of every reachable state is sound, and its handlers are placed. -/
theorem reachable_board (reached : system.Reachable) :
    system.board.Sound ∧ system.HandlersPlaced := by
  have all : system.ledger.Sound ∧ system.board.Sound ∧ system.HandlersPlaced := by
    refine Runs.reachable_invariant
      (fun system => system.ledger.Sound ∧ system.board.Sound ∧ system.HandlersPlaced) ?_ ?_
      reached
    · refine ⟨InputLedger.Ledger.sound_initial, sound_empty, ?_⟩
      intro index process handler shared task present
      simp [start] at present
    · rintro before action after ⟨balanced, sound, placed⟩ advanced
      exact ⟨(step_moves advanced).sound balanced,
        (step_board balanced sound placed advanced).sound sound,
        step_placed sound placed advanced⟩
  exact all.2

/-- The record of an operation survives every continuation of a run. -/
theorem continued_record (reached : system.Reachable) {final : System}
    (continued : Runs.Reachable step system final) {operation : Nat}
    {shared : CompactionOperation}
    (known : system.session.operations[operation]? = some shared) :
    final.Reachable ∧
      ∃ now, final.session.operations[operation]? = some now ∧ Recorded shared now := by
  refine Runs.reachable_invariant
    (fun final => final.Reachable ∧
      ∃ now, final.session.operations[operation]? = some now ∧ Recorded shared now)
    ⟨reached, shared, known, .refl shared⟩ ?_ continued
  rintro before action after ⟨reachable, now, present, earlier⟩ advanced
  obtain ⟨sound, placed⟩ := reachable_board reachable
  obtain ⟨next, found, later⟩ :=
    (step_board (reachable_sound reachable) sound placed advanced).recorded present
  exact ⟨Runs.reachable_step reachable advanced, next, found, later.granted ∘ earlier.granted,
    later.begun ∘ earlier.begun, earlier.published.trans later.published⟩

/-- A busy period has the pending slot free and the other one completed. -/
theorem busy_slots (sound : system.board.Sound) (running : system.session.queue.running = true) :
    system.session.inner.pendingCompaction = none ∧
      ∀ operation, system.session.inner.compaction = some operation →
        system.session.operationCompleted operation = true := by
  obtain ⟨free, slotCompleted⟩ := sound.excluded running
  refine ⟨free, ?_⟩
  intro operation slot
  obtain ⟨shared, known, done⟩ := slotCompleted operation slot
  simp [Session.operationCompleted, CompactionOperation.isCompleted,
    show system.session.operations[operation]? = some shared from known, done]

/-- An uncompleted operation that holds the pending slot or has a worker. -/
def Engaged (system : System) (operation : OperationRef) : Prop :=
  ∃ shared, system.session.operations[operation]? = some shared ∧ shared.state ≠ .completed ∧
    (system.session.inner.pendingCompaction = some operation ∨ shared.task.isSome)

/-- No turn runs beside an engaged operation, and no two operations are engaged.
An operation whose cancel was granted stays uncommitted and unprojected in every
continuation, and every result it publishes, at most one, reports the
cancellation; after a commit has begun, cancel returns false. -/
theorem compactions_and_turns_exclude (reached : system.Reachable) :
    (system.session.queue.running = true →
      system.session.inner.pendingCompaction = none ∧
      (∀ operation, system.session.inner.compaction = some operation →
        system.session.operationCompleted operation = true) ∧
      ∀ operation, ¬system.Engaged operation) ∧
    (∀ first second, system.Engaged first → system.Engaged second → first = second) ∧
    (∀ (operation : Nat) (shared : CompactionOperation),
      system.session.operations[operation]? = some shared →
      (shared.cancelGranted = true → ∀ final, Runs.Reachable step system final →
        ∃ now, final.session.operations[operation]? = some now ∧
          now.commitBegun = false ∧ now.projected = false ∧ now.published.length ≤ 1 ∧
          ∀ result ∈ now.published,
            result.status = .failed ∧ result.failureKind = some "cancelled") ∧
      (shared.commitBegun = true → shared.cancel.1 = false)) := by
  obtain ⟨sound, _⟩ := reachable_board reached
  have working (operation : Nat) (shared : CompactionOperation)
      (known : system.session.operations[operation]? = some shared)
      (assigned : shared.task.isSome) (uncompleted : shared.state ≠ .completed) :
      system.session.inner.compaction = some operation :=
    sound.working operation shared known assigned uncompleted
  have unfinished (operation : Nat) (shared : CompactionOperation)
      (known : system.session.operations[operation]? = some shared)
      (uncompleted : shared.state ≠ .completed) : ¬system.board.completed operation := by
    rintro ⟨found, again, done⟩
    obtain rfl : shared = found := Option.some.inj (known.symm.trans again)
    exact uncompleted done
  refine ⟨?_, ?_, ?_⟩
  · intro running
    obtain ⟨free, slotCompleted⟩ := busy_slots sound running
    refine ⟨free, slotCompleted, ?_⟩
    rintro operation ⟨shared, known, uncompleted, pending | assigned⟩
    · rw [free] at pending
      cases pending
    · exact unfinished operation shared known uncompleted ((sound.excluded running).2 operation
        (working operation shared known assigned uncompleted))
  · rintro first second ⟨one, known, open_, engaged⟩ ⟨two, also_, unclosed, busy⟩
    rcases engaged with pending | assigned
    · rcases busy with waiting | occupied
      · exact Option.some.inj (pending.symm.trans waiting)
      · have slot := working second two also_ occupied unclosed
        exact absurd (sound.slots (by simp [board, boardOf, pending]) second slot)
          (unfinished second two also_ unclosed)
    · have slot := working first one known assigned open_
      rcases busy with waiting | occupied
      · exact absurd (sound.slots (by simp [board, boardOf, waiting]) first slot)
          (unfinished first one known open_)
      · exact Option.some.inj (slot.symm.trans (working second two also_ occupied unclosed))
  · intro operation shared known
    constructor
    · intro granted final continued
      obtain ⟨later, now, present, record⟩ := continued_record reached continued known
      have consistent := (reachable_board later).1.consistent operation now present
      have still := record.granted granted
      obtain ⟨uncommitted, _⟩ := consistent.granted still
      refine ⟨now, present, uncommitted, ?_, consistent.once, ?_⟩
      · cases projected : now.projected with
        | false => rfl
        | true =>
          rw [consistent.projects projected] at uncommitted
          cases uncommitted
      · intro result member
        have cancelled := consistent.answered still result member
        simpa [CompactionResult.isCancelled] using cancelled
    · intro begun
      have consistent := sound.consistent operation shared known
      have decided : shared.state ≠ .running := by
        intro running
        rcases consistent.begun begun with committing | completed
        · rw [running] at committing
          cases committing
        · rw [running] at completed
          cases completed
      simp [CompactionOperation.cancel, decided]

/-- A compaction is admitted and cancelled before it starts. -/
def cancelledAdmission : List Action :=
  [.admitCompaction "op", .cancelCompaction "op", .advance 1 .go]

/-- The admission notices the cancellation, completes its operation, finds nothing to
start and publishes the result. -/
def cancelledPublished : List Action :=
  [.advance 0 .go, .advance 0 .go, .advance 0 .go, .advance 0 .go]

/-- The cancelled operation is uncommitted at its end, and its one result reports
the cancellation. -/
theorem cancelled_admission_uncommitted :
    ∃ now,
      (Runs.replay step start (cancelledAdmission ++ cancelledPublished)).session.operations[0]? =
        some now ∧
      now.commitBegun = false ∧ now.projected = false ∧ now.published.length ≤ 1 ∧
      ∀ result ∈ now.published,
        result.status = .failed ∧ result.failureKind = some "cancelled" := by
  have reached : (Runs.replay step start cancelledAdmission).Reachable :=
    Runs.reachable_replay (by decide)
  have known : (Runs.replay step start cancelledAdmission).session.operations[0]? =
      some (CompactionOperation.new "op").cancel.2 := by decide
  exact ((compactions_and_turns_exclude reached).2.2 0 _ known).1 (by decide) _
    ⟨cancelledPublished, by decide⟩

/-- The cancelled admission has given up the pending slot, and an input is accepted
before its caller completes the operation. -/
def turnBesideCancelled : List Action :=
  cancelledAdmission ++ [.advance 0 .go, .acceptInput .followUp "first" true none]

/-- A busy period runs beside an operation that is not completed yet: it was
cancelled before its worker started, and its caller is about to complete it. -/
theorem turn_beside_cancelled_admission :
    (Runs.run step start turnBesideCancelled).isSome ∧
    (Runs.replay step start turnBesideCancelled).session.queue.running = true ∧
    (Runs.replay step start turnBesideCancelled).session.operationCompleted 0 = false ∧
    ((Runs.replay step start turnBesideCancelled).processes[0]?.map Process.handlers) =
      some {⟨0, .completing⟩} := by
  decide

end System

end MinicoreAgent.SessionSystem

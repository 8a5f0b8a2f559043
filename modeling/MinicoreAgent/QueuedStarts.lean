import MinicoreAgent.SessionCompactions

/-!
# Who starts a queued input

An input that nothing holds back is started by whoever makes that true: the push
or resume that finds the Session idle, the driver that ends a turn, or the end of
a compaction, which tries a start after it has given up its slot. A claim that is
given back without a pause hands its entry to one of these. The entry is stranded
where none of them is left.

The end of a compaction starts its claim without any cleanup, so it meets what a
call would have cleaned up first: the active loop of the turn before.
-/
namespace MinicoreAgent.SessionSystem

open InputQueue SessionState CompactionBoard

/-- An idle, unpaused queue with an input that the Session could start. -/
structure Startable (session : Session) : Prop where
  idle : session.queue.running = false
  unpaused : session.queue.paused = false
  waiting : session.queue.items ≠ []
  able : session.canStart = true

/-- The end of a compaction that has yet to try a start. -/
def Process.endsCompaction : Process → Bool
  | .completing _ _ _ => true
  | .claiming _ _ _ => true
  | _ => false

/-- A section that gives a claim back without pausing the queue: a call that found
the Session busy, a dropped call, or a dead successor start. -/
def Process.givesBack : Process → Manner → Bool
  | .abandon _ _ pause, .advanced => !pause
  | .cleanup (.call _) _, .dropped => true
  | .launch (.successor _) _ _, .died => true
  | .abandon (.successor _) _ _, .died => true
  | _, _ => false

/-- A process that has come to its end. -/
def Process.hasEnded : Process → Bool
  | .finished _ _ => true
  | _ => false

theorem has_ended {process : Process} (ended : process.hasEnded = true) :
    ∃ failed joined, process = .finished failed joined := by
  cases process with
  | finished failed joined => exact ⟨failed, joined, rfl⟩
  | _ => cases ended

/-- The stages of a launch before the Runtime has started its loop. -/
def LaunchStage.isEarly : LaunchStage → Bool
  | .configure => true
  | .install => true
  | .installing _ => false

/-- The end of a compaction after its claim is installed or refused. -/
def Process.hasDealt : Process → Bool
  | .launch (.ending _ _ _) _ (.installing _) => true
  | .abandon (.ending _ _ _) _ _ => true
  | .publishing _ _ _ => true
  | .finished _ _ => true
  | _ => false

section Sessions

variable {session after : Session}

/-- Where the queue and the right to start are the same, so is what could start. -/
theorem Startable.of_same (startable : Startable after) (queue : after.queue = session.queue)
    (able : after.canStart = session.canStart) : Startable session where
  idle := queue ▸ startable.idle
  unpaused := queue ▸ startable.unpaused
  waiting := queue ▸ startable.waiting
  able := able ▸ startable.able

/-- What the right to start is made of. -/
theorem can_start_iff (session : Session) :
    session.canStart = true ↔
      session.inner.blocked = none ∧ session.inner.closing = false ∧
        session.inner.pendingCompaction = none ∧
        ∀ operation, session.inner.compaction = some operation →
          session.operationCompleted operation = true := by
  simp only [Session.canStart, Bool.and_eq_true, Option.isNone_iff_eq_none,
    Bool.not_eq_eq_eq_not, Bool.not_true, Option.all_eq_true, and_assoc]

/-- A change of one operation that does not complete it gives no right to start. -/
theorem can_start_modified {operation : OperationRef}
    {change : CompactionOperation → CompactionOperation}
    (keeps : ∀ shared, session.operations[operation]? = some shared →
      (change shared).state = .completed → shared.state = .completed)
    (able : (session.modifyOperation operation change).canStart = true) :
    session.canStart = true := by
  obtain ⟨unblocked, unclosed, free, slotCompleted⟩ := (can_start_iff _).mp able
  refine (can_start_iff session).mpr ⟨unblocked, unclosed, free, ?_⟩
  intro current slot
  have done := slotCompleted current slot
  simp only [Session.operationCompleted, Option.any_eq_true, CompactionOperation.isCompleted,
    decide_eq_true_eq] at done ⊢
  obtain ⟨shared, known, completed⟩ := done
  by_cases same : operation = current
  · subst same
    simp only [Session.modifyOperation, List.getElem?_modify_eq, Option.map_eq_map,
      Option.map_eq_some_iff] at known
    obtain ⟨before, present, rfl⟩ := known
    exact ⟨before, present, keeps before present completed⟩
  · refine ⟨shared, ?_, completed⟩
    rw [← known]
    simp [Session.modifyOperation, same]

/-- Forgetting an operation that is completed gives no right to start. -/
theorem can_start_forgotten {operation : OperationRef}
    (completed : session.operationCompleted operation = true)
    (able : (session.clearCompaction operation).canStart = true) : session.canStart = true := by
  unfold Session.clearCompaction at able
  split at able
  · rename_i slot
    obtain ⟨unblocked, unclosed, free, _⟩ := (can_start_iff _).mp able
    refine (can_start_iff session).mpr ⟨unblocked, unclosed, free, ?_⟩
    intro current present
    obtain rfl : operation = current := Option.some.inj (slot.symm.trans present)
    exact completed
  · exact able

/-- A claim that was tried leaves nothing startable behind. -/
theorem claim_start_settles {claim : Option Claim} {queue : QueueState}
    (claimed : session.claimStart = .ok (claim, queue)) :
    ¬Startable { session with queue := queue } := by
  intro startable
  cases claim with
  | none =>
    obtain ⟨rfl, held⟩ := Session.claim_start_none claimed
    rcases held with running | paused | unable | empty
    · exact absurd running (by simpa using startable.idle)
    · exact absurd paused (by simpa using startable.unpaused)
    · have able : session.canStart = true := startable.able
      rw [able] at unable
      cases unable
    · exact startable.waiting empty
  | some claim =>
    obtain ⟨_, _, _, started⟩ := Session.claim_start_some claimed
    obtain ⟨_, _, _, _, _, _, _, rfl⟩ := QueueState.start_head_claims started
    have idle := startable.idle
    cases idle

/-- So does the try at the end of a compaction. -/
theorem claim_after_compaction_settles {claim : Option Claim}
    (done : session.claimAfterCompaction = (claim, after)) : ¬Startable after := by
  unfold Session.claimAfterCompaction at done
  split at done
  · cases done
    intro startable
    have unpaused := startable.unpaused
    cases unpaused
  · rename_i claimed
    cases done
    exact claim_start_settles claimed

/-- A driver that looks for a successor starts the head or leaves nothing to
start. -/
theorem claim_successor_settles {claim : Option Claim}
    (done : session.claimSuccessor = (claim, after)) : ¬Startable after := by
  unfold Session.claimSuccessor at done
  split at done
  · rename_i closing
    cases done
    intro startable
    obtain ⟨_, unclosed, _⟩ := (can_start_iff _).mp startable.able
    simp [closing] at unclosed
  · split at done
    · cases done
      intro startable
      have unpaused := startable.unpaused
      cases unpaused
    · rename_i started
      cases done
      obtain ⟨empty, rfl⟩ := QueueState.start_head_empty started
      intro startable
      exact startable.waiting empty
    · rename_i started
      cases done
      obtain ⟨_, _, _, _, _, _, _, rfl⟩ := QueueState.start_head_claims started
      intro startable
      have idle := startable.idle
      cases idle

/-- A completed turn keeps its period, pauses the queue, or leaves nothing to
start. -/
theorem complete_turn_settles (running : session.queue.running = true) (turn : LoopId)
    (report : Session.TurnReport) (evicted : Nat) :
    ¬Startable (session.completeTurn turn report evicted).2 := by
  intro startable
  obtain ⟨_, unclosed, _⟩ := (can_start_iff _).mp startable.able
  have idle := startable.idle
  have unpaused := startable.unpaused
  have waiting := startable.waiting
  have same : (session.completeTurn turn report evicted).2.inner.closing =
      session.inner.closing := by
    simp only [Session.completeTurn, Session.sendCompletion]
    split <;> rfl
  rw [same] at unclosed
  simp only [Session.completeTurn, Session.sendCompletion, unclosed] at idle unpaused waiting
  by_cases eligible : (report.persistence = .persisted ∧ report.outcome = .completed)
  · by_cases head : session.queue.head = none
    · rw [(QueueState.head_none_iff session.queue).mp head] at *
      simp [eligible, head, QueueState.endPeriod] at waiting
    · simp [eligible, Option.isSome_iff_ne_none, head, running] at idle
  · have emptied : session.queue.items = [] := by
      simp [eligible, QueueState.endPeriod] at unpaused
      exact unpaused.2 (not_and_or.mp eligible)
    simp [eligible, QueueState.endPeriod, emptied] at waiting

/-- A request that leaves something startable found it so. -/
theorem client_startable {spawned : List Process} (moved : ClientStep session after spawned)
    (startable : Startable after) : Startable session := by
  cases moved with
  | accepted mode text acceptedAt id claim _ unlocked done =>
    obtain ⟨_, _, _, entry, queue, _, _, claimed, rfl⟩ := Session.accept_input_ok done
    exact absurd startable (claim_start_settles claimed)
  | removed id text _ done =>
    unfold Session.removeInput at done
    split at done
    · cases done
    · rename_i entry queue removed
      cases done
      obtain ⟨before, rest, items, _, rfl⟩ := QueueState.remove_input_split removed
      refine ⟨startable.idle, ?_, by simp [items], startable.able⟩
      have nonempty : (before ++ rest).isEmpty = false := by
        simpa using startable.waiting
      have unpaused := startable.unpaused
      simpa [nonempty] using unpaused
  | recalled => exact absurd rfl startable.waiting
  | resumed claim _ unlocked done =>
    obtain ⟨queue, claimed, rfl⟩ := Session.accept_resume_ok done
    exact absurd startable (claim_start_settles claimed)
  | took loopId =>
    unfold Session.take at startable
    split at startable
    · exact startable
    · simp only [QueueState.take] at startable
      split at startable
      · exact startable.of_same rfl rfl
      · refine ⟨startable.idle, startable.unpaused, ?_, startable.able⟩
        intro empty
        exact startable.waiting (by simp [QueueState.takeSteers, empty])
  | admitted operationId operation _ unlocked done =>
    obtain ⟨_, _, _, _, _, rfl⟩ := Session.admit_compaction_ok done
    obtain ⟨_, _, free, _⟩ := (can_start_iff _).mp startable.able
    cases free
  | shutDown unlocked =>
    obtain ⟨operations, equal⟩ := session.begin_shutdown_frame
    rw [equal] at startable
    obtain ⟨_, unclosed, _⟩ := (can_start_iff _).mp startable.able
    cases unclosed
  | closeBegun _ unlocked done =>
    obtain ⟨_, _, rfl⟩ := Session.begin_close_ok done
    obtain ⟨operations, equal⟩ := session.begin_shutdown_frame
    rw [equal] at startable
    obtain ⟨_, unclosed, _⟩ := (can_start_iff _).mp startable.able
    cases unclosed
  | sampled runtime snapshot _ unlocked done =>
    obtain ⟨_, _, _, _, _, rfl⟩ := Session.sample_ok done
    exact startable.of_same rfl rfl
  | cancelRequested operation known => exact startable
  | unregistered | evicted => exact startable.of_same rfl rfl

/-- Requests never reopen a Session. -/
theorem ClientStep.closing {spawned : List Process} (moved : ClientStep session after spawned)
    (closing : session.inner.closing = true) : after.inner.closing = true := by
  cases moved with
  | accepted mode text acceptedAt id claim _ unlocked done =>
    obtain ⟨_, _, _, _, _, _, _, _, rfl⟩ := Session.accept_input_ok done
    exact closing
  | removed id text _ done =>
    unfold Session.removeInput at done
    split at done
    · cases done
    · cases done
      exact closing
  | resumed claim _ unlocked done =>
    obtain ⟨_, _, rfl⟩ := Session.accept_resume_ok done
    exact closing
  | took loopId =>
    unfold Session.take
    split <;> exact closing
  | admitted operationId operation _ unlocked done =>
    obtain ⟨_, _, _, _, _, rfl⟩ := Session.admit_compaction_ok done
    exact closing
  | shutDown unlocked =>
    obtain ⟨operations, equal⟩ := session.begin_shutdown_frame
    rw [equal]
  | closeBegun _ unlocked done =>
    obtain ⟨_, _, rfl⟩ := Session.begin_close_ok done
    obtain ⟨operations, equal⟩ := session.begin_shutdown_frame
    rw [equal]
  | sampled runtime snapshot _ unlocked done =>
    obtain ⟨_, _, _, _, _, rfl⟩ := Session.sample_ok done
    exact closing
  | recalled | cancelRequested | unregistered | evicted => exact closing

/-- No section begins or ends the closing of a Session. -/
theorem ProcessStep.closing {count index : Nat} {manner : Manner} {process next : Process}
    {spawned : List Process}
    (moved : ProcessStep session count index manner process after next spawned) :
    after.inner.closing = session.inner.closing := by
  cases moved with
  | joinedFailed caller task | joinedCleared caller task =>
    simp only [Session.clearActiveTask, Session.block]
    split <;> rfl
  | reapedFailed caller operation | reapedCleared caller operation =>
    simp only [Session.clearCompaction, Session.block]
    split <;> rfl
  | compactionStarted operation reservation covered retained _ unlocked done =>
    obtain ⟨_, _, _, _, _, rfl⟩ := Session.start_compaction_ok done
    rfl
  | phaseChanged operation reservation phase =>
    unfold Session.setCompactionPhase
    split <;> rfl
  | compactionCompleted operation result failed =>
    unfold Session.completeCompaction
    split <;> rfl
  | nothingToStart operation result failed _ unlocked done =>
    obtain ⟨_, rfl⟩ := Session.claim_after_compaction_frame done
    rfl
  | startsAfterCompaction operation result failed claim _ unlocked done =>
    obtain ⟨_, rfl⟩ := Session.claim_after_compaction_frame done
    rfl
  | turnCompleted turn report evicted =>
    simp only [Session.completeTurn, Session.sendCompletion]
    split <;> rfl
  | noSuccessor turn _ unlocked done =>
    obtain ⟨_, rfl⟩ := Session.claim_successor_frame done
    rfl
  | successorClaimed turn claim _ unlocked done =>
    obtain ⟨_, rfl⟩ := Session.claim_successor_frame done
    rfl
  | _ => rfl

/-- Where only the active loop is in question, it decides the installation check. -/
theorem validate_free (unblocked : session.inner.blocked = none)
    (unclosed : session.inner.closing = false) (free : session.inner.pendingCompaction = none)
    (slotCompleted : ∀ operation, session.inner.compaction = some operation →
      session.operationCompleted operation = true) :
    session.validateInstallState none =
      if session.inner.active = none then .ok () else .error .sessionBusy := by
  have done : session.inner.compaction.any
      (fun operation => !session.operationCompleted operation) = false := by
    cases slot : session.inner.compaction with
    | none => rfl
    | some operation => simp [slotCompleted operation slot]
  cases active : session.inner.active <;>
    simp [Session.validateInstallState, unblocked, unclosed, free, done, active]

theorem settled_dealt (operation : OperationRef) (result : Option CompactionResult)
    (failed : Bool) : (Launcher.ending operation result failed).settled.hasDealt = true := by
  cases result <;> rfl

/-- The sections after a claim is dealt with lead to no other claim. -/
theorem ProcessStep.dealt {count index : Nat} {manner : Manner} {process next : Process}
    {spawned : List Process}
    (moved : ProcessStep session count index manner process after next spawned)
    (dealt : process.hasDealt = true) : next.hasDealt = true := by
  cases moved with
  | installed launcher claim loopId =>
    cases launcher with
    | ending operation result failed => exact settled_dealt operation result failed
    | _ => cases dealt
  | abandoned launcher claim pause =>
    cases launcher with
    | ending operation result failed => exact settled_dealt operation result failed
    | _ => cases dealt
  | launchRefused launcher claim stage error unlocked early =>
    cases launcher with
    | ending operation result failed => rfl
    | _ => cases dealt
  | configured launcher claim | installBegun launcher claim => cases launcher <;> cases dealt
  | compactionCallDropped process operation waiting =>
    rcases waiting with rfl | rfl | ⟨stage, rfl⟩ <;> cases dealt
  | resultPublished => rfl
  | _ => cases dealt

end Sessions

namespace System

variable {system after : System} {action : Action}

/-- The Session is busy while a process holds a claim or drives a loop. -/
theorem owner_busy (balanced : system.ledger.Sound) {index : Nat} {process : Process}
    (present : system.processes[index]? = some process)
    (owns : process.claims ≠ 0 ∨ 0 < process.owning) : system.session.queue.running = true := by
  rcases owns with holds | drives
  · obtain ⟨claim, member⟩ := Multiset.exists_mem_of_ne_zero holds
    obtain ⟨others, split⟩ :=
      Slots.total_split Process.claims system.processes index process present
    have held : claim ∈ system.ledger.claims := by
      show claim ∈ Slots.total Process.claims system.processes
      rw [(split process).1]
      exact Multiset.mem_add.mpr (.inl member)
    obtain ⟨rest, equal⟩ := Multiset.exists_cons_of_mem held
    exact (balanced.claim_alone equal).1
  · have part := Slots.le_total Process.owning system.processes index process present
    exact (balanced.driver_alone (Nat.lt_of_lt_of_le drives part)).1

/-- A handler that some process has is on the board. -/
theorem handler_fits (sound : system.board.Sound) {index : Nat} {process : Process}
    {handler : Handler} (present : system.processes[index]? = some process)
    (handles : handler ∈ process.handlers) : handler.Fits system.board := by
  obtain ⟨others, split⟩ :=
    Slots.total_split Process.handlers system.processes index process present
  refine sound.fits handler ?_
  show handler ∈ Slots.total Process.handlers system.processes
  rw [(split process).1]
  exact Multiset.mem_add.mpr (.inl handles)

/-- An operation that a cleanup is about to forget is completed. -/
theorem reaped_completed (sound : system.board.Sound) {index : Nat} {caller : CleanupCaller}
    {operation : OperationRef} {failed : Bool}
    (present : system.processes[index]? = some (.cleanup caller (.reaped operation failed))) :
    system.session.operationCompleted operation = true := by
  obtain ⟨others, split⟩ := Slots.total_split Process.reaping system.processes index _ present
  have member : operation ∈ system.board.reaping := by
    show operation ∈ Slots.total Process.reaping system.processes
    rw [(split (.cleanup caller .begin)).1]
    simp [Process.reaping]
  obtain ⟨shared, known, sent⟩ := sound.reaped operation member
  have consistent := sound.consistent operation shared known
  have completed : shared.state = .completed := by
    refine consistent.ended ?_
    intro unpublished
    rw [consistent.sent, unpublished] at sent
    cases sent
  have known : system.session.operations[operation]? = some shared := known
  simp [Session.operationCompleted, known, CompactionOperation.isCompleted, completed]

/-- A compaction that was just started holds every start back. -/
theorem started_unable (sound : system.board.Sound) {index : Nat} {operation : OperationRef}
    (present : system.processes[index]? = some (.starting operation)) {task : TaskId}
    (progress : CompactionProgress) :
    ¬Session.canStart
      { system.session.modifyOperation operation
          (fun shared => { shared with task := some task }) with
        inner :=
          { system.session.inner with
            compaction := some operation
            pendingCompaction := none
            compactionProgress := some progress } } = true := by
  intro able
  have fits : Handler.Fits system.board ⟨operation, .admission⟩ :=
    handler_fits sound present (by simp [Process.handlers])
  obtain ⟨shared, known, _, _, _, uncompleted⟩ := fits
  obtain ⟨_, _, _, slotCompleted⟩ := (can_start_iff _).mp able
  have done := slotCompleted operation rfl
  have known : system.session.operations[operation]? = some shared := known
  simp [Session.operationCompleted, Session.modifyOperation, known,
    CompactionOperation.isCompleted, uncompleted] at done

/-- A section that leaves something startable is the end of a compaction that has
yet to try, gives a claim back, or found it so and was no such end. -/
theorem process_startable (balanced : system.ledger.Sound) (sound : system.board.Sound)
    {manner : Manner} {index : Nat} {process next : Process} {session : Session}
    {spawned : List Process} (present : system.processes[index]? = some process)
    (moved : ProcessStep system.session system.processes.length index manner process session next
      spawned) (startable : Startable session) :
    next.endsCompaction = true ∨
      (process.givesBack manner = true ∧ session.canStart = system.session.canStart ∧
        process.endsCompaction = false) ∨
      (Startable system.session ∧ process.endsCompaction = false) := by
  have busy := owner_busy balanced present
  have blockedNever (reason : SessionBlockReason)
      (blocked : session.inner.blocked = some reason) : False := by
    obtain ⟨unblocked, _⟩ := (can_start_iff _).mp startable.able
    rw [blocked] at unblocked
    cases unblocked
  have runningNever (running : session.queue.running = true) : False := by
    have idle := startable.idle
    rw [running] at idle
    cases idle
  cases moved with
  | cleanupBlocked | cleanupJoins | cleanupReaps | joinedBlocked | nothingToReap | reaps
  | reapsPublished | reapsUnpublished | joinsNoTask | configured | launchRefused
  | admissionProceeds | startRefused | admissionGone | workerMoves | reported | notPersisted
  | driverEnds | tailDied =>
    exact .inr (.inr ⟨startable, rfl⟩)
  | joinedFailed caller task => exact (blockedNever .internal rfl).elim
  | joinedCleared caller task =>
    refine .inr (.inr ⟨?_, rfl⟩)
    unfold Session.clearActiveTask at startable
    split at startable
    · exact startable.of_same rfl rfl
    · exact startable
  | reapedFailed caller operation => exact (blockedNever .internal rfl).elim
  | reapedCleared caller operation =>
    refine .inr (.inr ⟨?_, rfl⟩)
    have completed : system.session.operationCompleted operation = true := reaped_completed sound
      present
    have able := can_start_forgotten completed startable.able
    have queue : (system.session.clearCompaction operation).queue = system.session.queue := by
      unfold Session.clearCompaction
      split <;> rfl
    exact startable.of_same queue (startable.able.trans able.symm)
  | installBegun launcher claim unlocked valid =>
    exact (runningNever (busy (.inl (by simp [Process.claims])))).elim
  | successorInstalled turn claim loopId => exact (runningNever (busy (.inr Nat.one_pos))).elim
  | installed launcher claim loopId => exact (runningNever (busy (.inr Nat.one_pos))).elim
  | abandoned launcher claim pause =>
    cases pause with
    | false => exact .inr (.inl ⟨rfl, rfl, rfl⟩)
    | true =>
      have unpaused := startable.unpaused
      simp [Session.abandonClaim, QueueState.abandonClaim] at unpaused
  | admissionCancelled | admissionCleared | workerEnds | projectionPublished
  | compactionCompleted | workerDied => exact .inl rfl
  | compactionStarted operation reservation covered retained _ unlocked done =>
    obtain ⟨_, _, _, _, progress, rfl⟩ := Session.start_compaction_ok done
    exact absurd startable.able (started_unable sound present progress)
  | phaseChanged operation reservation phase =>
    refine .inr (.inr ⟨?_, rfl⟩)
    unfold Session.setCompactionPhase at startable
    split at startable
    · exact startable.of_same rfl rfl
    · exact startable
  | commitPassed operation shared reservation generated unlocked known begun =>
    refine .inr (.inr ⟨startable.of_same rfl ?_, rfl⟩)
    refine startable.able.trans (Eq.symm (can_start_modified ?_ startable.able))
    intro current again done
    unfold CompactionOperation.tryBeginCommit at done
    split at done
    · cases done
    · exact done
  | nothingToStart operation result failed _ unlocked done =>
    exact absurd startable (claim_after_compaction_settles done)
  | startsAfterCompaction operation result failed claim _ unlocked done =>
    exact absurd startable (claim_after_compaction_settles done)
  | resultPublished operation result failed =>
    refine .inr (.inr ⟨startable.of_same rfl ?_, rfl⟩)
    refine startable.able.trans (Eq.symm (can_start_modified ?_ startable.able))
    intro shared known done
    exact done
  | notReported turn evicted => exact (blockedNever .internal rfl).elim
  | persisted turn outcome report => exact (runningNever (busy (.inr Nat.one_pos))).elim
  | persistenceUnknown turn outcome report => exact (blockedNever .persistence rfl).elim
  | turnCompleted turn report evicted =>
    exact absurd startable (complete_turn_settles (busy (.inr Nat.one_pos)) turn report evicted)
  | noSuccessor turn _ unlocked done => exact absurd startable (claim_successor_settles done)
  | successorClaimed turn claim _ unlocked done =>
    exact absurd startable (claim_successor_settles done)
  | cancelled operation =>
    refine .inr (.inr ⟨startable.of_same rfl ?_, rfl⟩)
    refine startable.able.trans (Eq.symm (can_start_modified ?_ startable.able))
    intro shared known done
    exact shared.cancel_frame.1.mp done
  | claimDropped claim stage => exact .inr (.inl ⟨rfl, rfl, rfl⟩)
  | compactionCallDropped process operation waiting =>
    refine .inr (.inr ⟨startable, ?_⟩)
    rcases waiting with rfl | rfl | ⟨stage, rfl⟩ <;> rfl
  | driverDied turn stage evicted => exact (blockedNever .internal rfl).elim
  | launchDied turn claim stage early => exact .inr (.inl ⟨rfl, rfl, rfl⟩)
  | abandonDied turn claim pause => exact .inr (.inl ⟨rfl, rfl, rfl⟩)

/-- The end of some compaction has yet to try a start. -/
def endAhead (system : System) : Bool := system.processes.any Process.endsCompaction

/-- Whether an action gives a claim back without pausing the queue. -/
def givesBack (system : System) : Action → Bool
  | .advance index _ => system.processes[index]?.any (·.givesBack .advanced)
  | .drop index => system.processes[index]?.any (·.givesBack .dropped)
  | .die index _ => system.processes[index]?.any (·.givesBack .died)
  | _ => false

/-- A claim is given back to a queue that could start it, and no end of a
compaction is left to do so. -/
def strands (system : System) (action : Action) : Bool :=
  system.givesBack action && system.session.canStart && !system.endAhead

/-- The steps of runs that strand no claim and lose no period. -/
def attendedStep : System → Action → Option System :=
  Runs.guarded (fun system action => !system.strands action && !system.keptTailDies action) step

/-- What could start is started by the end of a compaction. -/
def Attended (system : System) : Prop :=
  Startable system.session → system.endAhead = true

/-- The end of a compaction is ahead as long as its process has not moved. -/
theorem end_ahead_kept {processes : List Process} {index : Nat} {process : Process}
    (next : Process) (spawned : List Process) (present : processes[index]? = some process)
    (other : process.endsCompaction = false)
    (ahead : processes.any Process.endsCompaction = true) :
    (processes.set index next ++ spawned).any Process.endsCompaction = true := by
  obtain ⟨ender, member, ends⟩ := List.any_eq_true.mp ahead
  obtain ⟨position, found⟩ := List.mem_iff_getElem?.mp member
  have apart : position ≠ index := by
    rintro rfl
    obtain rfl := Option.some.inj (found.symm.trans present)
    rw [ends] at other
    cases other
  exact List.any_eq_true.mpr
    ⟨ender, List.mem_of_getElem? (Slots.replaced_other spawned apart found), ends⟩

/-- The action of a section that gives a claim back does so. -/
theorem gives_back_action {manner : Manner} {index : Nat} {process : Process}
    (present : system.processes[index]? = some process) (named : manner.action index action)
    (gives : process.givesBack manner = true) : system.givesBack action = true := by
  cases action with
  | advance position choice =>
    obtain ⟨rfl, rfl⟩ := named
    simp [givesBack, present, gives]
  | drop position =>
    obtain ⟨rfl, rfl⟩ := named
    simp [givesBack, present, gives]
  | die position evicted =>
    obtain ⟨rfl, rfl⟩ := named
    simp [givesBack, present, gives]
  | _ => exact named.elim

/-- A step that strands no claim keeps the Session attended. -/
theorem step_attended (balanced : system.ledger.Sound) (sound : system.board.Sound)
    (attended : system.Attended) (kept : system.strands action = false)
    (advanced : system.step action = some after) : after.Attended := by
  intro startable
  cases step_transition advanced with
  | client session spawned moved =>
    have ahead := attended (client_startable moved startable)
    simp only [endAhead, List.any_append, Bool.or_eq_true] at ahead ⊢
    exact .inl ahead
  | process manner index process next session spawned present named moved =>
    rcases process_startable balanced sound present moved startable with
      ends | ⟨gives, able, other⟩ | ⟨before, other⟩
    · simp only [endAhead, List.any_eq_true]
      exact ⟨next, List.mem_of_getElem? (Slots.replaced_self spawned present), ends⟩
    · have ahead : system.endAhead = true := by
        have gave := gives_back_action present named gives
        have able : system.session.canStart = true := able ▸ startable.able
        simpa [strands, gave, able] using kept
      exact end_ahead_kept next spawned present other ahead
    · exact end_ahead_kept next spawned present other (attended before)
  | joined index task caller stage next failed seen present ended waited =>
    have marked := end_ahead_kept (.finished failed true) [] ended rfl (attended startable)
    have distinct : task ≠ index := by
      rintro rfl
      rw [present] at ended
      cases ended
    have still : (system.processes.set task (.finished failed true))[index]? =
        some (.cleanup caller stage) := by
      rw [List.getElem?_set_ne distinct, present]
    rw [List.append_nil] at marked
    simpa [endAhead] using end_ahead_kept (.cleanup caller next) [] still rfl marked
  | closed task failed seen session unlocked closing ended reaped =>
    obtain ⟨_, unclosed, _⟩ := (can_start_iff _).mp startable.able
    have same : session.inner.closing = system.session.inner.closing := by
      rcases reaped with rfl | ⟨operation, _, rfl⟩
      · unfold Session.clearActiveTask
        split <;> rfl
      · unfold Session.clearCompaction
        split <;> rfl
    have unclosed : session.inner.closing = false := unclosed
    rw [same, closing] at unclosed
    cases unclosed

/-- Runs that strand no claim and lose no period keep the Session attended. -/
theorem attended_reachable (reached : Runs.Reachable attendedStep start system) :
    Runs.Reachable ownedStep start system ∧ system.Attended := by
  refine Runs.reachable_invariant
    (fun system => Runs.Reachable ownedStep start system ∧ system.Attended) ?_ ?_ reached
  · refine ⟨⟨[], rfl⟩, ?_⟩
    intro startable
    exact absurd rfl startable.waiting
  · rintro before action after ⟨earlier, attended⟩ advanced
    obtain ⟨allowed, stepped⟩ := Runs.guarded_some advanced
    simp only [Bool.and_eq_true, Bool.not_eq_eq_eq_not, Bool.not_true] at allowed
    have reachable := Runs.reachable_of_guarded earlier
    have owned : ownedStep before action = some after := by
      simp [ownedStep, Runs.guarded, allowed.2, stepped]
    exact ⟨Runs.reachable_step earlier owned,
      step_attended (reachable_sound reachable) (reachable_board reachable).1 attended allowed.1
        stepped⟩

/-- No client call, claim, driver or compaction worker is in progress. -/
def quiet (system : System) : Bool := system.processes.all Process.hasEnded

/-- In a run that strands no claim and loses no period, a Session in which nothing
is in progress and nothing holds the queue back has an empty queue. -/
theorem quiet_session_has_empty_queue (reached : Runs.Reachable attendedStep start system)
    (quiet : system.quiet = true) (unblocked : system.session.inner.blocked = none)
    (unclosed : system.session.inner.closing = false)
    (unadmitted : system.session.inner.pendingCompaction = none)
    (slotCompleted : ∀ operation, system.session.inner.compaction = some operation →
      system.session.operationCompleted operation = true)
    (unpaused : system.session.queue.paused = false) : system.session.queue.items = [] := by
  obtain ⟨owned, attended⟩ := attended_reachable reached
  have ended (process : Process) (member : process ∈ system.processes) :
      ∃ failed joined, process = .finished failed joined :=
    has_ended (List.all_eq_true.mp quiet process member)
  have unowned : system.owners = 0 := by
    refine List.countP_eq_zero.mpr ?_
    intro process member
    obtain ⟨failed, joined, rfl⟩ := ended process member
    simp [Process.ownsPeriod]
  have idle : system.session.queue.running = false := by
    have counted := owners_running owned
    rw [unowned] at counted
    cases running : system.session.queue.running with
    | false => rfl
    | true => simp [running] at counted
  by_contra waiting
  have able := (can_start_iff system.session).mpr ⟨unblocked, unclosed, unadmitted, slotCompleted⟩
  have ahead := attended ⟨idle, unpaused, waiting, able⟩
  obtain ⟨process, member, ends⟩ := List.any_eq_true.mp ahead
  obtain ⟨failed, joined, rfl⟩ := ended process member
  cases ends

/-- A compaction worker fails, and an input is pushed while it works. -/
def queuedDuringWork : List Action :=
  [.admitCompaction "op", .advance 0 .go, .advance 0 .go, .advance 0 .go,
    .advance 0 (.spawn ⟨0, 0⟩), .acceptInput .followUp "first" true none,
    .advance 1 (.failure "model" none), .advance 1 .go]

/-- The end of the compaction starts the input, and its turn completes. -/
def startedAfterWork : List Action :=
  queuedDuringWork ++
    [.advance 1 .go, .advance 1 .go, .advance 1 .go, .advance 1 .go, .advance 1 .go,
      .advance 2 (.report .completed), .advance 2 (.append .written false none),
      .advance 2 (.register 0), .advance 2 .go]

/-- Nothing is left in the queue of that Session. -/
theorem started_after_work_empty :
    (Runs.replay attendedStep start startedAfterWork).session.queue.items = [] :=
  quiet_session_has_empty_queue (Runs.reachable_replay (by decide)) (by decide) (by decide)
    (by decide) (by decide) (by decide) (by decide)

/-- An input is pushed between the completion of the compaction and its try at a
start. The push claims it, finds the result unpublished, and gives it back as
busy after the compaction has already tried. -/
def refusedAfterTry : List Action :=
  [.admitCompaction "op", .advance 0 .go, .advance 0 .go, .advance 0 .go,
    .advance 0 (.spawn ⟨0, 0⟩), .advance 1 (.failure "model" none), .advance 1 .go,
    .acceptInput .followUp "first" true none, .advance 1 .go, .advance 2 .go, .advance 2 .go,
    .advance 2 .go, .advance 2 .go, .advance 1 .go]

/-- The input stays in a queue that is not paused, of a Session that nothing holds
back and in which nothing is in progress. -/
theorem refused_after_try_strands :
    (Runs.run step start refusedAfterTry).isSome ∧
    (Runs.replay step start refusedAfterTry).quiet = true ∧
    (Runs.replay step start refusedAfterTry).session.inner.blocked = none ∧
    (Runs.replay step start refusedAfterTry).session.inner.closing = false ∧
    (Runs.replay step start refusedAfterTry).session.inner.pendingCompaction = none ∧
    (Runs.replay step start refusedAfterTry).session.inner.compaction = some 0 ∧
    (Runs.replay step start refusedAfterTry).session.operationCompleted 0 = true ∧
    (Runs.replay step start refusedAfterTry).session.queue.paused = false ∧
    (Runs.replay step start refusedAfterTry).session.queue.items =
      [{ id := 1, mode := .followUp, input := "first", acceptedAt := none }] := by
  decide

/-- Once closing, a Session stays so. -/
theorem closing_kept (closing : system.session.inner.closing = true)
    (advanced : system.step action = some after) : after.session.inner.closing = true := by
  cases step_transition advanced with
  | client session spawned moved => exact moved.closing closing
  | process manner index process next session spawned present named moved =>
    exact moved.closing.trans closing
  | joined index task caller stage next failed seen present ended waited => exact closing
  | closed task failed seen session unlocked _ ended reaped =>
    rcases reaped with rfl | ⟨operation, _, rfl⟩
    · unfold Session.clearActiveTask
      split <;> exact closing
    · unfold Session.clearCompaction
      split <;> exact closing

/-- Beside a process that holds a claim, no other holds one. -/
theorem other_unclaimed (balanced : system.ledger.Sound) {index position : Nat}
    {process other : Process} {claim : Claim}
    (present : system.processes[index]? = some process) (holds : process.claims = {claim})
    (apart : position ≠ index) (located : system.processes[position]? = some other) :
    other.claims = 0 := by
  obtain ⟨others, split⟩ := Slots.total_split Process.claims system.processes index process present
  have held : system.ledger.claims = claim ::ₘ others := by
    show Slots.total Process.claims system.processes = _
    rw [(split process).1, holds, Multiset.singleton_add]
  obtain ⟨_, rfl, _⟩ := balanced.claim_alone held
  have still : (system.processes.set index (.finished false false))[position]? = some other := by
    rw [List.getElem?_set_ne (Ne.symm apart), located]
  obtain ⟨rest, parts⟩ := Slots.total_split Process.claims _ position other still
  have empty : other.claims + rest = 0 :=
    (parts other).1.symm.trans ((split (.finished false false)).2.trans (add_zero _))
  have counted := congrArg Multiset.card empty
  rw [Multiset.card_add, Multiset.card_zero] at counted
  exact Multiset.card_eq_zero.mp (by omega)

/-- While a claim waits to be installed, the active loop of a Session that is not
closing stays as it is. -/
theorem active_kept (balanced : system.ledger.Sound) (sound : system.board.Sound) {index : Nat}
    {launcher : Launcher} {claim : Claim} {stage : LaunchStage}
    (present : system.processes[index]? = some (.launch launcher claim stage))
    (holds : (Process.launch launcher claim stage).claims = {claim})
    (unclosed : after.session.inner.closing = false)
    (advanced : system.step action = some after) :
    after.session.inner.active = system.session.inner.active := by
  have running : system.session.queue.running = true :=
    owner_busy balanced present (.inl (by simp [holds]))
  cases step_transition advanced with
  | client session spawned moved => exact moved.loops.1.active
  | process manner position other next session spawned located named moved =>
    have step := moved.loop_step
    cases step with
    | quiet _ _ _ _ same => exact same.active
    | cleared caller task failed _ _ loops active =>
      -- neither a call with a claim of its own nor an admission is in cleanup now
      exfalso
      have apart : position ≠ index := by
        rintro rfl
        rw [present] at located
        cases located
      cases caller with
      | call second =>
        have none := other_unclaimed balanced present holds apart located
        simp [Process.claims] at none
      | compaction operation =>
        have fits : Handler.Fits system.board ⟨operation, .admission⟩ :=
          handler_fits sound located (by simp [Process.handlers])
        obtain ⟨_, _, _, pending, _⟩ := fits
        rw [(sound.excluded running).1] at pending
        cases pending
    | begun launcher claim valid => rfl
    | succeeded launcher claim loopId =>
      have free := claimant_alone balanced present holds located
      cases free
    | installed launcher claim loopId =>
      have free := claimant_alone balanced present holds located
      cases free
    | completed _ _ _ _ _ _ _ _ active => exact active
  | joined position task caller stage next failed seen located ended waited => rfl
  | closed task failed seen session unlocked closing ended reaped =>
    have still := closing_kept closing advanced
    rw [unclosed] at still
    cases still

/-- What a step does to the process at one position: nothing, one section, a join
that another process makes, or a join of its own. -/
theorem process_after {index : Nat} {process : Process}
    (present : system.processes[index]? = some process)
    (advanced : system.step action = some after) :
    ∃ next, after.processes[index]? = some next ∧
      (next = process ∨
        (∃ manner session spawned, ProcessStep system.session system.processes.length index
          manner process session next spawned) ∨
        (∃ failed seen, process = .finished failed seen ∧ next = .finished failed true) ∨
        ∃ caller stage later, process = .cleanup caller stage ∧ next = .cleanup caller later) := by
  obtain ⟨inside, _⟩ := List.getElem?_eq_some_iff.mp present
  cases step_transition advanced with
  | client session spawned moved =>
    exact ⟨process, by rw [List.getElem?_append_left inside, present], .inl rfl⟩
  | process manner position other next session spawned located named moved =>
    by_cases same : index = position
    · subst same
      obtain rfl := Option.some.inj (located.symm.trans present)
      exact ⟨next, Slots.replaced_self spawned present,
        .inr (.inl ⟨manner, session, spawned, moved⟩)⟩
    · exact ⟨process, Slots.replaced_other spawned same present, .inl rfl⟩
  | joined position task caller stage later failed seen located ended waited =>
    by_cases same : index = position
    · subst same
      obtain rfl := Option.some.inj (located.symm.trans present)
      refine ⟨.cleanup caller later, ?_, .inr (.inr (.inr ⟨caller, stage, later, rfl, rfl⟩))⟩
      rw [List.getElem?_set_self (by simpa using inside)]
    · by_cases own : index = task
      · subst own
        obtain rfl := Option.some.inj (ended.symm.trans present)
        refine ⟨.finished failed true, ?_, .inr (.inr (.inl ⟨failed, seen, rfl, rfl⟩))⟩
        rw [List.getElem?_set_ne (Ne.symm same), List.getElem?_set_self inside]
      · refine ⟨process, ?_, .inl rfl⟩
        rw [List.getElem?_set_ne (Ne.symm same), List.getElem?_set_ne (Ne.symm own), present]
  | closed task failed seen session unlocked closing ended reaped =>
    by_cases own : index = task
    · subst own
      obtain rfl := Option.some.inj (ended.symm.trans present)
      refine ⟨.finished failed true, ?_, .inr (.inr (.inl ⟨failed, seen, rfl, rfl⟩))⟩
      rw [List.getElem?_set_self inside]
    · refine ⟨process, ?_, .inl rfl⟩
      rw [List.getElem?_set_ne (Ne.symm own), present]

/-- The end of a compaction that has dealt with its claim stays so. -/
theorem dealt_stays {index : Nat} {process : Process}
    (present : system.processes[index]? = some process) (dealt : process.hasDealt = true)
    (advanced : system.step action = some after) :
    ∃ next, after.processes[index]? = some next ∧ next.hasDealt = true := by
  obtain ⟨next, found, same | ⟨_, _, _, moved⟩ | ⟨_, _, rfl, rfl⟩ | ⟨_, _, _, rfl, rfl⟩⟩ :=
    process_after present advanced
  · exact ⟨next, found, same ▸ dealt⟩
  · exact ⟨next, found, moved.dealt dealt⟩
  · exact ⟨_, found, rfl⟩
  · cases dealt

/-- An ending launch stays before its installation, or deals with its claim. -/
theorem ending_after {index : Nat} {operation : OperationRef} {result : Option CompactionResult}
    {failed : Bool} {claim : Claim} {stage : LaunchStage}
    (present : system.processes[index]? =
      some (.launch (.ending operation result failed) claim stage))
    (early : stage.isEarly = true) (advanced : system.step action = some after) :
    (∃ later, later.isEarly = true ∧ after.processes[index]? =
      some (.launch (.ending operation result failed) claim later)) ∨
      ∃ next, after.processes[index]? = some next ∧ next.hasDealt = true := by
  obtain ⟨next, found, rfl | ⟨_, _, _, moved⟩ | ⟨_, _, other, _⟩ | ⟨_, _, _, other, _⟩⟩ :=
    process_after present advanced
  · exact .inl ⟨stage, early, found⟩
  · cases moved with
    | configured => exact .inl ⟨.install, rfl, found⟩
    | launchRefused => exact .inr ⟨_, found, rfl⟩
    | installBegun => exact .inr ⟨_, found, rfl⟩
    | installed => cases early
    | compactionCallDropped _ dropped waiting =>
      rcases waiting with other | other | ⟨_, other⟩ <;> cases other
  · cases other
  · cases other

/-- Until the claim of an ending launch is dealt with, the active loop of a Session
that is not closing is the one it had when the claim was taken. -/
theorem ending_keeps_active (reached : system.Reachable) {final : System} {index : Nat}
    {operation : OperationRef} {result : Option CompactionResult} {failed : Bool} {claim : Claim}
    {stage : LaunchStage} (early : stage.isEarly = true)
    (present : system.processes[index]? =
      some (.launch (.ending operation result failed) claim stage))
    (continued : Runs.Reachable step system final) {later : LaunchStage}
    (arrived : final.processes[index]? =
      some (.launch (.ending operation result failed) claim later))
    (soon : later.isEarly = true) (unclosed : final.session.inner.closing = false) :
    final.session.inner.active = system.session.inner.active := by
  have tracked : final.Reachable ∧
      ((∃ stage, stage.isEarly = true ∧ final.processes[index]? =
          some (.launch (.ending operation result failed) claim stage) ∧
        (final.session.inner.closing = false →
          final.session.inner.active = system.session.inner.active)) ∨
        ∃ next, final.processes[index]? = some next ∧ next.hasDealt = true) := by
    refine Runs.reachable_invariant
      (fun final => final.Reachable ∧
        ((∃ stage, stage.isEarly = true ∧ final.processes[index]? =
            some (.launch (.ending operation result failed) claim stage) ∧
          (final.session.inner.closing = false →
            final.session.inner.active = system.session.inner.active)) ∨
          ∃ next, final.processes[index]? = some next ∧ next.hasDealt = true))
      ⟨reached, .inl ⟨stage, early, present, fun _ => rfl⟩⟩ ?_ continued
    rintro before action after ⟨reachable, waiting | ⟨process, located, dealt⟩⟩ advanced
    · obtain ⟨stage, early, located, same⟩ := waiting
      refine ⟨Runs.reachable_step reachable advanced, ?_⟩
      rcases ending_after located early advanced with ⟨next, soon, found⟩ | dealt
      · refine .inl ⟨next, soon, found, ?_⟩
        intro open_
        have opened : before.session.inner.closing = false := by
          by_contra closing
          have still := closing_kept (by simpa using closing) advanced
          rw [open_] at still
          cases still
        have holds : (Process.launch (.ending operation result failed) claim stage).claims =
            {claim} := by cases stage <;> first | rfl | cases early
        exact (active_kept (reachable_sound reachable) (reachable_board reachable).1 located holds
          open_ advanced).trans (same opened)
      · exact .inr dealt
    · exact ⟨Runs.reachable_step reachable advanced, .inr (dealt_stays located dealt advanced)⟩
  rcases tracked.2 with ⟨_, _, _, same⟩ | ⟨next, found, dealt⟩
  · exact same unclosed
  · obtain rfl := Option.some.inj (found.symm.trans arrived)
    cases later with
    | installing loopId => cases soon
    | _ => cases dealt

/-- An ending launch that is refused pauses the queue when it gives its claim
back. -/
theorem refused_ending_pauses {index : Nat} {operation : OperationRef}
    {result : Option CompactionResult} {failed : Bool} {claim : Claim} {error : AgentError}
    {settled : System}
    (arrived : system.processes[index]? =
      some (.launch (.ending operation result failed) claim .install))
    (refused : system.session.validateInstallState none = .error error)
    (ran : Runs.run step system [.advance index .go, .advance index .go] = some settled) :
    settled.session.queue.paused = true := by
  simp only [Runs.run, Option.bind_eq_some_iff] at ran
  obtain ⟨between, first, last, second, same⟩ := ran
  obtain rfl := Option.some.inj same
  simp only [step, arrived, Option.bind_some, advance, advanceLaunch, Launcher.successorOf,
    refused] at first
  split at first
  · cases first
  · obtain rfl := Option.some.inj first
    obtain ⟨inside, _⟩ := List.getElem?_eq_some_iff.mp arrived
    simp only [step, put, List.getElem?_set_self inside, Option.bind_some, advance,
      Option.some.injEq] at second
    obtain rfl := second
    simp [Session.abandonClaim, QueueState.abandonClaim, Launcher.pauseOn]

/-- At the end of a compaction the claim of the head passes the installation check
exactly where no active loop is left when the claim is taken. Otherwise the head
is refused as busy, and giving it back pauses the queue. -/
theorem ending_installs_iff_no_active_loop (reached : system.Reachable) {launched final : System}
    {index : Nat} {choice : Choice} {operation : OperationRef}
    {result : Option CompactionResult} {failed : Bool} {claim : Claim}
    (ends : system.processes[index]? = some (.claiming operation result failed))
    (claimed : system.step (.advance index choice) = some launched)
    (launches : launched.processes[index]? =
      some (.launch (.ending operation result failed) claim .configure))
    (continued : Runs.Reachable step launched final)
    (arrived : final.processes[index]? =
      some (.launch (.ending operation result failed) claim .install))
    (unblocked : final.session.inner.blocked = none)
    (unclosed : final.session.inner.closing = false) :
    (final.session.validateInstallState none = .ok () ↔ system.session.inner.active = none) ∧
    (system.session.inner.active ≠ none →
      final.session.validateInstallState none = .error .sessionBusy ∧
      ∀ settled, Runs.run step final [.advance index .go, .advance index .go] = some settled →
        settled.session.queue.paused = true) := by
  have taken : launched.session.inner = system.session.inner := by
    simp only [step, ends, Option.bind_some, advance] at claimed
    split at claimed
    · cases claimed
    · split at claimed
      · rename_i done
        obtain ⟨_, rfl⟩ := Session.claim_after_compaction_frame done
        exact Option.some.inj claimed ▸ rfl
      · rename_i done
        obtain ⟨_, rfl⟩ := Session.claim_after_compaction_frame done
        exact Option.some.inj claimed ▸ rfl
  have begun := Runs.reachable_step reached claimed
  have active : final.session.inner.active = system.session.inner.active :=
    (ending_keeps_active begun rfl launches continued arrived rfl unclosed).trans
      (congrArg SessionInner.active taken)
  have later : final.Reachable := by
    refine Runs.reachable_invariant (fun final => final.Reachable) begun ?_ continued
    intro before action after earlier advanced
    exact Runs.reachable_step earlier advanced
  have running := owner_busy (reachable_sound later) arrived (.inl (by simp [Process.claims]))
  obtain ⟨free, slotCompleted⟩ := busy_slots (reachable_board later).1 running
  rw [← active]
  have validated := validate_free unblocked unclosed free slotCompleted
  rw [validated]
  cases present : final.session.inner.active with
  | none => simp
  | some loop =>
    refine ⟨by simp, fun _ => ⟨by simp, ?_⟩⟩
    intro settled ran
    rw [present, if_neg (by simp)] at validated
    exact refused_ending_pauses arrived validated ran

/-- A compaction is admitted and cancelled before it starts, with an input pushed
in between, and its end is about to try a start. -/
def cancelledWithInput : List Action :=
  [.admitCompaction "op", .acceptInput .followUp "first" true none, .cancelCompaction "op",
    .advance 1 .go, .advance 0 .go, .advance 0 .go]

/-- The result that reports the cancellation. -/
def cancelledResult : CompactionResult :=
  (CompactionOperation.new "op").failedResult "cancelled" none

/-- In a Session without an earlier turn the input passes the check. -/
theorem cancelled_with_input_installs :
    (Runs.replay step start
      (cancelledWithInput ++ [.advance 0 .go, .advance 0 .go])).session.validateInstallState
        none = .ok () := by
  have reached : (Runs.replay step start cancelledWithInput).Reachable :=
    Runs.reachable_replay (by decide)
  have ends : (Runs.replay step start cancelledWithInput).processes[0]? =
      some (.claiming 0 (some cancelledResult) false) := by decide
  have claimed : (Runs.replay step start cancelledWithInput).step (.advance 0 .go) =
      some (Runs.replay step start (cancelledWithInput ++ [.advance 0 .go])) := by decide
  have launches :
      (Runs.replay step start (cancelledWithInput ++ [.advance 0 .go])).processes[0]? =
        some (.launch (.ending 0 (some cancelledResult) false)
          ⟨⟨1, .followUp, "first", none⟩, 1⟩ .configure) := by decide
  exact (ending_installs_iff_no_active_loop reached ends claimed launches
    ⟨[.advance 0 .go], by decide⟩ (by decide) (by decide) (by decide)).1.mpr (by decide)

/-- The first turn has completed and ended its period, and no cleanup has cleared
its active loop yet. -/
def completedTurn : List Action :=
  firstTurn ++
    [.advance 1 (.report .completed), .advance 1 (.append .written false none),
      .advance 1 (.register 0), .advance 1 .go]

/-- After that turn a compaction is admitted and cancelled before it starts, with
an input pushed in between, up to the installation check of its end. -/
def cancelledAfterTurn : List Action :=
  completedTurn ++
    [.admitCompaction "op", .acceptInput .followUp "second" true none, .cancelCompaction "op",
      .advance 3 .go, .advance 2 .go, .advance 2 .go, .advance 2 .go, .advance 2 .go]

/-- The claim of that end is refused as busy although nothing runs, and the queue
is paused with the input in it. -/
theorem cancelled_after_turn_refused :
    (Runs.run step start cancelledAfterTurn).isSome ∧
    (Runs.replay step start cancelledAfterTurn).session.inner.blocked = none ∧
    (Runs.replay step start cancelledAfterTurn).session.inner.closing = false ∧
    (Runs.replay step start cancelledAfterTurn).session.validateInstallState none =
      .error .sessionBusy ∧
    (Runs.replay step start
      (cancelledAfterTurn ++ [.advance 2 .go, .advance 2 .go])).session.queue.paused = true ∧
    (Runs.replay step start
      (cancelledAfterTurn ++ [.advance 2 .go, .advance 2 .go])).session.queue.items =
      [{ id := 2, mode := .followUp, input := "second", acceptedAt := none }] := by
  decide

end System

end MinicoreAgent.SessionSystem

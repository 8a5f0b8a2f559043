import MinicoreAgent.QueueOrder

/-!
# Started loops, their drivers and their completions

From the moment the Runtime starts a loop until its completion is registered,
exactly one process carries it: first the launch that holds the inner lock, then
the driver that the active loop names. The steps are sorted once by what they do
to loops; the invariant of carried loops follows from these few cases. It shows
that a Session with an uncompleted active loop is busy, which bounds what a
snapshot carries.
-/
namespace MinicoreAgent.SessionSystem

open InputQueue SessionState InputLedger

/-- The started loop whose completion a process still owes. -/
def Process.carries : Process → Option LoopId
  | .launch _ _ (.installing loopId) => some loopId
  | .driver turn .joining => some turn
  | .driver turn (.persisting _) => some turn
  | .driver turn (.completing _) => some turn
  | _ => none

/-- The finished task whose join a cleanup has seen. -/
def Process.hasJoined : Process → Option TaskId
  | .cleanup _ (.joined task _) => some task
  | _ => none

/-- What a process at some position knows about loops. A launch that has started
its loop holds the inner lock, and the loop it replaces is completed. A driver
that owes a completion drives the active loop. Its tail and its successor's
launch continue from a completed turn. -/
def Process.Fits (session : Session) (index : Nat) : Process → Prop
  | .launch launcher claim stage =>
    match stage with
    | .installing loopId =>
      session.locked = true ∧
      session.loops[loopId]? = some
        { prompt := claim.entry, generation := claim.generation, completion := none } ∧
      ∀ active, session.inner.active = some active → (session.completionOf active.turn).isSome
    | _ =>
      ∀ turn, launcher.successorOf = some turn → (session.completionOf turn).isSome
  | .driver turn stage =>
    match stage with
    | .tail _ => (session.completionOf turn).isSome
    | _ =>
      ∃ started, session.loops[turn]? = some started ∧ started.completion = none ∧
        session.inner.active = some
          { turn := turn, input := started.prompt.item, task := index,
            generation := started.generation }
  | _ => True

/-- The part of the shared state that concerns loops stays. -/
structure SameLoops (session after : Session) : Prop where
  loops : after.loops = session.loops
  active : after.inner.active = session.inner.active
  locked : after.locked = session.locked
  registered : after.results.registered = session.results.registered
  through : after.results.through = session.results.through

/-- A process that neither carries a loop nor follows one. -/
def Process.Idle (process : Process) : Prop :=
  process.carries = none ∧ ∀ session index, process.Fits session index

/-- What a section of a process does to loops. -/
inductive LoopStep (session : Session) (count index : Nat) :
    Process → Session → Process → List Process → Prop
  | quiet (process next : Process) (after : Session) (spawned : List Process)
      (same : SameLoops session after) (carries : next.carries = process.carries)
      (fits : ∀ before, process.Fits before index → next.Fits before index)
      (idle : ∀ other ∈ spawned, other.Idle) :
      LoopStep session count index process after next spawned
  | cleared (caller : CleanupCaller) (task : TaskId) (failed : Bool) (after : Session)
      (next : Process) (loops : after.loops = session.loops)
      (active : after.inner.active = (session.clearActiveTask task).inner.active)
      (locked : after.locked = session.locked) (results : after.results = session.results)
      (idle : next.Idle) :
      LoopStep session count index (.cleanup caller (.joined task failed)) after next []
  | begun (launcher : Launcher) (claim : Claim)
      (valid : session.validateInstallState launcher.successorOf = .ok ()) :
      LoopStep session count index (.launch launcher claim .install)
        (session.beginInstall claim).2
        (.launch launcher claim (.installing (session.beginInstall claim).1)) []
  | succeeded (launcher : Launcher) (claim : Claim) (loopId : LoopId) :
      LoopStep session count index (.launch launcher claim (.installing loopId))
        (session.finishInstall claim loopId index) (.driver loopId .joining) []
  | installed (launcher : Launcher) (claim : Claim) (loopId : LoopId) :
      LoopStep session count index (.launch launcher claim (.installing loopId))
        (session.finishInstall claim loopId count) launcher.settled [.driver loopId .joining]
  | completed (turn : LoopId) (stage : DriverStage) (completion : TurnCompletion)
      (entry : CompletionEntry) (after : Session) (next : Process)
      (carries : (Process.driver turn stage).carries = some turn)
      (loops : after.loops = (session.sendCompletion turn completion).loops)
      (active : after.inner.active = session.inner.active)
      (locked : after.locked = session.locked)
      (registered : after.results.registered = session.results.registered ++ [entry])
      (through : after.results.through = session.results.through + 1)
      (named : entry.loopId = turn) (numbered : entry.seq = session.results.through + 1)
      (tail : next.Idle ∨ ∃ kept, next = .driver turn (.tail kept)) :
      LoopStep session count index (.driver turn stage) after next []

theorem settled_idle (launcher : Launcher) : launcher.settled.Idle := by
  cases launcher with
  | ending operation result failed => cases result <;> exact ⟨rfl, fun _ _ => trivial⟩
  | _ => exact ⟨rfl, fun _ _ => trivial⟩

theorem refused_idle (caller : CleanupCaller) (error : AgentError) :
    (caller.refused error).Idle := by
  cases caller <;> exact ⟨rfl, fun _ _ => trivial⟩

/-- A cleanup that succeeds starts a call's launch, which follows no turn. -/
theorem cleaned_idle (caller : CleanupCaller) : caller.cleaned.Idle := by
  cases caller with
  | call claim =>
    refine ⟨rfl, fun _ _ turn follows => ?_⟩
    cases follows
  | compaction operation => exact ⟨rfl, fun _ _ => trivial⟩

section Steps

variable {session after : Session} {count index : Nat} {process next : Process}
  {spawned : List Process}

/-- A section that leaves loops alone and moves to an idle process. -/
theorem LoopStep.resting (same : SameLoops session after) (free : process.carries = none)
    (idle : next.Idle) (others : ∀ other ∈ spawned, other.Idle) :
    LoopStep session count index process after next spawned :=
  .quiet process next after spawned same (idle.1.trans free.symm)
    (fun before _ => idle.2 before index) others

theorem SameLoops.refl (session : Session) : SameLoops session session :=
  ⟨rfl, rfl, rfl, rfl, rfl⟩

/-- Forgetting a compaction leaves loops alone. -/
theorem clear_compaction_loops (session : Session) (operation : OperationRef) :
    SameLoops session (session.clearCompaction operation) := by
  unfold Session.clearCompaction
  split <;> exact ⟨rfl, rfl, rfl, rfl, rfl⟩

/-- Claims change only the queue. -/
theorem claim_successor_loops {claim : Option Claim}
    (done : session.claimSuccessor = (claim, after)) : SameLoops session after := by
  obtain ⟨queue, rfl⟩ := Session.claim_successor_frame done
  exact ⟨rfl, rfl, rfl, rfl, rfl⟩

theorem claim_after_compaction_loops {claim : Option Claim}
    (done : session.claimAfterCompaction = (claim, after)) : SameLoops session after := by
  obtain ⟨queue, rfl⟩ := Session.claim_after_compaction_frame done
  exact ⟨rfl, rfl, rfl, rfl, rfl⟩

theorem start_compaction_loops {operation : OperationRef} {task : TaskId}
    {covered retained : Nat}
    (done : session.startCompaction operation task covered retained = .ok after) :
    SameLoops session after := by
  obtain ⟨_, _, _, _, progress, rfl⟩ := Session.start_compaction_ok done
  exact ⟨rfl, rfl, rfl, rfl, rfl⟩

theorem complete_compaction_loops (session : Session) (operation : OperationRef)
    (result : CompactionResult) :
    SameLoops session (session.completeCompaction operation result).2 := by
  unfold Session.completeCompaction
  split <;> exact ⟨rfl, rfl, rfl, rfl, rfl⟩

theorem compaction_phase_loops (session : Session) (operation : OperationRef)
    (phase : CompactionPhase) :
    SameLoops session (session.setCompactionPhase operation phase) := by
  unfold Session.setCompactionPhase
  split <;> exact ⟨rfl, rfl, rfl, rfl, rfl⟩

/-- A driver that owes a completion and publishes an internal one settles it. -/
theorem publish_internal_completes (turn : LoopId) (stage : DriverStage) (evicted : Nat)
    (failed : Bool) (carries : (Process.driver turn stage).carries = some turn) :
    LoopStep session count index (.driver turn stage) (session.publishInternal turn evicted)
      (.finished failed false) [] :=
  .completed turn stage .internal _ _ _ carries rfl rfl rfl rfl rfl rfl rfl
    (.inl ⟨rfl, fun _ _ => trivial⟩)

/-- A completed turn settles the loop and leaves the driver its tail. -/
theorem complete_turn_completes (turn : LoopId) (report : Session.TurnReport) (evicted : Nat) :
    LoopStep session count index (.driver turn (.completing report))
      (session.completeTurn turn report evicted).2
      (.driver turn (.tail (session.completeTurn turn report evicted).1)) [] := by
  refine .completed turn _ (.finished report.outcome report.persistence) _ _ _ rfl rfl ?_ rfl rfl
    rfl rfl rfl (.inr ⟨_, rfl⟩)
  simp only [Session.completeTurn, Session.sendCompletion]
  split <;> rfl

/-- Every section is one of these loop steps. -/
theorem ProcessStep.loop_step {manner : Manner}
    (moved : ProcessStep session count index manner process after next spawned) :
    LoopStep session count index process after next spawned := by
  have unlaunched (launcher : Launcher) (claim : Claim)
      (fresh : launcher.successorOf = none) :
      (Process.launch launcher claim .configure).Idle := by
    refine ⟨rfl, fun _ _ turn follows => ?_⟩
    rw [fresh] at follows
    cases follows
  cases moved with
  | cleanupBlocked caller | joinedBlocked caller | reapsUnpublished caller =>
    exact .resting (.refl session) rfl (refused_idle caller _) (by simp)
  | cleanupJoins | cleanupReaps | reaps | reapsPublished | joinsNoTask | admissionProceeds
  | startRefused | admissionGone | workerMoves | workerEnds | driverEnds | tailDied
  | workerDied =>
    exact .resting (.refl session) rfl ⟨rfl, fun _ _ => trivial⟩ (by simp)
  | admissionCancelled | admissionCleared | commitPassed | projectionPublished
  | resultPublished | cancelled | claimDropped | abandonDied =>
    exact .resting ⟨rfl, rfl, rfl, rfl, rfl⟩ rfl ⟨rfl, fun _ _ => trivial⟩ (by simp)
  | joinedFailed caller task =>
    exact .cleared caller task true _ _ (by unfold Session.clearActiveTask; split <;> rfl) rfl
      (by unfold Session.clearActiveTask; split <;> rfl)
      (by unfold Session.clearActiveTask; split <;> rfl) (refused_idle caller _)
  | joinedCleared caller task =>
    exact .cleared caller task false _ _ (by unfold Session.clearActiveTask; split <;> rfl) rfl
      (by unfold Session.clearActiveTask; split <;> rfl)
      (by unfold Session.clearActiveTask; split <;> rfl) ⟨rfl, fun _ _ => trivial⟩
  | nothingToReap caller => exact .resting (.refl session) rfl (cleaned_idle caller) (by simp)
  | reapedFailed caller operation =>
    obtain ⟨loops, active, locked, registered, through⟩ := clear_compaction_loops session operation
    exact .resting ⟨loops, active, locked, registered, through⟩ rfl (refused_idle caller _)
      (by simp)
  | reapedCleared caller operation =>
    exact .resting (clear_compaction_loops session operation) rfl (cleaned_idle caller) (by simp)
  | configured launcher claim =>
    exact .quiet _ _ _ _ (.refl session) rfl (fun _ fits => fits) (by simp)
  | launchRefused launcher claim stage error unlocked early =>
    have free : (Process.launch launcher claim stage).carries = none := by
      rcases early with rfl | rfl <;> rfl
    exact .resting (.refl session) free ⟨rfl, fun _ _ => trivial⟩ (by simp)
  | installBegun launcher claim unlocked valid => exact .begun launcher claim valid
  | successorInstalled turn claim loopId => exact .succeeded (.successor turn) claim loopId
  | installed launcher claim loopId => exact .installed launcher claim loopId
  | abandoned launcher claim pause =>
    exact .resting ⟨rfl, rfl, rfl, rfl, rfl⟩ rfl (settled_idle launcher) (by simp)
  | compactionStarted operation reservation covered retained _ unlocked done =>
    refine .resting (start_compaction_loops done) rfl ⟨rfl, fun _ _ => trivial⟩ ?_
    intro other member
    obtain rfl := List.mem_singleton.mp member
    exact ⟨rfl, fun _ _ => trivial⟩
  | phaseChanged operation reservation phase =>
    exact .resting (compaction_phase_loops session operation phase) rfl
      ⟨rfl, fun _ _ => trivial⟩ (by simp)
  | compactionCompleted operation result failed =>
    exact .resting (complete_compaction_loops session operation result) rfl
      ⟨rfl, fun _ _ => trivial⟩ (by simp)
  | nothingToStart operation result failed _ unlocked done =>
    exact .resting (claim_after_compaction_loops done) rfl (settled_idle _) (by simp)
  | startsAfterCompaction operation result failed claim _ unlocked done =>
    exact .resting (claim_after_compaction_loops done) rfl (unlaunched _ claim rfl) (by simp)
  | reported | persisted | notPersisted | persistenceUnknown =>
    exact .quiet _ _ _ _ ⟨rfl, rfl, rfl, rfl, rfl⟩ rfl (fun _ fits => fits) (by simp)
  | notReported turn evicted => exact publish_internal_completes turn .joining evicted false rfl
  | turnCompleted turn report evicted => exact complete_turn_completes turn report evicted
  | noSuccessor turn _ unlocked done =>
    exact .resting (claim_successor_loops done) rfl ⟨rfl, fun _ _ => trivial⟩ (by simp)
  | successorClaimed turn claim _ unlocked done =>
    refine .quiet _ _ _ _ (claim_successor_loops done) rfl ?_ (by simp)
    intro before fits other follows
    obtain rfl : turn = other := by simpa [Launcher.successorOf] using follows
    exact fits
  | compactionCallDropped process operation waiting =>
    have free : process.carries = none := by
      rcases waiting with rfl | rfl | ⟨stage, rfl⟩ <;> rfl
    exact .resting (.refl session) free ⟨rfl, fun _ _ => trivial⟩ (by simp)
  | driverDied turn stage evicted unlocked armed =>
    have carries : (Process.driver turn stage).carries = some turn := by
      cases stage with
      | tail kept => exact absurd rfl (armed kept)
      | _ => rfl
    exact publish_internal_completes turn stage evicted true carries
  | launchDied turn claim stage early =>
    have free : (Process.launch (.successor turn) claim stage).carries = none := by
      cases stage with
      | installing loopId => exact absurd rfl (early loopId)
      | _ => rfl
    exact .resting ⟨rfl, rfl, rfl, rfl, rfl⟩ free ⟨rfl, fun _ _ => trivial⟩ (by simp)

/-- Requests leave loops alone and add idle processes. -/
theorem ClientStep.loops (moved : ClientStep session after spawned) :
    SameLoops session after ∧ ∀ other ∈ spawned, other.Idle := by
  have called (claim : Option Claim) : ∀ other ∈ claim.toList.map
      (fun claim => Process.cleanup (.call claim) .begin), other.Idle := by
    intro other member
    obtain ⟨_, _, rfl⟩ := List.mem_map.mp member
    exact ⟨rfl, fun _ _ => trivial⟩
  cases moved with
  | accepted mode text acceptedAt id claim _ unlocked done =>
    obtain ⟨_, _, _, _, _, _, _, _, rfl⟩ := Session.accept_input_ok done
    exact ⟨⟨rfl, rfl, rfl, rfl, rfl⟩, called claim⟩
  | removed id text _ done =>
    unfold Session.removeInput at done
    split at done
    · cases done
    · cases done
      exact ⟨⟨rfl, rfl, rfl, rfl, rfl⟩, by simp⟩
  | resumed claim _ unlocked done =>
    obtain ⟨_, _, rfl⟩ := Session.accept_resume_ok done
    exact ⟨⟨rfl, rfl, rfl, rfl, rfl⟩, called claim⟩
  | took loopId =>
    refine ⟨?_, by simp⟩
    unfold Session.take
    split <;> exact ⟨rfl, rfl, rfl, rfl, rfl⟩
  | admitted operationId operation _ unlocked done =>
    obtain ⟨_, _, _, _, _, rfl⟩ := Session.admit_compaction_ok done
    refine ⟨⟨rfl, rfl, rfl, rfl, rfl⟩, ?_⟩
    intro other member
    obtain rfl := List.mem_singleton.mp member
    exact ⟨rfl, fun _ _ => trivial⟩
  | cancelRequested operation known =>
    refine ⟨⟨rfl, rfl, rfl, rfl, rfl⟩, ?_⟩
    intro other member
    obtain rfl := List.mem_singleton.mp member
    exact ⟨rfl, fun _ _ => trivial⟩
  | shutDown unlocked =>
    obtain ⟨operations, equal⟩ := session.begin_shutdown_frame
    rw [equal]
    exact ⟨⟨rfl, rfl, rfl, rfl, rfl⟩, by simp⟩
  | closeBegun _ unlocked done =>
    obtain ⟨_, _, rfl⟩ := Session.begin_close_ok done
    obtain ⟨operations, equal⟩ := session.begin_shutdown_frame
    rw [equal]
    exact ⟨⟨rfl, rfl, rfl, rfl, rfl⟩, by simp⟩
  | sampled runtime snapshot _ unlocked done =>
    obtain ⟨_, _, _, _, _, rfl⟩ := Session.sample_ok done
    exact ⟨⟨rfl, rfl, rfl, rfl, rfl⟩, by simp⟩
  | recalled | unregistered | evicted => exact ⟨⟨rfl, rfl, rfl, rfl, rfl⟩, by simp⟩

/-- A request adds no process that has seen a join. -/
theorem ClientStep.unjoined (moved : ClientStep session after spawned) :
    ∀ other ∈ spawned, other.hasJoined = none := by
  cases moved with
  | accepted mode text acceptedAt id claim | resumed claim =>
    cases claim <;> simp [Process.hasJoined]
  | _ => simp [Process.hasJoined]

/-- A section never ends in a join that was seen, and a finished process takes
none. -/
theorem ProcessStep.unjoined {manner : Manner}
    (moved : ProcessStep session count index manner process after next spawned) :
    next.hasJoined = none ∧ (∀ other ∈ spawned, other.hasJoined = none) ∧
      ∀ broken seen, process ≠ .finished broken seen := by
  cases moved with
  | cleanupBlocked caller | joinedFailed caller | joinedBlocked caller
  | reapsUnpublished caller | reapedFailed caller =>
    cases caller <;> simp [CleanupCaller.refused, Process.hasJoined]
  | nothingToReap caller | reapedCleared caller =>
    cases caller <;> simp [CleanupCaller.cleaned, Process.hasJoined]
  | installed launcher | abandoned launcher =>
    cases launcher with
    | ending operation result failed =>
      cases result <;> simp [Launcher.settled, Process.hasJoined]
    | _ => simp [Launcher.settled, Process.hasJoined]
  | nothingToStart operation result failed =>
    cases result <;> simp [Launcher.settled, Process.hasJoined]
  | compactionCallDropped process operation waiting =>
    rcases waiting with rfl | rfl | ⟨stage, rfl⟩ <;> simp [Process.hasJoined]
  | _ => simp [Process.hasJoined]

end Steps

/-- Carrying a loop is owning a busy period. -/
theorem carries_owning {process : Process} {loopId : LoopId}
    (carries : process.carries = some loopId) : process.owning = 1 := by
  unfold Process.carries at carries
  split at carries <;> first | rfl | cases carries

/-- What a process knows depends only on the loop part of the shared state. -/
theorem fits_same {session after : Session} (same : SameLoops session after) {index : Nat}
    {process : Process} (fits : process.Fits session index) : process.Fits after index := by
  cases process with
  | launch launcher claim stage =>
    cases stage <;>
      simpa only [Process.Fits, Session.completionOf, same.loops, same.active, same.locked]
        using fits
  | driver turn stage =>
    cases stage <;>
      simpa only [Process.Fits, Session.completionOf, same.loops, same.active] using fits
  | _ => trivial

/-- A process that carries no loop knows only that some turn is completed. -/
theorem fits_grow {session after : Session} {index : Nat} {process : Process}
    (free : process.carries = none)
    (grows : ∀ turn, (session.completionOf turn).isSome → (after.completionOf turn).isSome)
    (fits : process.Fits session index) : process.Fits after index := by
  cases process with
  | launch launcher claim stage =>
    cases stage with
    | installing loopId => cases free
    | configure => exact fun turn follows => grows turn (fits turn follows)
    | install => exact fun turn follows => grows turn (fits turn follows)
  | driver turn stage =>
    cases stage with
    | tail kept => exact grows turn fits
    | _ => cases free
  | _ => trivial

/-- A new loop leaves completed turns completed. -/
theorem begin_install_grows (session : Session) (claim : Claim) (turn : LoopId)
    (ended : (session.completionOf turn).isSome) :
    ((session.beginInstall claim).2.completionOf turn).isSome := by
  simp only [Session.completionOf, Session.beginInstall] at ended ⊢
  cases known : session.loops[turn]? with
  | none => simp [known] at ended
  | some started =>
    obtain ⟨inside, _⟩ := List.getElem?_eq_some_iff.mp known
    rw [List.getElem?_append_left inside]
    exact ended

/-- Sending a completion leaves completed turns completed. -/
theorem send_completion_grows (session : Session) (loopId turn : LoopId)
    (completion : TurnCompletion) (ended : (session.completionOf turn).isSome) :
    ((session.sendCompletion loopId completion).completionOf turn).isSome := by
  simp only [Session.completionOf, Session.sendCompletion, List.getElem?_modify] at ended ⊢
  cases known : session.loops[turn]? with
  | none => simp [known] at ended
  | some started =>
    by_cases same : loopId = turn
    · simp [same]
    · simpa [same, known] using ended

namespace System

/-- Every uncompleted loop is carried, every process fits the shared state, and
every completed loop is registered under a sequence number that was given out. -/
structure Driven (system : System) : Prop where
  fits : ∀ (index : Nat) (process : Process), system.processes[index]? = some process →
    process.Fits system.session index
  carried : ∀ (loopId : Nat) (started : StartedLoop),
    system.session.loops[loopId]? = some started → started.completion = none →
    ∃ (index : Nat) (process : Process),
      system.processes[index]? = some process ∧ process.carries = some loopId
  known : ∀ active, system.session.inner.active = some active →
    active.turn < system.session.loops.length
  registered : ∀ loopId, (system.session.completionOf loopId).isSome →
    ∃ entry ∈ system.session.results.registered, entry.loopId = loopId
  numbered : ∀ entry ∈ system.session.results.registered,
    entry.seq ≤ system.session.results.through

/-- A task whose join was seen stays finished. -/
def JoinsFinished (system : System) : Prop :=
  ∀ (index : Nat) (process : Process) (task : Nat), system.processes[index]? = some process →
    process.hasJoined = some task →
    ∃ broken seen : Bool, system.processes[task]? = some (.finished broken seen)

variable {system : System} {index : Nat} {process next : Process} {session : Session}
  {spawned : List Process}

/-- A carrier is the only one. -/
theorem carrier_alone (sound : system.ledger.Sound) {position : Nat} {other : Process}
    {loopId : LoopId} (present : system.processes[index]? = some process)
    (carries : process.carries = some loopId) (apart : position ≠ index)
    (placed : system.processes[position]? = some other) : other.carries = none := by
  cases second : other.carries with
  | none => rfl
  | some otherId =>
    have two := Slots.two_le_total Process.owning system.processes index position process other
      (Ne.symm apart) present placed
    rw [carries_owning carries, carries_owning second] at two
    have one := sound.owned
    simp only [Ledger.owners, ledger, ledgerOf, owning] at one
    cases running : system.session.queue.running <;> simp [running] at one <;> omega

/-- No loop is carried while a claim is held. -/
theorem claimant_alone (sound : system.ledger.Sound) {position : Nat} {other : Process}
    {claim : Claim} (present : system.processes[index]? = some process)
    (holds : process.claims = {claim})
    (placed : system.processes[position]? = some other) : other.carries = none := by
  obtain ⟨others, split⟩ := Slots.total_split Process.claims system.processes index process present
  have held : system.ledger.claims = claim ::ₘ others := by
    simp only [ledger, ledgerOf, claims, (split process).1, holds, Multiset.singleton_add]
  obtain ⟨_, _, unowned⟩ := sound.claim_alone held
  cases second : other.carries with
  | none => rfl
  | some otherId =>
    have one := Slots.le_total Process.owning system.processes position other placed
    rw [carries_owning second] at one
    simp only [ledger, ledgerOf, owning] at unowned
    omega

/-- Steps that leave loops alone keep the invariant, if every process fits where
an earlier one did or is idle, and every carrier is still there. -/
theorem same_driven (driven : system.Driven) (same : SameLoops system.session session)
    {processes : List Process}
    (fits : ∀ (position : Nat) (found : Process), processes[position]? = some found →
      found.Idle ∨ ∃ before, system.processes[position]? = some before ∧
        ∀ earlier, before.Fits earlier position → found.Fits earlier position)
    (kept : ∀ (position : Nat) (carrier : Process) (loopId : LoopId),
      system.processes[position]? = some carrier → carrier.carries = some loopId →
      ∃ found, processes[position]? = some found ∧ found.carries = some loopId) :
    Driven { session := session, processes := processes } where
  fits := by
    intro position found placed
    rcases fits position found placed with idle | ⟨before, old, passes⟩
    · exact idle.2 session position
    · exact fits_same same (passes _ (driven.fits position before old))
  carried := by
    intro loopId started
    rw [same.loops]
    intro known pending
    obtain ⟨position, carrier, placed, carried⟩ := driven.carried loopId started known pending
    obtain ⟨found, now, carries⟩ := kept position carrier loopId placed carried
    exact ⟨position, found, now, carries⟩
  known := by
    intro active
    simp only [same.active, same.loops]
    exact driven.known active
  registered := by
    intro loopId
    simp only [Session.completionOf, same.loops, same.registered]
    exact driven.registered loopId
  numbered := by
    simp only [same.registered, same.through]
    exact driven.numbered

/-- A section that leaves loops alone keeps the invariant. -/
theorem quiet_driven (driven : system.Driven)
    (present : system.processes[index]? = some process)
    (same : SameLoops system.session session) (carries : next.carries = process.carries)
    (fits : ∀ before, process.Fits before index → next.Fits before index)
    (idle : ∀ other ∈ spawned, other.Idle) :
    Driven { session := session, processes := system.processes.set index next ++ spawned } := by
  refine same_driven driven same ?_ ?_
  · intro position found placed
    rcases Slots.replaced_cases placed with ⟨rfl, rfl⟩ | ⟨_, old⟩ | ⟨offset, _, added⟩
    · exact .inr ⟨process, present, fits⟩
    · exact .inr ⟨found, old, fun _ passes => passes⟩
    · exact .inl (idle found (List.mem_of_getElem? added))
  · intro position carrier loopId placed carried
    by_cases moving : position = index
    · subst moving
      obtain rfl : process = carrier := Option.some.inj (present.symm.trans placed)
      exact ⟨next, Slots.replaced_self spawned present, carries.trans carried⟩
    · exact ⟨carrier, Slots.replaced_other spawned moving placed, carried⟩

/-- So does a request, which only adds idle processes. -/
theorem client_driven (driven : system.Driven) (same : SameLoops system.session session)
    (idle : ∀ other ∈ spawned, other.Idle) :
    Driven { session := session, processes := system.processes ++ spawned } := by
  refine same_driven driven same ?_ ?_
  · intro position found placed
    rcases Nat.lt_or_ge position system.processes.length with inside | beyond
    · rw [List.getElem?_append_left inside] at placed
      exact .inr ⟨found, placed, fun _ passes => passes⟩
    · rw [List.getElem?_append_right beyond] at placed
      exact .inl (idle found (List.mem_of_getElem? placed))
  · intro position carrier loopId placed carried
    obtain ⟨inside, _⟩ := List.getElem?_eq_some_iff.mp placed
    exact ⟨carrier, by rw [List.getElem?_append_left inside, placed], carried⟩

/-- Clearing the active loop of a finished task concerns no carried loop: a
driver that owes a completion is not finished. -/
theorem cleared_driven (driven : system.Driven) {task : TaskId} {broken seen : Bool}
    (present : system.processes[index]? = some process) (free : process.carries = none)
    (ended : system.processes[task]? = some (.finished broken seen))
    (loops : session.loops = system.session.loops)
    (active : session.inner.active = (system.session.clearActiveTask task).inner.active)
    (locked : session.locked = system.session.locked)
    (results : session.results = system.session.results) (idle : next.Idle) :
    Driven { session := session, processes := system.processes.set index next ++ [] } where
  fits := by
    intro position found placed
    rcases Slots.replaced_cases placed with ⟨rfl, rfl⟩ | ⟨_, old⟩ | ⟨offset, _, added⟩
    · exact idle.2 session _
    · have fits := driven.fits position found old
      have kept : ∀ current, session.inner.active = some current →
          system.session.inner.active = some current := by
        intro current now
        rw [active] at now
        unfold Session.clearActiveTask at now
        split at now
        · cases now
        · exact now
      have stays (turn : LoopId) (started : StartedLoop)
          (current : system.session.inner.active = some
            { turn := turn, input := started.prompt.item, task := position,
              generation := started.generation }) (unfinished : position ≠ task) :
          session.inner.active = system.session.inner.active := by
        rw [active, Session.clearActiveTask, if_neg]
        simpa [current] using unfinished
      cases found with
      | launch launcher claim stage =>
        cases stage with
        | installing loopId =>
          obtain ⟨holds, started, before⟩ := fits
          refine ⟨locked.trans holds, by rw [loops]; exact started, ?_⟩
          intro current now
          simpa only [Session.completionOf, loops] using before current (kept current now)
        | _ => simpa only [Process.Fits, Session.completionOf, loops] using fits
      | driver turn stage =>
        have unfinished : position ≠ task := by
          rintro rfl
          rw [ended] at old
          cases old
        cases stage with
        | tail continued => simpa only [Process.Fits, Session.completionOf, loops] using fits
        | _ =>
          obtain ⟨started, known, pending, current⟩ := fits
          refine ⟨started, by rw [loops]; exact known, pending, ?_⟩
          rw [stays turn started current unfinished, current]
      | _ => trivial
    · simp at added
  carried := by
    intro loopId started
    rw [loops]
    intro known pending
    obtain ⟨position, carrier, placed, carried⟩ := driven.carried loopId started known pending
    have moving : position ≠ index := by
      rintro rfl
      obtain rfl : process = carrier := Option.some.inj (present.symm.trans placed)
      rw [free] at carried
      cases carried
    exact ⟨position, carrier, Slots.replaced_other [] moving placed, carried⟩
  known := by
    intro current now
    rw [loops]
    rw [active] at now
    unfold Session.clearActiveTask at now
    split at now
    · cases now
    · exact driven.known current now
  registered := by
    intro loopId
    simp only [Session.completionOf, loops, results]
    exact driven.registered loopId
  numbered := by
    rw [results]
    exact driven.numbered

/-- A launch that starts its loop carries it under the lock. -/
theorem begun_driven (sound : system.ledger.Sound) (driven : system.Driven)
    {launcher : Launcher} {claim : Claim}
    (present : system.processes[index]? = some (.launch launcher claim .install))
    (valid : system.session.validateInstallState launcher.successorOf = .ok ()) :
    Driven
      { session := (system.session.beginInstall claim).2
        processes := system.processes.set index
          (.launch launcher claim (.installing (system.session.beginInstall claim).1)) ++ [] } where
  fits := by
    intro position found placed
    rcases Slots.replaced_cases placed with ⟨rfl, rfl⟩ | ⟨_, old⟩ | ⟨offset, _, added⟩
    · refine ⟨rfl, by simp [Session.beginInstall], ?_⟩
      intro active current
      have follows := driven.fits _ _ present
      apply begin_install_grows
      have known : system.session.inner.active = some active := current
      unfold Session.validateInstallState at valid
      split at valid
      · cases valid
      · cases successor : launcher.successorOf with
        | none => simp [known, successor] at valid
        | some turn =>
          have same : active.turn = turn := by
            by_cases equal : active.turn = turn
            · exact equal
            · simp [known, successor, equal] at valid
          rw [same]
          exact follows turn successor
    · exact fits_grow (claimant_alone sound present rfl old)
        (begin_install_grows system.session claim) (driven.fits position found old)
    · simp at added
  carried := by
    intro loopId started known pending
    simp only [Session.beginInstall] at known ⊢
    rcases Nat.lt_or_ge loopId system.session.loops.length with old | new
    · rw [List.getElem?_append_left old] at known
      obtain ⟨position, carrier, placed, carried⟩ := driven.carried loopId started known pending
      rw [claimant_alone sound present rfl placed] at carried
      cases carried
    · have last : loopId = system.session.loops.length := by
        have inside := (List.getElem?_eq_some_iff.mp known).1
        simp only [List.length_append, List.length_singleton] at inside
        omega
      subst last
      exact ⟨index, _, Slots.replaced_self [] present, rfl⟩
  known := by
    intro active current
    have inside := driven.known active current
    simp only [Session.beginInstall, List.length_append]
    exact Nat.lt_add_right _ inside
  registered := by
    intro loopId ended
    refine driven.registered loopId ?_
    simp only [Session.completionOf, Session.beginInstall] at ended ⊢
    rcases Nat.lt_or_ge loopId system.session.loops.length with old | new
    · rwa [List.getElem?_append_left old] at ended
    · rw [List.getElem?_append_right new] at ended
      cases offset : loopId - system.session.loops.length <;> simp [offset] at ended
  numbered := driven.numbered

/-- An installed loop is carried by its driver, which the active loop names. The
driver is the launching process itself or a new one. -/
theorem installed_driven (sound : system.ledger.Sound) (driven : system.Driven)
    {launcher : Launcher} {claim : Claim} {loopId : LoopId} {task : TaskId}
    {processes : List Process}
    (present : system.processes[index]? = some (.launch launcher claim (.installing loopId)))
    (drives : processes[task]? = some (.driver loopId .joining))
    (others : ∀ (position : Nat) (found : Process), processes[position]? = some found →
      (position = task ∧ found = .driver loopId .joining) ∨ found.Idle ∨
        (position ≠ index ∧ system.processes[position]? = some found)) :
    Driven
      { session := system.session.finishInstall claim loopId task, processes := processes } where
  fits := by
    intro position found placed
    rcases others position found placed with ⟨rfl, rfl⟩ | idle | ⟨apart, old⟩
    · obtain ⟨_, started, _⟩ := driven.fits _ _ present
      exact ⟨_, started, rfl, rfl⟩
    · exact idle.2 _ position
    · have grows : ∀ turn, (system.session.completionOf turn).isSome →
          ((system.session.finishInstall claim loopId task).completionOf turn).isSome :=
        fun _ ended => ended
      exact fits_grow (carrier_alone sound present rfl apart old) grows
        (driven.fits position found old)
  carried := by
    intro otherId started known pending
    obtain ⟨position, carrier, placed, carried⟩ := driven.carried otherId started known pending
    by_cases moving : position = index
    · subst moving
      obtain rfl := Option.some.inj (present.symm.trans placed)
      obtain rfl : loopId = otherId := Option.some.inj carried
      exact ⟨task, _, drives, rfl⟩
    · rw [carrier_alone sound present rfl moving placed] at carried
      cases carried
  known := by
    intro active current
    obtain ⟨_, started, _⟩ := driven.fits _ _ present
    obtain rfl := Option.some.inj current
    exact (List.getElem?_eq_some_iff.mp started).1
  registered := driven.registered
  numbered := driven.numbered

/-- A completed loop is registered and no longer carried. -/
theorem completed_driven (sound : system.ledger.Sound) (driven : system.Driven) {turn : LoopId}
    {stage : DriverStage} {completion : TurnCompletion} {entry : CompletionEntry}
    (present : system.processes[index]? = some (.driver turn stage))
    (carries : (Process.driver turn stage).carries = some turn)
    (loops : session.loops = (system.session.sendCompletion turn completion).loops)
    (active : session.inner.active = system.session.inner.active)
    (registered : session.results.registered = system.session.results.registered ++ [entry])
    (through : session.results.through = system.session.results.through + 1)
    (named : entry.loopId = turn) (numbered : entry.seq = system.session.results.through + 1)
    (tail : next.Idle ∨ ∃ kept, next = .driver turn (.tail kept)) :
    Driven { session := session, processes := system.processes.set index next ++ [] } := by
  have grows (other : LoopId) (ended : (system.session.completionOf other).isSome) :
      (session.completionOf other).isSome := by
    have sent := send_completion_grows system.session turn other completion ended
    simpa only [Session.completionOf, loops] using sent
  have fits := driven.fits _ _ present
  obtain ⟨started, known, pending⟩ : ∃ started, system.session.loops[turn]? = some started ∧
      started.completion = none := by
    cases stage with
    | tail kept => cases carries
    | _ =>
      obtain ⟨started, known, pending, _⟩ := fits
      exact ⟨started, known, pending⟩
  have ended : session.completionOf turn = some completion := by
    simp [Session.completionOf, loops, Session.sendCompletion, known]
  constructor
  case fits =>
    intro position found placed
    rcases Slots.replaced_cases placed with ⟨rfl, rfl⟩ | ⟨apart, old⟩ | ⟨offset, _, added⟩
    · rcases tail with idle | ⟨kept, rfl⟩
      · exact idle.2 session _
      · simp only [Process.Fits, ended, Option.isSome_some]
    · exact fits_grow (carrier_alone sound present carries apart old) grows
        (driven.fits position found old)
    · simp at added
  case carried =>
    intro otherId other found open_
    simp only [loops, Session.sendCompletion, List.getElem?_modify] at found
    by_cases same : turn = otherId
    · subst same
      simp only [known, if_true, Option.map_eq_map, Option.map_some, Option.some.injEq] at found
      subst found
      cases open_
    · have before : system.session.loops[otherId]? = some other := by simpa [same] using found
      obtain ⟨position, carrier, placed, carried⟩ := driven.carried otherId other before open_
      have moving : position ≠ index := by
        rintro rfl
        obtain rfl := Option.some.inj (present.symm.trans placed)
        exact same (Option.some.inj (carries.symm.trans carried))
      exact ⟨position, carrier, Slots.replaced_other [] moving placed, carried⟩
  case known =>
    intro current now
    rw [active] at now
    have inside := driven.known current now
    simpa [loops, Session.sendCompletion] using inside
  case registered =>
    intro otherId completed
    rw [registered]
    by_cases same : otherId = turn
    · exact ⟨entry, by simp, named.trans same.symm⟩
    · have before : (system.session.completionOf otherId).isSome := by
        simpa [Session.completionOf, loops, Session.sendCompletion, Ne.symm same] using completed
      obtain ⟨earlier, member, names⟩ := driven.registered otherId before
      exact ⟨earlier, List.mem_append_left _ member, names⟩
  case numbered =>
    intro other member
    rw [registered] at member
    rw [through]
    rcases List.mem_append.mp member with old | new
    · exact Nat.le_succ_of_le (driven.numbered other old)
    · obtain rfl := List.mem_singleton.mp new
      exact Nat.le_of_eq numbered

/-- Every loop step keeps the invariant. -/
theorem loop_step_driven (sound : system.ledger.Sound) (driven : system.Driven)
    (joins : system.JoinsFinished) (present : system.processes[index]? = some process)
    (moved : LoopStep system.session system.processes.length index process session next spawned) :
    Driven { session := session, processes := system.processes.set index next ++ spawned } := by
  cases moved with
  | quiet _ _ _ _ same carries fits idle =>
    exact quiet_driven driven present same carries fits idle
  | cleared caller task failed _ _ loops active locked results idle =>
    obtain ⟨broken, seen, ended⟩ := joins index _ task present rfl
    exact cleared_driven driven present rfl ended loops active locked results idle
  | begun launcher claim valid => exact begun_driven sound driven present valid
  | succeeded launcher claim loopId =>
    refine installed_driven sound driven present (Slots.replaced_self [] present) ?_
    intro position found placed
    rcases Slots.replaced_cases placed with same | old | ⟨offset, _, added⟩
    · exact .inl same
    · exact .inr (.inr old)
    · simp at added
  | installed launcher claim loopId =>
    refine installed_driven sound driven present (by simp) ?_
    intro position found placed
    rcases Slots.replaced_cases placed with ⟨_, rfl⟩ | old | ⟨offset, rfl, added⟩
    · exact .inr (.inl (settled_idle launcher))
    · exact .inr (.inr old)
    · cases offset with
      | zero => exact .inl ⟨rfl, (Option.some.inj added).symm⟩
      | succ offset => simp at added
  | completed turn stage completion entry _ _ carries loops active locked registered through
      named numbered tail =>
    exact completed_driven sound driven present carries loops active registered through named
      numbered tail

/-- A finished task stays finished when another process moves. -/
theorem joins_process (joins : system.JoinsFinished)
    (present : system.processes[index]? = some process)
    (quiet : next.hasJoined = none) (others : ∀ other ∈ spawned, other.hasJoined = none)
    (unfinished : ∀ broken seen, process ≠ .finished broken seen) :
    JoinsFinished
      { session := session, processes := system.processes.set index next ++ spawned } := by
  intro position found task placed joined
  rcases Slots.replaced_cases placed with ⟨rfl, rfl⟩ | ⟨_, old⟩ | ⟨offset, _, added⟩
  · rw [quiet] at joined
    cases joined
  · obtain ⟨broken, seen, ended⟩ := joins position found task old joined
    have apart : task ≠ index := by
      rintro rfl
      exact unfinished broken seen (Option.some.inj (present.symm.trans ended))
    exact ⟨broken, seen, Slots.replaced_other spawned apart ended⟩
  · rw [others found (List.mem_of_getElem? added)] at joined
    cases joined

/-- Marking a finished task as joined keeps every finished task finished. -/
theorem joins_marked (session : Session) (joins : system.JoinsFinished) {task : Nat}
    {failed seen : Bool} (ended : system.processes[task]? = some (.finished failed seen)) :
    JoinsFinished
      { session := session, processes := system.processes.set task (.finished failed true) } := by
  intro position found other placed joined
  rcases Slots.set_cases placed with ⟨_, rfl⟩ | ⟨_, old⟩
  · cases joined
  · obtain ⟨broken, noted, finished⟩ := joins position found other old joined
    by_cases same : other = task
    · subst same
      exact ⟨failed, true, List.getElem?_set_self (List.getElem?_eq_some_iff.mp ended).1⟩
    · exact ⟨broken, noted, by rw [List.getElem?_set_ne (Ne.symm same), finished]⟩

/-- What is known of started loops along every run. -/
structure LoopsKept (system : System) : Prop where
  driven : system.Driven
  joins : system.JoinsFinished

theorem step_loops_kept {action : Action} {after : System} (sound : system.ledger.Sound)
    (kept : system.LoopsKept) (advanced : system.step action = some after) :
    after.LoopsKept := by
  cases step_transition advanced with
  | client session spawned moved =>
    obtain ⟨same, idle⟩ := moved.loops
    refine ⟨client_driven kept.driven same idle, ?_⟩
    intro position found task placed joined
    rcases Nat.lt_or_ge position system.processes.length with inside | beyond
    · rw [List.getElem?_append_left inside] at placed
      obtain ⟨broken, seen, ended⟩ := kept.joins position found task placed joined
      obtain ⟨known, _⟩ := List.getElem?_eq_some_iff.mp ended
      exact ⟨broken, seen, by rw [List.getElem?_append_left known, ended]⟩
    · rw [List.getElem?_append_right beyond] at placed
      rw [moved.unjoined found (List.mem_of_getElem? placed)] at joined
      cases joined
  | process manner index process next session spawned present named moved =>
    obtain ⟨quiet, others, unfinished⟩ := moved.unjoined
    exact ⟨loop_step_driven sound kept.driven kept.joins present moved.loop_step,
      joins_process kept.joins present quiet others unfinished⟩
  | joined index task caller stage next failed seen present ended waited =>
    have apart : index ≠ task := by
      rintro rfl
      rw [present] at ended
      cases ended
    have kinds (position : Nat) (found : Process)
        (placed : ((system.processes.set task (.finished failed true)).set index
          (.cleanup caller next))[position]? = some found) :
        (position = index ∧ found = .cleanup caller next) ∨
          (position = task ∧ found = .finished failed true) ∨
          (system.processes[position]? = some found) := by
      rcases Slots.set_cases placed with replaced | ⟨_, older⟩
      · exact .inl replaced
      · rcases Slots.set_cases older with marked | ⟨_, old⟩
        · exact .inr (.inl marked)
        · exact .inr (.inr old)
    have stays (position : Nat) (found : Process) (other : position ≠ index)
        (distinct : position ≠ task) (placed : system.processes[position]? = some found) :
        ((system.processes.set task (.finished failed true)).set index
          (.cleanup caller next))[position]? = some found := by
      rw [List.getElem?_set_ne (Ne.symm other), List.getElem?_set_ne (Ne.symm distinct), placed]
    have marked : ((system.processes.set task (.finished failed true)).set index
        (.cleanup caller next))[task]? = some (.finished failed true) := by
      rw [List.getElem?_set_ne apart,
        List.getElem?_set_self (List.getElem?_eq_some_iff.mp ended).1]
    constructor
    · refine same_driven kept.driven (.refl system.session) ?_ ?_
      · intro position found placed
        rcases kinds position found placed with ⟨_, rfl⟩ | ⟨_, rfl⟩ | old
        · exact .inl ⟨rfl, fun _ _ => trivial⟩
        · exact .inl ⟨rfl, fun _ _ => trivial⟩
        · exact .inr ⟨found, old, fun _ passes => passes⟩
      · intro position carrier loopId placed carried
        have other : position ≠ index := by
          rintro rfl
          obtain rfl := Option.some.inj (present.symm.trans placed)
          cases carried
        have distinct : position ≠ task := by
          rintro rfl
          obtain rfl := Option.some.inj (ended.symm.trans placed)
          cases carried
        exact ⟨carrier, stays position carrier other distinct placed, carried⟩
    · have finished (other : Nat) (broken noted : Bool)
          (old : system.processes[other]? = some (.finished broken noted)) :
          ∃ broken seen : Bool,
            ((system.processes.set task (.finished failed true)).set index
              (.cleanup caller next))[other]? = some (.finished broken seen) := by
        by_cases same : other = task
        · exact ⟨failed, true, same ▸ marked⟩
        · have moving : other ≠ index := by
            rintro rfl
            rw [present] at old
            cases old
          exact ⟨broken, noted, stays other _ moving same old⟩
      intro position found other placed joined
      rcases kinds position found placed with ⟨_, rfl⟩ | ⟨_, rfl⟩ | old
      · rcases waited with ⟨_, rfl⟩ | ⟨operation, _, rfl⟩
        · obtain rfl : task = other := Option.some.inj joined
          exact ⟨failed, true, marked⟩
        · cases joined
      · cases joined
      · obtain ⟨broken, noted, old⟩ := kept.joins position found other old joined
        exact finished other broken noted old
  | closed task failed seen session unlocked closing ended reaped =>
    refine ⟨?_, joins_marked session kept.joins ended⟩
    rcases reaped with rfl | ⟨operation, _, rfl⟩
    · have cleared := cleared_driven kept.driven ended rfl ended
        (show (system.session.clearActiveTask task).loops = _ by
          unfold Session.clearActiveTask; split <;> rfl) rfl
        (by unfold Session.clearActiveTask; split <;> rfl)
        (by unfold Session.clearActiveTask; split <;> rfl)
        (show (Process.finished failed true).Idle from ⟨rfl, fun _ _ => trivial⟩)
      simpa using cleared
    · refine same_driven kept.driven (clear_compaction_loops system.session operation) ?_ ?_
      · intro position found placed
        rcases Slots.set_cases placed with ⟨_, rfl⟩ | ⟨_, old⟩
        · exact .inl ⟨rfl, fun _ _ => trivial⟩
        · exact .inr ⟨found, old, fun _ passes => passes⟩
      · intro position carrier loopId placed carried
        have distinct : position ≠ task := by
          rintro rfl
          obtain rfl := Option.some.inj (ended.symm.trans placed)
          cases carried
        exact ⟨carrier, by rw [List.getElem?_set_ne (Ne.symm distinct), placed], carried⟩

/-- The invariant of loops holds in every reachable state. -/
theorem reachable_loops_kept (reached : system.Reachable) : system.LoopsKept := by
  have both : system.ledger.Sound ∧ system.LoopsKept := by
    refine Runs.reachable_invariant (fun system => system.ledger.Sound ∧ system.LoopsKept) ?_ ?_
      reached
    · refine ⟨Ledger.sound_initial, ?_, ?_⟩
      · constructor <;> simp [start, Session.new, Session.completionOf]
      · intro index process task placed
        simp [start] at placed
    · rintro before action after ⟨sound, kept⟩ advanced
      exact ⟨(step_moves advanced).sound sound, step_loops_kept sound kept advanced⟩
  exact both.2

end System

end MinicoreAgent.SessionSystem

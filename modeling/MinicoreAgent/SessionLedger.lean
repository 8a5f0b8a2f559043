import MinicoreAgent.InputLedger
import MinicoreAgent.Lib.Slots
import MinicoreAgent.SessionTransitions

/-!
# The Session refines the ledger

Each process holds at most one claim or owns at most one busy period. Adding up
what all processes hold turns a system state into a ledger. Every step of the
system is then a sequence of ledger moves, and only a driver that dies while it
keeps the period for a successor makes a lossy one. The ledger's invariants hold
along every run.
-/
namespace MinicoreAgent.SessionSystem

open InputQueue SessionState InputLedger

/-- The claim a process holds and has not installed. -/
def Process.claims : Process → Multiset Claim
  | .cleanup (.call claim) _ => {claim}
  | .launch _ _ (.installing _) => 0
  | .launch _ claim _ => {claim}
  | .abandon _ claim _ => {claim}
  | _ => 0

/-- Whether a process drives a loop whose busy period it has not ended. The loop
counts from the moment the Runtime started it. -/
def Process.owning : Process → Nat
  | .launch _ _ (.installing _) => 1
  | .driver _ (.tail false) => 0
  | .driver _ _ => 1
  | _ => 0

/-- The ledger of a shared state, given what the processes hold. -/
def ledgerOf (session : Session) (claims : Multiset Claim) (owning : Nat) : Ledger :=
  { queue := session.queue, claims := claims, owning := owning
    started := session.loops.map StartedLoop.claim
    departed := session.departed, returned := session.returned, accepted := session.accepted
    locked := session.locked }

namespace System

/-- The claims all processes hold together. -/
def claims (system : System) : Multiset Claim := Slots.total Process.claims system.processes

/-- The number of drivers that own a busy period. -/
def owning (system : System) : Nat := Slots.total Process.owning system.processes

def ledger (system : System) : Ledger := ledgerOf system.session system.claims system.owning

/-- The one death that no guard answers: a driver whose turn is completed and
whose busy period waits for the successor. -/
def keptTailDies (system : System) : Action → Bool
  | .die index _ =>
    match system.processes[index]? with
    | some (.driver _ (.tail true)) => true
    | _ => false
  | _ => false

end System

/-- Sending a completion does not change what a loop was started for. -/
theorem started_send (session : Session) (loopId : LoopId) (completion : TurnCompletion) :
    (session.sendCompletion loopId completion).loops.map StartedLoop.claim =
      session.loops.map StartedLoop.claim := by
  apply List.ext_getElem?
  intro position
  by_cases same : loopId = position
  · simp only [Session.sendCompletion, List.getElem?_map, List.getElem?_modify, same, if_true,
      Option.map_eq_map, Option.map_map]
    rfl
  · simp [Session.sendCompletion, same]

section Refinement

variable (lossy : Bool) (session : Session) (claims : Multiset Claim) (owning : Nat)
  {after : Session}

/-- Sections that leave inputs and the queue alone are no move. -/
theorem moves_refl_of_eq {lossy : Bool} {before next : Ledger} (same : before = next) :
    Moves lossy before next := same ▸ .refl

/-- A call that goes on in the background holds exactly its claim. -/
theorem spawned_call (claim : Claim) (claims : Multiset Claim) (owning : Nat)
    (session : Session) :
    ledgerOf session
      (Slots.total Process.claims
        ([claim].map (fun claim => Process.cleanup (.call claim) .begin)) + claims)
      (Slots.total Process.owning
        ([claim].map (fun claim => Process.cleanup (.call claim) .begin)) + owning) =
      ledgerOf session (claim ::ₘ claims) owning := by
  simp [Process.claims, Process.owning]

theorem client_moves {spawned : List Process} (moved : ClientStep session after spawned) :
    Moves lossy (ledgerOf session claims owning)
      (ledgerOf after (Slots.total Process.claims spawned + claims)
        (Slots.total Process.owning spawned + owning)) := by
  cases moved with
  | accepted mode text acceptedAt id claim _ unlocked done =>
    obtain ⟨_, _, room, entry, queue, numbered, _, claimed, rfl⟩ := Session.accept_input_ok done
    have pushes : Move lossy (ledgerOf session claims owning)
        (ledgerOf (session.pushed entry) claims owning) :=
      .push (ledgerOf session claims owning) entry room numbered
    cases claim with
    | none =>
      obtain ⟨rfl, _⟩ := Session.claim_start_none claimed
      simp only [Option.toList_none, List.map_nil, Slots.total_nil, zero_add]
      exact .single pushes
    | some claim =>
      obtain ⟨idle, unpaused, _, started⟩ := Session.claim_start_some claimed
      have holds : Move lossy _ _ := Move.claim
        (ledgerOf (session.pushed entry) claims owning) claim queue idle unpaused started
      refine .tail (.single pushes) ?_
      simp only [Option.toList_some, spawned_call]
      exact holds
  | removed id text _ done =>
    unfold Session.removeInput at done
    split at done
    · cases done
    · rename_i entry queue removed
      cases done
      simp only [Slots.total_nil, zero_add]
      exact .single (.remove (ledgerOf session claims owning) id entry queue removed)
  | recalled =>
    simp only [Slots.total_nil, zero_add]
    exact .single (.clear (ledgerOf session claims owning))
  | resumed claim _ unlocked done =>
    obtain ⟨queue, claimed, rfl⟩ := Session.accept_resume_ok done
    have resumes : Move lossy (ledgerOf session claims owning)
        (ledgerOf session.resumed claims owning) :=
      .resume (ledgerOf session claims owning)
    cases claim with
    | none =>
      obtain ⟨rfl, _⟩ := Session.claim_start_none claimed
      simp only [Option.toList_none, List.map_nil, Slots.total_nil, zero_add]
      exact .single resumes
    | some claim =>
      obtain ⟨idle, unpaused, _, started⟩ := Session.claim_start_some claimed
      have holds : Move lossy _ _ := Move.claim
        (ledgerOf session.resumed claims owning) claim queue idle unpaused started
      refine .tail (.single resumes) ?_
      simp only [Option.toList_some, spawned_call]
      exact holds
  | took loopId =>
    cases known : session.loops[loopId]? with
    | none => exact moves_refl_of_eq (by simp [Session.take, known])
    | some started =>
      by_cases bound : session.queue.binding = some started.generation
      · have present : (session.loops.map StartedLoop.claim)[loopId]? =
            some started.claim := by simp [known]
        have takes : Move lossy _ _ := Move.take (ledgerOf session claims owning) loopId
          started.claim present bound
        refine .single ?_
        simpa [Session.take, known, QueueState.take, bound, ledgerOf, Ledger.take] using takes
      · exact moves_refl_of_eq (by simp [Session.take, known, QueueState.take, bound, ledgerOf])
  | admitted operationId operation _ unlocked done =>
    obtain ⟨_, _, _, _, _, rfl⟩ := Session.admit_compaction_ok done
    exact moves_refl_of_eq (by simp [ledgerOf, Process.claims, Process.owning])
  | cancelRequested operation known =>
    exact moves_refl_of_eq (by simp [ledgerOf, Process.claims, Process.owning])
  | shutDown unlocked =>
    obtain ⟨operations, equal⟩ := session.begin_shutdown_frame
    exact moves_refl_of_eq (by simp [ledgerOf, equal])
  | closeBegun _ unlocked done =>
    obtain ⟨_, _, rfl⟩ := Session.begin_close_ok done
    obtain ⟨operations, equal⟩ := session.begin_shutdown_frame
    exact moves_refl_of_eq (by simp [ledgerOf, equal])
  | unregistered unlocked => exact moves_refl_of_eq (by simp [ledgerOf])
  | sampled runtime snapshot _ unlocked done =>
    obtain ⟨_, _, _, _, _, rfl⟩ := Session.sample_ok done
    exact moves_refl_of_eq (by simp [ledgerOf])
  | evicted count => exact moves_refl_of_eq (by simp [ledgerOf])

/-- A cleanup owns no busy period. -/
@[simp] theorem cleanup_owning (caller : CleanupCaller) (stage : CleanupStage) :
    (Process.cleanup caller stage).owning = 0 := rfl

/-- A refused cleanup still holds the caller's claim. -/
@[simp] theorem refused_claims (caller : CleanupCaller) (error : AgentError)
    (stage : CleanupStage) :
    (caller.refused error).claims = (Process.cleanup caller stage).claims := by
  cases caller <;> rfl

@[simp] theorem refused_owning (caller : CleanupCaller) (error : AgentError) :
    (caller.refused error).owning = 0 := by
  cases caller <;> rfl

/-- So does a cleanup that succeeded. -/
@[simp] theorem cleaned_claims (caller : CleanupCaller) (stage : CleanupStage) :
    caller.cleaned.claims = (Process.cleanup caller stage).claims := by
  cases caller <;> rfl

@[simp] theorem cleaned_owning (caller : CleanupCaller) : caller.cleaned.owning = 0 := by
  cases caller <;> rfl

/-- A settled launcher holds nothing. -/
@[simp] theorem settled_claims (launcher : Launcher) : launcher.settled.claims = 0 := by
  cases launcher with
  | ending operation result failed => cases result <;> rfl
  | _ => rfl

@[simp] theorem settled_owning (launcher : Launcher) : launcher.settled.owning = 0 := by
  cases launcher with
  | ending operation result failed => cases result <;> rfl
  | _ => rfl

/-- Publishing an internal completion ends the driver's period, paused if
anything is queued. -/
theorem publish_internal_moves (turn : LoopId) (evicted : Nat) :
    Move lossy (ledgerOf session claims (owning + 1))
      (ledgerOf (session.publishInternal turn evicted) claims owning) := by
  have ends : Move lossy _ _ := Move.finish (ledgerOf session claims (owning + 1)) owning
    (!session.queue.items.isEmpty) rfl (by simp [ledgerOf])
  have same : ledgerOf (session.publishInternal turn evicted) claims owning =
      (ledgerOf session claims (owning + 1)).finish owning (!session.queue.items.isEmpty) := by
    simp only [ledgerOf, Ledger.finish, Session.publishInternal, started_send]
    rfl
  exact same ▸ ends

/-- Completing a turn keeps the period for a successor or ends it. -/
theorem complete_turn_moves (turn : LoopId) (report : Session.TurnReport) (evicted : Nat) :
    Moves lossy (ledgerOf session claims (1 + owning))
      (ledgerOf (session.completeTurn turn report evicted).2 claims
        ((Process.driver turn (.tail (session.completeTurn turn report evicted).1)).owning +
          owning)) := by
  cases continues : (session.completeTurn turn report evicted).1 with
  | true =>
    refine moves_refl_of_eq ?_
    simp only [Session.completeTurn] at continues
    simp only [ledgerOf, Session.completeTurn, started_send, Process.owning, continues,
      if_true]
    rfl
  | false =>
    simp only [Session.completeTurn] at continues
    have ends : Move lossy _ _ := Move.finish (ledgerOf session claims (1 + owning)) owning
      (!(report.persistence = .persisted && report.outcome = .completed) &&
        !session.queue.items.isEmpty) (Nat.add_comm 1 owning) (by simp [ledgerOf])
    have same : ledgerOf (session.completeTurn turn report evicted).2 claims (0 + owning) =
        (ledgerOf session claims (1 + owning)).finish owning
          (!(report.persistence = .persisted && report.outcome = .completed) &&
            !session.queue.items.isEmpty) := by
      simp only [ledgerOf, Ledger.finish, Session.completeTurn, started_send, continues,
        Nat.zero_add, Bool.false_eq_true, if_false]
      rfl
    exact .single (same ▸ ends)

/-- A driver that looks for a successor claims the head or ends its period. -/
theorem claim_successor_moves {claim : Option Claim}
    (done : session.claimSuccessor = (claim, after)) :
    Moves lossy (ledgerOf session claims (1 + owning))
      (ledgerOf after ((claim.elim 0 fun claim => {claim}) + claims) owning) := by
  unfold Session.claimSuccessor at done
  split at done
  · cases done
    simp only [Option.elim_none, zero_add]
    exact .single (.finish (ledgerOf session claims (1 + owning)) owning
      (!session.queue.items.isEmpty) (Nat.add_comm 1 owning) (by simp [ledgerOf]))
  · split at done
    · rename_i error failed
      obtain ⟨nonempty, _⟩ := QueueState.start_head_error failed
      cases done
      have ends : Move lossy _ _ := Move.finish (ledgerOf session claims (1 + owning)) owning
        true (Nat.add_comm 1 owning) (fun _ => nonempty)
      simp only [Option.elim_none, zero_add]
      simpa [Ledger.finish, ledgerOf] using Relation.ReflTransGen.single ends
    · rename_i queue empty
      obtain ⟨_, rfl⟩ := QueueState.start_head_empty empty
      cases done
      have ends : Move lossy _ _ := Move.finish (ledgerOf session claims (1 + owning)) owning
        false (Nat.add_comm 1 owning) (by simp)
      simp only [Option.elim_none, zero_add]
      simpa [Ledger.finish, ledgerOf] using Relation.ReflTransGen.single ends
    · rename_i claim queue started
      cases done
      simp only [Option.elim_some, Multiset.singleton_add]
      exact .single (.succeed (ledgerOf session claims (1 + owning)) owning claim queue
        (Nat.add_comm 1 owning) started)

/-- The end of a compaction claims the head, finds nothing to start, or pauses a
queue whose generation counter is exhausted. -/
theorem claim_after_compaction_moves {claim : Option Claim}
    (done : session.claimAfterCompaction = (claim, after)) :
    Moves lossy (ledgerOf session claims owning)
      (ledgerOf after ((claim.elim 0 fun claim => {claim}) + claims) owning) := by
  unfold Session.claimAfterCompaction at done
  split at done
  · rename_i error failed
    obtain ⟨idle, _, _, nonempty, _⟩ := Session.claim_start_error failed
    cases done
    simp only [Option.elim_none, zero_add]
    exact .single (.pause (ledgerOf session claims owning) idle nonempty)
  · rename_i claim queue claimed
    cases done
    cases claim with
    | none =>
      obtain ⟨rfl, _⟩ := Session.claim_start_none claimed
      exact moves_refl_of_eq (by simp [ledgerOf])
    | some claim =>
      obtain ⟨idle, unpaused, _, started⟩ := Session.claim_start_some claimed
      simp only [Option.elim_some, Multiset.singleton_add]
      exact .single (.claim (ledgerOf session claims owning) claim queue idle unpaused started)

/-- Giving a claim back. -/
theorem abandon_moves (claim : Claim) (pause : Bool) :
    Moves lossy (ledgerOf session (({claim} : Multiset Claim) + claims) owning)
      (ledgerOf (session.abandonClaim claim.entry pause) claims owning) :=
  .single (.restore (ledgerOf session (({claim} : Multiset Claim) + claims) owning) claim claims
    pause (Multiset.singleton_add claim claims))

/-- The part of the shared state that the ledger sees stays. -/
structure SameInputs (session after : Session) : Prop where
  queue : after.queue = session.queue := by rfl
  loops : after.loops.map StartedLoop.claim = session.loops.map StartedLoop.claim := by rfl
  departed : after.departed = session.departed := by rfl
  returned : after.returned = session.returned := by rfl
  accepted : after.accepted = session.accepted := by rfl
  locked : after.locked = session.locked := by rfl

/-- Sections that only touch what the ledger does not see. -/
theorem quiet_moves {lossy : Bool} {session : Session} {before next : Multiset Claim}
    {earlier later : Nat} (same : SameInputs session after) (claims : before = next)
    (owning : earlier = later) :
    Moves lossy (ledgerOf session before earlier) (ledgerOf after next later) := by
  refine moves_refl_of_eq ?_
  simp only [ledgerOf, same.queue, same.loops, same.departed, same.returned, same.accepted,
    same.locked, claims, owning]

theorem SameInputs.block {session : Session} (same : SameInputs session after)
    (reason : SessionBlockReason) : SameInputs session (after.block reason) :=
  ⟨same.queue, same.loops, same.departed, same.returned, same.accepted, same.locked⟩

theorem clear_active_inputs (task : TaskId) :
    SameInputs session (session.clearActiveTask task) := by
  unfold Session.clearActiveTask
  split <;> exact {}

theorem clear_compaction_inputs (operation : OperationRef) :
    SameInputs session (session.clearCompaction operation) := by
  unfold Session.clearCompaction
  split <;> exact {}

/-- One section of a process is a sequence of moves on what that process holds,
whatever the others hold. -/
theorem process_moves {count index : Nat} {manner : Manner} {process next : Process}
    {spawned : List Process}
    (lost : manner = .died → (∃ turn, process = .driver turn (.tail true)) → lossy = true)
    (moved : ProcessStep session count index manner process after next spawned) :
    Moves lossy (ledgerOf session (process.claims + claims) (process.owning + owning))
      (ledgerOf after (Slots.total Process.claims spawned + (next.claims + claims))
        (Slots.total Process.owning spawned + (next.owning + owning))) := by
  cases moved with
  | cleanupBlocked caller =>
    exact quiet_moves {} (by simp [refused_claims caller _ .begin]) (by simp)
  | cleanupJoins caller | cleanupReaps caller | reaps caller | reapsPublished caller
  | joinsNoTask caller =>
    exact quiet_moves {} (by cases caller <;> simp [Process.claims]) (by simp [Process.owning])
  | joinedFailed caller task =>
    exact quiet_moves ((clear_active_inputs session task).block .internal)
      (by simp [refused_claims caller _ (.joined task true)]) (by simp)
  | joinedBlocked caller task =>
    exact quiet_moves {} (by simp [refused_claims caller _ (.joined task false)]) (by simp)
  | joinedCleared caller task =>
    exact quiet_moves (clear_active_inputs session task)
      (by cases caller <;> simp [Process.claims]) (by simp [Process.owning])
  | nothingToReap caller =>
    exact quiet_moves {} (by simp [cleaned_claims caller .reap]) (by simp)
  | reapsUnpublished caller operation =>
    exact quiet_moves {} (by simp [refused_claims caller _ (.reapOperation operation)]) (by simp)
  | reapedFailed caller operation =>
    exact quiet_moves ((clear_compaction_inputs session operation).block .internal)
      (by simp [refused_claims caller _ (.reaped operation true)]) (by simp)
  | reapedCleared caller operation =>
    exact quiet_moves (clear_compaction_inputs session operation)
      (by simp [cleaned_claims caller (.reaped operation false)]) (by simp)
  | configured launcher claim =>
    exact quiet_moves {} (by simp [Process.claims]) (by simp [Process.owning])
  | launchRefused launcher claim stage error unlocked early =>
    rcases early with rfl | rfl <;>
      exact quiet_moves {} (by simp [Process.claims]) (by simp [Process.owning])
  | installBegun launcher claim =>
    have starts : Move lossy _ _ := Move.start
      (ledgerOf session ({claim} + claims) (0 + owning)) claim claims
      (Multiset.singleton_add claim claims)
    refine .single ?_
    simpa [ledgerOf, Ledger.start, Session.beginInstall, Process.claims, Process.owning,
      Nat.add_comm, StartedLoop.claim] using starts
  | successorInstalled turn claim loopId =>
    have installs : Move lossy _ _ := Move.install
      (ledgerOf session (0 + claims) (1 + owning)) (show 0 < 1 + owning by omega)
    refine .single ?_
    simpa [ledgerOf, Ledger.install, Session.finishInstall, Process.claims, Process.owning]
      using installs
  | installed launcher claim loopId =>
    have installs : Move lossy _ _ := Move.install
      (ledgerOf session (0 + claims) (1 + owning)) (show 0 < 1 + owning by omega)
    refine .single ?_
    simp only [settled_claims, settled_owning]
    simpa [ledgerOf, Ledger.install, Session.finishInstall, Process.claims, Process.owning]
      using installs
  | abandoned launcher claim pause =>
    simp only [settled_claims, settled_owning]
    simpa [Process.claims, Process.owning] using
      abandon_moves lossy session claims owning
        claim pause
  | admissionCancelled | admissionProceeds | startRefused | admissionGone | workerMoves
  | workerEnds | reported | persisted | notPersisted | persistenceUnknown
  | driverEnds | workerDied | admissionCleared =>
    exact quiet_moves {} (by simp [Process.claims]) (by simp [Process.owning])
  | compactionStarted operation reservation covered retained _ unlocked done =>
    obtain ⟨_, _, _, _, progress, rfl⟩ := Session.start_compaction_ok done
    exact quiet_moves {} (by simp [Process.claims]) (by simp [Process.owning])
  | phaseChanged operation reservation phase =>
    unfold Session.setCompactionPhase
    split <;>
      exact quiet_moves {} (by simp [Process.claims]) (by simp [Process.owning])
  | commitPassed | projectionPublished | resultPublished | cancelled =>
    exact quiet_moves {} (by simp [Process.claims]) (by simp [Process.owning])
  | compactionCompleted operation result failed =>
    unfold Session.completeCompaction
    split <;>
      exact quiet_moves {} (by simp [Process.claims]) (by simp [Process.owning])
  | nothingToStart operation result failed _ unlocked done =>
    simp only [settled_claims, settled_owning]
    simpa [Process.claims, Process.owning] using
      claim_after_compaction_moves lossy session claims owning done
  | startsAfterCompaction operation result failed claim _ unlocked done =>
    simpa [Process.claims, Process.owning] using
      claim_after_compaction_moves lossy session claims owning done
  | notReported turn evicted =>
    have ends := publish_internal_moves lossy session claims owning turn evicted
    refine .single ?_
    simpa [Process.claims, Process.owning, Nat.add_comm] using ends
  | turnCompleted turn report evicted =>
    have completes := complete_turn_moves lossy session claims owning turn report evicted
    simpa [Process.claims, Process.owning] using completes
  | noSuccessor turn _ unlocked done =>
    simpa [Process.claims, Process.owning] using
      claim_successor_moves lossy session claims owning done
  | successorClaimed turn claim _ unlocked done =>
    simpa [Process.claims, Process.owning] using
      claim_successor_moves lossy session claims owning done
  | claimDropped claim stage =>
    simpa [Process.claims, Process.owning] using
      abandon_moves lossy session claims owning
        claim false
  | compactionCallDropped process operation waiting =>
    rcases waiting with rfl | rfl | ⟨stage, rfl⟩ <;>
      exact quiet_moves {} (by simp [Process.claims]) (by simp [Process.owning])
  | driverDied turn stage evicted unlocked armed =>
    have ends := publish_internal_moves lossy session claims owning turn evicted
    refine .single ?_
    cases stage with
    | tail kept => exact absurd rfl (armed kept)
    | _ => simpa [Process.claims, Process.owning, Nat.add_comm] using ends
  | tailDied turn kept =>
    cases kept with
    | true =>
      have loses := Move.lose (ledgerOf session claims (1 + owning)) owning
        (lost rfl ⟨turn, rfl⟩) (Nat.add_comm 1 owning)
      refine .single ?_
      simpa [ledgerOf, Process.claims, Process.owning] using loses
    | false =>
      exact quiet_moves {} (by simp [Process.claims]) (by simp [Process.owning])
  | launchDied turn claim stage early =>
    have gives := abandon_moves lossy session claims owning claim false
    cases stage with
    | installing loopId => exact absurd rfl (early loopId)
    | _ => simpa [Process.claims, Process.owning] using gives
  | abandonDied turn claim pause =>
    simpa [Process.claims, Process.owning] using
      abandon_moves lossy session claims owning
        claim false

end Refinement

namespace System

variable {system after : System} {action : Action}

/-- Marking a finished task as joined changes nothing anyone holds. -/
theorem total_joined {M : Type} [AddCommMonoid M] (measure : Process → M)
    (processes : List Process) (task : Nat) (failed seen : Bool)
    (nothing : ∀ failed seen, measure (.finished failed seen) = 0)
    (ended : processes[task]? = some (.finished failed seen)) :
    Slots.total measure (processes.set task (.finished failed true)) =
      Slots.total measure processes := by
  obtain ⟨others, split⟩ := Slots.total_split measure processes task _ ended
  obtain ⟨before, after⟩ := split (.finished failed true)
  rw [before, after, nothing, nothing]

/-- Every step is a sequence of ledger moves, lossless unless a driver dies while
it keeps the period for a successor. -/
theorem step_moves (advanced : system.step action = some after) :
    Moves (system.keptTailDies action) system.ledger after.ledger := by
  cases step_transition advanced with
  | client session spawned moved =>
    have moves := client_moves (system.keptTailDies action) system.session system.claims
      system.owning moved
    simp only [ledger, claims, owning, Slots.total_append] at moves ⊢
    rwa [add_comm, Nat.add_comm (Slots.total Process.owning spawned)] at moves
  | process manner index process next session spawned present named moved =>
    obtain ⟨claims, claimsSplit⟩ :=
      Slots.total_split Process.claims system.processes index process present
    obtain ⟨owning, owningSplit⟩ :=
      Slots.total_split Process.owning system.processes index process present
    have lost : manner = .died → (∃ turn, process = .driver turn (.tail true)) →
        system.keptTailDies action = true := by
      rintro rfl ⟨turn, rfl⟩
      cases action with
      | die position evicted =>
        obtain rfl : position = index := named.2
        simp [keptTailDies, present]
      | advance position choice => cases named.1
      | drop position => cases named.1
      | _ => exact named.elim
    have moves := process_moves (system.keptTailDies action) system.session claims owning
      lost moved
    simp only [ledger, System.claims, System.owning, Slots.total_append,
      (claimsSplit next).1, (claimsSplit next).2, (owningSplit next).1, (owningSplit next).2]
    rwa [add_comm (Slots.total Process.claims spawned),
      Nat.add_comm (Slots.total Process.owning spawned)] at moves
  | joined index task caller stage next failed seen present ended waited =>
    have distinct : task ≠ index := by
      rintro rfl
      rw [present] at ended
      cases ended
    have still : (system.processes.set task (.finished failed true))[index]? =
        some (.cleanup caller stage) := by
      rw [List.getElem?_set_ne distinct, present]
    have sameClaims : (Process.cleanup caller next).claims =
        (Process.cleanup caller stage).claims := by cases caller <;> rfl
    obtain ⟨claims, claimsSplit⟩ := Slots.total_split Process.claims _ index _ still
    obtain ⟨owning, owningSplit⟩ := Slots.total_split Process.owning _ index _ still
    refine moves_refl_of_eq ?_
    simp only [ledger, System.claims, System.owning]
    rw [(claimsSplit (.cleanup caller next)).2, (owningSplit (.cleanup caller next)).2,
      sameClaims, ← (claimsSplit (.cleanup caller next)).1,
      show (Process.cleanup caller next).owning = (Process.cleanup caller stage).owning from rfl,
      ← (owningSplit (.cleanup caller next)).1,
      total_joined Process.claims _ task failed seen (fun _ _ => rfl) ended,
      total_joined Process.owning _ task failed seen (fun _ _ => rfl) ended]
  | closed task failed seen session unlocked closing ended reaped =>
    simp only [ledger, System.claims, System.owning]
    rw [total_joined Process.claims _ task failed seen (fun _ _ => rfl) ended,
      total_joined Process.owning _ task failed seen (fun _ _ => rfl) ended]
    rcases reaped with rfl | ⟨operation, _, rfl⟩
    · exact quiet_moves (clear_active_inputs system.session task) rfl rfl
    · exact quiet_moves (clear_compaction_inputs system.session operation) rfl rfl

/-- The ledger of every reachable state is sound. -/
theorem reachable_sound (reached : system.Reachable) : system.ledger.Sound := by
  refine Runs.reachable_invariant (fun system => system.ledger.Sound) ?_ ?_ reached
  · exact Ledger.sound_initial
  · intro before action after sound advanced
    exact Moves.sound (step_moves advanced) sound

end System

end MinicoreAgent.SessionSystem

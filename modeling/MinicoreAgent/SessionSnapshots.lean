import MinicoreAgent.SessionLoops

/-!
# What a snapshot shows

A snapshot is assembled from the queue, the active loop and the completion
catalog. The execution it shows belongs to a busy period, so the texts it carries
are bounded by the queue's own limit. Every accepted input that was not returned
is queued, is the input of the execution, was handed to the loop of the execution,
or went to a loop whose completion is registered.
-/
namespace MinicoreAgent.SessionState

open InputQueue

/-- The input an execution shows. -/
def SessionExecution.input : SessionExecution → Option QueueItem
  | .none => .none
  | .starting input => some input
  | .running _ input _ _ => some input
  | .finishing _ input _ => some input

/-- The loop an execution shows. -/
def SessionExecution.loopId : SessionExecution → Option LoopId
  | .none => .none
  | .starting _ => .none
  | .running loopId _ _ _ => some loopId
  | .finishing loopId _ _ => some loopId

/-- The inputs whose texts a snapshot carries. -/
def SessionSnapshot.inputs (snapshot : SessionSnapshot) : List QueueItem :=
  snapshot.queue.items ++ snapshot.execution.input.toList

namespace Session

variable {session : Session}

/-- An observed active loop shows its own input and id. -/
theorem execution_of_active {active : ActiveLoop} (runtime : RuntimeState)
    (starting : session.queue.starting = none)
    (observed : session.observedActive = some active) :
    (session.execution runtime).input = some active.input ∧
      (session.execution runtime).loopId = some active.turn := by
  unfold execution
  rw [starting, observed]
  cases runtime.status <;> exact ⟨rfl, rfl⟩

/-- An execution shows an input only while an entry starts or a loop is observed. -/
theorem execution_input {item : QueueItem} {runtime : RuntimeState}
    (shown : (session.execution runtime).input = some item) :
    session.queue.starting.isSome ∨ ∃ active, session.observedActive = some active := by
  unfold execution at shown
  cases starting : session.queue.starting with
  | some entry => exact .inl rfl
  | none =>
    cases observed : session.observedActive with
    | some active => exact .inr ⟨active, rfl⟩
    | none => simp [starting, observed, SessionExecution.input] at shown

end Session

end MinicoreAgent.SessionState

namespace MinicoreAgent.SessionSystem.System

open InputQueue SessionState InputLedger

variable {system : System}

/-- A carried loop belongs to a running period without a claim. -/
theorem carrier_runs (sound : system.ledger.Sound) {index : Nat} {process : Process}
    {loopId : LoopId} (present : system.processes[index]? = some process)
    (carries : process.carries = some loopId) :
    system.session.queue.running = true ∧ system.claims = 0 := by
  have owned := Slots.le_total Process.owning system.processes index process present
  rw [carries_owning carries] at owned
  obtain ⟨running, unclaimed, _⟩ := sound.driver_alone (show 0 < system.ledger.owning from owned)
  exact ⟨running, unclaimed⟩

/-- The carrier of a loop is its driver or the launch that holds the lock. -/
theorem carrier_kinds {process : Process} {loopId : LoopId}
    (carries : process.carries = some loopId) :
    (∃ launcher claim, process = .launch launcher claim (.installing loopId)) ∨
      ∃ stage, process = .driver loopId stage ∧ ∀ kept, stage ≠ .tail kept := by
  unfold Process.carries at carries
  split at carries <;> cases carries
  · exact .inl ⟨_, _, rfl⟩
  · exact .inr ⟨_, rfl, by simp⟩
  · exact .inr ⟨_, rfl, by simp⟩
  · exact .inr ⟨_, rfl, by simp⟩

/-- A driver that owes a completion drives the active loop. -/
theorem driver_active {index : Nat} {turn : LoopId} {stage : DriverStage}
    (kept : system.LoopsKept) (present : system.processes[index]? = some (.driver turn stage))
    (owes : ∀ kept, stage ≠ .tail kept) :
    ∃ started, system.session.loops[turn]? = some started ∧ started.completion = none ∧
      system.session.inner.active = some
        { turn := turn, input := started.prompt.item, task := index,
          generation := started.generation } := by
  have fits := kept.driven.fits index _ present
  cases stage with
  | tail continued => exact absurd rfl (owes continued)
  | _ => exact fits

/-- A Session whose active loop is not completed is busy. -/
theorem uncompleted_runs (reached : system.Reachable) {active : ActiveLoop}
    (current : system.session.inner.active = some active)
    (pending : system.session.completionOf active.turn = none) :
    system.session.queue.running = true := by
  have kept := reachable_loops_kept reached
  have inside := kept.driven.known active current
  have known : system.session.loops[active.turn]? = some system.session.loops[active.turn] :=
    List.getElem?_eq_getElem inside
  have open_ : (system.session.loops[active.turn]).completion = none := by
    simpa [Session.completionOf, known] using pending
  obtain ⟨index, process, present, carries⟩ := kept.driven.carried _ _ known open_
  exact (carrier_runs (reachable_sound reached) present carries).1

/-- An execution shows an input only during a busy period. -/
theorem execution_runs (reached : system.Reachable) {runtime : RuntimeState} {item : QueueItem}
    (shown : (system.session.execution runtime).input = some item) :
    system.session.queue.running = true := by
  rcases Session.execution_input shown with starting | ⟨active, observed⟩
  · exact (reachable_sound reached).starts starting
  · simp only [Session.observedActive, Option.filter_eq_some_iff, Bool.or_eq_true,
      Option.isNone_iff_eq_none] at observed
    obtain ⟨current, pending | running⟩ := observed
    · exact uncompleted_runs reached current pending
    · exact running

/-- The bounds of the queue, and of the input texts in every sampled snapshot. -/
theorem queue_and_snapshot_bounded (reached : system.Reachable) :
    system.session.queue.items.length + (if system.session.queue.running then 1 else 0) ≤ 33 ∧
    (32 < system.session.queue.items.length → system.session.queue.running = false) ∧
    (system.session.queue.paused = true →
      system.session.queue.items ≠ [] ∧ system.session.queue.running = false) ∧
    (system.session.queue.binding.isSome → system.session.queue.running = true) ∧
    ∀ runtime snapshot after, system.session.sample runtime = .ok (snapshot, after) →
      snapshot.inputs.length ≤ 33 := by
  have sound := reachable_sound reached
  have room : system.session.queue.items.length ≤ 33 := sound.room
  have runningRoom : system.session.queue.running = true →
      system.session.queue.items.length ≤ 32 := sound.runningRoom
  have bound := binding_running reached
  refine ⟨?_, ?_, sound.pauses, ?_, ?_⟩
  · cases running : system.session.queue.running with
    | false => simpa using room
    | true =>
      have fewer := runningRoom running
      simp only [if_true]
      omega
  · intro full
    cases running : system.session.queue.running with
    | false => rfl
    | true =>
      have fewer := runningRoom running
      omega
  · intro named
    cases running : system.session.queue.running with
    | true => rfl
    | false => simp [bound, running] at named
  · intro runtime snapshot after done
    obtain ⟨_, _, execution, queue, _, _⟩ := Session.sample_ok done
    have items : snapshot.queue.items.length = system.session.queue.items.length := by
      rw [queue, QueueState.view, List.length_map]
      exact (QueueState.run_order_perm _).length_eq
    simp only [SessionSnapshot.inputs, List.length_append, items, execution]
    cases shown : (system.session.execution runtime).input with
    | none => simpa using room
    | some item =>
      have fewer := runningRoom (execution_runs reached shown)
      simp only [Option.toList_some, List.length_singleton]
      omega

/-- What a Runtime handle reports in the examples below. -/
def modelRunning : RuntimeState :=
  { status := .runningModel, requestIndex := 0, pendingInteraction := none }

/-- A running first turn with one queued input stays within the bounds. -/
theorem second_queued_bounded :
    (Runs.replay step start secondQueued).session.queue.items.length +
      (if (Runs.replay step start secondQueued).session.queue.running then 1 else 0) ≤ 33 :=
  (queue_and_snapshot_bounded
    (Runs.reachable_replay (show (Runs.run step start secondQueued).isSome by decide))).1

/-- The snapshot shows an input: queued, as the input of the execution, or through
the registered completion of the loop it went to. -/
def Shows (system : System) (snapshot : SessionSnapshot) (id : Nat) : Prop :=
  (∃ item ∈ snapshot.queue.items, item.id = id) ∨
  (∃ item ∈ snapshot.execution.input, item.id = id) ∨
  ∃ departure ∈ system.session.departed, departure.entry.id = id ∧
    ∃ entry ∈ system.session.results.registered, entry.loopId = departure.loopId ∧
      entry.seq ≤ snapshot.completions.throughSeq

instance (system : System) (snapshot : SessionSnapshot) (id : Nat) :
    Decidable (system.Shows snapshot id) := by
  unfold Shows
  exact inferInstance

/-- The input was handed to the loop the snapshot shows as the execution. -/
def DeliveredToExecution (system : System) (snapshot : SessionSnapshot) (id : Nat) : Prop :=
  ∃ loopId entry, Departure.taken loopId entry ∈ system.session.departed ∧ entry.id = id ∧
    snapshot.execution.loopId = some loopId

/-- An accepted input that was not returned is queued, claimed or departed. -/
theorem accepted_places (reached : system.Reachable) {id : Nat}
    (accepted : id ∈ system.session.accepted)
    (kept : ∀ entry ∈ system.session.returned, entry.id ≠ id) :
    (∃ entry ∈ system.session.queue.items, entry.id = id) ∨
      (∃ claim ∈ system.claims, claim.entry.id = id) ∨
      ∃ departure ∈ system.session.departed, departure.entry.id = id := by
  have placed : id ∈ system.ledger.placed := by
    rw [(reachable_sound reached).conserved]
    exact accepted
  simp only [Ledger.placed, ledger, ledgerOf, Multiset.mem_add, Multiset.mem_coe, List.mem_map,
    Multiset.mem_map] at placed
  rcases placed with ((queued | claimed) | departed) | ⟨entry, member, same⟩
  · exact .inl queued
  · exact .inr (.inl claimed)
  · exact .inr (.inr departed)
  · exact absurd same (kept entry member)

/-- A departed input went to a completed loop, or to the loop of the execution,
whose input is the loop's prompt. -/
theorem departed_shown (reached : system.Reachable) (unlocked : system.session.locked = false)
    (runtime : RuntimeState) {departure : Departure}
    (member : departure ∈ system.session.departed) :
    (∃ entry ∈ system.session.results.registered, entry.loopId = departure.loopId ∧
      entry.seq ≤ system.session.results.through) ∨
    ((system.session.execution runtime).loopId = some departure.loopId ∧
      ∀ prompt, departure.prompted = some prompt →
        (system.session.execution runtime).input = some prompt.item) := by
  have sound := reachable_sound reached
  have kept := reachable_loops_kept reached
  obtain ⟨claim, known, prompts⟩ := sound.addressed departure member
  simp only [ledger, ledgerOf, List.getElem?_map, Option.map_eq_some_iff] at known
  obtain ⟨started, present, rfl⟩ := known
  cases ended : started.completion with
  | some completion =>
    left
    obtain ⟨entry, registered, names⟩ := kept.driven.registered departure.loopId
      (by simp [Session.completionOf, present, ended])
    exact ⟨entry, registered, names, kept.driven.numbered entry registered⟩
  | none =>
    right
    obtain ⟨index, process, placed, carries⟩ := kept.driven.carried _ _ present ended
    rcases carrier_kinds carries with ⟨launcher, claim, rfl⟩ | ⟨stage, rfl, owes⟩
    · have holds := (kept.driven.fits index _ placed).1
      rw [unlocked] at holds
      cases holds
    · obtain ⟨other, same, _, current⟩ := driver_active kept placed owes
      obtain rfl : started = other := Option.some.inj (present.symm.trans same)
      have unclaimed := (carrier_runs sound placed carries).2
      have starting : system.session.queue.starting = none := by
        cases starting : system.session.queue.starting with
        | none => rfl
        | some entry =>
          rcases sound.pending (show system.session.queue.starting.isSome by simp [starting]) with
            held | locked
          · exact absurd unclaimed held
          · exact absurd locked (by simp [ledger, ledgerOf, unlocked])
      have pending : (system.session.completionOf departure.loopId).isNone := by
        simp [Session.completionOf, present, ended]
      have observed : system.session.observedActive = system.session.inner.active := by
        simp [Session.observedActive, current, pending]
      obtain ⟨input, loop⟩ :=
        Session.execution_of_active runtime starting (observed.trans current)
      refine ⟨loop, fun prompt named => ?_⟩
      rw [input, ← prompts prompt named]
      rfl

/-- Requests other than a sample keep the log and the revision. -/
theorem client_sampled {session after : Session} {spawned : List Process}
    (moved : ClientStep session after spawned) :
    (after.sampled = session.sampled ∧ after.inner.revision = session.inner.revision) ∨
      ∃ runtime snapshot, session.sample runtime = .ok (snapshot, after) := by
  cases moved with
  | accepted mode text acceptedAt id claim _ unlocked done =>
    obtain ⟨_, _, _, _, _, _, _, _, rfl⟩ := Session.accept_input_ok done
    exact .inl ⟨rfl, rfl⟩
  | removed id text _ done =>
    unfold Session.removeInput at done
    split at done <;> cases done
    exact .inl ⟨rfl, rfl⟩
  | resumed claim _ unlocked done =>
    obtain ⟨_, _, rfl⟩ := Session.accept_resume_ok done
    exact .inl ⟨rfl, rfl⟩
  | took loopId =>
    left
    unfold Session.take
    split <;> exact ⟨rfl, rfl⟩
  | admitted operationId operation _ unlocked done =>
    obtain ⟨_, _, _, _, _, rfl⟩ := Session.admit_compaction_ok done
    exact .inl ⟨rfl, rfl⟩
  | shutDown unlocked =>
    obtain ⟨operations, equal⟩ := session.begin_shutdown_frame
    exact .inl (by rw [equal]; exact ⟨rfl, rfl⟩)
  | closeBegun _ unlocked done =>
    obtain ⟨_, _, rfl⟩ := Session.begin_close_ok done
    obtain ⟨operations, equal⟩ := session.begin_shutdown_frame
    exact .inl (by rw [equal]; exact ⟨rfl, rfl⟩)
  | sampled runtime snapshot _ unlocked done => exact .inr ⟨runtime, snapshot, done⟩
  | recalled | cancelRequested | unregistered | evicted => exact .inl ⟨rfl, rfl⟩

/-- No section of a process samples. -/
theorem process_sampled {session after : Session} {count index : Nat} {manner : Manner}
    {process next : Process} {spawned : List Process}
    (moved : ProcessStep session count index manner process after next spawned) :
    after.sampled = session.sampled ∧ after.inner.revision = session.inner.revision := by
  cases moved with
  | joinedFailed caller task | joinedCleared caller task =>
    simp only [Session.clearActiveTask, Session.block]
    split <;> exact ⟨rfl, rfl⟩
  | reapedFailed caller operation | reapedCleared caller operation =>
    simp only [Session.clearCompaction, Session.block]
    split <;> exact ⟨rfl, rfl⟩
  | compactionStarted operation reservation covered retained _ unlocked done =>
    obtain ⟨_, _, _, _, progress, rfl⟩ := Session.start_compaction_ok done
    exact ⟨rfl, rfl⟩
  | phaseChanged operation reservation phase =>
    unfold Session.setCompactionPhase
    split <;> exact ⟨rfl, rfl⟩
  | compactionCompleted operation result failed =>
    unfold Session.completeCompaction
    split <;> exact ⟨rfl, rfl⟩
  | nothingToStart operation result failed _ unlocked done =>
    obtain ⟨queue, rfl⟩ := Session.claim_after_compaction_frame done
    exact ⟨rfl, rfl⟩
  | startsAfterCompaction operation result failed claim _ unlocked done =>
    obtain ⟨queue, rfl⟩ := Session.claim_after_compaction_frame done
    exact ⟨rfl, rfl⟩
  | turnCompleted turn report evicted =>
    refine ⟨rfl, ?_⟩
    simp only [Session.completeTurn, Session.sendCompletion]
    split <;> rfl
  | noSuccessor turn _ unlocked done =>
    obtain ⟨queue, rfl⟩ := Session.claim_successor_frame done
    exact ⟨rfl, rfl⟩
  | successorClaimed turn claim _ unlocked done =>
    obtain ⟨queue, rfl⟩ := Session.claim_successor_frame done
    exact ⟨rfl, rfl⟩
  | _ => exact ⟨rfl, rfl⟩

/-- Sampling is the only step that logs a snapshot or moves the revision. -/
theorem sampled_cases {action : Action} {after : System}
    (advanced : system.step action = some after) :
    (after.session.sampled = system.session.sampled ∧
      after.session.inner.revision = system.session.inner.revision) ∨
    ∃ runtime snapshot, system.session.sample runtime = .ok (snapshot, after.session) := by
  cases step_transition advanced with
  | client session spawned moved => exact client_sampled moved
  | process manner index process next session spawned present named moved =>
    exact .inl (process_sampled moved)
  | joined => exact .inl ⟨rfl, rfl⟩
  | closed task failed seen session unlocked closing ended reaped =>
    left
    rcases reaped with rfl | ⟨operation, _, rfl⟩
    · simp only [Session.clearActiveTask]
      split <;> exact ⟨rfl, rfl⟩
    · simp only [Session.clearCompaction]
      split <;> exact ⟨rfl, rfl⟩

/-- Logged revisions increase and stay below the current one. -/
theorem revisions_increase (reached : system.Reachable) :
    (system.session.sampled.map SessionSnapshot.revision).Pairwise (· < ·) ∧
      ∀ snapshot ∈ system.session.sampled,
        snapshot.revision ≤ system.session.inner.revision := by
  refine Runs.reachable_invariant
    (fun system => (system.session.sampled.map SessionSnapshot.revision).Pairwise (· < ·) ∧
      ∀ snapshot ∈ system.session.sampled,
        snapshot.revision ≤ system.session.inner.revision) ?_ ?_ reached
  · simp [start, Session.new]
  · rintro before action after ⟨ordered, bounded⟩ advanced
    rcases sampled_cases advanced with ⟨same, revision⟩ | ⟨runtime, snapshot, done⟩
    · rw [same, revision]
      exact ⟨ordered, bounded⟩
    · obtain ⟨_, number, _, _, _, equal⟩ := Session.sample_ok done
      rw [equal]
      constructor
      · rw [List.map_append, List.pairwise_append]
        refine ⟨ordered, List.pairwise_singleton _ _, ?_⟩
        intro earlier member later last
        obtain ⟨logged, known, rfl⟩ := List.mem_map.mp member
        obtain rfl : later = snapshot.revision := by simpa using last
        rw [number]
        exact Nat.lt_succ_of_le (bounded logged known)
      · intro logged member
        rcases List.mem_append.mp member with known | last
        · exact Nat.le_succ_of_le (bounded logged known)
        · obtain rfl := List.mem_singleton.mp last
          exact Nat.le_of_eq number

/-- Every snapshot shows every accepted input that was not returned, or shows as
its execution the loop the input was handed to. Successive revisions strictly
increase. -/
theorem snapshot_shows_accepted_inputs (reached : system.Reachable) :
    (∀ runtime snapshot after, system.session.locked = false →
      system.session.sample runtime = .ok (snapshot, after) →
      ∀ id ∈ system.session.accepted, (∀ entry ∈ system.session.returned, entry.id ≠ id) →
        system.Shows snapshot id ∨ system.DeliveredToExecution snapshot id) ∧
    (system.session.sampled.map SessionSnapshot.revision).Pairwise (· < ·) := by
  refine ⟨?_, (revisions_increase reached).1⟩
  intro runtime snapshot after unlocked done id accepted kept
  obtain ⟨_, _, execution, queue, completions, _⟩ := Session.sample_ok done
  rcases accepted_places reached accepted kept with
    ⟨entry, queued, rfl⟩ | ⟨claim, held, rfl⟩ | ⟨departure, left, rfl⟩
  · refine .inl (.inl ⟨entry.item, ?_, rfl⟩)
    rw [queue]
    exact List.mem_map_of_mem ((QueueState.run_order_perm _).mem_iff.mpr queued)
  · refine .inl (.inr (.inl ⟨claim.entry.item, ?_, rfl⟩))
    have starting : system.session.queue.starting = some claim.entry :=
      ((reachable_sound reached).claimed claim held).1
    rw [execution, Session.execution, starting]
    rfl
  · rcases departed_shown reached unlocked runtime left with
      ⟨entry, registered, names, numbered⟩ | ⟨loop, input⟩
    · refine .inl (.inr (.inr ⟨departure, left, rfl, entry, registered, names, ?_⟩))
      rw [completions]
      exact numbered
    · cases departure with
      | prompt loopId entry =>
        refine .inl (.inr (.inl ⟨entry.item, ?_, rfl⟩))
        rw [execution]
        exact input entry rfl
      | taken loopId entry =>
        refine .inr ⟨loopId, entry, left, rfl, ?_⟩
        rw [execution]
        exact loop

/-- The second input waits behind the first turn and is shown. -/
theorem second_queued_shown :
    ∃ snapshot after,
      (Runs.replay step start secondQueued).session.sample modelRunning = .ok (snapshot, after) ∧
      ((Runs.replay step start secondQueued).Shows snapshot 2 ∨
        (Runs.replay step start secondQueued).DeliveredToExecution snapshot 2) :=
  ⟨_, _, rfl, (snapshot_shows_accepted_inputs
    (Runs.reachable_replay (show (Runs.run step start secondQueued).isSome by decide))).1
      modelRunning _ _ rfl rfl 2 (by decide) (by decide)⟩

/-- A steer that the running first turn has taken. -/
def takenSteer : List Action := firstTurn ++ [.acceptInput .steer "steer" true none, .take 0]

/-- A taken steer of an uncompleted loop is neither queued, nor the input of the
execution, nor covered by a completion. -/
theorem taken_steer_not_shown :
    (Runs.run step start takenSteer).isSome ∧
    2 ∈ (Runs.replay step start takenSteer).session.accepted ∧
    (Runs.replay step start takenSteer).session.returned = [] ∧
    ∃ snapshot after,
      (Runs.replay step start takenSteer).session.sample modelRunning = .ok (snapshot, after) ∧
      ¬(Runs.replay step start takenSteer).Shows snapshot 2 :=
  ⟨by decide, by decide, by decide, _, _, rfl, by decide⟩

end MinicoreAgent.SessionSystem.System

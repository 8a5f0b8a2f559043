import MinicoreAgent.SessionLedger

/-!
# Where accepted inputs are and who owns a busy period

Consequences of the ledger for the Session itself. An accepted input has exactly
one place in every reachable state. A busy period has exactly one owner as long
as no driver vanishes while it keeps the period for a successor, and that death
is the only one after which a period runs without an owner.
-/
namespace MinicoreAgent.SessionSystem

open InputQueue SessionState InputLedger

/-- The places an accepted input can be in. -/
inductive Place
  | queued
  | claimed
  | prompt
  | taken
  | returned
  deriving DecidableEq, Repr

/-- Whether a departure handed an input with this id to a running loop. -/
def takenAs (id : Nat) : Departure → Bool
  | .taken _ entry => entry.id = id
  | .prompt _ _ => false

/-- Whether a process is the owner of a busy period: it holds a claim that is not
installed, or drives a loop and has not ended its period. -/
def Process.ownsPeriod : Process → Bool
  | .cleanup (.call _) _ => true
  | .launch _ _ _ => true
  | .abandon _ _ _ => true
  | .driver _ (.tail false) => false
  | .driver _ _ => true
  | _ => false

/-- The point of `run_turn` at which the completion is published, the guard is
disarmed, and the period still waits for its successor. -/
def Process.keepsPeriod : Process → Bool
  | .driver _ (.tail true) => true
  | _ => false

namespace System

/-- How often an input id is found in a place. -/
def holds (system : System) (id : Nat) : Place → Nat
  | .queued => system.session.queue.items.countP (·.id = id)
  | .claimed => system.claims.countP (·.entry.id = id)
  | .prompt => system.session.loops.countP (·.prompt.id = id)
  | .taken => system.session.departed.countP (takenAs id)
  | .returned => system.session.returned.countP (·.id = id)

/-- The number of owners of the busy period. -/
def owners (system : System) : Nat := system.processes.countP Process.ownsPeriod

/-- No busy period runs without an owner. -/
def Released (system : System) : Prop :=
  (system.session.queue.running = false ∧ system.session.queue.binding = none) ∨
    0 < system.owners

instance (system : System) : Decidable system.Released := by
  unfold Released
  exact inferInstance

/-- The steps of runs in which no driver dies while it keeps the period. -/
def ownedStep : System → Action → Option System :=
  Runs.guarded (fun system action => !system.keptTailDies action) step

variable {system after : System} {action : Action}

theorem count_ids {Item : Type} (items : List Item) (key : Item → Nat) (id : Nat) :
    (items.map key : Multiset Nat).count id = items.countP (fun item => key item = id) := by
  rw [Multiset.coe_count, List.count, List.countP_map]
  rfl

/-- A departed input is the prompt of a loop or was taken by one. -/
theorem count_departed (departed : List Departure) (id : Nat) :
    departed.countP (·.entry.id = id) =
      (departed.filterMap Departure.prompted).countP (·.id = id) +
        departed.countP (takenAs id) := by
  induction departed with
  | nil => rfl
  | cons departure rest inductionHypothesis =>
    rw [List.countP_cons, List.countP_cons, inductionHypothesis]
    cases departure with
    | prompt loopId entry =>
      have kept : (Departure.prompt loopId entry :: rest).filterMap Departure.prompted =
          entry :: rest.filterMap Departure.prompted := rfl
      rw [kept, List.countP_cons]
      by_cases same : entry.id = id <;> simp [Departure.entry, takenAs, same]
      omega
    | taken loopId entry =>
      have dropped : (Departure.taken loopId entry :: rest).filterMap Departure.prompted =
          rest.filterMap Departure.prompted := rfl
      rw [dropped]
      by_cases same : entry.id = id <;> simp [Departure.entry, takenAs, same]
      omega

/-- The places together hold an id as often as it was accepted. -/
theorem holds_total (reached : system.Reachable) (id : Nat) :
    system.holds id .queued + system.holds id .claimed + system.holds id .prompt +
        system.holds id .taken + system.holds id .returned =
      system.session.accepted.count id := by
  have sound := reachable_sound reached
  have conserved := congrArg (Multiset.count id) sound.conserved
  have prompts : (system.session.departed.filterMap Departure.prompted).countP (·.id = id) =
      system.session.loops.countP (·.prompt.id = id) := by
    have prompted := sound.prompted
    simp only [ledger, ledgerOf, List.map_map] at prompted
    rw [prompted, List.countP_map]
    rfl
  simp only [ledger, ledgerOf, Ledger.placed, Multiset.count_add, count_ids, count_departed,
    prompts, Multiset.count_map] at conserved
  rw [Multiset.coe_count] at conserved
  have claimed : system.claims.countP (·.entry.id = id) =
      (system.claims.filter (fun claim => id = claim.entry.id)).card := by
    rw [Multiset.countP_eq_card_filter]
    congr 1
    exact Multiset.filter_congr fun claim _ => eq_comm
  simp only [holds, claimed]
  omega

/-- Every accepted input is in exactly one place, once, in every reachable state.
Ids that were not accepted are nowhere. -/
theorem accepted_input_has_one_place (reached : system.Reachable) (id : Nat) :
    (id ∈ system.session.accepted →
      ∃ place, system.holds id place = 1 ∧
        ∀ other, other ≠ place → system.holds id other = 0) ∧
    (id ∉ system.session.accepted → ∀ place, system.holds id place = 0) := by
  have total := holds_total reached id
  have distinct : system.session.accepted.Nodup := by
    rw [show system.session.accepted = _ from (reachable_sound reached).numbered]
    exact List.nodup_range'
  constructor
  · intro accepted
    rw [List.count_eq_one_of_mem distinct accepted] at total
    have somewhere : ∃ place, system.holds id place ≠ 0 := by
      by_contra nowhere
      simp only [not_exists, ne_eq, Decidable.not_not] at nowhere
      simp [nowhere] at total
    obtain ⟨place, present⟩ := somewhere
    refine ⟨place, ?_, ?_⟩
    · cases place <;> omega
    · intro other different
      cases place <;> cases other <;> first | omega | exact absurd rfl different
  · intro unknown
    rw [List.count_eq_zero_of_not_mem unknown] at total
    intro place
    cases place <;> omega

/-- A run that starts the first turn: the push claims the head, finds nothing to
clean up, and installs the loop with its driver as process 1. -/
def firstTurn : List Action :=
  [.acceptInput .followUp "first" true none, .advance 0 .go, .advance 0 .go, .advance 0 .go,
    .advance 0 .go, .advance 0 .go]

/-- The first turn runs, and a second input waits in the queue. -/
def secondQueued : List Action := firstTurn ++ [.acceptInput .followUp "second" true none]

/-- The second input is queued once and nowhere else. -/
theorem second_input_has_one_place :
    ∃ place, (Runs.replay step start secondQueued).holds 2 place = 1 ∧
      ∀ other, other ≠ place → (Runs.replay step start secondQueued).holds 2 other = 0 :=
  (accepted_input_has_one_place (Runs.reachable_replay (by decide)) 2).1 (by decide)

/-- A process owns a period exactly when it holds a claim or drives a loop. -/
theorem owns_period_iff (process : Process) :
    (if process.ownsPeriod then 1 else 0) = process.claims.card + process.owning := by
  cases process with
  | cleanup caller stage => cases caller <;> rfl
  | launch launcher claim stage => cases stage <;> rfl
  | driver turn stage =>
    cases stage with
    | tail kept => cases kept <;> rfl
    | _ => rfl
  | _ => rfl

/-- The owners are the outstanding claims and the owning drivers. -/
theorem owners_eq (system : System) : system.owners = system.ledger.owners := by
  simp only [owners, ledger, ledgerOf, Ledger.owners, claims, owning]
  induction system.processes with
  | nil => rfl
  | cons process rest inductionHypothesis =>
    rw [List.countP_cons, inductionHypothesis, owns_period_iff]
    simp only [Slots.total_cons, Multiset.card_add]
    omega

/-- Without a death in a kept tail, a running period has exactly one owner. -/
theorem owned_reachable (reached : Runs.Reachable ownedStep start system) :
    system.ledger.Owned := by
  have both : system.ledger.Sound ∧ system.ledger.Owned := by
    refine Runs.reachable_invariant (fun system => system.ledger.Sound ∧ system.ledger.Owned)
      ⟨Ledger.sound_initial, rfl⟩ ?_ reached
    rintro before action after ⟨sound, owned⟩ advanced
    obtain ⟨allowed, stepped⟩ := Runs.guarded_some advanced
    have lossless : before.keptTailDies action = false := by simpa using allowed
    have moves := step_moves stepped
    rw [lossless] at moves
    exact ⟨moves.sound sound, moves.owned sound owned⟩
  exact both.2

/-- The number of owners, read off the running flag. -/
theorem owners_running (reached : Runs.Reachable ownedStep start system) :
    system.owners = if system.session.queue.running then 1 else 0 := by
  rw [owners_eq]
  exact owned_reachable reached

/-- The binding, read off the running flag and the generation counter. -/
theorem binding_running (reached : system.Reachable) :
    system.session.queue.binding =
      if system.session.queue.running then some system.session.queue.generation else none :=
  (reachable_sound reached).bound

/-- A busy period has a single owner. The take binding exists only during a
period and names the newest generation handed out, so an older loop takes
nothing. -/
theorem busy_period_has_single_owner (reached : Runs.Reachable ownedStep start system) :
    (system.session.queue.running = true ↔ system.owners = 1) ∧ system.owners ≤ 1 ∧
    (∀ generation, system.session.queue.binding = some generation →
      system.session.queue.running = true ∧
      generation = system.session.queue.generation ∧
      (∀ started ∈ system.session.loops, started.generation ≤ generation) ∧
      ∀ claim ∈ system.claims, claim.generation = generation) ∧
    ∀ generation, generation < system.session.queue.generation →
      system.session.queue.take generation = ([], system.session.queue) := by
  have sound := reachable_sound (Runs.reachable_of_guarded reached)
  have owned := owners_running reached
  have bound := binding_running (Runs.reachable_of_guarded reached)
  refine ⟨?_, ?_, ?_, ?_⟩
  · cases running : system.session.queue.running <;> simp [running, owned]
  · cases running : system.session.queue.running <;> simp [running, owned]
  · intro generation names
    rw [names] at bound
    cases running : system.session.queue.running with
    | false => simp [running] at bound
    | true =>
      obtain rfl : generation = system.session.queue.generation := by
        simpa [running] using bound
      refine ⟨rfl, rfl, ?_, fun claim held => (sound.claimed claim held).2⟩
      intro started known
      exact sound.newest started.claim (List.mem_map_of_mem known)
  · intro generation older
    have stale : system.session.queue.binding ≠ some generation := by
      intro names
      rw [names] at bound
      cases running : system.session.queue.running with
      | false => simp [running] at bound
      | true =>
        have same : generation = system.session.queue.generation := by
          simpa [running] using bound
        omega
    simp [QueueState.take, stale]

/-- The first turn is owned by its driver alone. -/
theorem first_turn_has_single_owner :
    ((Runs.replay ownedStep start firstTurn).session.queue.running = true ↔
      (Runs.replay ownedStep start firstTurn).owners = 1) ∧
    (Runs.replay ownedStep start firstTurn).owners = 1 :=
  ⟨(busy_period_has_single_owner (Runs.reachable_replay (by decide))).1, by decide⟩

/-- In such a run no period is ever without its owner. -/
theorem owned_released (reached : Runs.Reachable ownedStep start system) : system.Released := by
  have owned := owners_running reached
  have bound := binding_running (Runs.reachable_of_guarded reached)
  cases running : system.session.queue.running with
  | false => exact .inl ⟨running, by simpa [running] using bound⟩
  | true =>
    right
    simp [owned, running]

/-- What dies is replaced by a process that owns nothing. -/
theorem die_process_put {process : Process} {index evicted : Nat}
    (died : system.dieProcess index evicted process = some after) :
    ∃ next session, after = system.put index next session ∧ next.ownsPeriod = false := by
  unfold dieProcess at died
  split at died
  · split at died
    · cases died
      exact ⟨_, _, rfl, rfl⟩
    · split at died
      · cases died
      · cases died
        exact ⟨_, _, rfl, rfl⟩
  · split at died
    · cases died
    · cases died
      exact ⟨_, _, rfl, rfl⟩
  · cases died
    exact ⟨_, _, rfl, rfl⟩
  · split at died
    · cases died
    · cases died
      exact ⟨_, _, rfl, rfl⟩
  · cases died

/-- A dead owner is no longer counted. -/
theorem die_owners {process : Process} {index evicted : Nat}
    (present : system.processes[index]? = some process)
    (died : system.step (.die index evicted) = some after) :
    after.owners = system.owners - if process.ownsPeriod then 1 else 0 := by
  simp only [step, present, Option.bind_some] at died
  obtain ⟨next, session, rfl, idle⟩ := die_process_put died
  obtain ⟨bound, same⟩ := List.getElem?_eq_some_iff.mp present
  simp [owners, put, List.countP_set bound, same, idle]

/-- A driver that dies in its kept tail leaves the shared state as it is. -/
theorem kept_tail_death {process : Process} {index evicted : Nat}
    (keeps : process.keepsPeriod = true)
    (present : system.processes[index]? = some process)
    (died : system.step (.die index evicted) = some after) :
    after.session = system.session := by
  unfold Process.keepsPeriod at keeps
  split at keeps
  · simp only [step, present, Option.bind_some, dieProcess, Option.some.injEq] at died
    exact died ▸ rfl
  · cases keeps

/-- A period without an owner runs forever, and nothing is started in it. -/
theorem stranded_forever {final : System} (running : system.session.queue.running = true)
    (unowned : system.owners = 0) (reached : Runs.Reachable step system final) :
    final.session.queue.running = true ∧ final.owners = 0 ∧
      final.session.loops.map StartedLoop.claim =
        system.session.loops.map StartedLoop.claim := by
  refine Runs.reachable_invariant
    (fun final => final.session.queue.running = true ∧ final.owners = 0 ∧
      final.session.loops.map StartedLoop.claim =
        system.session.loops.map StartedLoop.claim)
    ⟨running, unowned, rfl⟩ ?_ reached
  rintro before action next ⟨runs, none, same⟩ advanced
  rw [owners_eq] at none
  obtain ⟨still, empty, started⟩ := (step_moves advanced).stranded runs none
  exact ⟨still, by rw [owners_eq]; exact empty, started.trans same⟩

/-- A death releases the Session unless the driver is in its kept tail. Where the
dead driver owned the period, the queue is idle and unbound afterwards under the
same condition. A death in the kept tail strands the Session for good: the period
never ends and no loop is ever started again. -/
theorem death_releases_iff_no_kept_tail (reached : Runs.Reachable ownedStep start system) :
    system.Released ∧
    ∀ (index evicted : Nat) (process : Process) (after : System),
      system.processes[index]? = some process →
      system.step (.die index evicted) = some after →
      (after.Released ↔ process.keepsPeriod = false) ∧
      (process.ownsPeriod = true →
        ((after.session.queue.running = false ∧ after.session.queue.binding = none) ↔
          process.keepsPeriod = false)) ∧
      (process.keepsPeriod = true → ∀ final, Runs.Reachable step after final →
        final.session.queue.running = true ∧ final.owners = 0 ∧
          final.session.loops.map StartedLoop.claim =
            after.session.loops.map StartedLoop.claim) := by
  refine ⟨owned_released reached, ?_⟩
  intro index evicted process after present died
  have owned := owners_running reached
  have fewer := die_owners present died
  cases keeps : process.keepsPeriod with
  | true =>
    have owns : process.ownsPeriod = true := by
      unfold Process.keepsPeriod at keeps
      split at keeps
      · rfl
      · cases keeps
    have counted : 0 < system.owners := by
      have member := List.mem_of_getElem? present
      exact List.countP_pos_iff.mpr ⟨process, member, owns⟩
    have running : system.session.queue.running = true := by
      cases running : system.session.queue.running with
      | true => rfl
      | false => simp [owned, running] at counted
    have unowned : after.owners = 0 := by simp [fewer, owned, running, owns]
    have same := kept_tail_death keeps present died
    have runs : after.session.queue.running = true := by rw [same, running]
    refine ⟨?_, ?_, ?_⟩
    · simp [Released, runs, unowned]
    · simp [runs]
    · intro _ final continued
      exact stranded_forever runs unowned continued
  | false =>
    have allowed : system.keptTailDies (.die index evicted) = false := by
      simp only [keptTailDies, present]
      split
      · rename_i turn same
        cases same
        cases keeps
      · rfl
    have next : Runs.Reachable ownedStep start after := by
      have stepped : ownedStep system (.die index evicted) = some after := by
        simp [ownedStep, Runs.guarded, allowed, died]
      exact Runs.reachable_step reached stepped
    have released := owned_released next
    refine ⟨iff_of_true released rfl, ?_, by simp⟩
    intro owns
    refine iff_of_true ?_ rfl
    have gone : after.owners = 0 := by
      rw [fewer, owned]
      cases system.session.queue.running <;> simp [owns]
    exact released.resolve_right (by omega)

/-- The first turn completed while the second input was queued: its driver keeps
the period for the successor. -/
def keptTail : List Action :=
  secondQueued ++
    [.advance 1 (.report .completed), .advance 1 (.append .written false none),
      .advance 1 (.register 0)]

/-- The driver of the first turn may still die safely before it reports. -/
theorem first_driver_death_releases :
    (Runs.replay step (Runs.replay ownedStep start firstTurn) [.die 1 0]).Released :=
  ((death_releases_iff_no_kept_tail
    (Runs.reachable_replay (show (Runs.run ownedStep start firstTurn).isSome by decide))).2 1 0
    (.driver 0 .joining) _ (by decide) (by decide)).1.mpr rfl

/-- A driver that dies in its kept tail leaves the period running and bound with
no owner. -/
theorem kept_tail_death_strands :
    (Runs.run step start (keptTail ++ [.die 1 0])).isSome = true ∧
    (Runs.replay step start (keptTail ++ [.die 1 0])).session.queue.running = true ∧
    (Runs.replay step start (keptTail ++ [.die 1 0])).session.queue.binding = some 1 ∧
    (Runs.replay step start (keptTail ++ [.die 1 0])).owners = 0 := by
  decide

end System

end MinicoreAgent.SessionSystem

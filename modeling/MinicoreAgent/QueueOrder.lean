import MinicoreAgent.SessionInputs

/-!
# The order in which inputs run

The run order is derived from the acceptance order: steers first, then
follow-ups. Taking the head off leaves the run order of the rest, so the order a
client sees is the order in which repeated starts hand the entries out. Along
every run the entries of one mode stand in acceptance order, among the queued
ones and among everything that left before them.
-/
namespace MinicoreAgent.InputQueue.QueueState

/-- Hand out heads by a number of calls of `start_head`, as long as it gives one. -/
def drain : Nat → QueueState → List Entry
  | 0, _ => []
  | calls + 1, queue =>
    match queue.startHead with
    | .ok (some claim, next) => claim.entry :: drain calls next
    | _ => []

/-- The run order of an explicit list of entries. -/
theorem run_order_of_items (queue : QueueState) {items : List Entry}
    (same : queue.items = items) :
    queue.runOrder = items.filter (·.mode = .steer) ++ items.filter (·.mode = .followUp) := by
  rw [runOrder, same]

/-- The view shows every queued entry once. -/
theorem run_order_perm (queue : QueueState) : queue.runOrder.Perm queue.items := by
  have other : (fun entry : Entry => decide (entry.mode = .followUp)) =
      fun entry => !decide (entry.mode = .steer) := by
    funext entry
    cases mode : entry.mode <;> simp
  rw [runOrder, other]
  exact List.filter_append_perm _ _

/-- Follow-ups contribute nothing to the steers of a list. -/
theorem no_steers {entries : List Entry} (all : ∀ entry ∈ entries, entry.mode = .followUp) :
    entries.filter (fun entry => decide (entry.mode = .steer)) = [] := by
  rw [List.filter_eq_nil_iff]
  intro entry member
  simp [all entry member]

/-- Taking an entry out of the list takes it out of the steers and follow-ups. If
it stands where the head stands, it is the first of the run order. -/
theorem run_order_head {before rest : List Entry} {entry : Entry}
    (earlier : ∀ other ∈ before, other.mode = .followUp)
    (front : entry.mode = .followUp → before = [] ∧ ∀ other ∈ rest, other.mode = .followUp) :
    (before ++ entry :: rest).filter (·.mode = .steer) ++
        (before ++ entry :: rest).filter (·.mode = .followUp) =
      entry :: ((before ++ rest).filter (·.mode = .steer) ++
        (before ++ rest).filter (·.mode = .followUp)) := by
  cases mode : entry.mode with
  | steer => simp [no_steers earlier, mode]
  | followUp =>
    obtain ⟨rfl, later⟩ := front mode
    simp [no_steers later, mode]

/-- The head is the first entry of the run order. -/
theorem head_is_first (queue : QueueState) :
    queue.head.bind (fun position => queue.items[position]?) = queue.runOrder.head? := by
  cases found : queue.head with
  | none =>
    have empty := (head_none_iff queue).mp found
    simp [run_order_of_items queue empty]
  | some position =>
    obtain ⟨before, entry, rest, items, rfl, earlier, front⟩ := head_split queue position found
    rw [run_order_of_items queue items, run_order_head earlier front]
    simp [items]

/-- A started head is the first of the run order, and the rest keeps its order. -/
theorem start_head_run_order {queue after : QueueState} {claim : Claim}
    (started : queue.startHead = .ok (some claim, after)) :
    queue.runOrder = claim.entry :: after.runOrder := by
  obtain ⟨before, rest, items, earlier, front, _, _, rfl⟩ := start_head_claims started
  rw [run_order_of_items queue items, run_order_head earlier front]
  rfl

/-- Repeated starts follow the run order until the calls or the generation counter
are used up. -/
theorem drain_run_order (calls : Nat) (queue : QueueState) :
    drain calls queue = queue.runOrder.take (min calls (u64Max - queue.generation)) := by
  induction calls generalizing queue with
  | zero => simp [drain]
  | succ calls inductionHypothesis =>
    unfold drain
    split
    · rename_i claim next started
      have order := start_head_run_order started
      obtain ⟨_, _, _, _, _, bound, _, rfl⟩ := start_head_claims started
      have one : min (calls + 1) (u64Max - queue.generation) =
          min calls (u64Max - (queue.generation + 1)) + 1 := by omega
      rw [order, one, List.take_succ_cons, inductionHypothesis]
    · rename_i stopped
      cases result : queue.startHead with
      | error error =>
        obtain ⟨_, exhausted⟩ := start_head_error result
        have zero : u64Max - queue.generation = 0 := by omega
        simp [zero]
      | ok outcome =>
        obtain ⟨claim, next⟩ := outcome
        cases claim with
        | some claim => exact absurd result (stopped claim next)
        | none =>
          obtain ⟨empty, _⟩ := start_head_empty result
          simp [run_order_of_items queue empty]

end MinicoreAgent.InputQueue.QueueState

namespace MinicoreAgent.SessionSystem.System

open InputQueue SessionState InputLedger

variable {system : System}

/-- Inputs of one mode stand in acceptance order wherever they wait, and what
left was accepted before everything of its mode that still waits. The head is
the first entry of the view, and repeated starts hand out the view in order. -/
theorem inputs_run_in_acceptance_order (reached : system.Reachable) :
    system.session.queue.items.Pairwise Precedes ∧
    (system.session.departed.map Departure.entry).Pairwise Precedes ∧
    (∀ gone ∈ system.session.departed, ∀ entry ∈ system.session.queue.items,
      Precedes gone.entry entry) ∧
    (∀ claim ∈ system.claims,
      (∀ gone ∈ system.session.departed, Precedes gone.entry claim.entry) ∧
      ∀ entry ∈ system.session.queue.items, Precedes claim.entry entry) ∧
    system.session.queue.head.bind (fun position =>
        system.session.queue.items[position]?.map Entry.item) =
      system.session.queue.view.items.head? ∧
    (∀ calls, (QueueState.drain calls system.session.queue).map Entry.item =
      system.session.queue.view.items.take
        (min calls (u64Max - system.session.queue.generation))) ∧
    (system.session.queue.generation + system.session.queue.items.length ≤ u64Max →
      (QueueState.drain system.session.queue.items.length system.session.queue).map Entry.item =
        system.session.queue.view.items) := by
  have ordered := (reachable_sound reached).ordered
  simp only [Ledger.line, ledger, ledgerOf, List.append_assoc] at ordered
  rw [List.pairwise_append, List.pairwise_append] at ordered
  obtain ⟨departed, ⟨_, queued, waiting⟩, across⟩ := ordered
  have drained (calls : Nat) :
      (QueueState.drain calls system.session.queue).map Entry.item =
        system.session.queue.view.items.take
          (min calls (u64Max - system.session.queue.generation)) := by
    rw [QueueState.drain_run_order, List.map_take]
    rfl
  refine ⟨queued, departed, ?_, ?_, ?_, drained, ?_⟩
  · intro gone left entry member
    exact across gone.entry (List.mem_map_of_mem left) entry
      (List.mem_append_right _ member)
  · intro claim held
    have listed : claim.entry ∈ system.claims.toList.map Claim.entry :=
      List.mem_map_of_mem (Multiset.mem_toList.mpr held)
    constructor
    · intro gone left
      exact across gone.entry (List.mem_map_of_mem left) claim.entry
        (List.mem_append_left _ listed)
    · intro entry member
      exact waiting claim.entry listed entry member
  · have first := congrArg (Option.map Entry.item)
      (QueueState.head_is_first system.session.queue)
    rw [Option.map_bind] at first
    rw [QueueState.view, List.head?_map]
    exact first
  · intro room
    have count : system.session.queue.view.items.length =
        system.session.queue.items.length := by
      simp only [QueueState.view, List.length_map]
      exact (QueueState.run_order_perm _).length_eq
    rw [drained, List.take_of_length_le]
    omega

/-- Two steers and a follow-up wait behind the first turn. -/
def mixedQueue : List Action :=
  firstTurn ++
    [.acceptInput .followUp "later" true none, .acceptInput .steer "now" true none,
      .acceptInput .steer "next" true none]

/-- The steers come first, each mode in acceptance order. -/
theorem mixed_queue_in_order :
    (QueueState.drain 3 (Runs.replay step start mixedQueue).session.queue).map Entry.item =
        (Runs.replay step start mixedQueue).session.queue.view.items ∧
      (Runs.replay step start mixedQueue).session.queue.view.items.map QueueItem.id =
        [3, 4, 2] :=
  ⟨(inputs_run_in_acceptance_order
    (Runs.reachable_replay (show (Runs.run step start mixedQueue).isSome by decide))).2.2.2.2.2.2
      (by decide), by decide⟩

end MinicoreAgent.SessionSystem.System

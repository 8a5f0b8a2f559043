/-!
# The per-session input queue

`QueueState` of `sessions/inputs.rs`: accepted inputs in acceptance order, the
entry being started, the pause, the busy flag, the loop generation that may take
inputs, and the two counters. Every function below is one source function on this
state alone; callers hold the queue lock for its whole duration.

The wire spelling of an input id is `inp_` and the counter in 32 hexadecimal
digits. It is injective in the counter, so the counter itself stands for the id.
Counters are 64-bit and only ever grow by a checked addition.
-/
namespace MinicoreAgent

/-- Errors of the Session layer that the modelled functions return. -/
inductive AgentError
  | invalidInput
  | sessionBlocked
  | sessionBusy
  | inputQueueFull
  | inputNotQueued
  | invalidState
  | invalidSessionSettings
  | staleLoad
  | internal
  deriving DecidableEq, Repr

/-- Largest 64-bit counter value. -/
def u64Max : Nat := UInt64.size - 1

/-- `u64::checked_add(1)`. -/
def checkedSucc (counter : Nat) : Except AgentError Nat :=
  if counter < u64Max then .ok (counter + 1) else .error .internal

/-- A successful checked addition is the successor. -/
theorem checked_succ_ok {counter next : Nat} (added : checkedSucc counter = .ok next) :
    next = counter + 1 := by
  unfold checkedSucc at added
  split at added
  · exact (Except.ok.inj added).symm
  · cases added

namespace InputQueue

/-- Most inputs one Session queues at once. -/
def maxQueuedInputs : Nat := 32

/-- How a pushed input reaches the Session. -/
inductive InputMode
  | steer
  | followUp
  deriving DecidableEq, Repr

/-- The wire view of an entry. -/
structure QueueItem where
  id : Nat
  mode : InputMode
  text : String
  acceptedAt : Option String
  deriving DecidableEq, Repr

/-- The queued inputs in the order they run and whether nothing starts by
itself. -/
structure Queue where
  items : List QueueItem
  paused : Bool
  deriving DecidableEq, Repr

/-- One accepted input. -/
structure Entry where
  id : Nat
  mode : InputMode
  input : String
  acceptedAt : Option String
  deriving DecidableEq, Repr

def Entry.item (entry : Entry) : QueueItem :=
  { id := entry.id, mode := entry.mode, text := entry.input, acceptedAt := entry.acceptedAt }

def Entry.isSteer (entry : Entry) : Bool := entry.mode = .steer

/-- A head claimed to start a turn, with the loop generation it was handed to. -/
structure Claim where
  entry : Entry
  generation : Nat
  deriving DecidableEq, Repr

/-- `items` is in acceptance order; the run order is derived from it. `binding`
is the loop generation that may take inputs; any other loop is stale. -/
structure QueueState where
  items : List Entry
  starting : Option Entry
  paused : Bool
  running : Bool
  binding : Option Nat
  generation : Nat
  nextId : Nat
  deriving DecidableEq, Repr

namespace QueueState

/-- `QueueState::default`. -/
def default : QueueState :=
  { items := [], starting := none, paused := false, running := false, binding := none,
    generation := 0, nextId := 0 }

/-- Index of the entry that starts next: the first steer, else the first entry. -/
def head (queue : QueueState) : Option Nat :=
  (queue.items.findIdx? Entry.isSteer).or (if queue.items.isEmpty then none else some 0)

/-- The entries in the order they run: steers, then follow-ups. -/
def runOrder (queue : QueueState) : List Entry :=
  queue.items.filter (·.mode = .steer) ++ queue.items.filter (·.mode = .followUp)

def view (queue : QueueState) : Queue :=
  { items := queue.runOrder.map Entry.item, paused := queue.paused }

/-- Hands the head to a new loop generation; the queue stays `running`. A
generation counter that cannot grow is reported before anything changes. -/
def startHead (queue : QueueState) : Except AgentError (Option Claim × QueueState) :=
  match queue.head with
  | none => .ok (none, queue)
  | some position =>
    match checkedSucc queue.generation with
    | .error error => .error error
    | .ok generation =>
      match queue.items[position]? with
      | none => .ok (none, queue)
      | some entry =>
        .ok (some { entry := entry, generation := generation },
          { queue with
            items := queue.items.eraseIdx position
            running := true
            generation := generation
            binding := some generation
            starting := some entry })

/-- Position at which a claimed entry is given back. -/
def restoreAt (items : List Entry) : InputMode → Nat
  | .steer => 0
  | .followUp => (items.findIdx? (·.mode = .followUp)).getD items.length

def restore (queue : QueueState) (entry : Entry) : QueueState :=
  { queue with items := queue.items.insertIdx (restoreAt queue.items entry.mode) entry }

def endPeriod (queue : QueueState) : QueueState :=
  { queue with running := false, binding := none, starting := none }

/-- Splits the steers off; both parts keep their order. -/
def takeSteers (queue : QueueState) : List Entry × QueueState :=
  (queue.items.filter Entry.isSteer,
    { queue with items := queue.items.filter (fun entry => !entry.isSteer) })

/-- The queue part of `SessionInputs::take`: only the bound generation receives
inputs. -/
def take (queue : QueueState) (generation : Nat) : List Entry × QueueState :=
  if queue.binding ≠ some generation then ([], queue) else queue.takeSteers

/-- `abandon_claim`: gives a claimed entry back and ends the busy period it
began. -/
def abandonClaim (queue : QueueState) (entry : Entry) (pause : Bool) : QueueState :=
  let restored := (queue.restore entry).endPeriod
  { restored with paused := restored.paused || pause }

/-- `remove_input`. -/
def removeInput (queue : QueueState) (id : Nat) :
    Except AgentError (Entry × QueueState) :=
  match queue.items.findIdx? (·.id = id) with
  | none => .error .inputNotQueued
  | some position =>
    match queue.items[position]? with
    | none => .error .inputNotQueued
    | some entry =>
      let items := queue.items.eraseIdx position
      .ok (entry, { queue with items := items, paused := queue.paused && !items.isEmpty })

/-- `recall_inputs`: the texts leave in run order. -/
def recallInputs (queue : QueueState) : List Entry × QueueState :=
  (queue.runOrder, { queue with items := [], paused := false })

/-- The head is the first steer, or the first entry when there is no steer. -/
theorem head_split (queue : QueueState) (position : Nat) (found : queue.head = some position) :
    ∃ before entry rest, queue.items = before ++ entry :: rest ∧ before.length = position ∧
      (∀ other ∈ before, other.mode = .followUp) ∧
      (entry.mode = .followUp → before = [] ∧ ∀ other ∈ rest, other.mode = .followUp) := by
  unfold head at found
  cases search : queue.items.findIdx? Entry.isSteer with
  | some first =>
    have same : first = position := by simpa [search] using found
    subst same
    obtain ⟨bound, steers, earlier⟩ := List.findIdx?_eq_some_iff_getElem.mp search
    refine ⟨queue.items.take first, queue.items[first], queue.items.drop (first + 1),
      ?_, ?_, ?_, ?_⟩
    · rw [List.getElem_cons_drop, List.take_append_drop]
    · simp only [List.length_take]
      omega
    · intro other member
      obtain ⟨position, inside, rfl⟩ := List.mem_take_iff_getElem.mp member
      have notSteer := earlier position (by omega)
      cases mode : (queue.items[position]).mode with
      | steer => exact absurd (by simp [Entry.isSteer, mode]) notSteer
      | followUp => rfl
    · intro later
      simp [Entry.isSteer, later] at steers
  | none =>
    have noSteer := List.findIdx?_eq_none_iff.mp search
    have allFollow : ∀ other ∈ queue.items, other.mode = .followUp := by
      intro other member
      have notSteer := noSteer other member
      cases mode : other.mode with
      | steer => simp [Entry.isSteer, mode] at notSteer
      | followUp => rfl
    cases contents : queue.items with
    | nil => simp [contents] at found
    | cons entry rest =>
      rw [contents] at search
      have same : 0 = position := by simpa [contents, search] using found
      refine ⟨[], entry, rest, rfl, same, by simp, fun _ => ⟨rfl, ?_⟩⟩
      intro other member
      exact allFollow other (contents ▸ List.mem_cons_of_mem entry member)

/-- Only an empty queue has no head. -/
theorem head_none_iff (queue : QueueState) : queue.head = none ↔ queue.items = [] := by
  unfold head
  cases contents : queue.items with
  | nil => simp
  | cons entry rest =>
    cases search : (entry :: rest).findIdx? Entry.isSteer <;> simp

/-- A claimed head leaves the queue running under a new generation. Everything
before it in acceptance order has the other mode, and a follow-up is claimed only
from the front of a queue without steers. -/
theorem start_head_claims {queue after : QueueState} {claim : Claim}
    (started : queue.startHead = .ok (some claim, after)) :
    ∃ before rest, queue.items = before ++ claim.entry :: rest ∧
      (∀ other ∈ before, other.mode = .followUp) ∧
      (claim.entry.mode = .followUp → before = [] ∧ ∀ other ∈ rest, other.mode = .followUp) ∧
      queue.generation < u64Max ∧ claim.generation = queue.generation + 1 ∧
      after =
        { queue with
          items := before ++ rest
          running := true
          generation := queue.generation + 1
          binding := some (queue.generation + 1)
          starting := some claim.entry } := by
  unfold startHead at started
  split at started
  · cases started
  · rename_i position found
    split at started
    · cases started
    · rename_i generation added
      have bound : queue.generation < u64Max := by
        unfold checkedSucc at added
        split at added
        · assumption
        · cases added
      obtain rfl := checked_succ_ok added
      obtain ⟨before, entry, rest, items, rfl, earlier, front⟩ := head_split queue position found
      have read : queue.items[before.length]? = some entry := by simp [items]
      have erased : queue.items.eraseIdx before.length = before ++ rest := by
        rw [items, List.eraseIdx_append_of_length_le (Nat.le_refl _)]
        simp
      simp only [read] at started
      cases started
      exact ⟨before, rest, items, earlier, front, bound, rfl, by simp only [erased]⟩

/-- Nothing is claimed from an empty queue, which stays as it was. -/
theorem start_head_empty {queue after : QueueState}
    (started : queue.startHead = .ok (none, after)) : queue.items = [] ∧ after = queue := by
  unfold startHead at started
  split at started
  · rename_i absent
    cases started
    exact ⟨(head_none_iff queue).mp absent, rfl⟩
  · rename_i position found
    split at started
    · cases started
    · obtain ⟨before, entry, rest, items, rfl, _⟩ := head_split queue position found
      have read : queue.items[before.length]? = some entry := by simp [items]
      simp only [read] at started
      cases started

/-- Only an exhausted generation counter refuses a head, and only when there is
one. -/
theorem start_head_error {queue : QueueState} {error : AgentError}
    (refused : queue.startHead = .error error) :
    queue.items ≠ [] ∧ u64Max ≤ queue.generation := by
  unfold startHead at refused
  split at refused
  · cases refused
  · rename_i position found
    constructor
    · intro empty
      rw [(head_none_iff queue).mpr empty] at found
      cases found
    · split at refused
      · rename_i overflow
        unfold checkedSucc at overflow
        split at overflow
        · cases overflow
        · omega
      · split at refused <;> cases refused

/-- A restored entry stands before every entry of its own mode. -/
theorem restore_split (queue : QueueState) (entry : Entry) :
    ∃ before rest, queue.items = before ++ rest ∧
      queue.restore entry = { queue with items := before ++ entry :: rest } ∧
      ∀ other ∈ before, other.mode ≠ entry.mode := by
  have inserted (items : List Entry) (position : Nat) (inside : position ≤ items.length) :
      items.insertIdx position entry = items.take position ++ entry :: items.drop position := by
    induction items generalizing position with
    | nil =>
      have front : position = 0 := Nat.le_zero.mp inside
      simp [front]
    | cons head rest inductionHypothesis =>
      cases position with
      | zero => rfl
      | succ position => simp [inductionHypothesis position (Nat.le_of_succ_le_succ inside)]
  refine ⟨queue.items.take (restoreAt queue.items entry.mode),
    queue.items.drop (restoreAt queue.items entry.mode),
    (List.take_append_drop _ _).symm, ?_, ?_⟩
  · unfold restore
    rw [inserted]
    cases entry.mode with
    | steer => exact Nat.zero_le _
    | followUp =>
      cases search : queue.items.findIdx? (·.mode = .followUp) with
      | none => simp [restoreAt, search]
      | some first =>
        obtain ⟨bound, _⟩ := List.findIdx?_eq_some_iff_getElem.mp search
        simpa [restoreAt, search] using Nat.le_of_lt bound
  · intro other member
    cases mode : entry.mode with
    | steer => simp [restoreAt, mode] at member
    | followUp =>
      rw [mode] at member
      intro same
      cases search : queue.items.findIdx? (·.mode = .followUp) with
      | none =>
        have absent := List.findIdx?_eq_none_iff.mp search other (List.mem_of_mem_take member)
        simp [same] at absent
      | some first =>
        obtain ⟨bound, _, earlier⟩ := List.findIdx?_eq_some_iff_getElem.mp search
        simp only [restoreAt, search, Option.getD_some] at member
        obtain ⟨position, inside, rfl⟩ := List.mem_take_iff_getElem.mp member
        exact earlier position (by omega) (by simpa using same)

/-- A removed entry is one queued entry under the requested id. -/
theorem remove_input_split {queue after : QueueState} {id : Nat} {entry : Entry}
    (removed : queue.removeInput id = .ok (entry, after)) :
    ∃ before rest, queue.items = before ++ entry :: rest ∧ entry.id = id ∧
      after =
        { queue with
          items := before ++ rest
          paused := queue.paused && !(before ++ rest).isEmpty } := by
  unfold removeInput at removed
  split at removed
  · cases removed
  · rename_i position found
    obtain ⟨bound, named, _⟩ := List.findIdx?_eq_some_iff_getElem.mp found
    rw [List.getElem?_eq_getElem bound] at removed
    simp only [Except.ok.injEq, Prod.mk.injEq] at removed
    obtain ⟨rfl, rfl⟩ := removed
    refine ⟨queue.items.take position, queue.items.drop (position + 1), ?_,
      by simpa using named, ?_⟩
    · rw [List.getElem_cons_drop, List.take_append_drop]
    · rw [List.eraseIdx_eq_take_drop_succ]

end QueueState

end InputQueue

end MinicoreAgent

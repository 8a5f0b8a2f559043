import Mathlib.Algebra.Order.Group.Multiset
import Mathlib.Data.Multiset.Basic
import Mathlib.Tactic.Abel
import MinicoreAgent.SessionState

/-!
# A ledger of accepted inputs

The abstract account of what the Session does with inputs. Besides the queue it
keeps the outstanding claims, the number of drivers whose busy period has not
ended, the generation of every started loop, and what left the queue and how. It
knows nothing about processes or compaction, and of the inner lock only that an
installation holds it.

The moves are the only ways in which inputs and busy periods change. Their
preconditions are what the moving party itself holds; that no second party
interferes is proved, not assumed. A driver that vanishes without ending its
period is the one lossy move.
-/
namespace MinicoreAgent.InputLedger

open InputQueue SessionState

structure Ledger where
  queue : QueueState
  claims : Multiset Claim
  owning : Nat
  started : List Claim
  departed : List Departure
  returned : List Entry
  accepted : List Nat
  locked : Bool

namespace Ledger

/-- An input is accepted at the end of the queue. -/
def push (ledger : Ledger) (entry : Entry) : Ledger :=
  { ledger with
    queue :=
      { ledger.queue with
        nextId := entry.id
        items := ledger.queue.items ++ [entry]
        paused := false }
    accepted := ledger.accepted ++ [entry.id] }

/-- Set or clear the pause. -/
def setPaused (ledger : Ledger) (paused : Bool) : Ledger :=
  { ledger with queue := { ledger.queue with paused := paused } }

/-- A claim on the head is outstanding. -/
def hold (ledger : Ledger) (claim : Claim) (queue : QueueState) (owning : Nat) : Ledger :=
  { ledger with queue := queue, claims := claim ::ₘ ledger.claims, owning := owning }

/-- The claimed entry becomes the prompt of a started loop. -/
def start (ledger : Ledger) (claim : Claim) (claims : Multiset Claim) : Ledger :=
  { ledger with
    claims := claims
    owning := ledger.owning + 1
    started := ledger.started ++ [claim]
    departed := ledger.departed ++ [.prompt ledger.started.length claim.entry]
    locked := true }

/-- The started loop is installed. -/
def install (ledger : Ledger) : Ledger :=
  { ledger with queue := { ledger.queue with starting := none }, locked := false }

/-- A claim is given back. -/
def restore (ledger : Ledger) (claim : Claim) (claims : Multiset Claim) (pause : Bool) :
    Ledger :=
  { ledger with queue := ledger.queue.abandonClaim claim.entry pause, claims := claims }

/-- A driver ends its period. -/
def finish (ledger : Ledger) (owning : Nat) (pause : Bool) : Ledger :=
  { ledger with
    queue := { ledger.queue with paused := ledger.queue.paused || pause }.endPeriod
    owning := owning }

/-- A loop takes every queued steer. -/
def take (ledger : Ledger) (loopId : LoopId) : Ledger :=
  { ledger with
    queue := ledger.queue.takeSteers.2
    departed := ledger.departed ++ ledger.queue.takeSteers.1.map (Departure.taken loopId) }

/-- Entries are returned to a client. -/
def giveOut (ledger : Ledger) (entries : List Entry) (queue : QueueState) : Ledger :=
  { ledger with queue := queue, returned := ledger.returned ++ entries }

end Ledger

/-- One change of the ledger. -/
inductive Move (lossy : Bool) : Ledger → Ledger → Prop
  | push (ledger : Ledger) (entry : Entry)
      (room : ledger.queue.items.length < maxQueuedInputs)
      (numbered : entry.id = ledger.queue.nextId + 1) :
      Move lossy ledger (ledger.push entry)
  | resume (ledger : Ledger) : Move lossy ledger (ledger.setPaused false)
  | claim (ledger : Ledger) (claim : Claim) (queue : QueueState)
      (idle : ledger.queue.running = false) (unpaused : ledger.queue.paused = false)
      (started : ledger.queue.startHead = .ok (some claim, queue)) :
      Move lossy ledger (ledger.hold claim queue ledger.owning)
  | succeed (ledger : Ledger) (owning : Nat) (claim : Claim) (queue : QueueState)
      (owned : ledger.owning = owning + 1)
      (started : ledger.queue.startHead = .ok (some claim, queue)) :
      Move lossy ledger (ledger.hold claim queue owning)
  | start (ledger : Ledger) (claim : Claim) (claims : Multiset Claim)
      (held : ledger.claims = claim ::ₘ claims) :
      Move lossy ledger (ledger.start claim claims)
  | install (ledger : Ledger) (owned : 0 < ledger.owning) : Move lossy ledger ledger.install
  | restore (ledger : Ledger) (claim : Claim) (claims : Multiset Claim) (pause : Bool)
      (held : ledger.claims = claim ::ₘ claims) :
      Move lossy ledger (ledger.restore claim claims pause)
  | finish (ledger : Ledger) (owning : Nat) (pause : Bool)
      (owned : ledger.owning = owning + 1)
      (pausable : pause = true → ledger.queue.items ≠ []) :
      Move lossy ledger (ledger.finish owning pause)
  | pause (ledger : Ledger) (idle : ledger.queue.running = false)
      (pausable : ledger.queue.items ≠ []) : Move lossy ledger (ledger.setPaused true)
  | take (ledger : Ledger) (loopId : LoopId) (claim : Claim)
      (started : ledger.started[loopId]? = some claim)
      (bound : ledger.queue.binding = some claim.generation) :
      Move lossy ledger (ledger.take loopId)
  | remove (ledger : Ledger) (id : Nat) (entry : Entry) (queue : QueueState)
      (removed : ledger.queue.removeInput id = .ok (entry, queue)) :
      Move lossy ledger (ledger.giveOut [entry] queue)
  | clear (ledger : Ledger) :
      Move lossy ledger
        (ledger.giveOut ledger.queue.recallInputs.1 ledger.queue.recallInputs.2)
  | lose (ledger : Ledger) (owning : Nat) (lost : lossy = true)
      (owned : ledger.owning = owning + 1) :
      Move lossy ledger { ledger with owning := owning }

/-- Any number of moves. -/
abbrev Moves (lossy : Bool) : Ledger → Ledger → Prop := Relation.ReflTransGen (Move lossy)

/-- One input precedes another if they are of different modes or in acceptance
order. -/
def Precedes (first second : Entry) : Prop := first.mode = second.mode → first.id < second.id

namespace Ledger

/-- Number of parties a period may have. -/
def owners (ledger : Ledger) : Nat := ledger.claims.card + ledger.owning

/-- Departed inputs, the claimed one, and the queued ones, in that order. -/
noncomputable def line (ledger : Ledger) : List Entry :=
  ledger.departed.map Departure.entry ++ ledger.claims.toList.map Claim.entry ++
    ledger.queue.items

/-- The ids in every place an accepted input can be. -/
def placed (ledger : Ledger) : Multiset Nat :=
  (ledger.queue.items.map Entry.id : Multiset Nat) +
    ledger.claims.map (·.entry.id) +
    (ledger.departed.map (·.entry.id) : Multiset Nat) +
    (ledger.returned.map Entry.id : Multiset Nat)

/-- The invariant of the ledger. -/
structure Sound (ledger : Ledger) : Prop where
  owned : ledger.owners ≤ if ledger.queue.running then 1 else 0
  bound : ledger.queue.binding =
    if ledger.queue.running then some ledger.queue.generation else none
  starts : ledger.queue.starting.isSome → ledger.queue.running = true
  pending : ledger.queue.starting.isSome → ledger.claims ≠ 0 ∨ ledger.locked = true
  claimed : ∀ claim ∈ ledger.claims,
    ledger.queue.starting = some claim.entry ∧ claim.generation = ledger.queue.generation
  newest : ∀ claim ∈ ledger.started, claim.generation ≤ ledger.queue.generation
  waiting : ledger.claims ≠ 0 →
    ∀ claim ∈ ledger.started, claim.generation < ledger.queue.generation
  room : ledger.queue.items.length ≤ maxQueuedInputs + 1
  runningRoom : ledger.queue.running = true → ledger.queue.items.length ≤ maxQueuedInputs
  pauses : ledger.queue.paused = true → ledger.queue.items ≠ [] ∧ ledger.queue.running = false
  numbered : ledger.accepted = List.range' 1 ledger.queue.nextId
  conserved : ledger.placed = (ledger.accepted : Multiset Nat)
  prompted : ledger.departed.filterMap Departure.prompted = ledger.started.map Claim.entry
  addressed : ∀ departure ∈ ledger.departed, ∃ claim,
    ledger.started[departure.loopId]? = some claim ∧
      ∀ entry, departure.prompted = some entry → claim.entry = entry
  ordered : ledger.line.Pairwise Precedes

/-- An element that precedes everything in between may move ahead of it. -/
theorem moved_ahead {gone before rest : List Entry} {entry : Entry}
    (ordered : (gone ++ (before ++ entry :: rest)).Pairwise Precedes)
    (across : ∀ other ∈ before, Precedes entry other) :
    (gone ++ entry :: (before ++ rest)).Pairwise Precedes := by
  simp only [List.pairwise_append, List.pairwise_cons, List.mem_append, List.mem_cons]
    at ordered ⊢
  grind

/-- An element that everything in between precedes may move behind it. -/
theorem moved_behind {gone before rest : List Entry} {entry : Entry}
    (ordered : (gone ++ entry :: (before ++ rest)).Pairwise Precedes)
    (across : ∀ other ∈ before, Precedes other entry) :
    (gone ++ (before ++ entry :: rest)).Pairwise Precedes := by
  simp only [List.pairwise_append, List.pairwise_cons, List.mem_append, List.mem_cons]
    at ordered ⊢
  grind

variable {ledger : Ledger}

/-- An idle queue has no owner. -/
theorem Sound.unowned (sound : ledger.Sound) (idle : ledger.queue.running = false) :
    ledger.claims = 0 ∧ ledger.owning = 0 := by
  have none := sound.owned
  simp only [owners, idle, Bool.false_eq_true, if_false, Nat.le_zero_eq] at none
  exact ⟨Multiset.card_eq_zero.mp (by omega), by omega⟩

/-- A claim is the only owner of a busy period. -/
theorem Sound.claim_alone (sound : ledger.Sound) {claim : Claim} {claims : Multiset Claim}
    (held : ledger.claims = claim ::ₘ claims) :
    ledger.queue.running = true ∧ claims = 0 ∧ ledger.owning = 0 := by
  have one := sound.owned
  simp only [owners, held, Multiset.card_cons] at one
  cases running : ledger.queue.running with
  | false => simp [running] at one
  | true =>
    simp only [running, if_true] at one
    exact ⟨rfl, Multiset.card_eq_zero.mp (by omega), by omega⟩

/-- So is a driver whose period has not ended. -/
theorem Sound.driver_alone (sound : ledger.Sound) (owned : 0 < ledger.owning) :
    ledger.queue.running = true ∧ ledger.claims = 0 ∧ ledger.owning = 1 := by
  have one := sound.owned
  simp only [owners] at one
  cases running : ledger.queue.running with
  | false =>
    simp only [running, Bool.false_eq_true, if_false] at one
    omega
  | true =>
    simp only [running, if_true] at one
    exact ⟨rfl, Multiset.card_eq_zero.mp (by omega), by omega⟩

/-- A bound generation that has a loop leaves no room for a claim. -/
theorem Sound.taker_alone (sound : ledger.Sound) {loopId : LoopId} {claim : Claim}
    (started : ledger.started[loopId]? = some claim)
    (bound : ledger.queue.binding = some claim.generation) :
    ledger.queue.running = true ∧ ledger.claims = 0 := by
  have binding := sound.bound
  rw [bound] at binding
  cases running : ledger.queue.running with
  | false => simp [running] at binding
  | true =>
    have same : claim.generation = ledger.queue.generation := by simpa [running] using binding
    refine ⟨rfl, ?_⟩
    by_cases absent : ledger.claims = 0
    · exact absent
    · have older := sound.waiting absent claim (List.mem_of_getElem? started)
      omega

/-- Every id that has a place was handed out. -/
theorem Sound.placed_le (sound : ledger.Sound) {id : Nat} (present : id ∈ ledger.placed) :
    id ≤ ledger.queue.nextId := by
  rw [sound.conserved, sound.numbered, Multiset.mem_coe, List.mem_range'_1] at present
  exact Nat.lt_one_add_iff.mp present.2

theorem line_unclaimed (unclaimed : ledger.claims = 0) :
    ledger.line = ledger.departed.map Departure.entry ++ ledger.queue.items := by
  simp [line, unclaimed]

theorem line_claimed {claim : Claim} (held : ledger.claims = {claim}) :
    ledger.line =
      ledger.departed.map Departure.entry ++ claim.entry :: ledger.queue.items := by
  simp [line, held]

/-- Every entry in line has a place. -/
theorem line_placed {entry : Entry} (present : entry ∈ ledger.line) :
    entry.id ∈ ledger.placed := by
  simp only [line, List.mem_append, List.mem_map, Multiset.mem_toList] at present
  simp only [placed, Multiset.mem_add, Multiset.mem_coe, List.mem_map, Multiset.mem_map]
  rcases present with (⟨departure, member, rfl⟩ | ⟨claim, member, rfl⟩) | member
  · exact .inl (.inr ⟨departure, member, rfl⟩)
  · exact .inl (.inl (.inr ⟨claim, member, rfl⟩))
  · exact .inl (.inl (.inl ⟨entry, member, rfl⟩))

/-- Nothing has happened yet. -/
theorem sound_initial :
    Sound
      { queue := QueueState.default, claims := 0, owning := 0, started := [],
        departed := [], returned := [], accepted := [], locked := false } := by
  constructor <;> simp [owners, placed, line, QueueState.default]

/-- A new id is larger than every id in use, so the new input is last in line. -/
theorem Sound.push (sound : ledger.Sound) (entry : Entry)
    (room : ledger.queue.items.length < maxQueuedInputs)
    (numbered : entry.id = ledger.queue.nextId + 1) : (ledger.push entry).Sound where
  owned := sound.owned
  bound := sound.bound
  starts := sound.starts
  pending := sound.pending
  claimed := sound.claimed
  newest := sound.newest
  waiting := sound.waiting
  room := by
    simp only [Ledger.push, List.length_append, List.length_singleton]
    omega
  runningRoom := by
    intro _
    simp only [Ledger.push, List.length_append, List.length_singleton]
    omega
  pauses := by simp [Ledger.push]
  numbered := by
    simp only [Ledger.push, sound.numbered, numbered, List.range'_1_concat]
    rw [Nat.add_comm]
  conserved := by
    have before := sound.conserved
    simp only [placed] at before
    simp only [placed, Ledger.push, List.map_append, List.map_cons, List.map_nil,
      ← Multiset.coe_add, ← before]
    abel
  prompted := sound.prompted
  addressed := sound.addressed
  ordered := by
    have extended : (ledger.push entry).line = ledger.line ++ [entry] := by
      simp [line, Ledger.push]
    rw [extended, List.pairwise_append]
    refine ⟨sound.ordered, List.pairwise_singleton _ _, ?_⟩
    intro other member new same
    obtain rfl := List.mem_singleton.mp same
    intro _
    have older := sound.placed_le (line_placed member)
    omega

theorem Sound.resume (sound : ledger.Sound) : (ledger.setPaused false).Sound where
  owned := sound.owned
  bound := sound.bound
  starts := sound.starts
  pending := sound.pending
  claimed := sound.claimed
  newest := sound.newest
  waiting := sound.waiting
  room := sound.room
  runningRoom := sound.runningRoom
  pauses := by simp [setPaused]
  numbered := sound.numbered
  conserved := sound.conserved
  prompted := sound.prompted
  addressed := sound.addressed
  ordered := sound.ordered

theorem Sound.pause (sound : ledger.Sound) (idle : ledger.queue.running = false)
    (pausable : ledger.queue.items ≠ []) : (ledger.setPaused true).Sound where
  owned := sound.owned
  bound := sound.bound
  starts := sound.starts
  pending := sound.pending
  claimed := sound.claimed
  newest := sound.newest
  waiting := sound.waiting
  room := sound.room
  runningRoom := sound.runningRoom
  pauses := fun _ => ⟨pausable, idle⟩
  numbered := sound.numbered
  conserved := sound.conserved
  prompted := sound.prompted
  addressed := sound.addressed
  ordered := sound.ordered

/-- The head becomes a claim of a new generation. The caller shows that no other
party holds the queue: either it was idle, or the caller was its driver. The
claimed entry moves in line before entries of the other mode only. -/
theorem Sound.hold (sound : ledger.Sound) {claim : Claim} {queue : QueueState}
    {owning : Nat} (unclaimed : ledger.claims = 0) (unowned : owning = 0)
    (unpaused : ledger.queue.paused = false)
    (started : ledger.queue.startHead = .ok (some claim, queue)) :
    (ledger.hold claim queue owning).Sound := by
  obtain ⟨before, rest, items, earlier, front, _, generation, rfl⟩ :=
    QueueState.start_head_claims started
  have length : (before ++ rest).length + 1 = ledger.queue.items.length := by
    rw [items]
    simp only [List.length_append, List.length_cons]
    omega
  constructor
  case owned => simp [owners, Ledger.hold, unclaimed, unowned]
  case bound => simp [Ledger.hold]
  case starts => simp [Ledger.hold]
  case pending => simp [Ledger.hold]
  case claimed =>
    intro other member
    have same : other = claim := by simpa [Ledger.hold, unclaimed] using member
    subst same
    exact ⟨rfl, generation⟩
  case newest =>
    intro other member
    exact Nat.le_succ_of_le (sound.newest other member)
  case waiting =>
    intro _ other member
    exact Nat.lt_succ_of_le (sound.newest other member)
  case room =>
    have room := sound.room
    change (before ++ rest).length ≤ _
    omega
  case runningRoom =>
    intro _
    have room := sound.room
    change (before ++ rest).length ≤ _
    omega
  case pauses =>
    intro paused
    change ledger.queue.paused = true at paused
    rw [unpaused] at paused
    cases paused
  case numbered => exact sound.numbered
  case conserved =>
    have conserved := sound.conserved
    simp only [placed, unclaimed, items, List.map_append, List.map_cons, Multiset.map_zero,
      ← Multiset.coe_add, ← Multiset.cons_coe, add_zero] at conserved
    simp only [placed, Ledger.hold, unclaimed, List.map_append, ← Multiset.coe_add,
      ← conserved, ← Multiset.singleton_add, add_zero, Multiset.map_singleton]
    abel
  case prompted => exact sound.prompted
  case addressed => exact sound.addressed
  case ordered =>
    have ordered := sound.ordered
    rw [line_unclaimed unclaimed, items] at ordered
    have held : (ledger.hold claim
        { ledger.queue with
          items := before ++ rest
          running := true
          generation := ledger.queue.generation + 1
          binding := some (ledger.queue.generation + 1)
          starting := some claim.entry } owning).claims = {claim} := by
      simp [Ledger.hold, unclaimed]
    rw [line_claimed held]
    have across : ∀ other ∈ before, Precedes claim.entry other := by
      intro other member same
      cases mode : claim.entry.mode with
      | steer =>
        rw [earlier other member, mode] at same
        cases same
      | followUp =>
        rw [(front mode).1] at member
        cases member
    exact moved_ahead ordered across

/-- The claimed entry departs in its own place in line. -/
theorem Sound.start (sound : ledger.Sound) {claim : Claim} {claims : Multiset Claim}
    (held : ledger.claims = claim ::ₘ claims) : (ledger.start claim claims).Sound := by
  obtain ⟨running, rfl, unowned⟩ := sound.claim_alone held
  have alone : ledger.claims = {claim} := held
  obtain ⟨starting, generation⟩ := sound.claimed claim (by simp [alone])
  constructor
  case owned => simp [owners, Ledger.start, unowned, running]
  case bound => exact sound.bound
  case starts => exact sound.starts
  case pending => exact fun _ => .inr rfl
  case claimed => simp [Ledger.start]
  case newest =>
    intro other member
    rcases List.mem_append.mp member with old | new
    · exact sound.newest other old
    · obtain rfl := List.mem_singleton.mp new
      exact Nat.le_of_eq generation
  case waiting => simp [Ledger.start]
  case room => exact sound.room
  case runningRoom => exact sound.runningRoom
  case pauses => exact sound.pauses
  case numbered => exact sound.numbered
  case conserved =>
    have conserved := sound.conserved
    simp only [placed, alone, Multiset.map_singleton] at conserved
    simp only [placed, Ledger.start, List.map_append, List.map_cons, List.map_nil,
      Departure.entry, Multiset.map_zero, ← Multiset.coe_add, Multiset.coe_singleton,
      ← conserved]
    abel
  case prompted =>
    simp only [Ledger.start, List.filterMap_append, List.map_append, sound.prompted]
    rfl
  case addressed =>
    intro departure member
    rcases List.mem_append.mp member with old | new
    · obtain ⟨other, known, prompts⟩ := sound.addressed departure old
      refine ⟨other, ?_, prompts⟩
      obtain ⟨inside, _⟩ := List.getElem?_eq_some_iff.mp known
      simp only [Ledger.start]
      rw [List.getElem?_append_left inside, known]
    · obtain rfl := List.mem_singleton.mp new
      refine ⟨claim, by simp [Ledger.start, Departure.loopId], ?_⟩
      intro entry prompts
      exact Option.some.inj prompts
  case ordered =>
    have ordered := sound.ordered
    rw [line_claimed alone] at ordered
    rw [line_unclaimed (by rfl)]
    simpa [Ledger.start, Departure.entry] using ordered

theorem Sound.install (sound : ledger.Sound) (owned : 0 < ledger.owning) :
    ledger.install.Sound := by
  obtain ⟨_, unclaimed, _⟩ := sound.driver_alone owned
  constructor
  case owned => exact sound.owned
  case bound => exact sound.bound
  case starts => simp [Ledger.install]
  case pending => simp [Ledger.install]
  case claimed => simp [Ledger.install, unclaimed]
  case newest => exact sound.newest
  case waiting => exact sound.waiting
  case room => exact sound.room
  case runningRoom => exact sound.runningRoom
  case pauses => exact sound.pauses
  case numbered => exact sound.numbered
  case conserved => exact sound.conserved
  case prompted => exact sound.prompted
  case addressed => exact sound.addressed
  case ordered => exact sound.ordered

/-- A claim given back stands again before every entry of its mode: whatever was
accepted meanwhile is newer, and nothing of its mode could leave. -/
theorem Sound.restore (sound : ledger.Sound) {claim : Claim} {claims : Multiset Claim}
    {pause : Bool} (held : ledger.claims = claim ::ₘ claims) :
    (ledger.restore claim claims pause).Sound := by
  obtain ⟨running, rfl, unowned⟩ := sound.claim_alone held
  have alone : ledger.claims = {claim} := held
  obtain ⟨before, rest, items, restored, across⟩ :=
    QueueState.restore_split ledger.queue claim.entry
  have length : (before ++ claim.entry :: rest).length = ledger.queue.items.length + 1 := by
    rw [items]
    simp only [List.length_append, List.length_cons]
    omega
  constructor
  case owned =>
    simp [owners, Ledger.restore, QueueState.abandonClaim, QueueState.endPeriod, unowned]
  case bound => rfl
  case starts => simp [Ledger.restore, QueueState.abandonClaim, QueueState.endPeriod]
  case pending => simp [Ledger.restore, QueueState.abandonClaim, QueueState.endPeriod]
  case claimed => simp [Ledger.restore]
  case newest =>
    intro other member
    have older := sound.newest other member
    simpa [Ledger.restore, QueueState.abandonClaim, QueueState.endPeriod, restored] using older
  case waiting => simp [Ledger.restore]
  case room =>
    have room := sound.runningRoom running
    simp only [Ledger.restore, QueueState.abandonClaim, QueueState.endPeriod, restored]
    omega
  case runningRoom => simp [Ledger.restore, QueueState.abandonClaim, QueueState.endPeriod]
  case pauses =>
    intro _
    simp [Ledger.restore, QueueState.abandonClaim, QueueState.endPeriod, restored]
  case numbered =>
    simpa [Ledger.restore, QueueState.abandonClaim, QueueState.endPeriod, restored]
      using sound.numbered
  case conserved =>
    have conserved := sound.conserved
    simp only [placed, alone, items, List.map_append, Multiset.map_singleton,
      ← Multiset.coe_add] at conserved
    simp only [placed, Ledger.restore, QueueState.abandonClaim, QueueState.endPeriod, restored,
      List.map_append, List.map_cons, Multiset.map_zero, ← Multiset.coe_add,
      ← Multiset.cons_coe, ← Multiset.singleton_add, ← conserved]
    abel
  case prompted => exact sound.prompted
  case addressed => exact sound.addressed
  case ordered =>
    have ordered := sound.ordered
    rw [line_claimed alone, items] at ordered
    rw [line_unclaimed (by rfl)]
    simp only [Ledger.restore, QueueState.abandonClaim, QueueState.endPeriod, restored]
    exact moved_behind ordered (fun other member same => absurd same (across other member))

/-- A driver ends its period; it pauses only a queue that holds something. -/
theorem Sound.finish (sound : ledger.Sound) {owning : Nat} {pause : Bool}
    (owned : ledger.owning = owning + 1) (pausable : pause = true → ledger.queue.items ≠ []) :
    (ledger.finish owning pause).Sound := by
  obtain ⟨running, unclaimed, single⟩ := sound.driver_alone (by omega)
  have unpaused : ledger.queue.paused = false := by
    cases paused : ledger.queue.paused with
    | false => rfl
    | true =>
      have idle := (sound.pauses paused).2
      rw [running] at idle
      cases idle
  have none : owning = 0 := by omega
  constructor
  case owned => simp [owners, Ledger.finish, QueueState.endPeriod, unclaimed, none]
  case bound => rfl
  case starts => simp [Ledger.finish, QueueState.endPeriod]
  case pending => simp [Ledger.finish, QueueState.endPeriod]
  case claimed => simp [Ledger.finish, unclaimed]
  case newest => exact sound.newest
  case waiting => simp [Ledger.finish, unclaimed]
  case room => exact sound.room
  case runningRoom => simp [Ledger.finish, QueueState.endPeriod]
  case pauses =>
    intro paused
    refine ⟨pausable ?_, rfl⟩
    simpa [Ledger.finish, QueueState.endPeriod, unpaused] using paused
  case numbered => exact sound.numbered
  case conserved => exact sound.conserved
  case prompted => exact sound.prompted
  case addressed => exact sound.addressed
  case ordered => exact sound.ordered

/-- Splitting a list by a test keeps it together as a multiset. -/
theorem filter_parts (items : List Entry) :
    ((items.filter Entry.isSteer).map Entry.id : Multiset Nat) +
      ((items.filter (fun entry => !entry.isSteer)).map Entry.id : Multiset Nat) =
      (items.map Entry.id : Multiset Nat) := by
  induction items with
  | nil => rfl
  | cons entry rest inductionHypothesis =>
    cases steer : entry.isSteer <;>
      simp only [List.filter_cons, steer, Bool.not_true, Bool.not_false, Bool.false_eq_true,
        if_true, if_false, List.map_cons, ← Multiset.cons_coe, ← inductionHypothesis,
        Multiset.cons_add, Multiset.add_cons]

/-- The bound loop takes every steer. The follow-ups it leaves behind are of the
other mode, so the line keeps its order. -/
theorem Sound.take (sound : ledger.Sound) {loopId : LoopId} {claim : Claim}
    (started : ledger.started[loopId]? = some claim)
    (bound : ledger.queue.binding = some claim.generation) : (ledger.take loopId).Sound := by
  obtain ⟨running, unclaimed⟩ := sound.taker_alone started bound
  have fewer := List.length_filter_le (fun entry : Entry => !entry.isSteer) ledger.queue.items
  constructor
  case owned => exact sound.owned
  case bound => exact sound.bound
  case starts => exact sound.starts
  case pending => exact sound.pending
  case claimed => exact sound.claimed
  case newest => exact sound.newest
  case waiting => exact sound.waiting
  case room =>
    have room := sound.room
    simp only [Ledger.take, QueueState.takeSteers]
    omega
  case runningRoom =>
    intro _
    have room := sound.runningRoom running
    simp only [Ledger.take, QueueState.takeSteers]
    omega
  case pauses =>
    intro paused
    have idle := (sound.pauses paused).2
    rw [running] at idle
    cases idle
  case numbered => exact sound.numbered
  case conserved =>
    have conserved := sound.conserved
    simp only [placed, ← filter_parts ledger.queue.items] at conserved
    simp only [placed, Ledger.take, QueueState.takeSteers, List.map_append, List.map_map,
      Function.comp_def, Departure.entry, ← Multiset.coe_add, ← conserved]
    abel
  case prompted =>
    simpa [Ledger.take, List.filterMap_append, List.filterMap_map, Function.comp_def,
      Departure.prompted] using sound.prompted
  case addressed =>
    intro departure member
    rcases List.mem_append.mp member with old | new
    · exact sound.addressed departure old
    · obtain ⟨entry, _, rfl⟩ := List.mem_map.mp new
      refine ⟨claim, started, ?_⟩
      intro other prompts
      cases prompts
  case ordered =>
    have ordered := sound.ordered
    rw [line_unclaimed unclaimed] at ordered
    rw [line_unclaimed (by exact unclaimed)]
    simp only [Ledger.take, QueueState.takeSteers, List.map_append, List.map_map,
      Function.comp_def, Departure.entry, List.map_id', List.append_assoc]
    rw [List.pairwise_append] at ordered ⊢
    obtain ⟨departed, queued, across⟩ := ordered
    refine ⟨departed, ?_, ?_⟩
    · rw [List.pairwise_append]
      refine ⟨queued.filter _, queued.filter _, ?_⟩
      intro steer steers other follows same
      have isSteer := (List.mem_filter.mp steers).2
      have notSteer := (List.mem_filter.mp follows).2
      simp only [Entry.isSteer, same, decide_eq_true_eq, Bool.not_eq_eq_eq_not, Bool.not_true,
        decide_eq_false_iff_not] at isSteer notSteer
      exact absurd isSteer notSteer
    · intro gone left other member
      rcases List.mem_append.mp member with steers | follows
      · exact across gone left other (List.mem_filter.mp steers).1
      · exact across gone left other (List.mem_filter.mp follows).1

/-- Entries returned to a client leave the line and keep the rest in order. -/
theorem Sound.giveOut (sound : ledger.Sound) {entries items : List Entry} {paused : Bool}
    (shorter : items.Sublist ledger.queue.items)
    (pauses : paused = true → items ≠ [] ∧ ledger.queue.running = false)
    (parts : (items.map Entry.id : Multiset Nat) + (entries.map Entry.id : Multiset Nat) =
      (ledger.queue.items.map Entry.id : Multiset Nat)) :
    (ledger.giveOut entries
      { ledger.queue with items := items, paused := paused }).Sound := by
  have fewer := shorter.length_le
  constructor
  case owned => exact sound.owned
  case bound => exact sound.bound
  case starts => exact sound.starts
  case pending => exact sound.pending
  case claimed => exact sound.claimed
  case newest => exact sound.newest
  case waiting => exact sound.waiting
  case room => exact Nat.le_trans fewer sound.room
  case runningRoom =>
    intro running
    exact Nat.le_trans fewer (sound.runningRoom running)
  case pauses => exact pauses
  case numbered => exact sound.numbered
  case conserved =>
    have conserved := sound.conserved
    simp only [placed, ← parts] at conserved
    simp only [placed, Ledger.giveOut, List.map_append, ← Multiset.coe_add, ← conserved]
    abel
  case prompted => exact sound.prompted
  case addressed => exact sound.addressed
  case ordered => exact sound.ordered.sublist ((List.Sublist.refl _).append shorter)

theorem Sound.remove (sound : ledger.Sound) {id : Nat} {entry : Entry} {queue : QueueState}
    (removed : ledger.queue.removeInput id = .ok (entry, queue)) :
    (ledger.giveOut [entry] queue).Sound := by
  obtain ⟨before, rest, items, _, rfl⟩ := QueueState.remove_input_split removed
  refine sound.giveOut ?_ ?_ ?_
  · rw [items]
    exact (List.Sublist.refl before).append (List.sublist_cons_self entry rest)
  · intro paused
    simp only [Bool.and_eq_true, Bool.not_eq_eq_eq_not, Bool.not_true,
      List.isEmpty_eq_false_iff] at paused
    exact ⟨paused.2, (sound.pauses paused.1).2⟩
  · simp only [items, List.map_append, List.map_cons, List.map_nil, ← Multiset.coe_add,
      ← Multiset.cons_coe, Multiset.coe_nil, ← Multiset.singleton_add, add_zero]
    abel

theorem Sound.clear (sound : ledger.Sound) :
    (ledger.giveOut ledger.queue.recallInputs.1 ledger.queue.recallInputs.2).Sound := by
  refine sound.giveOut (List.nil_sublist _) (by simp) ?_
  have parts := filter_parts ledger.queue.items
  have other (entry : Entry) : decide (entry.mode = .followUp) = !entry.isSteer := by
    cases mode : entry.mode <;> simp [Entry.isSteer, mode]
  simp only [QueueState.recallInputs, QueueState.runOrder, List.map_nil, Multiset.coe_nil,
    List.map_append, ← Multiset.coe_add, zero_add, other, ← parts]
  rfl

theorem Sound.lose (sound : ledger.Sound) {owning : Nat} (owned : ledger.owning = owning + 1) :
    Sound { ledger with owning := owning } where
  owned := by
    have before := sound.owned
    simp only [owners, owned] at before ⊢
    omega
  bound := sound.bound
  starts := sound.starts
  pending := sound.pending
  claimed := sound.claimed
  newest := sound.newest
  waiting := sound.waiting
  room := sound.room
  runningRoom := sound.runningRoom
  pauses := sound.pauses
  numbered := sound.numbered
  conserved := sound.conserved
  prompted := sound.prompted
  addressed := sound.addressed
  ordered := sound.ordered

end Ledger

/-- Every move keeps the ledger sound. -/
theorem Move.sound {lossy : Bool} {before after : Ledger} (move : Move lossy before after)
    (sound : before.Sound) : after.Sound := by
  cases move with
  | push entry room numbered => exact sound.push entry room numbered
  | resume => exact sound.resume
  | claim claim queue idle unpaused started =>
    obtain ⟨unclaimed, unowned⟩ := sound.unowned idle
    exact sound.hold unclaimed unowned unpaused started
  | succeed owning claim queue owned started =>
    obtain ⟨running, unclaimed, single⟩ := sound.driver_alone (by omega)
    have unpaused : before.queue.paused = false := by
      cases paused : before.queue.paused with
      | false => rfl
      | true => exact absurd (sound.pauses paused).2 (by simp [running])
    exact sound.hold unclaimed (by omega) unpaused started
  | start claim claims held => exact sound.start held
  | install owned => exact sound.install owned
  | restore claim claims pause held => exact sound.restore held
  | finish owning pause owned pausable => exact sound.finish owned pausable
  | pause idle pausable => exact sound.pause idle pausable
  | take loopId claim started bound => exact sound.take started bound
  | remove id entry queue removed => exact sound.remove removed
  | clear => exact sound.clear
  | lose owning lost owned => exact sound.lose owned

/-- Any number of moves keeps the ledger sound. -/
theorem Moves.sound {lossy : Bool} {before after : Ledger} (moves : Moves lossy before after)
    (sound : before.Sound) : after.Sound := by
  induction moves with
  | refl => exact sound
  | tail _ move inductionHypothesis => exact move.sound inductionHypothesis

/-- A period has exactly one owner while it runs. -/
def Ledger.Owned (ledger : Ledger) : Prop :=
  ledger.owners = if ledger.queue.running then 1 else 0

/-- Without a lossy move, no period loses its owner. -/
theorem Move.owned {before after : Ledger} (move : Move false before after)
    (sound : before.Sound) (owned : before.Owned) : after.Owned := by
  cases move with
  | push => exact owned
  | resume => exact owned
  | claim claim queue idle unpaused started =>
    obtain ⟨_, _, _, _, _, _, _, rfl⟩ := QueueState.start_head_claims started
    obtain ⟨unclaimed, unowned⟩ := sound.unowned idle
    simp [Ledger.Owned, Ledger.owners, Ledger.hold, unclaimed, unowned]
  | succeed owning claim queue one started =>
    obtain ⟨_, _, _, _, _, _, _, rfl⟩ := QueueState.start_head_claims started
    obtain ⟨_, unclaimed, single⟩ := sound.driver_alone (by omega)
    have none : owning = 0 := by omega
    simp [Ledger.Owned, Ledger.owners, Ledger.hold, unclaimed, none]
  | start claim claims held =>
    obtain ⟨running, rfl, unowned⟩ := sound.claim_alone held
    simp [Ledger.Owned, Ledger.owners, Ledger.start, unowned, running]
  | install => exact owned
  | restore claim claims pause held =>
    obtain ⟨_, rfl, unowned⟩ := sound.claim_alone held
    simp [Ledger.Owned, Ledger.owners, Ledger.restore, QueueState.abandonClaim,
      QueueState.endPeriod, unowned]
  | finish owning pause one pausable =>
    obtain ⟨_, unclaimed, single⟩ := sound.driver_alone (by omega)
    have none : owning = 0 := by omega
    simp [Ledger.Owned, Ledger.owners, Ledger.finish, QueueState.endPeriod, unclaimed, none]
  | pause => exact owned
  | take => exact owned
  | remove id entry queue removed =>
    obtain ⟨_, _, _, _, rfl⟩ := QueueState.remove_input_split removed
    exact owned
  | clear => exact owned
  | lose owning lost => cases lost

theorem Moves.owned {before after : Ledger} (moves : Moves false before after)
    (sound : before.Sound) (owned : before.Owned) : after.Owned := by
  induction moves with
  | refl => exact owned
  | tail earlier move inductionHypothesis =>
    exact move.owned (Moves.sound earlier sound) inductionHypothesis

/-- A period without an owner is never released: every move that would need the
owner is impossible, and no loop is started again. -/
theorem Move.stranded {lossy : Bool} {before after : Ledger} (move : Move lossy before after)
    (running : before.queue.running = true) (unowned : before.owners = 0) :
    after.queue.running = true ∧ after.owners = 0 ∧ after.started = before.started := by
  have unclaimed : before.claims = 0 :=
    Multiset.card_eq_zero.mp (Nat.eq_zero_of_add_eq_zero unowned).1
  have none : before.owning = 0 := (Nat.eq_zero_of_add_eq_zero unowned).2
  cases move with
  | push => exact ⟨running, unowned, rfl⟩
  | resume => exact ⟨running, unowned, rfl⟩
  | claim claim queue idle => exact absurd idle (by simp [running])
  | succeed owning claim queue owned => omega
  | start claim claims held => simp [unclaimed] at held
  | install owned => omega
  | restore claim claims pause held => simp [unclaimed] at held
  | finish owning pause owned => omega
  | pause idle => exact absurd idle (by simp [running])
  | take => exact ⟨running, unowned, rfl⟩
  | remove id entry queue removed =>
    obtain ⟨_, _, _, _, rfl⟩ := QueueState.remove_input_split removed
    exact ⟨running, unowned, rfl⟩
  | clear => exact ⟨running, unowned, rfl⟩
  | lose owning lost owned => omega

theorem Moves.stranded {lossy : Bool} {before after : Ledger} (moves : Moves lossy before after)
    (running : before.queue.running = true) (unowned : before.owners = 0) :
    after.queue.running = true ∧ after.owners = 0 ∧ after.started = before.started := by
  induction moves with
  | refl => exact ⟨running, unowned, rfl⟩
  | tail _ move inductionHypothesis =>
    obtain ⟨still, none, same⟩ := inductionHypothesis
    obtain ⟨stays, empty, started⟩ := move.stranded still none
    exact ⟨stays, empty, started.trans same⟩

end MinicoreAgent.InputLedger

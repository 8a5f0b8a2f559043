import Mathlib.Data.Multiset.Basic
import Mathlib.Data.Multiset.MapFold
import Mathlib.Logic.Relation
import MinicoreAgent.SessionState

/-!
# A board of manual compactions

The abstract account of manual compactions. Each operation that somebody is still
responsible for has one handler, and the handler's phase says what is owed: an
admission owns the pending slot, a worker owns the running one, a completed
operation still owes the publication of its result. Operations whose admission
was dropped are owed nothing.

The moves are the only ways in which operations, the two slots and the busy flag
change together. What an operation's atomic state allows is stated once per
operation; what excludes a compaction from a turn is stated on the slots.
-/
namespace MinicoreAgent.SessionState

/-- The result that reports a cancellation. -/
def CompactionResult.isCancelled (result : CompactionResult) : Bool :=
  result.status = .failed && result.failureKind = some "cancelled"

/-- The history of one operation agrees with its atomic state. -/
structure CompactionOperation.Consistent (shared : CompactionOperation) : Prop where
  granted : shared.cancelGranted = true →
    shared.commitBegun = false ∧ (shared.state = .cancelled ∨ shared.state = .completed)
  begun : shared.commitBegun = true → shared.state = .committing ∨ shared.state = .completed
  projects : shared.projected = true → shared.commitBegun = true
  answered : shared.cancelGranted = true →
    ∀ result ∈ shared.published, result.isCancelled = true
  once : shared.published.length ≤ 1
  sent : shared.result = shared.published.head?
  ended : shared.published ≠ [] → shared.state = .completed

namespace CompactionOperation

variable {shared : CompactionOperation}

theorem consistent_new (operationId : String) : (new operationId).Consistent := by
  constructor <;> simp [new]

/-- An operation that nobody can cancel any more refuses, and a granted cancel
happens before any commit. -/
theorem Consistent.cancel (consistent : shared.Consistent) : shared.cancel.2.Consistent := by
  unfold CompactionOperation.cancel
  split
  · rename_i running
    have unpublished : shared.published = [] := by
      by_contra present
      rw [consistent.ended present] at running
      cases running
    constructor
    case granted =>
      intro _
      refine ⟨?_, .inl rfl⟩
      cases begun : shared.commitBegun with
      | false => rfl
      | true =>
        rcases consistent.begun begun with committing | completed
        · rw [running] at committing
          cases committing
        · rw [running] at completed
          cases completed
    case begun =>
      intro begun
      rcases consistent.begun begun with committing | completed
      · rw [running] at committing
        cases committing
      · rw [running] at completed
        cases completed
    case projects => exact consistent.projects
    case answered => simp [unpublished]
    case once => exact consistent.once
    case sent => exact consistent.sent
    case ended => simp [unpublished]
  · exact consistent

theorem Consistent.commit (consistent : shared.Consistent) (running : shared.state = .running) :
    shared.tryBeginCommit.2.Consistent := by
  have ungranted : shared.cancelGranted = false := by
    cases granted : shared.cancelGranted with
    | false => rfl
    | true =>
      rcases (consistent.granted granted).2 with cancelled | completed
      · rw [running] at cancelled
        cases cancelled
      · rw [running] at completed
        cases completed
  have unpublished : shared.published = [] := by
    by_contra present
    rw [consistent.ended present] at running
    cases running
  simp only [tryBeginCommit, running, if_true]
  constructor <;> simp [ungranted, unpublished, consistent.sent]

theorem Consistent.project (consistent : shared.Consistent) (begun : shared.commitBegun = true) :
    Consistent { shared with projected := true } where
  granted := consistent.granted
  begun := consistent.begun
  projects := fun _ => begun
  answered := consistent.answered
  once := consistent.once
  sent := consistent.sent
  ended := consistent.ended

theorem Consistent.assign (consistent : shared.Consistent) (task : TaskId) :
    Consistent { shared with task := some task } where
  granted := consistent.granted
  begun := consistent.begun
  projects := consistent.projects
  answered := consistent.answered
  once := consistent.once
  sent := consistent.sent
  ended := consistent.ended

/-- A completed operation differs only in its state. -/
theorem complete_eq (shared : CompactionOperation) (result : CompactionResult) :
    (shared.complete result).2 = { shared with state := .completed } := by
  unfold complete
  split <;> rename_i state
  · rfl
  · rfl
  · rfl
  · rw [← state]

theorem Consistent.complete (consistent : shared.Consistent) (result : CompactionResult) :
    (shared.complete result).2.Consistent := by
  rw [complete_eq]
  exact
    { granted := fun granted => ⟨(consistent.granted granted).1, .inr rfl⟩
      begun := fun _ => .inr rfl
      projects := consistent.projects
      answered := consistent.answered
      once := consistent.once
      sent := consistent.sent
      ended := fun _ => rfl }

/-- A cancellation that was granted overrides the result. -/
theorem Consistent.settles (consistent : shared.Consistent) (result : CompactionResult)
    (uncompleted : shared.state ≠ .completed) (granted : shared.cancelGranted = true) :
    (shared.complete result).1.isCancelled = true := by
  have cancelled := (consistent.granted granted).2.resolve_right uncompleted
  simp [CompactionOperation.complete, cancelled, failedResult, CompactionResult.isCancelled]

theorem Consistent.publish (consistent : shared.Consistent) {result : CompactionResult}
    (completed : shared.state = .completed) (unpublished : shared.published = [])
    (overridden : shared.cancelGranted = true → result.isCancelled = true) :
    (shared.publish result).Consistent where
  granted := consistent.granted
  begun := consistent.begun
  projects := consistent.projects
  answered := by
    intro granted other member
    obtain rfl : other = result := by
      simpa [CompactionOperation.publish, unpublished] using member
    exact overridden granted
  once := by simp [CompactionOperation.publish, unpublished]
  sent := by simp [CompactionOperation.publish, unpublished]
  ended := fun _ => completed

/-- Cancelling changes neither completion nor what was published or assigned. -/
theorem cancel_frame (shared : CompactionOperation) :
    (shared.cancel.2.state = .completed ↔ shared.state = .completed) ∧
      shared.cancel.2.published = shared.published ∧ shared.cancel.2.task = shared.task ∧
      shared.cancel.2.commitBegun = shared.commitBegun ∧
      shared.cancel.2.result = shared.result ∧
      (shared.state = .completed → shared.cancel.2 = shared) := by
  unfold cancel
  split
  · rename_i running
    simp [running]
  · simp

end CompactionOperation

end MinicoreAgent.SessionState

namespace MinicoreAgent.CompactionBoard

open SessionState

/-- What a handler still owes its operation. -/
inductive Phase
  | admission
  | dropped
  | working (committed : Bool)
  | completing
  | settled (result : CompactionResult)
  deriving DecidableEq

structure Handler where
  operation : OperationRef
  phase : Phase
  deriving DecidableEq

/-- Operations, slots, handlers, the operations some cleanup is about to forget,
and whether a busy period runs. -/
structure Board where
  operations : List CompactionOperation
  pending : Option OperationRef
  slot : Option OperationRef
  handlers : Multiset Handler
  reaping : Multiset OperationRef
  running : Bool

namespace Board

/-- A result of the operation was published. -/
def published (board : Board) (operation : OperationRef) : Prop :=
  ∃ shared, board.operations[operation]? = some shared ∧ shared.result.isSome

/-- The operation is completed. -/
def completed (board : Board) (operation : OperationRef) : Prop :=
  ∃ shared, board.operations[operation]? = some shared ∧ shared.state = .completed

/-- Replace a handler and change its operation. -/
def handle (board : Board) (handler : Handler) (rest : Multiset Handler)
    (change : CompactionOperation → CompactionOperation) : Board :=
  { board with
    operations := board.operations.modify handler.operation change
    handlers := handler ::ₘ rest }

/-- Forget an operation in the slot. -/
def forget (board : Board) (operation : OperationRef) : Board :=
  { board with slot := if board.slot = some operation then none else board.slot }

end Board

/-- One change of the board. -/
inductive Move : Board → Board → Prop
  | enrol (board : Board) (operationId : String) (idle : board.running = false)
      (free : board.pending = none)
      (reapable : ∀ operation, board.slot = some operation → board.published operation) :
      Move board
        { board with
          operations := board.operations ++ [CompactionOperation.new operationId]
          pending := some board.operations.length
          handlers := ⟨board.operations.length, .admission⟩ ::ₘ board.handlers }
  | leave (board : Board) (operation : OperationRef) (rest : Multiset Handler) (phase : Phase)
      (held : board.handlers = ⟨operation, .admission⟩ ::ₘ rest)
      (left : phase = .completing ∨ phase = .dropped) :
      Move board { board with pending := none, handlers := ⟨operation, phase⟩ ::ₘ rest }
  | drop (board : Board) (operation : OperationRef) (rest : Multiset Handler)
      (held : board.handlers = ⟨operation, .dropped⟩ ::ₘ rest) :
      Move board { board with handlers := rest }
  | begin (board : Board) (operation : OperationRef) (rest : Multiset Handler) (task : TaskId)
      (held : board.handlers = ⟨operation, .admission⟩ ::ₘ rest) (free : board.slot = none) :
      Move board
        { board.handle ⟨operation, .working false⟩ rest
            (fun shared => { shared with task := some task }) with
          pending := none
          slot := some operation }
  | commit (board : Board) (operation : OperationRef) (rest : Multiset Handler)
      (shared : CompactionOperation)
      (held : board.handlers = ⟨operation, .working false⟩ ::ₘ rest)
      (known : board.operations[operation]? = some shared) (begun : shared.state = .running) :
      Move board
        (board.handle ⟨operation, .working true⟩ rest (fun shared => shared.tryBeginCommit.2))
  | project (board : Board) (operation : OperationRef) (rest : Multiset Handler)
      (held : board.handlers = ⟨operation, .working true⟩ ::ₘ rest) :
      Move board
        (board.handle ⟨operation, .completing⟩ rest
          (fun shared => { shared with projected := true }))
  | finish (board : Board) (operation : OperationRef) (rest : Multiset Handler)
      (committed : Bool)
      (held : board.handlers = ⟨operation, .working committed⟩ ::ₘ rest) :
      Move board { board with handlers := ⟨operation, .completing⟩ ::ₘ rest }
  | complete (board : Board) (operation : OperationRef) (rest : Multiset Handler)
      (shared : CompactionOperation) (result : CompactionResult)
      (held : board.handlers = ⟨operation, .completing⟩ ::ₘ rest)
      (known : board.operations[operation]? = some shared) :
      Move board
        (board.handle ⟨operation, .settled (shared.complete result).1⟩ rest
          (fun shared => (shared.complete result).2))
  | publish (board : Board) (operation : OperationRef) (rest : Multiset Handler)
      (result : CompactionResult)
      (held : board.handlers = ⟨operation, .settled result⟩ ::ₘ rest) :
      Move board
        { board with
          operations := board.operations.modify operation (fun shared => shared.publish result)
          handlers := rest }
  | cancel (board : Board) (operation : OperationRef) :
      Move board
        { board with
          operations := board.operations.modify operation (fun shared => shared.cancel.2) }
  | look (board : Board) (operation : OperationRef) (present : board.published operation) :
      Move board { board with reaping := operation ::ₘ board.reaping }
  | turnAway (board : Board) (operation : OperationRef) (rest : Multiset OperationRef)
      (held : board.reaping = operation ::ₘ rest) : Move board { board with reaping := rest }
  | reap (board : Board) (operation : OperationRef) (present : board.published operation) :
      Move board (board.forget operation)
  | run (board : Board) (free : board.pending = none)
      (slotCompleted : ∀ operation, board.slot = some operation → board.completed operation) :
      Move board { board with running := true }
  | stop (board : Board) : Move board { board with running := false }

/-- Any number of moves. -/
abbrev Moves : Board → Board → Prop := Relation.ReflTransGen Move

/-- What a handler may rely on. -/
def Handler.Fits (board : Board) (handler : Handler) : Prop :=
  ∃ shared, board.operations[handler.operation]? = some shared ∧ shared.published = [] ∧
    match handler.phase with
    | .admission =>
      board.pending = some handler.operation ∧ shared.task = none ∧ shared.state ≠ .completed
    | .dropped => shared.task = none ∧ shared.state ≠ .completed
    | .working committed =>
      shared.task.isSome ∧ shared.state ≠ .completed ∧
        (committed = true → shared.commitBegun = true)
    | .completing => shared.state ≠ .completed
    | .settled result =>
      shared.state = .completed ∧ (shared.cancelGranted = true → result.isCancelled = true)

namespace Board

/-- The invariant of the board. -/
structure Sound (board : Board) : Prop where
  distinct : (board.handlers.map Handler.operation).Nodup
  fits : ∀ handler ∈ board.handlers, handler.Fits board
  consistent : ∀ (operation : Nat) (shared : CompactionOperation),
    board.operations[operation]? = some shared → shared.Consistent
  working : ∀ (operation : Nat) (shared : CompactionOperation),
    board.operations[operation]? = some shared → shared.task.isSome →
    shared.state ≠ .completed → board.slot = some operation
  handled : ∀ (operation : Nat) (shared : CompactionOperation),
    board.operations[operation]? = some shared → shared.task.isSome →
    (∃ handler ∈ board.handlers, handler.operation = operation) ∨ shared.result.isSome
  reaped : ∀ operation ∈ board.reaping, board.published operation
  slots : board.pending.isSome →
    ∀ operation, board.slot = some operation → board.completed operation
  excluded : board.running = true →
    board.pending = none ∧
      ∀ operation, board.slot = some operation → board.completed operation

variable {board : Board} {operation : OperationRef} {shared : CompactionOperation}
  {rest : Multiset Handler} {phase : Phase}

/-- The operation of a changed one, and of every other. -/
theorem modified_self {operations : List CompactionOperation}
    (change : CompactionOperation → CompactionOperation)
    (known : operations[operation]? = some shared) :
    (operations.modify operation change)[operation]? = some (change shared) := by
  simp [known]

theorem modified_other {operations : List CompactionOperation} {other : OperationRef}
    (change : CompactionOperation → CompactionOperation) (apart : other ≠ operation) :
    (operations.modify operation change)[other]? = operations[other]? := by
  simp [Ne.symm apart]

/-- A held handler fits. -/
theorem Sound.held_fits (sound : board.Sound)
    (held : board.handlers = ⟨operation, phase⟩ ::ₘ rest) :
    Handler.Fits board ⟨operation, phase⟩ :=
  sound.fits _ (by simp [held])

/-- The others handle other operations. -/
theorem Sound.held_apart (sound : board.Sound)
    (held : board.handlers = ⟨operation, phase⟩ ::ₘ rest) :
    ∀ handler ∈ rest, handler.operation ≠ operation := by
  have distinct := sound.distinct
  rw [held, Multiset.map_cons, Multiset.nodup_cons] at distinct
  intro handler member same
  exact distinct.1 (Multiset.mem_map.mpr ⟨handler, member, same⟩)

/-- Replacing a handler by one of the same operation keeps operations apart. -/
theorem Sound.distinct_replaced (sound : board.Sound) (next : Phase)
    (held : board.handlers = ⟨operation, phase⟩ ::ₘ rest) :
    ((⟨operation, next⟩ ::ₘ rest : Multiset Handler).map Handler.operation).Nodup := by
  have distinct := sound.distinct
  rw [held] at distinct
  simpa using distinct

theorem Sound.distinct_removed (sound : board.Sound)
    (held : board.handlers = ⟨operation, phase⟩ ::ₘ rest) :
    (rest.map Handler.operation).Nodup := by
  have distinct := sound.distinct
  rw [held, Multiset.map_cons, Multiset.nodup_cons] at distinct
  exact distinct.2

/-- An operation with a worker stays handled when a handler changes its phase. -/
theorem Sound.handled_replaced (sound : board.Sound) (next : Phase)
    (held : board.handlers = ⟨operation, phase⟩ ::ₘ rest) (other : Nat)
    (found : CompactionOperation) (known : board.operations[other]? = some found)
    (assigned : found.task.isSome) :
    (∃ handler ∈ (⟨operation, next⟩ ::ₘ rest : Multiset Handler), handler.operation = other) ∨
      found.result.isSome := by
  rcases sound.handled other found known assigned with ⟨handler, member, names⟩ | sent
  · rw [held] at member
    rcases Multiset.mem_cons.mp member with rfl | remaining
    · exact .inl ⟨⟨operation, next⟩, Multiset.mem_cons_self _ _, names⟩
    · exact .inl ⟨handler, Multiset.mem_cons_of_mem remaining, names⟩
  · exact .inr sent

/-- No other handler waits for admission while one does. -/
theorem Sound.admission_alone (sound : board.Sound)
    (held : board.handlers = ⟨operation, .admission⟩ ::ₘ rest) :
    ∀ handler ∈ rest, handler.phase ≠ .admission := by
  obtain ⟨_, _, _, pending, _⟩ := sound.held_fits held
  intro handler member waits
  obtain ⟨_, _, _, facts⟩ := sound.fits handler (by simp [held, member])
  rw [waits] at facts
  have same : some operation = some handler.operation := pending.symm.trans facts.1
  exact sound.held_apart held handler member (Option.some.inj same).symm

/-- What a handler relies on does not involve other operations. -/
theorem fits_elsewhere {after : Board} {handler : Handler} (fits : handler.Fits board)
    (same : after.operations[handler.operation]? = board.operations[handler.operation]?)
    (pending : handler.phase = .admission → after.pending = board.pending) :
    handler.Fits after := by
  obtain ⟨shared, known, unpublished, facts⟩ := fits
  refine ⟨shared, same.trans known, unpublished, ?_⟩
  cases phase : handler.phase with
  | admission =>
    rw [phase] at facts
    exact ⟨(pending phase).trans facts.1, facts.2⟩
  | _ =>
    rw [phase] at facts
    exact facts

/-- One operation changes and keeps its task; what was completed or published
stays so. -/
theorem Sound.change (sound : board.Sound) {handlers : Multiset Handler}
    {change : CompactionOperation → CompactionOperation}
    (known : board.operations[operation]? = some shared)
    (distinct : (handlers.map Handler.operation).Nodup)
    (others : ∀ handler, handler.operation ≠ operation →
      (handler ∈ handlers ↔ handler ∈ board.handlers))
    (owed : (change shared).task.isSome →
      (∃ handler ∈ handlers, handler.operation = operation) ∨ (change shared).result.isSome)
    (own : ∀ handler ∈ handlers, handler.operation = operation →
      handler.Fits { board with operations := board.operations.modify operation change })
    (consistent : (change shared).Consistent) (task : (change shared).task = shared.task)
    (completes : shared.state = .completed → (change shared).state = .completed)
    (publishes : shared.result.isSome → (change shared).result.isSome) :
    Sound
      { board with
        operations := board.operations.modify operation change, handlers := handlers } := by
  have self := modified_self change known
  have completed (other : OperationRef) (before : board.completed other) :
      ∃ now, (board.operations.modify operation change)[other]? = some now ∧
        now.state = .completed := by
    obtain ⟨earlier, present, done⟩ := before
    by_cases same : other = operation
    · subst same
      obtain rfl : shared = earlier := Option.some.inj (known.symm.trans present)
      exact ⟨_, self, completes done⟩
    · exact ⟨earlier, (modified_other change same).trans present, done⟩
  have published (other : OperationRef) (before : board.published other) :
      ∃ now, (board.operations.modify operation change)[other]? = some now ∧
        now.result.isSome := by
    obtain ⟨earlier, present, sent⟩ := before
    by_cases same : other = operation
    · subst same
      obtain rfl : shared = earlier := Option.some.inj (known.symm.trans present)
      exact ⟨_, self, publishes sent⟩
    · exact ⟨earlier, (modified_other change same).trans present, sent⟩
  constructor
  case distinct => exact distinct
  case fits =>
    intro handler member
    by_cases same : handler.operation = operation
    · exact own handler member same
    · exact fits_elsewhere (sound.fits handler ((others handler same).mp member))
        (modified_other change same) (fun _ => rfl)
  case consistent =>
    intro other found present
    by_cases same : other = operation
    · subst same
      obtain rfl : change shared = found := Option.some.inj (self.symm.trans present)
      exact consistent
    · exact sound.consistent other found ((modified_other change same).symm.trans present)
  case working =>
    intro other found present assigned uncompleted
    by_cases same : other = operation
    · subst same
      obtain rfl : change shared = found := Option.some.inj (self.symm.trans present)
      refine sound.working other shared known (task ▸ assigned) ?_
      intro done
      exact uncompleted (completes done)
    · exact sound.working other found ((modified_other change same).symm.trans present) assigned
        uncompleted
  case handled =>
    intro other found present assigned
    by_cases same : other = operation
    · subst same
      obtain rfl : change shared = found := Option.some.inj (self.symm.trans present)
      exact owed assigned
    · rcases sound.handled other found ((modified_other change same).symm.trans present) assigned
        with ⟨handler, member, names⟩ | sent
      · exact .inl ⟨handler, (others handler (names ▸ same)).mpr member, names⟩
      · exact .inr sent
  case reaped =>
    intro other member
    exact published other (sound.reaped other member)
  case slots =>
    intro waiting other slot
    exact completed other (sound.slots waiting other slot)
  case excluded =>
    intro running
    obtain ⟨free, slotCompleted⟩ := sound.excluded running
    exact ⟨free, fun other slot => completed other (slotCompleted other slot)⟩

/-- An admission finds both slots free or done and takes the pending one. -/
theorem Sound.enrol (sound : board.Sound) (operationId : String)
    (idle : board.running = false) (free : board.pending = none)
    (reapable : ∀ operation, board.slot = some operation → board.published operation) :
    Sound
      { board with
        operations := board.operations ++ [CompactionOperation.new operationId]
        pending := some board.operations.length
        handlers := ⟨board.operations.length, .admission⟩ ::ₘ board.handlers } := by
  have old (other : OperationRef) (shared : CompactionOperation)
      (known : board.operations[other]? = some shared) :
      (board.operations ++ [CompactionOperation.new operationId])[other]? = some shared := by
    obtain ⟨inside, _⟩ := List.getElem?_eq_some_iff.mp known
    rw [List.getElem?_append_left inside, known]
  have either (other : OperationRef) (shared : CompactionOperation)
      (known : (board.operations ++ [CompactionOperation.new operationId])[other]? =
        some shared) :
      board.operations[other]? = some shared ∨
        (other = board.operations.length ∧ shared = CompactionOperation.new operationId) := by
    rcases Nat.lt_or_ge other board.operations.length with inside | beyond
    · rw [List.getElem?_append_left inside] at known
      exact .inl known
    · rw [List.getElem?_append_right beyond] at known
      cases offset : other - board.operations.length with
      | zero =>
        rw [offset] at known
        exact .inr ⟨Nat.le_antisymm (Nat.sub_eq_zero_iff_le.mp offset) beyond,
          (Option.some.inj known).symm⟩
      | succ offset_ => simp [offset] at known
  have fitting (handler : Handler) (member : handler ∈ board.handlers) :
      handler.operation ≠ board.operations.length := by
    obtain ⟨_, known, _⟩ := sound.fits handler member
    have inside := (List.getElem?_eq_some_iff.mp known).1
    exact Nat.ne_of_lt inside
  constructor
  case distinct =>
    rw [Multiset.map_cons, Multiset.nodup_cons]
    refine ⟨?_, sound.distinct⟩
    intro member
    obtain ⟨handler, held, same⟩ := Multiset.mem_map.mp member
    exact fitting handler held same
  case fits =>
    intro handler member
    rcases Multiset.mem_cons.mp member with rfl | held
    · exact ⟨CompactionOperation.new operationId, by simp, rfl, rfl, rfl, by
        simp [CompactionOperation.new]⟩
    · have fitted := sound.fits handler held
      obtain ⟨shared, known, _, facts⟩ := sound.fits handler held
      refine fits_elsewhere fitted ((old _ _ known).trans known.symm) ?_
      intro waits
      rw [waits, free] at facts
      cases facts.1
  case consistent =>
    intro other shared known
    rcases either other shared known with before | ⟨_, rfl⟩
    · exact sound.consistent other shared before
    · exact CompactionOperation.consistent_new operationId
  case working =>
    intro other shared known assigned uncompleted
    rcases either other shared known with before | ⟨_, rfl⟩
    · exact sound.working other shared before assigned uncompleted
    · cases assigned
  case handled =>
    intro other shared known assigned
    rcases either other shared known with before | ⟨_, rfl⟩
    · rcases sound.handled other shared before assigned with ⟨handler, member, names⟩ | sent
      · exact .inl ⟨handler, Multiset.mem_cons_of_mem member, names⟩
      · exact .inr sent
    · cases assigned
  case reaped =>
    intro other member
    obtain ⟨shared, known, sent⟩ := sound.reaped other member
    exact ⟨shared, old other shared known, sent⟩
  case slots =>
    intro _ other slot
    obtain ⟨shared, known, sent⟩ := reapable other slot
    have consistent := sound.consistent other shared known
    refine ⟨shared, old other shared known, consistent.ended ?_⟩
    intro unpublished
    rw [consistent.sent, unpublished] at sent
    cases sent
  case excluded =>
    intro running
    rw [show board.running = true from running] at idle
    cases idle

/-- An admission that ends before its worker started frees the pending slot. -/
theorem Sound.leave (sound : board.Sound)
    (held : board.handlers = ⟨operation, .admission⟩ ::ₘ rest)
    (left : phase = .completing ∨ phase = .dropped) :
    Sound { board with pending := none, handlers := ⟨operation, phase⟩ ::ₘ rest } := by
  obtain ⟨shared, known, unpublished, pending, untasked, uncompleted⟩ := sound.held_fits held
  constructor
  case distinct => exact sound.distinct_replaced phase held
  case fits =>
    intro handler member
    rcases Multiset.mem_cons.mp member with rfl | other
    · rcases left with rfl | rfl
      · exact ⟨shared, known, unpublished, uncompleted⟩
      · exact ⟨shared, known, unpublished, untasked, uncompleted⟩
    · refine fits_elsewhere (sound.fits handler (by simp [held, other])) rfl ?_
      intro waits
      exact absurd waits (sound.admission_alone held handler other)
  case consistent => exact sound.consistent
  case working => exact sound.working
  case handled => exact sound.handled_replaced phase held
  case reaped => exact sound.reaped
  case slots =>
    intro waiting
    cases waiting
  case excluded =>
    intro running
    exact ⟨rfl, (sound.excluded running).2⟩

/-- A dropped admission is owed nothing, so its handler may go. -/
theorem Sound.drop (sound : board.Sound)
    (held : board.handlers = ⟨operation, .dropped⟩ ::ₘ rest) :
    Sound { board with handlers := rest } where
  distinct := sound.distinct_removed held
  fits := by
    intro handler member
    exact fits_elsewhere (sound.fits handler (by simp [held, member])) rfl (fun _ => rfl)
  consistent := sound.consistent
  working := sound.working
  handled := by
    intro other shared known assigned
    rcases sound.handled other shared known assigned with ⟨handler, member, names⟩ | sent
    · rw [held] at member
      rcases Multiset.mem_cons.mp member with rfl | remaining
      · obtain ⟨found, present, _, untasked, _⟩ := sound.held_fits held
        rw [names] at present
        obtain rfl : shared = found := Option.some.inj (known.symm.trans present)
        simp [untasked] at assigned
      · exact .inl ⟨handler, remaining, names⟩
    · exact .inr sent
  reaped := sound.reaped
  slots := sound.slots
  excluded := sound.excluded

/-- A started worker moves its operation from the pending slot to the other one.
No busy period runs, because the operation was pending. -/
theorem Sound.begin (sound : board.Sound) (task : TaskId)
    (held : board.handlers = ⟨operation, .admission⟩ ::ₘ rest) (free : board.slot = none) :
    Sound
      { board.handle ⟨operation, .working false⟩ rest
          (fun shared => { shared with task := some task }) with
        pending := none
        slot := some operation } := by
  obtain ⟨shared, known, unpublished, pending, untasked, uncompleted⟩ := sound.held_fits held
  have self := modified_self (fun shared => { shared with task := some task }) known
  have other {position : OperationRef} (apart : position ≠ operation) :
      (board.operations.modify operation
        (fun shared => { shared with task := some task }))[position]? =
        board.operations[position]? := modified_other _ apart
  constructor
  case distinct => exact sound.distinct_replaced (.working false) held
  case fits =>
    intro handler member
    rcases Multiset.mem_cons.mp member with rfl | remaining
    · exact ⟨_, self, unpublished, rfl, uncompleted, by simp⟩
    · refine fits_elsewhere (sound.fits handler (by simp [held, remaining]))
        (other (sound.held_apart held handler remaining)) ?_
      intro waits
      exact absurd waits (sound.admission_alone held handler remaining)
  case consistent =>
    intro position found present
    by_cases same : position = operation
    · subst same
      obtain rfl := Option.some.inj (self.symm.trans present)
      exact (sound.consistent position shared known).assign task
    · exact sound.consistent position found ((other same).symm.trans present)
  case working =>
    intro position found present assigned unfinished
    by_cases same : position = operation
    · rw [same]
    · have slot := sound.working position found ((other same).symm.trans present) assigned
        unfinished
      rw [free] at slot
      cases slot
  case handled =>
    intro position found present assigned
    by_cases same : position = operation
    · exact .inl ⟨_, Multiset.mem_cons_self _ _, same.symm⟩
    · exact sound.handled_replaced (.working false) held position found
        ((other same).symm.trans present) assigned
  case reaped =>
    intro position member
    obtain ⟨found, present, sent⟩ := sound.reaped position member
    by_cases same : position = operation
    · subst same
      obtain rfl : shared = found := Option.some.inj (known.symm.trans present)
      exact ⟨_, self, sent⟩
    · exact ⟨found, (other same).trans present, sent⟩
  case slots =>
    intro waiting
    cases waiting
  case excluded =>
    intro running
    have idle := (sound.excluded running).1
    rw [pending] at idle
    cases idle

/-- A handler that changes its own operation passes to its next phase. -/
theorem Sound.handle (sound : board.Sound) {next : Phase}
    {change : CompactionOperation → CompactionOperation}
    (held : board.handlers = ⟨operation, phase⟩ ::ₘ rest)
    (known : board.operations[operation]? = some shared)
    (own : Handler.Fits { board with operations := board.operations.modify operation change }
      ⟨operation, next⟩)
    (consistent : (change shared).Consistent) (task : (change shared).task = shared.task)
    (completes : shared.state = .completed → (change shared).state = .completed)
    (publishes : shared.result.isSome → (change shared).result.isSome) :
    (board.handle ⟨operation, next⟩ rest change).Sound := by
  refine sound.change known (sound.distinct_replaced next held) ?_
    (fun _ => .inl ⟨⟨operation, next⟩, Multiset.mem_cons_self _ _, rfl⟩) ?_ consistent task
    completes publishes
  · intro handler apart
    have other (stage : Phase) : handler ≠ ⟨operation, stage⟩ := by
      rintro rfl
      exact apart rfl
    simp [held, other]
  · intro handler member same
    rcases Multiset.mem_cons.mp member with rfl | other
    · exact own
    · exact absurd same (sound.held_apart held handler other)

/-- A worker passes its commit point from a state nobody has cancelled. -/
theorem Sound.commit (sound : board.Sound)
    (held : board.handlers = ⟨operation, .working false⟩ ::ₘ rest)
    (known : board.operations[operation]? = some shared) (begun : shared.state = .running) :
    (board.handle ⟨operation, .working true⟩ rest
      (fun shared => shared.tryBeginCommit.2)).Sound := by
  obtain ⟨found, present, unpublished, tasked, uncompleted, _⟩ := sound.held_fits held
  obtain rfl : shared = found := Option.some.inj (known.symm.trans present)
  have next : shared.tryBeginCommit.2 =
      { shared with state := .committing, commitBegun := true } := by
    simp [CompactionOperation.tryBeginCommit, begun]
  refine sound.handle held known ?_ ((sound.consistent operation shared known).commit begun)
    (by rw [next]) (fun done => absurd done uncompleted) (by rw [next]; exact id)
  refine ⟨_, modified_self _ known, ?_⟩
  rw [next]
  exact ⟨unpublished, tasked, by simp, fun _ => rfl⟩

/-- Only a worker that passed its commit point publishes a projection. -/
theorem Sound.project (sound : board.Sound)
    (held : board.handlers = ⟨operation, .working true⟩ ::ₘ rest) :
    (board.handle ⟨operation, .completing⟩ rest
      (fun shared => { shared with projected := true })).Sound := by
  obtain ⟨shared, known, unpublished, tasked, uncompleted, committed⟩ := sound.held_fits held
  refine sound.handle held known ?_
    ((sound.consistent operation shared known).project (committed rfl)) rfl id id
  exact ⟨_, modified_self _ known, unpublished, uncompleted⟩

/-- A worker ends without touching its operation. -/
theorem Sound.finish (sound : board.Sound) {committed : Bool}
    (held : board.handlers = ⟨operation, .working committed⟩ ::ₘ rest) :
    Sound { board with handlers := ⟨operation, .completing⟩ ::ₘ rest } where
  distinct := sound.distinct_replaced .completing held
  fits := by
    intro handler member
    obtain ⟨shared, known, unpublished, _, uncompleted, _⟩ := sound.held_fits held
    rcases Multiset.mem_cons.mp member with rfl | other
    · exact ⟨shared, known, unpublished, uncompleted⟩
    · exact fits_elsewhere (sound.fits handler (by simp [held, other])) rfl (fun _ => rfl)
  consistent := sound.consistent
  working := sound.working
  handled := sound.handled_replaced .completing held
  reaped := sound.reaped
  slots := sound.slots
  excluded := sound.excluded

/-- Completing settles the result that is still to be published. -/
theorem Sound.complete (sound : board.Sound) (result : CompactionResult)
    (held : board.handlers = ⟨operation, .completing⟩ ::ₘ rest)
    (known : board.operations[operation]? = some shared) :
    (board.handle ⟨operation, .settled (shared.complete result).1⟩ rest
      (fun shared => (shared.complete result).2)).Sound := by
  obtain ⟨found, present, unpublished, uncompleted⟩ := sound.held_fits held
  obtain rfl : shared = found := Option.some.inj (known.symm.trans present)
  have consistent := sound.consistent operation shared known
  have next := CompactionOperation.complete_eq shared result
  refine sound.handle held known ?_ (consistent.complete result) (by rw [next])
    (fun _ => by rw [next]) (by rw [next]; exact id)
  refine ⟨_, modified_self _ known, ?_⟩
  rw [next]
  exact ⟨unpublished, rfl, consistent.settles result uncompleted⟩

/-- Publishing sends the settled result, once. -/
theorem Sound.publish (sound : board.Sound) {result : CompactionResult}
    (held : board.handlers = ⟨operation, .settled result⟩ ::ₘ rest) :
    Sound
      { board with
        operations := board.operations.modify operation (fun shared => shared.publish result)
        handlers := rest } := by
  obtain ⟨shared, known, unpublished, completed, overridden⟩ := sound.held_fits held
  refine sound.change known (sound.distinct_removed held) ?_ (fun _ => .inr rfl) ?_
    ((sound.consistent operation shared known).publish completed unpublished overridden) rfl
    (fun done => done) (fun _ => rfl)
  · intro handler apart
    have other : handler ≠ ⟨operation, .settled result⟩ := by
      rintro rfl
      exact apart rfl
    simp [held, other]
  · intro handler member same
    exact absurd same (sound.held_apart held handler member)

/-- A cancel may hit any operation at any time. -/
theorem Sound.cancel (sound : board.Sound) (operation : OperationRef) :
    Sound
      { board with
        operations := board.operations.modify operation (fun shared => shared.cancel.2) } := by
  cases known : board.operations[operation]? with
  | none =>
    have same : board.operations.modify operation (fun shared => shared.cancel.2) =
        board.operations := by
      refine List.modify_eq_self ?_
      simpa using known
    rw [same]
    exact sound
  | some shared =>
    obtain ⟨state, published, task, begun, sent, done⟩ := shared.cancel_frame
    have owed : shared.cancel.2.task.isSome →
        (∃ handler ∈ board.handlers, handler.operation = operation) ∨
          shared.cancel.2.result.isSome := by
      rw [task, sent]
      exact sound.handled operation shared known
    refine sound.change known sound.distinct (fun handler _ => Iff.rfl) owed ?_
      (sound.consistent operation shared known).cancel task (fun ended => state.mpr ended)
      (by rw [sent]; exact id)
    intro handler member same
    obtain ⟨found, present, unpublished, facts⟩ := sound.fits handler member
    rw [same] at present
    obtain rfl : shared = found := Option.some.inj (known.symm.trans present)
    refine ⟨_, by rw [same]; exact modified_self _ known, published.trans unpublished, ?_⟩
    cases phase : handler.phase with
    | admission =>
      rw [phase] at facts
      exact ⟨facts.1, task.trans facts.2.1, fun ended => facts.2.2 (state.mp ended)⟩
    | dropped =>
      rw [phase] at facts
      exact ⟨task.trans facts.1, fun ended => facts.2 (state.mp ended)⟩
    | working committed =>
      rw [phase] at facts
      exact ⟨by rw [task]; exact facts.1, fun ended => facts.2.1 (state.mp ended),
        fun passed => begun.trans (facts.2.2 passed)⟩
    | completing =>
      rw [phase] at facts
      exact fun ended => facts (state.mp ended)
    | settled result =>
      rw [phase] at facts
      rw [done facts.1]
      exact facts

/-- A published operation may be forgotten. -/
theorem Sound.reap (sound : board.Sound) (present : board.published operation) :
    (board.forget operation).Sound := by
  have kept (other : OperationRef) (slot : (board.forget operation).slot = some other) :
      board.slot = some other := by
    simp only [Board.forget] at slot
    split at slot
    · cases slot
    · exact slot
  constructor
  case distinct => exact sound.distinct
  case fits =>
    intro handler member
    exact fits_elsewhere (sound.fits handler member) rfl (fun _ => rfl)
  case consistent => exact sound.consistent
  case working =>
    intro other shared known assigned uncompleted
    have slot := sound.working other shared known assigned uncompleted
    have apart : board.slot ≠ some operation := by
      intro same
      obtain rfl : other = operation := Option.some.inj (slot.symm.trans same)
      obtain ⟨found, again, sent⟩ := present
      obtain rfl : shared = found := Option.some.inj (known.symm.trans again)
      have consistent := sound.consistent other shared known
      refine uncompleted (consistent.ended ?_)
      intro unpublished
      rw [consistent.sent, unpublished] at sent
      cases sent
    change (if board.slot = some operation then none else board.slot) = some other
    rw [if_neg apart, slot]
  case handled => exact sound.handled
  case reaped => exact sound.reaped
  case slots =>
    intro waiting other slot
    exact sound.slots waiting other (kept other slot)
  case excluded =>
    intro running
    obtain ⟨free, slotCompleted⟩ := sound.excluded running
    exact ⟨free, fun other slot => slotCompleted other (kept other slot)⟩

end Board

/-- Every move keeps the board sound. -/
theorem Move.sound {before after : Board} (move : Move before after) (sound : before.Sound) :
    after.Sound := by
  cases move with
  | enrol operationId idle free reapable => exact sound.enrol operationId idle free reapable
  | leave operation rest phase held left => exact sound.leave held left
  | drop operation rest held => exact sound.drop held
  | begin operation rest task held free => exact sound.begin task held free
  | commit operation rest shared held known begun => exact sound.commit held known begun
  | project operation rest held => exact sound.project held
  | finish operation rest committed held => exact sound.finish held
  | complete operation rest shared result held known => exact sound.complete result held known
  | publish operation rest result held => exact sound.publish held
  | cancel operation => exact sound.cancel operation
  | look operation present =>
    refine { sound with reaped := ?_ }
    intro other member
    rcases Multiset.mem_cons.mp member with rfl | old
    · exact present
    · exact sound.reaped other old
  | turnAway operation rest held =>
    refine { sound with reaped := ?_ }
    intro other member
    exact sound.reaped other (by simp [held, member])
  | reap operation present => exact sound.reap present
  | run free slotCompleted => exact { sound with excluded := fun _ => ⟨free, slotCompleted⟩ }
  | stop => exact { sound with excluded := fun running => by cases running }

theorem Moves.sound {before after : Board} (moves : Moves before after) (sound : before.Sound) :
    after.Sound := by
  induction moves with
  | refl => exact sound
  | tail _ move inductionHypothesis => exact move.sound inductionHypothesis

/-- What is recorded about an operation stays recorded. -/
structure Recorded (before after : CompactionOperation) : Prop where
  granted : before.cancelGranted = true → after.cancelGranted = true
  begun : before.commitBegun = true → after.commitBegun = true
  published : before.published <+: after.published

theorem Recorded.refl (shared : CompactionOperation) : Recorded shared shared :=
  ⟨id, id, List.prefix_rfl⟩

/-- A change that keeps the record of any operation keeps it in a list of them. -/
theorem recorded_modify {operations : List CompactionOperation} (operation : OperationRef)
    (change : CompactionOperation → CompactionOperation)
    (keeps : ∀ shared, Recorded shared (change shared)) {other : Nat}
    {shared : CompactionOperation} (known : operations[other]? = some shared) :
    ∃ now, (operations.modify operation change)[other]? = some now ∧ Recorded shared now := by
  by_cases same : operation = other
  · exact ⟨change shared, by simp [same, known], keeps shared⟩
  · exact ⟨shared, by simp [same, known], .refl shared⟩

/-- Every move keeps the record of every operation. -/
theorem Move.recorded {before after : Board} (move : Move before after) {operation : Nat}
    {shared : CompactionOperation} (known : before.operations[operation]? = some shared) :
    ∃ now, after.operations[operation]? = some now ∧ Recorded shared now := by
  cases move with
  | enrol operationId idle free reapable =>
    obtain ⟨inside, _⟩ := List.getElem?_eq_some_iff.mp known
    exact ⟨shared, by rw [List.getElem?_append_left inside, known], .refl shared⟩
  | begin reference rest task held free =>
    exact recorded_modify reference (fun shared => { shared with task := some task })
      (fun _ => ⟨id, id, List.prefix_rfl⟩) known
  | commit reference rest current held found begun =>
    refine recorded_modify reference (fun shared => shared.tryBeginCommit.2) (fun other => ?_) known
    unfold CompactionOperation.tryBeginCommit
    split
    · exact ⟨id, fun _ => rfl, List.prefix_rfl⟩
    · exact .refl other
  | project reference rest held =>
    exact recorded_modify reference (fun shared => { shared with projected := true })
      (fun _ => ⟨id, id, List.prefix_rfl⟩) known
  | complete reference rest current result held found =>
    refine recorded_modify reference (fun shared => (shared.complete result).2) (fun other => ?_)
      known
    rw [CompactionOperation.complete_eq]
    exact ⟨id, id, List.prefix_rfl⟩
  | publish reference rest result held =>
    exact recorded_modify reference (fun shared => shared.publish result)
      (fun other => ⟨id, id, List.prefix_append _ _⟩) known
  | cancel reference =>
    refine recorded_modify reference (fun shared => shared.cancel.2) (fun other => ?_) known
    unfold CompactionOperation.cancel
    split
    · exact ⟨fun _ => rfl, id, List.prefix_rfl⟩
    · exact .refl other
  | _ => exact ⟨shared, known, .refl shared⟩

theorem Moves.recorded {before after : Board} (moves : Moves before after) {operation : Nat}
    {shared : CompactionOperation} (known : before.operations[operation]? = some shared) :
    ∃ now, after.operations[operation]? = some now ∧ Recorded shared now := by
  induction moves with
  | refl => exact ⟨shared, known, .refl shared⟩
  | tail _ move inductionHypothesis =>
    obtain ⟨between, present, earlier⟩ := inductionHypothesis
    obtain ⟨now, found, later⟩ := move.recorded present
    exact ⟨now, found, later.granted ∘ earlier.granted, later.begun ∘ earlier.begun,
      earlier.published.trans later.published⟩

/-- An empty board is sound. -/
theorem sound_empty :
    Board.Sound
      { operations := [], pending := none, slot := none, handlers := 0, reaping := 0,
        running := false } := by
  constructor <;> simp

end MinicoreAgent.CompactionBoard

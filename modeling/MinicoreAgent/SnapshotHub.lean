import Mathlib.Data.Finset.Basic
import MinicoreAgent.Lib.Runs

/-!
# The snapshot hub

`SnapshotHub` of `sessions/hub.rs`: execution paths mark a load dirty and one
publisher task takes the marked loads in batches and samples them. Every step
below is one critical section, one atomic operation or one await point of the
source, so a mark may land between any two steps of the publisher.

A Session is known to the hub by its load, which is drawn afresh for every
loaded Session; the weak reference the hub keeps is therefore the load itself.
What a sample reads is the Session's state, whose changes are numbered. Closing
a Session and dropping its last handle both end in `unregister`; the sections
before that are steps of their own, since a batch may be sampled in between.
-/
namespace MinicoreAgent.SnapshotHub

open Runs

variable {LoadId : Type} [DecidableEq LoadId]

/-- Most Sessions one publication round samples. -/
def maxBatch : Nat := 16

/-- The dirty set: the marked loads, the same loads in mark order, and the
registered loads. -/
structure Dirty (LoadId : Type) where
  marks : Finset LoadId
  ready : List LoadId
  sessions : Finset LoadId

namespace Dirty

/-- First section of `register`. -/
def enter (dirty : Dirty LoadId) (load : LoadId) : Dirty LoadId :=
  { dirty with sessions := insert load dirty.sessions }

/-- `unregister`. -/
def unregister (dirty : Dirty LoadId) (load : LoadId) : Dirty LoadId :=
  { marks := dirty.marks.erase load
    ready := dirty.ready.filter (fun candidate => decide (candidate ≠ load))
    sessions := dirty.sessions.erase load }

/-- The section of `mark` under the lock. -/
def mark (dirty : Dirty LoadId) (load : LoadId) : Dirty LoadId :=
  if load ∈ dirty.sessions then
    if load ∈ dirty.marks then dirty
    else { dirty with marks := insert load dirty.marks, ready := dirty.ready ++ [load] }
  else dirty

/-- The loop of `take_batch` with the given room left in the batch. A load that
is no longer registered takes no room. -/
def takeLoop (sessions : Finset LoadId) : List LoadId → Nat → Finset LoadId →
    List LoadId × List LoadId × Finset LoadId
  | ready, 0, marks => ([], ready, marks)
  | [], _ + 1, marks => ([], [], marks)
  | load :: rest, room + 1, marks =>
    if load ∈ sessions then
      let (batch, ready, marks) := takeLoop sessions rest room (marks.erase load)
      (load :: batch, ready, marks)
    else takeLoop sessions rest (room + 1) (marks.erase load)

/-- `take_batch`. -/
def takeBatch (dirty : Dirty LoadId) : List LoadId × Dirty LoadId :=
  let (batch, ready, marks) := takeLoop dirty.sessions dirty.ready maxBatch dirty.marks
  (batch, { dirty with ready := ready, marks := marks })

/-- The ready list holds every marked load once and nothing else. -/
structure Tidy (dirty : Dirty LoadId) : Prop where
  once : dirty.ready.Nodup
  same : ∀ load, load ∈ dirty.ready ↔ load ∈ dirty.marks

/-- A batch is what is registered of the loads popped off the front, and exactly
these loads lose their mark. -/
theorem take_loop_split (sessions : Finset LoadId) (ready : List LoadId) (room : Nat)
    (marks : Finset LoadId) :
    ∃ popped, ready = popped ++ (takeLoop sessions ready room marks).2.1 ∧
      (takeLoop sessions ready room marks).1 = popped.filter (fun load => decide (load ∈ sessions)) ∧
      ∀ load, load ∈ (takeLoop sessions ready room marks).2.2 ↔ load ∈ marks ∧ load ∉ popped := by
  induction ready generalizing room marks with
  | nil =>
    refine ⟨[], ?_, ?_, ?_⟩
    all_goals cases room <;> simp [takeLoop]
  | cons head rest inductionHypothesis =>
    cases room with
    | zero => exact ⟨[], by simp [takeLoop]⟩
    | succ room =>
      by_cases registered : head ∈ sessions
      · obtain ⟨popped, split, batch, kept⟩ := inductionHypothesis room (marks.erase head)
        refine ⟨head :: popped, ?_, ?_, ?_⟩
        · simp only [takeLoop, registered, if_true, List.cons_append]
          rw [← split]
        · simp [takeLoop, registered, batch]
        · intro load
          simp only [takeLoop, registered, if_true, kept, Finset.mem_erase, List.mem_cons]
          tauto
      · obtain ⟨popped, split, batch, kept⟩ := inductionHypothesis (room + 1) (marks.erase head)
        refine ⟨head :: popped, ?_, ?_, ?_⟩
        · simp only [takeLoop, registered, if_false, List.cons_append]
          rw [← split]
        · simp [takeLoop, registered, batch]
        · intro load
          simp only [takeLoop, registered, if_false, kept, Finset.mem_erase, List.mem_cons]
          tauto

theorem Tidy.enter {dirty : Dirty LoadId} (tidy : dirty.Tidy) (load : LoadId) :
    (dirty.enter load).Tidy :=
  ⟨tidy.once, tidy.same⟩

theorem Tidy.unregister {dirty : Dirty LoadId} (tidy : dirty.Tidy) (load : LoadId) :
    (dirty.unregister load).Tidy := by
  constructor
  · exact tidy.once.filter _
  · intro candidate
    simp only [Dirty.unregister, List.mem_filter, Finset.mem_erase, decide_eq_true_eq,
      tidy.same candidate]
    tauto

theorem Tidy.mark {dirty : Dirty LoadId} (tidy : dirty.Tidy) (load : LoadId) :
    (dirty.mark load).Tidy := by
  unfold Dirty.mark
  by_cases registered : load ∈ dirty.sessions
  · by_cases marked : load ∈ dirty.marks
    · simpa [registered, marked] using tidy
    · rw [if_pos registered, if_neg marked]
      have absent : load ∉ dirty.ready := fun present => marked ((tidy.same load).mp present)
      constructor
      · apply List.Nodup.append tidy.once (List.nodup_singleton load)
        simpa using absent
      · intro candidate
        simp only [List.mem_append, List.mem_singleton, Finset.mem_insert, tidy.same candidate]
        tauto
  · simpa [registered] using tidy

theorem Tidy.take_batch {dirty : Dirty LoadId} (tidy : dirty.Tidy) :
    dirty.takeBatch.2.Tidy := by
  obtain ⟨popped, split, -, kept⟩ :=
    take_loop_split dirty.sessions dirty.ready maxBatch dirty.marks
  have apart := tidy.once
  rw [split, List.nodup_append] at apart
  constructor
  · exact apart.2.1
  · intro load
    simp only [takeBatch, kept load, ← tidy.same load]
    constructor
    · intro waiting
      refine ⟨?_, fun taken => apart.2.2 load taken load waiting rfl⟩
      rw [split]
      exact List.mem_append_right _ waiting
    · rintro ⟨present, notTaken⟩
      rw [split, List.mem_append] at present
      exact present.resolve_left notTaken

/-- A marked load stays marked or, when it is registered, joins the batch. -/
theorem marked_taken {dirty : Dirty LoadId} {load : LoadId}
    (registered : load ∈ dirty.sessions) (marked : load ∈ dirty.marks) :
    load ∈ dirty.takeBatch.2.marks ∨ load ∈ dirty.takeBatch.1 := by
  obtain ⟨popped, -, batch, kept⟩ :=
    take_loop_split dirty.sessions dirty.ready maxBatch dirty.marks
  by_cases taken : load ∈ popped
  · right
    simp [takeBatch, batch, taken, registered]
  · left
    simp [takeBatch, kept load, marked, taken]

/-- A batch comes out empty only when nothing is ready any more. -/
theorem take_loop_empty (sessions : Finset LoadId) (ready : List LoadId) (room : Nat)
    (marks : Finset LoadId) (vacant : (takeLoop sessions ready (room + 1) marks).1 = []) :
    (takeLoop sessions ready (room + 1) marks).2.1 = [] := by
  induction ready generalizing marks with
  | nil => rfl
  | cons head rest inductionHypothesis =>
    by_cases registered : head ∈ sessions
    · simp [takeLoop, registered] at vacant
    · simp only [takeLoop, registered, if_false] at vacant ⊢
      exact inductionHypothesis (marks.erase head) vacant

theorem take_batch_empty (dirty : Dirty LoadId) (vacant : dirty.takeBatch.1 = []) :
    dirty.takeBatch.2.ready = [] :=
  take_loop_empty dirty.sessions dirty.ready 15 dirty.marks vacant

end Dirty

/-- What the hub relies on of one Session: how often its state changed, whether
`Session::unregister` has closed it, and whether its last handle is gone. -/
structure SessionView where
  version : Nat
  closed : Bool
  released : Bool
  deriving DecidableEq, Repr

/-- A sample: the load and the change it reads the state after. -/
structure Sample (LoadId : Type) where
  load : LoadId
  version : Nat
  deriving DecidableEq, Repr

/-- Where the publisher task `run` stands: waiting for a notification, in its
inner loop with the loads of the last batch it has not dealt with, or returned. -/
inductive Publisher (LoadId : Type)
  | waiting
  | publishing (batch : List LoadId)
  | returned (batch : List LoadId)

def Publisher.isWaiting : Publisher LoadId → Bool
  | .waiting => true
  | _ => false

/-- The hub and the Sessions registered with it. `owed` counts the callers that
have changed the hub and not yet called `notify_one`. -/
structure Hub (LoadId : Type) where
  dirty : Dirty LoadId
  publisher : Publisher LoadId
  listening : Bool
  permit : Bool
  owed : Nat
  stopped : Bool
  views : LoadId → SessionView
  samples : List (Sample LoadId)

/-- How one call of `publish` ends for a load whose Session can be sampled. A
`failed` call has no budget left to wait for, overflows the revision or loses its
worker before it samples; `unsent` samples and then finds the lane closed. -/
inductive Publication
  | sent
  | unsent
  | failed
  deriving DecidableEq, Repr

/-- One step of the hub, of a caller or of the publisher. -/
inductive Action (LoadId : Type)
  | enter (load : LoadId)
  | mark (load : LoadId)
  | notifyOne
  | listen
  | unregister (load : LoadId)
  | change (load : LoadId)
  | close (load : LoadId)
  | release (load : LoadId)
  | sampleElsewhere (load : LoadId)
  | shutdownNow (waiter : Bool)
  | wake
  | takeBatch
  | publish (ending : Publication)
  | observeStop
  deriving DecidableEq

namespace Hub

/-- `SnapshotHub::new`. -/
def initial : Hub LoadId where
  dirty := { marks := ∅, ready := [], sessions := ∅ }
  publisher := .waiting
  listening := false
  permit := false
  owed := 0
  stopped := false
  views := fun _ => { version := 0, closed := false, released := false }
  samples := []

/-- The loads of a batch that was taken and is not yet sampled. -/
def unsampled (hub : Hub LoadId) : List LoadId :=
  match hub.publisher with
  | .waiting => []
  | .publishing batch => batch
  | .returned batch => batch

/-- Change what is seen of one Session. -/
def setView (hub : Hub LoadId) (load : LoadId) (view : SessionView) : Hub LoadId :=
  { hub with views := fun candidate => if candidate = load then view else hub.views candidate }

/-- `Session::sample` reads the state under its locks. -/
def recordSample (hub : Hub LoadId) (load : LoadId) : Hub LoadId :=
  { hub with
    samples := hub.samples ++ [{ load := load, version := (hub.views load).version }] }

/-- `publish` for the next load of the batch. A Session whose handles are gone
or which is closed is passed over; everything else is sampled unless the call
fails first, and then the publisher returns. -/
def publish (hub : Hub LoadId) (load : LoadId) (rest : List LoadId) (ending : Publication) :
    Hub LoadId :=
  if ending = .failed then
    { hub with publisher := .returned (load :: rest), stopped := true }
  else if (hub.views load).released || (hub.views load).closed then
    { hub with publisher := .publishing rest }
  else if ending = .unsent then
    { hub.recordSample load with publisher := .returned rest, stopped := true }
  else { hub.recordSample load with publisher := .publishing rest }

/-- One step. A step that the source cannot take in this state is undefined. -/
def step (hub : Hub LoadId) : Action LoadId → Option (Hub LoadId)
  | .enter load =>
    -- `Session::new` registers a Session that is open and held by its maker.
    some { hub.setView load { hub.views load with closed := false, released := false } with
      dirty := hub.dirty.enter load }
  | .mark load =>
    some { hub with
      dirty := hub.dirty.mark load
      owed := if load ∈ hub.dirty.sessions then hub.owed + 1 else hub.owed }
  | .notifyOne =>
    if 0 < hub.owed then some { hub with owed := hub.owed - 1, permit := true } else none
  | .listen => some { hub with listening := true, owed := hub.owed + 1 }
  | .unregister load => some { hub with dirty := hub.dirty.unregister load }
  | .change load =>
    some (hub.setView load { hub.views load with version := (hub.views load).version + 1 })
  | .close load => some (hub.setView load { hub.views load with closed := true })
  | .release load => some (hub.setView load { hub.views load with released := true })
  | .sampleElsewhere load =>
    if (hub.views load).closed then some hub else some (hub.recordSample load)
  | .shutdownNow waiter =>
    -- `notify_waiters` wakes a publisher that already waits and stores nothing.
    some { hub with
      stopped := true
      permit := hub.permit || (waiter && hub.publisher.isWaiting) }
  | .wake =>
    match hub.publisher with
    | .waiting =>
      if hub.permit then
        some { hub with
          permit := false
          publisher := if hub.listening then .publishing [] else .waiting }
      else none
    | _ => none
  | .takeBatch =>
    match hub.publisher with
    | .publishing [] =>
      match hub.dirty.takeBatch with
      | ([], dirty) => some { hub with dirty := dirty, publisher := .waiting }
      | (batch, dirty) => some { hub with dirty := dirty, publisher := .publishing batch }
    | _ => none
  | .publish ending =>
    match hub.publisher with
    | .publishing (load :: rest) => some (hub.publish load rest ending)
    | _ => none
  | .observeStop =>
    -- The wait and the head of the batch loop both return on the stop token.
    if hub.stopped then
      match hub.publisher with
      | .waiting => some { hub with publisher := .returned [] }
      | .publishing (load :: rest) => some { hub with publisher := .returned (load :: rest) }
      | _ => none
    else none

/-- The dirty set moves only by its own operations. -/
theorem step_dirty {hub after : Hub LoadId} {action : Action LoadId}
    (advanced : hub.step action = some after) :
    after.dirty = hub.dirty ∨ (∃ load, after.dirty = hub.dirty.enter load) ∨
      (∃ load, after.dirty = hub.dirty.mark load) ∨
      (∃ load, after.dirty = hub.dirty.unregister load) ∨
      after.dirty = hub.dirty.takeBatch.2 := by
  cases action with
  | enter load =>
    cases advanced
    exact .inr (.inl ⟨load, rfl⟩)
  | mark load =>
    cases advanced
    exact .inr (.inr (.inl ⟨load, rfl⟩))
  | unregister load =>
    cases advanced
    exact .inr (.inr (.inr (.inl ⟨load, rfl⟩)))
  | takeBatch =>
    simp only [step] at advanced
    split at advanced
    · split at advanced
      · rename_i taken
        cases advanced
        exact .inr (.inr (.inr (.inr (by rw [taken]))))
      · rename_i taken
        cases advanced
        exact .inr (.inr (.inr (.inr (by rw [taken]))))
    · cases advanced
  | publish ending =>
    left
    simp only [step] at advanced
    split at advanced
    · cases advanced
      unfold publish
      split_ifs <;> rfl
    · cases advanced
  | sampleElsewhere load =>
    left
    simp only [step] at advanced
    split at advanced
    all_goals cases advanced
    all_goals rfl
  | notifyOne =>
    left
    simp only [step] at advanced
    split at advanced
    all_goals cases advanced
    rfl
  | wake =>
    left
    simp only [step] at advanced
    split at advanced
    · split at advanced
      all_goals cases advanced
      rfl
    · cases advanced
  | observeStop =>
    left
    simp only [step] at advanced
    split at advanced
    · split at advanced
      all_goals cases advanced
      all_goals rfl
    · cases advanced
  | listen | change | close | release | shutdownNow =>
    left
    cases advanced
    rfl

theorem reachable_tidy {hub : Hub LoadId} (reached : Reachable step initial hub) :
    hub.dirty.Tidy := by
  refine reachable_invariant (fun hub => hub.dirty.Tidy) ⟨List.nodup_nil, by simp [initial]⟩ ?_
    reached
  intro before action after tidy advanced
  rcases step_dirty advanced with same | ⟨load, same⟩ | ⟨load, same⟩ | ⟨load, same⟩ | same
  all_goals rw [same]
  · exact tidy
  · exact tidy.enter load
  · exact tidy.mark load
  · exact tidy.unregister load
  · exact tidy.take_batch

/-- The load is marked, waits in a batch, or was sampled after the first
`taken` samples in a state at least as new as the version. -/
def Announced (hub : Hub LoadId) (load : LoadId) (version taken : Nat) : Prop :=
  load ∈ hub.dirty.marks ∨ load ∈ hub.unsampled ∨
    ∃ sample ∈ hub.samples.drop taken, sample.load = load ∧ version ≤ sample.version

/-- A registered, open and held Session whose state is at least as new as the
version, after at least `taken` samples. -/
structure Present (hub : Hub LoadId) (load : LoadId) (version taken : Nat) : Prop where
  registered : load ∈ hub.dirty.sessions
  unclosed : (hub.views load).closed = false
  held : (hub.views load).released = false
  newer : version ≤ (hub.views load).version
  logged : taken ≤ hub.samples.length

/-- The steps that begin or complete the unregistration of a load. -/
def Leaves (load : LoadId) (action : Action LoadId) : Prop :=
  action = .unregister load ∨ action = .close load ∨ action = .release load

instance (load : LoadId) (action : Action LoadId) : Decidable (Leaves load action) :=
  inferInstanceAs (Decidable (_ ∨ _))

variable {hub after : Hub LoadId} {load : LoadId} {version taken : Nat}

theorem set_view_other {other : LoadId} (view : SessionView) (apart : load ≠ other) :
    (hub.setView other view).views load = hub.views load := by
  simp [setView, apart]

omit [DecidableEq LoadId] in
/-- A longer log keeps the samples it had. -/
theorem sampled_later {samples newer : List (Sample LoadId)} {sample : Sample LoadId}
    (sampled : sample ∈ samples.drop taken) : sample ∈ (samples ++ newer).drop taken := by
  rw [List.drop_append]
  exact List.mem_append_left _ sampled

omit [DecidableEq LoadId] in
/-- A sample of a present Session answers every change up to the version. -/
theorem Present.sampled (present : hub.Present load version taken) :
    ∃ sample ∈ (hub.recordSample load).samples.drop taken,
      sample.load = load ∧ version ≤ sample.version := by
  refine ⟨{ load := load, version := (hub.views load).version }, ?_, rfl, present.newer⟩
  simp only [recordSample]
  rw [List.drop_append_of_le_length present.logged]
  exact List.mem_append_right _ (List.mem_singleton.mpr rfl)

omit [DecidableEq LoadId] in
/-- Sampling some load keeps what is known of every load. -/
theorem Present.record_sample (present : hub.Present load version taken) (other : LoadId) :
    (hub.recordSample other).Present load version taken where
  registered := present.registered
  unclosed := present.unclosed
  held := present.held
  newer := present.newer
  logged := by simpa [recordSample] using Nat.le_succ_of_le present.logged

omit [DecidableEq LoadId] in
theorem Announced.record_sample (announced : hub.Announced load version taken)
    (other : LoadId) : (hub.recordSample other).Announced load version taken := by
  rcases announced with marked | waiting | ⟨sample, sampled, covers⟩
  · exact .inl marked
  · exact .inr (.inl waiting)
  · exact .inr (.inr ⟨sample, sampled_later sampled, covers⟩)

omit [DecidableEq LoadId] in
/-- The publisher deals with the head of its batch. -/
theorem Announced.publish {head : LoadId} {rest : List LoadId}
    (announced : hub.Announced load version taken) (present : hub.Present load version taken)
    (batch : hub.publisher = .publishing (head :: rest)) (ending : Publication) :
    (hub.publish head rest ending).Announced load version taken := by
  have waits : load ∈ hub.unsampled → load = head ∨ load ∈ rest := by
    intro waiting
    simpa [unsampled, batch] using waiting
  -- Whatever the ending, the samples grow and the tail of the batch stays.
  have kept (sampled : Hub LoadId)
      (marks : load ∈ hub.dirty.marks → load ∈ sampled.dirty.marks)
      (log : ∀ sample ∈ hub.samples.drop taken, sample ∈ sampled.samples.drop taken)
      (tail : load ∈ rest → load ∈ sampled.unsampled)
      (answered : load = head → sampled.Announced load version taken) :
      sampled.Announced load version taken := by
    rcases announced with marked | waiting | ⟨sample, old, covers⟩
    · exact .inl (marks marked)
    · rcases waits waiting with same | later
      · exact answered same
      · exact .inr (.inl (tail later))
    · exact .inr (.inr ⟨sample, log sample old, covers⟩)
  have unskipped : load = head →
      ((hub.views head).released || (hub.views head).closed) = false := by
    rintro rfl
    simp [present.held, present.unclosed]
  unfold Hub.publish
  split_ifs with failed skipped unsent
  · refine kept _ id (fun _ => id) ?_ ?_
    · intro later
      exact List.mem_cons_of_mem head later
    · rintro rfl
      exact .inr (.inl (by simp [unsampled]))
  · refine kept _ id (fun _ => id) id ?_
    intro same
    exact absurd skipped (by simp [unskipped same])
  all_goals
    refine kept _ id ?_ id ?_
    · intro sample old
      exact sampled_later old
    · rintro rfl
      exact .inr (.inr present.sampled)

omit [DecidableEq LoadId] in
/-- Presence depends on the registration and on what is seen of the load. -/
theorem Present.carry (present : hub.Present load version taken)
    (registered : load ∈ after.dirty.sessions) (seen : after.views load = hub.views load)
    (log : hub.samples.length ≤ after.samples.length) : after.Present load version taken where
  registered := registered
  unclosed := seen ▸ present.unclosed
  held := seen ▸ present.held
  newer := seen ▸ present.newer
  logged := Nat.le_trans present.logged log

theorem mark_sessions (dirty : Dirty LoadId) (other : LoadId) :
    (dirty.mark other).sessions = dirty.sessions := by
  unfold Dirty.mark
  split_ifs <;> rfl

theorem marks_mark {dirty : Dirty LoadId} (other : LoadId) (marked : load ∈ dirty.marks) :
    load ∈ (dirty.mark other).marks := by
  unfold Dirty.mark
  split_ifs
  · exact marked
  · exact Finset.mem_insert_of_mem marked
  · exact marked

/-- Every step but an unregistration keeps the Session present. -/
theorem step_present {action : Action LoadId} (present : hub.Present load version taken)
    (advanced : hub.step action = some after) (stays : ¬ Leaves load action) :
    after.Present load version taken := by
  cases action with
  | enter other =>
    cases advanced
    have registered : load ∈ (hub.dirty.enter other).sessions :=
      Finset.mem_insert_of_mem present.registered
    by_cases same : load = other
    · subst same
      exact ⟨registered, by simp [setView], by simp [setView],
        by simpa [setView] using present.newer, present.logged⟩
    · exact present.carry registered (set_view_other _ same) (Nat.le_refl _)
  | mark other =>
    cases advanced
    refine present.carry ?_ rfl (Nat.le_refl _)
    rw [mark_sessions]
    exact present.registered
  | unregister other =>
    cases advanced
    have apart : load ≠ other := fun same => stays (.inl (same ▸ rfl))
    exact present.carry (Finset.mem_erase.mpr ⟨apart, present.registered⟩) rfl (Nat.le_refl _)
  | change other =>
    cases advanced
    by_cases same : load = other
    · subst same
      exact ⟨present.registered, by simpa [setView] using present.unclosed,
        by simpa [setView] using present.held,
        by simpa [setView] using Nat.le_succ_of_le present.newer, present.logged⟩
    · exact present.carry present.registered (set_view_other _ same) (Nat.le_refl _)
  | close other =>
    cases advanced
    have apart : load ≠ other := fun same => stays (.inr (.inl (same ▸ rfl)))
    exact present.carry present.registered (set_view_other _ apart) (Nat.le_refl _)
  | release other =>
    cases advanced
    have apart : load ≠ other := fun same => stays (.inr (.inr (same ▸ rfl)))
    exact present.carry present.registered (set_view_other _ apart) (Nat.le_refl _)
  | sampleElsewhere other =>
    simp only [step] at advanced
    split at advanced
    all_goals cases advanced
    · exact present
    · exact present.record_sample other
  | takeBatch =>
    simp only [step] at advanced
    split at advanced
    · split at advanced
      all_goals
        rename_i taken
        cases advanced
        have sessions : hub.dirty.takeBatch.2.sessions = hub.dirty.sessions := rfl
        rw [taken] at sessions
        exact present.carry (sessions ▸ present.registered) rfl (Nat.le_refl _)
    · cases advanced
  | publish ending =>
    simp only [step] at advanced
    split at advanced
    · cases advanced
      unfold publish
      split_ifs
      all_goals
        refine present.carry present.registered rfl ?_
        simp [recordSample]
    · cases advanced
  | notifyOne =>
    simp only [step] at advanced
    split at advanced
    all_goals cases advanced
    exact present.carry present.registered rfl (Nat.le_refl _)
  | wake =>
    simp only [step] at advanced
    split at advanced
    · split at advanced
      all_goals cases advanced
      exact present.carry present.registered rfl (Nat.le_refl _)
    · cases advanced
  | observeStop =>
    simp only [step] at advanced
    split at advanced
    · split at advanced
      all_goals cases advanced
      all_goals exact present.carry present.registered rfl (Nat.le_refl _)
    · cases advanced
  | listen | shutdownNow =>
    cases advanced
    exact present.carry present.registered rfl (Nat.le_refl _)

omit [DecidableEq LoadId] in
/-- An announcement depends on the marks, the batch and the log. -/
theorem Announced.carry (announced : hub.Announced load version taken)
    (marks : load ∈ hub.dirty.marks → load ∈ after.dirty.marks)
    (batch : after.unsampled = hub.unsampled) (log : after.samples = hub.samples) :
    after.Announced load version taken := by
  rcases announced with marked | waiting | sampled
  · exact .inl (marks marked)
  · exact .inr (.inl (batch ▸ waiting))
  · exact .inr (.inr (log ▸ sampled))

/-- Every step but an unregistration keeps a present Session's change announced. -/
theorem step_announced {action : Action LoadId} (present : hub.Present load version taken)
    (announced : hub.Announced load version taken) (advanced : hub.step action = some after)
    (stays : ¬ Leaves load action) : after.Announced load version taken := by
  cases action with
  | mark other =>
    cases advanced
    exact announced.carry (marks_mark other) rfl rfl
  | unregister other =>
    cases advanced
    have apart : load ≠ other := fun same => stays (.inl (same ▸ rfl))
    exact announced.carry (fun marked => Finset.mem_erase.mpr ⟨apart, marked⟩) rfl rfl
  | sampleElsewhere other =>
    simp only [step] at advanced
    split at advanced
    all_goals cases advanced
    · exact announced
    · exact announced.record_sample other
  | takeBatch =>
    simp only [step] at advanced
    split at advanced
    · rename_i idle
      have none : hub.unsampled = [] := by simp [unsampled, idle]
      have moved (marked : load ∈ hub.dirty.marks) :
          load ∈ hub.dirty.takeBatch.2.marks ∨ load ∈ hub.dirty.takeBatch.1 :=
        Dirty.marked_taken present.registered marked
      split at advanced
      all_goals
        rename_i taken
        cases advanced
        rw [taken] at moved
        rcases announced with marked | waiting | sampled
        · rcases moved marked with still | joined
          · exact .inl still
          · exact .inr (.inl joined)
        · simp [none] at waiting
        · exact .inr (.inr sampled)
    · cases advanced
  | publish ending =>
    simp only [step] at advanced
    split at advanced
    · rename_i batch
      cases advanced
      exact announced.publish present batch ending
    · cases advanced
  | notifyOne =>
    simp only [step] at advanced
    split at advanced
    all_goals cases advanced
    exact announced.carry id rfl rfl
  | wake =>
    simp only [step] at advanced
    split at advanced
    · rename_i idle
      split at advanced
      all_goals cases advanced
      refine announced.carry id ?_ rfl
      simp only [unsampled, idle]
      split_ifs <;> rfl
    · cases advanced
  | observeStop =>
    simp only [step] at advanced
    split at advanced
    · split at advanced
      all_goals
        rename_i standing
        cases advanced
      all_goals
        refine announced.carry id ?_ rfl
        simp [unsampled, standing]
    · cases advanced
  | enter | listen | shutdownNow | change | close | release =>
    cases advanced
    exact announced.carry id rfl rfl

/-- A mark announces everything a present Session did so far. -/
theorem mark_announces (present : hub.Present load version taken)
    (marked : hub.step (.mark load) = some after) : after.Announced load version taken := by
  cases marked
  left
  simp only [Dirty.mark, present.registered, if_true]
  split_ifs with already
  · exact already
  · exact Finset.mem_insert_self _ _

theorem run_present {actions : List (Action LoadId)} (present : hub.Present load version taken)
    (completed : run step hub actions = some after)
    (stays : ∀ action ∈ actions, ¬ Leaves load action) : after.Present load version taken := by
  refine run_invariant_along (fun hub => hub.Present load version taken) hub actions after present
    ?_ completed
  intro before action next member known advanced
  exact step_present known advanced (stays action member)

theorem run_announced {actions : List (Action LoadId)}
    (present : hub.Present load version taken) (announced : hub.Announced load version taken)
    (completed : run step hub actions = some after)
    (stays : ∀ action ∈ actions, ¬ Leaves load action) : after.Announced load version taken := by
  refine (run_invariant_along
    (fun hub => hub.Present load version taken ∧ hub.Announced load version taken)
    hub actions after ⟨present, announced⟩ ?_ completed).2
  intro before action next member known advanced
  exact ⟨step_present known.1 advanced (stays action member),
    step_announced known.1 known.2 advanced (stays action member)⟩

/-- A freshly registered Session is present, whatever happened before. -/
theorem enter_present (entered : hub.step (.enter load) = some after) :
    after.Present load 0 0 := by
  cases entered
  exact ⟨Finset.mem_insert_self _ _, by simp [setView], by simp [setView], Nat.zero_le _,
    Nat.zero_le _⟩

/-- The state after a change is the newest, and no sample of it exists yet. -/
theorem change_present (present : hub.Present load version taken)
    (changed : hub.step (.change load) = some after) :
    after.Present load (after.views load).version after.samples.length := by
  have kept := step_present present changed (by rintro (same | same | same) <;> cases same)
  exact ⟨kept.registered, kept.unclosed, kept.held, Nat.le_refl _, Nat.le_refl _⟩

/-- A publisher that waits while a load is marked has been notified, or a caller
is about to notify it. -/
def Wakeful (hub : Hub LoadId) : Prop :=
  hub.publisher.isWaiting = true → hub.listening = true → hub.dirty.ready ≠ [] →
    hub.permit = true ∨ 0 < hub.owed

theorem ready_mark {dirty : Dirty LoadId} (ready : (dirty.mark load).ready ≠ []) :
    dirty.ready ≠ [] ∨ load ∈ dirty.sessions := by
  unfold Dirty.mark at ready
  split_ifs at ready with registered marked
  · exact .inr registered
  · exact .inr registered
  · exact .inl ready

/-- No wake-up is lost: whenever the publisher waits and listens while a load is
marked, a notification is stored or on its way. -/
theorem reachable_wakeful (reached : Reachable step initial hub) : hub.Wakeful := by
  refine reachable_invariant Wakeful ?_ ?_ reached
  · intro _ deaf
    cases deaf
  intro before action after wakeful advanced waits listens ready
  cases action with
  | mark load =>
    cases advanced
    rcases ready_mark ready with earlier | registered
    · rcases wakeful waits listens earlier with stored | owed
      · exact .inl stored
      · right
        simp only
        split_ifs <;> omega
    · right
      simp [registered]
  | unregister load =>
    cases advanced
    refine wakeful waits listens (fun vacant => ready ?_)
    simp [Dirty.unregister, vacant]
  | listen =>
    cases advanced
    exact .inr (Nat.succ_pos _)
  | shutdownNow waiter =>
    cases advanced
    rcases wakeful waits listens ready with stored | owed
    · exact .inl (by simp [stored])
    · exact .inr owed
  | sampleElsewhere load =>
    simp only [step] at advanced
    split at advanced
    all_goals cases advanced
    all_goals exact wakeful waits listens ready
  | notifyOne =>
    simp only [step] at advanced
    split at advanced
    all_goals cases advanced
    exact .inl rfl
  | wake =>
    simp only [step] at advanced
    split at advanced
    · split at advanced
      all_goals cases advanced
      simp only at waits listens
      rw [if_pos listens] at waits
      cases waits
    · cases advanced
  | takeBatch =>
    simp only [step] at advanced
    split at advanced
    · split at advanced
      all_goals
        rename_i taken
        cases advanced
      · have vacant := before.dirty.take_batch_empty (by rw [taken])
        rw [taken] at vacant
        exact absurd vacant ready
      · cases waits
    · cases advanced
  | publish ending =>
    simp only [step] at advanced
    split at advanced
    · cases advanced
      unfold publish at waits
      split_ifs at waits <;> cases waits
    · cases advanced
  | observeStop =>
    simp only [step] at advanced
    split at advanced
    · split at advanced
      all_goals cases advanced
      all_goals cases waits
    · cases advanced
  | enter | change | close | release =>
    cases advanced
    exact wakeful waits listens ready

/-- A mark that lands before the publisher listens is announced once it does. -/
theorem sample_wakeful :
    ∃ hub : Hub Nat, run step initial [.enter 7, .mark 7, .notifyOne, .wake, .mark 7, .listen] =
        some hub ∧ hub.publisher.isWaiting = true ∧ hub.dirty.ready = [7] ∧
      (hub.permit = true ∨ 0 < hub.owed) := by
  refine ⟨_, rfl, rfl, by decide, ?_⟩
  exact reachable_wakeful ⟨[.enter 7, .mark 7, .notifyOne, .wake, .mark 7, .listen], rfl⟩ rfl rfl
    (by decide)

/-- No mark is lost. In every state the ready list holds the marked loads, each
once. And when a registered Session changes and the load is marked some time
after, then at every later time the load is still marked, waits in a batch that
was taken and not yet sampled, or a sample was taken since the change that reads
the changed state, as long as its unregistration has not begun. -/
theorem no_snapshot_mark_is_lost (load : LoadId) :
    (∀ hub : Hub LoadId, Reachable step initial hub →
      hub.dirty.ready.Nodup ∧ ∀ candidate, candidate ∈ hub.dirty.ready ↔ candidate ∈ hub.dirty.marks) ∧
    ∀ (registered before changed asked marked final : Hub LoadId)
      (earlier since between later : List (Action LoadId)),
      run step initial (earlier ++ [.enter load]) = some registered →
      run step registered since = some before →
      before.step (.change load) = some changed →
      run step changed between = some asked →
      asked.step (.mark load) = some marked →
      run step marked later = some final →
      (∀ action ∈ since ++ between ++ later, ¬ Leaves load action) →
      load ∈ final.dirty.marks ∨ load ∈ final.unsampled ∨
        ∃ sample ∈ final.samples.drop changed.samples.length,
          sample.load = load ∧ (changed.views load).version ≤ sample.version := by
  constructor
  · intro hub reached
    exact ⟨(reachable_tidy reached).once, (reachable_tidy reached).same⟩
  · intro registered before changed asked marked final earlier since between later
      entering waiting changing passing marking running stays
    rw [run_append] at entering
    obtain ⟨unregistered, -, entered⟩ := Option.bind_eq_some_iff.mp entering
    have entered : unregistered.step (.enter load) = some registered := by
      simpa [run] using entered
    have present := run_present (enter_present entered) waiting
      (fun action member => stays action (by simp [member]))
    have newest := change_present present changing
    have kept := run_present newest passing (fun action member => stays action (by simp [member]))
    have announced := mark_announces kept marking
    have present := step_present kept marking (by rintro (same | same | same) <;> cases same)
    exact run_announced present announced running
      (fun action member => stays action (by simp [member]))

/-- A mark that lands after the batch was taken and before it is sampled enters
the set again. -/
theorem mark_during_batch_is_kept :
    ∃ final : Hub Nat, run step initial
        [.enter 7, .mark 7, .listen, .notifyOne, .wake, .takeBatch, .change 7, .mark 7] = some final ∧
      (7 ∈ final.dirty.marks ∨ 7 ∈ final.unsampled ∨
        ∃ sample ∈ final.samples.drop 0, sample.load = 7 ∧ 1 ≤ sample.version) := by
  refine ⟨_, rfl, ?_⟩
  exact (no_snapshot_mark_is_lost 7).2 _ _ _ _ _ _ []
    [.mark 7, .listen, .notifyOne, .wake, .takeBatch] [] [] rfl rfl rfl rfl rfl rfl (by decide)

end Hub

end MinicoreAgent.SnapshotHub

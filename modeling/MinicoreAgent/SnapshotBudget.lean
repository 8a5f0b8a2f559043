import MinicoreAgent.Lib.Runs
import MinicoreAgent.Lib.Slots

/-!
# The budget of control snapshots

`SnapshotBudget` of `sessions/hub.rs`: tasks take charges of a common budget by a loop of
compare and exchange, and a task that finds no room waits for the next release. Every step
below is one atomic operation or one await point of the source, so that releases may land
between any two steps of a reservation. A waiting task cannot miss the release that makes room
for it, since it registers for notifications before it looks at the budget.
-/
namespace MinicoreAgent.SnapshotBudget

open Runs Slots

section Model

/-- Where a task stands. `notified` says whether a release has notified it since it registered;
`try_reserve` alone registers nowhere. -/
inductive Phase where
  | idle
  | asking (bytes : Nat)
  | enabled (bytes : Nat) (notified : Bool)
  | comparing (bytes value : Nat) (notified : Option Bool)
  | parked (bytes : Nat) (notified : Bool)
  | holding (bytes : Nat)
  | releasing (left : Option Nat)
  deriving DecidableEq, Repr

structure Budget where
  limit : Nat
  used : Nat
  stopped : Bool
  tasks : List Phase
  deriving DecidableEq, Repr

inductive Action where
  | spawn
  | reserve (task bytes : Nat)
  | tryReserve (task bytes : Nat)
  | enable (task : Nat)
  | load (task : Nat)
  | exchange (task : Nat) (spurious : Bool)
  | wake (task : Nat)
  | abandon (task : Nat)
  | stop
  | shrink (task bytes : Nat)
  | drop (task : Nat)
  | notifyWaiters (task : Nat)
  deriving DecidableEq, Repr

/-- What a task has charged to the budget. -/
def Phase.charge : Phase → Nat
  | .holding bytes => bytes
  | .releasing left => left.getD 0
  | _ => 0

/-- How much a registered task waits for. -/
def Phase.awaits : Phase → Nat
  | .asking bytes | .enabled bytes _ | .comparing bytes _ (some _) | .parked bytes _ => bytes
  | _ => 0

/-- A registered task after `notify_waiters`. -/
def Phase.notify : Phase → Phase
  | .enabled bytes _ => .enabled bytes true
  | .comparing bytes value (some _) => .comparing bytes value (some true)
  | .parked bytes _ => .parked bytes true
  | phase => phase

def Phase.isReleasing : Phase → Bool
  | .releasing _ => true
  | _ => false

/-- `checked_add`, for words of 64 bits. -/
def checkedAdd (left right : Nat) : Option Nat :=
  if left + right < 2 ^ 64 then some (left + right) else none

/-- Whether a reservation fits beside what was found used. -/
def fits (limit used bytes : Nat) : Bool := (checkedAdd used bytes).any (· ≤ limit)

namespace Budget

def new (limit : Nat) : Budget := { limit := limit, used := 0, stopped := false, tasks := [] }

/-- A task moves on. -/
def put (budget : Budget) (task : Nat) (next : Phase) : Budget :=
  { budget with tasks := budget.tasks.set task next }

/-- A task moves on and changes what is used. -/
def charge (budget : Budget) (task : Nat) (next : Phase) (used : Nat) : Budget :=
  { budget with used := used, tasks := budget.tasks.set task next }

def step (budget : Budget) : Action → Option Budget
  | .spawn => some { budget with tasks := budget.tasks ++ [.idle] }
  | .stop => some { budget with stopped := true }
  | .reserve task bytes =>
    match budget.tasks[task]? with
    | some .idle => if bytes ≤ budget.limit then some (budget.put task (.asking bytes)) else none
    | _ => none
  | .tryReserve task bytes =>
    match budget.tasks[task]? with
    | some .idle => some (budget.put task (.comparing bytes budget.used none))
    | _ => none
  | .enable task =>
    match budget.tasks[task]? with
    | some (.asking bytes) =>
      some (budget.put task (if budget.stopped then .idle else .enabled bytes false))
    | _ => none
  | .load task =>
    match budget.tasks[task]? with
    | some (.enabled bytes notified) =>
      some (budget.put task (.comparing bytes budget.used (some notified)))
    | _ => none
  | .exchange task spurious =>
    match budget.tasks[task]? with
    | some (.comparing bytes value notified) =>
      if fits budget.limit value bytes then
        if value = budget.used ∧ spurious = false then
          some (budget.charge task (.holding bytes) (budget.used + bytes))
        else some (budget.put task (.comparing bytes budget.used notified))
      else
        match notified with
        | none => some (budget.put task .idle)
        | some notified => some (budget.put task (.parked bytes notified))
    | _ => none
  | .wake task =>
    match budget.tasks[task]? with
    | some (.parked bytes true) => some (budget.put task (.asking bytes))
    | _ => none
  | .abandon task =>
    match budget.tasks[task]? with
    | some (.parked _ _) => some (budget.put task .idle)
    | _ => none
  | .shrink task bytes =>
    match budget.tasks[task]? with
    | some (.holding held) =>
      if bytes ≤ held then
        some (budget.charge task (.releasing (some bytes)) (budget.used - (held - bytes)))
      else none
    | _ => none
  | .drop task =>
    match budget.tasks[task]? with
    | some (.holding held) => some (budget.charge task (.releasing none) (budget.used - held))
    | _ => none
  | .notifyWaiters task =>
    match budget.tasks[task]? with
    | some (.releasing left) =>
      let next := (left.map Phase.holding).getD .idle
      some { budget with tasks := (budget.tasks.set task next).map Phase.notify }
    | _ => none

end Budget

end Model

section Invariant

namespace Budget

variable {budget next : Budget} {task bytes : Nat}

/-- A release whose notification is still to come. -/
def Releasing (budget : Budget) : Prop :=
  ∃ (task : Nat) (left : Option Nat), budget.tasks[task]? = some (.releasing left)

/-- What is used is what the tasks have charged, and no task waits in vain: what it saw of the
budget was no more than what is used now, or a release is about to notify it. -/
structure Sound (budget : Budget) : Prop where
  used : budget.used = total Phase.charge budget.tasks
  within : budget.used ≤ budget.limit
  compared : ∀ task bytes value : Nat,
    budget.tasks[task]? = some (.comparing bytes value (some false)) →
    value ≤ budget.used ∨ budget.Releasing
  parked : ∀ task bytes : Nat, budget.tasks[task]? = some (.parked bytes false) →
    fits budget.limit budget.used bytes = false ∨ budget.Releasing
  asked : ∀ (task : Nat) (phase : Phase), budget.tasks[task]? = some phase →
    phase.awaits ≤ budget.limit

/-- What a task must see where it moves to. -/
def Sees (budget : Budget) : Phase → Prop
  | .comparing _ value (some false) => value ≤ budget.used ∨ budget.Releasing
  | .parked bytes false => fits budget.limit budget.used bytes = false ∨ budget.Releasing
  | _ => True

theorem fits_less {limit used more bytes : Nat} (least : used ≤ more)
    (full : fits limit used bytes = false) : fits limit more bytes = false := by
  rw [fits, checkedAdd] at full ⊢
  split
  · rename_i room
    rw [if_pos (by omega)] at full
    simp only [Option.any_some, decide_eq_false_iff_not] at full ⊢
    omega
  · rfl

theorem Releasing.put {old phase : Phase} (releasing : budget.Releasing)
    (present : budget.tasks[task]? = some old) (quiet : old.isReleasing = false)
    (used : Nat) : (budget.charge task phase used).Releasing := by
  obtain ⟨other, left, found⟩ := releasing
  refine ⟨other, left, ?_⟩
  have apart : other ≠ task := by
    rintro rfl
    rw [present] at found
    cases found
    cases quiet
  change (budget.tasks.set task phase)[other]? = _
  rw [List.getElem?_set_ne (Ne.symm apart)]
  exact found

/-- A task that moves on keeps the budget sound if its charge follows it, and if it announces
what it gives back. -/
theorem Sound.charge (sound : Sound budget) {old phase : Phase} {used : Nat}
    (present : budget.tasks[task]? = some old) (quiet : old.isReleasing = false)
    (balance : used + old.charge = budget.used + phase.charge) (within : used ≤ budget.limit)
    (announced : budget.used ≤ used ∨ ∃ left, phase = .releasing left)
    (sees : (budget.charge task phase used).Sees phase) (asked : phase.awaits ≤ budget.limit) :
    Sound (budget.charge task phase used) := by
  have inside : task < budget.tasks.length := (List.getElem?_eq_some_iff.mp present).1
  have here : (budget.charge task phase used).tasks[task]? = some phase :=
    List.getElem?_set_self inside
  have told : ¬ budget.used ≤ used → (budget.charge task phase used).Releasing := by
    intro less
    obtain ⟨left, same⟩ := announced.resolve_left less
    exact ⟨task, left, here.trans (congrArg some same)⟩
  constructor
  · obtain ⟨others, split⟩ := total_split Phase.charge budget.tasks task old present
    obtain ⟨before, after⟩ := split phase
    change used = total Phase.charge (budget.tasks.set task phase)
    rw [after]
    rw [sound.used, before] at balance
    omega
  · exact within
  · intro other bytes value found
    rcases set_cases found with ⟨-, same⟩ | ⟨-, stays⟩
    · subst same
      exact sees
    · rcases sound.compared other bytes value stays with seen | releasing
      · by_cases grown : budget.used ≤ used
        · exact .inl (Nat.le_trans seen grown)
        · exact .inr (told grown)
      · exact .inr (releasing.put present quiet used)
  · intro other bytes found
    rcases set_cases found with ⟨-, same⟩ | ⟨-, stays⟩
    · subst same
      exact sees
    · rcases sound.parked other bytes stays with full | releasing
      · by_cases grown : budget.used ≤ used
        · exact .inl (fits_less grown full)
        · exact .inr (told grown)
      · exact .inr (releasing.put present quiet used)
  · intro other awaiting found
    rcases set_cases found with ⟨-, same⟩ | ⟨-, stays⟩
    · rw [same]
      exact asked
    · exact sound.asked other awaiting stays

/-- A task that moves on with its charge. -/
theorem Sound.put (sound : Sound budget) {old phase : Phase}
    (present : budget.tasks[task]? = some old) (quiet : old.isReleasing = false)
    (same : old.charge = phase.charge) (sees : (budget.put task phase).Sees phase)
    (asked : phase.awaits ≤ budget.limit) : Sound (budget.put task phase) :=
  sound.charge present quiet (by rw [same]) sound.within (.inl (Nat.le_refl _)) sees asked

theorem notify_same (phase : Phase) :
    phase.notify.charge = phase.charge ∧ phase.notify.awaits = phase.awaits := by
  cases phase with
  | comparing bytes value notified =>
    cases notified with
    | none => exact ⟨rfl, rfl⟩
    | some notified => exact ⟨rfl, rfl⟩
  | _ => exact ⟨rfl, rfl⟩

/-- After a notification no registered task is unaware of a release. -/
theorem notify_told {phase : Phase} :
    (∀ bytes value, phase.notify ≠ .comparing bytes value (some false)) ∧
      ∀ bytes, phase.notify ≠ .parked bytes false := by
  cases phase with
  | comparing bytes value notified =>
    cases notified <;> exact ⟨fun _ _ same => (by cases same), fun _ same => (by cases same)⟩
  | _ => exact ⟨fun _ _ same => (by cases same), fun _ same => (by cases same)⟩

theorem Sound.notified (sound : Sound budget) {left : Option Nat}
    (present : budget.tasks[task]? = some (Phase.releasing left)) :
    Sound { budget with
      tasks := (budget.tasks.set task ((left.map Phase.holding).getD .idle)).map
        Phase.notify } := by
  have found_phase {other : Nat} {phase : Phase}
      (found : ((budget.tasks.set task ((left.map Phase.holding).getD .idle)).map
        Phase.notify)[other]? = some phase) :
      ∃ before : Phase, phase = before.notify ∧ before.awaits ≤ budget.limit := by
    rw [List.getElem?_map] at found
    obtain ⟨before, stays, same⟩ := Option.map_eq_some_iff.mp found
    refine ⟨before, same.symm, ?_⟩
    rcases set_cases stays with ⟨-, new⟩ | ⟨-, old⟩
    · rw [new]
      cases left with
      | none => exact Nat.zero_le _
      | some bytes => exact Nat.zero_le _
    · exact sound.asked other before old
  constructor
  · obtain ⟨others, split⟩ := total_split Phase.charge budget.tasks task _ present
    obtain ⟨before, after⟩ := split ((left.map Phase.holding).getD .idle)
    have kept : ((left.map Phase.holding).getD .idle).charge = (Phase.releasing left).charge := by
      cases left with
      | none => rfl
      | some bytes => rfl
    have mapped (tasks : List Phase) :
        total Phase.charge (tasks.map Phase.notify) = total Phase.charge tasks := by
      rw [total, List.map_map]
      exact total_congr (fun phase => (notify_same phase).1) tasks
    change budget.used = total Phase.charge (List.map Phase.notify _)
    rw [mapped, after, kept, sound.used, before]
  · exact sound.within
  · intro other bytes value found
    obtain ⟨before, same, -⟩ := found_phase found
    exact absurd same.symm (notify_told.1 bytes value)
  · intro other bytes found
    obtain ⟨before, same, -⟩ := found_phase found
    exact absurd same.symm (notify_told.2 bytes)
  · intro other phase found
    obtain ⟨before, rfl, within⟩ := found_phase found
    rw [(notify_same before).2]
    exact within

/-- Every step keeps the budget sound. -/
theorem Sound.step (sound : Sound budget) (action : Action)
    (moved : budget.step action = some next) : Sound next ∧ next.limit = budget.limit := by
  cases action with
  | spawn =>
    cases moved
    refine ⟨?_, rfl⟩
    have old {other : Nat} {phase : Phase}
        (found : (budget.tasks ++ [.idle])[other]? = some phase) :
        budget.tasks[other]? = some phase ∨ phase = .idle := by
      rcases Nat.lt_or_ge other budget.tasks.length with inside | beyond
      · rw [List.getElem?_append_left inside] at found
        exact .inl found
      · rw [List.getElem?_append_right beyond] at found
        exact .inr (List.mem_singleton.mp (List.mem_of_getElem? found))
    have still (releasing : budget.Releasing) :
        Releasing { budget with tasks := budget.tasks ++ [.idle] } := by
      obtain ⟨other, left, found⟩ := releasing
      obtain ⟨inside, -⟩ := List.getElem?_eq_some_iff.mp found
      exact ⟨other, left, (List.getElem?_append_left inside).trans found⟩
    constructor
    · change budget.used = total Phase.charge (budget.tasks ++ [.idle])
      rw [total_append, sound.used]
      rfl
    · exact sound.within
    · intro other bytes value found
      rcases old found with before | new
      · exact (sound.compared other bytes value before).imp_right still
      · cases new
    · intro other bytes found
      rcases old found with before | new
      · exact (sound.parked other bytes before).imp_right still
      · cases new
    · intro other phase found
      rcases old found with before | new
      · exact sound.asked other phase before
      · rw [new]
        exact Nat.zero_le _
  | stop =>
    cases moved
    exact ⟨⟨sound.used, sound.within, sound.compared, sound.parked, sound.asked⟩, rfl⟩
  | reserve task bytes =>
    rw [Budget.step] at moved
    split at moved
    · rename_i present
      split at moved
      · rename_i small
        cases moved
        exact ⟨sound.put present rfl rfl trivial small, rfl⟩
      · cases moved
    · cases moved
  | tryReserve task bytes =>
    rw [Budget.step] at moved
    split at moved
    · rename_i present
      cases moved
      exact ⟨sound.put present rfl rfl trivial (Nat.zero_le _), rfl⟩
    · cases moved
  | enable task =>
    rw [Budget.step] at moved
    split at moved
    · rename_i bytes present
      cases moved
      have small := sound.asked task _ present
      refine ⟨?_, rfl⟩
      split
      · exact sound.put present rfl rfl trivial (Nat.zero_le _)
      · exact sound.put present rfl rfl trivial small
    · cases moved
  | load task =>
    rw [Budget.step] at moved
    split at moved
    · rename_i bytes notified present
      cases moved
      have small := sound.asked task _ present
      refine ⟨sound.put present rfl rfl ?_ small, rfl⟩
      cases notified with
      | true => exact trivial
      | false => exact .inl (Nat.le_refl _)
    · cases moved
  | exchange task spurious =>
    rw [Budget.step] at moved
    split at moved
    · rename_i bytes value notified present
      have small := sound.asked task _ present
      split at moved
      · rename_i room
        split at moved
        · rename_i unchanged
          cases moved
          have within : budget.used + bytes ≤ budget.limit := by
            rw [fits, checkedAdd] at room
            split at room
            · rw [Option.any_some, decide_eq_true_eq, unchanged.1] at room
              exact room
            · cases room
          refine ⟨sound.charge present rfl ?_ within
            (.inl (Nat.le_add_right _ _)) trivial (Nat.zero_le _), rfl⟩
          exact Nat.add_zero _
        · cases moved
          refine ⟨sound.put present rfl rfl ?_ ?_, rfl⟩
          · cases notified with
            | none => exact trivial
            | some notified =>
              cases notified with
              | true => exact trivial
              | false => exact .inl (Nat.le_refl _)
          · cases notified with
            | none => exact Nat.zero_le _
            | some notified => exact small
      · rename_i full
        split at moved
        · cases moved
          exact ⟨sound.put present rfl rfl trivial (Nat.zero_le _), rfl⟩
        · rename_i notified
          cases moved
          refine ⟨sound.put present rfl rfl ?_ small, rfl⟩
          cases notified with
          | true => exact trivial
          | false =>
            -- What was seen is no more than what is used, so there is still no room.
            rcases sound.compared task bytes value present with seen | releasing
            · exact .inl (fits_less seen (Bool.not_eq_true _ ▸ full))
            · exact .inr (releasing.put present rfl budget.used)
    · cases moved
  | wake task =>
    rw [Budget.step] at moved
    split at moved
    · rename_i bytes present
      cases moved
      have small := sound.asked task _ present
      exact ⟨sound.put present rfl rfl trivial small, rfl⟩
    · cases moved
  | abandon task =>
    rw [Budget.step] at moved
    split at moved
    · rename_i present
      cases moved
      exact ⟨sound.put present rfl rfl trivial (Nat.zero_le _), rfl⟩
    · cases moved
  | shrink task bytes =>
    rw [Budget.step] at moved
    split at moved
    · rename_i held present
      have part : held ≤ budget.used := by
        rw [sound.used]
        exact le_total Phase.charge budget.tasks task _ present
      split at moved
      · rename_i less
        cases moved
        have within := sound.within
        refine ⟨sound.charge present rfl ?_ (by omega)
          (.inr ⟨some bytes, rfl⟩) trivial (Nat.zero_le _), rfl⟩
        change budget.used - (held - bytes) + held = budget.used + bytes
        omega
      · cases moved
    · cases moved
  | drop task =>
    rw [Budget.step] at moved
    split at moved
    · rename_i held present
      have part : held ≤ budget.used := by
        rw [sound.used]
        exact le_total Phase.charge budget.tasks task _ present
      cases moved
      have within := sound.within
      refine ⟨sound.charge present rfl ?_ (by omega)
        (.inr ⟨none, rfl⟩) trivial (Nat.zero_le _), rfl⟩
      change budget.used - held + held = budget.used + 0
      omega
    · cases moved
  | notifyWaiters task =>
    rw [Budget.step] at moved
    split at moved
    · rename_i left present
      cases moved
      exact ⟨sound.notified present, rfl⟩
    · cases moved

theorem Sound.new (limit : Nat) : Sound (new limit) where
  used := rfl
  within := Nat.zero_le _
  compared := fun _ _ _ found => by cases found
  parked := fun _ _ found => by cases found
  asked := fun _ _ found => by cases found

theorem replay_sound (limit : Nat) (actions : List Action) :
    Sound (replay Budget.step (new limit) actions) ∧
      (replay Budget.step (new limit) actions).limit = limit := by
  rw [replay]
  cases defined : run Budget.step (new limit) actions with
  | none => exact ⟨.new limit, rfl⟩
  | some final =>
    apply run_invariant (fun budget => Sound budget ∧ budget.limit = limit) _ (new limit) actions
      final ⟨.new limit, rfl⟩ defined
    intro before action after holds moved
    obtain ⟨sound, same⟩ := holds.1.step action moved
    exact ⟨sound, same.trans holds.2⟩

end Budget

/-- Ceiling for control snapshots held, encoded, or queued for the wire. -/
def snapshotBudgetBytes : Nat := 320 * 1024 * 1024

/-- In every interleaving of reservations, releases and notifications the bytes in use are
exactly those of the charges, and within the ceiling. A reservation that waits unnotified does
not fit, or a release is about to notify it; and where none is, another charge is held, so that
the wait is not in vain. -/
theorem no_release_is_missed (actions : List Action) :
    let budget := replay Budget.step (Budget.new snapshotBudgetBytes) actions
    budget.used = total Phase.charge budget.tasks ∧ budget.used ≤ snapshotBudgetBytes ∧
      ∀ task bytes : Nat, budget.tasks[task]? = some (.parked bytes false) →
        budget.Releasing ∨ (fits snapshotBudgetBytes budget.used bytes = false ∧
          ∃ other held : Nat, budget.tasks[other]? = some (.holding held) ∧ 0 < held) := by
  intro budget
  obtain ⟨sound, limit⟩ : budget.Sound ∧ budget.limit = snapshotBudgetBytes :=
    Budget.replay_sound snapshotBudgetBytes actions
  refine ⟨sound.used, limit ▸ sound.within, ?_⟩
  intro task bytes waiting
  rcases sound.parked task bytes waiting with full | releasing
  · by_cases announced : budget.Releasing
    · exact .inl announced
    · right
      rw [limit] at full
      refine ⟨full, ?_⟩
      have small : bytes ≤ snapshotBudgetBytes := limit ▸ sound.asked task _ waiting
      have some_used : budget.used ≠ 0 := by
        intro nothing
        rw [nothing, fits, checkedAdd, Nat.zero_add, if_pos] at full
        · exact absurd small (by simpa using full)
        · have ceiling : snapshotBudgetBytes < 2 ^ 64 := by decide
          omega
      have positive : 0 < total Phase.charge budget.tasks := by
        rw [← sound.used]
        exact Nat.pos_of_ne_zero some_used
      obtain ⟨other, phase, present, charged⟩ := pos_of_total positive
      cases phase with
      | holding held => exact ⟨other, held, present, charged⟩
      | releasing left => exact absurd ⟨other, left, present⟩ announced
      | _ => cases charged
  · exact .inl releasing

example :
    (run Budget.step (Budget.new 10)
      [.spawn, .spawn, .tryReserve 0 8, .exchange 0 false, .reserve 1 6, .enable 1, .load 1,
        .exchange 1 false, .shrink 0 4, .notifyWaiters 0, .wake 1, .enable 1, .load 1,
        .exchange 1 false]).map (·.tasks) = some [.holding 4, .holding 6] := by
  decide

end Invariant

end MinicoreAgent.SnapshotBudget

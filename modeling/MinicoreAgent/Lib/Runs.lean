/-!
# Runs of an executable transition function

A partial step function over arbitrary states and actions generates runs. A
state is reachable when some finite sequence of actions leads to it, so a
concrete reachable state is exhibited by evaluating the run that ends there.

A guard removes steps without touching the step function. What is proved for
every state a guarded system reaches is proved for every run of the original
system whose steps all meet the guard.
-/
namespace MinicoreAgent.Runs

universe u v
variable {State : Type u} {Action : Type v}

/-- Follow a sequence of actions; the run is undefined at the first step that
is. -/
def run (step : State → Action → Option State) : State → List Action → Option State
  | state, [] => some state
  | state, action :: rest => (step state action).bind fun next => run step next rest

/-- Some finite run leads from the start to the state. -/
def Reachable (step : State → Action → Option State) (start state : State) : Prop :=
  ∃ actions, run step start actions = some state

/-- The state at the end of a run, and the start if the run is undefined. -/
def replay (step : State → Action → Option State) (start : State) (actions : List Action) :
    State :=
  (run step start actions).getD start

/-- Keep only the steps the guard admits. -/
def guarded (allowed : State → Action → Bool) (step : State → Action → Option State)
    (state : State) (action : Action) : Option State :=
  if allowed state action then step state action else none

/-- What holds at the start and survives every step holds along every run. -/
theorem run_invariant {step : State → Action → Option State} (Holds : State → Prop)
    (preserved : ∀ before action after, Holds before → step before action = some after →
      Holds after)
    (start : State) (actions : List Action) (final : State) (initially : Holds start)
    (completed : run step start actions = some final) : Holds final := by
  induction actions generalizing start with
  | nil =>
    have same : start = final := Option.some.inj completed
    exact same ▸ initially
  | cons action rest inductionHypothesis =>
    simp only [run, Option.bind_eq_some_iff] at completed
    obtain ⟨next, advanced, remaining⟩ := completed
    exact inductionHypothesis next (preserved start action next initially advanced) remaining

/-- The same where only the actions of this run are known to preserve it. -/
theorem run_invariant_along {step : State → Action → Option State} (Holds : State → Prop)
    (start : State) (actions : List Action) (final : State) (initially : Holds start)
    (preserved : ∀ before action after, action ∈ actions → Holds before →
      step before action = some after → Holds after)
    (completed : run step start actions = some final) : Holds final := by
  induction actions generalizing start with
  | nil =>
    have same : start = final := Option.some.inj completed
    exact same ▸ initially
  | cons action rest inductionHypothesis =>
    simp only [run, Option.bind_eq_some_iff] at completed
    obtain ⟨next, advanced, remaining⟩ := completed
    refine inductionHypothesis next ?_ ?_ remaining
    · exact preserved start action next List.mem_cons_self initially advanced
    · intro before later after member
      exact preserved before later after (List.mem_cons_of_mem action member)

/-- The induction rule for reachable states. -/
theorem reachable_invariant {step : State → Action → Option State} {start state : State}
    (Holds : State → Prop) (initially : Holds start)
    (preserved : ∀ before action after, Holds before → step before action = some after →
      Holds after)
    (reached : Reachable step start state) : Holds state := by
  obtain ⟨actions, completed⟩ := reached
  exact run_invariant Holds preserved start actions state initially completed

/-- Runs compose: continuing from a reached state reaches the final state. -/
theorem run_append {step : State → Action → Option State} (start : State)
    (first second : List Action) :
    run step start (first ++ second) = (run step start first).bind (run step · second) := by
  induction first generalizing start with
  | nil => rfl
  | cons action rest inductionHypothesis =>
    simp only [List.cons_append, run, Option.bind_assoc]
    congr 1
    funext next
    exact inductionHypothesis next

/-- One more step from a reachable state is reachable. -/
theorem reachable_step {step : State → Action → Option State} {start state next : State}
    {action : Action} (reached : Reachable step start state)
    (advanced : step state action = some next) : Reachable step start next := by
  obtain ⟨actions, completed⟩ := reached
  refine ⟨actions ++ [action], ?_⟩
  rw [run_append, completed]
  simp [run, advanced]

/-- A defined run reaches the state it is replayed to. -/
theorem reachable_replay {step : State → Action → Option State} {start : State}
    {actions : List Action} (defined : (run step start actions).isSome = true) :
    Reachable step start (replay step start actions) := by
  obtain ⟨state, completed⟩ := Option.isSome_iff_exists.mp defined
  exact ⟨actions, by simp [replay, completed]⟩

/-- A guarded step is a step of the unguarded system whose guard is met. -/
theorem guarded_some {allowed : State → Action → Bool} {step : State → Action → Option State}
    {state next : State} {action : Action}
    (advanced : guarded allowed step state action = some next) :
    allowed state action = true ∧ step state action = some next := by
  unfold guarded at advanced
  split at advanced
  · exact ⟨‹_›, advanced⟩
  · cases advanced

/-- A state reached under a guard is reached without it. -/
theorem reachable_of_guarded {allowed : State → Action → Bool}
    {step : State → Action → Option State} {start state : State}
    (reached : Reachable (guarded allowed step) start state) : Reachable step start state := by
  refine reachable_invariant (Reachable step start) ⟨[], rfl⟩ ?_ reached
  intro before action after earlier advanced
  exact reachable_step earlier (guarded_some advanced).2

end MinicoreAgent.Runs

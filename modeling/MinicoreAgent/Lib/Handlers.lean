/-!
# Handlers that look before they change

The handler of a request runs on a state that it may change, and it can be refused at
any step. A refusal does not undo what was changed before it, so a handler that is
refused has left the state alone only if everything before was a look at the state.

`Settles` says that of a handler, and what it has done when it is not refused. Its
rules follow the handler from the front: each look adds what is known of the state,
until the handler is refused, answers, or changes the state in its last step.
-/
namespace MinicoreAgent.Handlers

variable {State Error Value Answer : Type}

abbrev Handler (State Error Value : Type) := ExceptT Error (StateM State) Value

/-- The outcome on a state, and the state afterwards. -/
def Handler.on (handler : Handler State Error Value) (state : State) : Except Error Value × State :=
  handler.run.run state

/-- A look at the state, which may refuse. -/
def inspect (look : State → Except Error Value) : Handler State Error Value :=
  ExceptT.mk fun state => (look state, state)

/-- A change of the state, which is not refused. -/
def change (update : State → Value × State) : Handler State Error Value :=
  ExceptT.mk fun state => (.ok (update state).1, (update state).2)

/-- A handler that is refused has changed nothing, and otherwise it has done this. -/
def Settles (Before : State → Prop) (handler : Handler State Error Answer)
    (Done : State → Answer → State → Prop) : Prop :=
  ∀ state, Before state →
    match handler.on state with
    | (.error _, after) => after = state
    | (.ok answer, after) => Done state answer after

variable {Before : State → Prop} {Done : State → Answer → State → Prop}

/-- A look in front of a handler. -/
theorem Settles.inspect {look : State → Except Error Value}
    {next : Value → Handler State Error Answer}
    (settles : ∀ value, Settles (fun state => Before state ∧ look state = .ok value) (next value)
      Done) :
    Settles Before (Handlers.inspect look >>= next) Done := by
  intro state before
  have split : (Handlers.inspect look >>= next).on state =
      match look state with
      | .ok value => (next value).on state
      | .error error => (.error error, state) := by
    cases seen : look state with
    | ok value => simp [Handler.on, Handlers.inspect, bind, ExceptT.bind, ExceptT.bindCont,
        ExceptT.mk, ExceptT.run, StateT.bind, StateT.run, seen]
    | error error =>
      simp only [Handler.on, Handlers.inspect, bind, ExceptT.bind, ExceptT.bindCont, ExceptT.mk,
        ExceptT.run, StateT.bind, StateT.run, seen]
      rfl
  rw [split]
  cases seen : look state with
  | ok value => exact settles value state ⟨before, seen⟩
  | error error => rfl

/-- A look of which nothing is needed afterwards. -/
theorem Settles.skip {look : State → Except Error Value}
    {next : Value → Handler State Error Answer}
    (settles : ∀ value, Settles Before (next value) Done) :
    Settles Before (Handlers.inspect look >>= next) Done := by
  apply Settles.inspect
  intro value state known
  exact settles value state known.1

/-- A change as the last step. -/
theorem Settles.change {update : State → Answer × State}
    (does : ∀ state, Before state → Done state (update state).1 (update state).2) :
    Settles Before (Handlers.change update : Handler State Error Answer) Done :=
  does

/-- An answer that changes nothing. -/
theorem Settles.answer {answer : Answer} (does : ∀ state, Before state → Done state answer state) :
    Settles Before (pure answer : Handler State Error Answer) Done :=
  does

theorem Settles.refuse {error : Error} :
    Settles Before (throw error : Handler State Error Answer) Done :=
  fun _ _ => rfl

end MinicoreAgent.Handlers

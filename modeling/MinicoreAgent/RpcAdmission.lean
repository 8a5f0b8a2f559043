import Mathlib.Logic.Relation
import MinicoreAgent.RpcServer

/-!
# Admission of deferred requests

Along every run of dispatched requests and completed tasks, the reservations are those
of the operations in flight and no two of these hold the same one, a reload is alone,
and the task sets stay within their ceilings. A request that is refused or answered at
once leaves the server as it was, wherever its method refuses it.

One lemma for each method says what it does when it is not refused: it registers at
most one task, and an operation only after its admission.
-/
namespace MinicoreAgent.Rpc

open Handlers

section Admission

/-- What the admission of an operation has checked. -/
structure Admitted (server : RpcServer) (reservation : Option Reservation) : Prop where
  served : .reload ∉ server.reservations
  alone : reservation = some .reload → server.operations = []
  free : ∀ held, reservation = some held → held ∉ server.reservations
  room : server.deferredCount < maxDeferredWaiters

variable {server : RpcServer} {id : RpcId} {reservation : Option Reservation}

theorem admit_operation_ok (admitted : server.admitOperation id reservation = .ok ()) :
    Admitted server reservation := by
  unfold RpcServer.admitOperation at admitted
  split at admitted
  · cases admitted
  · rename_i idle
    split at admitted
    · cases admitted
    · rename_i room
      rw [not_or, not_or, not_and] at idle
      refine ⟨idle.1, ?_, ?_, Nat.lt_of_not_le room⟩
      · intro reload
        exact not_not.mp (idle.2.1 reload)
      · intro held reserved taken
        apply idle.2.2
        rw [reserved]
        simpa using taken

theorem capacity_few (capacity : server.queryCapacityAvailable = true) :
    server.queries.length < maxDeferredQueries := by
  rw [RpcServer.queryCapacityAvailable, Bool.and_eq_true, decide_eq_true_eq] at capacity
  exact capacity.1

theorem admit_query_few {validation : Except AgentError Unit}
    (admitted : server.admitQuery id validation = .ok ()) :
    server.queries.length < maxDeferredQueries := by
  unfold RpcServer.admitQuery at admitted
  split at admitted
  · cases admitted
  · split at admitted
    · rename_i capacity
      exact capacity_few capacity
    · cases admitted

theorem require_ok {condition : Bool} {response : RpcResponse}
    (passed : require condition response = .ok ()) : condition = true := by
  unfold require at passed
  split at passed
  · assumption
  · cases passed

/-- How a request that is not refused leaves the server. -/
inductive Dispatched (server : RpcServer) : Dispatch → RpcServer → Prop
  | response (response : RpcResponse) : Dispatched server (.response response) server
  | shutdown (id : RpcId) : Dispatched server (.shutdown id) server
  | operation (operation : Operation) (admitted : Admitted server operation.reservation) :
      Dispatched server .deferred (server.deferOperation operation).2
  | waiter (id : RpcId) (room : server.deferredCount < maxDeferredWaiters) :
      Dispatched server .deferred (server.deferWaiter id).2
  | query (id : RpcId) (few : server.queries.length < maxDeferredQueries) :
      Dispatched server .deferred (server.deferQuery id).2

/-- An id that is drawn for a new Session is not reserved. -/
def AgentAnswers.Fresh (agent : AgentAnswers) (server : RpcServer) : Prop :=
  ∀ sessionId, agent.newSessionId = some sessionId → .session sessionId ∉ server.reservations

/-- An operation is admitted under the id of a Session that nobody knows yet. -/
theorem Admitted.reserve (admitted : Admitted server none) {sessionId : SessionId}
    (fresh : .session sessionId ∉ server.reservations) :
    Admitted server (some (.session sessionId)) := by
  refine ⟨admitted.served, ?_, ?_, admitted.room⟩
  · rintro ⟨⟩
  · rintro held ⟨⟩
    exact fresh

end Admission

section Methods

variable {agent : AgentAnswers} {id : RpcId} {Before : RpcServer → Prop}
  {result prepare : Except AgentError Unit} {reservation : Option Reservation}

theorem defer_response_settles (admits : ∀ server, Before server → Admitted server reservation) :
    Settles Before (deferResponse id reservation) Dispatched := by
  apply Settles.change
  intro server before
  exact .operation _ (admits server before)

theorem defer_waiting_settles (admits : ∀ server, Before server → Admitted server reservation) :
    Settles Before (deferWaiting id reservation) Dispatched := by
  apply Settles.change
  intro server before
  exact .operation _ (admits server before)

theorem answered_settles {Value : Type} {params : Params Value} :
    Settles Before (answered id result params) Dispatched := by
  apply Settles.skip
  intro value
  apply Settles.answer
  intro server _
  exact .response _

theorem commanded_settles {params : LoadParams SessionParams} :
    Settles Before (commanded agent id result params) Dispatched := by
  apply Settles.skip
  rintro ⟨params, load⟩
  apply Settles.skip
  intro _
  apply Settles.answer
  intro server _
  exact .response _

theorem admitted_query_settles {params : Params QueryParams} :
    Settles Before (admittedQuery id prepare params) Dispatched := by
  apply Settles.skip
  intro request
  apply Settles.inspect
  intro _
  apply Settles.skip
  intro _
  apply Settles.change
  rintro server ⟨_, admitted⟩
  exact .query id (admit_query_few admitted)

theorem workspace_query_settles {params : Params QueryParams} :
    Settles Before (workspaceQuery agent id prepare params) Dispatched := by
  apply Settles.skip
  intro request
  apply Settles.skip
  intro _
  apply Settles.skip
  intro _
  apply Settles.inspect
  intro _
  apply Settles.skip
  intro _
  apply Settles.change
  rintro server ⟨_, capacity⟩
  exact .query id (capacity_few (require_ok capacity))

theorem agent_reload_settles {params : Params Unit} :
    Settles Before (agentReload agent id params) Dispatched := by
  apply Settles.skip
  intro _
  apply Settles.inspect
  intro _
  apply Settles.skip
  intro _
  apply defer_response_settles
  rintro server ⟨_, admitted⟩
  exact admit_operation_ok admitted

theorem agent_shutdown_settles {params : Params Unit} :
    Settles Before (agentShutdown id params) Dispatched := by
  apply Settles.skip
  intro _
  apply Settles.answer
  intro server _
  exact .shutdown id

theorem session_list_settles {params : Params Unit} :
    Settles Before (sessionList id params) Dispatched := by
  apply Settles.skip
  intro _
  apply Settles.inspect
  intro _
  apply defer_response_settles
  rintro server ⟨_, admitted⟩
  exact admit_operation_ok admitted

/-- The id of the new Session is fresh, so the admission without one is enough. -/
theorem session_create_settles {params : Params Unit} :
    Settles agent.Fresh (sessionCreate agent id params) Dispatched := by
  apply Settles.skip
  intro _
  apply Settles.inspect
  intro _
  apply Settles.skip
  intro _
  apply Settles.inspect
  intro sessionId
  apply Settles.skip
  intro _
  apply defer_waiting_settles
  rintro server ⟨⟨fresh, admitted⟩, drawn⟩
  apply (admit_operation_ok admitted).reserve
  apply fresh
  split at drawn
  · rename_i other found
    rw [found, Except.ok.inj drawn]
  · cases drawn

theorem session_open_settles {params : Params SessionParams} :
    Settles Before (sessionOpen agent id params) Dispatched := by
  apply Settles.skip
  intro params
  apply Settles.inspect
  intro _
  apply Settles.skip
  intro _
  split
  · apply Settles.inspect
    intro _
    apply Settles.change
    rintro server ⟨_, few⟩
    exact .query id (of_decide_eq_true (require_ok few))
  · apply defer_waiting_settles
    rintro server ⟨_, admitted⟩
    exact admit_operation_ok admitted

theorem session_close_settles {params : LoadParams SessionParams} :
    Settles Before (sessionClose agent id params) Dispatched := by
  apply Settles.skip
  rintro ⟨params, load⟩
  apply Settles.inspect
  intro _
  apply Settles.skip
  intro _
  apply Settles.skip
  intro _
  apply defer_response_settles
  rintro server ⟨_, admitted⟩
  exact admit_operation_ok admitted

theorem session_delete_settles {params : Params SessionParams} :
    Settles Before (sessionDelete agent id params) Dispatched := by
  apply Settles.skip
  intro params
  apply Settles.inspect
  intro _
  apply Settles.skip
  intro _
  apply defer_response_settles
  rintro server ⟨_, admitted⟩
  exact admit_operation_ok admitted

theorem session_state_settles {params : Params SessionParams} :
    Settles Before (sessionState agent id params) Dispatched := by
  apply Settles.skip
  intro params
  apply Settles.skip
  intro _
  apply Settles.inspect
  intro _
  apply Settles.skip
  intro _
  apply Settles.change
  rintro server ⟨_, few⟩
  exact .query id (of_decide_eq_true (require_ok few))

theorem session_compact_settles {params : LoadParams CompactSession} :
    Settles Before (sessionCompact agent id params) Dispatched := by
  apply Settles.skip
  rintro ⟨request, load⟩
  apply Settles.inspect
  intro _
  apply Settles.skip
  intro _
  apply Settles.skip
  intro _
  apply defer_waiting_settles
  rintro server ⟨_, admitted⟩
  exact admit_operation_ok admitted

theorem session_compact_cancel_settles {params : LoadParams CompactSession} :
    Settles Before (sessionCompactCancel agent id params) Dispatched := by
  apply Settles.skip
  rintro ⟨params, load⟩
  apply Settles.skip
  intro _
  apply Settles.skip
  intro _
  apply Settles.answer
  intro server _
  exact .response _

theorem session_update_settles {params : LoadParams UpdateSession} :
    Settles Before (sessionUpdate agent id params) Dispatched := by
  apply Settles.skip
  rintro ⟨request, load⟩
  apply Settles.skip
  intro _
  apply Settles.inspect
  intro _
  apply Settles.skip
  intro _
  apply Settles.skip
  intro _
  apply defer_response_settles
  rintro server ⟨_, admitted⟩
  exact admit_operation_ok admitted

theorem session_rename_settles {params : LoadParams SessionParams} :
    Settles Before (sessionRename agent id params) Dispatched := by
  apply Settles.skip
  rintro ⟨request, load⟩
  apply Settles.inspect
  intro _
  apply Settles.skip
  intro _
  apply Settles.skip
  intro _
  apply defer_response_settles
  rintro server ⟨_, admitted⟩
  exact admit_operation_ok admitted

/-- Whether a turn has to be started is known after the admission of both. -/
theorem started_settles {needsStart : Bool}
    (admits : ∀ server, Before server → Admitted server none) :
    Settles Before
      (if needsStart then deferResponse id none else pure (.response (.success id))) Dispatched := by
  split
  · exact defer_response_settles admits
  · apply Settles.answer
    intro server _
    exact .response _

theorem input_push_settles {params : LoadParams SessionParams} :
    Settles Before (inputPush agent id params) Dispatched := by
  apply Settles.skip
  rintro ⟨request, load⟩
  apply Settles.inspect
  intro _
  apply Settles.skip
  intro _
  apply Settles.skip
  intro needsStart
  apply started_settles
  rintro server ⟨_, admitted⟩
  exact admit_operation_ok admitted

theorem input_resume_settles {params : LoadParams SessionParams} :
    Settles Before (inputResume agent id params) Dispatched := by
  apply Settles.skip
  rintro ⟨params, load⟩
  apply Settles.inspect
  intro _
  apply Settles.skip
  intro _
  apply Settles.skip
  intro needsStart
  apply started_settles
  rintro server ⟨_, admitted⟩
  exact admit_operation_ok admitted

theorem turn_wait_settles {params : Params SessionParams} :
    Settles Before (turnWait agent id params) Dispatched := by
  apply Settles.skip
  intro turn
  apply Settles.skip
  intro _
  split
  · apply Settles.inspect
    intro _
    apply Settles.change
    rintro server ⟨_, room⟩
    exact .waiter id (of_decide_eq_true (require_ok room))
  · apply Settles.answer
    intro server _
    exact .response _

theorem interaction_answer_settles {params : LoadParams InteractionAnswerParams} :
    Settles Before (interactionAnswer agent id params) Dispatched := by
  apply Settles.skip
  rintro ⟨params, load⟩
  apply Settles.skip
  intro _
  apply Settles.skip
  intro _
  apply Settles.answer
  intro server _
  exact .response _

variable (id) in
/-- Every method registers at most one task, and what it registers is admitted. -/
theorem dispatch_inner_settles (call : MethodCall) :
    Settles agent.Fresh (dispatchInner agent id call) Dispatched := by
  cases call with
  | agentPing params => exact answered_settles
  | agentReload params => exact agent_reload_settles
  | agentShutdown params => exact agent_shutdown_settles
  | profileList params => exact answered_settles
  | modelList params => exact answered_settles
  | sessionList params => exact session_list_settles
  | sessionCreate params => exact session_create_settles
  | sessionOpen params => exact session_open_settles
  | sessionClose params => exact session_close_settles
  | sessionDelete params => exact session_delete_settles
  | sessionState params => exact session_state_settles
  | sessionContext params => exact answered_settles
  | sessionCompact params => exact session_compact_settles
  | sessionCompactCancel params => exact session_compact_cancel_settles
  | sessionUpdate params => exact session_update_settles
  | sessionRename params => exact session_rename_settles
  | sessionRead params => exact admitted_query_settles
  | sessionPresentation params => exact answered_settles
  | workspaceRead params => exact workspace_query_settles
  | workspaceFiles params => exact workspace_query_settles
  | workspaceSearch params => exact workspace_query_settles
  | workspaceStatus params => exact workspace_query_settles
  | changesList params => exact admitted_query_settles
  | changesDiff params => exact admitted_query_settles
  | toolRead params => exact admitted_query_settles
  | toolOutput params => exact admitted_query_settles
  | inputPush params => exact input_push_settles
  | inputRemove params => exact commanded_settles
  | inputRecall params => exact commanded_settles
  | inputResume params => exact input_resume_settles
  | inputList params => exact answered_settles
  | turnCancel params => exact commanded_settles
  | turnWait params => exact turn_wait_settles
  | turnResult params => exact admitted_query_settles
  | interactionAnswer params => exact interaction_answer_settles
  | unknown => exact Settles.refuse

end Methods

section Runs

/-- What a request can do to the server: a refused one is a response that changes
nothing. -/
theorem dispatch_dispatched {agent : AgentAnswers} {server : RpcServer} (request : RpcRequest)
    (fresh : agent.Fresh server) :
    Dispatched server (dispatch agent request server).1 (dispatch agent request server).2 := by
  have settles := dispatch_inner_settles request.id request.call server fresh
  unfold dispatch
  split at settles
  · rename_i response after outcome
    rw [outcome, settles]
    exact .response _
  · rename_i dispatched after outcome
    rw [outcome]
    exact settles

/-- What can happen while the server runs: a request is dispatched, or a task is
completed. The future of an operation may give any result. -/
inductive Step : RpcServer → RpcServer → Prop
  | dispatch (agent : AgentAnswers) (request : RpcRequest) (server : RpcServer)
      (fresh : agent.Fresh server) : Step server (dispatch agent request server).2
  | operation {server : RpcServer} {before after : List Operation} {operation : Operation}
      (result : Except AgentError Unit)
      (inFlight : server.operations = before ++ operation :: after) :
      Step server
        ({ server with operations := before ++ after }.completeOperation operation result).2
  | waiter {server : RpcServer} {before after : List RpcId} {id : RpcId}
      (inFlight : server.waiters = before ++ id :: after) :
      Step server { server with waiters := before ++ after }
  | query {server : RpcServer} {before after : List RpcId} {id : RpcId}
      (inFlight : server.queries = before ++ id :: after) :
      Step server { server with queries := before ++ after }

/-- The reservations that the operations in flight hold. -/
def RpcServer.held (server : RpcServer) : List Reservation :=
  server.operations.filterMap Operation.reservation

/-- What the admission keeps up. -/
structure RpcServer.Sound (server : RpcServer) : Prop where
  reserved : server.reservations = server.held.toFinset
  apart : server.held.Nodup
  alone : ∀ operation ∈ server.operations, operation.reservation = some .reload →
    server.operations = [operation]
  queries : server.queries.length ≤ maxDeferredQueries
  deferred : server.waiters.length + server.operations.length ≤ maxDeferredWaiters

variable {server after : RpcServer} {dispatched : Dispatch}

theorem RpcServer.Sound.mem_reservations (sound : server.Sound) {reservation : Reservation} :
    reservation ∈ server.reservations ↔
      ∃ operation ∈ server.operations, operation.reservation = some reservation := by
  rw [sound.reserved, List.mem_toFinset, RpcServer.held, List.mem_filterMap]

/-- An admitted operation is registered with its reservation. -/
theorem RpcServer.Sound.operation (sound : server.Sound) {operation : Operation}
    (admitted : Admitted server operation.reservation) :
    (server.deferOperation operation).2.Sound := by
  have room := admitted.room
  rw [RpcServer.deferredCount] at room
  have held : (server.deferOperation operation).2.held =
      server.held ++ operation.reservation.toList := by
    rw [RpcServer.held, RpcServer.deferOperation, List.filterMap_append, RpcServer.held]
    cases reserved : operation.reservation with
    | none => simp [reserved]
    | some reservation => simp [reserved]
  refine ⟨?_, ?_, ?_, sound.queries, ?_⟩
  · rw [held]
    cases reserved : operation.reservation with
    | none => simp [RpcServer.deferOperation, reserved, sound.reserved]
    | some reservation =>
      ext other
      simp [RpcServer.deferOperation, reserved, sound.reserved, or_comm]
  · rw [held]
    apply List.Nodup.append sound.apart
    · cases operation.reservation <;> simp
    · intro reservation old new
      have taken : reservation ∈ server.reservations := by
        rw [sound.reserved]
        exact List.mem_toFinset.mpr old
      exact admitted.free reservation (by simpa using new) taken
  · intro other member reload
    rcases List.mem_append.mp member with old | new
    · exact absurd (sound.mem_reservations.mpr ⟨other, old, reload⟩) admitted.served
    · rw [List.mem_singleton.mp new] at reload ⊢
      have idle := admitted.alone reload
      rw [RpcServer.deferOperation, idle]
      rfl
  · have length : (server.deferOperation operation).2.operations.length =
        server.operations.length + 1 := List.length_append
    have waiters : (server.deferOperation operation).2.waiters = server.waiters := rfl
    rw [length, waiters]
    omega

theorem Dispatched.sound (sound : server.Sound) (done : Dispatched server dispatched after) :
    after.Sound := by
  cases done with
  | response response => exact sound
  | shutdown id => exact sound
  | operation operation admitted => exact sound.operation admitted
  | query id few =>
    refine ⟨sound.reserved, sound.apart, sound.alone, ?_, sound.deferred⟩
    rw [RpcServer.deferQuery, List.length_append]
    exact few
  | waiter id room =>
    refine ⟨sound.reserved, sound.apart, sound.alone, sound.queries, ?_⟩
    rw [RpcServer.deferredCount] at room
    have length : (server.deferWaiter id).2.waiters.length = server.waiters.length + 1 :=
      List.length_append
    have operations : (server.deferWaiter id).2.operations = server.operations := rfl
    rw [length, operations]
    omega

/-- What is left of the reservations when an operation is completed. -/
theorem RpcServer.Sound.released (sound : server.Sound) {before rest : List Operation}
    {operation : Operation} (inFlight : server.operations = before ++ operation :: rest) :
    (match operation.reservation with
      | some reservation => server.reservations.erase reservation
      | none => server.reservations) =
        ((before ++ rest).filterMap Operation.reservation).toFinset ∧
      ((before ++ rest).filterMap Operation.reservation).Nodup := by
  have reserved := sound.reserved
  have apart := sound.apart
  rw [RpcServer.held, inFlight] at reserved apart
  simp only [List.filterMap_append, List.filterMap_cons] at reserved apart ⊢
  cases holds : operation.reservation with
  | none =>
    rw [holds] at reserved apart
    exact ⟨reserved, apart⟩
  | some reservation =>
    rw [holds] at reserved apart
    obtain ⟨absent, others⟩ := List.nodup_cons.mp (List.nodup_middle.mp apart)
    refine ⟨?_, others⟩
    ext other
    rw [reserved, Finset.mem_erase, List.mem_toFinset, List.mem_toFinset]
    constructor
    · rintro ⟨different, member⟩
      simpa [different] using member
    · intro member
      refine ⟨?_, ?_⟩
      · rintro rfl
        exact absent member
      · rcases List.mem_append.mp member with first | last
        · exact List.mem_append_left _ first
        · exact List.mem_append_right _ (List.mem_cons_of_mem _ last)

/-- A completed operation gives its reservation back, and may go on as a waiter. -/
theorem RpcServer.Sound.complete (sound : server.Sound) {before rest : List Operation}
    {operation : Operation} (inFlight : server.operations = before ++ operation :: rest)
    (result : Except AgentError Unit) :
    ({ server with operations := before ++ rest }.completeOperation operation result).2.Sound := by
  obtain ⟨reserved, apart⟩ := sound.released inFlight
  have deferred := sound.deferred
  rw [inFlight, List.length_append, List.length_cons] at deferred
  have alone : ∀ other ∈ before ++ rest, other.reservation = some .reload →
      before ++ rest = [other] := by
    intro other member reload
    -- A reload is the only operation, so the completed one is not another.
    have still : other ∈ server.operations := by
      rw [inFlight]
      rcases List.mem_append.mp member with first | last
      · exact List.mem_append_left _ first
      · exact List.mem_append_right _ (List.mem_cons_of_mem _ last)
    have one := congrArg List.length (sound.alone other still reload)
    have some := List.length_pos_of_mem member
    rw [inFlight] at one
    simp only [List.length_append, List.length_cons, List.length_nil] at one some
    omega
  cases replied : operation.apply result with
  | response response =>
    simp only [RpcServer.completeOperation, replied]
    refine ⟨reserved, apart, alone, sound.queries, ?_⟩
    dsimp only
    rw [List.length_append]
    omega
  | waiter id =>
    simp only [RpcServer.completeOperation, replied]
    refine ⟨reserved, apart, alone, sound.queries, ?_⟩
    dsimp only
    rw [List.length_append, List.length_append, List.length_singleton]
    omega

/-- What the admission keeps up holds after every step. -/
theorem Step.sound (step : Step server after) (sound : server.Sound) : after.Sound := by
  cases step with
  | dispatch agent request server fresh => exact (dispatch_dispatched request fresh).sound sound
  | operation result inFlight => exact sound.complete inFlight result
  | waiter inFlight =>
    refine ⟨sound.reserved, sound.apart, sound.alone, sound.queries, ?_⟩
    have deferred := sound.deferred
    rw [inFlight] at deferred
    simp only [List.length_append, List.length_cons] at deferred ⊢
    omega
  | query inFlight =>
    refine ⟨sound.reserved, sound.apart, sound.alone, ?_, sound.deferred⟩
    have queries := sound.queries
    rw [inFlight] at queries
    simp only [List.length_append, List.length_cons] at queries ⊢
    omega

theorem new_sound : RpcServer.new.Sound := by
  refine ⟨rfl, List.nodup_nil, ?_, Nat.zero_le _, Nat.zero_le _⟩
  intro operation member
  cases member

/-- The reservation set is exactly what the operations in flight hold. In every state
that a run of dispatched requests and completed tasks reaches, where the ids drawn for
new Sessions are fresh, each reservation belongs to an operation in flight and no two
operations hold the same one, a reload in flight is the only operation, at most 4
queries are in flight, and the waiters and operations together are at most 32. Every
request that is not deferred, refused or not, leaves the reservations and all three
task sets as they were. -/
theorem rpc_admission (reached : Relation.ReflTransGen Step .new server) :
    (∀ reservation, reservation ∈ server.reservations ↔
      ∃ operation ∈ server.operations, operation.reservation = some reservation) ∧
    (server.operations.filterMap Operation.reservation).Nodup ∧
    (∀ operation ∈ server.operations, operation.reservation = some .reload →
      server.operations = [operation]) ∧
    server.queries.length ≤ 4 ∧
    server.waiters.length + server.operations.length ≤ 32 ∧
    ∀ (agent : AgentAnswers) (request : RpcRequest), agent.Fresh server →
      (dispatch agent request server).1 ≠ .deferred → (dispatch agent request server).2 = server := by
  have sound : server.Sound := by
    induction reached with
    | refl => exact new_sound
    | tail _ step inductionHypothesis => exact step.sound inductionHypothesis
  refine ⟨fun _ => sound.mem_reservations, sound.apart, sound.alone, sound.queries,
    sound.deferred, ?_⟩
  intro agent request fresh answered
  have done := dispatch_dispatched request fresh
  generalize dispatch agent request server = outcome at answered done ⊢
  obtain ⟨dispatched, after⟩ := outcome
  cases done with
  | response response => rfl
  | shutdown id => rfl
  | operation operation admitted => exact absurd rfl answered
  | waiter id room => exact absurd rfl answered
  | query id few => exact absurd rfl answered

/-- No Session is loaded, and every call succeeds. -/
def sampleAgent : AgentAnswers :=
  { loadedSession := fun _ => none, reserveSnapshot := true, newSessionId := none
    prepareReload := .ok (), prepareCreate := .ok (), beginClose := .ok ()
    prepareCompactFor := .ok (), prepareUpdateFor := .ok (), prepareRenameFor := .ok ()
    sessionContext := .ok (), sessionPresentation := .ok (), listInputs := .ok ()
    cancelCompaction := .ok (), cancel := .ok (), answer := .ok (), removeInput := .ok ()
    waitReceiver := .ok (), acceptInput := .ok false, acceptResume := .ok false
    prepareWorkspaceStatus := .ok (), prepareChangesList := .ok (), prepareChangesDiff := .ok () }

def sampleSession : SessionId := ⟨Vector.replicate 16 1⟩

def openRequest : RpcRequest :=
  { id := .number "1", call := .sessionOpen (some ⟨sampleSession⟩) }

def deleteRequest : RpcRequest :=
  { id := .number "2", call := .sessionDelete (some ⟨sampleSession⟩) }

/-- The server while the Session is being opened. -/
def openingServer : RpcServer := (dispatch sampleAgent openRequest .new).2

/-- A Session that is being opened cannot be deleted, and stays reserved. -/
theorem opening_session_is_reserved :
    .session sampleSession ∈ openingServer.reservations ∧
    openingServer.waiters.length + openingServer.operations.length ≤ 32 ∧
    (dispatch sampleAgent deleteRequest openingServer).1 =
      .response (agentError (.number "2") .sessionBusy) ∧
    (dispatch sampleAgent deleteRequest openingServer).2 = openingServer := by
  have fresh (server : RpcServer) : sampleAgent.Fresh server := by
    rintro sessionId ⟨⟩
  have busy : (dispatch sampleAgent deleteRequest openingServer).1 =
      .response (agentError (.number "2") .sessionBusy) := rfl
  obtain ⟨reserved, _, _, _, few, unchanged⟩ :=
    rpc_admission (.single (.dispatch sampleAgent openRequest .new (fresh _)))
  refine ⟨(reserved _).mpr ⟨_, List.mem_singleton_self _, rfl⟩, few, busy, ?_⟩
  apply unchanged sampleAgent deleteRequest (fresh _)
  intro deferred
  cases busy.symm.trans deferred

end Runs

end MinicoreAgent.Rpc

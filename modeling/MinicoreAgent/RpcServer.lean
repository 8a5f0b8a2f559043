import Mathlib.Data.Finset.Basic
import MinicoreAgent.Lib.Handlers

/-!
# The RPC server's deferred requests

The server answers a request at once or defers it: to a query, to a waiter, or to an
operation, which may hold a reservation of a Session or of the whole server until it is
completed. A completed operation answers, or goes on as a waiter. Each method checks
its parameters, the load, the admission and the Agent in an order of its own.

The Agent is only seen through its answers. Reading a request, encoding a response and
sending it are left out, as are the methods' results.
-/
namespace MinicoreAgent.Rpc

open Handlers

structure SessionId where
  bytes : Vector UInt8 16
  deriving DecidableEq

inductive RpcId
  | number (value : String)
  | string (text : String)
  deriving DecidableEq

section Responses

/-- `retryable` is the one field of a Runtime error that a response shows. -/
inductive AgentError
  | config
  | sessionNotFound
  | sessionNotLoaded
  | sessionAlreadyLoaded
  | sessionBusy
  | sessionBlocked
  | turnNotFound
  | interactionNotFound
  | invalidInteraction
  | invalidInput
  | profileNotFound
  | modelNotFound
  | invalidSessionSettings
  | workspace
  | store
  | storeUnavailable
  | invalidState
  | reloadRequiresRestart
  | reloadUnavailable
  | inputQueueFull
  | inputNotQueued
  | missingLoad
  | staleLoad
  | staleResult
  | runtime (retryable : Bool)
  | internal
  | eventStreamTaken
  | invalidArguments
  | rpcSerialization
  | queryLimit
  | toolNotFound
  | contextUncompressible
  | io
  deriving DecidableEq

inductive RpcResponse
  | success (id : RpcId)
  | error (id : Option RpcId) (code : Int) (message kind : String) (retryable : Bool)
      (acceptance : Option String)
  deriving DecidableEq

/-- `rejected_input`: an error says that the input was not accepted. -/
def RpcResponse.rejectedInput : RpcResponse → RpcResponse
  | .error id code message kind retryable _ =>
    .error id code message kind retryable (some "rejected")
  | response => response

def methodNotFound (id : RpcId) : RpcResponse :=
  .error (some id) (-32601) "method not found" "method_not_found" false none

def invalidParams (id : Option RpcId) : RpcResponse :=
  .error id (-32602) "invalid params" "invalid_params" false none

def resourceExhausted (id : RpcId) : RpcResponse :=
  .error (some id) (-32019) "too many deferred requests" "resource_exhausted" true none

def agentError (id : RpcId) (error : AgentError) : RpcResponse :=
  let response (code : Int) (message kind : String) (retryable : Bool) : RpcResponse :=
    .error (some id) code message kind retryable none
  match error with
  | .sessionNotFound => response (-32001) "session not found" "session_not_found" false
  | .sessionNotLoaded => response (-32002) "session is not loaded" "session_not_loaded" false
  | .sessionBusy => response (-32003) "session is busy" "session_busy" true
  | .sessionBlocked => response (-32004) "session is blocked" "session_blocked" false
  | .sessionAlreadyLoaded | .invalidInteraction | .invalidState =>
    response (-32005) "invalid state" "invalid_state" false
  | .interactionNotFound =>
    response (-32006) "interaction not found" "interaction_not_found" false
  | .turnNotFound => response (-32007) "turn not found" "turn_not_found" false
  | .toolNotFound => response (-32021) "tool reference not found" "tool_not_found" false
  | .contextUncompressible =>
    response (-32022) "context cannot be reduced without dropping user constraints"
      "context_uncompressible" false
  | .profileNotFound => response (-32008) "profile not found" "profile_not_found" false
  | .modelNotFound => response (-32009) "model not found" "model_not_found" false
  | .invalidSessionSettings =>
    response (-32014) "invalid session settings" "invalid_session_settings" false
  | .workspace => response (-32010) "workspace error" "workspace_error" false
  | .storeUnavailable => response (-32011) "store error" "store_error" true
  | .store => response (-32011) "store error" "store_error" false
  | .inputQueueFull => response (-32024) "input queue is full" "input_queue_full" false
  | .inputNotQueued => response (-32025) "input is not queued" "input_not_queued" false
  | .missingLoad => response (-32026) "load is required" "missing_load" false
  | .staleLoad => response (-32027) "load is stale" "stale_load" false
  | .staleResult => response (-32028) "result is stale" "stale_result" false
  | .reloadRequiresRestart =>
    response (-32017) "configuration reload requires restart" "reload_requires_restart" false
  | .reloadUnavailable =>
    response (-32018) "configuration reload is unavailable" "reload_unavailable" false
  | .runtime retryable => response (-32013) "runtime error" "runtime_error" retryable
  | .invalidInput => invalidParams (some id)
  | .queryLimit => response (-32020) "query limit reached" "query_limit" true
  | .config => response (-32023) "configuration error" "config_error" false
  | .internal | .eventStreamTaken | .invalidArguments | .rpcSerialization | .io =>
    response (-32603) "internal error" "internal_error" false

def queryError (id : RpcId) (error : AgentError) : RpcResponse :=
  if error = .invalidArguments then invalidParams (some id) else agentError id error

def agentResult (id : RpcId) : Except AgentError Unit → RpcResponse
  | .ok _ => .success id
  | .error error => agentError id error

end Responses

section Server

inductive Reservation
  | session (id : SessionId)
  | reload
  deriving DecidableEq

/-- The answer of an operation, or the request it goes on waiting for. -/
inductive OperationReply
  | response (response : RpcResponse)
  | waiter (id : RpcId)

/-- An operation in flight: what it reserves, and what it does with the result of its
future when it is completed. -/
structure Operation where
  reservation : Option Reservation
  apply : Except AgentError Unit → OperationReply

/-- The three task sets, and the reservations. A query or waiter is known by the
request it answers. -/
structure RpcServer where
  waiters : List RpcId
  queries : List RpcId
  operations : List Operation
  reservations : Finset Reservation

def RpcServer.new : RpcServer :=
  { waiters := [], queries := [], operations := [], reservations := ∅ }

inductive Dispatch
  | response (response : RpcResponse)
  | deferred
  | shutdown (id : RpcId)

def maxDeferredWaiters : Nat := 32

def maxDeferredQueries : Nat := 4

namespace RpcServer

variable (server : RpcServer)

def deferredCount : Nat :=
  server.waiters.length + server.queries.length + server.operations.length

def admitOperation (id : RpcId) (reservation : Option Reservation) : Except RpcResponse Unit :=
  if .reload ∈ server.reservations ∨
      (reservation = some .reload ∧ server.operations ≠ []) ∨
      reservation.any (· ∈ server.reservations) then
    .error (agentError id .sessionBusy)
  else if server.deferredCount ≥ maxDeferredWaiters then .error (resourceExhausted id)
  else .ok ()

def queryCapacityAvailable : Bool :=
  server.queries.length < maxDeferredQueries && server.deferredCount < maxDeferredWaiters

def admitQuery (id : RpcId) (validation : Except AgentError Unit) : Except RpcResponse Unit :=
  match validation with
  | .error error => .error (queryError id error)
  | .ok _ => if server.queryCapacityAvailable then .ok () else .error (resourceExhausted id)

def deferQuery (id : RpcId) : Dispatch × RpcServer :=
  (.deferred, { server with queries := server.queries ++ [id] })

/-- `spawn_snapshot_reply`: a snapshot reply is always a waiter, and runs as a query. -/
def spawnSnapshotReply (id : RpcId) : Dispatch × RpcServer :=
  server.deferQuery id

def deferWaiter (id : RpcId) : Dispatch × RpcServer :=
  (.deferred, { server with waiters := server.waiters ++ [id] })

def deferOperation (operation : Operation) : Dispatch × RpcServer :=
  (.deferred,
    { server with
      operations := server.operations ++ [operation]
      reservations :=
        match operation.reservation with
        | some reservation => insert reservation server.reservations
        | none => server.reservations })

/-- `complete_operation` for an operation that has left its task set. -/
def completeOperation (operation : Operation) (result : Except AgentError Unit) :
    Option RpcResponse × RpcServer :=
  let released :=
    { server with
      reservations :=
        match operation.reservation with
        | some reservation => server.reservations.erase reservation
        | none => server.reservations }
  match operation.apply result with
  | .response response => (some response, released)
  | .waiter id => (none, { released with waiters := released.waiters ++ [id] })

end RpcServer

end Server

section Requests

/-- What the Agent and its Sessions answer while a request is dispatched: the loads of
the loaded Sessions, whether a snapshot can be staged, the id that is drawn for a new
Session, and the outcome of each call. `accept_input` and `accept_resume` also tell
whether a turn has to be started. -/
structure AgentAnswers where
  loadedSession : SessionId → Option String
  reserveSnapshot : Bool
  newSessionId : Option SessionId
  prepareReload : Except AgentError Unit
  prepareCreate : Except AgentError Unit
  beginClose : Except AgentError Unit
  prepareCompactFor : Except AgentError Unit
  prepareUpdateFor : Except AgentError Unit
  prepareRenameFor : Except AgentError Unit
  sessionContext : Except AgentError Unit
  sessionPresentation : Except AgentError Unit
  listInputs : Except AgentError Unit
  cancelCompaction : Except AgentError Unit
  cancel : Except AgentError Unit
  answer : Except AgentError Unit
  removeInput : Except AgentError Unit
  waitReceiver : Except AgentError Unit
  acceptInput : Except AgentError Bool
  acceptResume : Except AgentError Bool
  prepareWorkspaceStatus : Except AgentError Unit
  prepareChangesList : Except AgentError Unit
  prepareChangesDiff : Except AgentError Unit

/-- The parameters of a method that names a Session. -/
structure SessionParams where
  sessionId : SessionId

/-- The parameters of a query, with the outcome of their validation. -/
structure QueryParams where
  sessionId : SessionId
  validation : Except AgentError Unit

structure CompactSession where
  sessionId : SessionId
  operationId : String

structure UpdateSession where
  sessionId : SessionId
  model : Option String
  reasoning : Option String

/-- The parameters of `interaction.answer`; `answer` tells whether it is one for the
Runtime. -/
structure InteractionAnswerParams where
  sessionId : SessionId
  answer : Bool

def UpdateSession.hasField (request : UpdateSession) : Bool :=
  request.model.isSome || request.reasoning.isSome

/-- `valid_operation_id`. -/
def validOperationId (value : String) : Bool :=
  value.utf8ByteSize ≠ 0 && value.utf8ByteSize ≤ 128 &&
    value.toUTF8.toList.all fun byte => 0x21 ≤ byte && byte ≤ 0x7e

/-- Decoded parameters, or none where they are not those of the method. -/
abbrev Params (Value : Type) := Option Value

/-- Decoded parameters with the load that is taken out of them first. -/
abbrev LoadParams (Value : Type) := Option (Value × Option String)

/-- A method with its parameters. -/
inductive MethodCall
  | agentPing (params : Params Unit)
  | agentReload (params : Params Unit)
  | agentShutdown (params : Params Unit)
  | profileList (params : Params Unit)
  | modelList (params : Params Unit)
  | sessionList (params : Params Unit)
  | sessionCreate (params : Params Unit)
  | sessionOpen (params : Params SessionParams)
  | sessionClose (params : LoadParams SessionParams)
  | sessionDelete (params : Params SessionParams)
  | sessionState (params : Params SessionParams)
  | sessionContext (params : Params SessionParams)
  | sessionCompact (params : LoadParams CompactSession)
  | sessionCompactCancel (params : LoadParams CompactSession)
  | sessionUpdate (params : LoadParams UpdateSession)
  | sessionRename (params : LoadParams SessionParams)
  | sessionRead (params : Params QueryParams)
  | sessionPresentation (params : Params SessionParams)
  | workspaceRead (params : Params QueryParams)
  | workspaceFiles (params : Params QueryParams)
  | workspaceSearch (params : Params QueryParams)
  | workspaceStatus (params : Params QueryParams)
  | changesList (params : Params QueryParams)
  | changesDiff (params : Params QueryParams)
  | toolRead (params : Params QueryParams)
  | toolOutput (params : Params QueryParams)
  | inputPush (params : LoadParams SessionParams)
  | inputRemove (params : LoadParams SessionParams)
  | inputRecall (params : LoadParams SessionParams)
  | inputResume (params : LoadParams SessionParams)
  | inputList (params : Params SessionParams)
  | turnCancel (params : LoadParams SessionParams)
  | turnWait (params : Params SessionParams)
  | turnResult (params : Params QueryParams)
  | interactionAnswer (params : LoadParams InteractionAnswerParams)
  | unknown

structure RpcRequest where
  id : RpcId
  call : MethodCall

end Requests

section Methods

abbrev Method := Handler RpcServer RpcResponse Dispatch

variable (agent : AgentAnswers) (id : RpcId)

/-- Parameters that were decoded. -/
def paramsOrError {Value : Type} : Option Value → Except RpcResponse Value
  | some params => .ok params
  | none => .error (invalidParams (some id))

/-- A call to the Agent that may fail. -/
def orAgentError {Value : Type} : Except AgentError Value → Except RpcResponse Value
  | .ok value => .ok value
  | .error error => .error (agentError id error)

def orQueryError : Except AgentError Unit → Except RpcResponse Unit
  | .ok _ => .ok ()
  | .error error => .error (queryError id error)

def validateLoad (current : String) : Option String → Except RpcResponse Unit
  | none => .error (agentError id .missingLoad)
  | some load => if load ≠ current then .error (agentError id .staleLoad) else .ok ()

def loadedSessionWithLoad (sessionId : SessionId) (load : Option String) :
    Except RpcResponse Unit :=
  if load = none then .error (agentError id .missingLoad)
  else
    match agent.loadedSession sessionId with
    | none => .error (agentError id .staleLoad)
    | some current => validateLoad id current load

/-- Refuse unless the condition holds. -/
def require (condition : Bool) (response : RpcResponse) : Except RpcResponse Unit :=
  if condition then .ok () else .error response

/-- A method that answers at once. -/
def answered {Value : Type} (result : Except AgentError Unit) (params : Params Value) : Method := do
  let _ ← inspect fun _ => paramsOrError id params
  pure (.response (agentResult id result))

/-- A method of a loaded Session that answers at once. -/
def commanded (result : Except AgentError Unit) (params : LoadParams SessionParams) : Method := do
  let (params, load) ← inspect fun _ => paramsOrError id params
  let _ ← inspect fun _ => loadedSessionWithLoad agent id params.sessionId load
  pure (.response (agentResult id result))

/-- A query that is admitted before it is prepared. -/
def admittedQuery (prepare : Except AgentError Unit) (params : Params QueryParams) : Method := do
  let request ← inspect fun _ => paramsOrError id params
  let _ ← inspect fun server : RpcServer => server.admitQuery id request.validation
  let _ ← inspect fun _ => orQueryError id prepare
  change fun server => server.deferQuery id

/-- A query of a loaded Session: the Session is looked for before the capacity. -/
def workspaceQuery (prepare : Except AgentError Unit) (params : Params QueryParams) : Method := do
  let request ← inspect fun _ => paramsOrError id params
  let _ ← inspect fun _ => orQueryError id request.validation
  let _ ← inspect fun _ =>
    require (agent.loadedSession request.sessionId).isSome (agentError id .sessionNotLoaded)
  let _ ← inspect fun server : RpcServer =>
    require server.queryCapacityAvailable (resourceExhausted id)
  let _ ← inspect fun _ => orQueryError id prepare
  change fun server => server.deferQuery id

/-- `defer_response`: an operation that only answers. -/
def deferResponse (reservation : Option Reservation) : Method :=
  change fun server => server.deferOperation
    { reservation := reservation, apply := fun result => .response (agentResult id result) }

/-- An operation that goes on as a waiter when it succeeds. -/
def deferWaiting (reservation : Option Reservation) : Method :=
  change fun server => server.deferOperation
    { reservation := reservation
      apply := fun result =>
        match result with
        | .ok _ => .waiter id
        | .error error => .response (agentError id error) }

def agentReload (params : Params Unit) : Method := do
  let _ ← inspect fun _ => paramsOrError id params
  let _ ← inspect fun server : RpcServer => server.admitOperation id (some .reload)
  let _ ← inspect fun _ => orAgentError id agent.prepareReload
  deferResponse id (some .reload)

def agentShutdown (params : Params Unit) : Method := do
  let _ ← inspect fun _ => paramsOrError id params
  pure (.shutdown id)

def sessionList (params : Params Unit) : Method := do
  let _ ← inspect fun _ => paramsOrError id params
  let _ ← inspect fun server : RpcServer => server.admitOperation id none
  deferResponse id none

/-- The new Session is admitted without a reservation, as its id is not drawn yet. -/
def sessionCreate (params : Params Unit) : Method := do
  let _ ← inspect fun _ => paramsOrError id params
  let _ ← inspect fun server : RpcServer => server.admitOperation id none
  let _ ← inspect fun _ => require agent.reserveSnapshot (resourceExhausted id)
  let sessionId ← inspect fun _ =>
    match agent.newSessionId with
    | some sessionId => .ok sessionId
    | none => .error (agentError id .internal)
  let _ ← inspect fun _ => orAgentError id agent.prepareCreate
  deferWaiting id (some (.session sessionId))

/-- A loaded Session is only sampled; it needs no room among the deferred requests
beyond that of a query. -/
def sessionOpen (params : Params SessionParams) : Method := do
  let params ← inspect fun _ => paramsOrError id params
  let _ ← inspect fun server : RpcServer =>
    server.admitOperation id (some (.session params.sessionId))
  let _ ← inspect fun _ => require agent.reserveSnapshot (resourceExhausted id)
  match agent.loadedSession params.sessionId with
  | some _ => do
    let _ ← inspect fun server : RpcServer =>
      require (server.queries.length < maxDeferredQueries) (resourceExhausted id)
    change fun server => server.spawnSnapshotReply id
  | none => deferWaiting id (some (.session params.sessionId))

def sessionClose (params : LoadParams SessionParams) : Method := do
  let (params, load) ← inspect fun _ => paramsOrError id params
  let _ ← inspect fun server : RpcServer =>
    server.admitOperation id (some (.session params.sessionId))
  let _ ← inspect fun _ => loadedSessionWithLoad agent id params.sessionId load
  let _ ← inspect fun _ => orAgentError id agent.beginClose
  deferResponse id (some (.session params.sessionId))

def sessionDelete (params : Params SessionParams) : Method := do
  let params ← inspect fun _ => paramsOrError id params
  let _ ← inspect fun server : RpcServer =>
    server.admitOperation id (some (.session params.sessionId))
  let _ ← inspect fun _ =>
    require (agent.loadedSession params.sessionId).isNone (agentError id .sessionAlreadyLoaded)
  deferResponse id (some (.session params.sessionId))

/-- Control samples are not bound by the number of deferred requests. -/
def sessionState (params : Params SessionParams) : Method := do
  let params ← inspect fun _ => paramsOrError id params
  let _ ← inspect fun _ =>
    require (agent.loadedSession params.sessionId).isSome (agentError id .sessionNotLoaded)
  let _ ← inspect fun server : RpcServer =>
    require (server.queries.length < maxDeferredQueries) (resourceExhausted id)
  let _ ← inspect fun _ => require agent.reserveSnapshot (resourceExhausted id)
  change fun server => server.spawnSnapshotReply id

def sessionCompact (params : LoadParams CompactSession) : Method := do
  let (request, load) ← inspect fun _ => paramsOrError id params
  let _ ← inspect fun server : RpcServer =>
    server.admitOperation id (some (.session request.sessionId))
  let _ ← inspect fun _ => loadedSessionWithLoad agent id request.sessionId load
  let _ ← inspect fun _ => orAgentError id agent.prepareCompactFor
  deferWaiting id (some (.session request.sessionId))

def sessionCompactCancel (params : LoadParams CompactSession) : Method := do
  let (params, load) ← inspect fun _ => paramsOrError id params
  let _ ← inspect fun _ => loadedSessionWithLoad agent id params.sessionId load
  let _ ← inspect fun _ => require (validOperationId params.operationId) (invalidParams (some id))
  pure (.response (agentResult id agent.cancelCompaction))

def sessionUpdate (params : LoadParams UpdateSession) : Method := do
  let (request, load) ← inspect fun _ => paramsOrError id params
  let _ ← inspect fun _ => require request.hasField (invalidParams (some id))
  let _ ← inspect fun server : RpcServer =>
    server.admitOperation id (some (.session request.sessionId))
  let _ ← inspect fun _ => loadedSessionWithLoad agent id request.sessionId load
  let _ ← inspect fun _ => orAgentError id agent.prepareUpdateFor
  deferResponse id (some (.session request.sessionId))

/-- A Session that is not loaded can be renamed, but not with a load. -/
def sessionRename (params : LoadParams SessionParams) : Method := do
  let (request, load) ← inspect fun _ => paramsOrError id params
  let _ ← inspect fun server : RpcServer =>
    server.admitOperation id (some (.session request.sessionId))
  let _ ← inspect fun _ =>
    match agent.loadedSession request.sessionId with
    | some current => validateLoad id current load
    | none => require load.isNone (agentError id .staleLoad)
  let _ ← inspect fun _ => orAgentError id agent.prepareRenameFor
  deferResponse id (some (.session request.sessionId))

/-- An input that does not start a turn is answered at once, after the same admission. -/
def inputPush (params : LoadParams SessionParams) : Method := do
  let (request, load) ← inspect fun _ => paramsOrError id params
  let _ ← inspect fun server : RpcServer => server.admitOperation id none
  let _ ← inspect fun _ => loadedSessionWithLoad agent id request.sessionId load
  let needsStart ← inspect fun _ => orAgentError id agent.acceptInput
  if needsStart then deferResponse id none else pure (.response (.success id))

def inputResume (params : LoadParams SessionParams) : Method := do
  let (params, load) ← inspect fun _ => paramsOrError id params
  let _ ← inspect fun server : RpcServer => server.admitOperation id none
  let _ ← inspect fun _ => loadedSessionWithLoad agent id params.sessionId load
  let needsStart ← inspect fun _ => orAgentError id agent.acceptResume
  if needsStart then deferResponse id none else pure (.response (.success id))

def turnWait (params : Params SessionParams) : Method := do
  let turn ← inspect fun _ => paramsOrError id params
  let _ ← inspect fun _ =>
    require (agent.loadedSession turn.sessionId).isSome (agentError id .sessionNotLoaded)
  match agent.waitReceiver with
  | .ok _ => do
    let _ ← inspect fun server : RpcServer =>
      require (server.deferredCount < maxDeferredWaiters) (resourceExhausted id)
    change fun server => server.deferWaiter id
  | .error error => pure (.response (agentError id error))

def interactionAnswer (params : LoadParams InteractionAnswerParams) : Method := do
  let (params, load) ← inspect fun _ => paramsOrError id params
  let _ ← inspect fun _ => require params.answer (invalidParams (some id))
  let _ ← inspect fun _ => loadedSessionWithLoad agent id params.sessionId load
  pure (.response (agentResult id agent.answer))

def dispatchInner : MethodCall → Method
  | .agentPing params => answered id (.ok ()) params
  | .agentReload params => agentReload agent id params
  | .agentShutdown params => agentShutdown id params
  | .profileList params => answered id (.ok ()) params
  | .modelList params => answered id (.ok ()) params
  | .sessionList params => sessionList id params
  | .sessionCreate params => sessionCreate agent id params
  | .sessionOpen params => sessionOpen agent id params
  | .sessionClose params => sessionClose agent id params
  | .sessionDelete params => sessionDelete agent id params
  | .sessionState params => sessionState agent id params
  | .sessionContext params => answered id agent.sessionContext params
  | .sessionCompact params => sessionCompact agent id params
  | .sessionCompactCancel params => sessionCompactCancel agent id params
  | .sessionUpdate params => sessionUpdate agent id params
  | .sessionRename params => sessionRename agent id params
  | .sessionRead params => admittedQuery id (.ok ()) params
  | .sessionPresentation params => answered id agent.sessionPresentation params
  | .workspaceRead params => workspaceQuery agent id (.ok ()) params
  | .workspaceFiles params => workspaceQuery agent id (.ok ()) params
  | .workspaceSearch params => workspaceQuery agent id (.ok ()) params
  | .workspaceStatus params => workspaceQuery agent id agent.prepareWorkspaceStatus params
  | .changesList params => admittedQuery id agent.prepareChangesList params
  | .changesDiff params => admittedQuery id agent.prepareChangesDiff params
  | .toolRead params => admittedQuery id (.ok ()) params
  | .toolOutput params => admittedQuery id (.ok ()) params
  | .inputPush params => inputPush agent id params
  | .inputRemove params => commanded agent id agent.removeInput params
  | .inputRecall params => commanded agent id (.ok ()) params
  | .inputResume params => inputResume agent id params
  | .inputList params => answered id agent.listInputs params
  | .turnCancel params => commanded agent id agent.cancel params
  | .turnWait params => turnWait agent id params
  | .turnResult params => admittedQuery id (.ok ()) params
  | .interactionAnswer params => interactionAnswer agent id params
  | .unknown => throw (methodNotFound id)

def MethodCall.isPush : MethodCall → Bool
  | .inputPush _ => true
  | _ => false

/-- `dispatch`: how a request is answered, and the server afterwards. -/
def dispatch (request : RpcRequest) (server : RpcServer) : Dispatch × RpcServer :=
  match (dispatchInner agent request.id request.call).on server with
  | (.ok dispatched, after) => (dispatched, after)
  | (.error response, after) =>
    (.response (if request.call.isPush then response.rejectedInput else response), after)

end Methods

end MinicoreAgent.Rpc

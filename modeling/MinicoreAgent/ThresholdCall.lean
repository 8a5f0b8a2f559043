import MinicoreAgent.CleanExchanges
import MinicoreAgent.Lib.Runs
import MinicoreAgent.UtilityUsage

/-!
# Compaction at a request boundary

At the start of a turn `consolidate` may have a model summarize what is old. It returns early
where there is nothing to do. Otherwise it marks the turn and the source of the attempt,
shows an observation and waits for the summary. From there on it ends with a request, with an
error, or by being dropped while it waits, and the guard that it holds settles what the body
did not.
-/
namespace MinicoreAgent.Threshold

open Compaction (ConsolidatedSummary EphemeralGroupKey EphemeralSummary ModelMessage Projection
  ProjectionState Runtime foldHistoryWithRanges outside rangeKeys summaryDataMessage
  systemMessage validateCleanToolExchanges)
open HistoryStore (AssistantHistory HistoryItem)
open Utility (CompactionUtilityUsage ObservationGuard UtilityError mergeUtilityUsage)

variable {LoopId CallId Payload Replay Digest Tool Limits Reasoning : Type}

section State

structure CompactionPolicy where
  triggerPercent : Nat
  targetPercent : Nat

structure InputBudget where
  hardTokens : Nat
  triggerTokens : Nat
  targetTokens : Nat
deriving DecidableEq

/-- `CompactionPolicy::budget`, with the saturating product of `u64`. -/
def CompactionPolicy.budget (policy : CompactionPolicy) (contextWindow : Nat) : InputBudget where
  hardTokens := contextWindow
  triggerTokens := min (contextWindow * policy.triggerPercent) (2 ^ 64 - 1) / 100
  targetTokens := min (contextWindow * policy.targetPercent) (2 ^ 64 - 1) / 100

structure AutomaticCompactionObservation (LoopId : Type) where
  operationId : String
  loopId : Option LoopId
  requestIndex : Option Nat
  beforeTokens : Option Nat
  afterTokens : Option Nat
  utilityBeforeTokens : Option Nat
  utilityAfterTokens : Option Nat
  hardTokens : Nat
  triggerTokens : Nat
  targetTokens : Nat
  utilityUsage : Option CompactionUtilityUsage
  outcome : String
deriving DecidableEq

/-- `ThresholdState`, with `current` and `last` of its observation. -/
structure ThresholdState (LoopId Digest : Type) where
  consolidated : Option (ConsolidatedSummary LoopId Digest)
  attempted : Option LoopId
  source : Option Digest
  current : Option (AutomaticCompactionObservation LoopId)
  last : Option (AutomaticCompactionObservation LoopId)

/-- `CompactionState`, as far as a boundary reads or writes it. -/
structure CompactionState (LoopId Digest : Type) where
  threshold : ThresholdState LoopId Digest
  ephemeral : Option (EphemeralSummary LoopId Digest)
  supersededUsage : Option (LoopId × Nat)
  summaryGeneration : UInt64

structure ModelRequest (CallId Payload Replay Tool Limits Reasoning : Type) where
  messages : List (ModelMessage CallId Payload Replay)
  tools : List Tool
  limits : Limits
  reasoning : Reasoning

/-- What the source of an attempt is hashed from. -/
structure SourceIdentity (Digest Tool Reasoning : Type) where
  originalSummaryHash : Digest
  covered : List (EphemeralGroupKey Digest)
  modelRef : String
  contextWindow : Nat
  system : List Char
  tools : List Tool
  reasoning : Reasoning
  triggerTokens : Nat
  budgetAddress : Nat

/-- What a boundary calls outside: the checks and estimates of a request, the tokens that an
answer reported, the display of a loop, and the hash of a serialized source. -/
structure Services (LoopId CallId Payload Replay Digest Tool Limits Reasoning : Type) where
  acceptsRequest : ModelRequest CallId Payload Replay Tool Limits Reasoning → Bool
  estimateRequestBytes : ModelRequest CallId Payload Replay Tool Limits Reasoning →
    Option LoopId → Option Nat → Option Nat
  estimateRequestTokens : ModelRequest CallId Payload Replay Tool Limits Reasoning →
    Option LoopId → Option Nat → Option Nat
  contextTokens : AssistantHistory Payload Replay → Option Nat
  display : LoopId → String
  sourceHash : SourceIdentity Digest Tool Reasoning → Option Digest
  modelRef : String
  contextWindow : Nat
  policy : CompactionPolicy
  budgetAddress : Nat

def Services.budget
    (services : Services LoopId CallId Payload Replay Digest Tool Limits Reasoning) : InputBudget :=
  services.policy.budget services.contextWindow

/-- `ProjectionInput`, but for the deadline and the cancellation. -/
structure ProjectionInput (LoopId Payload Replay Tool Limits Reasoning : Type) where
  system : List Char
  summary : Option (List Char)
  base : List (HistoryItem Payload Replay)
  appended : List (HistoryItem Payload Replay)
  tools : List Tool
  reasoning : Reasoning
  limits : Limits
  loopId : LoopId
  requestIndex : Nat
  rejectedBodyBytes : Option Nat

structure ProjectionResult (CallId Payload Replay Tool Limits Reasoning : Type) where
  request : ModelRequest CallId Payload Replay Tool Limits Reasoning
  usage : Option CompactionUtilityUsage
  compacted : Bool

def ProjectionResult.unchanged
    (request : ModelRequest CallId Payload Replay Tool Limits Reasoning) :
    ProjectionResult CallId Payload Replay Tool Limits Reasoning :=
  { request := request, usage := none, compacted := false }

structure ProjectionFailure where
  error : UtilityError
  usage : Option CompactionUtilityUsage

/-- What `consolidate` returns. -/
abbrev Return (CallId Payload Replay Tool Limits Reasoning : Type) : Type :=
  Except ProjectionFailure (ProjectionResult CallId Payload Replay Tool Limits Reasoning)

/-- What a look at the cancellation and the clock shows. -/
structure Look where
  cancelled : Bool
  late : Bool
deriving DecidableEq

/-- `check_active`. -/
def checkActive (look : Look) : Except UtilityError Unit :=
  if look.cancelled then .error .cancelled
  else if look.late then .error .timeout
  else .ok ()

/-- `UtilityError::kind`. -/
def kind : UtilityError → String
  | .cancelled => "cancelled"
  | .timeout => "timeout"
  | .model => "model_failure"
  | .invalidResponse => "invalid_model_response"
  | .toolCall => "tool_call_rejected"
  | .noProgress => "no_progress"
  | .tooLarge => "too_large"
  | .budget => "budget_exceeded"
  | .serialization => "serialization_failure"

/-- The errors of the projection among those of a summary. -/
def projectionError : Compaction.UtilityError → UtilityError
  | .tooLarge => .tooLarge
  | .invalidResponse => .invalidResponse
  | .serialization => .serialization

end State

section Markers

variable [DecidableEq LoopId]

/-- `clear_threshold`. -/
def ThresholdState.clearThreshold (state : ThresholdState LoopId Digest) (loopId : LoopId) :
    ThresholdState LoopId Digest :=
  { state with
    consolidated := state.consolidated.filter fun entry => entry.loopId ≠ loopId
    attempted := if state.attempted = some loopId then none else state.attempted }

/-- `note_settlement_failure`. -/
def ThresholdState.noteSettlementFailure (state : ThresholdState LoopId Digest) (loopId : LoopId)
    (unknown : Bool) : ThresholdState LoopId Digest :=
  { state with
    last := state.last.map fun last =>
      if last.loopId = some loopId ∧
          ¬ "_settlement_failed".toList <:+ last.outcome.toList ∧
          ¬ "_settlement_unknown".toList <:+ last.outcome.toList then
        { last with
          outcome := last.outcome ++
            if unknown then "_settlement_unknown" else "_settlement_failed" }
      else last }

/-- `install_consolidated`, which fails while there is one of another loop. -/
def CompactionState.installConsolidated (state : CompactionState LoopId Digest)
    (value : ConsolidatedSummary LoopId Digest) : Option (CompactionState LoopId Digest) :=
  if ∃ old ∈ state.threshold.consolidated, old.loopId ≠ value.loopId then none
  else
    some
      { state with
        threshold := { state.threshold with consolidated := some value }
        summaryGeneration := state.summaryGeneration + 1 }

/-- `ObservationGuard::new`. Only a turn start is observed. -/
def newGuard (services : Services LoopId CallId Payload Replay Digest Tool Limits Reasoning)
    (state : ThresholdState LoopId Digest)
    (input : ProjectionInput LoopId Payload Replay Tool Limits Reasoning) (before : Nat)
    (recovery : Bool) : ObservationGuard × ThresholdState LoopId Digest :=
  let operationId := "auto-boundary-" ++ services.display input.loopId ++ "-" ++
    toString input.requestIndex
  let previousUsage := (state.last.filter fun last => last.loopId = some input.loopId).bind
    AutomaticCompactionObservation.utilityUsage
  let current : AutomaticCompactionObservation LoopId :=
    { operationId := operationId
      loopId := some input.loopId
      requestIndex := some input.requestIndex
      beforeTokens := some before
      afterTokens := none
      utilityBeforeTokens := none
      utilityAfterTokens := none
      hardTokens := services.budget.hardTokens
      triggerTokens := services.budget.triggerTokens
      targetTokens := services.budget.targetTokens
      utilityUsage := previousUsage
      outcome := "summarizing" }
  (⟨operationId, previousUsage, !recovery⟩,
    if recovery then state else { state with current := some current })

/-- `ObservationGuard::finish`, with what the live slot has. -/
def finish (guard : ObservationGuard) (state : ThresholdState LoopId Digest)
    (live : Option CompactionUtilityUsage) (outcome : String) (after : Option Nat)
    (usage : Option CompactionUtilityUsage) : ObservationGuard × ThresholdState LoopId Digest :=
  if guard.armed then
    match state.current.filter (fun entry => entry.operationId = guard.operationId) with
    | none => ({ guard with armed := false }, state)
    | some current =>
      let last :=
        { current with
          outcome := outcome
          afterTokens := after
          utilityUsage := mergeUtilityUsage guard.previousUsage (usage.or live) }
      let cancelled := outcome = "cancelled"
      ({ guard with armed := false, previousUsage := none },
        { state with
          current := none
          last := some last
          source := if cancelled then none else state.source
          attempted := if cancelled then none else state.attempted })
  else (guard, state)

/-- Dropping the guard. -/
def dropGuard (guard : ObservationGuard) (state : ThresholdState LoopId Digest)
    (live : Option CompactionUtilityUsage) (look : Look) : ThresholdState LoopId Digest :=
  (finish guard state live
    (if look.cancelled then "cancelled" else if look.late then "timeout" else "failed")
    none none).2

end Markers

section Boundary

variable [DecidableEq LoopId] [DecidableEq CallId] [DecidableEq Digest]
  (runtime : Runtime LoopId CallId Payload Replay Digest)
  (services : Services LoopId CallId Payload Replay Digest Tool Limits Reasoning)

/-- The request of some messages. -/
def makeRequest (input : ProjectionInput LoopId Payload Replay Tool Limits Reasoning)
    (messages : List (ModelMessage CallId Payload Replay)) :
    Except UtilityError (ModelRequest CallId Payload Replay Tool Limits Reasoning) :=
  let request := ⟨messages, input.tools, input.limits, input.reasoning⟩
  if services.acceptsRequest request then .ok request else .error .invalidResponse

/-- `latest_assistant`. -/
def latestAssistant (history : List (HistoryItem Payload Replay)) :
    Option (AssistantHistory Payload Replay) :=
  history.reverse.findSome? fun item =>
    match item with
    | .assistant assistant => some assistant
    | _ => none

def answerOf (assistant : AssistantHistory Payload Replay) : LoopId × Nat :=
  (runtime.assistantLoopId assistant.details, runtime.assistantRequestIndex assistant.details)

/-- `reported_context`: nothing if the answer is from before a consolidation. -/
def CompactionState.reportedContext (state : CompactionState LoopId Digest)
    (history : List (HistoryItem Payload Replay)) : Option Nat :=
  match latestAssistant history with
  | none => none
  | some assistant =>
    if state.supersededUsage = some (answerOf runtime assistant) then none
    else services.contextTokens assistant

/-- What is known of an attempt before it is marked. -/
structure Prepared (LoopId CallId Payload Replay Digest Tool Limits Reasoning : Type) where
  projection : Projection LoopId CallId Payload Replay Digest
  beforeRequest : ModelRequest CallId Payload Replay Tool Limits Reasoning
  beforeBytes : Nat
  triggerBefore : Nat
  originalSummaryHash : Digest
  source : Digest

/-- The `?` operator in `consolidate`. -/
def orReturn {Value : Type} (result : Except UtilityError Value) :
    Except (Return CallId Payload Replay Tool Limits Reasoning) Value :=
  result.mapError fun error => .error ⟨error, none⟩

def orError {Value : Type} (error : UtilityError) : Option Value → Except UtilityError Value
  | some value => .ok value
  | none => .error error

/-- The tokens that a turn start is triggered by, or the early return. -/
def triggerTokens (state : CompactionState LoopId Digest)
    (input : ProjectionInput LoopId Payload Replay Tool Limits Reasoning) (recovery : Bool)
    (beforeRequest : ModelRequest CallId Payload Replay Tool Limits Reasoning) (before : Nat) :
    Except (Return CallId Payload Replay Tool Limits Reasoning) Nat :=
  if recovery then .ok before
  else
    match state.reportedContext runtime services input.base with
    | none => .error (.ok (.unchanged beforeRequest))
    | some reported =>
      if reported < services.budget.triggerTokens then .error (.ok (.unchanged beforeRequest))
      else .ok reported

/-- `consolidate` up to the source of the attempt. -/
def screen (state : CompactionState LoopId Digest)
    (input : ProjectionInput LoopId Payload Replay Tool Limits Reasoning) (recovery : Bool) :
    Except (Return CallId Payload Replay Tool Limits Reasoning)
      (Prepared LoopId CallId Payload Replay Digest Tool Limits Reasoning) := do
  let shown : ProjectionState LoopId Digest := ⟨state.ephemeral, state.threshold.consolidated⟩
  let projection ← orReturn ((Projection.new runtime shown input.system input.summary input.base
    input.appended input.loopId).mapError projectionError)
  let messages ← orReturn ((projection.messages runtime).mapError projectionError)
  let beforeRequest ← orReturn (makeRequest services input messages)
  if !recovery && 0 < input.requestIndex then
    throw (.ok (.unchanged beforeRequest))
  let beforeBytes ← orReturn (orError .serialization
    (services.estimateRequestBytes beforeRequest (some input.loopId) (some input.requestIndex)))
  let triggerBefore ←
    triggerTokens runtime services state input recovery beforeRequest ((beforeBytes + 3) / 4)
  let covered := rangeKeys projection.ranges
  if covered.isEmpty && input.summary.isNone && projection.consolidated.isNone then
    throw (.ok (.unchanged beforeRequest))
  if 4096 < covered.length then
    throw (.error ⟨.tooLarge, none⟩)
  if recovery && (input.rejectedBodyBytes.isNone || input.rejectedBodyBytes = some 0) then
    throw (.error ⟨.noProgress, none⟩)
  let originalSummaryHash ← orReturn (orError .serialization (runtime.summaryHash input.summary))
  let source ← orReturn (orError .serialization (services.sourceHash
    { originalSummaryHash := originalSummaryHash
      covered := covered
      modelRef := services.modelRef
      contextWindow := services.contextWindow
      system := input.system
      tools := input.tools
      reasoning := input.reasoning
      triggerTokens := services.budget.triggerTokens
      budgetAddress := services.budgetAddress }))
  return ⟨projection, beforeRequest, beforeBytes, triggerBefore, originalSummaryHash, source⟩

/-- `summary_reserve_bytes`. -/
def summaryReserveBytes (hardTokens : Nat) : Nat := min (hardTokens / 8) 1024 * 4

/-- The messages that no summary can take away, and room for a summary. -/
def floorMessages (input : ProjectionInput LoopId Payload Replay Tool Limits Reasoning)
    (prepared : Prepared LoopId CallId Payload Replay Digest Tool Limits Reasoning) :
    Except UtilityError (List (ModelMessage CallId Payload Replay)) := do
  let system ←
    if input.system.isEmpty then pure []
    else (orError .invalidResponse (systemMessage runtime input.system)).map ([·])
  let kept := (prepared.projection.history.zipIdx.filter fun entry =>
    outside (rangeKeys prepared.projection.ranges) entry.2 && entry.2 < input.base.length).map
      Prod.fst
  let room ← orError .invalidResponse (summaryDataMessage runtime
    (List.replicate (summaryReserveBytes services.budget.hardTokens) 'x'))
  return system ++ kept ++ [room]

/-- The checks of a turn start: it was not tried before, and a summary can help. -/
def screenTurn (state : CompactionState LoopId Digest)
    (input : ProjectionInput LoopId Payload Replay Tool Limits Reasoning)
    (prepared : Prepared LoopId CallId Payload Replay Digest Tool Limits Reasoning) :
    Except (Return CallId Payload Replay Tool Limits Reasoning) Unit := do
  if state.threshold.attempted = some input.loopId ∨
      state.threshold.source = some prepared.source then
    throw (.ok (.unchanged prepared.beforeRequest))
  let floor ← orReturn (floorMessages runtime services input prepared)
  let request ← orReturn (makeRequest services input floor)
  let tokens ← orReturn (orError .serialization
    (services.estimateRequestTokens request none none))
  if services.budget.triggerTokens ≤ tokens then
    throw (.ok (.unchanged prepared.beforeRequest))

/-- `consolidate` up to the markers. -/
def prepare (state : CompactionState LoopId Digest)
    (input : ProjectionInput LoopId Payload Replay Tool Limits Reasoning) (recovery : Bool)
    (look : Look) :
    Except (Return CallId Payload Replay Tool Limits Reasoning)
      (Prepared LoopId CallId Payload Replay Digest Tool Limits Reasoning) := do
  let prepared ← screen runtime services state input recovery
  if !recovery then
    screenTurn runtime services state input prepared
  orReturn (checkActive look)
  return prepared

/-- A call that waits for its summary. -/
structure Call (LoopId CallId Payload Replay Digest Tool Limits Reasoning : Type) where
  input : ProjectionInput LoopId Payload Replay Tool Limits Reasoning
  recovery : Bool
  prepared : Prepared LoopId CallId Payload Replay Digest Tool Limits Reasoning
  guard : ObservationGuard

inductive Started (LoopId CallId Payload Replay Digest Tool Limits Reasoning : Type) where
  | returned (result : Return CallId Payload Replay Tool Limits Reasoning)
  | waiting (call : Call LoopId CallId Payload Replay Digest Tool Limits Reasoning)

/-- `consolidate` up to its await. -/
def start (state : CompactionState LoopId Digest)
    (input : ProjectionInput LoopId Payload Replay Tool Limits Reasoning) (recovery : Bool)
    (look : Look) :
    CompactionState LoopId Digest ×
      Started LoopId CallId Payload Replay Digest Tool Limits Reasoning :=
  match prepare runtime services state input recovery look with
  | .error result => (state, .returned result)
  | .ok prepared =>
    let marked :=
      if recovery then state.threshold
      else
        { state.threshold with
          attempted := some input.loopId
          source := some prepared.source }
    let (guard, threshold) := newGuard services marked input prepared.triggerBefore recovery
    ({ state with threshold := threshold }, .waiting ⟨input, recovery, prepared, guard⟩)

structure Generated where
  content : List Char
  utilityUsage : Option CompactionUtilityUsage

structure GenerationError where
  error : UtilityError
  utilityUsage : Option CompactionUtilityUsage

/-- The closure of `consolidate` that checks and installs a summary. -/
def validated (state : CompactionState LoopId Digest)
    (call : Call LoopId CallId Payload Replay Digest Tool Limits Reasoning)
    (content : List Char) (check : Look) :
    Except UtilityError (CompactionState LoopId Digest ×
      ModelRequest CallId Payload Replay Tool Limits Reasoning × Nat) := do
  let input := call.input
  let projection := call.prepared.projection
  let consolidated : ConsolidatedSummary LoopId Digest :=
    { loopId := input.loopId
      originalSummaryHash := call.prepared.originalSummaryHash
      covered := rangeKeys projection.ranges
      content := content }
  let messages ← (foldHistoryWithRanges runtime projection.fixed projection.history
    projection.ranges projection.folded (some consolidated)).mapError projectionError
  let request ← makeRequest services input messages
  let afterBytes ← orError .serialization
    (services.estimateRequestBytes request (some input.loopId) (some input.requestIndex))
  let after := (afterBytes + 3) / 4
  if call.prepared.beforeBytes ≤ afterBytes ||
      (call.recovery && (services.budget.hardTokens < after ||
        (input.rejectedBodyBytes.all fun original => original ≤ afterBytes))) ||
      !validateCleanToolExchanges runtime request.messages then
    throw .noProgress
  checkActive check
  let installed ← orError .tooLarge (state.installConsolidated consolidated)
  let answer := (latestAssistant (input.base ++ input.appended)).map (answerOf runtime)
  return ({ installed with supersededUsage := answer }, request, after)

/-- How a waiting call ends: it is dropped, or it goes on with what was generated. The looks
are those of the check on the way and of the drop, and `live` is what the live slot has. -/
inductive Ending where
  | dropped (live : Option CompactionUtilityUsage) (look : Look)
  | woken (generated : Except GenerationError Generated) (live : Option CompactionUtilityUsage)
      (check look : Look)

/-- Finish the observation and return, which drops the guard. -/
def leave (state : CompactionState LoopId Digest) (guard : ObservationGuard)
    (live : Option CompactionUtilityUsage) (look : Look) (outcome : String) (after : Option Nat)
    (usage : Option CompactionUtilityUsage) : CompactionState LoopId Digest :=
  let (finished, threshold) := finish guard state.threshold live outcome after usage
  { state with threshold := dropGuard finished threshold live look }

/-- `consolidate` behind its await. -/
def resume (state : CompactionState LoopId Digest)
    (call : Call LoopId CallId Payload Replay Digest Tool Limits Reasoning)
    (generated : Except GenerationError Generated) (live : Option CompactionUtilityUsage)
    (check look : Look) :
    CompactionState LoopId Digest × Return CallId Payload Replay Tool Limits Reasoning :=
  let leave (state : CompactionState LoopId Digest) := leave state call.guard live look
  match generated with
  | .error failure =>
    let finished := leave state (kind failure.error) none failure.utilityUsage
    if !call.recovery && failure.error = .timeout &&
        (call.prepared.beforeBytes + 3) / 4 ≤ services.budget.hardTokens then
      match checkActive check with
      | .error error =>
        ({ state with threshold := dropGuard call.guard state.threshold live look },
          .error ⟨error, none⟩)
      | .ok _ =>
        (finished, .ok
          { request := call.prepared.beforeRequest
            usage := failure.utilityUsage
            compacted := false })
    else (finished, .error ⟨failure.error, failure.utilityUsage⟩)
  | .ok generated =>
    match validated runtime services state call generated.content check with
    | .error error =>
      (leave state (kind error) none generated.utilityUsage,
        .error ⟨error, generated.utilityUsage⟩)
    | .ok (installed, request, after) =>
      (leave installed "compacted" (some after) generated.utilityUsage, .ok
        { request := request
          usage := generated.utilityUsage
          compacted := true })

/-- The state that a call leaves behind. -/
def settle (state : CompactionState LoopId Digest)
    (call : Call LoopId CallId Payload Replay Digest Tool Limits Reasoning) :
    Ending → CompactionState LoopId Digest
  | .dropped live look =>
    { state with threshold := dropGuard call.guard state.threshold live look }
  | .woken generated live check look =>
    (resume runtime services state call generated live check look).1

end Boundary

section Meeting

variable [DecidableEq LoopId]

/-- What the other users of the state do to it while a call waits. -/
inductive Other (LoopId : Type) where
  | clear (loopId : LoopId)
  | note (loopId : LoopId) (unknown : Bool)
deriving DecidableEq

def ThresholdState.meet (state : ThresholdState LoopId Digest) :
    Other LoopId → ThresholdState LoopId Digest
  | .clear loopId => state.clearThreshold loopId
  | .note loopId unknown => state.noteSettlementFailure loopId unknown

/-- They touch neither the observation nor the source of the attempt, and take its loop away
only when they clear that loop. -/
theorem others_keep (state : ThresholdState LoopId Digest) (loopId : LoopId)
    (others : List (Other LoopId)) :
    (others.foldl ThresholdState.meet state).current = state.current ∧
      (others.foldl ThresholdState.meet state).source = state.source ∧
      (state.attempted = none → (others.foldl ThresholdState.meet state).attempted = none) ∧
      (state.attempted = some loopId → (others.foldl ThresholdState.meet state).attempted =
        if Other.clear loopId ∈ others then none else some loopId) := by
  induction others generalizing state with
  | nil => simp
  | cons other others inductionHypothesis =>
    obtain ⟨current, source, nothing, named⟩ :=
      inductionHypothesis (state.meet other)
    rw [List.foldl_cons, current, source]
    cases other with
    | note other unknown =>
      refine ⟨rfl, rfl, nothing, fun marked => ?_⟩
      rw [named marked]
      simp
    | clear other =>
      refine ⟨rfl, rfl, fun none => nothing (by simp [ThresholdState.meet,
        ThresholdState.clearThreshold, none]), fun marked => ?_⟩
      by_cases own : other = loopId
      · have cleared : (state.meet (.clear other)).attempted = none := by
          simp [ThresholdState.meet, ThresholdState.clearThreshold, marked, own]
        rw [nothing cleared, own, if_pos List.mem_cons_self]
      · have kept : (state.meet (.clear other)).attempted = some loopId := by
          simp [ThresholdState.meet, ThresholdState.clearThreshold, marked, Ne.symm own]
        rw [named kept]
        simp [Ne.symm own]

end Meeting

section Settling

variable {state : ThresholdState LoopId Digest} {guard : ObservationGuard}
  {live usage : Option CompactionUtilityUsage} {outcome : String} {after : Option Nat}

def AutomaticCompactionObservation.reported (shown : AutomaticCompactionObservation LoopId) :
    Utility.AutomaticCompactionObservation where
  operationId := shown.operationId
  outcome := shown.outcome
  afterTokens := shown.afterTokens
  utilityUsage := shown.utilityUsage

def ThresholdState.reported (state : ThresholdState LoopId Digest) :
    Utility.ThresholdState LoopId Digest where
  attempted := state.attempted
  source := state.source
  current := state.current.map AutomaticCompactionObservation.reported
  last := state.last.map AutomaticCompactionObservation.reported

/-- On what it reports the guard is the one of a dropped generation. -/
theorem finish_reported :
    (finish guard state live outcome after usage).2.reported =
      (guard.finish state.reported live outcome after usage).2 := by
  rw [finish, ObservationGuard.finish]
  by_cases armed : guard.armed = true
  · rw [if_pos armed, if_pos armed]
    cases own : state.current with
    | none =>
      have nothing : state.reported.current = none := by
        rw [ThresholdState.reported, own]
        rfl
      rw [nothing]
      rfl
    | some current =>
      have shown : state.reported.current = some current.reported := by
        rw [ThresholdState.reported, own]
        rfl
      have operation : current.reported.operationId = current.operationId := rfl
      rw [shown, Option.filter_some, Option.filter_some, operation]
      by_cases same : current.operationId = guard.operationId
      · rw [if_pos (decide_eq_true same), if_pos (decide_eq_true same)]
        rfl
      · rw [if_neg (by simpa using same), if_neg (by simpa using same)]
  · rw [if_neg armed, if_neg armed]

/-- A guard that has finished does nothing more. -/
theorem drop_finished (look : Look) :
    dropGuard (finish guard state live outcome after usage).1
      (finish guard state live outcome after usage).2 live look =
        (finish guard state live outcome after usage).2 := by
  have disarmed : (finish guard state live outcome after usage).1.armed = false := by
    rw [finish]
    split
    · split
      · rfl
      · rfl
    · rename_i unarmed
      exact Bool.eq_false_iff.mpr unarmed
  rw [dropGuard, finish, disarmed, if_neg Bool.false_ne_true]

theorem leave_threshold (before : CompactionState LoopId Digest) (look : Look) :
    (leave before guard live look outcome after usage).threshold =
      (finish guard before.threshold live outcome after usage).2 :=
  drop_finished look

/-- A guard that is armed ends its own observation. -/
theorem finish_own {current : AutomaticCompactionObservation LoopId}
    (armed : guard.armed = true) (own : state.current = some current)
    (same : current.operationId = guard.operationId) :
    (finish guard state live outcome after usage).2 =
      { state with
        current := none
        last := some
          { current with
            outcome := outcome
            afterTokens := after
            utilityUsage := mergeUtilityUsage guard.previousUsage (usage.or live) }
        source := if outcome = "cancelled" then none else state.source
        attempted := if outcome = "cancelled" then none else state.attempted } := by
  have kept : state.current.filter (fun entry => entry.operationId = guard.operationId) =
      some current := by
    rw [own, Option.filter_some, if_pos (decide_eq_true same)]
  rw [finish, if_pos armed, kept]

variable [DecidableEq LoopId] [DecidableEq CallId] [DecidableEq Digest]
  {runtime : Runtime LoopId CallId Payload Replay Digest}
  {services : Services LoopId CallId Payload Replay Digest Tool Limits Reasoning}
  {call : Call LoopId CallId Payload Replay Digest Tool Limits Reasoning}

/-- Two states with the same observation and the same markers. -/
structure SameMarkers (first second : ThresholdState LoopId Digest) : Prop where
  current : second.current = first.current
  source : second.source = first.source
  attempted : second.attempted = first.attempted

/-- A summary that is installed changes no marker and no observation. -/
theorem validated_installs {before installed : CompactionState LoopId Digest}
    {content : List Char} {check : Look}
    {request : ModelRequest CallId Payload Replay Tool Limits Reasoning} {tokens : Nat}
    (valid : validated runtime services before call content check =
      .ok (installed, request, tokens)) :
    SameMarkers before.threshold installed.threshold := by
  rw [validated] at valid
  obtain ⟨messages, -, valid⟩ := Results.bind_ok.mp valid
  obtain ⟨made, -, valid⟩ := Results.bind_ok.mp valid
  obtain ⟨bytes, -, valid⟩ := Results.bind_ok.mp valid
  dsimp only at valid
  split at valid
  · obtain ⟨_, refused, -⟩ := Results.bind_ok.mp valid
    cases refused
  · obtain ⟨_, -, valid⟩ := Results.bind_ok.mp valid
    obtain ⟨kept, found, valid⟩ := Results.bind_ok.mp valid
    cases valid
    dsimp only
    rw [CompactionState.installConsolidated] at found
    split at found
    · cases found
    · cases found
      exact ⟨rfl, rfl, rfl⟩

/-- However a call ends, its guard finishes once, and nothing else changes the markers. -/
theorem settle_finishes (runtime : Runtime LoopId CallId Payload Replay Digest)
    (services : Services LoopId CallId Payload Replay Digest Tool Limits Reasoning)
    (call : Call LoopId CallId Payload Replay Digest Tool Limits Reasoning)
    (before : CompactionState LoopId Digest) (ending : Ending) :
    ∃ middle live outcome after usage, SameMarkers before.threshold middle ∧
      (settle runtime services before call ending).threshold =
        (finish call.guard middle live outcome after usage).2 := by
  have same : SameMarkers before.threshold before.threshold := ⟨rfl, rfl, rfl⟩
  cases ending with
  | dropped live look => exact ⟨_, live, _, _, _, same, rfl⟩
  | woken generated live check look =>
    cases generated with
    | error failure =>
      rw [settle, resume]
      dsimp only
      split
      · split
        · exact ⟨_, live, _, _, _, same, rfl⟩
        · exact ⟨_, live, _, _, _, same, leave_threshold before look⟩
      · exact ⟨_, live, _, _, _, same, leave_threshold before look⟩
    | ok generated =>
      rw [settle, resume]
      dsimp only
      split
      · exact ⟨_, live, _, _, _, same, leave_threshold before look⟩
      · rename_i installed request tokens valid
        exact ⟨_, live, _, _, _, validated_installs valid, leave_threshold installed look⟩

end Settling

section Attempts

variable [DecidableEq LoopId] [DecidableEq CallId] [DecidableEq Digest]
  {runtime : Runtime LoopId CallId Payload Replay Digest}
  {services : Services LoopId CallId Payload Replay Digest Tool Limits Reasoning}
  {input : ProjectionInput LoopId Payload Replay Tool Limits Reasoning}
  {before after : CompactionState LoopId Digest} {look : Look}
  {call : Call LoopId CallId Payload Replay Digest Tool Limits Reasoning}

/-- The observation is that of the call: its operation, its turn and request, and the tokens
that it was triggered by. -/
structure Names (services : Services LoopId CallId Payload Replay Digest Tool Limits Reasoning)
    (call : Call LoopId CallId Payload Replay Digest Tool Limits Reasoning)
    (shown : AutomaticCompactionObservation LoopId) : Prop where
  guarded : shown.operationId = call.guard.operationId
  operation : shown.operationId = "auto-boundary-" ++ services.display call.input.loopId ++ "-" ++
    toString call.input.requestIndex
  loopId : shown.loopId = some call.input.loopId
  requestIndex : shown.requestIndex = some call.input.requestIndex
  beforeTokens : shown.beforeTokens = some call.prepared.triggerBefore

/-- The call waits: its guard is armed, its observation is current and its source is marked. -/
structure Observed (services : Services LoopId CallId Payload Replay Digest Tool Limits Reasoning)
    (call : Call LoopId CallId Payload Replay Digest Tool Limits Reasoning)
    (state : ThresholdState LoopId Digest) : Prop where
  armed : call.guard.armed = true
  current : ∃ shown, state.current = some shown ∧ Names services call shown
  source : state.source = some call.prepared.source

theorem start_returned {recovery : Bool}
    {result : Return CallId Payload Replay Tool Limits Reasoning}
    (started : start runtime services before input recovery look = (after, .returned result)) :
    after = before := by
  rw [start] at started
  split at started
  · cases started
    rfl
  · cases started

/-- A turn start that gets as far as its markers was marked neither by its loop nor by its
source. -/
theorem prepared_unmarked
    {prepared : Prepared LoopId CallId Payload Replay Digest Tool Limits Reasoning}
    (ready : prepare runtime services before input false look = .ok prepared) :
    before.threshold.attempted ≠ some input.loopId ∧
      before.threshold.source ≠ some prepared.source := by
  rw [prepare] at ready
  obtain ⟨found, -, ready⟩ := Results.bind_ok.mp ready
  have turn : (!false) = true := rfl
  dsimp only at ready
  rw [if_pos turn] at ready
  obtain ⟨_, passed, ready⟩ := Results.bind_ok.mp ready
  obtain ⟨_, -, ready⟩ := Results.bind_ok.mp ready
  cases ready
  rw [screenTurn] at passed
  dsimp only at passed
  split at passed
  · obtain ⟨_, refused, -⟩ := Results.bind_ok.mp passed
    cases refused
  · rename_i unmarked
    exact not_or.mp unmarked

/-- What a turn start leaves while it waits. -/
theorem start_waiting
    (started : start runtime services before input false look = (after, .waiting call)) :
    call.input = input ∧ call.recovery = false ∧
      prepare runtime services before input false look = .ok call.prepared ∧
      after.threshold.attempted = some input.loopId ∧ Observed services call after.threshold := by
  rw [start] at started
  split at started
  · cases started
  · rename_i prepared ready
    cases started
    exact ⟨rfl, rfl, ready, rfl, rfl, ⟨_, rfl, rfl, rfl, rfl, rfl, rfl⟩, rfl⟩

/-- What a call that waited leaves behind. -/
theorem settle_observed (runtime : Runtime LoopId CallId Payload Replay Digest)
    (observed : Observed services call before.threshold) (ending : Ending) :
    ∃ last, (settle runtime services before call ending).threshold.current = none ∧
      (settle runtime services before call ending).threshold.last = some last ∧
      Names services call last ∧
      (settle runtime services before call ending).threshold.source =
        (if last.outcome = "cancelled" then none else some call.prepared.source) ∧
      (settle runtime services before call ending).threshold.attempted =
        if last.outcome = "cancelled" then none else before.threshold.attempted := by
  obtain ⟨armed, ⟨shown, current, names⟩, source⟩ := observed
  obtain ⟨middle, live, outcome, tokens, usage, markers, same⟩ :=
    settle_finishes runtime services call before ending
  rw [← markers.current] at current
  rw [same, finish_own armed current names.guarded, markers.source, markers.attempted, source]
  exact ⟨_, rfl, rfl, ⟨names.guarded, names.operation, names.loopId, names.requestIndex,
    names.beforeTokens⟩, rfl, rfl⟩

/-- An attempt of a turn start settles its markers and its observation, however it ends and
whatever the others do meanwhile. A call that returns before the markers changes nothing, and
one that gets to them was not marked. -/
theorem attempt_settles_markers (runtime : Runtime LoopId CallId Payload Replay Digest)
    (services : Services LoopId CallId Payload Replay Digest Tool Limits Reasoning)
    (before : CompactionState LoopId Digest)
    (input : ProjectionInput LoopId Payload Replay Tool Limits Reasoning) (look : Look) :
    (∀ recovery after result,
      start runtime services before input recovery look = (after, .returned result) →
        after = before) ∧
    ∀ after call, start runtime services before input false look = (after, .waiting call) →
      before.threshold.attempted ≠ some input.loopId ∧
      before.threshold.source ≠ some call.prepared.source ∧
      ∀ others waited, waited.threshold = List.foldl ThresholdState.meet after.threshold others →
        ∀ ending, ∃ last,
          (settle runtime services waited call ending).threshold.current = none ∧
          (settle runtime services waited call ending).threshold.last = some last ∧
          Names services call last ∧
          (last.outcome = "cancelled" →
            (settle runtime services waited call ending).threshold.attempted = none ∧
              (settle runtime services waited call ending).threshold.source = none) ∧
          (last.outcome ≠ "cancelled" →
            (settle runtime services waited call ending).threshold.source =
                some call.prepared.source ∧
              (settle runtime services waited call ending).threshold.attempted =
                if Other.clear input.loopId ∈ others then none else some input.loopId) := by
  refine ⟨fun recovery after result => start_returned, ?_⟩
  intro after call started
  obtain ⟨-, -, ready, marked, observed⟩ := start_waiting started
  obtain ⟨loop, source⟩ := prepared_unmarked ready
  refine ⟨loop, source, ?_⟩
  intro others waited same ending
  obtain ⟨current, kept, -, named⟩ :=
    others_keep after.threshold input.loopId others
  have still : Observed services call waited.threshold := by
    obtain ⟨armed, shown, own⟩ := observed
    refine ⟨armed, ?_, ?_⟩
    · rw [same, current]
      exact shown
    · rw [same, kept]
      exact own
  obtain ⟨last, none, settled, names, own, loops⟩ :=
    settle_observed runtime still ending
  refine ⟨last, none, settled, names, ?_, ?_⟩
  · intro cancelled
    rw [own, loops, if_pos cancelled, if_pos cancelled]
    exact ⟨rfl, rfl⟩
  · intro other
    rw [own, loops, if_neg other, if_neg other, same, named marked]
    exact ⟨rfl, rfl⟩

/-- A turn whose history holds a settled prompt and an exchange, and whose last answer filled
most of the window. -/
def sampleServices : Services Nat Nat Nat Nat Nat Unit Unit Unit where
  acceptsRequest := fun _ => true
  estimateRequestBytes := fun request _ _ => some (4 * request.messages.length)
  estimateRequestTokens := fun _ _ _ => some 0
  contextTokens := fun _ => some 95
  display := fun loopId => toString loopId
  sourceHash := fun _ => some 7
  modelRef := "m"
  contextWindow := 100
  policy := ⟨90, 50⟩
  budgetAddress := 0

def sampleInput : ProjectionInput Nat Nat Nat Unit Unit Unit where
  system := []
  summary := none
  base := Compaction.sampleBase ++ Compaction.sampleAppended
  appended := []
  tools := []
  reasoning := ()
  limits := ()
  loopId := 5
  requestIndex := 0
  rejectedBodyBytes := none

def sampleState : CompactionState Nat Nat where
  threshold := ⟨none, none, none, none, none⟩
  ephemeral := none
  supersededUsage := none
  summaryGeneration := 0

/-- Its attempt is dropped on cancellation and may be made again. -/
theorem sample_attempt_is_released :
    ∃ after call, start Compaction.sampleRuntime sampleServices sampleState sampleInput false
        ⟨false, false⟩ = (after, .waiting call) ∧
      after.threshold.attempted = some 5 ∧
      (settle Compaction.sampleRuntime sampleServices after call
        (.dropped none ⟨true, false⟩)).threshold.attempted = none ∧
      (settle Compaction.sampleRuntime sampleServices after call
        (.dropped none ⟨true, false⟩)).threshold.source = none := by
  obtain ⟨after, call, started⟩ : ∃ after call, start Compaction.sampleRuntime sampleServices
      sampleState sampleInput false ⟨false, false⟩ = (after, .waiting call) := ⟨_, _, rfl⟩
  have ended : (match start Compaction.sampleRuntime sampleServices sampleState sampleInput false
      ⟨false, false⟩ with
    | (after, .waiting call) => (settle Compaction.sampleRuntime sampleServices after call
        (.dropped none ⟨true, false⟩)).threshold.last.map AutomaticCompactionObservation.outcome
    | (_, .returned _) => none) = some "cancelled" := by decide +kernel
  rw [started] at ended
  obtain ⟨-, waits⟩ := attempt_settles_markers Compaction.sampleRuntime sampleServices sampleState
    sampleInput ⟨false, false⟩
  obtain ⟨-, -, settles⟩ := waits after call started
  obtain ⟨last, -, settled, -, released, -⟩ :=
    settles [] after rfl (.dropped none ⟨true, false⟩)
  dsimp only at ended
  rw [settled, Option.map_some] at ended
  exact ⟨after, call, started, (start_waiting started).2.2.2.1, released (Option.some.inj ended)⟩

end Attempts

end MinicoreAgent.Threshold

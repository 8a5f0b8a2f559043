import MinicoreAgent.ProviderJson
import MinicoreAgent.Lib.Keyed
import Mathlib.Data.Nat.Basic

/-!
# The provider stream

The adapter reads the frames of a response one by one and queues events for the
runtime. A function that fails may have changed the state before it does, so each
one returns the state it leaves beside its result. The stream loop hands frames
over until the state is done, and turns a failure into the last event.
-/
namespace MinicoreAgent.Provider

inductive ModelErrorKind
  | cancelled | timeout | contextOverflow | quotaExceeded | rateLimited | providerUnavailable
  | invalidProviderResponse | incompleteResponse | streamInterrupted | requestOutcomeUnknown
  deriving DecidableEq, Repr

inductive DeliveryState
  | notStarted | unknown | started
  deriving DecidableEq, Repr

/-- A model error without its diagnostic text, which its kind determines. -/
structure ModelError (View : Type) where
  kind : ModelErrorKind
  delivery : DeliveryState
  retryable : Bool
  provider : Option View := none

section Errors

variable {View : Type}

def localError (kind : ModelErrorKind) : ModelError View := ⟨kind, .notStarted, false, none⟩
def unknownError (kind : ModelErrorKind) : ModelError View := ⟨kind, .unknown, false, none⟩
def startedError (kind : ModelErrorKind) : ModelError View := ⟨kind, .started, false, none⟩
def retryableError (kind : ModelErrorKind) : ModelError View := ⟨kind, .notStarted, true, none⟩

def streamError (kind : ModelErrorKind) (providerEventSeen : Bool) : ModelError View :=
  if providerEventSeen then startedError kind else unknownError kind

def withProvider (error : ModelError View) (provider : Option View) : ModelError View :=
  match provider with
  | none => error
  | some view => { error with provider := some view }

end Errors

structure Usage where
  input : Option Nat
  output : Option Nat
  reasoning : Option Nat
  cacheRead : Option Nat
  cacheWrite : Option Nat
  providerTotal : Option Nat

inductive ModelFinishReason
  | stop | toolCalls | length | contentFiltered | refused | unknown
  deriving DecidableEq, Repr

inductive ModelEvent (CallId Name Replay : Type)
  | textDelta (text : Text)
  | reasoningDelta (text : Text)
  | toolCallStart (toolCallId : CallId) (toolName : Name)
  | toolCallArgumentsDelta (toolCallId : CallId) (delta : Text)
  | toolCallEnd (toolCallId : CallId)
  | providerReplay (replay : Replay)
  | usage (usage : Usage)
  | finish (reason : ModelFinishReason)

structure ToolState (CallId Name : Type) where
  toolCallId : CallId
  name : Name
  arguments : Text
  argumentsDone : Bool
  itemDone : Bool
  ended : Bool

structure ReasoningPartKey where
  outputIndex : Option Nat
  itemId : Option Text
  summaryIndex : Option Nat
  deriving DecidableEq

structure ReasoningParts where
  lastKey : Option ReasoningPartKey := none
  lifecycle : Nat := 0
  lastLifecycle : Nat := 0
  emitted : Bool := false
  lastEndsNewline : Bool := false
  pendingBoundary : Bool := false

def ReasoningParts.markItemBoundary (parts : ReasoningParts) : ReasoningParts :=
  { parts with lifecycle := (parts.lifecycle + 1) % 2 ^ 64 }

/-- The state of a stream, without the connection it reads from. -/
structure StreamState (CallId Name Digest Replay View : Type) where
  pending : List (Except (ModelError View) (ModelEvent CallId Name Replay)) := []
  tools : List (Nat × ToolState CallId Name) := []
  toolIds : List CallId := []
  toolOrder : List Nat := []
  outputEvidence : List (Nat × ItemEvidence Digest) := []
  outputIds : List Text := []
  outputItems : Option (List (Nat × Value)) := some []
  outputItemBytes : Nat := 0
  replayIdentity : Option (Text × Text)
  text : Text := []
  providerEventSeen : Bool := false
  outputSeen : Bool := false
  reasoningSeen : Bool := false
  refusalSeen : Bool := false
  terminalSeen : Bool := false
  reasoningParts : ReasoningParts := {}
  done : Bool := false

/-- The state that a function leaves, and whether it succeeded. -/
abbrev Outcome (CallId Name Digest Replay View : Type) :=
  StreamState CallId Name Digest Replay View × Except Unit Unit

section Functions

variable {CallId Name Digest Replay View : Type} [DecidableEq CallId] [DecidableEq Digest]
variable (externals : Externals CallId Name Digest Replay View)
variable (state : StreamState CallId Name Digest Replay View)

/-- Go on after a success. -/
def Outcome.andThen (outcome : Outcome CallId Name Digest Replay View)
    (next : StreamState CallId Name Digest Replay View → Outcome CallId Name Digest Replay View) :
    Outcome CallId Name Digest Replay View :=
  match outcome with
  | (left, .ok ()) => next left
  | (left, .error ()) => (left, .error ())

def queue (event : ModelEvent CallId Name Replay) : StreamState CallId Name Digest Replay View :=
  { state with pending := state.pending ++ [.ok event] }

/-- Queue several events one after the other. -/
def queueAll (events : List (ModelEvent CallId Name Replay)) :
    StreamState CallId Name Digest Replay View :=
  events.foldl queue state

def fail (error : ModelError View) : StreamState CallId Name Digest Replay View :=
  { state with done := true, pending := state.pending ++ [.error error] }

def malformed : StreamState CallId Name Digest Replay View :=
  fail state (streamError .invalidProviderResponse state.providerEventSeen)

/-- `event_text_chunks`, for at most so many rounds. -/
def chunkRounds (limit : Nat) : Nat → Text → List Text
  | 0, _ => []
  | rounds + 1, text =>
    let chunk := Text.floorPrefix limit text
    let rest := text.drop chunk.length
    if rest.isEmpty then [chunk] else chunk :: chunkRounds limit rounds rest

def eventTextChunks (text : Text) : List Text :=
  chunkRounds externals.maxEventBytes (text.length + 1) text

def queueText (text : Text) (reasoning : Bool) : StreamState CallId Name Digest Replay View :=
  let state := if reasoning then state else { state with text := state.text ++ text }
  queueAll state ((eventTextChunks externals text).map
    (if reasoning then .reasoningDelta else .textDelta))

/-- `merge_reasoning_key`. -/
def mergeReasoningKey (previous : Option ReasoningPartKey) (event : ReasoningSummaryDeltaEvent) :
    Option ReasoningPartKey :=
  if event.outputIndex.isSome || event.itemId.isSome || event.summaryIndex.isSome then
    let previous := previous.getD ⟨none, none, none⟩
    some {
      outputIndex := (event.outputIndex.bind valueToU32).or previous.outputIndex
      itemId := event.itemId.or previous.itemId
      summaryIndex := (event.summaryIndex.bind valueToU32).or previous.summaryIndex }
  else previous

def isBreak (char : Char) : Bool := char = '\n' || char = '\r'

/-- `queue_reasoning_delta`. -/
def queueReasoningDelta (event : ReasoningSummaryDeltaEvent) :
    StreamState CallId Name Digest Replay View :=
  let parts := state.reasoningParts
  let merged := mergeReasoningKey parts.lastKey event
  let identityChanged := merged != parts.lastKey
  let lifecycleChanged := parts.lastLifecycle != parts.lifecycle
  if event.delta.isEmpty then
    if identityChanged || lifecycleChanged then
      { state with reasoningParts := { parts with
          lastKey := merged, lastLifecycle := parts.lifecycle, pendingBoundary := true } }
    else state
  else
    let boundary := identityChanged || lifecycleChanged || parts.pendingBoundary
    let needsSeparator := boundary && parts.emitted && !parts.lastEndsNewline &&
      !(event.delta.head?.map isBreak).getD false
    let separated := if needsSeparator then queueText externals state ['\n'] true else state
    let queued := queueText externals separated event.delta true
    let parts := if boundary then
      { parts with lastKey := merged, lastLifecycle := parts.lifecycle } else parts
    { queued with reasoningParts := { parts with
        pendingBoundary := false
        emitted := true
        lastEndsNewline := (event.delta.getLast?.map isBreak).getD false } }

/-- The texts of the parts of one kind in a field of an item. -/
def itemTexts (item : Value) (field kind : String) : List Text :=
  (((item.get field).bind Value.asArray).getD []).filterMap fun part =>
    if hasType part kind then string part "text" else none

/-- `queue_item_reasoning`. -/
def queueItemReasoning (outputIndex : Nat) (item : Value) :
    StreamState CallId Name Digest Replay View :=
  let content := itemTexts item "content" "reasoning_text"
  let parts := if content.isEmpty then itemTexts item "summary" "summary_text" else content
  parts.zipIdx.foldl (fun state part => queueReasoningDelta externals state {
    delta := part.1
    outputIndex := some (.number (.posInt outputIndex))
    itemId := string item "id"
    summaryIndex := some (.number (.posInt part.2)) }) state

/-- `append_tool_arguments`. -/
def appendToolArguments (outputIndex : Nat) (delta : Text) :
    Outcome CallId Name Digest Replay View :=
  match Keyed.find state.tools outputIndex with
  | none => (state, .error ())
  | some tool =>
    if tool.argumentsDone || tool.itemDone then (state, .error ())
    else if Text.byteLen tool.arguments + Text.byteLen delta > externals.maxJsonBytes then
      (state, .error ())
    else
      let appended := { state with
        tools := Keyed.put state.tools outputIndex
          { tool with arguments := tool.arguments ++ delta } }
      (queueAll appended ((eventTextChunks externals delta).map
        (.toolCallArgumentsDelta tool.toolCallId)), .ok ())

/-- `start_tool`. -/
def startTool (outputIndex : Nat) (item : FunctionCallItem) :
    Outcome CallId Name Digest Replay View :=
  if (Keyed.find state.tools outputIndex).isSome then (state, .error ())
  else
    match openaiToolCallId externals item.callId, externals.toolName item.name with
    | some toolCallId, some name =>
      if toolCallId ∈ state.toolIds then (state, .error ())
      else
        let started := queue { state with toolIds := toolCallId :: state.toolIds }
          (.toolCallStart toolCallId name)
        appendToolArguments externals { started with
          toolOrder := started.toolOrder ++ [outputIndex]
          tools := Keyed.insert outputIndex {
            toolCallId, name, arguments := [], argumentsDone := false, itemDone := false
            ended := false } started.tools } outputIndex item.arguments
    | _, _ => (state, .error ())

/-- What is left of a text after its beginning. -/
def stripStart (start text : Text) : Option Text :=
  if start.isPrefixOf text then some (text.drop start.length) else none

/-- `reconcile_arguments`. -/
def reconcileArguments (outputIndex : Nat) (complete : Text) :
    Outcome CallId Name Digest Replay View :=
  match Keyed.find state.tools outputIndex with
  | none => (state, .error ())
  | some tool =>
    match stripStart tool.arguments complete with
    | none => (state, .error ())
    | some remainder =>
      if remainder.isEmpty then (state, .ok ())
      else appendToolArguments externals state outputIndex remainder

/-- `end_tool_once`. -/
def endToolOnce (outputIndex : Nat) : Outcome CallId Name Digest Replay View :=
  match Keyed.find state.tools outputIndex with
  | none => (state, .error ())
  | some tool =>
    if tool.ended then (state, .ok ())
    else if tool.arguments.isEmpty then (state, .error ())
    else
      (queue { state with tools := Keyed.put state.tools outputIndex { tool with ended := true } }
        (.toolCallEnd tool.toolCallId), .ok ())

/-- Set the flags of a tool that is there, and end it once. -/
def markAndEnd (outputIndex : Nat) (mark : ToolState CallId Name → ToolState CallId Name) :
    Outcome CallId Name Digest Replay View :=
  match Keyed.find state.tools outputIndex with
  | none => (state, .error ())
  | some tool =>
    endToolOnce { state with tools := Keyed.put state.tools outputIndex (mark tool) } outputIndex

/-- `finish_tool_arguments`. -/
def finishToolArguments (outputIndex : Nat) (arguments : Text) :
    Outcome CallId Name Digest Replay View :=
  if ((Keyed.find state.tools outputIndex).map (·.argumentsDone)).getD false then
    (state, .error ())
  else
    (reconcileArguments externals state outputIndex arguments).andThen fun state =>
      markAndEnd state outputIndex (fun tool => { tool with argumentsDone := true })

/-- `finish_tool_item`. -/
def finishToolItem (outputIndex : Nat) (item : FunctionCallItem) :
    Outcome CallId Name Digest Replay View :=
  let started :=
    match Keyed.find state.tools outputIndex with
    | some tool =>
      if externals.callIdText tool.toolCallId ≠ item.callId ∨
          externals.nameText tool.name ≠ item.name then (state, .error ())
      else if tool.itemDone then (state, .error ())
      else reconcileArguments externals state outputIndex item.arguments
    | none => startTool externals state outputIndex item
  Outcome.andThen started fun state =>
    markAndEnd state outputIndex (fun tool => { tool with itemDone := true })

/-- Whether a part of the items says a refusal. -/
def refuses (items : List Value) : Bool :=
  items.any fun item => hasType item "message" &&
    (((item.get "content").bind Value.asArray).getD []).any (fun part => hasType part "refusal")

/-- `capture_output_item`. Evidence and id are noted before a duplicate is refused. -/
def captureOutputItem (outputIndex : Nat) (item : Value) :
    Outcome CallId Name Digest Replay View :=
  if !validateItem externals item then (state, .error ())
  else if state.outputEvidence.length ≥ maxReplayItemsPerResponse then (state, .error ())
  else
    match ItemEvidence.new externals item with
    | none => (state, .error ())
    | some evidence =>
      let twice := (Keyed.find state.outputEvidence outputIndex).isSome
      let state := { state with
        outputEvidence := Keyed.insert outputIndex evidence state.outputEvidence }
      if twice then (state, .error ())
      else
        let known := ((string item "id").map (fun id => state.outputIds.contains id)).getD false
        let state := { state with outputIds := (string item "id").toList ++ state.outputIds }
        if known then (state, .error ())
        else if hasType item "message" && (item.index "content").asArray.isNone then
          (state, .error ())
        else
          let state := { state with refusalSeen := state.refusalSeen || refuses [item] }
          match state.outputItems with
          | none => (state, .ok ())
          | some items =>
            let bytes := state.outputItemBytes + externals.encodedLen item
            if bytes > externals.maxReplayBytes then
              ({ state with outputItemBytes := bytes, outputItems := none }, .ok ())
            else
              ({ state with
                  outputItemBytes := bytes
                  outputItems := some (Keyed.insert outputIndex item items) }, .ok ())

/-- `finalize_output_items`. -/
def finalizeOutputItems (terminalOutput : Option (List Value)) :
    Outcome CallId Name Digest Replay View :=
  match terminalOutput with
  | none => (state, .ok ())
  | some output =>
    if !output.isEmpty && !validateOutput externals output then (state, .error ())
    else if state.outputEvidence.all (fun entry =>
        ((output[entry.1]?).map (entry.2.agrees externals)).getD false) then
      ({ state with
          outputItems := some (output.zipIdx.map (fun item => (item.2 % 2 ^ 32, item.1))) }, .ok ())
    else (state, .error ())

/-- `without_replay`. -/
def withoutReplay : Except Unit (Option (ModelEvent CallId Name Replay)) :=
  if state.text.isEmpty && state.tools.isEmpty && !state.reasoningParts.emitted then .error ()
  else .ok none

/-- Whether a captured call is the tool that was streamed. -/
def sameCall (tool : ToolState CallId Name) (item : Value) : Bool :=
  (item.index "call_id").asStr == some (externals.callIdText tool.toolCallId) &&
    (item.index "name").asStr == some (externals.nameText tool.name) &&
    match (item.index "arguments").asStr.bind (parseText externals),
        parseText externals tool.arguments with
    | some captured, some streamed => externals.sameValue captured streamed
    | _, _ => false

/-- The checks of `replay_event` on captured items that are not empty. -/
def replayable (output : List (Nat × Value)) : Bool :=
  output.length < 2 ^ 32 && output.map Prod.fst == List.range output.length &&
    state.tools.map Prod.fst == state.toolOrder &&
    output.all (fun entry => !hasType entry.2 "function_call" ||
      ((Keyed.find state.tools entry.1).map (fun tool => sameCall externals tool entry.2)).getD
        false) &&
    state.tools.all (fun entry =>
      ((Keyed.find output entry.1).map (fun item => hasType item "function_call")).getD false) &&
    visibleText (output.map Prod.snd) == some state.text

/-- `replay_event`: the state it leaves, and the event to queue. -/
def replayEvent : StreamState CallId Name Digest Replay View ×
    Except Unit (Option (ModelEvent CallId Name Replay)) :=
  match state.replayIdentity with
  | none => (state, .ok none)
  | some (endpoint, model) =>
    match state.outputItems with
    | none => (state, withoutReplay state)
    | some output =>
      if !state.tools.isEmpty && state.reasoningSeen &&
          !output.any (fun entry => hasType entry.2 "reasoning") then (state, .error ())
      else if output.isEmpty then (state, .ok none)
      else if !replayable externals state output then (state, .error ())
      else
        let taken := { state with outputItems := none }
        match capture externals endpoint model (output.map Prod.snd) with
        | none => (taken, .error ())
        | some none => (taken, withoutReplay taken)
        | some (some replay) => (taken, .ok (some (.providerReplay replay)))

/-- `provider_usage`. -/
def providerUsage (usage : ProviderUsage) : Option Usage :=
  let cached := usage.inputTokensDetails.bind (·.cachedTokens)
  let cacheWrite := usage.inputTokensDetails.bind (·.cacheWriteTokens)
  let cachedAndWritten := cached.getD 0 + cacheWrite.getD 0
  let reasoning := usage.outputTokensDetails.bind (·.reasoningTokens)
  let sum := usage.inputTokens + usage.outputTokens
  if cachedAndWritten ≥ 2 ^ 64 ∨ usage.inputTokens < cachedAndWritten ∨
      usage.outputTokens < reasoning.getD 0 then none
  else if (usage.totalTokens.map (fun total => sum ≥ 2 ^ 64 || sum != total)).getD false then none
  else
    some {
      input := cached.map (fun _ => usage.inputTokens - cachedAndWritten)
      output := reasoning.map (fun _ => usage.outputTokens - reasoning.getD 0)
      reasoning
      cacheRead := cached
      cacheWrite
      providerTotal := usage.totalTokens }

inductive TerminalKind
  | completed
  | incomplete
  deriving DecidableEq, Repr

def TerminalKind.expectedStatus : TerminalKind → Text
  | .completed => "completed".toList
  | .incomplete => "incomplete".toList

/-- The text of the whole response as the captured items tell it. -/
def finalText : Option Text :=
  match state.outputItems with
  | some output => visibleText (output.map Prod.snd)
  | none => some (state.outputEvidence.flatMap (·.2.text))

/-- Why the response ended. -/
def finishReason (response : ProviderResponse) (kind : TerminalKind) : ModelFinishReason :=
  match kind with
  | .incomplete =>
    match response.incompleteDetails.bind (·.reason) with
    | none => .unknown
    | some reason =>
      if reason = "max_output_tokens".toList ∨ reason = "max_tokens".toList then .length
      else if reason = "content_filter".toList then .contentFiltered
      else if reason = "refusal".toList then .refused
      else .unknown
  | .completed =>
    if state.refusalSeen then .refused
    else if !state.tools.isEmpty then .toolCalls
    else .stop

/-- Note the refusals among the captured items. -/
def noteRefusals : StreamState CallId Name Digest Replay View :=
  { state with
    refusalSeen := state.refusalSeen || refuses ((state.outputItems.getD []).map Prod.snd) }

/-- The text that the final response has beyond what was streamed. -/
def queueSuffix (text : Text) : Outcome CallId Name Digest Replay View :=
  if !text.isEmpty && text != state.text then
    match stripStart state.text text with
    | none => (state, .error ())
    | some suffix => (queueText externals state suffix false, .ok ())
  else (state, .ok ())

/-- The last events of a response that passed every check. -/
def queueFinish (replay : Option (ModelEvent CallId Name Replay)) (usage : Option Usage)
    (reason : ModelFinishReason) : StreamState CallId Name Digest Replay View :=
  let state := queueAll state replay.toList
  let state := { state with terminalSeen := true }
  let state := queueAll state (usage.toList.map .usage)
  { queue state (.finish reason) with done := true }

/-- `finish_response`. -/
def finishResponse (response : ProviderResponse) (kind : TerminalKind) :
    Outcome CallId Name Digest Replay View :=
  if state.terminalSeen || state.tools.any (fun entry => !entry.2.ended) then (state, .error ())
  else if (response.status.map (fun status => status != kind.expectedStatus)).getD false then
    (state, .error ())
  else
    match response.usage.map providerUsage with
    | some none => (state, .error ())
    | usage =>
      (finalizeOutputItems externals state response.output).andThen fun state =>
        match finalText state with
        | none => (noteRefusals state, .error ())
        | some text =>
          (queueSuffix externals (noteRefusals state) text).andThen fun state =>
            let reason := finishReason state response kind
            match replayEvent externals state with
            | (left, .error ()) => (left, .error ())
            | (left, .ok replay) => (queueFinish left replay usage.join reason, .ok ())

/-- Whether a name of an event says that output has begun. -/
def isOutputEvent (eventType : Text) : Bool :=
  "response.output_".toList.isPrefixOf eventType ||
    "response.content_part.".toList.isPrefixOf eventType ||
    "response.reasoning_".toList.isPrefixOf eventType ||
    "response.refusal.".toList.isPrefixOf eventType ||
    "response.function_call_".toList.isPrefixOf eventType

/-- The kind of error that a provider's code stands for. -/
def errorCodeKind (code : Text) : Option ModelErrorKind :=
  if code = "context_length_exceeded".toList ∨ code = "context_window_exceeded".toList ∨
      code = "context_overflow".toList then some .contextOverflow
  else if code = "insufficient_quota".toList ∨ code = "quota_exceeded".toList then
    some .quotaExceeded
  else if code = "rate_limit_exceeded".toList then some .rateLimited
  else none

/-- The error of a failed response. -/
def failedResponse (value : Value) : ModelError View :=
  let envelope := ((value.get "response").bind (Value.get · "error")).or (value.get "error")
  let error := envelope.getD value
  let provider := externals.errorView (string error "code")
    (envelope.bind (fun _ => string error "type")) (string error "message")
  let kind := (([string error "code", string error "type"].reduceOption).findSome?
    errorCodeKind).getD .providerUnavailable
  let failedOutput := ((((value.get "response").bind (Value.get · "output")).bind
    Value.asArray).map (fun output => !output.isEmpty)).getD false
  let error :=
    if state.outputSeen || failedOutput then startedError kind
    else if kind = .rateLimited then retryableError kind
    else localError kind
  withProvider error provider

/-- An item was announced. -/
def itemAdded (event : OutputItemEvent) : Outcome CallId Name Digest Replay View :=
  if hasType event.item "function_call" then
    match FunctionCallItem.read event.item with
    | none => (state, .error ())
    | some item => startTool externals state event.outputIndex item
  else if hasType event.item "reasoning" then
    ({ state with reasoningParts := state.reasoningParts.markItemBoundary }, .ok ())
  else (state, .ok ())

/-- A captured item is complete. -/
def itemDone (event : OutputItemEvent) : Outcome CallId Name Digest Replay View :=
  if hasType event.item "function_call" then
    match FunctionCallItem.read event.item with
    | none => (state, .error ())
    | some item => finishToolItem externals state event.outputIndex item
  else if hasType event.item "reasoning" then
    let state :=
      if state.reasoningSeen then state
      else queueItemReasoning externals state event.outputIndex event.item
    ({ state with reasoningParts := state.reasoningParts.markItemBoundary }, .ok ())
  else (state, .ok ())

/-- Read an event from a value and act on it. -/
def withEvent {Event : Type} (event : Option Event)
    (act : Event → Outcome CallId Name Digest Replay View) : Outcome CallId Name Digest Replay View :=
  match event with
  | none => (state, .error ())
  | some event => act event

/-- The branches of `handle_frame` by the name of the event. -/
def handleEvent (eventType : Text) (value : Value) : Outcome CallId Name Digest Replay View :=
  if eventType = "response.output_text.delta".toList then
    withEvent state (DeltaEvent.read value) fun event =>
      (queueText externals state event.delta false, .ok ())
  else if eventType = "response.refusal.delta".toList then
    withEvent state (DeltaEvent.read value) fun event =>
      let state := { state with refusalSeen := state.refusalSeen || !event.delta.isEmpty }
      (queueText externals state event.delta false, .ok ())
  else if eventType = "response.reasoning_summary_text.delta".toList ∨
      eventType = "response.reasoning_text.delta".toList then
    withEvent state (ReasoningSummaryDeltaEvent.read value) fun event =>
      ({ queueReasoningDelta externals state event with reasoningSeen := true }, .ok ())
  else if eventType = "response.reasoning.delta".toList then
    if ((value.get "delta").map Value.isString).getD false then
      withEvent state (ReasoningSummaryDeltaEvent.read value) fun event =>
        ({ queueReasoningDelta externals state event with reasoningSeen := true }, .ok ())
    else (state, .ok ())
  else if eventType = "response.reasoning_summary_part.added".toList ∨
      eventType = "response.reasoning_summary_part.done".toList then
    ({ state with reasoningParts := state.reasoningParts.markItemBoundary }, .ok ())
  else if eventType = "response.output_item.added".toList then
    withEvent state (OutputItemEvent.read value) (itemAdded externals state)
  else if eventType = "response.function_call_arguments.delta".toList then
    withEvent state (ArgumentsDeltaEvent.read value) fun event =>
      appendToolArguments externals state event.outputIndex event.delta
  else if eventType = "response.function_call_arguments.done".toList then
    withEvent state (ArgumentsDoneEvent.read value) fun event =>
      finishToolArguments externals state event.outputIndex event.arguments
  else if eventType = "response.output_item.done".toList then
    withEvent state (OutputItemEvent.read value) fun event =>
      (captureOutputItem externals state event.outputIndex event.item).andThen fun state =>
        itemDone externals state event
  else if eventType = "response.completed".toList then
    withEvent state (TerminalEvent.read value) fun event =>
      finishResponse externals state event.response .completed
  else if eventType = "response.incomplete".toList then
    withEvent state (TerminalEvent.read value) fun event =>
      finishResponse externals state event.response .incomplete
  else if eventType = "response.failed".toList ∨ eventType = "error".toList then
    let state := { state with terminalSeen := true }
    (fail state (failedResponse externals state value), .ok ())
  else (state, .ok ())

/-- The bytes of `[DONE]`. -/
def doneFrame : List UInt8 := [91, 68, 79, 78, 69, 93]

/-- `handle_frame`. -/
def handleFrame (frame : List UInt8) : Outcome CallId Name Digest Replay View :=
  if frame = doneFrame then
    (fail state (streamError .incompleteResponse state.providerEventSeen), .ok ())
  else
    match externals.parseJson frame with
    | none => (state, .error ())
    | some value =>
      match itemType value with
      | none => (state, .error ())
      | some eventType =>
        handleEvent externals { state with
          providerEventSeen := true
          outputSeen := state.outputSeen || isOutputEvent eventType } eventType value

/-- The loop of `next_stream_event` over the frames of a chunk: a frame that is
refused ends the stream as malformed, and nothing is handed over once it is done. -/
def handleFrames (state : StreamState CallId Name Digest Replay View) :
    List (List UInt8) → StreamState CallId Name Digest Replay View
  | [] => state
  | frame :: rest =>
    match handleFrame externals state frame with
    | (left, .error ()) => malformed left
    | (left, .ok ()) => if left.done then left else handleFrames left rest

/-- What the stream loop can receive: the frames that the parser completes from a
chunk, with its failure, the end or an error of the connection, or the end of the
caller's patience. -/
inductive Received
  | cancelled
  | deadline
  | chunk (frames : List (List UInt8)) (parserFailed : Bool)
  | broken (timeout : Bool)
  | closed

/-- One round of `next_stream_event` with an empty queue in a state that is not
done. -/
def receive : Received → StreamState CallId Name Digest Replay View
  | .cancelled => fail state (streamError .cancelled state.providerEventSeen)
  | .deadline => fail state (streamError .timeout state.providerEventSeen)
  | .chunk frames parserFailed =>
    let handled := handleFrames externals state frames
    if parserFailed && !handled.done then malformed handled else handled
  | .broken timeout =>
    let kind := if timeout then .timeout
      else if state.outputSeen then .streamInterrupted
      else .requestOutcomeUnknown
    fail state (streamError kind state.providerEventSeen)
  | .closed =>
    let kind := if state.outputSeen then .streamInterrupted else .incompleteResponse
    fail state (streamError kind state.providerEventSeen)

end Functions

/-- A stream with the events it has emitted. -/
structure Stream (CallId Name Digest Replay View : Type) where
  emitted : List (Except (ModelError View) (ModelEvent CallId Name Replay)) := []
  state : StreamState CallId Name Digest Replay View

section Driver

variable {CallId Name Digest Replay View : Type} [DecidableEq CallId] [DecidableEq Digest]
variable (externals : Externals CallId Name Digest Replay View)

/-- The events that were queued so far: those emitted and those pending. -/
def Stream.queued (stream : Stream CallId Name Digest Replay View) :
    List (Except (ModelError View) (ModelEvent CallId Name Replay)) :=
  stream.emitted ++ stream.state.pending

/-- `next_stream_event` until the next reception: all pending events are emitted
first, and a stream that is done receives nothing. -/
def Stream.next (stream : Stream CallId Name Digest Replay View) (received : Received) :
    Stream CallId Name Digest Replay View :=
  let drained : Stream CallId Name Digest Replay View :=
    { emitted := stream.queued, state := { stream.state with pending := [] } }
  if drained.state.done then drained
  else { drained with state := receive externals drained.state received }

/-- A new stream after everything it was to receive. -/
def serve (replayIdentity : Option (Text × Text)) (receptions : List Received) :
    Stream CallId Name Digest Replay View :=
  receptions.foldl (Stream.next externals) { state := { replayIdentity } }

end Driver

end MinicoreAgent.Provider

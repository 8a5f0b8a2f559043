import MinicoreAgent.Lib.Text
import Mathlib.Data.List.Basic

/-!
# Provider output items

The JSON values a provider sends, how the typed events are read from them, and
what the adapter checks of an output item before it may be replayed. Parsing and
writing JSON, digests and the identifier types of the runtime are outside the
repository.
-/
namespace MinicoreAgent.Provider

abbrev Text := List Char

/-- A number as `serde_json` keeps it; a float by its bits. -/
inductive Number
  | posInt (value : Nat)
  | negInt (value : Int)
  | float (bits : UInt64)
  deriving DecidableEq, Repr

inductive Value
  | null
  | bool (value : Bool)
  | number (value : Number)
  | string (text : Text)
  | array (values : List Value)
  | object (fields : List (String × Value))

namespace Value

def asStr : Value → Option Text
  | .string text => some text
  | _ => none

def asArray : Value → Option (List Value)
  | .array values => some values
  | _ => none

def asObject : Value → Option (List (String × Value))
  | .object fields => some fields
  | _ => none

def asU64 : Value → Option Nat
  | .number (.posInt value) => some value
  | _ => none

def isNull : Value → Bool
  | .null => true
  | _ => false

def isString (value : Value) : Bool := value.asStr.isSome

/-- `Value::get` with a key. -/
def get (value : Value) (key : String) : Option Value :=
  match value with
  | .object fields => (fields.find? (fun field => field.1 == key)).map (·.2)
  | _ => none

/-- `value[key]`, which is null where there is no such field. -/
def index (value : Value) (key : String) : Value := (value.get key).getD .null

end Value

/-- `item_type`. -/
def itemType (value : Value) : Option Text := (value.get "type").bind Value.asStr

/-- Whether the value is of the named type. -/
def hasType (value : Value) (name : String) : Bool := itemType value == some name.toList

/-- `value_to_u32`. -/
def valueToU32 (value : Value) : Option Nat :=
  value.asU64.bind (fun number => if number < 2 ^ 32 then some number else none)

section Reading

variable {α : Type}

/-- The fields of a struct: by name from an object, by position from an array. -/
def structFields (names : List String) : Value → Option (List (Option Value))
  | .object fields => some (names.map (Value.get (.object fields)))
  | .array values => if values.length = names.length then some (values.map some) else none
  | _ => none

/-- A field that must be there. -/
def required (read : Value → Option α) (field : Option Value) : Option α := field.bind read

/-- A field of an optional type: absent and null are none. -/
def optional (read : Value → Option α) : Option Value → Option (Option α)
  | none => some none
  | some .null => some none
  | some value => (read value).map some

structure DeltaEvent where
  delta : Text

def DeltaEvent.read (value : Value) : Option DeltaEvent := do
  let delta ← required Value.asStr (value.get "delta")
  some { delta }

structure OutputItemEvent where
  outputIndex : Nat
  item : Value

def OutputItemEvent.read (value : Value) : Option OutputItemEvent := do
  let outputIndex ← required valueToU32 (value.get "output_index")
  let item ← value.get "item"
  some { outputIndex, item }

structure ArgumentsDeltaEvent where
  outputIndex : Nat
  delta : Text

def ArgumentsDeltaEvent.read (value : Value) : Option ArgumentsDeltaEvent := do
  let outputIndex ← required valueToU32 (value.get "output_index")
  let delta ← required Value.asStr (value.get "delta")
  some { outputIndex, delta }

structure ArgumentsDoneEvent where
  outputIndex : Nat
  arguments : Text

def ArgumentsDoneEvent.read (value : Value) : Option ArgumentsDoneEvent := do
  let outputIndex ← required valueToU32 (value.get "output_index")
  let arguments ← required Value.asStr (value.get "arguments")
  some { outputIndex, arguments }

structure FunctionCallItem where
  callId : Text
  name : Text
  arguments : Text

/-- The arguments default to the empty text, but must be a text where they are
given. -/
def FunctionCallItem.read (value : Value) : Option FunctionCallItem := do
  let callId ← required Value.asStr (value.get "call_id")
  let name ← required Value.asStr (value.get "name")
  let arguments ← match value.get "arguments" with
    | none => some []
    | some given => given.asStr
  some { callId, name, arguments }

structure ReasoningSummaryDeltaEvent where
  delta : Text
  outputIndex : Option Value
  itemId : Option Text
  summaryIndex : Option Value

def ReasoningSummaryDeltaEvent.read (value : Value) : Option ReasoningSummaryDeltaEvent := do
  let delta ← required Value.asStr (value.get "delta")
  let outputIndex ← optional some (value.get "output_index")
  let itemId ← optional Value.asStr (value.get "item_id")
  let summaryIndex ← optional some (value.get "summary_index")
  some { delta, outputIndex, itemId, summaryIndex }

structure InputTokenDetails where
  cachedTokens : Option Nat
  cacheWriteTokens : Option Nat

def InputTokenDetails.read (value : Value) : Option InputTokenDetails := do
  match ← structFields ["cached_tokens", "cache_write_tokens"] value with
  | [cached, written] =>
    let cachedTokens ← optional Value.asU64 cached
    let cacheWriteTokens ← optional Value.asU64 written
    some { cachedTokens, cacheWriteTokens }
  | _ => none

structure OutputTokenDetails where
  reasoningTokens : Option Nat

def OutputTokenDetails.read (value : Value) : Option OutputTokenDetails := do
  match ← structFields ["reasoning_tokens"] value with
  | [reasoning] =>
    let reasoningTokens ← optional Value.asU64 reasoning
    some { reasoningTokens }
  | _ => none

structure ProviderUsage where
  inputTokens : Nat
  outputTokens : Nat
  totalTokens : Option Nat
  inputTokensDetails : Option InputTokenDetails
  outputTokensDetails : Option OutputTokenDetails

def ProviderUsage.read (value : Value) : Option ProviderUsage := do
  match ← structFields ["input_tokens", "output_tokens", "total_tokens", "input_tokens_details",
      "output_tokens_details"] value with
  | [input, output, total, inputDetails, outputDetails] =>
    let inputTokens ← required Value.asU64 input
    let outputTokens ← required Value.asU64 output
    let totalTokens ← optional Value.asU64 total
    let inputTokensDetails ← optional InputTokenDetails.read inputDetails
    let outputTokensDetails ← optional OutputTokenDetails.read outputDetails
    some { inputTokens, outputTokens, totalTokens, inputTokensDetails, outputTokensDetails }
  | _ => none

structure IncompleteDetails where
  reason : Option Text

def IncompleteDetails.read (value : Value) : Option IncompleteDetails := do
  match ← structFields ["reason"] value with
  | [given] =>
    let reason ← optional Value.asStr given
    some { reason }
  | _ => none

structure ProviderResponse where
  status : Option Text
  usage : Option ProviderUsage
  incompleteDetails : Option IncompleteDetails
  output : Option (List Value)

def ProviderResponse.read (value : Value) : Option ProviderResponse := do
  match ← structFields ["status", "usage", "incomplete_details", "output"] value with
  | [givenStatus, givenUsage, details, items] =>
    let status ← optional Value.asStr givenStatus
    let usage ← optional ProviderUsage.read givenUsage
    let incompleteDetails ← optional IncompleteDetails.read details
    let output ← optional Value.asArray items
    some { status, usage, incompleteDetails, output }
  | _ => none

structure TerminalEvent where
  response : ProviderResponse

def TerminalEvent.read (value : Value) : Option TerminalEvent := do
  let response ← required ProviderResponse.read (value.get "response")
  some { response }

end Reading

/-- What the adapter takes from other crates: JSON, digests and the runtime's
types. The runtime's events hold at least one character of any width. -/
structure Externals (CallId Name Digest Replay View : Type) where
  /-- `serde_json::from_slice`. -/
  parseJson : List UInt8 → Option Value
  /-- Equality of `serde_json` values. -/
  sameValue : Value → Value → Bool
  /-- The length of the encoded value. -/
  encodedLen : Value → Nat
  /-- The SHA-256 digest of the encoded value. -/
  digest : Value → Digest
  /-- `ToolCallId::new`. -/
  toolCallId : Text → Option CallId
  callIdText : CallId → Text
  /-- Parsing a `ToolName`. -/
  toolName : Text → Option Name
  nameText : Name → Text
  /-- `ProviderReplay::new`. -/
  providerReplay : String → Value → Option Replay
  /-- `ProviderErrorView::new` of a code, a type and a message. -/
  errorView : Option Text → Option Text → Option Text → Option View
  maxEventBytes : Nat
  maxJsonBytes : Nat
  maxReplayBytes : Nat
  wide : 4 ≤ maxEventBytes

def maxOpenaiCallIdBytes : Nat := 64
def maxReplayItemsPerResponse : Nat := 256

section Replay

variable {CallId Name Digest Replay View : Type} [DecidableEq Digest]
variable (externals : Externals CallId Name Digest Replay View)

/-- `string`: a field that must be a text. -/
def string (value : Value) (key : String) : Option Text := (value.get key).bind Value.asStr

/-- `char::is_control`. -/
def isControl (char : Char) : Bool :=
  char.toNat < 0x20 || (0x7f ≤ char.toNat && char.toNat < 0xa0)

def openaiToolCallId (value : Text) : Option CallId :=
  if Text.byteLen value > maxOpenaiCallIdBytes then none else externals.toolCallId value

/-- `serde_json::from_str`. -/
def parseText (text : Text) : Option Value := externals.parseJson (Text.encode text)

def validPart (part : Value) : Bool :=
  match string part "type" with
  | none => false
  | some kind =>
    if kind = "output_text".toList then (string part "text").isSome
    else if kind = "refusal".toList then (string part "refusal").isSome
    else false

def validSummaryPart (part : Value) : Bool :=
  string part "type" == some "summary_text".toList && (string part "text").isSome

def validMessage (item : Value) : Bool :=
  string item "role" == some "assistant".toList &&
    match (item.get "content").bind Value.asArray with
    | none => false
    | some content => !content.isEmpty && content.all validPart

def validReasoning (item : Value) : Bool :=
  (match item.get "encrypted_content" with
    | none => true
    | some encrypted => encrypted.isNull || encrypted.isString) &&
  (match item.get "summary" with
    | none => true
    | some summary =>
      match summary.asArray with
      | none => false
      | some parts => parts.all validSummaryPart)

def validFunctionCall (item : Value) : Bool :=
  ((string item "call_id").bind (openaiToolCallId externals)).isSome &&
    ((string item "name").bind externals.toolName).isSome &&
    (match (string item "arguments").bind (parseText externals) with
      | none => false
      | some arguments => arguments.asObject.isSome)

def validId (id : Value) : Bool :=
  match id.asStr with
  | none => false
  | some text => !text.isEmpty && Text.byteLen text ≤ 256 && !text.any isControl

/-- `validate_item`. -/
def validateItem (item : Value) : Bool :=
  match item.asObject, string item "type" with
  | some _, some kind =>
    (kind = "message".toList || kind = "reasoning".toList || kind = "function_call".toList) &&
    (match item.get "role" with
      | none => true
      | some role => role.asStr == some "assistant".toList) &&
    (match item.get "id" with
      | none => true
      | some id => validId id) &&
    (match item.get "status" with
      | none => true
      | some status =>
        status.asStr == some "completed".toList || status.asStr == some "incomplete".toList) &&
    (if kind = "message".toList then validMessage item
      else if kind = "reasoning".toList then validReasoning item
      else validFunctionCall externals item)
  | _, _ => false

def nonemptyText (value : Value) : Bool :=
  match value.asStr with
  | none => false
  | some text => !text.isEmpty

/-- The field that holds the text of a message part. -/
def partKey (part : Value) : String := if hasType part "refusal" then "refusal" else "text"

/-- `has_content`, of validated items. -/
def hasContent (output : List Value) : Bool :=
  output.any fun item =>
    if hasType item "function_call" then true
    else if hasType item "message" then
      ((item.index "content").asArray.getD []).any
        (fun part => nonemptyText (part.index (partKey part)))
    else
      nonemptyText (item.index "encrypted_content") ||
        ((item.index "summary").asArray.getD []).any (fun part => nonemptyText (part.index "text"))

/-- The loop of `validate_output` over the items, with the ids and calls seen. -/
def validateEach (ids calls : List Text) : List Value → Bool
  | [] => true
  | item :: rest =>
    validateItem externals item &&
    (match (item.get "id").bind Value.asStr with
      | none => true
      | some id => !ids.contains id) &&
    (!hasType item "function_call" ||
      match string item "call_id" with
      | none => false
      | some call => !calls.contains call) &&
    validateEach (((item.get "id").bind Value.asStr).toList ++ ids)
      (if hasType item "function_call" then (string item "call_id").toList ++ calls else calls) rest

/-- `validate_output`. -/
def validateOutput (output : List Value) : Bool :=
  !output.isEmpty && output.length ≤ maxReplayItemsPerResponse &&
    validateEach externals [] [] output && hasContent output

/-- The text of a message's parts. -/
def partTexts : List Value → Option Text
  | [] => some []
  | part :: rest => do
    let text ← string part (partKey part)
    let later ← partTexts rest
    some (text ++ later)

/-- `visible_text`. -/
def visibleText : List Value → Option Text
  | [] => some []
  | item :: rest =>
    if hasType item "message" then do
      let parts ← (item.get "content").bind Value.asArray
      let text ← partTexts parts
      let later ← visibleText rest
      some (text ++ later)
    else visibleText rest

/-- `InputMessage::assistant` without an id, as a value. -/
def assistantMessage (text : Text) : Value :=
  .object [
    ("content", .array [.object [
      ("annotations", .array []), ("text", .string text), ("type", .string "output_text".toList)]]),
    ("role", .string "assistant".toList),
    ("status", .string "completed".toList),
    ("type", .string "message".toList)]

/-- The items of an output that can be replayed. -/
def reusable : List Value → Option (List Value)
  | [] => some []
  | item :: rest =>
    if (item.get "id").isSome || hasType item "function_call" then
      (reusable rest).map (item :: ·)
    else if hasType item "message" then do
      let text ← visibleText [item]
      let later ← reusable rest
      some (assistantMessage text :: later)
    else reusable rest

/-- `capture`. -/
def capture (endpoint model : Text) (output : List Value) : Option (Option Replay) :=
  if !validateOutput externals output then none
  else do
    let items ← reusable output
    if !hasContent items then some none
    else
      some (externals.providerReplay "openai-responses-v1" (.object [
        ("endpoint", .string endpoint), ("model", .string model), ("output", .array items)]))

structure ItemEvidence (Digest : Type) where
  exact : Digest
  beforeEncryption : Option Digest
  text : Text

/-- `fingerprint`. -/
def fingerprint (item : Value) (omitEncrypted : Bool) : Digest :=
  if omitEncrypted then
    externals.digest (.object
      ((item.asObject.getD []).filter (fun field => field.1 != "encrypted_content")))
  else externals.digest item

/-- `ItemEvidence::new`. -/
def ItemEvidence.new (item : Value) : Option (ItemEvidence Digest) := do
  let text ← visibleText [item]
  let unencrypted := hasType item "reasoning" &&
    ((item.get "encrypted_content").map Value.isNull).getD true
  some {
    exact := fingerprint externals item false
    beforeEncryption := if unencrypted then some (fingerprint externals item true) else none
    text }

/-- `ItemEvidence::matches`. -/
def ItemEvidence.agrees (evidence : ItemEvidence Digest) (terminal : Value) : Bool :=
  evidence.exact = fingerprint externals terminal false ||
    match evidence.beforeEncryption with
    | none => false
    | some before =>
      ((terminal.get "encrypted_content").map Value.isString).getD false &&
        before = fingerprint externals terminal true

end Replay

end MinicoreAgent.Provider

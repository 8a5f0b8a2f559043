import MinicoreAgent.SessionReads
import MinicoreAgent.SessionState

/-!
# Sources of a turn's result

`turn.result` shows a turn as JSON texts of its items and names what it shows by a
digest. The texts are made from a projection of the items: provider continuations and
replay data are left out, and so is an assistant item of which nothing is left. The
digest is taken over the texts with their lengths and over the interrupted copy.

A result that could not be stored is encoded once and retained. Any other is encoded
anew for each page; the whole turn while its digest is not known, and only the page
when it is. The ways differ in how the bytes are fed to the hash and in where they
stop, and agree in the texts and in the digest.
-/
namespace MinicoreAgent.TurnResults

open HistoryStore ReadPages Text

section Model

/-- The errors that `turn.result` can end with. -/
inductive TurnError
  | staleLoad
  | missingLoad
  | staleResult
  | read (error : ReadPages.AgentError)
  deriving DecidableEq, Repr

def maxHistoryScanBytes : Nat := 64 * 1024 * 1024
def maxHistoryScanLines : Nat := 100000

variable {Payload Replay : Type}

/-- `SourceParts::visible`. -/
def visible : AssistantPart Payload → Bool
  | .reasoning reasoning => reasoning.text.isSome || reasoning.summary.isSome
  | _ => true

/-- A part as `SourceParts` writes it. -/
def sourcePart : AssistantPart Payload → AssistantPart Payload
  | .reasoning reasoning => .reasoning { reasoning with continuation := none }
  | part => part

/-- The parts that `SourceParts` writes. -/
def sourceParts (content : List (AssistantPart Payload)) : List (AssistantPart Payload) :=
  (content.filter visible).map sourcePart

/-- `SourceItem`. -/
inductive SourceItem (Payload : Type)
  | user (user : Payload)
  | assistant (details : Payload) (content : List (AssistantPart Payload))
  | toolResult (result : Payload)
  | summary (summary : Payload)
  deriving DecidableEq

/-- `SourceItem::canonical`. -/
def SourceItem.canonical : HistoryItem Payload Replay → SourceItem Payload
  | .user prompt => .user prompt
  | .toolResult output => .toolResult output
  | .summary text => .summary text
  | .assistant reply => .assistant reply.details (sourceParts reply.content)

/-- `SourceItem::from_history`. -/
def SourceItem.fromHistory (item : HistoryItem Payload Replay) : Option (SourceItem Payload) :=
  match item with
  | .assistant reply => if reply.content.any visible then some (.canonical item) else none
  | item => some (.canonical item)

/-- `LoopOutcomeView`. A cancellation without a reason is one with an unknown reason. -/
inductive LoopOutcomeView (Payload : Type)
  | completed
  | cancelled (reason : Option Payload)
  | failed (kind : String) (modelError : Option Payload)
  | unknown
  deriving DecidableEq

/-- What the store does not look into of a record: its outcome, requests, tool rounds,
configuration revision and completion time. -/
structure Facts (Payload : Type) where
  outcome : LoopOutcomeView Payload
  requests : Nat
  toolRounds : Nat
  finalConfigRevision : Nat
  completedAt : String
  deriving DecidableEq

/-- What answering calls outside: `serde_json` on an envelope without a timestamp and
on the interrupted copy, the pieces in which it hands a text to a writer, and the
fields of a record. -/
structure TurnExternals (Payload : Type) where
  envelopeJson : SourceItem Payload → Option (List Char)
  interruptedJson : Option Payload → Option (List Char)
  pieces : List Char → List (List UInt8)
  facts : Payload → Facts Payload

/-- `u64::to_be_bytes`. -/
def toBeBytes (value : Nat) : List UInt8 :=
  (List.range 8).map fun place => UInt8.ofNat (value / 256 ^ (7 - place))

/-- `b"minicore-turn-result-r1\0"`. -/
def resultTag : List UInt8 := ascii "minicore-turn-result-r1" ++ [0]

/-- `TurnResult`, without the turn. -/
structure TurnResult (Payload : Type) where
  outcome : LoopOutcomeView Payload
  usage : Usage
  requests : Nat
  toolRounds : Nat
  finalConfigRevision : Nat
  persistence : SessionState.TurnPersistence
  deriving DecidableEq

/-- `PreparedSource`, without its size. -/
structure PreparedSource (Payload : Type) where
  items : List (List Char)
  interrupted : Option Payload
  resultId : String
  metadata : TurnResult Payload
  deriving DecidableEq

variable {LoopId Digest : Type}
  (externals : Externals LoopId Payload Replay Digest)
  (pages : PageExternals LoopId Payload Digest) (turns : TurnExternals Payload)

/-- The hash before the first item. -/
def beginHash (total : Nat) : Digest :=
  externals.update (externals.update externals.newDigest resultTag) (toBeBytes total)

/-- The identity once all items are hashed. -/
def finishHash (hash : Digest) (interrupted : Option Payload) : Except TurnError String :=
  match turns.interruptedJson interrupted with
  | none => .error (.read .rpcSerialization)
  | some json =>
    let hash := externals.update hash (toBeBytes (byteLen json))
    .ok ("r1:" ++ pages.digestHex ((turns.pieces json).foldl externals.update hash))

/-- `PreparedSource::new`. -/
def PreparedSource.new (items : List (List Char)) (interrupted : Option Payload)
    (metadata : TurnResult Payload) : Except TurnError (PreparedSource Payload) :=
  let hash := items.foldl (fun hash item =>
    externals.update (externals.update hash (toBeBytes (byteLen item))) (encode item))
    (beginHash externals items.length)
  match finishHash externals pages turns hash interrupted with
  | .error error => .error error
  | .ok resultId =>
    .ok { items := items, interrupted := interrupted, resultId := resultId, metadata := metadata }

/-- `encode_result_source`. -/
def encodeResultSource (items : List (HistoryItem Payload Replay)) (interrupted : Option Payload)
    (metadata : TurnResult Payload) : Except TurnError (PreparedSource Payload) :=
  match (items.filterMap SourceItem.fromHistory).mapM turns.envelopeJson with
  | none => .error (.read .rpcSerialization)
  | some encoded => PreparedSource.new externals pages turns encoded interrupted metadata

/-- Where `prepare_turn_view` asks its budget. -/
inductive ViewPoint
  | begun
  | item (index : Nat)
  | ended
  deriving DecidableEq, Repr

/-- `PreparedTurnItems`. -/
structure PreparedTurnItems where
  resultId : String
  total : Nat
  encoded : List (Nat × List Char)
  deriving DecidableEq, Repr

/-- What the loop of `prepare_turn_view` carries. There is no hash where the identity
is known. -/
structure View (Digest : Type) where
  hash : Option Digest
  sourceBytes : Nat
  preparedBytes : Nat
  encoded : List (Nat × List Char)

/-- The place and the size of the page that is asked for. -/
structure PageRange where
  cursor : ReadCursor
  stop : Nat
  maxBytes : Nat

/-- An item is counted in the hash: its length is hashed before its text. -/
def View.count (view : View Digest) (json : List Char) : Except TurnError (View Digest) :=
  match view.hash with
  | none => .ok view
  | some hash =>
    let sourceBytes := view.sourceBytes + byteLen json
    if maxHistoryScanBytes < sourceBytes then .error (.read .queryLimit)
    else
      .ok
        { view with
          sourceBytes := sourceBytes
          hash := some (externals.update hash (toBeBytes (byteLen json))) }

/-- An item of the page is encoded and kept, any other is only hashed. -/
def View.take (range : PageRange) (view : View Digest) (index : Nat) (json : List Char) :
    View Digest :=
  if range.cursor.item ≤ index ∧ index < range.stop ∧ view.preparedBytes < range.maxBytes then
    { view with
      hash := view.hash.map fun hash => externals.update hash (encode json)
      preparedBytes := view.preparedBytes +
        (byteLen json - if index = range.cursor.item then range.cursor.offset else 0)
      encoded := view.encoded ++ [(index, json)] }
  else { view with hash := view.hash.map fun hash => (turns.pieces json).foldl externals.update hash }

/-- The loop of `prepare_turn_view`. -/
def viewLoop (range : PageRange) (budget : ViewPoint → Bool) :
    Nat → List (SourceItem Payload) → View Digest → Except TurnError (View Digest)
  | _, [], view => .ok view
  | index, item :: rest, view =>
    if budget (.item index) = false then .error (.read .queryLimit)
    else if view.hash.isNone ∧ range.maxBytes ≤ view.preparedBytes then .ok view
    else
      match turns.envelopeJson item with
      | none => .error (.read .rpcSerialization)
      | some json =>
        match view.count externals json with
        | .error error => .error error
        | .ok view => viewLoop range budget (index + 1) rest (view.take externals turns range index json)

/-- The identity of a finished view. -/
def viewIdentity (identity : Option (String × Nat)) (interrupted : Option Payload)
    (view : View Digest) : Except TurnError String :=
  match view.hash, identity with
  | some hash, _ => finishHash externals pages turns hash interrupted
  | none, some (resultId, _) => .ok resultId
  | none, none => .error (.read .internal)

/-- `prepare_turn_view` of the items in a range. A range that is not one of the items
panics in the blocking task. -/
def prepareTurnView (items : List (HistoryItem Payload Replay)) (start stop : Nat)
    (interrupted : Option Payload) (cursor : ReadCursor) (limit maxBytes : Nat)
    (budget : ViewPoint → Bool) (identity : Option (String × Nat)) :
    Except TurnError PreparedTurnItems :=
  if ¬ (start ≤ stop ∧ stop ≤ items.length) then .error (.read .internal)
  else if budget .begun = false then .error (.read .queryLimit)
  else if maxHistoryScanLines < stop - start then .error (.read .queryLimit)
  else
    let shown := ((items.take stop).drop start).filterMap SourceItem.fromHistory
    let total := (identity.map Prod.snd).getD shown.length
    match validateCursor cursor total with
    | .error error => .error (.read error)
    | .ok () =>
      let range : PageRange :=
        { cursor := cursor, stop := min (cursor.item + limit) total, maxBytes := maxBytes }
      let first := if identity.isNone then 0 else cursor.item
      let supplied :=
        if identity.isNone then shown
        else (shown.drop cursor.item).take (range.stop - cursor.item)
      let begun : View Digest :=
        { hash := if identity.isNone then some (beginHash externals total) else none
          sourceBytes := 0, preparedBytes := 0, encoded := [] }
      match viewLoop externals turns range budget first supplied begun with
      | .error error => .error error
      | .ok view =>
        match viewIdentity externals pages turns identity interrupted view with
        | .error error => .error error
        | .ok resultId =>
          if budget .ended = false then .error (.read .queryLimit)
          else .ok { resultId := resultId, total := total, encoded := view.encoded }

/-- `prepare_turn_items`. -/
def prepareTurnItems (items : List (HistoryItem Payload Replay)) (interrupted : Option Payload)
    (cursor : ReadCursor) (limit maxBytes : Nat) (budget : ViewPoint → Bool) :
    Except TurnError PreparedTurnItems :=
  prepareTurnView externals pages turns items 0 items.length interrupted cursor limit maxBytes
    budget none

end Model

section Projection

variable {LoopId Payload Replay Digest : Type}
  {externals : Externals LoopId Payload Replay Digest}

theorem source_parts_cons (part : AssistantPart Payload) (rest : List (AssistantPart Payload)) :
    sourceParts (part :: rest) =
      if visible part then sourcePart part :: sourceParts rest else sourceParts rest := by
  unfold sourceParts
  rw [List.filter_cons]
  split <;> rfl

/-- Cleaning an assistant item changes nothing of what is shown of it. -/
theorem source_parts_sanitized {parts cleaned : List (AssistantPart Payload)}
    (done : sanitizeParts externals parts = some cleaned) :
    sourceParts cleaned = sourceParts parts ∧ cleaned.any visible = parts.any visible := by
  induction parts generalizing cleaned with
  | nil =>
    cases done
    exact ⟨rfl, rfl⟩
  | cons part rest inductionHypothesis =>
    cases part with
    | reasoning reasoning =>
      rw [sanitizeParts] at done
      split at done
      · rename_i absent
        have hidden : visible (.reasoning reasoning : AssistantPart Payload) = false := by
          simp [visible, absent.1, absent.2]
        obtain ⟨parts, any⟩ := inductionHypothesis done
        exact ⟨by simp [source_parts_cons, hidden, parts], by simp [hidden, any]⟩
      · rename_i present
        split at done
        · obtain ⟨others, later, rfl⟩ := Option.map_eq_some_iff.mp done
          have shown : visible (.reasoning reasoning : AssistantPart Payload) = true := by
            simp only [visible, Bool.or_eq_true, Option.isSome_iff_ne_none]
            by_contra neither
            simp only [not_or, not_not] at neither
            exact present neither
          have cleanedShown : visible (.reasoning
              { reasoning with continuation := none } : AssistantPart Payload) = true := shown
          obtain ⟨parts, _⟩ := inductionHypothesis later
          exact ⟨by simp [source_parts_cons, shown, cleanedShown, parts, sourcePart],
            by simp [shown, cleanedShown]⟩
        · cases done
    | text content =>
      obtain ⟨others, later, rfl⟩ := Option.map_eq_some_iff.mp done
      obtain ⟨parts, _⟩ := inductionHypothesis later
      exact ⟨by simp [source_parts_cons, parts], by simp [visible]⟩
    | toolCall call =>
      obtain ⟨others, later, rfl⟩ := Option.map_eq_some_iff.mp done
      obtain ⟨parts, _⟩ := inductionHypothesis later
      exact ⟨by simp [source_parts_cons, parts], by simp [visible]⟩

/-- What is shown of an assistant item is what is shown of what is left of it. -/
theorem from_history_sanitized {assistant : AssistantHistory Payload Replay}
    {cleaned : Option (AssistantHistory Payload Replay)}
    (done : sanitizeAssistant externals true assistant = some cleaned) :
    (cleaned.toList.map HistoryItem.assistant).filterMap SourceItem.fromHistory =
      (SourceItem.fromHistory (.assistant assistant : HistoryItem Payload Replay)).toList := by
  obtain ⟨content, sanitized, kept⟩ := Option.bind_eq_some_iff.mp done
  obtain ⟨parts, any⟩ := source_parts_sanitized sanitized
  simp only [if_true, Bool.true_and] at kept
  split at kept
  · cases kept
  · split at kept
    · rename_i empty
      cases kept
      simp only [Bool.and_eq_true, List.isEmpty_iff] at empty
      rw [empty.1, List.any_nil] at any
      simp [SourceItem.fromHistory, ← any]
    · cases kept
      rw [Option.toList_some, List.map_singleton, List.filterMap_cons, List.filterMap_nil]
      simp only [SourceItem.fromHistory, SourceItem.canonical, any, parts]
      by_cases shown : assistant.content.any visible = true
      · simp [shown]
      · simp [shown]

/-- Normalizing a history changes nothing of what is shown of it. -/
theorem from_history_normalized {items normalized : List (HistoryItem Payload Replay)}
    (done : normalizeHistory externals items = some normalized) :
    normalized.filterMap SourceItem.fromHistory = items.filterMap SourceItem.fromHistory := by
  unfold normalizeHistory at done
  induction items generalizing normalized with
  | nil =>
    cases done
    rfl
  | cons item rest inductionHypothesis =>
    cases item with
    | assistant assistant =>
      obtain ⟨cleaned, sanitized, later⟩ := Option.bind_eq_some_iff.mp done
      obtain ⟨others, tail, rfl⟩ := Option.map_eq_some_iff.mp later
      rw [List.filterMap_append, inductionHypothesis tail, from_history_sanitized sanitized,
        List.filterMap_cons]
      cases SourceItem.fromHistory (.assistant assistant : HistoryItem Payload Replay) with
      | none => rfl
      | some shown => rfl
    | user user =>
      obtain ⟨others, tail, rfl⟩ := Option.map_eq_some_iff.mp done
      simp [inductionHypothesis tail, SourceItem.fromHistory]
    | toolResult result =>
      obtain ⟨others, tail, rfl⟩ := Option.map_eq_some_iff.mp done
      simp [inductionHypothesis tail, SourceItem.fromHistory]
    | summary summary =>
      obtain ⟨others, tail, rfl⟩ := Option.map_eq_some_iff.mp done
      simp [inductionHypothesis tail, SourceItem.fromHistory]

end Projection

section Identity

variable {LoopId Payload Replay Digest : Type}
  (externals : Externals LoopId Payload Replay Digest)
  (pages : PageExternals LoopId Payload Digest) (turns : TurnExternals Payload)

/-- A hash reads a stream: only the bytes matter, not where they are cut, and what a
writer is handed is the encoded text. -/
structure Streams : Prop where
  joined : ∀ digest first second,
    externals.update (externals.update digest first) second =
      externals.update digest (first ++ second)
  idle : ∀ digest, externals.update digest [] = digest
  whole : ∀ text, (turns.pieces text).flatten = encode text

/-- A text behind its length. -/
def sized (text : List Char) : List UInt8 := toBeBytes (byteLen text) ++ encode text

/-- The bytes that an identity is the digest of. -/
def resultBytes (texts : List (List Char)) (interrupted : Option Payload) : List UInt8 :=
  resultTag ++ toBeBytes texts.length ++ texts.flatMap sized ++
    sized ((turns.interruptedJson interrupted).getD [])

/-- The identity of a result that shows these texts and this interrupted copy. -/
def resultIdOf (texts : List (List Char)) (interrupted : Option Payload) : String :=
  "r1:" ++ pages.digestHex
    (externals.update externals.newDigest (resultBytes turns texts interrupted))

/-- What is shown of some items is written as these texts. -/
def Written (items : List (SourceItem Payload)) (texts : List (List Char)) : Prop :=
  List.Forall₂ (fun item text => turns.envelopeJson item = some text) items texts

variable {externals pages turns} {digest : Digest} {texts : List (List Char)}
  {interrupted : Option Payload} {resultId : String}

theorem Streams.pieces (streams : Streams externals turns) (text : List Char) :
    (turns.pieces text).foldl externals.update digest = externals.update digest (encode text) := by
  have fold (parts : List (List UInt8)) (digest : Digest) :
      parts.foldl externals.update digest = externals.update digest parts.flatten := by
    induction parts generalizing digest with
    | nil => rw [List.foldl_nil, List.flatten_nil, streams.idle]
    | cons part rest inductionHypothesis =>
      rw [List.foldl_cons, inductionHypothesis, streams.joined, List.flatten_cons]
  rw [fold, streams.whole]

/-- Hashing the texts one after the other is hashing their bytes. -/
theorem Streams.hashed (streams : Streams externals turns) (texts : List (List Char))
    (digest : Digest) :
    texts.foldl (fun hash text =>
        externals.update (externals.update hash (toBeBytes (byteLen text))) (encode text)) digest =
      externals.update digest (texts.flatMap sized) := by
  induction texts generalizing digest with
  | nil => rw [List.foldl_nil, List.flatMap_nil, streams.idle]
  | cons text rest inductionHypothesis =>
    rw [List.foldl_cons, inductionHypothesis, streams.joined, streams.joined, List.flatMap_cons,
      sized, List.append_assoc]

/-- The identity of the texts, once they are hashed. -/
theorem finish_hash_ok (streams : Streams externals turns)
    (hashed : digest = externals.update (beginHash externals texts.length) (texts.flatMap sized))
    (done : finishHash externals pages turns digest interrupted = .ok resultId) :
    resultId = resultIdOf externals pages turns texts interrupted := by
  unfold finishHash at done
  split at done
  · cases done
  · rename_i json written
    cases done
    unfold resultIdOf resultBytes
    rw [streams.pieces, hashed, beginHash, streams.joined, streams.joined, streams.joined,
      streams.joined, written, Option.getD_some, sized]
    simp only [List.append_assoc]

/-- The texts of a mapped list, if all of them can be written. -/
theorem written_iff {items : List (SourceItem Payload)} :
    items.mapM turns.envelopeJson = some texts ↔ Written turns items texts := by
  unfold Written
  induction items generalizing texts with
  | nil => simp [List.forall₂_nil_left_iff, eq_comm]
  | cons item rest inductionHypothesis =>
    rw [List.forall₂_cons_left_iff, List.mapM_cons]
    cases here : turns.envelopeJson item with
    | none => simp
    | some text =>
      constructor
      · intro mapped
        obtain ⟨_, ⟨rfl⟩, mapped⟩ := Option.bind_eq_some_iff.mp mapped
        obtain ⟨others, tail, ⟨rfl⟩⟩ := Option.bind_eq_some_iff.mp mapped
        exact ⟨text, others, rfl, inductionHypothesis.mp tail, rfl⟩
      · rintro ⟨_, others, same, tail, rfl⟩
        cases same
        rw [← inductionHypothesis] at tail
        simp [tail]

theorem Written.unique {items : List (SourceItem Payload)} {others : List (List Char)}
    (written : Written turns items texts) (again : Written turns items others) : texts = others := by
  rw [← written_iff] at written again
  rw [written] at again
  exact Option.some.inj again

/-- A retained source shows the texts of its items under their identity. -/
theorem encode_result_source_ok (streams : Streams externals turns)
    {items : List (HistoryItem Payload Replay)} {metadata : TurnResult Payload}
    {source : PreparedSource Payload}
    (done : encodeResultSource externals pages turns items interrupted metadata = .ok source) :
    Written turns (items.filterMap SourceItem.fromHistory) source.items ∧
      source.interrupted = interrupted ∧
      source.resultId = resultIdOf externals pages turns source.items interrupted := by
  unfold encodeResultSource at done
  split at done
  · cases done
  · rename_i encoded encodes
    unfold PreparedSource.new at done
    dsimp only at done
    split at done
    · cases done
    · rename_i resultId finished
      cases done
      exact ⟨written_iff.mp encodes, rfl, finish_hash_ok streams (streams.hashed _ _) finished⟩

end Identity

section Views

variable {LoopId Payload Replay Digest : Type}
  {externals : Externals LoopId Payload Replay Digest}
  {pages : PageExternals LoopId Payload Digest} {turns : TurnExternals Payload}
  {range : PageRange} {budget : ViewPoint → Bool} {view after : View Digest}
  {supplied : List (SourceItem Payload)} {texts : List (List Char)} {index : Nat}

/-- Counting an item changes only the hash and the bytes that were hashed. -/
theorem count_ok {json : List Char} (counted : view.count externals json = .ok after) :
    after.hash = view.hash.map (externals.update · (toBeBytes (byteLen json))) ∧
      after.preparedBytes = view.preparedBytes ∧ after.encoded = view.encoded := by
  unfold View.count at counted
  split at counted
  · rename_i absent
    cases counted
    exact ⟨by rw [absent]; rfl, rfl, rfl⟩
  · rename_i hash present
    dsimp only at counted
    split at counted
    · cases counted
    · cases counted
      exact ⟨by rw [present]; rfl, rfl, rfl⟩

/-- Taking an item hashes its bytes. -/
theorem take_hash (streams : Streams externals turns) (json : List Char) :
    (view.take externals turns range index json).hash =
      view.hash.map (externals.update · (encode json)) := by
  unfold View.take
  split
  · rfl
  · simp only [streams.pieces]

/-- The loop over one more item, unless it stops because the page is full. -/
theorem view_loop_cons {item : SourceItem Payload} {rest : List (SourceItem Payload)}
    (done : viewLoop externals turns range budget index (item :: rest) view = .ok after) :
    (view.hash = none ∧ range.maxBytes ≤ view.preparedBytes ∧ after = view) ∨
    ∃ json counted, turns.envelopeJson item = some json ∧
      view.count externals json = .ok counted ∧
      viewLoop externals turns range budget (index + 1) rest
        (counted.take externals turns range index json) = .ok after := by
  unfold viewLoop at done
  split at done
  · cases done
  · split at done
    · rename_i full
      cases done
      exact Or.inl ⟨Option.isNone_iff_eq_none.mp full.1, full.2, rfl⟩
    · split at done
      · cases done
      · rename_i json written
        split at done
        · cases done
        · rename_i counted count
          exact Or.inr ⟨json, counted, written, count, done⟩

/-- A view that takes a digest hashes every item. -/
theorem view_loop_hashed (streams : Streams externals turns) {hash : Digest}
    (hashing : view.hash = some hash)
    (done : viewLoop externals turns range budget index supplied view = .ok after) :
    ∃ texts, Written turns supplied texts ∧
      after.hash = some (externals.update hash (texts.flatMap sized)) := by
  induction supplied generalizing index view hash with
  | nil =>
    cases done
    exact ⟨[], .nil, by rw [hashing, List.flatMap_nil, streams.idle]⟩
  | cons item rest inductionHypothesis =>
    rcases view_loop_cons done with ⟨absent, _⟩ | ⟨json, counted, written, count, later⟩
    · rw [hashing] at absent
      cases absent
    · have taken : (counted.take externals turns range index json).hash =
          some (externals.update hash (sized json)) := by
        rw [take_hash streams, (count_ok count).1, hashing, Option.map_some, Option.map_some,
          streams.joined, sized]
      obtain ⟨others, tail, ended⟩ := inductionHypothesis taken later
      refine ⟨json :: others, .cons written tail, ?_⟩
      rw [ended, streams.joined, List.flatMap_cons]

/-- A view that takes no digest takes none. -/
theorem view_loop_unhashed (streams : Streams externals turns) (absent : view.hash = none)
    (done : viewLoop externals turns range budget index supplied view = .ok after) :
    after.hash = none := by
  induction supplied generalizing index view with
  | nil =>
    cases done
    exact absent
  | cons item rest inductionHypothesis =>
    rcases view_loop_cons done with ⟨_, _, rfl⟩ | ⟨json, counted, _, count, later⟩
    · exact absent
    · apply inductionHypothesis _ later
      rw [take_hash streams, (count_ok count).1, absent]
      rfl

/-- A full page takes nothing more. -/
theorem view_loop_full (full : range.maxBytes ≤ view.preparedBytes)
    (done : viewLoop externals turns range budget index supplied view = .ok after) :
    after.encoded = view.encoded := by
  induction supplied generalizing index view with
  | nil =>
    cases done
    rfl
  | cons item rest inductionHypothesis =>
    rcases view_loop_cons done with ⟨_, _, rfl⟩ | ⟨json, counted, _, count, later⟩
    · rfl
    · obtain ⟨_, prepared, encoded⟩ := count_ok count
      have untaken : counted.take externals turns range index json =
          { counted with
            hash := counted.hash.map fun hash => (turns.pieces json).foldl externals.update hash } := by
        unfold View.take
        exact if_neg (by omega)
      rw [untaken] at later
      rw [inductionHypothesis (by rw [prepared]; exact full) later, encoded]

/-- Texts with their places. -/
def placed (index : Nat) (texts : List (List Char)) : List (Nat × List Char) :=
  texts.mapIdx fun offset text => (index + offset, text)

theorem placed_cons (index : Nat) (text : List Char) (rest : List (List Char)) :
    placed index (text :: rest) = (index, text) :: placed (index + 1) rest := by
  unfold placed
  rw [List.mapIdx_cons]
  simp only [Nat.add_zero, Nat.add_assoc, Nat.add_comm 1]

/-- The texts of some items; an item that cannot be written has none. -/
def itemTexts (turns : TurnExternals Payload) (items : List (SourceItem Payload)) :
    List (List Char) :=
  items.map fun item => (turns.envelopeJson item).getD []

theorem written_texts {items : List (SourceItem Payload)} (written : Written turns items texts) :
    itemTexts turns items = texts := by
  induction written with
  | nil => rfl
  | cons here _ inductionHypothesis =>
    rw [itemTexts, List.map_cons, here, Option.getD_some]
    exact congrArg _ inductionHypothesis

/-- The bytes that items with their places add to what is prepared for a page. -/
def PageRange.bytesOf (range : PageRange) (entries : List (Nat × List Char)) : Nat :=
  (entries.map fun entry =>
    byteLen entry.2 - if entry.1 = range.cursor.item then range.cursor.offset else 0).sum

/-- What a view encodes is a beginning of the page: all of it, or enough to fill it. -/
theorem view_loop_filled
    (done : viewLoop externals turns range budget index supplied view = .ok after) :
    let shown := window range.cursor.item range.stop index
      (placed index (itemTexts turns supplied))
    ∃ count, after.encoded = view.encoded ++ shown.take count ∧
      (shown.length ≤ count ∨
        range.maxBytes ≤ view.preparedBytes + range.bytesOf (shown.take count)) := by
  induction supplied generalizing index view with
  | nil =>
    cases done
    refine ⟨0, by simp, Or.inl ?_⟩
    simp [itemTexts, placed, window]
  | cons item rest inductionHypothesis =>
    intro shown
    by_cases room : view.preparedBytes < range.maxBytes
    · rcases view_loop_cons done with ⟨_, full, _⟩ | ⟨text, counted, here, count, later⟩
      · exact absurd room (Nat.not_lt.mpr full)
      · obtain ⟨_, prepared, encoded⟩ := count_ok count
        have first : shown = window range.cursor.item range.stop index
            ((index, text) :: placed (index + 1) (itemTexts turns rest)) := by
          simp only [shown, itemTexts, List.map_cons, placed_cons, here, Option.getD_some]
        rw [window_cons] at first
        obtain ⟨number, ended, filled⟩ := inductionHypothesis later
        by_cases inside : range.cursor.item ≤ index ∧ index < range.stop
        · rw [if_pos inside] at first
          have taken : counted.take externals turns range index text =
              { counted with
                hash := counted.hash.map fun hash => externals.update hash (encode text)
                preparedBytes := view.preparedBytes +
                  (byteLen text - if index = range.cursor.item then range.cursor.offset else 0)
                encoded := view.encoded ++ [(index, text)] } := by
            rw [View.take, if_pos ⟨inside.1, inside.2, by omega⟩, prepared, encoded]
          rw [taken] at ended filled
          refine ⟨number + 1, ?_, ?_⟩
          · rw [ended, first, List.take_succ_cons, List.append_assoc, List.singleton_append]
          · rw [first, List.length_cons, List.take_succ_cons, PageRange.bytesOf, List.map_cons,
              List.sum_cons, ← PageRange.bytesOf]
            dsimp only at filled ⊢
            omega
        · rw [if_neg inside] at first
          have passed : counted.take externals turns range index text =
              { counted with
                hash := counted.hash.map fun hash =>
                  (turns.pieces text).foldl externals.update hash } := by
            rw [View.take]
            exact if_neg fun wrong => inside ⟨wrong.1, wrong.2.1⟩
          rw [passed] at ended filled
          refine ⟨number, ?_, ?_⟩
          · rw [ended, first, encoded]
          · rw [first]
            rw [prepared] at filled
            exact filled
    · refine ⟨0, ?_, Or.inr ?_⟩
      · rw [List.take_zero, List.append_nil]
        exact view_loop_full (Nat.not_lt.mp room) done
      · exact Nat.le_trans (Nat.not_lt.mp room) (Nat.le_add_right _ _)

/-- What a view encodes is a beginning of the page, with at least one item if there
is one. -/
theorem view_loop_encoded (written : Written turns supplied texts)
    (done : viewLoop externals turns range budget index supplied view = .ok after)
    (room : view.preparedBytes < range.maxBytes) :
    ∃ count, 1 ≤ count ∧ after.encoded = view.encoded ++
      (window range.cursor.item range.stop index (placed index texts)).take count := by
  obtain ⟨count, encoded, filled⟩ := view_loop_filled done
  rw [written_texts written] at encoded filled
  cases count with
  | zero =>
    rcases filled with empty | full
    · refine ⟨1, Nat.le_refl _, ?_⟩
      rw [List.eq_nil_of_length_eq_zero (Nat.le_zero.mp empty), List.take_nil]
      rw [List.take_zero] at encoded
      exact encoded
    · rw [List.take_zero] at full
      exact absurd room (Nat.not_lt.mpr full)
  | succ count => exact ⟨count + 1, Nat.succ_pos _, encoded⟩

@[simp] theorem placed_length (index : Nat) (texts : List (List Char)) :
    (placed index texts).length = texts.length := by
  unfold placed
  exact List.length_mapIdx

theorem placed_take (index count : Nat) (texts : List (List Char)) :
    (placed index texts).take count = placed index (texts.take count) := by
  induction texts generalizing index count with
  | nil => simp [placed]
  | cons text rest inductionHypothesis =>
    cases count with
    | zero => simp [placed]
    | succ count => rw [placed_cons, List.take_succ_cons, List.take_succ_cons, placed_cons,
        inductionHypothesis]

theorem placed_drop (index count : Nat) (texts : List (List Char)) :
    (placed index texts).drop count = placed (index + count) (texts.drop count) := by
  induction count generalizing index texts with
  | zero => simp
  | succ count inductionHypothesis =>
    cases texts with
    | nil => simp [placed]
    | cons text rest =>
      rw [placed_cons, List.drop_succ_cons, List.drop_succ_cons, inductionHypothesis]
      congr 1
      omega

/-- The items of a page with their places are what packing is supplied with. -/
theorem encoded_from_placed (texts : List (List Char)) (start limit : Nat) :
    encodedFrom texts start limit = (placed start ((texts.drop start).take limit)).map .ok := by
  unfold encodedFrom placed
  apply List.ext_getElem
  · simp
  · intro position _ _
    simp

/-- What a page shows of all texts. -/
theorem page_window (cursor : ReadCursor) (limit : Nat) (texts : List (List Char)) :
    window cursor.item (min (cursor.item + limit) texts.length) 0 (placed 0 texts) =
      placed cursor.item ((texts.drop cursor.item).take limit) := by
  have bounded : (placed 0 texts).take (min (cursor.item + limit) texts.length) =
      (placed 0 texts).take (cursor.item + limit) := by
    rw [← placed_length 0 texts, List.take_eq_take_iff]
    omega
  unfold window
  rw [Nat.sub_zero, Nat.sub_zero, bounded, placed_take, placed_drop, Nat.zero_add, List.drop_take,
    Nat.add_sub_cancel_left]

/-- What a page shows of the texts that it is supplied with. -/
theorem window_of_page (first stop : Nat) (texts : List (List Char)) :
    window first stop first (placed first ((texts.drop first).take (stop - first))) =
      placed first ((texts.drop first).take (stop - first)) := by
  unfold window
  rw [Nat.sub_self, List.drop_zero, placed_take, List.take_take, Nat.min_self]

theorem supplied_window (cursor : ReadCursor) (limit : Nat) (texts : List (List Char)) :
    window cursor.item (min (cursor.item + limit) texts.length) cursor.item
        (placed cursor.item ((texts.drop cursor.item).take
          (min (cursor.item + limit) texts.length - cursor.item))) =
      placed cursor.item ((texts.drop cursor.item).take limit) := by
  have bounded : (texts.drop cursor.item).take
      (min (cursor.item + limit) texts.length - cursor.item) =
        (texts.drop cursor.item).take limit := by
    rw [List.take_eq_take_iff, List.length_drop]
    omega
  rw [window_of_page, bounded]

variable {items : List (HistoryItem Payload Replay)} {start stop limit maxBytes : Nat}
  {interrupted : Option Payload} {cursor : ReadCursor} {prepared : PreparedTurnItems}

/-- A part of a page is a page with a smaller limit. -/
theorem encoded_page (limited : 1 ≤ limit) {encoded : List (Nat × List Char)}
    (part : ∃ count, 1 ≤ count ∧
      encoded = (placed cursor.item ((texts.drop cursor.item).take limit)).take count) :
    ∃ count, 1 ≤ count ∧ encoded.map .ok = encodedFrom texts cursor.item count := by
  obtain ⟨count, positive, rfl⟩ := part
  refine ⟨min count limit, by omega, ?_⟩
  rw [placed_take, List.take_take, encoded_from_placed]

/-- What a prepared page says about the turn. -/
structure Prepares (turns : TurnExternals Payload)
    (shown : List (SourceItem Payload)) (cursor : ReadCursor) (texts : List (List Char))
    (prepared : PreparedTurnItems) : Prop where
  written : Written turns shown texts
  inside : validateCursor cursor texts.length = .ok ()
  total : prepared.total = texts.length
  encoded : ∃ count, 1 ≤ count ∧
    prepared.encoded.map .ok = encodedFrom texts cursor.item count

/-- A prepared page comes from a view of what is shown of the items. -/
theorem prepare_turn_view_ok {identity : Option (String × Nat)}
    (done : prepareTurnView externals pages turns items start stop interrupted cursor limit maxBytes
      budget identity = .ok prepared) :
    let shown := ((items.take stop).drop start).filterMap SourceItem.fromHistory
    let total := (identity.map Prod.snd).getD shown.length
    let range : PageRange :=
      { cursor := cursor, stop := min (cursor.item + limit) total, maxBytes := maxBytes }
    stop ≤ items.length ∧ validateCursor cursor total = .ok () ∧
    ∃ view : View Digest,
      viewLoop externals turns range budget (if identity.isNone then 0 else cursor.item)
        (if identity.isNone then shown
          else (shown.drop cursor.item).take (range.stop - cursor.item))
        { hash := if identity.isNone then some (beginHash externals total) else none
          sourceBytes := 0, preparedBytes := 0, encoded := [] } = .ok view ∧
      viewIdentity externals pages turns identity interrupted view = .ok prepared.resultId ∧
      prepared.total = total ∧ prepared.encoded = view.encoded := by
  intro shown total range
  unfold prepareTurnView at done
  split at done
  · cases done
  · rename_i bounded
    split at done
    · cases done
    · split at done
      · cases done
      · dsimp only at done
        split at done
        · cases done
        · rename_i inside
          split at done
          · cases done
          · rename_i view looped
            split at done
            · cases done
            · rename_i resultId identified
              split at done
              · cases done
              · cases done
                exact ⟨(not_not.mp bounded).2, inside, view, looped, identified, rfl, rfl⟩

/-- A turn whose identity is not known is prepared with its identity. -/
theorem prepare_turn_view_unknown (streams : Streams externals turns) (limited : 1 ≤ limit)
    (room : 1 ≤ maxBytes)
    (done : prepareTurnView externals pages turns items start stop interrupted cursor limit maxBytes
      budget none = .ok prepared) :
    ∃ texts,
      Prepares turns (((items.take stop).drop start).filterMap SourceItem.fromHistory) cursor texts
        prepared ∧
      prepared.resultId = resultIdOf externals pages turns texts interrupted := by
  obtain ⟨_, inside, view, looped, identified, total, encoded⟩ := prepare_turn_view_ok done
  simp only [Option.map_none, Option.getD_none, Option.isNone_none, if_true] at inside total looped
  obtain ⟨texts, written, hashed⟩ := view_loop_hashed streams rfl looped
  obtain ⟨count, positive, shown⟩ := view_loop_encoded written looped room
  rw [written.length_eq] at inside total hashed shown
  simp only [viewIdentity, hashed] at identified
  refine ⟨texts, ⟨written, inside, total, ?_⟩, finish_hash_ok streams rfl identified⟩
  apply encoded_page limited
  exact ⟨count, positive, by rw [encoded, shown, List.nil_append, page_window]⟩

/-- A turn whose identity is known is prepared under that identity. -/
theorem prepare_turn_view_known (streams : Streams externals turns) (limited : 1 ≤ limit)
    (room : 1 ≤ maxBytes) {resultId : String}
    (written : Written turns
      (((items.take stop).drop start).filterMap SourceItem.fromHistory) texts)
    (done : prepareTurnView externals pages turns items start stop interrupted cursor limit maxBytes
      budget (some (resultId, texts.length)) = .ok prepared) :
    Prepares turns (((items.take stop).drop start).filterMap SourceItem.fromHistory) cursor texts
      prepared ∧ prepared.resultId = resultId := by
  obtain ⟨_, inside, view, looped, identified, total, encoded⟩ := prepare_turn_view_ok done
  simp only [Option.map_some, Option.getD_some, Option.isNone_some, Bool.false_eq_true, if_false]
    at inside total looped
  have supplied := List.forall₂_take (min (cursor.item + limit) texts.length - cursor.item)
    (List.forall₂_drop cursor.item written)
  obtain ⟨count, positive, shown⟩ := view_loop_encoded supplied looped room
  simp only [viewIdentity, view_loop_unhashed streams rfl looped] at identified
  refine ⟨⟨written, inside, total, ?_⟩, (Except.ok.inj identified).symm⟩
  apply encoded_page limited
  exact ⟨count, positive, by rw [encoded, shown, List.nil_append, supplied_window]⟩

theorem finish_hash_error {hash : Digest} {error : TurnError}
    (failed : finishHash externals pages turns hash interrupted = .error error) :
    ∃ cause, error = .read cause := by
  unfold finishHash at failed
  split at failed
  · cases failed
    exact ⟨_, rfl⟩
  · cases failed

theorem view_loop_error {error : TurnError}
    (failed : viewLoop externals turns range budget index supplied view = .error error) :
    ∃ cause, error = .read cause := by
  induction supplied generalizing index view with
  | nil => cases failed
  | cons item rest inductionHypothesis =>
    unfold viewLoop at failed
    split at failed
    · cases failed
      exact ⟨_, rfl⟩
    · split at failed
      · cases failed
      · split at failed
        · cases failed
          exact ⟨_, rfl⟩
        · split at failed
          · rename_i _ uncounted
            unfold View.count at uncounted
            split at uncounted
            · cases uncounted
            · dsimp only at uncounted
              split at uncounted
              · cases uncounted
                cases failed
                exact ⟨_, rfl⟩
              · cases uncounted
          · exact inductionHypothesis failed

/-- Preparing a page fails with an error of reading only. -/
theorem prepare_turn_view_error {identity : Option (String × Nat)} {error : TurnError}
    (failed : prepareTurnView externals pages turns items start stop interrupted cursor limit
      maxBytes budget identity = .error error) :
    ∃ cause, error = .read cause := by
  unfold prepareTurnView at failed
  split at failed
  · cases failed
    exact ⟨_, rfl⟩
  · split at failed
    · cases failed
      exact ⟨_, rfl⟩
    · split at failed
      · cases failed
        exact ⟨_, rfl⟩
      · dsimp only at failed
        split at failed
        · cases failed
          exact ⟨_, rfl⟩
        · split at failed
          · rename_i loop
            cases failed
            exact view_loop_error loop
          · split at failed
            · rename_i identified
              cases failed
              unfold viewIdentity at identified
              split at identified
              · exact finish_hash_error identified
              · cases identified
              · cases identified
                exact ⟨_, rfl⟩
            · split at failed
              · cases failed
                exact ⟨_, rfl⟩
              · cases failed

end Views

end MinicoreAgent.TurnResults

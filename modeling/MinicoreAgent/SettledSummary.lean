import MinicoreAgent.ProjectionFold

/-!
# The settled snapshot and the live projection

`settled_emergency_summary` writes what the model was last shown as the summary of
a settled loop. It walks the raw items with a loop of its own, asks the cover
before the ranges, and sanitizes each item it keeps. The live request comes from
`Projection::messages`. Both loops yield the pieces of the same ranges, so the two
message lists differ only where an item was sanitized.
-/
namespace MinicoreAgent.Compaction

open HistoryStore (HistoryItem AssistantHistory AssistantPart Externals)
open Segments (Piece Choice)
open Text
open Results

/-- `EphemeralSummary`. -/
structure EphemeralSummary (LoopId Digest : Type) where
  loopId : Option LoopId
  groups : List (EphemeralGroupKey Digest × List Char)

/-- The parts of `CompactionState` that the projection reads: the emergency groups
and the consolidated summary. -/
structure ProjectionState (LoopId Digest : Type) where
  ephemeral : Option (EphemeralSummary LoopId Digest)
  consolidated : Option (ConsolidatedSummary LoopId Digest)

/-- The message codec, and the bounds of the Runtime's text type. -/
structure SnapshotCodec (CallId Payload Replay : Type) where
  toString : List (ModelMessage CallId Payload Replay) → Option (List Char)
  fromStr : List Char → Option (List (ModelMessage CallId Payload Replay))
  acceptsBounded : Nat → List Char → Bool
  acceptsText : List Char → Bool

def maxSummaryContentBytes : Nat := 64 * 1024

variable {LoopId CallId Payload Replay Digest StoreLoop StoreDigest : Type}
  [DecidableEq LoopId] [DecidableEq CallId] [DecidableEq Digest]
  (runtime : Runtime LoopId CallId Payload Replay Digest)
  (externals : Externals StoreLoop Payload Replay StoreDigest)
  (codec : SnapshotCodec CallId Payload Replay)

section Selection

/-- `emergency_groups`. -/
def ProjectionState.emergencyGroups (state : ProjectionState LoopId Digest) (loopId : LoopId)
    (valid : List (EphemeralGroupKey Digest)) : List (EphemeralGroupKey Digest × List Char) :=
  match state.ephemeral.filter (fun summary => summary.loopId = some loopId) with
  | none => []
  | some summary => summary.groups.filter (fun entry => entry.1 ∈ valid)

/-- A consolidated summary may be used for these items. -/
def usable (loopId : LoopId) (hash : Digest) (valid : List (EphemeralGroupKey Digest))
    (entry : ConsolidatedSummary LoopId Digest) : Bool :=
  decide (entry.loopId = loopId) && decide (entry.originalSummaryHash = hash) &&
    entry.covered.all (fun key => decide (key ∈ valid))

/-- `consolidated`. -/
def ProjectionState.consolidatedFor (state : ProjectionState LoopId Digest) (loopId : LoopId)
    (summary : Option (List Char)) (valid : List (EphemeralGroupKey Digest)) :
    Option (ConsolidatedSummary LoopId Digest) :=
  match runtime.summaryHash summary with
  | none => none
  | some hash => state.consolidated.filter (usable loopId hash valid)

end Selection

section Live

/-- `Projection`. -/
structure Projection (LoopId CallId Payload Replay Digest : Type) where
  ranges : List (EphemeralGroupKey Digest × Nat)
  folded : List (EphemeralGroupKey Digest × List Char)
  consolidated : Option (ConsolidatedSummary LoopId Digest)
  fixed : List (ModelMessage CallId Payload Replay)
  history : List (ModelMessage CallId Payload Replay)

/-- `Projection::new`. -/
def Projection.new (state : ProjectionState LoopId Digest) (system : List Char)
    (summary : Option (List Char)) (base appended : List (HistoryItem Payload Replay))
    (loopId : LoopId) : Except UtilityError (Projection LoopId CallId Payload Replay Digest) :=
  match compressibleRanges runtime base.length (base ++ appended) loopId with
  | .error error => .error error
  | .ok ranges =>
    (compose runtime system summary base appended).map fun composed =>
      { ranges := ranges
        folded := state.emergencyGroups loopId (rangeKeys ranges)
        consolidated := state.consolidatedFor runtime loopId summary (rangeKeys ranges)
        fixed := composed.1
        history := composed.2 }

/-- `Projection::messages`. -/
def Projection.messages (projection : Projection LoopId CallId Payload Replay Digest) :
    Except UtilityError (List (ModelMessage CallId Payload Replay)) :=
  foldHistoryWithRanges runtime projection.fixed projection.history projection.ranges
    projection.folded projection.consolidated

end Live

section Settled

/-- The characters `str::trim` removes. -/
def isWhitespace (char : Char) : Bool :=
  let code := char.toNat
  (9 ≤ code && code ≤ 13) || code = 0x20 || code = 0x85 || code = 0xA0 || code = 0x1680 ||
    (0x2000 ≤ code && code ≤ 0x200A) || code = 0x2028 || code = 0x2029 || code = 0x202F ||
    code = 0x205F || code = 0x3000

/-- `validate_summary_content`. -/
def validateSummaryContent (value : List Char) : Option (List Char) :=
  if codec.acceptsBounded maxSummaryContentBytes value then
    if value.all isWhitespace ||
        (summaryDataMessage runtime value :
          Option (ModelMessage CallId Payload Replay)).isNone then none
    else some value
  else none

/-- A message with data that only the provider understands. -/
def carriesProviderData : ModelMessage CallId Payload Replay → Bool
  | .assistantWithReplay _ _ => true
  | .assistant parts =>
    parts.any (fun part =>
      match part with
      | .reasoning reasoning => reasoning.continuation.isSome
      | _ => false)
  | _ => false

/-- `validate_snapshot_content`. -/
def validateSnapshotContent (value : List Char) : Option (List Char) :=
  if byteLen value ≤ maxSummaryContentBytes then validateSummaryContent runtime codec value
  else if codec.acceptsText value then
    if (summaryDataMessage runtime value :
        Option (ModelMessage CallId Payload Replay)).isNone then none
    else
      match codec.fromStr value with
      | none => none
      | some messages =>
        if messages.isEmpty || !validateCleanToolExchanges runtime messages ||
            messages.any carriesProviderData then none
        else some value
  else none

/-- The messages of an item without its provider data; an item with nothing else
has none. -/
def sanitizedMessages (item : HistoryItem Payload Replay) :
    Except Unit (List (ModelMessage CallId Payload Replay)) :=
  match HistoryStore.normalize externals false [item] with
  | none => .error ()
  | some sanitized => (historyMessages runtime sanitized).mapError (fun _ => ())

/-- The loop of `settled_emergency_summary`. -/
def settledLoop (items : List (HistoryItem Payload Replay))
    (ranges : List (EphemeralGroupKey Digest × Nat))
    (groups : List (EphemeralGroupKey Digest × List Char))
    (consolidated : Option (ConsolidatedSummary LoopId Digest)) : Nat → Nat →
    Except Unit (List (ModelMessage CallId Payload Replay))
  | 0, _ => .ok []
  | fuel + 1, index =>
    match items[index]? with
    | none => .ok []
    | some item =>
      match consolidated.bind
          (fun value => value.covered.find? (fun key => decide (key.start = index))) with
      | some key => settledLoop items ranges groups consolidated fuel key.stop
      | none =>
        match (ranges.find? (fun range => decide (range.1.start = index))).filter
            (fun range => (Keyed.find groups range.1).isSome) with
        | some (key, _) =>
          match (foldedMessages runtime groups key :
              Except UtilityError (List (ModelMessage CallId Payload Replay))) with
          | .error _ => .error ()
          | .ok shown =>
            (settledLoop items ranges groups consolidated fuel key.stop).map (shown ++ ·)
        | none =>
          match sanitizedMessages runtime externals item with
          | .error _ => .error ()
          | .ok shown =>
            (settledLoop items ranges groups consolidated fuel (index + 1)).map (shown ++ ·)

/-- The messages a settled loop leaves, if anything of it was compressed. -/
def settledMessages (state : ProjectionState LoopId Digest) (loopId : LoopId)
    (base appended : List (HistoryItem Payload Replay)) (previous : Option (List Char)) :
    Except Unit (Option (List (ModelMessage CallId Payload Replay))) :=
  let items := base ++ appended
  match compressibleRanges runtime base.length items loopId with
  | .error _ => .error ()
  | .ok ranges =>
    let valid := rangeKeys ranges
    let groups := state.emergencyGroups loopId valid
    let consolidated := state.consolidatedFor runtime loopId previous valid
    if groups.isEmpty && consolidated.isNone then .ok none
    else
      match (summaryPart runtime ((consolidated.map ConsolidatedSummary.content).or previous) :
          Except UtilityError (List (ModelMessage CallId Payload Replay))) with
      | .error _ => .error ()
      | .ok opening =>
        (settledLoop runtime externals items ranges groups consolidated items.length 0).map
          fun messages => some (opening ++ messages)

/-- `settled_emergency_summary`. -/
def settledEmergencySummary (state : ProjectionState LoopId Digest) (loopId : LoopId)
    (base appended : List (HistoryItem Payload Replay)) (previous : Option (List Char)) :
    Except Unit (Option (List Char)) :=
  match settledMessages runtime externals state loopId base appended previous with
  | .error _ => .error ()
  | .ok none => .ok none
  | .ok (some messages) =>
    match codec.toString messages with
    | none => .error ()
    | some content =>
      match validateSnapshotContent runtime codec content with
      | none => .error ()
      | some content => .ok (some content)

end Settled

section Agreement

variable {runtime externals codec} {items : List (HistoryItem Payload Replay)}
  {ranges : List (EphemeralGroupKey Digest × Nat)}
  {groups : List (EphemeralGroupKey Digest × List Char)}
  {consolidated : Option (ConsolidatedSummary LoopId Digest)}

variable (runtime externals) in
/-- The settled messages of a piece. -/
def settledPiece (items : List (HistoryItem Payload Replay))
    (groups : List (EphemeralGroupKey Digest × List Char)) :
    Piece (EphemeralGroupKey Digest) → Except Unit (List (ModelMessage CallId Payload Replay))
  | .kept index =>
    match items[index]? with
    | none => .ok []
    | some item => sanitizedMessages runtime externals item
  | .replaced key => (foldedMessages runtime groups key).mapError (fun _ => ())

omit [DecidableEq LoopId] in
/-- Asking the cover for a group at an index is asking the ranges, when the cover is
made of them. -/
theorem cover_find {length first : Nat} (laid : LaidKeys length first (rangeKeys ranges))
    (within : ∀ key ∈ coverOf consolidated, key ∈ rangeKeys ranges) (index : Nat) :
    consolidated.bind (fun value => value.covered.find? (fun key => decide (key.start = index))) =
      ((rangeKeys ranges).find? (fun key => decide (key.start = index))).filter
        (isCovered consolidated) := by
  have asked : consolidated.bind
      (fun value => value.covered.find? (fun key => decide (key.start = index))) =
        (coverOf consolidated).find? (fun key => decide (key.start = index)) := by
    cases consolidated with
    | none => rfl
    | some value => rfl
  rw [asked]
  cases found : (coverOf consolidated).find? (fun key => decide (key.start = index)) with
  | some key =>
    have member := List.mem_of_find?_eq_some found
    have starts := List.find?_some found
    rw [decide_eq_true_eq] at starts
    have range := laid.find_start (within key member)
    rw [starts] at range
    rw [range, Option.filter_some, if_pos (is_covered_iff.mpr member)]
  | none =>
    cases range : (rangeKeys ranges).find? (fun key => decide (key.start = index)) with
    | none => rfl
    | some key =>
      have starts := List.find?_some range
      have absent : ¬ isCovered consolidated key = true := by
        intro covered
        exact List.find?_eq_none.mp found key (is_covered_iff.mp covered) starts
      rw [Option.filter_some, if_neg absent]

omit [DecidableEq LoopId] [DecidableEq CallId] in
/-- The settled loop shows the pieces of the same walk. -/
theorem settled_loop_trace {length first : Nat} (laid : LaidKeys length first (rangeKeys ranges))
    (within : ∀ key ∈ coverOf consolidated, key ∈ rangeKeys ranges) (fuel index : Nat) :
    settledLoop runtime externals items ranges groups consolidated fuel index =
      collect (settledPiece runtime externals items groups)
        (Segments.trace EphemeralGroupKey.start EphemeralGroupKey.stop items.length
          (rangeKeys ranges) (foldChoice groups consolidated) fuel index) := by
  induction fuel generalizing index with
  | zero => rfl
  | succ fuel inductionHypothesis =>
    unfold settledLoop Segments.trace
    cases here : items[index]? with
    | none =>
      rw [if_neg (by simpa using here)]
      rfl
    | some item =>
      have inside : index < items.length := (List.getElem?_eq_some_iff.mp here).1
      have keep (rest : List (Piece (EphemeralGroupKey Digest))) :
          collect (settledPiece runtime externals items groups) (.kept index :: rest) =
            (match sanitizedMessages runtime externals item with
            | .error _ => .error ()
            | .ok shown =>
              (collect (settledPiece runtime externals items groups) rest).map (shown ++ ·)) := by
        rw [collect_cons, settledPiece, here]
        dsimp only
        cases sanitizedMessages runtime externals item with
        | error _ => rfl
        | ok shown => rfl
      rw [if_pos inside]
      dsimp only
      rw [cover_find laid within index, find_range_key]
      cases found : ranges.find? (fun range => decide (range.1.start = index)) with
      | none =>
        dsimp only [Option.map_none, Option.filter_none]
        rw [keep, inductionHypothesis]
      | some range =>
        obtain ⟨key, size⟩ := range
        dsimp only [Option.map_some]
        rw [foldChoice, Option.filter_some, Option.filter_some]
        by_cases covered : isCovered consolidated key = true
        · rw [if_pos covered, if_pos covered]
          exact inductionHypothesis key.stop
        · rw [if_neg covered, if_neg covered]
          by_cases known : (Keyed.find groups key).isSome = true
          · rw [if_pos known, if_pos known]
            dsimp only
            rw [collect_cons, settledPiece, inductionHypothesis]
            cases (foldedMessages runtime groups key :
                Except UtilityError (List (ModelMessage CallId Payload Replay))) with
            | error error => rfl
            | ok shown => rfl
          · rw [if_neg known, if_neg known]
            dsimp only
            rw [keep, inductionHypothesis]

variable (runtime externals) in
/-- The settled part in the place of a piece: the messages of the sanitized item, or
the group's summary. -/
def Settles (items : List (HistoryItem Payload Replay))
    (groups : List (EphemeralGroupKey Digest × List Char)) :
    Piece (EphemeralGroupKey Digest) → List (ModelMessage CallId Payload Replay) → Prop
  | .kept index, part =>
    ∃ item, items[index]? = some item ∧ sanitizedMessages runtime externals item = .ok part
  | .replaced key, part =>
    ∃ summary message, Keyed.find groups key = some summary ∧
      summaryDataMessage runtime summary = some message ∧ part = [message]

omit [DecidableEq LoopId] [DecidableEq CallId] in
/-- The settled messages are the settled parts of the pieces, one after the other. -/
theorem collect_settles {pieces : List (Piece (EphemeralGroupKey Digest))}
    {messages : List (ModelMessage CallId Payload Replay)}
    (shown : collect (settledPiece runtime externals items groups) pieces = .ok messages)
    (inside : ∀ index, Piece.kept index ∈ pieces → index < items.length)
    (known : ∀ key, Piece.replaced key ∈ pieces → (Keyed.find groups key).isSome) :
    ∃ parts, List.Forall₂ (Settles runtime externals items groups) pieces parts ∧
      messages = parts.flatten := by
  induction pieces generalizing messages with
  | nil =>
    cases shown
    exact ⟨[], .nil, rfl⟩
  | cons piece rest inductionHypothesis =>
    obtain ⟨first, later, here, tail, rfl⟩ := collect_cons_ok.mp shown
    obtain ⟨parts, follow, rfl⟩ := inductionHypothesis tail
      (fun index member => inside index (List.mem_cons_of_mem piece member))
      (fun key member => known key (List.mem_cons_of_mem piece member))
    refine ⟨first :: parts, .cons ?_ follow, rfl⟩
    cases piece with
    | kept index =>
      have bound := inside index List.mem_cons_self
      rw [settledPiece, List.getElem?_eq_getElem bound] at here
      exact ⟨items[index], List.getElem?_eq_getElem bound, here⟩
    | replaced key =>
      have present := known key List.mem_cons_self
      rcases folded_messages_ok (map_error_ok.mp here) with
        ⟨absent, _⟩ | ⟨summary, message, found, accepted, rfl⟩
      · rw [absent] at present
        cases present
      · exact ⟨summary, message, found, accepted, rfl⟩

omit [DecidableEq LoopId] [DecidableEq CallId] in
/-- Whatever settles is shown live: the summaries are accepted there too. -/
theorem settles_shows {pieces : List (Piece (EphemeralGroupKey Digest))}
    {history : List (ModelMessage CallId Payload Replay)}
    {parts : List (List (ModelMessage CallId Payload Replay))}
    (settles : List.Forall₂ (Settles runtime externals items groups) pieces parts)
    (length : items.length = history.length) :
    ∃ body, collect (pieceMessages runtime history groups) pieces = .ok body ∧
      List.Forall₂ (Shows runtime history groups) pieces body := by
  induction settles with
  | nil => exact ⟨[], rfl, .nil⟩
  | @cons piece part pieces parts here _ inductionHypothesis =>
    obtain ⟨body, collected, shows⟩ := inductionHypothesis
    cases piece with
    | kept index =>
      obtain ⟨item, found, _⟩ := here
      have bound : index < history.length := by
        rw [← length]
        exact (List.getElem?_eq_some_iff.mp found).1
      have message := List.getElem?_eq_getElem bound
      refine ⟨history[index] :: body, ?_, .cons message shows⟩
      refine collect_cons_ok.mpr ⟨[history[index]], body, ?_, collected, rfl⟩
      rw [pieceMessages, message]
      rfl
    | replaced key =>
      obtain ⟨summary, message, found, accepted, _⟩ := here
      refine ⟨message :: body, ?_, .cons ⟨summary, found, accepted⟩ shows⟩
      refine collect_cons_ok.mpr ⟨[message], body, ?_, collected, rfl⟩
      rw [pieceMessages, foldedMessages, found]
      dsimp only
      rw [accepted]
      rfl

end Agreement

section Selected

variable {runtime} {state : ProjectionState LoopId Digest} {loopId : LoopId}
  {valid : List (EphemeralGroupKey Digest)} {previous : Option (List Char)}

/-- An installed group of this loop that names a range of these items. -/
def ProjectionState.HasGroup (state : ProjectionState LoopId Digest) (loopId : LoopId)
    (valid : List (EphemeralGroupKey Digest)) : Prop :=
  ∃ summary ∈ state.ephemeral, summary.loopId = some loopId ∧
    ∃ entry ∈ summary.groups, entry.1 ∈ valid

variable (runtime) in
/-- The installed consolidated summary is of this loop, made over this summary, and
covers ranges of these items only. -/
def ProjectionState.HasConsolidated (state : ProjectionState LoopId Digest) (loopId : LoopId)
    (previous : Option (List Char)) (valid : List (EphemeralGroupKey Digest)) : Prop :=
  ∃ entry ∈ state.consolidated, entry.loopId = loopId ∧
    runtime.summaryHash previous = some entry.originalSummaryHash ∧
    ∀ key ∈ entry.covered, key ∈ valid

theorem emergency_groups_nil :
    state.emergencyGroups loopId valid = [] ↔ ¬ state.HasGroup loopId valid := by
  unfold ProjectionState.emergencyGroups ProjectionState.HasGroup
  cases state.ephemeral with
  | none => simp
  | some summary =>
    rw [Option.filter_some]
    by_cases own : summary.loopId = some loopId
    · simp [own, List.filter_eq_nil_iff]
    · simp [own]

omit [DecidableEq CallId] in
theorem consolidated_for_within :
    ∀ key ∈ coverOf (state.consolidatedFor runtime loopId previous valid), key ∈ valid := by
  intro key member
  unfold ProjectionState.consolidatedFor at member
  split at member
  · cases member
  · cases held : state.consolidated with
    | none =>
      rw [held] at member
      cases member
    | some entry =>
      rw [held, Option.filter_some] at member
      split_ifs at member with accepted
      · simp only [usable, Bool.and_eq_true, List.all_eq_true, decide_eq_true_eq] at accepted
        exact accepted.2 key member
      · cases member

omit [DecidableEq CallId] in
theorem consolidated_for_none :
    state.consolidatedFor runtime loopId previous valid = none ↔
      ¬ state.HasConsolidated runtime loopId previous valid := by
  unfold ProjectionState.consolidatedFor ProjectionState.HasConsolidated
  cases runtime.summaryHash previous with
  | none => simp
  | some hash =>
    cases state.consolidated with
    | none => simp
    | some entry =>
      dsimp only
      rw [Option.filter_some]
      by_cases accepted : usable loopId hash valid entry = true
      · rw [if_pos accepted]
        simp only [usable, Bool.and_eq_true, List.all_eq_true, decide_eq_true_eq] at accepted
        simp only [reduceCtorEq, false_iff, not_not]
        exact ⟨entry, rfl, accepted.1.1, by rw [accepted.1.2], accepted.2⟩
      · rw [if_neg accepted]
        simp only [true_iff]
        rintro ⟨other, same, own, hashed, within⟩
        cases same
        apply accepted
        simp only [usable, Bool.and_eq_true, List.all_eq_true, decide_eq_true_eq]
        exact ⟨⟨own, (Option.some.inj hashed).symm⟩, within⟩

end Selected

section Main

variable {runtime externals codec} {state : ProjectionState LoopId Digest} {loopId : LoopId}
  {base appended : List (HistoryItem Payload Replay)} {previous : Option (List Char)}
  {ranges : List (EphemeralGroupKey Digest × Nat)} {text : List Char}

omit [DecidableEq LoopId] [DecidableEq Digest] in
/-- Validated content is unchanged. -/
theorem validate_snapshot_same {value content : List Char}
    (validated : validateSnapshotContent runtime codec value = some content) :
    content = value := by
  unfold validateSnapshotContent at validated
  split_ifs at validated
  · unfold validateSummaryContent at validated
    split_ifs at validated
    exact (Option.some.inj validated).symm
  · split at validated
    · cases validated
    · split_ifs at validated
      exact (Option.some.inj validated).symm

/-- The text of a summary is the encoded list of settled messages. -/
theorem settled_text
    (settled : settledEmergencySummary runtime externals codec state loopId base appended previous =
      .ok (some text)) :
    ∃ messages, settledMessages runtime externals state loopId base appended previous =
      .ok (some messages) ∧ codec.toString messages = some text := by
  unfold settledEmergencySummary at settled
  split at settled
  · cases settled
  · cases settled
  · rename_i messages made
    split at settled
    · cases settled
    · rename_i content written
      split at settled
      · cases settled
      · rename_i validated
        cases settled
        rw [validate_snapshot_same validated]
        exact ⟨messages, made, written⟩

/-- The settled messages are the lead and the settled parts of the pieces. -/
theorem settled_messages_parts {messages : List (ModelMessage CallId Payload Replay)}
    (reported : compressibleRanges runtime base.length (base ++ appended) loopId = .ok ranges)
    (made : settledMessages runtime externals state loopId base appended previous =
      .ok (some messages)) :
    ∃ lead parts, messages = lead ++ parts.flatten ∧
      summaryPart runtime (((state.consolidatedFor runtime loopId previous
        (rangeKeys ranges)).map ConsolidatedSummary.content).or previous) = .ok lead ∧
      List.Forall₂ (Settles runtime externals (base ++ appended)
          (state.emergencyGroups loopId (rangeKeys ranges)))
        (foldPieces (base ++ appended).length ranges
          (state.emergencyGroups loopId (rangeKeys ranges))
          (state.consolidatedFor runtime loopId previous (rangeKeys ranges))) parts := by
  have laid := compressible_laid reported
  unfold settledMessages at made
  dsimp only at made
  rw [reported] at made
  dsimp only at made
  split_ifs at made
  · cases made
  split at made
  · cases made
  · rename_i lead opened
    rw [settled_loop_trace laid consolidated_for_within, Segments.trace_all laid] at made
    obtain ⟨rest, collected, same⟩ := map_ok.mp made
    cases same
    obtain ⟨parts, settles, rfl⟩ := collect_settles collected
      (fun index => fold_pieces_inside laid) (fun key => fold_pieces_known laid)
    exact ⟨lead, parts, rfl, opened, settles⟩

theorem settled_none_iff
    (reported : compressibleRanges runtime base.length (base ++ appended) loopId = .ok ranges) :
    settledEmergencySummary runtime externals codec state loopId base appended previous =
        .ok none ↔
      ¬ state.HasGroup loopId (rangeKeys ranges) ∧
        ¬ state.HasConsolidated runtime loopId previous (rangeKeys ranges) := by
  rw [← emergency_groups_nil, ← consolidated_for_none]
  unfold settledEmergencySummary settledMessages
  dsimp only
  rw [reported]
  dsimp only
  by_cases none : state.emergencyGroups loopId (rangeKeys ranges) = [] ∧
      state.consolidatedFor runtime loopId previous (rangeKeys ranges) = none
  · rw [none.1, none.2]
    simp
  · have some : ¬ ((state.emergencyGroups loopId (rangeKeys ranges)).isEmpty &&
        (state.consolidatedFor runtime loopId previous (rangeKeys ranges)).isNone) = true := by
      simpa using none
    rw [if_neg some]
    constructor
    · intro settled
      exfalso
      split at settled
      · cases settled
      · rename_i made
        split at made
        · cases made
        · obtain ⟨rest, _, same⟩ := map_ok.mp made
          cases same
      · split at settled
        · cases settled
        · split at settled
          · cases settled
          · cases settled
    · exact fun selected => absurd selected none

omit [DecidableEq LoopId] [DecidableEq CallId] [DecidableEq Digest] in
/-- The live messages open with the system text and the same lead. -/
theorem live_opening {system : List Char} {consolidated : Option (ConsolidatedSummary LoopId Digest)}
    {fixed lead : List (ModelMessage CallId Payload Replay)}
    (opened : fixedMessages runtime system previous = .ok fixed)
    (led : summaryPart runtime ((consolidated.map ConsolidatedSummary.content).or previous) =
      .ok lead) :
    ∃ first, systemPart runtime system = .ok first ∧
      openingMessages runtime fixed consolidated = .ok (first ++ lead) := by
  obtain ⟨first, second, begun, summarized, rfl⟩ := fixed_messages_ok opened
  refine ⟨first, begun, ?_⟩
  cases consolidated with
  | none =>
    rw [Option.map_none, Option.none_or, summarized] at led
    cases led
    rfl
  | some value =>
    rcases summary_part_ok led with ⟨absent, _⟩ | ⟨content, message, same, accepted, rfl⟩
    · cases absent
    · cases same
      have kept : first.filter isSystem = first := by
        rcases system_part_ok begun with rfl | rfl
        · rfl
        · rfl
      have hidden : second.filter isSystem = [] := by
        rcases summary_part_ok summarized with ⟨_, rfl⟩ | ⟨text, shown, _, made, rfl⟩
        · rfl
        · rw [user_message_made made]
          rfl
      rw [openingMessages, accepted, List.filter_append, kept, hidden, List.append_nil]

/-- The settled summary is the live projection, sanitized. When content is
returned, it encodes the previous or consolidated summary followed by one part for
each piece of the history: the summary of a folded group, or the messages of a
sanitized item. The live messages over the same items are the system text, the same
summary and one message for each of the same pieces. Nothing is returned exactly
when neither a group nor a consolidated summary is valid for the items. Where the
ranges of the items cannot be hashed, the call fails. -/
theorem settled_summary_is_the_live_projection
    (state : ProjectionState LoopId Digest) (loopId : LoopId)
    (base appended : List (HistoryItem Payload Replay)) (previous : Option (List Char)) :
    (∀ error, compressibleRanges runtime base.length (base ++ appended) loopId = .error error →
      settledEmergencySummary runtime externals codec state loopId base appended previous =
        .error ()) ∧
    ∀ ranges, compressibleRanges runtime base.length (base ++ appended) loopId = .ok ranges →
    (settledEmergencySummary runtime externals codec state loopId base appended previous =
        .ok none ↔
      ¬ state.HasGroup loopId (rangeKeys ranges) ∧
        ¬ state.HasConsolidated runtime loopId previous (rangeKeys ranges)) ∧
    ∀ text, settledEmergencySummary runtime externals codec state loopId base appended previous =
        .ok (some text) →
      let groups := state.emergencyGroups loopId (rangeKeys ranges)
      let consolidated := state.consolidatedFor runtime loopId previous (rangeKeys ranges)
      let pieces := foldPieces (base ++ appended).length ranges groups consolidated
      ∃ lead parts, codec.toString (lead ++ parts.flatten) = some text ∧
        summaryPart runtime ((consolidated.map ConsolidatedSummary.content).or previous) =
          .ok lead ∧
        List.Forall₂ (Settles runtime externals (base ++ appended) groups) pieces parts ∧
        ∀ system projection,
          Projection.new runtime state system previous base appended loopId = .ok projection →
          ∃ first body, systemPart runtime system = .ok first ∧
            projection.messages runtime = .ok (first ++ (lead ++ body)) ∧
            List.Forall₂ (Shows runtime projection.history groups) pieces body := by
  constructor
  · intro error failed
    unfold settledEmergencySummary settledMessages
    dsimp only
    rw [failed]
  intro ranges reported
  refine ⟨settled_none_iff reported, ?_⟩
  intro text settled groups consolidated pieces
  obtain ⟨messages, made, written⟩ := settled_text settled
  obtain ⟨lead, parts, rfl, led, settles⟩ := settled_messages_parts reported made
  refine ⟨lead, parts, written, led, settles, ?_⟩
  intro system projection projected
  unfold Projection.new at projected
  rw [reported] at projected
  obtain ⟨⟨fixed, history⟩, composed, rfl⟩ := map_ok.mp projected
  obtain ⟨opened, shown⟩ := compose_ok composed
  have length := (history_messages_of shown).length_eq
  obtain ⟨first, begun, opening⟩ := live_opening opened led
  obtain ⟨body, collected, shows⟩ := settles_shows settles length
  have laid := compressible_laid reported
  rw [length] at laid collected
  refine ⟨first, body, begun, ?_, shows⟩
  unfold Projection.messages foldHistoryWithRanges
  dsimp only
  rw [opening, fold_loop_pieces laid, collected, ← List.append_assoc]
  rfl

/-- The store's side of the sample; only the check of reasoning parts is used. -/
def sampleStore : Externals Nat Nat Nat Nat where
  admitsReasoning := fun _ _ => true
  validateHistoryReplay := fun _ _ => true
  toVec := fun _ => none
  fromSlice := fun _ => none
  newDigest := 0
  update := fun digest bytes => digest + bytes.length

/-- A message list is written as one letter for each message. -/
def sampleCodec : SnapshotCodec Nat Nat Nat where
  toString := fun messages => some (messages.map (fun _ => 'm'))
  fromStr := fun _ => none
  acceptsBounded := fun maximum text => decide (byteLen text ≤ maximum)
  acceptsText := fun _ => true

/-- The exchange of the sample is folded and its settled prompt is consolidated. -/
def sampleState : ProjectionState Nat Nat where
  ephemeral := some { loopId := some 1, groups := [(sampleExchangeKey, ['e'])] }
  consolidated := some sampleConsolidated

/-- Three messages are written, and the live request has the same three. -/
theorem sample_settles_as_shown :
    ∃ (lead body : List (ModelMessage Nat Nat Nat)) (parts : List (List (ModelMessage Nat Nat Nat))),
      sampleCodec.toString (lead ++ parts.flatten) = some ['m', 'm', 'm'] ∧
      (∃ projection, Projection.new sampleRuntime sampleState [] none sampleBase sampleAppended 1 =
        .ok projection ∧ projection.messages sampleRuntime = .ok (lead ++ body)) ∧
      parts.length = body.length := by
  have reported : compressibleRanges sampleRuntime sampleBase.length
      (sampleBase ++ sampleAppended) 1 = .ok sampleRanges := rfl
  have settled : settledEmergencySummary sampleRuntime sampleStore sampleCodec sampleState 1
      sampleBase sampleAppended none = .ok (some ['m', 'm', 'm']) := rfl
  obtain ⟨lead, parts, written, _, settles, live⟩ :=
    ((settled_summary_is_the_live_projection sampleState 1 sampleBase sampleAppended none).2
      sampleRanges reported).2 _ settled
  obtain ⟨first, body, begun, messages, shows⟩ := live [] _ rfl
  cases begun
  exact ⟨lead, body, parts, written, ⟨_, rfl, messages⟩,
    settles.length_eq.symm.trans shows.length_eq⟩

end Main

end MinicoreAgent.Compaction

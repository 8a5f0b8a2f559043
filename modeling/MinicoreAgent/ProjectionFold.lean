import MinicoreAgent.CleanExchanges
import MinicoreAgent.GroupRanges

/-!
# Folding keeps the conversation

`fold_history_with_ranges` walks the messages and yields the pieces of the
compressible ranges: a range under the consolidated cover is dropped, another
folded range is replaced by its summary, and everything else is kept. What
follows about order and place is the law of such pieces. The result is a sequence
of clean exchanges again because a range is a whole block of one.
-/
namespace MinicoreAgent.Compaction

open HistoryStore (HistoryItem AssistantHistory AssistantPart)
open Segments (Piece Choice)
open Results

variable {LoopId CallId Payload Replay Digest : Type} [DecidableEq Digest]
  (runtime : Runtime LoopId CallId Payload Replay Digest)

/-- Whether the consolidated summary stands for a range. -/
def isCovered (consolidated : Option (ConsolidatedSummary LoopId Digest))
    (key : EphemeralGroupKey Digest) : Bool :=
  consolidated.any (fun value => decide (key ∈ value.covered))

/-- What becomes of a range. -/
def foldChoice (folded : List (EphemeralGroupKey Digest × List Char))
    (consolidated : Option (ConsolidatedSummary LoopId Digest))
    (key : EphemeralGroupKey Digest) : Choice :=
  if isCovered consolidated key then .drop
  else if (Keyed.find folded key).isSome then .replace
  else .keep

/-- The pieces of a folded history. -/
def foldPieces (length : Nat) (ranges : List (EphemeralGroupKey Digest × Nat))
    (folded : List (EphemeralGroupKey Digest × List Char))
    (consolidated : Option (ConsolidatedSummary LoopId Digest)) :
    List (Piece (EphemeralGroupKey Digest)) :=
  Segments.pieces EphemeralGroupKey.start EphemeralGroupKey.stop length
    (foldChoice folded consolidated) 0 (rangeKeys ranges)

/-- The message of a replaced range. -/
def foldedMessages (folded : List (EphemeralGroupKey Digest × List Char))
    (key : EphemeralGroupKey Digest) :
    Except UtilityError (List (ModelMessage CallId Payload Replay)) :=
  match Keyed.find folded key with
  | none => .ok []
  | some summary => (orError .invalidResponse (summaryDataMessage runtime summary)).map ([·])

/-- The messages of a piece. -/
def pieceMessages (history : List (ModelMessage CallId Payload Replay))
    (folded : List (EphemeralGroupKey Digest × List Char)) :
    Piece (EphemeralGroupKey Digest) →
    Except UtilityError (List (ModelMessage CallId Payload Replay))
  | .kept index => .ok history[index]?.toList
  | .replaced key => foldedMessages runtime folded key

section Pieces

variable {runtime} {history : List (ModelMessage CallId Payload Replay)}
  {ranges : List (EphemeralGroupKey Digest × Nat)}
  {folded : List (EphemeralGroupKey Digest × List Char)}
  {consolidated : Option (ConsolidatedSummary LoopId Digest)}

/-- A replaced range shows one message, its summary. -/
theorem folded_messages_ok {key : EphemeralGroupKey Digest}
    {messages : List (ModelMessage CallId Payload Replay)}
    (shown : foldedMessages runtime folded key = .ok messages) :
    (Keyed.find folded key = none ∧ messages = []) ∨
      ∃ summary message, Keyed.find folded key = some summary ∧
        summaryDataMessage runtime summary = some message ∧ messages = [message] := by
  unfold foldedMessages at shown
  split at shown
  · rename_i absent
    cases shown
    exact .inl ⟨absent, rfl⟩
  · rename_i summary found
    obtain ⟨message, accepted, rfl⟩ := map_ok.mp shown
    exact .inr ⟨summary, message, found, or_error_ok.mp accepted, rfl⟩

omit [DecidableEq Digest] in
theorem find_range_key (ranges : List (EphemeralGroupKey Digest × Nat)) (index : Nat) :
    (rangeKeys ranges).find? (fun key => decide (key.start = index)) =
      (ranges.find? (fun range => decide (range.1.start = index))).map Prod.fst := by
  unfold rangeKeys
  rw [List.find?_map]
  rfl

/-- The loop shows the pieces of its walk. -/
theorem fold_loop_trace (fuel index : Nat) :
    foldLoop runtime history ranges folded consolidated fuel index =
      collect (pieceMessages runtime history folded)
        (Segments.trace EphemeralGroupKey.start EphemeralGroupKey.stop history.length
          (rangeKeys ranges) (foldChoice folded consolidated) fuel index) := by
  induction fuel generalizing index with
  | zero => rfl
  | succ fuel inductionHypothesis =>
    unfold foldLoop Segments.trace
    rw [find_range_key]
    cases here : history[index]? with
    | none =>
      rw [if_neg (by simpa using here)]
      rfl
    | some message =>
      have inside : index < history.length := (List.getElem?_eq_some_iff.mp here).1
      have keep (rest : List (Piece (EphemeralGroupKey Digest))) :
          collect (pieceMessages runtime history folded) (.kept index :: rest) =
            (collect (pieceMessages runtime history folded) rest).map (message :: ·) := by
        rw [collect_cons, pieceMessages, here]
        rfl
      rw [if_pos inside]
      cases found : ranges.find? (fun range => decide (range.1.start = index)) with
      | none =>
        dsimp only [Option.map_none]
        rw [keep, inductionHypothesis]
      | some range =>
        obtain ⟨key, size⟩ := range
        dsimp only [Option.map_some]
        rw [foldChoice, isCovered]
        split_ifs with covered
        · dsimp only
          exact inductionHypothesis key.stop
        · rename_i known
          obtain ⟨summary, summarized⟩ := Option.isSome_iff_exists.mp known
          rw [summarized, inductionHypothesis]
          dsimp only
          rw [collect_cons, pieceMessages, foldedMessages, summarized]
          dsimp only
          cases summaryDataMessage runtime summary with
          | none => rfl
          | some shown => rfl
        · rename_i unknown
          rw [Option.not_isSome_iff_eq_none.mp unknown]
          dsimp only
          rw [keep, inductionHypothesis]

/-- Folding shows the pieces of the ranges. -/
theorem fold_loop_pieces (laid : LaidKeys history.length 0 (rangeKeys ranges)) :
    foldLoop runtime history ranges folded consolidated history.length 0 =
      collect (pieceMessages runtime history folded)
        (foldPieces history.length ranges folded consolidated) := by
  rw [fold_loop_trace, Segments.trace_all laid]
  rfl

end Pieces

section Cleanliness

variable {runtime} {history messages : List (ModelMessage CallId Payload Replay)}
  {items : List (HistoryItem Payload Replay)} {loopId : LoopId}
  {folded : List (EphemeralGroupKey Digest × List Char)}

variable (runtime) in
/-- The messages are those of the items, one for each. -/
def MessagesOf (items : List (HistoryItem Payload Replay))
    (history : List (ModelMessage CallId Payload Replay)) : Prop :=
  List.Forall₂ (fun item message => historyMessage runtime item = .ok message) items history

omit [DecidableEq Digest] in
theorem history_messages_of (made : historyMessages runtime items = .ok history) :
    MessagesOf runtime items history := by
  induction items generalizing history with
  | nil =>
    cases made
    exact .nil
  | cons item rest inductionHypothesis =>
    unfold historyMessages at made
    split at made
    · cases made
    · rename_i message here
      obtain ⟨later, tail, rfl⟩ := map_ok.mp made
      exact .cons here (inductionHypothesis tail)

omit [DecidableEq Digest] in
theorem MessagesOf.at_index (made : MessagesOf runtime items history) {index : Nat}
    {message : ModelMessage CallId Payload Replay} (here : history[index]? = some message) :
    ∃ item, items[index]? = some item ∧ historyMessage runtime item = .ok message := by
  obtain ⟨inside, rfl⟩ := List.getElem?_eq_some_iff.mp here
  have within : index < items.length := by
    rw [made.length_eq]
    exact inside
  exact ⟨items[index], List.getElem?_eq_getElem within, made.get within inside⟩

omit [DecidableEq Digest] in
/-- A prompt is shown with its text. -/
theorem MessagesOf.prompt_shown (made : MessagesOf runtime items history) {index : Nat}
    {user : Payload} (here : items[index]? = some (.user user)) :
    history[index]? = some (.user (runtime.userText user)) := by
  have bound : index < history.length := by
    rw [← made.length_eq]
    exact (List.getElem?_eq_some_iff.mp here).1
  obtain ⟨item, found, shown⟩ := made.at_index (List.getElem?_eq_getElem bound)
  rw [here] at found
  cases found
  rw [List.getElem?_eq_getElem bound, user_message_made (or_error_ok.mp shown)]

omit [DecidableEq Digest] in
/-- Only tool results become tool messages. -/
theorem message_unanswering {item : HistoryItem Payload Replay}
    {message : ModelMessage CallId Payload Replay}
    (made : historyMessage runtime item = .ok message) (other : isToolResult item = false) :
    answered message = none := by
  rcases history_message_cases made with ⟨user, rfl, rfl⟩ | ⟨assistant, rfl, rfl | ⟨replay, rfl⟩⟩ |
    ⟨result, rfl, rfl⟩ | ⟨summary, text, rfl, rfl⟩
  · rfl
  · rfl
  · rfl
  · cases other
  · rfl

omit [DecidableEq Digest] in
/-- A message calls tools only for an assistant item that does. -/
theorem message_calls_nothing {item : HistoryItem Payload Replay}
    {message : ModelMessage CallId Payload Replay}
    (made : historyMessage runtime item = .ok message)
    (none : ∀ assistant, item = .assistant assistant → callIds runtime assistant.content = []) :
    toolCalls runtime message = [] := by
  rcases history_message_cases made with ⟨user, rfl, rfl⟩ | ⟨assistant, rfl, rfl | ⟨replay, rfl⟩⟩ |
    ⟨result, rfl, rfl⟩ | ⟨summary, text, rfl, rfl⟩
  · rfl
  · exact none assistant rfl
  · exact none assistant rfl
  · rfl
  · rfl

omit [DecidableEq Digest] in
/-- Before an item that is no tool result a history may be cut. -/
theorem MessagesOf.cut_before (made : MessagesOf runtime items history) {index : Nat}
    (other : ∀ item, items[index]? = some item → isToolResult item = false) :
    (history.drop index).head?.bind answered = none := by
  rw [List.head?_drop]
  cases here : history[index]? with
  | none => rfl
  | some message =>
    obtain ⟨item, found, shown⟩ := made.at_index here
    exact message_unanswering shown (other item found)

theorem drop_take_drop {Value : Type} (values : List Value) {first second : Nat}
    (order : first ≤ second) :
    (values.drop first).take (second - first) ++ values.drop second = values.drop first := by
  have parts := List.take_append_drop (second - first) (values.drop first)
  rwa [List.drop_drop, Nat.add_sub_cancel' order] at parts

omit [DecidableEq Digest] in
/-- Around and within a block the history is clean. -/
theorem block_clean {index start stop : Nat} (made : MessagesOf runtime items history)
    (block : Block runtime items loopId start stop) (order : index ≤ start)
    (clean : Clean runtime (history.drop index)) :
    Clean runtime ((history.drop index).take (start - index)) ∧
      Clean runtime ((history.drop start).take (stop - start)) ∧
      Clean runtime (history.drop stop) := by
  rw [← drop_take_drop history order] at clean
  obtain ⟨before, clean⟩ := clean.split (made.cut_before block.opens)
  refine ⟨before, ?_⟩
  rcases block.closes with closed | ⟨single, calls⟩
  · rw [← drop_take_drop history (Nat.le_of_lt block.nonempty)] at clean
    exact clean.split (made.cut_before closed)
  · subst single
    have inside : start < history.length := by
      rw [← made.length_eq]
      exact block.inside
    obtain ⟨item, found, shown⟩ := made.at_index (List.getElem?_eq_getElem inside)
    rw [List.drop_eq_getElem_cons inside] at clean ⊢
    have none : toolCalls runtime history[start] = [] := by
      apply message_calls_nothing shown
      rintro assistant rfl
      exact calls assistant found
    rw [Nat.add_sub_cancel_left, List.take_succ_cons, List.take_zero]
    obtain ⟨unanswering, rest⟩ := clean.plain_tail none
    exact ⟨.plain none unanswering .nil, rest⟩

/-- Kept positions show their messages. -/
theorem collect_kept (index bound : Nat) :
    collect (pieceMessages runtime history folded) (Segments.keptRange index bound) =
      .ok ((history.drop index).take (bound - index)) := by
  unfold Segments.keptRange
  induction bound - index generalizing index with
  | zero => simp [collect]
  | succ count inductionHypothesis =>
    rw [List.range'_succ, List.map_cons, collect_cons, inductionHypothesis, pieceMessages]
    by_cases inside : index < history.length
    · rw [List.drop_eq_getElem_cons inside, List.getElem?_eq_getElem inside, List.take_succ_cons]
      rfl
    · have beyond : history.length ≤ index := by omega
      rw [List.drop_eq_nil_of_le beyond, List.drop_eq_nil_of_le (Nat.le_succ_of_le beyond),
        List.getElem?_eq_none beyond, List.take_nil, List.take_nil]
      rfl

omit [DecidableEq Digest] in
theorem summary_message_clean {text : List Char} {message : ModelMessage CallId Payload Replay}
    (made : summaryDataMessage runtime text = some message) : Clean runtime [message] := by
  rw [user_message_made made]
  exact .plain rfl rfl .nil

/-- Whatever becomes of the blocks, the pieces show clean exchanges. -/
theorem pieces_clean {choice : EphemeralGroupKey Digest → Choice} {index : Nat}
    {keys : List (EphemeralGroupKey Digest)} (made : MessagesOf runtime items history)
    (laid : LaidKeys history.length index keys)
    (blocks : ∀ key ∈ keys, Block runtime items loopId key.start key.stop)
    (clean : Clean runtime (history.drop index))
    (shown : collect (pieceMessages runtime history folded)
      (Segments.pieces EphemeralGroupKey.start EphemeralGroupKey.stop history.length choice index
        keys) = .ok messages) : Clean runtime messages := by
  induction laid generalizing messages with
  | nil bound =>
    unfold Segments.pieces at shown
    rw [collect_kept, ← List.length_drop, List.take_length] at shown
    cases shown
    exact clean
  | @cons index key rest order nonempty after inductionHypothesis =>
    obtain ⟨gap, within, later⟩ := block_clean made (blocks key List.mem_cons_self) order clean
    unfold Segments.pieces at shown
    obtain ⟨front, behind, first, second, rfl⟩ := collect_append_ok.mp shown
    obtain ⟨kept, own, third, fourth, rfl⟩ := collect_append_ok.mp first
    rw [collect_kept] at third
    cases third
    have treated : Clean runtime own := by
      unfold Segments.treat at fourth
      split at fourth
      · cases fourth
        exact .nil
      · obtain ⟨one, none, here, nothing, rfl⟩ := collect_cons_ok.mp fourth
        cases nothing
        rw [List.append_nil]
        rcases folded_messages_ok here with ⟨_, rfl⟩ | ⟨summary, message, _, accepted, rfl⟩
        · exact .nil
        · exact summary_message_clean accepted
      · rw [collect_kept] at fourth
        cases fourth
        exact within
    have rest := inductionHypothesis
      (fun other member => blocks other (List.mem_cons_of_mem key member)) later second
    exact (gap.append treated).append rest

end Cleanliness

section Opening

variable {runtime} {fixed history opening : List (ModelMessage CallId Payload Replay)}
  {system : List Char} {summary : Option (List Char)}
  {base appended : List (HistoryItem Payload Replay)}
  {consolidated : Option (ConsolidatedSummary LoopId Digest)}

omit [DecidableEq Digest] in
/-- The fixed messages neither call tools nor answer them. -/
theorem fixed_messages_clean (made : fixedMessages runtime system summary = .ok fixed) :
    Clean runtime fixed := by
  obtain ⟨first, second, opened, summarized, rfl⟩ := fixed_messages_ok made
  have before : Clean runtime first := by
    rcases system_part_ok opened with rfl | rfl
    · exact .nil
    · exact .plain rfl rfl .nil
  have after : Clean runtime second := by
    rcases summary_part_ok summarized with ⟨_, rfl⟩ | ⟨text, message, _, accepted, rfl⟩
    · exact .nil
    · exact summary_message_clean accepted
  exact before.append after

omit [DecidableEq Digest] in
theorem Clean.filter_system {messages : List (ModelMessage CallId Payload Replay)} :
    Clean runtime (messages.filter isSystem) := by
  induction messages with
  | nil => exact .nil
  | cons message rest inductionHypothesis =>
    cases message with
    | system text => exact .plain rfl rfl inductionHypothesis
    | user | assistant | assistantWithReplay | tool => exact inductionHypothesis

omit [DecidableEq Digest] in
/-- The opening is clean and keeps the system messages. -/
theorem opening_messages_ok (made : openingMessages runtime fixed consolidated = .ok opening)
    (clean : Clean runtime fixed) :
    opening.filter isSystem = fixed.filter isSystem ∧ Clean runtime opening := by
  cases consolidated with
  | none =>
    cases made
    exact ⟨rfl, clean⟩
  | some value =>
    unfold openingMessages at made
    dsimp only at made
    cases accepted : summaryDataMessage runtime value.content with
    | none =>
      rw [accepted] at made
      cases made
    | some message =>
      rw [accepted] at made
      cases made
      refine ⟨?_, Clean.filter_system.append (summary_message_clean accepted)⟩
      have hidden : isSystem message = false := by
        rw [user_message_made accepted]
        rfl
      simp [hidden]

end Opening

section Conversation

/-- The position lies in none of the groups. -/
def outside (keys : List (EphemeralGroupKey Digest)) (index : Nat) : Bool :=
  keys.all (fun key => !(decide (key.start ≤ index) && decide (index < key.stop)))

/-- The groups a consolidated summary stands for. -/
def coverOf (consolidated : Option (ConsolidatedSummary LoopId Digest)) :
    List (EphemeralGroupKey Digest) :=
  (consolidated.map ConsolidatedSummary.covered).getD []

/-- The message in the place of a piece: the item's own, or the group's summary. -/
def Shows (history : List (ModelMessage CallId Payload Replay))
    (folded : List (EphemeralGroupKey Digest × List Char)) :
    Piece (EphemeralGroupKey Digest) → ModelMessage CallId Payload Replay → Prop
  | .kept index, message => history[index]? = some message
  | .replaced key, message =>
    ∃ summary, Keyed.find folded key = some summary ∧
      summaryDataMessage runtime summary = some message

variable {runtime} {history body : List (ModelMessage CallId Payload Replay)}
  {items : List (HistoryItem Payload Replay)} {loopId : LoopId}
  {ranges : List (EphemeralGroupKey Digest × Nat)}
  {folded : List (EphemeralGroupKey Digest × List Char)}
  {consolidated : Option (ConsolidatedSummary LoopId Digest)}

theorem is_covered_iff {key : EphemeralGroupKey Digest} :
    isCovered consolidated key = true ↔ key ∈ coverOf consolidated := by
  cases consolidated with
  | none => simp [isCovered, coverOf]
  | some value => simp [isCovered, coverOf]

theorem find_some_iff {key : EphemeralGroupKey Digest} :
    (Keyed.find folded key).isSome = true ↔ key ∈ folded.map Prod.fst := by
  rw [Option.isSome_iff_ne_none, Ne, Keyed.find_none_iff]
  simp

theorem fold_choice_drop {key : EphemeralGroupKey Digest} :
    foldChoice folded consolidated key = .drop ↔ key ∈ coverOf consolidated := by
  rw [← is_covered_iff]
  unfold foldChoice
  split_ifs with covered known
  · simp [covered]
  · simp [covered]
  · simp [covered]

theorem fold_choice_replace {key : EphemeralGroupKey Digest} :
    foldChoice folded consolidated key = .replace ↔
      key ∈ folded.map Prod.fst ∧ key ∉ coverOf consolidated := by
  rw [← is_covered_iff, ← find_some_iff]
  unfold foldChoice
  split_ifs with covered known
  · simp [covered]
  · simp [covered, known]
  · simp [known]

theorem fold_choice_keep {key : EphemeralGroupKey Digest} :
    foldChoice folded consolidated key ≠ .keep ↔
      key ∈ folded.map Prod.fst ++ coverOf consolidated := by
  rw [List.mem_append, ← is_covered_iff, ← find_some_iff]
  unfold foldChoice
  split_ifs with covered known
  · simp [covered]
  · simp [known]
  · simp [covered, known]

omit [DecidableEq Digest] in
/-- Being in no tested range is lying outside the groups that pass the test. -/
theorem hit_outside {keys groups : List (EphemeralGroupKey Digest)}
    {test : EphemeralGroupKey Digest → Bool}
    (same : ∀ key, key ∈ groups ↔ key ∈ keys ∧ test key = true) (index : Nat) :
    (!Segments.hit EphemeralGroupKey.start EphemeralGroupKey.stop keys test index) =
      outside groups index := by
  unfold Segments.hit outside
  rw [Bool.eq_iff_iff, Bool.not_eq_true', List.any_eq_false, List.all_eq_true]
  constructor
  · intro missed key member
    obtain ⟨within, tested⟩ := (same key).mp member
    have away := missed key within
    simp only [tested, Bool.true_and, Bool.and_eq_true, decide_eq_true_eq] at away
    simpa using Classical.not_and_iff_not_or_not.mp away
  · intro free key member hit
    simp only [Bool.and_eq_true] at hit
    have away := free key ((same key).mpr ⟨member, hit.1.1⟩)
    simp [hit.1.2, hit.2] at away

omit [DecidableEq Digest] in
/-- A prompt of the current loop lies outside every range. -/
theorem Block.prompt_outside {start stop index : Nat} {user : Payload}
    (block : Block runtime items loopId start stop)
    (here : items[index]? = some (.user user)) (own : runtime.userLoopId user = loopId) :
    ¬ (start ≤ index ∧ index < stop) := by
  rintro ⟨after, before⟩
  rcases Nat.lt_or_eq_of_le after with inner | first
  · obtain ⟨result, found⟩ := block.results index inner before
    rw [here] at found
    cases found
  · rw [← first] at here
    exact block.foreign user here own

/-- The shown messages stand in the places of the pieces. -/
theorem collect_shows {pieces : List (Piece (EphemeralGroupKey Digest))}
    (shown : collect (pieceMessages runtime history folded) pieces = .ok body)
    (inside : ∀ index, Piece.kept index ∈ pieces → index < history.length)
    (known : ∀ key, Piece.replaced key ∈ pieces → (Keyed.find folded key).isSome) :
    List.Forall₂ (Shows runtime history folded) pieces body := by
  induction pieces generalizing body with
  | nil =>
    cases shown
    exact .nil
  | cons piece rest inductionHypothesis =>
    obtain ⟨first, later, here, tail, rfl⟩ := collect_cons_ok.mp shown
    have follow := inductionHypothesis tail
      (fun index member => inside index (List.mem_cons_of_mem piece member))
      (fun key member => known key (List.mem_cons_of_mem piece member))
    cases piece with
    | kept index =>
      have bound := inside index List.mem_cons_self
      rw [pieceMessages, List.getElem?_eq_getElem bound] at here
      cases here
      exact .cons (List.getElem?_eq_getElem bound) follow
    | replaced key =>
      have found := known key List.mem_cons_self
      rcases folded_messages_ok here with ⟨absent, _⟩ | ⟨summary, message, found, accepted, rfl⟩
      · rw [absent] at found
        cases found
      · exact .cons ⟨summary, found, accepted⟩ follow

/-- The pieces of a fold, in terms of the folded groups and of the cover. -/
theorem fold_pieces_positions {length : Nat} (laid : LaidKeys length 0 (rangeKeys ranges))
    (foldedWithin : ∀ key ∈ folded.map Prod.fst, key ∈ rangeKeys ranges)
    (coverWithin : ∀ key ∈ coverOf consolidated, key ∈ rangeKeys ranges) :
    (foldPieces length ranges folded consolidated).filterMap Segments.keptIndex =
        (List.range length).filter (outside (folded.map Prod.fst ++ coverOf consolidated)) ∧
      (foldPieces length ranges folded consolidated).filterMap Segments.replacedKey =
        (rangeKeys ranges).filter
          (fun key => key ∈ folded.map Prod.fst ∧ key ∉ coverOf consolidated) ∧
      (foldPieces length ranges folded consolidated).flatMap
          (Segments.span EphemeralGroupKey.start EphemeralGroupKey.stop) =
        (List.range length).filter (outside (coverOf consolidated)) := by
  refine ⟨?_, ?_, ?_⟩
  · unfold foldPieces
    rw [Segments.pieces_kept laid, Nat.sub_zero, ← List.range_eq_range']
    refine List.filter_congr (fun index _ => hit_outside (fun key => ?_) index)
    rw [decide_eq_true_eq, fold_choice_keep]
    refine ⟨fun member => ⟨?_, member⟩, And.right⟩
    rcases List.mem_append.mp member with one | other
    · exact foldedWithin key one
    · exact coverWithin key other
  · unfold foldPieces
    rw [Segments.pieces_replaced laid]
    apply List.filter_congr
    intro key _
    rw [decide_eq_decide]
    exact fold_choice_replace
  · unfold foldPieces
    rw [Segments.pieces_span laid, Nat.sub_zero, ← List.range_eq_range']
    refine List.filter_congr (fun index _ => hit_outside (fun key => ?_) index)
    rw [decide_eq_true_eq, fold_choice_drop]
    exact ⟨fun member => ⟨coverWithin key member, member⟩, And.right⟩

theorem fold_pieces_inside {length index : Nat} (laid : LaidKeys length 0 (rangeKeys ranges))
    (member : Piece.kept index ∈ foldPieces length ranges folded consolidated) :
    index < length := by
  rw [← Segments.mem_kept_index, foldPieces, Segments.pieces_kept laid, Nat.sub_zero,
    ← List.range_eq_range'] at member
  exact List.mem_range.mp (List.mem_filter.mp member).1

theorem fold_pieces_known {length : Nat} {key : EphemeralGroupKey Digest}
    (laid : LaidKeys length 0 (rangeKeys ranges))
    (member : Piece.replaced key ∈ foldPieces length ranges folded consolidated) :
    (Keyed.find folded key).isSome := by
  rw [← Segments.mem_replaced_key, foldPieces, Segments.pieces_replaced laid] at member
  have chosen := (List.mem_filter.mp member).2
  rw [decide_eq_true_eq, fold_choice_replace] at chosen
  exact find_some_iff.mpr chosen.1

/-- Folding goes through once the summaries it shows are accepted. -/
theorem fold_total {fixed : List (ModelMessage CallId Payload Replay)}
    (laid : LaidKeys history.length 0 (rangeKeys ranges))
    (cover : ∀ value ∈ consolidated, (summaryDataMessage runtime value.content).isSome)
    (summaries : ∀ entry ∈ folded, (summaryDataMessage runtime entry.2).isSome) :
    ∃ result, foldHistoryWithRanges runtime fixed history ranges folded consolidated =
      .ok result := by
  have opened : ∃ opening, openingMessages runtime fixed consolidated = .ok opening := by
    cases consolidated with
    | none => exact ⟨fixed, rfl⟩
    | some value =>
      obtain ⟨message, accepted⟩ := Option.isSome_iff_exists.mp (cover value rfl)
      refine ⟨fixed.filter isSystem ++ [message], ?_⟩
      rw [openingMessages, accepted]
  obtain ⟨opening, opened⟩ := opened
  have shown (piece : Piece (EphemeralGroupKey Digest)) :
      ∃ messages, pieceMessages runtime history folded piece = .ok messages := by
    cases piece with
    | kept index => exact ⟨_, rfl⟩
    | replaced key =>
      rw [pieceMessages, foldedMessages]
      split
      · exact ⟨[], rfl⟩
      · rename_i summary found
        obtain ⟨message, accepted⟩ := Option.isSome_iff_exists.mp
          (summaries _ (Keyed.find_mem found))
        refine ⟨[message], ?_⟩
        rw [show summaryDataMessage runtime summary = some message from accepted]
        rfl
  obtain ⟨body, collected⟩ := collect_total
    (fun piece (_ : piece ∈ foldPieces history.length ranges folded consolidated) => shown piece)
  refine ⟨opening ++ body, ?_⟩
  rw [foldHistoryWithRanges, opened, fold_loop_pieces laid, collected]
  rfl

end Conversation

section Main

variable [DecidableEq LoopId] [DecidableEq CallId] {runtime}

/-- Folding keeps the conversation. For groups and a cover among the compressible
ranges, the result is an opening with the system messages of the fixed part and
one message for each piece of the history. Items outside all groups are shown as
they are, once and in order, and all prompts of the current loop are among them.
A folded group is shown as one message with its summary at its place, unless the
cover contains it: then it is left out. The result is a sequence of clean tool
exchanges again. Only a refused summary makes the folding fail. -/
theorem fold_keeps_the_conversation {system : List Char} {summary : Option (List Char)}
    {base appended : List (HistoryItem Payload Replay)} {loopId : LoopId}
    {fixed history : List (ModelMessage CallId Payload Replay)}
    {ranges : List (EphemeralGroupKey Digest × Nat)}
    {folded : List (EphemeralGroupKey Digest × List Char)}
    {consolidated : Option (ConsolidatedSummary LoopId Digest)}
    (composed : compose runtime system summary base appended = .ok (fixed, history))
    (reported : compressibleRanges runtime base.length (base ++ appended) loopId = .ok ranges)
    (clean : validateCleanToolExchanges runtime history = true)
    (foldedWithin : ∀ key ∈ folded.map Prod.fst, key ∈ rangeKeys ranges)
    (coverWithin : ∀ key ∈ coverOf consolidated, key ∈ rangeKeys ranges) :
    ((∀ value ∈ consolidated, (summaryDataMessage runtime value.content).isSome) →
      (∀ entry ∈ folded, (summaryDataMessage runtime entry.2).isSome) →
      ∃ result, foldHistoryWithRanges runtime fixed history ranges folded consolidated =
        .ok result) ∧
    ∀ result, foldHistoryWithRanges runtime fixed history ranges folded consolidated = .ok result →
      ∃ opening pieces body, result = opening ++ body ∧
        opening.filter isSystem = fixed.filter isSystem ∧
        List.Forall₂ (Shows runtime history folded) pieces body ∧
        pieces.filterMap Segments.keptIndex =
          (List.range history.length).filter
            (outside (folded.map Prod.fst ++ coverOf consolidated)) ∧
        (∀ index user, (base ++ appended)[index]? = some (.user user) →
          runtime.userLoopId user = loopId →
          Piece.kept index ∈ pieces ∧ history[index]? = some (.user (runtime.userText user))) ∧
        pieces.filterMap Segments.replacedKey =
          (rangeKeys ranges).filter
            (fun key => key ∈ folded.map Prod.fst ∧ key ∉ coverOf consolidated) ∧
        pieces.flatMap (Segments.span EphemeralGroupKey.start EphemeralGroupKey.stop) =
          (List.range history.length).filter (outside (coverOf consolidated)) ∧
        validateCleanToolExchanges runtime result = true := by
  obtain ⟨opened, messages⟩ := compose_ok composed
  have made := history_messages_of messages
  have laid := compressible_laid reported
  rw [made.length_eq] at laid
  refine ⟨fold_total laid, ?_⟩
  intro result folding
  unfold foldHistoryWithRanges at folding
  split at folding
  · cases folding
  · rename_i opening opening_made
    rw [fold_loop_pieces laid] at folding
    obtain ⟨body, collected, rfl⟩ := map_ok.mp folding
    obtain ⟨kept, replaced, spans⟩ := fold_pieces_positions laid foldedWithin coverWithin
    obtain ⟨systems, opening_clean⟩ :=
      opening_messages_ok opening_made (fixed_messages_clean opened)
    refine ⟨opening, foldPieces history.length ranges folded consolidated, body, rfl, systems, ?_,
      kept, ?_, replaced, spans, ?_⟩
    · exact collect_shows collected (fun index => fold_pieces_inside laid)
        (fun key => fold_pieces_known laid)
    · intro index user here own
      have shown := made.prompt_shown here
      refine ⟨?_, shown⟩
      -- The prompt lies outside every group, so its position is kept.
      rw [← Segments.mem_kept_index, kept, List.mem_filter, List.mem_range]
      refine ⟨(List.getElem?_eq_some_iff.mp shown).1, List.all_eq_true.mpr ?_⟩
      intro key member
      have within : key ∈ rangeKeys ranges := by
        rcases List.mem_append.mp member with one | other
        · exact foldedWithin key one
        · exact coverWithin key other
      have away := (compressible_blocks reported within).prompt_outside here own
      simpa using Classical.not_and_iff_not_or_not.mp away
    · have blocks : ∀ key ∈ rangeKeys ranges,
          Block runtime (base ++ appended) loopId key.start key.stop :=
        fun key member => compressible_blocks reported member
      rw [validate_clean_iff]
      exact opening_clean.append
        (pieces_clean made laid blocks ((validate_clean_iff history).mp clean) collected)

/-- Items and messages of a small run: payloads are numbers, a prompt's number is
its loop, a call's number is its id. -/
def sampleRuntime : Runtime Nat Nat Nat Nat Nat where
  userLoopId := id
  userText := fun _ => ['u']
  assistantLoopId := fun _ => 1
  assistantRequestIndex := fun _ => 0
  toolCallId := id
  resultLoopId := fun _ => 1
  resultRequestIndex := fun _ => 0
  resultCallId := id
  summaryText := fun _ => ['s']
  textBytes := fun _ => 1
  callBytes := fun _ => 1
  outputBytes := fun _ => 1
  acceptsSystem := fun _ => true
  acceptsUser := fun _ => true
  acceptsAssistant := fun _ _ => true
  acceptsTool := fun _ => true
  maxTextBytes := 1024
  sourceHash := fun items => some items.length
  summaryHash := fun _ => some 0

/-- A settled prompt of loop 0. -/
def sampleBase : List (HistoryItem Nat Nat) := [.user 0]

/-- The prompt of loop 1 and a complete exchange. -/
def sampleAppended : List (HistoryItem Nat Nat) :=
  [.user 1, .assistant { content := [.toolCall 5], providerReplay := none, details := 1 },
    .toolResult 5]

/-- The two ranges of the sample. -/
def samplePromptKey : EphemeralGroupKey Nat := { start := 0, stop := 1, sourceHash := 1 }

def sampleExchangeKey : EphemeralGroupKey Nat := { start := 2, stop := 4, sourceHash := 2 }

/-- A consolidated summary for the settled prompt. -/
def sampleConsolidated : ConsolidatedSummary Nat Nat :=
  { loopId := 1, originalSummaryHash := 0, covered := [samplePromptKey], content := ['c'] }

def sampleHistory : List (ModelMessage Nat Nat Nat) :=
  [.user ['u'], .user ['u'], .assistant [.toolCall 5], .tool 5 5]

def sampleRanges : List (EphemeralGroupKey Nat × Nat) :=
  [(samplePromptKey, 1), (sampleExchangeKey, 2)]

/-- With the settled prompt under the cover and the exchange folded, the current
prompt is left between the two summaries. -/
theorem sample_prompt_is_kept :
    ∃ result, foldHistoryWithRanges sampleRuntime [] sampleHistory sampleRanges
        [(sampleExchangeKey, ['e'])] (some sampleConsolidated) = .ok result ∧
      validateCleanToolExchanges sampleRuntime result = true ∧
      ModelMessage.user ['u'] ∈ result := by
  have composed : compose sampleRuntime [] none sampleBase sampleAppended =
      .ok ([], sampleHistory) := rfl
  have reported : compressibleRanges sampleRuntime sampleBase.length
      (sampleBase ++ sampleAppended) 1 = .ok sampleRanges := rfl
  have clean : validateCleanToolExchanges sampleRuntime sampleHistory = true := by decide
  have foldedWithin : ∀ key ∈ [(sampleExchangeKey, ['e'])].map Prod.fst,
      key ∈ rangeKeys sampleRanges := by decide
  have coverWithin : ∀ key ∈ coverOf (some sampleConsolidated),
      key ∈ rangeKeys sampleRanges := by decide
  obtain ⟨total, kept⟩ :=
    fold_keeps_the_conversation composed reported clean foldedWithin coverWithin
  have accepted (text : List Char) : (summaryDataMessage sampleRuntime text).isSome = true := rfl
  obtain ⟨result, folding⟩ := total (fun value _ => accepted value.content)
    (fun entry _ => accepted entry.2)
  obtain ⟨opening, pieces, body, rfl, _, shown, _, prompts, _, _, valid⟩ := kept result folding
  obtain ⟨member, here⟩ := prompts 1 1 rfl rfl
  refine ⟨opening ++ body, folding, valid, List.mem_append_right opening ?_⟩
  obtain ⟨position, piece⟩ := List.getElem?_of_mem member
  obtain ⟨inside, same⟩ := List.getElem?_eq_some_iff.mp piece
  have within : position < body.length := by
    rw [← shown.length_eq]
    exact inside
  have message := shown.get inside within
  simp only [List.get_eq_getElem] at message
  rw [same] at message
  have equal : some body[position] = some (ModelMessage.user ['u']) := by
    rw [← message, here]
    rfl
  rw [← Option.some.inj equal]
  exact List.getElem_mem within

/-- A group that is folded and under the cover is shown nowhere. -/
theorem covered_group_shows_no_summary :
    compose sampleRuntime [] none sampleBase sampleAppended = .ok ([], sampleHistory) ∧
    compressibleRanges sampleRuntime sampleBase.length (sampleBase ++ sampleAppended) 1 =
      .ok sampleRanges ∧
    validateCleanToolExchanges sampleRuntime sampleHistory = true ∧
    samplePromptKey ∈ rangeKeys sampleRanges ∧
    samplePromptKey ∈ coverOf (some sampleConsolidated) ∧
    ∃ result shown, foldHistoryWithRanges sampleRuntime [] sampleHistory sampleRanges
        [(samplePromptKey, ['e'])] (some sampleConsolidated) = .ok result ∧
      summaryDataMessage sampleRuntime ['e'] = some shown ∧ shown ∉ result := by
  refine ⟨rfl, rfl, by decide, by decide, by decide, _, _, rfl, rfl, ?_⟩
  intro member
  simp only [List.mem_append, List.mem_cons, List.filter_nil, List.not_mem_nil, or_false,
    false_or, ModelMessage.user.injEq, reduceCtorEq] at member
  rcases member with cover | prompt
  · simp [sampleConsolidated] at cover
  · have letter : 'e' ∈ ['u'] := by
      rw [← prompt]
      simp
    simp at letter

end Main

end MinicoreAgent.Compaction

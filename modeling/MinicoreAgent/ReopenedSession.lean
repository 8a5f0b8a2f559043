import MinicoreAgent.PinnedReads
import MinicoreAgent.TurnResults

/-!
# Closing and reopening a Session

A turn that is over is appended to the history file and then merged into the loaded
Session: its items into the history, its acceptance times into the map of known
times. What is merged is the record that was meant to be written. `append_loop` may
have written less: it drops times that are invalid, and sheds the times and the
interrupted copy when the line would be too long without saying so to the Session.

The history is not affected by that. A loaded Session has exactly the items that
loading its file gives, and the times of every loop whose record was written with
its times. The times of the other loops are known to the loaded Session only.
-/
namespace MinicoreAgent.ReopenedSession

open HistoryStore
open ReadPages (insert_times_other)
open SessionState (SessionBlockReason TurnPersistence)

variable {LoopId Payload Replay Digest : Type} [DecidableEq LoopId]
  (externals : Externals LoopId Payload Replay Digest)

section Model

/-- What `persist_report` reads and writes of a loaded Session. -/
structure LoadedSession (LoopId Payload Replay : Type) where
  history : List (HistoryItem Payload Replay)
  userTimes : Times LoopId
  blocked : Option SessionBlockReason
  uncertainLoop : Option LoopId

/-- A Session as `load_history` fills it. -/
def LoadedSession.opened (loaded : Loaded LoopId Payload Replay Digest) :
    LoadedSession LoopId Payload Replay :=
  { history := loaded.items, userTimes := loaded.times, blocked := none, uncertainLoop := none }

/-- A turn that is over, with the items its loop appended. The record of
`reconcile_report` has the normalized items. -/
structure FinishedTurn where
  loopId : LoopId
  appended : List (HistoryItem Payload Replay)
  sanitized : List (HistoryItem Payload Replay)
  stored : StoredLoopRecord LoopId Payload Replay
  normalized : normalizeHistory externals appended = some sanitized
  recorded : stored.items = sanitized

/-- `persist_report`: how the turn was persisted, whether that is uncertain, and what
becomes of the file and of the Session. -/
def persistReport (file : HistoryFile LoopId Digest)
    (session : LoadedSession LoopId Payload Replay) (turn : FinishedTurn externals)
    (faults : AppendFaults) :
    (TurnPersistence × Bool) × HistoryFile LoopId Digest × LoadedSession LoopId Payload Replay :=
  match appendLoopUnder externals file turn.stored faults with
  | (.ok _, after) =>
    ((.persisted, false), after,
      { session with
        history := session.history ++ turn.sanitized
        userTimes := insertTimes turn.stored.loopId (turn.stored.userTimes.getD []) turn.sanitized 0
          session.userTimes
        blocked := none })
  | (.error error, after) =>
    if error = .unknown then
      ((.failed, true), after,
        { session with blocked := some .persistence, uncertainLoop := some turn.loopId })
    else ((.failed, false), after, session)

/-- Turns that were persisted one after another. -/
inductive Persisted : HistoryFile LoopId Digest → LoadedSession LoopId Payload Replay →
    List (FinishedTurn externals) → HistoryFile LoopId Digest →
    LoadedSession LoopId Payload Replay → Prop
  | nil (file : HistoryFile LoopId Digest) (session : LoadedSession LoopId Payload Replay) :
      Persisted file session [] file session
  | cons {file after finish : HistoryFile LoopId Digest}
      {session next last : LoadedSession LoopId Payload Replay} {turn : FinishedTurn externals}
      {turns : List (FinishedTurn externals)} {faults : AppendFaults}
      (done : persistReport externals file session turn faults = ((.persisted, false), after, next))
      (rest : Persisted after next turns finish last) :
      Persisted file session (turn :: turns) finish last

/-- The times that `append_loop` writes with a record: the valid ones, unless it sheds
the metadata. -/
def durableTimes (record : StoredLoopRecord LoopId Payload Replay) : List (Option String) :=
  match encodeLoop externals record with
  | .ok (_, true) => record.normalizedUserTimes.getD []
  | _ => []

/-- The known times after turns whose records have these times. -/
def mergedTimes (timesOf : StoredLoopRecord LoopId Payload Replay → List (Option String))
    (turns : List (FinishedTurn externals)) (known : Times LoopId) : Times LoopId :=
  turns.foldl (fun known turn =>
    insertTimes turn.stored.loopId (timesOf turn.stored) turn.stored.items 0 known) known

end Model

section Records

variable {externals} {record : StoredLoopRecord LoopId Payload Replay}
  {line : StoredLine LoopId Payload Replay} {kept : Bool}

omit [DecidableEq LoopId] in
/-- The line of a record that is already normalized has its loop and its items. -/
theorem encoded_items (normal : normalizeHistory externals record.items = some record.items)
    (encoded : encodeLoop externals record = .ok (line, kept)) :
    line.record.loopId = record.loopId ∧ line.record.items = record.items := by
  have prepared : preparedRecord record record.items = record := by
    unfold preparedRecord
    split <;> rfl
  unfold encodeLoop at encoded
  rw [normal] at encoded
  dsimp only at encoded
  rw [prepared] at encoded
  split at encoded
  · cases encoded
  · split at encoded
    · split at encoded
      · cases encoded
      · split at encoded
        · cases encoded
        · cases encoded
          exact ⟨rfl, rfl⟩
    · split at encoded
      · cases encoded
      · cases encoded
        constructor
        · split <;> rfl
        · split <;> rfl

omit [DecidableEq LoopId] in
/-- Which times the line has: those of the record if they are valid, none if metadata
was shed. -/
theorem encoded_times (normal : normalizeHistory externals record.items = some record.items)
    (encoded : encodeLoop externals record = .ok (line, kept)) :
    line.record.userTimes =
      if kept then
        if record.userTimesAreValid then record.userTimes else record.normalizedUserTimes
      else none := by
  have prepared : preparedRecord record record.items = record := by
    unfold preparedRecord
    split <;> rfl
  unfold encodeLoop at encoded
  rw [normal] at encoded
  dsimp only at encoded
  rw [prepared] at encoded
  split at encoded
  · cases encoded
  · split at encoded
    · split at encoded
      · cases encoded
      · split at encoded
        · cases encoded
        · cases encoded
          rfl
    · split at encoded
      · cases encoded
      · cases encoded
        rw [if_pos rfl]
        split <;> rfl

omit [DecidableEq LoopId] in
/-- Checking and cleaning valid times changes nothing. -/
theorem normalized_valid_times (valid : record.userTimesAreValid = true) :
    record.normalizedUserTimes = record.userTimes := by
  have kept := deserialize_valid (times_valid_of_check valid)
  unfold StoredLoopRecord.normalizedUserTimes
  cases known : record.userTimes with
  | none => rfl
  | some times =>
    rw [StoredLoopRecord.userTimesAreValid, known, Bool.and_eq_true, decide_eq_true_eq] at valid
    rw [known] at kept
    simp only [if_neg (Nat.not_lt.mpr valid.1)]
    exact kept

omit [DecidableEq LoopId] in
/-- Loading a line reads the durable times of its record. -/
theorem encoded_durable (normal : normalizeHistory externals record.items = some record.items)
    (encoded : encodeLoop externals record = .ok (line, kept)) :
    (line.record.userTimes.filter (·.length ≤ line.record.userCount)).getD [] =
      durableTimes externals record := by
  have times := encoded_times normal encoded
  have count : line.record.userCount = record.userCount := by
    rw [StoredLoopRecord.userCount, (encoded_items normal encoded).2, StoredLoopRecord.userCount]
  rw [durableTimes, encoded, times, count]
  cases kept with
  | false => rfl
  | true =>
    have written : (if record.userTimesAreValid then record.userTimes
        else record.normalizedUserTimes) = record.normalizedUserTimes := by
      split
      · rename_i valid
        exact (normalized_valid_times valid).symm
      · rfl
    rw [if_pos rfl, written]
    unfold StoredLoopRecord.normalizedUserTimes
    cases record.userTimes with
    | none => rfl
    | some times =>
      dsimp only
      split
      · rfl
      · rename_i few
        rw [Option.filter_some, List.length_map, if_pos (by simpa using few)]

omit [DecidableEq LoopId] in
/-- Valid times that are not shed are durable. -/
theorem durable_kept (valid : record.userTimesAreValid = true)
    (encoded : encodeLoop externals record = .ok (line, true)) :
    durableTimes externals record = record.userTimes.getD [] := by
  rw [durableTimes, encoded, normalized_valid_times valid]

omit [DecidableEq LoopId] in
theorem FinishedTurn.normal (turn : FinishedTurn externals) :
    normalizeHistory externals turn.stored.items = some turn.stored.items := by
  rw [turn.recorded]
  exact normalize_history_again turn.normalized

end Records

section Times

variable {loopId loop : LoopId} {userTimes : List (Option String)}

/-- Behind the last time nothing is inserted. -/
theorem insert_times_beyond (items : List (HistoryItem Payload Replay)) {occurrence : Nat}
    (beyond : userTimes.length ≤ occurrence) (times : Times LoopId) :
    insertTimes loopId userTimes items occurrence times = times := by
  induction items generalizing occurrence with
  | nil => rfl
  | cons item rest inductionHypothesis =>
    cases item with
    | user user =>
      rw [insertTimes, List.getElem?_eq_none beyond]
      exact inductionHypothesis (Nat.le_succ_of_le beyond)
    | toolResult result => exact inductionHypothesis beyond
    | summary summary => exact inductionHypothesis beyond
    | assistant assistant => exact inductionHypothesis beyond

theorem insert_first_time (user : Payload) (rest : List (HistoryItem Payload Replay))
    (time : String) (times : Times LoopId) :
    insertTimes loopId [some time] (.user user :: rest) 0 times (loopId, 0) = some time := by
  have beyond : [some time].length ≤ 0 + 1 := Nat.le_refl 1
  rw [insertTimes, insert_times_beyond rest beyond]
  exact Function.update_self _ _ _

/-- What is known of a loop afterwards depends on what was known of it before. -/
theorem insert_times_congr (items : List (HistoryItem Payload Replay)) (occurrence : Nat)
    {first second : Times LoopId} (same : ∀ index, first (loop, index) = second (loop, index)) :
    ∀ index, insertTimes loopId userTimes items occurrence first (loop, index) =
      insertTimes loopId userTimes items occurrence second (loop, index) := by
  induction items generalizing occurrence first second with
  | nil => exact same
  | cons item rest inductionHypothesis =>
    cases item with
    | user user =>
      apply inductionHypothesis
      intro index
      rcases userTimes[occurrence]? with _ | _ | time
      · exact same index
      · exact same index
      · by_cases here : (loop, index) = (loopId, occurrence)
        · simp only [here, Function.update_self]
        · simp only [Function.update_of_ne here, same index]
    | toolResult result => exact inductionHypothesis occurrence same
    | summary summary => exact inductionHypothesis occurrence same
    | assistant assistant => exact inductionHypothesis occurrence same

end Times

section Reopening

variable {externals} {file after finish : HistoryFile LoopId Digest}
  {session next last : LoadedSession LoopId Payload Replay} {turn : FinishedTurn externals}
  {turns : List (FinishedTurn externals)} {faults : AppendFaults}
  {loaded : Loaded LoopId Payload Replay Digest} {loop : LoopId}

/-- What persisting a turn does to the file, to what loading it gives, and to the
Session. -/
theorem persisted_turn (lawful : externals.Lawful) (agrees : Agrees externals file loaded)
    (done : persistReport externals file session turn faults = ((.persisted, false), after, next)) :
    ∃ line kept, encodeLoop externals turn.stored = .ok (line, kept) ∧
      Agrees externals after (loaded.enter externals line.bytes line.record line.items) ∧
      line.items = turn.sanitized ∧
      next.history = session.history ++ turn.sanitized ∧
      next.userTimes = insertTimes turn.stored.loopId (turn.stored.userTimes.getD [])
        turn.stored.items 0 session.userTimes := by
  unfold persistReport at done
  rcases append_cases externals file turn.stored faults with
    ⟨line, kept, encoded, written⟩ | ⟨error, refused⟩ | unknown
  · rw [written] at done
    cases done
    have items : line.items = turn.sanitized := by
      have normal := encode_loop_items encoded
      rw [turn.normal] at normal
      exact (Option.some.inj normal).symm.trans turn.recorded
    have extended := agrees.written lawful (encode_loop_good encoded)
    refine ⟨line, kept, encoded, extended, items, rfl, ?_⟩
    rw [turn.recorded]
  · rw [refused] at done
    cases done
  · split at done
    · rename_i kept after' written
      rw [written] at unknown
      cases unknown
    · split at done
      · cases done
      · cases done

/-- What persisting turns does to the Session, and to what loading the file gives. -/
theorem Persisted.reloads (lawful : externals.Lawful)
    (ran : Persisted externals file session turns finish last)
    (agrees : Agrees externals file loaded) (same : loaded.items = session.history) :
    ∃ reloaded, Agrees externals finish reloaded ∧ reloaded.items = last.history ∧
      reloaded.times = mergedTimes externals (durableTimes externals) turns loaded.times ∧
      last.userTimes =
        mergedTimes externals (fun record => record.userTimes.getD []) turns session.userTimes := by
  induction ran generalizing loaded with
  | nil file session => exact ⟨loaded, agrees, same, rfl, rfl⟩
  | @cons file after finish session next last turn turns faults done rest inductionHypothesis =>
    obtain ⟨line, kept, encoded, agrees, items, history, times⟩ :=
      persisted_turn lawful agrees done
    have written := encoded_items turn.normal encoded
    have entered : (loaded.enter externals line.bytes line.record line.items).times =
        insertTimes turn.stored.loopId (durableTimes externals turn.stored) turn.stored.items 0
          loaded.times := by
      rw [← encoded_durable turn.normal encoded, ← written.1, ← written.2]
      rfl
    have extended : (loaded.enter externals line.bytes line.record line.items).items =
        next.history := by
      rw [history, ← same, ← items]
      rfl
    obtain ⟨reloaded, agrees, same, reread, merged⟩ := inductionHypothesis agrees extended
    refine ⟨reloaded, agrees, same, ?_, ?_⟩
    · rw [reread, entered]
      rfl
    · rw [merged, times]
      rfl

theorem merged_turn
    (timesOf : StoredLoopRecord LoopId Payload Replay → List (Option String))
    (turn : FinishedTurn externals) (known : Times LoopId) :
    mergedTimes externals timesOf [turn] known =
      insertTimes turn.stored.loopId (timesOf turn.stored) turn.stored.items 0 known := rfl

/-- What is known of one loop depends on the times of its own records. -/
theorem merged_times_congr
    {first second : StoredLoopRecord LoopId Payload Replay → List (Option String)}
    {earlier other : Times LoopId}
    (own : ∀ turn ∈ turns, turn.stored.loopId = loop → first turn.stored = second turn.stored)
    (same : ∀ index, earlier (loop, index) = other (loop, index)) :
    ∀ index, mergedTimes externals first turns earlier (loop, index) =
      mergedTimes externals second turns other (loop, index) := by
  induction turns generalizing earlier other with
  | nil => exact same
  | cons turn rest inductionHypothesis =>
    apply inductionHypothesis
    · intro turn member
      exact own turn (List.mem_cons_of_mem _ member)
    · intro index
      dsimp only
      by_cases here : loop = turn.stored.loopId
      · rw [own turn List.mem_cons_self here.symm]
        exact insert_times_congr _ _ same index
      · rw [insert_times_other _ _ _ here, insert_times_other _ _ _ here]
        exact same index

variable (file session turn) in
/-- A turn is persisted when nothing fails and its record is encoded. -/
theorem persisted_encoded {line : StoredLine LoopId Payload Replay} {kept : Bool}
    (encoded : encodeLoop externals turn.stored = .ok (line, kept)) :
    persistReport externals file session turn
        { missing := none, openFails := false, write := none, rollback := none } =
      ((.persisted, false),
        { bytes := file.bytes ++ (line.bytes ++ [newline])
          index := indexLine externals file.index (line.bytes ++ [newline]) line.record
            line.items.length },
        { session with
          history := session.history ++ turn.sanitized
          userTimes := insertTimes turn.stored.loopId (turn.stored.userTimes.getD [])
            turn.sanitized 0 session.userTimes
          blocked := none }) := by
  simp [persistReport, appendLoopUnder, encoded]

end Reopening

section Sample

open TurnResults

/-- A new Session: its file is empty. -/
theorem empty_opened : loadHistory externals [] [] =
    (.ok (.empty : Loaded LoopId Payload Replay Digest), []) := rfl

theorem empty_read : Reads ([] : List (List UInt8)) [] := ⟨rfl, by simp⟩

/-- The steered turn, whose line is written without its metadata. -/
def steeredTurn : FinishedTurn steeredExternals :=
  { loopId := 2, appended := steeredRecord.items, sanitized := steeredRecord.items
    stored := steeredRecord, normalized := steered_normalized, recorded := rfl }

def sampleTurn : FinishedTurn sampleExternals :=
  { loopId := 2, appended := sampleRecord.items, sanitized := sampleRecord.items
    stored := sampleRecord, normalized := rfl, recorded := rfl }

end Sample

end MinicoreAgent.ReopenedSession

import Mathlib.Logic.Relation
import MinicoreAgent.StoredResults

/-!
# Agreement of the sources of a turn's result

A turn whose append ended unknown is retained as a source, and its record may be in
the file all the same. Once the Session is unloaded and loaded again, the result is
shown from the history in memory or from the record on disk.

A run of the system appends records, retains and drops sources, unloads and loads the
Session and answers requests. Along every run, what is in the file for a loop is the
line that `append_loop` made of its record, a retained source is the encoding of that
record, and a kept identity is the one of its line. So all sources show the same
texts. The identity covers the interrupted copy as well, which a line that would be
too long does not have.
-/
namespace MinicoreAgent.TurnResults

open HistoryStore ReadPages

variable {LoopId Payload Replay Digest : Type} [DecidableEq LoopId]
  (externals : Externals LoopId Payload Replay Digest)
  (pages : PageExternals LoopId Payload Digest) (turns : TurnExternals Payload)

section Model

/-- What `persist_report` found out about a record, until its turn is completed. -/
structure Finishing (LoopId Payload Replay : Type) where
  record : StoredLoopRecord LoopId Payload Replay
  persistence : SessionState.TurnPersistence
  uncertain : Bool

/-- A session in memory and on disk: the complete lines of its history file, a line of
which only the first bytes may be there, the Session if it is loaded, a record that is
appended and not yet merged, one whose turn is not yet completed, the identities that
are kept, and the loops that there were. -/
structure World (LoopId Payload Replay Digest : Type) where
  lines : List (StoredLine LoopId Payload Replay)
  torn : Option (StoredLine LoopId Payload Replay × Nat)
  session : Option (TurnSession LoopId Payload Replay Digest)
  unmerged : Option (StoredLoopRecord LoopId Payload Replay)
  finishing : Option (Finishing LoopId Payload Replay)
  identities : List (StoredIdentity LoopId Payload)
  used : List LoopId

/-- The bytes behind the last newline. -/
def World.tail (world : World LoopId Payload Replay Digest) : List UInt8 :=
  (world.torn.map fun part => part.1.bytes.take part.2).getD []

def World.file (world : World LoopId Payload Replay Digest) : List UInt8 :=
  fileOf world.lines ++ world.tail

/-- A line of which so many bytes, with its newline, reached the file. -/
def World.reached (world : World LoopId Payload Replay Digest)
    (line : StoredLine LoopId Payload Replay) (count : Nat) : World LoopId Payload Replay Digest :=
  if count ≤ line.bytes.length then { world with torn := some (line, count) }
  else { world with lines := world.lines ++ [line] }

/-- The lines that loading finds: a line that only lacks its newline is one of them. -/
def World.recovered (world : World LoopId Payload Replay Digest) :
    List (StoredLine LoopId Payload Replay) :=
  world.lines ++
    match world.torn with
    | some (line, count) => if line.bytes.length ≤ count then [line] else []
    | none => []

/-- The entry that `complete_turn` makes. -/
def completionOf (result : TurnResult Payload) (outcome : SessionState.LoopOutcomeView)
    (source : Option (PreparedSource Payload)) (unavailable : Option SessionState.UnavailableReason)
    (uncertain : Bool) : Completion :=
  { completionKind := .reported
    outcomeKind := some outcome
    persistence := some result.persistence
    persistenceUncertain := uncertain
    availability :=
      if result.persistence = .persisted then .stored
      else if source.isSome then .live
      else .unavailable
    unavailableReason := unavailable }

/-- A Session that was just loaded. -/
def TurnSession.opened (load : String) (loaded : Loaded LoopId Payload Replay Digest) :
    TurnSession LoopId Payload Replay Digest :=
  { load := load, history := loaded.items, index := loaded.index, lookup := fun _ => none
    isTurnPending := fun _ => false, completedTurn := fun _ => none, uncertainLoop := none }

/-- What can happen. -/
inductive Step : World LoopId Payload Replay Digest → World LoopId Payload Replay Digest → Prop
  /-- `append_loop` has written the sanitized record of a new loop. -/
  | append {world : World LoopId Payload Replay Digest}
      {session : TurnSession LoopId Payload Replay Digest}
      {record : StoredLoopRecord LoopId Payload Replay} {line : StoredLine LoopId Payload Replay}
      {kept : Bool} {faults : AppendFaults} {after : HistoryFile LoopId Digest}
      (loaded : world.session = some session) (certain : session.uncertainLoop = none)
      (merged : world.unmerged = none) (completed : world.finishing = none)
      (sanitized : normalizeHistory externals record.items = some record.items)
      (fresh : record.loopId ∉ world.used)
      (encoded : encodeLoop externals record = .ok (line, kept))
      (written : appendLoopUnder externals { bytes := world.file, index := session.index } record
        faults = (.ok kept, after)) :
      Step world
        { world with
          lines := world.lines ++ [line]
          session := some { session with index := after.index }
          unmerged := some record
          used := record.loopId :: world.used }
  /-- `persist_report` has merged it into the history. -/
  | merge {world : World LoopId Payload Replay Digest}
      {session : TurnSession LoopId Payload Replay Digest}
      {record : StoredLoopRecord LoopId Payload Replay} (loaded : world.session = some session)
      (appended : world.unmerged = some record) :
      Step world
        { world with
          session := some { session with history := session.history ++ record.items }
          unmerged := none
          finishing := some { record := record, persistence := .persisted, uncertain := false } }
  /-- `append_loop` has failed and left the file as it was. -/
  | refuse {world : World LoopId Payload Replay Digest}
      {session : TurnSession LoopId Payload Replay Digest}
      {record : StoredLoopRecord LoopId Payload Replay} {faults : AppendFaults}
      {error : StoreError} (loaded : world.session = some session)
      (certain : session.uncertainLoop = none) (merged : world.unmerged = none)
      (completed : world.finishing = none)
      (sanitized : normalizeHistory externals record.items = some record.items)
      (fresh : record.loopId ∉ world.used)
      (failed : appendLoopUnder externals { bytes := world.file, index := session.index } record
        faults = (.error (.notWritten error), { bytes := world.file, index := session.index })) :
      Step world
        { world with
          finishing := some { record := record, persistence := .failed, uncertain := false }
          used := record.loopId :: world.used }
  /-- `append_loop` has ended unknown, with some bytes of the line in the file. -/
  | doubt {world : World LoopId Payload Replay Digest}
      {session : TurnSession LoopId Payload Replay Digest}
      {record : StoredLoopRecord LoopId Payload Replay} {line : StoredLine LoopId Payload Replay}
      {kept : Bool} {faults : AppendFaults} {count : Nat} (loaded : world.session = some session)
      (certain : session.uncertainLoop = none) (merged : world.unmerged = none)
      (completed : world.finishing = none)
      (sanitized : normalizeHistory externals record.items = some record.items)
      (fresh : record.loopId ∉ world.used)
      (encoded : encodeLoop externals record = .ok (line, kept))
      (unknown : appendLoopUnder externals { bytes := world.file, index := session.index } record
        faults = (.error .unknown,
          { bytes := world.file ++ (line.bytes ++ [newline]).take count, index := session.index })) :
      Step world
        (World.reached
          { world with
            session := some { session with uncertainLoop := some record.loopId }
            finishing := some { record := record, persistence := .failed, uncertain := true }
            used := record.loopId :: world.used } line count)
  /-- `complete_turn` has entered the turn, with its source if it is not stored and the
  source could be retained. -/
  | complete {world : World LoopId Payload Replay Digest}
      {session : TurnSession LoopId Payload Replay Digest}
      {finishing : Finishing LoopId Payload Replay} {result : TurnResult Payload}
      {outcome : SessionState.LoopOutcomeView} {source : Option (PreparedSource Payload)}
      {unavailable : Option SessionState.UnavailableReason}
      (loaded : world.session = some session) (ended : world.finishing = some finishing)
      (persistence : result.persistence = finishing.persistence)
      (encoded : ∀ prepared ∈ source, finishing.persistence = .failed ∧
        encodeResultSource externals pages turns finishing.record.items
          finishing.record.interrupted result = .ok prepared) :
      Step world
        { world with
          session := some
            { session with
              lookup := Function.update session.lookup finishing.record.loopId
                (some (completionOf result outcome source unavailable finishing.uncertain, source)) }
          finishing := none }
  /-- Entries and sources have left the catalog. -/
  | expire {world : World LoopId Payload Replay Digest}
      {session : TurnSession LoopId Payload Replay Digest}
      {lookup : LoopId → Option (Completion × Option (PreparedSource Payload))}
      (loaded : world.session = some session)
      (entered : ∀ loopId, lookup loopId ≠ none → session.lookup loopId ≠ none)
      (retained : ∀ loopId entry source, lookup loopId = some (entry, some source) →
        session.lookup loopId = some (entry, some source)) :
      Step world { world with session := some { session with lookup := lookup } }
  /-- Turns have begun or ended. -/
  | turn {world : World LoopId Payload Replay Digest}
      {session : TurnSession LoopId Payload Replay Digest} {isTurnPending : LoopId → Bool}
      {completedTurn : LoopId → Option (TurnResult Payload)}
      (loaded : world.session = some session) :
      Step world
        { world with
          session := some
            { session with isTurnPending := isTurnPending, completedTurn := completedTurn } }
  | unload {world : World LoopId Payload Replay Digest}
      {session : TurnSession LoopId Payload Replay Digest} (loaded : world.session = some session)
      (merged : world.unmerged = none) (completed : world.finishing = none) :
      Step world
        { world with
          session := none
          identities := removeStoredIdentities session.load world.identities }
  | load {world : World LoopId Payload Replay Digest} {load : String}
      {chunks : List (List UInt8)} {loaded : Loaded LoopId Payload Replay Digest}
      (unloaded : world.session = none)
      (fresh : ∀ entry ∈ world.identities, entry.key.load ≠ load)
      (reads : HistoryStore.Reads chunks world.file)
      (opened : loadHistory externals world.file chunks = (.ok loaded, fileOf world.recovered)) :
      Step world
        { world with
          lines := world.recovered
          torn := none
          session := some (TurnSession.opened load loaded) }
  /-- A request was answered. -/
  | read {world : World LoopId Payload Replay Digest} {calls : TurnCalls LoopId Payload}
      {request : TurnResultRequest LoopId}
      {answer : Except TurnError (TurnResultPage LoopId Payload)}
      {kept : List (StoredIdentity LoopId Payload)}
      (reading : ∀ offset, Reading world.file offset (calls.answersFrom offset))
      (answered : turnResult calls request externals pages turns world.identities world.session =
        (answer, kept)) :
      Step world { world with identities := kept }
  /-- Other sessions have kept and evicted identities. -/
  | others {world : World LoopId Payload Replay Digest}
      {kept : List (StoredIdentity LoopId Payload)}
      (foreign : ∀ entry ∈ kept, entry ∈ world.identities ∨
        ∀ session, world.session = some session → entry.key.load ≠ session.load) :
      Step world { world with identities := kept }

/-- The lines of which something was written. -/
def World.written (world : World LoopId Payload Replay Digest) :
    List (StoredLine LoopId Payload Replay) :=
  world.lines ++ (world.torn.map Prod.fst).toList

/-- The file is well-formed lines, perhaps with a part of one more, of distinct loops. -/
structure World.Sound (world : World LoopId Payload Replay Digest) : Prop where
  formed : ∀ line ∈ world.lines, line.WellFormed externals
  torn : ∀ line count, world.torn = some (line, count) → line.Good externals
  distinct : (world.written.map (fun line => line.record.loopId)).Nodup
  used : ∀ line ∈ world.written, line.record.loopId ∈ world.used

/-- A session that is not loaded. -/
structure World.Fresh (world : World LoopId Payload Replay Digest) : Prop where
  sound : world.Sound externals
  session : world.session = none
  unmerged : world.unmerged = none
  finishing : world.finishing = none

/-- What a world has of a loop comes from this record. -/
structure Tells (record : StoredLoopRecord LoopId Payload Replay)
    (world : World LoopId Payload Replay Digest) : Prop where
  used : record.loopId ∈ world.used
  lines : ∀ line ∈ world.written, line.record.loopId = record.loopId →
    ∃ kept, encodeLoop externals record = .ok (line, kept)
  retained : ∀ session entry source, world.session = some session →
    session.lookup record.loopId = some (entry, some source) →
    ∃ result, encodeResultSource externals pages turns record.items record.interrupted result =
      .ok source
  unmerged : ∀ other, world.unmerged = some other → other.loopId = record.loopId → other = record
  finishing : ∀ other, world.finishing = some other → other.record.loopId = record.loopId →
    other.record = record

/-- A loaded Session has the items of all lines that are merged, and the index of all
that were certainly written. -/
def Session (world : World LoopId Payload Replay Digest)
    (session : TurnSession LoopId Payload Replay Digest) : Prop :=
  ∃ known waiting doubtful, world.lines = known ++ waiting ++ doubtful ∧
    session.index = entriesFrom externals [] (known ++ waiting) ∧
    session.history = known.flatMap StoredLine.items ∧
    waiting.flatMap StoredLine.items = (world.unmerged.map StoredLoopRecord.items).getD [] ∧
    (session.uncertainLoop = none → doubtful = [] ∧ world.torn = none)

/-- What every world that a run reaches is like. -/
structure World.Valid (world : World LoopId Payload Replay Digest) : Prop where
  sound : world.Sound externals
  session : ∀ session, world.session = some session → Session externals world session
  looked : ∀ session, world.session = some session → ∀ loopId, session.lookup loopId ≠ none →
    loopId ∈ world.used
  right : ∀ session, world.session = some session → ∀ entry ∈ world.identities,
    entry.key.load = session.load → Right externals pages turns world.lines entry
  retained : ∀ session, world.session = some session → ∀ loopId entry source,
    session.lookup loopId = some (entry, some source) →
    ∃ record, record.loopId = loopId ∧
      normalizeHistory externals record.items = some record.items ∧
      Tells externals pages turns record world
  unmerged : ∀ record, world.unmerged = some record →
    normalizeHistory externals record.items = some record.items ∧
      Tells externals pages turns record world
  finishing : ∀ finishing, world.finishing = some finishing →
    normalizeHistory externals finishing.record.items = some finishing.record.items ∧
      Tells externals pages turns finishing.record world
  unloaded : world.session = none → world.unmerged = none ∧ world.finishing = none

end Model

section Recovery

variable {externals} {world : World LoopId Payload Replay Digest}
  {line : StoredLine LoopId Payload Replay} {count : Nat}

omit [DecidableEq LoopId] in
theorem reached_fields :
    (world.reached line count).session = world.session ∧
      (world.reached line count).unmerged = world.unmerged ∧
      (world.reached line count).finishing = world.finishing ∧
      (world.reached line count).identities = world.identities ∧
      (world.reached line count).used = world.used := by
  unfold World.reached
  split <;> exact ⟨rfl, rfl, rfl, rfl, rfl⟩

omit [DecidableEq LoopId] in
theorem reached_member {found : StoredLine LoopId Payload Replay}
    (member : found ∈ (world.reached line count).written) : found ∈ world.written ∨ found = line := by
  unfold World.reached World.written at member
  split at member
  · rcases List.mem_append.mp member with old | new
    · exact Or.inl (List.mem_append_left _ old)
    · exact Or.inr (List.mem_singleton.mp new)
  · rcases List.mem_append.mp member with inside | part
    · rcases List.mem_append.mp inside with old | new
      · exact Or.inl (List.mem_append_left _ old)
      · exact Or.inr (List.mem_singleton.mp new)
    · exact Or.inl (List.mem_append_right _ part)

omit [DecidableEq LoopId] in
theorem reached_written (whole : world.torn = none) :
    (world.reached line count).written = world.lines ++ [line] := by
  unfold World.reached World.written
  split
  · rfl
  · rw [whole]
    simp

omit [DecidableEq LoopId] in
/-- The lines of a world of which some bytes of a line were written. -/
theorem reached_lines :
    (world.reached line count).lines = world.lines ∨
      (world.reached line count).lines = world.lines ++ [line] := by
  unfold World.reached
  split
  · exact Or.inl rfl
  · exact Or.inr rfl

omit [DecidableEq LoopId] in
theorem reached_extends {lines : List (StoredLine LoopId Payload Replay)}
    (same : world.lines = lines) : lines <+: (world.reached line count).lines := by
  subst same
  unfold World.reached
  split
  · exact List.prefix_rfl
  · exact List.prefix_append _ _

omit [DecidableEq LoopId] in
theorem recovered_sublist : List.Sublist world.recovered world.written := by
  unfold World.recovered World.written
  apply List.Sublist.append_left
  cases world.torn with
  | none => exact List.nil_sublist _
  | some part =>
    obtain ⟨line, count⟩ := part
    dsimp only
    split
    · exact List.Sublist.refl _
    · exact List.nil_sublist _

omit [DecidableEq LoopId] in
theorem tail_unended (lawful : externals.Lawful) (sound : world.Sound externals) :
    newline ∉ world.tail := by
  unfold World.tail
  cases torn : world.torn with
  | none => simp
  | some part =>
    have good := sound.torn part.1 part.2 torn
    intro member
    exact lawful.oneLine part.1.record part.1.bytes good.written (List.mem_of_mem_take member)

/-- Loading finds the lines that are all there, and leaves them as the file. -/
theorem load_recovered (lawful : externals.Lawful) (sound : world.Sound externals)
    {chunks : List (List UInt8)} (reads : HistoryStore.Reads chunks world.file) :
    loadHistory externals world.file chunks =
      (.ok (Loaded.ofLines externals world.recovered), fileOf world.recovered) := by
  have split : Lines.split newline world.file =
      (world.lines.map StoredLine.bytes, world.tail) :=
    Lines.split_join (well_formed_free sound.formed) (tail_unended lawful sound)
  rw [load_history_lines reads, split]
  dsimp only
  rw [recoverHistory, enter_well_formed sound.formed]
  dsimp only
  unfold World.tail World.recovered
  cases torn : world.torn with
  | none => simp [fileOf]
  | some part =>
    obtain ⟨line, count⟩ := part
    have good := sound.torn line count torn
    have present := List.length_pos_iff.mpr (written_nonempty lawful good)
    simp only [Option.map_some, Option.getD_some]
    by_cases whole : line.bytes.length ≤ count
    · rw [if_pos whole, List.take_of_length_le whole, if_neg (written_nonempty lawful good),
        parse_written lawful good]
      simp [Loaded.ofLines, fileOf]
    · rw [if_neg whole, parse_torn lawful good (Nat.lt_of_not_le whole)]
      split <;> simp [fileOf]

end Recovery

section Steps

variable {externals pages turns} {world later : World LoopId Payload Replay Digest}
  {record : StoredLoopRecord LoopId Payload Replay}
  {session : TurnSession LoopId Payload Replay Digest}

omit [DecidableEq LoopId] in
/-- A line is of the loop of its record, and has its interrupted copy unless metadata
was shed. -/
theorem encode_loop_record {line : StoredLine LoopId Payload Replay} {kept : Bool}
    (encoded : encodeLoop externals record = .ok (line, kept)) :
    line.record.loopId = record.loopId ∧
      line.record.interrupted = if kept then record.interrupted else none := by
  have prepared (normalized : List (HistoryItem Payload Replay)) :
      (preparedRecord record normalized).loopId = record.loopId ∧
        (preparedRecord record normalized).interrupted = record.interrupted := by
    unfold preparedRecord
    split <;> exact ⟨rfl, rfl⟩
  unfold encodeLoop at encoded
  split at encoded
  · cases encoded
  · rename_i normalized _
    dsimp only at encoded
    split at encoded
    · cases encoded
    · split at encoded
      · split at encoded
        · cases encoded
        · split at encoded
          · cases encoded
          · cases encoded
            exact ⟨(prepared normalized).1, rfl⟩
      · split at encoded
        · cases encoded
        · cases encoded
          split
          · exact prepared normalized
          · exact prepared normalized

/-- What a world has of a loop comes from its record, whatever happens. -/
theorem Tells.step (step : Step externals pages turns world later)
    (tells : Tells externals pages turns record world) :
    Tells externals pages turns record later := by
  -- A new loop is another one.
  have other {new : StoredLoopRecord LoopId Payload Replay} (fresh : new.loopId ∉ world.used) :
      new.loopId ≠ record.loopId := fun same => fresh (same ▸ tells.used)
  cases step with
  | @append session new line kept faults after loaded certain merged completed sanitized fresh
      encoded written =>
    have apart := other fresh
    refine ⟨List.mem_cons_of_mem _ tells.used, ?_, ?_, ?_, tells.finishing⟩
    · intro found member own
      rcases List.mem_append.mp member with inside | part
      · rcases List.mem_append.mp inside with old | newest
        · exact tells.lines found (List.mem_append_left _ old) own
        · rw [List.mem_singleton.mp newest, (encode_loop_record encoded).1] at own
          exact absurd own apart
      · exact tells.lines found (List.mem_append_right _ part) own
    · rintro _ entry source ⟨rfl⟩ found
      exact tells.retained session entry source loaded found
    · rintro _ ⟨rfl⟩ same
      exact absurd same apart
  | @merge session new loaded appended =>
    refine ⟨tells.used, tells.lines, ?_, by simp, ?_⟩
    · rintro _ entry source ⟨rfl⟩ found
      exact tells.retained session entry source loaded found
    · rintro _ ⟨rfl⟩ same
      exact tells.unmerged new appended same
  | @refuse session new faults error loaded certain merged completed sanitized fresh failed =>
    refine ⟨List.mem_cons_of_mem _ tells.used, tells.lines, tells.retained, tells.unmerged, ?_⟩
    rintro _ ⟨rfl⟩ same
    exact absurd same (other fresh)
  | @doubt session new line kept faults count loaded certain merged completed sanitized fresh
      encoded unknown =>
    have apart := other fresh
    obtain ⟨kept, unmerged, finishing, _, used⟩ := reached_fields
    refine ⟨?_, ?_, ?_, ?_, ?_⟩
    · rw [used]
      exact List.mem_cons_of_mem _ tells.used
    · intro found member own
      rcases reached_member member with old | rfl
      · exact tells.lines found old own
      · rw [(encode_loop_record encoded).1] at own
        exact absurd own apart
    · intro _ entry source same found
      rw [kept] at same
      cases same
      exact tells.retained session entry source loaded found
    · rw [unmerged]
      exact tells.unmerged
    · intro _ same own
      rw [finishing] at same
      cases same
      exact absurd own apart
  | @complete session finishing result outcome source unavailable loaded ended persistence encoded =>
    refine ⟨tells.used, tells.lines, ?_, tells.unmerged, by simp⟩
    rintro _ entry prepared ⟨rfl⟩ found
    by_cases same : finishing.record.loopId = record.loopId
    · dsimp only at found
      rw [same, Function.update_self] at found
      cases found
      have origin := tells.finishing finishing ended same
      rw [← origin]
      exact ⟨result, (encoded prepared rfl).2⟩
    · dsimp only at found
      rw [Function.update_of_ne (Ne.symm same)] at found
      exact tells.retained session entry prepared loaded found
  | @expire session lookup loaded entered retained =>
    refine ⟨tells.used, tells.lines, ?_, tells.unmerged, tells.finishing⟩
    rintro _ entry source ⟨rfl⟩ found
    exact tells.retained session entry source loaded (retained _ entry source found)
  | @turn session isTurnPending completedTurn loaded =>
    refine ⟨tells.used, tells.lines, ?_, tells.unmerged, tells.finishing⟩
    rintro _ entry source ⟨rfl⟩ found
    exact tells.retained session entry source loaded found
  | unload loaded merged completed =>
    exact ⟨tells.used, tells.lines, by simp, tells.unmerged, tells.finishing⟩
  | load unloaded fresh reads opened =>
    refine ⟨tells.used, ?_, ?_, tells.unmerged, tells.finishing⟩
    · intro found member own
      refine tells.lines found (recovered_sublist.subset ?_) own
      unfold World.written at member
      simpa using member
    · rintro _ entry source ⟨rfl⟩ found
      cases found
  | read reading answered =>
    exact ⟨tells.used, tells.lines, tells.retained, tells.unmerged, tells.finishing⟩
  | others foreign =>
    exact ⟨tells.used, tells.lines, tells.retained, tells.unmerged, tells.finishing⟩

omit [DecidableEq LoopId] in
/-- One more line of a new loop keeps the file sound. -/
theorem World.Sound.grow (lawful : externals.Lawful) (sound : world.Sound externals)
    (whole : world.torn = none) {line : StoredLine LoopId Payload Replay}
    (good : line.Good externals) (fresh : line.record.loopId ∉ world.used)
    (written : later.written = world.lines ++ [line])
    (lines : later.lines = world.lines ∨ later.lines = world.lines ++ [line])
    (torn : ∀ other count, later.torn = some (other, count) → other = line)
    (used : later.used = line.record.loopId :: world.used) : later.Sound externals := by
  have old : world.written = world.lines := by
    unfold World.written
    rw [whole]
    simp
  refine ⟨?_, ?_, ?_, ?_⟩
  · intro other member
    have here : other ∈ world.lines ++ [line] := by
      rcases lines with same | more
      · exact List.mem_append_left _ (same ▸ member)
      · exact more ▸ member
    rcases List.mem_append.mp here with inside | new
    · exact sound.formed other inside
    · rw [List.mem_singleton.mp new]
      exact written_well_formed lawful good
  · intro other count part
    rw [torn other count part]
    exact good
  · rw [written, List.map_append, List.nodup_append]
    refine ⟨old ▸ sound.distinct, by simp, ?_⟩
    intro first member second single same
    obtain ⟨other, inside, rfl⟩ := List.mem_map.mp member
    rw [List.map_singleton, List.mem_singleton] at single
    apply fresh
    rw [← single, ← same]
    exact sound.used other (old ▸ inside)
  · intro other member
    rw [written] at member
    rw [used]
    rcases List.mem_append.mp member with inside | new
    · exact List.mem_cons_of_mem _ (sound.used other (old ▸ inside))
    · rw [List.mem_singleton.mp new]
      exact List.mem_cons_self

omit [DecidableEq LoopId] in
theorem Right.more {lines others : List (StoredLine LoopId Payload Replay)}
    {entry : StoredIdentity LoopId Payload} (beginning : lines <+: others)
    (right : Right externals pages turns lines entry) :
    Right externals pages turns others entry := by
  obtain ⟨rest, rfl⟩ := beginning
  obtain ⟨before, line, after, texts, whole, found⟩ := right
  refine ⟨before, line, after ++ rest, texts, ?_, found⟩
  rw [whole, List.append_assoc, List.cons_append]

/-- Lines stay in the file. -/
theorem Step.lines (step : Step externals pages turns world later) :
    world.lines <+: later.lines := by
  cases step with
  | append => exact List.prefix_append _ _
  | doubt => exact reached_extends rfl
  | load => exact List.prefix_append _ _
  | merge => exact List.prefix_rfl
  | refuse => exact List.prefix_rfl
  | complete => exact List.prefix_rfl
  | expire => exact List.prefix_rfl
  | turn => exact List.prefix_rfl
  | unload => exact List.prefix_rfl
  | read => exact List.prefix_rfl
  | others => exact List.prefix_rfl

/-- The file stays sound. -/
theorem Step.sound (lawful : externals.Lawful) (step : Step externals pages turns world later)
    (valid : world.Valid externals pages turns) : later.Sound externals := by
  have sound := valid.sound
  cases step with
  | @append session new line kept faults after loaded certain merged completed sanitized fresh
      encoded written =>
    obtain ⟨_, _, _, _, _, _, _, whole⟩ := valid.session session loaded
    have torn := (whole certain).2
    have own := (encode_loop_record encoded).1
    refine sound.grow lawful torn (encode_loop_good encoded) (by rwa [own]) ?_ (Or.inr rfl) ?_
      (by rw [own])
    · unfold World.written
      dsimp only
      rw [torn]
      simp
    · intro other count part
      rw [torn] at part
      cases part
  | @doubt session new line kept faults count loaded certain merged completed sanitized fresh
      encoded unknown =>
    obtain ⟨_, _, _, _, _, _, _, whole⟩ := valid.session session loaded
    have torn := (whole certain).2
    have own := (encode_loop_record encoded).1
    obtain ⟨_, _, _, _, used⟩ := reached_fields
    refine sound.grow lawful torn (encode_loop_good encoded) (by rwa [own])
      (reached_written torn) reached_lines ?_ (by rw [used, own])
    intro other number part
    unfold World.reached at part
    split at part
    · cases part
      rfl
    · rw [torn] at part
      cases part
  | load unloaded fresh reads opened =>
    have lines : ∀ line ∈ world.recovered, line ∈ world.written := recovered_sublist.subset
    refine ⟨?_, ?_, ?_, ?_⟩
    · intro line member
      rcases List.mem_append.mp (lines line member) with old | part
      · exact sound.formed line old
      · obtain ⟨⟨_, count⟩, torn, rfl⟩ := Option.map_eq_some_iff.mp (Option.mem_toList.mp part)
        exact written_well_formed lawful (sound.torn _ count torn)
    · rintro line count ⟨⟩
    · have part : List.Sublist world.recovered world.written := recovered_sublist
      have kept := part.map fun line => line.record.loopId
      unfold World.written
      simpa using kept.nodup sound.distinct
    · intro line member
      unfold World.written at member
      exact sound.used line (lines line (by simpa using member))
  | refuse =>
    exact ⟨sound.formed, sound.torn, sound.distinct,
      fun line member => List.mem_cons_of_mem _ (sound.used line member)⟩
  | merge => exact ⟨sound.formed, sound.torn, sound.distinct, sound.used⟩
  | complete => exact ⟨sound.formed, sound.torn, sound.distinct, sound.used⟩
  | expire => exact ⟨sound.formed, sound.torn, sound.distinct, sound.used⟩
  | turn => exact ⟨sound.formed, sound.torn, sound.distinct, sound.used⟩
  | unload => exact ⟨sound.formed, sound.torn, sound.distinct, sound.used⟩
  | read => exact ⟨sound.formed, sound.torn, sound.distinct, sound.used⟩
  | others => exact ⟨sound.formed, sound.torn, sound.distinct, sound.used⟩

omit [DecidableEq LoopId] in
/-- A record that was written is indexed as its line. -/
theorem append_indexed {line : StoredLine LoopId Payload Replay} {kept : Bool}
    {bytes : List UInt8} {faults : AppendFaults} {after : HistoryFile LoopId Digest}
    {done : List (StoredLine LoopId Payload Replay)}
    (encoded : encodeLoop externals record = .ok (line, kept))
    (written : appendLoopUnder externals
      { bytes := bytes, index := entriesFrom externals [] done } record faults =
        (.ok kept, after)) : after.index = entriesFrom externals [] (done ++ [line]) := by
  rcases append_cases externals { bytes := bytes, index := entriesFrom externals [] done } record
    faults with ⟨other, _, again, appended⟩ | ⟨error, refused⟩ | unknown
  · rw [encoded] at again
    cases again
    rw [written] at appended
    cases appended
    exact index_line_entries done line
  · rw [written] at refused
    cases refused
  · rw [written] at unknown
    cases unknown

/-- A loaded Session stays a Session of the file. -/
theorem Step.consistent (lawful : externals.Lawful) (step : Step externals pages turns world later)
    (valid : world.Valid externals pages turns) (loaded : later.session = some session) :
    Session externals later session := by
  cases step with
  | @append before new line kept faults after opened certain merged completed sanitized fresh
      encoded written =>
    cases loaded
    obtain ⟨known, waiting, doubtful, whole, indexed, history, items, clear⟩ :=
      valid.session before opened
    obtain ⟨rfl, torn⟩ := clear certain
    rw [indexed] at written
    refine ⟨known, waiting ++ [line], [], by simp [whole], ?_, history, ?_, fun _ => ⟨rfl, torn⟩⟩
    · dsimp only
      rw [append_indexed encoded written, List.append_assoc]
    · have own := encode_loop_items encoded
      rw [sanitized] at own
      rw [merged] at items
      dsimp only [Option.map_none, Option.getD_none] at items
      dsimp only
      rw [List.flatMap_append, items, Option.map_some, Option.getD_some, Option.some.inj own]
      simp
  | @merge before new opened appended =>
    cases loaded
    obtain ⟨known, waiting, doubtful, whole, indexed, history, items, clear⟩ :=
      valid.session before opened
    refine ⟨known ++ waiting, [], doubtful, by simp [whole], by simp [indexed], ?_, rfl, clear⟩
    rw [appended] at items
    simp [history, items]
  | @doubt before new line kept faults count opened certain merged completed sanitized fresh
      encoded unknown =>
    obtain ⟨known, waiting, doubtful, whole, indexed, history, items, clear⟩ :=
      valid.session before opened
    obtain ⟨same, unmerged, _⟩ := reached_fields
    rw [same] at loaded
    cases loaded
    obtain ⟨more, lines⟩ := @reached_extends _ _ _ _
      { world with
        session := some { before with uncertainLoop := some new.loopId }
        finishing := some { record := new, persistence := .failed, uncertain := true }
        used := new.loopId :: world.used } line count _ whole
    refine ⟨known, waiting, doubtful ++ more, ?_, indexed, history, ?_, by simp⟩
    · rw [← lines, List.append_assoc _ doubtful]
    · rw [unmerged]
      exact items
  | @load load chunks found unloaded fresh reads opened =>
    cases loaded
    have recovered := load_recovered lawful valid.sound reads
    rw [opened] at recovered
    cases recovered
    refine ⟨world.recovered, [], [], by simp, ?_, ?_, ?_, fun _ => ⟨rfl, rfl⟩⟩
    · rw [List.append_nil, ← index_entries]
      exact of_lines_index _
    · exact of_lines_items _
    · rw [(valid.unloaded unloaded).1]
      rfl
  | refuse opened =>
    exact valid.session session loaded
  | complete opened =>
    cases loaded
    have before := valid.session _ opened
    exact before
  | expire opened =>
    cases loaded
    have before := valid.session _ opened
    exact before
  | turn opened =>
    cases loaded
    have before := valid.session _ opened
    exact before
  | unload opened =>
    cases loaded
  | read =>
    exact valid.session session loaded
  | others =>
    exact valid.session session loaded

omit [DecidableEq LoopId] in
/-- What the answers of a world are derived from. -/
theorem World.Valid.consistent (valid : world.Valid externals pages turns)
    (loaded : world.session = some session) :
    Consistent externals pages turns world.lines session world.identities := by
  obtain ⟨known, waiting, doubtful, whole, indexed, history, _⟩ := valid.session session loaded
  refine ⟨⟨known ++ waiting, doubtful, whole, indexed, ?_⟩, valid.right session loaded⟩
  rw [history, List.flatMap_append]
  exact List.prefix_append _ _

omit [DecidableEq LoopId] in
theorem World.Sound.apart (sound : world.Sound externals) :
    (world.lines.map (fun line => line.record.loopId)).Nodup := by
  have parts := sound.distinct
  unfold World.written at parts
  rw [List.map_append] at parts
  exact (List.nodup_append.mp parts).1

/-- A request in a world is answered from a retained source or from a line, or not. -/
theorem World.Valid.answers (lawful : externals.Lawful) (streams : Streams externals turns)
    (valid : world.Valid externals pages turns) {calls : TurnCalls LoopId Payload}
    {request : TurnResultRequest LoopId} {answer : Except TurnError (TurnResultPage LoopId Payload)}
    {kept : List (StoredIdentity LoopId Payload)}
    (reading : ∀ offset, Reading world.file offset (calls.answersFrom offset))
    (answered : turnResult calls request externals pages turns world.identities world.session =
      (answer, kept)) :
    ((∃ loaded entry source, world.session = some loaded ∧
        loaded.lookup request.loopId = some (entry, some source) ∧
        Answered source.items source.resultId .live request answer) ∨
      FromLine externals pages turns world.lines request answer) ∧
    ∀ entry ∈ kept, entry ∈ world.identities ∨ ∃ loaded ∈ world.session,
      entry.key.load = loaded.load ∧ Right externals pages turns world.lines entry :=
  turn_result_cases streams valid.sound.formed valid.sound.apart (tail_unended lawful valid.sound)
    (fun _ loaded => valid.consistent loaded) reading answered

/-- What is kept for a load stays right. -/
theorem Step.right (lawful : externals.Lawful) (streams : Streams externals turns)
    (step : Step externals pages turns world later) (valid : world.Valid externals pages turns)
    (loaded : later.session = some session) {entry : StoredIdentity LoopId Payload}
    (member : entry ∈ later.identities) (own : entry.key.load = session.load) :
    Right externals pages turns later.lines entry := by
  have stays {before : TurnSession LoopId Payload Replay Digest}
      (opened : world.session = some before) (old : entry ∈ world.identities)
      (same : entry.key.load = before.load) : Right externals pages turns later.lines entry :=
    (valid.right before opened entry old same).more step.lines
  cases step with
  | append opened =>
    cases loaded
    exact stays opened member own
  | merge opened =>
    cases loaded
    exact stays opened member own
  | refuse opened => exact stays loaded member own
  | doubt opened =>
    obtain ⟨same, _, _, identities, _⟩ := reached_fields
    rw [same] at loaded
    rw [identities] at member
    cases loaded
    exact stays opened member own
  | complete opened =>
    cases loaded
    exact stays opened member own
  | expire opened =>
    cases loaded
    exact stays opened member own
  | turn opened =>
    cases loaded
    exact stays opened member own
  | unload opened => cases loaded
  | load unloaded fresh reads opened =>
    cases loaded
    exact absurd own (fresh entry member)
  | read reading answered =>
    rcases (valid.answers lawful streams reading answered).2 entry member with
      old | ⟨_, _, _, right⟩
    · exact stays loaded old own
    · exact right
  | others foreign =>
    rcases foreign entry member with old | elsewhere
    · exact stays loaded old own
    · exact absurd own (elsewhere session loaded)

/-- The loops that the catalog knows are known. -/
theorem Step.looked (step : Step externals pages turns world later)
    (valid : world.Valid externals pages turns) (loaded : later.session = some session)
    {loopId : LoopId} (entered : session.lookup loopId ≠ none) : loopId ∈ later.used := by
  cases step with
  | append opened =>
    cases loaded
    exact List.mem_cons_of_mem _ (valid.looked _ opened loopId entered)
  | merge opened =>
    cases loaded
    exact valid.looked _ opened loopId entered
  | refuse opened => exact List.mem_cons_of_mem _ (valid.looked _ loaded loopId entered)
  | doubt opened =>
    obtain ⟨same, _, _, _, used⟩ := reached_fields
    rw [same] at loaded
    rw [used]
    cases loaded
    exact List.mem_cons_of_mem _ (valid.looked _ opened loopId entered)
  | @complete before finishing result outcome source unavailable opened ended =>
    cases loaded
    dsimp only at entered ⊢
    by_cases same : loopId = finishing.record.loopId
    · rw [same]
      exact (valid.finishing finishing ended).2.used
    · rw [Function.update_of_ne same] at entered
      exact valid.looked _ opened loopId entered
  | expire opened kept =>
    cases loaded
    exact valid.looked _ opened loopId (kept loopId entered)
  | turn opened =>
    cases loaded
    exact valid.looked _ opened loopId entered
  | unload opened => cases loaded
  | load unloaded fresh reads opened =>
    cases loaded
    exact absurd rfl entered
  | read reading answered => exact valid.looked _ loaded loopId entered
  | others foreign => exact valid.looked _ loaded loopId entered

omit [DecidableEq LoopId] in
/-- What a world has of a new loop comes from the record it came with. -/
theorem Tells.new (valid : world.Valid externals pages turns) (fresh : record.loopId ∉ world.used)
    (used : record.loopId ∈ later.used)
    (lines : ∀ line ∈ later.written, line ∈ world.written ∨
      ∃ kept, encodeLoop externals record = .ok (line, kept))
    (looked : ∀ session, later.session = some session →
      ∃ before, world.session = some before ∧ session.lookup = before.lookup)
    (unmerged : ∀ other, later.unmerged = some other → other = record)
    (finishing : ∀ other, later.finishing = some other → other.record = record) :
    Tells externals pages turns record later := by
  refine ⟨used, ?_, ?_, fun other found _ => unmerged other found,
    fun other found _ => finishing other found⟩
  · intro line member own
    rcases lines line member with old | new
    · exact absurd (own ▸ valid.sound.used line old) fresh
    · exact new
  · intro session entry source loaded found
    obtain ⟨before, opened, same⟩ := looked session loaded
    refine absurd (valid.looked before opened record.loopId ?_) fresh
    rw [← same, found]
    simp

/-- A record that is appended or whose turn is being completed. -/
theorem Step.recorded (step : Step externals pages turns world later)
    (valid : world.Valid externals pages turns)
    (named : later.unmerged = some record ∨
      ∃ other, later.finishing = some other ∧ other.record = record) :
    normalizeHistory externals record.items = some record.items ∧
      Tells externals pages turns record later := by
  have carried (old : world.unmerged = some record ∨
      ∃ other, world.finishing = some other ∧ other.record = record) :
      normalizeHistory externals record.items = some record.items ∧
        Tells externals pages turns record later := by
    rcases old with waiting | ⟨other, ended, rfl⟩
    · exact ⟨(valid.unmerged record waiting).1, (valid.unmerged record waiting).2.step step⟩
    · exact ⟨(valid.finishing other ended).1, (valid.finishing other ended).2.step step⟩
  cases step with
  | @append before new line kept faults after opened certain merged completed sanitized fresh
      encoded written =>
    rcases named with ⟨⟨⟩⟩ | old
    · refine ⟨sanitized, Tells.new valid fresh List.mem_cons_self ?_ ?_ ?_ ?_⟩
      · intro found member
        unfold World.written at member
        dsimp only at member
        rw [List.append_assoc, List.mem_append, List.singleton_append, List.mem_cons] at member
        rcases member with old | rfl | part
        · exact Or.inl (List.mem_append_left _ old)
        · exact Or.inr ⟨kept, encoded⟩
        · exact Or.inl (List.mem_append_right _ part)
      · rintro _ ⟨rfl⟩
        exact ⟨before, opened, rfl⟩
      · rintro _ ⟨rfl⟩
        rfl
      · intro other found
        rw [completed] at found
        cases found
    · exact carried (Or.inr old)
  | @merge before new opened appended =>
    rcases named with ⟨⟨⟩⟩ | ⟨other, ⟨rfl⟩, rfl⟩
    exact carried (Or.inl appended)
  | @refuse before new faults error opened certain merged completed sanitized fresh failed =>
    rcases named with old | ⟨other, ⟨rfl⟩, rfl⟩
    · exact carried (Or.inl old)
    · refine ⟨sanitized, Tells.new valid fresh List.mem_cons_self (fun line member => Or.inl member)
        (fun session loaded => ⟨session, loaded, rfl⟩) ?_ ?_⟩
      · intro other found
        rw [merged] at found
        cases found
      · rintro _ ⟨rfl⟩
        rfl
  | @doubt before new line kept faults count opened certain merged completed sanitized fresh
      encoded unknown =>
    obtain ⟨same, unmerged, finishing, _, used⟩ := reached_fields
    rw [unmerged, finishing] at named
    rcases named with old | ⟨other, ⟨rfl⟩, rfl⟩
    · exact carried (Or.inl old)
    · refine ⟨sanitized, Tells.new valid fresh (by rw [used]; exact List.mem_cons_self) ?_ ?_ ?_ ?_⟩
      · intro found member
        rcases reached_member member with old | rfl
        · exact Or.inl old
        · exact Or.inr ⟨kept, encoded⟩
      · intro session loaded
        rw [same] at loaded
        cases loaded
        exact ⟨before, opened, rfl⟩
      · intro other found
        rw [unmerged, merged] at found
        cases found
      · intro other found
        rw [finishing] at found
        cases found
        rfl
  | complete =>
    rcases named with old | ⟨other, ⟨⟩, _⟩
    exact carried (Or.inl old)
  | expire => exact carried named
  | turn => exact carried named
  | unload => exact carried named
  | load => exact carried named
  | read => exact carried named
  | others => exact carried named

/-- A source that is retained comes from the record of its loop. -/
theorem Step.retained (step : Step externals pages turns world later)
    (valid : world.Valid externals pages turns) (loaded : later.session = some session)
    {loopId : LoopId} {entry : Completion} {source : PreparedSource Payload}
    (found : session.lookup loopId = some (entry, some source)) :
    ∃ record, record.loopId = loopId ∧
      normalizeHistory externals record.items = some record.items ∧
      Tells externals pages turns record later := by
  have carried {before : TurnSession LoopId Payload Replay Digest} {former : Completion}
      (opened : world.session = some before)
      (old : before.lookup loopId = some (former, some source)) :
      ∃ record, record.loopId = loopId ∧
        normalizeHistory externals record.items = some record.items ∧
        Tells externals pages turns record later := by
    obtain ⟨record, own, sanitized, tells⟩ := valid.retained before opened loopId former source old
    exact ⟨record, own, sanitized, tells.step step⟩
  have completed {finishing : Finishing LoopId Payload Replay}
      (ended : world.finishing = some finishing) (own : finishing.record.loopId = loopId) :
      ∃ record, record.loopId = loopId ∧
        normalizeHistory externals record.items = some record.items ∧
        Tells externals pages turns record later :=
    ⟨finishing.record, own, (valid.finishing finishing ended).1,
      (valid.finishing finishing ended).2.step step⟩
  cases step with
  | append opened =>
    cases loaded
    exact carried opened found
  | merge opened =>
    cases loaded
    exact carried opened found
  | refuse opened => exact carried loaded found
  | doubt opened =>
    rw [reached_fields.1] at loaded
    cases loaded
    exact carried opened found
  | @complete before finishing result outcome kept unavailable opened ended =>
    cases loaded
    dsimp only at found
    by_cases same : loopId = finishing.record.loopId
    · exact completed ended same.symm
    · rw [Function.update_of_ne same] at found
      exact carried opened found
  | expire opened entered retained =>
    cases loaded
    exact carried opened (retained loopId entry source found)
  | turn opened =>
    cases loaded
    exact carried opened found
  | unload opened => cases loaded
  | load unloaded fresh reads opened =>
    cases loaded
    cases found
  | read reading answered => exact carried loaded found
  | others foreign => exact carried loaded found

/-- Without a Session there is no turn. -/
theorem Step.unloaded (step : Step externals pages turns world later)
    (valid : world.Valid externals pages turns) (absent : later.session = none) :
    later.unmerged = none ∧ later.finishing = none := by
  cases step with
  | doubt =>
    rw [reached_fields.1] at absent
    cases absent
  | refuse loaded =>
    rw [loaded] at absent
    cases absent
  | unload loaded merged completed => exact ⟨merged, completed⟩
  | read => exact valid.unloaded absent
  | others => exact valid.unloaded absent
  | append => cases absent
  | merge => cases absent
  | complete => cases absent
  | expire => cases absent
  | turn => cases absent
  | load => cases absent

/-- What worlds are like holds after a step. -/
theorem Step.valid (lawful : externals.Lawful) (streams : Streams externals turns)
    (step : Step externals pages turns world later) (valid : world.Valid externals pages turns) :
    later.Valid externals pages turns where
  sound := step.sound lawful valid
  session _ loaded := step.consistent lawful valid loaded
  looked _ loaded _ entered := step.looked valid loaded entered
  right _ loaded _ member own := step.right lawful streams valid loaded member own
  retained _ loaded _ _ _ found := step.retained valid loaded found
  unmerged _ found := step.recorded valid (Or.inl found)
  finishing _ found := step.recorded valid (Or.inr ⟨_, found, rfl⟩)
  unloaded absent := step.unloaded valid absent

omit [DecidableEq LoopId] in
theorem World.Fresh.valid (fresh : world.Fresh externals) : world.Valid externals pages turns := by
  have unloaded {loaded : TurnSession LoopId Payload Replay Digest}
      (found : world.session = some loaded) : False := by
    rw [fresh.session] at found
    cases found
  refine ⟨fresh.sound, ?_, ?_, ?_, ?_, ?_, ?_, fun _ => ⟨fresh.unmerged, fresh.finishing⟩⟩
  · intro session loaded
    exact (unloaded loaded).elim
  · intro session loaded
    exact (unloaded loaded).elim
  · intro session loaded
    exact (unloaded loaded).elim
  · intro session loaded
    exact (unloaded loaded).elim
  · intro record found
    rw [fresh.unmerged] at found
    cases found
  · intro finishing found
    rw [fresh.finishing] at found
    cases found

end Steps

section Runs

variable {externals pages turns} {world later : World LoopId Payload Replay Digest}
  {record : StoredLoopRecord LoopId Payload Replay}

/-- What worlds are like holds along a run. -/
theorem run_valid (lawful : externals.Lawful) (streams : Streams externals turns)
    (valid : world.Valid externals pages turns)
    (run : Relation.ReflTransGen (Step externals pages turns) world later) :
    later.Valid externals pages turns := by
  induction run with
  | refl => exact valid
  | tail _ step inductionHypothesis => exact step.valid lawful streams inductionHypothesis

/-- What a world has of a loop comes from its record along a run. -/
theorem Tells.run (tells : Tells externals pages turns record world)
    (run : Relation.ReflTransGen (Step externals pages turns) world later) :
    Tells externals pages turns record later := by
  induction run with
  | refl => exact tells
  | tail _ step inductionHypothesis => exact inductionHypothesis.step step

variable (externals pages turns) in
/-- The identity of a stored turn, if its record can be written. A line that is too
long is written without the interrupted copy. -/
def storedId (record : StoredLoopRecord LoopId Payload Replay) (texts : List (List Char)) :
    Option String :=
  match encodeLoop externals record with
  | .error _ => none
  | .ok (_, kept) =>
    some (resultIdOf externals pages turns texts (if kept then record.interrupted else none))

variable (externals pages turns) in
/-- An answer for a turn with these texts, from its source or from its line. -/
def FromTurn (record : StoredLoopRecord LoopId Payload Replay) (source : PreparedSource Payload)
    (request : TurnResultRequest LoopId)
    (answer : Except TurnError (TurnResultPage LoopId Payload)) : Prop :=
  Unanswered answer ∨ Answered source.items source.resultId .live request answer ∨
    ∃ resultId, storedId externals pages turns record source.items = some resultId ∧
      Answered source.items resultId .stored request answer

/-- Whatever is answered for a turn is its record, encoded in one way or another. -/
theorem Tells.answers (lawful : externals.Lawful) (streams : Streams externals turns)
    (valid : world.Valid externals pages turns) (tells : Tells externals pages turns record world)
    (sanitized : normalizeHistory externals record.items = some record.items)
    {source : PreparedSource Payload} {result : TurnResult Payload}
    (encoded : encodeResultSource externals pages turns record.items record.interrupted result =
      .ok source)
    {calls : TurnCalls LoopId Payload} {request : TurnResultRequest LoopId}
    {answer : Except TurnError (TurnResultPage LoopId Payload)}
    {kept : List (StoredIdentity LoopId Payload)} (own : request.loopId = record.loopId)
    (reading : ∀ offset, Reading world.file offset (calls.answersFrom offset))
    (answered : turnResult calls request externals pages turns world.identities world.session =
      (answer, kept)) :
    FromTurn externals pages turns record source request answer := by
  obtain ⟨written, _, named⟩ := encode_result_source_ok streams encoded
  rcases (valid.answers lawful streams reading answered).1 with
    ⟨session, entry, other, loaded, found, live⟩ | none | ⟨line, member, loop, texts, again, stored⟩
  · rw [own] at found
    obtain ⟨_, encodedOther⟩ := tells.retained session entry other loaded found
    obtain ⟨writtenOther, _, namedOther⟩ := encode_result_source_ok streams encodedOther
    have same := writtenOther.unique written
    rw [namedOther, same, ← named] at live
    exact Or.inr (Or.inl live)
  · exact Or.inl none
  · obtain ⟨kept, line'⟩ := tells.lines line (List.mem_append_left _ member) (loop.trans own)
    have items := encode_loop_items line'
    rw [sanitized] at items
    rw [← Option.some.inj items] at again
    rw [again.unique written, (encode_loop_record line').2] at stored
    refine Or.inr (Or.inr ⟨_, ?_, stored⟩)
    rw [storedId, line']

variable (externals pages turns) in
/-- A client goes through a turn: each request starts where the last page ended, in
whichever world there is by then, and is answered with a page. -/
inductive TurnWalk (loopId : LoopId) : World LoopId Payload Replay Digest → Option ReadCursor →
    Nat → List ReadItemChunk → Option ReadCursor → Prop
  | rest (world : World LoopId Payload Replay Digest) (cursor : Option ReadCursor) :
      TurnWalk loopId world cursor 0 [] cursor
  | page {world later : World LoopId Payload Replay Digest} {calls : TurnCalls LoopId Payload}
      {request : TurnResultRequest LoopId} {page : TurnResultPage LoopId Payload}
      {kept : List (StoredIdentity LoopId Payload)} {count : Nat} {chunks : List ReadItemChunk}
      {finish : Option ReadCursor}
      (between : Relation.ReflTransGen (Step externals pages turns) world later)
      (own : request.loopId = loopId)
      (reading : ∀ offset, Reading later.file offset (calls.answersFrom offset))
      (answered : turnResult calls request externals pages turns later.identities later.session =
        (.ok page, kept))
      (shown : page.availability = .live ∨ page.availability = .stored)
      (next : TurnWalk loopId { later with identities := kept } page.nextCursor count chunks
        finish) :
      TurnWalk loopId world (some request.start) (count + 1) (page.items ++ chunks) finish

omit [DecidableEq LoopId] in
/-- A page that is available is a page of the texts. -/
theorem FromTurn.page {source : PreparedSource Payload} {request : TurnResultRequest LoopId}
    {page : TurnResultPage LoopId Payload}
    (answered : FromTurn externals pages turns record source request (.ok page))
    (shown : page.availability = .live ∨ page.availability = .stored) :
    PageOf source.items request page := by
  rcases answered with none | live | ⟨_, _, stored⟩
  · rcases none.page page rfl with pending | unavailable
    · rw [pending] at shown
      simp at shown
    · rw [unavailable] at shown
      simp at shown
  · exact (live.page page rfl).2.2
  · exact (stored.page page rfl).2.2

/-- Whichever sources answer, a client walks through the texts of the turn. -/
theorem TurnWalk.walk (lawful : externals.Lawful) (streams : Streams externals turns)
    (sanitized : normalizeHistory externals record.items = some record.items)
    {source : PreparedSource Payload} {result : TurnResult Payload}
    (encoded : encodeResultSource externals pages turns record.items record.interrupted result =
      .ok source)
    {cursor finish : Option ReadCursor} {count : Nat} {chunks : List ReadItemChunk}
    (walk : TurnWalk externals pages turns record.loopId world cursor count chunks finish)
    (valid : world.Valid externals pages turns) (tells : Tells externals pages turns record world) :
    Walk source.items cursor count chunks finish := by
  induction walk with
  | rest => exact .rest _
  | page between own reading answered shown next inductionHypothesis =>
    have still := run_valid lawful streams valid between
    have told := tells.run between
    have step := Step.read reading answered
    obtain ⟨_, _, _, _, positive, turned⟩ :=
      (told.answers lawful streams still sanitized encoded own reading answered).page shown
    exact .page positive turned (inductionHypothesis (step.valid lawful streams still) (told.step step))

end Runs

section Sample

open Text

def loopJson : List Char :=
  "\"loop_id\":\"lup_".toList ++ List.replicate 31 '0' ++ "2\"".toList

def userJson (kind text : List Char) : List Char :=
  "\x7b".toList ++ loopJson ++ ",\"kind\":\"".toList ++ kind ++
    "\",\"input\":\x7b\"text\":\"".toList ++ text ++ "\"\x7d\x7d".toList

def promptJson : List Char := userJson "prompt".toList "go".toList

def steerJson : List Char := userJson "steer".toList "more".toList

/-- The interrupted copy. -/
def copyJson : List Char :=
  "\x7b\"stop_reason\":\"cancelled\",".toList ++ "\"request_index\":64,".toList ++
    "\"model\":\"main\",".toList ++ "\"reasoning\":\"\",".toList ++ "\"text\":\"partial\"\x7d".toList

/-- The JSON of user items; payloads are written as they are. -/
def steeredTurns : TurnExternals (List Char) where
  envelopeJson
    | .user data =>
      some ("\x7b\"item\":\x7b\"type\":\"user\",\"data\":".toList ++ data ++ "\x7d\x7d".toList)
    | _ => none
  interruptedJson
    | none => some "null".toList
    | some copy => some copy
  pieces text := [encode text]
  facts _ :=
    { outcome := .cancelled (some "user".toList), requests := 65, toolRounds := 0
      finalConfigRevision := 0, completedAt := "2026-01-02T03:04:05.000Z" }

/-- A response of which there is only provider replay, and a steer. -/
def steered (index : Nat) : List (HistoryItem (List Char) Unit) :=
  [.assistant { providerReplay := some (), content := [], details := Nat.toDigits 10 index },
    .user steerJson]

/-- A turn that was steered after each of 64 responses and cancelled in the next. -/
def steeredRecord : StoredLoopRecord Nat (List Char) Unit :=
  { loopId := 2, items := .user promptJson :: (List.range 64).flatMap steered
    usage := ⟨none, none, none, none, none, none⟩, facts := "cancelled".toList
    userTimes := some [some "2026-01-02T03:04:00.000Z"], interrupted := some copyJson }

/-- The same without what a line that is too long does not have. -/
def bareRecord : StoredLoopRecord Nat (List Char) Unit :=
  { steeredRecord with userTimes := none, interrupted := none }

def frontBytes : List UInt8 :=
  encode ("\x7b".toList ++ loopJson ++ ",\"outcome\":\x7b\"type\":".toList ++
    "\"cancelled\",\"reason\":".toList ++ "\"user\"\x7d,\"items\":[".toList ++
    "\x7b\"type\":\"user\",\"data\":".toList ++ promptJson ++ "\x7d".toList)

def replayBytes : List UInt8 :=
  encode (",\x7b\"type\":\"assistant\",".toList ++ "\"data\":\x7b\"provider_replay\":".toList ++
    "\x7b\"format\":\"openai-".toList ++ "responses-v1\",\"payload\":".toList ++
    "\x7b\"endpoint\":\"http://".toList ++ "localhost/v1/responses\",".toList ++
    "\"model\":\"main\",\"output\":".toList ++ "[\x7b\"type\":\"reasoning\",".toList ++
    "\"id\":\"rs\",\"summary\":[],".toList ++ "\"encrypted_content\":\"".toList)

def requestBytes : List UInt8 :=
  encode ("\"\x7d]\x7d\x7d,".toList ++ loopJson ++ ",\"request_index\":".toList)

def steerBytes : List UInt8 :=
  encode (",\"model\":\"main\",".toList ++ "\"reasoning\":\"auto\",".toList ++
    "\"content\":[],".toList ++ "\"finish_reason\":\"stop\",".toList ++
    "\"usage\":\x7b\x7d\x7d\x7d,".toList ++ "\x7b\"type\":\"user\",\"data\":".toList ++ steerJson ++
    "\x7d".toList)

/-- The response, whose replay is almost as long as it may be, and the steer. -/
def steeredBytes (index : Nat) : List UInt8 :=
  replayBytes ++ (List.replicate 261648 97 ++
    (requestBytes ++ (encode (Nat.toDigits 10 index) ++ steerBytes)))

def backBytes : List UInt8 :=
  encode ("],\"usage\":\x7b\x7d,".toList ++ "\"requests\":65,".toList ++ "\"tool_rounds\":0,".toList ++
    "\"final_config_revision\":0,".toList ++ "\"completed_at\":".toList ++
    "\"2026-01-02T03:04:05.000Z\"".toList)

/-- What is shed, with its comma. -/
def shedBytes : List UInt8 :=
  encode (",\"user_times\":[".toList ++ "\"2026-01-02T03:04:00.000Z\"".toList ++
    "],\"interrupted\":".toList ++ copyJson)

/-- The bytes that the lines of both records begin with. -/
def commonBytes : List UInt8 := frontBytes ++ ((List.range 64).flatMap steeredBytes ++ backBytes)

def steeredLong : List UInt8 := commonBytes ++ (shedBytes ++ [125])

def bareBytes : List UInt8 := commonBytes ++ [125]

def promptText : List Char :=
  "\x7b\"item\":\x7b\"type\":\"user\",\"data\":".toList ++ promptJson ++ "\x7d\x7d".toList

def steerText : List Char :=
  "\x7b\"item\":\x7b\"type\":\"user\",\"data\":".toList ++ steerJson ++ "\x7d\x7d".toList

/-- The codec on these two records. A digest is the number of hashed bytes. -/
def steeredExternals : Externals Nat (List Char) Unit Nat where
  admitsReasoning _ _ := true
  validateHistoryReplay _ _ := true
  toVec record :=
    if record = steeredRecord then some steeredLong
    else if record = bareRecord then some bareBytes
    else none
  fromSlice bytes :=
    if bytes = steeredLong then some steeredRecord
    else if bytes = bareBytes then some bareRecord
    else none
  newDigest := 0
  update digest bytes := digest + bytes.length

/-- SHA-256 of what the two identities of the turn are taken over. -/
def steeredPages : PageExternals Nat (List Char) Nat where
  userLoopId _ := 2
  digestHex digest :=
    if digest = 8517 then "78769b9a5a42f080ae0da0f3de564b93205d8e69e867dd39c1504a176b98dd90"
    else "bd6cd7a49542971b2caaaf2351ca6a6792f5715c92502d6c3d33c09a576e6fb8"

theorem of_list_append (first second : List Char) :
    String.ofList first ++ String.ofList second = String.ofList (first ++ second) :=
  String.ofList_append.symm

theorem sample_page_facts :
    steeredRecord.userTimesAreValid = true ∧
    (encode ((steeredTurns.interruptedJson none).getD [])).length = 4 ∧
    "r1:" ++ steeredPages.digestHex (8424 + 93) =
      "r1:78769b9a5a42f080ae0da0f3de564b93205d8e69e867dd39c1504a176b98dd90" ∧
    "r1:" ++ steeredPages.digestHex (8424 + 4) =
      "r1:bd6cd7a49542971b2caaaf2351ca6a6792f5715c92502d6c3d33c09a576e6fb8" := by
  refine ⟨?_, ?_, of_list_append _ _, of_list_append _ _⟩
  · have valid : validTimestamp "2026-01-02T03:04:00.000Z" = true := by
      delta validTimestamp
      rw [utf8_of_list]
      decide +kernel
    have counted : 1 ≤ steeredRecord.userCount := by decide +kernel
    simpa [steeredRecord, StoredLoopRecord.userTimesAreValid, valid] using counted
  · delta steeredTurns
    dsimp only [Option.getD_some]
    rw [String.toList_ofList]
    decide +kernel

theorem steered_streams : Streams steeredExternals steeredTurns :=
  ⟨fun digest first second => by simp [steeredExternals, Nat.add_assoc],
    fun digest => by simp [steeredExternals], fun text => by simp [steeredTurns]⟩

/-- The texts of the sample, evaluated once. -/
theorem sample_lengths :
    (frontBytes.length = 217 ∧ replayBytes.length = 222 ∧ requestBytes.length = 71 ∧
      steerBytes.length = 196 ∧ backBytes.length = 110) ∧
    ((List.range 64).map fun index =>
      222 + (261648 + (71 + ((encode (Nat.toDigits 10 index)).length + 196)))).sum = 16776886 ∧
    shedBytes.length = 150 ∧ (encode copyJson).length = 93 ∧ resultTag.length = 24 ∧
    (encode promptText).length = 120 ∧ (encode steerText).length = 121 ∧
    shedBytes.head? = some 44 := by
  delta frontBytes replayBytes requestBytes steerBytes backBytes shedBytes promptText steerText
    promptJson steerJson userJson loopJson copyJson resultTag
  -- The texts are spelled out before the kernel evaluates them.
  repeat rw [String.toList_ofList]
  repeat rw [ascii_of_list]
  decide +kernel

theorem sample_free :
    (newline ∉ frontBytes ∧ newline ∉ replayBytes ∧ newline ∉ requestBytes ∧
      newline ∉ steerBytes ∧ newline ∉ backBytes) ∧
    (∀ index ∈ List.range 64, newline ∉ encode (Nat.toDigits 10 index)) ∧
    newline ∉ shedBytes ++ [125] := by
  delta frontBytes replayBytes requestBytes steerBytes backBytes shedBytes promptJson steerJson
    userJson loopJson copyJson
  repeat rw [String.toList_ofList]
  decide +kernel

theorem common_length : commonBytes.length = 16777213 := by
  obtain ⟨⟨front, replay, request, steer, back⟩, pieces, _⟩ := sample_lengths
  unfold commonBytes
  rw [List.length_append, List.length_append, List.length_flatMap, front, back]
  simp only [steeredBytes, List.length_append, List.length_replicate, replay, request, steer]
  rw [pieces]

theorem common_free : newline ∉ commonBytes := by
  obtain ⟨⟨front, replay, request, steer, back⟩, numeral, _⟩ := sample_free
  have rounds : newline ∉ (List.range 64).flatMap steeredBytes := by
    intro member
    obtain ⟨index, inside, here⟩ := List.mem_flatMap.mp member
    simp only [steeredBytes, List.mem_append, List.mem_replicate] at here
    rcases here with first | ⟨_, same⟩ | second | third | last
    · exact replay first
    · exact absurd same (by decide)
    · exact request second
    · exact numeral index inside third
    · exact steer last
  simp only [commonBytes, List.mem_append, not_or]
  exact ⟨front, rounds, back⟩

/-- The lines of the two records part behind what they have in common. -/
theorem bare_not_begun {rest : List UInt8} : ¬ bareBytes ++ rest <+: steeredLong := by
  obtain ⟨_, _, _, _, _, _, _, comma⟩ := sample_lengths
  intro beginning
  unfold bareBytes steeredLong at beginning
  rw [List.append_assoc, List.prefix_append_right_inj] at beginning
  cases shape : shedBytes with
  | nil =>
    rw [shape] at comma
    cases comma
  | cons byte later =>
    rw [shape, List.head?_cons, Option.some.injEq] at comma
    rw [shape, List.singleton_append, List.cons_append, List.cons_prefix_cons, comma] at beginning
    exact absurd beginning.1 (by decide)

theorem bare_length : bareBytes.length = 16777214 := by
  simp [bareBytes, common_length]

theorem steered_length : steeredLong.length = 16777364 := by
  simp [steeredLong, common_length, sample_lengths.2.2.1]

theorem steered_apart : bareBytes ≠ steeredLong := by
  intro same
  have length := congrArg List.length same
  rw [bare_length, steered_length] at length
  omega

theorem to_vec_cases {record : StoredLoopRecord Nat (List Char) Unit} {bytes : List UInt8}
    (written : steeredExternals.toVec record = some bytes) :
    (record = steeredRecord ∧ bytes = steeredLong) ∨ (record = bareRecord ∧ bytes = bareBytes) := by
  unfold steeredExternals at written
  dsimp only at written
  split at written
  · cases written
    exact Or.inl ⟨‹_›, rfl⟩
  · split at written
    · cases written
      exact Or.inr ⟨‹_›, rfl⟩
    · cases written

theorem reads_long : steeredExternals.fromSlice steeredLong = some steeredRecord := by
  unfold steeredExternals
  dsimp only
  rw [if_pos rfl]

theorem reads_bare : steeredExternals.fromSlice bareBytes = some bareRecord := by
  unfold steeredExternals
  dsimp only
  rw [if_neg steered_apart, if_pos rfl]

/-- That codec behaves as JSON does. -/
theorem steered_lawful : steeredExternals.Lawful where
  readsBack := by
    intro record bytes written
    rcases to_vec_cases written with ⟨rfl, rfl⟩ | ⟨rfl, rfl⟩
    · exact reads_long
    · exact reads_bare
  oneLine := by
    intro record bytes written
    have shed := sample_free.2.2
    rcases to_vec_cases written with ⟨rfl, rfl⟩ | ⟨rfl, rfl⟩
    · intro member
      exact (List.mem_append.mp member).elim common_free shed
    · intro member
      exact (List.mem_append.mp member).elim common_free (by decide)
  unfinished := by
    intro record bytes part written beginning apart
    have short := beginning.length_le
    unfold steeredExternals
    dsimp only
    rcases to_vec_cases written with ⟨rfl, rfl⟩ | ⟨rfl, rfl⟩
    · rw [if_neg apart, if_neg]
      rintro rfl
      exact bare_not_begun (by rwa [List.append_nil])
    · rw [if_neg, if_neg apart]
      rintro rfl
      rw [bare_length, steered_length] at short
      omega
  refusesEmpty := by
    have present : commonBytes ≠ [] := by
      rw [← List.length_pos_iff, common_length]
      decide
    unfold steeredExternals
    dsimp only
    rw [if_neg, if_neg]
    · exact fun same => present (List.append_eq_nil_iff.mp same.symm).1
    · exact fun same => present (List.append_eq_nil_iff.mp same.symm).1

/-- The line that is written. -/
def bareLine : StoredLine Nat (List Char) Unit :=
  { record := bareRecord, bytes := bareBytes, items := steeredRecord.items }

theorem steered_normalized :
    normalizeHistory steeredExternals steeredRecord.items = some steeredRecord.items := by
  have steer (index : Nat) (rest : List (HistoryItem (List Char) Unit)) :
      HistoryStore.normalize steeredExternals true (steered index ++ rest) =
        (HistoryStore.normalize steeredExternals true rest).map (steered index ++ ·) := by
    have valid (replay : Unit) (content : List (AssistantPart (List Char))) :
        steeredExternals.validateHistoryReplay replay content = true := rfl
    cases later : HistoryStore.normalize steeredExternals true rest with
    | none => simp [steered, HistoryStore.normalize, sanitizeAssistant, sanitizeParts, valid, later]
    | some items =>
      simp [steered, HistoryStore.normalize, sanitizeAssistant, sanitizeParts, valid, later]
  have rounds (indices : List Nat) :
      HistoryStore.normalize steeredExternals true (indices.flatMap steered) =
        some (indices.flatMap steered) := by
    induction indices with
    | nil => rfl
    | cons index rest inductionHypothesis =>
      rw [List.flatMap_cons, steer, inductionHypothesis, Option.map_some]
  unfold normalizeHistory steeredRecord
  rw [HistoryStore.normalize, rounds, Option.map_some]
  simp

theorem steered_encoded : encodeLoop steeredExternals steeredRecord = .ok (bareLine, false) := by
  have prepared : preparedRecord steeredRecord steeredRecord.items = steeredRecord := by
    unfold preparedRecord
    split <;> rfl
  have timed : steeredRecord.userTimesAreValid = true := sample_page_facts.1
  have long : steeredExternals.toVec steeredRecord = some steeredLong := by
    unfold steeredExternals
    dsimp only
    rw [if_pos rfl]
  have bare : steeredExternals.toVec bareRecord = some bareBytes := by
    unfold steeredExternals
    dsimp only
    rw [if_neg (by simp [bareRecord, steeredRecord]), if_pos rfl]
  exact encode_loop_shed steered_normalized prepared timed long
    (by rw [steered_length]; decide) (Or.inr rfl) bare (by rw [bare_length]; decide)

def steeredResult : TurnResult (List Char) :=
  { outcome := .cancelled (some "user".toList), usage := ⟨none, none, none, none, none, none⟩
    requests := 65, toolRounds := 0, finalConfigRevision := 0, persistence := .failed }

/-- The source that is retained for the turn. -/
def steeredSource : PreparedSource (List Char) :=
  { items := promptText :: List.replicate 64 steerText
    interrupted := some copyJson
    resultId := "r1:78769b9a5a42f080ae0da0f3de564b93205d8e69e867dd39c1504a176b98dd90"
    metadata := steeredResult }

theorem steered_shown : steeredRecord.items.filterMap SourceItem.fromHistory =
    .user promptJson :: List.replicate 64 (.user steerJson) := by
  rfl

theorem steered_written : Written steeredTurns
    (steeredRecord.items.filterMap SourceItem.fromHistory) steeredSource.items := by
  rw [steered_shown]
  unfold Written
  refine .cons rfl ?_
  rw [List.forall₂_iff_get]
  refine ⟨by rw [List.length_replicate, List.length_replicate], ?_⟩
  intro position _ _
  rw [List.get_eq_getElem, List.get_eq_getElem, List.getElem_replicate, List.getElem_replicate]
  rfl

theorem sized_length (text : List Char) : (sized text).length = 8 + (encode text).length := by
  simp [sized, toBeBytes]

/-- What an identity is taken over has as many bytes as its parts, whose sizes are
known for one text that others of one kind follow. -/
theorem result_bytes_length {first other : List Char} {tag one each : Nat} (count : Nat)
    (turns : TurnExternals (List Char)) (tagged : resultTag.length = tag)
    (known : (encode first).length = one) (alike : (encode other).length = each)
    (copy : Option (List Char)) :
    (resultBytes turns (first :: List.replicate count other) copy).length =
      tag + 8 + (8 + one + count * (8 + each)) +
        (8 + (encode ((turns.interruptedJson copy).getD [])).length) := by
  have others : ((List.replicate count other).flatMap sized).length = count * (8 + each) := by
    rw [List.length_flatMap, List.map_replicate, List.sum_replicate, sized_length, alike]
    rfl
  have place (number : Nat) : (toBeBytes number).length = 8 := by simp [toBeBytes]
  rw [resultBytes, List.length_append, List.length_append, List.length_append, place, tagged,
    sized_length, List.flatMap_cons, List.length_append, others, sized_length, known]

theorem steered_bytes (copy : Option (List Char)) :
    (resultBytes steeredTurns steeredSource.items copy).length =
      8424 + (encode ((steeredTurns.interruptedJson copy).getD [])).length := by
  obtain ⟨_, _, _, _, tag, prompt, steer, _⟩ := sample_lengths
  have whole := result_bytes_length 64 steeredTurns tag prompt steer copy
  generalize (encode ((steeredTurns.interruptedJson copy).getD [])).length = size at whole ⊢
  rw [steeredSource, whole]
  omega

/-- The identity with the interrupted copy and the one without it. -/
theorem steered_ids :
    resultIdOf steeredExternals steeredPages steeredTurns steeredSource.items (some copyJson) =
      "r1:78769b9a5a42f080ae0da0f3de564b93205d8e69e867dd39c1504a176b98dd90" ∧
    resultIdOf steeredExternals steeredPages steeredTurns steeredSource.items none =
      "r1:bd6cd7a49542971b2caaaf2351ca6a6792f5715c92502d6c3d33c09a576e6fb8" := by
  have hashed (copy : Option (List Char)) :
      steeredExternals.update steeredExternals.newDigest
        (resultBytes steeredTurns steeredSource.items copy) =
          8424 + (encode ((steeredTurns.interruptedJson copy).getD [])).length := by
    rw [← steered_bytes]
    exact Nat.zero_add _
  have whole : (encode ((steeredTurns.interruptedJson (some copyJson)).getD [])).length = 93 :=
    sample_lengths.2.2.2.1
  have bare : (encode ((steeredTurns.interruptedJson none).getD [])).length = 4 :=
    sample_page_facts.2.1
  unfold resultIdOf
  rw [hashed, hashed, whole, bare]
  exact sample_page_facts.2.2

theorem steered_source : encodeResultSource steeredExternals steeredPages steeredTurns
    steeredRecord.items steeredRecord.interrupted steeredResult = .ok steeredSource := by
  obtain ⟨source, encoded, metadata⟩ : ∃ source,
      encodeResultSource steeredExternals steeredPages steeredTurns steeredRecord.items
        steeredRecord.interrupted steeredResult = .ok source ∧
      source.metadata = steeredResult := by
    unfold encodeResultSource
    rw [written_iff.mpr steered_written]
    exact ⟨_, rfl, rfl⟩
  obtain ⟨written, copied, named⟩ := encode_result_source_ok steered_streams encoded
  have same := written.unique steered_written
  rw [same] at named
  have identity : source.resultId = steeredSource.resultId := named.trans steered_ids.1
  rw [encoded]
  congr 1
  cases source
  dsimp only at same copied identity metadata
  rw [same, copied, identity, metadata]
  rfl

/-- The files of the sample are read at once. -/
def steeredCalls (file : List UInt8) : TurnCalls Nat (List Char) where
  cancelled := false
  begun := .ok ()
  answersFrom offset :=
    { length := .ok file.length, checked := .ok (), opened := .ok ()
      chunks := [.ok (file.drop offset)] }
  preparing := true
  viewBudget _ := true
  retaining := true
  identity :=
    { bytesOf := fun _ => 400, busy := fun _ => false, outsideBytes := 0, outsideCount := 0
      registered := true }
  encodedPage _ := 700
  encodedCursor _ := 24
  encodedLen chunk := 90 + byteLen chunk.data
  withinBudget _ := true

theorem steered_reading (file : List UInt8) (offset : Nat) :
    Reading file offset ((steeredCalls file).answersFrom offset) := by
  refine ⟨?_, [], [], ?_, rfl⟩
  · intro length known
    exact (Except.ok.inj known).symm
  · rw [List.append_nil]

def emptyWorld : World Nat (List Char) Unit Nat :=
  { lines := [], torn := none, session := none, unmerged := none, finishing := none
    identities := [], used := [] }

def openedSession : TurnSession Nat (List Char) Unit Nat :=
  TurnSession.opened "load" Loaded.empty

/-- The Session once the append has ended unknown and the turn is completed. -/
def completedSession : TurnSession Nat (List Char) Unit Nat :=
  { openedSession with
    uncertainLoop := some 2
    lookup := Function.update openedSession.lookup 2
      (some (completionOf steeredResult .cancelled (some steeredSource) none true,
        some steeredSource)) }

/-- All bytes of the line have reached the file. -/
def liveWorld : World Nat (List Char) Unit Nat :=
  { emptyWorld with lines := [bareLine], session := some completedSession, used := [2] }

def coldWorld : World Nat (List Char) Unit Nat := { liveWorld with session := none }

theorem empty_fresh : emptyWorld.Fresh steeredExternals := by
  refine ⟨⟨by simp [emptyWorld], by simp [emptyWorld], ?_, ?_⟩, rfl, rfl, rfl⟩
  · exact List.nodup_nil
  · intro line member
    cases member

theorem live_reached : Relation.ReflTransGen
    (Step steeredExternals steeredPages steeredTurns) emptyWorld liveWorld := by
  let faults : AppendFaults :=
    { missing := none, openFails := false, write := some .sync, rollback := some .opening }
  let opened : World Nat (List Char) Unit Nat := { emptyWorld with session := some openedSession }
  let doubted : World Nat (List Char) Unit Nat :=
    { emptyWorld with
      session := some { openedSession with uncertainLoop := some 2 }
      finishing := some { record := steeredRecord, persistence := .failed, uncertain := true }
      used := [2] }
  have opens : Step steeredExternals steeredPages steeredTurns emptyWorld opened :=
    Step.load rfl (by simp [emptyWorld]) (show HistoryStore.Reads [] [] from ⟨rfl, by simp⟩) rfl
  -- The sync fails, and so does opening the file to undo the write.
  have unknown : appendLoopUnder steeredExternals
      { bytes := opened.file, index := openedSession.index } steeredRecord faults =
        (.error .unknown,
          { bytes := opened.file ++ (bareLine.bytes ++ [newline]).take (bareLine.bytes.length + 1)
            index := openedSession.index }) := by
    have whole : (bareLine.bytes ++ [newline]).take (bareLine.bytes.length + 1) =
        bareLine.bytes ++ [newline] := by
      apply List.take_of_length_le
      apply Nat.le_of_eq
      rw [List.length_append, List.length_singleton]
    rw [whole, appendLoopUnder, steered_encoded]
    rfl
  have doubts : Step steeredExternals steeredPages steeredTurns opened
      (doubted.reached bareLine (bareLine.bytes.length + 1)) := by
    have used : steeredRecord.loopId ∉ opened.used := by simp [opened, emptyWorld]
    exact @Step.doubt _ _ _ _ _ steeredExternals steeredPages steeredTurns opened openedSession
      steeredRecord bareLine false faults _ rfl rfl rfl rfl steered_normalized used steered_encoded
      unknown
  have arrived : doubted.reached bareLine (bareLine.bytes.length + 1) =
      { doubted with lines := [bareLine] } := by
    unfold World.reached
    rw [if_neg (by omega)]
    rfl
  have completes : Step steeredExternals steeredPages steeredTurns
      { doubted with lines := [bareLine] } liveWorld := by
    refine @Step.complete _ _ _ _ _ steeredExternals steeredPages steeredTurns
      { doubted with lines := [bareLine] } { openedSession with uncertainLoop := some 2 }
      { record := steeredRecord, persistence := .failed, uncertain := true } steeredResult .cancelled
      (some steeredSource) none rfl rfl rfl ?_
    intro prepared same
    rw [← Option.some.inj same]
    exact ⟨rfl, steered_source⟩
  rw [arrived] at doubts
  exact ((Relation.ReflTransGen.single opens).tail doubts).tail completes

theorem cold_reached : Relation.ReflTransGen
    (Step steeredExternals steeredPages steeredTurns) liveWorld coldWorld :=
  .single (Step.unload rfl rfl rfl)

/-- A request for the first item. -/
def steeredRequest (load : Option String) : TurnResultRequest Nat :=
  { loopId := 2, load := load, resultId := none, cursor := none, limit := 1, maxBytes := none }

/-- What is compared of a page. -/
def outline (page : TurnResultPage Nat (List Char)) :
    Option String × TurnResultAvailability × Nat × List (List Char) :=
  (page.resultId, page.availability, page.total, page.items.map ReadItemChunk.data)

theorem live_lookup : completedSession.lookup 2 =
    some (completionOf steeredResult .cancelled (some steeredSource) none true,
      some steeredSource) := by
  unfold completedSession
  dsimp only
  rw [Function.update_self]

/-- What is answered while the turn is retained. -/
def liveAnswer :
    Except TurnError (TurnResultPage Nat (List Char)) × List (StoredIdentity Nat (List Char)) :=
  turnResult (steeredCalls liveWorld.file) (steeredRequest (some "load")) steeredExternals
    steeredPages steeredTurns liveWorld.identities liveWorld.session

/-- What is answered once the Session is unloaded. -/
def coldAnswer :
    Except TurnError (TurnResultPage Nat (List Char)) × List (StoredIdentity Nat (List Char)) :=
  turnResult (steeredCalls coldWorld.file) (steeredRequest none) steeredExternals steeredPages
    steeredTurns coldWorld.identities coldWorld.session

/-- The page of the source, and that of the record whatever the file is. -/
theorem sample_pages_shown :
    (liveAnswer.1.toOption.map outline =
      some (some steeredSource.resultId, .live, 65, [promptText])) ∧
    ((storedTurnPage (steeredCalls []) (steeredRequest none) steeredExternals steeredPages
        steeredTurns bareRecord).toOption.map outline =
      some (some "r1:bd6cd7a49542971b2caaaf2351ca6a6792f5715c92502d6c3d33c09a576e6fb8", .stored, 65,
        [promptText])) ∧
    steeredSource.resultId ≠
      "r1:bd6cd7a49542971b2caaaf2351ca6a6792f5715c92502d6c3d33c09a576e6fb8" := by
  refine ⟨?_, ?_, ?_⟩
  · decide +kernel
  · decide +kernel
  · exact fun same => absurd (String.ofList_injective same) (by decide)

/-- The only line of the file is found by scanning. -/
theorem cold_record :
    readLoopRecord steeredExternals none 2 scanLimits (steeredCalls coldWorld.file).begun
      (steeredCalls coldWorld.file).answersFrom = .ok (some bareRecord) := by
  have file : coldWorld.file = bareBytes ++ newline :: [] := by
    simp [World.file, World.tail, coldWorld, liveWorld, emptyWorld, fileOf, bareLine, Lines.join]
  have free : newline ∉ bareBytes := by
    intro member
    exact (List.mem_append.mp member).elim common_free (by decide)
  have size : coldWorld.file.length = 16777215 := by
    rw [file, List.length_append, bare_length]
    rfl
  have yields : Yields True [.ok (coldWorld.file.drop 0)] (bareBytes ++ newline :: []) :=
    ⟨[], by rw [List.drop_zero, file, List.append_nil], rfl⟩
  have decoded : decodeResultRecord steeredExternals bareBytes = .ok bareRecord := by
    rw [decodeResultRecord, readRecord, reads_bare]
    rfl
  unfold readLoopRecord steeredCalls scanLimits
  dsimp only
  rw [size]
  have target : min 16777215 maxHistoryScanBytes = 16777215 := by decide
  rw [target, scanLoopRecord, if_neg (by decide), if_neg (by decide)]
  rcases read_line_complete LineBuffer.holds_empty yields free
    (by rw [List.nil_append, bare_length]; decide)
    (show bareBytes.length < 16777215 by rw [bare_length]; decide) with
      ⟨rest, complete, _⟩ | ⟨wrong, _⟩
  · rw [complete, List.nil_append]
    dsimp only
    have filled : bareBytes.isEmpty = false := by
      rw [List.isEmpty_eq_false_iff, ← List.length_pos_iff, bare_length]
      decide
    rw [filled, decoded]
    rfl
  · exact absurd trivial wrong

/-- A record that is found is shown, whatever the file is. -/
theorem cold_stored (file : List UInt8)
    (found : readLoopRecord steeredExternals none 2 scanLimits (steeredCalls file).begun
      (steeredCalls file).answersFrom = .ok (some bareRecord)) :
    (turnResult (steeredCalls file) (steeredRequest none) steeredExternals steeredPages
      steeredTurns [] none).1.toOption.map outline =
    some (some "r1:bd6cd7a49542971b2caaaf2351ca6a6792f5715c92502d6c3d33c09a576e6fb8", .stored, 65,
      [promptText]) := by
  have stored := sample_pages_shown.2.1
  have same : storedTurnPage (steeredCalls file) (steeredRequest none) steeredExternals
      steeredPages steeredTurns bareRecord = storedTurnPage (steeredCalls []) (steeredRequest none)
        steeredExternals steeredPages steeredTurns bareRecord := by
    unfold storedTurnPage assembleTurnPage TurnCalls.packing steeredCalls
    dsimp only
  have valid : (steeredRequest none).validate = .ok () := by decide
  have begun : ¬ (steeredCalls file).cancelled = true := by simp [steeredCalls]
  have durable : ¬ (steeredRequest none).load.isSome = true := by simp [steeredRequest]
  have own : (steeredRequest none).loopId = 2 := rfl
  unfold turnResult
  rw [valid]
  dsimp only
  rw [if_neg begun, if_neg durable]
  unfold coldTurnPage
  dsimp only
  rw [own, found]
  dsimp only
  rw [same, stored]

theorem cold_page : coldAnswer.1.toOption.map outline =
    some (some "r1:bd6cd7a49542971b2caaaf2351ca6a6792f5715c92502d6c3d33c09a576e6fb8", .stored, 65,
      [promptText]) :=
  cold_stored coldWorld.file cold_record

end Sample

end MinicoreAgent.TurnResults

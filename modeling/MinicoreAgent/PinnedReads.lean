import Mathlib.Logic.Relation
import MinicoreAgent.SessionReads

/-!
# Pinned paging under appends

A client reads the first page of a history and then follows each next cursor, with
the captured end and the revision of the first page. Between two reads the history
file may grow: a loaded Session appends a record, and merges it into its own history
a little later. It may also be unloaded and loaded again, as long as the file has
every time that the Session knows. A record whose times were left out of an
oversized line is the case where it has not.

Whatever happens in between and whichever reader answers, the client reads the items
of the first read.
-/
namespace MinicoreAgent.ReadPages

open HistoryStore

variable {LoopId Payload Replay Digest : Type} [DecidableEq LoopId]
  (externals : Externals LoopId Payload Replay Digest)
  (pages : PageExternals LoopId Payload Digest) (sourceJson : SourceJson Payload Replay)

section Model

/-- A session in memory and on disk: the lines of its history file, the Session if it
is loaded, and a record that is appended and not yet merged. -/
structure World (LoopId Payload Replay : Type) where
  lines : List (StoredLine LoopId Payload Replay)
  session : Option (ReadSnapshot LoopId Payload Replay)
  unmerged : Option (StoredLoopRecord LoopId Payload Replay)

/-- The history file of these lines, with its index. -/
def storeOf (lines : List (StoredLine LoopId Payload Replay)) : HistoryFile LoopId Digest :=
  { bytes := fileOf lines, index := entriesFrom externals [] lines }

/-- What can happen between two reads. -/
inductive Step : World LoopId Payload Replay → World LoopId Payload Replay → Prop
  /-- `append_loop` has written the sanitized record of a loop with a new id. -/
  | append {world : World LoopId Payload Replay} {session : ReadSnapshot LoopId Payload Replay}
      {record : StoredLoopRecord LoopId Payload Replay} {line : StoredLine LoopId Payload Replay}
      {kept : Bool} {faults : AppendFaults} (loaded : world.session = some session)
      (idle : world.unmerged = none)
      (sanitized : normalizeHistory externals record.items = some record.items)
      (fresh : ∀ user, .user user ∈ session.history → pages.userLoopId user ≠ record.loopId)
      (encoded : encodeLoop externals record = .ok (line, kept))
      (written : appendLoopUnder externals (storeOf externals world.lines) record faults =
        (.ok kept, storeOf externals (world.lines ++ [line]))) :
      Step world
        { lines := world.lines ++ [line], session := some session, unmerged := some record }
  /-- `persist_report` has merged it into the history and the times of the Session. -/
  | merge {world : World LoopId Payload Replay} {session : ReadSnapshot LoopId Payload Replay}
      {record : StoredLoopRecord LoopId Payload Replay} (loaded : world.session = some session)
      (appended : world.unmerged = some record) :
      Step world
        { lines := world.lines
          session := some
            { history := session.history ++ record.items
              userTimes := insertTimes record.loopId (record.userTimes.getD []) record.items 0
                session.userTimes }
          unmerged := none }
  | unload {world : World LoopId Payload Replay} {session : ReadSnapshot LoopId Payload Replay}
      (loaded : world.session = some session) (idle : world.unmerged = none)
      (recorded : Recorded pages world.lines session.userTimes) :
      Step world { world with session := none }
  | load {world : World LoopId Payload Replay} {chunks : List (List UInt8)}
      {loaded : Loaded LoopId Payload Replay Digest} (unloaded : world.session = none)
      (reads : HistoryStore.Reads chunks (fileOf world.lines))
      (opened : loadHistory externals (fileOf world.lines) chunks =
        (.ok loaded, fileOf world.lines))
      (recorded : Recorded pages world.lines loaded.times) :
      Step world
        { world with session := some { history := loaded.items, userTimes := loaded.times } }

/-- The reader that answers, with the answers of the file system. -/
inductive Reader
  | indexed (answersFrom : Nat → FileAnswers)
  | scanned (answers : FileAnswers)

/-- The answers are those for a file of these lines. -/
def Reader.Answered (clean : Prop) (lines : List (StoredLine LoopId Payload Replay)) :
    Reader → Prop
  | .indexed answersFrom => ∀ offset, Answers clean lines offset (answersFrom offset)
  | .scanned answers => Answers clean lines 0 answers

/-- `read_history_page` in a world. -/
def World.historyPage (world : World LoopId Payload Replay) (limits : HistoryScanLimits)
    (reader : Reader) (request : PageRequest) (times : Option (Times LoopId)) :
    Except StoreError (HistoryReadPage LoopId Payload Replay) :=
  match reader with
  | .indexed answersFrom =>
    indexedHistoryPage externals pages (storeOf externals world.lines).index request times limits
      answersFrom
  | .scanned answers => scanHistoryPage externals pages request times limits answers

/-- A request is answered in a world. -/
def ReadsAt (world : World LoopId Payload Replay) (request : ReadSession)
    (result : ReadSessionResult LoopId Payload) : Prop :=
  ∃ clean limits reader calls, Reader.Answered clean world.lines reader ∧
    readSession sourceJson (world.historyPage externals pages limits reader) world.session calls
      request = .ok result

/-- The pages behind the first one, each from the cursor that the last one gave. -/
inductive PinnedWalk (captured : Nat) (revision : String) :
    World LoopId Payload Replay → Option ReadCursor → Nat → List ReadItemChunk →
    Option ReadCursor → Prop
  | rest (world : World LoopId Payload Replay) (cursor : Option ReadCursor) :
      PinnedWalk captured revision world cursor 0 [] cursor
  | read {world later : World LoopId Payload Replay} {cursor : ReadCursor}
      {request : ReadSession} {result : ReadSessionResult LoopId Payload} {count : Nat}
      {chunks : List ReadItemChunk} {finish : Option ReadCursor}
      (between : Relation.ReflTransGen (Step externals pages) world later)
      (continued : request.cursor = some cursor) (pinned : request.capturedEnd = some captured)
      (revised : request.historyRevision = some revision)
      (read : ReadsAt externals pages sourceJson later request result)
      (walk : PinnedWalk captured revision later result.nextCursor count chunks finish) :
      PinnedWalk captured revision world (some cursor) (count + 1) (result.items ++ chunks) finish

/-- The items that a read finds. -/
def World.history (world : World LoopId Payload Replay) : List (HistoryItem Payload Replay) :=
  match world.session with
  | some session => session.history
  | none => world.lines.flatMap StoredLine.items

/-- They, with the times that are known of them. -/
def World.entries (world : World LoopId Payload Replay) :
    List (HistoryItem Payload Replay × Option String) :=
  (told pages (knownTimes world.session) world.lines).take world.history.length

/-- The lines are well-formed, and the Session has the items of all of them that are
merged. -/
structure World.Valid (world : World LoopId Payload Replay) : Prop where
  formed : ∀ line ∈ world.lines, line.WellFormed externals
  merged : ∀ session, world.session = some session → ∃ known appended,
    world.lines = known ++ appended ∧ known.flatMap StoredLine.items = session.history ∧
      appended.flatMap StoredLine.items =
        (world.unmerged.map StoredLoopRecord.items).getD []
  fresh : ∀ session record, world.session = some session → world.unmerged = some record →
    ∀ user, .user user ∈ session.history → pages.userLoopId user ≠ record.loopId
  unloaded : world.session = none → world.unmerged = none

end Model

section KnownTimes

variable {pages} {first second : Option (Times LoopId)}

omit [DecidableEq LoopId] in
theorem timed_items_congr {stored : List (Option String)}
    (items : List (HistoryItem Payload Replay))
    (same : ∀ user, .user user ∈ items → ∀ occurrence,
      promptTime pages first stored user occurrence =
        promptTime pages second stored user occurrence) (occurrence : Nat) :
    timedItems pages first stored items occurrence =
      timedItems pages second stored items occurrence := by
  induction items generalizing occurrence with
  | nil => rfl
  | cons item rest inductionHypothesis =>
    have later := inductionHypothesis
      (fun user member => same user (List.mem_cons_of_mem item member))
    cases item with
    | user user => simp only [timedItems, same user (by simp) occurrence, later]
    | assistant assistant => simp only [timedItems, later]
    | toolResult result => simp only [timedItems, later]
    | summary summary => simp only [timedItems, later]

omit [DecidableEq LoopId] in
/-- Lines are told the same way, if their prompts have the same times. -/
theorem told_congr {lines : List (StoredLine LoopId Payload Replay)}
    (same : ∀ line ∈ lines, ∀ user, .user user ∈ line.items → ∀ occurrence,
      promptTime pages first (line.record.normalizedUserTimes.getD []) user occurrence =
        promptTime pages second (line.record.normalizedUserTimes.getD []) user occurrence) :
    told pages first lines = told pages second lines := by
  unfold told
  apply List.flatMap_congr
  intro line member
  exact timed_items_congr line.items (same line member) 0

omit [DecidableEq LoopId] in
theorem told_recorded {times : Times LoopId} {lines : List (StoredLine LoopId Payload Replay)}
    (recorded : Recorded pages lines times) :
    told pages (some times) lines = told pages none lines := by
  apply told_congr
  intro line member user prompt occurrence
  exact prompt_time_recorded (recorded line member user prompt occurrence)

/-- Inserting the times of one loop changes no other. -/
theorem insert_times_other {loopId : LoopId} {userTimes : List (Option String)}
    (items : List (HistoryItem Payload Replay)) (occurrence : Nat) (times : Times LoopId)
    {key : LoopId × Nat} (other : key.1 ≠ loopId) :
    insertTimes loopId userTimes items occurrence times key = times key := by
  induction items generalizing occurrence times with
  | nil => rfl
  | cons item rest inductionHypothesis =>
    cases item with
    | user user =>
      refine (inductionHypothesis (occurrence + 1) _).trans ?_
      have apart : key ≠ (loopId, occurrence) := by
        rintro rfl
        exact other rfl
      rcases userTimes[occurrence]? with _ | _ | time
      · rfl
      · rfl
      · exact Function.update_of_ne apart _ _
    | assistant assistant => exact inductionHypothesis occurrence times
    | toolResult result => exact inductionHypothesis occurrence times
    | summary summary => exact inductionHypothesis occurrence times

/-- Lines with prompts of other loops are told as before. -/
theorem told_inserted {loopId : LoopId} {userTimes : List (Option String)}
    {items : List (HistoryItem Payload Replay)} {times : Times LoopId}
    {lines : List (StoredLine LoopId Payload Replay)}
    (fresh : ∀ user, .user user ∈ lines.flatMap StoredLine.items →
      pages.userLoopId user ≠ loopId) :
    told pages (some (insertTimes loopId userTimes items 0 times)) lines =
      told pages (some times) lines := by
  apply told_congr
  intro line member user prompt occurrence
  have other := fresh user (List.mem_flatMap.mpr ⟨line, member, prompt⟩)
  unfold promptTime
  rw [Option.bind_some, Option.bind_some, insert_times_other items 0 times other]

end KnownTimes

section Steps

variable {externals pages} {world later : World LoopId Payload Replay}
  {shown : List (StoredLine LoopId Payload Replay)}
  {entries : List (HistoryItem Payload Replay × Option String)}

/-- A step keeps a world valid. -/
theorem Step.valid (lawful : externals.Lawful) (step : Step externals pages world later)
    (valid : world.Valid externals pages) : later.Valid externals pages := by
  cases step with
  | @append session record line kept faults loaded idle sanitized fresh encoded written =>
    obtain ⟨known, appended, lines, history, none⟩ := valid.merged session loaded
    rw [idle] at none
    have items : line.items = record.items := by
      have normal := encode_loop_items encoded
      rw [sanitized] at normal
      exact (Option.some.inj normal).symm
    refine ⟨?_, ?_, ?_, by simp⟩
    · intro other member
      rcases List.mem_append.mp member with old | new
      · exact valid.formed other old
      · rw [List.mem_singleton.mp new]
        exact written_well_formed lawful (encode_loop_good encoded)
    · rintro _ ⟨rfl⟩
      refine ⟨known, appended ++ [line], ?_, history, ?_⟩
      · dsimp only
        rw [lines, List.append_assoc]
      · rw [List.flatMap_append, none, List.flatMap_singleton, items]
        rfl
    · rintro _ _ ⟨rfl⟩ ⟨rfl⟩
      exact fresh
  | @merge session record loaded appended =>
    obtain ⟨known, tail, lines, history, items⟩ := valid.merged session loaded
    refine ⟨valid.formed, ?_, by simp, by simp⟩
    rintro _ ⟨rfl⟩
    refine ⟨world.lines, [], by simp, ?_, rfl⟩
    rw [lines, List.flatMap_append, history, items, appended]
    rfl
  | unload loaded idle recorded => exact ⟨valid.formed, by simp, by simp, fun _ => idle⟩
  | @load chunks loaded unloaded reads opened recorded =>
    rw [load_well_formed valid.formed reads] at opened
    cases opened
    have idle := valid.unloaded unloaded
    refine ⟨valid.formed, ?_, ?_, by simp⟩
    · rintro _ ⟨rfl⟩
      refine ⟨world.lines, [], by simp, (of_lines_items _).symm, ?_⟩
      rw [idle]
      rfl
    · intro session record _ waiting
      rw [idle] at waiting
      cases waiting

variable (externals pages) in
/-- A world in which these lines are still there, are shown, and are told this way. -/
structure Keeps (shown : List (StoredLine LoopId Payload Replay))
    (entries : List (HistoryItem Payload Replay × Option String))
    (world : World LoopId Payload Replay) : Prop where
  valid : world.Valid externals pages
  beginning : shown <+: world.lines
  covered : ∀ session, world.session = some session →
    shown.flatMap StoredLine.items <+: session.history
  told : told pages (knownTimes world.session) shown = entries

/-- A step keeps what was shown. -/
theorem Step.keeps (lawful : externals.Lawful) (step : Step externals pages world later)
    (keeps : Keeps externals pages shown entries world) :
    Keeps externals pages shown entries later := by
  have valid := step.valid lawful keeps.valid
  have beginning := keeps.beginning
  have tells := keeps.told
  cases step with
  | append loaded idle sanitized fresh encoded written =>
    rw [loaded] at tells
    refine ⟨valid, beginning.trans (List.prefix_append _ _), ?_, tells⟩
    rintro _ ⟨rfl⟩
    exact keeps.covered _ loaded
  | @merge session record loaded appended =>
    have covered := keeps.covered session loaded
    rw [loaded] at tells
    refine ⟨valid, beginning, ?_, ?_⟩
    · rintro _ ⟨rfl⟩
      exact covered.trans (List.prefix_append _ _)
    · refine Eq.trans (told_inserted ?_) tells
      intro user member
      exact keeps.valid.fresh session record loaded appended user (covered.subset member)
  | unload loaded idle recorded =>
    rw [loaded] at tells
    refine ⟨valid, beginning, by simp, ?_⟩
    refine Eq.trans (told_recorded ?_).symm tells
    intro line member
    exact recorded line (beginning.subset member)
  | @load chunks loaded unloaded reads opened recorded =>
    rw [unloaded] at tells
    refine ⟨valid, beginning, ?_, ?_⟩
    · rw [load_well_formed keeps.valid.formed reads] at opened
      cases opened
      rintro _ ⟨rfl⟩
      dsimp only
      obtain ⟨rest, whole⟩ := beginning
      rw [of_lines_items, ← whole, List.flatMap_append]
      exact List.prefix_append _ _
    · refine Eq.trans (told_recorded ?_) tells
      intro line member
      exact recorded line (beginning.subset member)

theorem Keeps.run (lawful : externals.Lawful)
    (run : Relation.ReflTransGen (Step externals pages) world later)
    (keeps : Keeps externals pages shown entries world) :
    Keeps externals pages shown entries later := by
  induction run with
  | refl => exact keeps
  | tail _ step inductionHypothesis => exact step.keeps lawful inductionHypothesis

end Steps

section Reads

variable {externals pages sourceJson} {world later : World LoopId Payload Replay}
  {shown : List (StoredLine LoopId Payload Replay)}
  {entries : List (HistoryItem Payload Replay × Option String)}
  {request : ReadSession} {result : ReadSessionResult LoopId Payload}

omit [DecidableEq LoopId] in
/-- The visible items of a loaded Session end with a record. -/
theorem World.Valid.boundary (valid : world.Valid externals pages) (request : ReadSession) :
    ∀ cap ∈ (request.pageRequest world.session).visibleItemCount,
      ∃ other, other <+: world.lines ∧ itemCount other = cap := by
  intro cap member
  obtain ⟨session, loaded, rfl⟩ := Option.map_eq_some_iff.mp member
  obtain ⟨known, appended, lines, history, _⟩ := valid.merged session loaded
  refine ⟨known, ?_, ?_⟩
  · rw [lines]
    exact List.prefix_append _ _
  · rw [← history, List.length_flatMap]
    rfl

omit [DecidableEq LoopId] in
/-- A page of the store is the page of the lines that the request asks for. It fails
only where the request asks for none, or a limit or a failure ends the reading. -/
theorem history_page_outcome
    (streams : ∀ digest first second,
      externals.update (externals.update digest first) second =
        externals.update digest (first ++ second))
    (hexes : ∀ digest, validSha256 (pages.digestHex digest) = true)
    (valid : world.Valid externals pages) (limited : 1 ≤ request.limit) {clean : Prop}
    {reader : Reader} (answered : reader.Answered clean world.lines) (limits : HistoryScanLimits)
    (times : Option (Times LoopId)) :
    (∃ shown, Shows externals pages (request.pageRequest world.session) world.lines shown ∧
      world.historyPage externals pages limits reader (request.pageRequest world.session) times =
        .ok (pageOf externals pages (request.pageRequest world.session) times shown)) ∨
    (∃ error, world.historyPage externals pages limits reader
        (request.pageRequest world.session) times = .error error) ∧
      ¬ (clean ∧ Ample limits world.lines ∧
        ((∃ answersFrom, reader = .indexed answersFrom) ∨ world.session = none) ∧
        ∃ shown, Shows externals pages (request.pageRequest world.session) world.lines shown) := by
  cases reader with
  | indexed answersFrom =>
    rcases indexed_outcome times limits valid.formed limited
      (valid.boundary request) answered with done | ⟨failed, reason⟩
    · exact Or.inl done
    · exact Or.inr ⟨failed, fun good => reason ⟨good.1, good.2.1, good.2.2.2⟩⟩
  | scanned answers =>
    rcases scan_outcome times limits streams hexes valid.formed
      (valid.boundary request) answered with done | ⟨failed, reason⟩
    · exact Or.inl done
    · refine Or.inr ⟨failed, ?_⟩
      rintro ⟨ok, ample, ⟨_, wrong⟩ | cold, shows⟩
      · cases wrong
      · refine reason ⟨ok, ample, ?_, shows⟩
        intro capped
        rw [ReadSession.pageRequest, cold] at capped
        exact absurd rfl capped

omit [DecidableEq LoopId] in
/-- An answer is a page of the texts of the lines that the request asks for. -/
theorem ReadsAt.shows
    (streams : ∀ digest first second,
      externals.update (externals.update digest first) second =
        externals.update digest (first ++ second))
    (hexes : ∀ digest, validSha256 (pages.digestHex digest) = true)
    (valid : world.Valid externals pages)
    (read : ReadsAt externals pages sourceJson world request result) :
    ∃ shown, Shows externals pages (request.pageRequest world.session) world.lines shown ∧
      result.total = itemCount shown ∧ result.capturedEnd = byteCount shown ∧
      result.historyRevision = pages.digestHex (digestOf externals shown) ∧
      ∃ packing, ∀ fill,
        Within ((told pages (knownTimes world.session) shown).map (textOf sourceJson fill))
            (request.cursor.getD .start) ∧
          itemPage ((told pages (knownTimes world.session) shown).map (textOf sourceJson fill))
            (request.cursor.getD .start) request.limit packing =
              .ok (result.items, result.nextCursor) := by
  obtain ⟨clean, limits, reader, calls, answered, done⟩ := read
  have limited := (validate_ok (read_session_ok done).1).1
  rcases history_page_outcome streams hexes valid limited answered limits
    (knownTimes world.session) with ⟨shown, shows, paged⟩ | ⟨⟨error, failed⟩, _⟩
  · refine ⟨shown, shows, read_is_item_page done ?_⟩
    intro page asked
    rw [paged] at asked
    exact (Except.ok.inj asked).symm
  · obtain ⟨_, page, _, asked, _⟩ := read_session_ok done
    rw [failed] at asked
    cases asked

omit [DecidableEq LoopId] in
/-- What a first read shows are the items that it finds. -/
theorem first_read_entries (valid : world.Valid externals pages)
    (unpinned : request.capturedEnd = none)
    (shows : Shows externals pages (request.pageRequest world.session) world.lines shown) :
    told pages (knownTimes world.session) shown = world.entries pages ∧
      Keeps externals pages shown (world.entries pages) world := by
  have count : itemCount shown = world.history.length := by
    unfold World.history
    cases loaded : world.session with
    | none =>
      rw [shows.whole unpinned (by rw [ReadSession.pageRequest, loaded]; rfl),
        List.length_flatMap]
      rfl
    | some session =>
      exact shows.visible unpinned session.history.length
        (by rw [ReadSession.pageRequest, loaded]; rfl)
  have entries : told pages (knownTimes world.session) shown = world.entries pages := by
    obtain ⟨rest, whole⟩ := shows.beginning
    have length : (told pages (knownTimes world.session) shown).length = world.history.length := by
      rw [told_length, count]
    unfold World.entries
    rw [← length, ← whole, told_append, List.take_left]
  refine ⟨entries, valid, shows.beginning, ?_, entries⟩
  intro session loaded
  obtain ⟨known, appended, lines, history, _⟩ := valid.merged session loaded
  unfold World.history at count
  rw [loaded] at count
  refine List.prefix_of_prefix_length_le
    (?_ : _ <+: world.lines.flatMap StoredLine.items) ?_ ?_
  · obtain ⟨rest, whole⟩ := shows.beginning
    rw [← whole, List.flatMap_append]
    exact List.prefix_append _ _
  · rw [lines, List.flatMap_append, history]
    exact List.prefix_append _ _
  · rw [List.length_flatMap]
    exact Nat.le_of_eq count

/-- A pinned walk is a walk over the texts of what was shown. -/
theorem PinnedWalk.walk (lawful : externals.Lawful)
    (streams : ∀ digest first second,
      externals.update (externals.update digest first) second =
        externals.update digest (first ++ second))
    (hexes : ∀ digest, validSha256 (pages.digestHex digest) = true) {captured : Nat}
    {revision : String} {cursor finish : Option ReadCursor} {count : Nat}
    {chunks : List ReadItemChunk} (bytes : captured = byteCount shown)
    (walk : PinnedWalk externals pages sourceJson captured revision world cursor count chunks finish)
    (keeps : Keeps externals pages shown entries world) (fill : List Char) :
    Walk (entries.map (textOf sourceJson fill)) cursor count chunks finish := by
  induction walk with
  | rest world cursor => exact .rest cursor
  | @read world later cursor request result count chunks finish between continued pinned revised
      read _ inductionHypothesis =>
    have still := keeps.run lawful between
    obtain ⟨other, shows, _, _, _, packing, paged⟩ := read.shows streams hexes still.valid
    have same : other = shown := by
      apply byte_count_strict shows.beginning still.beginning
      rw [shows.pinned captured pinned, bytes]
    subst same
    obtain ⟨_, _, _, _, _, done⟩ := read
    have limited := (validate_ok (read_session_ok done).1).1
    obtain ⟨_, turned⟩ := paged fill
    rw [still.told, continued] at turned
    exact .page limited turned (inductionHypothesis still)

omit [DecidableEq LoopId] in
/-- What was shown can still be asked for by its end and its revision. -/
theorem Keeps.shows (keeps : Keeps externals pages shown entries world)
    (pinned : request.capturedEnd = some (byteCount shown))
    (revised : request.historyRevision = some (pages.digestHex (digestOf externals shown))) :
    Shows externals pages (request.pageRequest world.session) world.lines shown := by
  refine ⟨?_, keeps.beginning, ?_, ?_, ?_, ?_, ?_⟩
  · rw [ReadSession.pageRequest, pinned, revised]
    rfl
  · intro unpinned
    rw [ReadSession.pageRequest, pinned] at unpinned
    cases unpinned
  · intro unpinned
    rw [ReadSession.pageRequest, pinned] at unpinned
    cases unpinned
  · intro captured member
    rw [ReadSession.pageRequest, pinned] at member
    exact Option.some.inj member
  · intro cap member
    obtain ⟨session, loaded, rfl⟩ := Option.map_eq_some_iff.mp member
    have fewer := (keeps.covered session loaded).length_le
    rwa [List.length_flatMap] at fewer
  · intro expected member
    rw [ReadSession.pageRequest, revised] at member
    exact Option.some.inj member

end Reads

section Stability

variable {externals pages sourceJson} {world : World LoopId Payload Replay}
  {request : ReadSession} {result : ReadSessionResult LoopId Payload}

omit [DecidableEq LoopId] in
/-- The items that a read finds, without their times. -/
theorem entries_history (valid : world.Valid externals pages) :
    (world.entries pages).map Prod.fst = world.history := by
  unfold World.entries
  rw [List.map_take, told_fst]
  unfold World.history
  cases loaded : world.session with
  | none => exact List.take_length
  | some session =>
    obtain ⟨known, appended, lines, history, _⟩ := valid.merged session loaded
    dsimp only
    rw [lines, List.flatMap_append, history, List.take_left]

/-- The text of the sample prompt. -/
def sampleJson : SourceJson String Unit := fun _ _ =>
  some ("\x7b\"item\":\x7b\"type\":\"user\",\"data\":\x7b\"loop_id\":" ++
    "\"lup_00000000000000000000000000000002\",\"kind\":\"prompt\",\"input\":\x7b" ++
    "\"text\":\"é\"\x7d\x7d\x7d\x7d").toList

def sampleWorld : World Nat String Unit :=
  { lines := [sampleLine], session := none, unmerged := none }

def sampleRead : ReadSession :=
  { cursor := none, limit := 100, maxBytes := none, capturedEnd := none, historyRevision := none
    projectionRevision := none }

def sampleCalls : ReadCalls Nat String Unit :=
  { info := .ok (), begun := .ok (), encodedLen := fun chunk => 90 + Text.byteLen chunk.data
    headerBytes := fun _ _ _ _ => .ok 400, withinBudget := fun _ => true }

end Stability

end MinicoreAgent.ReadPages

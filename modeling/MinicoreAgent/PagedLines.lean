import Mathlib.Algebra.GroupWithZero.Nat
import MinicoreAgent.HistoryPages

/-!
# What a page of the history shows

A history file is a sequence of lines. What a reader may show is the lines up to
some place, decided by the visible items and the pinned end; the page consists of
the items of those lines that lie in the range. The index is the list of totals at
the end of each line, so searching it finds such a place.
-/
namespace MinicoreAgent.HistoryStore

variable {LoopId Payload Replay Digest : Type}
  (externals : Externals LoopId Payload Replay Digest)
  (pages : PageExternals LoopId Payload Digest)

section Totals

/-- The bytes of a file with these lines. -/
def fileOf (lines : List (StoredLine LoopId Payload Replay)) : List UInt8 :=
  Lines.join newline (lines.map StoredLine.bytes)

def byteCount (lines : List (StoredLine LoopId Payload Replay)) : Nat := (fileOf lines).length

def itemCount (lines : List (StoredLine LoopId Payload Replay)) : Nat :=
  (lines.map (fun line => line.items.length)).sum

def digestOf (lines : List (StoredLine LoopId Payload Replay)) : Digest :=
  lines.foldl (fun digest line => externals.update digest (line.bytes ++ [newline]))
    externals.newDigest

/-- What the index knows at the end of these lines. -/
def entryOf (lines : List (StoredLine LoopId Payload Replay)) : HistoryLine LoopId Digest :=
  { finish := byteCount lines
    items := itemCount lines
    hash := digestOf externals lines
    usage := lines.foldl (fun usage line => usage.add line.record.loopId line.record.usage) .empty }

/-- The entries of further lines. -/
def entriesFrom (done : List (StoredLine LoopId Payload Replay)) :
    List (StoredLine LoopId Payload Replay) → List (HistoryLine LoopId Digest)
  | [] => []
  | line :: rest => entryOf externals (done ++ [line]) :: entriesFrom (done ++ [line]) rest

variable {externals} {done lines before after : List (StoredLine LoopId Payload Replay)}
  {line : StoredLine LoopId Payload Replay}

@[simp] theorem file_of_nil : fileOf ([] : List (StoredLine LoopId Payload Replay)) = [] := rfl

theorem file_of_append : fileOf (before ++ after) = fileOf before ++ fileOf after := by
  unfold fileOf
  rw [List.map_append, Lines.join_append]

theorem file_of_cons : fileOf (line :: after) = line.bytes ++ newline :: fileOf after := by
  unfold fileOf
  rw [List.map_cons, Lines.join_cons]

@[simp] theorem byte_count_nil :
    byteCount ([] : List (StoredLine LoopId Payload Replay)) = 0 := rfl

@[simp] theorem byte_count_append :
    byteCount (before ++ after) = byteCount before + byteCount after := by
  unfold byteCount
  rw [file_of_append, List.length_append]

@[simp] theorem byte_count_cons :
    byteCount (line :: after) = line.bytes.length + 1 + byteCount after := by
  unfold byteCount
  rw [file_of_cons, List.length_append, List.length_cons]
  omega

@[simp] theorem item_count_nil :
    itemCount ([] : List (StoredLine LoopId Payload Replay)) = 0 := rfl

@[simp] theorem item_count_append :
    itemCount (before ++ after) = itemCount before + itemCount after := by
  simp [itemCount]

@[simp] theorem item_count_cons :
    itemCount (line :: after) = line.items.length + itemCount after := by
  simp [itemCount]

theorem digest_of_snoc : digestOf externals (before ++ [line]) =
    externals.update (digestOf externals before) (line.bytes ++ [newline]) := by
  simp [digestOf]

theorem entries_length (done lines : List (StoredLine LoopId Payload Replay)) :
    (entriesFrom externals done lines).length = lines.length := by
  induction lines generalizing done with
  | nil => rfl
  | cons line rest inductionHypothesis =>
    rw [entriesFrom, List.length_cons, inductionHypothesis, List.length_cons]

theorem entries_append (done before after : List (StoredLine LoopId Payload Replay)) :
    entriesFrom externals done (before ++ after) =
      entriesFrom externals done before ++ entriesFrom externals (done ++ before) after := by
  induction before generalizing done with
  | nil => simp [entriesFrom]
  | cons line rest inductionHypothesis =>
    rw [List.cons_append, entriesFrom, entriesFrom, inductionHypothesis, List.cons_append,
      List.append_assoc, List.singleton_append]

/-- The last entry, or the first totals where there is none, is what is known at the
end. -/
theorem entries_last (done lines : List (StoredLine LoopId Payload Replay)) :
    (entriesFrom externals done lines).getLast?.getD (entryOf externals done) =
      entryOf externals (done ++ lines) := by
  induction lines generalizing done with
  | nil => simp [entriesFrom]
  | cons line rest inductionHypothesis =>
    have later := inductionHypothesis (done ++ [line])
    rw [List.append_assoc, List.singleton_append] at later
    rw [entriesFrom, ← later]
    cases entriesFrom externals (done ++ [line]) rest with
    | nil => rfl
    | cons entry others =>
      rw [List.getLast?_cons_cons, List.getLast?_cons]
      rfl

/-- The last entry carries the totals on, so an index grows by the next entry. -/
theorem index_line_entries (done : List (StoredLine LoopId Payload Replay))
    (line : StoredLine LoopId Payload Replay) :
    indexLine externals (entriesFrom externals [] done) (line.bytes ++ [newline]) line.record
      line.items.length = entriesFrom externals [] (done ++ [line]) := by
  have last : (entriesFrom externals [] done).getLast?.getD (entryOf externals []) = _ :=
    entries_last [] done
  have first : (entryOf externals [] : HistoryLine LoopId Digest) =
      { finish := 0, items := 0, hash := externals.newDigest, usage := .empty } := rfl
  rw [entries_append, indexLine]
  congr 1
  rw [← first, last, List.nil_append, entriesFrom, entriesFrom]
  simp [entryOf, digest_of_snoc, Nat.add_comm]

/-- The index the store keeps is the list of these entries. -/
theorem index_entries (lines : List (StoredLine LoopId Payload Replay)) :
    indexLines externals lines [] = entriesFrom externals [] lines := by
  have grows (done rest : List (StoredLine LoopId Payload Replay)) :
      indexLines externals rest (entriesFrom externals [] done) =
        entriesFrom externals [] (done ++ rest) := by
    induction rest generalizing done with
    | nil => simp [indexLines]
    | cons line rest inductionHypothesis =>
      rw [show done ++ line :: rest = (done ++ [line]) ++ rest by simp, ← inductionHypothesis,
        ← index_line_entries]
      rfl
  have whole := grows [] lines
  rwa [List.nil_append] at whole

/-- Searching the index for the last line that passes a test: it finds a place
between two lines, all entries before it pass, and the next one does not. -/
theorem search_entries (test : HistoryLine LoopId Digest → Bool)
    (done lines : List (StoredLine LoopId Payload Replay)) :
    ∃ before after, lines = before ++ after ∧
      (entriesFrom externals done lines).takeWhile test = entriesFrom externals done before ∧
      (∀ first second, before = first ++ second → first ≠ [] →
        test (entryOf externals (done ++ first)) = true) ∧
      ∀ line rest, after = line :: rest →
        test (entryOf externals (done ++ before ++ [line])) = false := by
  induction lines generalizing done with
  | nil =>
    refine ⟨[], [], rfl, rfl, ?_, ?_⟩
    · intro first second empty present
      exact absurd (List.append_eq_nil_iff.mp empty.symm).1 present
    · intro line rest wrong
      cases wrong
  | cons line rest inductionHypothesis =>
    rw [entriesFrom, List.takeWhile_cons]
    by_cases passes : test (entryOf externals (done ++ [line])) = true
    · obtain ⟨before, after, rfl, found, pass, fails⟩ := inductionHypothesis (done ++ [line])
      refine ⟨line :: before, after, rfl, ?_, ?_, ?_⟩
      · rw [if_pos passes, found, entriesFrom]
      · intro first second parts present
        cases first with
        | nil => exact absurd rfl present
        | cons head first =>
          obtain ⟨rfl, others⟩ := List.cons.inj parts
          by_cases last : first = []
          · rw [last]
            exact passes
          · have later := pass first second others last
            rwa [List.append_assoc, List.singleton_append] at later
      · intro next others same
        have later := fails next others same
        simpa using later
    · refine ⟨[], line :: rest, rfl, ?_, ?_, ?_⟩
      · rw [if_neg passes]
        rfl
      · intro first second empty present
        exact absurd (List.append_eq_nil_iff.mp empty.symm).1 present
      · intro next others same
        obtain ⟨rfl, _⟩ := List.cons.inj same
        simpa using passes

variable (externals) in
/-- Where a test holds of every beginning of what it holds of, the search finds the
longest beginning that passes. -/
theorem longest_passing (test : HistoryLine LoopId Digest → Bool)
    (closed : ∀ before after : List (StoredLine LoopId Payload Replay), before <+: after →
      test (entryOf externals after) = true → test (entryOf externals before) = true)
    (lines : List (StoredLine LoopId Payload Replay))
    (empty : test (entryOf externals ([] : List (StoredLine LoopId Payload Replay))) = true) :
    ∃ found, found <+: lines ∧
      (entriesFrom externals [] lines).takeWhile test = entriesFrom externals [] found ∧
      test (entryOf externals found) = true ∧
      ∀ other, other <+: lines → test (entryOf externals other) = true → other <+: found := by
  obtain ⟨before, after, rfl, found, pass, fails⟩ := search_entries test [] lines
  refine ⟨before, List.prefix_append _ _, found, ?_, ?_⟩
  · by_cases none : before = []
    · rwa [none]
    · exact pass before [] (by simp) none
  · intro other beginning passes
    rcases List.prefix_or_prefix_of_prefix beginning (List.prefix_append before after) with
      inner | inner
    · exact inner
    · obtain ⟨rest, rfl⟩ := inner
      cases rest with
      | nil => simp
      | cons line rest =>
        obtain ⟨others, same⟩ := (List.prefix_append_right_inj before).mp beginning
        have failed := fails line (rest ++ others) (by rw [← same]; simp)
        have short : before ++ [line] <+: before ++ line :: rest := by simp
        rw [List.nil_append, closed _ _ short passes] at failed
        cases failed

/-- An entry of the index is what is known at the end of its line. -/
theorem entries_get (done lines : List (StoredLine LoopId Payload Replay)) (position : Nat)
    (inside : position < lines.length) :
    (entriesFrom externals done lines)[position]? =
      some (entryOf externals (done ++ lines.take (position + 1))) := by
  induction lines generalizing done position with
  | nil => simp at inside
  | cons line rest inductionHypothesis =>
    rw [entriesFrom]
    cases position with
    | zero => simp
    | succ position =>
      rw [List.getElem?_cons_succ, inductionHypothesis _ _ (by simpa using inside)]
      simp

end Totals

section Reading

/-- Reading yields these bytes, part by part; where nothing may fail the parts are
all there. -/
def Yields (clean : Prop) : Chunks → List UInt8 → Prop
  | [], bytes => bytes = []
  | .error _ :: _, _ => ¬ clean
  | .ok chunk :: rest, bytes => ∃ later, bytes = chunk ++ later ∧ Yields clean rest later

variable {clean : Prop} {bytes more : List UInt8} {held : LineBuffer} {before : List UInt8}

theorem held_short (holds : held.Holds before) (short : before.length ≤ maxLoopRecordBytes) :
    held.buffer = before ∧ held.oversized = false := by
  unfold LineBuffer.Holds at holds
  rw [if_pos short] at holds
  rw [holds]
  exact ⟨rfl, rfl⟩

/-- The part of a chunk before its newline, or all of it, is a beginning of the line
that the bytes begin with. -/
theorem chunk_part_cases {chunk later : List UInt8} (remaining : Nat)
    (whole : bytes ++ newline :: more = chunk ++ later) (free : newline ∉ bytes) :
    (bytes.length < remaining → bytes.length < chunk.length →
      (chunk.take remaining).findIdx? (· = newline) = some bytes.length ∧
        chunk.take bytes.length = bytes ∧ more = chunk.drop (bytes.length + 1) ++ later) ∧
    (chunk.length ≤ bytes.length →
      (chunk.take remaining).findIdx? (· = newline) = none ∧
        newline ∉ chunk.take remaining) := by
  constructor
  · intro within inside
    have start : chunk.take bytes.length = bytes := by
      have same := congrArg (List.take bytes.length) whole
      rw [List.take_left, List.take_append_of_le_length (Nat.le_of_lt inside)] at same
      exact same.symm
    have rest : newline :: more = chunk.drop bytes.length ++ later := by
      have same := congrArg (List.drop bytes.length) whole
      rwa [List.drop_left, List.drop_append_of_le_length (Nat.le_of_lt inside)] at same
    have ended : chunk.drop bytes.length = newline :: chunk.drop (bytes.length + 1) := by
      rw [List.drop_eq_getElem_cons inside] at rest ⊢
      rw [(List.cons.inj rest).1.symm]
    refine ⟨?_, start, ?_⟩
    · have parts : chunk.take remaining = bytes ++
          newline :: (chunk.drop (bytes.length + 1)).take (remaining - (bytes.length + 1)) := by
        conv_lhs => rw [← List.take_append_drop bytes.length chunk, start, ended]
        obtain ⟨less, rfl⟩ : ∃ less, remaining = bytes.length + (less + 1) :=
          ⟨remaining - (bytes.length + 1), by omega⟩
        rw [List.take_length_add_append, List.take_succ_cons]
        congr 3
        omega
      have absent : bytes.findIdx? (· = newline) = none := by
        rw [List.findIdx?_eq_none_iff]
        intro byte member
        have other : byte ≠ newline := fun same => free (same ▸ member)
        simpa using other
      rw [parts, List.findIdx?_append, absent]
      simp [List.findIdx?_cons]
    · rw [ended] at rest
      exact (List.cons.inj rest).2
  · intro short
    have unended : newline ∉ chunk.take remaining := by
      intro member
      have shorter : (chunk.take remaining).length ≤ bytes.length := by
        rw [List.length_take]
        omega
      have same := congrArg (List.take (chunk.take remaining).length) whole
      have front : (chunk ++ later).take (chunk.take remaining).length = chunk.take remaining := by
        rw [List.take_append_of_le_length (by rw [List.length_take]; omega), List.length_take,
          List.take_eq_take_iff]
        omega
      rw [List.take_append_of_le_length shorter, front] at same
      rw [← same] at member
      exact free (List.mem_of_mem_take member)
    refine ⟨?_, unended⟩
    rw [List.findIdx?_eq_none_iff]
    intro byte member
    have other : byte ≠ newline := fun same => unended (same ▸ member)
    simpa using other

/-- A line that ends within the bytes that may be read is read completely, or a part
of it could not be read. -/
theorem read_line_complete {chunks : Chunks} {remaining : Nat} (holds : held.Holds before)
    (yields : Yields clean chunks (bytes ++ newline :: more)) (free : newline ∉ bytes)
    (short : (before ++ bytes).length ≤ maxLoopRecordBytes) (within : bytes.length < remaining) :
    (∃ rest, readBoundedLine chunks remaining held =
        .ok (.complete (before ++ bytes), rest, remaining - (bytes.length + 1)) ∧
      Yields clean rest more) ∨
    (¬ clean ∧ ∃ error, readBoundedLine chunks remaining held = .error error) := by
  induction chunks generalizing bytes remaining held before with
  | nil => exact absurd yields (by simp [Yields])
  | cons answer rest inductionHypothesis =>
    have unread : remaining ≠ 0 := by omega
    cases answer with
    | error error =>
      right
      exact ⟨yields, error, by rw [readBoundedLine, if_neg unread]⟩
    | ok chunk =>
      obtain ⟨later, whole, yields⟩ := yields
      rw [readBoundedLine, if_neg unread]
      split
      · rename_i blank
        rw [List.isEmpty_iff.mp blank, List.nil_append] at whole
        rw [← whole] at yields
        exact inductionHypothesis holds yields free short within
      · dsimp only
        by_cases inside : bytes.length < chunk.length
        · obtain ⟨found, start, left⟩ := (chunk_part_cases remaining whole free).1 within inside
          have taken : (chunk.take remaining).take bytes.length = bytes := by
            rw [List.take_take, Nat.min_eq_left (Nat.le_of_lt within), start]
          obtain ⟨buffer, fits⟩ := held_short (holds.extend bytes) short
          rw [found]
          dsimp only
          rw [taken, fits, buffer]
          left
          exact ⟨_, rfl, later, left, yields⟩
        · obtain ⟨absent, unended⟩ :=
            (chunk_part_cases remaining whole free).2 (Nat.le_of_not_lt inside)
          have all : chunk.take remaining = chunk := List.take_of_length_le (by omega)
          rw [all] at unended
          rw [absent, all]
          dsimp only
          rw [if_neg (Nat.lt_irrefl _)]
          obtain ⟨others, rfl, left⟩ := Lines.chunk_in_line unended whole.symm
          rw [left] at yields
          rw [List.length_append] at within
          rw [← List.append_assoc] at short
          have fewer : others.length < remaining - chunk.length := by omega
          have outcome := inductionHypothesis (holds.extend chunk) yields
            (fun member => free (List.mem_append_right _ member)) short fewer
          rwa [List.append_assoc, Nat.sub_sub, ← Nat.add_assoc, ← List.length_append] at outcome

/-- Bytes without a newline are not read as a complete line. -/
theorem read_line_incomplete {chunks : Chunks} {remaining : Nat}
    (yields : Yields clean chunks (bytes ++ more)) (free : newline ∉ bytes)
    (short : remaining ≤ bytes.length) (line : List UInt8) (rest : Chunks) (left : Nat) :
    readBoundedLine chunks remaining held ≠ .ok (.complete line, rest, left) := by
  induction chunks generalizing bytes remaining held with
  | nil =>
    rw [readBoundedLine]
    split
    · split <;> simp
    · simp
  | cons answer others inductionHypothesis =>
    cases answer with
    | error error =>
      rw [readBoundedLine]
      split
      · split <;> simp
      · simp
    | ok chunk =>
      obtain ⟨later, whole, yields⟩ := yields
      rw [readBoundedLine]
      split
      · split <;> simp
      · split
        · rename_i blank
          rw [List.isEmpty_iff.mp blank, List.nil_append] at whole
          rw [← whole] at yields
          exact inductionHypothesis yields free short
        · have front : chunk.take remaining <+: bytes ++ more := by
            rw [whole]
            exact (List.take_prefix _ _).trans (List.prefix_append _ _)
          have start : chunk.take remaining <+: bytes :=
            List.prefix_of_prefix_length_le front (List.prefix_append _ _)
              (by rw [List.length_take]; omega)
          have absent : (chunk.take remaining).findIdx? (· = newline) = none := by
            rw [List.findIdx?_eq_none_iff]
            intro byte member
            have other : byte ≠ newline := fun same => free (same ▸ start.subset member)
            simpa using other
          dsimp only
          rw [absent]
          dsimp only
          split
          · split <;> simp
          · rename_i untaken
            rw [List.length_take] at untaken
            have all : chunk.take remaining = chunk := List.take_of_length_le (by omega)
            rw [all] at start ⊢
            obtain ⟨following, rfl⟩ := start
            rw [List.append_assoc, List.append_cancel_left_eq] at whole
            rw [← whole] at yields
            rw [List.length_append] at short
            exact inductionHypothesis yields
              (fun member => free (List.mem_append_right _ member)) (by omega)

end Reading

section Pages

variable (request : PageRequest) (times : Option (Times LoopId))

/-- A line as the loader accepts it. -/
structure StoredLine.WellFormed (externals : Externals LoopId Payload Replay Digest)
    (line : StoredLine LoopId Payload Replay) : Prop where
  parsed : parseLine externals line.bytes = some (line.record, line.items)
  oneLine : newline ∉ line.bytes
  present : line.bytes ≠ []

/-- The parts of a page from lines that begin at an item: the records that lie in
the range are added. -/
def gather : PageParts LoopId Payload Replay → Nat →
    List (StoredLine LoopId Payload Replay) → PageParts LoopId Payload Replay
  | parts, _, [] => parts
  | parts, start, line :: rest =>
    let bound := request.itemOffset + request.itemLimit
    let parts :=
      if request.itemOffset < start + line.items.length ∧ start < bound then
        appendPageRecord pages parts line.record line.items start request.itemOffset bound times
      else parts
    gather parts (start + line.items.length) rest

/-- The page of a history that ends with these lines. -/
def pageOf (shown : List (StoredLine LoopId Payload Replay)) :
    HistoryReadPage LoopId Payload Replay :=
  { parts := gather pages request times .empty 0 shown
    capturedEnd := byteCount shown
    revision := pages.digestHex (digestOf externals shown)
    trailingIncomplete := false
    totalItems := itemCount shown }

/-- The lines that a request asks for: all of them, or those that hold the visible
items, or those up to the pinned end with the pinned revision. -/
structure Shows (lines shown : List (StoredLine LoopId Payload Replay)) : Prop where
  together : request.capturedEnd.isSome = request.expectedRevision.isSome
  beginning : shown <+: lines
  whole : request.capturedEnd = none → request.visibleItemCount = none → shown = lines
  visible : request.capturedEnd = none → ∀ cap ∈ request.visibleItemCount, itemCount shown = cap
  pinned : ∀ captured ∈ request.capturedEnd, byteCount shown = captured
  covered : ∀ cap ∈ request.visibleItemCount, itemCount shown ≤ cap
  revised : ∀ expected ∈ request.expectedRevision,
    pages.digestHex (digestOf externals shown) = expected

/-- Limits that a history of these lines does not reach. -/
structure Ample (limits : HistoryScanLimits) (lines : List (StoredLine LoopId Payload Replay)) :
    Prop where
  count : lines.length ≤ limits.maxLines
  size : byteCount lines + maxLoopRecordBytes ≤ limits.maxBytes

/-- The answers for a file of these lines that is read from an offset: it has the
length of the lines, and reading yields their bytes and whatever is appended in
the meantime. -/
structure Answers (clean : Prop) (lines : List (StoredLine LoopId Payload Replay)) (offset : Nat)
    (answers : FileAnswers) : Prop where
  length : ∀ length, answers.length = .ok length → length = byteCount lines
  chunks : ∃ more, Yields clean answers.chunks ((fileOf lines).drop offset ++ more)
  answered : clean → (∃ length, answers.length = .ok length) ∧ answers.checked = .ok () ∧
    answers.opened = .ok ()

variable {externals pages request times}
  {lines shown done before after : List (StoredLine LoopId Payload Replay)}
  {line : StoredLine LoopId Payload Replay}

/-- A failed answer is not a clean one. -/
theorem Answers.unclean {clean : Prop} {offset : Nat} {answers : FileAnswers}
    (answered : Answers clean lines offset answers) {error : StoreError}
    (failed : answers.length = .error error ∨ answers.checked = .error error ∨
      answers.opened = .error error) : ¬ clean := by
  intro clean
  obtain ⟨⟨length, known⟩, checked, opened⟩ := answered.answered clean
  rcases failed with failed | failed | failed
  · rw [failed] at known
    cases known
  · rw [failed] at checked
    cases checked
  · rw [failed] at opened
    cases opened

/-- A line that `append_loop` writes is well-formed. -/
theorem written_well_formed (lawful : externals.Lawful) (good : line.Good externals) :
    line.WellFormed externals :=
  ⟨parse_written lawful good, lawful.oneLine line.record line.bytes good.written,
    written_nonempty lawful good⟩

theorem StoredLine.WellFormed.fits (formed : line.WellFormed externals) :
    line.bytes.length ≤ maxLoopRecordBytes := by
  by_contra long
  have parsed := formed.parsed
  rw [parseLine, if_neg long] at parsed
  cases parsed

theorem StoredLine.WellFormed.read (formed : line.WellFormed externals) :
    readRecord externals line.bytes = some line.record ∧
      normalizeHistory externals line.record.items = some line.items := by
  have parsed := formed.parsed
  rw [parseLine, if_pos formed.fits] at parsed
  obtain ⟨record, read, normal⟩ := Option.bind_eq_some_iff.mp parsed
  obtain ⟨normalized, normalizes, same⟩ := Option.map_eq_some_iff.mp normal
  obtain ⟨rfl, rfl⟩ := Prod.mk.inj same
  exact ⟨read, normalizes⟩

theorem StoredLine.WellFormed.decodes (formed : line.WellFormed externals) :
    decodeLine externals line.bytes = .ok (line.record, line.items) := by
  obtain ⟨read, normalizes⟩ := formed.read
  rw [decodeLine, read]
  simp [normalizes]

theorem gather_append (parts : PageParts LoopId Payload Replay) (start : Nat) :
    gather pages request times parts start (before ++ after) =
      gather pages request times (gather pages request times parts start before)
        (start + itemCount before) after := by
  induction before generalizing parts start with
  | nil => simp [gather]
  | cons line rest inductionHypothesis =>
    rw [List.cons_append, gather, inductionHypothesis, gather, item_count_cons, Nat.add_assoc]

/-- Lines outside the range add nothing. -/
theorem gather_outside (parts : PageParts LoopId Payload Replay) (start : Nat)
    (outside : start + itemCount lines ≤ request.itemOffset ∨
      request.itemOffset + request.itemLimit ≤ start) :
    gather pages request times parts start lines = parts := by
  induction lines generalizing start with
  | nil => rfl
  | cons line rest inductionHypothesis =>
    rw [item_count_cons] at outside
    rw [gather, if_neg (by omega)]
    apply inductionHypothesis
    omega

/-- Beginnings that a strictly growing total does not tell apart are the same. -/
theorem beginnings_agree (total : List (StoredLine LoopId Payload Replay) → Nat)
    (grows : ∀ before line after, before ++ line :: after <+: lines →
      total before < total (before ++ line :: after))
    (first : before <+: lines) (second : after <+: lines) (same : total before = total after) :
    before = after := by
  rcases List.prefix_or_prefix_of_prefix first second with inner | inner
  · obtain ⟨rest, rfl⟩ := inner
    cases rest with
    | nil => simp
    | cons line rest =>
      have more := grows before line rest second
      omega
  · obtain ⟨rest, rfl⟩ := inner
    cases rest with
    | nil => simp
    | cons line rest =>
      have more := grows after line rest first
      omega

/-- A strictly longer beginning has more bytes. -/
theorem byte_count_strict (first : before <+: lines) (second : after <+: lines)
    (same : byteCount before = byteCount after) : before = after := by
  apply beginnings_agree byteCount _ first second same
  intro before line after _
  rw [byte_count_append, byte_count_cons]
  omega

/-- A strictly longer beginning has more items, where every line has some. -/
theorem item_count_strict (filled : ∀ line ∈ lines, line.items ≠ []) (first : before <+: lines)
    (second : after <+: lines) (same : itemCount before = itemCount after) : before = after := by
  apply beginnings_agree itemCount _ first second same
  intro before line after inside
  have member : line ∈ lines := inside.subset (by simp)
  have some := List.length_pos_iff.mpr (filled line member)
  rw [item_count_append, item_count_cons]
  omega

theorem item_count_mono {before after : List (StoredLine LoopId Payload Replay)}
    (beginning : before <+: after) : itemCount before ≤ itemCount after := by
  obtain ⟨rest, rfl⟩ := beginning
  rw [item_count_append]
  omega

theorem byte_count_mono {before after : List (StoredLine LoopId Payload Replay)}
    (beginning : before <+: after) : byteCount before ≤ byteCount after := by
  obtain ⟨rest, rfl⟩ := beginning
  rw [byte_count_append]
  omega

/-- What a request asks for is determined, where every line has an item. -/
theorem Shows.unique (filled : ∀ line ∈ lines, line.items ≠ [])
    {other : List (StoredLine LoopId Payload Replay)}
    (shows : Shows externals pages request lines shown)
    (again : Shows externals pages request lines other) : shown = other := by
  cases pin : request.capturedEnd with
  | some captured =>
    apply byte_count_strict shows.beginning again.beginning
    rw [shows.pinned captured pin, again.pinned captured pin]
  | none =>
    cases capped : request.visibleItemCount with
    | none => rw [shows.whole pin capped, again.whole pin capped]
    | some cap =>
      apply item_count_strict filled shows.beginning again.beginning
      rw [shows.visible pin cap capped, again.visible pin cap capped]

end Pages

end MinicoreAgent.HistoryStore

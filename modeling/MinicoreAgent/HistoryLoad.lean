import MinicoreAgent.HistoryRecord

/-!
# Loading and repairing the history file

The loader assembles lines from whatever chunks the file is read in, stops
retaining a line that exceeds the limit, and decides at the end of each line what
to do with it. A line with its newline must be a record. The last line without
one is a record that only lacks its newline, or the torn rest of a write that is
cut off.

The chunked loop is shown to compute a function of the file's lines alone. From
this follow what any crash leaves readable, that a second load finds the repaired
file as the first one left it, and that no complete line is ever dropped.
-/
namespace MinicoreAgent.HistoryStore

variable {LoopId Payload Replay Digest : Type}
  (externals : Externals LoopId Payload Replay Digest)

/-- The line under assembly: retained bytes, their number, and whether the limit
was exceeded. -/
structure LineBuffer where
  buffer : List UInt8
  lineLen : Nat
  oversized : Bool
  deriving DecidableEq

namespace LineBuffer

def empty : LineBuffer := { buffer := [], lineLen := 0, oversized := false }

/-- Retain another part of the line unless that exceeds the limit. -/
def extend (line : LineBuffer) (part : List UInt8) : LineBuffer :=
  if line.oversized then line
  else if line.lineLen + part.length ≤ maxLoopRecordBytes then
    { line with buffer := line.buffer ++ part, lineLen := line.lineLen + part.length }
  else { line with oversized := true }

/-- The buffer holds exactly these bytes, or knows that they are too many. -/
def Holds (line : LineBuffer) (bytes : List UInt8) : Prop :=
  if bytes.length ≤ maxLoopRecordBytes then
    line = { buffer := bytes, lineLen := bytes.length, oversized := false }
  else line.oversized = true

theorem holds_empty : empty.Holds [] := rfl

/-- Extending the buffer keeps it true to the line. -/
theorem Holds.extend {line : LineBuffer} {bytes : List UInt8} (holds : line.Holds bytes)
    (part : List UInt8) : (line.extend part).Holds (bytes ++ part) := by
  unfold Holds at holds ⊢
  rw [List.length_append]
  by_cases within : bytes.length ≤ maxLoopRecordBytes
  · rw [if_pos within] at holds
    subst holds
    unfold LineBuffer.extend
    by_cases fits : bytes.length + part.length ≤ maxLoopRecordBytes
    · simp [fits]
    · simp [fits]
  · rw [if_neg within] at holds
    rw [if_neg (by omega)]
    simp [LineBuffer.extend, holds]

end LineBuffer

/-- Assemble one line from the chunks that reading yields; the first chunk is what
is left of the reader's buffer. The flag says whether the line is complete. -/
def assembleLine : List (List UInt8) → LineBuffer → LineBuffer × Bool × List (List UInt8)
  | [], line => (line, false, [])
  | chunk :: rest, line =>
    if chunk.isEmpty then assembleLine rest line
    else
      match chunk.findIdx? (· = newline) with
      | some position =>
        (line.extend (chunk.take position), true, chunk.drop (position + 1) :: rest)
      | none => assembleLine rest (line.extend chunk)

/-- The chunks in which a file is read: an empty one would be its end. -/
structure Reads (chunks : List (List UInt8)) (file : List UInt8) : Prop where
  whole : chunks.flatten = file
  nonempty : ∀ chunk ∈ chunks, chunk ≠ []

/-- Split a chunk at its first newline. -/
theorem chunk_split {chunk : List UInt8} {position : Nat}
    (found : chunk.findIdx? (· = newline) = some position) :
    newline ∉ chunk.take position ∧
      chunk = chunk.take position ++ newline :: chunk.drop (position + 1) := by
  obtain ⟨inside, here, before⟩ := List.findIdx?_eq_some_iff_getElem.mp found
  constructor
  · intro member
    obtain ⟨earlier, bound, same⟩ := List.mem_take_iff_getElem.mp member
    have smaller : earlier < position := by omega
    have other := before earlier smaller
    simp [same] at other
  · have same : chunk[position] = newline := by simpa using here
    rw [← same, ← List.drop_eq_getElem_cons inside, List.take_append_drop]

/-- A line that a newline ends is assembled completely, whatever the chunks. -/
theorem assemble_complete {chunks : List (List UInt8)} {line rest : List UInt8}
    (whole : chunks.flatten = line ++ newline :: rest) (free : newline ∉ line)
    {held : LineBuffer} {before : List UInt8} (holds : held.Holds before) :
    ∃ assembled later, assembleLine chunks held = (assembled, true, later) ∧
      assembled.Holds (before ++ line) ∧ later.flatten = rest := by
  induction chunks generalizing line held before with
  | nil => simp at whole
  | cons chunk others inductionHypothesis =>
    rw [List.flatten_cons] at whole
    rw [assembleLine]
    split
    · rename_i blank
      rw [List.isEmpty_iff.mp blank, List.nil_append] at whole
      exact inductionHypothesis whole free holds
    · split
      · rename_i position found
        obtain ⟨unended, parts⟩ := chunk_split found
        have shape : chunk.take position ++ newline :: (chunk.drop (position + 1) ++
            others.flatten) = line ++ newline :: rest := by
          rw [← whole]
          conv_rhs => rw [parts]
          simp
        obtain ⟨same, left⟩ := Lines.first_line_unique unended free shape
        refine ⟨_, _, rfl, ?_, ?_⟩
        · rw [← same]
          exact holds.extend _
        · simpa using left
      · rename_i absent
        have unended : newline ∉ chunk := by
          intro member
          have all := List.findIdx?_eq_none_iff.mp absent newline member
          simp at all
        obtain ⟨more, rfl, remaining⟩ := Lines.chunk_in_line unended whole
        have fewer : newline ∉ more := fun member => free (by simp [member])
        obtain ⟨assembled, later, ran, kept, left⟩ :=
          inductionHypothesis remaining fewer (holds.extend chunk)
        exact ⟨assembled, later, ran, by rwa [List.append_assoc] at kept, left⟩

/-- Without a newline the rest of the file is assembled as an incomplete line. -/
theorem assemble_incomplete {chunks : List (List UInt8)}
    (free : newline ∉ chunks.flatten) {held : LineBuffer} {before : List UInt8}
    (holds : held.Holds before) :
    ∃ assembled, assembleLine chunks held = (assembled, false, []) ∧
      assembled.Holds (before ++ chunks.flatten) := by
  induction chunks generalizing held before with
  | nil => exact ⟨held, rfl, by simpa using holds⟩
  | cons chunk others inductionHypothesis =>
    rw [List.flatten_cons] at free ⊢
    have later : newline ∉ others.flatten := fun member => free (by simp [member])
    rw [assembleLine]
    split
    · rename_i blank
      rw [List.isEmpty_iff.mp blank, List.nil_append]
      exact inductionHypothesis later holds
    · have absent : chunk.findIdx? (· = newline) = none := by
        rw [List.findIdx?_eq_none_iff]
        intro byte member
        have other : byte ≠ newline := by
          rintro rfl
          exact free (by simp [member])
        simpa using other
      rw [absent]
      obtain ⟨assembled, ran, kept⟩ := inductionHypothesis later (holds.extend chunk)
      exact ⟨assembled, ran, by rwa [List.append_assoc] at kept⟩

section Parsing

/-- The record of an assembled line and its normalized items. -/
def LineBuffer.parse (line : LineBuffer) :
    Option (StoredLoopRecord LoopId Payload Replay × List (HistoryItem Payload Replay)) :=
  if line.oversized then none
  else
    (readRecord externals line.buffer).bind fun record =>
      (normalizeHistory externals record.items).map fun normalized => (record, normalized)

/-- The record of a line of the file, if the line is not malformed. -/
def parseLine (bytes : List UInt8) :
    Option (StoredLoopRecord LoopId Payload Replay × List (HistoryItem Payload Replay)) :=
  if bytes.length ≤ maxLoopRecordBytes then
    (readRecord externals bytes).bind fun record =>
      (normalizeHistory externals record.items).map fun normalized => (record, normalized)
  else none

variable {externals}

/-- An assembled line is parsed as the bytes it holds. -/
theorem parse_holds {line : LineBuffer} {bytes : List UInt8} (holds : line.Holds bytes) :
    line.parse externals = parseLine externals bytes := by
  unfold LineBuffer.Holds at holds
  unfold parseLine
  split at holds
  · rename_i fits
    subst holds
    simp [LineBuffer.parse, fits]
  · rename_i long
    simp [LineBuffer.parse, holds, long]

/-- A line that parses is held as it is. -/
theorem holds_buffer {line : LineBuffer} {bytes : List UInt8} (holds : line.Holds bytes)
    {record : StoredLoopRecord LoopId Payload Replay}
    {normalized : List (HistoryItem Payload Replay)}
    (parsed : parseLine externals bytes = some (record, normalized)) :
    line.buffer = bytes := by
  unfold LineBuffer.Holds at holds
  split at holds
  · rw [holds]
  · rename_i long
    simp [parseLine, long] at parsed

/-- Nothing was retained of a line exactly when it is empty. -/
theorem holds_blank {line : LineBuffer} {bytes : List UInt8} (holds : line.Holds bytes) :
    (decide (line.lineLen = 0) && !line.oversized) = decide (bytes = []) := by
  unfold LineBuffer.Holds at holds
  split at holds
  · subst holds
    simp
  · rename_i long
    have present : bytes ≠ [] := by
      rintro rfl
      simp at long
    simp [holds, present]

/-- A written line parses to its record. -/
theorem parse_written (lawful : externals.Lawful) {line : StoredLine LoopId Payload Replay}
    (good : line.Good externals) :
    parseLine externals line.bytes = some (line.record, line.items) := by
  simp [parseLine, good.fits, read_record_written lawful good.valid good.written,
    good.normalizes]

/-- A torn part of a written line does not. -/
theorem parse_torn (lawful : externals.Lawful) {line : StoredLine LoopId Payload Replay}
    (good : line.Good externals) {size : Nat} (short : size < line.bytes.length) :
    parseLine externals (line.bytes.take size) = none := by
  have apart : line.bytes.take size ≠ line.bytes := by
    intro same
    have lengths := congrArg List.length same
    rw [List.length_take] at lengths
    omega
  have refused := lawful.unfinished line.record line.bytes _ good.written
    (List.take_prefix size line.bytes) apart
  simp [parseLine, readRecord, refused]

theorem written_nonempty (lawful : externals.Lawful) {line : StoredLine LoopId Payload Replay}
    (good : line.Good externals) : line.bytes ≠ [] := by
  intro empty
  have back := lawful.readsBack line.record line.bytes good.written
  rw [empty, lawful.refusesEmpty] at back
  cases back

/-- The written lines all of whose bytes are within the first `size` bytes of the
file; the newline of the last one may be missing. -/
def whollyPresent : List (StoredLine LoopId Payload Replay) → Nat →
    List (StoredLine LoopId Payload Replay)
  | [], _ => []
  | line :: rest, size =>
    if line.bytes.length ≤ size then
      line :: whollyPresent rest (size - (line.bytes.length + 1))
    else []

/-- Nothing is wholly present in no bytes. -/
theorem wholly_present_zero (lawful : externals.Lawful)
    {lines : List (StoredLine LoopId Payload Replay)}
    (good : ∀ line ∈ lines, line.Good externals) : whollyPresent lines 0 = [] := by
  cases lines with
  | nil => rfl
  | cons line rest =>
    have present := List.length_pos_iff.mpr (written_nonempty lawful (good line (by simp)))
    simp only [whollyPresent]
    rw [if_neg (by omega)]

/-- What is wholly present is a beginning of what was written. -/
theorem wholly_present_prefix (lines : List (StoredLine LoopId Payload Replay)) (size : Nat) :
    whollyPresent lines size <+: lines := by
  induction lines generalizing size with
  | nil => exact List.prefix_rfl
  | cons line rest inductionHypothesis =>
    rw [whollyPresent]
    split
    · exact List.prefix_cons_inj line |>.mpr (inductionHypothesis _)
    · exact List.nil_prefix

end Parsing

section Loading

variable [DecidableEq LoopId]

/-- Acceptance times by loop and user item. -/
abbrev Times (LoopId : Type) := LoopId × Nat → Option String

/-- The state of the loader, and what it returns. -/
structure Loaded (LoopId Payload Replay Digest : Type) where
  items : List (HistoryItem Payload Replay)
  times : Times LoopId
  lastCompleteOffset : Nat
  index : List (HistoryLine LoopId Digest)

def Loaded.empty : Loaded LoopId Payload Replay Digest :=
  { items := [], times := fun _ => none, lastCompleteOffset := 0, index := [] }

/-- Insert the times of the user items of one record. -/
def insertTimes (loopId : LoopId) (userTimes : List (Option String)) :
    List (HistoryItem Payload Replay) → Nat → Times LoopId → Times LoopId
  | [], _, times => times
  | .user _ :: rest, occurrence, times =>
    let inserted :=
      match userTimes[occurrence]? with
      | some (some time) => Function.update times (loopId, occurrence) (some time)
      | _ => times
    insertTimes loopId userTimes rest (occurrence + 1) inserted
  | _ :: rest, occurrence, times => insertTimes loopId userTimes rest occurrence times

/-- Take one record into the history, the times and the index. -/
def Loaded.enter (loaded : Loaded LoopId Payload Replay Digest) (bytes : List UInt8)
    (record : StoredLoopRecord LoopId Payload Replay)
    (normalized : List (HistoryItem Payload Replay)) : Loaded LoopId Payload Replay Digest :=
  let userTimes := (record.userTimes.filter (·.length ≤ record.userCount)).getD []
  { items := loaded.items ++ normalized
    times := insertTimes record.loopId userTimes record.items 0 loaded.times
    lastCompleteOffset := loaded.lastCompleteOffset + (bytes.length + 1)
    index := indexLine externals loaded.index (bytes ++ [newline]) record normalized.length }

/-- The line loop of `load_history`: the result and the file it leaves. The fuel
bounds the number of lines. -/
def loadLines : Nat → List UInt8 → List (List UInt8) →
    Loaded LoopId Payload Replay Digest →
    Except StoreError (Loaded LoopId Payload Replay Digest) × List UInt8
  | 0, file, _, _ => (.error .unavailable, file)
  | fuel + 1, file, chunks, loaded =>
    let (line, isComplete, rest) := assembleLine chunks .empty
    if !isComplete && line.lineLen = 0 && !line.oversized then (.ok loaded, file)
    else
      match line.parse externals with
      | none =>
        if isComplete then (.error .corrupt, file)
        else (.ok loaded, setLen file loaded.lastCompleteOffset)
      | some (record, normalized) =>
        let entered := loaded.enter externals line.buffer record normalized
        if isComplete then loadLines fuel file rest entered
        else (.ok entered, file ++ [newline])

/-- `load_history` of a file that is read in some chunks. -/
def loadHistory (file : List UInt8) (chunks : List (List UInt8)) :
    Except StoreError (Loaded LoopId Payload Replay Digest) × List UInt8 :=
  loadLines externals (chunks.flatten.length + 1) file chunks .empty

/-- All records of complete lines, or nothing if one is malformed. -/
def enterLines : List (List UInt8) → Loaded LoopId Payload Replay Digest →
    Option (Loaded LoopId Payload Replay Digest)
  | [], loaded => some loaded
  | line :: rest, loaded =>
    (parseLine externals line).bind fun (record, normalized) =>
      enterLines rest (loaded.enter externals line record normalized)

/-- What loading amounts to, told by the lines of the file: every complete line
must be a record, and the tail is a record without its newline or is cut off. -/
def recoverHistory (lines : List (List UInt8)) (tail : List UInt8) :
    Except StoreError (Loaded LoopId Payload Replay Digest) × List UInt8 :=
  match enterLines externals lines .empty with
  | none => (.error .corrupt, Lines.join newline lines ++ tail)
  | some loaded =>
    if tail = [] then (.ok loaded, Lines.join newline lines)
    else
      match parseLine externals tail with
      | some (record, normalized) =>
        (.ok (loaded.enter externals tail record normalized),
          Lines.join newline (lines ++ [tail]))
      | none => (.ok loaded, Lines.join newline lines)

variable {externals}

/-- The loop over the rest of a file, after the lines before it were entered. -/
theorem load_lines_rest {fuel : Nat} {file : List UInt8} {chunks : List (List UInt8)}
    {loaded : Loaded LoopId Payload Replay Digest} {before lines : List (List UInt8)}
    {tail : List UInt8} (whole : file = Lines.join newline before ++ chunks.flatten)
    (rest : chunks.flatten = Lines.join newline lines ++ tail)
    (free : ∀ line ∈ lines, newline ∉ line) (unended : newline ∉ tail)
    (enough : lines.length < fuel)
    (offset : loaded.lastCompleteOffset = (Lines.join newline before).length) :
    loadLines externals fuel file chunks loaded =
      match enterLines externals lines loaded with
      | none => (.error .corrupt, file)
      | some after =>
        if tail = [] then (.ok after, file)
        else
          match parseLine externals tail with
          | some (record, normalized) =>
            (.ok (after.enter externals tail record normalized), file ++ [newline])
          | none => (.ok after, Lines.join newline (before ++ lines)) := by
  induction lines generalizing fuel chunks loaded before with
  | nil =>
    obtain ⟨fuel, rfl⟩ : ∃ less, fuel = less + 1 := ⟨fuel - 1, by omega⟩
    simp only [Lines.join_nil, List.nil_append] at rest
    obtain ⟨assembled, ran, holds⟩ :=
      assemble_incomplete (by rwa [rest]) LineBuffer.holds_empty
    rw [List.nil_append, rest] at holds
    have blank := holds_blank holds
    simp only [loadLines, ran, Bool.not_false, Bool.true_and, blank, enterLines,
      List.append_nil]
    by_cases none : tail = []
    · simp [none]
    · simp only [none, decide_false, Bool.false_eq_true, if_false, parse_holds holds]
      cases parsed : parseLine externals tail with
      | none =>
        rw [rest] at whole
        simp only [offset, whole, set_len_append]
      | some pair =>
        rw [holds_buffer holds parsed]
  | cons line others inductionHypothesis =>
    obtain ⟨fuel, rfl⟩ : ∃ less, fuel = less + 1 := ⟨fuel - 1, by omega⟩
    simp only [Lines.join_cons, List.append_assoc, List.cons_append] at rest
    obtain ⟨assembled, later, ran, holds, left⟩ :=
      assemble_complete rest (free line (by simp)) LineBuffer.holds_empty
    rw [List.nil_append] at holds
    simp only [loadLines, ran, Bool.not_true, Bool.false_and, Bool.false_eq_true, if_false,
      if_true, parse_holds holds, enterLines]
    cases parsed : parseLine externals line with
    | none => rfl
    | some pair =>
      have joined : Lines.join newline (before ++ [line]) =
          Lines.join newline before ++ (line ++ [newline]) := by
        simp [Lines.join_append]
      have next := inductionHypothesis
        (by rw [whole, rest, joined, left]; simp) left
        (fun other member => free other (by simp [member])) (by simpa using enough)
        (show (loaded.enter externals line pair.1 pair.2).lastCompleteOffset =
          (Lines.join newline (before ++ [line])).length by
            rw [joined]; simp [Loaded.enter, offset])
      rw [holds_buffer holds parsed]
      refine next.trans ?_
      simp

/-- However a file is read, loading it is recovering its lines. -/
theorem load_history_lines {file : List UInt8} {chunks : List (List UInt8)}
    (reads : Reads chunks file) :
    loadHistory externals file chunks =
      recoverHistory externals (Lines.split newline file).1 (Lines.split newline file).2 := by
  obtain ⟨free, unended⟩ := Lines.split_free newline file
  have joined := Lines.join_split newline file
  have enough : (Lines.split newline file).1.length < chunks.flatten.length + 1 := by
    have short := Lines.length_le_join newline (Lines.split newline file).1
    have total := congrArg List.length joined
    rw [List.length_append] at total
    rw [reads.whole]
    omega
  have ran : loadLines externals (chunks.flatten.length + 1) file chunks .empty = _ :=
    load_lines_rest (show file = Lines.join newline [] ++ chunks.flatten by simp [reads.whole])
      (reads.whole.trans joined.symm) free unended enough rfl
  rw [loadHistory, ran, recoverHistory]
  cases entered : enterLines externals (Lines.split newline file).1 .empty with
  | none => simp [joined]
  | some loaded =>
    by_cases none : (Lines.split newline file).2 = []
    · rw [none, List.append_nil] at joined
      simp [none, joined]
    · cases parsed : parseLine externals (Lines.split newline file).2 with
      | none => simp [none]
      | some pair =>
        have ended : Lines.join newline ((Lines.split newline file).1 ++
            [(Lines.split newline file).2]) = file ++ [newline] := by
          conv_rhs => rw [← joined]
          simp [Lines.join_append]
        simp [none, ended]

/-- Complete lines are entered one after the other. -/
theorem enter_lines_append (first second : List (List UInt8))
    (loaded : Loaded LoopId Payload Replay Digest) :
    enterLines externals (first ++ second) loaded =
      (enterLines externals first loaded).bind (enterLines externals second) := by
  induction first generalizing loaded with
  | nil => rfl
  | cons line rest inductionHypothesis =>
    simp only [List.cons_append, enterLines, Option.bind_assoc]
    congr 1
    funext pair
    exact inductionHypothesis _

/-- Complete lines are refused exactly where one of them is malformed. -/
theorem enter_lines_none_iff (lines : List (List UInt8))
    (loaded : Loaded LoopId Payload Replay Digest) :
    enterLines externals lines loaded = none ↔
      ∃ line ∈ lines, parseLine externals line = none := by
  induction lines generalizing loaded with
  | nil => simp [enterLines]
  | cons line rest inductionHypothesis =>
    cases parsed : parseLine externals line with
    | none => simp [enterLines, parsed]
    | some pair => simp [enterLines, parsed, inductionHypothesis]

/-- A file that was loaded is left as whole lines, all its complete ones among
them, which amount to what was returned. -/
theorem load_history_repairs {file repaired : List UInt8} {chunks : List (List UInt8)}
    {loaded : Loaded LoopId Payload Replay Digest} (reads : Reads chunks file)
    (done : loadHistory externals file chunks = (.ok loaded, repaired)) :
    ∃ lines, repaired = Lines.join newline lines ∧ (∀ line ∈ lines, newline ∉ line) ∧
      (Lines.split newline file).1 <+: lines ∧
      enterLines externals lines .empty = some loaded := by
  obtain ⟨free, unended⟩ := Lines.split_free newline file
  rw [load_history_lines reads, recoverHistory] at done
  split at done
  · cases done
  · rename_i complete entered
    split at done
    · obtain ⟨same, rfl⟩ := Prod.mk.inj done
      obtain rfl := Except.ok.inj same
      exact ⟨_, rfl, free, List.prefix_rfl, entered⟩
    · split at done
      · rename_i record normalized parsed
        obtain ⟨same, rfl⟩ := Prod.mk.inj done
        obtain rfl := Except.ok.inj same
        refine ⟨_, rfl, ?_, List.prefix_append _ _, ?_⟩
        · intro line member
          rcases List.mem_append.mp member with old | last
          · exact free line old
          · exact List.mem_singleton.mp last ▸ unended
        · rw [enter_lines_append, entered]
          simp [enterLines, parsed]
      · obtain ⟨same, rfl⟩ := Prod.mk.inj done
        obtain rfl := Except.ok.inj same
        exact ⟨_, rfl, free, List.prefix_rfl, entered⟩

/-- A second load finds the repaired file as the first one left it. -/
theorem reload_same {file repaired : List UInt8} {chunks again : List (List UInt8)}
    {loaded : Loaded LoopId Payload Replay Digest} (reads : Reads chunks file)
    (done : loadHistory externals file chunks = (.ok loaded, repaired))
    (rereads : Reads again repaired) :
    loadHistory externals repaired again = (.ok loaded, repaired) := by
  obtain ⟨lines, rfl, free, _, entered⟩ := load_history_repairs reads done
  have split : Lines.split newline (Lines.join newline lines) = (lines, []) := by
    simpa using Lines.split_join free (show newline ∉ ([] : List UInt8) by simp)
  rw [load_history_lines rereads, split]
  simp [recoverHistory, entered]

variable (externals) in
/-- The history, times and index of written lines. -/
def Loaded.ofLines (lines : List (StoredLine LoopId Payload Replay)) :
    Loaded LoopId Payload Replay Digest :=
  lines.foldl (fun loaded line => loaded.enter externals line.bytes line.record line.items) .empty

/-- A cut through written lines leaves whole lines and a part that is nothing, torn,
or the next line without its newline. -/
theorem cut_written (lawful : externals.Lawful)
    {lines : List (StoredLine LoopId Payload Replay)}
    (good : ∀ line ∈ lines, line.Good externals) (size : Nat)
    (loaded : Loaded LoopId Payload Replay Digest) :
    ∃ whole part, Lines.cut (lines.map StoredLine.bytes) size = (whole, part) ∧
      (∀ line ∈ whole, newline ∉ line) ∧ newline ∉ part ∧
      ∃ after, enterLines externals whole loaded = some after ∧
        (((part = [] ∨ parseLine externals part = none) ∧
            whole = (whollyPresent lines size).map StoredLine.bytes ∧
            after = (whollyPresent lines size).foldl
              (fun loaded line => loaded.enter externals line.bytes line.record line.items)
              loaded) ∨
          ∃ last : StoredLine LoopId Payload Replay, part = last.bytes ∧ last.Good externals ∧
            whole ++ [part] = (whollyPresent lines size).map StoredLine.bytes ∧
            after.enter externals part last.record last.items =
              (whollyPresent lines size).foldl
                (fun loaded line => loaded.enter externals line.bytes line.record line.items)
                loaded) := by
  induction lines generalizing size loaded with
  | nil => exact ⟨[], [], rfl, by simp, by simp, loaded, rfl, .inl ⟨.inl rfl, rfl, rfl⟩⟩
  | cons line rest inductionHypothesis =>
    have own := good line (by simp)
    have others : ∀ other ∈ rest, other.Good externals := fun other member =>
      good other (by simp [member])
    have free := lawful.oneLine line.record line.bytes own.written
    rw [List.map_cons, Lines.cut]
    rcases Nat.lt_trichotomy line.bytes.length size with inside | same | short
    · obtain ⟨whole, part, cut, ended, unended, after, entered, cases⟩ :=
        inductionHypothesis others (size - (line.bytes.length + 1))
          (loaded.enter externals line.bytes line.record line.items)
      refine ⟨line.bytes :: whole, part, by simp [inside, cut], ?_, unended, after, ?_, ?_⟩
      · intro other member
        rcases List.mem_cons.mp member with rfl | old
        · exact free
        · exact ended other old
      · simp [enterLines, parse_written lawful own, entered]
      · rw [whollyPresent, if_pos (Nat.le_of_lt inside)]
        rcases cases with ⟨torn, rfl, rfl⟩ | ⟨last, rfl, fine, ended, rest⟩
        · exact .inl ⟨torn, rfl, rfl⟩
        · exact .inr ⟨last, rfl, fine, by simp [← ended], rest⟩
    · subst same
      have left : line.bytes.length - (line.bytes.length + 1) = 0 := by omega
      rw [whollyPresent, if_pos (Nat.le_refl _), left, wholly_present_zero lawful others]
      exact ⟨[], line.bytes, by simp, by simp, free, loaded, rfl,
        .inr ⟨line, rfl, own, by simp, rfl⟩⟩
    · rw [whollyPresent, if_neg (by omega), if_neg (by omega)]
      refine ⟨[], line.bytes.take size, rfl, by simp, ?_, loaded, rfl,
        .inl ⟨.inr (parse_torn lawful own short), rfl, rfl⟩⟩
      exact fun member => free (List.mem_of_mem_take member)

/-- The history of written lines is the history of each in turn. -/
theorem of_lines_items (lines : List (StoredLine LoopId Payload Replay)) :
    (Loaded.ofLines externals lines).items = lines.flatMap StoredLine.items := by
  have enters (loaded : Loaded LoopId Payload Replay Digest) :
      (lines.foldl (fun loaded line =>
        loaded.enter externals line.bytes line.record line.items) loaded).items =
        loaded.items ++ lines.flatMap StoredLine.items := by
    induction lines generalizing loaded with
    | nil => simp
    | cons line rest inductionHypothesis =>
      rw [List.foldl_cons, inductionHypothesis]
      simp [Loaded.enter]
  exact enters .empty

/-- Its index is the one the store kept while it wrote the lines. -/
theorem of_lines_index (lines : List (StoredLine LoopId Payload Replay)) :
    (Loaded.ofLines externals lines).index = indexLines externals lines [] := by
  have enters (loaded : Loaded LoopId Payload Replay Digest) :
      (lines.foldl (fun loaded line =>
        loaded.enter externals line.bytes line.record line.items) loaded).index =
        indexLines externals lines loaded.index := by
    induction lines generalizing loaded with
    | nil => rfl
    | cons line rest inductionHypothesis =>
      rw [List.foldl_cons, inductionHypothesis]
      rfl
  exact enters .empty

/-- Loading the first bytes of written lines. -/
theorem load_cut (lawful : externals.Lawful) {lines : List (StoredLine LoopId Payload Replay)}
    (good : ∀ line ∈ lines, line.Good externals) {size : Nat} {chunks : List (List UInt8)}
    (reads : Reads chunks
      ((Lines.join newline (lines.map StoredLine.bytes)).take size)) :
    loadHistory externals ((Lines.join newline (lines.map StoredLine.bytes)).take size) chunks =
      (.ok (Loaded.ofLines externals (whollyPresent lines size)),
        Lines.join newline ((whollyPresent lines size).map StoredLine.bytes)) := by
  obtain ⟨whole, part, cut, free, unended, after, entered, result⟩ :=
    cut_written lawful good size (.empty : Loaded LoopId Payload Replay Digest)
  have taken := Lines.take_join newline (lines.map StoredLine.bytes) size
  rw [cut] at taken
  rw [load_history_lines reads, taken, Lines.split_join free unended]
  simp only [recoverHistory, entered]
  rcases result with ⟨nothing | torn, rfl, rfl⟩ | ⟨last, rfl, fine, lines, loaded⟩
  · simp [nothing, Loaded.ofLines]
  · simp [torn, Loaded.ofLines]
  · simp only [written_nonempty lawful fine, if_false, parse_written lawful fine, loaded, lines,
      Loaded.ofLines]

/-- A file with a malformed complete line is refused as it is. -/
theorem malformed_refused {file : List UInt8} {chunks : List (List UInt8)}
    (reads : Reads chunks file)
    (malformed : ∃ line ∈ (Lines.split newline file).1, parseLine externals line = none) :
    loadHistory externals file chunks = (.error .corrupt, file) := by
  have refused := (enter_lines_none_iff (Lines.split newline file).1
    (.empty : Loaded LoopId Payload Replay Digest)).mpr malformed
  rw [load_history_lines reads]
  simp [recoverHistory, refused, Lines.join_split]

/-- A file without one is loaded with all its complete lines, and what is left of
it loads to the same. -/
theorem well_formed_loaded {file : List UInt8} {chunks : List (List UInt8)}
    (reads : Reads chunks file)
    (formed : ∀ line ∈ (Lines.split newline file).1, parseLine externals line ≠ none) :
    ∃ complete loaded repaired,
      enterLines externals (Lines.split newline file).1 .empty = some complete ∧
      loadHistory externals file chunks = (.ok loaded, repaired) ∧
      complete.items <+: loaded.items ∧ complete.index <+: loaded.index ∧
      Lines.join newline (Lines.split newline file).1 <+: repaired ∧
      ∀ again, Reads again repaired →
        loadHistory externals repaired again = (.ok loaded, repaired) := by
  cases entered : enterLines externals (Lines.split newline file).1
      (.empty : Loaded LoopId Payload Replay Digest) with
  | none =>
    obtain ⟨line, member, none⟩ := (enter_lines_none_iff _ _).mp entered
    exact absurd none (formed line member)
  | some complete =>
    have again (loaded : Loaded LoopId Payload Replay Digest) (repaired : List UInt8)
        (done : loadHistory externals file chunks = (.ok loaded, repaired))
        (chunks : List (List UInt8)) (rereads : Reads chunks repaired) :
        loadHistory externals repaired chunks = (.ok loaded, repaired) :=
      reload_same reads done rereads
    have ran : loadHistory externals file chunks = _ := load_history_lines reads
    simp only [recoverHistory, entered] at ran
    split at ran
    · exact ⟨complete, complete, _, rfl, ran, List.prefix_rfl, List.prefix_rfl,
        List.prefix_rfl, again _ _ ran⟩
    · split at ran
      · rename_i record normalized parsed
        refine ⟨complete, _, _, rfl, ran, List.prefix_append _ _, List.prefix_append _ _, ?_,
          again _ _ ran⟩
        rw [Lines.join_append]
        exact List.prefix_append _ _
      · exact ⟨complete, complete, _, rfl, ran, List.prefix_rfl, List.prefix_rfl,
          List.prefix_rfl, again _ _ ran⟩

end Loading

section Sample

/-- The bytes of an ASCII text. -/
def ascii (text : String) : List UInt8 := text.toList.map fun character => character.toNat.toUInt8

theorem ascii_of_list (characters : List Char) :
    ascii (String.ofList characters) = characters.map fun character => character.toNat.toUInt8 := by
  rw [ascii, String.toList_ofList]

/-- A stored loop whose prompt is one character of two bytes. -/
def sampleBytes : List UInt8 :=
  ascii "\x7b\"loop_id\":\"lup_00000000000000000000000000000002\",\"outcome\":\x7b\"type\":" ++
    ascii "\"completed\"\x7d,\"items\":[\x7b\"type\":\"user\",\"data\":\x7b\"loop_id\":" ++
    ascii "\"lup_00000000000000000000000000000002\",\"kind\":\"prompt\",\"input\":\x7b" ++
    ascii "\"text\":\"" ++ [195, 169] ++
    ascii "\"\x7d\x7d\x7d],\"usage\":\x7b\"input_tokens\":1,\"output_tokens\":2," ++
    ascii "\"reasoning_tokens\":0\x7d,\"requests\":1,\"tool_rounds\":0," ++
    ascii "\"final_config_revision\":0,\"completed_at\":\"2026-01-02T03:04:05.000Z\"\x7d"

def sampleRecord : StoredLoopRecord Nat String Unit :=
  { loopId := 2, items := [.user "prompt"]
    usage := ⟨some 1, some 2, some 0, none, none, none⟩
    facts := "completed", userTimes := none, interrupted := none }

/-- The codec on that record alone, with the hashed bytes as their own digest. -/
def sampleExternals : Externals Nat String Unit (List UInt8) :=
  { admitsReasoning := fun _ _ => true
    validateHistoryReplay := fun _ _ => true
    toVec := fun record => if record = sampleRecord then some sampleBytes else none
    fromSlice := fun bytes => if bytes = sampleBytes then some sampleRecord else none
    newDigest := []
    update := fun digest bytes => digest ++ bytes }

/-- The text of the sample, evaluated once. -/
theorem sample_bytes : sampleBytes.length = 366 ∧ newline ∉ sampleBytes ∧
    sampleBytes[195]? = some 195 ∧ sampleBytes[196]? = some 169 := by
  delta sampleBytes
  -- Decoding a string literal is slow in the kernel, so each is spelled out first.
  repeat rw [ascii_of_list]
  decide +kernel

/-- That codec behaves as JSON does. -/
theorem sample_lawful : sampleExternals.Lawful where
  readsBack := by
    intro record bytes written
    simp only [sampleExternals] at written ⊢
    split at written
    · rename_i same
      rw [if_pos (Option.some.inj written).symm, same]
    · cases written
  oneLine := by
    intro record bytes written
    simp only [sampleExternals] at written
    split at written
    · obtain rfl := Option.some.inj written
      exact sample_bytes.2.1
    · cases written
  unfinished := by
    intro record bytes part written _ apart
    simp only [sampleExternals] at written ⊢
    split at written
    · obtain rfl := Option.some.inj written
      exact if_neg apart
    · cases written
  refusesEmpty := by
    have present : ([] : List UInt8) ≠ sampleBytes := by
      intro empty
      have length := sample_bytes.1
      rw [← empty] at length
      cases length
    unfold sampleExternals
    dsimp only
    rw [if_neg present]

/-- The record is written as its line. -/
theorem sample_encoded : encodeLoop sampleExternals sampleRecord =
    .ok ({ record := sampleRecord, bytes := sampleBytes, items := [.user "prompt"] }, true) := by
  have plain : normalizeHistory sampleExternals sampleRecord.items = some [.user "prompt"] := rfl
  have prepared : preparedRecord sampleRecord [.user "prompt"] = sampleRecord := rfl
  have timed : sampleRecord.userTimesAreValid = true := rfl
  have bytes : sampleExternals.toVec sampleRecord = some sampleBytes := by
    unfold sampleExternals
    dsimp only
    rw [if_pos rfl]
  have short : ¬ maxLoopRecordBytes < sampleBytes.length := by
    rw [sample_bytes.1]
    decide
  unfold encodeLoop
  rw [plain]
  dsimp only
  rw [prepared, if_pos timed, bytes]
  dsimp only
  rw [if_neg (fun wrong => short wrong.1), if_neg short]

/-- The record is written, a write is rolled back, and it is written again. -/
def sampleCalls : List (StoredLoopRecord Nat String Unit × WriteOutcome) :=
  [(sampleRecord, .written), (sampleRecord, .rolledBack 7), (sampleRecord, .written)]

/-- A crash inside the character of the second line. -/
def sampleSize : Nat := sampleBytes.length + 1 + 196

theorem sample_size : sampleSize = 563 := by
  -- Behind a name for the length, the text is not evaluated again.
  have size : ∃ length, length = sampleBytes.length ∧ sampleSize = length + 1 + 196 :=
    let length := sampleBytes.length
    ⟨length, rfl, rfl⟩
  obtain ⟨length, known, size⟩ := size
  rw [sample_bytes.1] at known
  rw [size, known]

/-- What is left of two lines of one length when the crash was in the second. -/
theorem wholly_present_first {first second : StoredLine Nat String Unit} {length size : Nat}
    (one : first.bytes.length = length) (other : second.bytes.length = length)
    (inside : length ≤ size) (short : size - (length + 1) < length) :
    whollyPresent [first, second] size = [first] := by
  rw [whollyPresent, one, if_pos inside, whollyPresent, other, if_neg (Nat.not_le.mpr short)]

/-- A record is written, rolled back once, and written again. -/
theorem stored_lines_retried {externals : Externals Nat String Unit (List UInt8)}
    {record : StoredLoopRecord Nat String Unit} {line : StoredLine Nat String Unit} {kept : Bool}
    {count : Nat} (encoded : encodeLoop externals record = .ok (line, kept)) :
    storedLines externals [(record, .written), (record, .rolledBack count), (record, .written)] =
      [line, line] := by
  simp [storedLines, storedLine, encoded]

theorem joined_pair_length {first second : StoredLine Nat String Unit} {length size : Nat}
    (one : first.bytes.length = length) (other : second.bytes.length = length)
    (sum : length + 1 + (length + 1) = size) :
    (Lines.join newline ([first, second].map StoredLine.bytes)).length = size := by
  simp [one, other]
  omega

end Sample

end MinicoreAgent.HistoryStore

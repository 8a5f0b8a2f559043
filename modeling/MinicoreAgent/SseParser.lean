import MinicoreAgent.Lib.Lines
import Mathlib.Algebra.GroupWithZero.Nat
import Mathlib.Data.List.Induction
import Mathlib.Data.List.Infix

/-!
# The event stream parser

The parser takes the bytes of a response as they arrive and queues the data of
each finished frame. A half line, a half frame and a carriage return whose line
feed may still come are carried from one chunk to the next.

The grammar says what the frames of a whole byte sequence are without any state:
lines are split off first, then blocks of lines at the empty ones. The parser's
fields after any bytes are read off the grammar's split of these bytes, so that
the chunks do not matter.
-/
namespace MinicoreAgent.Sse

def maxSseLineBytes : Nat := 1024 * 1024
def maxSseFrameBytes : Nat := 1024 * 1024
def maxQueuedSseFrames : Nat := 4096

def lineFeed : UInt8 := 10
def carriageReturn : UInt8 := 13
def colon : UInt8 := 58
def space : UInt8 := 32

/-- The bytes of `data:`. -/
def dataField : List UInt8 := [100, 97, 116, 97, 58]

/-- `slice::strip_prefix`. -/
def stripLead (lead bytes : List UInt8) : Option (List UInt8) :=
  if lead.isPrefixOf bytes then some (bytes.drop lead.length) else none

structure SseParser where
  line : List UInt8 := []
  frameData : List UInt8 := []
  frameHasData : Bool := false
  pendingCr : Bool := false
  frames : List (List UInt8) := []
  queuedFrameBytes : Nat := 0
  deriving DecidableEq, Repr

/-- `end_line`: the parser as it is left, also by a refused line, and whether the
line was accepted. -/
def endLine (parser : SseParser) : SseParser × Except Unit Unit :=
  let line := parser.line
  let parser := { parser with line := [] }
  if line.isEmpty then
    if parser.frameHasData then
      let frameData :=
        if parser.frameData.getLast? = some lineFeed then parser.frameData.dropLast
        else parser.frameData
      let queued := parser.queuedFrameBytes + frameData.length
      if queued > maxSseFrameBytes ∨ parser.frames.length ≥ maxQueuedSseFrames then
        ({ parser with frameData }, .error ())
      else
        ({ parser with
            queuedFrameBytes := queued
            frames := parser.frames ++ [frameData]
            frameData := []
            frameHasData := false }, .ok ())
    else ({ parser with frameData := [], frameHasData := false }, .ok ())
  else if line.head? = some colon then (parser, .ok ())
  else
    match stripLead dataField line with
    | some data =>
      let data := (stripLead [space] data).getD data
      let newLen := parser.frameData.length + data.length + 1
      if newLen > maxSseFrameBytes then (parser, .error ())
      else
        ({ parser with
            frameData := parser.frameData ++ data ++ [lineFeed]
            frameHasData := true }, .ok ())
    | none => (parser, .ok ())

/-- One round of the loop of `feed`. -/
def feedByte (parser : SseParser) (byte : UInt8) : SseParser × Except Unit Unit :=
  if parser.pendingCr ∧ byte = lineFeed then ({ parser with pendingCr := false }, .ok ())
  else
    let parser := { parser with pendingCr := false }
    if byte = carriageReturn then endLine { parser with pendingCr := true }
    else if byte = lineFeed then endLine parser
    else if parser.line.length ≥ maxSseLineBytes then (parser, .error ())
    else ({ parser with line := parser.line ++ [byte] }, .ok ())

def feed (parser : SseParser) : List UInt8 → SseParser × Except Unit Unit
  | [] => (parser, .ok ())
  | byte :: rest =>
    match feedByte parser byte with
    | (next, .ok ()) => feed next rest
    | (next, .error ()) => (next, .error ())

def popFrame (parser : SseParser) : Option (List UInt8 × SseParser) :=
  match parser.frames with
  | [] => none
  | frame :: rest =>
    some (frame, { parser with
      frames := rest
      queuedFrameBytes := parser.queuedFrameBytes - frame.length })

/-- The loop around `pop_frame`, for at most so many rounds. -/
def popRounds : Nat → SseParser → List (List UInt8) × SseParser
  | 0, parser => ([], parser)
  | rounds + 1, parser =>
    match popFrame parser with
    | none => ([], parser)
    | some (frame, next) =>
      let (rest, final) := popRounds rounds next
      (frame :: rest, final)

/-- Pop every queued frame. -/
def popFrames (parser : SseParser) : List (List UInt8) × SseParser :=
  popRounds parser.frames.length parser

/-- The outcome of a sequence of chunks: the popped frames, and whether a feed
failed. -/
structure Outcome where
  popped : List (List UInt8)
  failed : Bool
  deriving DecidableEq, Repr

/-- Feed chunks one after the other and pop all frames after each of them, also
after the one that fails, which is the last. -/
def feedChunks (parser : SseParser) : List (List UInt8) → Outcome
  | [] => ⟨[], false⟩
  | chunk :: rest =>
    match feed parser chunk with
    | (fed, .error ()) => ⟨(popFrames fed).1, true⟩
    | (fed, .ok ()) =>
      let later := feedChunks (popFrames fed).2 rest
      ⟨(popFrames fed).1 ++ later.popped, later.failed⟩

section Grammar

/-- A carriage return counts as a line feed. -/
def lineEnd (byte : UInt8) : UInt8 := if byte = carriageReturn then lineFeed else byte

/-- Every line end as one line feed: the pair of carriage return and line feed, a
carriage return alone, and a line feed alone. -/
def unifyEnds : List UInt8 → List UInt8
  | [] => []
  | [byte] => [lineEnd byte]
  | byte :: next :: rest =>
    if byte = carriageReturn ∧ next = lineFeed then lineFeed :: unifyEnds rest
    else lineEnd byte :: unifyEnds (next :: rest)

/-- The lines of a byte sequence and its unended last line. -/
def lines (bytes : List UInt8) : List (List UInt8) × List UInt8 :=
  Lines.split lineFeed (unifyEnds bytes)

/-- What a line that begins with `data:` contributes: its rest without one leading
space. -/
def dataOf (line : List UInt8) : Option (List UInt8) :=
  (stripLead dataField line).map (fun data => (stripLead [space] data).getD data)

/-- The data lines of each block of lines that an empty line ends, and of the
unended block. -/
def groups (all : List (List UInt8)) : List (List (List UInt8)) × List (List UInt8) :=
  let (blocks, tail) := Lines.split [] all
  (blocks.map (·.filterMap dataOf), tail.filterMap dataOf)

/-- The data lines of the frames of a byte sequence, and of its unended frame. -/
def frameLines (bytes : List UInt8) : List (List (List UInt8)) × List (List UInt8) :=
  groups (lines bytes).1

/-- The frames of a byte sequence: those that have a data line, with their data
lines joined by line feeds. -/
def frames (bytes : List UInt8) : List (List UInt8) :=
  ((frameLines bytes).1.filter (fun data => !data.isEmpty)).map
    (fun data => [lineFeed].intercalate data)

/-- The data lines, each counted with one newline. -/
def frameSize (data : List (List UInt8)) : Nat := (data.map (fun line => line.length + 1)).sum

/-- No line and no frame of the byte sequence exceeds its limit. -/
structure Fits (bytes : List UInt8) : Prop where
  line : ∀ line ∈ (lines bytes).1 ++ [(lines bytes).2], line.length ≤ maxSseLineBytes
  frame : ∀ data ∈ (frameLines bytes).1 ++ [(frameLines bytes).2], frameSize data ≤ maxSseFrameBytes

/-- One more byte: a line feed that follows a carriage return belongs to it. -/
theorem unify_ends_snoc (bytes : List UInt8) (byte : UInt8) :
    unifyEnds (bytes ++ [byte]) =
      if byte = lineFeed ∧ bytes.getLast? = some carriageReturn then unifyEnds bytes
      else unifyEnds bytes ++ [lineEnd byte] := by
  fun_induction unifyEnds bytes with
  | case1 => simp [unifyEnds]
  | case2 only =>
    by_cases pair : byte = lineFeed ∧ only = carriageReturn
    · obtain ⟨rfl, rfl⟩ := pair
      simp [unifyEnds, lineEnd]
    · have swapped : ¬ (only = carriageReturn ∧ byte = lineFeed) := fun both => pair both.symm
      simp [unifyEnds, pair, swapped]
  | case3 first next rest pair inductionHypothesis =>
    obtain ⟨rfl, rfl⟩ := pair
    have last : (carriageReturn :: lineFeed :: rest).getLast? = some carriageReturn ↔
        rest.getLast? = some carriageReturn := by
      cases rest with
      | nil => simp [lineFeed, carriageReturn]
      | cons first others => simp
    simp only [List.cons_append, last, inductionHypothesis, unifyEnds, and_self, if_true]
    split
    · rfl
    · rfl
  | case4 first next rest apart inductionHypothesis =>
    have last : (first :: next :: rest).getLast? = (next :: rest).getLast? := by simp
    simp only [List.cons_append] at inductionHypothesis
    simp only [List.cons_append, last, unifyEnds, apart, if_false, inductionHypothesis]
    split
    · rfl
    · rfl

theorem lines_snoc_paired {bytes : List UInt8} (ended : bytes.getLast? = some carriageReturn) :
    lines (bytes ++ [lineFeed]) = lines bytes := by
  rw [lines, unify_ends_snoc, if_pos ⟨rfl, ended⟩, lines]

theorem lines_snoc_end {bytes : List UInt8} {byte : UInt8}
    (ends : byte = carriageReturn ∨ byte = lineFeed)
    (apart : ¬ (byte = lineFeed ∧ bytes.getLast? = some carriageReturn)) :
    lines (bytes ++ [byte]) = ((lines bytes).1 ++ [(lines bytes).2], []) := by
  have read : lineEnd byte = lineFeed := by
    rcases ends with rfl | rfl
    · rfl
    · rfl
  rw [lines, unify_ends_snoc, if_neg apart, read, Lines.split_append_separator, lines]

theorem lines_snoc_text (bytes : List UInt8) {byte : UInt8} (first : byte ≠ carriageReturn)
    (second : byte ≠ lineFeed) :
    lines (bytes ++ [byte]) = ((lines bytes).1, (lines bytes).2 ++ [byte]) := by
  have apart : ¬ (byte = lineFeed ∧ bytes.getLast? = some carriageReturn) :=
    fun both => second both.1
  have read : lineEnd byte = byte := if_neg first
  rw [lines, unify_ends_snoc, if_neg apart, read, Lines.split_append_symbol second, lines]

theorem groups_snoc_empty (all : List (List UInt8)) :
    groups (all ++ [[]]) = ((groups all).1 ++ [(groups all).2], []) := by
  simp [groups, Lines.split_append_separator]

theorem groups_snoc_line {line : List UInt8} (nonempty : line ≠ []) (all : List (List UInt8)) :
    groups (all ++ [line]) = ((groups all).1, (groups all).2 ++ (dataOf line).toList) := by
  have single : [line].filterMap dataOf = (dataOf line).toList := by
    cases found : dataOf line with
    | none => simp [found]
    | some data => simp [found]
  simp [groups, Lines.split_append_symbol nonempty, single]

theorem frame_size_append (first second : List (List UInt8)) :
    frameSize (first ++ second) = frameSize first + frameSize second := by
  simp [frameSize]

/-- The data lines with a line feed after each. -/
theorem length_join_data (data : List (List UInt8)) :
    (Lines.join lineFeed data).length = frameSize data := by
  induction data with
  | nil => rfl
  | cons line rest inductionHypothesis =>
    simp only [Lines.join_cons, List.length_append, List.length_cons, inductionHypothesis,
      frameSize, List.map_cons, List.sum_cons]
    omega

/-- The last line feed is the one too many. -/
theorem join_data {data : List (List UInt8)} (nonempty : data ≠ []) :
    Lines.join lineFeed data = [lineFeed].intercalate data ++ [lineFeed] := by
  induction data with
  | nil => exact absurd rfl nonempty
  | cons line rest inductionHypothesis =>
    cases rest with
    | nil => simp
    | cons next others =>
      rw [Lines.join_cons, inductionHypothesis (by simp), List.intercalate_cons_cons]
      simp

end Grammar

section Limits

variable {bytes : List UInt8} {byte : UInt8}

theorem fits_nil : Fits [] := by
  refine ⟨?_, ?_⟩
  · simp [lines, unifyEnds, Lines.split]
  · simp [frameLines, groups, lines, unifyEnds, Lines.split, frameSize]

theorem fits_snoc_paired (ended : bytes.getLast? = some carriageReturn) :
    Fits (bytes ++ [lineFeed]) ↔ Fits bytes := by
  have same := lines_snoc_paired ended
  constructor
  · rintro ⟨line, frame⟩
    rw [frameLines, same] at frame
    rw [same] at line
    exact ⟨line, frame⟩
  · rintro ⟨line, frame⟩
    refine ⟨?_, ?_⟩
    · rwa [same]
    · rwa [frameLines, same]

theorem frame_lines_snoc_text (bytes : List UInt8) (first : byte ≠ carriageReturn)
    (second : byte ≠ lineFeed) : frameLines (bytes ++ [byte]) = frameLines bytes := by
  rw [frameLines, lines_snoc_text bytes first second, frameLines]

theorem fits_snoc_text (first : byte ≠ carriageReturn) (second : byte ≠ lineFeed) :
    Fits (bytes ++ [byte]) ↔ Fits bytes ∧ (lines bytes).2.length < maxSseLineBytes := by
  have read := lines_snoc_text bytes first second
  have data := frame_lines_snoc_text bytes first second
  constructor
  · rintro ⟨line, frame⟩
    rw [data] at frame
    rw [read] at line
    have last := line ((lines bytes).2 ++ [byte]) (by simp)
    rw [List.length_append, List.length_singleton] at last
    refine ⟨⟨?_, frame⟩, last⟩
    intro inspected member
    rcases List.mem_append.mp member with ended | tail
    · exact line inspected (List.mem_append_left _ ended)
    · rw [List.mem_singleton.mp tail]
      omega
  · rintro ⟨⟨line, frame⟩, short⟩
    refine ⟨?_, by rwa [data]⟩
    rw [read]
    intro inspected member
    rcases List.mem_append.mp member with ended | tail
    · exact line inspected (List.mem_append_left _ ended)
    · rw [List.mem_singleton.mp tail, List.length_append]
      exact short

/-- An ended line leaves the lines as they were, with an empty one after them. -/
theorem lines_fit_snoc_end (read : lines (bytes ++ [byte]) =
      ((lines bytes).1 ++ [(lines bytes).2], [])) :
    (∀ line ∈ (lines (bytes ++ [byte])).1 ++ [(lines (bytes ++ [byte])).2],
        line.length ≤ maxSseLineBytes) ↔
      ∀ line ∈ (lines bytes).1 ++ [(lines bytes).2], line.length ≤ maxSseLineBytes := by
  rw [read]
  constructor
  · intro all line member
    exact all line (List.mem_append_left _ member)
  · intro all line member
    rcases List.mem_append.mp member with old | new
    · exact all line old
    · rw [List.mem_singleton.mp new]
      exact Nat.zero_le _

theorem frame_lines_snoc_blank (read : lines (bytes ++ [byte]) =
      ((lines bytes).1 ++ [(lines bytes).2], [])) (blank : (lines bytes).2 = []) :
    frameLines (bytes ++ [byte]) = ((frameLines bytes).1 ++ [(frameLines bytes).2], []) := by
  rw [frameLines, read, blank, groups_snoc_empty]
  rfl

theorem frame_lines_snoc_line (read : lines (bytes ++ [byte]) =
      ((lines bytes).1 ++ [(lines bytes).2], [])) (nonempty : (lines bytes).2 ≠ []) :
    frameLines (bytes ++ [byte]) =
      ((frameLines bytes).1, (frameLines bytes).2 ++ (dataOf (lines bytes).2).toList) := by
  rw [frameLines, read, groups_snoc_line nonempty]
  rfl

theorem fits_snoc_blank (read : lines (bytes ++ [byte]) =
      ((lines bytes).1 ++ [(lines bytes).2], [])) (blank : (lines bytes).2 = []) :
    Fits (bytes ++ [byte]) ↔ Fits bytes := by
  have data := frame_lines_snoc_blank read blank
  constructor
  · rintro ⟨line, frame⟩
    refine ⟨(lines_fit_snoc_end read).mp line, ?_⟩
    intro inspected member
    rw [data] at frame
    exact frame inspected (List.mem_append_left _ member)
  · rintro ⟨line, frame⟩
    refine ⟨(lines_fit_snoc_end read).mpr line, ?_⟩
    intro inspected member
    rw [data] at member
    rcases List.mem_append.mp member with old | new
    · exact frame inspected old
    · rw [List.mem_singleton.mp new]
      exact Nat.zero_le _

theorem fits_snoc_line (read : lines (bytes ++ [byte]) =
      ((lines bytes).1 ++ [(lines bytes).2], [])) (nonempty : (lines bytes).2 ≠ []) :
    Fits (bytes ++ [byte]) ↔ Fits bytes ∧
      frameSize ((frameLines bytes).2 ++ (dataOf (lines bytes).2).toList) ≤ maxSseFrameBytes := by
  have data := frame_lines_snoc_line read nonempty
  constructor
  · rintro ⟨line, frame⟩
    rw [data] at frame
    have last := frame _ (List.mem_append_right _ (List.mem_singleton.mpr rfl))
    refine ⟨⟨(lines_fit_snoc_end read).mp line, ?_⟩, last⟩
    intro inspected member
    rcases List.mem_append.mp member with ended | tail
    · exact frame inspected (List.mem_append_left _ ended)
    · rw [List.mem_singleton.mp tail]
      rw [frame_size_append] at last
      omega
  · rintro ⟨⟨line, frame⟩, small⟩
    refine ⟨(lines_fit_snoc_end read).mpr line, ?_⟩
    intro inspected member
    rw [data] at member
    rcases List.mem_append.mp member with ended | tail
    · exact frame inspected (List.mem_append_left _ ended)
    · rw [List.mem_singleton.mp tail]
      exact small

/-- What one more byte does to the lines. -/
theorem snoc_cases (bytes : List UInt8) (byte : UInt8) :
    (byte = lineFeed ∧ bytes.getLast? = some carriageReturn) ∨
      ((byte = carriageReturn ∨ byte = lineFeed) ∧
        ¬ (byte = lineFeed ∧ bytes.getLast? = some carriageReturn)) ∨
      (byte ≠ carriageReturn ∧ byte ≠ lineFeed) := by
  by_cases first : byte = carriageReturn
  · refine .inr (.inl ⟨.inl first, ?_⟩)
    rintro ⟨second, -⟩
    rw [first] at second
    cases second
  · by_cases second : byte = lineFeed
    · by_cases ended : bytes.getLast? = some carriageReturn
      · exact .inl ⟨second, ended⟩
      · exact .inr (.inl ⟨.inr second, fun both => ended both.2⟩)
    · exact .inr (.inr ⟨first, second⟩)

/-- A limit that was exceeded stays exceeded. -/
theorem Fits.of_snoc (fits : Fits (bytes ++ [byte])) : Fits bytes := by
  rcases snoc_cases bytes byte with ⟨rfl, ended⟩ | ⟨ends, apart⟩ | ⟨first, second⟩
  · exact (fits_snoc_paired ended).mp fits
  · have read := lines_snoc_end ends apart
    by_cases blank : (lines bytes).2 = []
    · exact (fits_snoc_blank read blank).mp fits
    · exact ((fits_snoc_line read blank).mp fits).1
  · exact ((fits_snoc_text first second).mp fits).1

theorem Fits.of_append {later : List UInt8} (fits : Fits (bytes ++ later)) : Fits bytes := by
  induction later using List.reverseRecOn with
  | nil => simpa using fits
  | append_singleton later last inductionHypothesis =>
    rw [← List.append_assoc] at fits
    exact inductionHypothesis fits.of_snoc

end Limits

section Endings

variable (parser : SseParser) {data frame : List UInt8}

/-- A line that begins with a colon has no data. -/
theorem data_of_comment {line : List UInt8} (comment : line.head? = some colon) :
    dataOf line = none := by
  cases line with
  | nil => cases comment
  | cons first rest =>
    obtain rfl : first = colon := by simpa using comment
    simp [dataOf, stripLead, dataField, colon]

theorem end_line_skipped (nonempty : parser.line ≠ []) (skipped : dataOf parser.line = none) :
    endLine parser = ({ parser with line := [] }, .ok ()) := by
  have filled : parser.line.isEmpty = false := by simpa using nonempty
  have unmarked : stripLead dataField parser.line = none := by simpa [dataOf] using skipped
  simp [endLine, filled, unmarked]

theorem end_line_data (contributed : dataOf parser.line = some data) :
    endLine parser =
      if parser.frameData.length + data.length + 1 > maxSseFrameBytes then
        ({ parser with line := [] }, .error ())
      else
        ({ parser with
            line := []
            frameData := parser.frameData ++ data ++ [lineFeed]
            frameHasData := true }, .ok ()) := by
  have filled : parser.line.isEmpty = false := by
    cases line : parser.line with
    | nil =>
      rw [line] at contributed
      cases contributed
    | cons first rest => rfl
  have uncommented : ¬ parser.line.head? = some colon := by
    intro comment
    rw [data_of_comment comment] at contributed
    cases contributed
  obtain ⟨rest, marked, rfl⟩ := Option.map_eq_some_iff.mp contributed
  simp [endLine, filled, uncommented, marked]

theorem end_line_no_frame (blank : parser.line = []) (none : parser.frameHasData = false) :
    endLine parser =
      ({ parser with line := [], frameData := [], frameHasData := false }, .ok ()) := by
  simp [endLine, blank, none]

theorem end_line_frame (blank : parser.line = []) (filled : parser.frameHasData = true)
    (content : parser.frameData = frame ++ [lineFeed])
    (size : parser.queuedFrameBytes + frame.length ≤ maxSseFrameBytes)
    (count : parser.frames.length < maxQueuedSseFrames) :
    endLine parser =
      ({ parser with
          line := []
          queuedFrameBytes := parser.queuedFrameBytes + frame.length
          frames := parser.frames ++ [frame]
          frameData := []
          frameHasData := false }, .ok ()) := by
  have room : ¬ (parser.queuedFrameBytes + frame.length > maxSseFrameBytes ∨
      parser.frames.length ≥ maxQueuedSseFrames) := by omega
  simp [endLine, blank, filled, content, room]

end Endings

section Steps

variable {popped : Nat} {bytes : List UInt8} {byte : UInt8}

/-- The parser after the bytes, from which so many frames were popped: every field
is read off the grammar's split. -/
def parserAfter (popped : Nat) (bytes : List UInt8) : SseParser where
  line := (lines bytes).2
  frameData := Lines.join lineFeed (frameLines bytes).2
  frameHasData := !(frameLines bytes).2.isEmpty
  pendingCr := decide (bytes.getLast? = some carriageReturn)
  frames := (frames bytes).drop popped
  queuedFrameBytes := (((frames bytes).drop popped).map List.length).sum

/-- The frames that were not popped yet fit into the queue. -/
structure Queues (popped : Nat) (bytes : List UInt8) : Prop where
  count : ((frames bytes).drop popped).length ≤ maxQueuedSseFrames
  size : (((frames bytes).drop popped).map List.length).sum ≤ maxSseFrameBytes

/-- The frames are determined by the data lines of the ended ones. -/
theorem frames_eq {other : List UInt8} (same : (frameLines other).1 = (frameLines bytes).1) :
    frames other = frames bytes := by
  rw [frames, same, frames]

/-- What an empty line adds to the frames. -/
theorem frames_snoc_blank (data : frameLines (bytes ++ [byte]) =
      ((frameLines bytes).1 ++ [(frameLines bytes).2], [])) :
    frames (bytes ++ [byte]) = frames bytes ++
      if (frameLines bytes).2.isEmpty then []
      else [[lineFeed].intercalate (frameLines bytes).2] := by
  rw [frames, data, frames, List.filter_append, List.map_append]
  cases (frameLines bytes).2 with
  | nil => simp
  | cons line rest => simp

/-- The frames of a beginning come first. -/
theorem frames_le_snoc (bytes : List UInt8) (byte : UInt8) :
    frames bytes <+: frames (bytes ++ [byte]) := by
  rcases snoc_cases bytes byte with ⟨rfl, ended⟩ | ⟨ends, apart⟩ | ⟨first, second⟩
  · have same : frames (bytes ++ [lineFeed]) = frames bytes :=
      frames_eq (by rw [frameLines, lines_snoc_paired ended, frameLines])
    exact same ▸ List.prefix_refl _
  · have read := lines_snoc_end ends apart
    by_cases blank : (lines bytes).2 = []
    · exact frames_snoc_blank (frame_lines_snoc_blank read blank) ▸ List.prefix_append _ _
    · have same : frames (bytes ++ [byte]) = frames bytes :=
        frames_eq (by rw [frame_lines_snoc_line read blank])
      exact same ▸ List.prefix_refl _
  · have same : frames (bytes ++ [byte]) = frames bytes :=
      frames_eq (by rw [frame_lines_snoc_text bytes first second])
    exact same ▸ List.prefix_refl _

theorem frames_le_append (bytes later : List UInt8) :
    frames bytes <+: frames (bytes ++ later) := by
  induction later using List.reverseRecOn with
  | nil => simp
  | append_singleton later last inductionHypothesis =>
    rw [← List.append_assoc]
    exact inductionHypothesis.trans (frames_le_snoc _ last)

/-- A byte that ends a line, unless it only completes the pair. -/
theorem feed_byte_end (ends : byte = carriageReturn ∨ byte = lineFeed)
    (apart : ¬ (byte = lineFeed ∧ bytes.getLast? = some carriageReturn)) :
    feedByte (parserAfter popped bytes) byte =
      endLine { parserAfter popped bytes with pendingCr := decide (byte = carriageReturn) } := by
  have unpaired : ¬ ((parserAfter popped bytes).pendingCr = true ∧ byte = lineFeed) := by
    rintro ⟨pending, feed⟩
    exact apart ⟨feed, of_decide_eq_true pending⟩
  rw [feedByte, if_neg unpaired]
  by_cases first : byte = carriageReturn
  · simp [first]
  · have second : byte = lineFeed := ends.resolve_left first
    simp [second, carriageReturn, lineFeed]

/-- The end of an empty line. -/
theorem feed_byte_blank (ends : byte = carriageReturn ∨ byte = lineFeed)
    (apart : ¬ (byte = lineFeed ∧ bytes.getLast? = some carriageReturn))
    (blank : (lines bytes).2 = []) (earlier : popped ≤ (frames bytes).length)
    (queues : Queues popped (bytes ++ [byte])) :
    feedByte (parserAfter popped bytes) byte = (parserAfter popped (bytes ++ [byte]), .ok ()) := by
  have read := lines_snoc_end ends apart
  have data := frame_lines_snoc_blank read blank
  have added := frames_snoc_blank data
  rw [feed_byte_end ends apart]
  by_cases none : (frameLines bytes).2 = []
  · have same : frames (bytes ++ [byte]) = frames bytes := by simpa [none] using added
    rw [end_line_no_frame _ blank (by simp [parserAfter, none])]
    simp [parserAfter, read, data, same]
  · have dropped : (frames (bytes ++ [byte])).drop popped =
        (frames bytes).drop popped ++ [[lineFeed].intercalate (frameLines bytes).2] := by
      rw [added, if_neg (by simpa using none), List.drop_append_of_le_length earlier]
    obtain ⟨count, size⟩ := queues
    simp only [dropped, List.length_append, List.length_singleton, List.map_append,
      List.sum_append, List.map_singleton, List.sum_singleton] at count size
    have queued := end_line_frame
      { parserAfter popped bytes with pendingCr := decide (byte = carriageReturn) }
      blank (by simp [parserAfter, none]) (join_data none) size count
    rw [queued]
    simp [parserAfter, read, data, dropped]

/-- The end of a line that is not empty. -/
theorem feed_byte_line (ends : byte = carriageReturn ∨ byte = lineFeed)
    (apart : ¬ (byte = lineFeed ∧ bytes.getLast? = some carriageReturn))
    (nonempty : (lines bytes).2 ≠ [])
    (small : frameSize ((frameLines bytes).2 ++ (dataOf (lines bytes).2).toList) ≤
      maxSseFrameBytes) :
    feedByte (parserAfter popped bytes) byte = (parserAfter popped (bytes ++ [byte]), .ok ()) := by
  have read := lines_snoc_end ends apart
  have data := frame_lines_snoc_line read nonempty
  have same : frames (bytes ++ [byte]) = frames bytes := frames_eq (by rw [data])
  rw [feed_byte_end ends apart]
  cases contributed : dataOf (lines bytes).2 with
  | none =>
    rw [end_line_skipped _ nonempty contributed]
    simp [parserAfter, read, data, same, contributed]
  | some line =>
    rw [contributed, Option.toList_some, frame_size_append, ← length_join_data] at small
    have room : ¬ (Lines.join lineFeed (frameLines bytes).2).length + line.length + 1 >
        maxSseFrameBytes := by
      simp only [frameSize, List.map_singleton, List.sum_singleton] at small
      omega
    rw [end_line_data _ contributed]
    simp [parserAfter, read, data, same, contributed, Lines.join_append, room]

/-- A byte within the limits leads to the parser after it. -/
theorem feed_byte_fits (fits : Fits (bytes ++ [byte])) (earlier : popped ≤ (frames bytes).length)
    (queues : Queues popped (bytes ++ [byte])) :
    feedByte (parserAfter popped bytes) byte = (parserAfter popped (bytes ++ [byte]), .ok ()) := by
  rcases snoc_cases bytes byte with ⟨rfl, ended⟩ | ⟨ends, apart⟩ | ⟨first, second⟩
  · have pending : (parserAfter popped bytes).pendingCr = true := decide_eq_true ended
    have unpaired : lineFeed ≠ carriageReturn := by decide
    have data : frameLines (bytes ++ [lineFeed]) = frameLines bytes := by
      rw [frameLines, lines_snoc_paired ended, frameLines]
    have same : frames (bytes ++ [lineFeed]) = frames bytes := frames_eq (by rw [data])
    rw [feedByte, if_pos ⟨pending, rfl⟩]
    simp [parserAfter, lines_snoc_paired ended, data, same, unpaired]
  · by_cases blank : (lines bytes).2 = []
    · exact feed_byte_blank ends apart blank earlier queues
    · have small := ((fits_snoc_line (lines_snoc_end ends apart) blank).mp fits).2
      exact feed_byte_line ends apart blank small
  · have short := ((fits_snoc_text first second).mp fits).2
    have data := frame_lines_snoc_text bytes first second
    have same : frames (bytes ++ [byte]) = frames bytes := frames_eq (by rw [data])
    have room : ¬ (lines bytes).2.length ≥ maxSseLineBytes := Nat.not_le.mpr short
    simp [feedByte, parserAfter, lines_snoc_text bytes first second, data, same, first, second,
      room]

/-- A byte that exceeds a limit fails and leaves the queued frames. -/
theorem feed_byte_fails (popped : Nat) (fits : Fits bytes) (exceeds : ¬ Fits (bytes ++ [byte])) :
    ∃ next, feedByte (parserAfter popped bytes) byte = (next, .error ()) ∧
      next.frames = (frames bytes).drop popped := by
  rcases snoc_cases bytes byte with ⟨rfl, ended⟩ | ⟨ends, apart⟩ | ⟨first, second⟩
  · exact absurd ((fits_snoc_paired ended).mpr fits) exceeds
  · have read := lines_snoc_end ends apart
    rw [feed_byte_end ends apart]
    by_cases blank : (lines bytes).2 = []
    · exact absurd ((fits_snoc_blank read blank).mpr fits) exceeds
    · have large : ¬ frameSize ((frameLines bytes).2 ++ (dataOf (lines bytes).2).toList) ≤
          maxSseFrameBytes := fun small => exceeds ((fits_snoc_line read blank).mpr ⟨fits, small⟩)
      have earlier : frameSize (frameLines bytes).2 ≤ maxSseFrameBytes := fits.frame _ (by simp)
      cases contributed : dataOf (lines bytes).2 with
      | none =>
        rw [contributed] at large
        exact absurd (by simpa using earlier) large
      | some line =>
        rw [contributed, Option.toList_some, frame_size_append, ← length_join_data] at large
        have grown : (Lines.join lineFeed (frameLines bytes).2).length + line.length + 1 >
            maxSseFrameBytes := by
          simp only [frameSize, List.map_singleton, List.sum_singleton] at large
          omega
        refine ⟨{ parserAfter popped bytes with
          line := [], pendingCr := decide (byte = carriageReturn) }, ?_, rfl⟩
        rw [end_line_data _ contributed]
        simp [parserAfter, grown]
  · have long : (lines bytes).2.length ≥ maxSseLineBytes := by
      refine Nat.le_of_not_lt ?_
      intro short
      exact exceeds ((fits_snoc_text first second).mpr ⟨fits, short⟩)
    refine ⟨{ parserAfter popped bytes with pendingCr := false }, ?_, rfl⟩
    simp [feedByte, parserAfter, first, second, long]

theorem Queues.of_append {later : List UInt8} (queues : Queues popped (bytes ++ later)) :
    Queues popped bytes := by
  obtain ⟨added, whole⟩ := (frames_le_append bytes later).drop popped
  obtain ⟨count, size⟩ := queues
  rw [← whole, List.length_append] at count
  rw [← whole, List.map_append, List.sum_append] at size
  exact ⟨by omega, by omega⟩

/-- A chunk within the limits leads to the parser after it. -/
theorem feed_fits {chunk : List UInt8} (fits : Fits (bytes ++ chunk))
    (earlier : popped ≤ (frames bytes).length) (queues : Queues popped (bytes ++ chunk)) :
    feed (parserAfter popped bytes) chunk = (parserAfter popped (bytes ++ chunk), .ok ()) := by
  induction chunk generalizing bytes with
  | nil => simp [feed]
  | cons byte rest inductionHypothesis =>
    have whole : bytes ++ byte :: rest = bytes ++ [byte] ++ rest := by simp
    rw [whole] at fits queues ⊢
    rw [feed, feed_byte_fits fits.of_append earlier queues.of_append]
    have more := (frames_le_snoc bytes byte).length_le
    exact inductionHypothesis fits (by omega) queues

/-- A chunk that exceeds a limit fails at the first byte that does and leaves the
frames before it. -/
theorem feed_fails {chunk : List UInt8} (fits : Fits bytes) (exceeds : ¬ Fits (bytes ++ chunk))
    (earlier : popped ≤ (frames bytes).length)
    (queues : ∀ read, read <+: chunk → Fits (bytes ++ read) → Queues popped (bytes ++ read)) :
    ∃ read byte rest next, chunk = read ++ byte :: rest ∧ Fits (bytes ++ read) ∧
      ¬ Fits (bytes ++ read ++ [byte]) ∧
      feed (parserAfter popped bytes) chunk = (next, .error ()) ∧
      next.frames = (frames (bytes ++ read)).drop popped := by
  induction chunk generalizing bytes with
  | nil => exact absurd (by simpa using fits) exceeds
  | cons byte rest inductionHypothesis =>
    by_cases inside : Fits (bytes ++ [byte])
    · have whole : bytes ++ byte :: rest = bytes ++ [byte] ++ rest := by simp
      have fed := feed_byte_fits inside earlier (queues [byte] ⟨rest, rfl⟩ inside)
      have more := (frames_le_snoc bytes byte).length_le
      rw [whole] at exceeds
      obtain ⟨read, last, others, next, split, accepted, refused, failed, kept⟩ :=
        inductionHypothesis inside exceeds (by omega) (by
          intro read begins accepted
          have joined : bytes ++ [byte] ++ read = bytes ++ byte :: read := by simp
          rw [joined] at accepted ⊢
          exact queues (byte :: read) ((List.prefix_cons_inj byte).mpr begins) accepted)
      refine ⟨byte :: read, last, others, next, by rw [split]; rfl, ?_, ?_, ?_, ?_⟩
      · simpa using accepted
      · simpa using refused
      · rw [feed, fed]
        exact failed
      · simpa using kept
    · obtain ⟨next, failed, kept⟩ := feed_byte_fails popped fits inside
      refine ⟨[], byte, rest, next, rfl, by simpa using fits, by simpa using inside, ?_, ?_⟩
      · rw [feed, failed]
      · simpa using kept

/-- Popping hands out the queued frames in order and leaves the queue empty. -/
theorem pop_rounds_all (parser : SseParser) (rounds : Nat)
    (enough : rounds = parser.frames.length) :
    popRounds rounds parser = (parser.frames, { parser with
      frames := []
      queuedFrameBytes := parser.queuedFrameBytes - (parser.frames.map List.length).sum }) := by
  induction rounds generalizing parser with
  | zero =>
    have empty : parser.frames = [] := List.length_eq_zero_iff.mp enough.symm
    cases parser with
    | mk line data hasData pending queued size =>
      subst empty
      rfl
  | succ rounds inductionHypothesis =>
    obtain ⟨frame, rest, queued⟩ := List.exists_cons_of_length_eq_add_one enough.symm
    have fewer : rounds = rest.length := by simpa [queued] using enough
    simp only [popRounds, popFrame, queued]
    rw [inductionHypothesis _ fewer]
    simp [Nat.sub_add_eq]

theorem pop_frames_queued (parser : SseParser) : (popFrames parser).1 = parser.frames := by
  rw [popFrames, pop_rounds_all parser _ rfl]

theorem pop_frames_after (popped : Nat) (bytes : List UInt8) :
    popFrames (parserAfter popped bytes) =
      ((frames bytes).drop popped, parserAfter (frames bytes).length bytes) := by
  rw [popFrames, pop_rounds_all _ _ rfl]
  simp [parserAfter]

end Steps

section Chunks

/-- As long as no limit is exceeded, what a chunk completes fits into the queue: at
most so many frames with at most so many bytes of data. -/
def Bounded : List UInt8 → List (List UInt8) → Prop
  | _, [] => True
  | before, chunk :: rest =>
    (∀ read, read <+: chunk → Fits (before ++ read) →
      Queues (frames before).length (before ++ read)) ∧ Bounded (before ++ chunk) rest

/-- It is enough to look at the end of each chunk. -/
theorem bounded_cons {before chunk : List UInt8} {rest : List (List UInt8)}
    (queues : Queues (frames before).length (before ++ chunk))
    (later : Bounded (before ++ chunk) rest) : Bounded before (chunk :: rest) := by
  refine ⟨?_, later⟩
  rintro read ⟨tail, rfl⟩ -
  rw [← List.append_assoc] at queues
  exact queues.of_append

/-- The chunks after some bytes: either all bytes are within the limits and the
frames are those of the grammar, or the frames are those before the first byte that
exceeds one. -/
theorem feed_chunks_after {before : List UInt8} {chunks : List (List UInt8)} (fits : Fits before)
    (bounded : Bounded before chunks) :
    (Fits (before ++ chunks.flatten) ∧
      feedChunks (parserAfter (frames before).length before) chunks =
        ⟨(frames (before ++ chunks.flatten)).drop (frames before).length, false⟩) ∨
    ∃ read byte rest, chunks.flatten = read ++ byte :: rest ∧ Fits (before ++ read) ∧
      ¬ Fits (before ++ read ++ [byte]) ∧
      feedChunks (parserAfter (frames before).length before) chunks =
        ⟨(frames (before ++ read)).drop (frames before).length, true⟩ := by
  induction chunks generalizing before with
  | nil => exact .inl ⟨by simpa using fits, by simp [feedChunks]⟩
  | cons chunk rest inductionHypothesis =>
    obtain ⟨here, later⟩ := bounded
    by_cases inside : Fits (before ++ chunk)
    · have queues := here chunk (List.prefix_refl chunk) inside
      have fed := feed_fits inside (Nat.le_refl _) queues
      have first := frames_le_append before chunk
      have joined : before ++ (chunk :: rest).flatten = before ++ chunk ++ rest.flatten := by simp
      have appended : ∀ tail, (frames (before ++ chunk)).drop (frames before).length ++
          (frames (before ++ chunk ++ tail)).drop (frames (before ++ chunk)).length =
            (frames (before ++ chunk ++ tail)).drop (frames before).length := by
        intro tail
        obtain ⟨added, whole⟩ := frames_le_append (before ++ chunk) tail
        rw [← whole, List.drop_left, List.drop_append_of_le_length first.length_le]
      rw [feedChunks, fed]
      simp only [pop_frames_after]
      rcases inductionHypothesis inside later with ⟨accepted, run⟩ | ⟨read, byte, tail, split,
        accepted, refused, run⟩
      · refine .inl ⟨by rwa [joined], ?_⟩
        rw [run, joined, appended]
      · refine .inr ⟨chunk ++ read, byte, tail, by simp [split], ?_, ?_, ?_⟩
        · simpa using accepted
        · simpa using refused
        · rw [run, appended, List.append_assoc]
    · obtain ⟨read, byte, others, next, rfl, accepted, refused, failed, kept⟩ :=
        feed_fails fits inside (Nat.le_refl _) here
      refine .inr ⟨read, byte, others ++ rest.flatten, by simp, accepted, refused, ?_⟩
      rw [feedChunks, failed, ← kept, ← pop_frames_queued next]

/-- The first byte that exceeds a limit is the same in every reading. -/
theorem first_excess_unique {bytes first second left right : List UInt8} {one other : UInt8}
    (whole : bytes = first ++ one :: left) (again : bytes = second ++ other :: right)
    (accepted : Fits first) (refused : ¬ Fits (first ++ [one]))
    (taken : Fits second) (rejected : ¬ Fits (second ++ [other])) : first = second := by
  rw [whole] at again
  rcases List.append_eq_append_iff.mp again with ⟨more, rfl, tail⟩ | ⟨more, rfl, tail⟩
  · cases more with
    | nil => simp
    | cons symbol more =>
      obtain ⟨rfl, -⟩ := List.cons.inj tail
      have longer : Fits (first ++ [one] ++ more) := by simpa using taken
      exact absurd longer.of_append refused
  · cases more with
    | nil => simp
    | cons symbol more =>
      obtain ⟨rfl, -⟩ := List.cons.inj tail
      have longer : Fits (second ++ [other] ++ more) := by simpa using accepted
      exact absurd longer.of_append rejected

/-- The parser meets its grammar under any chunking: a feed fails exactly if a limit
is exceeded, the popped frames are those of the whole sequence, or of its bytes
before the first one that exceeds a limit, and another chunking of the same bytes
gives the same outcome. -/
theorem sse_parser_meets_grammar (chunks : List (List UInt8)) (bounded : Bounded [] chunks) :
    ((feedChunks {} chunks).failed = true ↔ ¬ Fits chunks.flatten) ∧
    (Fits chunks.flatten → (feedChunks {} chunks).popped = frames chunks.flatten) ∧
    (¬ Fits chunks.flatten → ∃ read byte rest, chunks.flatten = read ++ byte :: rest ∧
      Fits read ∧ ¬ Fits (read ++ [byte]) ∧ (feedChunks {} chunks).popped = frames read) ∧
    ∀ others : List (List UInt8), others.flatten = chunks.flatten → Bounded [] others →
      feedChunks {} others = feedChunks {} chunks := by
  have started : parserAfter (frames []).length [] = {} := by decide
  have outcome : ∀ cut : List (List UInt8), Bounded [] cut →
      (Fits cut.flatten ∧ feedChunks {} cut = ⟨frames cut.flatten, false⟩) ∨
      ∃ read byte rest, cut.flatten = read ++ byte :: rest ∧ Fits read ∧
        ¬ Fits (read ++ [byte]) ∧ feedChunks {} cut = ⟨frames read, true⟩ := by
    intro cut held
    have run := feed_chunks_after fits_nil held
    rw [started] at run
    have none : (frames []).length = 0 := by decide
    simpa [none] using run
  have exceeded : ∀ {read byte rest}, chunks.flatten = read ++ byte :: rest →
      ¬ Fits (read ++ [byte]) → ¬ Fits chunks.flatten := by
    intro read byte rest whole refused fits
    have joined : chunks.flatten = read ++ [byte] ++ rest := by rw [whole]; simp
    exact refused (Fits.of_append (joined ▸ fits))
  rcases outcome chunks bounded with ⟨fits, run⟩ | ⟨read, byte, rest, whole, accepted, refused, run⟩
  · refine ⟨by simp [run, fits], fun _ => by rw [run], fun excess => absurd fits excess, ?_⟩
    intro others same held
    rcases outcome others held with ⟨-, again⟩ | ⟨read, byte, rest, whole, -, refused, -⟩
    · rw [again, run, same]
    · exact absurd fits (exceeded (same ▸ whole) refused)
  · have excess := exceeded whole refused
    refine ⟨by simp [run, excess], fun fits => absurd fits excess, fun _ =>
      ⟨read, byte, rest, whole, accepted, refused, by rw [run]⟩, ?_⟩
    intro others same held
    rcases outcome others held with ⟨fits, -⟩ | ⟨second, other, tail, split, taken, rejected, again⟩
    · exact absurd (same ▸ fits) excess
    · rw [again, run, first_excess_unique whole (same ▸ split) accepted refused taken rejected]

/-- Two data lines of one frame; the cuts go through both pairs of carriage return
and line feed, and the last chunk leaves a half line. -/
def cutPairs : List (List UInt8) :=
  [[100, 97, 116, 97, 58, 32, 97, 13], [10, 100, 97, 116, 97, 58, 98, 10, 13], [10, 100, 97]]

theorem cut_pairs_bounded : Bounded [] cutPairs := by
  refine bounded_cons ⟨by decide, by decide⟩ ?_
  refine bounded_cons ⟨by decide, by decide⟩ ?_
  exact bounded_cons ⟨by decide, by decide⟩ trivial

theorem cut_pairs_meet_grammar :
    feedChunks {} cutPairs = ⟨[[97, 10, 98]], false⟩ ∧
      ((feedChunks {} cutPairs).failed = true ↔ ¬ Fits cutPairs.flatten) :=
  ⟨by decide, (sse_parser_meets_grammar cutPairs cut_pairs_bounded).1⟩

end Chunks

end MinicoreAgent.Sse

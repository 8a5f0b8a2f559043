import MinicoreAgent.Lib.TextLines

/-!
# The read tool on a file

The lines before the offset are skipped over the buffers of the reader, and a window of one
byte more than the output may have is taken. Of a full window the last, cut line is put
back. What is left is shown line by line until the limit or the output budget, and a notice
counts the lines that are left.
-/
namespace MinicoreAgent.ReadTool

open Lines Text TextLines

def maxOutputBytes : Nat := 50 * 1024

/-- `format_size(MAX_OUTPUT_BYTES)`. -/
def maxOutputSize : List Char := "50KB".toList

/-- `ToolError`, of which the loops below return only `Failed`. -/
inductive ToolError where
  | failed
deriving DecidableEq, Repr

structure ReadInput where
  path : List Char
  offset : Nat
  limit : Nat
deriving Repr

/-- A buffered reader at a place of a file: what it will have in its buffer, one after
another, and whether reading fails after that or the file ends there. -/
structure Reader where
  buffers : List (List UInt8)
  fails : Bool
deriving Repr

section Reading

/-- The scan of one buffer for the last newline to skip: how many lines are skipped after
it, and how many bytes are consumed. -/
def scanBuffer (target : Nat) : Nat → List UInt8 → Nat × Nat
  | skipped, [] => (skipped, 0)
  | skipped, byte :: rest =>
    if byte = newlineByte then
      if skipped + 1 = target then (skipped + 1, 1)
      else
        let (after, consumed) := scanBuffer target (skipped + 1) rest
        (after, consumed + 1)
    else
      let (after, consumed) := scanBuffer target skipped rest
      (after, consumed + 1)

/-- The loop that skips the lines before the offset, `none` where the file ends before. -/
def skipLoop (target : Nat) (fails : Bool) :
    Nat → List (List UInt8) → Except ToolError (Option (List (List UInt8)))
  | skipped, [] =>
    if skipped < target then
      if fails then .error .failed else .ok none
    else .ok (some [])
  | skipped, buffer :: rest =>
    if skipped < target then
      let (after, consumed) := scanBuffer target skipped buffer
      -- The scan stops early only at the last line to skip.
      if after < target then skipLoop target fails after rest
      else .ok (some (buffer.drop consumed :: rest))
    else .ok (some (buffer :: rest))

def takeLoop : Nat → List (List UInt8) → List UInt8 × List (List UInt8)
  | 0, buffers => ([], buffers)
  | _ + 1, [] => ([], [])
  | size + 1, buffer :: rest =>
    if buffer.length ≤ size + 1 then
      let (bytes, left) := takeLoop (size + 1 - buffer.length) rest
      (buffer ++ bytes, left)
    else (buffer.take (size + 1), buffer.drop (size + 1) :: rest)

/-- `AsyncReadExt::take` and `read_to_end`. -/
def Reader.take (reader : Reader) (size : Nat) : Except ToolError (List UInt8 × Reader) :=
  let (bytes, left) := takeLoop size reader.buffers
  if reader.fails && decide (bytes.length < size) then .error .failed
  else .ok (bytes, ⟨left, reader.fails⟩)

def countLoop : Nat → Option UInt8 → List (List UInt8) → Nat × Option UInt8
  | lines, last, [] => (lines, last)
  | lines, last, buffer :: rest =>
    match buffer.getLast? with
    | none => countLoop lines last rest
    | some byte => countLoop (lines + buffer.count newlineByte) (some byte) rest

/-- The lines of a beginning followed by the rest of the file. -/
def countLines (head : List UInt8) (reader : Reader) : Except ToolError Nat :=
  let (lines, last) := countLoop (head.count newlineByte) head.getLast? reader.buffers
  if reader.fails then .error .failed
  else
    .ok (lines +
      match last with
      | some byte => if byte ≠ newlineByte then 1 else 0
      | none => 0)

/-- The bytes up to the last newline, and those after it. -/
def splitLast (bytes : List UInt8) : List UInt8 × List UInt8 :=
  (bytes.rdropWhile (· ≠ newlineByte), bytes.rtakeWhile (· ≠ newlineByte))

end Reading

section Showing

/-- `str::replace("\r\n", "\n")`. -/
def replaceCrLf : List Char → List Char
  | '\r' :: '\n' :: rest => '\n' :: replaceCrLf rest
  | char :: rest => char :: replaceCrLf rest
  | [] => []

/-- The lines a tail adds: one, unless it is empty. -/
def tailLines (tail : List Char) : List (List Char) := if tail = [] then [] else [tail]

@[simp] theorem tail_lines_nil : tailLines [] = [] := rfl

/-- `str::split_terminator('\n')`. -/
def splitTerminator (text : List Char) : List (List Char) :=
  (Lines.split '\n' text).1 ++ tailLines (Lines.split '\n' text).2

/-- `char::escape_default`. -/
def escapeDefault (char : Char) : List Char :=
  if char = '\t' then ['\\', 't']
  else if char = '\r' then ['\\', 'r']
  else if char = '\n' then ['\\', 'n']
  else if char = '\'' ∨ char = '"' ∨ char = '\\' then ['\\', char]
  else if 0x20 ≤ char.toNat ∧ char.toNat ≤ 0x7e then [char]
  else '\\' :: 'u' :: '\x7b' :: (Nat.toDigits 16 char.toNat ++ ['\x7d'])

def renderChar (char : Char) : List Char :=
  if isControl char && char != '\t' then escapeDefault char else [char]

/-- A line as it is shown, behind its number. -/
def renderLine (number : Nat) (line : List Char) : List Char :=
  Nat.toDigits 10 number ++ [':', ' '] ++ line.flatMap renderChar

/-- The lines shown so far, and those that are left. -/
structure Display where
  output : List Char
  shown : Nat
  left : List (List Char)
deriving Repr

/-- The loop that shows lines. -/
def showLoop (offset limit : Nat) : List (List Char) → Nat → List Char → Display
  | [], shown, output => ⟨output, shown, []⟩
  | line :: lines, shown, output =>
    if shown < limit then
      let rendered := renderLine (offset + shown) line
      let separator := if 0 < shown then 1 else 0
      if byteLen output + separator + byteLen rendered > maxOutputBytes then
        ⟨output, shown, line :: lines⟩
      else
        showLoop offset limit lines (shown + 1)
          ((if 0 < shown then output ++ ['\n'] else output) ++ rendered)
    else ⟨output, shown, line :: lines⟩

/-- The notice behind the shown lines. -/
structure Notice where
  first : Nat
  last : Nat
  total : Nat
  limited : Bool
deriving DecidableEq, Repr

/-- The offset to continue from. -/
def Notice.next (notice : Notice) : Nat := notice.last + 1

def Notice.text (notice : Notice) : List Char :=
  "\n\n[Showing lines ".toList ++ Nat.toDigits 10 notice.first ++ "-".toList ++
    Nat.toDigits 10 notice.last ++ " of ".toList ++ Nat.toDigits 10 notice.total ++
    (if notice.limited then " (".toList ++ maxOutputSize ++ " limit)".toList else []) ++
    ". Use offset=".toList ++ Nat.toDigits 10 notice.next ++ " to continue.]".toList

/-- What the tool answers to a read of a file. -/
inductive ReadAnswer where
  | noLines (offset : Nat)
  | binary
  | emptyFile
  | oversized (offset : Nat) (path : List Char)
  | shown (output : List Char) (notice : Option Notice)
deriving DecidableEq, Repr

/-- `str::replace('\'', "'\\''")`. -/
def quotePath (path : List Char) : List Char :=
  path.flatMap fun char => if char = '\'' then "'\\''".toList else [char]

def binaryText : List Char := "Cannot read binary or non-UTF-8 content as text.".toList

def emptyText : List Char := "[empty file]".toList

def noLinesText (offset : Nat) : List Char :=
  "[no lines at or after offset ".toList ++ Nat.toDigits 10 offset ++ "]".toList

def oversizedText (offset : Nat) (path : List Char) : List Char :=
  "[Line ".toList ++ Nat.toDigits 10 offset ++ " exceeds the ".toList ++ maxOutputSize ++
    " limit. Use bash: sed -n '".toList ++ Nat.toDigits 10 offset ++ "p' '".toList ++
    quotePath path ++ "' | head -c ".toList ++ Nat.toDigits 10 maxOutputBytes ++ "]".toList

def ReadAnswer.text : ReadAnswer → List Char
  | .noLines offset => noLinesText offset
  | .binary => binaryText
  | .emptyFile => emptyText
  | .oversized offset path => oversizedText offset path
  | .shown output none => output
  | .shown output (some notice) => output ++ notice.text

/-- The text of the window, unless it is not UTF-8 or has a NUL. -/
def windowText (bytes : List UInt8) : Option (List Char) :=
  match decode bytes with
  | none => none
  | some text => if '\x00' ∈ text then none else some (replaceCrLf text)

/-- The notice, if lines are left. -/
def noticeAfter (input : ReadInput) (shown after : Nat) : Option Notice :=
  if 0 < after then
    some ⟨input.offset, input.offset + shown - 1, input.offset + shown - 1 + after,
      decide (shown < input.limit)⟩
  else none

/-- The answer to a window of the file. -/
def answerWindow (input : ReadInput) (more : Bool) (bytes rest : List UInt8) (left : Reader) :
    Except ToolError ReadAnswer :=
  match windowText bytes with
  | none => .ok .binary
  | some text =>
    if text = [] ∧ more = false then .ok .emptyFile
    else
      let display := showLoop input.offset input.limit (splitTerminator text) 0 []
      if display.shown = 0 then .ok (.oversized input.offset input.path)
      else do
        let after ← if more then countLines rest left else .ok 0
        .ok (.shown display.output
          (noticeAfter input display.shown (display.left.length + after)))

/-- What `read_file` does from the first line it shows. -/
def readWindow (input : ReadInput) (reader : Reader) : Except ToolError ReadAnswer := do
  let (bytes, left) ← reader.take (maxOutputBytes + 1)
  let more := decide (maxOutputBytes < bytes.length)
  let (bytes, rest) := if more then splitLast bytes else (bytes, [])
  answerWindow input more bytes rest left

/-- `read_file` on an opened file, before its answer is written as text. -/
def readAnswer (input : ReadInput) (reader : Reader) : Except ToolError ReadAnswer := do
  match ← skipLoop (input.offset - 1) reader.fails 0 reader.buffers with
  | none => .ok (.noLines input.offset)
  | some buffers => readWindow input ⟨buffers, reader.fails⟩

def readFile (input : ReadInput) (reader : Reader) : Except ToolError (List Char) :=
  (readAnswer input reader).map ReadAnswer.text

end Showing

section Buffers

/-- The bytes after so many newlines, if there are as many. -/
def skipBytes : Nat → List UInt8 → Option (List UInt8)
  | 0, bytes => some bytes
  | _ + 1, [] => none
  | lines + 1, byte :: rest =>
    if byte = newlineByte then skipBytes lines rest else skipBytes (lines + 1) rest

@[simp] theorem skip_bytes_zero (bytes : List UInt8) : skipBytes 0 bytes = some bytes := by
  rw [skipBytes]

theorem skip_bytes_nil {lines : Nat} (some : 0 < lines) : skipBytes lines [] = none := by
  obtain ⟨more, rfl⟩ := Nat.exists_eq_add_of_lt some
  rw [Nat.zero_add, skipBytes]

theorem skip_bytes_newline {lines : Nat} (some : 0 < lines) (rest : List UInt8) :
    skipBytes lines (newlineByte :: rest) = skipBytes (lines - 1) rest := by
  obtain ⟨more, rfl⟩ := Nat.exists_eq_add_of_lt some
  rw [Nat.zero_add, skipBytes, if_pos rfl, Nat.add_sub_cancel]

theorem skip_bytes_other {lines : Nat} (some : 0 < lines) {byte : UInt8}
    (other : byte ≠ newlineByte) (rest : List UInt8) :
    skipBytes lines (byte :: rest) = skipBytes lines rest := by
  obtain ⟨more, rfl⟩ := Nat.exists_eq_add_of_lt some
  rw [Nat.zero_add, skipBytes, if_neg other]

/-- A free line does not end a skipped line. -/
theorem skip_bytes_free {lines : Nat} (some : 0 < lines) {line : List UInt8}
    (free : newlineByte ∉ line) (rest : List UInt8) :
    skipBytes lines (line ++ rest) = skipBytes lines rest := by
  induction line with
  | nil => rfl
  | cons byte line inductionHypothesis =>
    have other : byte ≠ newlineByte := fun same => free (same ▸ List.mem_cons_self)
    rw [List.cons_append, skip_bytes_other some other]
    exact inductionHypothesis fun member => free (List.mem_cons_of_mem byte member)

/-- As many lines are skipped as there are, ended ones only. -/
theorem skip_bytes_join {lines : List (List UInt8)} (free : ∀ line ∈ lines, newlineByte ∉ line)
    {tail : List UInt8} (unended : newlineByte ∉ tail) (count : Nat) :
    skipBytes count (join newlineByte lines ++ tail) =
      if count ≤ lines.length then some (join newlineByte (lines.drop count) ++ tail)
      else none := by
  induction lines generalizing count with
  | nil =>
    cases count with
    | zero => rw [skip_bytes_zero, if_pos (Nat.zero_le _), List.drop_zero]
    | succ more =>
      have ended := skip_bytes_free more.zero_lt_succ unended []
      rw [List.append_nil, skip_bytes_nil more.zero_lt_succ] at ended
      rw [join_nil, List.nil_append, ended, List.length_nil, if_neg (Nat.not_succ_le_zero more)]
  | cons line lines inductionHypothesis =>
    cases count with
    | zero => rw [skip_bytes_zero, if_pos (Nat.zero_le _), List.drop_zero]
    | succ more =>
      have later := inductionHypothesis
        (fun line member => free line (List.mem_cons_of_mem _ member)) more
      rw [join_cons, List.append_assoc, List.cons_append,
        skip_bytes_free more.zero_lt_succ (free line List.mem_cons_self),
        skip_bytes_newline more.zero_lt_succ, Nat.succ_sub_one, later, List.drop_succ_cons,
        List.length_cons]
      simp only [Nat.add_le_add_iff_right]

/-- What one buffer skips. -/
theorem scan_buffer_skips (target : Nat) (buffer more : List UInt8) {skipped : Nat}
    (before : skipped < target) :
    skipBytes (target - skipped) (buffer ++ more) =
      if (scanBuffer target skipped buffer).1 < target then
        skipBytes (target - (scanBuffer target skipped buffer).1) more
      else some (buffer.drop (scanBuffer target skipped buffer).2 ++ more) := by
  induction buffer generalizing skipped with
  | nil =>
    rw [scanBuffer, if_pos before]
    rfl
  | cons byte buffer inductionHypothesis =>
    have positive : 0 < target - skipped := Nat.sub_pos_of_lt before
    rw [scanBuffer, List.cons_append]
    by_cases ends : byte = newlineByte
    · rw [if_pos ends, ends, skip_bytes_newline positive]
      by_cases last : skipped + 1 = target
      · have none : target - skipped - 1 = 0 := by omega
        rw [if_pos last, none, skip_bytes_zero, if_neg (by omega)]
        rfl
      · have next : target - skipped - 1 = target - (skipped + 1) := by omega
        rw [if_neg last, next]
        exact inductionHypothesis (by omega)
    · rw [if_neg ends, skip_bytes_other positive ends]
      exact inductionHypothesis before

/-- The loop skips the same bytes however they are buffered. -/
theorem skip_loop_skips (target : Nat) (buffers : List (List UInt8)) (skipped : Nat) :
    ∃ left, skipLoop target false skipped buffers = .ok left ∧
      left.map List.flatten = skipBytes (target - skipped) buffers.flatten := by
  induction buffers generalizing skipped with
  | nil =>
    rw [skipLoop]
    split
    · rename_i before
      refine ⟨none, rfl, ?_⟩
      rw [List.flatten_nil, skip_bytes_nil (Nat.sub_pos_of_lt before)]
      rfl
    · rename_i done
      refine ⟨some [], rfl, ?_⟩
      rw [Nat.sub_eq_zero_of_le (Nat.le_of_not_lt done)]
      rfl
  | cons buffer rest inductionHypothesis =>
    rw [skipLoop]
    split
    · rename_i before
      rw [List.flatten_cons, scan_buffer_skips target buffer rest.flatten before]
      dsimp only
      split
      · exact inductionHypothesis _
      · exact ⟨_, rfl, rfl⟩
    · rename_i done
      refine ⟨some (buffer :: rest), rfl, ?_⟩
      rw [Nat.sub_eq_zero_of_le (Nat.le_of_not_lt done), skip_bytes_zero, Option.map_some]

theorem take_loop_takes (size : Nat) (buffers : List (List UInt8)) :
    (takeLoop size buffers).1 = buffers.flatten.take size ∧
      (takeLoop size buffers).2.flatten = buffers.flatten.drop size := by
  induction buffers generalizing size with
  | nil =>
    cases size with
    | zero => exact ⟨rfl, rfl⟩
    | succ more => exact ⟨rfl, rfl⟩
  | cons buffer rest inductionHypothesis =>
    cases size with
    | zero => exact ⟨rfl, rfl⟩
    | succ more =>
      obtain ⟨taken, left⟩ := inductionHypothesis (more + 1 - buffer.length)
      rw [takeLoop, List.flatten_cons]
      split
      · rename_i whole
        rw [List.take_append, List.drop_append, List.take_of_length_le whole,
          List.drop_of_length_le whole, ← taken, ← left]
        exact ⟨rfl, rfl⟩
      · rename_i long
        have short : more + 1 ≤ buffer.length := Nat.le_of_not_le long
        rw [List.take_append_of_le_length short, List.drop_append_of_le_length short]
        exact ⟨rfl, rfl⟩

theorem Reader.take_takes (buffers : List (List UInt8)) (size : Nat) :
    ∃ left : Reader, Reader.take ⟨buffers, false⟩ size =
        .ok (buffers.flatten.take size, left) ∧
      left.fails = false ∧ left.buffers.flatten = buffers.flatten.drop size := by
  obtain ⟨taken, left⟩ := take_loop_takes size buffers
  refine ⟨⟨(takeLoop size buffers).2, false⟩, ?_, rfl, left⟩
  rw [← taken]
  rfl

/-- The lines of counted bytes: their newlines, and a last one that none ends. -/
def lineCount (bytes : List UInt8) : Nat :=
  bytes.count newlineByte +
    match bytes.getLast? with
    | some byte => if byte ≠ newlineByte then 1 else 0
    | none => 0

theorem count_loop_counts (head : List UInt8) (buffers : List (List UInt8)) :
    countLoop (head.count newlineByte) head.getLast? buffers =
      ((head ++ buffers.flatten).count newlineByte, (head ++ buffers.flatten).getLast?) := by
  induction buffers generalizing head with
  | nil =>
    rw [countLoop, List.flatten_nil, List.append_nil]
  | cons buffer rest inductionHypothesis =>
    have later := inductionHypothesis (head ++ buffer)
    rw [List.append_assoc, ← List.flatten_cons, List.count_append, List.getLast?_append] at later
    rw [countLoop, ← later]
    cases last : buffer.getLast? with
    | none =>
      rw [List.getLast?_eq_none_iff.mp last]
      rfl
    | some byte => rfl

theorem count_lines_counts (head : List UInt8) {reader : Reader} (works : reader.fails = false) :
    countLines head reader = .ok (lineCount (head ++ reader.buffers.flatten)) := by
  rw [countLines, count_loop_counts, works]
  rfl

/-- Counting finds every line, the last one also if it is not ended. -/
theorem line_count_join {lines : List (List UInt8)} (free : ∀ line ∈ lines, newlineByte ∉ line)
    {tail : List UInt8} (unended : newlineByte ∉ tail) :
    lineCount (join newlineByte lines ++ tail) =
      lines.length + if tail = [] then 0 else 1 := by
  rw [lineCount, count_join free unended]
  congr 1
  rcases List.eq_nil_or_concat tail with rfl | ⟨others, byte, rfl⟩
  · rw [List.append_nil, if_pos rfl]
    rcases join_ends newlineByte lines with nothing | ⟨front, last⟩
    · rw [nothing]
      rfl
    · rw [last, List.getLast?_append]
      rfl
  · have other : byte ≠ newlineByte := by
      rintro rfl
      exact unended (by simp)
    rw [List.concat_eq_append, ← List.append_assoc, List.getLast?_append]
    simp [other]

/-- The cut is behind the last ended line. -/
theorem split_last_join (lines : List (List UInt8)) {part : List UInt8}
    (unended : newlineByte ∉ part) :
    splitLast (join newlineByte lines ++ part) = (join newlineByte lines, part) :=
  Prod.ext_iff.mpr (cut_join lines unended)

end Buffers

section Texts

/-- A line without the carriage return that ends it together with its newline. -/
def stripCr (line : List Char) : List Char :=
  if line.getLast? = some '\r' then line.dropLast else line

/-- The lines of a file as the tool shows them. -/
def fileLines (text : List Char) : List (List Char) := splitTerminator (replaceCrLf text)

theorem replace_crlf_cons {char : Char} {rest : List Char}
    (plain : char ≠ '\r' ∨ rest.head? ≠ some '\n') :
    replaceCrLf (char :: rest) = char :: replaceCrLf rest := by
  rw [replaceCrLf]
  rintro others rfl rfl
  simp at plain

/-- A free line is replaced on its own. -/
theorem replace_crlf_line {line : List Char} (free : '\n' ∉ line) (rest : List Char) :
    replaceCrLf (line ++ '\n' :: rest) = stripCr line ++ '\n' :: replaceCrLf rest := by
  induction line with
  | nil => exact replace_crlf_cons (Or.inl (by decide))
  | cons char line inductionHypothesis =>
    have later := inductionHypothesis fun member => free (List.mem_cons_of_mem char member)
    cases line with
    | nil =>
      by_cases carriage : char = '\r'
      · subst carriage
        rfl
      · rw [List.cons_append, replace_crlf_cons (Or.inl carriage), later, stripCr, stripCr,
          if_neg (by simp), if_neg (by simpa using carriage)]
        rfl
    | cons second line =>
      have other : second ≠ '\n' := fun same => free (by simp [same])
      rw [List.cons_append, replace_crlf_cons (Or.inr (by simpa using other)), later, stripCr,
        stripCr, List.getLast?_cons_cons, List.dropLast_cons_cons]
      split
      · rfl
      · rfl

theorem replace_crlf_tail {tail : List Char} (free : '\n' ∉ tail) : replaceCrLf tail = tail := by
  induction tail with
  | nil => rfl
  | cons char tail inductionHypothesis =>
    have other : tail.head? ≠ some '\n' := by
      intro head
      exact free (List.mem_cons_of_mem char (List.mem_of_mem_head? head))
    rw [replace_crlf_cons (Or.inr other)]
    rw [inductionHypothesis fun member => free (List.mem_cons_of_mem char member)]

theorem strip_cr_sublist (line : List Char) : List.Sublist (stripCr line) line := by
  rw [stripCr]
  split
  · exact List.dropLast_sublist line
  · exact List.Sublist.refl line

theorem strip_cr_free {line : List Char} (free : '\n' ∉ line) : '\n' ∉ stripCr line :=
  fun member => free ((strip_cr_sublist line).mem member)

/-- Only a byte is stripped of a line. -/
theorem strip_cr_length (line : List Char) : byteLen line ≤ byteLen (stripCr line) + 1 := by
  rw [stripCr]
  split
  · rename_i last
    obtain ⟨front, rfl⟩ := List.getLast?_eq_some_iff.mp last
    rw [List.dropLast_concat, byte_len_append]
    exact Nat.le_refl _
  · exact Nat.le_succ _

theorem replace_crlf_join {lines : List (List Char)} (free : ∀ line ∈ lines, '\n' ∉ line)
    {tail : List Char} (unended : '\n' ∉ tail) :
    replaceCrLf (join '\n' lines ++ tail) = join '\n' (lines.map stripCr) ++ tail := by
  induction lines with
  | nil => exact replace_crlf_tail unended
  | cons line lines inductionHypothesis =>
    rw [join_cons, List.append_assoc, List.cons_append,
      replace_crlf_line (free line List.mem_cons_self),
      inductionHypothesis fun line member => free line (List.mem_cons_of_mem _ member),
      List.map_cons, join_cons, List.append_assoc, List.cons_append]

/-- The shown lines are the ended ones, each without its ending, and what follows them. -/
theorem file_lines_join {lines : List (List Char)} (free : ∀ line ∈ lines, '\n' ∉ line)
    {tail : List Char} (unended : '\n' ∉ tail) :
    fileLines (join '\n' lines ++ tail) = lines.map stripCr ++ tailLines tail := by
  have stripped : ∀ line ∈ lines.map stripCr, '\n' ∉ line := by
    intro line member
    obtain ⟨whole, inside, rfl⟩ := List.mem_map.mp member
    exact strip_cr_free (free whole inside)
  rw [fileLines, replace_crlf_join free unended, splitTerminator, split_join stripped unended]

theorem file_lines_length {lines : List (List Char)} (free : ∀ line ∈ lines, '\n' ∉ line)
    {tail : List Char} (unended : '\n' ∉ tail) :
    (fileLines (join '\n' lines ++ tail)).length = lines.length + if tail = [] then 0 else 1 := by
  rw [file_lines_join free unended, List.length_append, List.length_map, tailLines]
  split
  · rfl
  · rfl

end Texts

section Displays

/-- The lines as they are shown, numbered from the first. -/
def numbered : Nat → List (List Char) → List (List Char)
  | _, [] => []
  | number, line :: lines => renderLine number line :: numbered (number + 1) lines

theorem numbered_append (number : Nat) (first second : List (List Char)) :
    numbered number (first ++ second) =
      numbered number first ++ numbered (number + first.length) second := by
  induction first generalizing number with
  | nil => rfl
  | cons line first inductionHypothesis =>
    have next : number + 1 + first.length = number + (line :: first).length := by
      rw [List.length_cons]
      omega
    rw [List.cons_append, numbered, inductionHypothesis, next]
    rfl

theorem length_le_byte_len (text : List Char) : text.length ≤ byteLen text := by
  induction text with
  | nil => exact Nat.le_refl 0
  | cons char rest inductionHypothesis =>
    have positive := char.utf8Size_pos
    rw [List.length_cons, byte_len_cons]
    omega

/-- An escape is not shorter than its character. -/
theorem escape_default_length (char : Char) : char.utf8Size ≤ byteLen (escapeDefault char) := by
  rw [escapeDefault]
  split_ifs with tab carriage newline quoted printable
  · rw [tab]
    decide
  · rw [carriage]
    decide
  · rw [newline]
    decide
  · rw [byte_len_cons, byte_len_cons]
    omega
  · rw [byte_len_cons]
    omega
  · have small := char.utf8Size_le_four
    have long := length_le_byte_len
      ('\\' :: 'u' :: '\x7b' :: (Nat.toDigits 16 char.toNat ++ ['\x7d']))
    simp only [List.length_cons, List.length_append, List.length_nil] at long
    omega

theorem render_char_length (char : Char) : char.utf8Size ≤ byteLen (renderChar char) := by
  rw [renderChar]
  split
  · exact escape_default_length char
  · rw [byte_len_cons]
    omega

/-- A rendered line is longer than its source: there is a number before it. -/
theorem render_line_length (number : Nat) (line : List Char) :
    byteLen line + 3 ≤ byteLen (renderLine number line) := by
  have rendered : byteLen line ≤ byteLen (line.flatMap renderChar) := by
    induction line with
    | nil => exact Nat.le_refl 0
    | cons char rest inductionHypothesis =>
      have first := render_char_length char
      rw [List.flatMap_cons, byte_len_cons, byte_len_append]
      omega
  have digits : 0 < (Nat.toDigits 10 number).length := Nat.length_toDigits_pos
  have long := length_le_byte_len (Nat.toDigits 10 number)
  have colon : byteLen [':', ' '] = 2 := by decide
  rw [renderLine, byte_len_append, byte_len_append, colon]
  omega

/-- The output with its last line ended. -/
def endOutput (shown : Nat) (output : List Char) : List Char :=
  if shown = 0 then [] else output ++ ['\n']

/-- What the loop shows: lines from the first on, within the budget. -/
structure Shows (offset : Nat) (lines : List (List Char)) (shown : Nat) (output : List Char)
    (display : Display) (count : Nat) : Prop where
  within : count ≤ lines.length
  counted : display.shown = shown + count
  left : display.left = lines.drop count
  written : endOutput display.shown display.output =
    endOutput shown output ++ join '\n' (numbered (offset + shown) (lines.take count))
  fits : byteLen display.output ≤ maxOutputBytes

theorem shows_nothing {offset : Nat} {lines : List (List Char)} {shown : Nat}
    {output : List Char} (fits : byteLen output ≤ maxOutputBytes) :
    Shows offset lines shown output ⟨output, shown, lines⟩ 0 where
  within := Nat.zero_le _
  counted := rfl
  left := rfl
  written := by
    rw [List.take_zero, numbered, join_nil, List.append_nil]
  fits := fits

theorem show_loop_shows (offset limit : Nat) (lines : List (List Char)) (shown : Nat)
    (output : List Char) (opened : shown = 0 → output = [])
    (fits : byteLen output ≤ maxOutputBytes) :
    ∃ count, Shows offset lines shown output
      (showLoop offset limit lines shown output) count := by
  induction lines generalizing shown output with
  | nil => exact ⟨0, shows_nothing fits⟩
  | cons line lines inductionHypothesis =>
    rw [showLoop]
    dsimp only
    by_cases below : shown < limit
    · rw [if_pos below]
      by_cases full : byteLen output + (if 0 < shown then 1 else 0) +
          byteLen (renderLine (offset + shown) line) > maxOutputBytes
      · rw [if_pos full]
        exact ⟨0, shows_nothing fits⟩
      · rw [if_neg full]
        have ended : (if 0 < shown then output ++ ['\n'] else output) = endOutput shown output := by
          rw [endOutput]
          rcases Nat.eq_zero_or_pos shown with zero | positive
          · rw [zero, if_neg (Nat.lt_irrefl 0), if_pos rfl, opened zero]
          · rw [if_pos positive, if_neg (Nat.ne_of_gt positive)]
        have size : byteLen (endOutput shown output) ≤
            byteLen output + (if 0 < shown then 1 else 0) := by
          rw [← ended]
          split
          · rw [byte_len_append]
            exact Nat.le_refl _
          · exact Nat.le_refl _
        have room : byteLen (endOutput shown output ++ renderLine (offset + shown) line) ≤
            maxOutputBytes := by
          rw [byte_len_append]
          omega
        obtain ⟨count, shows⟩ := inductionHypothesis (shown + 1) _
          (fun zero => absurd zero (Nat.succ_ne_zero shown)) room
        rw [ended]
        refine ⟨count + 1, ?_, ?_, ?_, ?_, shows.fits⟩
        · exact Nat.succ_le_succ shows.within
        · rw [shows.counted]
          omega
        · exact shows.left
        · rw [shows.written, endOutput, if_neg (Nat.succ_ne_zero shown), List.take_succ_cons,
            numbered, join_cons]
          simp
          rfl
    · rw [if_neg below]
      exact ⟨0, shows_nothing fits⟩

/-- Nothing is shown only if the first line alone is too long. -/
theorem first_line_oversized {offset limit : Nat} {line : List Char} {lines : List (List Char)}
    (positive : 0 < limit)
    (nothing : (showLoop offset limit (line :: lines) 0 []).shown = 0) :
    maxOutputBytes < byteLen (renderLine offset line) := by
  by_contra short
  have fits : byteLen (renderLine offset line) ≤ maxOutputBytes := Nat.le_of_not_lt short
  have first : showLoop offset limit (line :: lines) 0 [] =
      showLoop offset limit lines 1 (renderLine offset line) := by
    rw [showLoop, if_pos positive]
    dsimp only
    rw [if_neg (Nat.lt_irrefl 0), Nat.add_zero, byte_len_nil, Nat.add_zero, Nat.zero_add,
      if_neg short]
    rfl
  obtain ⟨count, shows⟩ := show_loop_shows offset limit lines 1 _
    (fun zero => absurd zero Nat.one_ne_zero) fits
  rw [first, shows.counted] at nothing
  omega

end Displays

section Answers

/-- A reader at the start of a file with this text. -/
structure Reader.Reads (reader : Reader) (text : List Char) : Prop where
  works : reader.fails = false
  bytes : reader.buffers.flatten = encode text

variable {input : ReadInput} {reader : Reader}

/-- The answer to lines of which a first part is in the window. -/
def linesAnswer (input : ReadInput) (window : List (List Char)) (after : Nat) : ReadAnswer :=
  let display := showLoop input.offset input.limit window 0 []
  if display.shown = 0 then .oversized input.offset input.path
  else .shown display.output (noticeAfter input display.shown (display.left.length + after))

/-- The answer from the first line to show: what there is of the file from it on is empty, or
has lines. Then those in the window are shown, and only a long line is not in it. -/
inductive WindowAnswers (input : ReadInput) (text : List Char) : ReadAnswer → Prop where
  | empty (nothing : text = []) : WindowAnswers input text .emptyFile
  | lines (window rest : List (List Char)) (whole : fileLines text = window ++ rest)
      (there : fileLines text ≠ [])
      (long : window = [] → ∀ line ∈ rest.head?, maxOutputBytes ≤ byteLen line) :
      WindowAnswers input text (linesAnswer input window rest.length)

theorem replace_crlf_nil {text : List Char} (nothing : replaceCrLf text = []) : text = [] := by
  cases text with
  | nil => rfl
  | cons char rest =>
    exfalso
    by_cases plain : char ≠ '\r' ∨ rest.head? ≠ some '\n'
    · rw [replace_crlf_cons plain] at nothing
      cases nothing
    · simp only [not_or, not_not] at plain
      obtain ⟨rfl, head⟩ := plain
      cases rest with
      | nil => cases head
      | cons second rest =>
        cases head
        cases nothing

theorem file_lines_nil {text : List Char} (none : fileLines text = []) : text = [] := by
  rw [fileLines, splitTerminator, List.append_eq_nil_iff, tailLines] at none
  obtain ⟨unlined, untailed⟩ := none
  have whole := join_split '\n' (replaceCrLf text)
  rw [unlined] at whole
  split at untailed
  · rename_i unended
    rw [unended] at whole
    exact replace_crlf_nil whole.symm
  · cases untailed

theorem window_text_encode {text : List Char} (plain : '\x00' ∉ text) :
    windowText (encode text) = some (replaceCrLf text) := by
  rw [windowText, decode_encode]
  exact if_neg plain

/-- The answer to a window that has text. -/
theorem answer_window_lines {more : Bool} {bytes rest : List UInt8} {text : List Char}
    {after : Nat} (read : windowText bytes = some (replaceCrLf text))
    (some : text ≠ [] ∨ more = true) (counted : more = true → countLines rest reader = .ok after)
    (none : more = false → after = 0) :
    answerWindow input more bytes rest reader =
      .ok (linesAnswer input (fileLines text) after) := by
  have shown : ¬(replaceCrLf text = [] ∧ more = false) := by
    rintro ⟨nothing, whole⟩
    rcases some with filled | cut
    · exact filled (replace_crlf_nil nothing)
    · rw [whole] at cut
      cases cut
  rw [answerWindow, read]
  dsimp only
  rw [if_neg shown, linesAnswer, ← fileLines]
  by_cases nothing : (showLoop input.offset input.limit (fileLines text) 0 []).shown = 0
  · rw [if_pos nothing, if_pos nothing]
  · rw [if_neg nothing, if_neg nothing]
    cases more with
    | true =>
      rw [if_pos rfl, counted rfl]
      rfl
    | false =>
      rw [none rfl]
      rfl

/-- A file that fits the window is shown as a whole. -/
theorem read_window_whole {text : List Char} (reads : reader.Reads text)
    (plain : '\x00' ∉ text) (short : byteLen text ≤ maxOutputBytes) :
    ∃ answer, readWindow input reader = .ok answer ∧ WindowAnswers input text answer := by
  obtain ⟨left, taken, -, -⟩ := Reader.take_takes reader.buffers (maxOutputBytes + 1)
  have length : (encode text).length ≤ maxOutputBytes := by
    rw [encode_length]
    exact short
  have window : readWindow input reader = answerWindow input false (encode text) [] left := by
    rw [readWindow, show reader = ⟨reader.buffers, false⟩ by rw [← reads.works], taken, reads.bytes,
      List.take_of_length_le (Nat.le_succ_of_le length)]
    dsimp only [bind, Except.bind]
    rw [decide_eq_false (Nat.not_lt_of_le length)]
    rfl
  by_cases nothing : text = []
  · refine ⟨.emptyFile, ?_, WindowAnswers.empty nothing⟩
    rw [window, answerWindow, window_text_encode plain, nothing]
    rfl
  · refine ⟨linesAnswer input (fileLines text) 0, ?_, ?_⟩
    · rw [window]
      exact answer_window_lines (window_text_encode plain) (Or.inl nothing)
        (fun more => absurd more (by decide)) (fun _ => rfl)
    · have there : fileLines text ≠ [] := fun none => nothing (file_lines_nil none)
      exact WindowAnswers.lines (fileLines text) [] (List.append_nil _).symm there
        fun none => absurd none there

theorem encode_nil_iff {text : List Char} : encode text = [] ↔ text = [] := by
  constructor
  · intro none
    have short := length_le_byte_len text
    rw [← encode_length, none] at short
    exact List.length_eq_zero_iff.mp (Nat.le_zero.mp short)
  · rintro rfl
    rfl

/-- A line that fills the window stays longer than the budget without its ending. -/
theorem first_line_long {lines : List (List Char)} {tail line : List Char}
    {part others : List UInt8} (cut : newlineByte ∉ part)
    (length : part.length = maxOutputBytes + 1)
    (same : part ++ others = join newlineByte (lines.map encode) ++ encode tail)
    (head : line ∈ (lines.map stripCr ++ tailLines tail).head?) :
    maxOutputBytes ≤ byteLen line := by
  cases lines with
  | nil =>
    rw [List.map_nil, List.nil_append, tailLines] at head
    split at head
    · cases head
    · cases head
      have lengths := congrArg List.length same
      rw [List.length_append, length, List.map_nil, join_nil, List.nil_append,
        encode_length] at lengths
      omega
  | cons first lines =>
    cases head
    rw [List.map_cons, join_cons, List.append_assoc, List.cons_append] at same
    obtain ⟨more, whole, -⟩ := chunk_in_line cut same
    have lengths := congrArg List.length whole
    rw [List.length_append, length, encode_length] at lengths
    have stripped := strip_cr_length first
    omega

/-- A full window ends behind its last ended line. -/
theorem read_window_cut {lines : List (List Char)} {tail : List Char}
    (free : ∀ line ∈ lines, '\n' ∉ line) (unended : '\n' ∉ tail)
    (reads : reader.Reads (join '\n' lines ++ tail)) (plain : '\x00' ∉ join '\n' lines ++ tail)
    (long : maxOutputBytes < byteLen (join '\n' lines ++ tail)) :
    ∃ answer, readWindow input reader = .ok answer ∧
      WindowAnswers input (join '\n' lines ++ tail) answer := by
  obtain ⟨left, taken, works, others⟩ := Reader.take_takes reader.buffers (maxOutputBytes + 1)
  have coded : encode (join '\n' lines ++ tail) =
      join newlineByte (lines.map encode) ++ encode tail := by
    rw [encode_append, encode_join]
  have length : ((encode (join '\n' lines ++ tail)).take (maxOutputBytes + 1)).length =
      maxOutputBytes + 1 := by
    rw [List.length_take, encode_length]
    omega
  rw [reads.bytes] at taken others
  -- The window is whole lines and a beginning of the next.
  obtain ⟨whole, part, bytes, others', cut⟩ :
      ∃ whole part, (encode (join '\n' lines ++ tail)).take (maxOutputBytes + 1) =
        join newlineByte whole ++ part ∧ (∀ line ∈ whole, newlineByte ∉ line) ∧
          newlineByte ∉ part := by
    obtain ⟨separate, cut⟩ := split_free newlineByte
      ((encode (join '\n' lines ++ tail)).take (maxOutputBytes + 1))
    exact ⟨_, _, (join_split newlineByte _).symm, separate, cut⟩
  have same : join newlineByte whole ++ (part ++ left.buffers.flatten) =
      join newlineByte (lines.map encode) ++ encode tail := by
    rw [← List.append_assoc, ← bytes, others, List.take_append_drop, coded]
  obtain ⟨first, rest⟩ := lines_begin others' (lines_free free) (encode_free unended) same
  have within : whole.length ≤ lines.length := by
    have lengths := congrArg List.length first
    rw [List.length_take, List.length_map] at lengths
    omega
  have shown : join newlineByte whole = encode (join '\n' (lines.take whole.length) ++ []) := by
    rw [List.append_nil, encode_join, List.map_take, ← first]
  have taken_free : ∀ line ∈ lines.take whole.length, '\n' ∉ line :=
    fun line member => free line (List.mem_of_mem_take member)
  have dropped_free : ∀ line ∈ lines.drop whole.length, '\n' ∉ line :=
    fun line member => free line (List.mem_of_mem_drop member)
  have kept : '\x00' ∉ join '\n' (lines.take whole.length) ++ [] := by
    intro member
    apply plain
    rw [← List.take_append_drop whole.length lines, join_append, List.append_assoc]
    exact List.mem_append_left _ (by simpa using member)
  have listed : fileLines (join '\n' lines ++ tail) =
      fileLines (join '\n' (lines.take whole.length) ++ []) ++
        ((lines.drop whole.length).map stripCr ++ tailLines tail) := by
    rw [file_lines_join free unended, file_lines_join taken_free List.not_mem_nil,
      tail_lines_nil, List.append_nil, ← List.append_assoc, ← List.map_append,
      List.take_append_drop]
  have counted : countLines part left =
      .ok ((lines.drop whole.length).map stripCr ++ tailLines tail).length := by
    rw [count_lines_counts part works, rest, ← List.map_drop,
      line_count_join (lines_free dropped_free) (encode_free unended), List.length_append,
      List.length_map, List.length_map, tailLines]
    by_cases ended : tail = []
    · rw [if_pos ended, if_pos (encode_nil_iff.mpr ended)]
      rfl
    · rw [if_neg ended, if_neg fun none => ended (encode_nil_iff.mp none)]
      rfl
  have window : readWindow input reader =
      answerWindow input true (join newlineByte whole) part left := by
    rw [readWindow, show reader = ⟨reader.buffers, false⟩ by rw [← reads.works], taken]
    dsimp only [bind, Except.bind]
    rw [length, decide_eq_true (Nat.lt_succ_self _), if_pos rfl, bytes, split_last_join whole cut]
  refine ⟨linesAnswer input (fileLines (join '\n' (lines.take whole.length) ++ []))
    ((lines.drop whole.length).map stripCr ++ tailLines tail).length, ?_, ?_⟩
  · rw [window]
    refine answer_window_lines ?_ (Or.inr rfl) (fun _ => counted) (fun none => by cases none)
    rw [shown]
    exact window_text_encode kept
  · refine WindowAnswers.lines _ _ listed ?_ ?_
    · intro none
      rw [file_lines_nil none] at long
      exact absurd long (Nat.not_lt_zero _)
    · intro nothing line head
      have none : whole.length = 0 := by
        have lengths := file_lines_length taken_free List.not_mem_nil
        rw [nothing, if_pos rfl, List.length_take] at lengths
        simp only [List.length_nil] at lengths
        omega
      have whole_nil : whole = [] := List.length_eq_zero_iff.mp none
      rw [whole_nil, join_nil, List.nil_append] at bytes
      rw [none, List.drop_zero] at head
      rw [bytes] at length
      rw [whole_nil, join_nil, List.nil_append] at same
      exact first_line_long cut length same head

/-- What a read of a file answers: that there are too few lines, or what the window has. -/
inductive FileAnswers (input : ReadInput) (text : List Char) : ReadAnswer → Prop where
  | noLines (few : (Lines.split '\n' text).1.length < input.offset - 1) :
      FileAnswers input text (.noLines input.offset)
  | window (within : input.offset - 1 ≤ (Lines.split '\n' text).1.length) (answer : ReadAnswer)
      (answers : WindowAnswers input
        (join '\n' ((Lines.split '\n' text).1.drop (input.offset - 1)) ++
          (Lines.split '\n' text).2) answer) :
      FileAnswers input text answer

theorem read_answer_answers (input : ReadInput) {text : List Char} (reads : reader.Reads text)
    (plain : '\x00' ∉ text) :
    ∃ answer, readAnswer input reader = .ok answer ∧ FileAnswers input text answer := by
  obtain ⟨free, unended⟩ := split_free '\n' text
  have whole := join_split '\n' text
  obtain ⟨left, skipped, same⟩ := skip_loop_skips (input.offset - 1) reader.buffers 0
  have coded : encode text =
      join newlineByte ((Lines.split '\n' text).1.map encode) ++
        encode (Lines.split '\n' text).2 := by
    rw [← encode_join, ← encode_append, whole]
  rw [Nat.sub_zero, reads.bytes, coded, skip_bytes_join (lines_free free) (encode_free unended),
    List.length_map] at same
  rw [readAnswer, reads.works, skipped]
  by_cases within : input.offset - 1 ≤ (Lines.split '\n' text).1.length
  · rw [if_pos within, ← List.map_drop, ← encode_join, ← encode_append] at same
    obtain ⟨buffers, rfl, bytes⟩ := Option.map_eq_some_iff.mp same
    have rest : Reader.Reads ⟨buffers, false⟩
        (join '\n' ((Lines.split '\n' text).1.drop (input.offset - 1)) ++
          (Lines.split '\n' text).2) := ⟨rfl, bytes⟩
    have kept : '\x00' ∉ join '\n' ((Lines.split '\n' text).1.drop (input.offset - 1)) ++
        (Lines.split '\n' text).2 := by
      intro member
      apply plain
      rw [← whole, ← List.take_append_drop (input.offset - 1) (Lines.split '\n' text).1,
        join_append, List.append_assoc]
      exact List.mem_append_right _ member
    have dropped : ∀ line ∈ (Lines.split '\n' text).1.drop (input.offset - 1), '\n' ∉ line :=
      fun line member => free line (List.mem_of_mem_drop member)
    rcases Nat.lt_or_ge maxOutputBytes (byteLen (join '\n'
      ((Lines.split '\n' text).1.drop (input.offset - 1)) ++ (Lines.split '\n' text).2))
      with long | short
    · obtain ⟨answer, read, answers⟩ := read_window_cut dropped unended rest kept long
      exact ⟨answer, read, FileAnswers.window within answer answers⟩
    · obtain ⟨answer, read, answers⟩ := read_window_whole rest kept short
      exact ⟨answer, read, FileAnswers.window within answer answers⟩
  · rw [if_neg within] at same
    rw [Option.map_eq_none_iff.mp same]
    exact ⟨_, rfl, FileAnswers.noLines (Nat.lt_of_not_le within)⟩

/-- The lines from the offset on. -/
theorem file_lines_drop {text : List Char} {count : Nat}
    (within : count ≤ (Lines.split '\n' text).1.length) :
    fileLines (join '\n' ((Lines.split '\n' text).1.drop count) ++ (Lines.split '\n' text).2) =
      (fileLines text).drop count := by
  obtain ⟨free, unended⟩ := split_free '\n' text
  have listed := file_lines_join free unended
  rw [join_split] at listed
  rw [listed, List.drop_append_of_le_length (by rwa [List.length_map]), ← List.map_drop]
  exact file_lines_join (fun line member => free line (List.mem_of_mem_drop member)) unended

/-- Shown lines begin with a number. -/
theorem shown_output_head {offset : Nat} {window : List (List Char)} {display : Display}
    {count : Nat} (shows : Shows offset window 0 [] display count) (some : display.shown ≠ 0) :
    ∃ digit rest, display.output = digit :: rest ∧ digit.isDigit = true := by
  have counted := shows.counted
  have written := shows.written
  obtain ⟨line, others, taken⟩ : ∃ line others, window.take count = line :: others := by
    apply List.exists_cons_of_ne_nil
    intro none
    have length := congrArg List.length none
    rw [List.length_take, Nat.min_eq_left shows.within, List.length_nil] at length
    omega
  obtain ⟨digit, digits, number⟩ := List.exists_cons_of_ne_nil
    (Nat.toDigits_ne_nil (n := offset) (b := 10))
  have first : digit.isDigit = true := by
    apply Nat.isDigit_of_mem_toDigits (by decide) (Nat.le_refl 10)
    rw [number]
    exact List.mem_cons_self
  rw [taken, numbered, join_cons, renderLine, Nat.add_zero, number, endOutput, if_neg some,
    endOutput, if_pos rfl] at written
  simp only [List.cons_append, List.nil_append] at written
  cases output : display.output with
  | nil =>
    rw [output, List.nil_append] at written
    obtain ⟨rfl, -⟩ := List.cons.inj written
    exact absurd first (by decide)
  | cons head rest =>
    rw [output, List.cons_append] at written
    obtain ⟨rfl, -⟩ := List.cons.inj written
    exact ⟨head, rest, rfl, first⟩

theorem no_lines_text (offset : Nat) : (noLinesText offset).take 2 = ['[', 'n'] := by
  unfold noLinesText
  simp

theorem empty_text : emptyText.take 2 = ['[', 'e'] := by
  unfold emptyText
  simp

theorem oversized_text (offset : Nat) (path : List Char) :
    (oversizedText offset path).take 2 = ['[', 'L'] := by
  unfold oversizedText
  simp

/-- Lines are not answered as one of the notices. -/
theorem lines_answer_text (window : List (List Char)) (after : Nat) {second : Char}
    (other : second ≠ 'L') : (linesAnswer input window after).text.take 2 ≠ ['[', second] := by
  rw [linesAnswer]
  split
  · rw [ReadAnswer.text, oversized_text]
    intro same
    cases same
    exact other rfl
  · rename_i some
    obtain ⟨count, shows⟩ := show_loop_shows input.offset input.limit window 0 [] (fun _ => rfl)
      (Nat.zero_le _)
    obtain ⟨digit, rest, output, first⟩ := shown_output_head shows some
    rw [output]
    intro same
    generalize noticeAfter input _ _ = notice at same
    have number : digit = '[' := by
      cases notice with
      | none =>
        rw [ReadAnswer.text, List.take_succ_cons] at same
        exact (List.cons.inj same).1
      | some notice =>
        rw [ReadAnswer.text, List.cons_append, List.take_succ_cons] at same
        exact (List.cons.inj same).1
    rw [number] at first
    exact absurd first (by decide)

theorem no_lines_not_empty (offset : Nat) : noLinesText offset ≠ emptyText := by
  intro same
  have heads := congrArg (List.take 2) same
  rw [no_lines_text, empty_text] at heads
  exact absurd heads (by decide)

/-- A text whose last line is ended ends in a newline. -/
theorem last_of_join {text : List Char} : text.getLast? = some '\n' ↔
    text ≠ [] ∧ (Lines.split '\n' text).2 = [] := by
  obtain ⟨free, unended⟩ := split_free '\n' text
  have whole := join_split '\n' text
  constructor
  · intro last
    refine ⟨fun none => by simp [none] at last, ?_⟩
    by_contra some
    rw [← whole, List.getLast?_append_of_ne_nil _ some] at last
    exact unended (List.mem_of_getLast? last)
  · rintro ⟨some, none⟩
    rw [none, List.append_nil] at whole
    rcases List.eq_nil_or_concat (Lines.split '\n' text).1 with empty | ⟨before, line, lines⟩
    · rw [empty] at whole
      exact absurd whole.symm some
    · rw [← whole, lines, List.concat_eq_append, join_append]
      simp

/-- The tool says that a file is empty, or that it has too few lines, exactly where that is
so, unless the file ends in a newline and the offset is right behind its last line. -/
theorem end_notices_iff (input : ReadInput) {text : List Char} (reads : reader.Reads text)
    (plain : '\x00' ∉ text) (positive : 1 ≤ input.offset) :
    ((readFile input reader = .ok emptyText ↔ text = [] ∧ input.offset = 1) ∧
      (readFile input reader = .ok (noLinesText input.offset) ↔
        (fileLines text).length < input.offset ∧ ¬(text = [] ∧ input.offset = 1))) ↔
    ¬(text.getLast? = some '\n' ∧ input.offset = (fileLines text).length + 1) := by
  obtain ⟨free, unended⟩ := split_free '\n' text
  have whole := join_split '\n' text
  have length := file_lines_length free unended
  rw [whole] at length
  obtain ⟨answer, read, answers⟩ := read_answer_answers input reads plain
  rw [readFile, read, Except.map, Except.ok.injEq, Except.ok.injEq]
  cases answers with
  | noLines few =>
    have many : (fileLines text).length < input.offset := by
      split at length
      · omega
      · omega
    refine iff_of_true ⟨?_, ?_⟩ ?_
    · exact iff_of_false (no_lines_not_empty input.offset) (by rintro ⟨-, one⟩; omega)
    · exact iff_of_true rfl ⟨many, by rintro ⟨-, one⟩; omega⟩
    · rintro ⟨last, behind⟩
      rw [if_pos (last_of_join.mp last).2] at length
      omega
  | window within answer answers =>
    have kept := file_lines_drop within
    cases answers with
    | empty nothing =>
      rw [nothing] at kept
      have behind : (fileLines text).length ≤ input.offset - 1 := List.drop_eq_nil_iff.mp kept.symm
      have unlined : (Lines.split '\n' text).2 = [] := (List.append_eq_nil_iff.mp nothing).2
      rw [unlined, if_pos rfl] at length
      by_cases none : text = []
      · have one : input.offset = 1 := by
          rw [none] at length
          have zero : (Lines.split '\n' ([] : List Char)).1.length = 0 := rfl
          rw [none, zero] at within
          omega
        refine iff_of_true ⟨?_, ?_⟩ ?_
        · exact iff_of_true rfl ⟨none, one⟩
        · exact iff_of_false (no_lines_not_empty _).symm (fun few => few.2 ⟨none, one⟩)
        · rintro ⟨last, -⟩
          exact (last_of_join.mp last).1 none
      · refine iff_of_false ?_ ?_
        · rintro ⟨first, -⟩
          exact none (first.mp rfl).1
        · exact not_not_intro ⟨last_of_join.mpr ⟨none, unlined⟩, by omega⟩
    | lines window rest listed there long =>
      rw [kept] at there
      have inside : input.offset - 1 < (fileLines text).length := by
        by_contra outside
        exact there (List.drop_eq_nil_iff.mpr (Nat.le_of_not_lt outside))
      have filled : text ≠ [] := by
        rintro rfl
        exact absurd inside (Nat.not_lt_zero _)
      refine iff_of_true ⟨?_, ?_⟩ ?_
      · refine iff_of_false ?_ (fun none => filled none.1)
        intro same
        have heads := congrArg (List.take 2) same
        rw [empty_text] at heads
        exact lines_answer_text window rest.length (by decide) heads
      · refine iff_of_false ?_ (fun few => by omega)
        intro same
        have heads := congrArg (List.take 2) same
        rw [no_lines_text] at heads
        exact lines_answer_text window rest.length (by decide) heads
      · rintro ⟨-, behind⟩
        omega

def sampleReader : Reader := ⟨[[0x61], [0x0a]], false⟩

theorem sample_reads : sampleReader.Reads ['a', '\n'] := ⟨rfl, by decide⟩

theorem end_notices_of_ended_file :
    ((readFile ⟨['f'], 3, 2000⟩ sampleReader = .ok emptyText ↔ ['a', '\n'] = [] ∧ 3 = 1) ∧
      (readFile ⟨['f'], 3, 2000⟩ sampleReader = .ok (noLinesText 3) ↔
        (fileLines ['a', '\n']).length < 3 ∧ ¬(['a', '\n'] = [] ∧ 3 = 1))) ↔
    ¬(['a', '\n'].getLast? = some '\n' ∧ 3 = (fileLines ['a', '\n']).length + 1) :=
  end_notices_iff ⟨['f'], 3, 2000⟩ sample_reads (by decide) (by decide)

/-- Behind the newline that ends its only line, a file reads as empty. -/
theorem ended_file_reads_empty :
    ¬∀ (input : ReadInput) (reader : Reader) (text : List Char), reader.Reads text →
      '\x00' ∉ text → 1 ≤ input.offset →
      (readFile input reader = .ok emptyText ↔ text = [] ∧ input.offset = 1) ∧
        (readFile input reader = .ok (noLinesText input.offset) ↔
          (fileLines text).length < input.offset ∧ ¬(text = [] ∧ input.offset = 1)) := by
  intro claimed
  obtain ⟨first, -⟩ := claimed ⟨['f'], 2, 2000⟩ sampleReader ['a', '\n'] sample_reads
    (by decide) (by decide)
  have read : readFile ⟨['f'], 2, 2000⟩ sampleReader = .ok emptyText := by
    rfl
  exact absurd (first.mp read).1 (by decide)

end Answers

end MinicoreAgent.ReadTool

import MinicoreAgent.Lib.Results
import MinicoreAgent.WorkspaceRead

/-!
# Following the pages of a workspace file

A client that follows the ranges of its pages reads a file from a line to its end, whatever
limits each request has. Each page fits its budget, and each range is a place behind the one
before.
-/
namespace MinicoreAgent.WorkspaceRead

open Text TextLines JsonSize Results

section Sizes

def optionLen (text : Option (List Char)) : Nat := byteLen (optionJson text)

/-- The names, brackets, colons and commas of a result. -/
def frameLen : Nat :=
  objectLen [("path", 0), ("content", 0), ("start_line", 0), ("returned_lines", 0),
    ("revision", 0), ("truncated", 0), ("line_truncated", 0), ("next_range", 0), ("encoding", 0),
    ("status", 0), ("file_bytes", 0), ("file_modified_unix_ms", 0)]

theorem result_len (result : WorkspaceReadResult) : result.encodedLen =
    frameLen + stringLen result.path + stringLen result.content +
      numberLen result.startLine.toNat + numberLen result.returnedLines.toNat +
      optionLen (result.revision.map stringText) + boolLen result.truncated +
      boolLen result.lineTruncated + optionLen (result.nextRange.map WorkspaceReadRange.json) +
      byteLen result.encoding.json + byteLen result.status.json +
      numberLen result.fileBytes.toNat +
      optionLen (result.fileModifiedUnixMs.map fun number => numberText number.toNat) := by
  rw [WorkspaceReadResult.encodedLen, WorkspaceReadResult.json, object_text_len,
    object_len_values, frameLen]
  simp only [List.map_cons, List.map_nil, List.sum_cons, List.sum_nil, bool_text_len,
    number_text_len, string_text_len, optionLen]
  omega

theorem u32_len (number : UInt32) : numberLen number.toNat ≤ numberLen u32Max :=
  number_len_mono (Nat.le_of_lt_succ number.toNat_lt)

theorem u64_len (number : UInt64) : numberLen number.toNat ≤ numberLen (2 ^ 64 - 1) :=
  number_len_mono (Nat.le_of_lt_succ number.toNat_lt)

theorem range_len (range : Option WorkspaceReadRange) :
    optionLen (range.map WorkspaceReadRange.json) ≤
      byteLen (WorkspaceReadRange.json ⟨saturate u32Max, saturate u32Max⟩) := by
  have size (range : WorkspaceReadRange) : byteLen range.json =
      objectLen [("start_line", 0), ("line_byte_offset", 0)] +
        (numberLen range.startLine.toNat + numberLen range.lineByteOffset.toNat) := by
    rw [WorkspaceReadRange.json, object_text_len, object_len_values]
    simp [number_text_len]
  rw [size, saturate_exact u32Max (Nat.le_refl _)]
  cases range with
  | none =>
    have null : optionLen (Option.none.map WorkspaceReadRange.json) = 4 := rfl
    have names : 4 ≤ objectLen [("start_line", 0), ("line_byte_offset", 0)] := by decide
    omega
  | some range =>
    have line := u32_len range.startLine
    have offset := u32_len range.lineByteOffset
    have same : optionLen ((Option.some range).map WorkspaceReadRange.json) =
        byteLen range.json := rfl
    rw [same, size]
    omega

theorem modified_len (modified : Option UInt64) :
    optionLen (modified.map fun number => numberText number.toNat) ≤
      numberLen (2 ^ 64 - 1) := by
  cases modified with
  | none => decide
  | some number =>
    rw [Option.map_some, optionLen, optionJson, Option.getD_some, number_text_len]
    exact u64_len number

theorem hex_escaped (digit : Nat) (small : digit < 16) : escapedLen digit.digitChar = 1 := by
  decide +revert

/-- A revision is as long as the one it is measured with. -/
theorem digest_len (digest : Vector UInt8 32) : stringLen (digestHex digest) = 66 := by
  have bytes (list : List UInt8) : ((list.flatMap fun byte =>
      [(byte.toNat / 16).digitChar, (byte.toNat % 16).digitChar]).map escapedLen).sum =
        2 * list.length := by
    induction list with
    | nil => rfl
    | cons byte rest inductionHypothesis =>
      have small := byte.toNat_lt
      have high := hex_escaped (byte.toNat / 16) (by omega)
      have low := hex_escaped (byte.toNat % 16) (Nat.mod_lt _ (by decide))
      rw [List.flatMap_cons, List.map_append, List.sum_append, inductionHypothesis]
      simp only [List.map_cons, List.map_nil, List.sum_cons, List.sum_nil, high, low,
        List.length_cons]
      omega
  rw [stringLen, digestHex, bytes, Vector.length_toList]

theorem revision_len {revision : Option (List Char)}
    (whole : ∀ text ∈ revision, stringLen text = 66) :
    optionLen (revision.map stringText) ≤ 66 := by
  cases revision with
  | none => decide
  | some text =>
    rw [Option.map_some, optionLen, optionJson, Option.getD_some, string_text_len]
    exact Nat.le_of_eq (whole text rfl)

theorem probe_len (path : List Char) : (envelopeProbe path).encodedLen =
    frameLen + stringLen path + 2 + 2 * numberLen u32Max + 66 + 10 +
      byteLen (WorkspaceReadRange.json ⟨saturate u32Max, saturate u32Max⟩) +
      byteLen WorkspaceReadEncoding.unknown.json + byteLen WorkspaceReadStatus.tooLarge.json +
      2 * numberLen (2 ^ 64 - 1) := by
  have revision : optionLen ((some (List.replicate 64 'f')).map stringText) = 66 := by decide
  have modified : optionLen ((some (UInt64.ofNat (2 ^ 64 - 1))).map fun number =>
      numberText number.toNat) = numberLen (2 ^ 64 - 1) := by
    rw [Option.map_some, optionLen, optionJson, Option.getD_some, number_text_len]
    rfl
  rw [result_len, envelopeProbe]
  dsimp only
  rw [revision, modified, saturate_exact u32Max (Nat.le_refl _)]
  have bytes : (UInt64.ofNat (2 ^ 64 - 1)).toNat = 2 ^ 64 - 1 := rfl
  have empty : stringLen [] = 2 := rfl
  have range : optionLen ((some (⟨saturate u32Max, saturate u32Max⟩ : WorkspaceReadRange)).map
      WorkspaceReadRange.json) =
        byteLen (WorkspaceReadRange.json ⟨saturate u32Max, saturate u32Max⟩) := rfl
  have no : boolLen false = 5 := rfl
  rw [bytes, empty, range, no]
  omega

/-- A result whose content fits in what the envelope leaves fits in the budget. -/
theorem result_fits {result : WorkspaceReadResult} {maxBytes envelope : Nat}
    (measured : envelopeBytes result.path maxBytes = .ok envelope)
    (revision : ∀ text ∈ result.revision, stringLen text = 66)
    (content : jsonEscapedLen result.content ≤ maxBytes - envelope) :
    result.encodedLen ≤ maxBytes := by
  rw [envelopeBytes] at measured
  split at measured
  · cases measured
  · rename_i room
    cases measured
    have string : stringLen result.content = 2 + jsonEscapedLen result.content := rfl
    have line := u32_len result.startLine
    have lines := u32_len result.returnedLines
    have revision := revision_len revision
    have flag (value : Bool) : boolLen value ≤ 5 := by cases value <;> decide
    have truncated := flag result.truncated
    have inside := flag result.lineTruncated
    have range := range_len result.nextRange
    have encoding : byteLen result.encoding.json ≤
        byteLen WorkspaceReadEncoding.unknown.json := by
      cases result.encoding <;> decide
    have status : byteLen result.status.json ≤ byteLen WorkspaceReadStatus.tooLarge.json := by
      cases result.status <;> decide
    have length := u64_len result.fileBytes
    have modified := modified_len result.fileModifiedUnixMs
    rw [probe_len] at room content
    rw [result_len, string]
    omega

end Sizes

section OnePage

variable {sha256 : List UInt8 → Vector UInt8 32}

def WorkspaceReadRequest.firstLine (request : WorkspaceReadRequest) : UInt32 :=
  request.startLine.getD 1

def WorkspaceReadRequest.firstByte (request : WorkspaceReadRequest) : UInt32 :=
  request.lineByteOffset.getD 0

def WorkspaceReadRequest.budget (request : WorkspaceReadRequest) : Nat :=
  request.maxBytes.getD defaultResultBytes

theorem refuse_iff {condition : Prop} [Decidable condition] {error : AgentError}
    {next : Except AgentError Unit} :
    (if condition then .error error else next) = .ok () ↔ ¬condition ∧ next = .ok () := by
  split <;> simp_all

/-- A request that passes has a line to begin at and a number of lines to read. -/
theorem validated_positive {request : WorkspaceReadRequest} (valid : request.validate = .ok ()) :
    1 ≤ request.firstLine.toNat ∧ 0 < (request.maxLines.getD defaultMaxLines).toNat := by
  simp only [WorkspaceReadRequest.validate, refuse_iff] at valid
  obtain ⟨-, -, line, -, -, lines, -⟩ := valid
  have positive {number : UInt32} (other : number ≠ 0) : 0 < number.toNat :=
    Nat.pos_of_ne_zero fun zero => other (UInt32.toNat_inj.mp zero)
  constructor
  · rw [WorkspaceReadRequest.firstLine]
    cases given : request.startLine with
    | none => decide
    | some number =>
      refine positive fun zero => line ?_
      rw [given]
      exact congrArg some zero
  · cases given : request.maxLines with
    | none => decide
    | some number => exact positive fun zero => lines ⟨number, given, Or.inl zero⟩

/-- The request asks for a range of the same file. -/
def WorkspaceReadRequest.Asks (request : WorkspaceReadRequest) (path : List Char)
    (range : WorkspaceReadRange) : Prop :=
  request.path = path ∧ request.startLine = some range.startLine ∧
    request.lineByteOffset = some range.lineByteOffset

/-- The request without the place it asks for. -/
def WorkspaceReadRequest.options (request : WorkspaceReadRequest) : WorkspaceReadRequest :=
  { request with startLine := none, lineByteOffset := none }

/-- A request for a range passes if the rest of it does. -/
theorem asks_validate {request : WorkspaceReadRequest} {path : List Char}
    {range : WorkspaceReadRange} (asks : request.Asks path range)
    (line : range.startLine ≠ 0) (inside : range.lineByteOffset.toNat ≤ maxReadBytes)
    (valid : request.options.validate = .ok ()) : request.validate = .ok () := by
  obtain ⟨-, startLine, lineByteOffset⟩ := asks
  simp only [WorkspaceReadRequest.validate, refuse_iff] at valid ⊢
  obtain ⟨path, relative, -, -, -, others⟩ := valid
  refine ⟨path, relative, ?_, ?_, ?_, others⟩
  · rw [startLine]
    exact fun zero => line (Option.some.inj zero)
  · rw [startLine]
    exact fun both => Bool.false_ne_true both.2
  · rw [lineByteOffset]
    rintro ⟨offset, given, large⟩
    rw [← Option.some.inj given] at large
    omega

/-- A page fits in its budget, and what it keeps of the result before is not its content. -/
theorem read_text_keeps {before result : WorkspaceReadResult} {bytes : List UInt8}
    {offset maxLines : UInt32} {contentBudget : Nat} (positive : 0 < maxLines.toNat)
    (empty : before.content = [])
    (read : readText before bytes offset maxLines contentBudget = .ok result) :
    result.path = before.path ∧ result.revision = before.revision ∧
      jsonEscapedLen result.content ≤ contentBudget := by
  have nothing : jsonEscapedLen before.content ≤ contentBudget := by
    rw [empty]
    exact Nat.zero_le _
  rw [readText] at read
  split at read
  · cases read
    exact ⟨rfl, rfl, nothing⟩
  · obtain ⟨located, -, later⟩ := bind_ok.mp read
    cases located with
    | none =>
      cases later
      exact ⟨rfl, rfl, nothing⟩
    | some rest =>
      obtain ⟨page, selected, last⟩ := bind_ok.mp later
      cases last
      obtain ⟨-, fits, -⟩ := select_loop_selects positive (pieces_are '\n' rest).filled rfl
        (Nat.zero_le _) (Nat.zero_le _) selected
      exact ⟨rfl, rfl, fits⟩

/-- Whatever the file is, the answer fits in the budget of the request. -/
theorem read_until_fits {request : WorkspaceReadRequest} {capture : Except AgentError FileCapture}
    {result : WorkspaceReadResult} (read : readUntil sha256 request capture = .ok result) :
    result.encodedLen ≤ request.budget := by
  rw [readUntil] at read
  obtain ⟨_, valid, read⟩ := bind_ok.mp read
  obtain ⟨envelope, measured, read⟩ := bind_ok.mp read
  obtain ⟨capture, -, read⟩ := bind_ok.mp read
  have positive := (validated_positive valid).2
  cases capture with
  | missing => cases read
  | error error => cases read
  | tooLarge length modified =>
    cases read
    exact result_fits measured (by simp) (Nat.zero_le _)
  | complete bytes length modified stable =>
    dsimp only at read
    split at read
    · split at read
      · cases read
        exact result_fits measured (by simp [digest_len]) (Nat.zero_le _)
      · obtain ⟨path, revision, fits⟩ := read_text_keeps positive rfl read
        refine result_fits (by rw [path]; exact measured) ?_ fits
        rw [revision]
        simp [digest_len]
    · cases read
      exact result_fits measured (by simp) (Nat.zero_le _)

/-- A text file within the size bound that stays as it is. -/
structure TextFile where
  text : List Char
  modified : Option UInt64
  plain : '\x00' ∉ text
  small : byteLen text ≤ maxReadBytes

def TextFile.capture (file : TextFile) : FileCapture :=
  .complete (encode file.text) (UInt64.ofNat (byteLen file.text)) file.modified true

variable {file : TextFile}

theorem readable_text (file : TextFile) : readableText (encode file.text) = some file.text := by
  have none : (encode file.text).contains 0 = false := by
    rw [Bool.eq_false_iff, Ne, List.contains_iff_mem]
    exact fun zero => file.plain (zero_mem_encode zero)
  rw [readableText, none, if_neg Bool.false_ne_true, decode_encode]

/-- What one page is: the first part of what there is from the place that was asked for,
and the place where the rest is. -/
structure IsPage (file : TextFile) (startLine offset : Nat) (result : WorkspaceReadResult) : Prop where
  truncated : result.truncated = result.nextRange.isSome
  reads : ∃ rest left, locate file.text startLine offset = .ok rest ∧
    rest.getD [] = result.content ++ left ∧
    Continues file.text startLine offset left result.nextRange ∧
    (result.nextRange.isSome → result.content ≠ [])

theorem read_text_page {before result : WorkspaceReadResult} {offset maxLines : UInt32}
    {contentBudget : Nat} (line : 1 ≤ before.startLine.toNat) (positive : 0 < maxLines.toNat)
    (empty : before.content = []) (whole : before.truncated = false)
    (last : before.nextRange = none)
    (read : readText before (encode file.text) offset maxLines contentBudget = .ok result) :
    IsPage file before.startLine.toNat offset.toNat result := by
  have small : byteLen file.text < u32Max := Nat.lt_of_le_of_lt file.small (by decide)
  rw [readText, readable_text] at read
  obtain ⟨located, found, later⟩ := bind_ok.mp read
  cases located with
  | none =>
    cases later
    refine ⟨by rw [whole, last]; rfl, none, [], found, by rw [empty]; rfl, ?_, ?_⟩
    · rw [last]
      exact Continues.done rfl
    · rw [last]
      exact fun goesOn => absurd goesOn Bool.false_ne_true
  | some rest =>
    obtain ⟨page, selected, last⟩ := bind_ok.mp later
    cases last
    obtain ⟨left, same, continues, some⟩ :=
      page_continues small positive ((locate_iff line).mp found) selected
    exact ⟨rfl, rest, left, found, same, continues, some⟩

/-- A page of a text file that is not refused. -/
theorem read_until_page {request : WorkspaceReadRequest} {result : WorkspaceReadResult}
    (read : readUntil sha256 request (.ok file.capture) = .ok result)
    (status : result.status = .ok) :
    IsPage file request.firstLine.toNat request.firstByte.toNat result ∧
      result.path = request.path := by
  have length : (encode file.text).length = (UInt64.ofNat (byteLen file.text)).toNat := by
    have small := file.small
    rw [encode_length, UInt64.toNat_ofNat_of_lt' (Nat.lt_of_le_of_lt small (by decide))]
  rw [readUntil] at read
  obtain ⟨_, valid, read⟩ := bind_ok.mp read
  obtain ⟨envelope, measured, read⟩ := bind_ok.mp read
  obtain ⟨capture, captured, read⟩ := bind_ok.mp read
  obtain ⟨line, positive⟩ := validated_positive valid
  cases captured
  rw [TextFile.capture] at read
  dsimp only at read
  rw [length, decide_eq_true rfl, Bool.and_self, if_pos rfl] at read
  split at read
  · cases read
    cases status
  · exact ⟨read_text_page line positive rfl rfl rfl read, (read_text_keeps positive rfl read).1⟩

end OnePage

section Following

variable {sha256 : List UInt8 → Vector UInt8 32} {file : TextFile}

/-- Pages one after another, each but the first from the range that the page before names,
and the range that the last one names. Every request has limits of its own. -/
inductive Pages (sha256 : List UInt8 → Vector UInt8 32) (file : TextFile) :
    WorkspaceReadRequest → List WorkspaceReadResult → Option WorkspaceReadRange → Prop where
  | one {request : WorkspaceReadRequest} {result : WorkspaceReadResult}
      (read : readUntil sha256 request (.ok file.capture) = .ok result)
      (status : result.status = .ok) : Pages sha256 file request [result] result.nextRange
  | more {request next : WorkspaceReadRequest} {result : WorkspaceReadResult}
      {range : WorkspaceReadRange} {results : List WorkspaceReadResult}
      {last : Option WorkspaceReadRange}
      (read : readUntil sha256 request (.ok file.capture) = .ok result)
      (status : result.status = .ok) (goesOn : result.nextRange = some range)
      (asks : next.Asks request.path range) (later : Pages sha256 file next results last) :
      Pages sha256 file request (result :: results) last

/-- The text from a line to the end. -/
def TextFile.fromLine (file : TextFile) (line : Nat) : List Char :=
  ((pieces '\n' file.text).drop (line - 1)).flatten

theorem place_filled {text rest : List Char} {line offset : Nat}
    (place : Place text line offset rest) : rest ≠ [] := by
  cases place with
  | «at» whole some => simp [some]

/-- Nothing is left exactly where no range is named. -/
theorem continues_end {text left : List Char} {line offset : Nat}
    {range : Option WorkspaceReadRange} (continues : Continues text line offset left range) :
    range = none ↔ left = [] := by
  cases continues with
  | done nothing => exact iff_of_true rfl nothing
  | next range place after => exact iff_of_false (by simp) (place_filled place)

theorem from_line {line : Nat} {rest : Option (List Char)} (positive : 1 ≤ line)
    (located : locate file.text line 0 = .ok rest) : rest.getD [] = file.fromLine line := by
  cases rest with
  | none =>
    have few := ((locate_none_iff positive).mp located).1
    rw [TextFile.fromLine, List.drop_of_length_le (by omega)]
    rfl
  | some rest =>
    have whole_line {line offset : Nat} (place : Place file.text line offset rest)
        (zero : offset = 0) : rest = file.fromLine line := by
      cases place with
      | «at» whole some =>
        rename_i front back before after
        have none : before = [] := by
          by_contra filled
          have positive := byte_len_pos filled
          omega
        rw [TextFile.fromLine, whole, none, Nat.add_sub_cancel, List.drop_left]
        rfl
    exact whole_line ((locate_iff positive).mp located) rfl

/-- A range that a page names is a place of the file, behind the one that was asked for. -/
theorem page_range {request next : WorkspaceReadRequest} {result : WorkspaceReadResult}
    {range : WorkspaceReadRange} {left : List Char} {line offset : Nat}
    (continues : Continues file.text line offset left result.nextRange)
    (goesOn : result.nextRange = some range) (asks : next.Asks request.path range) :
    After line offset range ∧ left ≠ [] ∧ range.startLine ≠ 0 ∧
      range.lineByteOffset.toNat ≤ maxReadBytes ∧
      locate file.text next.firstLine.toNat next.firstByte.toNat = .ok (some left) := by
  rw [goesOn] at continues
  cases continues with
  | next range place after =>
    have bounds {line offset : Nat} (place : Place file.text line offset left) :
        1 ≤ line ∧ offset ≤ maxReadBytes := by
      cases place with
      | «at» whole some =>
        rename_i front back before after
        have size : byteLen (before ++ after) ≤ byteLen file.text :=
          piece_size_le (by rw [whole]; simp)
        have small := file.small
        rw [byte_len_append] at size
        omega
    obtain ⟨positive, inside⟩ := bounds place
    obtain ⟨-, startLine, lineByteOffset⟩ := asks
    refine ⟨after, place_filled place, ?_, inside, ?_⟩
    · rintro zero
      rw [zero] at positive
      exact absurd positive (by decide)
    · rw [WorkspaceReadRequest.firstLine, WorkspaceReadRequest.firstByte, startLine,
        lineByteOffset]
      exact (locate_iff positive).mpr place

/-- What pages hold together is the first part of what there is from the first place on. -/
theorem pages_read {request : WorkspaceReadRequest} {results : List WorkspaceReadResult}
    {last : Option WorkspaceReadRange} (pages : Pages sha256 file request results last) :
    ∃ rest left, locate file.text request.firstLine.toNat request.firstByte.toNat = .ok rest ∧
      rest.getD [] = (results.map WorkspaceReadResult.content).flatten ++ left ∧
      (last = none ↔ left = []) ∧
      results.map WorkspaceReadResult.truncated =
        List.replicate (results.length - 1) true ++ [last.isSome] ∧
      results.length + left.length ≤ (rest.getD []).length + 1 := by
  induction pages with
  | one read status =>
    obtain ⟨⟨truncated, rest, left, located, same, continues, -⟩, -⟩ := read_until_page read status
    refine ⟨rest, left, located, ?_, continues_end continues, ?_, ?_⟩
    · rw [same, List.map_singleton, List.flatten_singleton]
    · rw [List.map_singleton, truncated]
      rfl
    · rw [same, List.length_append, List.length_singleton]
      omega
  | more read status goesOn asks later inductionHypothesis =>
    rename_i request next result range results last
    obtain ⟨⟨truncated, rest, left, located, same, continues, filled⟩, -⟩ :=
      read_until_page read status
    obtain ⟨-, -, -, -, there⟩ := page_range continues goesOn asks
    obtain ⟨found, others, again, together, ends, flags, count⟩ := inductionHypothesis
    rw [there] at again
    cases again
    rw [goesOn] at truncated filled
    have size := List.length_pos_of_ne_nil (filled rfl)
    have some : results ≠ [] := by
      cases later with
      | one => exact List.cons_ne_nil _ _
      | more => exact List.cons_ne_nil _ _
    have number := List.length_pos_of_ne_nil some
    rw [Option.getD_some] at together count
    refine ⟨rest, others, located, ?_, ends, ?_, ?_⟩
    · rw [same, together, List.map_cons, List.flatten_cons, List.append_assoc]
    · have one : (result :: results).length - 1 = results.length - 1 + 1 := by
        rw [List.length_cons]
        omega
      rw [List.map_cons, flags, truncated, one, List.replicate_succ, List.cons_append]
      rfl
    · rw [same, List.length_append, List.length_cons]
      omega

/-- Following the ranges of a file's pages reads it from a line to its end. Every page fits
in the budget of its request, is truncated exactly where it names a range, and names one
that lies behind its own and that the next request may ask for. -/
theorem file_pages_reassemble (sha256 : List UInt8 → Vector UInt8 32) (file : TextFile) :
    (∀ request capture result, readUntil sha256 request capture = .ok result →
      result.encodedLen ≤ request.budget) ∧
    (∀ request result, readUntil sha256 request (.ok file.capture) = .ok result →
      result.status = .ok → ∀ range ∈ result.nextRange,
        After request.firstLine.toNat request.firstByte.toNat range ∧
        ∀ next : WorkspaceReadRequest, next.Asks request.path range →
          next.options.validate = .ok () → next.validate = .ok () ∧
            ∃ rest, rest ≠ [] ∧
              locate file.text next.firstLine.toNat next.firstByte.toNat = .ok (some rest)) ∧
    ∀ request results last, request.firstByte = 0 → Pages sha256 file request results last →
      (∃ left, file.fromLine request.firstLine.toNat =
          (results.map WorkspaceReadResult.content).flatten ++ left ∧ (last = none ↔ left = [])) ∧
        results.map WorkspaceReadResult.truncated =
          List.replicate (results.length - 1) true ++ [last.isSome] ∧
        results.length ≤ file.text.length + 1 := by
  refine ⟨fun request capture result read => read_until_fits read, ?_, ?_⟩
  · intro request result read status range goesOn
    obtain ⟨⟨-, rest, left, -, -, continues, -⟩, -⟩ := read_until_page read status
    have ranges {next : WorkspaceReadRequest} (asks : next.Asks request.path range) :=
      page_range continues goesOn asks
    constructor
    · let next : WorkspaceReadRequest :=
        { request with
          startLine := some range.startLine
          lineByteOffset := some range.lineByteOffset }
      have asks : next.Asks request.path range := ⟨rfl, rfl, rfl⟩
      exact (ranges asks).1
    · intro next asks valid
      obtain ⟨-, filled, line, inside, located⟩ := ranges asks
      exact ⟨asks_validate asks line inside valid, left, filled, located⟩
  · intro request results last start pages
    obtain ⟨rest, left, located, together, ends, flags, count⟩ := pages_read pages
    have positive : 1 ≤ request.firstLine.toNat := by
      cases pages with
      | one read status =>
        rw [readUntil] at read
        obtain ⟨_, valid, -⟩ := bind_ok.mp read
        exact (validated_positive valid).1
      | more read status goesOn asks later =>
        rw [readUntil] at read
        obtain ⟨_, valid, -⟩ := bind_ok.mp read
        exact (validated_positive valid).1
    rw [start] at located
    have whole := from_line positive located
    refine ⟨⟨left, whole.symm.trans together, ends⟩, flags, ?_⟩
    have shorter : (file.fromLine request.firstLine.toNat).length ≤ file.text.length := by
      have parts := congrArg List.flatten
        (List.take_append_drop (request.firstLine.toNat - 1) (pieces '\n' file.text))
      rw [List.flatten_append, pieces_flatten] at parts
      have size := congrArg List.length parts
      rw [List.length_append] at size
      rw [TextFile.fromLine]
      omega
    rw [whole] at count
    omega

def sampleFile : TextFile where
  text := "ab\ncd".toList
  modified := none
  plain := by decide
  small := by decide

def sampleRequest (line : Option UInt32) : WorkspaceReadRequest where
  path := "a".toList
  startLine := line
  lineByteOffset := line.map fun _ => 0
  maxLines := some 1
  maxBytes := none
  ifRevision := none

def samplePage (content : List Char) (line : UInt32) (next : Option WorkspaceReadRange) :
    WorkspaceReadResult where
  path := "a".toList
  content := content
  startLine := line
  returnedLines := 1
  revision := some (List.replicate 64 '0')
  truncated := next.isSome
  lineTruncated := false
  nextRange := next
  encoding := .utf8
  status := .ok
  fileBytes := 5
  fileModifiedUnixMs := none

def samplePages : List WorkspaceReadResult :=
  [samplePage "ab\n".toList 1 (some ⟨2, 0⟩), samplePage "cd".toList 2 none]

theorem sample_file_pages_reassemble :
    (∃ left, sampleFile.fromLine (sampleRequest none).firstLine.toNat =
        (samplePages.map WorkspaceReadResult.content).flatten ++ left ∧
          ((none : Option WorkspaceReadRange) = none ↔ left = [])) ∧
      samplePages.map WorkspaceReadResult.truncated =
        List.replicate (samplePages.length - 1) true ++
          [(none : Option WorkspaceReadRange).isSome] ∧
      samplePages.length ≤ sampleFile.text.length + 1 := by
  have first : readUntil (fun _ => Vector.replicate 32 0) (sampleRequest none)
      (.ok sampleFile.capture) = .ok (samplePage "ab\n".toList 1 (some ⟨2, 0⟩)) := by
    decide +kernel
  have second : readUntil (fun _ => Vector.replicate 32 0) (sampleRequest (some 2))
      (.ok sampleFile.capture) = .ok (samplePage "cd".toList 2 none) := by
    decide +kernel
  have asks : (sampleRequest (some 2)).Asks (sampleRequest none).path ⟨2, 0⟩ := ⟨rfl, rfl, rfl⟩
  have pages := Pages.more first rfl rfl asks (Pages.one second rfl)
  exact (file_pages_reassemble (fun _ => Vector.replicate 32 0) sampleFile).2.2 (sampleRequest none)
    samplePages none rfl pages

end Following

end MinicoreAgent.WorkspaceRead

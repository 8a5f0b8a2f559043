import MinicoreAgent.Lib.JsonText
import MinicoreAgent.Lib.UnixPaths
import MinicoreAgent.WorkspaceLines

/-!
# Pages of a workspace file

One read returns whole lines, and of the last one a beginning, within an encoded budget from
which the widest form of everything else is taken first. Where the page stops, it names the
place to continue at.
-/
namespace MinicoreAgent.WorkspaceRead

open Text TextLines JsonSize UnixPaths

/-- `MAX_PATH_BYTES`, `MAX_READ_BYTES`, `MAX_MAX_LINES` and `DEFAULT_MAX_LINES`. -/
def maxPathBytes : Nat := 4096

def maxReadBytes : Nat := 512 * 1024

def maxMaxLines : Nat := 2000

def defaultMaxLines : UInt32 := 400

/-- `MIN_RESULT_BYTES`, `MAX_RESULT_BYTES` and `DEFAULT_RESULT_BYTES`. -/
def minResultBytes : Nat := 1024

def maxResultBytes : Nat := 256 * 1024

def defaultResultBytes : Nat := 64 * 1024

def u32Max : Nat := 4294967295

/-- The largest `u32` that is not larger: `saturating_add`, and `try_from` with its maximum
as the default. -/
def saturate (number : Nat) : UInt32 := UInt32.ofNat (min number u32Max)

structure WorkspaceReadRequest where
  path : List Char
  startLine : Option UInt32
  lineByteOffset : Option UInt32
  maxLines : Option UInt32
  maxBytes : Option Nat
  ifRevision : Option (List Char)
deriving Repr

structure WorkspaceReadRange where
  startLine : UInt32
  lineByteOffset : UInt32
deriving DecidableEq, Repr

inductive WorkspaceReadStatus where
  | ok
  | binary
  | changed
  | tooLarge
deriving DecidableEq, Repr

inductive WorkspaceReadEncoding where
  | utf8
  | unknown
deriving DecidableEq, Repr

structure WorkspaceReadResult where
  path : List Char
  content : List Char
  startLine : UInt32
  returnedLines : UInt32
  revision : Option (List Char)
  truncated : Bool
  lineTruncated : Bool
  nextRange : Option WorkspaceReadRange
  encoding : WorkspaceReadEncoding
  status : WorkspaceReadStatus
  fileBytes : UInt64
  fileModifiedUnixMs : Option UInt64
deriving DecidableEq, Repr

section Encoding

def optionJson (text : Option (List Char)) : List Char := text.getD nullText

def WorkspaceReadRange.json (range : WorkspaceReadRange) : List Char :=
  objectText [("start_line", numberText range.startLine.toNat),
    ("line_byte_offset", numberText range.lineByteOffset.toNat)]

def WorkspaceReadEncoding.json : WorkspaceReadEncoding → List Char
  | .utf8 => stringText "utf8".toList
  | .unknown => stringText "unknown".toList

def WorkspaceReadStatus.json : WorkspaceReadStatus → List Char
  | .ok => stringText "ok".toList
  | .binary => stringText "binary".toList
  | .changed => stringText "changed".toList
  | .tooLarge => stringText "too_large".toList

def WorkspaceReadResult.json (result : WorkspaceReadResult) : List Char :=
  objectText [("path", stringText result.path), ("content", stringText result.content),
    ("start_line", numberText result.startLine.toNat),
    ("returned_lines", numberText result.returnedLines.toNat),
    ("revision", optionJson (result.revision.map stringText)),
    ("truncated", boolText result.truncated),
    ("line_truncated", boolText result.lineTruncated),
    ("next_range", optionJson (result.nextRange.map WorkspaceReadRange.json)),
    ("encoding", result.encoding.json), ("status", result.status.json),
    ("file_bytes", numberText result.fileBytes.toNat),
    ("file_modified_unix_ms",
      optionJson (result.fileModifiedUnixMs.map fun number => numberText number.toNat))]

/-- `encoded_len`. -/
def WorkspaceReadResult.encodedLen (result : WorkspaceReadResult) : Nat := byteLen result.json

end Encoding

section Selecting

structure Page where
  content : List Char
  lines : Nat
  lineTruncated : Bool
  next : Option WorkspaceReadRange
deriving DecidableEq, Repr

/-- `json_escaped_len`. -/
def jsonEscapedLen (text : List Char) : Nat := (text.map escapedLen).sum

/-- The loop over the lines from the place on, the first of which may have lost its
beginning. -/
def selectLoop (startLine maxLines contentBudget : Nat) :
    List (List Char) → List Char → Nat → Nat → Nat → Except AgentError Page
  | [], content, _, lines, _ => .ok ⟨content, lines, false, none⟩
  | segment :: rest, content, escaped, lines, lineOffset =>
    if lines ≥ maxLines then
      .ok ⟨content, lines, false, some ⟨saturate (startLine + lines), 0⟩⟩
    else
      let segmentEscaped := jsonEscapedLen segment
      let remaining := contentBudget - escaped
      if segmentEscaped ≤ remaining then
        selectLoop startLine maxLines contentBudget rest (content ++ segment)
          (escaped + segmentEscaped) (lines + 1) 0
      else
        let take := stringWithin segment (remaining + 2)
        if take = [] then
          if lines = 0 then .error .invalidArguments
          else .ok ⟨content, lines, false, some ⟨saturate (startLine + lines), 0⟩⟩
        else
          .ok ⟨content ++ take, lines + 1, true,
            some ⟨saturate (startLine + lines), saturate (lineOffset + byteLen take)⟩⟩

/-- `select_page` on the text from the place on. -/
def selectPage (rest : List Char) (startLine offset maxLines contentBudget : Nat) :
    Except AgentError Page :=
  selectLoop startLine maxLines contentBudget (pieces '\n' rest) [] 0 0 offset

end Selecting

section Reading

/-- `valid_revision`. -/
def validRevision (value : List Char) : Bool :=
  byteLen value = 64 && value.all fun char =>
    char.isDigit || ('a' ≤ char && char ≤ 'f') || ('A' ≤ char && char ≤ 'F')

/-- `validate_relative_path`. -/
def validateRelativePath (path : List Char) : Bool :=
  !path.contains '\x00' && !isAbsolute (encode path) &&
    (components (encode path)).all (fun component =>
      match component with
      | .normal _ | .current => true
      | .parent | .root => false) &&
    (components (encode path)).any fun component =>
      match component with
      | .normal _ => true
      | _ => false

/-- `WorkspaceReadRequest::validate`. -/
def WorkspaceReadRequest.validate (request : WorkspaceReadRequest) : Except AgentError Unit :=
  if maxPathBytes < byteLen request.path then .error .invalidArguments
  else if !validateRelativePath request.path then .error .invalidArguments
  else if request.startLine = some 0 then .error .invalidArguments
  else if request.lineByteOffset.isSome ∧ request.startLine.isNone then .error .invalidArguments
  else if ∃ offset ∈ request.lineByteOffset, maxReadBytes < offset.toNat then
    .error .invalidArguments
  else if ∃ maxLines ∈ request.maxLines, maxLines = 0 ∨ maxMaxLines < maxLines.toNat then
    .error .invalidArguments
  else if ∃ maxBytes ∈ request.maxBytes, maxBytes < minResultBytes ∨ maxResultBytes < maxBytes then
    .error .invalidArguments
  else if ∃ revision ∈ request.ifRevision, validRevision revision = false then
    .error .invalidArguments
  else .ok ()

/-- What `capture_file` makes of the file: its bytes with its length and time, and whether
these stayed the same. -/
inductive FileCapture where
  | missing
  | complete (bytes : List UInt8) (length : UInt64) (modified : Option UInt64) (stable : Bool)
  | tooLarge (length : UInt64) (modified : Option UInt64)
  | error (error : AgentError)
deriving Repr

/-- `digest_hex`. -/
def digestHex (digest : Vector UInt8 32) : List Char :=
  digest.toList.flatMap fun byte => [(byte.toNat / 16).digitChar, (byte.toNat % 16).digitChar]

/-- `envelope_bytes`: everything but the content, as wide as it may get. -/
def envelopeProbe (path : List Char) : WorkspaceReadResult where
  path := path
  content := []
  startLine := saturate u32Max
  returnedLines := saturate u32Max
  revision := some (List.replicate 64 'f')
  truncated := false
  lineTruncated := false
  nextRange := some ⟨saturate u32Max, saturate u32Max⟩
  encoding := .unknown
  status := .tooLarge
  fileBytes := UInt64.ofNat (2 ^ 64 - 1)
  fileModifiedUnixMs := some (UInt64.ofNat (2 ^ 64 - 1))

def envelopeBytes (path : List Char) (maxBytes : Nat) : Except AgentError Nat :=
  let size := (envelopeProbe path).encodedLen
  if size ≥ maxBytes then .error .invalidArguments else .ok size

/-- The text of a file that is not binary. -/
def readableText (bytes : List UInt8) : Option (List Char) :=
  if bytes.contains 0 then none else decode bytes

variable (sha256 : List UInt8 → Vector UInt8 32)

/-- `eq_ignore_ascii_case`. -/
def sameRevision (current expected : List Char) : Bool :=
  current.map Char.toLower == expected.map Char.toLower

/-- The end of `read_until`, once the file is consistent and as expected. -/
def readText (result : WorkspaceReadResult) (bytes : List UInt8) (offset maxLines : UInt32)
    (contentBudget : Nat) : Except AgentError WorkspaceReadResult :=
  match readableText bytes with
  | none => .ok { result with status := .binary }
  | some text => do
    let result := { result with encoding := .utf8 }
    match ← locate text result.startLine.toNat offset.toNat with
    | none => .ok result
    | some rest =>
      let page ← selectPage rest result.startLine.toNat offset.toNat maxLines.toNat contentBudget
      .ok { result with
        content := page.content
        returnedLines := saturate page.lines
        lineTruncated := page.lineTruncated
        truncated := page.next.isSome
        nextRange := page.next }

/-- `read_until`. The capture fails where the query is cancelled or past its deadline. -/
def readUntil (request : WorkspaceReadRequest) (capture : Except AgentError FileCapture) :
    Except AgentError WorkspaceReadResult := do
  request.validate
  let startLine := request.startLine.getD 1
  let offset := request.lineByteOffset.getD 0
  let maxLines := request.maxLines.getD defaultMaxLines
  let maxBytes := request.maxBytes.getD defaultResultBytes
  let envelope ← envelopeBytes request.path maxBytes
  let result (length : UInt64) (modified : Option UInt64) (revision : Option (List Char)) :
      WorkspaceReadResult :=
    { path := request.path
      content := []
      startLine := startLine
      returnedLines := 0
      revision := revision
      truncated := false
      lineTruncated := false
      nextRange := none
      encoding := .unknown
      status := .ok
      fileBytes := length
      fileModifiedUnixMs := modified }
  match ← capture with
  | .missing => .error .workspace
  | .error error => .error error
  | .tooLarge length modified => .ok { result length modified none with status := .tooLarge }
  | .complete bytes length modified stable =>
    if stable && decide (bytes.length = length.toNat) then
      let revision := digestHex (sha256 bytes)
      let result := result length modified (some revision)
      if ∃ expected ∈ request.ifRevision, sameRevision revision expected = false then
        .ok { result with status := .changed }
      else readText result bytes offset maxLines (maxBytes - envelope)
    else .ok { result length modified none with status := .changed }

end Reading

section Pages

theorem saturate_exact (number : Nat) (small : number ≤ u32Max) :
    (saturate number).toNat = number := by
  rw [saturate, Nat.min_eq_left small]
  exact UInt32.toNat_ofNat_of_lt' (Nat.lt_succ_of_le small)

/-- Where a page stops among the lines: behind all of them, between two, or inside one. -/
inductive Selects (startLine lineOffset : Nat) (segments : List (List Char)) (content : List Char)
    (lines : Nat) (page : Page) : Prop where
  | all (same : page = ⟨content ++ segments.flatten, lines + segments.length, false, none⟩)
  | between (taken rest : List (List Char)) (whole : segments = taken ++ rest) (left : rest ≠ [])
      (some : 0 < lines + taken.length)
      (same : page = ⟨content ++ taken.flatten, lines + taken.length, false,
        Option.some ⟨saturate (startLine + (lines + taken.length)), 0⟩⟩)
  | inside (taken rest : List (List Char)) (first more : List Char)
      (whole : segments = taken ++ (first ++ more) :: rest) (some : first ≠ []) (left : more ≠ [])
      (same : page = ⟨content ++ taken.flatten ++ first, lines + taken.length + 1, true,
        Option.some ⟨saturate (startLine + (lines + taken.length)),
          saturate ((if taken = [] then lineOffset else 0) + byteLen first)⟩⟩)

variable {startLine maxLines contentBudget : Nat}

theorem escaped_append (first second : List Char) :
    jsonEscapedLen (first ++ second) = jsonEscapedLen first + jsonEscapedLen second := by
  rw [jsonEscapedLen, List.map_append, List.sum_append, jsonEscapedLen, jsonEscapedLen]

/-- A line that is taken comes before the others. -/
theorem Selects.before {segment : List Char} {segments : List (List Char)} {content : List Char}
    {lines : Nat} (lineOffset : Nat) {page : Page}
    (selects : Selects startLine 0 segments (content ++ segment) (lines + 1) page) :
    Selects startLine lineOffset (segment :: segments) content lines page := by
  cases selects with
  | all same =>
    apply Selects.all
    rw [same, List.flatten_cons, List.append_assoc, List.length_cons, Nat.add_assoc,
      Nat.add_comm 1]
  | between taken rest whole left some same =>
    refine Selects.between (segment :: taken) rest ?_ left (by rw [List.length_cons]; omega) ?_
    · rw [whole, List.cons_append]
    · rw [same, List.flatten_cons, List.append_assoc, List.length_cons, Nat.add_assoc lines 1,
        Nat.add_comm 1]
  | inside taken rest first more whole some left same =>
    refine Selects.inside (segment :: taken) rest first more ?_ some left ?_
    · rw [whole, List.cons_append]
    · rw [same, List.flatten_cons, List.append_assoc content, List.length_cons,
        Nat.add_assoc lines 1, Nat.add_comm 1, if_neg (List.cons_ne_nil _ _), ite_self]

/-- The loop stops in one of these ways, within the budget and the limit. -/
theorem select_loop_selects (positive : 0 < maxLines) {segments : List (List Char)}
    (nonempty : ∀ segment ∈ segments, segment ≠ []) {content : List Char}
    {escaped lines lineOffset : Nat} {page : Page}
    (counted : escaped = jsonEscapedLen content) (fits : escaped ≤ contentBudget)
    (limited : lines ≤ maxLines)
    (selected : selectLoop startLine maxLines contentBudget segments content escaped lines
      lineOffset = .ok page) :
    Selects startLine lineOffset segments content lines page ∧
      jsonEscapedLen page.content ≤ contentBudget ∧ page.lines ≤ maxLines := by
  induction segments generalizing content escaped lines lineOffset with
  | nil =>
    cases selected
    refine ⟨Selects.all ?_, counted ▸ fits, limited⟩
    rw [List.flatten_nil, List.append_nil]
    rfl
  | cons segment rest inductionHypothesis =>
    have between (some : 0 < lines) : Selects startLine lineOffset (segment :: rest) content lines
        ⟨content, lines, false, Option.some ⟨saturate (startLine + lines), 0⟩⟩ := by
      refine Selects.between [] (segment :: rest) rfl (List.cons_ne_nil _ _) some ?_
      rw [List.flatten_nil, List.append_nil]
      rfl
    rw [selectLoop] at selected
    split at selected
    · rename_i full
      cases selected
      exact ⟨between (by omega), counted ▸ fits, limited⟩
    · rename_i room
      dsimp only at selected
      split at selected
      · rename_i small
        obtain ⟨selects, bounds⟩ := inductionHypothesis
          (fun segment member => nonempty segment (List.mem_cons_of_mem _ member))
          (by rw [escaped_append, counted]) (by omega) (by omega) selected
        exact ⟨selects.before lineOffset, bounds⟩
      · rename_i large
        split at selected
        · split at selected
          · cases selected
          · rename_i some
            cases selected
            exact ⟨between (Nat.pos_of_ne_zero some), counted ▸ fits, limited⟩
        · rename_i some
          cases selected
          have short := text_within_fits (contentBudget - escaped) segment
          obtain ⟨more, whole⟩ := text_within_begins (contentBudget - escaped) segment
          have taken : stringWithin segment (contentBudget - escaped + 2) =
              textWithin (contentBudget - escaped) segment := rfl
          rw [taken] at some ⊢
          refine ⟨Selects.inside [] rest _ more ?_ some ?_ ?_, ?_, ?_⟩
          · rw [whole, List.nil_append]
          · rintro rfl
            rw [List.append_nil] at whole
            rw [whole] at short
            exact large short
          · rw [List.flatten_nil, List.append_nil, if_pos rfl]
            rfl
          · rw [escaped_append, ← counted]
            have size : jsonEscapedLen (textWithin (contentBudget - escaped) segment) ≤
                contentBudget - escaped := short
            omega
          · exact Nat.lt_of_not_le room

/-- The place lies behind another. -/
def After (startLine offset : Nat) (range : WorkspaceReadRange) : Prop :=
  startLine < range.startLine.toNat ∨
    startLine = range.startLine.toNat ∧ offset < range.lineByteOffset.toNat

/-- Where a page goes on: nowhere if nothing is left, and else at a place with what is left. -/
inductive Continues (text : List Char) (startLine offset : Nat) (left : List Char) :
    Option WorkspaceReadRange → Prop where
  | done (nothing : left = []) : Continues text startLine offset left none
  | next (range : WorkspaceReadRange)
      (place : Place text range.startLine.toNat range.lineByteOffset.toNat left)
      (after : After startLine offset range) : Continues text startLine offset left (some range)

theorem pieces_length_le (text : List Char) : (pieces '\n' text).length ≤ byteLen text := by
  have filled := (pieces_are '\n' text).filled
  have whole := pieces_flatten '\n' text
  have short (parts : List (List Char)) (filled : ∀ part ∈ parts, part ≠ []) :
      parts.length ≤ byteLen parts.flatten := by
    induction parts with
    | nil => exact Nat.le_refl 0
    | cons part parts inductionHypothesis =>
      have later := inductionHypothesis fun part member => filled part (List.mem_cons_of_mem _ member)
      have positive := byte_len_pos (filled part List.mem_cons_self)
      rw [List.length_cons, List.flatten_cons, byte_len_append]
      omega
  have result := short _ filled
  rwa [whole] at result

theorem piece_size_le {text segment : List Char} (member : segment ∈ pieces '\n' text) :
    byteLen segment ≤ byteLen text := by
  obtain ⟨front, back, whole⟩ := List.append_of_mem member
  have flat := pieces_flatten '\n' text
  rw [whole, List.flatten_append, List.flatten_cons] at flat
  rw [← flat, byte_len_append, byte_len_append]
  omega

theorem place_of {text left after : List Char} (front : List (List Char)) (before : List Char)
    {back : List (List Char)} {number offset : Nat} (whole : pieces '\n' text = front ++ (before ++ after) :: back)
    (some : after ≠ []) (line : number = front.length + 1) (byte : offset = byteLen before)
    (rest : left = after ++ back.flatten) : Place text number offset left := by
  rw [line, byte, rest]
  exact Place.at whole some

/-- A page from a place has the first part of what is there, and goes on at the rest. Where
it goes on it has some of it. -/
theorem page_continues {text rest : List Char} {offset : Nat} {page : Page}
    (small : byteLen text < u32Max) (positive : 0 < maxLines)
    (place : Place text startLine offset rest)
    (selected : selectPage rest startLine offset maxLines contentBudget = .ok page) :
    ∃ left, rest = page.content ++ left ∧ Continues text startLine offset left page.next ∧
      (page.next.isSome → page.content ≠ []) := by
  obtain ⟨whole, some⟩ := place
  rename_i front back before after
  have are := pieces_are '\n' text
  rw [whole] at are
  have begins := are.later.begin some
  have parts : pieces '\n' (after ++ back.flatten) = after :: back := begins.unique
  rw [selectPage, parts] at selected
  obtain ⟨selects, -⟩ := select_loop_selects positive begins.filled rfl (Nat.zero_le _)
    (Nat.zero_le _) selected
  have lines := pieces_length_le text
  rw [whole, List.length_append, List.length_cons] at lines
  cases selects with
  | all same =>
    subst same
    exact ⟨[], by simp, Continues.done rfl, fun goesOn => absurd goesOn Bool.false_ne_true⟩
  | between taken rest split left filled same =>
    subst same
    rw [Nat.zero_add] at filled
    obtain ⟨first, taken, rfl⟩ := List.exists_cons_of_length_pos filled
    obtain ⟨segment, rest, rfl⟩ := List.exists_cons_of_ne_nil left
    rw [List.cons_append] at split
    obtain ⟨rfl, rfl⟩ := List.cons.inj split
    rw [List.length_append, List.length_cons] at lines
    have exact_line := saturate_exact (front.length + 1 + (0 + (after :: taken).length))
      (by rw [List.length_cons]; omega)
    refine ⟨(segment :: rest).flatten, by simp, Continues.next _ ?_ ?_,
      fun _ => by simp [some]⟩
    · refine place_of (front ++ (before ++ after) :: taken) [] ?_
        (begins.filled segment (by simp)) ?_ rfl rfl
      · rw [whole, List.append_assoc, List.cons_append, List.nil_append]
      · dsimp only
        rw [exact_line, List.length_append, List.length_cons, List.length_cons]
        omega
    · left
      dsimp only
      rw [exact_line, List.length_cons]
      omega
  | inside taken rest first more split filled left same =>
    subst same
    cases taken with
    | nil =>
      rw [List.nil_append] at split
      obtain ⟨rfl, rfl⟩ := List.cons.inj split
      have size : byteLen (before ++ (first ++ more)) ≤ byteLen text :=
        piece_size_le (by rw [whole]; simp)
      rw [byte_len_append, byte_len_append] at size
      have positive := byte_len_pos filled
      have exact_line := saturate_exact
        (front.length + 1 + (0 + ([] : List (List Char)).length)) (by rw [List.length_nil]; omega)
      have exact_byte := saturate_exact (byteLen before + byteLen first) (by omega)
      refine ⟨more ++ back.flatten, by simp, Continues.next _ ?_ ?_,
        fun _ => by simp [filled]⟩
      · refine place_of front (before ++ first) ?_ left ?_ ?_ rfl
        · rw [whole, List.append_assoc]
        · dsimp only
          rw [exact_line]
          rfl
        · dsimp only
          rw [if_pos rfl, exact_byte, byte_len_append]
      · right
        dsimp only
        rw [exact_line, if_pos rfl, exact_byte]
        exact ⟨rfl, by omega⟩
    | cons taken_first taken =>
      rw [List.cons_append] at split
      obtain ⟨rfl, rfl⟩ := List.cons.inj split
      have size : byteLen (first ++ more) ≤ byteLen text := piece_size_le (by rw [whole]; simp)
      rw [byte_len_append] at size
      rw [List.length_append, List.length_cons] at lines
      have exact_line := saturate_exact (front.length + 1 + (0 + (after :: taken).length))
        (by rw [List.length_cons]; omega)
      have exact_byte := saturate_exact (0 + byteLen first) (by omega)
      refine ⟨more ++ rest.flatten, by simp, Continues.next _ ?_ ?_,
        fun _ => by simp [filled]⟩
      · refine place_of (front ++ (before ++ after) :: taken) first ?_ left ?_
          ?_ rfl
        · rw [whole, List.append_assoc, List.cons_append]
        · dsimp only
          rw [exact_line, List.length_append, List.length_cons, List.length_cons]
          omega
        · dsimp only
          rw [if_neg (List.cons_ne_nil _ _), exact_byte, Nat.zero_add]
      · left
        dsimp only
        rw [exact_line, List.length_cons]
        omega

end Pages

end MinicoreAgent.WorkspaceRead

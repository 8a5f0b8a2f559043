import Mathlib.Data.List.DropRight
import MinicoreAgent.UtilityUsage

/-!
# Chunks of a source that is too long

A source that does not fit one call of the model is split at its items. What an item adds
to the request is measured by projecting it with a writer of its own, which checks the
deadline at every write. A chunk that is full ends before the next item, except before a
tool result: it stays with the call it answers, however long it is.
-/
namespace MinicoreAgent.Utility

open Compaction (maxSummaryContentBytes)
open HistoryStore (HistoryItem AssistantPart ReasoningContent)
open Results
open Text (encode byteLen)

section Writing

variable {Payload Replay : Type}

/-- The texts of what the items hold, and the largest text the Runtime accepts. JSON is
missing where `serde_json` fails. -/
structure SourceTexts (Payload : Type) where
  maxBytes : Nat
  user : Payload → List Char
  summary : Payload → List Char
  text : Payload → List Char
  callName : Payload → List Char
  callId : Payload → List Char
  arguments : Payload → Option (List Char)
  resultName : Payload → List Char
  resultCallId : Payload → List Char
  outcome : Payload → Option (List Char)
  output : Payload → List Char

def sourceWriteBytes : Nat := 4096
def toolResultMaxChars : Nat := 2000

/-- `SourceWriter`, with the number of times that the deadline was checked. -/
structure SourceWriter where
  bytes : List UInt8
  checks : Nat
  deriving DecidableEq

def SourceWriter.new (checks : Nat) : SourceWriter := { bytes := [], checks := checks }

/-- What `check_active` answers each time it is asked. -/
abbrev Clock : Type := Nat → Option UtilityError

variable (texts : SourceTexts Payload) (clock : Clock)

/-- `check_active`. -/
def SourceWriter.checkActive (writer : SourceWriter) : Except UtilityError SourceWriter :=
  match clock writer.checks with
  | some error => .error error
  | none => .ok { writer with checks := writer.checks + 1 }

/-- `SourceWriter::write`, for what one call takes. -/
def SourceWriter.write (writer : SourceWriter) (taken : List UInt8) :
    Except UtilityError SourceWriter := do
  let writer ← writer.checkActive clock
  if writer.bytes.length + taken.length ≤ texts.maxBytes then
    .ok { writer with bytes := writer.bytes ++ taken }
  else .error .tooLarge

/-- `write_all`. -/
def SourceWriter.writeAll (writer : SourceWriter) (bytes : List UInt8) :
    Except UtilityError SourceWriter :=
  if bytes = [] then .ok writer
  else do
    let writer ← writer.write texts clock (bytes.take sourceWriteBytes)
    writer.writeAll (bytes.drop sourceWriteBytes)
termination_by bytes.length
decreasing_by
  rename_i more
  have positive := List.length_pos_of_ne_nil more
  rw [List.length_drop, sourceWriteBytes]
  omega

def SourceWriter.append (writer : SourceWriter) (text : List Char) :
    Except UtilityError SourceWriter :=
  writer.writeAll texts clock (encode text)

/-- `SourceWriter::json`. -/
def SourceWriter.json (writer : SourceWriter) (value : Option (List Char)) :
    Except UtilityError SourceWriter :=
  match value with
  | none => .error .serialization
  | some text => writer.append texts clock text

def SourceWriter.labeled (writer : SourceWriter) (label text : List Char) :
    Except UtilityError SourceWriter := do
  let writer ← writer.append texts clock label
  let writer ← writer.append texts clock text
  writer.append texts clock "\n\n".toList

/-- The notice behind a text that is cut. -/
def truncationNotice (left : Nat) : List Char :=
  "\n\n[... ".toList ++ Nat.toDigits 10 left ++ " more characters truncated]".toList

def SourceWriter.truncated (writer : SourceWriter) (text : List Char) (maxChars : Nat) :
    Except UtilityError SourceWriter :=
  if maxChars < text.length then do
    let writer ← writer.append texts clock (text.take maxChars)
    writer.append texts clock (truncationNotice (text.drop maxChars).length)
  else writer.append texts clock text

/-- A label before a text that may be missing. -/
def SourceWriter.labeledSome (writer : SourceWriter) (label : List Char)
    (text : Option (List Char)) : Except UtilityError SourceWriter :=
  match text with
  | none => .ok writer
  | some text => writer.labeled texts clock label text

/-- What `project` writes for a part of an assistant's answer. -/
def SourceWriter.projectPart (writer : SourceWriter) :
    AssistantPart Payload → Except UtilityError SourceWriter
  | .text text => writer.labeled texts clock "[Assistant]: ".toList (texts.text text)
  | .reasoning reasoning => do
    let writer ← writer.labeledSome texts clock "[Assistant thinking]: ".toList
      (reasoning.text.map String.toList)
    writer.labeledSome texts clock "[Assistant reasoning summary]: ".toList
      (reasoning.summary.map String.toList)
  | .toolCall call => do
    let writer ← writer.append texts clock "[Assistant tool call: name=".toList
    let writer ← writer.append texts clock (texts.callName call)
    let writer ← writer.append texts clock ", call_id=".toList
    let writer ← writer.append texts clock (texts.callId call)
    let writer ← writer.append texts clock "]: ".toList
    match texts.arguments call with
    | none => .error .serialization
    | some arguments =>
      let writer ← writer.truncated texts clock arguments toolResultMaxChars
      writer.append texts clock "\n\n".toList

def SourceWriter.projectParts (writer : SourceWriter) :
    List (AssistantPart Payload) → Except UtilityError SourceWriter
  | [] => .ok writer
  | part :: rest => do
    let writer ← writer.projectPart texts clock part
    writer.projectParts rest

/-- `SourceWriter::project`. -/
def SourceWriter.project (writer : SourceWriter) (item : HistoryItem Payload Replay) :
    Except UtilityError SourceWriter := do
  let writer ← writer.checkActive clock
  match item with
  | .user user => writer.labeled texts clock "[User]: ".toList (texts.user user)
  | .summary summary =>
    writer.labeled texts clock "[Historical summary]: ".toList (texts.summary summary)
  | .assistant assistant => writer.projectParts texts clock assistant.content
  | .toolResult result =>
    let writer ← writer.append texts clock "[Tool result: name=".toList
    let writer ← writer.append texts clock (texts.resultName result)
    let writer ← writer.append texts clock ", call_id=".toList
    let writer ← writer.append texts clock (texts.resultCallId result)
    let writer ← writer.append texts clock ", outcome=".toList
    let writer ← writer.json texts clock (texts.outcome result)
    let writer ← writer.append texts clock "]: ".toList
    let writer ← writer.truncated texts clock (texts.output result) toolResultMaxChars
    writer.append texts clock "\n\n".toList

inductive SourcePart (Payload Replay : Type)
  | item (item : HistoryItem Payload Replay)
  | summary (content : List Char)
  deriving DecidableEq

/-- How `source_chunks` writes a part. -/
def SourceWriter.writePart (writer : SourceWriter) :
    SourcePart Payload Replay → Except UtilityError SourceWriter
  | .item item => writer.project texts clock item
  | .summary content => writer.labeled texts clock "[Historical summary]: ".toList content

/-- A tool result. -/
def answersACall : SourcePart Payload Replay → Bool
  | .item (.toolResult _) => true
  | _ => false

/-- The chunks of `source_chunks`, the last of which is never missing. -/
structure Chunking (Payload Replay : Type) where
  earlier : List (List (SourcePart Payload Replay))
  last : List (SourcePart Payload Replay)
  size : Nat
  checks : Nat

def Chunking.chunks (chunking : Chunking Payload Replay) :
    List (List (SourcePart Payload Replay)) :=
  chunking.earlier ++ [chunking.last]

/-- What one part adds to the chunks, once it is measured. -/
def Chunking.push (chunking : Chunking Payload Replay) (limit : Nat)
    (part : SourcePart Payload Replay) (measured : SourceWriter) : Chunking Payload Replay :=
  let bytes := measured.bytes.length
  if limit < chunking.size + bytes ∧ 0 < chunking.size ∧ answersACall part = false then
    { earlier := chunking.chunks, last := [part], size := bytes, checks := measured.checks }
  else
    { chunking with
      last := chunking.last ++ [part]
      size := chunking.size + bytes
      checks := measured.checks }

def chunkLoop (limit : Nat) : List (SourcePart Payload Replay) → Chunking Payload Replay →
    Except UtilityError (Chunking Payload Replay)
  | [], chunking => .ok chunking
  | part :: rest, chunking => do
    let measured ← (SourceWriter.new chunking.checks).writePart texts clock part
    chunkLoop limit rest (chunking.push limit part measured)

/-- `source_chunks`. -/
def sourceChunks (parts : List (SourcePart Payload Replay)) (limit : Nat) :
    Except UtilityError (List (List (SourcePart Payload Replay))) :=
  (chunkLoop texts clock limit parts { earlier := [], last := [], size := 0, checks := 0 }).map
    Chunking.chunks

def chunkReserveBytes : Nat := maxSummaryContentBytes + 16 * 1024

/-- The bytes that `generate_rolling` has for a chunk. -/
def availableBytes (hardInputBytes : Nat) : Nat := min texts.maxBytes (hardInputBytes / 2)

def chunkBytes (hardInputBytes : Nat) : Nat :=
  availableBytes texts hardInputBytes -
    min chunkReserveBytes (availableBytes texts hardInputBytes / 2)

/-- The chunks that `generate_rolling` sends one after the other, with the limit of each
answer. -/
def rollingCalls (parts : List (SourcePart Payload Replay)) (hardInputBytes maxOutputBytes : Nat) :
    Except UtilityError (List (List (SourcePart Payload Replay) × Nat)) := do
  let chunks ← sourceChunks texts clock parts (chunkBytes texts hardInputBytes)
  let last := chunks.length - 1
  .ok (chunks.mapIdx fun index chunk =>
    (chunk, if index = last then maxOutputBytes else maxSummaryContentBytes))

end Writing

section Projections

variable {Payload Replay : Type} (texts : SourceTexts Payload)

def labeledText (label text : List Char) : List Char := label ++ (text ++ "\n\n".toList)

def truncatedText (text : List Char) (maxChars : Nat) : List Char :=
  if maxChars < text.length then
    text.take maxChars ++ truncationNotice (text.drop maxChars).length
  else text

def labeledSomeText (label : List Char) : Option (List Char) → List Char
  | none => []
  | some text => labeledText label text

def projectedPart : AssistantPart Payload → List Char
  | .text text => labeledText "[Assistant]: ".toList (texts.text text)
  | .reasoning reasoning =>
    labeledSomeText "[Assistant thinking]: ".toList (reasoning.text.map String.toList) ++
      labeledSomeText "[Assistant reasoning summary]: ".toList
        (reasoning.summary.map String.toList)
  | .toolCall call =>
    "[Assistant tool call: name=".toList ++ (texts.callName call ++ (", call_id=".toList ++
      (texts.callId call ++ ("]: ".toList ++
        (truncatedText ((texts.arguments call).getD []) toolResultMaxChars ++ "\n\n".toList)))))

/-- What an item says in the source of a summary. -/
def projectedItem : HistoryItem Payload Replay → List Char
  | .user user => labeledText "[User]: ".toList (texts.user user)
  | .summary summary => labeledText "[Historical summary]: ".toList (texts.summary summary)
  | .assistant assistant => assistant.content.flatMap (projectedPart texts)
  | .toolResult result =>
    "[Tool result: name=".toList ++ (texts.resultName result ++ (", call_id=".toList ++
      (texts.resultCallId result ++ (", outcome=".toList ++ ((texts.outcome result).getD [] ++
        ("]: ".toList ++ (truncatedText (texts.output result) toolResultMaxChars ++
          "\n\n".toList)))))))

/-- What a part says in the source of a summary. -/
def projected : SourcePart Payload Replay → List Char
  | .item item => projectedItem texts item
  | .summary content => labeledText "[Historical summary]: ".toList content

/-- `serde_json` can write what the part has. -/
def Encodable : SourcePart Payload Replay → Prop
  | .item (.assistant assistant) => ∀ call, AssistantPart.toolCall call ∈ assistant.content →
      (texts.arguments call).isSome = true
  | .item (.toolResult result) => (texts.outcome result).isSome = true
  | _ => True

end Projections

section Writers

variable {Payload Replay : Type} {texts : SourceTexts Payload} {clock : Clock}

variable (texts clock) in
/-- A writer that adds this text, and that returns where it can and the text has room. -/
structure Writes (able : Prop) (run : SourceWriter → Except UtilityError SourceWriter)
    (text : List Char) : Prop where
  written : ∀ writer next, run writer = .ok next → next.bytes = writer.bytes ++ encode text
  returns : able → (∀ check, clock check = none) →
    ∀ writer, writer.bytes.length + byteLen text ≤ texts.maxBytes → ∃ next, run writer = .ok next

variable {able others : Prop} {first second : SourceWriter → Except UtilityError SourceWriter}
  {text more : List Char}

theorem Writes.nothing : Writes texts clock able .ok [] := by
  constructor
  · rintro writer next ⟨rfl⟩
    exact (List.append_nil _).symm
  · intro _ _ writer _
    exact ⟨writer, rfl⟩

theorem Writes.andThen (one : Writes texts clock able first text)
    (other : Writes texts clock others second more) :
    Writes texts clock (able ∧ others) (fun writer => first writer >>= second) (text ++ more) := by
  constructor
  · intro writer next done
    obtain ⟨between, begun, ended⟩ := bind_ok.mp done
    rw [other.written _ _ ended, one.written _ _ begun, Text.encode_append, List.append_assoc]
  · intro ables active writer room
    rw [Text.byte_len_append] at room
    obtain ⟨between, begun⟩ := one.returns ables.1 active writer (by omega)
    have length : between.bytes.length = writer.bytes.length + byteLen text := by
      rw [one.written _ _ begun, List.length_append, Text.encode_length]
    obtain ⟨next, ended⟩ := other.returns ables.2 active between (by omega)
    exact ⟨next, bind_ok.mpr ⟨between, begun, ended⟩⟩

theorem Writes.whenever (writes : Writes texts clock able first text) (implied : others → able) :
    Writes texts clock others first text :=
  ⟨writes.written, fun holds => writes.returns (implied holds)⟩

theorem check_active_ok {writer next : SourceWriter}
    (done : writer.checkActive clock = .ok next) : next.bytes = writer.bytes := by
  unfold SourceWriter.checkActive at done
  split at done
  · cases done
  · cases done
    rfl

theorem check_active_returns (active : ∀ check, clock check = none) (writer : SourceWriter) :
    ∃ next, writer.checkActive clock = .ok next ∧ next.bytes = writer.bytes := by
  rw [SourceWriter.checkActive, active]
  exact ⟨_, rfl, rfl⟩

theorem write_all_ok {writer next : SourceWriter} {bytes : List UInt8}
    (done : writer.writeAll texts clock bytes = .ok next) :
    next.bytes = writer.bytes ++ bytes := by
  fun_induction SourceWriter.writeAll texts clock writer bytes with
  | case1 writer =>
    cases done
    exact (List.append_nil _).symm
  | case2 writer bytes more inductionHypothesis =>
    obtain ⟨between, begun, ended⟩ := bind_ok.mp done
    obtain ⟨checked, active, wrote⟩ := bind_ok.mp begun
    split at wrote
    · cases wrote
      rw [inductionHypothesis _ ended, check_active_ok active, List.append_assoc,
        List.take_append_drop]
    · cases wrote

theorem write_all_returns (active : ∀ check, clock check = none) (writer : SourceWriter)
    (bytes : List UInt8) (room : writer.bytes.length + bytes.length ≤ texts.maxBytes) :
    ∃ next, writer.writeAll texts clock bytes = .ok next := by
  fun_induction SourceWriter.writeAll texts clock writer bytes with
  | case1 writer => exact ⟨writer, rfl⟩
  | case2 writer bytes more inductionHypothesis =>
    obtain ⟨checked, begun, same⟩ := check_active_returns active writer
    have fits : checked.bytes.length + (bytes.take sourceWriteBytes).length ≤ texts.maxBytes := by
      rw [same, List.length_take]
      omega
    obtain ⟨next, ended⟩ := inductionHypothesis
      { checked with bytes := checked.bytes ++ bytes.take sourceWriteBytes } (by
        dsimp only
        rw [same, List.length_append, List.length_take, List.length_drop]
        omega)
    refine ⟨next, bind_ok.mpr ⟨_, ?_, ended⟩⟩
    exact bind_ok.mpr ⟨checked, begun, if_pos fits⟩

theorem append_writes (text : List Char) :
    Writes texts clock True (fun writer => writer.append texts clock text) text := by
  constructor
  · intro writer next done
    exact write_all_ok done
  · intro _ active writer room
    apply write_all_returns active
    rw [Text.encode_length]
    exact room

theorem json_writes (value : Option (List Char)) :
    Writes texts clock (value.isSome = true) (fun writer => writer.json texts clock value)
      (value.getD []) := by
  cases value with
  | none =>
    constructor
    · intro writer next done
      cases done
    · intro missing
      cases missing
  | some text => exact (append_writes text).whenever fun _ => trivial

theorem labeled_writes (label text : List Char) :
    Writes texts clock True (fun writer => writer.labeled texts clock label text)
      (labeledText label text) :=
  ((append_writes label).andThen ((append_writes text).andThen (append_writes _))).whenever
    fun _ => ⟨trivial, trivial, trivial⟩

theorem labeled_some_writes (label : List Char) (text : Option (List Char)) :
    Writes texts clock True (fun writer => writer.labeledSome texts clock label text)
      (labeledSomeText label text) := by
  cases text with
  | none => exact Writes.nothing
  | some text => exact labeled_writes label text

theorem truncated_writes (text : List Char) (maxChars : Nat) :
    Writes texts clock True (fun writer => writer.truncated texts clock text maxChars)
      (truncatedText text maxChars) := by
  unfold SourceWriter.truncated truncatedText
  by_cases long : maxChars < text.length
  · simp only [if_pos long]
    exact ((append_writes _).andThen (append_writes _)).whenever fun _ => ⟨trivial, trivial⟩
  · simp only [if_neg long]
    exact append_writes text

theorem project_part_writes (part : AssistantPart Payload) :
    Writes texts clock (∀ call, part = .toolCall call → (texts.arguments call).isSome = true)
      (fun writer => writer.projectPart texts clock part) (projectedPart texts part) := by
  cases part with
  | text text => exact (labeled_writes _ _).whenever fun _ => trivial
  | reasoning reasoning =>
    exact ((labeled_some_writes _ _).andThen (labeled_some_writes _ _)).whenever
      fun _ => ⟨trivial, trivial⟩
  | toolCall call =>
    have arguments : Writes texts clock ((texts.arguments call).isSome = true)
        (fun writer => match texts.arguments call with
          | none => .error .serialization
          | some arguments => do
            let writer ← writer.truncated texts clock arguments toolResultMaxChars
            writer.append texts clock "\n\n".toList)
        (truncatedText ((texts.arguments call).getD []) toolResultMaxChars ++ "\n\n".toList) := by
      cases texts.arguments call with
      | none =>
        constructor
        · intro writer next done
          cases done
        · intro missing
          cases missing
      | some arguments =>
        exact ((truncated_writes arguments toolResultMaxChars).andThen (append_writes _)).whenever
          fun _ => ⟨trivial, trivial⟩
    exact ((append_writes _).andThen ((append_writes _).andThen ((append_writes _).andThen
      ((append_writes _).andThen ((append_writes _).andThen arguments))))).whenever
        fun encodes => ⟨trivial, trivial, trivial, trivial, trivial, encodes call rfl⟩

theorem project_parts_writes (parts : List (AssistantPart Payload)) :
    Writes texts clock
      (∀ call, AssistantPart.toolCall call ∈ parts → (texts.arguments call).isSome = true)
      (fun writer => writer.projectParts texts clock parts)
      (parts.flatMap (projectedPart texts)) := by
  induction parts with
  | nil => exact Writes.nothing
  | cons part rest inductionHypothesis =>
    refine ((project_part_writes part).andThen inductionHypothesis).whenever fun encodes => ⟨?_, ?_⟩
    · rintro call rfl
      exact encodes call List.mem_cons_self
    · intro call member
      exact encodes call (List.mem_cons_of_mem part member)

theorem Writes.checked (writes : Writes texts clock able first text) :
    Writes texts clock able (fun writer => writer.checkActive clock >>= first) text := by
  constructor
  · intro writer next done
    obtain ⟨between, begun, ended⟩ := bind_ok.mp done
    rw [writes.written _ _ ended, check_active_ok begun]
  · intro holds active writer room
    obtain ⟨between, begun, same⟩ := check_active_returns active writer
    obtain ⟨next, ended⟩ := writes.returns holds active between (by rw [same]; exact room)
    exact ⟨next, bind_ok.mpr ⟨between, begun, ended⟩⟩

/-- A part is written as it is projected. -/
theorem write_part_writes (part : SourcePart Payload Replay) :
    Writes texts clock (Encodable texts part) (fun writer => writer.writePart texts clock part)
      (projected texts part) := by
  cases part with
  | summary content => exact (labeled_writes _ _).whenever fun _ => trivial
  | item item =>
    apply Writes.checked
    cases item with
    | user user => exact (labeled_writes _ _).whenever fun _ => trivial
    | summary summary => exact (labeled_writes _ _).whenever fun _ => trivial
    | assistant assistant => exact project_parts_writes assistant.content
    | toolResult result =>
      exact ((append_writes _).andThen ((append_writes _).andThen ((append_writes _).andThen
        ((append_writes _).andThen ((append_writes _).andThen ((json_writes _).andThen
          ((append_writes _).andThen ((truncated_writes _ _).andThen
            (append_writes _))))))))).whenever
        fun encodes => ⟨trivial, trivial, trivial, trivial, trivial, encodes, trivial, trivial,
          trivial⟩

end Writers

section Splitting

variable {Payload Replay : Type} {texts : SourceTexts Payload} {clock : Clock} {limit : Nat}
  {chunking : Chunking Payload Replay} {done : List (SourcePart Payload Replay)}
  {part : SourcePart Payload Replay}

variable (texts) in
/-- What the parts say in the source, one behind the other. -/
def projectedBytes (parts : List (SourcePart Payload Replay)) : Nat :=
  byteLen (parts.flatMap (projected texts))

variable (texts limit) in
/-- Without the tool results at its end, a chunk is within the limit, or one part alone
says all that it says. -/
def WithinLimit (chunk : List (SourcePart Payload Replay)) : Prop :=
  projectedBytes texts (chunk.rdropWhile answersACall) ≤ limit ∨
    ((chunk.rdropWhile answersACall).filter fun part => projected texts part ≠ []).length = 1

/-- A chunk that does not begin with a tool result. -/
def Opens (chunk : List (SourcePart Payload Replay)) : Prop :=
  ∃ part rest, chunk = part :: rest ∧ answersACall part = false

variable (texts limit) in
/-- The invariant of the loop over the parts. -/
structure Splits (chunking : Chunking Payload Replay) (done : List (SourcePart Payload Replay)) :
    Prop where
  whole : chunking.chunks.flatten = done
  opening : ∀ chunk ∈ chunking.chunks.tail, Opens chunk
  filled : done ≠ [] → ∀ chunk ∈ chunking.chunks, chunk ≠ []
  measured : chunking.size = projectedBytes texts chunking.last
  within : ∀ chunk ∈ chunking.chunks, WithinLimit texts limit chunk

theorem projected_bytes_snoc (parts : List (SourcePart Payload Replay)) :
    projectedBytes texts (parts ++ [part]) =
      projectedBytes texts parts + byteLen (projected texts part) := by
  rw [projectedBytes, List.flatMap_append, Text.byte_len_append, List.flatMap_singleton,
    projectedBytes]

theorem byte_len_eq_zero {text : List Char} : byteLen text = 0 ↔ text = [] := by
  cases text with
  | nil => simp
  | cons char rest =>
    have positive := char.utf8Size_pos
    simp only [Text.byte_len_cons, reduceCtorEq, iff_false]
    omega

/-- Parts that say nothing are not counted. -/
theorem silent_parts {parts : List (SourcePart Payload Replay)}
    (silent : projectedBytes texts parts = 0) :
    parts.filter (fun part => projected texts part ≠ []) = [] := by
  rw [projectedBytes, byte_len_eq_zero, List.flatMap_eq_nil_iff] at silent
  rw [List.filter_eq_nil_iff]
  intro part member
  simpa using silent part member

theorem within_limit_nil : WithinLimit texts limit ([] : List (SourcePart Payload Replay)) := by
  left
  rw [List.rdropWhile_nil]
  exact Nat.zero_le _

/-- A part behind others that say nothing, or that leave room for it. -/
theorem within_limit_snoc {parts : List (SourcePart Payload Replay)}
    (plain : answersACall part = false)
    (room : projectedBytes texts parts + byteLen (projected texts part) ≤ limit ∨
      projectedBytes texts parts = 0) : WithinLimit texts limit (parts ++ [part]) := by
  rw [WithinLimit, List.rdropWhile_concat_neg _ _ _ (by rw [plain]; decide), projected_bytes_snoc]
  rcases room with fits | silent
  · exact Or.inl fits
  · by_cases mute : projected texts part = []
    · left
      rw [mute, silent]
      exact Nat.zero_le _
    · right
      rw [List.filter_append, silent_parts silent]
      simp [mute]

theorem within_limit_result {parts : List (SourcePart Payload Replay)}
    (answers : answersACall part = true) (within : WithinLimit texts limit parts) :
    WithinLimit texts limit (parts ++ [part]) := by
  rw [WithinLimit, List.rdropWhile_concat_pos _ _ _ answers]
  exact within

theorem splits_nothing :
    Splits texts limit (⟨[], [], 0, 0⟩ : Chunking Payload Replay) [] where
  whole := rfl
  opening := by simp [Chunking.chunks]
  filled := fun wrong => absurd rfl wrong
  measured := rfl
  within := by
    intro chunk member
    rw [List.mem_singleton.mp member]
    exact within_limit_nil

/-- A part begins a new chunk. -/
theorem Splits.open (splits : Splits texts limit chunking done) (nonempty : done ≠ [])
    (plain : answersACall part = false) (checks : Nat) :
    Splits texts limit
      ⟨chunking.chunks, [part], byteLen (projected texts part), checks⟩ (done ++ [part]) where
  whole := by
    rw [Chunking.chunks, List.flatten_append, splits.whole]
    rfl
  opening := by
    intro chunk member
    have some : chunking.chunks ≠ [] := by simp [Chunking.chunks]
    dsimp only [Chunking.chunks] at member some
    rw [List.tail_append_of_ne_nil some, List.mem_append] at member
    rcases member with old | new
    · exact splits.opening chunk old
    · rw [List.mem_singleton.mp new]
      exact ⟨part, [], rfl, plain⟩
  filled := by
    intro _ chunk member
    rcases List.mem_append.mp member with old | new
    · exact splits.filled nonempty chunk old
    · rw [List.mem_singleton.mp new]
      exact List.cons_ne_nil _ _
  measured := by
    rw [projectedBytes, List.flatMap_singleton]
  within := by
    intro chunk member
    rcases List.mem_append.mp member with old | new
    · exact splits.within chunk old
    · rw [List.mem_singleton.mp new, ← List.nil_append [part]]
      exact within_limit_snoc plain (Or.inr rfl)

/-- A part is added to the last chunk. -/
theorem Splits.extend (splits : Splits texts limit chunking done)
    (room : answersACall part = true ∨ chunking.size + byteLen (projected texts part) ≤ limit ∨
      chunking.size = 0) (checks : Nat) :
    Splits texts limit
      ⟨chunking.earlier, chunking.last ++ [part],
        chunking.size + byteLen (projected texts part), checks⟩ (done ++ [part]) where
  whole := by
    rw [← splits.whole, Chunking.chunks, Chunking.chunks]
    simp
  opening := by
    intro chunk member
    dsimp only [Chunking.chunks] at member
    cases earlier : chunking.earlier with
    | nil =>
      rw [earlier] at member
      cases member
    | cons first others =>
      have opening := splits.opening
      rw [Chunking.chunks, earlier] at opening
      rw [earlier, List.cons_append, List.tail_cons, List.mem_append] at member
      rcases member with old | new
      · exact opening chunk (List.mem_append_left _ old)
      · obtain ⟨head, rest, same, plain⟩ :=
          opening chunking.last (List.mem_append_right _ (List.mem_singleton_self _))
        rw [List.mem_singleton.mp new, same]
        exact ⟨head, rest ++ [part], rfl, plain⟩
  filled := by
    intro _ chunk member
    rcases List.mem_append.mp member with old | new
    · have filled : done ≠ [] := by
        intro empty
        cases earlier : chunking.earlier with
        | nil =>
          rw [earlier] at old
          cases old
        | cons first others =>
          have opening := splits.opening
          rw [Chunking.chunks, earlier] at opening
          obtain ⟨head, rest, same, _⟩ :=
            opening chunking.last (List.mem_append_right _ (List.mem_singleton_self _))
          have whole := splits.whole
          rw [Chunking.chunks, List.flatten_append, same, empty] at whole
          simp at whole
      exact splits.filled filled chunk (List.mem_append_left _ old)
    · rw [List.mem_singleton.mp new]
      simp
  measured := by
    rw [projected_bytes_snoc, ← splits.measured]
  within := by
    intro chunk member
    rcases List.mem_append.mp member with old | new
    · exact splits.within chunk (List.mem_append_left _ old)
    · rw [List.mem_singleton.mp new]
      cases answers : answersACall part with
      | true =>
        exact within_limit_result answers
          (splits.within _ (List.mem_append_right _ (List.mem_singleton_self _)))
      | false =>
        rw [answers, splits.measured] at room
        exact within_limit_snoc answers (room.resolve_left (by decide))

/-- One round of the loop. -/
theorem Splits.push (splits : Splits texts limit chunking done) {measured : SourceWriter}
    (written : measured.bytes = encode (projected texts part)) :
    Splits texts limit (chunking.push limit part measured) (done ++ [part]) := by
  have length : measured.bytes.length = byteLen (projected texts part) := by
    rw [written, Text.encode_length]
  unfold Chunking.push
  rw [length]
  dsimp only
  split
  · rename_i full
    have nonempty : done ≠ [] := by
      intro empty
      have whole := splits.whole
      rw [empty, Chunking.chunks, List.flatten_append] at whole
      have nothing : chunking.last = [] := by simpa using (List.append_eq_nil_iff.mp whole).2
      have size := splits.measured
      rw [nothing] at size
      exact absurd size (Nat.ne_of_gt full.2.1)
    exact splits.open nonempty full.2.2 measured.checks
  · rename_i room
    apply splits.extend
    cases answers : answersACall part with
    | true => exact Or.inl rfl
    | false =>
      right
      by_contra neither
      exact room ⟨by omega, by omega, answers⟩

theorem chunk_loop_splits {parts : List (SourcePart Payload Replay)}
    {after : Chunking Payload Replay} (splits : Splits texts limit chunking done)
    (looped : chunkLoop texts clock limit parts chunking = .ok after) :
    Splits texts limit after (done ++ parts) := by
  induction parts generalizing chunking done with
  | nil =>
    cases looped
    rw [List.append_nil]
    exact splits
  | cons part rest inductionHypothesis =>
    obtain ⟨measured, wrote, next⟩ := bind_ok.mp looped
    have written := (write_part_writes part).written _ _ wrote
    have pushed := splits.push (written.trans (List.nil_append _))
    have all := inductionHypothesis pushed next
    rwa [List.append_assoc] at all

theorem chunk_loop_returns (active : ∀ check, clock check = none)
    {parts : List (SourcePart Payload Replay)}
    (fits : ∀ part ∈ parts, Encodable texts part ∧
      byteLen (projected texts part) ≤ texts.maxBytes) (chunking : Chunking Payload Replay) :
    ∃ after, chunkLoop texts clock limit parts chunking = .ok after := by
  induction parts generalizing chunking with
  | nil => exact ⟨chunking, rfl⟩
  | cons part rest inductionHypothesis =>
    obtain ⟨encodes, small⟩ := fits part List.mem_cons_self
    obtain ⟨measured, wrote⟩ := (write_part_writes part).returns encodes active
      (SourceWriter.new chunking.checks) (by simpa [SourceWriter.new] using small)
    obtain ⟨after, looped⟩ := inductionHypothesis
      (fun other member => fits other (List.mem_cons_of_mem part member))
      (chunking.push limit part measured)
    exact ⟨after, bind_ok.mpr ⟨measured, wrote, looped⟩⟩

theorem source_chunks_splits {parts : List (SourcePart Payload Replay)}
    {chunks : List (List (SourcePart Payload Replay))}
    (chunked : sourceChunks texts clock parts limit = .ok chunks) :
    ∃ chunking, chunks = chunking.chunks ∧ Splits texts limit chunking parts := by
  obtain ⟨chunking, looped, rfl⟩ := map_ok.mp chunked
  have splits := chunk_loop_splits splits_nothing looped
  exact ⟨chunking, rfl, splits⟩

/-- The chunks of a source are its parts in order. A tool result begins none but the first,
and without the tool results at its end each is within the limit, or all that it says is
said by one part. There is always a chunk, empty only if there are no parts, and what is
reserved of the available bytes is not more than these. Splitting fails only where a part
cannot be projected. -/
theorem source_chunks_keep_results (texts : SourceTexts Payload) (clock : Clock)
    (parts : List (SourcePart Payload Replay)) :
    (∀ limit chunks, sourceChunks texts clock parts limit = .ok chunks →
      chunks.flatten = parts ∧ (∀ chunk ∈ chunks.tail, Opens chunk) ∧
      (parts ≠ [] → ∀ chunk ∈ chunks, chunk ≠ []) ∧
      ∀ chunk ∈ chunks, WithinLimit texts limit chunk) ∧
    (∀ hardInputBytes maxOutputBytes,
      (∀ chunks, sourceChunks texts clock parts (chunkBytes texts hardInputBytes) = .ok chunks →
        1 ≤ chunks.length) ∧
      (∀ calls, rollingCalls texts clock parts hardInputBytes maxOutputBytes = .ok calls →
        (calls.map Prod.fst).flatten = parts) ∧
      min chunkReserveBytes (availableBytes texts hardInputBytes / 2) ≤
        availableBytes texts hardInputBytes) ∧
    ((∀ check, clock check = none) →
      (∀ part ∈ parts, Encodable texts part ∧ byteLen (projected texts part) ≤ texts.maxBytes) →
      ∀ limit, ∃ chunks, sourceChunks texts clock parts limit = .ok chunks) := by
  refine ⟨?_, ?_, ?_⟩
  · intro limit chunks chunked
    obtain ⟨chunking, rfl, splits⟩ := source_chunks_splits chunked
    exact ⟨splits.whole, splits.opening, splits.filled, splits.within⟩
  · intro hardInputBytes maxOutputBytes
    refine ⟨?_, ?_, ?_⟩
    · intro chunks chunked
      obtain ⟨chunking, rfl, _⟩ := source_chunks_splits chunked
      simp [Chunking.chunks]
    · intro calls rolled
      obtain ⟨chunks, chunked, listed⟩ := bind_ok.mp rolled
      obtain ⟨chunking, rfl, splits⟩ := source_chunks_splits chunked
      cases listed
      rw [← splits.whole]
      congr 1
      apply List.ext_getElem
      · simp
      · simp
    · exact Nat.le_trans (Nat.min_le_right _ _) (Nat.div_le_self _ _)
  · intro active fits limit
    obtain ⟨chunking, looped⟩ := chunk_loop_returns active fits
      (⟨[], [], 0, 0⟩ : Chunking Payload Replay)
    exact ⟨chunking.chunks, map_ok.mpr ⟨chunking, looped, rfl⟩⟩

end Splitting

end MinicoreAgent.Utility

import MinicoreAgent.Lib.Lines

/-!
# Loop records and how they are written

One completed loop is one line of the history file. Before a record is written,
its items are normalized, its acceptance times are checked, and metadata that
would push it over the size limit of a line is shed. The items of the external
Runtime are opaque where the store does not look into them; the JSON codec, the
hash and the two validations that the store calls are parameters.

What the loader later relies on is that a written record normalizes to the items
that were counted when it was written, and that its times survive the reader's
own check.
-/
namespace MinicoreAgent.HistoryStore

section Items

variable (Payload Replay : Type)

/-- A reasoning part; `continuation` is what only the provider understands. -/
structure ReasoningContent where
  text : Option String
  summary : Option String
  continuation : Option Payload
  deriving DecidableEq

inductive AssistantPart
  | text (content : Payload)
  | toolCall (call : Payload)
  | reasoning (reasoning : ReasoningContent Payload)
  deriving DecidableEq

/-- `details` are the fields that normalization copies: loop, request, model,
finish reason and usage. -/
structure AssistantHistory where
  providerReplay : Option Replay
  content : List (AssistantPart Payload)
  details : Payload
  deriving DecidableEq

inductive HistoryItem
  | user (user : Payload)
  | toolResult (result : Payload)
  | summary (summary : Payload)
  | assistant (assistant : AssistantHistory Payload Replay)
  deriving DecidableEq

end Items

/-- Optional token counters. -/
structure Usage where
  inputTokens : Option Nat
  outputTokens : Option Nat
  reasoningTokens : Option Nat
  cacheReadTokens : Option Nat
  cacheWriteTokens : Option Nat
  providerTotalTokens : Option Nat
  deriving DecidableEq, Repr

/-- One completed loop. `facts` are the stored fields that neither writing nor
loading looks at: outcome, requests, tool rounds, configuration revision and
completion time. -/
structure StoredLoopRecord (LoopId Payload Replay : Type) where
  loopId : LoopId
  items : List (HistoryItem Payload Replay)
  usage : Usage
  facts : Payload
  userTimes : Option (List (Option String))
  interrupted : Option Payload
  deriving DecidableEq

inductive StoreError
  | sessionNotFound
  | corrupt
  | recordTooLarge
  | unavailable
  | historyChanged
  | queryLimit
  | invalidArguments
  deriving DecidableEq, Repr

/-- What the store calls outside: the constructor check of a reasoning part, the
validation of provider replay data, `serde_json` on records, and SHA-256. -/
structure Externals (LoopId Payload Replay Digest : Type) where
  admitsReasoning : Option String → Option String → Bool
  validateHistoryReplay : Replay → List (AssistantPart Payload) → Bool
  toVec : StoredLoopRecord LoopId Payload Replay → Option (List UInt8)
  fromSlice : List UInt8 → Option (StoredLoopRecord LoopId Payload Replay)
  newDigest : Digest
  update : Digest → List UInt8 → Digest

def newline : UInt8 := 10

/-- The documented behaviour of compact JSON: a serialized record is read back, it
is one line without control characters, and input that ends inside the object
is refused. -/
structure Externals.Lawful {LoopId Payload Replay Digest : Type}
    (externals : Externals LoopId Payload Replay Digest) : Prop where
  readsBack : ∀ record bytes, externals.toVec record = some bytes →
    externals.fromSlice bytes = some record
  oneLine : ∀ record bytes, externals.toVec record = some bytes → newline ∉ bytes
  unfinished : ∀ record bytes part, externals.toVec record = some bytes → part <+: bytes →
    part ≠ bytes → externals.fromSlice part = none
  refusesEmpty : externals.fromSlice [] = none

def maxLoopRecordBytes : Nat := 16 * 1024 * 1024

section Timestamps

def maxTimestampBytes : Nat := 64

def isDigit (byte : UInt8) : Bool := 48 ≤ byte && byte ≤ 57

/-- The bytes of a range that lies inside. -/
def slice (bytes : List UInt8) (start stop : Nat) : Option (List UInt8) :=
  if stop ≤ bytes.length then some ((bytes.drop start).take (stop - start)) else none

def digits (bytes : List UInt8) (start stop : Nat) : Bool :=
  (slice bytes start stop).any (·.all isDigit)

/-- The decimal number in a range of digits. -/
def number (bytes : List UInt8) (start stop : Nat) : Option Nat :=
  ((slice bytes start stop).filter (·.all isDigit)).map
    (·.foldl (fun total byte => 10 * total + (byte.toNat - 48)) 0)

def daysInMonth (year month : Nat) : Nat :=
  if month ∈ [1, 3, 5, 7, 8, 10, 12] then 31
  else if month ∈ [4, 6, 9, 11] then 30
  else if month = 2 then
    if year % 400 = 0 ∨ (year % 4 = 0 ∧ year % 100 ≠ 0) then 29 else 28
  else 0

/-- The date and the time of day of a timestamp. -/
def validDateTime (bytes : List UInt8) : Bool :=
  match number bytes 0 4, number bytes 5 7, number bytes 8 10, number bytes 11 13,
    number bytes 14 16, number bytes 17 19 with
  | some year, some month, some day, some hour, some minute, some second =>
    year ≠ 0 && 1 ≤ month && month ≤ 12 && day ≠ 0 && day ≤ daysInMonth year month &&
      hour ≤ 23 && minute ≤ 59 && second ≤ 60
  | _, _, _, _, _, _ => false

/-- The offset from UTC that begins at `index`. -/
def validOffset (bytes : List UInt8) (index : Nat) : Bool :=
  match bytes[index]? with
  | some 90 => index + 1 = bytes.length
  | some sign =>
    (sign = 43 || sign = 45) && index + 6 = bytes.length && bytes[index + 3]? = some 58 &&
      digits bytes (index + 1) (index + 3) && digits bytes (index + 4) (index + 6) &&
      (number bytes (index + 1) (index + 3)).getD 24 ≤ 23 &&
      (number bytes (index + 4) (index + 6)).getD 60 ≤ 59
  | none => false

/-- `valid_timestamp`: RFC 3339, with an optional fraction of a second. -/
def validTimestamp (value : String) : Bool :=
  let bytes := value.toUTF8.toList
  let separated := bytes[4]? = some 45 && bytes[7]? = some 45 && bytes[10]? = some 84 &&
    bytes[13]? = some 58 && bytes[16]? = some 58
  if bytes.length > maxTimestampBytes || bytes.length < 20 || !separated then false
  else if !validDateTime bytes then false
  else if bytes[19]? = some 46 then
    let fraction := ((bytes.drop 20).takeWhile isDigit).length
    fraction ≠ 0 && validOffset bytes (20 + fraction)
  else validOffset bytes 19

end Timestamps

variable {LoopId Payload Replay Digest : Type}
  (externals : Externals LoopId Payload Replay Digest)

section Normalization

/-- The parts of an assistant item without provider continuation data. A reasoning
part that carried nothing else is left out; `none` is a failed construction. -/
def sanitizeParts : List (AssistantPart Payload) → Option (List (AssistantPart Payload))
  | [] => some []
  | .reasoning reasoning :: rest =>
    if reasoning.text = none ∧ reasoning.summary = none then sanitizeParts rest
    else if externals.admitsReasoning reasoning.text reasoning.summary then
      (sanitizeParts rest).map fun cleaned =>
        .reasoning
          { text := reasoning.text, summary := reasoning.summary, continuation := none } ::
            cleaned
    else none
  | part :: rest => (sanitizeParts rest).map (part :: ·)

/-- `sanitize_assistant`: the cleaned item, or nothing where nothing is left. -/
def sanitizeAssistant (durable : Bool) (assistant : AssistantHistory Payload Replay) :
    Option (Option (AssistantHistory Payload Replay)) :=
  (sanitizeParts externals assistant.content).bind fun content =>
    if durable && assistant.providerReplay.any
        (fun replay => !externals.validateHistoryReplay replay content) then none
    else
      let providerReplay := if durable then assistant.providerReplay else none
      if content.isEmpty && providerReplay.isNone then some none
      else
        some (some { assistant with providerReplay := providerReplay, content := content })

def normalize (durable : Bool) :
    List (HistoryItem Payload Replay) → Option (List (HistoryItem Payload Replay))
  | [] => some []
  | .assistant assistant :: rest =>
    (sanitizeAssistant externals durable assistant).bind fun cleaned =>
      (normalize durable rest).map (cleaned.toList.map .assistant ++ ·)
  | item :: rest => (normalize durable rest).map (item :: ·)

/-- Durable normalization keeps validated replay data. -/
def normalizeHistory (items : List (HistoryItem Payload Replay)) :
    Option (List (HistoryItem Payload Replay)) :=
  normalize externals true items

variable {externals}

/-- Cleaned parts are clean. -/
theorem sanitize_parts_again {parts cleaned : List (AssistantPart Payload)}
    (done : sanitizeParts externals parts = some cleaned) :
    sanitizeParts externals cleaned = some cleaned := by
  induction parts generalizing cleaned with
  | nil =>
    obtain rfl : [] = cleaned := Option.some.inj done
    rfl
  | cons part rest inductionHypothesis =>
    cases part with
    | reasoning reasoning =>
      simp only [sanitizeParts] at done
      split at done
      · exact inductionHypothesis done
      · rename_i present
        split at done
        · rename_i admitted
          obtain ⟨others, later, rfl⟩ := Option.map_eq_some_iff.mp done
          rw [sanitizeParts, if_neg present, if_pos admitted, inductionHypothesis later]
          rfl
        · cases done
    | text content =>
      obtain ⟨others, later, rfl⟩ := Option.map_eq_some_iff.mp done
      simp [sanitizeParts, inductionHypothesis later]
    | toolCall call =>
      obtain ⟨others, later, rfl⟩ := Option.map_eq_some_iff.mp done
      simp [sanitizeParts, inductionHypothesis later]

/-- A durably cleaned item passes the same validation again. -/
theorem sanitize_assistant_again {assistant cleaned : AssistantHistory Payload Replay}
    (done : sanitizeAssistant externals true assistant = some (some cleaned)) :
    sanitizeAssistant externals true cleaned = some (some cleaned) := by
  obtain ⟨content, parts, result⟩ := Option.bind_eq_some_iff.mp done
  simp only [if_true, Bool.true_and] at result
  split at result
  · cases result
  · rename_i valid
    split at result
    · cases result
    · rename_i present
      obtain rfl := Option.some.inj (Option.some.inj result)
      simp only [sanitizeAssistant, sanitize_parts_again parts, Option.bind_some, if_true,
        Bool.true_and]
      rw [if_neg valid, if_neg present]

/-- Normalizing a normalized history changes nothing. -/
theorem normalize_history_again {items normalized : List (HistoryItem Payload Replay)}
    (done : normalizeHistory externals items = some normalized) :
    normalizeHistory externals normalized = some normalized := by
  unfold normalizeHistory at done ⊢
  induction items generalizing normalized with
  | nil =>
    obtain rfl : [] = normalized := Option.some.inj done
    rfl
  | cons item rest inductionHypothesis =>
    cases item with
    | assistant assistant =>
      obtain ⟨cleaned, sanitized, later⟩ := Option.bind_eq_some_iff.mp done
      obtain ⟨others, tail, rfl⟩ := Option.map_eq_some_iff.mp later
      cases cleaned with
      | none => exact inductionHypothesis tail
      | some cleaned =>
        simp [normalize, sanitize_assistant_again sanitized, inductionHypothesis tail]
    | user user =>
      obtain ⟨others, tail, rfl⟩ := Option.map_eq_some_iff.mp done
      simp [normalize, inductionHypothesis tail]
    | toolResult result =>
      obtain ⟨others, tail, rfl⟩ := Option.map_eq_some_iff.mp done
      simp [normalize, inductionHypothesis tail]
    | summary summary =>
      obtain ⟨others, tail, rfl⟩ := Option.map_eq_some_iff.mp done
      simp [normalize, inductionHypothesis tail]

end Normalization

section Times

def HistoryItem.isUser : HistoryItem Payload Replay → Bool
  | .user _ => true
  | _ => false

/-- Whether an item holds provider replay data. -/
def HistoryItem.carriesReplay : HistoryItem Payload Replay → Bool
  | .assistant item => item.providerReplay.isSome
  | _ => false

namespace StoredLoopRecord

variable (record : StoredLoopRecord LoopId Payload Replay)

def userCount : Nat := record.items.countP HistoryItem.isUser

def userTimesAreValid : Bool :=
  match record.userTimes with
  | none => true
  | some times => times.length ≤ record.userCount && times.all (·.all validTimestamp)

def normalizedUserTimes : Option (List (Option String)) :=
  match record.userTimes with
  | none => none
  | some times =>
    if times.length > record.userCount then none
    else some (times.map (·.filter validTimestamp))

/-- Every time of the record is a valid timestamp. -/
def TimesValid : Prop :=
  ∀ times, record.userTimes = some times → ∀ time ∈ times, ∀ value ∈ time,
    validTimestamp value = true

end StoredLoopRecord

/-- `deserialize_user_times` on the array the JSON reader found. -/
def deserializeUserTimes (times : Option (List (Option String))) :
    Option (List (Option String)) :=
  times.map (·.map (·.filter validTimestamp))

/-- `serde_json::from_slice::<StoredLoopRecord>`. -/
def readRecord (bytes : List UInt8) : Option (StoredLoopRecord LoopId Payload Replay) :=
  (externals.fromSlice bytes).map fun record =>
    { record with userTimes := deserializeUserTimes record.userTimes }

variable {record : StoredLoopRecord LoopId Payload Replay}

theorem times_valid_of_check (checked : record.userTimesAreValid = true) : record.TimesValid := by
  intro times known time member value present
  simp only [StoredLoopRecord.userTimesAreValid, known, Bool.and_eq_true, List.all_eq_true]
    at checked
  exact (Option.all_eq_true validTimestamp time).mp (checked.2 time member) value present

theorem times_valid_normalized :
    StoredLoopRecord.TimesValid { record with userTimes := record.normalizedUserTimes } := by
  intro times known time member value present
  simp only [StoredLoopRecord.normalizedUserTimes] at known
  split at known
  · cases known
  · split at known
    · cases known
    · obtain rfl := Option.some.inj known
      obtain ⟨earlier, _, rfl⟩ := List.mem_map.mp member
      exact (Option.filter_eq_some_iff.mp present).2

/-- Valid times survive the reader's check. -/
theorem deserialize_valid (valid : record.TimesValid) :
    deserializeUserTimes record.userTimes = record.userTimes := by
  cases known : record.userTimes with
  | none => rfl
  | some times =>
    have kept (time : Option String) (member : time ∈ times) :
        time.filter validTimestamp = time := by
      cases time with
      | none => rfl
      | some value =>
        have passes := valid times known (some value) member value rfl
        simp [Option.filter, passes]
    simp only [deserializeUserTimes, Option.map_some, Option.some.injEq]
    exact (List.map_congr_left kept).trans (List.map_id times)

/-- A written record with valid times is read back. -/
theorem read_record_written {externals : Externals LoopId Payload Replay Digest}
    (lawful : externals.Lawful) (valid : record.TimesValid) {bytes : List UInt8}
    (written : externals.toVec record = some bytes) :
    readRecord externals bytes = some record := by
  rw [readRecord, lawful.readsBack record bytes written, Option.map_some, deserialize_valid valid]

end Times

section Index

/-- Token counters added up over loops. `partially` says that a counter was missing
or did not fit. -/
structure CoveredUsage (LoopId : Type) where
  usage : Usage
  loopCount : Nat
  lastLoopId : Option LoopId
  partially : Bool
  deriving DecidableEq

def CoveredUsage.empty : CoveredUsage LoopId :=
  { usage := ⟨none, none, none, none, none, none⟩, loopCount := 0, lastLoopId := none,
    partially := false }

/-- One counter of `CoveredUsage::add`, and whether the sum is partial. -/
def sumTokens : Option Nat → Option Nat → Option Nat × Bool
  | some total, some next =>
    if total + next < UInt64.size then (some (total + next), false)
    else (some (UInt64.size - 1), true)
  | total, next => (total.or next, next.isNone)

def CoveredUsage.add (covered : CoveredUsage LoopId) (loopId : LoopId) (next : Usage) :
    CoveredUsage LoopId :=
  let input := sumTokens covered.usage.inputTokens next.inputTokens
  let output := sumTokens covered.usage.outputTokens next.outputTokens
  let reasoning := sumTokens covered.usage.reasoningTokens next.reasoningTokens
  let cacheRead := sumTokens covered.usage.cacheReadTokens next.cacheReadTokens
  let cacheWrite := sumTokens covered.usage.cacheWriteTokens next.cacheWriteTokens
  let providerTotal := sumTokens covered.usage.providerTotalTokens next.providerTotalTokens
  { usage := ⟨input.1, output.1, reasoning.1, cacheRead.1, cacheWrite.1, providerTotal.1⟩
    loopCount := covered.loopCount + 1
    lastLoopId := some loopId
    partially := covered.partially || input.2 || output.2 || reasoning.2 || cacheRead.2 ||
      cacheWrite.2 || providerTotal.2 }

/-- What the index knows about the file up to the end of one line. -/
structure HistoryLine (LoopId Digest : Type) where
  finish : Nat
  items : Nat
  hash : Digest
  usage : CoveredUsage LoopId
  deriving DecidableEq

/-- `index_line`: the totals up to the last line are carried on. -/
def indexLine (index : List (HistoryLine LoopId Digest)) (bytes : List UInt8)
    (record : StoredLoopRecord LoopId Payload Replay) (itemCount : Nat) :
    List (HistoryLine LoopId Digest) :=
  let last := index.getLast?.getD
    { finish := 0, items := 0, hash := externals.newDigest, usage := .empty }
  index ++
    [{ finish := last.finish + bytes.length
       items := last.items + itemCount
       hash := externals.update last.hash bytes
       usage := last.usage.add record.loopId record.usage }]

end Index

section Appending

/-- A line that was written: the record in it, its bytes without the newline, and
the items it counts for. -/
structure StoredLine (LoopId Payload Replay : Type) where
  record : StoredLoopRecord LoopId Payload Replay
  bytes : List UInt8
  items : List (HistoryItem Payload Replay)
  deriving DecidableEq

/-- The record as far as `append_loop` prepares it before metadata is shed: items
are replaced only where replay data must be durable, times only where invalid. -/
def preparedRecord (record : StoredLoopRecord LoopId Payload Replay)
    (normalized : List (HistoryItem Payload Replay)) :
    StoredLoopRecord LoopId Payload Replay :=
  if record.items.any HistoryItem.carriesReplay then { record with items := normalized }
  else record

/-- The line `append_loop` writes, and whether its metadata was kept. -/
def encodeLoop (record : StoredLoopRecord LoopId Payload Replay) :
    Except StoreError (StoredLine LoopId Payload Replay × Bool) :=
  match normalizeHistory externals record.items with
  | none => .error .corrupt
  | some normalized =>
    let prepared := preparedRecord record normalized
    let timed :=
      if prepared.userTimesAreValid then prepared
      else { prepared with userTimes := prepared.normalizedUserTimes }
    match externals.toVec timed with
    | none => .error .corrupt
    | some bytes =>
      if maxLoopRecordBytes < bytes.length ∧
          (prepared.userTimes.isSome ∨ prepared.interrupted.isSome) then
        let bare := { prepared with userTimes := none, interrupted := none }
        match externals.toVec bare with
        | none => .error .corrupt
        | some bytes =>
          if maxLoopRecordBytes < bytes.length then .error .recordTooLarge
          else .ok ({ record := bare, bytes := bytes, items := normalized }, false)
      else if maxLoopRecordBytes < bytes.length then .error .recordTooLarge
      else .ok ({ record := timed, bytes := bytes, items := normalized }, true)

/-- How the write of a line ended: on disk, or undone after some of its bytes. -/
inductive WriteOutcome
  | written
  | rolledBack (count : Nat)
  deriving DecidableEq

/-- The history file and the index the store keeps of it. -/
structure HistoryFile (LoopId Digest : Type) where
  bytes : List UInt8
  index : List (HistoryLine LoopId Digest)
  deriving DecidableEq

/-- `set_len`: bytes beyond the length are cut off, missing ones are zero. -/
def setLen (bytes : List UInt8) (length : Nat) : List UInt8 :=
  bytes.take length ++ List.replicate (length - bytes.length) 0

/-- `append_loop`: a refused record and a write that is rolled back leave the file
as it was. -/
def appendLoop (file : HistoryFile LoopId Digest)
    (record : StoredLoopRecord LoopId Payload Replay) (outcome : WriteOutcome) :
    Except StoreError Bool × HistoryFile LoopId Digest :=
  match encodeLoop externals record with
  | .error error => (.error error, file)
  | .ok (line, kept) =>
    let bytes := line.bytes ++ [newline]
    match outcome with
    | .rolledBack count =>
      (.error .unavailable,
        { file with bytes := setLen (file.bytes ++ bytes.take count) file.bytes.length })
    | .written =>
      (.ok kept,
        { bytes := file.bytes ++ bytes
          index := indexLine externals file.index bytes line.record line.items.length })

/-- The line a call leaves in the file, if it leaves one. -/
def storedLine (call : StoredLoopRecord LoopId Payload Replay × WriteOutcome) :
    Option (StoredLine LoopId Payload Replay) :=
  match encodeLoop externals call.1, call.2 with
  | .ok (line, _), .written => some line
  | _, _ => none

/-- The lines a sequence of calls leaves in a new file. -/
def storedLines (calls : List (StoredLoopRecord LoopId Payload Replay × WriteOutcome)) :
    List (StoredLine LoopId Payload Replay) :=
  calls.filterMap (storedLine externals)

/-- The index of a file with these lines, carried on from an earlier one. -/
def indexLines (lines : List (StoredLine LoopId Payload Replay))
    (index : List (HistoryLine LoopId Digest)) : List (HistoryLine LoopId Digest) :=
  lines.foldl (fun index line =>
    indexLine externals index (line.bytes ++ [newline]) line.record line.items.length) index

/-- The file after a sequence of `append_loop` calls on a new one. -/
def appendAll (calls : List (StoredLoopRecord LoopId Payload Replay × WriteOutcome)) :
    HistoryFile LoopId Digest :=
  calls.foldl (fun file call => (appendLoop externals file call.1 call.2).2)
    { bytes := [], index := [] }

variable {externals}

/-- What the loader relies on of a line that was written. -/
structure StoredLine.Good (externals : Externals LoopId Payload Replay Digest)
    (line : StoredLine LoopId Payload Replay) : Prop where
  written : externals.toVec line.record = some line.bytes
  valid : line.record.TimesValid
  normalizes : normalizeHistory externals line.record.items = some line.items
  fits : line.bytes.length ≤ maxLoopRecordBytes

/-- The prepared record normalizes to the items that are counted. -/
theorem prepared_normalizes {record : StoredLoopRecord LoopId Payload Replay}
    {normalized : List (HistoryItem Payload Replay)}
    (done : normalizeHistory externals record.items = some normalized) :
    normalizeHistory externals (preparedRecord record normalized).items = some normalized := by
  unfold preparedRecord
  split
  · exact normalize_history_again done
  · exact done

/-- Every line `append_loop` writes is a good one. -/
theorem encode_loop_good {record : StoredLoopRecord LoopId Payload Replay}
    {line : StoredLine LoopId Payload Replay} {kept : Bool}
    (done : encodeLoop externals record = .ok (line, kept)) : line.Good externals := by
  unfold encodeLoop at done
  split at done
  · cases done
  · rename_i normalized normal
    have normalizes := prepared_normalizes normal
    dsimp only at done
    split at done
    · cases done
    · rename_i bytes written
      split at done
      · split at done
        · cases done
        · rename_i shed rewritten
          split at done
          · cases done
          · rename_i fits
            cases done
            refine ⟨rewritten, ?_, normalizes, Nat.le_of_not_lt fits⟩
            intro times known
            cases known
      · split at done
        · cases done
        · rename_i fits
          cases done
          refine ⟨written, ?_, ?_, Nat.le_of_not_lt fits⟩
          · dsimp only
            split
            · rename_i checked
              exact times_valid_of_check checked
            · exact times_valid_normalized
          · dsimp only
            split <;> exact normalizes

/-- A record that is too long with its metadata is written without it. -/
theorem encode_loop_shed {record : StoredLoopRecord LoopId Payload Replay}
    {normalized : List (HistoryItem Payload Replay)} {long bare : List UInt8}
    (normal : normalizeHistory externals record.items = some normalized)
    (prepared : preparedRecord record normalized = record)
    (timed : record.userTimesAreValid = true) (written : externals.toVec record = some long)
    (exceeds : maxLoopRecordBytes < long.length)
    (metadata : record.userTimes.isSome ∨ record.interrupted.isSome)
    (rewritten : externals.toVec { record with userTimes := none, interrupted := none } = some bare)
    (fits : bare.length ≤ maxLoopRecordBytes) :
    encodeLoop externals record =
      .ok ({ record := { record with userTimes := none, interrupted := none }
             bytes := bare
             items := normalized }, false) := by
  unfold encodeLoop
  rw [normal]
  dsimp only
  rw [prepared, if_pos timed, written]
  dsimp only
  rw [if_pos ⟨exceeds, metadata⟩, rewritten]
  dsimp only
  rw [if_neg (Nat.not_lt.mpr fits)]

/-- Cutting back what was appended restores the file. -/
theorem set_len_append (bytes more : List UInt8) : setLen (bytes ++ more) bytes.length = bytes := by
  simp [setLen]

/-- A sequence of calls leaves exactly the lines that were written, and the index
of these lines. -/
theorem append_all_lines (calls : List (StoredLoopRecord LoopId Payload Replay × WriteOutcome)) :
    (appendAll externals calls).bytes =
        Lines.join newline ((storedLines externals calls).map StoredLine.bytes) ∧
      (appendAll externals calls).index =
        indexLines externals (storedLines externals calls) [] := by
  have appends (file : HistoryFile LoopId Digest) :
      (calls.foldl (fun file call => (appendLoop externals file call.1 call.2).2) file).bytes =
          file.bytes ++
            Lines.join newline ((storedLines externals calls).map StoredLine.bytes) ∧
        (calls.foldl (fun file call => (appendLoop externals file call.1 call.2).2) file).index =
          indexLines externals (storedLines externals calls) file.index := by
    induction calls generalizing file with
    | nil => simp [storedLines, indexLines]
    | cons call rest inductionHypothesis =>
      obtain ⟨record, outcome⟩ := call
      rw [List.foldl_cons]
      obtain ⟨bytes, index⟩ :=
        inductionHypothesis (appendLoop externals file record outcome).2
      rw [bytes, index]
      cases encoded : encodeLoop externals record with
      | error error => simp [appendLoop, storedLines, storedLine, encoded]
      | ok line =>
        cases outcome with
        | rolledBack count =>
          simp [appendLoop, storedLines, storedLine, encoded, set_len_append]
        | written => simp [appendLoop, storedLines, storedLine, indexLines, encoded]
  simpa [appendAll] using appends { bytes := [], index := [] }

/-- The lines a sequence of calls leaves are good. -/
theorem stored_lines_good
    (calls : List (StoredLoopRecord LoopId Payload Replay × WriteOutcome)) :
    ∀ line ∈ storedLines externals calls, line.Good externals := by
  intro line member
  obtain ⟨⟨record, outcome⟩, _, stored⟩ := List.mem_filterMap.mp member
  unfold storedLine at stored
  split at stored
  · rename_i encoded _
    obtain rfl := Option.some.inj stored
    exact encode_loop_good encoded
  · cases stored

/-- The index of the first lines is the beginning of the index of all. -/
theorem index_lines_prefix (first rest : List (StoredLine LoopId Payload Replay))
    (index : List (HistoryLine LoopId Digest)) :
    indexLines externals first index <+: indexLines externals (first ++ rest) index := by
  have grows (lines : List (StoredLine LoopId Payload Replay))
      (index : List (HistoryLine LoopId Digest)) :
      index <+: indexLines externals lines index := by
    induction lines generalizing index with
    | nil => exact List.prefix_rfl
    | cons line rest inductionHypothesis =>
      exact (List.prefix_append _ _).trans (inductionHypothesis _)
  rw [indexLines, indexLines, List.foldl_append]
  exact grows rest _

end Appending

end MinicoreAgent.HistoryStore

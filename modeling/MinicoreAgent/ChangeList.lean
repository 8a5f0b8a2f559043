import Mathlib.Data.List.Perm.Subperm
import MinicoreAgent.Lib.JsonSize
import MinicoreAgent.Lib.Results

/-!
# Pages of listed changes

A list of changes is answered in pages. A page is planned record by record under the
bytes it may take: as if every warning that can still come were there, and with the
cursor that would follow the record. For Tool changes the details of the planned records
are then checked, and the page is planned again up to the end found before. The answer is
measured once more as a whole.

A check of the query's budget that fails ends the query with `QueryLimit` and changes
nothing else; these checks are left out.
-/
namespace MinicoreAgent.Changes

open JsonSize

section Records

inductive ListError where
  | invalidArguments
  | queryLimit
  | store
  deriving DecidableEq, Repr

inductive ChangeListWarning where
  | noRepository
  | statusIncomplete
  | detailsUnavailable
  | recordsSkipped
  | staleCursor
  deriving DecidableEq, Repr

def ChangeListWarning.asStr : ChangeListWarning → List Char
  | .noRepository => "no_repository".toList
  | .statusIncomplete => "status_incomplete".toList
  | .detailsUnavailable => "details_unavailable".toList
  | .recordsSkipped => "records_skipped".toList
  | .staleCursor => "stale_cursor".toList

inductive ChangeListConsistency where
  | live
  | cold
  deriving DecidableEq, Repr

def ChangeListConsistency.asStr : ChangeListConsistency → List Char
  | .live => "live".toList
  | .cold => "cold".toList

/-- A session's identifier: 16 bytes, written in hexadecimal behind `ses_`. -/
structure SessionId where
  bytes : Vector UInt8 16
  deriving DecidableEq

def SessionId.encodedLen (_ : SessionId) : Nat := 2 + 4 + 32

inductive ChangeScope (LoopId : Type) where
  | workspace
  | session
  | turn (loopId : LoopId)
  deriving DecidableEq

structure ChangeCursor (LoopId : Type) where
  sessionId : SessionId
  scope : ChangeScope LoopId
  offset : Nat
  observation : Option (List Char)
  deriving DecidableEq

structure ChangesListRequest (LoopId : Type) where
  sessionId : SessionId
  scope : ChangeScope LoopId
  cursor : Option (ChangeCursor LoopId)
  limit : Nat
  maxBytes : Option Nat
  deriving DecidableEq

/-- A record: `body` is all that a list carries but does not look at. -/
structure ChangeRecord (Body : Type) where
  body : Body
  detailsAvailable : Bool
  deriving DecidableEq

structure ChangesListResult (LoopId Body : Type) where
  sessionId : SessionId
  scope : ChangeScope LoopId
  records : List (ChangeRecord Body)
  nextCursor : Option (ChangeCursor LoopId)
  total : Nat
  complete : Bool
  stale : Bool
  consistency : ChangeListConsistency
  observedAtUnixMs : Option UInt64
  warnings : List ChangeListWarning
  deriving DecidableEq

end Records

section Encoding

/-- The encoded sizes of what the list carries: of a loop's identifier, of the fields of a
record before `details_available`, and of its `coverage`. -/
structure Sizes (LoopId Body : Type) where
  loopId : LoopId → Nat
  front : Body → List (String × Nat)
  coverage : Body → Nat

variable {LoopId Body : Type} (sizes : Sizes LoopId Body)

def ChangeScope.encodedLen (scope : ChangeScope LoopId) : Nat :=
  match scope with
  | .workspace => stringLen "workspace".toList
  | .session => stringLen "session".toList
  | .turn loopId => objectLen [("turn", objectLen [("loop_id", sizes.loopId loopId)])]

def ChangeCursor.encodedLen (cursor : ChangeCursor LoopId) : Nat :=
  objectLen [("session_id", cursor.sessionId.encodedLen), ("scope", cursor.scope.encodedLen sizes),
    ("offset", numberLen cursor.offset),
    ("observation", (cursor.observation.map stringLen).getD 4)]

/-- The size of a cursor, or of `null`. -/
def cursorLen (cursor : Option (ChangeCursor LoopId)) : Nat :=
  (cursor.map (ChangeCursor.encodedLen sizes)).getD 4

def ChangeRecord.encodedLen (record : ChangeRecord Body) : Nat :=
  objectLen (sizes.front record.body ++ ("details_available", boolLen record.detailsAvailable) ::
    [("coverage", sizes.coverage record.body)])

def ChangesListResult.encodedLen (result : ChangesListResult LoopId Body) : Nat :=
  objectLen ([("session_id", result.sessionId.encodedLen),
    ("scope", result.scope.encodedLen sizes),
    ("records", arrayLen (result.records.map (ChangeRecord.encodedLen sizes))),
    ("next_cursor", cursorLen sizes result.nextCursor), ("total", numberLen result.total),
    ("complete", boolLen result.complete), ("stale", boolLen result.stale),
    ("consistency", stringLen result.consistency.asStr)] ++
    optional "observed_at_unix_ms" (result.observedAtUnixMs.map fun time => numberLen time.toNat) ++
    [("warnings", arrayLen (result.warnings.map fun warning => stringLen warning.asStr))])

/-- `encoded_result`. -/
def encodedResult (result : ChangesListResult LoopId Body) (maxBytes : Nat) :
    Except ListError (ChangesListResult LoopId Body) :=
  if maxBytes < result.encodedLen sizes then .error .invalidArguments else .ok result

end Encoding

section Requests

variable {LoopId : Type} [DecidableEq LoopId] (request : ChangesListRequest LoopId)

def maxChangeLimit : Nat := 1000

def defaultChangeMaxBytes : Nat := 64 * 1024

def minChangeMaxBytes : Nat := 1024

def maxChangeMaxBytes : Nat := 256 * 1024

def isHexDigit (char : Char) : Bool :=
  ('0' ≤ char && char ≤ '9') || ('a' ≤ char && char ≤ 'f') || ('A' ≤ char && char ≤ 'F')

/-- `validate`. -/
def ChangesListRequest.isValid : Bool :=
  (1 ≤ request.limit && request.limit ≤ maxChangeLimit) &&
    request.maxBytes.all (fun value => minChangeMaxBytes ≤ value && value ≤ maxChangeMaxBytes) &&
    request.cursor.all fun cursor =>
      cursor.sessionId = request.sessionId && cursor.scope = request.scope &&
        !(0 < cursor.offset && cursor.observation.isNone) &&
        cursor.observation.all fun value => value.length = 64 && value.all isHexDigit

def ChangesListRequest.bytes : Nat := request.maxBytes.getD defaultChangeMaxBytes

def ChangesListRequest.offset : Nat := (request.cursor.map (·.offset)).getD 0

/-- The cursor of the request was given for another observation. -/
def ChangesListRequest.isStale (observation : List Char) : Bool :=
  (request.cursor.bind (·.observation)).any fun value => value ≠ observation

end Requests

section Planning

variable {LoopId Body : Type} (sizes : Sizes LoopId Body)

def pushWarning (warnings : List ChangeListWarning) (warning : ChangeListWarning) :
    List ChangeListWarning :=
  if warning ∈ warnings then warnings else warnings ++ [warning]

/-- The cursor to the records from `reached` on, if there are any. -/
def cursorAfter (request : ChangesListRequest LoopId) (observation : List Char)
    (total reached : Nat) : Option (ChangeCursor LoopId) :=
  if reached < total then
    some { sessionId := request.sessionId, scope := request.scope, offset := reached
           observation := some observation }
  else none

/-- A comma stands before every record but the first of the page. -/
def comma (offset reached : Nat) : Nat := if offset < reached then 1 else 0

/-- The records that fit, one after another: `total` is the number of all records, and
`base` what the result takes without records and cursor. -/
def planLoop (request : ChangesListRequest LoopId) (observation : List Char)
    (base total offset : Nat) : List (ChangeRecord Body) → Nat → Nat → Nat
  | [], reached, _ => reached
  | record :: rest, reached, recordBytes =>
    let recordBytes := recordBytes + (record.encodedLen sizes + comma offset reached)
    let next := cursorAfter request observation total (reached + 1)
    if request.bytes < base + recordBytes + cursorLen sizes next then reached
    else planLoop request observation base total offset rest (reached + 1) recordBytes

/-- The result a page is planned with. -/
def planHeader (request : ChangesListRequest LoopId) (total : Nat)
    (consistency : ChangeListConsistency) (observedAtUnixMs : Option UInt64)
    (warnings : List ChangeListWarning) : ChangesListResult LoopId Body :=
  { sessionId := request.sessionId
    scope := request.scope
    records := []
    nextCursor := none
    total := total
    complete := false
    stale := false
    consistency := consistency
    observedAtUnixMs := observedAtUnixMs
    warnings := pushWarning (pushWarning warnings .detailsUnavailable) .recordsSkipped }

/-- The bytes that a plan keeps for everything but records and cursor. -/
def reservedLen (request : ChangesListRequest LoopId) (total : Nat)
    (consistency : ChangeListConsistency) (observedAtUnixMs : Option UInt64)
    (warnings : List ChangeListWarning) : Nat :=
  (planHeader request total consistency observedAtUnixMs warnings :
    ChangesListResult LoopId Body).encodedLen sizes - cursorLen sizes none

/-- The records a page may take. -/
def candidates (request : ChangesListRequest LoopId) (records : List (ChangeRecord Body))
    (pageEnd : Option Nat) : List (ChangeRecord Body) :=
  let bound := max (min (pageEnd.getD records.length) records.length) request.offset
  ((records.drop request.offset).take (bound - request.offset)).take request.limit

def planPageEnd (request : ChangesListRequest LoopId) (records : List (ChangeRecord Body))
    (observation : List Char) (consistency : ChangeListConsistency)
    (observedAtUnixMs : Option UInt64) (warnings : List ChangeListWarning)
    (pageEnd : Option Nat) : Except ListError Nat :=
  let total := records.length
  let offset := request.offset
  if total < offset then .error .invalidArguments
  else
    let reached := planLoop sizes request observation
      (reservedLen sizes request total consistency observedAtUnixMs warnings) total offset
      (candidates request records pageEnd) offset 0
    if reached = offset ∧ offset < total then .error .invalidArguments else .ok reached

end Planning

section Pages

variable {LoopId Body : Type} [DecidableEq LoopId] (sizes : Sizes LoopId Body)

/-- The answer with the records up to `reached`. -/
def pageUpTo (request : ChangesListRequest LoopId) (records : List (ChangeRecord Body))
    (observation : List Char) (consistency : ChangeListConsistency)
    (observedAtUnixMs : Option UInt64) (warnings : List ChangeListWarning) (complete : Bool)
    (reached : Nat) : ChangesListResult LoopId Body :=
  let total := records.length
  let page := (records.drop request.offset).take (reached - request.offset)
  { sessionId := request.sessionId
    scope := request.scope
    records := page
    nextCursor := cursorAfter request observation total reached
    total := total
    complete := complete
    stale := false
    consistency := consistency
    observedAtUnixMs := observedAtUnixMs
    warnings :=
      if page.any (!·.detailsAvailable) then pushWarning warnings .detailsUnavailable
      else warnings }

def pageRecords (request : ChangesListRequest LoopId) (records : List (ChangeRecord Body))
    (observation : List Char) (consistency : ChangeListConsistency)
    (observedAtUnixMs : Option UInt64) (warnings : List ChangeListWarning) (complete : Bool)
    (pageEnd : Option Nat) : Except ListError (ChangesListResult LoopId Body) :=
  if !request.isValid then .error .invalidArguments
  else
    let warnings := warnings.filter (· ≠ .detailsUnavailable)
    let total := records.length
    let offset := request.offset
    if request.isStale observation then
      encodedResult sizes
        { sessionId := request.sessionId
          scope := request.scope
          records := []
          nextCursor := none
          total := total
          complete := false
          stale := true
          consistency := consistency
          observedAtUnixMs := observedAtUnixMs
          warnings := pushWarning warnings .staleCursor } request.bytes
    else if total < offset then .error .invalidArguments
    else
      match planPageEnd sizes request records observation consistency observedAtUnixMs warnings
        pageEnd with
      | .error error => .error error
      | .ok reached =>
        encodedResult sizes (pageUpTo request records observation consistency observedAtUnixMs
          warnings complete reached) request.bytes

/-- The details of the planned records, from an index on: for a record without details the
store may know of a compatible change, and then says whether its snapshots are there and
whether the budget for reading them is used up, which ends the checks. -/
def loadDetails (verify : Nat → Option (Except ListError (Bool × Bool))) :
    Nat → List (ChangeRecord Body) → Except ListError (List (ChangeRecord Body) × Bool)
  | _, [] => .ok ([], false)
  | index, record :: rest =>
    match (if record.detailsAvailable then none else verify index) with
    | none => (loadDetails verify (index + 1) rest).map fun done => (record :: done.1, done.2)
    | some (.error error) => .error error
    | some (.ok (available, exhausted)) =>
      let record := { record with detailsAvailable := available }
      if exhausted then .ok (record :: rest, true)
      else (loadDetails verify (index + 1) rest).map fun done => (record :: done.1, done.2)

/-- The records with those of the page replaced. -/
def replaced (request : ChangesListRequest LoopId) (records window : List (ChangeRecord Body))
    (reached : Nat) : List (ChangeRecord Body) :=
  records.take request.offset ++ window ++ records.drop reached

/-- The warnings of a list of Tool changes: `complete` says that no record was skipped. -/
def toolWarnings (complete : Bool) : List ChangeListWarning :=
  if complete then [] else [.recordsSkipped]

def toolConsistency (warm : Bool) : ChangeListConsistency := if warm then .live else .cold

def warningsAfter (complete exhausted : Bool) : List ChangeListWarning :=
  if exhausted then pushWarning (toolWarnings complete) .recordsSkipped else toolWarnings complete

/-- `list_tool_changes` behind the merge of live and stored records. -/
def listToolChanges (request : ChangesListRequest LoopId) (records : List (ChangeRecord Body))
    (observation : List Char) (complete warm : Bool)
    (verify : Nat → Option (Except ListError (Bool × Bool))) :
    Except ListError (ChangesListResult LoopId Body) :=
  if !request.isValid then .error .invalidArguments
  else if request.isStale observation then
    pageRecords sizes request records observation (toolConsistency warm) none
      (toolWarnings complete) complete none
  else
    match planPageEnd sizes request records observation (toolConsistency warm) none
      (toolWarnings complete) none with
    | .error error => .error error
    | .ok pageEnd =>
      match loadDetails verify request.offset
        ((records.drop request.offset).take (pageEnd - request.offset)) with
      | .error error => .error error
      | .ok (window, exhausted) =>
        pageRecords sizes request (replaced request records window pageEnd) observation
          (toolConsistency warm) none (warningsAfter complete exhausted) (complete && !exhausted)
          (some pageEnd)

/-- What a list needs of a workspace status besides its entries. -/
structure WorkspaceStatus where
  repoAvailable : Bool
  complete : Bool
  skippedPaths : Nat
  observedAtUnixMs : UInt64
  deriving DecidableEq

/-- The warnings of `workspace_records`. -/
def workspaceWarnings (status : WorkspaceStatus) : List ChangeListWarning :=
  let warnings := (if status.repoAvailable then [] else [ChangeListWarning.noRepository]) ++
    if status.complete then [] else [ChangeListWarning.statusIncomplete]
  if 0 < status.skippedPaths then pushWarning warnings .recordsSkipped else warnings

/-- `list_workspace_changes`, with the records of `workspace_records`. -/
def listWorkspaceChanges (request : ChangesListRequest LoopId) (status : WorkspaceStatus)
    (records : List (ChangeRecord Body)) (observation : List Char) :
    Except ListError (ChangesListResult LoopId Body) :=
  if !request.isValid then .error .invalidArguments
  else if request.scope ≠ .workspace then .error .invalidArguments
  else
    pageRecords sizes request records observation .live (some status.observedAtUnixMs)
      (workspaceWarnings status) status.complete none

end Pages

section Plans

variable {LoopId Body : Type} (sizes : Sizes LoopId Body)
  {request : ChangesListRequest LoopId} {observation : List Char}
  {base total offset reached recordBytes found : Nat} {window : List (ChangeRecord Body)}

theorem plan_loop_bounds
    (planned : planLoop sizes request observation base total offset window reached recordBytes =
      found) :
    reached ≤ found ∧ found ≤ reached + window.length := by
  induction window generalizing reached recordBytes with
  | nil =>
    rw [planLoop] at planned
    exact ⟨Nat.le_of_eq planned, Nat.le_of_eq planned.symm⟩
  | cons record rest inductionHypothesis =>
    simp only [planLoop] at planned
    split at planned
    · omega
    · have later := inductionHypothesis planned
      rw [List.length_cons]
      omega

/-- Records that take no more bytes are planned to the same end. -/
theorem plan_loop_again
    (planned : planLoop sizes request observation base total offset window reached recordBytes =
      found) {lesser : List (ChangeRecord Body)} {fewer : Nat}
    (smaller : List.Forall₂ (fun small large : ChangeRecord Body =>
      small.encodedLen sizes ≤ large.encodedLen sizes) lesser (window.take (found - reached)))
    (less : fewer ≤ recordBytes) :
    planLoop sizes request observation base total offset lesser reached fewer = found := by
  induction window generalizing reached recordBytes lesser fewer with
  | nil =>
    rw [planLoop] at planned
    rw [List.take_nil] at smaller
    cases smaller
    rw [planLoop, planned]
  | cons record rest inductionHypothesis =>
    simp only [planLoop] at planned
    split at planned
    · subst planned
      rw [Nat.sub_self, List.take_zero] at smaller
      cases smaller
      rw [planLoop]
    · rename_i fits
      have further := (plan_loop_bounds sizes planned).1
      have more : found - reached = (found - (reached + 1)) + 1 := by omega
      rw [more, List.take_succ_cons] at smaller
      cases smaller with
      | cons first others =>
        simp only [planLoop]
        rw [if_neg (by omega)]
        exact inductionHypothesis planned others (by omega)

/-- What is planned fits with its cursor; the first record of a page needs no comma. -/
theorem plan_loop_fits (begun : offset ≤ reached)
    (planned : planLoop sizes request observation base total offset window reached recordBytes =
      found) (some_record : reached < found) :
    base + (recordBytes +
        (((window.take (found - reached)).map (ChangeRecord.encodedLen sizes)).sum +
          (found - reached - 1 + comma offset reached))) +
      cursorLen sizes (cursorAfter request observation total found) ≤ request.bytes := by
  induction window generalizing reached recordBytes with
  | nil =>
    rw [planLoop] at planned
    omega
  | cons record rest inductionHypothesis =>
    simp only [planLoop] at planned
    split at planned
    · omega
    · rename_i fits
      have further := (plan_loop_bounds sizes planned).1
      have more : found - reached = (found - (reached + 1)) + 1 := by omega
      rw [more, List.take_succ_cons, List.map_cons, List.sum_cons]
      rcases Nat.eq_or_lt_of_le further with last | next
      · subst last
        rw [Nat.sub_self, List.take_zero, List.map_nil, List.sum_nil]
        omega
      · have later := inductionHypothesis (by omega) planned next
        have after_first : comma offset (reached + 1) = 1 := if_pos (by omega)
        omega

/-- The bytes of an answer without its records, cursor, flags and warnings. -/
def ChangesListResult.frameLen (result : ChangesListResult LoopId Body) : Nat :=
  objectLen ([("session_id", 0), ("scope", 0), ("records", 0), ("next_cursor", 0), ("total", 0),
      ("complete", 0), ("stale", 0), ("consistency", 0)] ++
    (optional "observed_at_unix_ms" (result.observedAtUnixMs.map fun _ => 0) ++
      [("warnings", 0)])) +
    (result.sessionId.encodedLen + result.scope.encodedLen sizes + numberLen result.total +
      stringLen result.consistency.asStr +
      (result.observedAtUnixMs.map fun time => numberLen time.toNat).getD 0)

theorem encoded_len_parts (result : ChangesListResult LoopId Body) :
    result.encodedLen sizes =
      result.frameLen sizes + arrayLen (result.records.map (ChangeRecord.encodedLen sizes)) +
        cursorLen sizes result.nextCursor + boolLen result.complete + boolLen result.stale +
        arrayLen (result.warnings.map fun warning => stringLen warning.asStr) := by
  rw [ChangesListResult.encodedLen, object_len_values, ChangesListResult.frameLen]
  cases result.observedAtUnixMs <;>
    simp only [optional_none, optional_some, Option.map_none, Option.map_some, List.map_cons,
      List.map_nil, List.cons_append, List.nil_append, List.sum_cons, List.sum_nil,
      Option.getD_none, Option.getD_some] <;>
    omega

end Plans

section PlannedPages

variable {LoopId Body : Type} (sizes : Sizes LoopId Body) {request : ChangesListRequest LoopId}
  {records : List (ChangeRecord Body)} {observation : List Char}
  {consistency : ChangeListConsistency} {observedAtUnixMs : Option UInt64}
  {warnings : List ChangeListWarning} {pageEnd : Option Nat} {reached : Nat}

def warningsLen (warnings : List ChangeListWarning) : Nat :=
  arrayLen (warnings.map fun warning => stringLen warning.asStr)

theorem push_warning_sublist (warnings : List ChangeListWarning) (warning : ChangeListWarning) :
    warnings.Sublist (pushWarning warnings warning) := by
  rw [pushWarning]
  split
  · exact List.Sublist.refl warnings
  · exact List.sublist_append_left warnings [warning]

theorem warnings_len_le {fewer warnings : List ChangeListWarning}
    (left : fewer.Sublist warnings) : warningsLen fewer ≤ warningsLen warnings :=
  array_len_sublist (left.map _)

theorem bool_len_le (value : Bool) : boolLen value ≤ 5 := by
  cases value <;> decide

theorem reserved_len_eq (request : ChangesListRequest LoopId) (total : Nat) :
    reservedLen sizes request total consistency observedAtUnixMs warnings =
      (planHeader request total consistency observedAtUnixMs warnings :
        ChangesListResult LoopId Body).frameLen sizes + 12 +
        warningsLen (pushWarning (pushWarning warnings .detailsUnavailable) .recordsSkipped) := by
  have none_len : cursorLen sizes none = 4 := rfl
  have false_len : boolLen false = 5 := rfl
  have empty_len : arrayLen [] = 2 := rfl
  rw [reservedLen, encoded_len_parts]
  simp only [planHeader, List.map_nil, none_len, false_len, empty_len, warningsLen]
  omega

/-- A plan ends behind its offset, or there is nothing left to list. -/
theorem plan_page_end_iff :
    planPageEnd sizes request records observation consistency observedAtUnixMs warnings pageEnd =
        .ok reached ↔
      request.offset ≤ records.length ∧
        planLoop sizes request observation
          (reservedLen sizes request records.length consistency observedAtUnixMs warnings)
          records.length request.offset (candidates request records pageEnd) request.offset 0 =
          reached ∧
        (reached = request.offset → request.offset = records.length) := by
  simp only [planPageEnd]
  split
  · rename_i beyond
    constructor
    · intro planned
      cases planned
    · intro planned
      exact absurd planned.1 (Nat.not_le.mpr beyond)
  · rename_i within
    generalize planLoop sizes request observation
      (reservedLen sizes request records.length consistency observedAtUnixMs warnings)
      records.length request.offset (candidates request records pageEnd) request.offset 0 = found
    split
    · rename_i stuck
      constructor
      · intro planned
        cases planned
      · rintro ⟨-, rfl, progress⟩
        exact absurd (progress stuck.1) (Nat.ne_of_lt stuck.2)
    · rename_i moves
      constructor
      · intro planned
        cases planned
        exact ⟨Nat.not_lt.mp within, rfl, fun stuck => by omega⟩
      · rintro ⟨-, rfl, -⟩
        rfl

variable (request records pageEnd) in
theorem candidates_length :
    (candidates request records pageEnd).length ≤ records.length - request.offset := by
  simp only [candidates, List.length_take, List.length_drop]
  omega

theorem candidates_take {count : Nat}
    (within : count ≤ (candidates request records pageEnd).length) :
    (candidates request records pageEnd).take count =
      (records.drop request.offset).take count := by
  simp only [candidates, List.length_take] at within
  simp only [candidates, List.take_take]
  congr 1
  omega

theorem planned_bounds
    (planned : planPageEnd sizes request records observation consistency observedAtUnixMs warnings
      pageEnd = .ok reached) :
    request.offset ≤ reached ∧ reached ≤ records.length ∧
      reached - request.offset ≤ (candidates request records pageEnd).length := by
  obtain ⟨within, found, -⟩ := (plan_page_end_iff sizes).mp planned
  have bounds := plan_loop_bounds sizes found
  have lengths := candidates_length request records pageEnd
  omega

variable (request records observation consistency observedAtUnixMs warnings reached) in
/-- The warnings of a page are among those that its plan kept room for. -/
theorem page_warnings_len (complete : Bool) :
    warningsLen (pageUpTo request records observation consistency observedAtUnixMs warnings
        complete reached).warnings ≤
      warningsLen (pushWarning (pushWarning warnings .detailsUnavailable) .recordsSkipped) := by
  apply warnings_len_le
  have first := push_warning_sublist warnings .detailsUnavailable
  have second := push_warning_sublist (pushWarning warnings .detailsUnavailable) .recordsSkipped
  simp only [pageUpTo]
  split
  · exact second
  · exact first.trans second

/-- A planned page with a record takes no more than the bytes of its request. -/
theorem planned_page_fits
    (planned : planPageEnd sizes request records observation consistency observedAtUnixMs warnings
      pageEnd = .ok reached) (some_record : request.offset < reached) (complete : Bool) :
    (pageUpTo request records observation consistency observedAtUnixMs warnings complete
      reached).encodedLen sizes ≤ request.bytes := by
  obtain ⟨-, found, -⟩ := (plan_page_end_iff sizes).mp planned
  obtain ⟨-, within, counted⟩ := planned_bounds sizes planned
  have fits := plan_loop_fits sizes (Nat.le_refl _) found some_record
  have first_comma : comma request.offset request.offset = 0 := if_neg (Nat.lt_irrefl _)
  rw [candidates_take counted, first_comma, reserved_len_eq] at fits
  have warned := page_warnings_len request records observation consistency observedAtUnixMs
    warnings reached complete
  have flag := bool_len_le complete
  have fresh : boolLen false = 5 := rfl
  have count : ((records.drop request.offset).take (reached - request.offset)).length =
      reached - request.offset := by
    rw [List.length_take, List.length_drop]
    omega
  rw [encoded_len_parts]
  change _ + arrayLen (((records.drop request.offset).take (reached - request.offset)).map
    (ChangeRecord.encodedLen sizes)) + cursorLen sizes (cursorAfter request observation
      records.length reached) + boolLen complete + boolLen false + warningsLen _ ≤ _
  have same_frame : (pageUpTo request records observation consistency observedAtUnixMs warnings
      complete reached).frameLen sizes = (planHeader request records.length consistency
        observedAtUnixMs warnings : ChangesListResult LoopId Body).frameLen sizes := rfl
  rw [same_frame, arrayLen, List.length_map, count]
  omega

/-- The warnings that a listing starts with. -/
def firstWarnings : List ChangeListWarning := [.noRepository, .statusIncomplete, .recordsSkipped]

theorem session_id_len (sessionId : SessionId) : sessionId.encodedLen = 38 := rfl

theorem scope_len_le (short : ∀ loopId, sizes.loopId loopId ≤ 64) (scope : ChangeScope LoopId) :
    scope.encodedLen sizes ≤ 85 := by
  cases scope with
  | workspace => exact (by decide : stringLen "workspace".toList ≤ 85)
  | session => exact (by decide : stringLen "session".toList ≤ 85)
  | turn loopId =>
    have small := short loopId
    have inner := object_len_field [] [] "loop_id" (sizes.loopId loopId)
    have outer := object_len_field [] [] "turn" (objectLen [("loop_id", sizes.loopId loopId)])
    have names : objectLen [("turn", 0)] + objectLen [("loop_id", 0)] = 21 := by decide
    simp only [List.nil_append] at inner outer
    rw [ChangeScope.encodedLen, outer, inner]
    omega

theorem frame_len_le (short : ∀ loopId, sizes.loopId loopId ≤ 64)
    (result : ChangesListResult LoopId Body) (addressable : result.total < 2 ^ 64) :
    result.frameLen sizes ≤ 320 := by
  have scope := scope_len_le sizes short result.scope
  have total : numberLen result.total ≤ 20 := number_len_le (by decide) (by omega)
  have level : stringLen result.consistency.asStr ≤ 6 := by
    cases result.consistency <;> decide
  rw [ChangesListResult.frameLen, session_id_len]
  cases result.observedAtUnixMs with
  | none =>
    have names : objectLen ([("session_id", 0), ("scope", 0), ("records", 0), ("next_cursor", 0),
        ("total", 0), ("complete", 0), ("stale", 0), ("consistency", 0)] ++
        ([] ++ [("warnings", 0)])) ≤ 120 := by decide
    simp only [Option.map_none, Option.getD_none, optional_none]
    omega
  | some time =>
    have bounded := time.toNat_lt
    have stamp : numberLen time.toNat ≤ 20 := number_len_le (by decide) (by omega)
    have names : objectLen ([("session_id", 0), ("scope", 0), ("records", 0), ("next_cursor", 0),
        ("total", 0), ("complete", 0), ("stale", 0), ("consistency", 0)] ++
        ([("observed_at_unix_ms", 0)] ++ [("warnings", 0)])) ≤ 140 := by decide
    simp only [Option.map_some, Option.getD_some, optional_some]
    omega

/-- A page without records is small. -/
theorem empty_page_fits (short : ∀ loopId, sizes.loopId loopId ≤ 64)
    (addressable : records.length < 2 ^ 64) (few : warnings.Sublist firstWarnings)
    (last : request.offset = records.length) (complete : Bool) :
    (pageUpTo request records observation consistency observedAtUnixMs warnings complete
      request.offset).encodedLen sizes ≤ minChangeMaxBytes := by
  have none_left : (records.drop request.offset).take (request.offset - request.offset) = [] := by
    rw [Nat.sub_self, List.take_zero]
  have no_cursor : cursorAfter request observation records.length request.offset = none :=
    if_neg (by omega)
  have frame := frame_len_le sizes short (pageUpTo request records observation consistency
    observedAtUnixMs warnings complete request.offset) addressable
  have warned : warningsLen warnings ≤ 80 :=
    (warnings_len_le few).trans (by decide)
  have flag := bool_len_le complete
  have facts : arrayLen [] = 2 ∧ boolLen false = 5 ∧ minChangeMaxBytes = 1024 := by decide
  have null : cursorLen sizes none = 4 := rfl
  rw [encoded_len_parts]
  simp only [pageUpTo, none_left, no_cursor, List.map_nil, List.any_nil] at frame ⊢
  change _ + warningsLen warnings ≤ _
  omega

end PlannedPages

section Answers

variable {LoopId Body : Type} [DecidableEq LoopId] (sizes : Sizes LoopId Body)
  {request : ChangesListRequest LoopId} {records : List (ChangeRecord Body)}
  {observation : List Char} {consistency : ChangeListConsistency}
  {observedAtUnixMs : Option UInt64} {warnings : List ChangeListWarning} {complete : Bool}
  {pageEnd : Option Nat} {reached : Nat} {page : ChangesListResult LoopId Body}

theorem bytes_ge_min (valid : request.isValid = true) : minChangeMaxBytes ≤ request.bytes := by
  simp only [ChangesListRequest.isValid, Bool.and_eq_true] at valid
  obtain ⟨⟨-, bounded⟩, -⟩ := valid
  rw [ChangesListRequest.bytes]
  cases given : request.maxBytes with
  | none => decide
  | some value =>
    rw [given, Option.all_some, Bool.and_eq_true] at bounded
    exact of_decide_eq_true bounded.1

omit [DecidableEq LoopId] in
theorem encoded_result_ok {result : ChangesListResult LoopId Body} {maxBytes : Nat}
    (encoded : encodedResult sizes result maxBytes = .ok page) :
    page = result ∧ page.encodedLen sizes ≤ maxBytes := by
  rw [encodedResult] at encoded
  split at encoded
  · cases encoded
  · rename_i fits
    cases encoded
    exact ⟨rfl, Nat.not_lt.mp fits⟩

/-- Every planned page fits. -/
theorem planned_page_encodes (valid : request.isValid = true)
    (short : ∀ loopId, sizes.loopId loopId ≤ 64) (addressable : records.length < 2 ^ 64)
    (few : warnings.Sublist firstWarnings)
    (planned : planPageEnd sizes request records observation consistency observedAtUnixMs warnings
      pageEnd = .ok reached) (complete : Bool) :
    (pageUpTo request records observation consistency observedAtUnixMs warnings complete
      reached).encodedLen sizes ≤ request.bytes := by
  obtain ⟨begins, -, -⟩ := planned_bounds sizes planned
  rcases Nat.eq_or_lt_of_le begins with stays | advances
  · have last := ((plan_page_end_iff sizes).mp planned).2.2 stays.symm
    subst stays
    exact (empty_page_fits sizes short addressable few last complete).trans (bytes_ge_min valid)
  · exact planned_page_fits sizes planned advances complete

/-- The encoding of a planned page never fails. -/
theorem page_records_of_plan (valid : request.isValid = true)
    (fresh : request.isStale observation = false) (short : ∀ loopId, sizes.loopId loopId ≤ 64)
    (addressable : records.length < 2 ^ 64)
    (few : (warnings.filter (· ≠ .detailsUnavailable)).Sublist firstWarnings)
    (planned : planPageEnd sizes request records observation consistency observedAtUnixMs
      (warnings.filter (· ≠ .detailsUnavailable)) pageEnd = .ok reached) (complete : Bool) :
    pageRecords sizes request records observation consistency observedAtUnixMs warnings complete
      pageEnd = .ok (pageUpTo request records observation consistency observedAtUnixMs
        (warnings.filter (· ≠ .detailsUnavailable)) complete reached) := by
  have fits := planned_page_encodes sizes valid short addressable few planned complete
  have within := ((plan_page_end_iff sizes).mp planned).1
  rw [pageRecords, valid, Bool.not_true, if_neg Bool.false_ne_true]
  simp only [fresh, planned]
  rw [if_neg Bool.false_ne_true, if_neg (Nat.not_lt.mpr within)]
  exact if_neg (Nat.not_lt.mpr fits)

/-- What a page that is answered holds. -/
theorem page_records_ok
    (answered : pageRecords sizes request records observation consistency observedAtUnixMs warnings
      complete pageEnd = .ok page) :
    page.encodedLen sizes ≤ request.bytes ∧
      (request.isStale observation = false → ∃ reached,
        planPageEnd sizes request records observation consistency observedAtUnixMs
          (warnings.filter (· ≠ .detailsUnavailable)) pageEnd = .ok reached ∧
        page = pageUpTo request records observation consistency observedAtUnixMs
          (warnings.filter (· ≠ .detailsUnavailable)) complete reached) := by
  simp only [pageRecords] at answered
  split at answered
  · cases answered
  · split at answered
    · rename_i stale
      exact ⟨(encoded_result_ok sizes answered).2, fun fresh => by simp [fresh] at stale⟩
    · split at answered
      · cases answered
      · split at answered
        · cases answered
        · rename_i reached planned
          obtain ⟨same, fits⟩ := encoded_result_ok sizes answered
          exact ⟨fits, fun _ => ⟨reached, planned, same⟩⟩

end Answers

section Details

variable {LoopId Body : Type} (sizes : Sizes LoopId Body)
  {request : ChangesListRequest LoopId} {records window : List (ChangeRecord Body)}
  {observation : List Char} {consistency : ChangeListConsistency}
  {observedAtUnixMs : Option UInt64} {warnings later : List ChangeListWarning} {reached : Nat}
  {verify : Nat → Option (Except ListError (Bool × Bool))}

/-- A record with details takes no more bytes than without. -/
theorem details_len_le (record : ChangeRecord Body) (missing : record.detailsAvailable = false)
    (available : Bool) :
    { record with detailsAvailable := available }.encodedLen sizes ≤ record.encodedLen sizes := by
  have flag := bool_len_le available
  have absent : boolLen record.detailsAvailable = 5 := by
    rw [missing]
    decide
  rw [ChangeRecord.encodedLen, ChangeRecord.encodedLen, object_len_field, absent,
    object_len_field _ _ _ 5]
  exact Nat.add_le_add_left flag _

/-- Loading details keeps what the records list and makes none of them longer. -/
theorem load_details_ok {index : Nat} {done : List (ChangeRecord Body) × Bool}
    (loaded : loadDetails verify index window = .ok done) :
    done.1.map (·.body) = window.map (·.body) ∧
      List.Forall₂ (fun small large : ChangeRecord Body =>
        small.encodedLen sizes ≤ large.encodedLen sizes) done.1 window := by
  induction window generalizing index done with
  | nil =>
    rw [loadDetails] at loaded
    cases loaded
    exact ⟨rfl, List.Forall₂.nil⟩
  | cons record rest inductionHypothesis =>
    rw [loadDetails] at loaded
    split at loaded
    · obtain ⟨others, after, rfl⟩ := Results.map_ok.mp loaded
      obtain ⟨same, smaller⟩ := inductionHypothesis after
      exact ⟨congrArg (record.body :: ·) same, List.Forall₂.cons (Nat.le_refl _) smaller⟩
    · cases loaded
    · rename_i available exhausted checked
      have missing : record.detailsAvailable = false := by
        cases present : record.detailsAvailable
        · rfl
        · simp [present] at checked
      have first := details_len_le sizes record missing available
      split at loaded
      · cases loaded
        refine ⟨rfl, List.Forall₂.cons first ?_⟩
        exact List.forall₂_same.mpr fun _ _ => Nat.le_refl _
      · obtain ⟨others, after, rfl⟩ := Results.map_ok.mp loaded
        obtain ⟨same, smaller⟩ := inductionHypothesis after
        exact ⟨congrArg (record.body :: ·) same, List.Forall₂.cons first smaller⟩

theorem replaced_length (begins : request.offset ≤ reached) (ends : reached ≤ records.length)
    (length : window.length = reached - request.offset) :
    (replaced request records window reached).length = records.length := by
  simp only [replaced, List.length_append, List.length_take, List.length_drop, length]
  omega

theorem replaced_page (begins : request.offset ≤ reached) (ends : reached ≤ records.length)
    (length : window.length = reached - request.offset) :
    ((replaced request records window reached).drop request.offset).take
      (reached - request.offset) = window := by
  have front : (records.take request.offset).length = request.offset :=
    List.length_take_of_le (by omega)
  rw [replaced, List.append_assoc, List.drop_left' front, ← length, List.take_left]

/-- Records with the same bodies in the place of the page list the same. -/
theorem replaced_bodies (begins : request.offset ≤ reached)
    (same : window.map (·.body) =
      ((records.drop request.offset).take (reached - request.offset)).map (·.body)) :
    (replaced request records window reached).map (·.body) = records.map (·.body) := by
  have after : (records.drop request.offset).drop (reached - request.offset) =
      records.drop reached := by
    rw [List.drop_drop, Nat.add_sub_cancel' begins]
  rw [replaced, List.map_append, List.map_append, same, ← List.map_append, ← List.map_append,
    List.append_assoc, ← after, List.take_append_drop, List.take_append_drop]

/-- The second plan ends where the first one did. -/
theorem second_plan
    (planned : planPageEnd sizes request records observation consistency observedAtUnixMs warnings
      none = .ok reached)
    (smaller : List.Forall₂ (fun small large : ChangeRecord Body =>
      small.encodedLen sizes ≤ large.encodedLen sizes) window
      ((records.drop request.offset).take (reached - request.offset)))
    (reserved : warningsLen (pushWarning (pushWarning later .detailsUnavailable) .recordsSkipped) =
      warningsLen (pushWarning (pushWarning warnings .detailsUnavailable) .recordsSkipped)) :
    planPageEnd sizes request (replaced request records window reached) observation consistency
      observedAtUnixMs later (some reached) = .ok reached := by
  obtain ⟨begins, ends, counted⟩ := planned_bounds sizes planned
  obtain ⟨-, found, progress⟩ := (plan_page_end_iff sizes).mp planned
  have length : window.length = reached - request.offset := by
    rw [smaller.length_eq, List.length_take, List.length_drop]
    omega
  have total := replaced_length begins ends length
  have listed := replaced_page begins ends length
  have limited : window.length ≤ request.limit := by
    rw [length]
    apply counted.trans
    rw [candidates, List.length_take]
    exact Nat.min_le_left _ _
  have chosen : candidates request (replaced request records window reached) (some reached) =
      window := by
    have bound : max (min reached records.length) request.offset = reached := by omega
    simp only [candidates, total, Option.getD_some, bound, listed]
    exact List.take_of_length_le limited
  rw [← candidates_take counted] at smaller
  have again := plan_loop_again sizes found smaller (Nat.le_refl 0)
  have same_reserved : reservedLen sizes request records.length consistency observedAtUnixMs later =
      reservedLen sizes request records.length consistency observedAtUnixMs warnings := by
    rw [reserved_len_eq, reserved_len_eq, reserved]
    rfl
  rw [← same_reserved] at again
  apply (plan_page_end_iff sizes).mpr
  rw [total, chosen]
  exact ⟨begins.trans ends, again, progress⟩

end Details

section Walks

variable {LoopId Body : Type} [DecidableEq LoopId] (sizes : Sizes LoopId Body)
  {request : ChangesListRequest LoopId} {records window : List (ChangeRecord Body)}
  {observation : List Char} {bodies : List Body} {page : ChangesListResult LoopId Body}
  {status : WorkspaceStatus} {complete warm : Bool} {reached : Nat}
  {verify : Nat → Option (Except ListError (Bool × Bool))}

/-- A page was answered for a request, from records with the listed bodies. -/
inductive Answered (bodies : List Body) (observation : List Char)
    (request : ChangesListRequest LoopId) (page : ChangesListResult LoopId Body) : Prop where
  | tool (records : List (ChangeRecord Body)) (complete warm : Bool)
      (verify : Nat → Option (Except ListError (Bool × Bool)))
      (listed : records.map (·.body) = bodies)
      (answered : listToolChanges sizes request records observation complete warm verify =
        .ok page)
  | workspace (records : List (ChangeRecord Body)) (status : WorkspaceStatus)
      (listed : records.map (·.body) = bodies)
      (answered : listWorkspaceChanges sizes request status records observation = .ok page)

/-- Pages read one after another, and the cursor behind the last one. Every request may have
its own limits. -/
inductive Followed (bodies : List Body) (observation : List Char) :
    List (ChangesListResult LoopId Body) → Option (ChangeCursor LoopId) → Prop where
  | first (request : ChangesListRequest LoopId) (page : ChangesListResult LoopId Body)
      (begun : request.cursor = none) (answered : Answered sizes bodies observation request page) :
      Followed bodies observation [page] page.nextCursor
  | next (pages : List (ChangesListResult LoopId Body)) (cursor : ChangeCursor LoopId)
      (request : ChangesListRequest LoopId) (page : ChangesListResult LoopId Body)
      (before : Followed bodies observation pages (some cursor))
      (follows : request.cursor = some cursor)
      (answered : Answered sizes bodies observation request page) :
      Followed bodies observation (pages ++ [page]) page.nextCursor

theorem first_warnings_kept {warnings : List ChangeListWarning}
    (few : warnings.Sublist firstWarnings) :
    warnings.filter (· ≠ .detailsUnavailable) = warnings := by
  apply List.filter_eq_self.mpr
  intro warning member
  have first := few.subset member
  simp only [firstWarnings, List.mem_cons, List.not_mem_nil, or_false] at first
  rcases first with rfl | rfl | rfl <;> decide

theorem warnings_after_few (complete exhausted : Bool) :
    (warningsAfter complete exhausted).Sublist firstWarnings := by
  cases complete <;> cases exhausted <;> decide

theorem workspace_warnings_few (status : WorkspaceStatus) :
    (workspaceWarnings status).Sublist firstWarnings := by
  simp only [workspaceWarnings]
  cases status.repoAvailable <;> cases status.complete <;> split <;> decide

/-- What is found after the details takes the room that was kept before. -/
theorem reserved_after (complete exhausted : Bool) :
    warningsLen (pushWarning (pushWarning (warningsAfter complete exhausted) .detailsUnavailable)
        .recordsSkipped) =
      warningsLen (pushWarning (pushWarning (toolWarnings complete) .detailsUnavailable)
        .recordsSkipped) := by
  cases complete <;> cases exhausted <;> decide

/-- The page of Tool changes ends where it was planned first, and it is encoded. -/
theorem tool_page_of_plan (valid : request.isValid = true)
    (fresh : request.isStale observation = false) (short : ∀ loopId, sizes.loopId loopId ≤ 64)
    (addressable : records.length < 2 ^ 64)
    (planned : planPageEnd sizes request records observation (toolConsistency warm) none
      (toolWarnings complete) none = .ok reached) {exhausted : Bool}
    (loaded : loadDetails verify request.offset
      ((records.drop request.offset).take (reached - request.offset)) = .ok (window, exhausted)) :
    planPageEnd sizes request (replaced request records window reached) observation
        (toolConsistency warm) none (warningsAfter complete exhausted) (some reached) =
        .ok reached ∧
      listToolChanges sizes request records observation complete warm verify =
        .ok (pageUpTo request (replaced request records window reached) observation
          (toolConsistency warm) none (warningsAfter complete exhausted) (complete && !exhausted)
          reached) := by
  obtain ⟨begins, ends, -⟩ := planned_bounds sizes planned
  obtain ⟨-, smaller⟩ := load_details_ok sizes loaded
  dsimp only at smaller
  have again := second_plan sizes planned smaller (reserved_after complete exhausted)
  have length : window.length = reached - request.offset := by
    rw [smaller.length_eq, List.length_take, List.length_drop]
    omega
  have total : (replaced request records window reached).length = records.length :=
    replaced_length begins ends length
  have few := warnings_after_few complete exhausted
  have kept := first_warnings_kept few
  have encoded := page_records_of_plan sizes valid fresh short (by omega) (kept ▸ few)
    (kept.symm ▸ again) (complete && !exhausted)
  rw [kept] at encoded
  refine ⟨again, ?_⟩
  rw [listToolChanges, valid, Bool.not_true, if_neg Bool.false_ne_true, fresh,
    if_neg Bool.false_ne_true, planned]
  simp only [loaded]
  exact encoded

theorem workspace_page_of_plan (valid : request.isValid = true)
    (fresh : request.isStale observation = false) (short : ∀ loopId, sizes.loopId loopId ≤ 64)
    (addressable : records.length < 2 ^ 64) (scope : request.scope = .workspace)
    (planned : planPageEnd sizes request records observation .live (some status.observedAtUnixMs)
      (workspaceWarnings status) none = .ok reached) :
    listWorkspaceChanges sizes request status records observation =
      .ok (pageUpTo request records observation .live (some status.observedAtUnixMs)
        (workspaceWarnings status) status.complete reached) := by
  have few := workspace_warnings_few status
  have kept := first_warnings_kept few
  have encoded := page_records_of_plan sizes valid fresh short addressable (kept.symm ▸ few)
    (kept.symm ▸ planned) status.complete
  rw [kept] at encoded
  rw [listWorkspaceChanges, valid, Bool.not_true, if_neg Bool.false_ne_true,
    if_neg (not_not_intro scope)]
  exact encoded

/-- What a page of an unchanged observation lists, and where it continues. -/
def Continues (bodies : List Body) (observation : List Char) (request : ChangesListRequest LoopId)
    (page : ChangesListResult LoopId Body) : Prop :=
  ∃ reached, request.offset ≤ reached ∧ reached ≤ bodies.length ∧
    (reached = request.offset → request.offset = bodies.length) ∧
    page.records.map (·.body) = (bodies.drop request.offset).take (reached - request.offset) ∧
    page.nextCursor = cursorAfter request observation bodies.length reached

theorem page_continues {consistency : ChangeListConsistency} {observedAtUnixMs : Option UInt64}
    {warnings : List ChangeListWarning} {pageEnd : Option Nat}
    (fresh : request.isStale observation = false) (listed : records.map (·.body) = bodies)
    (answered : pageRecords sizes request records observation consistency observedAtUnixMs warnings
      complete pageEnd = .ok page) : Continues bodies observation request page := by
  obtain ⟨reached, planned, rfl⟩ := (page_records_ok sizes answered).2 fresh
  obtain ⟨begins, ends, -⟩ := planned_bounds sizes planned
  have progress := ((plan_page_end_iff sizes).mp planned).2.2
  subst listed
  rw [Continues, List.length_map]
  refine ⟨reached, begins, ends, progress, ?_, rfl⟩
  rw [pageUpTo, List.map_take, List.map_drop]

theorem answered_page (answered : Answered sizes bodies observation request page) :
    page.encodedLen sizes ≤ request.bytes ∧
      (request.isStale observation = false → Continues bodies observation request page) := by
  cases answered with
  | tool records complete warm verify listed answered =>
    rw [listToolChanges] at answered
    split at answered
    · cases answered
    · split at answered
      · rename_i stale
        exact ⟨(page_records_ok sizes answered).1, fun fresh => by simp [fresh] at stale⟩
      · split at answered
        · cases answered
        · rename_i pageEnd planned
          split at answered
          · cases answered
          · rename_i window exhausted loaded
            have begins := (planned_bounds sizes planned).1
            have same := (load_details_ok sizes loaded).1
            have still_listed := (replaced_bodies begins same).trans listed
            exact ⟨(page_records_ok sizes answered).1, fun fresh =>
              page_continues sizes fresh still_listed answered⟩
  | workspace records status listed answered =>
    rw [listWorkspaceChanges] at answered
    split at answered
    · cases answered
    · split at answered
      · cases answered
      · exact ⟨(page_records_ok sizes answered).1, fun fresh =>
          page_continues sizes fresh listed answered⟩

/-- The bodies that pages list, in order. -/
def covered (pages : List (ChangesListResult LoopId Body)) : List Body :=
  pages.flatMap fun page => page.records.map (·.body)

omit [DecidableEq LoopId] in
theorem covered_append (pages : List (ChangesListResult LoopId Body))
    (page : ChangesListResult LoopId Body) :
    covered (pages ++ [page]) = covered pages ++ page.records.map (·.body) := by
  rw [covered, List.flatMap_append, List.flatMap_singleton]
  rfl

/-- Pages followed to a cursor list what is before it; pages followed to their end list all. -/
def Covers (bodies : List Body) (observation : List Char)
    (pages : List (ChangesListResult LoopId Body)) (cursor : Option (ChangeCursor LoopId)) : Prop :=
  match cursor with
  | none => covered pages = bodies
  | some cursor => cursor.observation = some observation ∧ cursor.offset < bodies.length ∧
      pages.length ≤ cursor.offset ∧ covered pages = bodies.take cursor.offset

omit [DecidableEq LoopId] in
/-- One page further, what is listed stays what is before the cursor. -/
theorem covers_next {pages : List (ChangesListResult LoopId Body)}
    (continues : Continues bodies observation request page)
    (before : covered pages = bodies.take request.offset)
    (paged : pages.length ≤ request.offset) :
    Covers bodies observation (pages ++ [page]) page.nextCursor := by
  obtain ⟨reached, begins, ends, progress, listed, cursor⟩ := continues
  have together : covered (pages ++ [page]) = bodies.take reached := by
    rw [covered_append, before, listed, ← List.take_add, Nat.add_sub_cancel' begins]
  rw [cursor, cursorAfter]
  split
  · rename_i more
    refine ⟨rfl, more, ?_, together⟩
    rw [List.length_append, List.length_singleton]
    change _ ≤ reached
    omega
  · have all : reached = bodies.length := by omega
    rw [all, List.take_length] at together
    exact together

theorem followed_covers {pages : List (ChangesListResult LoopId Body)}
    {cursor : Option (ChangeCursor LoopId)}
    (followed : Followed sizes bodies observation pages cursor) :
    Covers bodies observation pages cursor := by
  induction followed with
  | first request page begun answered =>
    have fresh : request.isStale observation = false := by
      rw [ChangesListRequest.isStale, begun]
      rfl
    have offset : request.offset = 0 := by
      rw [ChangesListRequest.offset, begun]
      rfl
    have none_before : covered ([] : List (ChangesListResult LoopId Body)) =
        bodies.take request.offset := by
      rw [offset]
      rfl
    exact covers_next ((answered_page sizes answered).2 fresh) none_before (Nat.zero_le _)
  | next pages cursor request page before follows answered inductionHypothesis =>
    obtain ⟨observed, within, paged, listed⟩ := inductionHypothesis
    have fresh : request.isStale observation = false := by
      rw [ChangesListRequest.isStale, follows, Option.bind_some, observed, Option.any_some]
      exact decide_eq_false (not_not_intro rfl)
    have offset : request.offset = cursor.offset := by
      rw [ChangesListRequest.offset, follows]
      rfl
    rw [← offset] at paged listed
    exact covers_next ((answered_page sizes answered).2 fresh) listed paged

/-- Followed cursors list every body once and in order, and each page takes no more than its
bytes. A page of Tool changes is planned to the same end once its details are known, and like
a page of a workspace it is encoded. The length of a list is a machine word, and a loop's
identifier is short. -/
theorem changes_are_paged (short : ∀ loopId, sizes.loopId loopId ≤ 64) (bodies : List Body)
    (addressable : bodies.length < 2 ^ 64) (observation : List Char) :
    (∀ pages cursor, Followed sizes bodies observation pages cursor →
      Covers bodies observation pages cursor) ∧
    (∀ request page, Answered sizes bodies observation request page →
      page.encodedLen sizes ≤ request.bytes) ∧
    (∀ (request : ChangesListRequest LoopId) (records : List (ChangeRecord Body)) complete warm
        verify reached window exhausted,
      records.map (·.body) = bodies → request.isValid = true →
      request.isStale observation = false →
      planPageEnd sizes request records observation (toolConsistency warm) none
        (toolWarnings complete) none = .ok reached →
      loadDetails verify request.offset
        ((records.drop request.offset).take (reached - request.offset)) = .ok (window, exhausted) →
      planPageEnd sizes request (replaced request records window reached) observation
          (toolConsistency warm) none (warningsAfter complete exhausted) (some reached) =
          .ok reached ∧
        listToolChanges sizes request records observation complete warm verify =
          .ok (pageUpTo request (replaced request records window reached) observation
            (toolConsistency warm) none (warningsAfter complete exhausted)
            (complete && !exhausted) reached)) ∧
    (∀ (request : ChangesListRequest LoopId) (records : List (ChangeRecord Body)) status reached,
      records.map (·.body) = bodies → request.isValid = true →
      request.isStale observation = false → request.scope = .workspace →
      planPageEnd sizes request records observation .live (some status.observedAtUnixMs)
        (workspaceWarnings status) none = .ok reached →
      listWorkspaceChanges sizes request status records observation =
        .ok (pageUpTo request records observation .live (some status.observedAtUnixMs)
          (workspaceWarnings status) status.complete reached)) := by
  refine ⟨?_, ?_, ?_, ?_⟩
  · intro pages cursor followed
    exact followed_covers sizes followed
  · intro request page answered
    exact (answered_page sizes answered).1
  · intro request records complete warm verify reached window exhausted listed valid fresh planned
      loaded
    rw [← listed, List.length_map] at addressable
    exact tool_page_of_plan sizes valid fresh short addressable planned loaded
  · intro request records status reached listed valid fresh scope planned
    rw [← listed, List.length_map] at addressable
    exact workspace_page_of_plan sizes valid fresh short addressable scope planned

def sampleSizes : Sizes Unit Nat where
  loopId := fun _ => 38
  front := fun _ => [("path", 10)]
  coverage := fun _ => 10

def sampleObservation : List Char := List.replicate 64 'a'

def sampleRequest (cursor : Option (ChangeCursor Unit)) : ChangesListRequest Unit where
  sessionId := ⟨Vector.replicate 16 0⟩
  scope := .turn ()
  cursor := cursor
  limit := 1
  maxBytes := some 1024

def sampleRecords : List (ChangeRecord Nat) := [⟨0, true⟩, ⟨1, false⟩]

def samplePage (cursor : Option (ChangeCursor Unit)) (reached : Nat) :
    ChangesListResult Unit Nat :=
  pageUpTo (sampleRequest cursor) sampleRecords sampleObservation .live none [] true reached

theorem sample_loop_id_len (loopId : Unit) : sampleSizes.loopId loopId ≤ 64 := by
  cases loopId
  decide

/-- Two records, listed one by one. -/
theorem sample_changes_are_paged :
    covered [samplePage none 1, samplePage (samplePage none 1).nextCursor 2] = [0, 1] :=
  have first : Followed sampleSizes [0, 1] sampleObservation [samplePage none 1]
      (samplePage none 1).nextCursor :=
    Followed.first (sampleRequest none) (samplePage none 1) rfl
      (Answered.tool sampleRecords true true (fun _ => none) rfl (by rfl))
  (changes_are_paged sampleSizes sample_loop_id_len [0, 1] (by decide) sampleObservation).1 _ none
    (Followed.next [samplePage none 1] _ (sampleRequest (samplePage none 1).nextCursor) _ first rfl
      (Answered.tool sampleRecords true true (fun _ => none) rfl (by rfl)))

end Walks

end MinicoreAgent.Changes

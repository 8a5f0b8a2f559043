import Mathlib.Data.List.Infix
import MinicoreAgent.Lib.JsonText
import MinicoreAgent.ScanKeys
import MinicoreAgent.WorkspaceRead

/-!
# Listing files

One page of the entries of a directory, within a limit and an encoded budget. What a page has
room for is measured with the path of each entry twice: in the entry, and in a cursor that may
have to name it.
-/
namespace MinicoreAgent.WorkspaceScan

open Text JsonSize UnixPaths
open WorkspaceRead (digestHex jsonEscapedLen maxPathBytes minResultBytes maxResultBytes
  defaultResultBytes optionJson)

section Requests

def maxQueryBytes : Nat := 1024

def scopeHexLen : Nat := 16

def defaultLimit : Nat := 200

def maxLimit : Nat := 1000

/-- `normalize_relative`: the names of the path. -/
def normalizeRelative (path : List Char) (allowEmpty : Bool) : Option (List (List UInt8)) :=
  if path.contains '\x00' || isAbsolute (encode path) then none
  else
    match (components (encode path)).foldlM (fun names component =>
      match component with
      | .normal name => some (names ++ [name])
      | .current => some names
      | .parent | .root => none) [] with
    | none => none
    | some names => if names.isEmpty && !allowEmpty then none else some names

/-- `display_path` of a normalized path, whose names are parts of a text. -/
def normalDisplay (path : List Char) : Option (List Char) :=
  (normalizeRelative path true).bind fun names =>
    names.foldlM (fun display name => (decode name).map (childDisplay display)) []

/-- The eight bytes of a length, the highest first. -/
def lengthBytes (length : Nat) : List UInt8 :=
  ((List.range 8).map fun place => UInt8.ofNat (length / 256 ^ place)).reverse

/-- `scope_digest`. -/
def scopeDigest (sha256 : List UInt8 → Vector UInt8 32) (parts : List (List Char)) : List Char :=
  (digestHex (sha256 (parts.flatMap fun part => lengthBytes (byteLen part) ++ encode part))).take
    scopeHexLen

/-- `valid_scope`. -/
def validScope (value : List Char) : Bool :=
  byteLen value = scopeHexLen && value.all fun char =>
    char.isDigit || ('a' ≤ char && char ≤ 'f') || ('A' ≤ char && char ≤ 'F')

/-- `valid_query_text`. -/
def validQueryText (query : List Char) : Bool :=
  byteLen query ≤ maxQueryBytes && !query.contains '\n' && !query.contains '\r'

/-- `validate_result_bytes`. -/
def validResultBytes (maxBytes : Option Nat) : Bool :=
  maxBytes.all fun bytes => minResultBytes ≤ bytes && bytes ≤ maxResultBytes

structure WorkspaceListCursor where
  path : List Char
  scope : List Char
deriving DecidableEq, Repr

/-- `WorkspaceFilesRequest`, with the session id as text. -/
structure WorkspaceFilesRequest where
  sessionId : List Char
  directory : Option (List Char)
  recursive : Option Bool
  query : Option (List Char)
  cursor : Option WorkspaceListCursor
  limit : Option Nat
  maxBytes : Option Nat

variable (sha256 : List UInt8 → Vector UInt8 32)

def WorkspaceFilesRequest.scope (request : WorkspaceFilesRequest) (directory : List Char) :
    List Char :=
  scopeDigest sha256
    ["workspace.files".toList, request.sessionId, directory,
      if request.recursive.getD false then "1".toList else "0".toList, request.query.getD []]

/-- `WorkspaceFilesRequest::validate`, which also normalizes the directory. -/
def WorkspaceFilesRequest.validate (request : WorkspaceFilesRequest) :
    Except AgentError (List Char) :=
  let directory := request.directory.getD []
  if !directory.isEmpty &&
      (maxPathBytes < byteLen directory || (normalizeRelative directory false).isNone) then
    .error .invalidArguments
  else
    match normalDisplay directory with
    | none => .error .invalidArguments
    | some directory =>
      if request.query.any (fun query => !validQueryText query) then .error .invalidArguments
      else if request.limit.any (fun limit => limit = 0 || maxLimit < limit) then
        .error .invalidArguments
      else if !validResultBytes request.maxBytes then .error .invalidArguments
      else if request.cursor.any (fun cursor =>
          !validScope cursor.scope || cursor.scope ≠ request.scope sha256 directory ||
            maxPathBytes < byteLen cursor.path || (normalizeRelative cursor.path true).isNone) then
        .error .invalidArguments
      else .ok directory

end Requests

section Results

structure WorkspaceFileEntry where
  path : List Char
  kind : WorkspaceFileKind
  size : Option Nat
deriving DecidableEq, Repr

/-- `WorkspaceFilesResult`, whose consistency has one value, live. -/
structure WorkspaceFilesResult where
  directory : List Char
  entries : List WorkspaceFileEntry
  nextCursor : Option WorkspaceListCursor
  truncated : Bool
  scanComplete : Bool
  stoppedBy : WorkspaceScanStop
  skippedCount : Nat
  observedAtUnixMs : Nat
deriving DecidableEq, Repr

def WorkspaceFileKind.json : WorkspaceFileKind → List Char
  | .file => stringText "file".toList
  | .directory => stringText "directory".toList
  | .symlink => stringText "symlink".toList
  | .other => stringText "other".toList

def WorkspaceScanStop.json : WorkspaceScanStop → List Char
  | .ended => stringText "end".toList
  | .page => stringText "page".toList
  | .entries => stringText "entries".toList
  | .bytes => stringText "bytes".toList
  | .depth => stringText "depth".toList
  | .rules => stringText "rules".toList
  | .deadline => stringText "deadline".toList

def WorkspaceFileEntry.json (entry : WorkspaceFileEntry) : List Char :=
  objectText [("path", stringText entry.path), ("kind", entry.kind.json),
    ("size", optionJson (entry.size.map numberText))]

def WorkspaceFileEntry.encodedLen (entry : WorkspaceFileEntry) : Nat := byteLen entry.json

def WorkspaceListCursor.json (cursor : WorkspaceListCursor) : List Char :=
  objectText [("path", stringText cursor.path), ("scope", stringText cursor.scope)]

def WorkspaceFilesResult.json (result : WorkspaceFilesResult) : List Char :=
  objectText [("directory", stringText result.directory),
    ("entries", arrayText (result.entries.map WorkspaceFileEntry.json)),
    ("next_cursor", optionJson (result.nextCursor.map WorkspaceListCursor.json)),
    ("truncated", boolText result.truncated), ("scan_complete", boolText result.scanComplete),
    ("stopped_by", result.stoppedBy.json), ("skipped_count", numberText result.skippedCount),
    ("consistency", stringText "live".toList),
    ("observed_at_unix_ms", numberText result.observedAtUnixMs)]

/-- `envelope_bytes`. -/
def filesEnvelope (directory : List Char) (maxBytes : Nat) : Except AgentError Nat :=
  let size := byteLen (WorkspaceFilesResult.json
    { directory := directory
      entries := []
      nextCursor := some ⟨[], List.replicate scopeHexLen 'f'⟩
      truncated := true
      scanComplete := false
      stoppedBy := .deadline
      skippedCount := 2 ^ 64 - 1
      observedAtUnixMs := 2 ^ 64 - 1 })
  if size ≥ maxBytes then .error .invalidArguments else .ok size

end Results

section Listing

structure FilesPlan where
  directory : List Char
  recursive : Bool
  query : Option (List Char)
  limit : Nat
  maxBytes : Nat
  scope : List Char
  startPath : Option (List Char)

/-- What the closure of `scan_files` captures. -/
structure FilesPage where
  entries : List WorkspaceFileEntry
  skippedCount : Nat
  used : Nat
  dropped : Nat

def FilesPage.empty : FilesPage := ⟨[], 0, 0, 0⟩

/-- The walk of `scan_files`. -/
def FilesPlan.walk (plan : FilesPlan) (files : FileSystem) (limits : ScanLimits) : Walk where
  files := files
  limits := limits
  options :=
    { recursive := plan.recursive
      wantSize := true
      directoryOnly := true
      resumeFile := false }
  start := plan.startPath

/-- The closure of `scan_files`. -/
def visitFile (walk : Walk) (plan : FilesPlan) (contentBudget : Nat) (page : FilesPage)
    (entry : WalkEntry) (budget : ScanBudget) :
    Except AgentError (Visit × FilesPage × ScanBudget) :=
  match budget.byteAvailable walk (byteLen entry.relative) with
  | none => .ok (.stopBefore .bytes, page, budget)
  | some budget =>
    if ∃ query ∈ plan.query, ¬ query <:+: entry.relative then
      .ok (.next, { page with skippedCount := page.skippedCount + 1 }, budget)
    else
      let record : WorkspaceFileEntry := ⟨entry.relative, entry.kind, entry.size⟩
      let encoded := record.encodedLen
      if contentBudget < page.used + encoded + 1 + stringLen entry.relative then
        if page.entries.isEmpty then
          .ok (.next, { page with
            skippedCount := page.skippedCount + 1
            dropped := page.dropped + 1 }, budget)
        else .ok (.stopBefore .page, page, budget)
      else
        let page := { page with
          used := page.used + encoded + 1
          entries := page.entries ++ [record] }
        if plan.limit ≤ page.entries.length then .ok (.stop .page, page, budget)
        else .ok (.next, page, budget)

/-- A key may be advertised if its cursor is accepted and fits in what is left. -/
def KeyFits (contentBudget used : Nat) (key : List Char) : Prop :=
  byteLen key ≤ maxPathBytes ∧ stringLen key - 2 ≤ contentBudget - used

instance (contentBudget used : Nat) (key : List Char) :
    Decidable (KeyFits contentBudget used key) :=
  inferInstanceAs (Decidable (_ ∧ _))

/-- The end of `scan_files`. -/
def finishFiles (plan : FilesPlan) (contentBudget observedAtUnixMs : Nat) (outcome : WalkOutcome)
    (page : FilesPage) : WorkspaceFilesResult :=
  let dropped := page.dropped + outcome.unrepresentable + outcome.unreadable
  { directory := plan.directory
    entries := page.entries
    nextCursor := (outcome.next.filter fun path => KeyFits contentBudget page.used path).map
      fun path => ⟨path, plan.scope⟩
    truncated := outcome.reason ≠ .ended || 0 < dropped
    scanComplete := outcome.reason = .ended && dropped = 0
    stoppedBy := outcome.reason
    skippedCount := page.skippedCount + outcome.unrepresentable + outcome.unreadable +
      outcome.excluded
    observedAtUnixMs := observedAtUnixMs }

/-- The plan of a request whose directory is normalized. -/
def filesPlan (sha256 : List UInt8 → Vector UInt8 32) (request : WorkspaceFilesRequest)
    (directory : List Char) : FilesPlan where
  directory := directory
  recursive := request.recursive.getD false
  query := request.query.filter fun query => !query.isEmpty
  limit := request.limit.getD defaultLimit
  maxBytes := request.maxBytes.getD defaultResultBytes
  scope := request.scope sha256 directory
  startPath := request.cursor.map WorkspaceListCursor.path

/-- The walk of a page. -/
def listPage (files : FileSystem) (limits : ScanLimits) (plan : FilesPlan) (contentBudget : Nat) :
    Except AgentError (WalkOutcome × FilesPage × ScanBudget) :=
  walkScope (plan.walk files limits) (visitFile (plan.walk files limits) plan contentBudget)
    plan.directory .empty .fresh

/-- `scan_files`. -/
def scanFiles (files : FileSystem) (limits : ScanLimits) (plan : FilesPlan)
    (observedAtUnixMs : Nat) : Except AgentError WorkspaceFilesResult := do
  let envelope ← filesEnvelope plan.directory plan.maxBytes
  let contentBudget := plan.maxBytes - envelope
  let (outcome, page, _) ← listPage files limits plan contentBudget
  return finishFiles plan contentBudget observedAtUnixMs outcome page

/-- `files`. -/
def listFiles (sha256 : List UInt8 → Vector UInt8 32) (files : FileSystem) (limits : ScanLimits)
    (request : WorkspaceFilesRequest) (observedAtUnixMs : Nat) :
    Except AgentError WorkspaceFilesResult := do
  let directory ← request.validate sha256
  scanFiles files limits (filesPlan sha256 request directory) observedAtUnixMs

end Listing

section Cursors

variable {files : FileSystem} {limits : ScanLimits} {plan : FilesPlan} {walk : Walk}
  {contentBudget : Nat}

/-- A page that holds something still has room for the path of its last entry. -/
structure FilesPage.Reserves (contentBudget : Nat) (page : FilesPage) : Prop where
  within : page.used ≤ contentBudget
  last : ∀ entry ∈ page.entries.getLast?, page.used + stringLen entry.path ≤ contentBudget

/-- A visit leaves the entries as they are, and then does not end the page unless it stops
before the entry, or it adds the entry with room for its path. -/
theorem visit_file_cases {page after : FilesPage} {entry : WalkEntry} {budget later : ScanBudget}
    {verdict : Visit} (visited : visitFile walk plan contentBudget page entry budget =
      .ok (verdict, after, later)) :
    (after.entries = page.entries ∧ after.used = page.used ∧
        (verdict = .next ∨ verdict = .stopBefore .bytes ∨ verdict = .stopBefore .page)) ∨
      (after.entries = page.entries ++ [⟨entry.relative, entry.kind, entry.size⟩] ∧
        after.used + stringLen entry.relative ≤ contentBudget ∧
        (verdict = .next ∨ verdict = .stop .page)) := by
  rw [visitFile] at visited
  split at visited
  · cases visited
    exact .inl ⟨rfl, rfl, .inr (.inl rfl)⟩
  · split at visited
    · cases visited
      exact .inl ⟨rfl, rfl, .inl rfl⟩
    · dsimp only at visited
      split at visited
      · split at visited
        · cases visited
          exact .inl ⟨rfl, rfl, .inl rfl⟩
        · cases visited
          exact .inl ⟨rfl, rfl, .inr (.inr rfl)⟩
      · rename_i fits
        split at visited
        · cases visited
          exact .inr ⟨rfl, by dsimp only; omega, .inr rfl⟩
        · cases visited
          exact .inr ⟨rfl, by dsimp only; omega, .inl rfl⟩

theorem visit_file_reserves {page after : FilesPage} {entry : WalkEntry}
    {budget later : ScanBudget} {verdict : Visit} (reserves : page.Reserves contentBudget)
    (visited : visitFile walk plan contentBudget page entry budget = .ok (verdict, after, later)) :
    after.Reserves contentBudget := by
  rcases visit_file_cases visited with ⟨entries, used, -⟩ | ⟨entries, used, -⟩
  · constructor
    · rw [used]
      exact reserves.within
    · rw [entries, used]
      exact reserves.last
  · constructor
    · exact Nat.le_trans (Nat.le_add_right _ _) used
    · intro last member
      rw [entries, List.getLast?_concat, Option.mem_some_iff] at member
      rw [← member]
      exact used

theorem visit_file_plain :
    Plain (visitFile walk plan contentBudget) fun page => page.entries ≠ [] where
  before page entry budget after later visited found := by
    rcases visit_file_cases visited with ⟨entries, -, -⟩ | ⟨-, -, verdict | verdict⟩
    · rw [← entries]
      exact found
    · cases verdict
    · cases verdict
  stops page entry budget verdict after later visited := by
    rcases visit_file_cases visited with ⟨-, -, rfl | rfl | rfl⟩ | ⟨-, -, rfl | rfl⟩
    all_goals simp

theorem file_walk_kept :
    Kept walk (visitFile walk plan contentBudget) fun walker =>
      Names walk (fun page => page.entries ≠ []) walker ∧
        walker.visitor.Reserves contentBudget :=
  (names_kept visit_file_plain).and
    (visitor_kept fun _ _ _ _ _ _ reserves visited => visit_file_reserves reserves visited)

/-- A listed page that stops for its size has a key to go on behind, and room for the path of
its last entry. -/
theorem list_page_stops {outcome : WalkOutcome} {page : FilesPage} {budget : ScanBudget}
    (listed : listPage files limits plan contentBudget = .ok (outcome, page, budget)) :
    page.Reserves contentBudget ∧ (outcome.reason = .page → page.entries ≠ [] →
      ∃ key, Behind (plan.walk files limits) key ∧ outcome.next = some key) := by
  obtain ⟨walker, ⟨names, reserves⟩, ended⟩ := walk_scope_keeps file_walk_kept (by
    intro budget
    refine ⟨⟨fun _ found => absurd rfl found, fun page => ?_⟩, Nat.zero_le _, ?_⟩
    · cases page
    · simp [FilesPage.empty]) listed
  have finished : outcome = (walker.finish (plan.walk files limits)).1 :=
    congrArg Prod.fst ended
  have collected : page = walker.visitor := congrArg (fun ended => ended.2.1) ended
  rw [finished, collected]
  refine ⟨reserves, fun stopped found => ?_⟩
  obtain ⟨key, behind, next⟩ := finish_names names stopped found
  refine ⟨key, behind, ?_⟩
  rw [next]
  exact named_key behind fun _ => rfl

/-- A page that has room for a path can name it. -/
theorem key_fits_of_room {used : Nat} {key : List Char} (short : byteLen key ≤ maxPathBytes)
    (room : used + stringLen key ≤ contentBudget) : KeyFits contentBudget used key := by
  constructor
  · exact short
  · omega

/-- What a key that may be dropped becomes. -/
theorem filter_key {Key Cursor : Type} (fits : Key → Prop) [DecidablePred fits]
    (cursor : Key → Cursor) (key : Key) :
    ((some key).filter fun key => fits key).map cursor =
      if fits key then some (cursor key) else none := by
  by_cases room : fits key
  · rw [if_pos room, Option.filter_some, if_pos (decide_eq_true room), Option.map_some]
  · rw [if_neg room, Option.filter_some, if_neg (by simpa using room), Option.map_none]

/-- A listing page that stopped for its size has a key, and a cursor wherever that key fits in
what the page left; the path of its last entry does. -/
def ListingContinues (files : FileSystem) (limits : ScanLimits) (plan : FilesPlan)
    (result : WorkspaceFilesResult) : Prop :=
  ∃ envelope outcome page budget key,
    filesEnvelope plan.directory plan.maxBytes = .ok envelope ∧
    listPage files limits plan (plan.maxBytes - envelope) = .ok (outcome, page, budget) ∧
    result.entries = page.entries ∧ outcome.next = some key ∧
    Behind (plan.walk files limits) key ∧
    result.nextCursor = (if KeyFits (plan.maxBytes - envelope) page.used key then
      some ⟨key, plan.scope⟩ else none) ∧
    (byteLen key ≤ maxPathBytes → page.entries.getLast?.map WorkspaceFileEntry.path = some key →
      KeyFits (plan.maxBytes - envelope) page.used key)

theorem scan_files_continues {result : WorkspaceFilesResult} {now : Nat}
    (scanned : scanFiles files limits plan now = .ok result) (found : result.entries ≠ [])
    (stopped : result.stoppedBy = .page) : ListingContinues files limits plan result := by
  rw [scanFiles] at scanned
  obtain ⟨envelope, sized, scanned⟩ := Results.bind_ok.mp scanned
  obtain ⟨⟨outcome, page, budget⟩, listed, scanned⟩ := Results.bind_ok.mp scanned
  cases scanned
  obtain ⟨reserves, names⟩ := list_page_stops listed
  obtain ⟨key, behind, next⟩ := names stopped found
  refine ⟨envelope, outcome, page, budget, key, sized, listed, rfl, next, behind, ?_, ?_⟩
  · rw [finishFiles]
    dsimp only
    rw [next]
    exact filter_key (KeyFits (plan.maxBytes - envelope) page.used) _ key
  · intro short last
    obtain ⟨entry, ends, rfl⟩ := Option.map_eq_some_iff.mp last
    exact key_fits_of_room short (reserves.last entry ends)

end Cursors

end MinicoreAgent.WorkspaceScan

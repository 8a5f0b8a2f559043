import MinicoreAgent.FileListing
import MinicoreAgent.Lib.Lines
import MinicoreAgent.Lib.Matches

/-!
# Searching files

One page of the matches of a query in the lines of the files under some roots. A page that has
no room for the next match stops inside its file, and the cursor then names the place; else it
names the file that was searched last.
-/
namespace MinicoreAgent.WorkspaceScan

open Text JsonSize UnixPaths
open WorkspaceRead (jsonEscapedLen maxPathBytes maxReadBytes defaultResultBytes optionJson)

def defaultMaxMatches : Nat := 100

def maxMaxMatches : Nat := 1000

def maxSearchPaths : Nat := 32

def lineContextBytes : Nat := 64

section Requests

structure WorkspaceSearchCursor where
  pathIndex : Nat
  path : List Char
  line : Nat
  lineByteOffset : Nat
  scope : List Char
deriving DecidableEq, Repr

/-- `WorkspaceSearchRequest`, with the session id as text. -/
structure WorkspaceSearchRequest where
  sessionId : List Char
  query : List Char
  paths : Option (List (List Char))
  caseSensitive : Option Bool
  cursor : Option WorkspaceSearchCursor
  maxMatches : Option Nat
  maxBytes : Option Nat

/-- `roots_overlap`. -/
def rootsOverlap (left right : List Char) : Bool :=
  left.isEmpty || right.isEmpty ||
    let leftPath := components (encode left)
    let rightPath := components (encode right)
    if leftPath.length ≤ rightPath.length then leftPath.isPrefixOf rightPath
    else rightPath.isPrefixOf leftPath

/-- The first loop of `normalized_roots`. -/
def collectRoots : List (List Char) → List (List Char) → Option (List (List Char))
  | [], roots => some roots
  | path :: rest, roots => do
    let normalized ← normalDisplay path
    collectRoots rest (if roots.contains normalized then roots else roots ++ [normalized])

/-- `normalized_roots`. -/
def normalizedRoots (paths : Option (List (List Char))) : Except AgentError (List (List Char)) :=
  match collectRoots (paths.getD []) [] with
  | none => .error .invalidArguments
  | some roots =>
    if roots.isEmpty then .ok [[]]
    else if roots.zipIdx.any (fun root => roots.zipIdx.any fun candidate =>
        candidate.2 ≠ root.2 && rootsOverlap root.1 candidate.1) then .error .invalidArguments
    else .ok roots

variable (sha256 : List UInt8 → Vector UInt8 32)

def WorkspaceSearchRequest.scope (request : WorkspaceSearchRequest) (roots : List (List Char)) :
    List Char :=
  scopeDigest sha256
    (["workspace.search".toList, request.sessionId, request.query,
      if request.caseSensitive.getD false then "1".toList else "0".toList] ++ roots)

def WorkspaceSearchRequest.validCursor (request : WorkspaceSearchRequest)
    (roots : List (List Char)) (cursor : WorkspaceSearchCursor) : Bool :=
  validScope cursor.scope && cursor.scope = request.scope sha256 roots &&
    cursor.pathIndex < roots.length && cursor.lineByteOffset ≤ maxReadBytes &&
    byteLen cursor.path ≤ maxPathBytes && (normalizeRelative cursor.path true).isSome

/-- `WorkspaceSearchRequest::validate`, which also normalizes the roots. -/
def WorkspaceSearchRequest.validate (request : WorkspaceSearchRequest) :
    Except AgentError (List (List Char)) :=
  if request.query.isEmpty || !validQueryText request.query then .error .invalidArguments
  else if request.paths.any fun paths =>
      maxSearchPaths < paths.length || paths.any fun path => maxPathBytes < byteLen path then
    .error .invalidArguments
  else
    match normalizedRoots request.paths with
    | .error error => .error error
    | .ok roots =>
      if request.maxMatches.any (fun limit => limit = 0 || maxMaxMatches < limit) then
        .error .invalidArguments
      else if !validResultBytes request.maxBytes then .error .invalidArguments
      else if request.cursor.any (fun cursor => !request.validCursor sha256 roots cursor) then
        .error .invalidArguments
      else .ok roots

end Requests

section Results

/-- `WorkspaceSearchMatch`, whose ranges are pairs of their start and end. -/
structure WorkspaceSearchMatch where
  path : List Char
  lineNumber : Nat
  lineTextByteOffset : Nat
  matchByteRanges : List (Nat × Nat)
  lineText : List Char
  lineTruncated : Bool
deriving DecidableEq, Repr

/-- `WorkspaceSearchResult`, whose consistency has one value, live. -/
structure WorkspaceSearchResult where
  found : List WorkspaceSearchMatch
  nextCursor : Option WorkspaceSearchCursor
  truncated : Bool
  scanComplete : Bool
  stoppedBy : WorkspaceScanStop
  skippedFiles : Nat
  observedAtUnixMs : Nat
deriving DecidableEq, Repr

def byteRangeJson (range : Nat × Nat) : List Char :=
  objectText [("start", numberText range.1), ("end", numberText range.2)]

def WorkspaceSearchMatch.json (record : WorkspaceSearchMatch) : List Char :=
  objectText [("path", stringText record.path), ("line_number", numberText record.lineNumber),
    ("line_text_byte_offset", numberText record.lineTextByteOffset),
    ("match_byte_ranges", arrayText (record.matchByteRanges.map byteRangeJson)),
    ("line_text", stringText record.lineText), ("line_truncated", boolText record.lineTruncated)]

def WorkspaceSearchMatch.encodedLen (record : WorkspaceSearchMatch) : Nat := byteLen record.json

def WorkspaceSearchCursor.json (cursor : WorkspaceSearchCursor) : List Char :=
  objectText [("path_index", numberText cursor.pathIndex), ("path", stringText cursor.path),
    ("line", numberText cursor.line), ("line_byte_offset", numberText cursor.lineByteOffset),
    ("scope", stringText cursor.scope)]

def WorkspaceSearchResult.json (result : WorkspaceSearchResult) : List Char :=
  objectText [("matches", arrayText (result.found.map WorkspaceSearchMatch.json)),
    ("next_cursor", optionJson (result.nextCursor.map WorkspaceSearchCursor.json)),
    ("truncated", boolText result.truncated), ("scan_complete", boolText result.scanComplete),
    ("stopped_by", result.stoppedBy.json), ("skipped_files", numberText result.skippedFiles),
    ("consistency", stringText "live".toList),
    ("observed_at_unix_ms", numberText result.observedAtUnixMs)]

/-- `envelope_bytes`. -/
def searchEnvelope (maxBytes : Nat) : Except AgentError Nat :=
  let size := byteLen (WorkspaceSearchResult.json
    { found := []
      nextCursor := some ⟨2 ^ 32 - 1, [], 2 ^ 32 - 1, 2 ^ 32 - 1, List.replicate scopeHexLen 'f'⟩
      truncated := true
      scanComplete := false
      stoppedBy := .deadline
      skippedFiles := 2 ^ 64 - 1
      observedAtUnixMs := 2 ^ 64 - 1 })
  if size ≥ maxBytes then .error .invalidArguments else .ok size

end Results

section Lines

/-- A matcher finds the ranges of the exact query, or those that the folding expression of the
query finds. -/
inductive Matcher where
  | literal (needle : List Char)
  | folded (find : List Char → List (Nat × Nat))

/-- `Matcher::new`, with the expressions that the library builds. -/
def Matcher.new (expression : List Char → Option (List Char → List (Nat × Nat)))
    (query : List Char) (caseSensitive : Bool) : Except AgentError Matcher :=
  if caseSensitive then .ok (.literal query)
  else
    match expression query with
    | some find => .ok (.folded find)
    | none => .error .internal

/-- The text between two offsets that lie between characters. -/
def textSlice (text : List Char) (start stop : Nat) : List Char :=
  (floorPrefix stop text).drop (floorPrefix start text).length

/-- The ranges that `scan_ranges` walks over. -/
def scanRanges (found : Matcher) (line : List Char) (start : Nat) : List (Nat × Nat) :=
  if byteLen line < start then []
  else
    match found with
    | .literal needle =>
      let rest := textSlice line start (byteLen line)
      (Matches.matchIndices needle rest).map fun index =>
        let start := start + byteLen (rest.take index)
        (start, start + byteLen needle)
    | .folded find => (find line).filter fun range => start ≤ range.1

/-- `SearchPage`, without its matcher. -/
structure SearchPage where
  contentBudget : Nat
  used : Nat
  remaining : Nat
  found : List WorkspaceSearchMatch
  skippedFiles : Nat
  dropped : Nat
  fileDropped : Bool

/-- `PendingLine`. -/
structure PendingLine where
  record : WorkspaceSearchMatch
  encoded : Nat

/-- `build_candidate`. -/
def buildCandidate (page : SearchPage) (path : List Char) (lineNumber : Nat) (line : List Char)
    (ranges : List (Nat × Nat)) (start stop : Nat) : Option PendingLine :=
  if page.contentBudget - page.used < stop - start then none
  else if ranges.any fun range => range.1 < start || stop < range.2 then none
  else
    let record : WorkspaceSearchMatch :=
      { path := path
        lineNumber := lineNumber
        lineTextByteOffset := start
        matchByteRanges := ranges.map fun range => (range.1 - start, range.2 - start)
        lineText := textSlice line start stop
        lineTruncated := 0 < start || stop < byteLen line }
    let encoded := record.encodedLen
    if page.contentBudget < page.used + encoded + 1 + stringLen path then none
    else some ⟨record, encoded⟩

/-- `build_record`. -/
def buildRecord (page : SearchPage) (path : List Char) (lineNumber : Nat) (line : List Char)
    (ranges : List (Nat × Nat)) : Option PendingLine :=
  match ranges.head?, ranges.getLast? with
  | some first, some last =>
    match buildCandidate page path lineNumber line ranges 0 (byteLen line) with
    | some pending => some pending
    | none =>
      let start := floorBoundary line (first.1 - lineContextBytes)
      let stop := floorBoundary line last.2
      if stop ≤ start then none else buildCandidate page path lineNumber line ranges start stop
  | _, _ => none

/-- The probes of `visit_line`, which are at most as many as ranges are left to accept. -/
def probe (page : SearchPage) (path : List Char) (lineNumber : Nat) (line : List Char)
    (ranges : List (Nat × Nat)) : Nat → Nat → Nat → PendingLine → Nat × PendingLine
  | 0, accepted, _, pending => (accepted, pending)
  | left + 1, accepted, upper, pending =>
    if accepted < upper then
      let mid := accepted + (upper - accepted + 1) / 2
      match buildRecord page path lineNumber line (ranges.take mid) with
      | some candidate => probe page path lineNumber line ranges left mid upper candidate
      | none => probe page path lineNumber line ranges left accepted (mid - 1) pending
    else (accepted, pending)

/-- `commit`. -/
def SearchPage.commit (page : SearchPage) (pending : PendingLine) : SearchPage :=
  { page with
    used := page.used + (pending.encoded + 1)
    remaining := page.remaining - pending.record.matchByteRanges.length
    found := page.found ++ [pending.record] }

/-- The loop of `visit_line` over the ranges that it has collected. -/
def commitRanges (path : List Char) (lineNumber : Nat) (line : List Char)
    (overflow : Option Nat) : List (Nat × Nat) → SearchPage → Option (Nat × Nat) × SearchPage
  | [], page => (overflow.map fun offset => (lineNumber, offset), page)
  | first :: rest, page =>
    match buildRecord page path lineNumber line [first] with
    | none =>
      if page.found.isEmpty then
        commitRanges path lineNumber line overflow rest
          { page with dropped := page.dropped + 1, fileDropped := true }
      else (some (lineNumber, first.1), page)
    | some pending =>
      let (accepted, pending) :=
        probe page path lineNumber line (first :: rest) rest.length 1 (rest.length + 1) pending
      let next := (((first :: rest)[accepted]?).map Prod.fst).or overflow
      (next.map fun offset => (lineNumber, offset), page.commit pending)

variable (walk : Walk)

/-- The closure of `visit_line`, over the ranges of its line. -/
def collectRanges (remaining : Nat) : List (Nat × Nat) → List (Nat × Nat) → ScanBudget →
    Except AgentError (List (Nat × Nat) × Option Nat × ScanBudget)
  | [], ranges, budget => .ok (ranges, none, budget)
  | range :: rest, ranges, budget => do
    let budget ← budget.check walk
    if budget.timeExpired walk then return (ranges, none, budget.looked)
    else if remaining ≤ ranges.length then return (ranges, some range.1, budget.looked)
    else collectRanges remaining rest (ranges ++ [range]) budget.looked

/-- `visit_line`. -/
def visitLine (found : Matcher) (path : List Char) (lineNumber : Nat) (line : List Char)
    (start : Nat) (page : SearchPage) (budget : ScanBudget) :
    Except AgentError (Option (Nat × Nat) × SearchPage × ScanBudget) := do
  let (ranges, overflow, budget) ←
    collectRanges walk page.remaining (scanRanges found line start) [] budget
  let (stop, page) := commitRanges path lineNumber line overflow ranges page
  return (stop, page, budget)

end Lines

section Files

variable (walk : Walk)

/-- The lines of a file, without what ends them. -/
def searchLines (text : List Char) : List (List Char) :=
  let (lines, tail) := Lines.split '\n' text
  lines.map (fun line => if line.getLast? = some '\r' then line.dropLast else line) ++
    if tail.isEmpty then [] else [tail]

inductive ReadFile where
  | text (text : List Char)
  | unsupported
  | failed
  | stopBytes

/-- The bytes hold what no further bytes make a text of: `error_len` of their error is known. -/
def brokenText (bytes : List UInt8) : Bool :=
  (decode bytes).isNone && [1, 2, 3].all fun size =>
    (decode (bytes ++ List.replicate size 0x80)).isNone &&
      (decode (bytes ++ List.replicate size 0xbf)).isNone

/-- The end of `read_searchable_file`. -/
def readText (bytes : List UInt8) : ReadFile :=
  if bytes.contains 0 then .unsupported
  else
    match decode bytes with
    | some text => .text text
    | none => .unsupported

/-- The loop of `read_searchable_file` over its reads. -/
def readChunks : List (Option (List UInt8)) → List UInt8 → ScanBudget →
    Except AgentError (ReadFile × ScanBudget)
  | reads, bytes, budget => do
    let budget ← budget.check walk
    if budget.timeExpired walk then return (.stopBytes, budget.looked)
    let budget := budget.looked
    match reads with
    | [] => return (readText bytes, budget)
    | none :: _ => return (.failed, budget)
    | some [] :: _ => return (readText bytes, budget)
    | some chunk :: rest =>
      match budget.byteAvailable walk chunk.length with
      | none => return (.stopBytes, budget)
      | some budget =>
        if maxReadBytes < bytes.length + chunk.length then return (.unsupported, budget)
        else if chunk.contains 0 then return (.unsupported, budget)
        else if bytes.isEmpty && brokenText chunk then return (.unsupported, budget)
        else readChunks rest (bytes ++ chunk) budget

/-- What a file that cannot be opened counts as. -/
def openFailure (kind : WorkspaceFileKind) : WorkspaceError → ReadFile
  | .notFound => if kind = .symlink then .unsupported else .failed
  | .notFile | .notDirectory | .escape | .invalidPath => .unsupported
  | .unavailable => .failed

/-- `read_searchable_file`. -/
def readSearchableFile (entry : WalkEntry) (budget : ScanBudget) :
    Except AgentError (ReadFile × ScanBudget) :=
  if entry.kind = .other then .ok (.unsupported, budget)
  else
    match walk.files.openFile entry.relative with
    | .error error => .ok (openFailure entry.kind error, budget)
    | .ok (length, reads) =>
      if maxReadBytes < length then .ok (.unsupported, budget)
      else readChunks walk reads [] budget

/-- The visit of a line of `scan_file`, before the place to resume at only a look. -/
def visitFrom (found : Matcher) (path : List Char) (resume : Option (Nat × Nat))
    (lineNumber : Nat) (line : List Char) (page : SearchPage) (budget : ScanBudget) :
    Except AgentError (Option (Nat × Nat) × SearchPage × ScanBudget) :=
  let (resumeLine, resumeOffset) := resume.getD (0, 0)
  if lineNumber < max resumeLine 1 then .ok (none, page, budget)
  else
    visitLine walk found path lineNumber line
      (if lineNumber = resumeLine then floorBoundary line resumeOffset else 0) page budget

/-- The loop of `scan_file` over the lines. -/
def scanLines (found : Matcher) (path : List Char) (resume : Option (Nat × Nat)) :
    List (List Char) → Nat → SearchPage → ScanBudget →
    Except AgentError (Option (Nat × Nat) × SearchPage × ScanBudget)
  | [], _, page, budget => .ok (none, page, budget)
  | line :: rest, lineNumber, page, budget => do
    let budget ← budget.check walk
    if budget.timeExpired walk then return (none, page, budget.looked)
    let (stop, page, budget) ←
      visitFrom walk found path resume lineNumber line page budget.looked
    if stop.isSome then return (stop, page, budget)
    else scanLines found path resume rest (lineNumber + 1) page budget

/-- `FileScan`. -/
inductive FileScan where
  | done
  | stopInside (line offset : Nat)
  | stopBytes

/-- `scan_file`. -/
def scanFile (found : Matcher) (entry : WalkEntry) (resume : Option (Nat × Nat))
    (page : SearchPage) (budget : ScanBudget) :
    Except AgentError (FileScan × SearchPage × ScanBudget) := do
  let (read, budget) ← readSearchableFile walk entry budget
  match read with
  | .unsupported => return (.done, { page with skippedFiles := page.skippedFiles + 1 }, budget)
  | .failed =>
    return (.done, { page with
      skippedFiles := page.skippedFiles + 1
      dropped := page.dropped + 1 }, budget)
  | .stopBytes => return (.stopBytes, page, budget)
  | .text text =>
    let (stop, page, budget) ← scanLines walk found entry.relative resume (searchLines text) 1
      { page with fileDropped := false } budget
    let page :=
      if page.fileDropped then { page with skippedFiles := page.skippedFiles + 1 } else page
    match stop with
    | some (line, offset) => return (.stopInside line offset, page, budget)
    | none => return (.done, page, budget)

/-- The closure of `scan_search`. -/
def visitSearch (found : Matcher) (resume : Option (Nat × Nat)) (page : SearchPage)
    (entry : WalkEntry) (budget : ScanBudget) :
    Except AgentError (Visit × SearchPage × ScanBudget) :=
  if entry.kind = .directory then .ok (.next, page, budget)
  else if page.remaining = 0 then .ok (.stopBefore .page, page, budget)
  else do
    let fileResume := resume.filter fun _ => walk.start = some entry.relative
    let (scan, page, budget) ← scanFile walk found entry fileResume page budget
    match scan with
    | .done => return (.next, page, budget)
    | .stopInside line offset => return (.stopInside .page line offset, page, budget)
    | .stopBytes => return (.stopBefore .bytes, page, budget)

end Files

section Searching

structure SearchPlan where
  roots : List (List Char)
  query : List Char
  caseSensitive : Bool
  maxMatches : Nat
  maxBytes : Nat
  scope : List Char
  startPath : Nat
  startEntry : Option (List Char)
  resume : Option (Nat × Nat)

/-- The key of a cursor: its root, its path, and its place in a file. -/
structure SearchKey where
  pathIndex : Nat
  path : List Char
  place : Option (Nat × Nat)

/-- What the loop of `scan_search` keeps of its walks. -/
structure SearchTotals where
  reason : WorkspaceScanStop
  key : Option SearchKey
  unrepresentable : Nat
  unreadable : Nat
  excluded : Nat

def SearchPlan.rootResume (plan : SearchPlan) (pathIndex : Nat) : Option (Nat × Nat) :=
  if pathIndex = plan.startPath then plan.resume else none

/-- The walk of a root. -/
def SearchPlan.walk (plan : SearchPlan) (files : FileSystem) (limits : ScanLimits)
    (pathIndex : Nat) : Walk where
  files := files
  limits := limits
  options :=
    { recursive := true
      wantSize := false
      directoryOnly := false
      resumeFile := (plan.rootResume pathIndex).isSome }
  start := if pathIndex = plan.startPath then plan.startEntry else none

variable (files : FileSystem) (limits : ScanLimits)

/-- The first loop of `scan_search`: roots that are left may be aliases of each other. -/
def checkAliases (walk : Walk) : List (List Char) → List (List FileName) → ScanBudget →
    Except AgentError ScanBudget
  | [], _, budget => .ok budget
  | root :: rest, resolved, budget => do
    let budget ← budget.check walk
    if budget.timeExpired walk then return budget.looked
    match walk.files.canonical root with
    | none => throw .workspace
    | some path =>
      if resolved.any fun other => other.isPrefixOf path || path.isPrefixOf other then
        throw .invalidArguments
      else checkAliases walk rest (resolved ++ [path]) budget.looked

/-- The walk of one root of a search. -/
def searchRoot (plan : SearchPlan) (found : Matcher) (pathIndex : Nat) (root : List Char)
    (page : SearchPage) (budget : ScanBudget) :
    Except AgentError (WalkOutcome × SearchPage × ScanBudget) :=
  let walk := plan.walk files limits pathIndex
  walkScope walk (visitSearch walk found (plan.rootResume pathIndex)) root page budget

/-- Where a walk of a root may be continued. -/
def SearchPlan.nextPath (plan : SearchPlan) (pathIndex : Nat) (outcome : WalkOutcome) :
    Option (List Char) :=
  outcome.next.or (if plan.startPath < pathIndex ∧
    (outcome.reason = .page ∨ outcome.reason = .entries ∨ outcome.reason = .bytes) then some []
  else none)

/-- The loop of `scan_search` over the roots from the given one on. -/
def searchRoots (plan : SearchPlan) (found : Matcher) : Nat → List (List Char) → SearchTotals →
    SearchPage → ScanBudget → Except AgentError (SearchTotals × SearchPage)
  | _, [], totals, page, _ => .ok (totals, page)
  | pathIndex, root :: rest, totals, page, budget => do
    let (outcome, page, budget) ← searchRoot files limits plan found pathIndex root page budget
    let totals := { totals with
      unrepresentable := totals.unrepresentable + outcome.unrepresentable
      unreadable := totals.unreadable + outcome.unreadable
      excluded := totals.excluded + outcome.excluded }
    match plan.nextPath pathIndex outcome with
    | some path =>
      return ({ totals with
        reason := outcome.reason
        key := some ⟨pathIndex, path, outcome.resume⟩ }, page)
    | none =>
      match outcome.reason with
      | .ended => searchRoots plan found (pathIndex + 1) rest totals page budget
      | .rules | .depth =>
        searchRoots plan found (pathIndex + 1) rest { totals with reason := outcome.reason } page
          budget
      | stopped => return ({ totals with reason := stopped }, page)

/-- The cursor of a key. -/
def SearchPlan.cursor (plan : SearchPlan) (key : SearchKey) : WorkspaceSearchCursor where
  pathIndex := key.pathIndex
  path := key.path
  line := (key.place.map Prod.fst).getD 0
  lineByteOffset := (key.place.map Prod.snd).getD 0
  scope := plan.scope

/-- The end of `scan_search`. -/
def finishSearch (plan : SearchPlan) (observedAtUnixMs : Nat) (totals : SearchTotals)
    (page : SearchPage) : WorkspaceSearchResult :=
  let dropped := page.dropped + totals.unrepresentable + totals.unreadable
  { found := page.found
    nextCursor := (totals.key.filter fun key =>
      KeyFits page.contentBudget page.used key.path).map plan.cursor
    truncated := totals.reason ≠ .ended || 0 < dropped
    scanComplete := totals.reason = .ended && dropped = 0
    stoppedBy := totals.reason
    skippedFiles := page.skippedFiles + totals.unrepresentable + totals.unreadable +
      totals.excluded
    observedAtUnixMs := observedAtUnixMs }

def SearchPlan.emptyPage (plan : SearchPlan) (envelope : Nat) : SearchPage where
  contentBudget := plan.maxBytes - envelope
  used := 0
  remaining := plan.maxMatches
  found := []
  skippedFiles := 0
  dropped := 0
  fileDropped := false

/-- The check of the roots that are left, if there are several. -/
def SearchPlan.checkRoots (plan : SearchPlan) : Except AgentError ScanBudget :=
  let remaining := plan.roots.drop plan.startPath
  if 1 < remaining.length then
    checkAliases (plan.walk files limits plan.startPath) remaining [] .fresh
  else .ok .fresh

/-- The searched roots of a plan. -/
def searchPage (expression : List Char → Option (List Char → List (Nat × Nat)))
    (plan : SearchPlan) : Except AgentError (SearchTotals × SearchPage) := do
  let budget ← plan.checkRoots files limits
  let envelope ← searchEnvelope plan.maxBytes
  let found ← Matcher.new expression plan.query plan.caseSensitive
  searchRoots files limits plan found plan.startPath (plan.roots.drop plan.startPath)
    ⟨.ended, none, 0, 0, 0⟩ (plan.emptyPage envelope) budget

/-- `scan_search`. -/
def scanSearch (expression : List Char → Option (List Char → List (Nat × Nat)))
    (plan : SearchPlan) (observedAtUnixMs : Nat) : Except AgentError WorkspaceSearchResult := do
  let (totals, page) ← searchPage files limits expression plan
  return finishSearch plan observedAtUnixMs totals page

/-- The plan of a request whose roots are normalized. -/
def searchPlan (sha256 : List UInt8 → Vector UInt8 32) (request : WorkspaceSearchRequest)
    (roots : List (List Char)) : SearchPlan where
  roots := roots
  query := request.query
  caseSensitive := request.caseSensitive.getD false
  maxMatches := request.maxMatches.getD defaultMaxMatches
  maxBytes := request.maxBytes.getD defaultResultBytes
  scope := request.scope sha256 roots
  startPath := (request.cursor.map WorkspaceSearchCursor.pathIndex).getD 0
  startEntry := request.cursor.map WorkspaceSearchCursor.path
  resume := (request.cursor.filter fun cursor => cursor.line ≠ 0).map fun cursor =>
    (cursor.line, cursor.lineByteOffset)

/-- `search`. -/
def searchFiles (sha256 : List UInt8 → Vector UInt8 32)
    (expression : List Char → Option (List Char → List (Nat × Nat)))
    (request : WorkspaceSearchRequest) (observedAtUnixMs : Nat) :
    Except AgentError WorkspaceSearchResult := do
  let roots ← request.validate sha256
  scanSearch files limits expression (searchPlan sha256 request roots) observedAtUnixMs

end Searching

end MinicoreAgent.WorkspaceScan

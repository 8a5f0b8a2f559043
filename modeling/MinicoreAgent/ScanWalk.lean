import MinicoreAgent.Lib.Results
import MinicoreAgent.Lib.Text
import MinicoreAgent.Lib.UnixPaths

/-!
# The walk of a listing or a search

One page visits the entries of a tree behind its cursor, directory by directory and name by
name, until the visitor or a bound stops it. The walk then names the path that it processed
last, behind which the next page goes on.
-/
namespace MinicoreAgent.WorkspaceScan

open Text UnixPaths

inductive AgentError where
  | invalidArguments
  | queryLimit
  | workspace
  | internal
deriving DecidableEq, Repr

/-- `WorkspaceScanStop`; `ended` is `End`. -/
inductive WorkspaceScanStop where
  | ended
  | page
  | entries
  | bytes
  | depth
  | rules
  | deadline
deriving DecidableEq, Repr

inductive WorkspaceFileKind where
  | file
  | directory
  | symlink
  | other
deriving DecidableEq, Repr

/-- A name that a directory can hold. -/
structure FileName where
  bytes : List UInt8
  is : IsName bytes
deriving DecidableEq

/-- What the file system says of an entry: its kind, unless it cannot be read, and its size. -/
structure DirEntry where
  name : FileName
  kind : Option WorkspaceFileKind
  size : Option Nat

/-- A requested root, resolved inside the workspace, whose own root is a directory. -/
structure Resolved where
  relative : List FileName
  isDirectory : Bool
  requestedSymlink : Bool
  inside : isDirectory = false → relative ≠ []

/-- What a look at the cancellation and the clock shows. -/
structure Look where
  cancelled : Bool
  late : Bool

/-- What comes of loading the rules of a directory: rule files that could not be read, and
whether the rule budget ran out. -/
structure RuleLoad where
  unreadable : Nat
  exhausted : Bool

inductive WorkspaceError where
  | notFound
  | notFile
  | notDirectory
  | escape
  | invalidPath
  | unavailable
deriving DecidableEq, Repr

/-- What a scan asks the system: the clock at each look, the tree, what the loaded rules
exclude, and the length and the reads of a file. -/
structure FileSystem where
  clock : Nat → Look
  canonical : List Char → Option (List FileName)
  resolve : List Char → Except AgentError Resolved
  readDir : List FileName → Option (List (Option DirEntry))
  rootEntry : List FileName → Option (WorkspaceFileKind × Nat)
  loadRules : List FileName → RuleLoad
  excludes : List FileName → Bool → Bool
  openFile : List Char → Except WorkspaceError (Nat × List (Option (List UInt8)))

structure ScanLimits where
  entries : Nat
  bytes : Nat
  depth : Nat

/-- `ScanLimits::standard`. -/
def ScanLimits.standard : ScanLimits where
  entries := 100000
  bytes := 16 * 1024 * 1024
  depth := 64

/-- `ScanBudget`: what is used of the limits, and how often the clock was looked at. -/
structure ScanBudget where
  entries : Nat
  bytes : Nat
  rulesExhausted : Bool
  expired : Bool
  looks : Nat

def ScanBudget.fresh : ScanBudget := ⟨0, 0, false, false, 0⟩

inductive Visit where
  | next
  | stop (reason : WorkspaceScanStop)
  | stopInside (reason : WorkspaceScanStop) (line offset : Nat)
  | stopBefore (reason : WorkspaceScanStop)

structure WalkEntry where
  relative : List Char
  kind : WorkspaceFileKind
  size : Option Nat

structure WalkOptions where
  recursive : Bool
  wantSize : Bool
  directoryOnly : Bool
  resumeFile : Bool

structure WalkOutcome where
  reason : WorkspaceScanStop
  next : Option (List Char)
  resume : Option (Nat × Nat)
  unrepresentable : Nat
  unreadable : Nat
  excluded : Nat

/-- What stays the same during a walk: the system, the limits, the options and the path of
the cursor. -/
structure Walk where
  files : FileSystem
  limits : ScanLimits
  options : WalkOptions
  start : Option (List Char)

def Walk.startPath (walk : Walk) : Option (List Component) :=
  walk.start.map fun path => components (encode path)

section Budget

variable (walk : Walk)

def ScanBudget.timeExpired (budget : ScanBudget) : Bool :=
  budget.expired || (walk.files.clock budget.looks).late

def ScanBudget.looked (budget : ScanBudget) : ScanBudget :=
  { budget with looks := budget.looks + 1 }

/-- `ScanBudget::check`. -/
def ScanBudget.check (budget : ScanBudget) : Except AgentError ScanBudget :=
  if (walk.files.clock budget.looks).cancelled then .error .queryLimit
  else .ok { budget.looked with expired := budget.timeExpired walk }

/-- `claim_entry`. -/
def ScanBudget.claimEntry (budget : ScanBudget) : Option ScanBudget :=
  if walk.limits.entries ≤ budget.entries then none
  else some { budget with entries := budget.entries + 1 }

/-- `byte_available`. -/
def ScanBudget.byteAvailable (budget : ScanBudget) (bytes : Nat) : Option ScanBudget :=
  if budget.bytes + bytes ≤ walk.limits.bytes then
    some { budget with bytes := budget.bytes + bytes }
  else none

end Budget

/-- `Walker`, with the state that its visitor captures. -/
structure Walker (Visitor : Type) where
  budget : ScanBudget
  visitor : Visitor
  last : List Char
  reason : WorkspaceScanStop
  next : Option (List Char)
  resume : Option (Nat × Nat)
  unrepresentable : Nat
  unreadable : Nat
  excluded : Nat
  depthCapped : Bool

variable {Visitor : Type}

def Walker.stopped (walker : Walker Visitor) : Bool := walker.reason ≠ .ended

section Walking

variable (walk : Walk)
  (visit : Visitor → WalkEntry → ScanBudget → Except AgentError (Visit × Visitor × ScanBudget))

/-- `Walker::stop`. -/
def Walker.stop (walker : Walker Visitor) (reason : WorkspaceScanStop)
    (next : Option (List Char)) : Walker Visitor :=
  let looked := { walker with budget := walker.budget.looked }
  if walker.budget.timeExpired walk then
    { looked with reason := .deadline, next := none, resume := none }
  else if walker.reason = .ended then
    { looked with
      reason := reason
      next := next.filter fun path => walker.resume.isSome ||
        (!path.isEmpty && walk.startPath ≠ some (components (encode path))) }
  else looked

/-- `Walker::check`. -/
def Walker.check (walker : Walker Visitor) : Except AgentError (Walker Visitor) := do
  let budget ← walker.budget.check walk
  let looked := { walker with budget := budget.looked }
  if budget.timeExpired walk then return looked.stop walk .ended none
  else return looked

/-- `load_directory_rules`. -/
def Walker.loadDirectoryRules (walker : Walker Visitor) (relative : List FileName) :
    Except AgentError (Walker Visitor) :=
  let load := walk.files.loadRules relative
  Walker.check walk
    { walker with
      unreadable := walker.unreadable + load.unreadable
      budget := { walker.budget with
        rulesExhausted := walker.budget.rulesExhausted || load.exhausted } }

def Walker.loadRulesIf (loadRules : Bool) (walker : Walker Visitor) (relative : List FileName) :
    Except AgentError (Walker Visitor) :=
  if loadRules then walker.loadDirectoryRules walk relative else .ok walker

/-- `load_ancestor_rules`, over the directories down to the requested root. -/
def loadAncestorRules : List (List FileName) → Walker Visitor →
    Except AgentError (Walker Visitor)
  | [], walker => .ok walker
  | relative :: rest, walker => do
    let walker ← walker.loadDirectoryRules walk relative
    if walker.stopped then return walker
    else loadAncestorRules rest walker

/-- The names that a walk never shows. -/
def reserved (name : FileName) : Bool :=
  let bytes := name.bytes
  bytes = encode ".git".toList ||
    ((encode ".minicore-write-".toList).isPrefixOf bytes &&
      (encode ".tmp".toList).isSuffixOf bytes)

/-- `excluded`. -/
def excluded (relative : List FileName) (isDir : Bool) : Bool :=
  relative.getLast?.any reserved || walk.files.excludes relative isDir

/-- `excluded_root`. -/
def excludedRoot (relative : List FileName) (isDir : Bool) : Bool :=
  relative.inits.tail.any fun front => excluded walk front (front ≠ relative || isDir)

def pathOf (relative : List FileName) : List Component :=
  relative.map fun name => .normal name.bytes

/-- The path lies before the cursor or is its own, so that it is only passed on the way. -/
def positioned (relative : List FileName) : Bool :=
  walk.startPath.any fun start => pathLt (pathOf relative) start ||
    (pathOf relative = start && !walk.options.resumeFile)

/-- `starts_with` of the cursor's path. -/
def leadsToStart (relative : List FileName) : Bool :=
  walk.startPath.any fun start => (pathOf relative).isPrefixOf start

/-- `display_path`, one name further. -/
def childDisplay (display part : List Char) : List Char :=
  if display.isEmpty then part else display ++ '/' :: part

/-- `apply_visit`. -/
def Walker.applyVisit (walker : Walker Visitor) (path : List Char) : Visit → Walker Visitor
  | .next => { walker with last := path }
  | .stop reason => walker.stop walk reason (some path)
  | .stopBefore reason => walker.stop walk reason (some walker.last)
  | .stopInside reason line offset =>
    Walker.stop walk { walker with resume := some (line, offset) } reason (some path)

/-- The visit of an entry. -/
def Walker.visitEntry (walker : Walker Visitor) (entry : WalkEntry) :
    Except AgentError (Walker Visitor) := do
  let (verdict, visitor, budget) ← visit walker.visitor entry walker.budget
  return Walker.applyVisit walk { walker with visitor := visitor, budget := budget } entry.relative
    verdict

def Walker.visitUnless (positioning : Bool) (walker : Walker Visitor) (entry : WalkEntry) :
    Except AgentError (Walker Visitor) :=
  if positioning then .ok walker else walker.visitEntry walk visit entry

/-- An entry that is processed without a visit. -/
def Walker.passed (walker : Walker Visitor) (positioning : Bool) (display : List Char)
    (name : FileName) : Walker Visitor :=
  match decode name.bytes with
  | some part => if positioning then walker else { walker with last := childDisplay display part }
  | none => walker

/-- `examine`, with the walk of a directory below. -/
def examine (descend : Walker Visitor → List FileName → List Char →
    Except AgentError (Walker Visitor)) (walker : Walker Visitor) (relative : List FileName)
    (display : List Char) (entry : DirEntry) (positioning : Bool) :
    Except AgentError (Walker Visitor) :=
  let child := relative ++ [entry.name]
  match entry.kind with
  | none =>
    .ok (Walker.passed { walker with unreadable := walker.unreadable + 1 } positioning display
      entry.name)
  | some kind =>
    let isDir := kind = .directory
    if excluded walk child isDir then .ok (walker.passed positioning display entry.name)
    else
      match decode entry.name.bytes with
      | none => .ok { walker with unrepresentable := walker.unrepresentable + 1 }
      | some part => do
        let path := childDisplay display part
        let size :=
          if !positioning && walk.options.wantSize && kind = .file then entry.size else none
        let walker ← Walker.visitUnless walk visit positioning walker ⟨path, kind, size⟩
        if isDir && walk.options.recursive && !walker.stopped then descend walker child path
        else return walker

/-- The insertion of a `BTreeMap` that is keyed by names. -/
def insertEntry (entry : DirEntry) : List DirEntry → List DirEntry
  | [] => [entry]
  | other :: rest =>
    if entry.name = other.name then entry :: rest
    else if nameLt entry.name.bytes other.name.bytes then entry :: other :: rest
    else other :: insertEntry entry rest

/-- The first loop of `walk_entries`, which keeps the earliest names. -/
def collect (relative : List FileName) (capacity : Nat) : List (Option DirEntry) →
    Walker Visitor → List DirEntry → Except AgentError (Walker Visitor × List DirEntry)
  | [], walker, sorted => .ok (walker, sorted)
  | entry :: rest, walker, sorted => do
    let walker ← walker.check walk
    if walker.stopped then return (walker, sorted)
    match entry with
    | none =>
      collect relative capacity rest { walker with unreadable := walker.unreadable + 1 } sorted
    | some entry =>
      let child := relative ++ [entry.name]
      if walk.startPath.any (fun start => pathLt (pathOf child) start) &&
          !leadsToStart walk child then
        collect relative capacity rest walker sorted
      else
        let sorted := insertEntry entry sorted
        collect relative capacity rest walker
          (if capacity < sorted.length then sorted.dropLast else sorted)

/-- The second loop of `walk_entries`. -/
def examineAll (descend : Walker Visitor → List FileName → List Char →
    Except AgentError (Walker Visitor)) (relative : List FileName) (display : List Char) :
    List DirEntry → Walker Visitor → Except AgentError (Walker Visitor)
  | [], walker => .ok walker
  | entry :: rest, walker => do
    let walker ← walker.check walk
    if walker.stopped then return walker
    let child := relative ++ [entry.name]
    if positioned walk child then
      if leadsToStart walk child then
        let walker ← examine walk visit descend walker relative display entry true
        examineAll descend relative display rest walker
      else examineAll descend relative display rest walker
    else
      match walker.budget.claimEntry walk with
      | none => return walker.stop walk .entries (some walker.last)
      | some budget =>
        let walker ← examine walk visit descend { walker with budget := budget } relative display
          entry false
        examineAll descend relative display rest walker

/-- `walk_entries`. -/
def walkEntries (descend : Walker Visitor → List FileName → List Char →
    Except AgentError (Walker Visitor)) (walker : Walker Visitor) (relative : List FileName)
    (display : List Char) : Except AgentError (Walker Visitor) :=
  if walker.stopped then .ok walker
  else
    match walk.files.readDir relative with
    | none =>
      let walker := { walker with unreadable := walker.unreadable + 1 }
      match walker.budget.claimEntry walk with
      | none => .ok (walker.stop walk .entries none)
      | some budget => .ok { walker with budget := budget }
    | some entries => do
      let capacity := walk.limits.entries - walker.budget.entries + 2
      let (walker, sorted) ← collect walk relative capacity entries walker []
      if walker.stopped then return walker
      else examineAll walk visit descend relative display sorted walker

/-- `walk_directory`, with the number of levels that it may still go down. -/
def walkDirectory : Nat → Bool → Walker Visitor → List FileName → List Char →
    Except AgentError (Walker Visitor)
  | 0, loadRules, walker, relative, display => do
    let walker ← Walker.loadRulesIf walk loadRules walker relative
    walkEntries walk visit (fun walker _ _ => .ok { walker with depthCapped := true }) walker
      relative display
  | levels + 1, loadRules, walker, relative, display => do
    let walker ← Walker.loadRulesIf walk loadRules walker relative
    walkEntries walk visit (walkDirectory levels true) walker relative display

/-- `visit_root_file`. -/
def visitRootFile (walker : Walker Visitor) (relative : List FileName) (display : List Char) :
    Except AgentError (Walker Visitor) :=
  if positioned walk relative then .ok walker
  else
    match walker.budget.claimEntry walk with
    | none => .ok (walker.stop walk .entries none)
    | some budget =>
      let walker := { walker with budget := budget }
      if excludedRoot walk relative false then
        .ok { walker with excluded := walker.excluded + 1 }
      else
        match walk.files.rootEntry relative with
        | none => .ok { walker with unreadable := walker.unreadable + 1 }
        | some (kind, size) =>
          walker.visitEntry walk visit
            ⟨display, kind, if walk.options.wantSize && kind = .file then some size else none⟩

/-- `Walker::finish`. -/
def Walker.finish (walker : Walker Visitor) : WalkOutcome × Visitor × ScanBudget :=
  let late := walker.budget.timeExpired walk
  let stopped := if late then .deadline else walker.reason
  let reason :=
    if stopped = .ended ∧ walker.budget.rulesExhausted then .rules
    else if stopped = .ended ∧ walker.depthCapped then .depth
    else stopped
  ({ reason := reason
     next := if reason = .ended ∨ late then none else walker.next
     resume := if late then none else walker.resume
     unrepresentable := walker.unrepresentable
     unreadable := walker.unreadable
     excluded := walker.excluded }, walker.visitor, walker.budget.looked)

/-- The names of a path as text, if all of them are. -/
def displayPath (relative : List FileName) : Option (List Char) :=
  relative.foldlM (fun display name => (decode name.bytes).map (childDisplay display)) []

/-- The walk of a requested root, once its rules and those above it are loaded. -/
def walkRoot (resolved : Resolved) (display : List Char) (walker : Walker Visitor) :
    Except AgentError (Walker Visitor) :=
  if walker.stopped then .ok walker
  else if resolved.isDirectory then
    if excludedRoot walk resolved.relative true then
      .ok { walker with excluded := walker.excluded + 1 }
    else walkDirectory walk visit (walk.limits.depth - 1) false walker resolved.relative display
  else visitRootFile walk visit walker resolved.relative display

/-- The directories whose rules are loaded before the walk. -/
def ancestors (resolved : Resolved) : List (List FileName) :=
  resolved.relative.inits.take
    (resolved.relative.length - (if resolved.isDirectory then 0 else 1) + 1)

/-- `walk_scope`. -/
def walkScope (directory : List Char) (visitor : Visitor) (budget : ScanBudget) :
    Except AgentError (WalkOutcome × Visitor × ScanBudget) := do
  let budget ← budget.check walk
  let resolved ← walk.files.resolve directory
  if !resolved.isDirectory && walk.options.directoryOnly then throw .workspace
  if resolved.isDirectory && resolved.requestedSymlink then throw .workspace
  match displayPath resolved.relative with
  | none => throw .workspace
  | some display =>
    let walker : Walker Visitor :=
      { budget := budget
        visitor := visitor
        last := walk.start.getD []
        reason := .ended
        next := none
        resume := none
        unrepresentable := 0
        unreadable := 0
        excluded := 0
        depthCapped := false }
    let walker ← walker.check walk
    let walker ← loadAncestorRules walk (if walker.stopped then [] else ancestors resolved) walker
    let walker ← walkRoot walk visit resolved display walker
    return walker.finish walk

end Walking

end MinicoreAgent.WorkspaceScan

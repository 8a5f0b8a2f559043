import MinicoreAgent.Lib.EditOps
import MinicoreAgent.Lib.Text

/-!
# Planning a line diff of two snapshots

Both snapshots are split into lines, each ended by a line feed, a return, or both.
Equal lines at the two ends are trimmed; the middle is compared by the diff crate,
or replaced as a whole where the comparison would be too expensive. The crate
groups the operations into hunks with context, and each hunk lists its lines with
their positions and with the place of their bytes. The crate's comparison and
grouping are parameters.
-/
namespace MinicoreAgent.Diffs

open EditOps (Op slice)

abbrev Bytes := List UInt8

def maxMyersLines : Nat := 2048

def maxDiffLines : Nat := 100000

/-- `usize::MAX` of a 64-bit target. -/
def usizeMax : Nat := 2 ^ 64 - 1

inductive DiffLineKind where
  | context
  | added
  | removed
  deriving DecidableEq, Repr

inductive LineSource where
  | before
  | after
  deriving DecidableEq, Repr

structure LinePlan where
  kind : DiffLineKind
  oldIndex : Option Nat
  newIndex : Option Nat
  source : LineSource
  byteStart : Nat
  byteLen : Nat
  deriving DecidableEq, Repr

structure HunkPlan where
  oldStart : Nat
  oldCount : Nat
  newStart : Nat
  newCount : Nat
  lines : List LinePlan
  deriving DecidableEq, Repr

structure DiffPlan (Fingerprint : Type) where
  hunks : List HunkPlan
  fingerprint : Fingerprint
  truncated : Bool
  deriving DecidableEq, Repr

inductive DiffOutcome (Fingerprint : Type) where
  | binary
  | plan (plan : DiffPlan Fingerprint)
  deriving DecidableEq, Repr

/-- How planning ends without an outcome: the query's budget is used up, or an index
lies outside a table. -/
inductive PlanFailure where
  | queryLimit
  | panicked
  deriving DecidableEq, Repr

section Lines

/-- The lines of what is left of the text, as the scan stands at an index. -/
def splitLinesLoop (limit : Nat) : Bytes → Nat → Nat → List (Nat × Nat) → List (Nat × Nat)
  | [], start, index, lines => if start < index then lines ++ [(start, index - start)] else lines
  | byte :: rest, start, index, lines =>
    if byte = 0x0a then
      if limit < (lines ++ [(start, index + 1 - start)]).length then
        lines ++ [(start, index + 1 - start)]
      else splitLinesLoop limit rest (index + 1) (index + 1) (lines ++ [(start, index + 1 - start)])
    else if byte = 0x0d then
      match rest with
      | 0x0a :: rest =>
        if limit < (lines ++ [(start, index + 2 - start)]).length then
          lines ++ [(start, index + 2 - start)]
        else
          splitLinesLoop limit rest (index + 2) (index + 2) (lines ++ [(start, index + 2 - start)])
      | rest =>
        if limit < (lines ++ [(start, index + 1 - start)]).length then
          lines ++ [(start, index + 1 - start)]
        else
          splitLinesLoop limit rest (index + 1) (index + 1) (lines ++ [(start, index + 1 - start)])
    else splitLinesLoop limit rest start (index + 1) lines

/-- The starts and lengths of the lines, and their number; the scan stops with one line
more than the limit. -/
def splitLines (text : Bytes) (limit : Nat) : List (Nat × Nat) × Nat :=
  (splitLinesLoop limit text 0 0 [], (splitLinesLoop limit text 0 0 []).length)

def tokens (text : Bytes) (lines : List (Nat × Nat)) : List Bytes :=
  lines.map (fun line => slice text line.1 line.2)

end Lines

section Crate

/-- What the diff crate says about one changed line. -/
inductive ChangeTag where
  | equal
  | delete
  | insert
  deriving DecidableEq, Repr

structure Change where
  tag : ChangeTag
  oldIndex : Option Nat
  newIndex : Option Nat
  deriving DecidableEq, Repr

/-- `DiffOp::iter_changes`: the lines of an operation one by one. -/
def iterChanges : Op → List Change
  | .equal oldIndex newIndex len =>
    (List.range len).map (fun line => ⟨.equal, some (oldIndex + line), some (newIndex + line)⟩)
  | .delete oldIndex oldLen _ =>
    (List.range oldLen).map (fun line => ⟨.delete, some (oldIndex + line), none⟩)
  | .insert _ newIndex newLen =>
    (List.range newLen).map (fun line => ⟨.insert, none, some (newIndex + line)⟩)
  | .replace oldIndex oldLen newIndex newLen =>
    (List.range oldLen).map (fun line => ⟨.delete, some (oldIndex + line), none⟩) ++
      (List.range newLen).map (fun line => ⟨.insert, none, some (newIndex + line)⟩)

/-- The comparison and the grouping of the diff crate. -/
structure Similar where
  captureDiff : List Bytes → Nat → Nat → List Bytes → Nat → Nat → List Op
  groupDiffOps : List Op → Nat → List (List Op)

/-- What the planning relies on: the comparison of two ranges is a walk over them, and
grouping keeps the operations in their order and leaves out equal stretches only. -/
structure Similar.Lawful (similar : Similar) : Prop where
  capture : ∀ old oldStart oldEnd new newStart newEnd,
    oldStart ≤ oldEnd → oldEnd ≤ old.length → newStart ≤ newEnd → newEnd ≤ new.length →
    EditOps.Walk old new oldStart newStart
      (similar.captureDiff old oldStart oldEnd new newStart newEnd) oldEnd newEnd
  group : ∀ ops contextLines, ∃ pieces, EditOps.Cut ops pieces ∧
    EditOps.Grouped pieces (similar.groupDiffOps ops contextLines)

end Crate

section Planning

variable {Fingerprint : Type} (similar : Similar) (digest : Bytes → Fingerprint)

def commonPrefixLen (before after : List Bytes) : Nat :=
  ((before.zip after).takeWhile (fun pair => pair.1 == pair.2)).length

/-- The operations from all of the first lines to all of the second ones. -/
def diffOps (before after : List Bytes) : List Op × Bool :=
  let start := commonPrefixLen before after
  let suffix := commonPrefixLen (before.drop start).reverse (after.drop start).reverse
  let oldEnd := before.length - suffix
  let newEnd := after.length - suffix
  let replace := maxMyersLines < oldEnd - start + newEnd - start
  let first := if 0 < start then [.equal 0 0 start] else []
  let middle :=
    if replace then [.replace start (oldEnd - start) start (newEnd - start)]
    else similar.captureDiff before start oldEnd after start newEnd
  let last := if 0 < suffix then [.equal oldEnd newEnd suffix] else []
  (first ++ middle ++ last, replace)

/-- The plan of one line, from the table of its source. -/
def linePlan (beforeLines afterLines : List (Nat × Nat)) (change : Change) : Option LinePlan :=
  match change.tag with
  | .equal => do
    let (start, len) ← afterLines[← change.newIndex]?
    some ⟨.context, change.oldIndex, change.newIndex, .after, start, len⟩
  | .delete => do
    let (start, len) ← beforeLines[← change.oldIndex]?
    some ⟨.removed, change.oldIndex, none, .before, start, len⟩
  | .insert => do
    let (start, len) ← afterLines[← change.newIndex]?
    some ⟨.added, none, change.newIndex, .after, start, len⟩

/-- The smallest start and the largest end of some ranges. -/
def span (ranges : List (Nat × Nat)) : Nat × Nat :=
  ranges.foldl (fun found range => (min found.1 range.1, max found.2 range.2)) (usizeMax, 0)

def oldRange (op : Op) : Nat × Nat := (op.oldStart, op.oldStart + op.oldLen)

def newRange (op : Op) : Nat × Nat := (op.newStart, op.newStart + op.newLen)

/-- The hunk of a group; a group without lines has none. -/
def hunkPlan (beforeLines afterLines : List (Nat × Nat)) (group : List Op) :
    Option (Option HunkPlan) := do
  let lines ← (group.flatMap iterChanges).mapM (linePlan beforeLines afterLines)
  if lines = [] then some none
  else
    let old := span (group.map oldRange)
    let new := span (group.map newRange)
    some (some {
      oldStart := old.1
      oldCount := old.2 - old.1
      newStart := new.1
      newCount := new.2 - new.1
      lines })

/-- `u64::to_le_bytes`. -/
def leBytes (value : Nat) : Bytes :=
  (List.range 8).map (fun place => (value / 256 ^ place % 256).toUInt8)

def optionIndex : Option Nat → Bytes
  | some index => 1 :: leBytes index
  | none => List.replicate 9 0

def kindByte : DiffLineKind → UInt8
  | .context => 0
  | .added => 1
  | .removed => 2

def lineBytes (line : LinePlan) : Bytes :=
  kindByte line.kind :: (optionIndex line.oldIndex ++ optionIndex line.newIndex ++
    leBytes line.byteStart ++ leBytes line.byteLen)

def hunkBytes (hunk : HunkPlan) : Bytes :=
  leBytes hunk.oldStart ++ leBytes hunk.oldCount ++ leBytes hunk.newStart ++
    leBytes hunk.newCount ++ leBytes hunk.lines.length ++ hunk.lines.flatMap lineBytes

def planFingerprint (contextLines : Nat) (replace : Bool) (hunks : List HunkPlan) : Fingerprint :=
  digest ((if replace then 1 else 0) :: (leBytes contextLines ++ leBytes hunks.length ++
    hunks.flatMap hunkBytes))

def overLimit : DiffOutcome Fingerprint :=
  .plan {
    hunks := []
    fingerprint := digest (Text.encode "diff-lines-over-limit".toList)
    truncated := true }

def isUtf8 (bytes : Bytes) : Bool := bytes.toByteArray.validateUTF8

/-- The outcome of planning while every check of the query's budget passes. -/
def planned (before after : Bytes) (contextLines : Nat) :
    Except PlanFailure (DiffOutcome Fingerprint) :=
  if !isUtf8 before || !isUtf8 after then .ok .binary
  else if before.contains 0 || after.contains 0 then .ok .binary
  else
    let (beforeLines, beforeCount) := splitLines before maxDiffLines
    if maxDiffLines < beforeCount then .ok (overLimit digest)
    else
      let (afterLines, afterCount) := splitLines after (maxDiffLines - beforeCount)
      if maxDiffLines - beforeCount < afterCount then .ok (overLimit digest)
      else
        let (ops, replace) := diffOps similar (tokens before beforeLines) (tokens after afterLines)
        let groups := similar.groupDiffOps ops contextLines
        match groups.mapM (hunkPlan beforeLines afterLines) with
        | none => .error .panicked
        | some found =>
          let hunks := found.filterMap id
          .ok (.plan {
            hunks
            fingerprint := planFingerprint digest contextLines replace hunks
            truncated := false })

/-- The plan of a diff. A check of the budget that fails ends the query and changes
nothing else, so it is enough to know whether all checks that are made pass. -/
def planDiff (checksPass : Bool) (before after : Bytes) (contextLines : Nat) :
    Except PlanFailure (DiffOutcome Fingerprint) :=
  if checksPass then planned similar digest before after contextLines else .error .queryLimit

end Planning

end MinicoreAgent.Diffs

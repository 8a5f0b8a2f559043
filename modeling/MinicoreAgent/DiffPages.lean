import MinicoreAgent.DiffPlan
import MinicoreAgent.Lib.JsonSize

/-!
# Pages of a planned diff

A page shows the planned lines from a cursor on, hunk by hunk, as far as the bytes
allow. What a line takes is counted as it is encoded, beside a cursor as large as any
that could follow. A line that does not fit as a whole is cut: half of it is tried, then
half of that, each time up to a character boundary. A page that would show nothing is
refused.
-/
namespace MinicoreAgent.Diffs

open EditOps (slice)
open JsonSize
open MinicoreAgent.Text (byteLen isBoundary floorPrefix)

section Records

inductive PageError where
  | invalidArguments
  | internal
  deriving DecidableEq, Repr

inductive DiffAvailability where
  | available
  | partialPages
  | binary
  | unavailable
  deriving DecidableEq, Repr

def DiffAvailability.asStr : DiffAvailability → List Char
  | .available => "available".toList
  | .partialPages => "partial".toList
  | .binary => "binary".toList
  | .unavailable => "unavailable".toList

def DiffLineKind.asStr : DiffLineKind → List Char
  | .context => "context".toList
  | .added => "added".toList
  | .removed => "removed".toList

structure DiffLine where
  kind : DiffLineKind
  oldIndex : Option Nat
  newIndex : Option Nat
  lineByteOffset : Nat
  lineByteLen : Nat
  text : List Char
  lineComplete : Bool
  deriving DecidableEq, Repr

def DiffLine.encodedLen (line : DiffLine) : Nat :=
  objectLen (
    ("kind", stringLen line.kind.asStr) :: optional "old_index" (line.oldIndex.map numberLen) ++
      optional "new_index" (line.newIndex.map numberLen) ++
      [("line_byte_offset", numberLen line.lineByteOffset),
        ("line_byte_len", numberLen line.lineByteLen), ("text", stringLen line.text),
        ("line_complete", boolLen line.lineComplete)])

structure DiffHunk where
  oldStart : Nat
  oldCount : Nat
  newStart : Nat
  newCount : Nat
  lines : List DiffLine
  deriving DecidableEq, Repr

def DiffHunk.encodedLen (hunk : DiffHunk) : Nat :=
  objectLen [("old_start", numberLen hunk.oldStart), ("old_count", numberLen hunk.oldCount),
    ("new_start", numberLen hunk.newStart), ("new_count", numberLen hunk.newCount),
    ("lines", arrayLen (hunk.lines.map DiffLine.encodedLen))]

/-- A place in a plan: a hunk, a line of it and an offset into the line. -/
structure Position where
  hunkIndex : Nat
  lineIndex : Nat
  lineByteOffset : Nat
  deriving DecidableEq, Repr

/-- The fields of a cursor that a query passes on. -/
structure Subject where
  sessionId : List Char
  /-- The encoded size of the change reference. -/
  changeRefLen : Nat
  deriving DecidableEq, Repr

structure DiffCursor where
  subject : Subject
  opsFingerprint : List Char
  contextLines : Nat
  position : Position
  deriving DecidableEq, Repr

def DiffCursor.encodedLen (cursor : DiffCursor) : Nat :=
  objectLen [("session_id", stringLen cursor.subject.sessionId),
    ("change_ref", cursor.subject.changeRefLen),
    ("ops_fingerprint", stringLen cursor.opsFingerprint),
    ("context_lines", numberLen cursor.contextLines),
    ("hunk_index", numberLen cursor.position.hunkIndex),
    ("line_index", numberLen cursor.position.lineIndex),
    ("line_byte_offset", numberLen cursor.position.lineByteOffset)]

/-- The result of a query. Its first fields, up to `versions_refreshed`, are passed on
with their encoded sizes. -/
structure DiffResult where
  head : List (String × Nat)
  availability : DiffAvailability
  hunks : List DiffHunk
  complete : Bool
  truncated : Bool
  nextCursor : Option DiffCursor
  deriving DecidableEq, Repr

def DiffResult.encodedLen (result : DiffResult) : Nat :=
  objectLen ((result.head ++ [("availability", stringLen result.availability.asStr)]) ++
    ("hunks", arrayLen (result.hunks.map DiffHunk.encodedLen)) ::
      [("complete", boolLen result.complete), ("truncated", boolLen result.truncated)] ++
        optional "next_cursor" (result.nextCursor.map DiffCursor.encodedLen))

/-- The result a query starts from: it has no hunks and no cursor. -/
def DiffResult.base (head : List (String × Nat)) : DiffResult :=
  { head := head, availability := .unavailable, hunks := [], complete := false
    truncated := false, nextCursor := none }

end Records

section Meter

structure PageMeter where
  baseEmpty : Nat
  completedBytes : Nat
  completedHunks : Nat
  /-- The bytes of the open hunk without lines, those of its lines, and their number. -/
  current : Option (Nat × Nat × Nat)
  maxBytes : Nat
  deriving DecidableEq, Repr

namespace PageMeter

variable (meter : PageMeter)

def fitsWith (lineJsonLen : Nat) : Bool :=
  let current := meter.current.map fun hunk =>
    (hunk.1, hunk.2.1 + (if 0 < hunk.2.2 then 1 else 0) + lineJsonLen, hunk.2.2 + 1)
  let sum := match current with
    | none => meter.completedBytes
    | some hunk => meter.completedBytes + hunk.1 + 2 + hunk.2.1
  let count := match current with
    | none => meter.completedHunks
    | some _ => meter.completedHunks + 1
  let content := if count = 0 then 0 else sum + (count - 1)
  meter.baseEmpty + content ≤ meter.maxBytes

def commitLine (lineJsonLen : Nat) : PageMeter :=
  { meter with
    current := meter.current.map fun hunk =>
      (hunk.1, hunk.2.1 + (if 0 < hunk.2.2 then 1 else 0) + lineJsonLen, hunk.2.2 + 1) }

def openHunk (fullOpen : Nat) : PageMeter :=
  { meter with current := some (fullOpen, 0, 0) }

def finishHunk : PageMeter :=
  match meter.current with
  | none => meter
  | some hunk =>
    { meter with
      current := none
      completedBytes := meter.completedBytes + (hunk.1 + 2 + hunk.2.1)
      completedHunks := meter.completedHunks + 1 }

end PageMeter

end Meter

section Fragments

/-- The hunk of a page, with the lines shown so far. -/
def HunkPlan.shown (hunk : HunkPlan) (lines : List DiffLine) : DiffHunk :=
  { oldStart := hunk.oldStart, oldCount := hunk.oldCount, newStart := hunk.newStart
    newCount := hunk.newCount, lines := lines }

def hunkOpenLen (hunk : HunkPlan) : Nat := (hunk.shown []).encodedLen - 2

/-- The part of a line that a page shows from an offset on. -/
def LinePlan.fragment (line : LinePlan) (offset : Nat) (text part : List Char) : DiffLine :=
  { kind := line.kind
    oldIndex := line.oldIndex
    newIndex := line.newIndex
    lineByteOffset := offset
    lineByteLen := line.byteLen
    text := part
    lineComplete := Text.byteLen part = Text.byteLen text }

/-- `str::from_utf8`. -/
def decode (bytes : Bytes) : Option (List Char) :=
  bytes.toByteArray.utf8Decode?.map Array.toList

/-- The snapshot that a line is taken from. -/
def LineSource.bytes (before after : Bytes) : LineSource → Bytes
  | .before => before
  | .after => after

/-- The text of a line from an offset on. -/
def pendingText (before after : Bytes) (line : LinePlan) (offset : Nat) :
    Except PageError (List Char) :=
  let source := line.source.bytes before after
  if source.length < line.byteStart + line.byteLen then .error .internal
  else
    let lineBytes := slice source line.byteStart line.byteLen
    if lineBytes.length < offset then .error .invalidArguments
    else
      let checked : Except PageError Unit :=
        if 0 < offset then
          match decode lineBytes with
          | none => .error .internal
          | some full => if isBoundary full offset then .ok () else .error .invalidArguments
        else .ok ()
      match checked, decode (lineBytes.drop offset) with
      | .error error, _ => .error error
      | .ok _, none => .error .internal
      | .ok _, some text => .ok text

/-- The beginnings of a text that are tried one after another: up to a boundary within
so many bytes, then within half of what that was. -/
def halvings (text : List Char) : Nat → Nat → List (List Char)
  | 0, _ => []
  | fuel + 1, take =>
    let part := floorPrefix take text
    if part = [] then [] else part :: halvings text fuel (byteLen part / 2)

/-- All beginnings that are tried for a text, the longest first. -/
def tried (text : List Char) : List (List Char) := halvings text (byteLen text) (byteLen text)

end Fragments

section Loop

structure PageState where
  meter : PageMeter
  page : List DiffHunk
  deriving DecidableEq, Repr

/-- The hunk of the next line is opened unless it is open. -/
def PageState.opened (state : PageState) (hunk : HunkPlan) : PageState :=
  if state.meter.current.isNone then
    { meter := state.meter.openHunk (hunkOpenLen hunk), page := state.page ++ [hunk.shown []] }
  else state

/-- The last hunk of a page gets one more line. -/
def pushFragment : List DiffHunk → DiffLine → List DiffHunk
  | [], _ => []
  | [hunk], fragment => [{ hunk with lines := hunk.lines ++ [fragment] }]
  | hunk :: next :: rest, fragment => hunk :: pushFragment (next :: rest) fragment

/-- Hunks without lines at the end of a page are taken away. -/
def removeEmptyTail (page : List DiffHunk) : List DiffHunk :=
  (page.reverse.dropWhile (·.lines.isEmpty)).reverse

variable (before after : Bytes) (hunkIndex : Nat) (hunk : HunkPlan)

/-- The lines of a hunk from one on. The loop ends behind the last line, or stops at the
place where the next page goes on. -/
def lineLoop : Nat → Nat → List LinePlan → PageState →
    Except PageError (PageState × Option Position)
  | _, _, [], state => .ok (state, none)
  | lineIndex, offset, line :: rest, state =>
    if offset = line.byteLen then lineLoop (lineIndex + 1) 0 rest state
    else
      let state := state.opened hunk
      match pendingText before after line offset with
      | .error error => .error error
      | .ok text =>
        match (tried text).find? fun part =>
          state.meter.fitsWith (line.fragment offset text part).encodedLen with
        | none =>
          let page := removeEmptyTail state.page
          if page = [] then .error .invalidArguments
          else
            .ok ({ state with page := page },
              some { hunkIndex := hunkIndex, lineIndex := lineIndex, lineByteOffset := offset })
        | some part =>
          let fragment := line.fragment offset text part
          let state : PageState :=
            { meter := state.meter.commitLine fragment.encodedLen
              page := pushFragment state.page fragment }
          if fragment.lineComplete then lineLoop (lineIndex + 1) 0 rest state
          else
            .ok (state, some {
              hunkIndex := hunkIndex
              lineIndex := lineIndex
              lineByteOffset := offset + byteLen part })

/-- The hunks from one on, the first of them from a line and an offset on. -/
def hunkLoop : Nat → Nat → Nat → List HunkPlan → PageState →
    Except PageError (List DiffHunk × Option Position)
  | _, _, _, [], state => .ok (state.page, none)
  | hunkIndex, lineIndex, offset, hunk :: rest, state =>
    match lineLoop before after hunkIndex hunk lineIndex offset (hunk.lines.drop lineIndex)
      state with
    | .error error => .error error
    | .ok (state, some stop) => .ok (state.page, some stop)
    | .ok (state, none) =>
      hunkLoop (hunkIndex + 1) 0 0 rest { state with meter := state.meter.finishHunk }

end Loop

section Pages

abbrev Plan := DiffPlan (List Char)

variable (subject : Subject) (plan : Plan) (before after : Bytes) (contextLines : Nat)

def pageCursor (position : Position) : DiffCursor :=
  { subject := subject, opsFingerprint := plan.fingerprint, contextLines := contextLines
    position := position }

/-- The result as it is sized: with a cursor as large as any that could follow. -/
def DiffResult.template (base : DiffResult) : DiffResult :=
  { base with
    nextCursor := some (pageCursor subject plan contextLines {
      hunkIndex := plan.hunks.length
      lineIndex := (plan.hunks.map (·.lines.length)).foldl max 0
      lineByteOffset := max before.length after.length }) }

/-- Outside the plan: behind the last hunk but for its canonical end, or behind the last
line of a hunk. -/
def outside (start : Position) : Bool :=
  plan.hunks.length < start.hunkIndex ||
    (start.hunkIndex = plan.hunks.length && (start.lineIndex ≠ 0 || start.lineByteOffset ≠ 0)) ||
    (plan.hunks[start.hunkIndex]?).any fun hunk => hunk.lines.length ≤ start.lineIndex

def buildPage (base : DiffResult) (start : Position) (maxBytes : Nat) :
    Except PageError (List DiffHunk × Option DiffCursor × Bool) :=
  let template := base.template subject plan before after contextLines
  let meter : PageMeter :=
    { baseEmpty := template.encodedLen, completedBytes := 0, completedHunks := 0
      current := none, maxBytes := maxBytes }
  if outside plan start then .error .invalidArguments
  else
    match hunkLoop before after start.hunkIndex start.lineIndex start.lineByteOffset
      (plan.hunks.drop start.hunkIndex) { meter := meter, page := [] } with
    | .error error => .error error
    | .ok (page, none) => .ok (page, none, true)
    | .ok (page, some stop) =>
      .ok (page, some (pageCursor subject plan contextLines stop), false)

/-- The result that a query answers with a page. -/
def DiffResult.page (base : DiffResult) (hunks : List DiffHunk) (nextCursor : Option DiffCursor)
    (complete : Bool) : DiffResult :=
  { base with
    hunks := hunks
    nextCursor := nextCursor
    complete := complete && !plan.truncated
    truncated := plan.truncated
    availability := if plan.truncated || !complete then .partialPages else .available }

end Pages

end MinicoreAgent.Diffs

import MinicoreAgent.Lib.Text

/-!
# Applying resolved hunks to a source text

A patch is resolved into hunks with positions in the source and in the result. The
source is split into lines with their endings, and the hunks are applied in one
pass: the lines before a hunk are copied, context and removed lines must match the
source, and added lines take the ending that prevails in the source. The result is
bounded, and nothing may follow a line without a newline.
-/
namespace MinicoreAgent.Patches

open MinicoreAgent.Text (byteLen)

abbrev Text := List Char

/-- The errors of the runtime's tools that a patch ends in. -/
inductive ToolError where
  | invalidInvocation
  | failed
  | internal
  deriving DecidableEq, Repr

def maxPatchBytes : Nat := 512 * 1024

/-- `usize::MAX` of a 64-bit target. -/
def usizeMax : Nat := 2 ^ 64 - 1

inductive LineEnding where
  | none
  | lf
  | crlf
  deriving DecidableEq, Repr

def LineEnding.asStr : LineEnding → Text
  | .none => []
  | .lf => ['\n']
  | .crlf => ['\r', '\n']

structure SourceLine where
  text : Text
  ending : LineEnding
  deriving DecidableEq, Repr

inductive PatchLineKind where
  | context
  | remove
  | add
  deriving DecidableEq, Repr

/-- The lines of the source and of the result that a patch line passes. -/
def PatchLineKind.delta : PatchLineKind → Nat × Nat
  | .context => (1, 1)
  | .remove => (1, 0)
  | .add => (0, 1)

structure PatchContent where
  kind : PatchLineKind
  text : Text
  oldNoNewline : Bool := false
  newNoNewline : Bool := false
  contextNewEnding : Option LineEnding := none
  deriving DecidableEq, Repr

/-- A half-open range of lines, counted from zero. -/
structure HunkRange where
  index : Nat
  count : Nat
  stop : Nat
  deriving DecidableEq, Repr

structure ResolvedHunk where
  old : HunkRange
  new : HunkRange
  contents : List PatchContent
  deriving DecidableEq, Repr

def add (left right : Nat) : Except ToolError Nat :=
  if left + right ≤ usizeMax then .ok (left + right) else .error .invalidInvocation

def sub (left right : Nat) : Except ToolError Nat :=
  if right ≤ left then .ok (left - right) else .error .invalidInvocation

/-- The next line of the source; a cursor does not overflow. -/
def advance (cursor : Nat) : Except ToolError Nat :=
  if cursor + 1 ≤ usizeMax then .ok (cursor + 1) else .error .internal

structure ResultBuilder where
  value : Text := []
  lineCount : Nat := 0
  previousHadNoNewline : Bool := false
  deriving DecidableEq, Repr

def ResultBuilder.append (builder : ResultBuilder) (text : Text) (ending : LineEnding) :
    Except ToolError ResultBuilder := do
  if builder.previousHadNoNewline then .error .failed
  else
    let added ← add (byteLen text) (byteLen ending.asStr)
    let resultLen ← add (byteLen builder.value) added
    if maxPatchBytes < resultLen then .error .invalidInvocation
    else
      let lineCount ← add builder.lineCount 1
      .ok {
        value := builder.value ++ text ++ ending.asStr
        lineCount
        previousHadNoNewline := ending == .none }

/-- A line of the source that a line feed ends. -/
def endedLine (line : Text) : SourceLine :=
  if line.getLast? = some '\r' then ⟨line.dropLast, .crlf⟩ else ⟨line, .lf⟩

/-- The lines of what is left of the source, after the beginning of the current one. -/
def splitSourceLoop (current : Text) : Text → List SourceLine
  | [] => if current = [] then [] else [⟨current, .none⟩]
  | char :: rest =>
    if char = '\n' then endedLine current :: splitSourceLoop [] rest
    else splitSourceLoop (current ++ [char]) rest

def splitSourceLines (source : Text) : List SourceLine := splitSourceLoop [] source

/-- The ending most lines have; the first ending decides between as many of both. -/
def preferredLineEnding (lines : List SourceLine) : LineEnding :=
  let endings := (lines.map SourceLine.ending).filter (· ≠ .none)
  let lf := endings.count .lf
  let crlf := endings.count .crlf
  if lf < crlf then .crlf
  else if crlf < lf then .lf
  else endings.head?.getD .lf

def appendSourceLine (source : List SourceLine) (cursor : Nat) (builder : ResultBuilder) :
    Except ToolError (Nat × ResultBuilder) := do
  match source[cursor]? with
  | none => .error .failed
  | some line =>
    let builder ← builder.append line.text line.ending
    let cursor ← advance cursor
    .ok (cursor, builder)

/-- Copy so many lines of the source. A loop that runs while the cursor is below a
bound copies as many lines as the bound is ahead of the cursor. -/
def appendSourceLines (source : List SourceLine) :
    Nat → Nat → ResultBuilder → Except ToolError (Nat × ResultBuilder)
  | 0, cursor, builder => .ok (cursor, builder)
  | rounds + 1, cursor, builder => do
    let (cursor, builder) ← appendSourceLine source cursor builder
    appendSourceLines source rounds cursor builder

def matchingSourceLine (content : PatchContent) (source : List SourceLine) (cursor : Nat) :
    Except ToolError SourceLine :=
  match source[cursor]? with
  | none => .error .failed
  | some line =>
    if line.text ≠ content.text ∨ (line.ending == .none) ≠ content.oldNoNewline then
      .error .failed
    else .ok line

def applyPatchContent (source : List SourceLine) (preferredEnding : LineEnding)
    (content : PatchContent) (cursor : Nat) (builder : ResultBuilder) :
    Except ToolError (Nat × ResultBuilder) := do
  match content.kind with
  | .context =>
    let line ← matchingSourceLine content source cursor
    let builder ← builder.append line.text (content.contextNewEnding.getD line.ending)
    let cursor ← advance cursor
    .ok (cursor, builder)
  | .remove =>
    let _ ← matchingSourceLine content source cursor
    let cursor ← advance cursor
    .ok (cursor, builder)
  | .add =>
    let ending := if content.newNoNewline then .none else preferredEnding
    let builder ← builder.append content.text ending
    .ok (cursor, builder)

def applyPatchContents (source : List SourceLine) (preferredEnding : LineEnding) :
    List PatchContent → Nat → ResultBuilder → Except ToolError (Nat × ResultBuilder)
  | [], cursor, builder => .ok (cursor, builder)
  | content :: rest, cursor, builder => do
    let (cursor, builder) ← applyPatchContent source preferredEnding content cursor builder
    applyPatchContents source preferredEnding rest cursor builder

/-- What the pass over the hunks carries from one hunk to the next. -/
structure Applied where
  sourceCursor : Nat := 0
  builder : ResultBuilder := {}
  previousOldEnd : Nat := 0
  previousNewEnd : Nat := 0
  deriving DecidableEq, Repr

def applyHunk (source : List SourceLine) (preferredEnding : LineEnding) (applied : Applied)
    (hunk : ResolvedHunk) : Except ToolError Applied := do
  if hunk.old.index < applied.previousOldEnd ∨ hunk.new.index < applied.previousNewEnd then
    .error .invalidInvocation
  else
    let (cursor, builder) ← appendSourceLines source
      (hunk.old.index - applied.sourceCursor) applied.sourceCursor applied.builder
    if cursor ≠ hunk.old.index ∨ builder.lineCount ≠ hunk.new.index then .error .failed
    else
      let (cursor, builder) ←
        applyPatchContents source preferredEnding hunk.contents cursor builder
      if cursor ≠ hunk.old.stop ∨ builder.lineCount ≠ hunk.new.stop then .error .failed
      else
        .ok {
          sourceCursor := cursor
          builder
          previousOldEnd := hunk.old.stop
          previousNewEnd := hunk.new.stop }

def applyHunks (source : List SourceLine) (preferredEnding : LineEnding) :
    Applied → List ResolvedHunk → Except ToolError Applied
  | applied, [] => .ok applied
  | applied, hunk :: rest => do
    let applied ← applyHunk source preferredEnding applied hunk
    applyHunks source preferredEnding applied rest

def applyResolvedHunks (source : List SourceLine) (hunks : List ResolvedHunk) :
    Except ToolError Text := do
  let applied ← applyHunks source (preferredLineEnding source) {} hunks
  let (cursor, builder) ← appendSourceLines source
    (source.length - applied.sourceCursor) applied.sourceCursor applied.builder
  if cursor ≠ source.length then .error .internal else .ok builder.value

end MinicoreAgent.Patches

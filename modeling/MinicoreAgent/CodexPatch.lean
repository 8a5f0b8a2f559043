import MinicoreAgent.CodexSearch

/-!
# Codex patches of one file

The envelope names the file and holds hunks without line numbers. A hunk is located by
ranges, by an anchor line, by its own old lines or by the end of the source; a hunk of an
anchor alone only moves the cursor. The located hunks get their positions and the marks
of the lines that have no ending, and are applied by the pass of the unified patches.
-/
namespace MinicoreAgent.Patches

def codexEndPatch : Text := "*** End Patch".toList
def codexUpdateFile : Text := "*** Update File: ".toList
def codexEndOfFile : Text := "*** End of File".toList

inductive CodexLocator where
  | range (old new : HunkRange)
  | anchor (text : Option Text)
  deriving DecidableEq, Repr

structure CodexHunk where
  locator : CodexLocator
  contents : List PatchContent
  endOfFile : Bool
  deriving DecidableEq, Repr

section Parsing

/-- `char::is_whitespace`. -/
def isWhitespace (char : Char) : Bool :=
  let code := char.toNat
  (9 ≤ code && code ≤ 13) || code = 0x20 || code = 0x85 || code = 0xA0 || code = 0x1680 ||
    (0x2000 ≤ code && code ≤ 0x200A) || code = 0x2028 || code = 0x2029 || code = 0x202F ||
    code = 0x205F || code = 0x3000

/-- `str::trim`. -/
def trim (text : Text) : Text :=
  ((text.dropWhile isWhitespace).reverse.dropWhile isWhitespace).reverse

/-- `str::contains`. -/
def contains (text part : Text) : Bool := (splitAround part text).isSome

def parseCodexLocator (line : Text) : Except ToolError CodexLocator := do
  let rest ← required (stripStart "@@".toList line)
  let header := trim rest
  if header.isEmpty then .ok (.anchor none)
  else if ['-'].isPrefixOf header then
    let (old, new) ← parseHunkHeader line
    .ok (.range old new)
  else if header.contains '\x00' then .error .invalidInvocation
  else .ok (.anchor (some header))

/-- The lines of a hunk, and whether the end of the source follows them. -/
def codexContentsLoop : Nat → PatchLines → Except ToolError (List PatchContent × Bool × PatchLines)
  | 0, _ => .error .invalidInvocation
  | fuel + 1, parser => do
    let (raw, parser) := parser.peek
    let raw ← required raw
    let line := stripTransportEnding raw
    if line = codexEndPatch ∨ "@@".toList.isPrefixOf line then .ok ([], false, parser)
    else if line = codexEndOfFile then
      .ok ([], true, (parser.next.map Prod.snd).getD parser)
    else if "***".toList.isPrefixOf line ∨ line = noNewlineAtEnd then .error .invalidInvocation
    else
      let (raw, parser) ← required parser.next
      let content ← parsePatchContent (stripTransportEnding raw)
      let (parser, content) ← consumeNoNewline parser content
      let (contents, endOfFile, parser) ← codexContentsLoop fuel parser
      .ok (content :: contents, endOfFile, parser)

/-- Whether a hunk may have no lines: it names an anchor line. -/
def CodexLocator.named : CodexLocator → Bool
  | .anchor (some _) => true
  | _ => false

/-- The hunks up to the end of the patch, after the previous hunk. -/
def codexHunksLoop : Nat → PatchLines → Option CodexHunk → Except ToolError (List CodexHunk)
  | 0, _, _ => .error .invalidInvocation
  | fuel + 1, parser, previous => do
    let (raw, parser) ← required parser.next
    let line := stripTransportEnding raw
    if line = codexEndPatch then
      if previous.all (·.contents.isEmpty) then .error .invalidInvocation
      else
        let _ ← parser.finish
        .ok []
    else if !("@@".toList.isPrefixOf line) then .error .invalidInvocation
    else
      let locator ← parseCodexLocator line
      let (contents, endOfFile, parser) ← codexContentsLoop (parser.left.length + 1) parser
      if contents.isEmpty && (endOfFile || !locator.named) then .error .invalidInvocation
      else
        let hunk : CodexHunk := { locator, contents, endOfFile }
        let rest ← codexHunksLoop fuel parser (some hunk)
        .ok (hunk :: rest)

def parseCodexPatch (path patch : Text) : Except ToolError (List CodexHunk) := do
  let (begin_, parser) ← required (PatchLines.new patch).next
  if stripTransportEnding begin_ ≠ codexBeginPatch then .error .invalidInvocation
  else
    let (update, parser) ← required parser.next
    let headerPath ← required (stripStart codexUpdateFile (stripTransportEnding update))
    let _ ← validateHeaderPath headerPath path []
    codexHunksLoop (parser.left.length + 1) parser none

end Parsing

section Locating

def codexContentCounts : List PatchContent → Nat × Nat → Except ToolError (Nat × Nat)
  | [], counts => .ok counts
  | content :: rest, (oldCount, newCount) => do
    let oldCount ← add oldCount content.kind.delta.1
    let newCount ← add newCount content.kind.delta.2
    codexContentCounts rest (oldCount, newCount)

/-- The lines from an index on, of which one may contain the anchor. -/
def anchorLoop (anchor : Text) : List SourceLine → Nat → Option Nat → Nat →
    Except ToolError (Option Nat × Nat)
  | [], _, found, visits => .ok (found, visits)
  | line :: rest, index, found, visits => do
    let visits ← visit visits
    if contains line.text anchor then
      if found.isSome then .error .invalidInvocation
      else anchorLoop anchor rest (index + 1) (some index) visits
    else anchorLoop anchor rest (index + 1) found visits

def findUniqueCodexAnchor (source : List SourceLine) (start : Nat) (anchor : Text)
    (visits : Nat) : Except ToolError (Option Nat × Nat) :=
  anchorLoop anchor (source.drop start) start none visits

/-- `Option::ok_or` of a position that must be found. -/
def located : Option Nat → Except ToolError Nat
  | none => .error .failed
  | some position => .ok position

/-- The position of a hunk and the visits so far. -/
def locateCodexHunk (locator : CodexLocator) (oldContents : List PatchContent)
    (oldCount newCount : Nat) (endOfFile : Bool) (source : List SourceLine)
    (sourceIndex : Text → List Nat) (searchStart visits : Nat) : Except ToolError (Nat × Nat) :=
  match locator with
  | .range old new => do
    if old.count ≠ oldCount ∨ new.count ≠ newCount then .error .invalidInvocation
    else
      let stop ← add old.index old.count
      if source.length < stop ∨ (endOfFile ∧ stop ≠ source.length) then .error .failed
      else if !codexContentsMatchAt oldContents source old.index then .error .failed
      else .ok (old.index, visits)
  | .anchor anchor => do
    if endOfFile then
      if source.length < oldCount then .error .failed
      else
        let start := source.length - oldCount
        if !codexContentsMatchAt oldContents source start then .error .failed
        else .ok (start, visits)
    else if oldCount = 0 then
      match anchor with
      | none => .error .failed
      | some anchor =>
        let (found, visits) ← findUniqueCodexAnchor source searchStart anchor visits
        let line ← located found
        let start ← add line 1
        .ok (start, visits)
    else
      let (matchStart, visits) ←
        match anchor with
        | none => .ok (searchStart, visits)
        | some anchor => do
          let (found, visits) ← findUniqueCodexAnchor source searchStart anchor visits
          let line ← located found
          .ok (line, visits)
      let (found, visits) ←
        findUniqueCodexMatch oldContents source sourceIndex matchStart visits
      let start ← located found
      .ok (start, visits)

end Locating

section Marking

/-- A line that stays in the result. -/
def PatchContent.kept (content : PatchContent) : Bool := content.kind != .remove

/-- Mark the old lines that stand on unended lines. One that stays gets an ending where
its hunk goes on, unless the patch says that it has none. -/
def markCodexSourceEndings (preferredEnding : LineEnding) :
    List PatchContent → List SourceLine → Except ToolError (List PatchContent)
  | [], _ => .ok []
  | content :: rest, lines =>
    if content.kind = .add then do
      let rest ← markCodexSourceEndings preferredEnding rest lines
      .ok (content :: rest)
    else
      match lines with
      | [] => .error .failed
      | line :: lines => do
        let marked :=
          if line.ending = .none then
            { content with
              oldNoNewline := true
              contextNewEnding :=
                if content.kind = .context ∧ !content.newNoNewline ∧ rest.any (·.kept) then
                  some preferredEnding
                else content.contextNewEnding }
          else content
        let rest ← markCodexSourceEndings preferredEnding rest lines
        .ok (marked :: rest)

/-- Mark the last line that stays. -/
def markLastKept : List PatchContent → List PatchContent
  | [] => []
  | content :: rest =>
    if rest.any (·.kept) then content :: markLastKept rest
    else if content.kept then { content with newNoNewline := true } :: rest
    else content :: rest

def markCodexResultNoNewline (contents : List PatchContent) (newCount : Nat) :
    List PatchContent :=
  if newCount = 0 then contents else markLastKept contents

end Marking

section Resolving

/-- What resolving carries from one hunk to the next. -/
structure Resolving where
  sourceCursor : Nat := 0
  outputCursor : Nat := 0
  previousStart : Option Nat := none
  matchVisits : Nat := 0
  deriving DecidableEq, Repr

def makeHunkRange (index count : Nat) : Except ToolError HunkRange := do
  let stop ← add index count
  .ok { index, count, stop }

/-- Where a hunk stands, and the visits so far. -/
def startCodexHunk (source : List SourceLine) (state : Resolving) (hunk : CodexHunk)
    (oldCount newCount : Nat) : Except ToolError (Nat × Nat) := do
  if hunk.contents.isEmpty then
    match hunk.locator with
    | .anchor (some anchor) =>
      let (found, visits) ←
        findUniqueCodexAnchor source state.sourceCursor anchor state.matchVisits
      let start ← located found
      .ok (start, visits)
    | _ => .error .invalidInvocation
  else
    locateCodexHunk hunk.locator (hunk.contents.filter (fun content => content.kind != .add))
      oldCount newCount hunk.endOfFile source (codexSourceIndex source) state.sourceCursor
      state.matchVisits

/-- Whether the ranges of a hunk name the position its lines get in the result. -/
def checkCodexRange (locator : CodexLocator) (state : Resolving) (start : Nat) :
    Except ToolError Unit :=
  match locator with
  | .range _ new => do
    let skipped ← sub start state.sourceCursor
    let expectedNew ← add state.outputCursor skipped
    if new.index ≠ expectedNew then .error .invalidInvocation else .ok ()
  | .anchor _ => .ok ()

/-- One round of the loop over the hunks. A hunk without lines leaves nothing to apply. -/
def resolveCodexHunk (source : List SourceLine) (isLast : Bool) (state : Resolving)
    (hunk : CodexHunk) : Except ToolError (Resolving × Option ResolvedHunk) := do
  if hunk.endOfFile ∧ !isLast then .error .invalidInvocation
  else
    let headerOnly := hunk.contents.isEmpty
    let (oldCount, newCount) ← codexContentCounts hunk.contents (0, 0)
    let (start, matchVisits) ← startCodexHunk source state hunk oldCount newCount
    if start < state.sourceCursor ∨ (!headerOnly ∧ state.previousStart = some start) then
      .error .invalidInvocation
    else
      let _ ← checkCodexRange hunk.locator state start
      let skipped ← sub start state.sourceCursor
      let outputCursor ← add state.outputCursor skipped
      if headerOnly then
        .ok ({ state with sourceCursor := start, outputCursor, matchVisits }, none)
      else
        let oldEnd ← add start oldCount
        let contents ← markCodexSourceEndings (preferredLineEnding source) hunk.contents
          (source.drop start)
        let contents :=
          if isLast ∧ source.getLast?.any (·.ending == .none) ∧ oldEnd = source.length then
            markCodexResultNoNewline contents newCount
          else contents
        let old ← makeHunkRange start oldCount
        let new ← makeHunkRange outputCursor newCount
        let outputCursor ← add outputCursor newCount
        .ok ({ sourceCursor := oldEnd, outputCursor, previousStart := some start, matchVisits },
          some { old, new, contents })

def resolveCodexHunks (source : List SourceLine) :
    Resolving → List CodexHunk → Except ToolError (List ResolvedHunk)
  | _, [] => .ok []
  | state, hunk :: rest => do
    let (state, resolved) ← resolveCodexHunk source rest.isEmpty state hunk
    let later ← resolveCodexHunks source state rest
    .ok (resolved.toList ++ later)

def parseAndResolveCodexPatch (path patch : Text) (source : List SourceLine) :
    Except ToolError (List ResolvedHunk) := do
  let hunks ← parseCodexPatch path patch
  resolveCodexHunks source {} hunks

end Resolving

end MinicoreAgent.Patches

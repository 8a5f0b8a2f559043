import MinicoreAgent.Lib.Lines
import MinicoreAgent.PatchApply

/-!
# Unified patches of one file

The lines of a patch are read one after another with one line of lookahead. Git
metadata and file headers may stand first; the file headers must name the file the
tool was called for. Each hunk has a header with its two ranges and as many lines
as the ranges count, each perhaps followed by the marker of a missing newline.
Loops that consume a line in each round carry the lines left as fuel.
-/
namespace MinicoreAgent.Patches

open MinicoreAgent.Text (byteLen)

def noNewlineAtEnd : Text := "\\ No newline at end of file".toList

/-- `str::strip_suffix` of one character. -/
def stripSuffix (text : Text) (last : Char) : Option Text :=
  if text.getLast? = some last then some text.dropLast else none

/-- `str::strip_prefix`. -/
def stripStart (start text : Text) : Option Text :=
  if start.isPrefixOf text then some (text.drop start.length) else none

/-- `str::split_once` at one character. -/
def splitOnce (separator : Char) : Text → Option (Text × Text)
  | [] => none
  | char :: rest =>
    if char = separator then some ([], rest)
    else (splitOnce separator rest).map (fun parts => (char :: parts.1, parts.2))

/-- The text before the first occurrence of a pattern, and the text after it. -/
def splitAround (pattern : Text) : Text → Option (Text × Text)
  | [] => if pattern = [] then some ([], []) else none
  | char :: rest =>
    if pattern.isPrefixOf (char :: rest) then
      some ([], (char :: rest).drop pattern.length)
    else (splitAround pattern rest).map (fun parts => (char :: parts.1, parts.2))

/-- `str::split_inclusive` at line feeds. -/
def splitInclusive (text : Text) : List Text :=
  let parts := Lines.split '\n' text
  parts.1.map (· ++ ['\n']) ++ (if parts.2 = [] then [] else [parts.2])

def stripTransportEnding (line : Text) : Text :=
  match stripSuffix line '\n' with
  | none => line
  | some line => (stripSuffix line '\r').getD line

structure PatchLines where
  lines : List Text
  peeked : Option Text := none

namespace PatchLines

def new (patch : Text) : PatchLines := { lines := splitInclusive patch }

/-- The lines that are not yet read. -/
def left (parser : PatchLines) : List Text := parser.peeked.toList ++ parser.lines

def peek (parser : PatchLines) : Option Text × PatchLines :=
  match parser.peeked with
  | some line => (some line, parser)
  | none =>
    match parser.lines with
    | [] => (none, parser)
    | line :: rest => (some line, { lines := rest, peeked := some line })

def next (parser : PatchLines) : Option (Text × PatchLines) :=
  match parser.peeked with
  | some line => some (line, { parser with peeked := none })
  | none =>
    match parser.lines with
    | [] => none
    | line :: rest => some (line, { lines := rest })

/-- Only blank lines may be left. -/
def finish (parser : PatchLines) : Except ToolError Unit :=
  if parser.left.all (fun line => (stripTransportEnding line).isEmpty) then .ok ()
  else .error .invalidInvocation

end PatchLines

/-- `Option::ok_or` of a line or a part that must be there. -/
def required {Part : Type} : Option Part → Except ToolError Part
  | none => .error .invalidInvocation
  | some part => .ok part

section Ranges

def isDecimal (value : Text) : Bool := !value.isEmpty && value.all Char.isDigit

/-- `str::parse` of decimal digits. -/
def parseUsize (digits : Text) : Except ToolError Nat :=
  if Nat.ofDigitChars 10 digits 0 ≤ usizeMax then .ok (Nat.ofDigitChars 10 digits 0)
  else .error .invalidInvocation

def parseHunkRange (range : Text) (sign : Char) : Except ToolError HunkRange := do
  let range ← required (stripStart [sign] range)
  let (start, count) := (splitOnce ',' range).getD (range, ['1'])
  if !isDecimal start || !isDecimal count then .error .invalidInvocation
  else
    let start ← parseUsize start
    let count ← parseUsize count
    if start = 0 ∧ count ≠ 0 then .error .invalidInvocation
    else
      let index ← if count = 0 then .ok start else sub start 1
      let stop ← add index count
      let _ ← add start count
      .ok { index, count, stop }

def parseHunkHeader (header : Text) : Except ToolError (HunkRange × HunkRange) := do
  let header ← required (stripStart "@@ ".toList header)
  let (ranges, suffix) ← required (splitAround " @@".toList header)
  if suffix.contains '\x00' || (!suffix.isEmpty && !([' '].isPrefixOf suffix)) then
    .error .invalidInvocation
  else
    let (old, new) ← required (splitOnce ' ' ranges)
    if old.contains ' ' || new.contains ' ' then .error .invalidInvocation
    else
      let old ← parseHunkRange old '-'
      let new ← parseHunkRange new '+'
      .ok (old, new)

end Ranges

section Contents

def parsePatchContent (line : Text) : Except ToolError PatchContent :=
  match line with
  | [] => .ok { kind := .context, text := [] }
  | char :: text =>
    if char = ' ' then .ok { kind := .context, text }
    else if char = '-' then .ok { kind := .remove, text }
    else if char = '+' then .ok { kind := .add, text }
    else .error .invalidInvocation

def markNoNewline (content : PatchContent) : Except ToolError PatchContent :=
  if content.oldNoNewline || content.newNoNewline then .error .invalidInvocation
  else
    match content.kind with
    | .context => .ok { content with oldNoNewline := true, newNoNewline := true }
    | .remove => .ok { content with oldNoNewline := true }
    | .add => .ok { content with newNoNewline := true }

/-- Whether a line that was looked at is the marker of a missing newline. -/
def isMarker (line : Option Text) : Bool :=
  line.any (fun line => stripTransportEnding line == noNewlineAtEnd)

def consumeNoNewline (parser : PatchLines) (content : PatchContent) :
    Except ToolError (PatchLines × PatchContent) := do
  let (line, parser) := parser.peek
  if isMarker line then
    let parser := (parser.next.map Prod.snd).getD parser
    let content ← markNoNewline content
    let (following, parser) := parser.peek
    if isMarker following then .error .invalidInvocation else .ok (parser, content)
  else .ok (parser, content)

/-- The lines of a hunk from the counts reached so far. -/
def parseContentsLoop (expectedOld expectedNew : Nat) : Nat → PatchLines → Nat → Nat →
    Except ToolError (List PatchContent × PatchLines)
  | 0, parser, oldCount, newCount =>
    if oldCount < expectedOld ∨ newCount < expectedNew then .error .invalidInvocation
    else .ok ([], parser)
  | fuel + 1, parser, oldCount, newCount => do
    if oldCount < expectedOld ∨ newCount < expectedNew then
      let (raw, parser) ← required parser.next
      let line := stripTransportEnding raw
      if line = noNewlineAtEnd then .error .invalidInvocation
      else
        let content ← parsePatchContent line
        let oldCount ← add oldCount content.kind.delta.1
        let newCount ← add newCount content.kind.delta.2
        if expectedOld < oldCount ∨ expectedNew < newCount then .error .invalidInvocation
        else
          let (parser, content) ← consumeNoNewline parser content
          let (contents, parser) ←
            parseContentsLoop expectedOld expectedNew fuel parser oldCount newCount
          .ok (content :: contents, parser)
    else .ok ([], parser)

def parseHunkContents (parser : PatchLines) (expectedOld expectedNew : Nat) :
    Except ToolError (List PatchContent × PatchLines) := do
  let (contents, parser) ←
    parseContentsLoop expectedOld expectedNew parser.left.length parser 0 0
  if contents = [] then .error .invalidInvocation else .ok (contents, parser)

end Contents

section Paths

/-- The components of a Unix path that its validation tells apart. -/
inductive Component where
  | rootDir
  | curDir
  | parentDir
  | normal (name : Text)
  deriving DecidableEq, Repr

/-- `Path::components`: empty components and dots after the first one are dropped. -/
def components (path : Text) : List Component :=
  let parts := Lines.split '/' path
  let names := parts.1 ++ [parts.2]
  let named (name : Text) : Option Component :=
    if name = [] ∨ name = ['.'] then none
    else if name = ['.', '.'] then some .parentDir
    else some (.normal name)
  let first : List Component :=
    if ['/'].isPrefixOf path then [.rootDir]
    else if names.head? = some ['.'] then [.curDir]
    else []
  first ++ names.filterMap named

def isAbsolute (path : Text) : Bool := ['/'].isPrefixOf path

/-- The byte an escape letter stands for. -/
def escapedByte (letter : UInt8) : Option UInt8 :=
  if letter = 0x5c ∨ letter = 0x22 then some letter
  else if letter = 0x61 then some 0x07
  else if letter = 0x62 then some 0x08
  else if letter = 0x74 then some 0x09
  else if letter = 0x6e then some 0x0a
  else if letter = 0x76 then some 0x0b
  else if letter = 0x66 then some 0x0c
  else if letter = 0x72 then some 0x0d
  else none

def isOctal (byte : UInt8) : Bool := 0x30 ≤ byte && byte ≤ 0x37

/-- Up to so many octal digits: their value and the bytes after them. -/
def octalDigits : Nat → Nat → List UInt8 → Nat × List UInt8
  | 0, value, bytes => (value, bytes)
  | _ + 1, value, [] => (value, [])
  | digits + 1, value, byte :: rest =>
    if isOctal byte then octalDigits digits (value * 8 + (byte.toNat - 0x30)) rest
    else (value, byte :: rest)

/-- The bytes of a quoted path up to the closing quote, and the bytes after it. -/
def decodeLoop : Nat → List UInt8 → Except ToolError (List UInt8 × List UInt8)
  | 0, _ => .error .invalidInvocation
  | _ + 1, [] => .error .invalidInvocation
  | fuel + 1, byte :: rest => do
    if byte = 0x22 then .ok ([], rest)
    else if byte = 0x5c then
      match rest with
      | [] => .error .invalidInvocation
      | escaped :: after =>
        match escapedByte escaped with
        | some decoded =>
          let (path, rest) ← decodeLoop fuel after
          .ok (decoded :: path, rest)
        | none =>
          if isOctal escaped then
            let (value, after) := octalDigits 3 0 rest
            if 255 < value then .error .invalidInvocation
            else
              let (path, rest) ← decodeLoop fuel after
              .ok (value.toUInt8 :: path, rest)
          else .error .invalidInvocation
    else
      let (path, rest) ← decodeLoop fuel rest
      .ok (byte :: path, rest)

def decodeQuotedPath (value : Text) : Except ToolError Text := do
  let bytes := (Text.encode value).tail
  let (decoded, rest) ← decodeLoop (bytes.length + 1) bytes
  if rest.head?.any (· ≠ 0x09) then .error .invalidInvocation
  else
    match String.fromUTF8? decoded.toByteArray with
    | none => .error .invalidInvocation
    | some path =>
      if path.toList.contains '\x00' then .error .invalidInvocation else .ok path.toList

def parseHeaderPath (line start : Text) : Except ToolError Text := do
  let value ← required (stripStart start (stripTransportEnding line))
  let path ←
    if ['"'].isPrefixOf value then decodeQuotedPath value
    else .ok ((splitOnce '\t' value).elim value Prod.fst)
  if path.isEmpty || path.contains '\x00' then .error .invalidInvocation else .ok path

def validateHeaderPath (header toolPath start : Text) : Except ToolError Unit :=
  let candidate := if header = toolPath then header else (stripStart start header).getD header
  if candidate ≠ toolPath ∨ candidate.isEmpty ∨ candidate.contains '\x00'
      ∨ isAbsolute candidate
      ∨ (components candidate).any (fun part => part == .parentDir || part == .rootDir) then
    .error .invalidInvocation
  else .ok ()

end Paths

/-- The hunks from a header line on, after the ends of the previous hunk. -/
def parseHunksLoop : Nat → PatchLines → Text → Nat → Nat →
    Except ToolError (List ResolvedHunk)
  | 0, _, _, _, _ => .error .invalidInvocation
  | fuel + 1, parser, header, previousOldEnd, previousNewEnd => do
    let (old, new) ← parseHunkHeader (stripTransportEnding header)
    if old.index < previousOldEnd ∨ new.index < previousNewEnd then .error .invalidInvocation
    else
      let (contents, parser) ← parseHunkContents parser old.count new.count
      let resolved : ResolvedHunk := { old, new, contents }
      match parser.next with
      | none => .ok [resolved]
      | some (line, parser) =>
        if "@@ ".toList.isPrefixOf (stripTransportEnding line) then
          let rest ← parseHunksLoop fuel parser line old.stop new.stop
          .ok (resolved :: rest)
        else if (stripTransportEnding line).isEmpty then
          let _ ← parser.finish
          .ok [resolved]
        else .error .invalidInvocation

/-- The line after the git metadata, which file headers must follow. -/
def skipGitMetadata (parser : PatchLines) (first : Text) :
    Except ToolError (Text × PatchLines) := do
  if "diff --git ".toList.isPrefixOf first || "index ".toList.isPrefixOf first then
    let (first, parser) ←
      if "diff --git ".toList.isPrefixOf first then required parser.next
      else .ok (first, parser)
    let (first, parser) ←
      if "index ".toList.isPrefixOf first then required parser.next
      else .ok (first, parser)
    if !("--- ".toList.isPrefixOf first) then .error .invalidInvocation
    else .ok (first, parser)
  else .ok (first, parser)

/-- The header of the first hunk, after file headers that name the tool's path. -/
def skipFileHeaders (path : Text) (parser : PatchLines) (first : Text) :
    Except ToolError (Text × PatchLines) := do
  if "--- ".toList.isPrefixOf (stripTransportEnding first) then
    let original ← parseHeaderPath first "--- ".toList
    let (second, parser) ← required parser.next
    let modified ← parseHeaderPath second "+++ ".toList
    let _ ← validateHeaderPath original path "a/".toList
    let _ ← validateHeaderPath modified path "b/".toList
    required parser.next
  else .ok (first, parser)

def parseUnifiedPatch (path patch : Text) : Except ToolError (List ResolvedHunk) := do
  let parser := PatchLines.new patch
  let (first, parser) ← required parser.next
  let (first, parser) ← skipGitMetadata parser first
  let (header, parser) ← skipFileHeaders path parser first
  parseHunksLoop (parser.left.length + 1) parser header 0 0

def codexBeginPatch : Text := "*** Begin Patch".toList

/-- A patch in the Codex envelope is resolved against the source by its own parser;
any other patch is a unified one. -/
def applySingleFilePatch
    (resolveCodex : Text → Text → List SourceLine → Except ToolError (List ResolvedHunk))
    (path source patch : Text) : Except ToolError Text := do
  let first ← required (splitInclusive patch).head?
  let sourceLines := splitSourceLines source
  let hunks ←
    if stripTransportEnding first = codexBeginPatch then resolveCodex path patch sourceLines
    else parseUnifiedPatch path patch
  applyResolvedHunks sourceLines hunks

end MinicoreAgent.Patches

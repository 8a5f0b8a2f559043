import MinicoreAgent.DiffProgress

/-!
# Queries of a planned diff

A query asks for one page of a diff: from its beginning, or from a cursor that an earlier
page has named. A cursor of another change, another context or other texts is refused. A
client that follows the cursors puts a line together again from the pieces that its pages
show of it.
-/
namespace MinicoreAgent.Diffs

open EditOps (slice)
open JsonSize
open MinicoreAgent.Text (byteLen)

section Requests

def defaultContextLines : Nat := 3

def maxContextLines : Nat := 1000

def defaultDiffMaxBytes : Nat := 64 * 1024

def minDiffMaxBytes : Nat := 2048

def maxDiffMaxBytes : Nat := 256 * 1024

def isHexDigit (char : Char) : Bool :=
  ('0' ≤ char && char ≤ '9') || ('a' ≤ char && char ≤ 'f') || ('A' ≤ char && char ≤ 'F')

def validSha256 (value : List Char) : Bool := byteLen value = 64 && value.all isHexDigit

structure ChangesDiffRequest where
  subject : Subject
  /-- The reference is one of the session, and the comparison is one for the reference. -/
  addressed : Bool
  contextLines : Option Nat
  cursor : Option DiffCursor
  maxBytes : Option Nat
  deriving DecidableEq, Repr

namespace ChangesDiffRequest

variable (request : ChangesDiffRequest)

def context : Nat := request.contextLines.getD defaultContextLines

def limit : Nat := request.maxBytes.getD defaultDiffMaxBytes

def validate : Except PageError Unit :=
  if !request.addressed then .error .invalidArguments
  else if request.contextLines.any fun value => maxContextLines < value then
    .error .invalidArguments
  else if request.maxBytes.any fun value =>
      !(minDiffMaxBytes ≤ value && value ≤ maxDiffMaxBytes) then
    .error .invalidArguments
  else if request.cursor.any fun cursor =>
      cursor.subject ≠ request.subject || cursor.contextLines ≠ request.context ||
        !validSha256 cursor.opsFingerprint then
    .error .invalidArguments
  else .ok ()

/-- The same request from another place on, with another limit. -/
def asking (cursor : Option DiffCursor) (maxBytes : Option Nat) : ChangesDiffRequest :=
  { request with cursor := cursor, maxBytes := maxBytes }

end ChangesDiffRequest

end Requests

section Answers

/-- `encoded_result`. -/
def DiffResult.encodedResult (result : DiffResult) (maxBytes : Nat) :
    Except PageError DiffResult :=
  if maxBytes < result.encodedLen then .error .invalidArguments else .ok result

/-- The result for a cursor of other texts. -/
def DiffResult.outdated (base : DiffResult) : DiffResult :=
  { base with
    head := base.head.map fun field =>
      if field.1 = "stale" then (field.1, boolLen true) else field
    availability := .available }

/-- A comparison with refreshed versions has a fingerprint of its own: that of the plan is
hashed once more, encoded with the versions. -/
def DiffPlan.compared (digest : Bytes → List Char) (versions : Option (List Char → Bytes))
    (plan : Plan) : Plan :=
  match versions with
  | none => plan
  | some encode => { plan with fingerprint := digest (encode plan.fingerprint) }

def startPosition : Position := { hunkIndex := 0, lineIndex := 0, lineByteOffset := 0 }

variable (head : List (String × Nat)) (plan : Plan) (before after : Bytes)

/-- What `compare_sources` answers when both texts are planned. -/
def comparePlan (request : ChangesDiffRequest) : Except PageError DiffResult :=
  let base := DiffResult.base head
  if request.cursor.any fun cursor => cursor.opsFingerprint ≠ plan.fingerprint then
    base.outdated.encodedResult request.limit
  else
    let start := (request.cursor.map (·.position)).getD startPosition
    match buildPage request.subject plan before after request.context base start request.limit with
    | .error error => .error error
    | .ok (hunks, nextCursor, complete) =>
      (base.page plan hunks nextCursor complete).encodedResult request.limit

def changesDiff (request : ChangesDiffRequest) : Except PageError DiffResult :=
  match request.validate with
  | .error error => .error error
  | .ok () => comparePlan head plan before after request

/-- The pages that a client reads one after another, each with a limit of its own, for as
long as there is a cursor to follow. -/
def readPages (request : ChangesDiffRequest) :
    Option DiffCursor → List (Option Nat) → Except PageError (List DiffResult)
  | _, [] => .ok []
  | cursor, maxBytes :: limits =>
    match changesDiff head plan before after (request.asking cursor maxBytes) with
    | .error error => .error error
    | .ok page =>
      match page.nextCursor with
      | none => .ok [page]
      | some next =>
        match readPages request (some next) limits with
        | .error error => .error error
        | .ok pages => .ok (page :: pages)

end Answers

section Reassembly

/-- What a page shows of one line, with the hunk that the line belongs to. -/
abbrev Piece := DiffHunk × DiffLine

/-- A hunk without its lines. -/
def DiffHunk.bare (hunk : DiffHunk) : DiffHunk := { hunk with lines := [] }

def pieces (page : List DiffHunk) : List Piece :=
  page.flatMap fun hunk => hunk.lines.map fun line => (hunk.bare, line)

/-- The next piece goes on in the same line of the same hunk, where this one ends. -/
def Piece.Continues (next piece : Piece) : Prop :=
  piece.2.lineComplete = false ∧ next.1 = piece.1 ∧
    next.2 = { piece.2 with
      lineByteOffset := piece.2.lineByteOffset + byteLen piece.2.text
      text := next.2.text
      lineComplete := next.2.lineComplete }

instance (next piece : Piece) : Decidable (next.Continues piece) :=
  inferInstanceAs (Decidable (_ ∧ _ ∧ _))

/-- A piece that ends inside its line is joined with the one that goes on there. -/
def attach (piece : Piece) : List Piece → List Piece
  | [] => [piece]
  | next :: rest =>
    if next.Continues piece then
      (piece.1, { piece.2 with
        text := piece.2.text ++ next.2.text
        lineComplete := next.2.lineComplete }) :: rest
    else piece :: next :: rest

def reassemble (shown : List Piece) : List Piece := shown.foldr attach []

/-- A planned line as a whole. -/
def LinePlan.whole (before after : Bytes) (line : LinePlan) : DiffLine :=
  let text := (decode (slice (line.source.bytes before after) line.byteStart line.byteLen)).getD []
  line.fragment 0 text text

/-- Every planned line as a whole, in order. -/
def wholePieces (plan : Plan) (before after : Bytes) : List Piece :=
  plan.hunks.flatMap fun hunk =>
    hunk.lines.map fun line => (hunk.shown [], line.whole before after)

end Reassembly

end MinicoreAgent.Diffs

import MinicoreAgent.Lib.Text
import MinicoreAgent.ReadTool

/-!
# The parser behind an argument preview

While a model writes the arguments of a tool call, a small machine reads them character by
character and keeps what a card may show of them: a path, the body of a write, the lines of a
read. The two texts grow within limits of the call and of the whole stream, in steps that the
allocator may refuse or overshoot.
-/
namespace MinicoreAgent.Preview

open Text
open ReadTool (escapeDefault)

/-- `MAX_CALL_BYTES`, `MAX_STREAM_BYTES`, `MAX_DETAIL_BYTES` and `MAX_DEPTH`. -/
def maxCallBytes : Nat := 128 * 1024

def maxStreamBytes : Nat := 512 * 1024

def maxDetailBytes : Nat := 512

def maxDepth : Nat := 64

section Tokens

inductive Field where
  | ignore
  | path
  | content
  | offset
  | limit
deriving DecidableEq, Repr

def Field.bit : Field → BitVec 8
  | .ignore => 0
  | .path => 1
  | .content => 2
  | .offset => 4
  | .limit => 8

inductive ObjectState where
  | keyOrEnd
  | key
  | colon
  | value
  | commaOrEnd
deriving DecidableEq, Repr

inductive ArrayState where
  | valueOrEnd
  | value
  | commaOrEnd
deriving DecidableEq, Repr

inductive Frame where
  | object (state : ObjectState)
  | array (state : ArrayState)
deriving DecidableEq, Repr

inductive Capture where
  | key
  | ignore
  | field (field : Field)
deriving DecidableEq, Repr

/-- `Escape`, whose first state is `None`. -/
inductive Escape where
  | plain
  | slash
  | unicode (digits value : Nat)
  | lowSlash (high : Nat)
  | lowU (high : Nat)
  | lowUnicode (high digits value : Nat)
deriving DecidableEq, Repr

/-- `char::to_digit` of a hexadecimal digit. -/
def hexDigit (char : Char) : Option Nat :=
  if char.isDigit then some (char.toNat - '0'.toNat)
  else if 'a' ≤ char ∧ char ≤ 'f' then some (char.toNat - 'a'.toNat + 10)
  else if 'A' ≤ char ∧ char ≤ 'F' then some (char.toNat - 'A'.toNat + 10)
  else none

/-- `char::from_u32`. -/
def charOf (number : Nat) : Option Char :=
  if number.isValidChar then some (Char.ofNat number) else none

/-- What a letter behind a backslash stands for. -/
def shortEscape (char : Char) : Option Char :=
  if char = '"' ∨ char = '\\' ∨ char = '/' then some char
  else if char = 'b' then some '\x08'
  else if char = 'f' then some '\x0c'
  else if char = 'n' then some '\n'
  else if char = 'r' then some '\r'
  else if char = 't' then some '\t'
  else none

def isHigh (value : Nat) : Bool := 0xd800 ≤ value && value ≤ 0xdbff

def isLow (value : Nat) : Bool := 0xdc00 ≤ value && value ≤ 0xdfff

/-- The last digit of an escape of four. -/
def unitEscape (value : Nat) : Option (Escape × Option Char) :=
  if isLow value then none
  else if isHigh value then some (.lowSlash value, none)
  else (charOf value).map fun decoded => (.plain, some decoded)

/-- The last digit of the second escape of a pair. -/
def pairEscape (high value : Nat) : Option (Escape × Option Char) :=
  if isLow value then
    (charOf (0x10000 + (high - 0xd800) * 0x400 + (value - 0xdc00))).map fun decoded =>
      (.plain, some decoded)
  else none

/-- `Escape::decode`. -/
def Escape.decode : Escape → Char → Option (Escape × Option Char)
  | .plain, char =>
    if char = '\\' then some (.slash, none)
    else if char < ' ' then none
    else some (.plain, some char)
  | .slash, char =>
    if char = 'u' then some (.unicode 0 0, none)
    else (shortEscape char).map fun decoded => (.plain, some decoded)
  | .lowSlash high, char => if char = '\\' then some (.lowU high, none) else none
  | .lowU high, char => if char = 'u' then some (.lowUnicode high 0 0, none) else none
  | .unicode digits value, char =>
    match hexDigit char with
    | none => none
    | some digit =>
      if digits < 3 then some (.unicode (digits + 1) (value * 16 + digit), none)
      else unitEscape (value * 16 + digit)
  | .lowUnicode high digits value, char =>
    match hexDigit char with
    | none => none
    | some digit =>
      if digits < 3 then some (.lowUnicode high (digits + 1) (value * 16 + digit), none)
      else pairEscape high (value * 16 + digit)

inductive NumberState where
  | minus
  | zero
  | integer
  | dot
  | fraction
  | exp
  | expSign
  | expDigits
deriving DecidableEq, Repr

def NumberState.complete : NumberState → Bool
  | .zero | .integer | .fraction | .expDigits => true
  | _ => false

/-- The transitions of `token_char` inside a number. -/
def NumberState.next : NumberState → Char → Option NumberState
  | .minus, char =>
    if char = '0' then some .zero else if char.isDigit then some .integer else none
  | .zero, char =>
    if char = '.' then some .dot else if char = 'e' ∨ char = 'E' then some .exp else none
  | .integer, char =>
    if char.isDigit then some .integer
    else if char = '.' then some .dot
    else if char = 'e' ∨ char = 'E' then some .exp
    else none
  | .dot, char => if char.isDigit then some .fraction else none
  | .fraction, char =>
    if char = 'e' ∨ char = 'E' then some .exp
    else if char.isDigit then some .fraction
    else none
  | .exp, char =>
    if char = '+' ∨ char = '-' then some .expSign
    else if char.isDigit then some .expDigits
    else none
  | .expSign, char => if char.isDigit then some .expDigits else none
  | .expDigits, char => if char.isDigit then some .expDigits else none

inductive Token where
  | string (capture : Capture) (escape : Escape)
  | number (state : NumberState) (field : Field) (digits : List Char)
  | literal (expected : List Char) (index : Nat)
deriving DecidableEq, Repr

def jsonSpace (char : Char) : Bool :=
  char = ' ' || char = '\t' || char = '\r' || char = '\n'

/-- The number that decimal digits write. -/
def decimal (digits : List Char) : Nat :=
  digits.foldl (fun value digit => value * 10 + (digit.toNat - '0'.toNat)) 0

/-- `str::parse::<u64>`, of a text that does not begin with a plus. -/
def parseU64 (digits : List Char) : Option Nat :=
  if digits ≠ [] ∧ digits.all Char.isDigit ∧ decimal digits < 2 ^ 64 then some (decimal digits)
  else none

end Tokens

section Buffers

/-- A `String` with its capacity. -/
structure Buffer where
  text : List Char
  capacity : Nat
  fits : byteLen text ≤ capacity

def Buffer.empty : Buffer := ⟨[], 0, Nat.le_refl 0⟩

def Buffer.clear (buffer : Buffer) : Buffer := ⟨[], buffer.capacity, Nat.zero_le _⟩

/-- `push_str`, which grows what does not fit. -/
def Buffer.push (buffer : Buffer) (value : List Char) : Buffer where
  text := buffer.text ++ value
  capacity := max buffer.capacity (byteLen (buffer.text ++ value))
  fits := Nat.le_max_right _ _

@[simp] theorem push_text (buffer : Buffer) (value : List Char) :
    (buffer.push value).text = buffer.text ++ value := rfl

/-- The count of the stream's bytes that a parser is given, how many reservations were asked
for, and whether a missing buffer was unwrapped or a count would have fallen below zero. -/
structure Heap where
  bytes : Nat
  grants : Nat
  faulted : Bool
deriving DecidableEq, Repr

variable (grant : Nat → Nat → Option Nat)

/-- `try_reserve_exact`. The allocator refuses, or it gives so much more than was asked for. -/
def Buffer.reserveExact (buffer : Buffer) (heap : Heap) (additional : Nat) :
    Buffer × Heap × Bool :=
  if additional ≤ buffer.capacity - byteLen buffer.text then (buffer, heap, true)
  else
    let requested := byteLen buffer.text + additional
    let heap' := { heap with grants := heap.grants + 1 }
    match grant heap.grants requested with
    | none => (buffer, heap', false)
    | some extra =>
      (⟨buffer.text, requested + extra,
        Nat.le_trans (Nat.le_add_right _ _) (Nat.le_add_right _ _)⟩, heap', true)

/-- `append_display` of a value to a text, below a limit of its capacity. -/
def Buffer.append (text : Buffer) (value : List Char) (limit : Nat) (heap : Heap) :
    Buffer × Heap × Bool :=
  let needed := byteLen text.text + byteLen value
  if limit < needed then (text, heap, false)
  else if text.capacity < needed then
    let requested := min (max (max (text.capacity * 2) 8) needed) limit
    match text.reserveExact grant heap (requested - byteLen text.text) with
    | (actual, heap, reserved) =>
      -- An allocation beyond the limit is dropped with the text it was made for.
      if limit < actual.capacity then (.empty, heap, false)
      else if reserved then (actual.push value, heap, true)
      else (actual, heap, false)
  else (text.push value, heap, true)

end Buffers

section Display

/-- The fields of `PreviewParser` that a card may show, with what is charged for them. -/
structure Shown where
  path : Option Buffer
  content : Option Buffer
  offset : Option Nat
  limit : Option Nat
  retained : Nat
  pathCut : Bool
  bodyCut : Bool
  changes : Nat

def Shown.empty : Shown := ⟨none, none, none, none, 0, false, false, 0⟩

def Shown.changed (shown : Shown) : Shown := { shown with changes := shown.changes + 1 }

/-- The buffer of the body or of the path. -/
def Shown.buffer (shown : Shown) (body : Bool) : Option Buffer :=
  if body then shown.content else shown.path

def Shown.setBuffer (shown : Shown) (body : Bool) (buffer : Buffer) (retained : Nat) : Shown :=
  if body then { shown with content := some buffer, retained := retained }
  else { shown with path := some buffer, retained := retained }

def Shown.cut (shown : Shown) (body : Bool) : Bool :=
  if body then shown.bodyCut else shown.pathCut

def Shown.setCut (shown : Shown) (body : Bool) : Shown :=
  if body then { shown with bodyCut := true } else { shown with pathCut := true }

variable (grant : Nat → Nat → Option Nat)

/-- The capacity that `append_display` may give to a buffer besides what others have. -/
def capacityLimit (body : Bool) (otherCall otherStream : Nat) : Nat :=
  min (min (if body then maxCallBytes else maxDetailBytes) (maxCallBytes - otherCall))
    (maxStreamBytes - otherStream)

/-- `append_display`. What a buffer keeps of its capacity it keeps of its charge. -/
def Shown.appendDisplay (shown : Shown) (body : Bool) (value : List Char) (heap : Heap) :
    Shown × Heap × Bool :=
  match shown.buffer body with
  | none => (shown, { heap with faulted := true }, false)
  | some text =>
    let otherCall := shown.retained - text.capacity
    let otherStream := heap.bytes - text.capacity
    let faulted :=
      heap.faulted || shown.retained < text.capacity || heap.bytes < text.capacity
    match text.append grant value (capacityLimit body otherCall otherStream) heap with
    | (buffer, heap, kept) =>
      (shown.setBuffer body buffer (otherCall + buffer.capacity),
        { heap with bytes := otherStream + buffer.capacity, faulted := faulted }, kept)

/-- What a character of the body or of the path is shown as. -/
def sanitize (body : Bool) (char : Char) : List Char :=
  if !body && (char = '\r' || char = '\n' || char = '\t') then [' ']
  else if isControl char && !(body && (char = '\n' || char = '\t')) then escapeDefault char
  else [char]

/-- `capture` of a character of the body or of the path. -/
def Shown.capture (shown : Shown) (body : Bool) (char : Char) (heap : Heap) : Shown × Heap :=
  if shown.cut body then (shown, heap)
  else
    match shown.appendDisplay grant body (sanitize body char) heap with
    | (shown, heap, kept) =>
      ((if kept then shown else shown.setCut body).changed, heap)

/-- The reservation for a path that a body comes before. -/
def Shown.reservePath (shown : Shown) (heap : Heap) : Shown × Heap :=
  if shown.path.isSome then (shown, heap)
  else
    let reserve := List.replicate (min 32 (maxStreamBytes - heap.bytes)) ' '
    match Shown.appendDisplay grant { shown with path := some .empty } false reserve heap with
    | (shown, heap, _) => ({ shown with path := shown.path.map Buffer.clear }, heap)

/-- What the beginning of a string that is the value of a field makes ready. -/
def Shown.startText (shown : Shown) (field : Field) (heap : Heap) : Shown × Heap :=
  match field with
  | .path => (Shown.changed { shown with path := some (shown.path.getD .empty) }, heap)
  | .content =>
    match shown.reservePath grant heap with
    | (shown, heap) => (Shown.changed { shown with content := some .empty }, heap)
  | _ => (shown, heap)

end Display

/-- `PreviewParser`, with the innermost frame of its stack first. -/
structure PreviewParser where
  write : Bool
  read : Bool
  started : Bool
  done : Bool
  stack : List Frame
  token : Option Token
  key : List Char
  keyOverflow : Bool
  field : Field
  seen : BitVec 8
  shown : Shown
  invalid : Bool

section Parsing

variable (grant : Nat → Nat → Option Nat)

/-- `PreviewParser::new`. -/
def PreviewParser.new (name : List Char) : PreviewParser where
  write := name = "write".toList
  read := name = "read".toList
  started := false
  done := false
  stack := []
  token := none
  key := []
  keyOverflow := false
  field := .ignore
  seen := 0
  shown := .empty
  invalid := false

def PreviewParser.complete (parser : PreviewParser) : Bool := parser.done && !parser.invalid

def PreviewParser.truncated (parser : PreviewParser) : Bool :=
  parser.shown.pathCut || parser.shown.bodyCut

/-- `fail`. -/
def PreviewParser.fail (parser : PreviewParser) (heap : Heap) : PreviewParser × Heap :=
  if parser.invalid then (parser, heap)
  else
    ({ parser with
        invalid := true
        shown := { Shown.empty with
          pathCut := parser.shown.pathCut
          bodyCut := parser.shown.bodyCut
          changes := parser.shown.changes + 1 }
        token := none
        key := []
        stack := [] },
      { heap with bytes := heap.bytes - parser.shown.retained })

/-- `capture` of a character of a key. -/
def PreviewParser.captureKey (parser : PreviewParser) (char : Char) : PreviewParser :=
  if byteLen parser.key + char.utf8Size ≤ 32 ∧ parser.keyOverflow = false then
    { parser with key := parser.key ++ [char] }
  else { parser with keyOverflow := true }

/-- `capture`. -/
def PreviewParser.capture (parser : PreviewParser) (capture : Capture) (char : Char)
    (heap : Heap) : PreviewParser × Heap :=
  let display (body : Bool) :=
    match parser.shown.capture grant body char heap with
    | (shown, heap) => ({ parser with shown := shown }, heap)
  match capture with
  | .key => (parser.captureKey char, heap)
  | .field .path => display false
  | .field .content => display true
  | _ => (parser, heap)

def setTop (frame : Frame) : List Frame → List Frame
  | [] => []
  | _ :: below => frame :: below

/-- The field that a key of the top level names. -/
def PreviewParser.keyField (parser : PreviewParser) (key : List Char) : Field :=
  if key = "path".toList ∨ key = "file_path".toList then .path
  else if key = "content".toList ∧ parser.write then .content
  else if key = "offset".toList ∧ parser.read then .offset
  else if key = "limit".toList ∧ parser.read then .limit
  else .ignore

/-- The field that the key names that has been read. -/
def PreviewParser.finishedField (parser : PreviewParser) : Field :=
  if parser.keyOverflow then .ignore else parser.keyField parser.key

/-- `finish_key`. -/
def PreviewParser.finishKey (parser : PreviewParser) (heap : Heap) : PreviewParser × Heap :=
  let field := parser.finishedField
  let parser := { parser with field := field }
  if parser.seen &&& field.bit ≠ 0 then parser.fail heap
  else
    ({ parser with
        seen := parser.seen ||| field.bit
        key := []
        stack := setTop (.object .colon) parser.stack }, heap)

/-- `token_char` at the end of a string. -/
def PreviewParser.endString (parser : PreviewParser) (capture : Capture) (heap : Heap) :
    PreviewParser × Heap :=
  if capture = .key then parser.finishKey heap
  else if parser.stack.head? = some (.object .keyOrEnd) ∨
      parser.stack.head? = some (.object .key) then
    ({ parser with stack := setTop (.object .colon) parser.stack }, heap)
  else (parser, heap)

/-- The capture of a character, if one is complete. -/
def PreviewParser.captured (parser : PreviewParser) (capture : Capture) (decoded : Option Char)
    (heap : Heap) : PreviewParser × Heap :=
  match decoded with
  | some char => parser.capture grant capture char heap
  | none => (parser, heap)

/-- `token_char` in a string. -/
def PreviewParser.stringChar (parser : PreviewParser) (capture : Capture) (escape : Escape)
    (char : Char) (heap : Heap) : PreviewParser × Heap :=
  if escape = .plain ∧ char = '"' then parser.endString capture heap
  else
    match escape.decode char with
    | none => parser.fail heap
    | some (next, decoded) =>
      match parser.captured grant capture decoded heap with
      | (parser, heap) => ({ parser with token := some (.string capture next) }, heap)

/-- `token_char` in a literal. -/
def PreviewParser.literalChar (parser : PreviewParser) (expected : List Char) (index : Nat)
    (char : Char) (heap : Heap) : PreviewParser × Heap :=
  if expected[index]? ≠ some char then parser.fail heap
  else if index + 1 < expected.length then
    ({ parser with token := some (.literal expected (index + 1)) }, heap)
  else (parser, heap)

def isDelimiter (char : Char) : Bool :=
  jsonSpace char || char = ',' || char = ']' || char = '}'

/-- `token_char` at the end of a number. -/
def PreviewParser.endNumber (parser : PreviewParser) (field : Field) (digits : List Char)
    (heap : Heap) : PreviewParser × Heap :=
  if field = .ignore then (parser, heap)
  else
    match parseU64 digits with
    | none => parser.fail heap
    | some value =>
      if value = 0 then parser.fail heap
      else
        let shown :=
          if field = .offset then { parser.shown with offset := some value }
          else { parser.shown with limit := some value }
        ({ parser with shown := shown.changed }, heap)

/-- `token_char` in a number, and whether it took the character. -/
def PreviewParser.numberChar (parser : PreviewParser) (state : NumberState) (field : Field)
    (digits : List Char) (char : Char) (heap : Heap) : Bool × PreviewParser × Heap :=
  match state.next char with
  | some state =>
    if field = .ignore then
      (true, { parser with token := some (.number state field digits) }, heap)
    else if 20 ≤ byteLen digits then (true, parser.fail heap)
    else (true, { parser with token := some (.number state field (digits ++ [char])) }, heap)
  | none =>
    if state.complete && isDelimiter char then (false, parser.endNumber field digits heap)
    else (true, parser.fail heap)

/-- `token_char`. -/
def PreviewParser.tokenChar (parser : PreviewParser) (token : Token) (char : Char)
    (heap : Heap) : Bool × PreviewParser × Heap :=
  match token with
  | .string capture escape => (true, parser.stringChar grant capture escape char heap)
  | .literal expected index => (true, parser.literalChar expected index char heap)
  | .number state field digits => parser.numberChar state field digits char heap

/-- `close`. -/
def PreviewParser.close (parser : PreviewParser) : PreviewParser :=
  let stack := parser.stack.tail
  { parser with
    stack := stack
    done := parser.done || stack.isEmpty }

/-- The beginning of a string that is a value. -/
def PreviewParser.startString (parser : PreviewParser) (field : Field) (heap : Heap) :
    PreviewParser × Heap :=
  match parser.shown.startText grant field heap with
  | (shown, heap) =>
    ({ parser with shown := shown, token := some (.string (.field field) .plain) }, heap)

/-- The state of a frame behind a value. -/
def Frame.behind : Frame → Frame
  | .object _ => .object .commaOrEnd
  | .array _ => .array .commaOrEnd

def behindTop : List Frame → List Frame
  | [] => []
  | frame :: below => frame.behind :: below

def PreviewParser.valueField (parser : PreviewParser) : Field :=
  if parser.stack.length = 1 then parser.field else .ignore

/-- A field has a text or a number as its value. -/
def Field.refuses (field : Field) (char : Char) : Bool :=
  match field with
  | .ignore => false
  | .path | .content => char ≠ '"'
  | .offset | .limit => !char.isDigit && char ≠ '-'

def literalOf (char : Char) : Option (List Char) :=
  if char = 't' then some "true".toList
  else if char = 'f' then some "false".toList
  else if char = 'n' then some "null".toList
  else none

def numberStart (char : Char) : NumberState :=
  if char = '-' then .minus else if char = '0' then .zero else .integer

/-- `structural` at the first character of a value. -/
def PreviewParser.startValue (parser : PreviewParser) (char : Char) (heap : Heap) :
    PreviewParser × Heap :=
  let field := parser.valueField
  if field.refuses char then parser.fail heap
  else
    let parser := { parser with stack := behindTop parser.stack }
    if char = '{' ∨ char = '[' then
      if maxDepth ≤ parser.stack.length then parser.fail heap
      else
        ({ parser with
            stack := (if char = '{' then .object .keyOrEnd else .array .valueOrEnd) ::
              parser.stack }, heap)
    else if char = '"' then parser.startString grant field heap
    else if char = '-' ∨ char.isDigit then
      ({ parser with
          token := some (.number (numberStart char) field
            (if field = .ignore then [] else [char])) }, heap)
    else
      match literalOf char with
      | some expected => ({ parser with token := some (.literal expected 1) }, heap)
      | none => parser.fail heap

/-- `structural` where a key may begin. -/
def PreviewParser.startKey (parser : PreviewParser) (mayEnd : Bool) (char : Char)
    (heap : Heap) : PreviewParser × Heap :=
  if char = '}' ∧ mayEnd then (parser.close, heap)
  else if char = '"' then
    ({ parser with
        key := []
        keyOverflow := false
        token := some (.string (if parser.stack.length = 1 then .key else .ignore) .plain) },
      heap)
  else parser.fail heap

/-- `structural` behind a value. -/
def PreviewParser.behindValue (parser : PreviewParser) (closing : Char) (next : Frame)
    (char : Char) (heap : Heap) : PreviewParser × Heap :=
  if char = ',' then ({ parser with stack := setTop next parser.stack }, heap)
  else if char = closing then (parser.close, heap)
  else parser.fail heap

/-- `structural` inside the outer object. -/
def PreviewParser.frameChar (parser : PreviewParser) (char : Char) (heap : Heap) :
    PreviewParser × Heap :=
  match parser.stack.head? with
  | some (.object .keyOrEnd) => parser.startKey true char heap
  | some (.object .key) => parser.startKey false char heap
  | some (.object .colon) =>
    if char = ':' then
      ({ parser with stack := setTop (.object .value) parser.stack }, heap)
    else parser.fail heap
  | some (.object .commaOrEnd) => parser.behindValue '}' (.object .key) char heap
  | some (.array .commaOrEnd) => parser.behindValue ']' (.array .value) char heap
  | some (.array .valueOrEnd) =>
    if char = ']' then (parser.close, heap) else parser.startValue grant char heap
  | some (.object .value) => parser.startValue grant char heap
  | some (.array .value) => parser.startValue grant char heap
  | none => parser.fail heap

/-- `structural`. -/
def PreviewParser.structural (parser : PreviewParser) (char : Char) (heap : Heap) :
    PreviewParser × Heap :=
  if jsonSpace char then (parser, heap)
  else if !parser.started then
    let parser := { parser with started := true }
    if char = '{' then ({ parser with stack := .object .keyOrEnd :: parser.stack }, heap)
    else parser.fail heap
  else if parser.done then parser.fail heap
  else parser.frameChar grant char heap

/-- The round of `feed` for one character. -/
def PreviewParser.feedChar (parser : PreviewParser) (char : Char) (heap : Heap) :
    PreviewParser × Heap :=
  if parser.invalid then (parser, heap)
  else
    match parser.token with
    | none => parser.structural grant char heap
    | some token =>
      match PreviewParser.tokenChar grant { parser with token := none } token char heap with
      | (taken, parser, heap) =>
        if taken || parser.invalid then (parser, heap) else parser.structural grant char heap

/-- `feed`. -/
def PreviewParser.feed (parser : PreviewParser) (delta : List Char) (heap : Heap) :
    PreviewParser × Heap :=
  delta.foldl (fun (state : PreviewParser × Heap) char => state.1.feedChar grant char state.2)
    (parser, heap)

end Parsing

end MinicoreAgent.Preview

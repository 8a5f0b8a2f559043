import MinicoreAgent.Lib.Base64
import MinicoreAgent.Lib.JsonSize
import MinicoreAgent.Lib.Results
import MinicoreAgent.ToolRecords

/-!
# Pages of a tool's output

A page shows the retained bytes of a stream from an offset on, as far as the bytes of the
answer allow: those of a process stream in base64, those of a text up to a character
boundary. An offset before the retained bytes is answered with a gap that points to their
start. A page is measured once more as a whole before it is returned.

The only error is a request that cannot be answered.
-/
namespace MinicoreAgent.Tools

open JsonSize
open MinicoreAgent.Text (byteLen encode)

section Pages

inductive OutputError where
  | invalidArguments
  deriving DecidableEq, Repr

def ToolDataStream.asStr : ToolDataStream → List Char
  | .input => "input".toList
  | .output => "output".toList
  | .stdout => "stdout".toList
  | .stderr => "stderr".toList

def ToolDataStream.encoding : ToolDataStream → List Char
  | .input => "utf8_json".toList
  | .output => "utf8".toList
  | .stdout | .stderr => "base64".toList

def ToolDataAvailability.asStr : ToolDataAvailability → List Char
  | .pending => "pending".toList
  | .unavailable => "unavailable".toList
  | .available => "available".toList
  | .partial_ => "partial".toList
  | .expired => "expired".toList

structure ToolOutputRequest (ToolRef : Type) where
  toolRef : ToolRef
  stream : ToolDataStream
  offset : Nat
  deriving DecidableEq

structure ToolOutputPage (ToolRef : Type) where
  toolRef : ToolRef
  stream : ToolDataStream
  encoding : List Char
  baseOffset : Nat
  nextOffset : Nat
  observedEnd : Nat
  eof : Bool
  truncated : Bool
  availability : ToolDataAvailability
  data : List Char
  deriving DecidableEq

variable {ToolRef : Type} (toolRefLen : ToolRef → Nat)

def ToolOutputPage.encodedLen (page : ToolOutputPage ToolRef) : Nat :=
  objectLen [("tool_ref", toolRefLen page.toolRef), ("stream", stringLen page.stream.asStr),
    ("encoding", stringLen page.encoding), ("base_offset", numberLen page.baseOffset),
    ("next_offset", numberLen page.nextOffset), ("observed_end", numberLen page.observedEnd),
    ("eof", boolLen page.eof), ("truncated", boolLen page.truncated),
    ("availability", stringLen page.availability.asStr), ("data", stringLen page.data)]

/-- `encoded_result`. -/
def encodedPage (page : ToolOutputPage ToolRef) (maxBytes : Nat) :
    Except OutputError (ToolOutputPage ToolRef) :=
  if maxBytes < page.encodedLen toolRefLen then .error .invalidArguments else .ok page

def u64Max : Nat := 2 ^ 64 - 1

/-- The data that fits into some bytes, quotes included, and the bytes of the stream that it
stands for; text has to start at a character. -/
def fittingData (engine : Base64.Engine) (process : Bool) (left : Bytes) (available : Nat) :
    Option (List Char × Nat) :=
  if process then
    let take := min ((available - 2) / 4 * 3) left.length
    some (engine.encode (left.take take), take)
  else
    (Text.decode left).map fun text =>
      let data := stringWithin text available
      (data, byteLen data)

/-- What a page has in every case. -/
def ToolOutputView.page (view : ToolOutputView) (request : ToolOutputRequest ToolRef) :
    ToolOutputPage ToolRef where
  toolRef := request.toolRef
  stream := request.stream
  encoding := request.stream.encoding
  baseOffset := view.base
  nextOffset := view.observed
  observedEnd := view.observed
  eof := view.complete
  truncated :=
    view.truncated || (!request.stream.isProcess && view.base + view.bytes.length < view.observed)
  availability := view.availability
  data := []

def ToolOutputView.project (engine : Base64.Engine) (view : ToolOutputView)
    (request : ToolOutputRequest ToolRef) (maxBytes : Nat) :
    Except OutputError (ToolOutputPage ToolRef) :=
  let process := request.stream.isProcess
  let retained := view.bytes.length
  let stop := view.base + retained
  let base := view.page request
  if view.corrupt || view.availability = .expired then
    if process && !view.corrupt && view.observed < request.offset then .error .invalidArguments
    else
      encodedPage toolRefLen
        { base with
          baseOffset := if view.corrupt then view.base else view.observed
          eof := view.complete || !process
          truncated := true } maxBytes
  else if view.observed < request.offset || (!view.seen && request.offset ≠ 0) then
    .error .invalidArguments
  else if request.offset < view.base then
    encodedPage toolRefLen
      { base with
        nextOffset := if retained = 0 then view.observed else view.base
        eof := view.complete && retained = 0
        truncated := true
        availability := .partial_ } maxBytes
  else if stop < request.offset then
    encodedPage toolRefLen
      { base with
        baseOffset := request.offset
        eof := true
        truncated := true
        availability := .partial_ } maxBytes
  else
    let left := view.bytes.drop (request.offset - view.base)
    if left.isEmpty then
      encodedPage toolRefLen
        { base with
          baseOffset := request.offset
          nextOffset := request.offset
          eof :=
            if process then view.complete && view.observed ≤ request.offset
            else view.availability ≠ .pending } maxBytes
    else
      let template :=
        { base with baseOffset := request.offset, nextOffset := u64Max, eof := false }
      let envelope := template.encodedLen toolRefLen
      if maxBytes < envelope then .error .invalidArguments
      else
        match fittingData engine process left (maxBytes - envelope + 2) with
        | none => .error .invalidArguments
        | some (data, take) =>
          if take = 0 then .error .invalidArguments
          else
            let next := request.offset + take
            encodedPage toolRefLen
              { base with
                baseOffset := request.offset
                nextOffset := next
                data := data
                eof := if process then view.complete && view.observed ≤ next else stop ≤ next }
              maxBytes

/-- The bytes of the stream that the data of a page stands for. -/
def ToolOutputPage.bytes (engine : Base64.Engine) (page : ToolOutputPage ToolRef) :
    Option Bytes :=
  if page.stream.isProcess then engine.decode page.data else some (encode page.data)

end Pages

section Answers

variable {ToolRef : Type} (toolRefLen : ToolRef → Nat) (engine : Base64.Engine)
  {view : ToolOutputView} {request : ToolOutputRequest ToolRef} {maxBytes : Nat}
  {page : ToolOutputPage ToolRef}

def ToolOutputView.Readable (view : ToolOutputView) : Prop :=
  view.corrupt = false ∧ view.availability ≠ .expired

/-- What a page answers: the stream is freed or damaged, the offset is before, behind or at
the end of the retained bytes, or some of them are shown. -/
inductive PageOf (view : ToolOutputView) (request : ToolOutputRequest ToolRef)
    (page : ToolOutputPage ToolRef) : Prop where
  | unreadable (lost : ¬view.Readable) (next : page.nextOffset = view.observed)
      (eof : page.eof = (view.complete || !request.stream.isProcess)) (data : page.data = [])
  | gap (readable : view.Readable) (before : request.offset < view.base)
      (next : page.nextOffset = if view.bytes.length = 0 then view.observed else view.base)
      (eof : page.eof = (view.complete && decide (view.bytes.length = 0))) (data : page.data = [])
  | beyond (readable : view.Readable) (behind : view.base + view.bytes.length < request.offset)
      (observed : request.offset ≤ view.observed) (seen : view.seen = true)
      (next : page.nextOffset = view.observed) (data : page.data = [])
  | atEnd (readable : view.Readable) (here : request.offset = view.base + view.bytes.length)
      (next : page.nextOffset = request.offset)
      (eof : page.eof = if request.stream.isProcess then
        view.complete && decide (view.observed ≤ request.offset)
        else decide (view.availability ≠ .pending)) (data : page.data = [])
  | shown (readable : view.Readable) (from_base : view.base ≤ request.offset)
      (inside : request.offset < view.base + view.bytes.length) (available take : Nat)
      (fitting : fittingData engine request.stream.isProcess
        (view.bytes.drop (request.offset - view.base)) available = some (page.data, take))
      (some_data : take ≠ 0) (next : page.nextOffset = request.offset + take)
      (eof : page.eof = if request.stream.isProcess then
        view.complete && decide (view.observed ≤ request.offset + take)
        else decide (view.base + view.bytes.length ≤ request.offset + take))

theorem encoded_page_ok {encoded : ToolOutputPage ToolRef}
    (done : encodedPage toolRefLen encoded maxBytes = .ok page) :
    page = encoded ∧ page.encodedLen toolRefLen ≤ maxBytes := by
  rw [encodedPage] at done
  split at done
  · cases done
  · rename_i fits
    cases done
    exact ⟨rfl, Nat.not_lt.mp fits⟩

/-- Every answer is such a page of the requested stream and fits. -/
theorem project_page
    (answered : view.project toolRefLen engine request maxBytes = .ok page) :
    page.encodedLen toolRefLen ≤ maxBytes ∧ page.stream = request.stream ∧
      PageOf engine view request page := by
  simp only [ToolOutputView.project] at answered
  split at answered
  · rename_i lost
    split at answered
    · cases answered
    · obtain ⟨rfl, fits⟩ := encoded_page_ok toolRefLen answered
      refine ⟨fits, rfl, PageOf.unreadable ?_ rfl rfl rfl⟩
      rintro ⟨intact, present⟩
      simp [intact, present] at lost
  · rename_i readable
    have readable : view.Readable := by
      simpa [ToolOutputView.Readable] using readable
    split at answered
    · cases answered
    · rename_i accepted
      have accepted : request.offset ≤ view.observed ∧
          (view.seen = false → request.offset = 0) := by
        simpa [Nat.not_lt] using accepted
      split at answered
      · rename_i before
        obtain ⟨rfl, fits⟩ := encoded_page_ok toolRefLen answered
        exact ⟨fits, rfl, PageOf.gap readable before rfl rfl rfl⟩
      · rename_i from_base
        split at answered
        · rename_i behind
          obtain ⟨rfl, fits⟩ := encoded_page_ok toolRefLen answered
          have seen : view.seen = true := by
            cases shown : view.seen with
            | true => rfl
            | false =>
              have start := accepted.2 shown
              omega
          exact ⟨fits, rfl, PageOf.beyond readable behind accepted.1 seen rfl rfl⟩
        · rename_i inside
          split at answered
          · rename_i empty
            rw [List.isEmpty_iff, List.drop_eq_nil_iff] at empty
            obtain ⟨rfl, fits⟩ := encoded_page_ok toolRefLen answered
            exact ⟨fits, rfl, PageOf.atEnd readable (by omega) rfl rfl rfl⟩
          · rename_i filled
            rw [List.isEmpty_iff, List.drop_eq_nil_iff] at filled
            split at answered
            · cases answered
            · split at answered
              · cases answered
              · rename_i data take fitting
                split at answered
                · cases answered
                · rename_i some_data
                  obtain ⟨rfl, fits⟩ := encoded_page_ok toolRefLen answered
                  exact ⟨fits, rfl, PageOf.shown readable (by omega) (by omega) _ take fitting
                    some_data rfl rfl⟩

/-- The data of a page stands for the first bytes that are left. -/
theorem fitting_data_bytes {process : Bool} {left : Bytes} {available take : Nat}
    {data : List Char} (fitting : fittingData engine process left available = some (data, take)) :
    take ≤ left.length ∧
      (if process then engine.decode data else some (encode data)) = some (left.take take) := by
  rw [fittingData] at fitting
  cases process with
  | true =>
    cases fitting
    exact ⟨Nat.min_le_right _ _, engine.round _⟩
  | false =>
    obtain ⟨text, read, same⟩ := Option.map_eq_some_iff.mp fitting
    cases same
    obtain ⟨rest, whole⟩ := text_within_begins (available - 2) text
    have left_text := Text.encode_of_decode read
    rw [← whole, Text.encode_append] at left_text
    have counted : byteLen (stringWithin text available) =
        (encode (stringWithin text available)).length := (Text.encode_length _).symm
    change left = encode (stringWithin text available) ++ encode rest at left_text
    rw [left_text, counted]
    constructor
    · rw [List.length_append]
      exact Nat.le_add_right _ _
    · rw [List.take_left]
      rfl

end Answers

section Contents

/-- All bytes of a stream that its record speaks of: those pushed to a process stream, and
those retained of a text. -/
def ToolRecord.streamBytes (record : ToolRecord) (pushed : ToolDataStream → Bytes)
    (stream : ToolDataStream) : Bytes :=
  match stream with
  | .stdout | .stderr => pushed stream
  | .input => encode record.input.text
  | .output => encode record.result.text

/-- The views that a stream is paged from: of a record in memory, and of a finished record
that was saved. -/
inductive ViewOf (stream : ToolDataStream) : ToolOutputView → Bytes → Prop where
  | live {record : ToolRecord} {pushed : ToolDataStream → Bytes} (reached : Reached record pushed) :
      ViewOf stream (record.outputView stream) (record.streamBytes pushed stream)
  | stored {record : ToolRecord} {pushed : ToolDataStream → Bytes} {blob : ToolBlob}
      (reached : Reached record pushed) (ended : record.isTerminal = true)
      (read : ReadBlob (record.savedBlob stream) blob) :
      ViewOf stream (record.storedView stream blob) (record.streamBytes pushed stream)

/-- What a view says about the bytes of its stream. -/
structure Shows (stream : ToolDataStream) (view : ToolOutputView) (bytes : Bytes) : Prop where
  inside : view.base ≤ bytes.length
  kept : view.Readable → view.bytes = bytes.drop view.base
  observed : bytes.length ≤ view.observed
  exactly : stream.isProcess = true → view.observed = bytes.length
  whole : stream.isProcess = false → view.base = 0
  unseen : view.seen = false → bytes = []
  settled : stream.isProcess = false → view.Readable → view.availability ≠ .pending →
    view.seen = true ∨ view.complete = true

theorem Shows.window {window : StreamWindow} {pushed : Bytes} (holds : WindowHolds window pushed)
    {stream : ToolDataStream} (process : stream.isProcess = true) (final : Bool) :
    Shows stream (windowView window final) pushed where
  inside := holds.inside
  kept := fun _ => holds.kept
  observed := Nat.le_of_eq holds.observed.symm
  exactly := fun _ => holds.observed
  whole := fun text => by rw [process] at text; cases text
  unseen := holds.unseen
  settled := fun text => by rw [process] at text; cases text

/-- What was retained when it was saved is read back as it was. -/
theorem saved_bytes (bytes : Bytes) : (snapshotBlob bytes false).getD [] = bytes := by
  rw [snapshotBlob, Bool.false_or]
  split
  · rename_i empty
    exact (List.isEmpty_iff.mp empty).symm
  · rfl

/-- Reading the saved bytes of a window back gives the window, unless they are lost. -/
theorem stored_window_shows {window : StreamWindow} {pushed : Bytes}
    (holds : WindowHolds window pushed) {stream : ToolDataStream}
    (process : stream.isProcess = true) (terminal : Bool) {blob : ToolBlob}
    (read : ReadBlob (snapshotBlob window.bytes window.expired) blob) :
    Shows stream (storedWindowView window terminal blob) pushed where
  inside := holds.inside
  kept := by
    rintro ⟨intact, present⟩
    cases read with
    | damaged saved => cases intact
    | found =>
      have retained : window.expired = false := by
        cases freed : window.expired with
        | false => rfl
        | true =>
          exact absurd (by simp [storedWindowView, windowView, windowAvailability, freed]) present
      calc (snapshotBlob window.bytes window.expired).getD [] = window.bytes := by
            rw [retained, saved_bytes]
        _ = pushed.drop window.startOffset := holds.kept
  observed := Nat.le_of_eq holds.observed.symm
  exactly := fun _ => holds.observed
  whole := fun text => by rw [process] at text; cases text
  unseen := holds.unseen
  settled := fun text => by rw [process] at text; cases text

theorem text_settled {seen terminal : Bool} {retained total : Nat} {expired truncated : Bool}
    (present : streamAvailability seen expired terminal retained total truncated ≠ .expired)
    (known : streamAvailability seen expired terminal retained total truncated ≠ .pending) :
    seen = true ∨ terminal = true := by
  cases seen with
  | true => exact Or.inl rfl
  | false =>
    cases terminal with
    | true => exact Or.inr rfl
    | false => cases expired <;> simp [streamAvailability] at present known

theorem Shows.text {text : TextStream} (holds : TextHolds text) {stream : ToolDataStream}
    (plain : stream.isProcess = false) (terminal : Bool) :
    Shows stream (textView text (encode text.text) terminal) (encode text.text) where
  inside := Nat.zero_le _
  kept := fun _ => rfl
  observed := by
    rw [Text.encode_length]
    exact holds.short
  exactly := fun process => by rw [plain] at process; cases process
  whole := fun _ => rfl
  unseen := fun unseen => by rw [holds.unseen unseen]; rfl
  settled := by
    rintro - ⟨-, present⟩ known
    simp only [textView, holds.intact, if_neg Bool.false_ne_true] at present known
    exact text_settled present known

theorem stored_text_shows {text : TextStream} (holds : TextHolds text) {stream : ToolDataStream}
    (plain : stream.isProcess = false) (terminal : Bool) {retained : Nat} {blob : ToolBlob}
    (read : ReadBlob (snapshotBlob (encode text.text) text.expired) blob) :
    Shows stream (storedTextView text terminal retained blob) (encode text.text) where
  inside := Nat.zero_le _
  kept := by
    rintro ⟨intact, present⟩
    cases read with
    | damaged saved => cases intact
    | found =>
      have retained : text.expired = false := by
        cases freed : text.expired with
        | false => rfl
        | true =>
          simp only [storedTextView, textView] at intact present
          rw [intact, freed] at present
          exact absurd rfl present
      change (snapshotBlob (encode text.text) text.expired).getD [] = encode text.text
      rw [retained, saved_bytes]
  observed := by
    rw [Text.encode_length]
    exact holds.short
  exactly := fun process => by rw [plain] at process; cases process
  whole := fun _ => rfl
  unseen := fun unseen => by rw [holds.unseen unseen]; rfl
  settled := by
    rintro - ⟨intact, present⟩ known
    simp only [storedTextView, textView] at intact present known
    rw [intact] at present known
    exact text_settled present known

theorem view_shows {stream : ToolDataStream} {view : ToolOutputView} {bytes : Bytes}
    (of : ViewOf stream view bytes) : Shows stream view bytes := by
  cases of with
  | live reached =>
    have holds := reached_holds reached
    cases stream with
    | input => exact Shows.text holds.input rfl _
    | output => exact Shows.text holds.result rfl _
    | stdout => exact Shows.window holds.stdout rfl _
    | stderr => exact Shows.window holds.stderr rfl _
  | stored reached ended read =>
    have holds := reached_holds reached
    cases stream with
    | input => exact stored_text_shows holds.input rfl _ read
    | output => exact stored_text_shows holds.result rfl _ read
    | stdout => exact stored_window_shows holds.stdout rfl _ read
    | stderr => exact stored_window_shows holds.stderr rfl _ read

end Contents

section Following

variable {ToolRef : Type} (toolRefLen : ToolRef → Nat) (engine : Base64.Engine)
  {stream : ToolDataStream} {view : ToolOutputView} {bytes : Bytes}
  {request : ToolOutputRequest ToolRef} {maxBytes : Nat} {page : ToolOutputPage ToolRef}

/-- Following the offsets of the pages of a stream: from the start of the retained bytes on,
while more bytes arrive and the views change. A gap begins anew where the bytes that are
still retained start. -/
inductive Followed (stream : ToolDataStream) : Bytes → Nat → Nat → Bytes → Prop where
  | start {view : ToolOutputView} {bytes : Bytes} (of : ViewOf stream view bytes) :
      Followed stream bytes view.base view.base []
  | grown {bytes collected : Bytes} {start offset : Nat}
      (before : Followed stream bytes start offset collected) (more : Bytes) :
      Followed stream (bytes ++ more) start offset collected
  | page {view : ToolOutputView} {bytes collected : Bytes} {start offset : Nat}
      (before : Followed stream bytes start offset collected) (of : ViewOf stream view bytes)
      (readable : view.Readable) (retained : view.base ≤ offset) {toolRef : ToolRef}
      {maxBytes : Nat} {page : ToolOutputPage ToolRef}
      (answered : view.project toolRefLen engine ⟨toolRef, stream, offset⟩ maxBytes = .ok page) :
      Followed stream bytes start page.nextOffset (collected ++ (page.bytes engine).getD [])
  | gap {view : ToolOutputView} {bytes collected : Bytes} {start offset : Nat}
      (before : Followed stream bytes start offset collected) (of : ViewOf stream view bytes)
      (readable : view.Readable) (evicted : offset < view.base) {toolRef : ToolRef}
      {maxBytes : Nat} {page : ToolOutputPage ToolRef}
      (answered : view.project toolRefLen engine ⟨toolRef, stream, offset⟩ maxBytes = .ok page) :
      Followed stream bytes page.nextOffset page.nextOffset []

/-- The bytes that the pages of one view give, offset after offset, up to the end of what is
retained. -/
def ToolOutputView.follow (view : ToolOutputView) (toolRef : ToolRef) (stream : ToolDataStream)
    (maxBytes : Nat) : Nat → Nat → Except OutputError Bytes
  | 0, _ => .ok []
  | fuel + 1, offset =>
    if view.base + view.bytes.length ≤ offset then .ok []
    else do
      let page ← view.project toolRefLen engine ⟨toolRef, stream, offset⟩ maxBytes
      let rest ← view.follow toolRef stream maxBytes fuel page.nextOffset
      .ok ((page.bytes engine).getD [] ++ rest)

/-- A page has the bytes from the offset of its request to its own next offset. -/
theorem page_bytes (shows_ : Shows stream view bytes) (readable : view.Readable)
    (retained : view.base ≤ request.offset) (short : request.offset ≤ bytes.length)
    (answered : view.project toolRefLen engine request maxBytes = .ok page) :
    request.offset ≤ page.nextOffset ∧ page.nextOffset ≤ bytes.length ∧
      page.bytes engine =
        some ((bytes.drop request.offset).take (page.nextOffset - request.offset)) := by
  obtain ⟨-, stream_eq, answer⟩ := project_page toolRefLen engine answered
  have kept := shows_.kept readable
  have lengths := congrArg List.length kept
  have inside := shows_.inside
  rw [List.length_drop] at lengths
  have empty (nothing : page.data = []) : page.bytes engine = some [] := by
    rw [ToolOutputPage.bytes, nothing]
    split
    · exact engine.decode_nothing
    · rfl
  cases answer with
  | unreadable lost => exact absurd readable lost
  | gap _ before => omega
  | beyond _ behind => omega
  | atEnd _ here next eof data =>
    refine ⟨by omega, by omega, ?_⟩
    rw [empty data, next, Nat.sub_self, List.take_zero]
  | shown _ _ inside available take fitting some_data next eof =>
    obtain ⟨fits, read⟩ := fitting_data_bytes engine fitting
    rw [List.length_drop] at fits
    refine ⟨by omega, by omega, ?_⟩
    rw [ToolOutputPage.bytes, stream_eq, read, next, kept, List.drop_drop,
      Nat.add_sub_cancel_left, Nat.add_sub_cancel' retained]

/-- A gap points to a place in the stream. -/
theorem gap_inside (shows_ : Shows stream view bytes) (readable : view.Readable)
    (evicted : request.offset < view.base)
    (answered : view.project toolRefLen engine request maxBytes = .ok page) :
    page.nextOffset ≤ bytes.length := by
  obtain ⟨-, -, answer⟩ := project_page toolRefLen engine answered
  have inside := shows_.inside
  cases answer with
  | unreadable lost => exact absurd readable lost
  | gap _ _ next =>
    -- a text is retained from its beginning on, so this is a process stream
    have process : stream.isProcess = true := by
      cases kind : stream.isProcess with
      | true => rfl
      | false =>
        have base := shows_.whole kind
        omega
    have observed := shows_.exactly process
    split at next <;> omega
  | beyond _ behind => omega
  | atEnd _ here => omega
  | shown _ from_base => omega

/-- What was collected lies, without a gap, between the start and the present offset. -/
theorem followed_segment {start offset : Nat} {collected : Bytes}
    (followed : Followed toolRefLen engine stream bytes start offset collected) :
    start ≤ offset ∧ offset ≤ bytes.length ∧
      collected = (bytes.drop start).take (offset - start) := by
  induction followed with
  | start of =>
    refine ⟨Nat.le_refl _, (view_shows of).inside, ?_⟩
    rw [Nat.sub_self, List.take_zero]
  | @grown bytes collected start offset before more inductionHypothesis =>
    obtain ⟨ordered, short, segment⟩ := inductionHypothesis
    refine ⟨ordered, ?_, ?_⟩
    · rw [List.length_append]
      omega
    · rw [segment, List.drop_append_of_le_length (by omega),
        List.take_append_of_le_length (by rw [List.length_drop]; omega)]
  | @page view bytes collected start offset before of readable retained toolRef maxBytes page
      answered inductionHypothesis =>
    obtain ⟨ordered, short, segment⟩ := inductionHypothesis
    obtain ⟨later, inside, read⟩ :=
      page_bytes toolRefLen engine (view_shows of) readable retained short answered
    dsimp only at later read
    refine ⟨Nat.le_trans ordered later, inside, ?_⟩
    have split_at : page.nextOffset - start = (offset - start) + (page.nextOffset - offset) := by
      omega
    rw [read, segment, split_at, List.take_add, List.drop_drop, Nat.add_sub_cancel' ordered,
      Option.getD_some]
  | @gap view bytes collected start offset before of readable evicted toolRef maxBytes page
      answered inductionHypothesis =>
    have inside := gap_inside toolRefLen engine (view_shows of) readable evicted answered
    refine ⟨Nat.le_refl _, inside, ?_⟩
    rw [Nat.sub_self, List.take_zero]

/-- As long as stream bytes are left behind its offset, a page advances. -/
theorem page_advances (shows_ : Shows stream view bytes) (short : request.offset < bytes.length)
    (answered : view.project toolRefLen engine request maxBytes = .ok page) :
    request.offset < page.nextOffset := by
  obtain ⟨-, -, answer⟩ := project_page toolRefLen engine answered
  have observed := shows_.observed
  cases answer with
  | unreadable lost next => omega
  | gap readable before next =>
    split at next <;> omega
  | beyond readable behind _ _ next => omega
  | atEnd readable here next =>
    have lengths := congrArg List.length (shows_.kept readable)
    rw [List.length_drop] at lengths
    have inside := shows_.inside
    omega
  | shown _ _ _ _ take _ some_data next => omega

/-- An end of a process stream is reported once its observation ended and nothing is left. -/
theorem process_end (shows_ : Shows request.stream view bytes)
    (process : request.stream.isProcess = true)
    (answered : view.project toolRefLen engine request maxBytes = .ok page)
    (eof : page.eof = true) : view.complete = true ∧ bytes.length ≤ page.nextOffset := by
  obtain ⟨-, -, answer⟩ := project_page toolRefLen engine answered
  have observed := shows_.observed
  have exactly := shows_.exactly process
  cases answer with
  | unreadable lost next ended =>
    rw [eof, process, Bool.not_true, Bool.or_false] at ended
    exact ⟨ended.symm, by omega⟩
  | gap readable before next ended =>
    rw [eof, eq_comm, Bool.and_eq_true, decide_eq_true_eq] at ended
    rw [if_pos ended.2] at next
    exact ⟨ended.1, by omega⟩
  | beyond readable behind inside =>
    have lengths := congrArg List.length (shows_.kept readable)
    rw [List.length_drop] at lengths
    omega
  | atEnd readable here next ended =>
    rw [eof, if_pos process, eq_comm, Bool.and_eq_true, decide_eq_true_eq] at ended
    exact ⟨ended.1, by omega⟩
  | shown readable _ _ _ take _ some_data next ended =>
    rw [eof, if_pos process, eq_comm, Bool.and_eq_true, decide_eq_true_eq] at ended
    exact ⟨ended.1, by omega⟩

/-- An end of a text is reported once the text is recorded or the call ended, and nothing
is left. -/
theorem text_end (shows_ : Shows request.stream view bytes)
    (plain : request.stream.isProcess = false) (readable : view.Readable)
    (answered : view.project toolRefLen engine request maxBytes = .ok page)
    (eof : page.eof = true) :
    (view.seen = true ∨ view.complete = true) ∧ bytes.length ≤ page.nextOffset := by
  obtain ⟨-, -, answer⟩ := project_page toolRefLen engine answered
  have observed := shows_.observed
  have base := shows_.whole plain
  have lengths := congrArg List.length (shows_.kept readable)
  rw [List.length_drop] at lengths
  cases answer with
  | unreadable lost => exact absurd readable lost
  | gap _ before => omega
  | beyond _ _ _ seen next => exact ⟨Or.inl seen, by omega⟩
  | atEnd _ here next ended =>
    rw [eof, plain, if_neg Bool.false_ne_true, eq_comm, decide_eq_true_eq] at ended
    exact ⟨shows_.settled plain readable ended, by omega⟩
  | shown _ _ inside _ take _ some_data next ended =>
    rw [eof, plain, if_neg Bool.false_ne_true, eq_comm, decide_eq_true_eq] at ended
    have seen : view.seen = true := by
      cases known : view.seen with
      | true => rfl
      | false =>
        rw [shows_.unseen known, List.length_nil] at lengths
        omega
    exact ⟨Or.inl seen, by omega⟩

/-- When every page on the way succeeds, following the offsets of one view collects what is
retained from the first offset on. -/
theorem follow_collects (shows_ : Shows stream view bytes) (readable : view.Readable)
    (toolRef : ToolRef) (fuel offset : Nat) (retained : view.base ≤ offset)
    (short : offset ≤ bytes.length) (enough : bytes.length ≤ offset + fuel) {collected : Bytes}
    (done : view.follow toolRefLen engine toolRef stream maxBytes fuel offset = .ok collected) :
    collected = bytes.drop offset := by
  induction fuel generalizing offset collected with
  | zero =>
    cases done
    exact (List.drop_eq_nil_of_le enough).symm
  | succ fuel inductionHypothesis =>
    have lengths := congrArg List.length (shows_.kept readable)
    have inside := shows_.inside
    rw [List.length_drop] at lengths
    rw [ToolOutputView.follow] at done
    split at done
    · cases done
      rw [List.drop_eq_nil_of_le (by omega)]
    · rename_i left
      obtain ⟨page, answered, done⟩ := Results.bind_ok.mp done
      obtain ⟨rest, followed, done⟩ := Results.bind_ok.mp done
      cases done
      obtain ⟨later, within, read⟩ :=
        page_bytes toolRefLen engine shows_ readable retained short answered
      have advanced := page_advances toolRefLen engine shows_ (by dsimp only; omega) answered
      dsimp only at later read advanced
      rw [inductionHypothesis page.nextOffset (by omega) within (by omega) followed, read,
        Option.getD_some]
      have onward : page.nextOffset = offset + (page.nextOffset - offset) := by omega
      calc (bytes.drop offset).take (page.nextOffset - offset) ++ bytes.drop page.nextOffset
          = (bytes.drop offset).take (page.nextOffset - offset) ++
              (bytes.drop offset).drop (page.nextOffset - offset) := by
            rw [List.drop_drop, ← onward]
        _ = bytes.drop offset := List.take_append_drop _ _

end Following

section Paging

variable {ToolRef : Type} (toolRefLen : ToolRef → Nat) (engine : Base64.Engine)
  {stream : ToolDataStream} {view : ToolOutputView} {bytes : Bytes}

/-- The pages of a stream give its bytes in order, each within the bytes of its answer. -/
theorem tool_output_is_paged (of : ViewOf stream view bytes) :
    (∀ start offset collected, Followed toolRefLen engine stream bytes start offset collected →
      start ≤ offset ∧ offset ≤ bytes.length ∧
        collected = (bytes.drop start).take (offset - start)) ∧
    (view.Readable → view.bytes = bytes.drop view.base ∧
      ∀ toolRef maxBytes collected,
        view.follow toolRefLen engine toolRef stream maxBytes view.bytes.length view.base =
          .ok collected → collected = view.bytes) ∧
    ∀ request maxBytes page, request.stream = stream →
      view.project toolRefLen engine request maxBytes = .ok page →
        page.encodedLen toolRefLen ≤ maxBytes ∧
        (request.offset < bytes.length → request.offset < page.nextOffset) ∧
        (page.eof = true → stream.isProcess = true →
          view.complete = true ∧ bytes.length ≤ page.nextOffset) ∧
        (page.eof = true → stream.isProcess = false → view.Readable →
          (view.seen = true ∨ view.complete = true) ∧ bytes.length ≤ page.nextOffset) := by
  have shows_ := view_shows of
  refine ⟨fun start offset collected followed => followed_segment toolRefLen engine followed,
    ?_, ?_⟩
  · intro readable
    have kept := shows_.kept readable
    have inside := shows_.inside
    have lengths := congrArg List.length kept
    rw [List.length_drop] at lengths
    refine ⟨kept, fun toolRef maxBytes collected done => ?_⟩
    rw [kept]
    exact follow_collects toolRefLen engine shows_ readable toolRef view.bytes.length view.base
      (Nat.le_refl _) inside (by omega) done
  · rintro request maxBytes page rfl answered
    refine ⟨(project_page toolRefLen engine answered).1, ?_, ?_, ?_⟩
    · intro short
      exact page_advances toolRefLen engine shows_ short answered
    · intro eof process
      exact process_end toolRefLen engine shows_ process answered eof
    · intro eof plain readable
      exact text_end toolRefLen engine shows_ plain readable answered eof

/-- The record of a call that was only requested: its arguments are known, it did not end. -/
def requestedCall : ToolRecord := ToolRecord.noteInvocation {} ['{', '}']

/-- Its arguments are shown to their end, where a page does not advance, while the call goes
on. -/
theorem requested_call_reports_eof :
    Reached requestedCall (fun _ => []) ∧ requestedCall.isTerminal = false ∧
      ((requestedCall.outputView .input).project (fun _ => 2) Base64.standard
        ⟨(), .input, 0⟩ 4096).map (fun page => (page.nextOffset, page.eof)) = .ok (2, true) ∧
      ((requestedCall.outputView .input).project (fun _ => 2) Base64.standard
        ⟨(), .input, 2⟩ 4096).map (fun page => (page.nextOffset, page.eof)) = .ok (2, true) := by
  refine ⟨Reached.new.invoked ['{', '}'], rfl, ?_, ?_⟩
  · rfl
  · rfl

/-- A command that wrote three bytes and ended. -/
def endedCommand : ToolRecord :=
  ((ToolRecord.noteStreamChunk {} .stdout [104, 105, 10]).noteStreamEnd .stdout)

theorem ended_command_is_paged :
    ∃ collected, (endedCommand.outputView .stdout).follow (fun _ => 2) Base64.standard ()
        .stdout 4096 3 0 = .ok collected ∧ collected = [104, 105, 10] := by
  have of : ViewOf .stdout (endedCommand.outputView .stdout) [104, 105, 10] :=
    ViewOf.live ((Reached.new.chunk .stdout [104, 105, 10]).finished .stdout)
  have paged := (tool_output_is_paged (fun _ : Unit => 2) Base64.standard of).2.1
    ⟨rfl, by decide⟩
  exact ⟨_, rfl, paged.2 () 4096 _ rfl⟩

end Paging

end MinicoreAgent.Tools

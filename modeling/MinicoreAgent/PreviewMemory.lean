import MinicoreAgent.PreviewParser

/-!
# What a preview parser retains

A parser charges the capacities of its two buffers, and the stream is charged the same. Growth
stays below both limits whatever the allocator gives, and a parser that fails returns what it
was charged.
-/
namespace MinicoreAgent.Preview

open Text

variable {grant : Nat → Nat → Option Nat}

section Appending

variable {text : Buffer} {value : List Char} {heap : Heap}

theorem push_capacity (fits : byteLen text.text + byteLen value ≤ text.capacity) :
    (text.push value).capacity = text.capacity := by
  have within : byteLen (text.text ++ value) ≤ text.capacity := by
    rw [byte_len_append]
    exact fits
  exact Nat.max_eq_left within

/-- What a reservation of more than the buffer has leaves of it. -/
theorem reserve_exact_spec (grant : Nat → Nat → Option Nat) (heap : Heap) {requested : Nat}
    (more : text.capacity < requested) :
    ∃ actual grants reserved,
      text.reserveExact grant heap (requested - byteLen text.text) =
        (actual, { heap with grants := grants }, reserved) ∧
      actual.text = text.text ∧
      (reserved = true ∧ requested ≤ actual.capacity ∨
        reserved = false ∧ actual.capacity = text.capacity) := by
  have fits := text.fits
  rw [Buffer.reserveExact, if_neg (by omega)]
  dsimp only
  split
  · exact ⟨_, _, _, rfl, rfl, .inr ⟨rfl, rfl⟩⟩
  · refine ⟨_, _, _, rfl, rfl, .inl ⟨rfl, ?_⟩⟩
    dsimp only
    omega

/-- What came of an append: the text with the value, or what was there before, or nothing. Its
capacity is within the limit, unless it is what it was. -/
structure Appended (text : Buffer) (value : List Char) (limit : Nat) (buffer : Buffer)
    (kept : Bool) : Prop where
  shows : kept = true ∧ buffer.text = text.text ++ value ∨
    kept = false ∧ (buffer.text = text.text ∨ buffer.text = [])
  capacity : buffer.capacity = text.capacity ∨ buffer.capacity ≤ limit

theorem append_spec (grant : Nat → Nat → Option Nat) (text : Buffer) (value : List Char)
    (limit : Nat) (heap : Heap) :
    ∃ buffer grants kept, text.append grant value limit heap =
      (buffer, { heap with grants := grants }, kept) ∧
      Appended text value limit buffer kept := by
  rw [Buffer.append]
  dsimp only
  split
  · exact ⟨_, _, _, rfl, .inr ⟨rfl, .inl rfl⟩, .inl rfl⟩
  · rename_i room
    split
    · rename_i more
      obtain ⟨actual, grants, reserved, result, same, grown⟩ :=
        reserve_exact_spec grant heap (show text.capacity <
          min (max (max (text.capacity * 2) 8) (byteLen text.text + byteLen value)) limit by omega)
      rw [result]
      dsimp only
      split
      · exact ⟨_, _, _, rfl, .inr ⟨rfl, .inr rfl⟩, .inr (Nat.zero_le limit)⟩
      · rename_i within
        rcases grown with ⟨rfl, enough⟩ | ⟨rfl, unchanged⟩
        · have fits : byteLen actual.text + byteLen value ≤ actual.capacity := by
            rw [same]
            omega
          refine ⟨actual.push value, grants, true, rfl, .inl ⟨rfl, ?_⟩, .inr ?_⟩
          · rw [push_text, same]
          · rw [push_capacity fits]
            exact Nat.le_of_not_lt within
        · exact ⟨_, _, _, rfl, .inr ⟨rfl, .inl same⟩, .inl unchanged⟩
    · rename_i fits
      exact ⟨_, _, _, rfl, .inl ⟨rfl, rfl⟩, .inl (push_capacity (Nat.le_of_not_lt fits))⟩

end Appending

section Balance

/-- The capacity of a buffer that may not be there. -/
def capacityOf (buffer : Option Buffer) : Nat := (buffer.map Buffer.capacity).getD 0

/-- A parser is charged what its buffers have, the stream what all its parsers are charged, and
neither is charged more than its limit. -/
structure Balanced (others : Nat) (shown : Shown) (heap : Heap) : Prop where
  retained : shown.retained = capacityOf shown.path + capacityOf shown.content
  call : shown.retained ≤ maxCallBytes
  stream : heap.bytes = others + shown.retained
  total : heap.bytes ≤ maxStreamBytes
  sound : heap.faulted = false

variable {others : Nat} {shown : Shown} {heap : Heap} {body : Bool} {text : Buffer}
  {value : List Char}

/-- The capacity of the buffer that is not grown. -/
def Shown.otherCapacity (shown : Shown) (body : Bool) : Nat := capacityOf (shown.buffer !body)

theorem balanced_parts (balanced : Balanced others shown heap)
    (present : shown.buffer body = some text) :
    shown.retained = shown.otherCapacity body + text.capacity := by
  rw [balanced.retained]
  cases body with
  | true =>
    have content : shown.content = some text := present
    rw [content]
    rfl
  | false =>
    have path : shown.path = some text := present
    rw [path, Nat.add_comm]
    rfl

theorem set_buffer_retained (shown : Shown) (body : Bool) (buffer : Buffer) (retained : Nat) :
    (shown.setBuffer body buffer retained).retained = retained := by
  cases body with
  | true => rfl
  | false => rfl

theorem set_buffer_capacities (shown : Shown) (body : Bool) (buffer : Buffer) (retained : Nat) :
    capacityOf (shown.setBuffer body buffer retained).path +
      capacityOf (shown.setBuffer body buffer retained).content =
        shown.otherCapacity body + buffer.capacity := by
  cases body with
  | true => rfl
  | false => exact Nat.add_comm _ _

theorem set_buffer_own (shown : Shown) (body : Bool) (buffer : Buffer) (retained : Nat) :
    (shown.setBuffer body buffer retained).buffer body = some buffer := by
  cases body with
  | true => rfl
  | false => rfl

theorem set_cut_buffer (shown : Shown) (body : Bool) :
    (shown.setCut body).changed.buffer body = shown.buffer body := by
  cases body with
  | true => rfl
  | false => rfl

theorem changed_cut (shown : Shown) (body : Bool) : shown.changed.cut body = shown.cut body := by
  cases body with
  | true => rfl
  | false => rfl

theorem set_cut_cut (shown : Shown) (body : Bool) : (shown.setCut body).cut body = true := by
  cases body with
  | true => rfl
  | false => rfl

/-- A buffer within the limit of its capacity keeps the balance. -/
theorem set_buffer_balanced {buffer : Buffer} {grants : Nat}
    (balanced : Balanced others shown heap) (present : shown.buffer body = some text)
    (capacity : buffer.capacity = text.capacity ∨ buffer.capacity ≤
      capacityLimit body (shown.retained - text.capacity) (heap.bytes - text.capacity)) :
    Balanced others
      (shown.setBuffer body buffer (shown.retained - text.capacity + buffer.capacity))
      { bytes := heap.bytes - text.capacity + buffer.capacity
        grants := grants
        faulted := heap.faulted || shown.retained < text.capacity || heap.bytes < text.capacity } := by
  have parts := balanced_parts balanced present
  have call := balanced.call
  have stream := balanced.stream
  have total := balanced.total
  have limits : buffer.capacity = text.capacity ∨
      buffer.capacity ≤ maxCallBytes - (shown.retained - text.capacity) ∧
        buffer.capacity ≤ maxStreamBytes - (heap.bytes - text.capacity) := by
    rcases capacity with same | within
    · exact .inl same
    · rw [capacityLimit] at within
      exact .inr ⟨Nat.le_trans within (by omega), Nat.le_trans within (by omega)⟩
  constructor
  · rw [set_buffer_retained, set_buffer_capacities]
    omega
  · rw [set_buffer_retained]
    omega
  · rw [set_buffer_retained]
    dsimp only
    omega
  · dsimp only
    omega
  · dsimp only
    rw [balanced.sound, decide_eq_false (by omega), decide_eq_false (by omega)]
    rfl

/-- What an append to a text that is there changes, and what it keeps. -/
theorem append_display_spec (grant : Nat → Nat → Option Nat) (heap : Heap) (value : List Char)
    (present : shown.buffer body = some text) :
    ∃ buffer retained after kept, shown.appendDisplay grant body value heap =
        (shown.setBuffer body buffer retained, after, kept) ∧
      (kept = true ∧ buffer.text = text.text ++ value ∨
        kept = false ∧ (buffer.text = text.text ∨ buffer.text = [])) ∧
      ∀ others, Balanced others shown heap →
        Balanced others (shown.setBuffer body buffer retained) after := by
  obtain ⟨buffer, grants, kept, result, appended⟩ := append_spec grant text value
    (capacityLimit body (shown.retained - text.capacity) (heap.bytes - text.capacity)) heap
  refine ⟨buffer, shown.retained - text.capacity + buffer.capacity,
    { bytes := heap.bytes - text.capacity + buffer.capacity
      grants := grants
      faulted := heap.faulted || shown.retained < text.capacity || heap.bytes < text.capacity },
    kept, ?_, appended.shows,
    fun others balanced => set_buffer_balanced balanced present appended.capacity⟩
  rw [Shown.appendDisplay, present]
  dsimp only
  rw [result]

/-- Only the one text changes, which is there afterwards. -/
structure Touches (body : Bool) (shown after : Shown) : Prop where
  own : (after.buffer body).isSome
  other : after.buffer (!body) = shown.buffer (!body)
  otherCut : after.cut (!body) = shown.cut (!body)
  offset : after.offset = shown.offset
  limit : after.limit = shown.limit

theorem set_buffer_touches (shown : Shown) (body : Bool) (buffer : Buffer) (retained : Nat) :
    Touches body shown (shown.setBuffer body buffer retained) := by
  cases body with
  | true => exact ⟨rfl, rfl, rfl, rfl, rfl⟩
  | false => exact ⟨rfl, rfl, rfl, rfl, rfl⟩

theorem Touches.setCut {after : Shown} (touches : Touches body shown after) :
    Touches body shown (after.setCut body) := by
  cases body with
  | true => exact ⟨touches.own, touches.other, touches.otherCut, touches.offset, touches.limit⟩
  | false => exact ⟨touches.own, touches.other, touches.otherCut, touches.offset, touches.limit⟩

theorem Touches.changed {after : Shown} (touches : Touches body shown after) :
    Touches body shown after.changed := by
  cases body with
  | true => exact ⟨touches.own, touches.other, touches.otherCut, touches.offset, touches.limit⟩
  | false => exact ⟨touches.own, touches.other, touches.otherCut, touches.offset, touches.limit⟩

theorem Balanced.changed (balanced : Balanced others shown heap) :
    Balanced others shown.changed heap :=
  ⟨balanced.retained, balanced.call, balanced.stream, balanced.total, balanced.sound⟩

theorem Balanced.setCut (balanced : Balanced others shown heap) (body : Bool) :
    Balanced others (shown.setCut body) heap := by
  cases body with
  | true =>
    exact ⟨balanced.retained, balanced.call, balanced.stream, balanced.total, balanced.sound⟩
  | false =>
    exact ⟨balanced.retained, balanced.call, balanced.stream, balanced.total, balanced.sound⟩

/-- The text of a buffer shows the characters so far, or a beginning of them once it is cut. -/
structure Holds (shown : Shown) (body : Bool) (buffer : Buffer) (chars : List Char) : Prop where
  front : buffer.text <+: chars.flatMap (sanitize body)
  whole : shown.cut body = false → buffer.text = chars.flatMap (sanitize body)

/-- A captured character is shown, or the text is cut; nothing else changes. -/
theorem capture_spec (grant : Nat → Nat → Option Nat) (heap : Heap)
    (present : shown.buffer body = some text) (char : Char) :
    ∃ after later, shown.capture grant body char heap = (after, later) ∧
      Touches body shown after ∧
      (∀ others, Balanced others shown heap → Balanced others after later) ∧
      ∀ chars, Holds shown body text chars →
        ∃ buffer, after.buffer body = some buffer ∧ Holds after body buffer (chars ++ [char]) := by
  rw [Shown.capture]
  split
  · rename_i cut
    refine ⟨shown, heap, rfl, ⟨by rw [present]; rfl, rfl, rfl, rfl, rfl⟩,
      fun others balanced => balanced, fun chars holds => ⟨text, present, ?_, ?_⟩⟩
    · rw [List.flatMap_append]
      exact holds.front.trans (List.prefix_append _ _)
    · intro uncut
      rw [cut] at uncut
      cases uncut
  · rename_i uncut
    obtain ⟨buffer, retained, later, kept, result, shows, balance⟩ :=
      append_display_spec grant heap (sanitize body char) present
    rw [result]
    dsimp only
    have touches := set_buffer_touches shown body buffer retained
    rcases shows with ⟨rfl, appended⟩ | ⟨rfl, dropped⟩
    · rw [if_pos rfl]
      refine ⟨_, _, rfl, touches.changed, fun others balanced => (balance others balanced).changed,
        fun chars holds => ⟨buffer, set_buffer_own .., ?_⟩⟩
      have all : buffer.text = (chars ++ [char]).flatMap (sanitize body) := by
        rw [appended, holds.whole (Bool.eq_false_iff.mpr uncut), List.flatMap_append,
          List.flatMap_singleton]
      exact ⟨all ▸ List.prefix_rfl, fun _ => all⟩
    · rw [if_neg Bool.false_ne_true]
      refine ⟨_, _, rfl, touches.setCut.changed,
        fun others balanced => ((balance others balanced).setCut body).changed,
        fun chars holds => ⟨buffer, (set_cut_buffer ..).trans (set_buffer_own ..), ?_, ?_⟩⟩
      · rw [List.flatMap_append]
        rcases dropped with same | nothing
        · rw [same]
          exact holds.front.trans (List.prefix_append _ _)
        · rw [nothing]
          exact List.nil_prefix
      · intro whole
        rw [changed_cut, set_cut_cut] at whole
        cases whole

/-- What is ready for a body: an empty text, and a text for the path, new and empty if there was
none. -/
structure Prepares (shown after : Shown) : Prop where
  content : after.content = some .empty
  path : ∃ buffer, after.path = some buffer ∧
    (shown.path = some buffer ∨ shown.path = none ∧ buffer.text = [])
  pathCut : after.pathCut = shown.pathCut
  bodyCut : after.bodyCut = shown.bodyCut
  offset : after.offset = shown.offset
  limit : after.limit = shown.limit

theorem start_body_spec (grant : Nat → Nat → Option Nat) (shown : Shown) (heap : Heap) :
    ∃ after later, shown.startText grant .content heap = (after, later) ∧
      Prepares shown after ∧
      ∀ others, shown.content = none → Balanced others shown heap → Balanced others after later := by
  rw [Shown.startText, Shown.reservePath]
  have emptied {shown : Shown} {heap : Heap} {others : Nat} (none : shown.content = none)
      (balanced : Balanced others shown heap) :
      Balanced others { shown with content := some .empty } heap := by
    refine ⟨?_, balanced.call, balanced.stream, balanced.total, balanced.sound⟩
    rw [balanced.retained, none]
    rfl
  cases path : shown.path with
  | some buffer =>
    refine ⟨_, _, rfl, ⟨rfl, ⟨buffer, path, .inl path⟩, rfl, rfl, rfl, rfl⟩, ?_⟩
    intro others none balanced
    exact (emptied none balanced).changed
  | none =>
    obtain ⟨buffer, retained, later, kept, result, -, balance⟩ := append_display_spec grant heap
      (List.replicate (min 32 (maxStreamBytes - heap.bytes)) ' ')
      (show Shown.buffer { shown with path := some .empty } false = some .empty from rfl)
    rw [if_neg (by simp)]
    dsimp only
    rw [result]
    refine ⟨_, _, rfl, ⟨rfl, ⟨buffer.clear, rfl, .inr ⟨path, rfl⟩⟩, rfl, rfl, rfl, rfl⟩, ?_⟩
    intro others none balanced
    have opened : Balanced others { shown with path := some .empty } heap := by
      refine ⟨?_, balanced.call, balanced.stream, balanced.total, balanced.sound⟩
      rw [balanced.retained, path]
      rfl
    have reserved := balance others opened
    have cleared : Balanced others { Shown.setBuffer { shown with path := some .empty } false
        buffer retained with path := some buffer.clear } later :=
      ⟨reserved.retained, reserved.call, reserved.stream, reserved.total, reserved.sound⟩
    refine (emptied ?_ cleared).changed
    exact none

theorem start_path_balanced (balanced : Balanced others shown heap) :
    Balanced others (Shown.changed { shown with path := some (shown.path.getD .empty) }) heap := by
  refine ⟨?_, balanced.call, balanced.stream, balanced.total, balanced.sound⟩
  have charged := balanced.retained
  cases path : shown.path with
  | some buffer =>
    rw [path] at charged
    exact charged
  | none =>
    rw [path] at charged
    exact charged

end Balance

section Readiness

/-- The frames below the innermost one stand behind the values that they hold, and the outermost
is an object. -/
def Stacked : List Frame → Prop
  | [] => True
  | [frame] => ∃ state, frame = .object state
  | _ :: frame :: below => frame.behind = frame ∧ Stacked (frame :: below)

theorem stacked_tail {frame : Frame} {below : List Frame} (stacked : Stacked (frame :: below)) :
    Stacked below := by
  cases below with
  | nil => trivial
  | cons next rest => exact stacked.2

theorem stacked_object {frame : Frame} {below : List Frame} (state : ObjectState)
    (stacked : Stacked (frame :: below)) : Stacked (.object state :: below) := by
  cases below with
  | nil => exact ⟨state, rfl⟩
  | cons next rest => exact stacked

theorem stacked_array {state : ArrayState} {below : List Frame} (next : ArrayState)
    (stacked : Stacked (.array state :: below)) : Stacked (.array next :: below) := by
  cases below with
  | nil =>
    obtain ⟨other, same⟩ := stacked
    cases same
  | cons next rest => exact stacked

theorem stacked_behind {frame : Frame} {below : List Frame}
    (stacked : Stacked (frame :: below)) : Stacked (frame.behind :: below) := by
  cases frame with
  | object state => exact stacked_object _ stacked
  | array state => exact stacked_array _ stacked

theorem behind_behind (frame : Frame) : frame.behind.behind = frame.behind := by
  cases frame with
  | object state => rfl
  | array state => rfl

/-- The outer object waits for the value of the field. -/
def Waits (stack : List Frame) : Prop := stack = [.object .colon] ∨ stack = [.object .value]

/-- The field whose text is shown as the body or as the path. -/
def displayField (body : Bool) : Field := if body then .content else .path

/-- The texts that the rest of the input may add to are there, and a body is yet to come
wherever its field is waited for. -/
structure Ready (parser : PreviewParser) : Prop where
  stacked : Stacked parser.stack
  begun : parser.started = false → parser.stack = []
  display : ∀ body escape, parser.token = some (.string (.field (displayField body)) escape) →
    (parser.shown.buffer body).isSome
  nested : ∀ capture escape, parser.token = some (.string capture escape) → capture ≠ .key →
    parser.stack ≠ [.object .keyOrEnd] ∧ parser.stack ≠ [.object .key]
  marked : parser.shown.content.isSome → parser.seen &&& Field.content.bit ≠ 0
  fresh : parser.field = .content → Waits parser.stack →
    parser.shown.content = none ∧ parser.seen &&& Field.content.bit ≠ 0

theorem bit_kept {seen bit other : BitVec 8} (set : seen &&& bit ≠ 0) :
    (seen ||| other) &&& bit ≠ 0 := by
  rw [BitVec.and_or_distrib_right]
  exact fun clear => set (BitVec.or_eq_zero_iff.mp clear).1

theorem bit_set (seen : BitVec 8) : (seen ||| Field.content.bit) &&& Field.content.bit ≠ 0 := by
  rw [BitVec.and_or_distrib_right, BitVec.and_self]
  exact fun clear => absurd (BitVec.or_eq_zero_iff.mp clear).2 (by decide)

end Readiness

section Steps

variable {others : Nat} {parser : PreviewParser} {heap : Heap} {char : Char}

/-- What holds of a parser and the count that it is charged to. -/
structure Sound (others : Nat) (state : PreviewParser × Heap) : Prop where
  ready : Ready state.1
  balanced : Balanced others state.1.shown state.2

/-- No string is being read. -/
def Silent (parser : PreviewParser) : Prop :=
  ∀ capture escape, parser.token ≠ some (.string capture escape)

theorem ready_of_silent (silent : Silent parser) (stacked : Stacked parser.stack)
    (begun : parser.started = false → parser.stack = [])
    (marked : parser.shown.content.isSome → parser.seen &&& Field.content.bit ≠ 0)
    (fresh : parser.field = .content → Waits parser.stack →
      parser.shown.content = none ∧ parser.seen &&& Field.content.bit ≠ 0) : Ready parser where
  stacked := stacked
  begun := begun
  display _ _ token := absurd token (silent _ _)
  nested _ _ token := absurd token (silent _ _)
  marked := marked
  fresh := fresh

/-- A parser that fails gives back what it was charged. -/
theorem fail_sound (valid : parser.invalid = false) (balanced : Balanced others parser.shown heap) :
    Sound others (parser.fail heap) := by
  rw [PreviewParser.fail, if_neg (by simp [valid])]
  have stream := balanced.stream
  have total := balanced.total
  constructor
  · refine ready_of_silent ?_ trivial (fun _ => rfl) ?_ ?_
    · intro capture escape token
      cases token
    · intro some
      cases some
    · rintro - (waits | waits)
      · cases waits
      · cases waits
  · constructor
    · rfl
    · exact Nat.zero_le _
    · change heap.bytes - parser.shown.retained = others + 0
      omega
    · change heap.bytes - parser.shown.retained ≤ maxStreamBytes
      omega
    · exact balanced.sound

/-- What holds where no token is left to be read. -/
structure Quiet (others : Nat) (parser : PreviewParser) (heap : Heap) : Prop where
  valid : parser.invalid = false
  silent : Silent parser
  ready : Ready parser
  balanced : Balanced others parser.shown heap

/-- A change of the stack alone. -/
theorem ready_stack (ready : Ready parser) (silent : Silent parser) {stack : List Frame} (stacked : Stacked stack)
    (begun : parser.started = false → stack = [])
    (waits : Waits stack → Waits parser.stack) : Ready { parser with stack := stack } :=
  ready_of_silent silent stacked begun ready.marked
    fun content waiting => ready.fresh content (waits waiting)

theorem Quiet.sound (quiet : Quiet others parser heap) : Sound others (parser, heap) :=
  ⟨quiet.ready, quiet.balanced⟩

theorem Quiet.fail (quiet : Quiet others parser heap) : Sound others (parser.fail heap) :=
  fail_sound quiet.valid quiet.balanced

theorem finish_key_sound (quiet : Quiet others parser heap) :
    Sound others (parser.finishKey heap) := by
  rw [PreviewParser.finishKey]
  dsimp only
  split
  · exact fail_sound quiet.valid quiet.balanced
  · rename_i unseen
    refine ⟨ready_of_silent quiet.silent ?_ ?_ ?_ ?_, quiet.balanced⟩
    · have stacked := quiet.ready.stacked
      dsimp only
      cases stack : parser.stack with
      | nil => trivial
      | cons frame below =>
        rw [stack] at stacked
        exact stacked_object _ stacked
    · intro fresh
      dsimp only
      rw [quiet.ready.begun fresh]
      rfl
    · exact fun some => bit_kept (quiet.ready.marked some)
    · intro content waits
      dsimp only at content waits ⊢
      rw [content] at unseen ⊢
      refine ⟨?_, bit_set _⟩
      by_contra present
      exact unseen (quiet.ready.marked (Option.isSome_iff_ne_none.mpr present))

theorem end_string_sound (quiet : Quiet others parser heap) {capture : Capture} (nested : capture ≠ .key →
      parser.stack ≠ [.object .keyOrEnd] ∧ parser.stack ≠ [.object .key]) :
    Sound others (parser.endString capture heap) := by
  rw [PreviewParser.endString]
  split
  · exact finish_key_sound quiet
  · rename_i other
    split
    · rename_i top
      refine ⟨?_, quiet.balanced⟩
      have stacked := quiet.ready.stacked
      obtain ⟨notFirst, notLater⟩ := nested other
      cases stack : parser.stack with
      | nil =>
        rw [stack] at top
        simp at top
      | cons frame below =>
        rw [stack] at stacked top notFirst notLater
        refine ready_stack quiet.ready quiet.silent (stacked_object _ stacked) ?_ ?_
        · intro fresh
          have empty := quiet.ready.begun fresh
          rw [stack] at empty
          cases empty
        · cases below with
          | nil =>
            rcases top with top | top
            · exact absurd (congrArg (fun frame => [frame]) (Option.some.inj top)) notFirst
            · exact absurd (congrArg (fun frame => [frame]) (Option.some.inj top)) notLater
          | cons next rest =>
            rintro (waits | waits)
            · cases waits
            · cases waits
    · exact quiet.sound

theorem literal_char_sound (quiet : Quiet others parser heap) (expected : List Char) (index : Nat) :
    Sound others (parser.literalChar expected index char heap) := by
  rw [PreviewParser.literalChar]
  split
  · exact quiet.fail
  · split
    · exact ⟨ready_of_silent (fun _ _ token => by cases token) quiet.ready.stacked quiet.ready.begun
        quiet.ready.marked quiet.ready.fresh, quiet.balanced⟩
    · exact quiet.sound

theorem end_number_sound (quiet : Quiet others parser heap) (field : Field) (digits : List Char) :
    Sound others (parser.endNumber field digits heap) := by
  rw [PreviewParser.endNumber]
  split
  · exact quiet.sound
  · split
    · exact quiet.fail
    · split
      · exact quiet.fail
      · dsimp only
        split
        · exact ⟨ready_of_silent quiet.silent quiet.ready.stacked quiet.ready.begun quiet.ready.marked quiet.ready.fresh,
            quiet.balanced.retained, quiet.balanced.call, quiet.balanced.stream, quiet.balanced.total, quiet.balanced.sound⟩
        · exact ⟨ready_of_silent quiet.silent quiet.ready.stacked quiet.ready.begun quiet.ready.marked quiet.ready.fresh,
            quiet.balanced.retained, quiet.balanced.call, quiet.balanced.stream, quiet.balanced.total, quiet.balanced.sound⟩

theorem number_char_sound (quiet : Quiet others parser heap) (state : NumberState)
    (field : Field) (digits : List Char) :
    Sound others (parser.numberChar state field digits char heap).2 := by
  rw [PreviewParser.numberChar]
  have more (state : NumberState) (digits : List Char) :
      Ready { parser with token := some (.number state field digits) } :=
    ready_of_silent (fun _ _ token => by cases token) quiet.ready.stacked quiet.ready.begun quiet.ready.marked
      quiet.ready.fresh
  split
  · split
    · exact ⟨more _ _, quiet.balanced⟩
    · split
      · exact quiet.fail
      · exact ⟨more _ _, quiet.balanced⟩
  · split
    · exact end_number_sound quiet field digits
    · exact quiet.fail

/-- A string is read on with its texts there. -/
theorem string_token_sound (quiet : Quiet others parser heap) {capture : Capture}
    {shown : Shown} {later : Heap} (key : List Char) (overflow : Bool) (next : Escape)
    (display : ∀ body, capture = .field (displayField body) → (shown.buffer body).isSome)
    (nested : capture ≠ .key →
      parser.stack ≠ [.object .keyOrEnd] ∧ parser.stack ≠ [.object .key])
    (content : shown.content.isSome = parser.shown.content.isSome)
    (balanced : Balanced others shown later) :
    Sound others ({ parser with
      key := key
      keyOverflow := overflow
      shown := shown
      token := some (.string capture next) }, later) := by
  refine ⟨⟨quiet.ready.stacked, quiet.ready.begun, ?_, ?_, ?_, ?_⟩, balanced⟩
  · intro body escape token
    obtain ⟨same, -⟩ := Token.string.inj (Option.some.inj token)
    exact display body same
  · intro other escape token
    obtain ⟨same, -⟩ := Token.string.inj (Option.some.inj token)
    rw [← same]
    exact nested
  · intro some
    exact quiet.ready.marked (content ▸ some)
  · intro field waits
    obtain ⟨none, marked⟩ := quiet.ready.fresh field waits
    refine ⟨?_, marked⟩
    rw [none] at content
    exact Option.not_isSome_iff_eq_none.mp (by rw [content]; simp)

theorem captured_display_sound (quiet : Quiet others parser heap) (body : Bool) (next : Escape)
    (present : (parser.shown.buffer body).isSome)
    (nested : parser.stack ≠ [.object .keyOrEnd] ∧ parser.stack ≠ [.object .key]) :
    Sound others (match parser.shown.capture grant body char heap with
      | (shown, heap) => ({ parser with
          shown := shown
          token := some (.string (.field (displayField body)) next) }, heap)) := by
  obtain ⟨text, there⟩ := Option.isSome_iff_exists.mp present
  obtain ⟨after, later, result, touches, balance, -⟩ := capture_spec grant heap there char
  rw [result]
  refine string_token_sound quiet _ _ next ?_ (fun _ => nested) ?_
    (balance others quiet.balanced)
  · intro other same
    have equal : other = body := by
      revert same
      cases body <;> cases other <;> simp [displayField]
    rw [equal]
    exact touches.own
  · cases body with
    | true => exact (touches.own.trans present.symm)
    | false => exact congrArg Option.isSome touches.other

theorem string_char_sound (quiet : Quiet others parser heap) {capture : Capture}
    (escape : Escape)
    (display : ∀ body, capture = .field (displayField body) → (parser.shown.buffer body).isSome)
    (nested : capture ≠ .key →
      parser.stack ≠ [.object .keyOrEnd] ∧ parser.stack ≠ [.object .key]) :
    Sound others (parser.stringChar grant capture escape char heap) := by
  rw [PreviewParser.stringChar]
  split
  · exact end_string_sound quiet nested
  · split
    · exact quiet.fail
    · rename_i next decoded read
      have still (key : List Char) (overflow : Bool) :=
        string_token_sound quiet key overflow next display nested rfl quiet.balanced
      cases decoded with
      | none => exact still _ _
      | some decoded =>
        cases capture with
        | key =>
          rw [PreviewParser.captured, PreviewParser.capture, PreviewParser.captureKey]
          dsimp only
          split
          · exact still _ _
          · exact still _ _
        | ignore => exact still _ _
        | field field =>
          have inside := nested (by simp)
          cases field with
          | path => exact captured_display_sound quiet false next (display false rfl) inside
          | content => exact captured_display_sound quiet true next (display true rfl) inside
          | ignore => exact still _ _
          | offset => exact still _ _
          | limit => exact still _ _

/-- The outer object waits for nothing while a frame inside it is open or a value is behind. -/
theorem waits_below {frame next : Frame} {below : List Frame} (tail : List Frame)
    (stacked : Stacked (frame :: below)) (same : below = next :: tail) : ¬ Waits below := by
  rw [same] at stacked ⊢
  have behind := stacked.1
  rintro (waits | waits)
  · rw [(List.cons.inj waits).1] at behind
    cases behind
  · rw [(List.cons.inj waits).1] at behind
    cases behind

theorem close_sound (quiet : Quiet others parser heap) : Sound others (parser.close, heap) := by
  have stacked := quiet.ready.stacked
  refine ⟨ready_of_silent quiet.silent ?_ ?_ quiet.ready.marked ?_, quiet.balanced⟩
  · rw [PreviewParser.close]
    dsimp only
    cases stack : parser.stack with
    | nil => trivial
    | cons frame below =>
      rw [stack] at stacked
      exact stacked_tail stacked
  · intro fresh
    rw [PreviewParser.close]
    dsimp only
    rw [quiet.ready.begun fresh]
    rfl
  · intro content waits
    refine absurd waits ?_
    rw [PreviewParser.close]
    dsimp only
    cases stack : parser.stack with
    | nil =>
      rintro (waits | waits)
      · cases waits
      · cases waits
    | cons frame below =>
      rw [stack] at stacked
      cases below with
      | nil =>
        rintro (waits | waits)
        · cases waits
        · cases waits
      | cons next tail => exact waits_below tail stacked rfl

theorem start_key_sound (quiet : Quiet others parser heap) (mayEnd : Bool) :
    Sound others (parser.startKey mayEnd char heap) := by
  rw [PreviewParser.startKey]
  split
  · exact close_sound quiet
  · split
    · refine string_token_sound quiet [] false .plain ?_ ?_ rfl quiet.balanced
      · intro body same
        split at same
        · cases same
        · cases same
      · intro other
        have deep : parser.stack.length ≠ 1 := by
          intro single
          rw [if_pos single] at other
          exact other rfl
        constructor
        · intro same
          rw [same] at deep
          exact deep rfl
        · intro same
          rw [same] at deep
          exact deep rfl
    · exact quiet.fail

/-- A change of the innermost frame to one that waits for no value of the outer object. -/
theorem set_top_sound (quiet : Quiet others parser heap) {frame next : Frame}
    {below : List Frame} (stack : parser.stack = frame :: below)
    (stacked : Stacked (next :: below)) (calm : ¬ Waits [next]) :
    Sound others ({ parser with stack := setTop next parser.stack }, heap) := by
  refine ⟨ready_of_silent quiet.silent ?_ ?_ quiet.ready.marked ?_, quiet.balanced⟩
  · dsimp only
    rw [stack]
    exact stacked
  · intro fresh
    have empty := quiet.ready.begun fresh
    rw [stack] at empty
    cases empty
  · intro content waits
    dsimp only at waits
    rw [stack, setTop] at waits
    cases below with
    | nil => exact absurd waits calm
    | cons other tail =>
      rcases waits with waits | waits
      · cases waits
      · cases waits

theorem behind_value_sound (quiet : Quiet others parser heap) {frame next : Frame}
    {below : List Frame} (stack : parser.stack = frame :: below)
    (stacked : Stacked (next :: below)) (calm : ¬ Waits [next]) (closing : Char) :
    Sound others (parser.behindValue closing next char heap) := by
  rw [PreviewParser.behindValue]
  split
  · exact set_top_sound quiet stack stacked calm
  · split
    · exact close_sound quiet
    · exact quiet.fail

/-- The start of a string that is a value, of a body only where its text is yet to come. -/
theorem start_string_sound (quiet : Quiet others parser heap) {field : Field}
    (fresh : field = .content →
      parser.shown.content = none ∧ parser.seen &&& Field.content.bit ≠ 0)
    (nested : parser.stack ≠ [.object .keyOrEnd] ∧ parser.stack ≠ [.object .key])
    (calm : ¬ Waits parser.stack) : Sound others (parser.startString grant field heap) := by
  have plain (silent : field ≠ .path ∧ field ≠ .content) :
      Sound others ({ parser with token := some (.string (.field field) .plain) }, heap) := by
    refine string_token_sound quiet _ _ .plain ?_ (fun _ => nested) rfl quiet.balanced
    intro body same
    have shown := Capture.field.inj same
    cases body with
    | true => exact absurd shown silent.2
    | false => exact absurd shown silent.1
  rw [PreviewParser.startString]
  cases field with
  | ignore => exact plain ⟨by decide, by decide⟩
  | offset => exact plain ⟨by decide, by decide⟩
  | limit => exact plain ⟨by decide, by decide⟩
  | path =>
    refine string_token_sound quiet _ _ .plain ?_ (fun _ => nested) rfl
      (start_path_balanced quiet.balanced)
    intro body same
    cases body with
    | true => cases same
    | false => rfl
  | content =>
    obtain ⟨after, later, result, prepares, balance⟩ :=
      start_body_spec grant parser.shown heap
    obtain ⟨none, marked⟩ := fresh rfl
    rw [result]
    refine ⟨⟨quiet.ready.stacked, quiet.ready.begun, ?_, fun _ _ _ _ => nested, fun _ => marked,
      fun _ waits => absurd waits calm⟩, balance others none quiet.balanced⟩
    intro body escape token
    obtain ⟨same, -⟩ := Token.string.inj (Option.some.inj token)
    cases body with
    | true =>
      change after.content.isSome = true
      rw [prepares.content]
      rfl
    | false => cases same

theorem start_value_sound (quiet : Quiet others parser heap) {frame : Frame}
    {below : List Frame} (stack : parser.stack = frame :: below)
    (waiting : frame = .object .value ∨ ∃ state, frame = .array state) :
    Sound others (parser.startValue grant char heap) := by
  have stacked := quiet.ready.stacked
  rw [stack] at stacked
  have begun : parser.started = true := by
    by_contra fresh
    have empty := quiet.ready.begun (Bool.eq_false_iff.mpr fresh)
    rw [stack] at empty
    cases empty
  have single {next : Frame} {rest : List Frame} (alone : next :: rest = [frame.behind]) :
      next = frame.behind := (List.cons.inj alone).1
  have calm : ¬ Waits (frame.behind :: below) := by
    have behind := behind_behind frame
    rintro (waits | waits)
    · rw [(List.cons.inj waits).1] at behind
      cases behind
    · rw [(List.cons.inj waits).1] at behind
      cases behind
  have opened : Quiet others { parser with stack := frame.behind :: below } heap :=
    ⟨quiet.valid, quiet.silent,
      ready_stack quiet.ready quiet.silent (stacked_behind stacked)
        (fun fresh => by rw [begun] at fresh; cases fresh) (fun waits => absurd waits calm),
      quiet.balanced⟩
  have fresh (content : parser.valueField = .content) :
      parser.shown.content = none ∧ parser.seen &&& Field.content.bit ≠ 0 := by
    rw [PreviewParser.valueField] at content
    split at content
    · rename_i alone
      refine quiet.ready.fresh content ?_
      rw [stack] at alone ⊢
      have nothing : below = [] := List.length_eq_zero_iff.mp (Nat.succ.inj alone)
      rw [nothing] at stacked ⊢
      rcases waiting with rfl | ⟨state, rfl⟩
      · exact .inr rfl
      · obtain ⟨other, same⟩ := stacked
        cases same
    · cases content
  have quietly (token : Token) (other : ∀ capture escape, token ≠ .string capture escape) :
      Sound others ({ parser with stack := frame.behind :: below, token := some token }, heap) :=
    ⟨ready_of_silent (fun capture escape same => other capture escape (Option.some.inj same))
      opened.ready.stacked opened.ready.begun opened.ready.marked opened.ready.fresh,
      quiet.balanced⟩
  rw [PreviewParser.startValue, stack, behindTop]
  dsimp only
  split
  · exact quiet.fail
  · split
    · split
      · exact opened.fail
      · refine ⟨ready_stack opened.ready quiet.silent ⟨behind_behind frame, stacked_behind stacked⟩
          (fun fresh => by rw [begun] at fresh; cases fresh) ?_, quiet.balanced⟩
        rintro (waits | waits)
        · cases (List.cons.inj waits).2
        · cases (List.cons.inj waits).2
    · split
      · refine start_string_sound opened fresh ⟨?_, ?_⟩ calm
        · intro alone
          have behind := behind_behind frame
          rw [(List.cons.inj alone).1] at behind
          cases behind
        · intro alone
          have behind := behind_behind frame
          rw [(List.cons.inj alone).1] at behind
          cases behind
      · split
        · exact quietly _ (by simp)
        · split
          · exact quietly _ (by simp)
          · exact opened.fail

theorem frame_char_sound (quiet : Quiet others parser heap) :
    Sound others (parser.frameChar grant char heap) := by
  have stacked := quiet.ready.stacked
  have calm {next : Frame} (other : next ≠ .object .colon ∧ next ≠ .object .value) :
      ¬ Waits [next] := by
    rintro (waits | waits)
    · exact other.1 (List.cons.inj waits).1
    · exact other.2 (List.cons.inj waits).1
  rw [PreviewParser.frameChar]
  cases stack : parser.stack with
  | nil => exact quiet.fail
  | cons frame below =>
    rw [stack] at stacked
    rw [List.head?_cons]
    cases frame with
    | object state =>
      cases state with
      | keyOrEnd => exact start_key_sound quiet true
      | key => exact start_key_sound quiet false
      | colon =>
        dsimp only
        split
        · refine ⟨ready_stack quiet.ready quiet.silent (stacked_object .value stacked) ?_ ?_,
            quiet.balanced⟩
          · intro fresh
            have empty := quiet.ready.begun fresh
            rw [stack] at empty
            cases empty
          · rintro (waits | waits)
            · cases waits
            · rw [stack, (List.cons.inj waits).2]
              exact .inl rfl
        · exact quiet.fail
      | value => exact start_value_sound quiet stack (.inl rfl)
      | commaOrEnd =>
        exact behind_value_sound quiet stack (stacked_object _ stacked) (calm (by decide)) '}'
    | array state =>
      cases state with
      | valueOrEnd =>
        dsimp only
        split
        · exact close_sound quiet
        · exact start_value_sound quiet stack (.inr ⟨_, rfl⟩)
      | value => exact start_value_sound quiet stack (.inr ⟨_, rfl⟩)
      | commaOrEnd =>
        exact behind_value_sound quiet stack (stacked_array _ stacked) (calm (by decide)) ']'

theorem structural_sound (quiet : Quiet others parser heap) :
    Sound others (parser.structural grant char heap) := by
  rw [PreviewParser.structural]
  split
  · exact quiet.sound
  · split
    · rename_i fresh
      have empty := quiet.ready.begun (by simpa using fresh)
      dsimp only
      split
      · refine ⟨ready_of_silent quiet.silent ?_ (fun old => by cases old) quiet.ready.marked ?_,
          quiet.balanced⟩
        · dsimp only
          rw [empty]
          exact ⟨_, rfl⟩
        · rintro - (waits | waits)
          · cases waits
          · cases waits
      · exact fail_sound quiet.valid quiet.balanced
    · split
      · exact quiet.fail
      · exact frame_char_sound quiet

/-- A character that a token does not take ends the token. -/
theorem token_char_silent (silent : Silent parser) {token : Token}
    (left : (parser.tokenChar grant token char heap).1 = false) :
    Silent (parser.tokenChar grant token char heap).2.1 := by
  have failed : Silent (parser.fail heap).1 := by
    rw [PreviewParser.fail]
    split
    · exact silent
    · intro capture escape some
      cases some
  cases token with
  | string capture escape => cases left
  | literal expected index => cases left
  | number state field digits =>
    rw [PreviewParser.tokenChar, PreviewParser.numberChar] at left ⊢
    split
    · rename_i next read
      rw [read] at left
      dsimp only at left
      split at left
      · cases left
      · split at left
        · cases left
        · cases left
    · split
      · rw [PreviewParser.endNumber]
        split
        · exact silent
        · split
          · exact failed
          · split
            · exact failed
            · exact silent
      · exact failed

/-- One character keeps what holds of a parser and its count. -/
theorem feed_char_sound (sound : Sound others (parser, heap)) :
    Sound others (parser.feedChar grant char heap) := by
  rw [PreviewParser.feedChar]
  split
  · exact sound
  · rename_i valid
    have ready := sound.ready
    cases token : parser.token with
    | none =>
      refine structural_sound ⟨Bool.eq_false_iff.mpr valid, ?_, ready, sound.balanced⟩
      intro capture escape held
      rw [token] at held
      cases held
    | some held =>
      have silent : Silent { parser with token := none } := by
        intro capture escape some
        cases some
      have quiet : Quiet others { parser with token := none } heap :=
        ⟨Bool.eq_false_iff.mpr valid, silent,
          ready_of_silent silent ready.stacked ready.begun ready.marked ready.fresh,
          sound.balanced⟩
      have read : Sound others (PreviewParser.tokenChar grant { parser with token := none } held
          char heap).2 := by
        cases held with
        | string capture escape =>
          exact string_char_sound quiet escape
            (fun body same => ready.display body escape (by rw [token, same]))
            (ready.nested capture escape token)
        | number state field digits => exact number_char_sound quiet state field digits
        | literal expected index => exact literal_char_sound quiet expected index
      dsimp only
      split
      · exact read
      · rename_i going
        rw [Bool.or_eq_true, not_or] at going
        refine structural_sound ⟨Bool.eq_false_iff.mpr going.2, ?_, read.ready, read.balanced⟩
        exact token_char_silent silent (Bool.eq_false_iff.mpr going.1)

/-- Characters in any number keep it. -/
theorem feed_sound (grant : Nat → Nat → Option Nat) (delta : List Char)
    (sound : Sound others (parser, heap)) :
    Sound others (parser.feed grant delta heap) := by
  induction delta generalizing parser heap with
  | nil => exact sound
  | cons char rest inductionHypothesis => exact inductionHypothesis (feed_char_sound sound)

theorem new_sound (name : List Char) (total : heap.bytes ≤ maxStreamBytes)
    (sound : heap.faulted = false) : Sound heap.bytes (PreviewParser.new name, heap) := by
  constructor
  · refine ready_of_silent (fun _ _ token => ?_) trivial (fun _ => rfl) (fun some => ?_)
      (fun content => ?_)
    · cases token
    · cases some
    · cases content
  · exact ⟨rfl, Nat.zero_le _, rfl, total, sound⟩

end Steps

end MinicoreAgent.Preview

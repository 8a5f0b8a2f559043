import MinicoreAgent.ToolRecords

/-!
# The window on a process stream

The bytes of a window lie in a ring buffer, and its two offsets are words of 64 bits whose
additions saturate. The window with unbounded offsets is what a push means. The one with
words agrees with it up to the clamp of both offsets, so the retained bytes are the same and
the offsets are exact for as long as the stream is shorter than a word can count.
-/
namespace MinicoreAgent.Tools

section Words

def wordMax : Nat := 2 ^ 64 - 1

def saturatingAdd (left right : Nat) : Nat := min (left + right) wordMax

/-- Clamped counters can be added up and clamped again. -/
theorem saturating_add_clamped (left right : Nat) :
    saturatingAdd (min left wordMax) right = min (left + right) wordMax := by
  rw [saturatingAdd]
  omega

end Words

section Rings

/-- What one pushed chunk changed, measured against the raw stream. -/
structure StreamPush where
  baseOffset : Nat
  nextOffset : Nat
  dropped : Bool
  deriving DecidableEq, Repr

/-- A window in its buffer. The capacity is that of the buffer. -/
structure RingWindow where
  window : StreamWindow := {}
  capacity : Nat := 0
  deriving DecidableEq, Repr

/-- The capacity after `reserve_exact` for more elements than the buffer holds. -/
def reserveExact (capacity length additional : Nat) : Nat := max capacity (length + additional)

/-- The capacity for a chunk that fits: doubled, at least what is needed, at most the window. -/
def growCapacity (capacity oldLen total : Nat) : Nat :=
  if capacity < total then
    let target := min (max (capacity * 2) total) maxToolStreamBytes
    reserveExact capacity oldLen (target - oldLen)
  else capacity

/-- The capacity for a chunk that does not fit: the whole window. -/
def fillCapacity (capacity length : Nat) : Nat :=
  if capacity < maxToolStreamBytes then
    reserveExact capacity length (maxToolStreamBytes - length)
  else capacity

/-- Where the window starts before a push. With nothing retained it starts at the chunk. -/
def RingWindow.pushStart (ring : RingWindow) : Nat :=
  if ring.window.bytes.isEmpty then ring.window.observedEnd else ring.window.startOffset

/-- Append one chunk and evict the oldest bytes beyond the window. -/
def RingWindow.push (ring : RingWindow) (chunk : Bytes) : RingWindow × StreamPush :=
  let baseOffset := ring.window.observedEnd
  let observedEnd := saturatingAdd ring.window.observedEnd chunk.length
  let window := { ring.window with
    seen := true, startOffset := ring.pushStart, observedEnd := observedEnd }
  if chunk.isEmpty then
    ({ ring with window := window }, ⟨baseOffset, observedEnd, false⟩)
  else
    let oldLen := ring.window.bytes.length
    let total := oldLen + chunk.length
    if total ≤ maxToolStreamBytes then
      ({ window := { window with expired := false, bytes := ring.window.bytes ++ chunk }
         capacity := growCapacity ring.capacity oldLen total },
        ⟨baseOffset, observedEnd, false⟩)
    else
      let excess := total - maxToolStreamBytes
      let oldDropped := min excess oldLen
      let chunkDropped := excess - oldDropped
      let kept := ring.window.bytes.drop oldDropped
      ({ window := { window with
           expired := false
           startOffset := saturatingAdd ring.pushStart excess
           truncated := true
           bytes := kept ++ chunk.drop chunkDropped }
         capacity := fillCapacity ring.capacity kept.length },
        ⟨baseOffset, observedEnd, true⟩)

/-- Free the buffer. The window then starts where the stream ends. -/
def RingWindow.evict (ring : RingWindow) : RingWindow := { window := ring.window.evict }

/-- What the window counts for in the budget of a session. -/
def RingWindow.retained (ring : RingWindow) : Nat :=
  if ring.window.expired then 0 else ring.capacity

def RingWindow.liveRange (ring : RingWindow) : Nat × Nat :=
  (ring.window.startOffset, ring.window.observedEnd)

/-- What happens to a window while its command runs. -/
inductive WindowEvent where
  | push (chunk : Bytes)
  | evict
  deriving DecidableEq, Repr

def RingWindow.step (ring : RingWindow) : WindowEvent → RingWindow
  | .push chunk => (ring.push chunk).1
  | .evict => ring.evict

def RingWindow.run (ring : RingWindow) (events : List WindowEvent) : RingWindow :=
  events.foldl RingWindow.step ring

/-- The bytes that an event adds to the stream. -/
def WindowEvent.bytes : WindowEvent → Bytes
  | .push chunk => chunk
  | .evict => []

/-- All bytes that were pushed, in order. -/
def pushedBytes (events : List WindowEvent) : Bytes := events.flatMap WindowEvent.bytes

end Rings

section Pushes

/-- What a push makes of a window: an empty chunk is only seen, and others are appended. Where
the window would get too long, its oldest bytes are dropped. -/
inductive PushedWindow (ring : RingWindow) (chunk : Bytes) (window : StreamWindow) : Prop where
  | empty (nothing : chunk = [])
      (made : window = { ring.window with
        seen := true
        startOffset := ring.pushStart
        observedEnd := saturatingAdd ring.window.observedEnd chunk.length })
  | short (some_bytes : chunk ≠ [])
      (fits : ring.window.bytes.length + chunk.length ≤ maxToolStreamBytes)
      (made : window = { ring.window with
        seen := true
        startOffset := ring.pushStart
        observedEnd := saturatingAdd ring.window.observedEnd chunk.length
        expired := false
        bytes := ring.window.bytes ++ chunk })
  | long (excess : Nat)
      (much : ring.window.bytes.length + chunk.length = maxToolStreamBytes + excess)
      (made : window = { ring.window with
        seen := true
        startOffset := saturatingAdd ring.pushStart excess
        observedEnd := saturatingAdd ring.window.observedEnd chunk.length
        truncated := true
        expired := false
        bytes := (ring.window.bytes ++ chunk).drop excess })

theorem pushed_window (ring : RingWindow) (chunk : Bytes) :
    PushedWindow ring chunk (ring.push chunk).1.window := by
  by_cases nothing : chunk.isEmpty = true
  · have whole : ring.push chunk = _ := if_pos nothing
    rw [whole]
    exact .empty (List.isEmpty_iff.mp nothing) rfl
  · by_cases fits : ring.window.bytes.length + chunk.length ≤ maxToolStreamBytes
    · have whole : ring.push chunk = _ := (if_neg nothing).trans (if_pos fits)
      rw [whole]
      exact .short (fun empty => nothing (List.isEmpty_iff.mpr empty)) fits rfl
    · have whole : ring.push chunk = _ := (if_neg nothing).trans (if_neg fits)
      have bytes := drop_oldest ring.window.bytes chunk
        (ring.window.bytes.length + chunk.length - maxToolStreamBytes)
      rw [whole]
      refine .long (ring.window.bytes.length + chunk.length - maxToolStreamBytes) ?_ ?_
      · omega
      · dsimp only
        rw [bytes]

end Pushes

section Clamping

def StreamWindow.step (window : StreamWindow) : WindowEvent → StreamWindow
  | .push chunk => window.push chunk
  | .evict => window.evict

/-- A window whose offsets are words. -/
def StreamWindow.clamp (window : StreamWindow) : StreamWindow :=
  { window with
    startOffset := min window.startOffset wordMax
    observedEnd := min window.observedEnd wordMax }

theorem push_start_clamped (window : StreamWindow) (capacity : Nat) :
    RingWindow.pushStart ⟨window.clamp, capacity⟩ =
      min (if window.bytes.isEmpty then window.observedEnd else window.startOffset) wordMax := by
  rw [RingWindow.pushStart]
  change (if window.bytes.isEmpty then _ else _) = _
  split
  · rfl
  · rfl

/-- A push of the code is the push without bounds, with both offsets clamped. -/
theorem push_clamped (window : StreamWindow) (capacity : Nat) (chunk : Bytes) :
    (RingWindow.push ⟨window.clamp, capacity⟩ chunk).1.window = (window.push chunk).clamp := by
  have start := push_start_clamped window capacity
  have observed : saturatingAdd window.clamp.observedEnd chunk.length =
      min (window.observedEnd + chunk.length) wordMax := saturating_add_clamped _ _
  rw [RingWindow.push, StreamWindow.push]
  dsimp only
  rw [start, observed]
  split
  · rfl
  · change RingWindow.window (Prod.fst (if window.bytes.length + chunk.length ≤
      maxToolStreamBytes then _ else _)) = _
    split
    · rfl
    · rw [saturating_add_clamped]
      rfl

theorem step_clamped (window : StreamWindow) (capacity : Nat) (event : WindowEvent) :
    (RingWindow.step ⟨window.clamp, capacity⟩ event).window = (window.step event).clamp := by
  cases event with
  | push chunk => exact push_clamped window capacity chunk
  | evict => rfl

end Clamping

section Buffers

/-- The bytes of a window lie in its buffer, and the buffer is never longer than a window. -/
structure RingWindow.Fits (ring : RingWindow) : Prop where
  filled : ring.window.bytes.length ≤ ring.capacity
  bounded : ring.capacity ≤ maxToolStreamBytes

theorem RingWindow.Fits.new : RingWindow.Fits {} where
  filled := Nat.le_refl 0
  bounded := Nat.zero_le _

/-- A chunk that fits finds room, and the buffer stays within the bound. -/
theorem grow_capacity_spec {capacity oldLen total : Nat} (held : oldLen ≤ total)
    (fits : total ≤ maxToolStreamBytes) (bounded : capacity ≤ maxToolStreamBytes) :
    total ≤ growCapacity capacity oldLen total ∧
      growCapacity capacity oldLen total ≤ maxToolStreamBytes := by
  rw [growCapacity]
  generalize maxToolStreamBytes = bound at fits bounded ⊢
  split
  · rw [reserveExact]
    constructor
    · omega
    · omega
  · constructor
    · omega
    · exact bounded

theorem fill_capacity_spec {capacity length : Nat} (held : length ≤ maxToolStreamBytes)
    (bounded : capacity ≤ maxToolStreamBytes) :
    fillCapacity capacity length = maxToolStreamBytes := by
  rw [fillCapacity]
  generalize maxToolStreamBytes = bound at held bounded ⊢
  split
  · rw [reserveExact]
    omega
  · omega

theorem RingWindow.Fits.push {ring : RingWindow} (fits : ring.Fits) (chunk : Bytes) :
    (ring.push chunk).1.Fits := by
  obtain ⟨filled, bounded⟩ := fits
  rw [RingWindow.push]
  dsimp only
  split
  · exact ⟨filled, bounded⟩
  · split
    · rename_i small
      obtain ⟨room, within⟩ := grow_capacity_spec (Nat.le_add_right _ _) small bounded
      refine ⟨?_, within⟩
      rw [List.length_append]
      exact room
    · rename_i large
      have kept : (ring.window.bytes.drop
          (min (ring.window.bytes.length + chunk.length - maxToolStreamBytes)
            ring.window.bytes.length)).length ≤ maxToolStreamBytes := by
        rw [List.length_drop]
        omega
      have whole := fill_capacity_spec kept bounded
      refine ⟨?_, Nat.le_of_eq whole⟩
      dsimp only
      rw [whole, List.length_append, List.length_drop, List.length_drop]
      omega

theorem RingWindow.Fits.step {ring : RingWindow} (fits : ring.Fits) (event : WindowEvent) :
    (ring.step event).Fits := by
  cases event with
  | push chunk => exact fits.push chunk
  | evict => exact ⟨Nat.le_refl 0, Nat.zero_le _⟩

theorem RingWindow.Fits.retained {ring : RingWindow} (fits : ring.Fits) :
    ring.retained ≤ maxToolStreamBytes := by
  rw [RingWindow.retained]
  split
  · exact Nat.zero_le _
  · exact fits.bounded

end Buffers

section Runs

theorem WindowHolds.step {window : StreamWindow} {pushed : Bytes}
    (holds : WindowHolds window pushed) (event : WindowEvent) :
    WindowHolds (window.step event) (pushed ++ event.bytes) := by
  cases event with
  | push chunk => exact holds.push chunk
  | evict =>
    rw [WindowEvent.bytes, List.append_nil]
    exact holds.evict

/-- No event moves an offset back. -/
theorem offsets_grow {window : StreamWindow} {pushed : Bytes}
    (holds : WindowHolds window pushed) (event : WindowEvent) :
    window.startOffset ≤ (window.step event).startOffset ∧
      window.observedEnd ≤ (window.step event).observedEnd := by
  have ordered : window.startOffset ≤ window.observedEnd := by
    rw [holds.observed]
    exact holds.inside
  cases event with
  | evict => exact ⟨ordered, Nat.le_refl _⟩
  | push chunk =>
    have start : window.startOffset ≤
        if window.bytes.isEmpty then window.observedEnd else window.startOffset := by
      split
      · exact ordered
      · exact Nat.le_refl _
    rw [StreamWindow.step, StreamWindow.push]
    dsimp only
    split
    · exact ⟨start, Nat.le_add_right _ _⟩
    · split
      · exact ⟨start, Nat.le_add_right _ _⟩
      · exact ⟨Nat.le_trans start (Nat.le_add_right _ _), Nat.le_add_right _ _⟩

/-- The window of the code is the clamp of one that holds the end of the stream. -/
structure RingHolds (ring : RingWindow) (window : StreamWindow) (pushed : Bytes) : Prop where
  clamped : ring.window = window.clamp
  holds : WindowHolds window pushed
  fits : ring.Fits

theorem RingHolds.step {ring : RingWindow} {window : StreamWindow} {pushed : Bytes}
    (held : RingHolds ring window pushed) (event : WindowEvent) :
    RingHolds (ring.step event) (window.step event) (pushed ++ event.bytes) where
  clamped := by
    have whole : ring = ⟨window.clamp, ring.capacity⟩ := by
      rw [← held.clamped]
    rw [whole]
    exact step_clamped window ring.capacity event
  holds := held.holds.step event
  fits := held.fits.step event

theorem RingHolds.run {ring : RingWindow} {window : StreamWindow} {pushed : Bytes}
    (events : List WindowEvent) (held : RingHolds ring window pushed) :
    RingHolds (ring.run events) (events.foldl StreamWindow.step window)
      (pushed ++ pushedBytes events) := by
  induction events generalizing ring window pushed with
  | nil =>
    rw [pushedBytes, List.flatMap_nil, List.append_nil]
    exact held
  | cons event rest inductionHypothesis =>
    have next := inductionHypothesis (held.step event)
    rw [List.append_assoc] at next
    exact next

theorem ring_holds_run (events : List WindowEvent) :
    RingHolds (RingWindow.run {} events) (events.foldl StreamWindow.step {})
      (pushedBytes events) :=
  RingHolds.run events ⟨rfl, WindowHolds.new, RingWindow.Fits.new⟩

/-- Over every run of pushes and evictions the window retains the end of all pushed bytes, at
most a mebibyte of it, and counts the pushed bytes as far as a word does. Both offsets only
grow, and for a stream that a word can count they are exactly where the retained bytes lie. -/
theorem stream_window_run (events : List WindowEvent) (next : WindowEvent) :
    let ring := RingWindow.run {} events
    let pushed := pushedBytes events
    ring.window.observedEnd = min pushed.length wordMax ∧
      (∃ start, start ≤ pushed.length ∧ ring.window.startOffset = min start wordMax ∧
        ring.window.bytes = pushed.drop start) ∧
      (pushed.length ≤ wordMax → ring.window.observedEnd = pushed.length ∧
        ring.window.startOffset ≤ pushed.length ∧
        ring.window.bytes =
          (pushed.take ring.window.observedEnd).drop ring.window.startOffset) ∧
      ring.window.bytes.length ≤ maxToolStreamBytes ∧ ring.retained ≤ maxToolStreamBytes ∧
      ring.window.startOffset ≤ (ring.step next).window.startOffset ∧
      ring.window.observedEnd ≤ (ring.step next).window.observedEnd := by
  intro ring pushed
  have held : RingHolds ring (events.foldl StreamWindow.step {}) pushed := ring_holds_run events
  generalize events.foldl StreamWindow.step {} = window at held
  obtain ⟨startGrows, endGrows⟩ := offsets_grow held.holds next
  have after := (held.step next).clamped
  obtain ⟨clamped, holds, fits⟩ := held
  have observed : ring.window.observedEnd = min pushed.length wordMax := by
    rw [clamped, ← holds.observed]
    rfl
  have start : ring.window.startOffset = min window.startOffset wordMax := by
    rw [clamped]
    rfl
  have kept : ring.window.bytes = pushed.drop window.startOffset := by
    rw [clamped]
    exact holds.kept
  have inside := holds.inside
  refine ⟨observed, ⟨window.startOffset, inside, start, kept⟩, ?_,
    Nat.le_trans fits.filled fits.bounded, fits.retained, ?_, ?_⟩
  · intro counted
    have whole : ring.window.observedEnd = pushed.length := by omega
    have exactly : ring.window.startOffset = window.startOffset := by omega
    refine ⟨whole, ?_, ?_⟩
    · rw [exactly]
      exact inside
    · rw [whole, exactly, List.take_length]
      exact kept
  · rw [start, after]
    change _ ≤ min (window.step next).startOffset wordMax
    omega
  · rw [clamped, after]
    change min window.observedEnd wordMax ≤ min (window.step next).observedEnd wordMax
    omega

/-- A push, an eviction and a second push: the third byte is what is left. -/
theorem stream_window_evicted :
    RingWindow.liveRange (RingWindow.run {} [.push [1, 2], .evict, .push [3]]) = (2, 3) ∧
      (RingWindow.run {} [.push [1, 2], .evict, .push [3]]).window.bytes =
        (List.take 3 [1, 2, 3]).drop 2 := by
  obtain ⟨_, _, exactly, _⟩ := stream_window_run [.push [1, 2], .evict, .push [3]] .evict
  obtain ⟨_, _, bytes⟩ := exactly (by decide)
  exact ⟨by decide, bytes⟩

/-- Three slices of the greatest length are more bytes than a word counts. -/
theorem stream_window_saturates :
    ∃ events : List WindowEvent,
      (RingWindow.run {} events).window.observedEnd ≠ (pushedBytes events).length := by
  refine ⟨List.replicate 3 (.push (List.replicate (2 ^ 63 - 1) 0)), ?_⟩
  have observed :
      (RingWindow.run {}
        (List.replicate 3 (.push (List.replicate (2 ^ 63 - 1) 0)))).window.observedEnd =
      min (pushedBytes (List.replicate 3 (.push (List.replicate (2 ^ 63 - 1) 0)))).length
        wordMax := by
    obtain ⟨clamped, holds, _⟩ :=
      ring_holds_run (List.replicate 3 (.push (List.replicate (2 ^ 63 - 1) 0)))
    rw [clamped, ← holds.observed]
    rfl
  have length : (pushedBytes (List.replicate 3 (.push (List.replicate (2 ^ 63 - 1) 0)))).length =
      3 * (2 ^ 63 - 1) := by
    rw [pushedBytes, List.length_flatMap, List.map_replicate, WindowEvent.bytes,
      List.length_replicate, List.sum_replicate_nat]
  rw [observed, length]
  decide

end Runs

end MinicoreAgent.Tools

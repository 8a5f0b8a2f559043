import Mathlib.Algebra.GroupWithZero.Nat
import Mathlib.Logic.Function.Basic
import Mathlib.Tactic.Cases
import MinicoreAgent.Lib.Runs

/-!
# The Agent event stream

Events reach the one consumer over three bounded lanes: control snapshots, which wait
for room, and lifecycle and body events, which are dropped when their lane is full.
What was dropped is counted, and the next event the consumer gets carries the count.

The senders run concurrently with the receiver. A send that finds its lane full records
the drop in a step of its own. A receive asks one lane after another, and events may
arrive in between; once it has an event it takes the counter, again in a step of its
own. Dropping a receive that is pending changes nothing.
-/
namespace MinicoreAgent.Events

open Runs

section Model

inductive ToolArgumentsPreviewState
  | generating
  | generated
  | discarded
  deriving DecidableEq

/-- The kinds of `AgentEvent`, with what `is_lifecycle` looks at. -/
inductive EventKind
  | sessionOpened
  | sessionClosed
  | sessionSnapshot
  | requestStarted
  | requestUsage
  | outputDelta
  | toolStarted
  | toolInvocation
  | toolExecution
  | toolProcess (hasChunk : Bool)
  | toolPresentation
  | toolArgumentsPreview (revision : Nat) (state : ToolArgumentsPreviewState)
  | toolProgress
  | toolFinished
  | inputDelivered
  deriving DecidableEq

/-- `AgentEvent`: `payload` is all of it that the stream only carries. -/
structure AgentEvent (Payload : Type) where
  kind : EventKind
  payload : Payload
  droppedBefore : Nat
  deriving DecidableEq

variable {Payload Charge : Type}

def AgentEvent.isLifecycle (event : AgentEvent Payload) : Bool :=
  match event.kind with
  | .outputDelta => false
  | .toolProgress => false
  | .sessionSnapshot => true
  | .toolArgumentsPreview revision state => revision ≤ 2 || state ≠ .generating
  | .toolProcess hasChunk => !hasChunk
  | _ => true

def AgentEvent.setDroppedBefore (event : AgentEvent Payload) (droppedBefore : Nat) :
    AgentEvent Payload :=
  { event with droppedBefore := droppedBefore }

def maxU64 : Nat := 2 ^ 64 - 1

def maxControlBurst : Nat := 8

/-- The capacity of the lifecycle lane and of the control lane. -/
def laneCapacity : Nat := 64

inductive Lane
  | control
  | lifecycle
  | body
  deriving DecidableEq

/-- An event in a lane; a control frame holds its charge. -/
structure Entry (Payload Charge : Type) where
  event : AgentEvent Payload
  charge : Option Charge
  deriving DecidableEq

/-- What the consumer got: from which lane, which entry, and the event it was given. -/
structure Delivery (Payload Charge : Type) where
  lane : Lane
  entry : Entry Payload Charge
  shown : AgentEvent Payload
  deriving DecidableEq

/-- Where a receive is: none is running or it is pending, it is about to ask these
lanes, or it has an event in hand. -/
inductive Receive (Payload Charge : Type)
  | pending
  | asking (lanes : List Lane)
  | holding (lane : Lane) (entry : Entry Payload Charge)
  deriving DecidableEq

/-- The stream and its senders. `refusing` are sends that found their lane full and have
not recorded it yet. The last fields only record: the entries each lane accepted, how
many sends were refused, how many other drops were recorded, and what was cut off where
the counter was full. -/
structure Channel (Payload Charge : Type) where
  capacity : Nat
  queue : Lane → List (Entry Payload Charge)
  pending : Nat
  controlBurst : Nat
  receive : Receive Payload Charge
  refusing : Nat
  delivered : List (Delivery Payload Charge)
  accepted : Lane → List (Entry Payload Charge)
  refused : Nat
  coreDrops : Nat
  cutOff : Nat

inductive Action (Payload Charge : Type)
  | trySend (event : AgentEvent Payload)
  | recordRefusal
  | recordCoreDrops (dropped : Nat)
  | sendSnapshot (event : AgentEvent Payload) (charge : Charge)
  | recv
  | ask
  | cancel
  | deliver
  deriving DecidableEq

/-- `channel`. -/
def Channel.new (capacity : Nat) : Channel Payload Charge :=
  { capacity := capacity, queue := fun _ => [], pending := 0, controlBurst := 0
    receive := .pending, refusing := 0, delivered := [], accepted := fun _ => [], refused := 0
    coreDrops := 0, cutOff := 0 }

variable (channel : Channel Payload Charge)

def Channel.room (lane : Lane) : Nat :=
  match lane with
  | .body => channel.capacity
  | _ => laneCapacity

/-- A lane takes an entry. -/
def Channel.accept (lane : Lane) (entry : Entry Payload Charge) : Channel Payload Charge :=
  { channel with
    queue := Function.update channel.queue lane (channel.queue lane ++ [entry])
    accepted := Function.update channel.accepted lane (channel.accepted lane ++ [entry]) }

/-- `record_core_drops`: the counter saturates. -/
def Channel.recordDrops (dropped : Nat) : Channel Payload Charge :=
  { channel with
    pending := min (channel.pending + dropped) maxU64
    cutOff := channel.cutOff + (channel.pending + dropped - maxU64) }

/-- The order in which a receive asks the lanes. -/
def Channel.order : List Lane :=
  if channel.controlBurst = maxControlBurst then [.lifecycle, .control, .body]
  else [.control, .lifecycle, .body]

/-- The burst counter after an event. -/
def Channel.burstAfter (entry : Entry Payload Charge) : Nat :=
  if entry.charge.isSome then min (channel.controlBurst + 1) maxControlBurst else 0

/-- `delivered`: the event carries every drop recorded since the last one. -/
def Channel.hand (lane : Lane) (entry : Entry Payload Charge) : Channel Payload Charge :=
  { channel with
    pending := 0
    receive := .pending
    delivered := channel.delivered ++
      [{ lane := lane, entry := entry, shown := entry.event.setDroppedBefore channel.pending }] }

/-- One step of a sender or of the receiver. -/
def Channel.step : Action Payload Charge → Option (Channel Payload Charge)
  | .trySend event =>
    let lane := if event.isLifecycle then Lane.lifecycle else Lane.body
    if (channel.queue lane).length < channel.room lane then
      some (channel.accept lane { event := event, charge := none })
    else some { channel with refusing := channel.refusing + 1, refused := channel.refused + 1 }
  | .recordRefusal =>
    if 0 < channel.refusing then
      some { channel.recordDrops 1 with refusing := channel.refusing - 1 }
    else none
  | .recordCoreDrops dropped =>
    if dropped ≤ maxU64 then
      some { channel.recordDrops dropped with coreDrops := channel.coreDrops + dropped }
    else none
  | .sendSnapshot event charge =>
    if (channel.queue .control).length < channel.room .control then
      some (channel.accept .control { event := event, charge := some charge })
    else none
  | .recv =>
    match channel.receive with
    | .pending => some { channel with receive := .asking channel.order }
    | _ => none
  | .ask =>
    match channel.receive with
    | .asking (lane :: lanes) =>
      match channel.queue lane with
      | [] => some { channel with receive := .asking lanes }
      | entry :: rest =>
        some
          { channel with
            queue := Function.update channel.queue lane rest
            controlBurst := channel.burstAfter entry
            receive := .holding lane entry }
    | .asking [] => some { channel with receive := .pending }
    | _ => none
  | .cancel =>
    match channel.receive with
    | .pending => some channel
    | _ => none
  | .deliver =>
    match channel.receive with
    | .holding lane entry => some (channel.hand lane entry)
    | _ => none

end Model

section Steps

variable {Payload Charge : Type} {before after : Channel Payload Charge}

/-- What a step can do, guards included. -/
inductive Channel.Moves (before : Channel Payload Charge) : Channel Payload Charge → Prop
  | accepts (lane : Lane) (entry : Entry Payload Charge)
      (charged : entry.charge.isSome = true ↔ lane = .control) :
      before.Moves (before.accept lane entry)
  | refuses :
      before.Moves { before with refusing := before.refusing + 1, refused := before.refused + 1 }
  | records (waiting : 0 < before.refusing) :
      before.Moves { before.recordDrops 1 with refusing := before.refusing - 1 }
  | recordsCore (dropped : Nat) :
      before.Moves { before.recordDrops dropped with coreDrops := before.coreDrops + dropped }
  | polls (idle : before.receive = .pending) :
      before.Moves { before with receive := .asking before.order }
  | skips (lane : Lane) (lanes : List Lane) (asking : before.receive = .asking (lane :: lanes))
      (empty : before.queue lane = []) :
      before.Moves { before with receive := .asking lanes }
  | takes (lane : Lane) (lanes : List Lane) (entry : Entry Payload Charge)
      (rest : List (Entry Payload Charge)) (asking : before.receive = .asking (lane :: lanes))
      (first : before.queue lane = entry :: rest) :
      before.Moves
        { before with
          queue := Function.update before.queue lane rest
          controlBurst := before.burstAfter entry
          receive := .holding lane entry }
  | parks (asking : before.receive = .asking []) :
      before.Moves { before with receive := .pending }
  | stays : before.Moves before
  | hands (lane : Lane) (entry : Entry Payload Charge)
      (holding : before.receive = .holding lane entry) : before.Moves (before.hand lane entry)

theorem moves_of_step {action : Action Payload Charge}
    (advanced : before.step action = some after) : before.Moves after := by
  cases action with
  | trySend event =>
    by_cases room : (before.queue (if event.isLifecycle then .lifecycle else .body)).length <
        before.room (if event.isLifecycle then .lifecycle else .body)
    · rw [Channel.step, if_pos room] at advanced
      cases advanced
      apply Channel.Moves.accepts
      split <;> simp
    · rw [Channel.step, if_neg room] at advanced
      cases advanced
      exact .refuses
  | recordRefusal =>
    simp only [Channel.step] at advanced
    split at advanced
    · cases advanced
      exact .records ‹_›
    · cases advanced
  | recordCoreDrops dropped =>
    simp only [Channel.step] at advanced
    split at advanced
    · cases advanced
      exact .recordsCore dropped
    · cases advanced
  | sendSnapshot event charge =>
    simp only [Channel.step] at advanced
    split at advanced
    · cases advanced
      apply Channel.Moves.accepts
      simp
    · cases advanced
  | recv =>
    simp only [Channel.step] at advanced
    split at advanced
    · cases advanced
      exact .polls ‹_›
    · cases advanced
  | ask =>
    simp only [Channel.step] at advanced
    split at advanced
    · rename_i lane lanes asking
      split at advanced
      · cases advanced
        exact .skips lane lanes asking ‹_›
      · cases advanced
        exact .takes lane lanes _ _ asking ‹_›
    · cases advanced
      exact .parks ‹_›
    · cases advanced
  | cancel =>
    simp only [Channel.step] at advanced
    split at advanced
    · cases advanced
      exact .stays
    · cases advanced
  | deliver =>
    simp only [Channel.step] at advanced
    split at advanced
    · cases advanced
      exact .hands _ _ ‹_›
    · cases advanced

end Steps

section Accounting

variable {Payload Charge : Type} {before after : Channel Payload Charge}

/-- The drops the consumer has been told about. -/
def Channel.reported (channel : Channel Payload Charge) : Nat :=
  (channel.delivered.map (·.shown.droppedBefore)).sum

/-- The entries of a lane that reached the consumer, in the order they did. -/
def Channel.deliveredFrom (channel : Channel Payload Charge) (lane : Lane) :
    List (Entry Payload Charge) :=
  (channel.delivered.filter (·.lane = lane)).map (·.entry)

/-- The entry of a lane that the receive has in hand. -/
def Receive.held (receive : Receive Payload Charge) (lane : Lane) : List (Entry Payload Charge) :=
  match receive with
  | .holding source entry => if source = lane then [entry] else []
  | _ => []

@[simp] theorem held_pending (lane : Lane) :
    (Receive.pending : Receive Payload Charge).held lane = [] := rfl

@[simp] theorem held_asking (lanes : List Lane) (lane : Lane) :
    (Receive.asking lanes : Receive Payload Charge).held lane = [] := rfl

@[simp] theorem held_holding (source lane : Lane) (entry : Entry Payload Charge) :
    (Receive.holding source entry).held lane = if source = lane then [entry] else [] := rfl

/-- Every drop is reported, counted or cut off, and every accepted entry is delivered, in
hand or queued. -/
structure Channel.Accounted (channel : Channel Payload Charge) : Prop where
  refusing : channel.refusing ≤ channel.refused
  drops : channel.reported + channel.pending + channel.cutOff + channel.refusing =
    channel.coreDrops + channel.refused
  cut : channel.cutOff = 0 ∨ maxU64 < channel.coreDrops + channel.refused
  entries : ∀ lane, channel.accepted lane =
    channel.deliveredFrom lane ++ channel.receive.held lane ++ channel.queue lane
  shown : ∀ delivery ∈ channel.delivered,
    delivery.shown = delivery.entry.event.setDroppedBefore delivery.shown.droppedBefore

theorem new_accounted (capacity : Nat) :
    (Channel.new capacity : Channel Payload Charge).Accounted where
  refusing := Nat.le_refl 0
  drops := rfl
  cut := Or.inl rfl
  entries _ := rfl
  shown delivery member := by cases member

theorem accept_accounted (known : before.Accounted) (lane : Lane) (entry : Entry Payload Charge) :
    (before.accept lane entry).Accounted where
  refusing := known.refusing
  drops := known.drops
  cut := known.cut
  entries other := by
    have kept := known.entries other
    by_cases same : other = lane
    · subst same
      simp [Channel.accept, Channel.deliveredFrom, kept]
    · simpa [Channel.accept, Channel.deliveredFrom, same] using kept
  shown := known.shown

/-- Recording drops moves them from the refused sends into the counter, or past it. -/
theorem record_drops (known : before.Accounted) (dropped : Nat) :
    (before.recordDrops dropped).pending + (before.recordDrops dropped).cutOff =
        before.pending + before.cutOff + dropped ∧
      ((before.recordDrops dropped).cutOff = 0 ∨
        maxU64 < before.coreDrops + before.refused ∨ maxU64 < before.pending + dropped) := by
  have earlier := known.cut
  simp only [Channel.recordDrops]
  omega

/-- What holds nothing else than before may replace where the receive is. -/
theorem receive_accounted (known : before.Accounted) {receive : Receive Payload Charge}
    (same : ∀ lane, receive.held lane = before.receive.held lane) :
    { before with receive := receive : Channel Payload Charge }.Accounted where
  refusing := known.refusing
  drops := known.drops
  cut := known.cut
  entries lane := by
    have kept := known.entries lane
    rw [← same lane] at kept
    exact kept
  shown := known.shown

theorem takes_accounted (known : before.Accounted) {lane : Lane} {lanes : List Lane}
    {entry : Entry Payload Charge} {rest : List (Entry Payload Charge)} {burst : Nat}
    (asking : before.receive = .asking (lane :: lanes))
    (first : before.queue lane = entry :: rest) :
    { before with
      queue := Function.update before.queue lane rest
      controlBurst := burst
      receive := .holding lane entry : Channel Payload Charge }.Accounted where
  refusing := known.refusing
  drops := known.drops
  cut := known.cut
  entries other := by
    have kept := known.entries other
    rw [asking, held_asking] at kept
    by_cases same : other = lane
    · subst same
      rw [first] at kept
      simpa [Channel.deliveredFrom] using kept
    · simpa [Channel.deliveredFrom, same, Ne.symm same] using kept
  shown := known.shown

theorem hand_accounted (known : before.Accounted) {lane : Lane} {entry : Entry Payload Charge}
    (holding : before.receive = .holding lane entry) : (before.hand lane entry).Accounted where
  refusing := known.refusing
  drops := by
    have counted := known.drops
    simp only [Channel.reported, Channel.hand, AgentEvent.setDroppedBefore, List.map_append,
      List.map_cons, List.map_nil, List.sum_append, List.sum_cons, List.sum_nil] at counted ⊢
    omega
  cut := known.cut
  entries other := by
    have kept := known.entries other
    rw [holding, held_holding] at kept
    by_cases same : lane = other
    · simpa [Channel.hand, Channel.deliveredFrom, same] using kept
    · simpa [Channel.hand, Channel.deliveredFrom, same] using kept
  shown delivery member := by
    rcases List.mem_append.mp member with earlier | now
    · exact known.shown delivery earlier
    · rw [List.mem_singleton.mp now]
      rfl

theorem moves_accounted (known : before.Accounted) (moves : before.Moves after) :
    after.Accounted := by
  cases moves with
  | accepts lane entry charged => exact accept_accounted known lane entry
  | refuses =>
    have counted := known.drops
    have earlier := known.cut
    constructor
    · exact Nat.succ_le_succ known.refusing
    · simp only [Channel.reported] at counted ⊢
      omega
    · simp only
      omega
    · exact known.entries
    · exact known.shown
  | records waiting =>
    have counted := known.drops
    obtain ⟨recorded, cut⟩ := record_drops known 1
    constructor
    · exact Nat.le_trans (Nat.sub_le before.refusing 1) known.refusing
    · simp only [Channel.reported] at counted ⊢
      have same : (before.recordDrops 1).delivered = before.delivered := rfl
      rw [same]
      change _ = before.coreDrops + before.refused
      omega
    · change (before.recordDrops 1).cutOff = 0 ∨ maxU64 < before.coreDrops + before.refused
      omega
    · exact known.entries
    · exact known.shown
  | recordsCore dropped =>
    have counted := known.drops
    obtain ⟨recorded, cut⟩ := record_drops known dropped
    constructor
    · exact known.refusing
    · change before.reported + (before.recordDrops dropped).pending +
        (before.recordDrops dropped).cutOff + before.refusing =
          before.coreDrops + dropped + before.refused
      omega
    · change (before.recordDrops dropped).cutOff = 0 ∨
        maxU64 < before.coreDrops + dropped + before.refused
      omega
    · exact known.entries
    · exact known.shown
  | polls idle =>
    apply receive_accounted known
    simp [idle]
  | skips lane lanes asking empty =>
    apply receive_accounted known
    simp [asking]
  | takes lane lanes entry rest asking first => exact takes_accounted known asking first
  | parks asking =>
    apply receive_accounted known
    simp [asking]
  | stays => exact known
  | hands lane entry holding => exact hand_accounted known holding

end Accounting

section Bursts

variable {Payload Charge : Type} {before after : Channel Payload Charge}

/-- What decides whose turn it is: the lanes still to be asked end the order that the
burst counter gives, and control frames are the entries with a charge. -/
structure Channel.Turns (channel : Channel Payload Charge) : Prop where
  burst : channel.controlBurst ≤ maxControlBurst
  asked : ∀ lanes, channel.receive = .asking lanes → lanes <:+ channel.order
  charged : ∀ lane, ∀ entry ∈ channel.queue lane, entry.charge.isSome = true ↔ lane = .control
  inHand : ∀ entry, channel.receive = .holding .control entry → 0 < channel.controlBurst

theorem new_turns (capacity : Nat) : (Channel.new capacity : Channel Payload Charge).Turns where
  burst := Nat.zero_le maxControlBurst
  asked lanes asking := by cases asking
  charged lane entry member := by cases member
  inHand entry holding := by cases holding

theorem accept_turns (known : before.Turns) {lane : Lane} {entry : Entry Payload Charge}
    (charged : entry.charge.isSome = true ↔ lane = .control) :
    (before.accept lane entry).Turns where
  burst := known.burst
  asked := known.asked
  charged other queued member := by
    by_cases same : other = lane
    · subst same
      simp only [Channel.accept, Function.update_self, List.mem_append,
        List.mem_singleton] at member
      rcases member with earlier | now
      · exact known.charged other queued earlier
      · exact now ▸ charged
    · simp only [Channel.accept, ne_eq, same, not_false_eq_true, Function.update_of_ne] at member
      exact known.charged other queued member
  inHand := known.inHand

theorem burst_after_le (channel : Channel Payload Charge) (entry : Entry Payload Charge) :
    channel.burstAfter entry ≤ maxControlBurst := by
  rw [Channel.burstAfter]
  split
  · exact Nat.min_le_right _ _
  · exact Nat.zero_le _

theorem takes_turns (known : before.Turns) {lane : Lane} {entry : Entry Payload Charge}
    {rest : List (Entry Payload Charge)} (first : before.queue lane = entry :: rest) :
    { before with
      queue := Function.update before.queue lane rest
      controlBurst := before.burstAfter entry
      receive := .holding lane entry : Channel Payload Charge }.Turns where
  burst := burst_after_le before entry
  asked lanes asking := by cases asking
  charged other queued member := by
    by_cases same : other = lane
    · subst same
      simp only [Function.update_self] at member
      apply known.charged other queued
      rw [first]
      exact List.mem_cons_of_mem entry member
    · simp only [ne_eq, same, not_false_eq_true, Function.update_of_ne] at member
      exact known.charged other queued member
  inHand held holding := by
    cases holding
    have charge : entry.charge.isSome = true := by
      apply (known.charged .control entry _).mpr rfl
      rw [first]
      exact List.mem_cons_self
    simp only [Channel.burstAfter, charge, if_true, maxControlBurst]
    omega

theorem moves_turns (known : before.Turns) (moves : before.Moves after) : after.Turns := by
  cases moves with
  | accepts lane entry charged => exact accept_turns known charged
  | refuses => exact ⟨known.burst, known.asked, known.charged, known.inHand⟩
  | records waiting => exact ⟨known.burst, known.asked, known.charged, known.inHand⟩
  | recordsCore dropped => exact ⟨known.burst, known.asked, known.charged, known.inHand⟩
  | polls idle =>
    constructor
    · exact known.burst
    · intro lanes asking
      cases asking
      exact List.suffix_rfl
    · exact known.charged
    · intro entry holding
      cases holding
  | skips lane lanes asking empty =>
    constructor
    · exact known.burst
    · intro others others_asking
      cases others_asking
      exact (List.suffix_cons lane lanes).trans (known.asked _ asking)
    · exact known.charged
    · intro entry holding
      cases holding
  | takes lane lanes entry rest asking first => exact takes_turns known first
  | parks asking =>
    constructor
    · exact known.burst
    · intro lanes others_asking
      cases others_asking
    · exact known.charged
    · intro entry holding
      cases holding
  | stays => exact known
  | hands lane entry holding =>
    constructor
    · exact known.burst
    · intro lanes asking
      cases asking
    · exact known.charged
    · intro held held_holding
      cases held_holding

/-- How many control events can still come in a row while a lifecycle event waits. -/
def Channel.controlLeft (channel : Channel Payload Charge) : Nat :=
  match channel.receive with
  | .pending => maxControlBurst - channel.controlBurst
  | .asking lanes =>
    if channel.controlBurst = maxControlBurst then
      if Lane.control ∈ lanes ∧ Lane.lifecycle ∉ lanes then 1 else 0
    else maxControlBurst - channel.controlBurst
  | .holding lane _ =>
    if lane = .control then 1 + (maxControlBurst - channel.controlBurst) else 0

theorem control_left_le (known : before.Turns) : before.controlLeft ≤ maxControlBurst := by
  rw [Channel.controlLeft]
  split
  · exact Nat.sub_le _ _
  · split
    · split <;> decide
    · exact Nat.sub_le _ _
  · rename_i lane entry holding
    split
    · rename_i control
      have counted : 0 < before.controlBurst := known.inHand entry (control ▸ holding)
      simp only [maxControlBurst]
      omega
    · exact Nat.zero_le _

/-- Taking an event while a lifecycle event waits leaves no more control events to come:
a control frame raises the burst counter, and at its bound only one that was about to be
asked for is still taken. -/
theorem takes_left (known : before.Turns) {lane : Lane} {lanes : List Lane}
    {entry : Entry Payload Charge} {rest : List (Entry Payload Charge)}
    (asking : before.receive = .asking (lane :: lanes))
    (first : before.queue lane = entry :: rest) :
    { before with
      queue := Function.update before.queue lane rest
      controlBurst := before.burstAfter entry
      receive := .holding lane entry : Channel Payload Charge }.controlLeft ≤
        before.controlLeft := by
  have member : entry ∈ before.queue lane := by
    rw [first]
    exact List.mem_cons_self
  have charged := known.charged lane entry member
  have bounded := known.burst
  by_cases control : lane = .control
  · subst control
    have raised : before.burstAfter entry = min (before.controlBurst + 1) maxControlBurst := by
      rw [Channel.burstAfter, if_pos (charged.mpr rfl)]
    have suffix_of_order := known.asked _ asking
    simp only [Channel.controlLeft, asking, if_true, raised]
    by_cases atBound : before.controlBurst = maxControlBurst
    · rw [if_pos atBound]
      rw [Channel.order, if_pos atBound] at suffix_of_order
      have last : Lane.lifecycle ∉ Lane.control :: lanes := by
        intro among
        rcases List.suffix_cons_iff.mp suffix_of_order with whole | tail
        · cases whole
        · have others : Lane.lifecycle ∈ [Lane.control, Lane.body] := tail.mem among
          simp at others
      rw [if_pos ⟨List.mem_cons_self, last⟩]
      omega
    · rw [if_neg atBound]
      omega
  · simp [Channel.controlLeft, control]

theorem skips_left (waits : before.queue .lifecycle ≠ []) {lane : Lane} {lanes : List Lane}
    (asking : before.receive = .asking (lane :: lanes)) (empty : before.queue lane = []) :
    { before with receive := .asking lanes : Channel Payload Charge }.controlLeft ≤
      before.controlLeft := by
  have other : Lane.lifecycle ≠ lane := by
    intro same
    exact waits (same ▸ empty)
  simp only [Channel.controlLeft, asking]
  by_cases atBound : before.controlBurst = maxControlBurst
  · rw [if_pos atBound, if_pos atBound]
    by_cases later : Lane.control ∈ lanes ∧ Lane.lifecycle ∉ lanes
    · have still : Lane.control ∈ lane :: lanes ∧ Lane.lifecycle ∉ lane :: lanes :=
        ⟨List.mem_cons_of_mem lane later.1, List.not_mem_cons_of_ne_of_not_mem other later.2⟩
      apply Nat.le_of_eq
      rw [if_pos later, if_pos still]
    · rw [if_neg later]
      exact Nat.zero_le _
  · apply Nat.le_of_eq
    rw [if_neg atBound, if_neg atBound]

theorem nothing_delivered (same : after.delivered = before.delivered)
    (left : after.controlLeft ≤ before.controlLeft) :
    ∃ row, after.delivered = before.delivered ++ row ∧
      ((∀ delivery ∈ row, delivery.lane = .control) →
        row.length + after.controlLeft ≤ before.controlLeft) := by
  refine ⟨[], ?_, ?_⟩
  · rw [same, List.append_nil]
  · intro controls
    rw [List.length_nil, Nat.zero_add]
    exact left

/-- What one step delivers while a lifecycle event waits is paid from the control events
that were still to come. -/
theorem moves_left (known : before.Turns) (waits : before.queue .lifecycle ≠ [])
    (moves : before.Moves after) :
    ∃ row, after.delivered = before.delivered ++ row ∧
      ((∀ delivery ∈ row, delivery.lane = .control) →
        row.length + after.controlLeft ≤ before.controlLeft) := by
  cases moves with
  | hands lane entry holding =>
    refine ⟨_, rfl, ?_⟩
    intro controls
    have control : lane = .control := controls _ (List.mem_singleton.mpr rfl)
    simp only [List.length_singleton, Channel.controlLeft, Channel.hand, holding, control,
      if_true]
    exact Nat.le_refl _
  | polls idle =>
    apply nothing_delivered
    · rfl
    · simp only [Channel.controlLeft, idle, Channel.order]
      by_cases atBound : before.controlBurst = maxControlBurst
      · simp [atBound]
      · simp [atBound]
  | skips lane lanes asking empty =>
    apply nothing_delivered
    · rfl
    · exact skips_left waits asking empty
  | takes lane lanes entry rest asking first =>
    apply nothing_delivered
    · rfl
    · exact takes_left known asking first
  | parks asking =>
    apply nothing_delivered
    · rfl
    · simp only [Channel.controlLeft, asking]
      by_cases atBound : before.controlBurst = maxControlBurst
      · simp [atBound]
      · simp [atBound]
  | accepts lane entry charged => exact nothing_delivered rfl (Nat.le_refl _)
  | refuses => exact nothing_delivered rfl (Nat.le_refl _)
  | records waiting => exact nothing_delivered rfl (Nat.le_refl _)
  | recordsCore dropped => exact nothing_delivered rfl (Nat.le_refl _)
  | stays => exact nothing_delivered rfl (Nat.le_refl _)

/-- The steps taken while a lifecycle event waits. -/
def lifecycleWaits (channel : Channel Payload Charge) (_ : Action Payload Charge) : Bool :=
  !(channel.queue .lifecycle).isEmpty

theorem run_left {start : Channel Payload Charge} {actions : List (Action Payload Charge)}
    (known : start.Turns)
    (completed : run (guarded lifecycleWaits Channel.step) start actions = some after) :
    ∃ row, after.delivered = start.delivered ++ row ∧
      ((∀ delivery ∈ row, delivery.lane = .control) →
        row.length + after.controlLeft ≤ start.controlLeft) := by
  induction actions generalizing start with
  | nil =>
    have same : start = after := Option.some.inj completed
    subst same
    exact nothing_delivered rfl (Nat.le_refl _)
  | cons action rest inductionHypothesis =>
    simp only [run, Option.bind_eq_some_iff] at completed
    obtain ⟨next, advanced, remaining⟩ := completed
    obtain ⟨waiting, stepped⟩ := guarded_some advanced
    have waits : start.queue .lifecycle ≠ [] := by
      simpa [lifecycleWaits] using waiting
    have moves := moves_of_step stepped
    obtain ⟨first, added, paid⟩ := moves_left known waits moves
    obtain ⟨later, more, left⟩ := inductionHypothesis (moves_turns known moves) remaining
    refine ⟨first ++ later, ?_, ?_⟩
    · rw [more, added, List.append_assoc]
    · intro controls
      have earlier := paid fun delivery member => controls delivery (List.mem_append_left _ member)
      have rest_paid := left fun delivery member =>
        controls delivery (List.mem_append_right _ member)
      rw [List.length_append]
      omega

end Bursts

section Results

variable {Payload Charge : Type}

/-- Along every run of senders and receives, up to what the full counter cut off, the
drops reported and the drops counted are those that were recorded. What a lane accepted
was delivered in its order, is in hand or waits. While a lifecycle event waits, no more
than a burst of control events is delivered in a row. -/
theorem drops_reported_and_lanes_served {capacity : Nat} {channel : Channel Payload Charge}
    (reached : Reachable Channel.step (Channel.new capacity) channel) :
    (channel.refusing ≤ channel.refused ∧
      channel.reported + channel.pending + channel.cutOff =
        channel.coreDrops + (channel.refused - channel.refusing)) ∧
    (channel.coreDrops + channel.refused ≤ maxU64 → channel.cutOff = 0) ∧
    (∀ lane, channel.accepted lane =
      channel.deliveredFrom lane ++ channel.receive.held lane ++ channel.queue lane) ∧
    (∀ delivery ∈ channel.delivered,
      delivery.shown = delivery.entry.event.setDroppedBefore delivery.shown.droppedBefore) ∧
    ∀ (after : Channel Payload Charge) (row : List (Delivery Payload Charge)),
      Reachable (guarded lifecycleWaits Channel.step) channel after →
      after.delivered = channel.delivered ++ row →
      (∀ delivery ∈ row, delivery.lane = .control) → row.length ≤ maxControlBurst := by
  have accounted : channel.Accounted := by
    refine reachable_invariant Channel.Accounted (new_accounted capacity) ?_ reached
    intro before action after known advanced
    exact moves_accounted known (moves_of_step advanced)
  have turns : channel.Turns := by
    refine reachable_invariant Channel.Turns (new_turns capacity) ?_ reached
    intro before action after known advanced
    exact moves_turns known (moves_of_step advanced)
  refine ⟨⟨accounted.refusing, ?_⟩, ?_, accounted.entries, accounted.shown, ?_⟩
  · have counted := accounted.drops
    have within := accounted.refusing
    omega
  · intro few
    have cut := accounted.cut
    omega
  · intro after row waiting added controls
    obtain ⟨actions, completed⟩ := waiting
    obtain ⟨counted, appended, left⟩ := run_left turns completed
    have same : counted = row := List.append_cancel_left (appended.symm.trans added)
    have paid := left (same ▸ controls)
    have bounded := control_left_le turns
    rw [← same]
    omega

end Results

section Samples

def sampleDelta : AgentEvent Unit := { kind := .outputDelta, payload := (), droppedBefore := 0 }

def sampleFinished : AgentEvent Unit := { kind := .toolFinished, payload := (), droppedBefore := 0 }

def sampleSnapshot : AgentEvent Unit :=
  { kind := .sessionSnapshot, payload := (), droppedBefore := 0 }

/-- With room for one body event, a second is refused, a receive that pends is dropped,
and the lifecycle event that came last overtakes the body event and reports the drops. -/
def sampleRun : List (Action Unit Unit) :=
  [.trySend sampleDelta, .trySend sampleDelta, .recordRefusal, .cancel, .recordCoreDrops 2,
    .trySend sampleFinished, .sendSnapshot sampleSnapshot (), .recv, .ask, .deliver, .recv, .ask,
    .ask, .deliver]

def sampleChannel : Channel Unit Unit := replay Channel.step (Channel.new 1) sampleRun

theorem sample_run_accounted :
    sampleChannel.delivered.map (·.shown.droppedBefore) = [3, 0] ∧
      sampleChannel.deliveredFrom .lifecycle = [{ event := sampleFinished, charge := none }] ∧
      sampleChannel.accepted .body = sampleChannel.queue .body ∧
      sampleChannel.reported + sampleChannel.pending + sampleChannel.cutOff =
        sampleChannel.coreDrops + (sampleChannel.refused - sampleChannel.refusing) := by
  refine ⟨by decide, by decide, by decide, ?_⟩
  exact (drops_reported_and_lanes_served (reachable_replay (by decide))).1.2

/-- Once the counter is full, further drops are neither reported nor counted. -/
theorem full_counter_loses_a_drop :
    ¬ ∀ channel : Channel Unit Unit, Reachable Channel.step (Channel.new 1) channel →
      channel.reported + channel.pending =
        channel.coreDrops + (channel.refused - channel.refusing) := by
  intro claimed
  have counted := claimed
    (replay Channel.step (Channel.new 1) [.recordCoreDrops maxU64, .recordCoreDrops 1])
    (reachable_replay (by decide))
  exact absurd counted (by decide)

end Samples

end MinicoreAgent.Events

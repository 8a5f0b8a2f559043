import MinicoreAgent.Lib.Slots
import MinicoreAgent.PreviewMemory

/-!
# The observer of a model stream

An observer follows the argument texts of the tool calls in one stream with a parser for each.
Over every sequence of events each parser is charged what its buffers have and the observer
what its parsers are charged, both within their limits.
-/
namespace MinicoreAgent.Preview

open Slots

def maxCalls : Nat := 16

variable {CallId : Type}

/-- The events of a model stream that the observer tells apart. -/
inductive ModelEvent (CallId : Type) where
  | toolCallStart (id : CallId) (name : List Char)
  | toolCallArgumentsDelta (id : CallId) (delta : List Char)
  | toolCallEnd (id : CallId)
  | finish
  | other

structure PreviewCall (CallId : Type) where
  id : CallId
  name : List Char
  parser : PreviewParser
  ended : Bool
  revision : Nat
  emittedChange : Nat
  firstPathSent : Bool

/-- `PreviewObserver`. The heap counts `retained_bytes`; of the last update only whether there
was one is kept. -/
structure PreviewObserver (CallId : Type) where
  attempt : Option Nat
  calls : List (PreviewCall CallId)
  heap : Heap
  updated : Bool
  sawFinish : Bool
  normalEof : Bool
  discarded : Bool

section Observing

variable (grant : Nat → Nat → Option Nat)

/-- `PreviewObserver::new`. -/
def PreviewObserver.new (CallId : Type) (attempt : Option Nat) : PreviewObserver CallId where
  attempt := attempt
  calls := []
  heap := ⟨0, 0, false⟩
  updated := false
  sawFinish := false
  normalEof := false
  discarded := false

def PreviewCall.new (id : CallId) (name : List Char) : PreviewCall CallId where
  id := id
  name := name
  parser := .new name
  ended := false
  revision := 0
  emittedChange := 0
  firstPathSent := false

/-- What an emission changes in its call. -/
def PreviewCall.emitted (call : PreviewCall CallId) : PreviewCall CallId :=
  { call with
    revision := call.revision + 1
    emittedChange := call.parser.shown.changes }

/-- `emit`, of which the observer keeps nothing else. -/
def PreviewObserver.emit (observer : PreviewObserver CallId) (index : Nat) :
    PreviewObserver CallId :=
  { observer with
    calls := observer.calls.modify index PreviewCall.emitted
    updated := true }

/-- `discard`. -/
def PreviewObserver.discard (observer : PreviewObserver CallId) : PreviewObserver CallId :=
  if observer.discarded then observer
  else
    { observer with
      discarded := true
      calls := observer.calls.map PreviewCall.emitted
      updated := observer.updated || !observer.calls.isEmpty }

def previewed (name : List Char) : Bool :=
  name = "read".toList || name = "write".toList || name = "edit".toList

/-- `observe` at the start of a call. -/
def PreviewObserver.start [DecidableEq CallId] (observer : PreviewObserver CallId) (id : CallId)
    (name : List Char) : PreviewObserver CallId :=
  if observer.calls.any fun call => call.id = id then observer.discard
  else if !previewed name || maxCalls ≤ observer.calls.length then observer
  else
    PreviewObserver.emit { observer with calls := observer.calls ++ [.new id name] }
      observer.calls.length

/-- What a delta makes of its call, and whether it is sent at once. -/
def PreviewCall.fed (call : PreviewCall CallId) (parser : PreviewParser) (due : Bool) :
    PreviewCall CallId × Bool :=
  let firstPath :=
    !call.firstPathSent && parser.shown.path.any fun path => !path.text.isEmpty
  let sent := firstPath || (due && parser.shown.changes ≠ call.emittedChange)
  ({ call with
      parser := parser
      firstPathSent := call.firstPathSent || firstPath }, sent)

/-- `observe` of a delta. -/
def PreviewObserver.delta [DecidableEq CallId] (observer : PreviewObserver CallId) (id : CallId)
    (delta : List Char) (elapsed : Bool) : PreviewObserver CallId :=
  let index := observer.calls.findIdx fun call => call.id = id
  match observer.calls[index]? with
  | none => observer
  | some call =>
    if call.ended then observer.discard
    else
      match call.parser.feed grant delta observer.heap with
      | (parser, heap) =>
        match call.fed parser (!observer.updated || elapsed) with
        | (call, sent) =>
          let observer := { observer with calls := observer.calls.set index call, heap := heap }
          if sent then observer.emit index else observer

/-- `observe` at the end of a call. -/
def PreviewObserver.finishCall [DecidableEq CallId] (observer : PreviewObserver CallId)
    (id : CallId) : PreviewObserver CallId :=
  let index := observer.calls.findIdx fun call => call.id = id
  match observer.calls[index]? with
  | none => observer
  | some call =>
    if call.ended then observer.discard
    else
      PreviewObserver.emit
        { observer with calls := observer.calls.set index { call with ended := true } } index

/-- `observe`, of an error or an event, with whether the interval has passed since the last
update. -/
def PreviewObserver.observe [DecidableEq CallId] (observer : PreviewObserver CallId)
    (item : Option (ModelEvent CallId)) (elapsed : Bool) : PreviewObserver CallId :=
  if observer.attempt.isNone || observer.discarded then observer
  else if observer.sawFinish then observer.discard
  else
    match item with
    | none => observer.discard
    | some (.toolCallStart id name) => observer.start id name
    | some (.toolCallArgumentsDelta id delta) => observer.delta grant id delta elapsed
    | some (.toolCallEnd id) => observer.finishCall id
    | some .finish => { observer with sawFinish := true }
    | some .other => observer

/-- `eof`. -/
def PreviewObserver.eof (observer : PreviewObserver CallId) : PreviewObserver CallId :=
  if observer.normalEof then observer
  else if observer.sawFinish && !observer.discarded then { observer with normalEof := true }
  else observer.discard

/-- What `protect` leaves of an observer whose update panics. -/
def PreviewObserver.cleared (observer : PreviewObserver CallId) : PreviewObserver CallId :=
  { observer with
    discarded := true
    calls := []
    heap := { observer.heap with bytes := 0 } }

/-- `protect`. An update panics if it faults. -/
def PreviewObserver.protect (observer : PreviewObserver CallId)
    (update : PreviewObserver CallId → PreviewObserver CallId) : PreviewObserver CallId :=
  if observer.discarded then observer
  else
    let updated := update observer
    if updated.heap.faulted then updated.cleared else updated

/-- What can happen to an observer: an item of the stream, its end, the drop of the observer,
and an update that panics for another reason. -/
inductive Poll (CallId : Type) where
  | item (item : Option (ModelEvent CallId)) (elapsed : Bool)
  | eof
  | drop
  | panics

def PreviewObserver.step [DecidableEq CallId] (observer : PreviewObserver CallId) : Poll CallId →
    PreviewObserver CallId
  | .item item elapsed => observer.protect fun observer => observer.observe grant item elapsed
  | .eof => observer.protect PreviewObserver.eof
  | .drop => if observer.normalEof then observer else observer.protect PreviewObserver.discard
  | .panics => observer.protect PreviewObserver.cleared

/-- The observer after a sequence of polls. -/
def PreviewObserver.run [DecidableEq CallId] (observer : PreviewObserver CallId)
    (polls : List (Poll CallId)) : PreviewObserver CallId :=
  polls.foldl (PreviewObserver.step grant) observer

end Observing

section Accounts

variable {grant : Nat → Nat → Option Nat} {parsers : List PreviewParser} {heap : Heap}

/-- What is charged for a parser. -/
def retainedOf (parser : PreviewParser) : Nat := parser.shown.retained

/-- Each parser is charged what its buffers have, and the stream what its parsers are charged,
within their limits and without a fault. -/
structure Accounted (parsers : List PreviewParser) (heap : Heap) : Prop where
  ready : ∀ parser ∈ parsers, Ready parser
  retained : ∀ parser ∈ parsers,
    retainedOf parser = capacityOf parser.shown.path + capacityOf parser.shown.content
  call : ∀ parser ∈ parsers, retainedOf parser ≤ maxCallBytes
  stream : heap.bytes = total retainedOf parsers
  within : heap.bytes ≤ maxStreamBytes
  sound : heap.faulted = false

theorem accounted_new (accounted : Accounted parsers heap) (name : List Char) :
    Accounted (parsers ++ [.new name]) heap := by
  have fresh := new_sound name accounted.within accounted.sound
  constructor
  · intro parser member
    rcases List.mem_append.mp member with old | new
    · exact accounted.ready parser old
    · rw [List.mem_singleton.mp new]
      exact fresh.ready
  · intro parser member
    rcases List.mem_append.mp member with old | new
    · exact accounted.retained parser old
    · rw [List.mem_singleton.mp new]
      rfl
  · intro parser member
    rcases List.mem_append.mp member with old | new
    · exact accounted.call parser old
    · rw [List.mem_singleton.mp new]
      exact Nat.zero_le _
  · rw [total_append, total_cons, total_nil]
    exact accounted.stream
  · exact accounted.within
  · exact accounted.sound

/-- A delta for one of the parsers keeps the accounts. -/
theorem accounted_feed {index : Nat} {parser : PreviewParser} (accounted : Accounted parsers heap)
    (present : parsers[index]? = some parser) (delta : List Char) :
    Accounted (parsers.set index (parser.feed grant delta heap).1)
      (parser.feed grant delta heap).2 := by
  have member := List.mem_of_getElem? present
  obtain ⟨others, split⟩ := total_split retainedOf parsers index parser present
  have before : Sound others (parser, heap) := by
    refine ⟨accounted.ready parser member, accounted.retained parser member,
      accounted.call parser member, ?_, accounted.within, accounted.sound⟩
    rw [accounted.stream, (split parser).1, Nat.add_comm]
    rfl
  have after := feed_sound grant delta before
  constructor
  · intro other held
    rcases List.mem_or_eq_of_mem_set held with old | rfl
    · exact accounted.ready other old
    · exact after.ready
  · intro other held
    rcases List.mem_or_eq_of_mem_set held with old | rfl
    · exact accounted.retained other old
    · exact after.balanced.retained
  · intro other held
    rcases List.mem_or_eq_of_mem_set held with old | rfl
    · exact accounted.call other old
    · exact after.balanced.call
  · rw [(split _).2, after.balanced.stream, Nat.add_comm]
    rfl
  · exact after.balanced.total
  · exact after.balanced.sound

end Accounts

section Runs

variable {grant : Nat → Nat → Option Nat} {observer : PreviewObserver CallId}

def PreviewObserver.parsers (observer : PreviewObserver CallId) : List PreviewParser :=
  observer.calls.map PreviewCall.parser

/-- The observer's books are in order. -/
def PreviewObserver.InOrder (observer : PreviewObserver CallId) : Prop :=
  Accounted observer.parsers observer.heap

theorem emit_parsers (observer : PreviewObserver CallId) (index : Nat) :
    (observer.emit index).parsers = observer.parsers := by
  rw [PreviewObserver.parsers, PreviewObserver.parsers, PreviewObserver.emit]
  apply List.ext_getElem?
  intro place
  rw [List.getElem?_map, List.getElem?_map, List.getElem?_modify]
  cases observer.calls[place]? with
  | none => rfl
  | some call =>
    change some (PreviewCall.parser (if index = place then call.emitted else call)) =
      some call.parser
    split
    · rfl
    · rfl

theorem emit_in_order (inOrder : observer.InOrder) (index : Nat) :
    (observer.emit index).InOrder := by
  rw [PreviewObserver.InOrder, emit_parsers]
  exact inOrder

theorem discard_in_order (inOrder : observer.InOrder) : observer.discard.InOrder := by
  rw [PreviewObserver.discard]
  split
  · exact inOrder
  · have same : (observer.calls.map PreviewCall.emitted).map PreviewCall.parser =
        observer.calls.map PreviewCall.parser := by
      rw [List.map_map]
      rfl
    rw [PreviewObserver.InOrder, PreviewObserver.parsers]
    dsimp only
    rw [same]
    exact inOrder

/-- A call that is replaced keeps the books in order if its new parser does. -/
theorem set_in_order {index : Nat} {heap : Heap} (call : PreviewCall CallId)
    (accounted : Accounted (observer.parsers.set index call.parser) heap) :
    PreviewObserver.InOrder
      { observer with calls := observer.calls.set index call, heap := heap } := by
  have parsers : (observer.calls.set index call).map PreviewCall.parser =
      observer.parsers.set index call.parser := List.map_set
  rw [PreviewObserver.InOrder, PreviewObserver.parsers]
  dsimp only
  rw [parsers]
  exact accounted

theorem parser_of_call {index : Nat} {call : PreviewCall CallId}
    (present : observer.calls[index]? = some call) :
    observer.parsers[index]? = some call.parser := by
  rw [PreviewObserver.parsers, List.getElem?_map, present]
  rfl

theorem eof_in_order (inOrder : observer.InOrder) : observer.eof.InOrder := by
  rw [PreviewObserver.eof]
  split
  · exact inOrder
  · split
    · exact inOrder
    · exact discard_in_order inOrder

theorem cleared_in_order (inOrder : observer.InOrder) : observer.cleared.InOrder where
  ready _ member := by cases member
  retained _ member := by cases member
  call _ member := by cases member
  stream := rfl
  within := Nat.zero_le _
  sound := inOrder.sound

theorem protect_in_order {update : PreviewObserver CallId → PreviewObserver CallId}
    (inOrder : observer.InOrder) (updates : (update observer).InOrder) :
    (observer.protect update).InOrder := by
  rw [PreviewObserver.protect]
  split
  · exact inOrder
  · dsimp only
    split
    · exact cleared_in_order updates
    · exact updates

theorem new_in_order (attempt : Option Nat) : (PreviewObserver.new CallId attempt).InOrder where
  ready _ member := by cases member
  retained _ member := by cases member
  call _ member := by cases member
  stream := rfl
  within := Nat.zero_le _
  sound := rfl

variable [DecidableEq CallId]

theorem start_in_order (inOrder : observer.InOrder) (id : CallId) (name : List Char) :
    (observer.start id name).InOrder := by
  rw [PreviewObserver.start]
  split
  · exact discard_in_order inOrder
  · split
    · exact inOrder
    · apply emit_in_order
      rw [PreviewObserver.InOrder, PreviewObserver.parsers]
      dsimp only
      rw [List.map_append]
      exact accounted_new inOrder name

theorem delta_in_order (inOrder : observer.InOrder) (id : CallId) (delta : List Char)
    (elapsed : Bool) : (observer.delta grant id delta elapsed).InOrder := by
  rw [PreviewObserver.delta]
  dsimp only
  split
  · exact inOrder
  · rename_i call present
    split
    · exact discard_in_order inOrder
    · have later := set_in_order
        (call.fed (call.parser.feed grant delta observer.heap).1 (!observer.updated || elapsed)).1
        (accounted_feed inOrder (parser_of_call present) delta)
      split
      · exact emit_in_order later _
      · exact later

theorem finish_call_in_order (inOrder : observer.InOrder) (id : CallId) :
    (observer.finishCall id).InOrder := by
  rw [PreviewObserver.finishCall]
  split
  · exact inOrder
  · rename_i call present
    split
    · exact discard_in_order inOrder
    · apply emit_in_order
      refine set_in_order { call with ended := true } ?_
      obtain ⟨inside, same⟩ := List.getElem?_eq_some_iff.mp (parser_of_call present)
      have unchanged := List.set_getElem_self inside
      rw [same] at unchanged
      dsimp only
      rw [unchanged]
      exact inOrder

theorem observe_in_order (inOrder : observer.InOrder) (item : Option (ModelEvent CallId))
    (elapsed : Bool) : (observer.observe grant item elapsed).InOrder := by
  unfold PreviewObserver.observe
  split
  · exact inOrder
  · split
    · exact discard_in_order inOrder
    · split
      · exact discard_in_order inOrder
      · exact start_in_order inOrder _ _
      · exact delta_in_order inOrder _ _ _
      · exact finish_call_in_order inOrder _
      · exact inOrder
      · exact inOrder

/-- Whatever happens next keeps the books in order. -/
theorem step_in_order (inOrder : observer.InOrder) (poll : Poll CallId) :
    (observer.step grant poll).InOrder := by
  cases poll with
  | item item elapsed => exact protect_in_order inOrder (observe_in_order inOrder item elapsed)
  | eof => exact protect_in_order inOrder (eof_in_order inOrder)
  | drop =>
    rw [PreviewObserver.step]
    split
    · exact inOrder
    · exact protect_in_order inOrder (discard_in_order inOrder)
  | panics => exact protect_in_order inOrder (cleared_in_order inOrder)

theorem run_in_order (grant : Nat → Nat → Option Nat) (inOrder : observer.InOrder)
    (polls : List (Poll CallId)) :
    (observer.run grant polls).InOrder := by
  induction polls generalizing observer with
  | nil => exact inOrder
  | cons poll rest inductionHypothesis => exact inductionHypothesis (step_in_order inOrder poll)

/-- Over every sequence of events and whatever the allocator grants, each parser retains the
capacities of its two buffers, the observer what its parsers retain, both within their limits,
and no subtraction falls below zero. -/
theorem memory_is_accounted (grant : Nat → Nat → Option Nat) (attempt : Option Nat)
    (polls : List (Poll CallId)) :
    (∀ call ∈ ((PreviewObserver.new CallId attempt).run grant polls).calls,
      call.parser.shown.retained =
          capacityOf call.parser.shown.path + capacityOf call.parser.shown.content ∧
        call.parser.shown.retained ≤ maxCallBytes) ∧
    ((PreviewObserver.new CallId attempt).run grant polls).heap.bytes =
      total (fun call => call.parser.shown.retained)
        ((PreviewObserver.new CallId attempt).run grant polls).calls ∧
    ((PreviewObserver.new CallId attempt).run grant polls).heap.bytes ≤ maxStreamBytes ∧
    ((PreviewObserver.new CallId attempt).run grant polls).heap.faulted = false := by
  have inOrder := run_in_order grant (new_in_order attempt) polls
  refine ⟨?_, ?_, inOrder.within, inOrder.sound⟩
  · intro call member
    have parser : call.parser ∈ PreviewObserver.parsers _ := List.mem_map_of_mem member
    exact ⟨inOrder.retained _ parser, inOrder.call _ parser⟩
  · rw [inOrder.stream, total, total, PreviewObserver.parsers, List.map_map]
    rfl

end Runs

end MinicoreAgent.Preview

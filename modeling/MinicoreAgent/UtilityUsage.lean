import MinicoreAgent.Lib.Runs
import MinicoreAgent.SettledSummary

/-!
# What a dropped summary generation reports

A projected summary is generated by one call of the model or, chunk by chunk, by
several. The usage of the calls is added up in an accumulator. Its total is mirrored to
a slot outside, so that it is not lost when the future is dropped in the middle of a
call: the guard of the observation then records what the slot has.

The slot is written on two levels. `call_model_accounted` writes the accumulator's total
before and after each call; `call_model` writes what its stream reported, as the usage of
one call. While a later call runs, the second hides the calls before it.
-/
namespace MinicoreAgent.Utility

open Compaction (maxSummaryContentBytes isWhitespace)
open Text (byteLen)
open Runs

section Model

/-- `Usage`. -/
structure Usage where
  inputTokens : Option UInt64
  outputTokens : Option UInt64
  reasoningTokens : Option UInt64
  cacheReadTokens : Option UInt64
  cacheWriteTokens : Option UInt64
  providerTotalTokens : Option UInt64
  deriving DecidableEq

/-- `CompactionUtilityUsage`. -/
structure CompactionUtilityUsage where
  callCount : Nat
  complete : Bool
  usage : Option Usage
  deriving DecidableEq

inductive UtilityError
  | cancelled
  | timeout
  | model
  | invalidResponse
  | toolCall
  | noProgress
  | tooLarge
  | budget
  | serialization
  deriving DecidableEq, Repr

def maxU32 : Nat := 2 ^ 32 - 1

/-- `saturating_add` of `u32`. -/
def saturatingAdd (left right : Nat) : Nat := min (left + right) maxU32

def checkedAdd (left right : UInt64) : Option UInt64 :=
  if left.toNat + right.toNat < 2 ^ 64 then some (left + right) else none

/-- `sum_usage_field`. -/
def sumUsageField (left right : Option UInt64) : Option UInt64 :=
  match left, right with
  | some left, some right => checkedAdd left right
  | _, _ => none

/-- `usage_field_overflow`. -/
def usageFieldOverflow (left right : Option UInt64) : Bool :=
  match left, right with
  | some left, some right => (checkedAdd left right).isNone
  | _, _ => false

def sumUsage (left right : Usage) : Usage :=
  { inputTokens := sumUsageField left.inputTokens right.inputTokens
    outputTokens := sumUsageField left.outputTokens right.outputTokens
    reasoningTokens := sumUsageField left.reasoningTokens right.reasoningTokens
    cacheReadTokens := sumUsageField left.cacheReadTokens right.cacheReadTokens
    cacheWriteTokens := sumUsageField left.cacheWriteTokens right.cacheWriteTokens
    providerTotalTokens := sumUsageField left.providerTotalTokens right.providerTotalTokens }

def usageSumOverflow (left right : Usage) : Bool :=
  usageFieldOverflow left.inputTokens right.inputTokens ||
    usageFieldOverflow left.outputTokens right.outputTokens ||
    usageFieldOverflow left.reasoningTokens right.reasoningTokens ||
    usageFieldOverflow left.cacheReadTokens right.cacheReadTokens ||
    usageFieldOverflow left.cacheWriteTokens right.cacheWriteTokens ||
    usageFieldOverflow left.providerTotalTokens right.providerTotalTokens

def isEmptyUsage (usage : Usage) : Bool :=
  usage.inputTokens.isNone && usage.outputTokens.isNone && usage.reasoningTokens.isNone &&
    usage.cacheReadTokens.isNone && usage.cacheWriteTokens.isNone &&
    usage.providerTotalTokens.isNone

/-- `UtilityUsageAccumulator`. -/
structure UtilityUsageAccumulator where
  value : Option Usage
  complete : Bool
  callCount : Nat
  pendingCalls : Nat
  deriving DecidableEq

namespace UtilityUsageAccumulator

def default : UtilityUsageAccumulator :=
  { value := none, complete := true, callCount := 0, pendingCalls := 0 }

def startCall (accumulator : UtilityUsageAccumulator) : UtilityUsageAccumulator :=
  { accumulator with
    callCount := saturatingAdd accumulator.callCount 1
    pendingCalls := saturatingAdd accumulator.pendingCalls 1 }

def finishCall (accumulator : UtilityUsageAccumulator) (usage : Option Usage) :
    UtilityUsageAccumulator :=
  let accumulator := { accumulator with pendingCalls := accumulator.pendingCalls - 1 }
  match usage.filter (fun usage => !isEmptyUsage usage) with
  | none => { accumulator with complete := false }
  | some usage =>
    match accumulator.value with
    | some value =>
      { accumulator with
        complete := if usageSumOverflow value usage then false else accumulator.complete
        value := some (sumUsage value usage) }
    | none => { accumulator with value := some usage }

def failCall (accumulator : UtilityUsageAccumulator) (usage : Option Usage) :
    UtilityUsageAccumulator :=
  { accumulator.finishCall usage with complete := false }

def snapshot (accumulator : UtilityUsageAccumulator) (generationComplete : Bool) :
    Option CompactionUtilityUsage :=
  if 0 < accumulator.callCount then
    some
      { callCount := accumulator.callCount
        complete := generationComplete && accumulator.complete && accumulator.pendingCalls = 0
        usage := accumulator.value }
  else none

end UtilityUsageAccumulator

/-- The events of a stream, as far as `call_model` reads them. -/
inductive ModelEvent
  | textDelta (delta : List Char)
  | reasoningDelta (delta : List Char)
  | toolCallStart
  | toolCallArgumentsDelta
  | toolCallEnd
  | providerReplay
  | usage (usage : Usage)
  | finish (stopped : Bool)
  deriving DecidableEq

/-- What one turn of the loop of `call_model` meets: it is cancelled, its time is over,
or the stream ends, fails or yields an event. -/
inductive Seen
  | cancelled
  | deadline
  | ended
  | failed (timedOut : Bool)
  | event (event : ModelEvent)
  deriving DecidableEq

structure CallError where
  error : UtilityError
  usage : Option Usage
  deriving DecidableEq

structure UtilityModelResponse where
  content : List Char
  usage : Option Usage
  deriving DecidableEq

/-- The variables of the loop of `call_model`. -/
structure Call where
  text : List Char
  reasoningBytes : Nat
  finished : Bool
  usage : Option Usage
  deriving DecidableEq

inductive CallOutcome
  | going (call : Call)
  | ended (result : Except CallError UtilityModelResponse)

def Call.fresh : Call := { text := [], reasoningBytes := 0, finished := false, usage := none }

/-- The call ends with an error and what its stream has reported. -/
def Call.withUsage (call : Call) (error : UtilityError) : CallOutcome :=
  .ended (.error { error := error, usage := call.usage })

variable (bounded : Nat → List Char → Bool)

/-- One turn of the loop of `call_model`, and what becomes of the slot. -/
def Call.see (maxOutputBytes : Nat) (call : Call) (live : Option CompactionUtilityUsage) :
    Seen → CallOutcome × Option CompactionUtilityUsage
  | .cancelled => (call.withUsage .cancelled, live)
  | .deadline => (call.withUsage .timeout, live)
  | .failed timedOut => (call.withUsage (if timedOut then .timeout else .model), live)
  | .ended =>
    if call.finished then
      if call.text.all isWhitespace then (call.withUsage .noProgress, live)
      else if bounded maxOutputBytes call.text then
        (.ended (.ok { content := call.text, usage := call.usage }), live)
      else (call.withUsage .tooLarge, live)
    else (call.withUsage .invalidResponse, live)
  | .event event =>
    if call.finished then (call.withUsage .invalidResponse, live)
    else
      match event with
      | .textDelta delta =>
        if maxOutputBytes < byteLen call.text + byteLen delta then
          (call.withUsage .tooLarge, live)
        else (.going { call with text := call.text ++ delta }, live)
      | .reasoningDelta delta =>
        if maxSummaryContentBytes < call.reasoningBytes + byteLen delta then
          (call.withUsage .tooLarge, live)
        else (.going { call with reasoningBytes := call.reasoningBytes + byteLen delta }, live)
      | .toolCallStart => (call.withUsage .toolCall, live)
      | .toolCallArgumentsDelta => (call.withUsage .toolCall, live)
      | .toolCallEnd => (call.withUsage .toolCall, live)
      | .providerReplay => (.going call, live)
      | .usage value =>
        if call.usage.isSome then
          (.ended (.error { error := .invalidResponse, usage := none }),
            some { callCount := 1, complete := false, usage := none })
        else
          (.going { call with usage := some value },
            some { callCount := 1, complete := false, usage := some value })
      | .finish stopped =>
        if stopped then (.going { call with finished := true }, live)
        else (call.withUsage .invalidResponse, live)

/-- Where a generation is: between two calls, in a call whose stream is not there yet,
in the loop over its events, or at its end. -/
inductive Phase
  | idle
  | starting
  | streaming (call : Call)
  | over
  deriving DecidableEq

/-- A generation with its slot. `started` and `finished` only count and record: the
calls that were started, and what each call that is over has reported. -/
structure Generation where
  accumulator : UtilityUsageAccumulator
  live : Option CompactionUtilityUsage
  phase : Phase
  started : Nat
  finished : List (Option Usage)
  deriving DecidableEq

/-- What can happen: the next chunk is sent to the model, a call ends before there is a
stream, its stream is there, the loop takes a turn, or nothing is left to call. -/
inductive Action
  | begin
  | refuse (error : UtilityError)
  | opened
  | see (maxOutputBytes : Nat) (seen : Seen)
  | stop
  deriving DecidableEq

def Generation.start : Generation :=
  { accumulator := .default, live := none, phase := .idle, started := 0, finished := [] }

/-- The rest of `call_model_accounted`. An error ends the generation. -/
def Generation.settle (generation : Generation) :
    Except CallError UtilityModelResponse → Generation
  | .ok response =>
    let accumulator := generation.accumulator.finishCall response.usage
    { generation with
      accumulator := accumulator
      live := accumulator.snapshot true
      phase := .idle
      finished := generation.finished ++ [response.usage] }
  | .error error =>
    let accumulator := generation.accumulator.failCall error.usage
    { generation with
      accumulator := accumulator
      live := accumulator.snapshot false
      phase := .over
      finished := generation.finished ++ [error.usage] }

/-- The steps of `generate_rolling` and the calls in it. -/
def Generation.step (generation : Generation) (action : Action) : Option Generation :=
  match generation.phase, action with
  | .idle, .begin =>
    let accumulator := generation.accumulator.startCall
    some
      { generation with
        accumulator := accumulator
        live := accumulator.snapshot false
        phase := .starting
        started := generation.started + 1 }
  | .idle, .stop => some { generation with phase := .over }
  | .starting, .refuse error => some (generation.settle (.error { error := error, usage := none }))
  | .starting, .opened => some { generation with phase := .streaming .fresh }
  | .streaming call, .see maxOutputBytes seen =>
    match call.see bounded maxOutputBytes generation.live seen with
    | (.going call, live) => some { generation with live := live, phase := .streaming call }
    | (.ended result, live) => some ({ generation with live := live }.settle result)
  | _, _ => none

/-- `merge_utility_usage`. -/
def mergeUtilityUsage (total next : Option CompactionUtilityUsage) :
    Option CompactionUtilityUsage :=
  match total, next with
  | total, none => total
  | none, some next => some next
  | some current, some next =>
    let overflow :=
      match current.usage, next.usage with
      | some left, some right => usageSumOverflow left right
      | _, _ => false
    some
      { callCount := saturatingAdd current.callCount next.callCount
        complete := current.complete && (next.complete && !overflow)
        usage :=
          match current.usage, next.usage with
          | some left, some right => some (sumUsage left right)
          | _, _ => none }

/-- `AutomaticCompactionObservation`, as far as the guard reads or writes it. -/
structure AutomaticCompactionObservation where
  operationId : String
  outcome : String
  afterTokens : Option Nat
  utilityUsage : Option CompactionUtilityUsage
  deriving DecidableEq

/-- The part of `ThresholdState` that the guard reads or writes. -/
structure ThresholdState (LoopId Digest : Type) where
  attempted : Option LoopId
  source : Option Digest
  current : Option AutomaticCompactionObservation
  last : Option AutomaticCompactionObservation

/-- `ObservationGuard`. -/
structure ObservationGuard where
  operationId : String
  previousUsage : Option CompactionUtilityUsage
  armed : Bool
  deriving DecidableEq

variable {LoopId Digest : Type}

/-- `ObservationGuard::finish`, with what the slot has. -/
def ObservationGuard.finish (guard : ObservationGuard) (state : ThresholdState LoopId Digest)
    (live : Option CompactionUtilityUsage) (outcome : String) (after : Option Nat)
    (usage : Option CompactionUtilityUsage) : ObservationGuard × ThresholdState LoopId Digest :=
  if guard.armed then
    match state.current.filter (fun entry => entry.operationId = guard.operationId) with
    | none => ({ guard with armed := false }, state)
    | some current =>
      let last :=
        { current with
          outcome := outcome
          afterTokens := after
          utilityUsage := mergeUtilityUsage guard.previousUsage (usage.or live) }
      let cancelled := outcome = "cancelled"
      ({ guard with armed := false, previousUsage := none },
        { attempted := if cancelled then none else state.attempted
          source := if cancelled then none else state.source
          current := none
          last := some last })
  else (guard, state)

/-- Dropping an `ObservationGuard`. -/
def ObservationGuard.drop (guard : ObservationGuard) (state : ThresholdState LoopId Digest)
    (live : Option CompactionUtilityUsage) (cancelled late : Bool) :
    ObservationGuard × ThresholdState LoopId Digest :=
  guard.finish state live (if cancelled then "cancelled" else if late then "timeout" else "failed")
    none none

end Model

section Totals

/-- The counters of a usage. -/
def counters : List (Usage → Option UInt64) :=
  [Usage.inputTokens, Usage.outputTokens, Usage.reasoningTokens, Usage.cacheReadTokens,
    Usage.cacheWriteTokens, Usage.providerTotalTokens]

/-- The usages that say something. -/
def reported (finished : List (Option Usage)) : List Usage :=
  finished.filterMap fun usage => usage.filter (fun usage => !isEmptyUsage usage)

/-- The sum of a counter over usages that all have it. -/
def total (counter : Usage → Option UInt64) (usages : List Usage) : Nat :=
  (usages.map (fun usage => ((counter usage).map UInt64.toNat).getD 0)).sum

/-- All usages have the counter. -/
def Counted (counter : Usage → Option UInt64) (usages : List Usage) : Prop :=
  ∀ usage ∈ usages, (counter usage).isSome = true

/-- The value is the sum of the usages: a counter is there exactly if all of them have
it and their sum is within 64 bits. -/
def Sums (usages : List Usage) : Option Usage → Prop
  | none => usages = []
  | some value => usages ≠ [] ∧ ∀ counter ∈ counters,
      (∀ count, counter value = some count →
        Counted counter usages ∧ count.toNat = total counter usages) ∧
      (counter value = none → Counted counter usages → 2 ^ 64 ≤ total counter usages)

variable {usages : List Usage} {usage value left right : Usage}
  {counter : Usage → Option UInt64}

theorem sum_usage_counter (member : counter ∈ counters) :
    counter (sumUsage left right) = sumUsageField (counter left) (counter right) := by
  simp only [counters, List.mem_cons, List.not_mem_nil, or_false] at member
  rcases member with rfl | rfl | rfl | rfl | rfl | rfl <;> rfl

theorem usage_sum_overflow_iff :
    usageSumOverflow left right = true ↔
      ∃ counter ∈ counters, usageFieldOverflow (counter left) (counter right) = true := by
  simp [usageSumOverflow, counters, or_assoc]

@[simp] theorem total_nil : total counter [] = 0 := rfl

@[simp] theorem total_snoc :
    total counter (usages ++ [usage]) =
      total counter usages + ((counter usage).map UInt64.toNat).getD 0 := by
  simp [total]

theorem counted_snoc :
    Counted counter (usages ++ [usage]) ↔
      Counted counter usages ∧ (counter usage).isSome = true := by
  simp [Counted, or_imp, forall_and]

theorem checked_add_some {first second sum : UInt64} (added : checkedAdd first second = some sum) :
    sum.toNat = first.toNat + second.toNat := by
  unfold checkedAdd at added
  split at added
  · rename_i fits
    cases added
    rw [UInt64.toNat_add, Nat.mod_eq_of_lt fits]
  · cases added

theorem checked_add_none {first second : UInt64} :
    checkedAdd first second = none ↔ 2 ^ 64 ≤ first.toNat + second.toNat := by
  unfold checkedAdd
  split
  · rename_i fits
    simp only [reduceCtorEq, false_iff]
    omega
  · rename_i long
    simp only [true_iff]
    omega

theorem sums_first : Sums [usage] (some usage) := by
  refine ⟨by simp, ?_⟩
  intro counter _
  constructor
  · intro count known
    simp [Counted, total, known]
  · intro missing all
    have some := all usage (by simp)
    rw [missing] at some
    cases some

/-- Adding one more usage. -/
theorem Sums.snoc (sums : Sums usages (some value)) :
    Sums (usages ++ [usage]) (some (sumUsage value usage)) := by
  refine ⟨by simp, ?_⟩
  intro counter member
  obtain ⟨present, absent⟩ := sums.2 counter member
  rw [sum_usage_counter member, counted_snoc, total_snoc]
  cases before : counter value with
  | none =>
    constructor
    · intro count known
      cases known
    · rintro _ ⟨all, _⟩
      have large := absent before all
      omega
  | some first =>
    obtain ⟨all, sum⟩ := present first before
    cases here : counter usage with
    | none =>
      constructor
      · intro count known
        cases known
      · rintro _ ⟨_, some⟩
        cases some
    | some second =>
      have added : ((some second).map UInt64.toNat).getD 0 = second.toNat := rfl
      rw [added, sumUsageField]
      constructor
      · intro count known
        exact ⟨⟨all, rfl⟩, by rw [checked_add_some known, sum]⟩
      · intro missing _
        have large := checked_add_none.mp missing
        omega

/-- No sum of the first usages, however many, leaves 64 bits. -/
def NoOverflow (usages : List Usage) : Prop :=
  ∀ before, before <+: usages → ∀ counter ∈ counters, Counted counter before →
    total counter before < 2 ^ 64

theorem no_overflow_first : NoOverflow [usage] := by
  intro before beginning counter _ _
  rcases List.prefix_cons_iff.mp beginning with rfl | ⟨rest, rfl, short⟩
  · rw [total_nil]
    decide
  · rw [List.prefix_nil.mp short]
    cases here : counter usage with
    | none => simp [total, here]
    | some count =>
      have within := count.toNat_lt
      simpa [total, here] using within

theorem NoOverflow.snoc (fits : NoOverflow usages) (sums : Sums usages (some value))
    (within : usageSumOverflow value usage = false) : NoOverflow (usages ++ [usage]) := by
  intro before beginning counter member all
  rcases List.prefix_concat_iff.mp beginning with rfl | inner
  · rw [counted_snoc] at all
    rw [total_snoc]
    obtain ⟨present, absent⟩ := sums.2 counter member
    cases known : counter value with
    | none =>
      have large := absent known all.1
      have small := fits usages List.prefix_rfl counter member all.1
      omega
    | some first =>
      obtain ⟨second, here⟩ := Option.isSome_iff_exists.mp all.2
      have added : (((some second).map UInt64.toNat).getD 0 : Nat) = second.toNat := rfl
      rw [here, added, ← (present first known).2]
      have counted : ¬ usageFieldOverflow (counter value) (counter usage) = true := by
        intro overflow
        have wrong := usage_sum_overflow_iff.mpr ⟨counter, member, overflow⟩
        rw [within] at wrong
        cases wrong
      rw [known, here, usageFieldOverflow, Option.isNone_iff_eq_none, checked_add_none] at counted
      exact Nat.lt_of_not_le counted
  · exact fits before inner counter member all

end Totals

section Accounting

/-- Every call that is over has reported its usage. -/
def AllReported (finished : List (Option Usage)) : Prop :=
  ∀ entry ∈ finished, ∃ usage, entry = some usage ∧ isEmptyUsage usage = false

/-- What the accumulator knows of the calls that are over. -/
structure Accumulates (started : Nat) (finished : List (Option Usage))
    (accumulator : UtilityUsageAccumulator) : Prop where
  calls : accumulator.callCount = min started maxU32
  pending : accumulator.pendingCalls = started - finished.length
  sums : Sums (reported finished) accumulator.value
  sound : accumulator.complete = true → AllReported finished ∧ NoOverflow (reported finished)

variable {started : Nat} {finished : List (Option Usage)} {accumulator : UtilityUsageAccumulator}

theorem accumulates_default : Accumulates 0 [] .default where
  calls := rfl
  pending := rfl
  sums := rfl
  sound := by
    intro _
    refine ⟨by simp [AllReported], ?_⟩
    intro before beginning counter _ _
    rw [List.prefix_nil.mp beginning, total_nil]
    decide

theorem Accumulates.begun (known : Accumulates started finished accumulator)
    (idle : started = finished.length) :
    Accumulates (started + 1) finished accumulator.startCall where
  calls := by
    simp only [UtilityUsageAccumulator.startCall, saturatingAdd, known.calls]
    omega
  pending := by
    simp only [UtilityUsageAccumulator.startCall, saturatingAdd, known.pending, idle, maxU32]
    omega
  sums := known.sums
  sound := known.sound

theorem reported_snoc (entry : Option Usage) :
    reported (finished ++ [entry]) =
      reported finished ++ (entry.filter (fun usage => !isEmptyUsage usage)).toList := by
  cases kept : entry.filter (fun usage => !isEmptyUsage usage) with
  | none => simp [reported, kept]
  | some usage => simp [reported, kept]

theorem Accumulates.ended (known : Accumulates started finished accumulator)
    (usage : Option Usage) :
    Accumulates started (finished ++ [usage]) (accumulator.finishCall usage) := by
  have pending : accumulator.pendingCalls - 1 = started - (finished ++ [usage]).length := by
    rw [known.pending, List.length_append, List.length_singleton]
    omega
  unfold UtilityUsageAccumulator.finishCall
  cases kept : usage.filter (fun usage => !isEmptyUsage usage) with
  | none =>
    refine ⟨known.calls, pending, ?_, ?_⟩
    · rw [reported_snoc, kept]
      simpa using known.sums
    · intro wrong
      cases wrong
  | some here =>
    obtain ⟨rfl, nonempty⟩ := Option.filter_eq_some_iff.mp kept
    rw [Bool.not_eq_true'] at nonempty
    have all (earlier : AllReported finished) : AllReported (finished ++ [some here]) := by
      intro entry member
      rcases List.mem_append.mp member with old | new
      · exact earlier entry old
      · rw [List.mem_singleton.mp new]
        exact ⟨here, rfl, nonempty⟩
    have grown : reported (finished ++ [some here]) = reported finished ++ [here] := by
      rw [reported_snoc, kept]
      rfl
    have sums := known.sums
    cases first : accumulator.value with
    | none =>
      rw [first] at sums
      have nothing : reported finished = [] := sums
      refine ⟨known.calls, pending, ?_, ?_⟩
      · rw [grown, nothing]
        exact sums_first
      · intro complete
        rw [grown, nothing]
        exact ⟨all (known.sound complete).1, no_overflow_first⟩
    | some value =>
      rw [first] at sums
      refine ⟨known.calls, pending, ?_, ?_⟩
      · rw [grown]
        exact sums.snoc
      · intro complete
        dsimp only at complete
        split at complete
        · cases complete
        · rename_i within
          rw [grown]
          obtain ⟨earlier, fits⟩ := known.sound complete
          exact ⟨all earlier, fits.snoc sums (Bool.eq_false_of_not_eq_true within)⟩

theorem Accumulates.failed (known : Accumulates started finished accumulator)
    (usage : Option Usage) :
    Accumulates started (finished ++ [usage]) (accumulator.failCall usage) := by
  have finishedCall := known.ended usage
  refine ⟨finishedCall.calls, finishedCall.pending, finishedCall.sums, ?_⟩
  intro wrong
  cases wrong

end Accounting

section Reporting

/-- The slot shows the calls that were started, the usage of all that are over, and says
that it is complete only if it is. A counter that some call does not have, or whose sum
leaves 64 bits, has no total. -/
structure Reported (generation : Generation) (shown : Option CompactionUtilityUsage) : Prop where
  calls : (shown.map CompactionUtilityUsage.callCount).getD 0 = generation.started
  included : ∀ counter ∈ counters, reported generation.finished ≠ [] →
    Counted counter (reported generation.finished) →
    total counter (reported generation.finished) < 2 ^ 64 →
    ∃ usage count, shown.bind CompactionUtilityUsage.usage = some usage ∧
      counter usage = some count ∧ total counter (reported generation.finished) ≤ count.toNat
  complete : ∀ usage ∈ shown, usage.complete = true →
    generation.started = generation.finished.length ∧ AllReported generation.finished ∧
      NoOverflow (reported generation.finished)

/-- A second or later call is running, and its stream has reported its usage. -/
def Generation.Shadowed (generation : Generation) : Prop :=
  2 ≤ generation.started ∧ ∃ call usage, generation.phase = .streaming call ∧
    call.usage = some usage

/-- What the slot has, by the place where the generation is. -/
def Generation.Mirrors (generation : Generation) : Prop :=
  match generation.phase with
  | .idle => generation.started = generation.finished.length ∧
      generation.live = generation.accumulator.snapshot true
  | .starting => generation.started = generation.finished.length + 1 ∧
      generation.live = generation.accumulator.snapshot false
  | .streaming call => generation.started = generation.finished.length + 1 ∧
      generation.live =
        match call.usage with
        | none => generation.accumulator.snapshot false
        | some usage => some { callCount := 1, complete := false, usage := some usage }
  | .over => generation.started = generation.finished.length ∧
      ∃ complete, generation.live = generation.accumulator.snapshot complete

/-- The invariant of a generation. -/
structure Generation.Accounted (generation : Generation) : Prop where
  accumulates :
    Accumulates generation.started generation.finished generation.accumulator
  mirrors : generation.Mirrors

variable {bounded : Nat → List Char → Bool} {generation next : Generation} {action : Action}

/-- Whatever a turn of the loop meets, the slot changes only with a reported usage, and
what it then has is written over when the call is over. -/
theorem see_going {maxOutputBytes : Nat} {call after : Call} {seen : Seen}
    {live shown : Option CompactionUtilityUsage}
    (went : call.see bounded maxOutputBytes live seen = (.going after, shown)) :
    (after.usage = call.usage ∧ shown = live) ∨
    (call.usage = none ∧ ∃ usage, after.usage = some usage ∧
      shown = some { callCount := 1, complete := false, usage := some usage }) := by
  unfold Call.see Call.withUsage at went
  split at went
  · cases went
  · cases went
  · cases went
  · split at went
    · split at went
      · cases went
      · split at went <;> cases went
    · cases went
  · split at went
    · cases went
    · split at went
      · split at went
        · cases went
        · cases went
          exact .inl ⟨rfl, rfl⟩
      · split at went
        · cases went
        · cases went
          exact .inl ⟨rfl, rfl⟩
      · cases went
      · cases went
      · cases went
      · cases went
        exact .inl ⟨rfl, rfl⟩
      · split at went
        · cases went
        · rename_i usage first
          cases went
          rw [Option.not_isSome_iff_eq_none] at first
          exact .inr ⟨first, usage, rfl, rfl⟩
      · split at went
        · cases went
          exact .inl ⟨rfl, rfl⟩
        · cases went

/-- When a call is over, the slot has the accumulator's total again. -/
theorem settle_accounted (known : Accumulates generation.started generation.finished
      generation.accumulator) (running : generation.started = generation.finished.length + 1)
    (result : Except CallError UtilityModelResponse) :
    (generation.settle result).Accounted := by
  cases result with
  | ok response =>
    refine ⟨known.ended response.usage, ?_⟩
    simp [Generation.settle, Generation.Mirrors, running]
  | error error =>
    refine ⟨known.failed error.usage, ?_⟩
    simp [Generation.settle, Generation.Mirrors, running]

theorem step_accounted (known : generation.Accounted)
    (stepped : generation.step bounded action = some next) : next.Accounted := by
  obtain ⟨known, mirrors⟩ := known
  unfold Generation.Mirrors at mirrors
  unfold Generation.step at stepped
  split at stepped
  · rename_i phase
    rw [phase] at mirrors
    cases stepped
    refine ⟨known.begun mirrors.1, ?_⟩
    simp [Generation.Mirrors, mirrors.1]
  · rename_i phase
    rw [phase] at mirrors
    cases stepped
    exact ⟨known, mirrors.1, true, mirrors.2⟩
  · rename_i phase
    rw [phase] at mirrors
    cases stepped
    exact settle_accounted known mirrors.1 _
  · rename_i phase
    rw [phase] at mirrors
    cases stepped
    exact ⟨known, mirrors⟩
  · rename_i call maxOutputBytes seen phase
    rw [phase] at mirrors
    split at stepped
    · rename_i after live went
      cases stepped
      refine ⟨known, mirrors.1, ?_⟩
      rcases see_going went with ⟨same, rfl⟩ | ⟨_, usage, reported, rfl⟩
      · rw [same]
        exact mirrors.2
      · rw [reported]
    · cases stepped
      exact settle_accounted known mirrors.1 _
  · cases stepped

theorem start_accounted : Generation.start.Accounted :=
  ⟨accumulates_default, rfl, rfl⟩

theorem reachable_accounted (reached : Reachable (Generation.step bounded) .start generation) :
    generation.Accounted :=
  reachable_invariant Generation.Accounted start_accounted
    (fun _ _ _ known stepped => step_accounted known stepped) reached

/-- The accumulator's total reports the generation, whatever it says of completeness. -/
theorem snapshot_reported
    (known : Accumulates generation.started generation.finished generation.accumulator)
    (few : generation.started ≤ maxU32) (ended : generation.finished.length ≤ generation.started)
    (complete : Bool) : Reported generation (generation.accumulator.snapshot complete) := by
  have calls := known.calls
  rw [Nat.min_eq_left few] at calls
  unfold UtilityUsageAccumulator.snapshot
  split
  · refine ⟨calls, ?_, ?_⟩
    · intro counter member some all small
      have sums := known.sums
      cases value : generation.accumulator.value with
      | none =>
        rw [value] at sums
        exact absurd sums some
      | some usage =>
        rw [value] at sums
        obtain ⟨present, absent⟩ := sums.2 counter member
        cases here : counter usage with
        | none =>
          have large := absent here all
          omega
        | some count => exact ⟨usage, count, rfl, here, Nat.le_of_eq (present count here).2.symm⟩
    · intro usage member whole
      cases member
      simp only [Bool.and_eq_true, decide_eq_true_eq] at whole
      obtain ⟨⟨_, sound⟩, settled⟩ := whole
      have counted := known.pending
      exact ⟨by omega, known.sound sound⟩
  · rename_i none
    have nothing : generation.started = 0 := by omega
    refine ⟨nothing.symm, ?_, ?_⟩
    · intro counter _ some
      have empty : generation.finished = [] := List.length_eq_zero_iff.mp (by omega)
      rw [empty] at some
      exact absurd rfl some
    · intro usage member
      cases member

/-- What the guard records when the generation is dropped. -/
theorem guard_records {LoopId Digest : Type} {guard : ObservationGuard}
    {state : ThresholdState LoopId Digest} {current : AutomaticCompactionObservation}
    (armed : guard.armed = true) (own : state.current = some current)
    (same : current.operationId = guard.operationId) (live : Option CompactionUtilityUsage)
    (cancelled late : Bool) :
    ∃ last, (guard.drop state live cancelled late).2.last = some last ∧
      last.utilityUsage = mergeUtilityUsage guard.previousUsage live := by
  unfold ObservationGuard.drop ObservationGuard.finish
  rw [if_pos armed, own, Option.filter_some, if_pos (by simpa using same)]
  exact ⟨_, rfl, rfl⟩

/-- A slot that shows one call shows one call. -/
theorem shadowed_miscounts (accounted : generation.Accounted) (shadowed : generation.Shadowed) :
    ¬ Reported generation generation.live := by
  obtain ⟨several, call, usage, phase, reported⟩ := shadowed
  have mirrors := accounted.mirrors
  unfold Generation.Mirrors at mirrors
  rw [phase] at mirrors
  intro shown
  have calls := shown.calls
  rw [mirrors.2, reported] at calls
  simp only [Option.map_some, Option.getD_some] at calls
  omega

/-- A counter that has no room left stays behind. -/
theorem crowded_miscounts (accounted : generation.Accounted) (many : maxU32 < generation.started)
    (plain : ¬ generation.Shadowed) : ¬ Reported generation generation.live := by
  have several : 2 ≤ generation.started := by
    have large : 2 ≤ maxU32 := by decide
    omega
  have mirrored : ∃ complete, generation.live = generation.accumulator.snapshot complete := by
    have mirrors := accounted.mirrors
    unfold Generation.Mirrors at mirrors
    split at mirrors
    · exact ⟨true, mirrors.2⟩
    · exact ⟨false, mirrors.2⟩
    · rename_i call phase
      cases said : call.usage with
      | none =>
        rw [said] at mirrors
        exact ⟨false, mirrors.2⟩
      | some usage => exact absurd ⟨several, call, usage, phase, said⟩ plain
    · exact mirrors.2
  intro shown
  obtain ⟨complete, live⟩ := mirrored
  have counted := accounted.accumulates.calls
  have calls := shown.calls
  rw [live, UtilityUsageAccumulator.snapshot] at calls
  split at calls
  · simp only [Option.map_some, Option.getD_some] at calls
    omega
  · simp only [Option.map_none, Option.getD_none] at calls
    omega

/-- The slot that the guard records when a generation is dropped is never understated,
except while a second or later call is running whose stream has already reported its
usage, and beyond the calls that 32 bits count. -/
theorem dropped_usage_is_reported_iff {LoopId Digest : Type}
    (reached : Reachable (Generation.step bounded) .start generation) {guard : ObservationGuard}
    {state : ThresholdState LoopId Digest} {current : AutomaticCompactionObservation}
    (armed : guard.armed = true) (own : state.current = some current)
    (same : current.operationId = guard.operationId) (cancelled late : Bool) :
    (∃ last, (guard.drop state generation.live cancelled late).2.last = some last ∧
      last.utilityUsage = mergeUtilityUsage guard.previousUsage generation.live) ∧
    (Reported generation generation.live ↔
      ¬ generation.Shadowed ∧ generation.started ≤ maxU32) := by
  have accounted := reachable_accounted reached
  refine ⟨guard_records armed own same generation.live cancelled late, ?_⟩
  constructor
  · intro shown
    have plain : ¬ generation.Shadowed := by
      intro shadowed
      exact shadowed_miscounts accounted shadowed shown
    refine ⟨plain, ?_⟩
    by_contra many
    exact crowded_miscounts accounted (Nat.lt_of_not_le many) plain shown
  · rintro ⟨plain, few⟩
    have known := accounted.accumulates
    have mirrors := accounted.mirrors
    unfold Generation.Mirrors at mirrors
    split at mirrors
    · rw [mirrors.2]
      exact snapshot_reported known few (Nat.le_of_eq mirrors.1.symm) true
    · rw [mirrors.2]
      exact snapshot_reported known few (by omega) false
    · rename_i call phase
      cases said : call.usage with
      | none =>
        rw [said] at mirrors
        rw [mirrors.2]
        exact snapshot_reported known few (by omega) false
      | some usage =>
        rw [said] at mirrors
        have single : generation.started = 1 := by
          have fewer : ¬ 2 ≤ generation.started := by
            intro several
            exact plain ⟨several, call, usage, phase, said⟩
          omega
        have first : generation.finished = [] := List.length_eq_zero_iff.mp (by omega)
        rw [mirrors.2]
        refine ⟨single.symm, ?_, ?_⟩
        · intro counter _ some
          rw [first] at some
          exact absurd rfl some
        · rintro shown ⟨rfl⟩ wrong
          cases wrong
    · obtain ⟨ended, complete, live⟩ := mirrors
      rw [live]
      exact snapshot_reported known few (Nat.le_of_eq ended.symm) complete

def sampleUsage : Usage :=
  { inputTokens := some 7, outputTokens := some 11, reasoningTokens := none
    cacheReadTokens := none, cacheWriteTokens := none, providerTotalTokens := none }

/-- The first chunk is summarized, and the stream of the second has reported its
usage. -/
def sampleActions : List Action :=
  [.begin, .opened, .see 100 (.event (.textDelta ['s'])), .see 100 (.event (.usage sampleUsage)),
    .see 100 (.event (.finish true)), .see 100 .ended, .begin, .opened,
    .see 100 (.event (.usage sampleUsage))]

def sampleGeneration (actions : List Action) : Generation :=
  replay (Generation.step fun _ _ => true) .start actions

/-- Dropped there, two calls are shown as one. -/
theorem second_call_hides_the_first :
    ¬ ∀ generation, Reachable (Generation.step fun _ _ => true) .start generation →
      Reported generation generation.live := by
  intro all
  have calls := (all (sampleGeneration sampleActions) (reachable_replay (by decide))).calls
  have shown : ((sampleGeneration sampleActions).live.map
      CompactionUtilityUsage.callCount).getD 0 = 1 := by decide
  have started : (sampleGeneration sampleActions).started = 2 := by decide
  rw [shown, started] at calls
  cases calls

def sampleObservation : AutomaticCompactionObservation :=
  { operationId := "auto-boundary-1-0", outcome := "summarizing", afterTokens := none
    utilityUsage := none }

def sampleGuard : ObservationGuard :=
  { operationId := "auto-boundary-1-0", previousUsage := none, armed := true }

def sampleState : ThresholdState Nat Nat :=
  { attempted := some 1, source := some 1, current := some sampleObservation, last := none }

/-- Dropped before the second stream reports, both calls are counted. -/
theorem sample_drop_is_reported :
    Reported (sampleGeneration (sampleActions.take 8))
      (sampleGeneration (sampleActions.take 8)).live ∧
    (sampleGeneration (sampleActions.take 8)).live =
      some { callCount := 2, complete := false, usage := some sampleUsage } := by
  have reached : Reachable (Generation.step fun _ _ => true) .start
      (sampleGeneration (sampleActions.take 8)) := reachable_replay (by decide)
  have plain : ¬ (sampleGeneration (sampleActions.take 8)).Shadowed := by
    rintro ⟨_, call, usage, phase, said⟩
    have fresh : (sampleGeneration (sampleActions.take 8)).phase = .streaming .fresh := by decide
    cases fresh.symm.trans phase
    cases said
  obtain ⟨_, reported⟩ :=
    dropped_usage_is_reported_iff reached (show sampleGuard.armed = true from rfl)
      (show sampleState.current = some sampleObservation from rfl) rfl true false
  exact ⟨reported.mpr ⟨plain, by decide⟩, by decide⟩

end Reporting

end MinicoreAgent.Utility

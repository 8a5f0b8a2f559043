import Mathlib.Logic.Function.Basic
import Mathlib.Data.List.Basic

/-!
# Streams of calls

A stream says text and carries calls: a call is opened, its content comes in
parts, and it is closed. The stream ends once, finished or failed.

A board keeps for each opened call the content that came so far and whether the
call is closed. Each signal is admitted by the board or not, and a sequence of
admitted signals is legal whatever the order in which the calls interleave.
-/
namespace MinicoreAgent.CallStreams

universe u v
variable {Call : Type u} {Letter : Type v} [DecidableEq Call]

inductive Signal (Call : Type u) (Letter : Type v)
  | opened (call : Call)
  | part (call : Call) (content : List Letter)
  | closed (call : Call)
  | said (text : List Letter)
  | other
  | finished
  | failed

/-- The signals of one call. -/
def ofCall (call : Call) (signals : List (Signal Call Letter)) : List (Signal Call Letter) :=
  signals.filter fun signal =>
    match signal with
    | .opened named => decide (named = call)
    | .part named _ => decide (named = call)
    | .closed named => decide (named = call)
    | _ => false

/-- The text said so far. -/
def said (signals : List (Signal Call Letter)) : List Letter :=
  signals.flatMap fun signal =>
    match signal with
    | .said text => text
    | _ => []

omit [DecidableEq Call] in
@[simp] theorem said_append (first second : List (Signal Call Letter)) :
    said (first ++ second) = said first ++ said second := by
  simp [said]

@[simp] theorem of_call_append (call : Call) (first second : List (Signal Call Letter)) :
    ofCall call (first ++ second) = ofCall call first ++ ofCall call second := by
  simp [ofCall]

/-- The end of a stream. -/
def Ends : Signal Call Letter → Prop
  | .finished => True
  | .failed => True
  | _ => False

structure Board (Call : Type u) (Letter : Type v) where
  /-- The content of each opened call and whether the call is closed. -/
  calls : Call → Option (List Letter × Bool) := fun _ => none
  said : List Letter := []
  stopped : Bool := false

/-- The signals a board admits, and the board after them. -/
inductive Admits : Board Call Letter → Signal Call Letter → Board Call Letter → Prop
  | opened {board : Board Call Letter} {call : Call} (running : board.stopped = false)
      (fresh : board.calls call = none) :
      Admits board (.opened call)
        { board with calls := Function.update board.calls call (some ([], false)) }
  | part {board : Board Call Letter} {call : Call} {before : List Letter} (running : board.stopped = false)
      (present : board.calls call = some (before, false)) (content : List Letter) :
      Admits board (.part call content)
        { board with calls := Function.update board.calls call (some (before ++ content, false)) }
  | closed {board : Board Call Letter} {call : Call} {content : List Letter}
      (running : board.stopped = false) (present : board.calls call = some (content, false)) :
      Admits board (.closed call)
        { board with calls := Function.update board.calls call (some (content, true)) }
  | said {board : Board Call Letter} (running : board.stopped = false) (text : List Letter) :
      Admits board (.said text) { board with said := board.said ++ text }
  | other {board : Board Call Letter} (running : board.stopped = false) : Admits board .other board
  | finished {board : Board Call Letter} (running : board.stopped = false)
      (complete : ∀ call content closed, board.calls call = some (content, closed) →
        closed = true) :
      Admits board .finished { board with stopped := true }
  | failed {board : Board Call Letter} (running : board.stopped = false) :
      Admits board .failed { board with stopped := true }

/-- The signals are admitted one after the other. -/
inductive Run : Board Call Letter → List (Signal Call Letter) → Board Call Letter → Prop
  | nil (board : Board Call Letter) : Run board [] board
  | cons {board next final : Board Call Letter} {signal : Signal Call Letter}
      {rest : List (Signal Call Letter)} (admitted : Admits board signal next)
      (later : Run next rest final) : Run board (signal :: rest) final

theorem Run.append {board middle final : Board Call Letter}
    {first second : List (Signal Call Letter)} (before : Run board first middle)
    (after : Run middle second final) : Run board (first ++ second) final := by
  induction before with
  | nil board => exact after
  | cons admitted later inductionHypothesis => exact .cons admitted (inductionHypothesis after)

theorem Run.one {board next : Board Call Letter} {signal : Signal Call Letter}
    (admitted : Admits board signal next) : Run board [signal] next :=
  .cons admitted (.nil next)

/-- What a legal stream is, and how the board reads it. -/
structure Legal (signals : List (Signal Call Letter)) (board : Board Call Letter) : Prop where
  /-- A call that was not opened has no signals. -/
  unopened : ∀ call, board.calls call = none → ofCall call signals = []
  /-- A call is opened once, then come its parts, whose contents together are the
  content of the call, and once it is closed nothing more comes. -/
  calls : ∀ call content closed, board.calls call = some (content, closed) →
    ∃ parts : List (List Letter), ofCall call signals =
      .opened call :: parts.map (.part call) ++ (if closed then [.closed call] else []) ∧
      parts.flatten = content
  said : said signals = board.said
  /-- When the stream finishes every opened call is closed. -/
  complete : ∀ before after, signals = before ++ .finished :: after →
    ∀ call, .opened call ∈ before → .closed call ∈ before
  /-- The end of the stream is its last signal. -/
  last : ∀ before signal after, signals = before ++ signal :: after → Ends signal → after = []
  /-- The board knows whether the stream has ended. -/
  stopped : (∃ signal ∈ signals, Ends signal) ↔ board.stopped = true

section Preservation

variable {signals : List (Signal Call Letter)} {signal : Signal Call Letter}
variable {board next : Board Call Letter} {call : Call}

theorem mem_of_call (member : signal ∈ ofCall call signals) : signal ∈ signals :=
  (List.mem_filter.mp member).1

theorem opened_mem_of_call (member : .opened call ∈ signals) :
    .opened call ∈ ofCall call signals :=
  List.mem_filter.mpr ⟨member, by simp⟩

theorem Legal.empty : Legal ([] : List (Signal Call Letter)) {} where
  unopened := fun _ _ => rfl
  calls := by
    intro call content closed present
    cases present
  said := rfl
  complete := by
    intro before after split
    simp at split
  last := by
    intro before signal after split
    simp at split
  stopped := by simp

/-- While the stream runs it has no end. -/
theorem Legal.running (legal : Legal signals board) (running : board.stopped = false)
    (member : signal ∈ signals) : ¬ Ends signal := by
  intro ends
  have stopped := legal.stopped.mp ⟨signal, member, ends⟩
  rw [running] at stopped
  cases stopped

omit [DecidableEq Call] in
/-- An end in a sequence that has none but perhaps its last signal. -/
theorem end_is_last {last : Signal Call Letter} {before after : List (Signal Call Letter)}
    (open_ : ∀ old ∈ signals, ¬ Ends old) (split : signals ++ [last] = before ++ signal :: after)
    (ends : Ends signal) : before = signals ∧ signal = last ∧ after = [] := by
  rcases List.eq_nil_or_concat after with rfl | ⟨others, final, rfl⟩
  · have parts := List.append_inj' split rfl
    exact ⟨parts.1.symm, (List.singleton_inj.mp parts.2).symm, rfl⟩
  · have whole : signals ++ [last] = (before ++ signal :: others) ++ [final] := by
      rw [split]
      simp
    have parts := List.append_inj' whole rfl
    exact absurd ends (open_ signal (by rw [parts.1]; simp))

/-- Every opened call is closed once the board holds no open one. -/
theorem Legal.closed_of_complete (legal : Legal signals board)
    (complete : ∀ call content closed, board.calls call = some (content, closed) → closed = true)
    (member : .opened call ∈ signals) : .closed call ∈ signals := by
  have mine := opened_mem_of_call member
  cases present : board.calls call with
  | none =>
    rw [legal.unopened call present] at mine
    cases mine
  | some account =>
    obtain ⟨content, closed⟩ := account
    have ended := complete call content closed present
    obtain ⟨parts, form, -⟩ := legal.calls call content closed present
    have listed : .closed call ∈ ofCall call signals := by
      rw [form, ended]
      simp
    exact mem_of_call listed

/-- What is left to show when a signal is added to a legal stream. -/
theorem Legal.snoc (legal : Legal signals board) (running : board.stopped = false)
    (unopened : ∀ call, next.calls call = none → ofCall call (signals ++ [signal]) = [])
    (calls : ∀ call content closed, next.calls call = some (content, closed) →
      ∃ parts : List (List Letter), ofCall call (signals ++ [signal]) =
        .opened call :: parts.map (.part call) ++ (if closed then [.closed call] else []) ∧
        parts.flatten = content)
    (text : next.said = board.said ++ CallStreams.said [signal])
    (complete : signal = .finished → ∀ call, .opened call ∈ signals → .closed call ∈ signals)
    (stopped : Ends signal ↔ next.stopped = true) : Legal (signals ++ [signal]) next where
  unopened := unopened
  calls := calls
  said := by rw [said_append, legal.said, text]
  complete := by
    intro before after split
    obtain ⟨rfl, same, -⟩ := end_is_last (fun old => legal.running running) split trivial
    exact complete same.symm
  last := by
    intro before inspected after split ends
    exact (end_is_last (fun old => legal.running running) split ends).2.2
  stopped := by
    constructor
    · rintro ⟨inspected, member, ends⟩
      rcases List.mem_append.mp member with old | new
      · exact absurd ends (legal.running running old)
      · rw [List.mem_singleton.mp new] at ends
        exact stopped.mp ends
    · intro ended
      exact ⟨signal, by simp, stopped.mpr ended⟩

/-- A signal that belongs to no call leaves the calls as they are. -/
theorem Legal.snoc_plain (legal : Legal signals board) (running : board.stopped = false)
    (plain : ∀ call, ofCall call [signal] = []) (same : next.calls = board.calls)
    (text : next.said = board.said ++ CallStreams.said [signal])
    (complete : signal = .finished → ∀ call, .opened call ∈ signals → .closed call ∈ signals)
    (stopped : Ends signal ↔ next.stopped = true) : Legal (signals ++ [signal]) next := by
  refine legal.snoc running ?_ ?_ text complete stopped
  · intro call absent
    rw [of_call_append, plain, List.append_nil]
    exact legal.unopened call (same ▸ absent)
  · intro call content closed present
    rw [of_call_append, plain, List.append_nil]
    exact legal.calls call content closed (same ▸ present)

/-- A signal of one call changes what the board keeps of this call only. -/
theorem Legal.snoc_call (legal : Legal signals board) (running : board.stopped = false)
    {account : List Letter × Bool} (apart : ∀ other, other ≠ call → ofCall other [signal] = [])
    (same : next = { board with calls := Function.update board.calls call (some account) })
    (silent : CallStreams.said [signal] = []) (goes : ¬ Ends signal)
    (form : ∃ parts : List (List Letter), ofCall call (signals ++ [signal]) =
      .opened call :: parts.map (.part call) ++ (if account.2 then [.closed call] else []) ∧
      parts.flatten = account.1) : Legal (signals ++ [signal]) next := by
  subst same
  refine legal.snoc running ?_ ?_ (by simp [silent]) ?_ ?_
  · intro other absent
    by_cases named : other = call
    · subst named
      simp at absent
    · have before : board.calls other = none := by simpa [named] using absent
      rw [of_call_append, apart other named, legal.unopened other before, List.append_nil]
  · intro other content closed present
    by_cases named : other = call
    · subst named
      obtain rfl : account = (content, closed) := by simpa using present
      exact form
    · have before : board.calls other = some (content, closed) := by simpa [named] using present
      rw [of_call_append, apart other named, List.append_nil]
      exact legal.calls other content closed before
  · rintro rfl
    exact absurd trivial goes
  · simp [goes, running]

/-- An admitted signal keeps the stream legal. -/
theorem Legal.step (legal : Legal signals board) (admitted : Admits board signal next) :
    Legal (signals ++ [signal]) next := by
  cases admitted with
  | @opened call running fresh =>
    refine legal.snoc_call running ?_ rfl rfl id ?_
    · intro other named
      simp [ofCall, named.symm]
    · refine ⟨[], ?_, rfl⟩
      rw [of_call_append, legal.unopened call fresh]
      simp [ofCall]
  | @part call before running present content =>
    refine legal.snoc_call running ?_ rfl rfl id ?_
    · intro other named
      simp [ofCall, named.symm]
    · obtain ⟨parts, form, whole⟩ := legal.calls call before false present
      refine ⟨parts ++ [content], ?_, by simp [whole]⟩
      rw [of_call_append, form]
      simp [ofCall]
  | @closed call content running present =>
    refine legal.snoc_call running ?_ rfl rfl id ?_
    · intro other named
      simp [ofCall, named.symm]
    · obtain ⟨parts, form, whole⟩ := legal.calls call content false present
      refine ⟨parts, ?_, whole⟩
      rw [of_call_append, form]
      simp [ofCall]
  | said running text =>
    refine legal.snoc_plain running (fun _ => rfl) rfl (by simp [CallStreams.said]) ?_ ?_
    · intro wrong
      cases wrong
    · simp [Ends, running]
  | other running =>
    refine legal.snoc_plain running (fun _ => rfl) rfl (by simp [CallStreams.said]) ?_ ?_
    · intro wrong
      cases wrong
    · simp [Ends, running]
  | finished running complete =>
    refine legal.snoc_plain running (fun _ => rfl) rfl (by simp [CallStreams.said]) ?_ ?_
    · intro _ call
      exact legal.closed_of_complete complete
    · simp [Ends]
  | failed running =>
    refine legal.snoc_plain running (fun _ => rfl) rfl (by simp [CallStreams.said]) ?_ ?_
    · intro wrong
      cases wrong
    · simp [Ends]

/-- Admitted signals keep the stream legal. -/
theorem Legal.run {later : List (Signal Call Letter)} {final : Board Call Letter}
    (legal : Legal signals board) (run : Run board later final) :
    Legal (signals ++ later) final := by
  induction run generalizing signals with
  | nil board => simpa using legal
  | cons admitted rest inductionHypothesis =>
    have stepped := inductionHypothesis (legal.step admitted)
    simpa using stepped

end Preservation

end MinicoreAgent.CallStreams

import MinicoreAgent.ProviderStream
import MinicoreAgent.Lib.CallStreams
import Mathlib.Data.List.Induction

/-!
# The protocol of provider streams

Arguments of a tool call may arrive by deltas, with the announced item, with the
done event of the arguments and with the finished item, in any order. Whatever
the provider sends, the events queued for the runtime are a legal stream of
calls: the tools of the state are the calls of a board that admits each event.

A function of the adapter moves the state: it queues events, and a board that
agreed with the state before admits them and agrees with the state after. Moves
compose, so only the functions that touch the tools are looked into.
-/
namespace MinicoreAgent.Provider

open CallStreams

section Chunks

variable {limit : Nat}

/-- A limit of at least four bytes admits the first character of any text. -/
theorem floor_nonempty (wide : 4 ≤ limit) {text : Text} (nonempty : text ≠ []) :
    Text.floorPrefix limit text ≠ [] := by
  cases text with
  | nil => exact absurd rfl nonempty
  | cons char rest =>
    have narrow : char.utf8Size ≤ limit := Nat.le_trans char.utf8Size_le_four wide
    simp [Text.floorPrefix, narrow]

/-- The chunks of a text together are the text. -/
theorem chunk_rounds_flatten (wide : 4 ≤ limit) (rounds : Nat) (text : Text)
    (enough : text.length < rounds) : (chunkRounds limit rounds text).flatten = text := by
  induction rounds generalizing text with
  | zero => cases enough
  | succ rounds inductionHypothesis =>
    obtain ⟨rest, whole⟩ := (Text.floor_prefix_spec limit text).1
    have dropped : (Text.floorPrefix limit text ++ rest).drop (Text.floorPrefix limit text).length =
        rest := List.drop_left
    rw [whole] at dropped
    simp only [chunkRounds, dropped]
    by_cases last : rest = []
    · subst last
      simpa using whole
    · have nonempty : text ≠ [] := by
        rintro rfl
        exact last (List.append_eq_nil_iff.mp whole).2
      have taken := List.length_pos_iff.mpr (floor_nonempty wide nonempty)
      have shorter : rest.length < rounds := by
        have total := congrArg List.length whole
        rw [List.length_append] at total
        omega
      rw [if_neg (by simpa using last), List.flatten_cons, inductionHypothesis rest shorter, whole]

end Chunks

section Signals

variable {CallId Name Digest Replay View : Type}

/-- How an event counts in the stream of calls. -/
def signal : Except (ModelError View) (ModelEvent CallId Name Replay) → Signal CallId Char
  | .ok (.textDelta text) => .said text
  | .ok (.reasoningDelta _) => .other
  | .ok (.toolCallStart toolCallId _) => .opened toolCallId
  | .ok (.toolCallArgumentsDelta toolCallId delta) => .part toolCallId delta
  | .ok (.toolCallEnd toolCallId) => .closed toolCallId
  | .ok (.providerReplay _) => .other
  | .ok (.usage _) => .other
  | .ok (.finish _) => .finished
  | .error _ => .failed

variable [DecidableEq CallId]

/-- The board agrees with the tools, the ids, the text and the end of a state: the
tools are the calls of the board, each under an id of its own, and a tool that has
ended takes no more arguments. -/
structure Tracks (board : Board CallId Char) (tools : List (Nat × ToolState CallId Name))
    (ids : List CallId) (text : Text) (done : Bool) : Prop where
  held : ∀ index tool, Keyed.find tools index = some tool →
    board.calls tool.toolCallId = some (tool.arguments, tool.ended)
  covered : ∀ call account, board.calls call = some account →
    ∃ index tool, Keyed.find tools index = some tool ∧ tool.toolCallId = call
  apart : ∀ first second one other, Keyed.find tools first = some one →
    Keyed.find tools second = some other → one.toolCallId = other.toolCallId → first = second
  known : ∀ index tool, Keyed.find tools index = some tool → tool.toolCallId ∈ ids
  sealed : ∀ index tool, Keyed.find tools index = some tool → tool.ended = true →
    tool.argumentsDone = true ∨ tool.itemDone = true
  said : board.said = text
  stopped : board.stopped = done

/-- The board agrees with the state. -/
def Agrees (board : Board CallId Char) (state : StreamState CallId Name Digest Replay View) :
    Prop :=
  Tracks board state.tools state.toolIds state.text state.done

/-- The state queues events that a board in agreement with it admits, and the board
agrees with the state after them. -/
def Settles (state next : StreamState CallId Name Digest Replay View) : Prop :=
  ∃ events, next.pending = state.pending ++ events ∧
    (state.done = false → ∀ board, Agrees board state →
      ∃ after, Run board (events.map signal) after ∧ Agrees after next)

/-- The state settles without coming to its end. -/
structure Moves (state next : StreamState CallId Name Digest Replay View) : Prop where
  done : next.done = state.done
  settles : Settles state next

variable {state middle next : StreamState CallId Name Digest Replay View}

theorem Settles.trans (first : Settles state middle)
    (running : state.done = false → middle.done = false) (second : Settles middle next) :
    Settles state next := by
  obtain ⟨before, early, admitted⟩ := first
  obtain ⟨after, late, allowed⟩ := second
  refine ⟨before ++ after, ?_, ?_⟩
  · rw [late, early, List.append_assoc]
  · intro started board agrees
    obtain ⟨between, run, held⟩ := admitted started board agrees
    obtain ⟨final, rest, ends⟩ := allowed (running started) between held
    refine ⟨final, ?_, ends⟩
    rw [List.map_append]
    exact run.append rest

theorem Moves.then (moves : Moves state middle) (settles : Settles middle next) :
    Settles state next :=
  moves.settles.trans (fun running => moves.done.trans running) settles

theorem Moves.trans (first : Moves state middle) (second : Moves middle next) :
    Moves state next :=
  ⟨second.done.trans first.done, first.then second.settles⟩

/-- A move, from what it changes of the parts that the board reads. -/
theorem Moves.intro {tools : List (Nat × ToolState CallId Name)} {ids : List CallId} {text : Text}
    {events : List (Except (ModelError View) (ModelEvent CallId Name Replay))}
    (changed : next.tools = tools) (named : next.toolIds = ids) (spoken : next.text = text)
    (done : next.done = state.done) (pending : next.pending = state.pending ++ events)
    (admitted : ∀ board, board.stopped = false → Agrees board state →
      ∃ after, Run board (events.map signal) after ∧ Tracks after tools ids text false) :
    Moves state next := by
  subst changed named spoken
  refine ⟨done, events, pending, ?_⟩
  intro running board agrees
  obtain ⟨after, run, tracks⟩ := admitted board (agrees.stopped.trans running) agrees
  refine ⟨after, run, ?_⟩
  rwa [Agrees, done, running]

/-- Nothing that the board reads has changed. -/
theorem Moves.quiet (pending : next.pending = state.pending) (tools : next.tools = state.tools)
    (ids : next.toolIds = state.toolIds) (text : next.text = state.text)
    (done : next.done = state.done) : Moves state next := by
  refine ⟨done, [], by simpa using pending, ?_⟩
  intro _ board agrees
  refine ⟨board, .nil board, ?_⟩
  rwa [Agrees, tools, ids, text, done]

/-- What the board does not read may change after a move. -/
theorem Moves.relabel (moves : Moves state middle) (pending : next.pending = middle.pending)
    (tools : next.tools = middle.tools) (ids : next.toolIds = middle.toolIds)
    (text : next.text = middle.text) (done : next.done = middle.done) : Moves state next :=
  moves.trans (.quiet pending tools ids text done)

theorem Moves.refl (state : StreamState CallId Name Digest Replay View) : Moves state state :=
  .quiet rfl rfl rfl rfl rfl

omit [DecidableEq CallId] in
/-- Queueing several events at once. -/
theorem queue_all_eq (state : StreamState CallId Name Digest Replay View)
    (events : List (ModelEvent CallId Name Replay)) :
    queueAll state events = { state with pending := state.pending ++ events.map .ok } := by
  unfold queueAll
  induction events generalizing state with
  | nil => simp
  | cons event rest inductionHypothesis =>
    rw [List.foldl_cons, inductionHypothesis]
    simp [queue]

/-- Only text and other events are queued, and the tools stay. -/
structure Speaks (state next : StreamState CallId Name Digest Replay View) : Prop where
  tools : next.tools = state.tools
  ids : next.toolIds = state.toolIds
  done : next.done = state.done
  events : ∃ events, next.pending = state.pending ++ events ∧
    next.text = state.text ++ said (events.map signal) ∧
    ∀ event ∈ events, (∃ text, signal event = .said text) ∨ signal event = .other

omit [DecidableEq CallId] in
theorem Speaks.trans (first : Speaks state middle) (second : Speaks middle next) : Speaks state next := by
  obtain ⟨before, early, text, plain⟩ := first.events
  obtain ⟨after, late, more, simple⟩ := second.events
  refine ⟨second.tools.trans first.tools, second.ids.trans first.ids,
    second.done.trans first.done, before ++ after, ?_, ?_, ?_⟩
  · rw [late, early, List.append_assoc]
  · rw [more, text, List.map_append, said_append, List.append_assoc]
  · intro event member
    rcases List.mem_append.mp member with old | new
    · exact plain event old
    · exact simple event new

omit [DecidableEq CallId] in
theorem Speaks.quiet (pending : next.pending = state.pending) (tools : next.tools = state.tools)
    (ids : next.toolIds = state.toolIds) (text : next.text = state.text)
    (done : next.done = state.done) : Speaks state next :=
  ⟨tools, ids, done, [], by simpa using pending, by simpa [said] using text, by simp⟩

/-- A board admits text and other events while the stream runs. -/
theorem run_plain {signals : List (Signal CallId Char)} (board : Board CallId Char)
    (running : board.stopped = false)
    (plain : ∀ inspected ∈ signals, (∃ text, inspected = .said text) ∨ inspected = .other) :
    Run board signals { board with said := board.said ++ said signals } := by
  induction signals generalizing board with
  | nil => simpa [said] using Run.nil board
  | cons first rest inductionHypothesis =>
    have later := fun inspected member => plain inspected (List.mem_cons_of_mem first member)
    rcases plain first List.mem_cons_self with ⟨text, rfl⟩ | rfl
    · refine .cons (.said running text) ?_
      have run := inductionHypothesis { board with said := board.said ++ text } running later
      simpa [said] using run
    · refine .cons (.other running) ?_
      have run := inductionHypothesis board running later
      simpa [said] using run

theorem Speaks.moves (speaks : Speaks state next) : Moves state next := by
  obtain ⟨events, pending, text, plain⟩ := speaks.events
  refine .intro speaks.tools speaks.ids text speaks.done pending ?_
  intro board running agrees
  refine ⟨_, run_plain board running ?_, ?_⟩
  · intro inspected member
    obtain ⟨event, listed, rfl⟩ := List.mem_map.mp member
    exact plain event listed
  · obtain ⟨held, covered, apart, known, ended, said, stopped⟩ := agrees
    exact ⟨held, covered, apart, known, ended, by rw [said], running⟩

variable (externals : Externals CallId Name Digest Replay View)

omit [DecidableEq CallId] in
theorem event_text_chunks_flatten (text : Text) : (eventTextChunks externals text).flatten = text :=
  chunk_rounds_flatten externals.wide _ text (Nat.lt_succ_self _)

omit [DecidableEq CallId] in
theorem queue_text_speaks (text : Text) (reasoning : Bool) :
    Speaks state (queueText externals state text reasoning) := by
  unfold queueText
  rw [queue_all_eq]
  cases reasoning with
  | true =>
    refine ⟨rfl, rfl, rfl, _, rfl, ?_, ?_⟩
    · simp [said, signal, List.flatMap_map]
    · intro event member
      simp only [List.map_map, List.mem_map, Function.comp, if_true] at member
      obtain ⟨chunk, -, rfl⟩ := member
      exact .inr rfl
  | false =>
    refine ⟨rfl, rfl, rfl, _, rfl, ?_, ?_⟩
    · have chunks := event_text_chunks_flatten externals text
      simpa [said, signal, List.flatMap_map] using chunks.symm
    · intro event member
      simp only [List.map_map, List.mem_map, Function.comp, Bool.false_eq_true, if_false] at member
      obtain ⟨chunk, -, rfl⟩ := member
      exact .inl ⟨chunk, rfl⟩

end Signals

section Tools

variable {CallId Name Digest Replay View : Type} [DecidableEq CallId]
variable {tools : List (Nat × ToolState CallId Name)} {ids : List CallId} {text : Text}
variable {done : Bool} {board : Board CallId Char} {index : Nat}
variable {tool changed : ToolState CallId Name}

omit [DecidableEq CallId] in
/-- A tool after one tool was changed. -/
theorem find_put_cases {position : Nat} {inspected : ToolState CallId Name}
    (found : Keyed.find tools index = some tool)
    (present : Keyed.find (Keyed.put tools index changed) position = some inspected) :
    position = index ∧ inspected = changed ∨
      position ≠ index ∧ Keyed.find tools position = some inspected := by
  by_cases named : position = index
  · subst named
    rw [Keyed.find_put_self found] at present
    exact .inl ⟨rfl, (Option.some.inj present).symm⟩
  · rw [Keyed.find_put_other named] at present
    exact .inr ⟨named, present⟩

/-- A tool was changed under its id, and the board with it. -/
theorem Tracks.put (tracks : Tracks board tools ids text done) (changed : ToolState CallId Name)
    (found : Keyed.find tools index = some tool) (same : changed.toolCallId = tool.toolCallId)
    (ended : changed.ended = true → changed.argumentsDone = true ∨ changed.itemDone = true) :
    Tracks
      { board with
        calls := Function.update board.calls tool.toolCallId
          (some (changed.arguments, changed.ended)) }
      (Keyed.put tools index changed) ids text done := by
  have original : ∀ position inspected,
      Keyed.find (Keyed.put tools index changed) position = some inspected →
      ∃ old, Keyed.find tools position = some old ∧ old.toolCallId = inspected.toolCallId := by
    intro position inspected present
    rcases find_put_cases found present with ⟨rfl, rfl⟩ | ⟨-, old⟩
    · exact ⟨tool, found, same.symm⟩
    · exact ⟨inspected, old, rfl⟩
  constructor
  · intro position inspected present
    rcases find_put_cases found present with ⟨rfl, rfl⟩ | ⟨named, old⟩
    · simp [same]
    · have other : inspected.toolCallId ≠ tool.toolCallId :=
        fun equal => named (tracks.apart position index inspected tool old found equal)
      simpa [other] using tracks.held position inspected old
  · intro call account present
    by_cases named : call = tool.toolCallId
    · exact ⟨index, changed, Keyed.find_put_self found, by rw [named, same]⟩
    · have before : board.calls call = some account := by simpa [named] using present
      obtain ⟨position, old, held, called⟩ := tracks.covered call account before
      have elsewhere : position ≠ index := by
        rintro rfl
        rw [found] at held
        obtain rfl := Option.some.inj held
        exact named called.symm
      exact ⟨position, old, by rwa [Keyed.find_put_other elsewhere], called⟩
  · intro first second one other left right equal
    obtain ⟨oldOne, before, oneId⟩ := original first one left
    obtain ⟨oldOther, after, otherId⟩ := original second other right
    exact tracks.apart first second oldOne oldOther before after (by rw [oneId, otherId, equal])
  · intro position inspected present
    obtain ⟨old, held, oldId⟩ := original position inspected present
    exact oldId ▸ tracks.known position old held
  · intro position inspected present closed
    rcases find_put_cases found present with ⟨rfl, rfl⟩ | ⟨-, old⟩
    · exact ended closed
    · exact tracks.sealed position inspected old closed
  · exact tracks.said
  · exact tracks.stopped

/-- A new tool under a new id, and a new call on the board. -/
theorem Tracks.insert (tracks : Tracks board tools ids text done)
    (absent : Keyed.find tools index = none) (fresh : tool.toolCallId ∉ ids)
    (started : tool.ended = false) :
    Tracks
      { board with
        calls := Function.update board.calls tool.toolCallId (some (tool.arguments, false)) }
      (Keyed.insert index tool tools) (tool.toolCallId :: ids) text done := by
  have cases : ∀ position inspected,
      Keyed.find (Keyed.insert index tool tools) position = some inspected →
      position = index ∧ inspected = tool ∨
        inspected.toolCallId ≠ tool.toolCallId ∧ Keyed.find tools position = some inspected := by
    intro position inspected present
    by_cases named : position = index
    · subst named
      rw [Keyed.find_insert_self] at present
      exact .inl ⟨rfl, (Option.some.inj present).symm⟩
    · rw [Keyed.find_insert_other named] at present
      refine .inr ⟨?_, present⟩
      intro equal
      exact fresh (equal ▸ tracks.known position inspected present)
  constructor
  · intro position inspected present
    rcases cases position inspected present with ⟨-, rfl⟩ | ⟨other, old⟩
    · simp [started]
    · simpa [other] using tracks.held position inspected old
  · intro call account present
    by_cases named : call = tool.toolCallId
    · exact ⟨index, tool, Keyed.find_insert_self tools index tool, named.symm⟩
    · have before : board.calls call = some account := by simpa [named] using present
      obtain ⟨position, old, held, called⟩ := tracks.covered call account before
      have elsewhere : position ≠ index := by
        rintro rfl
        rw [absent] at held
        cases held
      exact ⟨position, old, by rwa [Keyed.find_insert_other elsewhere], called⟩
  · intro first second one other left right equal
    rcases cases first one left with ⟨rfl, rfl⟩ | ⟨apart, before⟩
    · rcases cases second other right with ⟨rfl, -⟩ | ⟨apart, -⟩
      · rfl
      · exact absurd equal.symm apart
    · rcases cases second other right with ⟨-, rfl⟩ | ⟨-, after⟩
      · exact absurd equal apart
      · exact tracks.apart first second one other before after equal
  · intro position inspected present
    rcases cases position inspected present with ⟨-, rfl⟩ | ⟨-, old⟩
    · exact List.mem_cons_self
    · exact List.mem_cons_of_mem _ (tracks.known position inspected old)
  · intro position inspected present closed
    rcases cases position inspected present with ⟨-, rfl⟩ | ⟨-, old⟩
    · rw [started] at closed
      cases closed
    · exact tracks.sealed position inspected old closed
  · exact tracks.said
  · exact tracks.stopped

/-- A board admits the parts of an open call. -/
theorem run_parts {call : CallId} {before : List Char} (board : Board CallId Char)
    (running : board.stopped = false) (present : board.calls call = some (before, false))
    (parts : List (List Char)) :
    Run board (parts.map (.part call))
      { board with
        calls := Function.update board.calls call (some (before ++ parts.flatten, false)) } := by
  induction parts generalizing board before with
  | nil =>
    have same : Function.update board.calls call (some (before, false)) = board.calls :=
      Function.update_eq_self_iff.mpr present.symm
    simpa [same] using Run.nil board
  | cons part rest inductionHypothesis =>
    refine .cons (.part running present part) ?_
    have held : Function.update board.calls call (some (before ++ part, false)) call =
        some (before ++ part, false) := Function.update_self ..
    have run := inductionHypothesis
      { board with calls := Function.update board.calls call (some (before ++ part, false)) }
      running held
    simpa using run

end Tools

section Functions

variable {CallId Name Digest Replay View : Type} [DecidableEq CallId]
variable {state next : StreamState CallId Name Digest Replay View} {index : Nat}
variable {tool changed : ToolState CallId Name}

/-- A tool was changed where the board reads nothing. -/
theorem Moves.mark (found : Keyed.find state.tools index = some tool)
    (same : changed.toolCallId = tool.toolCallId) (arguments : changed.arguments = tool.arguments)
    (going : changed.ended = tool.ended)
    (ended : tool.argumentsDone = true ∨ tool.itemDone = true →
      changed.argumentsDone = true ∨ changed.itemDone = true)
    (tools : next.tools = Keyed.put state.tools index changed)
    (ids : next.toolIds = state.toolIds) (text : next.text = state.text)
    (done : next.done = state.done) (pending : next.pending = state.pending) :
    Moves state next := by
  refine .intro tools ids text done (pending.trans (List.append_nil _).symm) ?_
  intro board running agrees
  have tracks := agrees.put changed found same
    (fun closed => ended (agrees.sealed index tool found (going ▸ closed)))
  have unchanged : Function.update board.calls tool.toolCallId
      (some (changed.arguments, changed.ended)) = board.calls := by
    rw [arguments, going]
    exact Function.update_eq_self_iff.mpr (agrees.held index tool found).symm
  rw [unchanged, agrees.stopped.symm.trans running] at tracks
  exact ⟨board, .nil board, tracks⟩

/-- Arguments were appended to a tool that still takes them. -/
theorem Moves.parts (chunks : List Text) (found : Keyed.find state.tools index = some tool)
    (unsealed : tool.argumentsDone = false ∧ tool.itemDone = false)
    (tools : next.tools = Keyed.put state.tools index
      { tool with arguments := tool.arguments ++ chunks.flatten })
    (ids : next.toolIds = state.toolIds) (text : next.text = state.text)
    (done : next.done = state.done)
    (pending : next.pending = state.pending ++
      chunks.map (fun chunk => .ok (.toolCallArgumentsDelta tool.toolCallId chunk))) :
    Moves state next := by
  refine .intro tools ids text done pending ?_
  intro board running agrees
  have going : tool.ended = false := by
    by_contra ended
    have closed := agrees.sealed index tool found (by simpa using ended)
    simp [unsealed] at closed
  have present := agrees.held index tool found
  rw [going] at present
  have run := run_parts board running present chunks
  have tracks := agrees.put { tool with arguments := tool.arguments ++ chunks.flatten } found rfl
    (agrees.sealed index tool found)
  rw [agrees.stopped.symm.trans running] at tracks
  refine ⟨_, ?_, tracks⟩
  rw [List.map_map, going]
  exact run

/-- A tool was started under a new id. -/
theorem Moves.start (tool : ToolState CallId Name) (absent : Keyed.find state.tools index = none)
    (fresh : tool.toolCallId ∉ state.toolIds) (blank : tool.arguments = [])
    (started : tool.ended = false) (tools : next.tools = Keyed.insert index tool state.tools)
    (ids : next.toolIds = tool.toolCallId :: state.toolIds) (text : next.text = state.text)
    (done : next.done = state.done)
    (pending : next.pending = state.pending ++ [.ok (.toolCallStart tool.toolCallId tool.name)]) :
    Moves state next := by
  refine .intro tools ids text done pending ?_
  intro board running agrees
  have unopened : board.calls tool.toolCallId = none := by
    cases present : board.calls tool.toolCallId with
    | none => rfl
    | some account =>
      obtain ⟨position, old, held, same⟩ := agrees.covered _ account present
      exact absurd (same ▸ agrees.known position old held) fresh
  have tracks := agrees.insert absent fresh started
  rw [agrees.stopped.symm.trans running, blank] at tracks
  exact ⟨_, .one (.opened running unopened), tracks⟩

/-- A tool that takes no more arguments has ended. -/
theorem Moves.stop (found : Keyed.find state.tools index = some tool)
    (going : tool.ended = false) (ended : tool.argumentsDone = true ∨ tool.itemDone = true)
    (tools : next.tools = Keyed.put state.tools index { tool with ended := true })
    (ids : next.toolIds = state.toolIds) (text : next.text = state.text)
    (done : next.done = state.done)
    (pending : next.pending = state.pending ++ [.ok (.toolCallEnd tool.toolCallId)]) :
    Moves state next := by
  refine .intro tools ids text done pending ?_
  intro board running agrees
  have present := agrees.held index tool found
  rw [going] at present
  have tracks := agrees.put { tool with ended := true } found rfl (fun _ => ended)
  rw [agrees.stopped.symm.trans running] at tracks
  exact ⟨_, .one (.closed running present), tracks⟩

variable (externals : Externals CallId Name Digest Replay View)

theorem append_tool_arguments_moves (state : StreamState CallId Name Digest Replay View)
    (index : Nat) (delta : Text) :
    Moves state (appendToolArguments externals state index delta).1 := by
  unfold appendToolArguments
  cases found : Keyed.find state.tools index with
  | none => exact .refl state
  | some tool =>
    simp only
    split
    · exact .refl state
    · rename_i unsealed
      split
      · exact .refl state
      · rw [queue_all_eq]
        refine .parts (eventTextChunks externals delta) found (by simpa using unsealed)
          ?_ rfl rfl rfl ?_
        · rw [event_text_chunks_flatten]
        · simp [List.map_map, Function.comp_def]

theorem start_tool_moves (state : StreamState CallId Name Digest Replay View) (index : Nat)
    (item : FunctionCallItem) : Moves state (startTool externals state index item).1 := by
  unfold startTool
  split
  · exact .refl state
  · rename_i absent
    split
    · rename_i toolCallId name _ _
      split
      · exact .refl state
      · rename_i fresh
        refine Moves.trans ?_ (append_tool_arguments_moves externals _ index item.arguments)
        exact .start ⟨toolCallId, name, [], false, false, false⟩ (by simpa using absent) fresh rfl
          rfl rfl rfl rfl rfl rfl
    · exact .refl state

theorem reconcile_arguments_moves (state : StreamState CallId Name Digest Replay View)
    (index : Nat) (complete : Text) :
    Moves state (reconcileArguments externals state index complete).1 := by
  unfold reconcileArguments
  split
  · exact .refl state
  · split
    · exact .refl state
    · split
      · exact .refl state
      · exact append_tool_arguments_moves externals state index _

/-- A tool is ended only after it was marked to take no more arguments. -/
theorem mark_and_end_moves (state : StreamState CallId Name Digest Replay View) (index : Nat)
    (mark : ToolState CallId Name → ToolState CallId Name)
    (same : ∀ tool, (mark tool).toolCallId = tool.toolCallId ∧
      (mark tool).arguments = tool.arguments ∧ (mark tool).ended = tool.ended)
    (marked : ∀ tool, (mark tool).argumentsDone = true ∨ (mark tool).itemDone = true) :
    Moves state (markAndEnd state index mark).1 := by
  unfold markAndEnd
  cases found : Keyed.find state.tools index with
  | none => exact .refl state
  | some tool =>
    obtain ⟨named, arguments, going⟩ := same tool
    have marking : Moves state
        { state with tools := Keyed.put state.tools index (mark tool) } :=
      .mark found named arguments going (fun _ => marked tool) rfl rfl rfl rfl rfl
    have here : Keyed.find (Keyed.put state.tools index (mark tool)) index = some (mark tool) :=
      Keyed.find_put_self found
    refine marking.trans ?_
    simp only [endToolOnce, here]
    split
    · exact .refl _
    · rename_i open_
      split
      · exact .refl _
      · exact .stop here (by simpa using open_) (marked tool) rfl rfl rfl rfl rfl

theorem Outcome.and_then_moves {outcome : Outcome CallId Name Digest Replay View}
    {following : StreamState CallId Name Digest Replay View →
      Outcome CallId Name Digest Replay View} (first : Moves state outcome.1)
    (second : ∀ left, Moves left (following left).1) :
    Moves state (outcome.andThen following).1 := by
  obtain ⟨left, result⟩ := outcome
  cases result with
  | error _ => exact first
  | ok _ => exact first.trans (second left)

theorem finish_tool_arguments_moves (state : StreamState CallId Name Digest Replay View)
    (index : Nat) (arguments : Text) :
    Moves state (finishToolArguments externals state index arguments).1 := by
  unfold finishToolArguments
  split
  · exact .refl state
  · apply Outcome.and_then_moves (reconcile_arguments_moves externals state index arguments)
    intro left
    exact mark_and_end_moves left index _ (fun _ => ⟨rfl, rfl, rfl⟩) (fun _ => .inl rfl)

theorem finish_tool_item_moves (state : StreamState CallId Name Digest Replay View)
    (index : Nat) (item : FunctionCallItem) :
    Moves state (finishToolItem externals state index item).1 := by
  unfold finishToolItem
  apply Outcome.and_then_moves
  · split
    · split
      · exact .refl state
      · split
        · exact .refl state
        · exact reconcile_arguments_moves externals state index item.arguments
    · exact start_tool_moves externals state index item
  · intro left
    exact mark_and_end_moves left index _ (fun _ => ⟨rfl, rfl, rfl⟩) (fun _ => .inr rfl)

end Functions

section Speech

variable {CallId Name Digest Replay View : Type} [DecidableEq CallId] [DecidableEq Digest]
variable {state next : StreamState CallId Name Digest Replay View}
variable (externals : Externals CallId Name Digest Replay View)

omit [DecidableEq CallId] [DecidableEq Digest] in
theorem queue_reasoning_delta_speaks (state : StreamState CallId Name Digest Replay View)
    (event : ReasoningSummaryDeltaEvent) :
    Speaks state (queueReasoningDelta externals state event) := by
  unfold queueReasoningDelta
  simp only
  split
  · split
    · exact .quiet rfl rfl rfl rfl rfl
    · exact .quiet rfl rfl rfl rfl rfl
  · refine Speaks.trans (Speaks.trans ?_ (queue_text_speaks externals event.delta true))
      (.quiet rfl rfl rfl rfl rfl)
    split
    · exact queue_text_speaks externals _ true
    · exact .quiet rfl rfl rfl rfl rfl

omit [DecidableEq CallId] [DecidableEq Digest] in
theorem queue_item_reasoning_speaks (state : StreamState CallId Name Digest Replay View)
    (index : Nat) (item : Value) :
    Speaks state (queueItemReasoning externals state index item) := by
  unfold queueItemReasoning
  simp only
  generalize List.zipIdx _ = parts
  induction parts generalizing state with
  | nil => exact .quiet rfl rfl rfl rfl rfl
  | cons part rest inductionHypothesis =>
    rw [List.foldl_cons]
    exact (queue_reasoning_delta_speaks externals state _).trans (inductionHypothesis _)

omit [DecidableEq CallId] [DecidableEq Digest] in
theorem capture_output_item_speaks (state : StreamState CallId Name Digest Replay View)
    (index : Nat) (item : Value) :
    Speaks state (captureOutputItem externals state index item).1 := by
  unfold captureOutputItem
  simp only
  repeat' split
  all_goals exact .quiet rfl rfl rfl rfl rfl

omit [DecidableEq CallId] in
theorem finalize_output_items_speaks (state : StreamState CallId Name Digest Replay View)
    (output : Option (List Value)) :
    Speaks state (finalizeOutputItems externals state output).1 := by
  unfold finalizeOutputItems
  repeat' split
  all_goals exact .quiet rfl rfl rfl rfl rfl

omit [DecidableEq CallId] [DecidableEq Digest] in
theorem queue_suffix_speaks (state : StreamState CallId Name Digest Replay View) (text : Text) :
    Speaks state (queueSuffix externals state text).1 := by
  unfold queueSuffix
  split
  · split
    · exact .quiet rfl rfl rfl rfl rfl
    · exact queue_text_speaks externals _ false
  · exact .quiet rfl rfl rfl rfl rfl

omit [DecidableEq CallId] [DecidableEq Digest] in
theorem replay_event_speaks (state : StreamState CallId Name Digest Replay View) :
    Speaks state (replayEvent externals state).1 := by
  unfold replayEvent
  repeat' split
  all_goals exact .quiet rfl rfl rfl rfl rfl

omit [DecidableEq CallId] [DecidableEq Digest] in
/-- The event of a replay is neither text nor part of a call. -/
theorem replay_event_other (state : StreamState CallId Name Digest Replay View)
    {event : ModelEvent CallId Name Replay}
    (replayed : (replayEvent externals state).2 = .ok (some event)) :
    ∃ replay, event = .providerReplay replay := by
  have without : ∀ inspected : StreamState CallId Name Digest Replay View,
      withoutReplay inspected ≠ .ok (some event) := by
    intro inspected
    unfold withoutReplay
    split
    · simp
    · simp
  unfold replayEvent at replayed
  repeat' split at replayed
  all_goals try exact absurd replayed (without _)
  all_goals simp at replayed
  exact ⟨_, replayed.symm⟩

omit [DecidableEq CallId] [DecidableEq Digest] in
theorem queue_all_speaks {events : List (ModelEvent CallId Name Replay)}
    (plain : ∀ event ∈ events,
      signal (.ok event : Except (ModelError View) (ModelEvent CallId Name Replay)) = .other) :
    Speaks state (queueAll state events) := by
  rw [queue_all_eq]
  refine ⟨rfl, rfl, rfl, _, rfl, ?_, ?_⟩
  · have silent : said ((events.map .ok).map fun event : Except (ModelError View) _ => signal event) =
        [] := by
      rw [said, List.flatMap_eq_nil_iff]
      intro inspected member
      rw [List.map_map] at member
      obtain ⟨event, listed, rfl⟩ := List.mem_map.mp member
      rw [Function.comp, plain event listed]
    rw [silent, List.append_nil]
  · intro event member
    obtain ⟨inner, listed, rfl⟩ := List.mem_map.mp member
    exact .inr (plain inner listed)

end Speech

section Frames

variable {CallId Name Digest Replay View : Type} [DecidableEq CallId] [DecidableEq Digest]
variable {state middle next : StreamState CallId Name Digest Replay View}

omit [DecidableEq Digest] in
theorem fail_settles (state : StreamState CallId Name Digest Replay View) (error : ModelError View) :
    Settles state (fail state error) := by
  refine ⟨[.error error], rfl, ?_⟩
  intro running board agrees
  obtain ⟨held, covered, apart, known, ended, said, stopped⟩ := agrees
  refine ⟨{ board with stopped := true }, .one (.failed (stopped.trans running)), ?_⟩
  exact ⟨held, covered, apart, known, ended, said, rfl⟩

omit [DecidableEq Digest] in
/-- The finish is queued when every tool has ended. -/
theorem finish_settles (complete : ∀ entry ∈ state.tools, entry.2.ended = true)
    (reason : ModelFinishReason) :
    Settles state { queue state (.finish reason) with done := true } := by
  refine ⟨[.ok (.finish reason)], rfl, ?_⟩
  intro running board agrees
  obtain ⟨held, covered, apart, known, ended, said, stopped⟩ := agrees
  refine ⟨{ board with stopped := true }, .one (.finished (stopped.trans running) ?_), ?_⟩
  · intro call content closed present
    obtain ⟨index, tool, found, rfl⟩ := covered call _ present
    rw [held index tool found] at present
    cases present
    exact complete _ (Keyed.find_mem found)
  · exact ⟨held, covered, apart, known, ended, said, rfl⟩

/-- A success settles the state, and a failure has only moved it. -/
structure Keeps (state : StreamState CallId Name Digest Replay View)
    (outcome : Outcome CallId Name Digest Replay View) : Prop where
  settles : Settles state outcome.1
  moves : outcome.2 = .error () → Moves state outcome.1

omit [DecidableEq Digest] in
theorem Moves.keeps {outcome : Outcome CallId Name Digest Replay View}
    (moves : Moves state outcome.1) : Keeps state outcome :=
  ⟨moves.settles, fun _ => moves⟩

omit [DecidableEq Digest] in
theorem Keeps.ite {condition : Prop} [Decidable condition]
    {first second : Outcome CallId Name Digest Replay View} (yes : Keeps state first)
    (no : Keeps state second) : Keeps state (if condition then first else second) := by
  split
  · exact yes
  · exact no

omit [DecidableEq Digest] in
theorem Outcome.and_then_keeps {outcome : Outcome CallId Name Digest Replay View}
    {following : StreamState CallId Name Digest Replay View →
      Outcome CallId Name Digest Replay View} (first : Moves state outcome.1)
    (second : ∀ left, outcome = (left, .ok ()) → Keeps left (following left)) :
    Keeps state (outcome.andThen following) := by
  obtain ⟨left, result⟩ := outcome
  cases result with
  | error _ => exact first.keeps
  | ok _ =>
    obtain ⟨settles, moves⟩ := second left rfl
    exact ⟨first.then settles, fun failed => first.trans (moves failed)⟩

variable (externals : Externals CallId Name Digest Replay View)

omit [DecidableEq Digest] in
/-- The last events after a state whose tools have all ended. -/
theorem queue_finish_settles (complete : ∀ entry ∈ state.tools, entry.2.ended = true)
    {replay : Option (ModelEvent CallId Name Replay)}
    (plain : ∀ event, replay = some event → ∃ content, event = .providerReplay content)
    (usage : Option Usage) (reason : ModelFinishReason) :
    Settles state (queueFinish state replay usage reason) := by
  have replayed : Speaks state (queueAll state replay.toList) := by
    refine queue_all_speaks ?_
    intro event member
    obtain ⟨content, rfl⟩ := plain event (Option.mem_toList.mp member)
    rfl
  have counted : Speaks { queueAll state replay.toList with terminalSeen := true }
      (queueAll { queueAll state replay.toList with terminalSeen := true }
        (usage.toList.map .usage)) := by
    refine queue_all_speaks ?_
    intro event member
    obtain ⟨used, -, rfl⟩ := List.mem_map.mp member
    rfl
  have seen : Speaks (queueAll state replay.toList)
      { queueAll state replay.toList with terminalSeen := true } := .quiet rfl rfl rfl rfl rfl
  have spoken := (replayed.trans seen).trans counted
  refine spoken.moves.then (finish_settles ?_ reason)
  rwa [spoken.tools]

omit [DecidableEq Digest] in
/-- The end of a response that passed the first checks. -/
theorem finish_replayed_keeps (complete : ∀ entry ∈ state.tools, entry.2.ended = true)
    (usage : Option Usage) (reason : ModelFinishReason) :
    Keeps state
      (match replayEvent externals state with
        | (left, .error ()) => (left, .error ())
        | (left, .ok replay) => (queueFinish left replay usage reason, .ok ())) := by
  have speaks := replay_event_speaks externals state
  cases replayed : replayEvent externals state with
  | mk left result =>
    rw [replayed] at speaks
    cases result with
    | error _ => exact speaks.moves.keeps
    | ok replay =>
      have settles : Settles left (queueFinish left replay usage reason) := by
        refine queue_finish_settles ?_ ?_ usage reason
        · rwa [speaks.tools]
        · rintro event rfl
          exact replay_event_other externals state (by rw [replayed])
      exact ⟨speaks.moves.then settles, fun failed => by cases failed⟩

theorem finish_response_keeps (state : StreamState CallId Name Digest Replay View)
    (response : ProviderResponse) (kind : TerminalKind) :
    Keeps state (finishResponse externals state response kind) := by
  unfold finishResponse
  split
  · exact (Moves.refl state).keeps
  · rename_i unended
    have open_ : state.terminalSeen = false ∧ ∀ index tool, (index, tool) ∈ state.tools →
        tool.ended = true := by simpa using unended
    have complete : ∀ entry ∈ state.tools, entry.2.ended = true :=
      fun entry member => open_.2 entry.1 entry.2 member
    split
    · exact (Moves.refl state).keeps
    · split
      · exact (Moves.refl state).keeps
      · have finalized := finalize_output_items_speaks externals state response.output
        apply Outcome.and_then_keeps finalized.moves
        intro left leaves
        rw [leaves] at finalized
        have noted : Speaks left (noteRefusals left) := .quiet rfl rfl rfl rfl rfl
        split
        · exact noted.moves.keeps
        · rename_i text _
          have whole := noted.trans (queue_suffix_speaks externals (noteRefusals left) text)
          apply Outcome.and_then_keeps whole.moves
          intro final ends
          rw [ends] at whole
          refine finish_replayed_keeps externals ?_ _ _
          rwa [whole.tools, finalized.tools]

omit [DecidableEq Digest] in
theorem with_event_keeps {Event : Type} {event : Option Event}
    {act : Event → Outcome CallId Name Digest Replay View}
    (acts : ∀ read, event = some read → Keeps state (act read)) :
    Keeps state (withEvent state event act) := by
  unfold withEvent
  cases event with
  | none => exact (Moves.refl state).keeps
  | some read => exact acts read rfl

omit [DecidableEq Digest] in
theorem item_added_moves (state : StreamState CallId Name Digest Replay View)
    (event : OutputItemEvent) : Moves state (itemAdded externals state event).1 := by
  unfold itemAdded
  split
  · split
    · exact .refl state
    · exact start_tool_moves externals state event.outputIndex _
  · split
    · exact .quiet rfl rfl rfl rfl rfl
    · exact .refl state

omit [DecidableEq Digest] in
theorem item_done_moves (state : StreamState CallId Name Digest Replay View)
    (event : OutputItemEvent) : Moves state (itemDone externals state event).1 := by
  unfold itemDone
  split
  · split
    · exact .refl state
    · exact finish_tool_item_moves externals state event.outputIndex _
  · split
    · split
      · exact .quiet rfl rfl rfl rfl rfl
      · have speaks := queue_item_reasoning_speaks externals state event.outputIndex event.item
        exact speaks.moves.relabel rfl rfl rfl rfl rfl
    · exact .refl state

theorem handle_event_keeps (state : StreamState CallId Name Digest Replay View)
    (eventType : Text) (value : Value) :
    Keeps state (handleEvent externals state eventType value) := by
  have reasoning : ∀ event, Keeps state
      ({ queueReasoningDelta externals state event with reasoningSeen := true }, .ok ()) := by
    intro event
    have speaks := queue_reasoning_delta_speaks externals state event
    exact Moves.keeps (speaks.moves.relabel rfl rfl rfl rfl rfl)
  unfold handleEvent
  apply Keeps.ite
  · apply with_event_keeps
    intro event _
    exact (queue_text_speaks externals event.delta false).moves.keeps
  apply Keeps.ite
  · apply with_event_keeps
    intro event _
    have noted : Moves state
        { state with refusalSeen := state.refusalSeen || !event.delta.isEmpty } :=
      .quiet rfl rfl rfl rfl rfl
    exact (noted.trans (queue_text_speaks externals event.delta false).moves).keeps
  apply Keeps.ite
  · exact with_event_keeps (fun event _ => reasoning event)
  apply Keeps.ite
  · apply Keeps.ite
    · exact with_event_keeps (fun event _ => reasoning event)
    · exact (Moves.refl state).keeps
  apply Keeps.ite
  · exact Moves.keeps (.quiet rfl rfl rfl rfl rfl)
  apply Keeps.ite
  · exact with_event_keeps (fun event _ => (item_added_moves externals state event).keeps)
  apply Keeps.ite
  · exact with_event_keeps
      (fun event _ => (append_tool_arguments_moves externals state event.outputIndex _).keeps)
  apply Keeps.ite
  · exact with_event_keeps
      (fun event _ => (finish_tool_arguments_moves externals state event.outputIndex _).keeps)
  apply Keeps.ite
  · apply with_event_keeps
    intro event _
    apply Outcome.and_then_keeps
      (capture_output_item_speaks externals state event.outputIndex event.item).moves
    intro left _
    exact (item_done_moves externals left event).keeps
  apply Keeps.ite
  · exact with_event_keeps (fun event _ => finish_response_keeps externals state event.response _)
  apply Keeps.ite
  · exact with_event_keeps (fun event _ => finish_response_keeps externals state event.response _)
  apply Keeps.ite
  · have seen : Moves state { state with terminalSeen := true } := .quiet rfl rfl rfl rfl rfl
    exact ⟨seen.then (fail_settles _ _), fun failed => by cases failed⟩
  · exact (Moves.refl state).keeps

theorem handle_frame_keeps (state : StreamState CallId Name Digest Replay View)
    (frame : List UInt8) : Keeps state (handleFrame externals state frame) := by
  unfold handleFrame
  split
  · exact ⟨fail_settles _ _, fun failed => by cases failed⟩
  · split
    · exact (Moves.refl state).keeps
    · split
      · exact (Moves.refl state).keeps
      · rename_i eventType _
        have seen : Moves state
            { state with
              providerEventSeen := true
              outputSeen := state.outputSeen || isOutputEvent eventType } :=
          .quiet rfl rfl rfl rfl rfl
        obtain ⟨settles, moves⟩ := handle_event_keeps externals _ eventType _
        exact ⟨seen.then settles, fun failed => seen.trans (moves failed)⟩

end Frames

section Driver

variable {CallId Name Digest Replay View : Type} [DecidableEq CallId] [DecidableEq Digest]
variable {state middle next : StreamState CallId Name Digest Replay View}

variable (externals : Externals CallId Name Digest Replay View)

/-- The frames of a chunk, handed over while the stream is not done. -/
theorem handle_frames_settles (state : StreamState CallId Name Digest Replay View)
    (frames : List (List UInt8)) : Settles state (handleFrames externals state frames) := by
  induction frames generalizing state with
  | nil => exact (Moves.refl state).settles
  | cons frame rest inductionHypothesis =>
    obtain ⟨settles, moves⟩ := handle_frame_keeps externals state frame
    unfold handleFrames
    cases handled : handleFrame externals state frame with
    | mk left result =>
      rw [handled] at settles moves
      cases result with
      | error _ => exact (moves rfl).then (fail_settles left _)
      | ok _ =>
        simp only
        split
        · exact settles
        · rename_i running
          exact settles.trans (fun _ => by simpa using running) (inductionHypothesis left)

theorem receive_settles (state : StreamState CallId Name Digest Replay View)
    (received : Received) : Settles state (receive externals state received) := by
  cases received with
  | cancelled => exact fail_settles state _
  | deadline => exact fail_settles state _
  | broken timeout => exact fail_settles state _
  | closed => exact fail_settles state _
  | chunk frames parserFailed =>
    have settles := handle_frames_settles externals state frames
    simp only [receive]
    split
    · rename_i failed
      have running : (handleFrames externals state frames).done = false := by
        simpa using (Bool.and_eq_true_iff.mp failed).2
      exact settles.trans (fun _ => running) (fail_settles _ _)
    · exact settles

/-- Some board reads the queued events as a legal stream and agrees with the state. -/
def Sound (stream : Stream CallId Name Digest Replay View) : Prop :=
  ∃ board, Legal (stream.queued.map signal) board ∧ Agrees board stream.state

theorem next_sound {stream : Stream CallId Name Digest Replay View} (sound : Sound stream)
    (received : Received) : Sound (stream.next externals received) := by
  obtain ⟨board, legal, agrees⟩ := sound
  unfold Stream.next
  simp only
  split
  · refine ⟨board, ?_, agrees⟩
    simpa [Stream.queued] using legal
  · rename_i running
    obtain ⟨events, pending, admitted⟩ :=
      receive_settles externals { stream.state with pending := [] } received
    obtain ⟨after, run, held⟩ := admitted (by simpa using running) board agrees
    refine ⟨after, ?_, held⟩
    rw [Stream.queued, pending, List.nil_append, List.map_append]
    exact legal.run run

theorem serve_sound (replayIdentity : Option (Text × Text)) (receptions : List Received) :
    Sound (serve externals replayIdentity receptions) := by
  have start : Sound
      { state := { replayIdentity } : Stream CallId Name Digest Replay View } := by
    refine ⟨{}, Legal.empty, ?_⟩
    constructor
    · intro index tool found
      cases found
    · intro call account present
      cases present
    · intro first second one other found
      cases found
    · intro index tool found
      cases found
    · intro index tool found
      cases found
    · rfl
    · rfl
  unfold serve
  induction receptions using List.reverseRecOn with
  | nil => exact start
  | append_singleton earlier last inductionHypothesis =>
    rw [List.foldl_append]
    exact next_sound externals inductionHypothesis last

/-- The events of a stream are legal whatever it receives: each call id is started
once, its argument deltas follow, and after its end comes nothing of it; the deltas
of an ended call are the arguments recorded for it; a finish is the last event,
comes when every started call has ended, and the text deltas before it are the text
of the state; and after an error comes nothing. -/
theorem provider_stream_legal (replayIdentity : Option (Text × Text))
    (receptions : List Received) :
    let stream := serve externals replayIdentity receptions
    (∀ call, ofCall call (stream.queued.map signal) = [] ∨
      ∃ (deltas : List Text) (ended : Bool), ofCall call (stream.queued.map signal) =
        .opened call :: deltas.map (.part call) ++ if ended then [.closed call] else []) ∧
    (∀ index tool, Keyed.find stream.state.tools index = some tool → tool.ended = true →
      ∃ deltas : List Text, ofCall tool.toolCallId (stream.queued.map signal) =
        .opened tool.toolCallId :: deltas.map (.part tool.toolCallId) ++
          [.closed tool.toolCallId] ∧
        deltas.flatten = tool.arguments) ∧
    (∀ before reason after, stream.queued = before ++ .ok (.finish reason) :: after →
      after = [] ∧
      (∀ call, .opened call ∈ before.map signal → .closed call ∈ before.map signal) ∧
      said (before.map signal) = stream.state.text) ∧
    (∀ before error after, stream.queued = before ++ .error error :: after → after = []) := by
  intro stream
  obtain ⟨board, legal, agrees⟩ := serve_sound externals replayIdentity receptions
  refine ⟨?_, ?_, ?_, ?_⟩
  · intro call
    cases present : board.calls call with
    | none => exact .inl (legal.unopened call present)
    | some account =>
      obtain ⟨content, closed⟩ := account
      obtain ⟨parts, form, -⟩ := legal.calls call content closed present
      exact .inr ⟨parts, closed, form⟩
  · intro index tool found ended
    have present := agrees.held index tool found
    rw [ended] at present
    exact legal.calls tool.toolCallId tool.arguments true present
  · intro before reason after split
    have signals : stream.queued.map signal =
        before.map signal ++ .finished :: after.map signal := by
      rw [split, List.map_append, List.map_cons]
      rfl
    have last := legal.last _ _ _ signals trivial
    have text : said (before.map signal) = stream.state.text := by
      have whole := legal.said.trans agrees.said
      rw [signals, last] at whole
      simpa [said] using whole
    exact ⟨by simpa using last, legal.complete _ _ signals, text⟩
  · intro before error after split
    have signals : stream.queued.map signal =
        before.map signal ++ .failed :: after.map signal := by
      rw [split, List.map_append, List.map_cons]
      rfl
    simpa using legal.last _ _ _ signals trivial

end Driver

end MinicoreAgent.Provider

import MinicoreAgent.Lib.Lines

/-!
# Request frames

The server reads its requests from a buffered reader, one frame a line. A call
that waits for more bytes may be dropped at any time; what it collected stays in
the caller's frame buffer, and the next call goes on from there.

The reader is known by the bytes it has not handed over yet. Each time it is
asked it shows some beginning of them, which is empty only where none are left.
Whatever it shows, the frames are the lines of the byte stream.
-/
namespace MinicoreAgent.Rpc

/-- The largest inbound frame, its newline included. -/
def maxRpcLineBytes : Nat := 8 * 1024 * 1024

def newlineByte : UInt8 := 10

inductive Frame where
  | eof
  | data (bytes : List UInt8)
  | oversized
  deriving DecidableEq, Repr

/-- What one `fill_buf` resolves to: an I/O error, or the unread bytes up to some
position, at least one of them where any are left. -/
inductive Fill where
  | failed
  | ready (extra : Nat)
  deriving DecidableEq, Repr

/-- The reader's unread bytes and the caller's frame buffer. -/
structure Connection where
  remaining : List UInt8
  frame : List UInt8 := []
  deriving DecidableEq, Repr

/-- How one call ends. -/
inductive Call where
  | cancelled
  | failed
  | returned (frame : Frame)
  deriving DecidableEq, Repr

/-- `read_frame`, given what each `fill_buf` it awaits resolves to. The call is
dropped at the first one that does not resolve. -/
def readFrame (connection : Connection) : List Fill → Call × Connection
  | [] => (.cancelled, connection)
  | .failed :: _ => (.failed, connection)
  | .ready extra :: fills =>
    let buffer := connection.remaining.take (extra + 1)
    if buffer.isEmpty then
      if connection.frame.isEmpty then (.returned .eof, connection)
      else (.returned (.data connection.frame), { connection with frame := [] })
    else
      let newline := buffer.findIdx? (· == newlineByte)
      let consumed := match newline with
        | some position => position + 1
        | none => buffer.length
      if connection.frame.length + consumed > maxRpcLineBytes then
        (.returned .oversized, { connection with frame := [] })
      else
        let extended : Connection :=
          { remaining := connection.remaining.drop consumed
            frame := connection.frame ++ buffer.take consumed }
        if newline.isSome then
          (.returned (.data extended.frame), { extended with frame := [] })
        else readFrame extended fills

/-- The calls of the server's loop, one after the other over one frame buffer. A
call that another branch of the loop overtakes is cancelled. The loop leaves the
reader at an oversized frame. -/
def readCalls (connection : Connection) : List (List Fill) → List Frame × Connection
  | [] => ([], connection)
  | fills :: rest =>
    match readFrame connection fills with
    | (.returned .oversized, next) => ([.oversized], next)
    | (.returned frame, next) =>
      let (frames, final) := readCalls next rest
      (frame :: frames, final)
    | (_, next) => readCalls next rest

section Specification

/-- The lines of a byte stream, each with its newline, and the final one without. -/
def frameLines (bytes : List UInt8) : List (List UInt8) :=
  (Lines.split newlineByte bytes).1.map (· ++ [newlineByte]) ++
    if (Lines.split newlineByte bytes).2.isEmpty then []
    else [(Lines.split newlineByte bytes).2]

/-- The first so many frames of these lines: up to the first line over the limit,
and the end of the stream after the last one. -/
def lineFrames : List (List UInt8) → Nat → List Frame
  | _, 0 => []
  | [], count + 1 => .eof :: lineFrames [] count
  | line :: rest, count + 1 =>
    if line.length ≤ maxRpcLineBytes then .data line :: lineFrames rest count
    else [.oversized]

@[simp] theorem frameLines_nil : frameLines [] = [] := rfl

theorem frameLines_line {line : List UInt8} (open_line : newlineByte ∉ line)
    (rest : List UInt8) :
    frameLines (line ++ newlineByte :: rest) = (line ++ [newlineByte]) :: frameLines rest := by
  simp [frameLines, Lines.split_line open_line]

theorem frameLines_tail {tail : List UInt8} (unended : newlineByte ∉ tail)
    (present : tail ≠ []) : frameLines tail = [tail] := by
  simp [frameLines, Lines.split_tail unended, present]

/-- The lines are all of the stream. -/
theorem frameLines_flatten (bytes : List UInt8) : (frameLines bytes).flatten = bytes := by
  have whole := Lines.join_split newlineByte bytes
  unfold frameLines
  rw [List.flatten_append, ← List.flatMap_def]
  split
  · rename_i ended
    rw [List.isEmpty_iff.mp ended] at whole
    simpa [Lines.join] using whole
  · simpa [Lines.join] using whole

/-- Bytes without a newline belong to one line. -/
theorem frameLines_chunk (chunk : List UInt8) (open_line : newlineByte ∉ chunk)
    (present : chunk ≠ []) (more : List UInt8) :
    ∃ line rest, frameLines (chunk ++ more) = line :: rest ∧ chunk.length ≤ line.length := by
  by_cases ended : newlineByte ∈ more
  · obtain ⟨before, after, rfl, first⟩ := List.eq_append_cons_of_mem ended
    have whole : newlineByte ∉ chunk ++ before := by simp [open_line, first]
    refine ⟨chunk ++ before ++ [newlineByte], frameLines after, ?_, by simp⟩
    simpa using frameLines_line whole after
  · have whole : newlineByte ∉ chunk ++ more := by simp [open_line, ended]
    exact ⟨chunk ++ more, [], frameLines_tail whole (by simp [present]), by simp⟩

end Specification

section Calls

/-- Between calls the frame buffer holds a beginning of one line that is within
the limit. -/
structure Pending (connection : Connection) : Prop where
  open_line : newlineByte ∉ connection.frame
  within : connection.frame.length ≤ maxRpcLineBytes

theorem Pending.start (bytes : List UInt8) : Pending { remaining := bytes } where
  open_line := by simp
  within := by simp

/-- The bytes no returned frame has taken. -/
def Connection.unserved (connection : Connection) : List UInt8 :=
  connection.frame ++ connection.remaining

/-- What a call can do. One that does not return loses nothing, and one that does
takes the first line, or refuses it for its length. -/
inductive Served (connection : Connection) : Call → Connection → Prop where
  | unfinished {call : Call} {next : Connection} (pending : Pending next)
      (kept : next.unserved = connection.unserved)
      (silent : call = .cancelled ∨ call = .failed) : Served connection call next
  | ended {next : Connection} (exhausted : connection.unserved = [])
      (still : next.unserved = []) : Served connection (.returned .eof) next
  | line {bytes : List UInt8} {next : Connection} (empty : next.frame = [])
      (first : frameLines connection.unserved = bytes :: frameLines next.remaining)
      (within : bytes.length ≤ maxRpcLineBytes) : Served connection (.returned (.data bytes)) next
  | long {bytes : List UInt8} {rest : List (List UInt8)} {next : Connection}
      (empty : next.frame = []) (first : frameLines connection.unserved = bytes :: rest)
      (beyond : maxRpcLineBytes < bytes.length) : Served connection (.returned .oversized) next

/-- Collecting bytes does not change what a call can do. -/
theorem Served.of_collected {before after next : Connection} {call : Call}
    (kept : after.unserved = before.unserved) (served : Served after call next) :
    Served before call next := by
  cases served with
  | unfinished pending same silent => exact .unfinished pending (same.trans kept) silent
  | ended exhausted still => exact .ended (kept ▸ exhausted) still
  | line empty first within => exact .line empty (kept ▸ first) within
  | long empty first beyond => exact .long empty (kept ▸ first) beyond

theorem Pending.of_empty {connection : Connection} (empty : connection.frame = []) :
    Pending connection where
  open_line := by simp [empty]
  within := by simp [empty]

theorem Served.pending {connection next : Connection} {call : Call}
    (served : Served connection call next) : Pending next := by
  cases served with
  | unfinished pending kept silent => exact pending
  | ended exhausted still => exact .of_empty (List.append_eq_nil_iff.mp still).1
  | line empty first within => exact .of_empty empty
  | long empty first beyond => exact .of_empty empty

/-- A newline in the shown bytes ends the first line. -/
theorem shown_line {remaining : List UInt8} {extra position : Nat}
    (found : (remaining.take (extra + 1)).findIdx? (· == newlineByte) = some position) :
    ∃ before after, remaining = before ++ newlineByte :: after ∧ newlineByte ∉ before ∧
      before.length = position ∧ position ≤ extra := by
  rw [List.findIdx?_eq_some_iff_getElem] at found
  obtain ⟨bounded, last, earlier⟩ := found
  simp only [List.length_take] at bounded
  have inside : position < remaining.length := by omega
  have symbol : remaining[position] = newlineByte := by simpa using last
  refine ⟨remaining.take position, remaining.drop (position + 1), ?_, ?_, ?_, by omega⟩
  · rw [← symbol, ← List.drop_eq_getElem_cons inside, List.take_append_drop]
  · intro member
    obtain ⟨index, below, same⟩ := List.mem_iff_getElem.mp member
    simp only [List.length_take] at below
    have other := earlier index (by omega)
    simp only [List.getElem_take] at same other
    simp [same] at other
  · simp only [List.length_take]
    omega

theorem shown_open {remaining : List UInt8} {extra : Nat}
    (none_found : (remaining.take (extra + 1)).findIdx? (· == newlineByte) = none) :
    newlineByte ∉ remaining.take (extra + 1) := by
  rw [List.findIdx?_eq_none_iff] at none_found
  intro member
  simpa using none_found newlineByte member

theorem shown_rest (remaining : List UInt8) (count : Nat) :
    remaining.take count ++ remaining.drop (remaining.take count).length = remaining := by
  rw [List.length_take]
  conv =>
    lhs
    arg 1
    rw [List.take_eq_take_min]
  exact List.take_append_drop _ _

/-- One call loses nothing and returns nothing but the first line. -/
theorem readFrame_served (connection : Connection) (fills : List Fill)
    (pending : Pending connection) :
    Served connection (readFrame connection fills).1 (readFrame connection fills).2 := by
  induction fills generalizing connection with
  | nil => exact .unfinished pending rfl (.inl rfl)
  | cons fill fills inductionHypothesis =>
    cases fill with
    | failed => exact .unfinished pending rfl (.inr rfl)
    | ready extra =>
      obtain ⟨remaining, frame⟩ := connection
      obtain ⟨open_line, within⟩ := pending
      dsimp only at open_line within
      simp only [readFrame]
      split
      · rename_i nothing
        have exhausted : remaining = [] := by simpa using nothing
        split
        · rename_i empty
          have unserved : (Connection.mk remaining frame).unserved = [] := by
            simpa [Connection.unserved, exhausted] using empty
          exact .ended unserved unserved
        · rename_i present
          refine .line rfl ?_ within
          simpa [Connection.unserved, exhausted] using
            frameLines_tail open_line (by simpa using present)
      · rename_i something
        cases found : (remaining.take (extra + 1)).findIdx? (· == newlineByte) with
        | some position =>
          obtain ⟨before, after, rfl, free, rfl, shown⟩ := shown_line found
          have first : frameLines ((frame ++ before) ++ newlineByte :: after) =
              (frame ++ before ++ [newlineByte]) :: frameLines after :=
            frameLines_line (by simp [open_line, free]) after
          rw [List.append_assoc] at first
          simp only [Option.isSome_some, if_true]
          split
          · rename_i beyond
            refine .long rfl first ?_
            simp only [List.length_append, List.length_cons, List.length_nil]
            omega
          · rename_i fits
            have taken : ((before ++ newlineByte :: after).take (extra + 1)).take
                (before.length + 1) = before ++ [newlineByte] := by
              rw [List.take_take, Nat.min_eq_left (by omega), List.take_length_add_append]
              simp
            have left : (before ++ newlineByte :: after).drop (before.length + 1) = after := by
              rw [List.drop_length_add_append]
              simp
            rw [taken, left]
            refine .line rfl (by simpa [Connection.unserved] using first) ?_
            simp only [List.length_append, List.length_cons, List.length_nil]
            omega
        | none =>
          have free := shown_open found
          have present : remaining.take (extra + 1) ≠ [] := by simpa using something
          have unserved : (Connection.mk remaining frame).unserved =
              (frame ++ remaining.take (extra + 1)) ++ remaining.drop (extra + 1) := by
            simp [Connection.unserved]
          simp only [Option.isSome_none]
          split
          · rename_i beyond
            obtain ⟨line, rest, first, longer⟩ :=
              frameLines_chunk (frame ++ remaining.take (extra + 1))
                (by simp [open_line, free]) (by simp [present]) (remaining.drop (extra + 1))
            refine .long rfl (unserved ▸ first) ?_
            rw [List.length_append] at longer
            omega
          · rename_i fits
            have kept : (Connection.mk (remaining.drop (remaining.take (extra + 1)).length)
                (frame ++ (remaining.take (extra + 1)).take
                  (remaining.take (extra + 1)).length)).unserved =
                (Connection.mk remaining frame).unserved := by
              simp only [Connection.unserved, List.take_length, List.append_assoc]
              rw [shown_rest]
            refine .of_collected kept (inductionHypothesis _ ⟨?_, ?_⟩)
            · simp [List.take_length, open_line, free, -List.length_take]
            · rw [List.take_length, List.length_append]
              omega

/-- The frames of any calls are the first lines of the bytes no frame has taken. -/
theorem readCalls_frames (connection : Connection) (calls : List (List Fill))
    (pending : Pending connection) :
    (readCalls connection calls).1 =
      lineFrames (frameLines connection.unserved) (readCalls connection calls).1.length := by
  induction calls generalizing connection with
  | nil => simp [readCalls, lineFrames]
  | cons fills rest inductionHypothesis =>
    have served := readFrame_served connection fills pending
    revert served
    simp only [readCalls]
    cases readFrame connection fills with
    | mk call next =>
      intro served
      dsimp only at served
      cases served with
      | unfinished following kept silent =>
        have later := inductionHypothesis next following
        rw [kept] at later
        rcases silent with rfl | rfl
        · exact later
        · exact later
      | ended exhausted still =>
        have empty : next.frame = [] := (List.append_eq_nil_iff.mp still).1
        have later := inductionHypothesis next (.of_empty empty)
        simp only [List.length_cons, exhausted, frameLines_nil, lineFrames]
        rw [still, frameLines_nil] at later
        exact congrArg _ later
      | line empty first within =>
        have later := inductionHypothesis next (.of_empty empty)
        have left : next.unserved = next.remaining := by simp [Connection.unserved, empty]
        simp only [List.length_cons, first, lineFrames, within, if_true]
        rw [left] at later
        exact congrArg _ later
      | long empty first beyond =>
        simp [first, lineFrames, Nat.not_le_of_lt beyond]

theorem readCalls_pending (connection : Connection) (calls : List (List Fill))
    (pending : Pending connection) : Pending (readCalls connection calls).2 := by
  induction calls generalizing connection with
  | nil => exact pending
  | cons fills rest inductionHypothesis =>
    have following := (readFrame_served connection fills pending).pending
    simp only [readCalls]
    split
    all_goals
      rename_i same
      rw [same] at following
    · exact following
    · exact inductionHypothesis _ following
    · exact inductionHypothesis _ following

/-- The end is reported where nothing is left to read or to return. -/
theorem readFrame_eof_iff (connection : Connection) (extra : Nat) (fills : List Fill)
    (pending : Pending connection) :
    (readFrame connection (.ready extra :: fills)).1 = .returned .eof ↔
      connection.remaining = [] ∧ connection.frame = [] := by
  constructor
  · intro ended
    have served := readFrame_served connection (.ready extra :: fills) pending
    rw [ended] at served
    cases served with
    | unfinished following kept silent => simp at silent
    | ended exhausted still =>
      exact (List.append_eq_nil_iff.mp exhausted).symm
  · rintro ⟨exhausted, empty⟩
    simp [readFrame, exhausted, empty]

/-- Every round that does not return takes at least one byte. -/
theorem readFrame_returns (connection : Connection) (extras : List Nat)
    (enough : connection.remaining.length < extras.length) :
    ∃ frame, (readFrame connection (extras.map .ready)).1 = .returned frame := by
  induction extras generalizing connection with
  | nil => simp at enough
  | cons extra extras inductionHypothesis =>
    simp only [List.length_cons] at enough
    simp only [List.map_cons, readFrame]
    split
    · split
      · exact ⟨_, rfl⟩
      · exact ⟨_, rfl⟩
    · rename_i something
      have present : connection.remaining ≠ [] := by simpa using something
      have shown := List.length_pos_of_ne_nil present
      cases found : (connection.remaining.take (extra + 1)).findIdx? (· == newlineByte) with
      | some position =>
        simp only [Option.isSome_some, if_true]
        split
        · exact ⟨_, rfl⟩
        · exact ⟨_, rfl⟩
      | none =>
        simp only [Option.isSome_none, Bool.false_eq_true, if_false]
        split
        · exact ⟨_, rfl⟩
        · apply inductionHypothesis
          simp only [List.length_drop, List.length_take]
          omega

end Calls

/-- For every byte stream, however it is shown and wherever calls are dropped, the
frames returned are the first lines of the stream, up to one over the limit. The
end is reported exactly where the stream is exhausted and no bytes are pending,
and a call that is shown enough returns. -/
theorem frames_are_lines (bytes : List UInt8) (calls : List (List Fill)) :
    let outcome := readCalls { remaining := bytes } calls
    (frameLines bytes).flatten = bytes ∧
      outcome.1 = lineFrames (frameLines bytes) outcome.1.length ∧
      (∀ extra fills, (readFrame outcome.2 (.ready extra :: fills)).1 = .returned .eof ↔
        outcome.2.remaining = [] ∧ outcome.2.frame = []) ∧
      ∀ extras : List Nat, outcome.2.remaining.length < extras.length →
        ∃ frame, (readFrame outcome.2 (extras.map .ready)).1 = .returned frame := by
  intro outcome
  have pending : Pending outcome.2 := readCalls_pending _ calls (.start bytes)
  refine ⟨frameLines_flatten bytes, ?_, ?_, ?_⟩
  · exact readCalls_frames { remaining := bytes } calls (.start bytes)
  · intro extra fills
    exact readFrame_eof_iff outcome.2 extra fills pending
  · intro extras enough
    exact readFrame_returns outcome.2 extras enough

/-- A call dropped inside a line, and the final line without its newline. -/
example : (readCalls { remaining := [123, 125, 10, 91] }
    [[.ready 0], [.failed], [.ready 7], [.ready 0, .ready 0], [.ready 0]]).1 =
      [.data [123, 125, 10], .data [91], .eof] := by decide

end MinicoreAgent.Rpc

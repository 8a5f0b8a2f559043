import MinicoreAgent.HistoryLoad

/-!
# Appending under faults

`append_loop` with every call to the operating system that may fail: the file may
be missing, opening may fail, the write, the flush or the sync may fail after some
of the bytes reached the file, and then the truncation that undoes them may fail
in each of its steps. Only the last kind reports an unknown outcome.

As long as no outcome is unknown, the file is whole lines, loading it gives the
history of the successful appends, and the index in memory is the one that loading
builds.
-/
namespace MinicoreAgent.HistoryStore

/-- `AppendError`. -/
inductive AppendError
  | notWritten (error : StoreError)
  | unknown
  deriving DecidableEq, Repr

/-- Where writing a line fails, and how many of its bytes the file then has. -/
inductive WriteFault
  | write (count : Nat)
  | flush (count : Nat)
  | sync
  deriving DecidableEq, Repr

/-- The bytes that reached the file. -/
def WriteFault.reached (bytes : List UInt8) : WriteFault → List UInt8
  | .write count => bytes.take count
  | .flush count => bytes.take count
  | .sync => bytes

/-- Where undoing a write fails. -/
inductive RollbackFault
  | opening
  | setLen
  | sync
  deriving DecidableEq, Repr

/-- What the operating system answers during one call. -/
structure AppendFaults where
  missing : Option StoreError
  openFails : Bool
  write : Option WriteFault
  rollback : Option RollbackFault
  deriving DecidableEq, Repr

variable {LoopId Payload Replay Digest : Type}
  (externals : Externals LoopId Payload Replay Digest)

section Model

/-- `rollback_append` and `truncate_append`. -/
def rollbackAppend (file : HistoryFile LoopId Digest) (previousLen : Nat) :
    Option RollbackFault → AppendError × HistoryFile LoopId Digest
  | some .opening => (.unknown, file)
  | some .setLen => (.unknown, file)
  | some .sync => (.unknown, { file with bytes := setLen file.bytes previousLen })
  | none => (.notWritten .unavailable, { file with bytes := setLen file.bytes previousLen })

/-- `append_loop` of a Session whose index is in memory. -/
def appendLoopUnder (file : HistoryFile LoopId Digest)
    (record : StoredLoopRecord LoopId Payload Replay) (faults : AppendFaults) :
    Except AppendError Bool × HistoryFile LoopId Digest :=
  match faults.missing with
  | some error => (.error (.notWritten error), file)
  | none =>
    match encodeLoop externals record with
    | .error error => (.error (.notWritten error), file)
    | .ok (line, kept) =>
      let bytes := line.bytes ++ [newline]
      if faults.openFails then (.error (.notWritten .unavailable), file)
      else
        match faults.write with
        | some fault =>
          let (error, after) := rollbackAppend
            { file with bytes := file.bytes ++ fault.reached bytes } file.bytes.length
            faults.rollback
          (.error error, after)
        | none =>
          (.ok kept,
            { bytes := file.bytes ++ bytes
              index := indexLine externals file.index bytes line.record line.items.length })

/-- The file after a sequence of calls, unless one of them reports an unknown
outcome. -/
def appendRun : HistoryFile LoopId Digest →
    List (StoredLoopRecord LoopId Payload Replay × AppendFaults) →
    Option (HistoryFile LoopId Digest)
  | file, [] => some file
  | file, (record, faults) :: rest =>
    match appendLoopUnder externals file record faults with
    | (.error .unknown, _) => none
    | (_, after) => appendRun after rest

end Model

section Steps

variable {externals} {file after : HistoryFile LoopId Digest}
  {record : StoredLoopRecord LoopId Payload Replay} {faults : AppendFaults}

/-- A written line counts for the normalized items of its record. -/
theorem encode_loop_items {line : StoredLine LoopId Payload Replay} {kept : Bool}
    (done : encodeLoop externals record = .ok (line, kept)) :
    normalizeHistory externals record.items = some line.items := by
  unfold encodeLoop at done
  split at done
  · cases done
  · rename_i normalized normal
    dsimp only at done
    split at done
    · cases done
    · split at done
      · split at done
        · cases done
        · split at done
          · cases done
          · cases done
            exact normal
      · split at done
        · cases done
        · cases done
          exact normal

variable (externals file record) in
/-- What one call can do: write the line and index it, fail and leave everything as
it was, or end unknown. -/
theorem append_cases (faults : AppendFaults) :
    (∃ line kept, encodeLoop externals record = .ok (line, kept) ∧
      appendLoopUnder externals file record faults =
        (.ok kept,
          { bytes := file.bytes ++ (line.bytes ++ [newline])
            index := indexLine externals file.index (line.bytes ++ [newline]) line.record
              line.items.length })) ∨
    (∃ error, appendLoopUnder externals file record faults =
      (.error (.notWritten error), file)) ∨
    (appendLoopUnder externals file record faults).1 = .error .unknown := by
  unfold appendLoopUnder
  cases faults.missing with
  | some error => exact .inr (.inl ⟨error, rfl⟩)
  | none =>
    cases encoded : encodeLoop externals record with
    | error error => exact .inr (.inl ⟨error, rfl⟩)
    | ok pair =>
      obtain ⟨line, kept⟩ := pair
      dsimp only
      split_ifs with closed
      · exact .inr (.inl ⟨.unavailable, rfl⟩)
      · cases faults.write with
        | none => exact .inl ⟨line, kept, rfl, rfl⟩
        | some fault =>
          cases faults.rollback with
          | none =>
            refine .inr (.inl ⟨.unavailable, ?_⟩)
            simp only [rollbackAppend, set_len_append]
          | some step =>
            cases step with
            | opening => exact .inr (.inr rfl)
            | setLen => exact .inr (.inr rfl)
            | sync => exact .inr (.inr rfl)

/-- Without faults beyond a write that is undone, this is the append whose crashes
were studied before. -/
theorem append_under_written (fault : Option WriteFault) :
    (appendLoopUnder externals file record
        { missing := none, openFails := false, write := fault, rollback := none }).2 =
      (appendLoop externals file record
        (match fault with
        | none => .written
        | some (.write count) => .rolledBack count
        | some (.flush count) => .rolledBack count
        | some .sync => .rolledBack (file.bytes.length + maxLoopRecordBytes + 1))).2 := by
  unfold appendLoopUnder appendLoop
  dsimp only
  cases encoded : encodeLoop externals record with
  | error error => rfl
  | ok pair =>
    obtain ⟨line, kept⟩ := pair
    cases fault with
    | none => rfl
    | some fault =>
      cases fault with
      | write count => rfl
      | flush count => rfl
      | sync => simp [rollbackAppend, WriteFault.reached, set_len_append]

end Steps

section Agreement

variable [DecidableEq LoopId] {externals} {file after : HistoryFile LoopId Digest}
  {record : StoredLoopRecord LoopId Payload Replay} {faults : AppendFaults}
  {loaded : Loaded LoopId Payload Replay Digest}

variable (externals) in
/-- The file is whole lines that load to this history, and the index in memory is
the one that loading builds. -/
def Agrees (file : HistoryFile LoopId Digest) (loaded : Loaded LoopId Payload Replay Digest) :
    Prop :=
  (∃ lines, file.bytes = Lines.join newline lines ∧ (∀ line ∈ lines, newline ∉ line) ∧
    enterLines externals lines .empty = some loaded) ∧
  file.index = loaded.index

/-- However such a file is read, it loads to this history and stays as it is. -/
theorem Agrees.loads (agrees : Agrees externals file loaded) {chunks : List (List UInt8)}
    (reads : Reads chunks file.bytes) :
    loadHistory externals file.bytes chunks = (.ok loaded, file.bytes) := by
  obtain ⟨⟨lines, bytes, free, entered⟩, _⟩ := agrees
  have split : Lines.split newline file.bytes = (lines, []) := by
    rw [bytes]
    simpa using Lines.split_join free (show newline ∉ ([] : List UInt8) by simp)
  rw [load_history_lines reads, split]
  simp [recoverHistory, entered, bytes]

/-- Writing a good line agrees with entering it. -/
theorem Agrees.written (lawful : externals.Lawful) (agrees : Agrees externals file loaded)
    {line : StoredLine LoopId Payload Replay} (good : line.Good externals) :
    Agrees externals
      { bytes := file.bytes ++ (line.bytes ++ [newline])
        index := indexLine externals file.index (line.bytes ++ [newline]) line.record
          line.items.length }
      (loaded.enter externals line.bytes line.record line.items) := by
  obtain ⟨⟨lines, bytes, free, entered⟩, index⟩ := agrees
  refine ⟨⟨lines ++ [line.bytes], ?_, ?_, ?_⟩, ?_⟩
  · rw [bytes, Lines.join_append]
    simp
  · intro other member
    rcases List.mem_append.mp member with old | new
    · exact free other old
    · rw [List.mem_singleton.mp new]
      exact lawful.oneLine line.record line.bytes good.written
  · rw [enter_lines_append, entered, Option.bind_some]
    simp [enterLines, parse_written lawful good]
  · dsimp only
    rw [index]
    rfl

/-- A run without an unknown outcome keeps file, history and index in agreement. -/
theorem Agrees.run (lawful : externals.Lawful)
    (calls : List (StoredLoopRecord LoopId Payload Replay × AppendFaults))
    (agrees : Agrees externals file loaded) (ran : appendRun externals file calls = some after) :
    ∃ loaded, Agrees externals after loaded := by
  induction calls generalizing file loaded with
  | nil =>
    cases ran
    exact ⟨loaded, agrees⟩
  | cons call rest inductionHypothesis =>
    obtain ⟨record, faults⟩ := call
    unfold appendRun at ran
    rcases append_cases externals file record faults with
      ⟨line, kept, encoded, done⟩ | ⟨error, done⟩ | unknown
    · rw [done] at ran
      exact inductionHypothesis (agrees.written lawful (encode_loop_good encoded)) ran
    · rw [done] at ran
      exact inductionHypothesis agrees ran
    · split at ran
      · cases ran
      · rename_i other done
        rw [done] at unknown
        cases unknown
        exact (other rfl).elim

/-- A file as `load_history` leaves it, with the index it returns. -/
theorem loaded_agrees {bytes repaired : List UInt8} {chunks : List (List UInt8)}
    (reads : Reads chunks bytes)
    (done : loadHistory externals bytes chunks = (.ok loaded, repaired)) :
    Agrees externals { bytes := repaired, index := loaded.index } loaded := by
  obtain ⟨lines, rfl, free, _, entered⟩ := load_history_repairs reads done
  exact ⟨⟨lines, rfl, free, entered⟩, rfl⟩

/-- The line of the sample record. -/
def sampleLine : StoredLine Nat String Unit :=
  { record := sampleRecord, bytes := sampleBytes, items := [.user "prompt"] }

/-- A write that fails is undone, so that a new file stays empty. -/
theorem append_run_undone {externals : Externals Nat String Unit (List UInt8)}
    {record : StoredLoopRecord Nat String Unit} {line : StoredLine Nat String Unit} {kept : Bool}
    {count : Nat} (encoded : encodeLoop externals record = .ok (line, kept)) :
    appendRun externals { bytes := [], index := [] }
      [(record,
        { missing := none, openFails := false, write := some (.write count), rollback := none })] =
      some { bytes := [], index := [] } := by
  simp [appendRun, appendLoopUnder, encoded, rollbackAppend, setLen]

theorem append_under_encoded {externals : Externals Nat String Unit (List UInt8)}
    {record : StoredLoopRecord Nat String Unit} {line : StoredLine Nat String Unit} {kept : Bool}
    (encoded : encodeLoop externals record = .ok (line, kept)) :
    appendLoopUnder externals { bytes := [], index := [] } record
      { missing := none, openFails := false, write := none, rollback := none } =
        (.ok kept,
          { bytes := line.bytes ++ [newline]
            index := indexLine externals [] (line.bytes ++ [newline]) line.record
              line.items.length }) := by
  rw [appendLoopUnder, encoded]
  rfl

end Agreement

end MinicoreAgent.HistoryStore

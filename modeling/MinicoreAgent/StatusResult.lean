import MinicoreAgent.Lib.JsonText
import MinicoreAgent.PorcelainStatus
import Mathlib.Data.List.Nodup

/-!
# The bounded result of a Git status

The result keeps the first entries that fit the encoded budget. Room is kept for its widest
form, with every warning, so that a warning behind the last entry still fits. A budget that
cannot even hold that is answered with a failed observation.
-/
namespace MinicoreAgent.GitStatus

open Text UnixPaths JsonSize

/-- `MIN_RESULT_BYTES` and `MAX_RESULT_BYTES`. -/
def minResultBytes : Nat := 1024

def maxResultBytes : Nat := 256 * 1024

inductive WorkspaceStatusWarning where
  | gitUnavailable
  | statusFailed
  | outputTruncated
  | deadline
  | skippedPaths
  | nestedRepository
deriving DecidableEq, Repr

/-- Warnings as `push_warning` collects them: none of them twice. -/
structure Warnings where
  listed : List WorkspaceStatusWarning
  once : listed.Nodup
deriving DecidableEq

def Warnings.none : Warnings := ⟨[], List.nodup_nil⟩

def Warnings.one (warning : WorkspaceStatusWarning) : Warnings :=
  ⟨[warning], List.nodup_singleton warning⟩

def Warnings.all : Warnings where
  listed := [.gitUnavailable, .statusFailed, .outputTruncated, .deadline, .skippedPaths,
    .nestedRepository]
  once := by decide

/-- `push_warning`. -/
def Warnings.push (warnings : Warnings) (warning : WorkspaceStatusWarning) : Warnings :=
  if absent : warning ∈ warnings.listed then warnings
  else
    ⟨warnings.listed ++ [warning],
      List.nodup_append_comm.mp (List.nodup_cons.mpr ⟨absent, warnings.once⟩)⟩

structure WorkspaceStatusResult where
  repoAvailable : Bool
  headOid : Option (List Char)
  branch : Option (List Char)
  detached : Bool
  staged : UInt64
  unstaged : UInt64
  untracked : UInt64
  conflicted : UInt64
  entries : List WorkspaceStatusEntry
  skippedPaths : UInt64
  complete : Bool
  warnings : Warnings
  observedAtUnixMs : UInt64
deriving DecidableEq

section Encoding

def WorkspaceStatusEntryKind.json : WorkspaceStatusEntryKind → List Char
  | .ordinary => stringText "ordinary".toList
  | .renamed => stringText "renamed".toList
  | .unmerged => stringText "unmerged".toList
  | .untracked => stringText "untracked".toList

def WorkspaceStatusWarning.json : WorkspaceStatusWarning → List Char
  | .gitUnavailable => stringText "git_unavailable".toList
  | .statusFailed => stringText "status_failed".toList
  | .outputTruncated => stringText "output_truncated".toList
  | .deadline => stringText "deadline".toList
  | .skippedPaths => stringText "skipped_paths".toList
  | .nestedRepository => stringText "nested_repository".toList

/-- A text, or null. -/
def optionJson (text : Option (List Char)) : List Char :=
  match text with
  | none => nullText
  | some text => stringText text

def WorkspaceStatusEntry.json (entry : WorkspaceStatusEntry) : List Char :=
  objectText [("path", stringText entry.path), ("kind", entry.kind.json),
    ("index_status", optionJson entry.indexStatus),
    ("worktree_status", optionJson entry.worktreeStatus),
    ("original_path", optionJson entry.originalPath)]

def WorkspaceStatusResult.json (result : WorkspaceStatusResult) : List Char :=
  objectText [("repo_available", boolText result.repoAvailable),
    ("head_oid", optionJson result.headOid), ("branch", optionJson result.branch),
    ("detached", boolText result.detached), ("staged", numberText result.staged.toNat),
    ("unstaged", numberText result.unstaged.toNat),
    ("untracked", numberText result.untracked.toNat),
    ("conflicted", numberText result.conflicted.toNat),
    ("entries", arrayText (result.entries.map WorkspaceStatusEntry.json)),
    ("skipped_paths", numberText result.skippedPaths.toNat),
    ("complete", boolText result.complete),
    ("warnings", arrayText (result.warnings.listed.map WorkspaceStatusWarning.json)),
    ("consistency", stringText "live".toList),
    ("observed_at_unix_ms", numberText result.observedAtUnixMs.toNat)]

/-- `encoded_len`. -/
def WorkspaceStatusResult.encodedLen (result : WorkspaceStatusResult) : Nat := byteLen result.json

def WorkspaceStatusEntry.encodedLen (entry : WorkspaceStatusEntry) : Nat := byteLen entry.json

end Encoding

section Assembling

/-- The loop that keeps entries while they fit. -/
def assembleLoop (maxBytes : Nat) :
    List WorkspaceStatusEntry → Nat → WorkspaceStatusResult → WorkspaceStatusResult
  | [], _, result => result
  | entry :: entries, used, result =>
    if used + entry.encodedLen + 1 > maxBytes then
      { result with complete := false, warnings := result.warnings.push .outputTruncated }
    else
      assembleLoop maxBytes entries (used + entry.encodedLen + 1)
        { result with entries := result.entries ++ [entry] }

/-- The result before its entries. -/
def Observation.summary (found : Observation) (repoAvailable : Bool) (warnings : Warnings)
    (complete : Bool) (observedAtUnixMs : UInt64) : WorkspaceStatusResult where
  repoAvailable := repoAvailable
  headOid := found.headOid
  branch := found.branch
  detached := found.detached
  staged := found.staged
  unstaged := found.unstaged
  untracked := found.untracked
  conflicted := found.conflicted
  entries := []
  skippedPaths := found.skippedPaths
  complete := complete
  warnings := warnings
  observedAtUnixMs := observedAtUnixMs

def assemble (repoAvailable : Bool) (found : Observation) (warnings : Warnings) (complete : Bool)
    (maxBytes : Nat) (observedAtUnixMs : UInt64) : WorkspaceStatusResult :=
  let result := found.summary repoAvailable warnings complete observedAtUnixMs
  let envelope := { result with entries := [], complete := false, warnings := Warnings.all }
  if envelope.encodedLen > maxBytes then
    { result with
      headOid := none
      branch := none
      entries := []
      complete := false
      warnings := Warnings.one .statusFailed }
  else assembleLoop maxBytes found.entries envelope.encodedLen result

/-- What the run of one git command left. -/
structure GitOutput where
  stdout : List UInt8
  succeeded : Bool
  spawnFailed : Bool
  truncated : Bool
  timedOut : Bool
  ioFailed : Bool
deriving Repr

def GitOutput.quietlyFailed (out : GitOutput) : Bool :=
  !out.spawnFailed && !out.timedOut && !out.truncated && !out.succeeded

/-- Push a warning where a condition says so. -/
def Warnings.pushIf (warnings : Warnings) (condition : Bool) (warning : WorkspaceStatusWarning) :
    Warnings :=
  if condition then warnings.push warning else warnings

/-- The end of `status_with_deadline`, once the work tree root is known and the status
command has run. -/
def finishStatus (toplevel workspaceRoot : List UInt8) (out : GitOutput) (caps : StatusCaps)
    (maxBytes : Nat) (observedAtUnixMs : UInt64) : WorkspaceStatusResult :=
  match workspacePathspec workspaceRoot toplevel with
  | none => assemble false {} (Warnings.one .statusFailed) false maxBytes observedAtUnixMs
  | some pathspec =>
    let warnings := Warnings.none.pushIf (pathspec != [dot]) .nestedRepository
    if out.spawnFailed then
      assemble true {} (warnings.push .gitUnavailable) false maxBytes observedAtUnixMs
    else
      let found := observe toplevel workspaceRoot out.stdout caps
      let cut := out.truncated || found.truncated
      let skipped := decide (0 < found.skippedPaths)
      let failed := decide (0 < found.malformed) || out.ioFailed || out.quietlyFailed
      let headless := !found.branchHeadersComplete && !out.truncated && !out.timedOut
      let warnings := warnings.pushIf out.timedOut .deadline
      let warnings := warnings.pushIf cut .outputTruncated
      let warnings := warnings.pushIf skipped .skippedPaths
      let warnings := warnings.pushIf (failed || headless) .statusFailed
      let complete := !out.timedOut && !cut && !skipped && !(failed || headless)
      assemble true found warnings complete maxBytes observedAtUnixMs

end Assembling

section Sizes

variable {result : WorkspaceStatusResult}

/-- The names, brackets, commas and constants of a result. -/
def frameLen : Nat :=
  objectLen [("repo_available", 0), ("head_oid", 0), ("branch", 0), ("detached", 0), ("staged", 0),
    ("unstaged", 0), ("untracked", 0), ("conflicted", 0), ("entries", 0), ("skipped_paths", 0),
    ("complete", 0), ("warnings", 0), ("consistency", 6), ("observed_at_unix_ms", 0)]

def optionLen (text : Option (List Char)) : Nat := byteLen (optionJson text)

theorem result_len (result : WorkspaceStatusResult) : result.encodedLen =
    frameLen + boolLen result.repoAvailable + optionLen result.headOid +
      optionLen result.branch + boolLen result.detached + numberLen result.staged.toNat +
      numberLen result.unstaged.toNat + numberLen result.untracked.toNat +
      numberLen result.conflicted.toNat +
      arrayLen (result.entries.map WorkspaceStatusEntry.encodedLen) +
      numberLen result.skippedPaths.toNat + boolLen result.complete +
      arrayLen (result.warnings.listed.map fun warning => byteLen warning.json) +
      numberLen result.observedAtUnixMs.toNat := by
  rw [WorkspaceStatusResult.encodedLen, WorkspaceStatusResult.json, object_text_len,
    object_len_values]
  have frame : objectLen [("repo_available", 0), ("head_oid", 0), ("branch", 0), ("detached", 0),
      ("staged", 0), ("unstaged", 0), ("untracked", 0), ("conflicted", 0), ("entries", 0),
      ("skipped_paths", 0), ("complete", 0), ("warnings", 0), ("consistency", 0),
      ("observed_at_unix_ms", 0)] + stringLen "live".toList = frameLen := by
    decide +kernel
  have entries : (result.entries.map WorkspaceStatusEntry.json).map byteLen =
      result.entries.map WorkspaceStatusEntry.encodedLen := List.map_map
  have warnings : (result.warnings.listed.map WorkspaceStatusWarning.json).map byteLen =
      result.warnings.listed.map fun warning => byteLen warning.json := List.map_map
  simp only [List.map_cons, List.map_nil, List.sum_cons, List.sum_nil, bool_text_len,
    number_text_len, array_text_len, string_text_len, entries, warnings, optionLen]
  omega

/-- Warnings that are not repeated take no more than all of them. -/
theorem warnings_len (warnings : Warnings) :
    arrayLen (warnings.listed.map fun warning => byteLen warning.json) ≤
      arrayLen (Warnings.all.listed.map fun warning => byteLen warning.json) := by
  have known : warnings.listed ⊆ Warnings.all.listed := by
    intro warning _
    cases warning <;> decide
  obtain ⟨sorted, same, some⟩ := List.subperm_of_subset warnings.once known
  have sums := (same.map fun warning => byteLen warning.json).sum_eq
  have lengths := (same.map fun warning => byteLen warning.json).length_eq
  have fewer := array_len_sublist (some.map fun warning => byteLen warning.json)
  rw [arrayLen, sums, lengths] at fewer
  exact fewer

/-- The bytes that entries take, each with a comma. -/
def entriesLen (entries : List WorkspaceStatusEntry) : Nat :=
  (entries.map fun entry => entry.encodedLen + 1).sum

theorem array_entries_len (entries : List WorkspaceStatusEntry) :
    arrayLen (entries.map WorkspaceStatusEntry.encodedLen) ≤ 2 + entriesLen entries := by
  have sums : entriesLen entries =
      (entries.map WorkspaceStatusEntry.encodedLen).sum + entries.length := by
    induction entries with
    | nil => rfl
    | cons entry entries inductionHypothesis =>
      rw [entriesLen, List.map_cons, List.sum_cons, ← entriesLen, inductionHypothesis,
        List.map_cons, List.sum_cons, List.length_cons]
      omega
  rw [arrayLen, List.length_map, sums]
  omega

/-- What the loop makes of a result: it keeps first entries within the budget, and stays
complete only if it keeps all of them. -/
structure KeepsFirst (maxBytes used : Nat) (entries : List WorkspaceStatusEntry)
    (result next : WorkspaceStatusResult) (kept : List WorkspaceStatusEntry) : Prop where
  same : next = { result with
    entries := result.entries ++ kept, complete := next.complete, warnings := next.warnings }
  first : kept <+: entries
  fits : used + entriesLen kept ≤ maxBytes
  whole : next.complete = true → kept = entries ∧ result.complete = true

theorem assemble_loop_keeps {maxBytes : Nat} (entries : List WorkspaceStatusEntry) {used : Nat}
    (room : used ≤ maxBytes) (result : WorkspaceStatusResult) :
    ∃ kept, KeepsFirst maxBytes used entries result
      (assembleLoop maxBytes entries used result) kept := by
  induction entries generalizing used result with
  | nil =>
    refine ⟨[], ?_, List.nil_prefix, room, fun whole => ⟨rfl, whole⟩⟩
    rw [assembleLoop, List.append_nil]
  | cons entry entries inductionHypothesis =>
    rw [assembleLoop]
    split
    · refine ⟨[], ?_, List.nil_prefix, room, fun whole => by cases whole⟩
      rw [List.append_nil]
    · rename_i small
      obtain ⟨kept, keeps⟩ := inductionHypothesis (Nat.le_of_not_lt small)
        { result with entries := result.entries ++ [entry] }
      refine ⟨entry :: kept, ?_, ?_, ?_, ?_⟩
      · have same := keeps.same
        rw [List.append_assoc] at same
        exact same
      · exact (List.prefix_cons_inj entry).mpr keeps.first
      · have fits := keeps.fits
        rw [entriesLen, List.map_cons, List.sum_cons, ← entriesLen]
        omega
      · intro whole
        obtain ⟨all, complete⟩ := keeps.whole whole
        exact ⟨by rw [all], complete⟩

theorem number_len_word (number : UInt64) : numberLen number.toNat ≤ 20 := by
  apply number_len_le (by decide)
  exact Nat.lt_of_lt_of_le number.toNat_lt (by decide)

/-- The assembled result is within the budget, has first entries only, and is complete only
if it was and no entry is left out. -/
theorem assemble_bounded (repoAvailable : Bool) (found : Observation) (warnings : Warnings)
    (complete : Bool) {maxBytes : Nat} (admitted : minResultBytes ≤ maxBytes)
    (observedAtUnixMs : UInt64) :
    (assemble repoAvailable found warnings complete maxBytes observedAtUnixMs).encodedLen ≤
        maxBytes ∧
      (assemble repoAvailable found warnings complete maxBytes observedAtUnixMs).entries <+:
        found.entries ∧
      ((assemble repoAvailable found warnings complete maxBytes observedAtUnixMs).complete = true →
        (assemble repoAvailable found warnings complete maxBytes observedAtUnixMs).entries =
          found.entries ∧ complete = true) := by
  have flag : ∀ value, boolLen value ≤ 5 := by
    intro value
    cases value <;> decide
  rw [assemble]
  split
  · refine ⟨?_, List.nil_prefix, fun whole => by cases whole⟩
    have size : minResultBytes = 1024 := rfl
    have null : optionLen none = 4 := rfl
    have nothing : arrayLen [] = 2 := rfl
    have one : arrayLen ((Warnings.one .statusFailed).listed.map
        fun warning => byteLen warning.json) = 17 := by decide +kernel
    have frame : frameLen = 198 := by decide +kernel
    have flags := flag repoAvailable
    have detached := flag found.detached
    have staged := number_len_word found.staged
    have unstaged := number_len_word found.unstaged
    have untracked := number_len_word found.untracked
    have conflicted := number_len_word found.conflicted
    have skipped := number_len_word found.skippedPaths
    have observed := number_len_word observedAtUnixMs
    rw [result_len]
    dsimp only [Observation.summary]
    rw [null, List.map_nil, nothing, one, frame]
    have incomplete : boolLen false = 5 := rfl
    omega
  · rename_i small
    have room := Nat.le_of_not_lt small
    obtain ⟨kept, keeps⟩ := assemble_loop_keeps found.entries room
      (found.summary repoAvailable warnings complete observedAtUnixMs)
    generalize assembleLoop maxBytes found.entries _ _ = next at keeps ⊢
    have entries : next.entries = kept := by
      rw [keeps.same]
      rfl
    refine ⟨?_, ?_, ?_⟩
    · have size := (congrArg WorkspaceStatusResult.encodedLen keeps.same).trans (result_len _)
      have fits := keeps.fits
      have array := array_entries_len kept
      have flags := flag next.complete
      have warned := warnings_len next.warnings
      have incomplete : boolLen false = 5 := rfl
      have nothing : arrayLen [] = 2 := rfl
      rw [result_len] at fits
      dsimp only [Observation.summary] at size fits
      rw [List.map_nil, nothing, incomplete] at fits
      rw [List.nil_append] at size
      omega
    · rw [entries]
      exact keeps.first
    · intro whole
      obtain ⟨all, complete⟩ := keeps.whole whole
      exact ⟨entries.trans all, complete⟩

/-- A status that is complete has the entries of all that Git printed. -/
theorem finish_complete (toplevel workspaceRoot : List UInt8) (out : GitOutput) (caps : StatusCaps)
    {maxBytes : Nat} (admitted : minResultBytes ≤ maxBytes) (observedAtUnixMs : UInt64)
    (whole : (finishStatus toplevel workspaceRoot out caps maxBytes
      observedAtUnixMs).complete = true) :
    (finishStatus toplevel workspaceRoot out caps maxBytes observedAtUnixMs).entries =
        streamEntries toplevel workspaceRoot out.stdout ∧
      out.timedOut = false ∧ out.truncated = false := by
  rw [finishStatus] at whole ⊢
  split at whole
  · obtain ⟨-, -, complete⟩ := assemble_bounded false {} (Warnings.one .statusFailed) false admitted
      observedAtUnixMs
    exact absurd (complete whole).2 (by decide)
  · rename_i pathspec found
    dsimp only at whole ⊢
    split at whole
    · obtain ⟨-, -, complete⟩ := assemble_bounded true {} _ false admitted observedAtUnixMs
      exact absurd (complete whole).2 (by decide)
    · rename_i spawned
      rw [if_neg spawned]
      obtain ⟨-, -, complete⟩ := assemble_bounded true
        (observe toplevel workspaceRoot out.stdout caps) _ _ admitted observedAtUnixMs
      obtain ⟨entries, flags⟩ := complete whole
      obtain ⟨-, all, -⟩ := observe_observes toplevel workspaceRoot out.stdout caps
      simp only [Bool.and_eq_true, Bool.not_eq_true', Bool.or_eq_false_iff] at flags
      exact ⟨entries.trans (all flags.1.1.2.2), flags.1.1.1, flags.1.1.2.1⟩

/-- A status is stable when its stream is cut. The entries of a beginning of the stream are
the first of the whole, and are made of whole records only. The counters are those of the
entries, and there are no more of them than the cap. The assembled result fits every admitted
budget, has first entries only, and is complete only if none is left out. -/
theorem status_stable_when_cut (toplevel workspaceRoot stdout part : List UInt8)
    (begins : part <+: stdout) (caps : StatusCaps) :
    (observe toplevel workspaceRoot part caps).entries <+:
        (observe toplevel workspaceRoot stdout caps).entries ∧
      (∀ entry ∈ (observe toplevel workspaceRoot part caps).entries,
        ∃ record : Record, record.entry toplevel workspaceRoot = some entry ∧
          record.chunks <:+: (Lines.split 0 part).1 ∧
          (entry.kind = .renamed → ∃ original ≠ [], record.original = some original)) ∧
      Counted caps (observe toplevel workspaceRoot part caps) ∧
      ∀ maxBytes, minResultBytes ≤ maxBytes → maxBytes ≤ maxResultBytes →
        (∀ repoAvailable warnings complete observedAtUnixMs,
          let found := observe toplevel workspaceRoot part caps
          let result := assemble repoAvailable found warnings complete maxBytes observedAtUnixMs
          result.encodedLen ≤ maxBytes ∧ result.entries <+: found.entries ∧
            (result.complete = true → result.entries = found.entries ∧ complete = true)) ∧
        ∀ out observedAtUnixMs, out.stdout = part →
          let result := finishStatus toplevel workspaceRoot out caps maxBytes observedAtUnixMs
          result.complete = true →
            result.entries = streamEntries toplevel workspaceRoot part ∧
              out.timedOut = false ∧ out.truncated = false := by
  obtain ⟨few, -, counted⟩ := observe_observes toplevel workspaceRoot part caps
  obtain ⟨many, -, -⟩ := observe_observes toplevel workspaceRoot stdout caps
  refine ⟨?_, ?_, counted, ?_⟩
  · obtain ⟨more, chunked⟩ := split_prefix begins
    rw [few, many, streamEntries, streamEntries, chunks_eq, chunks_eq, ← chunked,
      List.append_assoc]
    exact List.prefix_take_iff.mpr
      ⟨(List.take_prefix _ _).trans (entries_grow toplevel workspaceRoot _ _),
        List.length_take_le _ _⟩
  · intro entry member
    rw [few] at member
    exact entry_built toplevel workspaceRoot (List.mem_of_mem_take member)
  · intro maxBytes admitted _
    constructor
    · intro repoAvailable warnings complete observedAtUnixMs
      exact assemble_bounded repoAvailable _ warnings complete admitted observedAtUnixMs
    · rintro out observedAtUnixMs rfl result whole
      exact finish_complete toplevel workspaceRoot out caps admitted observedAtUnixMs whole

theorem sample_stable_when_cut :
    (observe sampleToplevel sampleWorkspace sampleFile ⟨1⟩).entries <+:
        (observe sampleToplevel sampleWorkspace (sampleFile ++ sampleFile) ⟨1⟩).entries ∧
      (∀ entry ∈ (observe sampleToplevel sampleWorkspace sampleFile ⟨1⟩).entries,
        ∃ record : Record, record.entry sampleToplevel sampleWorkspace = some entry ∧
          record.chunks <:+: (Lines.split 0 sampleFile).1 ∧
          (entry.kind = .renamed → ∃ original ≠ [], record.original = some original)) ∧
      Counted ⟨1⟩ (observe sampleToplevel sampleWorkspace sampleFile ⟨1⟩) ∧
      ∀ maxBytes, minResultBytes ≤ maxBytes → maxBytes ≤ maxResultBytes →
        (∀ repoAvailable warnings complete observedAtUnixMs,
          let found := observe sampleToplevel sampleWorkspace sampleFile ⟨1⟩
          let result := assemble repoAvailable found warnings complete maxBytes observedAtUnixMs
          result.encodedLen ≤ maxBytes ∧ result.entries <+: found.entries ∧
            (result.complete = true → result.entries = found.entries ∧ complete = true)) ∧
        ∀ out observedAtUnixMs, out.stdout = sampleFile →
          let result := finishStatus sampleToplevel sampleWorkspace out ⟨1⟩ maxBytes
            observedAtUnixMs
          result.complete = true →
            result.entries = streamEntries sampleToplevel sampleWorkspace sampleFile ∧
              out.timedOut = false ∧ out.truncated = false :=
  status_stable_when_cut sampleToplevel sampleWorkspace (sampleFile ++ sampleFile) sampleFile
    (List.prefix_append _ _) ⟨1⟩

end Sizes

end MinicoreAgent.GitStatus

import MinicoreAgent.StatusPaths

/-!
# The porcelain stream of a Git status

The stream is cut into chunks at its NUL bytes. A chunk is a header or a record, and the
record of a rename takes the next chunk as the previous name. What is observed are the
entries of the records that name something in the workspace, up to a cap, with a counter for
each kind of change.
-/
namespace MinicoreAgent.GitStatus

open Text UnixPaths

/-- `MAX_STATUS_BRANCH_BYTES`. -/
def maxStatusBranchBytes : Nat := 1024

inductive WorkspaceStatusEntryKind where
  | ordinary
  | renamed
  | unmerged
  | untracked
deriving DecidableEq, Repr

structure WorkspaceStatusEntry where
  path : List Char
  kind : WorkspaceStatusEntryKind
  indexStatus : Option (List Char)
  worktreeStatus : Option (List Char)
  originalPath : Option (List Char)
deriving DecidableEq, Repr

structure StatusCaps where
  records : UInt64
deriving Repr

structure Observation where
  headOid : Option (List Char) := none
  branch : Option (List Char) := none
  detached : Bool := false
  sawOidHeader : Bool := false
  sawHeadHeader : Bool := false
  staged : UInt64 := 0
  unstaged : UInt64 := 0
  untracked : UInt64 := 0
  conflicted : UInt64 := 0
  entries : List WorkspaceStatusEntry := []
  skippedPaths : UInt64 := 0
  records : UInt64 := 0
  truncated : Bool := false
  malformed : UInt64 := 0
deriving DecidableEq, Repr

/-- `branch_headers_complete`. -/
def Observation.branchHeadersComplete (found : Observation) : Bool :=
  found.sawOidHeader && found.sawHeadHeader

section Chunks

/-- The stream up to its last NUL, split at the NUL bytes. Behind the last one is an empty
chunk. -/
def chunks (stdout : List UInt8) : List (List UInt8) :=
  let stream := stdout.rdropWhile (· ≠ 0)
  (Lines.split 0 stream).1 ++ [(Lines.split 0 stream).2]

def space : UInt8 := 0x20

/-- `slice::splitn` at the spaces. -/
def splitn : Nat → List UInt8 → List (List UInt8)
  | 0, _ => []
  | 1, bytes => [bytes]
  | fields + 2, bytes =>
    match bytes.span (· ≠ space) with
    | (field, []) => [field]
    | (field, _ :: rest) => field :: splitn (fields + 1) rest

def splitFields (chunk : List UInt8) (fields : Nat) : Option (List (List UInt8)) :=
  if (splitn fields chunk).length ≠ fields then none else some (splitn fields chunk)

def statusCodes : List Char := ['.', 'M', 'T', 'A', 'D', 'R', 'C', 'U']

def xy (field : List UInt8) : Option (Char × Char) :=
  match decode field with
  | some [x, y] => if x ∈ statusCodes ∧ y ∈ statusCodes then some (x, y) else none
  | _ => none

/-- `u8::is_ascii_hexdigit`. -/
def isHexDigit (char : Char) : Bool :=
  char.isDigit || ('a' ≤ char && char ≤ 'f') || ('A' ≤ char && char ≤ 'F')

def validOid (value : List Char) : Bool :=
  (byteLen value = 40 ∨ byteLen value = 64) && value.all isHexDigit

/-- `str::split_once(' ')`. -/
def splitOnce (text : List Char) : Option (List Char × List Char) :=
  match text.span (· ≠ ' ') with
  | (_, []) => none
  | (key, _ :: value) => some (key, value)

def Observation.malform (found : Observation) : Observation :=
  { found with malformed := found.malformed + 1 }

def headerOid (value : List Char) (found : Observation) : Observation :=
  let found := { found with sawOidHeader := true }
  if value = "(initial)".toList then { found with headOid := none }
  else if validOid value then { found with headOid := some value }
  else { found.malform with headOid := none }

def headerBranch (value : List Char) (found : Observation) : Observation :=
  let found := { found with sawHeadHeader := true }
  if value = "(detached)".toList then { found with detached := true, branch := none }
  else if value = [] ∨ maxStatusBranchBytes < byteLen value then found.malform
  else { found with branch := some value }

def header (chunk : List UInt8) (found : Observation) : Observation :=
  match decode chunk with
  | none => found.malform
  | some text =>
    if text.take 2 ≠ ['#', ' '] then found.malform
    else
      match splitOnce (text.drop 2) with
      | none => found.malform
      | some (key, value) =>
        if key = "branch.oid".toList then headerOid value found
        else if key = "branch.head".toList then headerBranch value found
        else found

end Chunks

section Records

/-- What a record says: a kind of change, the path, the previous path of a rename, and the
status codes if it has them. -/
structure Change where
  kind : WorkspaceStatusEntryKind
  path : List UInt8
  original : Option (List UInt8)
  statuses : Option (Char × Char)
deriving Repr

def ordinary (chunk : List UInt8) : Option Change := do
  let fields ← splitFields chunk 9
  let statuses ← xy (fields.getD 1 [])
  some ⟨.ordinary, fields.getD 8 [], none, some statuses⟩

/-- Without the previous name a half record is no rename. -/
def renamed (chunk : List UInt8) (original : Option (List UInt8)) : Option Change := do
  let fields ← splitFields chunk 10
  let original ← original.filter (· ≠ [])
  let statuses ← xy (fields.getD 1 [])
  some ⟨.renamed, fields.getD 9 [], some original, some statuses⟩

def unmerged (chunk : List UInt8) : Option Change := do
  let fields ← splitFields chunk 11
  let statuses ← xy (fields.getD 1 [])
  some ⟨.unmerged, fields.getD 10 [], none, some statuses⟩

def untracked (chunk : List UInt8) : Option Change := do
  let fields ← splitFields chunk 2
  some ⟨.untracked, fields.getD 1 [], none, none⟩

variable (toplevel workspaceRoot : List UInt8)

/-- The previous name of a rename is left out where it lies outside the workspace, and where
it cannot be represented, which is counted. -/
def mapOriginal (original : Option (List UInt8)) (found : Observation) :
    Observation × Option (List Char) :=
  match original with
  | none => (found, none)
  | some original =>
    match relativeToWorkspace original toplevel workspaceRoot with
    | .inside path => (found, some path)
    | .outside => (found, none)
    | .skipped => ({ found with skippedPaths := found.skippedPaths + 1 }, none)

def mapEntry (path : List UInt8) (original : Option (List UInt8)) (found : Observation) :
    Observation × Option (List Char × Option (List Char)) :=
  match relativeToWorkspace path toplevel workspaceRoot with
  | .outside => (found, none)
  | .skipped => ({ found with skippedPaths := found.skippedPaths + 1 }, none)
  | .inside mapped =>
    let (found, originalPath) := mapOriginal toplevel workspaceRoot original found
    (found, some (mapped, originalPath))

/-- One ordinary or renamed entry in the summary. -/
def count (found : Observation) (statuses : Char × Char) : Observation :=
  { found with
    staged := if statuses.1 ≠ '.' then found.staged + 1 else found.staged
    unstaged := if statuses.2 ≠ '.' then found.unstaged + 1 else found.unstaged }

/-- One entry in the summary. A conflicted path is neither staged nor unstaged. -/
def Change.tally (change : Change) (found : Observation) : Observation :=
  match change.kind, change.statuses with
  | .unmerged, _ => { found with conflicted := found.conflicted + 1 }
  | .untracked, _ => { found with untracked := found.untracked + 1 }
  | _, some statuses => count found statuses
  | _, none => found

def Change.report (change : Change) (path : List Char) (originalPath : Option (List Char)) :
    WorkspaceStatusEntry where
  path := path
  kind := change.kind
  indexStatus := change.statuses.map fun statuses => [statuses.1]
  worktreeStatus := change.statuses.map fun statuses => [statuses.2]
  originalPath := originalPath

/-- The arm of a record. -/
def accept (change : Option Change) (found : Observation) : Observation :=
  match change with
  | none => found.malform
  | some change =>
    match mapEntry toplevel workspaceRoot change.path change.original found with
    | (found, none) => found
    | (found, some (path, originalPath)) =>
      let found := change.tally { found with records := found.records + 1 }
      { found with entries := found.entries ++ [change.report path originalPath] }

/-- What one chunk adds, with the next one if it is the record of a rename. -/
def see (chunk : List UInt8) (original : Option (List UInt8)) (found : Observation) :
    Observation :=
  match chunk.head? with
  | some 0x23 => header chunk found
  | some 0x31 => accept toplevel workspaceRoot (ordinary chunk) found
  | some 0x32 => accept toplevel workspaceRoot (renamed chunk original) found
  | some 0x75 => accept toplevel workspaceRoot (unmerged chunk) found
  | some 0x3f => accept toplevel workspaceRoot (untracked chunk) found
  | some 0x21 => found
  | _ => found.malform

/-- The loop over the chunks. The chunk behind the record of a rename is taken before the
record is read. -/
def observeLoop (caps : StatusCaps) : List (List UInt8) → Observation → Observation
  | [], found => found
  | [chunk], found =>
    if chunk = [] then found
    else if caps.records ≤ found.records then { found with truncated := true }
    else see toplevel workspaceRoot chunk none found
  | chunk :: next :: rest, found =>
    if chunk = [] then observeLoop caps (next :: rest) found
    else if caps.records ≤ found.records then { found with truncated := true }
    else if chunk.head? = some 0x32 then
      observeLoop caps rest (see toplevel workspaceRoot chunk (some next) found)
    else observeLoop caps (next :: rest) (see toplevel workspaceRoot chunk none found)

def observe (stdout : List UInt8) (caps : StatusCaps) : Observation :=
  observeLoop toplevel workspaceRoot caps (chunks stdout) {}

end Records

section Entries

/-- A chunk with a record, and the chunk behind it if it is the record of a rename. -/
structure Record where
  chunk : List UInt8
  original : Option (List UInt8)
deriving DecidableEq, Repr

def Record.chunks (record : Record) : List (List UInt8) := record.chunk :: record.original.toList

/-- The records and headers of a stream. -/
def records : List (List UInt8) → List Record
  | [] => []
  | [chunk] => if chunk = [] then [] else [⟨chunk, none⟩]
  | chunk :: next :: rest =>
    if chunk = [] then records (next :: rest)
    else if chunk.head? = some 0x32 then ⟨chunk, some next⟩ :: records rest
    else ⟨chunk, none⟩ :: records (next :: rest)

/-- The change that a record is about, if it is well formed. -/
def Record.change (record : Record) : Option Change :=
  match record.chunk.head? with
  | some 0x31 => ordinary record.chunk
  | some 0x32 => renamed record.chunk record.original
  | some 0x75 => unmerged record.chunk
  | some 0x3f => untracked record.chunk
  | _ => none

variable (toplevel workspaceRoot : List UInt8)

/-- A path in the workspace. -/
def insidePath (path : List UInt8) : Option (List Char) :=
  match relativeToWorkspace path toplevel workspaceRoot with
  | .inside relative => some relative
  | _ => none

/-- The entry of a change in the workspace. -/
def Change.entry (change : Change) : Option WorkspaceStatusEntry :=
  (insidePath toplevel workspaceRoot change.path).map fun path =>
    change.report path (change.original.bind (insidePath toplevel workspaceRoot))

/-- The entry that a record stands for, if it names something in the workspace. -/
def Record.entry (record : Record) : Option WorkspaceStatusEntry :=
  record.change.bind (Change.entry toplevel workspaceRoot)

def isStaged (entry : WorkspaceStatusEntry) : Bool :=
  (entry.kind = .ordinary || entry.kind = .renamed) && entry.indexStatus != some ['.']

def isUnstaged (entry : WorkspaceStatusEntry) : Bool :=
  (entry.kind = .ordinary || entry.kind = .renamed) && entry.worktreeStatus != some ['.']

/-- The counters are those of the entries, and there are no more of them than the cap. -/
structure Counted (caps : StatusCaps) (found : Observation) : Prop where
  records : found.records.toNat = found.entries.length
  capped : found.entries.length ≤ caps.records.toNat
  staged : found.staged.toNat = found.entries.countP isStaged
  unstaged : found.unstaged.toNat = found.entries.countP isUnstaged
  untracked : found.untracked.toNat = found.entries.countP (·.kind = .untracked)
  conflicted : found.conflicted.toNat = found.entries.countP (·.kind = .unmerged)

variable {caps : StatusCaps} {found : Observation}

theorem observed_nothing : Counted caps {} where
  records := rfl
  capped := Nat.zero_le _
  staged := rfl
  unstaged := rfl
  untracked := rfl
  conflicted := rfl

/-- A counter that is not above a number of entries below the cap can be raised. -/
theorem raise_counter {counter : UInt64} {size : Nat} (small : size < caps.records.toNat)
    (within : counter.toNat ≤ size) : (counter + 1).toNat = counter.toNat + 1 := by
  have limit := caps.records.toNat_lt
  rw [UInt64.toNat_add]
  exact Nat.mod_eq_of_lt (by simp only [UInt64.toNat_one]; omega)

/-- A counter raised for an entry counts it. -/
theorem raise_count {counter : UInt64} {entries : List WorkspaceStatusEntry}
    (small : entries.length < caps.records.toNat) {kind : WorkspaceStatusEntry → Bool}
    (counted : counter.toNat = entries.countP kind) (entry : WorkspaceStatusEntry)
    (raised : Prop) [Decidable raised] (counts : kind entry = true ↔ raised) :
    (if raised then counter + 1 else counter).toNat = (entries ++ [entry]).countP kind := by
  rw [List.countP_append, ← counted, List.countP_singleton]
  split
  · rename_i counting
    rw [if_pos (counts.mpr counting)]
    apply raise_counter small
    rw [counted]
    exact List.countP_le_length
  · rename_i other
    rw [if_neg fun kind => other (counts.mp kind), Nat.add_zero]

/-- A counter that is left alone counts no other entry. -/
theorem keep_count {counter : UInt64} {entries : List WorkspaceStatusEntry}
    {kind : WorkspaceStatusEntry → Bool} (counted : counter.toNat = entries.countP kind)
    {entry : WorkspaceStatusEntry} (other : kind entry = false) :
    counter.toNat = (entries ++ [entry]).countP kind := by
  rw [List.countP_append, ← counted, List.countP_singleton, other]
  rfl

/-- Only an untracked change has no status codes, and a rename has its previous name. -/
structure Change.WellFormed (change : Change) : Prop where
  coded : change.kind = .untracked ↔ change.statuses = none
  named : change.kind = .renamed ↔ ∃ original, change.original = some original
  filled : ∀ original ∈ change.original, original ≠ []

theorem record_change_formed {record : Record} {change : Change}
    (read : record.change = some change) : change.WellFormed := by
  obtain ⟨chunk, original⟩ := record
  rw [Record.change] at read
  split at read
  · obtain ⟨fields, -, read⟩ := Option.bind_eq_some_iff.mp read
    obtain ⟨statuses, -, same⟩ := Option.bind_eq_some_iff.mp read
    cases same
    exact ⟨by simp, by simp, by simp⟩
  · obtain ⟨fields, -, read⟩ := Option.bind_eq_some_iff.mp read
    obtain ⟨name, filtered, read⟩ := Option.bind_eq_some_iff.mp read
    obtain ⟨statuses, -, same⟩ := Option.bind_eq_some_iff.mp read
    cases same
    obtain ⟨-, filled⟩ := Option.filter_eq_some_iff.mp filtered
    exact ⟨by simp, by simp, by simpa using filled⟩
  · obtain ⟨fields, -, read⟩ := Option.bind_eq_some_iff.mp read
    obtain ⟨statuses, -, same⟩ := Option.bind_eq_some_iff.mp read
    cases same
    exact ⟨by simp, by simp, by simp⟩
  · obtain ⟨fields, -, same⟩ := Option.bind_eq_some_iff.mp read
    cases same
    exact ⟨by simp, by simp, by simp⟩
  · cases read

/-- A rename is read from a record with its previous name. -/
theorem record_change_named {record : Record} {change : Change}
    (read : record.change = some change) (renamed : change.kind = .renamed) :
    ∃ original ≠ [], record.original = some original := by
  obtain ⟨chunk, original⟩ := record
  rw [Record.change] at read
  split at read
  · obtain ⟨fields, -, read⟩ := Option.bind_eq_some_iff.mp read
    obtain ⟨statuses, -, same⟩ := Option.bind_eq_some_iff.mp read
    cases same
    cases renamed
  · obtain ⟨fields, -, read⟩ := Option.bind_eq_some_iff.mp read
    obtain ⟨name, filtered, read⟩ := Option.bind_eq_some_iff.mp read
    obtain ⟨whole, filled⟩ := Option.filter_eq_some_iff.mp filtered
    exact ⟨name, by simpa using filled, whole⟩
  · obtain ⟨fields, -, read⟩ := Option.bind_eq_some_iff.mp read
    obtain ⟨statuses, -, same⟩ := Option.bind_eq_some_iff.mp read
    cases same
    cases renamed
  · obtain ⟨fields, -, same⟩ := Option.bind_eq_some_iff.mp read
    cases same
    cases renamed
  · cases read

/-- One more entry is counted. -/
theorem accept_counted (counted : Counted caps found)
    (room : found.records < caps.records) {change : Change} (formed : change.WellFormed)
    (path : List Char) (originalPath : Option (List Char)) :
    Counted caps
      { change.tally { found with records := found.records + 1 } with
        entries := found.entries ++ [change.report path originalPath] } := by
  have small : found.entries.length < caps.records.toNat := by
    rw [← counted.records]
    exact UInt64.lt_iff_toNat_lt.mp room
  have records : (found.records + 1).toNat = found.entries.length + 1 := by
    rw [raise_counter small (Nat.le_of_eq counted.records), counted.records]
  have length : (found.entries ++ [change.report path originalPath]).length ≤
      caps.records.toNat := by
    rw [List.length_append, List.length_singleton]
    exact small
  obtain ⟨kind, bytes, original, statuses⟩ := change
  cases kind with
  | ordinary =>
    cases statuses with
    | none => exact absurd (formed.coded.mpr rfl) (by simp)
    | some statuses =>
      exact ⟨by simpa [Change.tally, count] using records, length,
        raise_count small counted.staged _ _ (by simp [isStaged, Change.report]),
        raise_count small counted.unstaged _ _ (by simp [isUnstaged, Change.report]),
        keep_count counted.untracked rfl, keep_count counted.conflicted rfl⟩
  | renamed =>
    cases statuses with
    | none => exact absurd (formed.coded.mpr rfl) (by simp)
    | some statuses =>
      exact ⟨by simpa [Change.tally, count] using records, length,
        raise_count small counted.staged _ _ (by simp [isStaged, Change.report]),
        raise_count small counted.unstaged _ _ (by simp [isUnstaged, Change.report]),
        keep_count counted.untracked rfl, keep_count counted.conflicted rfl⟩
  | unmerged =>
    have raised := raise_count small counted.conflicted
      (Change.report ⟨.unmerged, bytes, original, statuses⟩ path originalPath) True
      (by simp [Change.report])
    exact ⟨by simpa [Change.tally] using records, length, keep_count counted.staged rfl,
      keep_count counted.unstaged rfl, keep_count counted.untracked rfl, raised⟩
  | untracked =>
    have raised := raise_count small counted.untracked
      (Change.report ⟨.untracked, bytes, original, statuses⟩ path originalPath) True
      (by simp [Change.report])
    exact ⟨by simpa [Change.tally] using records, length, keep_count counted.staged rfl,
      keep_count counted.unstaged rfl, raised, keep_count counted.conflicted rfl⟩

/-- Whether its previous name can be said or not, an entry and its counters are the same. -/
theorem map_original_maps (original : Option (List UInt8)) (found : Observation) :
    ∃ skipped, mapOriginal toplevel workspaceRoot original found =
      ({ found with skippedPaths := skipped },
        original.bind (insidePath toplevel workspaceRoot)) := by
  cases original with
  | none => exact ⟨found.skippedPaths, rfl⟩
  | some original =>
    rw [mapOriginal, Option.bind_some, insidePath]
    cases relativeToWorkspace original toplevel workspaceRoot with
    | inside path => exact ⟨found.skippedPaths, rfl⟩
    | outside => exact ⟨found.skippedPaths, rfl⟩
    | skipped => exact ⟨found.skippedPaths + 1, rfl⟩

theorem map_entry_maps (change : Change) (found : Observation) :
    ∃ skipped, mapEntry toplevel workspaceRoot change.path change.original found =
      ({ found with skippedPaths := skipped },
        (insidePath toplevel workspaceRoot change.path).map fun path =>
          (path, change.original.bind (insidePath toplevel workspaceRoot))) := by
  rw [mapEntry, insidePath]
  cases relativeToWorkspace change.path toplevel workspaceRoot with
  | inside path =>
    obtain ⟨skipped, mapped⟩ := map_original_maps toplevel workspaceRoot change.original found
    refine ⟨skipped, ?_⟩
    dsimp only
    rw [mapped]
    rfl
  | outside => exact ⟨found.skippedPaths, rfl⟩
  | skipped => exact ⟨found.skippedPaths + 1, rfl⟩

theorem tally_keeps (change : Change) (found : Observation) :
    (change.tally found).entries = found.entries ∧
      (change.tally found).truncated = found.truncated := by
  rw [Change.tally]
  split
  · exact ⟨rfl, rfl⟩
  · exact ⟨rfl, rfl⟩
  · exact ⟨rfl, rfl⟩
  · exact ⟨rfl, rfl⟩

/-- What one record adds: its entry. -/
structure Adds (caps : StatusCaps) (found next : Observation)
    (entry : Option WorkspaceStatusEntry) : Prop where
  entries : next.entries = found.entries ++ entry.toList
  truncated : next.truncated = found.truncated
  counted : Counted caps next

/-- Neither the entries nor their counters are touched. -/
structure Keeps (found next : Observation) : Prop where
  entries : next.entries = found.entries
  truncated : next.truncated = found.truncated
  records : next.records = found.records
  staged : next.staged = found.staged
  unstaged : next.unstaged = found.unstaged
  untracked : next.untracked = found.untracked
  conflicted : next.conflicted = found.conflicted

theorem keeps_malform (found : Observation) : Keeps found found.malform :=
  ⟨rfl, rfl, rfl, rfl, rfl, rfl, rfl⟩

theorem keeps_skipped (found : Observation) (skipped : UInt64) :
    Keeps found { found with skippedPaths := skipped } := ⟨rfl, rfl, rfl, rfl, rfl, rfl, rfl⟩

theorem keeps_header (found : Observation) (chunk : List UInt8) :
    Keeps found (header chunk found) := by
  rw [header]
  split
  · exact keeps_malform found
  · split
    · exact keeps_malform found
    · split
      · exact keeps_malform found
      · split
        · rw [headerOid]
          split_ifs
          all_goals exact ⟨rfl, rfl, rfl, rfl, rfl, rfl, rfl⟩
        · split
          · rw [headerBranch]
            split_ifs
            all_goals exact ⟨rfl, rfl, rfl, rfl, rfl, rfl, rfl⟩
          · exact ⟨rfl, rfl, rfl, rfl, rfl, rfl, rfl⟩

theorem adds_nothing (counted : Counted caps found) {next : Observation}
    (keeps : Keeps found next) : Adds caps found next none where
  entries := by rw [keeps.entries, Option.toList_none, List.append_nil]
  truncated := keeps.truncated
  counted := {
    records := by rw [keeps.records, keeps.entries, counted.records]
    capped := by rw [keeps.entries]; exact counted.capped
    staged := by rw [keeps.staged, keeps.entries, counted.staged]
    unstaged := by rw [keeps.unstaged, keeps.entries, counted.unstaged]
    untracked := by rw [keeps.untracked, keeps.entries, counted.untracked]
    conflicted := by rw [keeps.conflicted, keeps.entries, counted.conflicted] }

theorem accept_adds (counted : Counted caps found) (room : found.records < caps.records)
    {change : Option Change} (formed : ∀ given ∈ change, given.WellFormed) :
    Adds caps found (accept toplevel workspaceRoot change found)
      (change.bind (Change.entry toplevel workspaceRoot)) := by
  cases change with
  | none => exact adds_nothing counted (keeps_malform found)
  | some change =>
    obtain ⟨skipped, mapped⟩ := map_entry_maps toplevel workspaceRoot change found
    have keeps := keeps_skipped found skipped
    rw [accept, mapped, Option.bind_some, Change.entry]
    cases insidePath toplevel workspaceRoot change.path with
    | none => exact adds_nothing counted keeps
    | some path =>
      obtain ⟨entries, truncated⟩ := tally_keeps change
        { found with skippedPaths := skipped, records := found.records + 1 }
      have kept := (adds_nothing counted keeps).counted
      have added := accept_counted kept room (formed change rfl) path
        (change.original.bind (insidePath toplevel workspaceRoot))
      constructor
      · dsimp only [Option.map_some]
        rw [entries, Option.toList_some]
      · exact truncated
      · dsimp only [Option.map_some]
        rw [entries]
        exact added

/-- One round of the loop adds the entry of its record. -/
theorem see_adds (counted : Counted caps found) (room : found.records < caps.records)
    (record : Record) :
    Adds caps found (see toplevel workspaceRoot record.chunk record.original found)
      (record.entry toplevel workspaceRoot) := by
  have formed : ∀ change ∈ record.change, change.WellFormed := fun change read =>
    record_change_formed read
  obtain ⟨chunk, original⟩ := record
  rw [Record.entry]
  rw [Record.change] at formed ⊢
  rw [see]
  split at formed
  · rename_i head
    rw [head]
    exact accept_adds toplevel workspaceRoot counted room formed
  · rename_i head
    rw [head]
    exact accept_adds toplevel workspaceRoot counted room formed
  · rename_i head
    rw [head]
    exact accept_adds toplevel workspaceRoot counted room formed
  · rename_i head
    rw [head]
    exact accept_adds toplevel workspaceRoot counted room formed
  · rename_i ordinary renamed unmerged untracked
    split
    · exact adds_nothing counted (keeps_header found chunk)
    · contradiction
    · contradiction
    · contradiction
    · contradiction
    · exact adds_nothing counted ⟨rfl, rfl, rfl, rfl, rfl, rfl, rfl⟩
    · exact adds_nothing counted (keeps_malform found)

/-- What a loop over records makes of an observation: it adds their entries, as many as the
cap allows, and all of them unless it says that it was cut. -/
structure Observes (caps : StatusCaps) (found next : Observation)
    (entries : List WorkspaceStatusEntry) : Prop where
  added : next.entries = found.entries ++ entries.take (caps.records.toNat - found.entries.length)
  whole : next.truncated = false → next.entries = found.entries ++ entries
  counted : Counted caps next

theorem observes_nothing (counted : Counted caps found) : Observes caps found found [] where
  added := by rw [List.take_nil, List.append_nil]
  whole := fun _ => (List.append_nil _).symm
  counted := counted

theorem observes_full (counted : Counted caps found) (full : caps.records ≤ found.records)
    (entries : List WorkspaceStatusEntry) :
    Observes caps found { found with truncated := true } entries where
  added := by
    have none : caps.records.toNat - found.entries.length = 0 := by
      rw [← counted.records]
      exact Nat.sub_eq_zero_of_le (UInt64.le_iff_toNat_le.mp full)
    rw [none, List.take_zero, List.append_nil]
  whole := by
    intro cut
    cases cut
  counted := ⟨counted.records, counted.capped, counted.staged, counted.unstaged,
    counted.untracked, counted.conflicted⟩

/-- The entry of one record, and then those of the others. -/
theorem Observes.before {middle next : Observation} {entry : Option WorkspaceStatusEntry}
    {entries : List WorkspaceStatusEntry} (adds : Adds caps found middle entry)
    (room : found.entries.length < caps.records.toNat)
    (observes : Observes caps middle next entries) :
    Observes caps found next (entry.toList ++ entries) where
  added := by
    have size : middle.entries.length = found.entries.length + entry.toList.length := by
      rw [adds.entries, List.length_append]
    have fits : entry.toList.length ≤ caps.records.toNat - found.entries.length := by
      cases entry with
      | none => exact Nat.zero_le _
      | some entry =>
        rw [Option.toList_some, List.length_singleton]
        omega
    rw [observes.added, adds.entries, List.append_assoc, List.length_append, List.take_append,
      List.take_of_length_le fits, Nat.sub_sub]
  whole := by
    intro whole
    rw [observes.whole whole, adds.entries, List.append_assoc]
  counted := observes.counted

theorem entries_cons (record : Record) (rest : List Record) :
    (record :: rest).filterMap (Record.entry toplevel workspaceRoot) =
      (record.entry toplevel workspaceRoot).toList ++
        rest.filterMap (Record.entry toplevel workspaceRoot) := by
  rw [List.filterMap_cons]
  cases record.entry toplevel workspaceRoot <;> rfl

theorem Counted.room (counted : Counted caps found) (below : ¬caps.records ≤ found.records) :
    found.records < caps.records ∧ found.entries.length < caps.records.toNat := by
  have less := UInt64.not_le.mp below
  rw [← counted.records]
  exact ⟨less, UInt64.lt_iff_toNat_lt.mp less⟩

theorem observe_loop_observes (chunkList : List (List UInt8)) (counted : Counted caps found) :
    Observes caps found (observeLoop toplevel workspaceRoot caps chunkList found)
      ((records chunkList).filterMap (Record.entry toplevel workspaceRoot)) := by
  fun_induction observeLoop toplevel workspaceRoot caps chunkList found with
  | case1 found => exact observes_nothing counted
  | case2 found =>
    rw [records, if_pos rfl]
    exact observes_nothing counted
  | case3 chunk found filled full => exact observes_full counted full _
  | case4 chunk found filled below =>
    obtain ⟨room, small⟩ := counted.room below
    have adds := see_adds toplevel workspaceRoot counted room ⟨chunk, none⟩
    rw [records, if_neg filled, entries_cons]
    exact (observes_nothing adds.counted).before adds small
  | case5 next rest found inductionHypothesis =>
    rw [records, if_pos rfl]
    exact inductionHypothesis counted
  | case6 chunk next rest found filled full => exact observes_full counted full _
  | case7 chunk next rest found filled below rename inductionHypothesis =>
    obtain ⟨room, small⟩ := counted.room below
    have adds := see_adds toplevel workspaceRoot counted room ⟨chunk, some next⟩
    rw [records, if_neg filled, if_pos rename, entries_cons]
    exact (inductionHypothesis adds.counted).before adds small
  | case8 chunk next rest found filled below other inductionHypothesis =>
    obtain ⟨room, small⟩ := counted.room below
    have adds := see_adds toplevel workspaceRoot counted room ⟨chunk, none⟩
    rw [records, if_neg filled, if_neg other, entries_cons]
    exact (inductionHypothesis adds.counted).before adds small

/-- The entries of a stream, before the cap. -/
def streamEntries (stdout : List UInt8) : List WorkspaceStatusEntry :=
  (records (chunks stdout)).filterMap (Record.entry toplevel workspaceRoot)

/-- Observed are the first entries of the stream, as many as the cap allows, and all of them
unless the observation says that it was cut. -/
theorem observe_observes (stdout : List UInt8) (caps : StatusCaps) :
    (observe toplevel workspaceRoot stdout caps).entries =
        (streamEntries toplevel workspaceRoot stdout).take caps.records.toNat ∧
      ((observe toplevel workspaceRoot stdout caps).truncated = false →
        (observe toplevel workspaceRoot stdout caps).entries =
          streamEntries toplevel workspaceRoot stdout) ∧
      Counted caps (observe toplevel workspaceRoot stdout caps) := by
  have counted : Counted caps {} := observed_nothing
  have observes := observe_loop_observes toplevel workspaceRoot (chunks stdout) counted
  exact ⟨observes.added, observes.whole, observes.counted⟩

end Entries

section Prefixes

theorem chunks_eq (stdout : List UInt8) : chunks stdout = (Lines.split 0 stdout).1 ++ [[]] := by
  obtain ⟨free, unended⟩ := Lines.split_free (0 : UInt8) stdout
  have whole := Lines.join_split (0 : UInt8) stdout
  have cut := (TextLines.cut_join (Lines.split 0 stdout).1 unended).1
  rw [whole] at cut
  have nothing : (0 : UInt8) ∉ [] := by simp
  have split := Lines.split_join free nothing
  rw [List.append_nil] at split
  rw [chunks, cut, split]

/-- The chunks that a beginning of the stream ends are the first ones of the stream. -/
theorem split_prefix {part stdout : List UInt8} (begins : part <+: stdout) :
    (Lines.split 0 part).1 <+: (Lines.split 0 stdout).1 := by
  obtain ⟨more, rfl⟩ := begins
  rw [TextLines.split_append]
  exact List.prefix_append _ _

variable (toplevel workspaceRoot : List UInt8)

/-- A rename whose previous name is empty stands for nothing. -/
theorem unnamed_rename {chunk : List UInt8} (rename : chunk.head? = some 0x32) :
    Record.entry toplevel workspaceRoot ⟨chunk, some []⟩ = none := by
  rw [Record.entry, Record.change, rename]
  dsimp only
  rw [renamed]
  cases splitFields chunk 10 with
  | none => rfl
  | some fields => rfl

/-- The entries of some chunks begin those of more chunks: a rename that is cut before its
previous name has no entry. -/
theorem entries_grow (first more : List (List UInt8)) :
    (records (first ++ [[]])).filterMap (Record.entry toplevel workspaceRoot) <+:
      (records (first ++ more)).filterMap (Record.entry toplevel workspaceRoot) := by
  induction first using records.induct with
  | case1 => exact List.nil_prefix
  | case2 => exact List.nil_prefix
  | case3 chunk filled =>
    rw [List.cons_append, List.cons_append, List.nil_append, List.nil_append, records,
      if_neg filled]
    by_cases rename : chunk.head? = some 0x32
    · rw [if_pos rename, entries_cons, unnamed_rename toplevel workspaceRoot rename]
      exact List.nil_prefix
    · have nothing : records [[]] = [] := rfl
      rw [if_neg rename, entries_cons, nothing, List.filterMap_nil]
      cases more with
      | nil =>
        rw [records, if_neg filled, entries_cons]
        exact List.prefix_rfl
      | cons next more =>
        rw [records, if_neg filled, if_neg rename, entries_cons]
        exact (List.prefix_append_right_inj _).mpr List.nil_prefix
  | case4 next rest inductionHypothesis =>
    rw [List.cons_append, List.cons_append, List.cons_append, List.cons_append, records,
      if_pos rfl, records, if_pos rfl]
    exact inductionHypothesis
  | case5 chunk next rest filled rename inductionHypothesis =>
    rw [List.cons_append, List.cons_append, List.cons_append, List.cons_append, records,
      if_neg filled, if_pos rename, records, if_neg filled, if_pos rename, entries_cons,
      entries_cons]
    exact (List.prefix_append_right_inj _).mpr inductionHypothesis
  | case6 chunk next rest filled other inductionHypothesis =>
    rw [List.cons_append, List.cons_append, List.cons_append, List.cons_append, records,
      if_neg filled, if_neg other, records, if_neg filled, if_neg other, entries_cons,
      entries_cons]
    exact (List.prefix_append_right_inj _).mpr inductionHypothesis

/-- The chunks of a record follow one another in the stream, each ended by its NUL, unless it
is a rename that is cut before its previous name. -/
theorem record_infix {record : Record} (first : List (List UInt8))
    (member : record ∈ records (first ++ [[]])) :
    record.chunks <:+: first ∨ record.chunk.head? = some 0x32 ∧ record.original = some [] := by
  induction first using records.induct with
  | case1 => cases member
  | case2 => cases member
  | case3 chunk filled =>
    rw [List.cons_append, List.nil_append, records, if_neg filled] at member
    by_cases rename : chunk.head? = some 0x32
    · rw [if_pos rename, records, List.mem_singleton] at member
      rw [member]
      exact Or.inr ⟨rename, rfl⟩
    · rw [if_neg rename, records, if_pos rfl, List.mem_singleton] at member
      rw [member]
      exact Or.inl (List.infix_refl [chunk])
  | case4 next rest inductionHypothesis =>
    rw [List.cons_append, List.cons_append, records, if_pos rfl] at member
    exact (inductionHypothesis member).imp_left List.infix_cons
  | case5 chunk next rest filled rename inductionHypothesis =>
    rw [List.cons_append, List.cons_append, records, if_neg filled, if_pos rename,
      List.mem_cons] at member
    rcases member with rfl | later
    · exact Or.inl (List.prefix_append [chunk, next] rest).isInfix
    · exact (inductionHypothesis later).imp_left fun inside =>
        List.infix_cons (List.infix_cons inside)
  | case6 chunk next rest filled other inductionHypothesis =>
    rw [List.cons_append, List.cons_append, records, if_neg filled, if_neg other,
      List.mem_cons] at member
    rcases member with rfl | later
    · exact Or.inl (List.prefix_append [chunk] (next :: rest)).isInfix
    · exact (inductionHypothesis later).imp_left List.infix_cons

/-- An entry is made of whole records only, and that of a rename has its previous name. -/
theorem entry_built {stdout : List UInt8} {entry : WorkspaceStatusEntry}
    (member : entry ∈ streamEntries toplevel workspaceRoot stdout) :
    ∃ record : Record, record.entry toplevel workspaceRoot = some entry ∧
      record.chunks <:+: (Lines.split 0 stdout).1 ∧
      (entry.kind = .renamed → ∃ original ≠ [], record.original = some original) := by
  rw [streamEntries, chunks_eq] at member
  obtain ⟨record, inside, found⟩ := List.mem_filterMap.mp member
  refine ⟨record, found, ?_, ?_⟩
  · rcases record_infix _ inside with whole | ⟨rename, unnamed⟩
    · exact whole
    · obtain ⟨chunk, original⟩ := record
      dsimp only at unnamed rename
      rw [unnamed, unnamed_rename toplevel workspaceRoot rename] at found
      cases found
  · intro renamed
    obtain ⟨change, read, reported⟩ := Option.bind_eq_some_iff.mp found
    obtain ⟨path, -, rfl⟩ := Option.map_eq_some_iff.mp reported
    exact record_change_named read renamed

end Prefixes

section Inside

variable (toplevel workspaceRoot : List UInt8)

/-- The record names something in the workspace. -/
def Record.reported (record : Record) : Bool :=
  (record.change.bind fun change => insidePath toplevel workspaceRoot change.path).isSome

/-- The records that are accepted: those that name something in the workspace, as many as the
cap allows. -/
def accepted (stdout : List UInt8) (caps : StatusCaps) : List Record :=
  ((records (chunks stdout)).filter (Record.reported toplevel workspaceRoot)).take
    caps.records.toNat

/-- The record names the workspace itself, by its path or by the previous one. -/
def Record.NamesWorkspace (record : Record) : Prop :=
  ∃ change ∈ record.change, GitStatus.NamesWorkspace change.path toplevel workspaceRoot ∨
    ∃ original ∈ change.original, GitStatus.NamesWorkspace original toplevel workspaceRoot

/-- The paths of an entry lie strictly inside the workspace. -/
def WorkspaceStatusEntry.Inside (entry : WorkspaceStatusEntry) : Prop :=
  WorkspacePath entry.path ∧ ∀ original ∈ entry.originalPath, WorkspacePath original

theorem filter_map_take {α β : Type} (f : α → Option β) (items : List α) (size : Nat) :
    (items.filterMap f).take size =
      ((items.filter fun item => (f item).isSome).take size).filterMap f := by
  induction items generalizing size with
  | nil => simp
  | cons item items inductionHypothesis =>
    cases found : f item with
    | none =>
      rw [List.filterMap_cons_none found, List.filter_cons_of_neg (by simp [found])]
      exact inductionHypothesis size
    | some value =>
      rw [List.filterMap_cons_some found, List.filter_cons_of_pos (by simp [found])]
      cases size with
      | zero => rfl
      | succ more =>
        rw [List.take_succ_cons, List.take_succ_cons, List.filterMap_cons_some found,
          inductionHypothesis more]

theorem reported_iff_entry (record : Record) :
    record.reported toplevel workspaceRoot = (record.entry toplevel workspaceRoot).isSome := by
  rw [Record.reported, Record.entry]
  cases record.change with
  | none => rfl
  | some change => rw [Option.bind_some, Option.bind_some, Change.entry, Option.isSome_map]

theorem entries_accepted (stdout : List UInt8) (caps : StatusCaps) :
    (observe toplevel workspaceRoot stdout caps).entries =
      (accepted toplevel workspaceRoot stdout caps).filterMap
        (Record.entry toplevel workspaceRoot) := by
  have same : Record.reported toplevel workspaceRoot =
      fun record => (record.entry toplevel workspaceRoot).isSome :=
    funext (reported_iff_entry toplevel workspaceRoot)
  rw [(observe_observes toplevel workspaceRoot stdout caps).1, streamEntries, filter_map_take,
    accepted, same]

variable {toplevel workspaceRoot}

/-- A path lies strictly inside unless it names the workspace. -/
theorem inside_path_iff (top : isAbsolute toplevel = true) (root : isAbsolute workspaceRoot = true)
    (path : List UInt8) :
    (∀ relative ∈ insidePath toplevel workspaceRoot path, WorkspacePath relative) ↔
      ¬NamesWorkspace path toplevel workspaceRoot := by
  rw [insidePath]
  constructor
  · intro inside names
    rw [names_workspace_empty names] at inside
    exact workspace_path_filled (inside [] rfl) rfl
  · intro other relative member
    cases mapped : relativeToWorkspace path toplevel workspaceRoot with
    | inside path =>
      rw [mapped] at member
      cases member
      exact (inside_iff top root mapped).mpr other
    | outside =>
      rw [mapped] at member
      cases member
    | skipped =>
      rw [mapped] at member
      cases member

/-- The entry of a record lies inside unless the record names the workspace. -/
theorem record_inside_iff (top : isAbsolute toplevel = true)
    (root : isAbsolute workspaceRoot = true) {record : Record} {entry : WorkspaceStatusEntry}
    (found : record.entry toplevel workspaceRoot = some entry) :
    entry.Inside ↔ ¬record.NamesWorkspace toplevel workspaceRoot := by
  obtain ⟨change, read, reported⟩ := Option.bind_eq_some_iff.mp found
  obtain ⟨path, inside, rfl⟩ := Option.map_eq_some_iff.mp reported
  have first := inside_path_iff top root change.path
  rw [inside] at first
  constructor
  · rintro ⟨strictly, originals⟩ ⟨given, member, names⟩
    rw [read] at member
    cases member
    rcases names with itself | ⟨original, named, itself⟩
    · refine first.mp ?_ itself
      intro relative member
      cases member
      exact strictly
    · refine (inside_path_iff top root original).mp ?_ itself
      intro relative member
      exact originals relative (Option.mem_bind_iff.mpr ⟨original, named, member⟩)
  · intro other
    constructor
    · exact first.mpr (fun itself => other ⟨change, read, Or.inl itself⟩) path rfl
    · intro relative member
      obtain ⟨original, named, mapped⟩ := Option.mem_bind_iff.mp member
      exact (inside_path_iff top root original).mpr
        (fun itself => other ⟨change, read, Or.inr ⟨original, named, itself⟩⟩) relative mapped

/-- The paths of the entries lie strictly inside the workspace, exactly if no accepted record
names the workspace itself. -/
theorem entries_inside_iff (top : isAbsolute toplevel = true)
    (root : isAbsolute workspaceRoot = true) (stdout : List UInt8) (caps : StatusCaps) :
    (∀ entry ∈ (observe toplevel workspaceRoot stdout caps).entries, entry.Inside) ↔
      ∀ record ∈ accepted toplevel workspaceRoot stdout caps,
        ¬record.NamesWorkspace toplevel workspaceRoot := by
  rw [entries_accepted]
  constructor
  · intro inside record member
    have reported := List.of_mem_filter (List.mem_of_mem_take member)
    rw [reported_iff_entry] at reported
    obtain ⟨entry, found⟩ := Option.isSome_iff_exists.mp reported
    exact (record_inside_iff top root found).mp
      (inside entry (List.mem_filterMap.mpr ⟨record, member, found⟩))
  · intro none entry member
    obtain ⟨record, inside, found⟩ := List.mem_filterMap.mp member
    exact (record_inside_iff top root found).mpr (none record inside)

/-- `/r`, and below it the workspace `/r/s`. -/
def sampleToplevel : List UInt8 := [0x2f, 0x72]

def sampleWorkspace : List UInt8 := [0x2f, 0x72, 0x2f, 0x73]

/-- `? s/`, as Git names a directory of which it tracks nothing. -/
def sampleUntracked : List UInt8 := [0x3f, 0x20, 0x73, 0x2f, 0]

/-- `? s/a`. -/
def sampleFile : List UInt8 := [0x3f, 0x20, 0x73, 0x2f, 0x61, 0]

theorem entries_inside_sample :
    (∀ entry ∈ (observe sampleToplevel sampleWorkspace sampleFile ⟨1⟩).entries, entry.Inside) ↔
      ∀ record ∈ accepted sampleToplevel sampleWorkspace sampleFile ⟨1⟩,
        ¬record.NamesWorkspace sampleToplevel sampleWorkspace :=
  entries_inside_iff rfl rfl sampleFile ⟨1⟩

/-- A workspace that is reported as one untracked directory is an entry without a path. -/
theorem untracked_workspace_has_no_path :
    ¬∀ (toplevel workspaceRoot : List UInt8), isAbsolute toplevel = true →
      isAbsolute workspaceRoot = true → workspacePathspec workspaceRoot toplevel ≠ none →
      ∀ (stdout : List UInt8) (caps : StatusCaps),
        ∀ entry ∈ (observe toplevel workspaceRoot stdout caps).entries, entry.Inside := by
  intro claimed
  have observed : (observe sampleToplevel sampleWorkspace sampleUntracked ⟨1⟩).entries =
      [⟨[], .untracked, none, none, none⟩] := by
    decide +kernel
  have inside := claimed sampleToplevel sampleWorkspace rfl rfl (by decide) sampleUntracked ⟨1⟩
  rw [observed] at inside
  exact workspace_path_filled (inside _ List.mem_cons_self).1 rfl

end Inside

end MinicoreAgent.GitStatus

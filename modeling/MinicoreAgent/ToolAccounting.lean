import MinicoreAgent.ToolData

/-!
# The budget of the tool records

Every operation changes the total of a session by what it changes of the records, so the
total is always the sum over all records. Each turn of `enforce_limits` frees something that
was still held or removes a record, so both of its loops end, and they end within the limits.
-/
namespace MinicoreAgent.ToolData

open MinicoreAgent.Text (byteLen)
open Tools (RingWindow ToolDataStream)
open Slots (total)

variable {ToolRef : Type} [DecidableEq ToolRef]

section Accounts

namespace ToolDataInner

variable {inner next : ToolDataInner ToolRef} {toolRef other : ToolRef} {record : ToolRecord}

/-- The total is the sum over all records, and the order lists each of their references
once. -/
structure Accounts (inner : ToolDataInner ToolRef) : Prop where
  bytes : inner.totalBytes =
    total (fun entry : ToolRef × ToolRecord => entry.2.retainedBytes) inner.records
  nodup : inner.order.Nodup
  keys : ∀ toolRef, toolRef ∈ inner.order ↔ (inner.get toolRef).isSome

/-- What is left where one record is set apart, and how a change of that record shows. -/
theorem modify_parts (found : inner.get toolRef = some record)
    (change : ToolRecord → ToolRecord) (measure : ToolRef × ToolRecord → Nat) :
    ∃ others, total measure inner.records = measure (toolRef, record) + others ∧
      total measure (inner.modify toolRef change).records =
        measure (toolRef, change record) + others := by
  obtain ⟨before, after, split⟩ := Keyed.find_split inner.distinct found
  refine ⟨total measure before + total measure after, ?_, ?_⟩
  · rw [split.whole, Slots.total_append, Slots.total_cons]
    omega
  · have put := split.put (change record)
    rw [modify, found]
    simp only
    rw [put, Slots.total_append, Slots.total_cons]
    omega

theorem modify_none (absent : inner.get toolRef = none) (change : ToolRecord → ToolRecord) :
    inner.modify toolRef change = inner := by
  rw [modify, absent]

@[simp] theorem modify_order (change : ToolRecord → ToolRecord) :
    (inner.modify toolRef change).order = inner.order := by
  rw [modify]
  split
  · rfl
  · rfl

@[simp] theorem modify_total (change : ToolRecord → ToolRecord) :
    (inner.modify toolRef change).totalBytes = inner.totalBytes := by
  rw [modify]
  split
  · rfl
  · rfl

theorem modify_length (change : ToolRecord → ToolRecord) :
    (inner.modify toolRef change).records.length = inner.records.length := by
  rw [modify]
  split
  · rfl
  · exact List.length_map _

theorem get_modify_self (found : inner.get toolRef = some record)
    (change : ToolRecord → ToolRecord) :
    (inner.modify toolRef change).get toolRef = some (change record) := by
  have put : Keyed.find (Keyed.put inner.records toolRef (change record)) toolRef =
      some (change record) := Keyed.find_put_self found
  rw [modify, found]
  exact put

theorem get_modify_other (apart : other ≠ toolRef) (change : ToolRecord → ToolRecord) :
    (inner.modify toolRef change).get other = inner.get other := by
  rw [modify]
  split
  · rfl
  · exact Keyed.find_put_other apart

theorem get_modify_some (change : ToolRecord → ToolRecord) (other : ToolRef) :
    ((inner.modify toolRef change).get other).isSome = (inner.get other).isSome := by
  by_cases same : other = toolRef
  · subst same
    cases found : inner.get other with
    | none => rw [modify_none found, found]
    | some record => rw [get_modify_self found, Option.isSome_some, Option.isSome_some]
  · rw [get_modify_other same]

/-- A change of a record keeps the accounts if the total follows it. -/
theorem Accounts.changed (accounts : Accounts inner) {changed : ToolDataInner ToolRef}
    (change : ToolRecord → ToolRecord)
    (records : changed.records = (inner.modify toolRef change).records)
    (order : changed.order = inner.order)
    (bytes : ∀ record, inner.get toolRef = some record →
      changed.totalBytes + record.retainedBytes =
        inner.totalBytes + (change record).retainedBytes)
    (absent : inner.get toolRef = none → changed.totalBytes = inner.totalBytes) :
    Accounts changed where
  bytes := by
    rw [records]
    cases found : inner.get toolRef with
    | none => rw [absent found, modify_none found, accounts.bytes]
    | some record =>
      obtain ⟨others, before, after⟩ := modify_parts found change
        (fun entry : ToolRef × ToolRecord => entry.2.retainedBytes)
      have follows := bytes record found
      rw [accounts.bytes, before] at follows
      rw [after]
      simp only at follows ⊢
      omega
  nodup := order ▸ accounts.nodup
  keys := by
    intro other
    have same : changed.get other = (inner.modify toolRef change).get other := by
      rw [get, records, get]
    rw [order, same, get_modify_some]
    exact accounts.keys other

/-- A record is part of the total. -/
theorem Accounts.retained_le (accounts : Accounts inner) (found : inner.get toolRef = some record) :
    record.retainedBytes ≤ inner.totalBytes := by
  have member : (toolRef, record) ∈ inner.records := Keyed.find_mem found
  have part := Slots.le_total_of_mem (fun entry : ToolRef × ToolRecord => entry.2.retainedBytes)
    member
  rw [accounts.bytes]
  exact part

theorem Accounts.resize (accounts : Accounts inner) (toolRef : ToolRef)
    (change : ToolRecord → ToolRecord) : Accounts (inner.resize toolRef change) := by
  refine accounts.changed change rfl (modify_order change) ?_ ?_
  · intro record found
    have part := accounts.retained_le found
    have changed := get_modify_self found change
    simp only [ToolDataInner.resize, retainedAt, found, changed, Option.map_some, Option.getD_some]
    omega
  · intro absent
    simp only [ToolDataInner.resize, modify_none absent, retainedAt, absent, Option.map_none,
      Option.getD_none, Nat.sub_zero, Nat.add_zero]

theorem Accounts.modify (accounts : Accounts inner) (toolRef : ToolRef)
    {change : ToolRecord → ToolRecord}
    (same : ∀ record : ToolRecord, (change record).retainedBytes = record.retainedBytes) :
    Accounts (inner.modify toolRef change) := by
  refine accounts.changed change rfl (modify_order change) ?_ ?_
  · intro record found
    rw [modify_total, same]
  · intro absent
    exact modify_total change

theorem Accounts.track (accounts : Accounts inner) (toolRef : ToolRef) (name : List Char) :
    Accounts (inner.track toolRef name) := by
  by_cases present : (inner.get toolRef).isSome = true
  · rw [ToolDataInner.track, dif_pos present]
    exact accounts
  · rw [ToolDataInner.track, dif_neg present]
    refine ⟨?_, ?_, ?_⟩
    · rw [Slots.total_append, accounts.bytes]
      simp
    · refine List.Nodup.append accounts.nodup (List.nodup_singleton toolRef) ?_
      rw [List.disjoint_singleton]
      intro member
      exact present ((accounts.keys toolRef).mp member)
    · intro other
      rw [List.mem_append, List.mem_singleton, accounts.keys other]
      simp only [get, Keyed.find_append, Option.isSome_or]
      by_cases same : other = toolRef
      · simp [same]
      · simp [same, Ne.symm same]

end ToolDataInner

end Accounts

section Evictions

/-- What is freed leaves the retained bytes of the record, and can be freed only once. -/
structure Frees (record evicted : ToolRecord) (freed : Nat) : Prop where
  bytes : evicted.retainedBytes + freed = record.retainedBytes
  held : evicted.held < record.held

namespace ToolRecord

/-- What the change of a record retains. -/
def changeBytes (record : ToolRecord) : Nat :=
  (record.fileChange.map fun change =>
    changeMetadataBytes + byteLen change.path + change.retained).getD 0

/-- What is retained of a record for as long as it is kept. -/
def metadataBytes (record : ToolRecord) : Nat :=
  byteLen record.name + subjectLen record.subject +
    if record.command.isSome then commandMetadataBytes else 0

theorem retained_parts (record : ToolRecord) :
    record.retainedBytes = byteLen record.input.text + byteLen record.result.text +
      record.stdout.retained + record.stderr.retained + record.changeBytes +
      record.metadataBytes := by
  rw [retainedBytes, changeBytes, metadataBytes]
  omega

variable {record : ToolRecord}

theorem evict_input_frees (holds : record.holdsInput = true) :
    Frees record record.evictInput (byteLen record.input.text) where
  bytes := by
    rw [retained_parts record, retained_parts]
    change 0 + byteLen record.result.text + record.stdout.retained + record.stderr.retained +
      record.changeBytes + record.metadataBytes + _ = _
    omega
  held := by
    change 0 + record.holdsResult.toNat + record.holdsChange.toNat +
      (!record.stdout.window.expired).toNat + (!record.stderr.window.expired).toNat < _
    rw [held, holds, Bool.toNat_true]
    omega

theorem evict_result_frees (holds : record.holdsResult = true) :
    Frees record record.evictResult (byteLen record.result.text) where
  bytes := by
    rw [retained_parts record, retained_parts]
    change byteLen record.input.text + 0 + record.stdout.retained + record.stderr.retained +
      record.changeBytes + record.metadataBytes + _ = _
    omega
  held := by
    change record.holdsInput.toNat + 0 + record.holdsChange.toNat +
      (!record.stdout.window.expired).toNat + (!record.stderr.window.expired).toNat < _
    rw [held, holds, Bool.toNat_true]
    omega

theorem evict_change_frees (holds : record.holdsChange = true) :
    Frees record record.evictChange ((record.fileChange.map (·.retained)).getD 0) := by
  cases found : record.fileChange with
  | none =>
    rw [holdsChange, found] at holds
    cases holds
  | some change =>
    have gone : record.evictChange.holdsChange = false := by
      rw [holdsChange, evictChange, found]
      rfl
    have before : record.changeBytes =
        changeMetadataBytes + byteLen change.path + change.retained := by
      rw [changeBytes, found, Option.map_some, Option.getD_some]
    have after : record.evictChange.changeBytes =
        changeMetadataBytes + byteLen change.path + 0 := by
      rw [changeBytes, evictChange, found]
      rfl
    constructor
    · rw [retained_parts record, retained_parts, after, before, Option.map_some, Option.getD_some]
      change byteLen record.input.text + byteLen record.result.text + record.stdout.retained +
        record.stderr.retained + _ + record.metadataBytes + _ = _
      omega
    · change record.holdsInput.toNat + record.holdsResult.toNat +
        record.evictChange.holdsChange.toNat + (!record.stdout.window.expired).toNat +
        (!record.stderr.window.expired).toNat < _
      rw [gone, held, holds, Bool.toNat_true, Bool.toNat_false]
      omega

theorem evict_stdout_frees (present : record.stdout.window.expired = false) :
    Frees record { record with stdout := record.stdout.evict } record.stdout.retained where
  bytes := by
    rw [retained_parts record, retained_parts]
    change byteLen record.input.text + byteLen record.result.text + 0 + record.stderr.retained +
      record.changeBytes + record.metadataBytes + _ = _
    omega
  held := by
    change record.holdsInput.toNat + record.holdsResult.toNat + record.holdsChange.toNat + 0 +
      (!record.stderr.window.expired).toNat < _
    rw [held, present, Bool.not_false, Bool.toNat_true]
    omega

theorem evict_stderr_frees (present : record.stderr.window.expired = false) :
    Frees record { record with stderr := record.stderr.evict } record.stderr.retained where
  bytes := by
    rw [retained_parts record, retained_parts]
    change byteLen record.input.text + byteLen record.result.text + record.stdout.retained + 0 +
      record.changeBytes + record.metadataBytes + _ = _
    omega
  held := by
    change record.holdsInput.toNat + record.holdsResult.toNat + record.holdsChange.toNat +
      (!record.stdout.window.expired).toNat + 0 < _
    rw [held, present, Bool.not_false, Bool.toNat_true]
    omega

theorem evict_stream_frees (holds : record.heldStream.isSome = true) :
    Frees record (ToolDataInner.evictHeldStream record) (ToolDataInner.freedStream record) := by
  obtain ⟨stream, found⟩ := Option.isSome_iff_exists.mp holds
  have held := List.find?_some found
  have listed := List.mem_of_find?_eq_some found
  rw [ToolDataInner.evictHeldStream, ToolDataInner.freedStream, found]
  simp only [List.mem_cons, List.not_mem_nil, or_false] at listed
  rcases listed with rfl | rfl
  · simp only [ToolRecord.stream, Option.any_some, Bool.and_eq_true, Bool.not_eq_true'] at held
    exact evict_stdout_frees held.1
  · simp only [ToolRecord.stream, Option.any_some, Bool.and_eq_true, Bool.not_eq_true'] at held
    exact evict_stderr_frees held.1

end ToolRecord

namespace ToolDataInner

variable {inner next : ToolDataInner ToolRef}

/-- One eviction frees a part of one record. -/
structure Evicts (inner next : ToolDataInner ToolRef) (victim : ToolRef) (record : ToolRecord)
    (evict : ToolRecord → ToolRecord) (freed : Nat) : Prop where
  listed : victim ∈ inner.order
  found : inner.get victim = some record
  frees : Frees record (evict record) freed
  records : next.records = (inner.modify victim evict).records
  order : next.order = inner.order
  totalBytes : next.totalBytes = inner.totalBytes - freed

theorem evict_victim_spec {holds : ToolRecord → Bool} {freed : ToolRecord → Nat}
    {evict : ToolRecord → ToolRecord}
    (frees : ∀ record, holds record = true → Frees record (evict record) (freed record))
    (evicted : inner.evictVictim holds freed evict = some next) :
    ∃ victim record, Evicts inner next victim record evict (freed record) := by
  obtain ⟨victim, sought, rfl⟩ := Option.map_eq_some_iff.mp evicted
  have held := List.find?_some sought
  cases found : inner.get victim with
  | none =>
    rw [found] at held
    cases held
  | some record =>
    rw [found, Option.any_some] at held
    exact ⟨victim, record, List.mem_of_find?_eq_some sought, found, frees record held, rfl,
      modify_order evict, rfl⟩

theorem evict_some_spec (evicted : inner.evictSomeBytes = some next) :
    ∃ victim record evict freed, Evicts inner next victim record evict freed := by
  rw [evictSomeBytes] at evicted
  rcases Option.or_eq_some_iff.mp evicted with input | ⟨-, others⟩
  · obtain ⟨victim, record, evicts⟩ :=
      evict_victim_spec (fun _ => ToolRecord.evict_input_frees) input
    exact ⟨victim, record, _, _, evicts⟩
  · rcases Option.or_eq_some_iff.mp others with result | ⟨-, others⟩
    · obtain ⟨victim, record, evicts⟩ :=
        evict_victim_spec (fun _ => ToolRecord.evict_result_frees) result
      exact ⟨victim, record, _, _, evicts⟩
    · rcases Option.or_eq_some_iff.mp others with change | ⟨-, stream⟩
      · obtain ⟨victim, record, evicts⟩ :=
          evict_victim_spec (fun _ => ToolRecord.evict_change_frees) change
        exact ⟨victim, record, _, _, evicts⟩
      · obtain ⟨victim, record, evicts⟩ :=
          evict_victim_spec (fun _ => ToolRecord.evict_stream_frees) stream
        exact ⟨victim, record, _, _, evicts⟩

theorem Accounts.evicts {victim : ToolRef} {record : ToolRecord} {freed : Nat}
    {evict : ToolRecord → ToolRecord} (accounts : Accounts inner)
    (evicts : Evicts inner next victim record evict freed) : Accounts next := by
  refine accounts.changed evict evicts.records evicts.order ?_ ?_
  · intro other found
    rw [evicts.found] at found
    cases found
    have part := accounts.retained_le evicts.found
    have bytes := evicts.frees.bytes
    rw [evicts.totalBytes]
    omega
  · intro absent
    rw [evicts.found] at absent
    cases absent

theorem Evicts.work {victim : ToolRef} {record : ToolRecord} {freed : Nat}
    {evict : ToolRecord → ToolRecord} (evicts : Evicts inner next victim record evict freed) :
    next.work < inner.work := by
  obtain ⟨others, before, after⟩ := modify_parts evicts.found evict
    (fun entry : ToolRef × ToolRecord => entry.2.held)
  have held := evicts.frees.held
  simp only at before after
  rw [ToolDataInner.work, ToolDataInner.work, evicts.records, evicts.order, before, after]
  omega

end ToolDataInner

end Evictions

section Limits

namespace ToolDataInner

variable {inner next : ToolDataInner ToolRef}

/-- A removed record is one of the order. -/
theorem remove_oldest_spec (removed : inner.removeOldest = some next) :
    ∃ victim ∈ inner.order, next.records = Keyed.erase inner.records victim ∧
      next.order = inner.order.filter (· ≠ victim) ∧
      next.totalBytes = inner.totalBytes - inner.retainedAt victim := by
  obtain ⟨victim, sought, rfl⟩ := Option.map_eq_some_iff.mp removed
  refine ⟨victim, ?_, rfl, rfl, rfl⟩
  rcases Option.or_eq_some_iff.mp sought with finished | ⟨-, first⟩
  · exact List.mem_of_find?_eq_some finished
  · exact List.mem_of_head? first

theorem remove_oldest_none (nothing : inner.removeOldest = none) : inner.order = [] := by
  have none_sought := Option.map_eq_none_iff.mp nothing
  rw [Option.or_eq_none_iff] at none_sought
  exact List.head?_eq_none_iff.mp none_sought.2

theorem Accounts.removed (accounts : Accounts inner) (removed : inner.removeOldest = some next) :
    Accounts next := by
  obtain ⟨victim, listed, records, order, bytes⟩ := remove_oldest_spec removed
  obtain ⟨record, found⟩ := Option.isSome_iff_exists.mp ((accounts.keys victim).mp listed)
  have parts := Keyed.total_erase (fun entry : ToolRef × ToolRecord => entry.2.retainedBytes)
    inner.distinct found
  constructor
  · rw [records, bytes, accounts.bytes, parts, retainedAt, found]
    exact Nat.add_sub_cancel_left _ _
  · rw [order]
    exact accounts.nodup.filter _
  · intro other
    rw [order, List.mem_filter, get, records]
    by_cases same : other = victim
    · subst same
      simp [Keyed.find_erase_self]
    · rw [Keyed.find_erase_other same]
      simpa [same, get] using accounts.keys other

theorem removed_work (removed : inner.removeOldest = some next) : next.work < inner.work := by
  obtain ⟨victim, listed, records, order, -⟩ := remove_oldest_spec removed
  have shorter : (inner.order.filter (· ≠ victim)).length < inner.order.length :=
    List.length_filter_lt_length_iff_exists.mpr ⟨victim, listed, by simp⟩
  have fewer : total (fun entry : ToolRef × ToolRecord => entry.2.held)
      (Keyed.erase inner.records victim) ≤
      total (fun entry : ToolRef × ToolRecord => entry.2.held) inner.records := by
    rw [Keyed.erase, Keyed.total_filter]
    apply Slots.total_le_total
    intro entry
    split
    · exact Nat.le_refl _
    · exact Nat.zero_le _
  rw [work, work, records, order]
  omega

/-- Each turn of the first loop frees something or removes a record. -/
theorem evict_turn_spec (turned : inner.evictTurn = some next) :
    next.work < inner.work ∧ (Accounts inner → Accounts next) := by
  rw [evictTurn] at turned
  split at turned
  · cases turned
  · rcases Option.or_eq_some_iff.mp turned with evicted | ⟨-, removed⟩
    · obtain ⟨victim, record, evict, freed, evicts⟩ := evict_some_spec evicted
      exact ⟨evicts.work, fun accounts => accounts.evicts evicts⟩
    · exact ⟨removed_work removed, fun accounts => accounts.removed removed⟩

theorem remove_turn_spec (turned : inner.removeTurn = some next) :
    next.work < inner.work ∧ next.totalBytes ≤ inner.totalBytes ∧
      (Accounts inner → Accounts next) := by
  rw [removeTurn] at turned
  split at turned
  · cases turned
  · obtain ⟨victim, -, -, -, bytes⟩ := remove_oldest_spec turned
    refine ⟨removed_work turned, ?_, fun accounts => accounts.removed turned⟩
    rw [bytes]
    exact Nat.sub_le _ _

/-- A loop whose turns use up work ends, and keeps what each turn keeps. -/
theorem loop_ends {turn : ToolDataInner ToolRef → Option (ToolDataInner ToolRef)}
    (Holds : ToolDataInner ToolRef → Prop)
    (less : ∀ inner next, turn inner = some next → next.work < inner.work)
    (kept : ∀ inner next, turn inner = some next → Holds inner → Holds next)
    {fuel : Nat} (enough : inner.work ≤ fuel) :
    ∃ last, loop turn fuel inner = some last ∧ turn last = none ∧ last.work ≤ inner.work ∧
      (Holds inner → Holds last) := by
  induction fuel generalizing inner with
  | zero =>
    cases turned : turn inner with
    | none => exact ⟨inner, by simp [loop, turned], turned, Nat.le_refl _, id⟩
    | some next =>
      have fewer := less inner next turned
      omega
  | succ fuel inductionHypothesis =>
    cases turned : turn inner with
    | none => exact ⟨inner, by simp [loop, turned], turned, Nat.le_refl _, id⟩
    | some next =>
      have fewer := less inner next turned
      have remaining : next.work ≤ fuel := by omega
      obtain ⟨last, ended, stopped, smaller, holds⟩ := inductionHypothesis remaining
      refine ⟨last, ?_, stopped, by omega, fun held => holds (kept inner next turned held)⟩
      rw [loop, turned]
      exact ended

/-- The order lists the keys of the records. -/
theorem Accounts.perm (accounts : Accounts inner) :
    inner.order.Perm (inner.records.map Prod.fst) := by
  refine (List.perm_ext_iff_of_nodup accounts.nodup inner.distinct).mpr ?_
  intro toolRef
  rw [accounts.keys, get, ← Option.ne_none_iff_isSome, ne_eq, Keyed.find_none_iff]
  constructor
  · intro present
    by_contra absent
    exact present fun entry member same => absent (same ▸ List.mem_map_of_mem member)
  · intro member absent
    obtain ⟨entry, listed, same⟩ := List.mem_map.mp member
    exact absent entry listed same

theorem Accounts.length (accounts : Accounts inner) :
    inner.order.length = inner.records.length := by
  rw [accounts.perm.length_eq, List.length_map]

/-- What is within both limits of a session. -/
def Bounded (inner : ToolDataInner ToolRef) : Prop :=
  inner.totalBytes ≤ maxToolTotalBytes ∧ inner.records.length ≤ maxToolRecords

/-- `enforce_limits` ends for every state, and what accounts for its records is within the
limits then. -/
theorem enforce_ends (inner : ToolDataInner ToolRef) {fuel : Nat} (enough : inner.work ≤ fuel) :
    ∃ last, inner.enforceWithin fuel = some last ∧
      (Accounts inner → Accounts last ∧ Bounded last) := by
  obtain ⟨evicted, ended, stopped, smaller, kept⟩ := loop_ends Accounts
    (fun _ _ turned => (evict_turn_spec turned).1) (fun _ _ turned => (evict_turn_spec turned).2)
    enough
  obtain ⟨last, removed, done, -, keptLast⟩ := loop_ends
    (fun later => Accounts later ∧ later.totalBytes ≤ evicted.totalBytes)
    (fun _ _ turned => (remove_turn_spec turned).1)
    (fun before later turned held => ⟨(remove_turn_spec turned).2.2 held.1,
      Nat.le_trans (remove_turn_spec turned).2.1 held.2⟩)
    (Nat.le_trans smaller enough)
  refine ⟨last, ?_, ?_⟩
  · rw [enforceWithin, ended]
    exact removed
  · intro accounts
    have evictedAccounts := kept accounts
    obtain ⟨lastAccounts, fewer⟩ := keptLast ⟨evictedAccounts, Nat.le_refl _⟩
    -- Where nothing is left to remove, there are no records.
    have empty {later : ToolDataInner ToolRef} (held : Accounts later)
        (nothing : later.removeOldest = none) : later.records = [] ∧ later.totalBytes = 0 := by
      have none_listed := remove_oldest_none nothing
      have counted := held.length
      rw [none_listed, List.length_nil] at counted
      have none_left := List.length_eq_zero_iff.mp counted.symm
      refine ⟨none_left, ?_⟩
      rw [held.bytes, none_left, Slots.total_nil]
    refine ⟨lastAccounts, ?_, ?_⟩
    · refine Nat.le_trans fewer ?_
      rw [evictTurn] at stopped
      split at stopped
      · assumption
      · have nothing := (Option.or_eq_none_iff.mp stopped).2
        rw [(empty evictedAccounts nothing).2]
        exact Nat.zero_le _
    · rw [removeTurn] at done
      split at done
      · assumption
      · rw [(empty lastAccounts done).1]
        exact Nat.zero_le _

theorem enforce_limits_eq (inner : ToolDataInner ToolRef) :
    inner.enforceWithin inner.work = some inner.enforceLimits := by
  obtain ⟨last, ended, -⟩ := enforce_ends inner (Nat.le_refl _)
  rw [enforceLimits, ended, Option.getD_some]

theorem Accounts.enforced (accounts : Accounts inner) :
    Accounts inner.enforceLimits ∧ Bounded inner.enforceLimits := by
  obtain ⟨last, ended, kept⟩ := enforce_ends inner (Nat.le_refl _)
  rw [enforce_limits_eq] at ended
  cases ended
  exact kept accounts

end ToolDataInner

end Limits

section Calls

namespace ToolRecord

variable (record : ToolRecord)

theorem await_retained : record.markAwaitingPolicy.retainedBytes = record.retainedBytes := by
  rw [markAwaitingPolicy]
  split
  · rfl
  · rfl

theorem cancel_retained : record.markCancelling.retainedBytes = record.retainedBytes := by
  rw [markCancelling]
  split
  · rfl
  · rfl

/-- A change of a window that leaves its buffer alone. -/
theorem stream_retained {change : RingWindow → RingWindow}
    (same : ∀ ring, (change ring).retained = ring.retained) (stream : ToolDataStream) :
    (record.withStream stream change).retainedBytes = record.retainedBytes := by
  rw [retained_parts record, retained_parts]
  cases stream with
  | input => rfl
  | output => rfl
  | stdout =>
    change byteLen record.input.text + byteLen record.result.text +
      (change record.stdout).retained + record.stderr.retained + record.changeBytes +
      record.metadataBytes = _
    rw [same]
  | stderr =>
    change byteLen record.input.text + byteLen record.result.text + record.stdout.retained +
      (change record.stderr).retained + record.changeBytes + record.metadataBytes = _
    rw [same]

end ToolRecord

namespace ToolDataInner

variable {inner : ToolDataInner ToolRef}

/-- What holds of the records of a session after every operation. -/
structure Kept (inner : ToolDataInner ToolRef) : Prop where
  accounts : Accounts inner
  bounded : Bounded inner

theorem Kept.modify (kept : Kept inner) (toolRef : ToolRef) {change : ToolRecord → ToolRecord}
    (same : ∀ record : ToolRecord, (change record).retainedBytes = record.retainedBytes) :
    Kept (inner.modify toolRef change) where
  accounts := kept.accounts.modify toolRef same
  bounded := by
    rw [Bounded, modify_total, modify_length]
    exact kept.bounded

theorem Kept.resize (kept : Kept inner) (toolRef : ToolRef) {change : ToolRecord → ToolRecord}
    (same : ∀ record : ToolRecord, (change record).retainedBytes = record.retainedBytes) :
    Kept (inner.resize toolRef change) where
  accounts := kept.accounts.resize toolRef change
  bounded := by
    refine ⟨?_, ?_⟩
    · have bytes := (kept.accounts.resize toolRef change).bytes
      have before := (kept.accounts.modify toolRef same).bytes
      rw [modify_total] at before
      rw [bytes]
      exact before ▸ kept.bounded.1
    · have length : (inner.resize toolRef change).records.length = inner.records.length :=
        modify_length change
      rw [length]
      exact kept.bounded.2

theorem Accounts.kept (accounts : Accounts inner) : Kept inner.enforceLimits :=
  ⟨accounts.enforced.1, accounts.enforced.2⟩

theorem Accounts.reconciled (accounts : Accounts inner) (now : Option (List Char))
    (result : ReportedResult ToolRef) : Accounts (inner.reconcileResult now result) := by
  have same (record : ToolRecord) :
      (record.finish result.outcome now).retainedBytes = record.retainedBytes := rfl
  have finished := (accounts.track result.toolRef result.toolName).modify result.toolRef same
  rw [reconcileResult]
  split
  · exact finished.resize _ _
  · exact finished

theorem Kept.call (kept : Kept inner) (operation : ToolDataCall ToolRef) :
    Kept (inner.call operation) := by
  have accounts := kept.accounts
  cases operation with
  | noteRequested toolRef name => exact (accounts.track toolRef name).kept
  | noteInvocation toolRef invocation =>
    exact ((accounts.track toolRef invocation.toolName).resize toolRef _).kept
  | markAwaitingPolicy toolRef => exact kept.modify toolRef ToolRecord.await_retained
  | markRunning toolRef now => exact kept.modify toolRef fun _ => rfl
  | notePhase toolRef phase =>
    rw [ToolDataInner.call]
    split
    · exact kept
    · exact kept.modify toolRef fun _ => rfl
  | noteResult toolRef content => exact (accounts.resize toolRef _).kept
  | markCancelling toolRef => exact kept.modify toolRef ToolRecord.cancel_retained
  | noteStreamChunk toolRef stream chunk granted =>
    rw [ToolDataInner.call]
    split
    · cases stream with
      | input => exact kept.resize toolRef fun _ => rfl
      | output => exact kept.resize toolRef fun _ => rfl
      | stdout => exact (accounts.resize toolRef _).kept
      | stderr => exact (accounts.resize toolRef _).kept
    · exact kept
  | noteStreamEnd toolRef stream =>
    have same (ring : RingWindow) : (ToolRecord.endStream ring).retained = ring.retained := rfl
    exact kept.resize toolRef fun record => record.stream_retained same stream
  | noteStreamCut toolRef stream =>
    have same (ring : RingWindow) : (ToolRecord.cutStream ring).retained = ring.retained := rfl
    exact kept.resize toolRef fun record => record.stream_retained same stream
  | noteCommand toolRef command =>
    rw [ToolDataInner.call]
    split
    · exact (accounts.resize toolRef _).kept
    · exact kept
  | noteRecording toolRef recording => exact kept.modify toolRef fun _ => rfl
  | noteFileChange toolRef change => exact (accounts.resize toolRef _).kept
  | finish toolRef outcome now => exact kept.modify toolRef fun _ => rfl
  | reconcile results now =>
    have reconciled : Accounts
        (results.foldl (fun inner result => inner.reconcileResult now result) inner) := by
      clear kept
      induction results generalizing inner with
      | nil => exact accounts
      | cons result rest inductionHypothesis =>
        exact inductionHypothesis (accounts.reconciled now result)
    exact reconciled.kept

theorem Kept.run (kept : Kept inner) (operations : List (ToolDataCall ToolRef)) :
    Kept (operations.foldl ToolDataInner.call inner) := by
  induction operations generalizing inner with
  | nil => exact kept
  | cons operation rest inductionHypothesis => exact inductionHypothesis (kept.call operation)

theorem Kept.new : Kept (ToolDataInner.new : ToolDataInner ToolRef) where
  accounts := ⟨rfl, List.nodup_nil, fun _ => by simp [ToolDataInner.new, get, Keyed.find]⟩
  bounded := ⟨Nat.zero_le _, Nat.zero_le _⟩

end ToolDataInner

/-- After every sequence of operations the total is the sum of what the records retain, at
most eight mebibytes, there are at most 1024 records, and the order lists exactly their
references, each once. For every state whatever, `enforce_limits` ends. -/
theorem tool_data_accounts (operations : List (ToolDataCall ToolRef)) :
    let inner := operations.foldl ToolDataInner.call .new
    inner.totalBytes = (inner.records.map fun entry => entry.2.retainedBytes).sum ∧
      inner.totalBytes ≤ 8 * 1024 * 1024 ∧
      inner.records.length ≤ 1024 ∧
      inner.order.Nodup ∧ inner.order.Perm (inner.records.map Prod.fst) ∧
      ∀ state : ToolDataInner ToolRef, ∃ enough, ∀ fuel, enough ≤ fuel →
        ∃ last, state.enforceWithin fuel = some last := by
  intro inner
  have kept : ToolDataInner.Kept inner := ToolDataInner.Kept.new.run operations
  refine ⟨kept.accounts.bytes, kept.bounded.1, kept.bounded.2, kept.accounts.nodup,
    kept.accounts.perm, ?_⟩
  intro state
  refine ⟨state.work, ?_⟩
  intro fuel enough
  obtain ⟨last, ended, -⟩ := ToolDataInner.enforce_ends state enough
  exact ⟨last, ended⟩

end Calls

end MinicoreAgent.ToolData

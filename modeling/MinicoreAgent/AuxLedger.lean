import MinicoreAgent.Lib.KeyedTotals
import MinicoreAgent.Lib.Runs
import Mathlib.Data.Prod.Lex
import Mathlib.Data.UInt
import Mathlib.Data.Nat.Basic

/-!
# The ledger of auxiliary records

The store counts the records it keeps for each session and over all sessions, and
evicts old ones before it writes a new one. Totals are machine words, so a sum
that leaves their range comes back modulo its size; the accounts are stated in
the group of these words and hold there without bounds.

Entries are not all that is counted. Bytes that belong to no valid record are
noted for a session or for none, and an insertion under a key that is taken
replaces the entry but not its counts. An audit beside the ledger lists exactly
what is counted without an entry.
-/
namespace MinicoreAgent.AuxLedgers

open Slots

structure AuxDirectoryEntry (Session Time Path : Type) where
  sessionId : Session
  path : Path
  mtime : Time
  bytes : UInt64
  deriving DecidableEq

/-- The keys of the entries: older records first, then by path. -/
abbrev AuxKey (Time Path : Type) := Time ×ₗ Path

structure AuxLedger (Session Time Path : Type) where
  entries : List (AuxKey Time Path × AuxDirectoryEntry Session Time Path) := []
  sessions : List (Session × UInt64 × UInt64) := []
  globalBytes : UInt64 := 0
  deriving DecidableEq

structure AuxLimits where
  sessionBytes : UInt64
  sessionRecords : UInt64
  globalBytes : UInt64
  globalRecords : UInt64
  deriving DecidableEq

section Operations

variable {Session Time Path : Type} [DecidableEq Session] [LinearOrder Time] [LinearOrder Path]

def AuxDirectoryEntry.key (entry : AuxDirectoryEntry Session Time Path) : AuxKey Time Path :=
  toLex (entry.mtime, entry.path)

/-- The bytes and records counted for a session; none are zero. -/
def AuxLedger.totals (ledger : AuxLedger Session Time Path) (session : Session) :
    UInt64 × UInt64 :=
  (Keyed.find ledger.sessions session).getD (0, 0)

def AuxLedger.insert (ledger : AuxLedger Session Time Path)
    (entry : AuxDirectoryEntry Session Time Path) : AuxLedger Session Time Path :=
  let totals := ledger.totals entry.sessionId
  { sessions := Keyed.upsert ledger.sessions entry.sessionId
      (totals.1 + entry.bytes, totals.2 + 1)
    globalBytes := ledger.globalBytes + entry.bytes
    entries := Keyed.insert entry.key entry ledger.entries }

def AuxLedger.noteForeign (ledger : AuxLedger Session Time Path) (session : Option Session)
    (bytes : UInt64) : AuxLedger Session Time Path :=
  let noted := { ledger with globalBytes := ledger.globalBytes + bytes }
  match session with
  | none => noted
  | some session =>
    let totals := ledger.totals session
    { noted with sessions := Keyed.upsert ledger.sessions session (totals.1 + bytes, totals.2) }

/-- `remove`, which has no result where the source would panic. -/
def AuxLedger.remove (ledger : AuxLedger Session Time Path) (key : AuxKey Time Path) :
    Option (AuxLedger Session Time Path) := do
  let entry ← Keyed.find ledger.entries key
  let totals ← Keyed.find ledger.sessions entry.sessionId
  some {
    entries := Keyed.erase ledger.entries key
    globalBytes := ledger.globalBytes - entry.bytes
    sessions := Keyed.put ledger.sessions entry.sessionId
      (totals.1 - entry.bytes, totals.2 - 1) }

def AuxLedger.removeSession (ledger : AuxLedger Session Time Path) (session : Session) :
    AuxLedger Session Time Path :=
  { sessions := Keyed.erase ledger.sessions session
    globalBytes :=
      match Keyed.find ledger.sessions session with
      | some totals => ledger.globalBytes - totals.1
      | none => ledger.globalBytes
    entries := ledger.entries.filter (fun entry => decide (entry.2.sessionId ≠ session)) }

/-- `u64::saturating_add`. -/
def saturatingAdd (left right : UInt64) : Nat := min (left.toNat + right.toNat) (2 ^ 64 - 1)

/-- Whether a limit of the session leaves no room for one more record. -/
def AuxLedger.sessionFull (ledger : AuxLedger Session Time Path) (target : Session)
    (reserve : UInt64) (limits : AuxLimits) : Bool :=
  decide (saturatingAdd (ledger.totals target).1 reserve > limits.sessionBytes.toNat) ||
    decide ((ledger.totals target).2 + 1 > limits.sessionRecords)

/-- Whether a limit over all sessions leaves no room. -/
def AuxLedger.globalFull (ledger : AuxLedger Session Time Path) (reserve : UInt64)
    (limits : AuxLimits) : Bool :=
  decide (saturatingAdd ledger.globalBytes reserve > limits.globalBytes.toNat) ||
    decide (ledger.entries.length + 1 > limits.globalRecords.toNat)

/-- The first entry in the order of keys, among those of the session if only they
may go. -/
def AuxLedger.victim (ledger : AuxLedger Session Time Path) (target : Session) (only : Bool) :
    Option (AuxKey Time Path) :=
  (ledger.entries.find? (fun entry => !only || decide (entry.2.sessionId = target))).map (·.1)

/-- What enforcing the budget leaves: the ledger, if a removal did not fail, whether
the reservation was granted, and each eviction with the ledger before it. -/
structure Enforced (Session Time Path : Type) where
  ledger : Option (AuxLedger Session Time Path)
  granted : Bool
  evicted : List (AuxLedger Session Time Path × AuxKey Time Path)
  deriving DecidableEq

/-- The loop of `enforce_aux_budget_locked`, for at most so many rounds. In each
round the deadline may have passed, and the removal of the directory may fail. -/
def enforceRounds (target : Session) (reserve : UInt64) (limits : AuxLimits)
    (expired removed : Nat → Bool) :
    Nat → Nat → AuxLedger Session Time Path → Option (Enforced Session Time Path)
  | 0, _, _ => none
  | rounds + 1, round, ledger =>
    let only := ledger.sessionFull target reserve limits
    if !only && !ledger.globalFull reserve limits then some ⟨some ledger, true, []⟩
    else if expired round then some ⟨some ledger, false, []⟩
    else
      match ledger.victim target only with
      | none => some ⟨some ledger, false, []⟩
      | some key =>
        if removed round then
          match ledger.remove key with
          | none => none
          | some next =>
            (enforceRounds target reserve limits expired removed rounds (round + 1) next).map
              (fun enforced => { enforced with evicted := (ledger, key) :: enforced.evicted })
        else some ⟨none, false, []⟩

/-- `enforce_aux_budget_locked` on a ledger that was scanned. -/
def AuxLedger.enforce (ledger : AuxLedger Session Time Path) (target : Session)
    (reserve : UInt64) (limits : AuxLimits) (expired removed : Nat → Bool) :
    Option (Enforced Session Time Path) :=
  enforceRounds target reserve limits expired removed (ledger.entries.length + 1) 0 ledger

/-- What is counted without an entry: foreign bytes, of a session or of none, and the
counts of a replaced entry. -/
structure Extra (Session : Type) where
  session : Option Session
  bytes : UInt64
  record : Bool
  deriving DecidableEq

/-- A ledger and its audit. -/
structure Audited (Session Time Path : Type) where
  ledger : AuxLedger Session Time Path := {}
  extra : List (Extra Session) := []
  deriving DecidableEq

inductive Operation (Session Time Path : Type)
  | insert (entry : AuxDirectoryEntry Session Time Path)
  | noteForeign (session : Option Session) (bytes : UInt64)
  | remove (key : AuxKey Time Path)
  | removeSession (session : Session)
  | enforce (target : Session) (reserve : UInt64) (limits : AuxLimits) (expired removed : Nat → Bool)

/-- One operation on the ledger, and what the audit notes of it. A ledger that is
lost in a failed removal is gone; the next one is scanned from the start. -/
def step (state : Audited Session Time Path) :
    Operation Session Time Path → Option (Audited Session Time Path)
  | .insert entry =>
    some {
      ledger := state.ledger.insert entry
      extra := state.extra ++ (Keyed.find state.ledger.entries entry.key).toList.map
        (fun old => ⟨some old.sessionId, old.bytes, true⟩) }
  | .noteForeign session bytes =>
    some { ledger := state.ledger.noteForeign session bytes
           extra := state.extra ++ [⟨session, bytes, false⟩] }
  | .remove key => (state.ledger.remove key).map (fun ledger => { state with ledger })
  | .removeSession session =>
    some { ledger := state.ledger.removeSession session
           extra := state.extra.filter (fun item => decide (item.session ≠ some session)) }
  | .enforce target reserve limits expired removed =>
    (state.ledger.enforce target reserve limits expired removed).bind fun enforced =>
      enforced.ledger.map (fun ledger => { state with ledger })

end Operations

section Accounts

variable {Session Time Path : Type} [DecidableEq Session] [LinearOrder Time] [LinearOrder Path]

/-- The bytes of an entry if it is of the session. -/
def entryBytes (session : Session)
    (entry : AuxKey Time Path × AuxDirectoryEntry Session Time Path) : UInt64 :=
  if entry.2.sessionId = session then entry.2.bytes else 0

/-- One for an entry of the session. -/
def entryRecord (session : Session)
    (entry : AuxKey Time Path × AuxDirectoryEntry Session Time Path) : UInt64 :=
  if entry.2.sessionId = session then 1 else 0

/-- The bytes of an extra item if it is noted for the session, or for none. -/
def extraBytes (session : Option Session) (item : Extra Session) : UInt64 :=
  if item.session = session then item.bytes else 0

/-- One for a replaced entry of the session. -/
def extraRecord (session : Session) (item : Extra Session) : UInt64 :=
  if item.session = some session ∧ item.record = true then 1 else 0

/-- The totals of the ledger are those of its entries and of the audit. -/
structure Accounts (ledger : AuxLedger Session Time Path) (extra : List (Extra Session)) : Prop where
  sorted : Keyed.Sorted ledger.entries
  keyed : ∀ entry ∈ ledger.entries, entry.1 = entry.2.key
  distinct : Keyed.Distinct ledger.sessions
  tracked : ∀ entry ∈ ledger.entries, (Keyed.find ledger.sessions entry.2.sessionId).isSome = true
  bytes : ∀ session, (ledger.totals session).1 =
    total (entryBytes session) ledger.entries + total (extraBytes (some session)) extra
  records : ∀ session, (ledger.totals session).2 =
    total (entryRecord session) ledger.entries + total (extraRecord session) extra
  global : ledger.globalBytes =
    total (fun totals => totals.2.1) ledger.sessions + total (extraBytes none) extra
  whole : ledger.globalBytes =
    total (fun entry => entry.2.bytes) ledger.entries + total (fun item => item.bytes) extra

variable {ledger next : AuxLedger Session Time Path} {extra : List (Extra Session)}

theorem accounts_empty : Accounts ({} : AuxLedger Session Time Path) [] where
  sorted := List.Pairwise.nil
  keyed := by simp
  distinct := List.nodup_nil
  tracked := by simp
  bytes := fun _ => rfl
  records := fun _ => rfl
  global := rfl
  whole := rfl

omit [LinearOrder Time] [LinearOrder Path] in
/-- The totals of a session after they were set. -/
theorem totals_upsert (session other : Session) (value : UInt64 × UInt64) :
    (Keyed.find (Keyed.upsert ledger.sessions session value) other).getD (0, 0) =
      if other = session then value else ledger.totals other := by
  by_cases same : other = session
  · subst same
    rw [Keyed.find_upsert_self, if_pos rfl, Option.getD_some]
  · rw [Keyed.find_upsert_other same, if_neg same, AuxLedger.totals]

omit [LinearOrder Time] [LinearOrder Path] in
/-- Setting the bytes of a session moves the sum over the sessions by as much. -/
theorem total_sessions_upsert (distinct : Keyed.Distinct ledger.sessions) (session : Session)
    (bytes records : UInt64) :
    total (fun totals => totals.2.1) (Keyed.upsert ledger.sessions session
        ((ledger.totals session).1 + bytes, records)) =
      total (fun totals => totals.2.1) ledger.sessions + bytes := by
  have sum := Keyed.total_upsert (fun totals => totals.2.1) distinct session
    ((ledger.totals session).1 + bytes, records)
  have old : ((Keyed.find ledger.sessions session).map (fun value => value.1)).getD 0 =
      (ledger.totals session).1 := by
    rw [AuxLedger.totals]
    cases Keyed.find ledger.sessions session with
    | none => rfl
    | some value => rfl
  simp only [old] at sum
  rw [← add_assoc, add_right_comm] at sum
  exact add_right_cancel sum

theorem Accounts.note_foreign (accounts : Accounts ledger extra) (session : Option Session)
    (bytes : UInt64) :
    Accounts (ledger.noteForeign session bytes) (extra ++ [⟨session, bytes, false⟩]) := by
  cases session with
  | none =>
    refine ⟨accounts.sorted, accounts.keyed, accounts.distinct, accounts.tracked, ?_, ?_, ?_, ?_⟩
    · intro session
      have same := accounts.bytes session
      simpa [AuxLedger.noteForeign, AuxLedger.totals, extraBytes] using same
    · intro session
      have same := accounts.records session
      simpa [AuxLedger.noteForeign, AuxLedger.totals, extraRecord] using same
    · simp only [AuxLedger.noteForeign, total_append, total_cons, total_nil, accounts.global,
        extraBytes, if_true]
      abel
    · simp only [AuxLedger.noteForeign, total_append, total_cons, total_nil, accounts.whole]
      abel
  | some session =>
    refine ⟨accounts.sorted, accounts.keyed, accounts.distinct.upsert _ _, ?_, ?_, ?_, ?_, ?_⟩
    · intro entry member
      have known := accounts.tracked entry member
      by_cases same : entry.2.sessionId = session
      · simp [AuxLedger.noteForeign, same, Keyed.find_upsert_self]
      · simpa [AuxLedger.noteForeign, Keyed.find_upsert_other same] using known
    · intro other
      rw [AuxLedger.totals, AuxLedger.noteForeign, totals_upsert]
      by_cases same : other = session
      · subst same
        simp only [if_true, accounts.bytes, total_append, total_cons, total_nil, extraBytes]
        abel
      · simp [same, accounts.bytes, extraBytes, Ne.symm same]
    · intro other
      rw [AuxLedger.totals, AuxLedger.noteForeign, totals_upsert]
      by_cases same : other = session
      · subst same
        simp [accounts.records, extraRecord]
      · simp [same, accounts.records, extraRecord]
    · simp only [AuxLedger.noteForeign, total_append, total_cons, total_nil]
      rw [total_sessions_upsert accounts.distinct, accounts.global]
      simp only [extraBytes, reduceCtorEq, if_false]
      abel
    · simp only [AuxLedger.noteForeign, total_append, total_cons, total_nil, accounts.whole]
      abel

omit [LinearOrder Time] [LinearOrder Path] in
/-- What the audit notes of a replaced entry is what the entries lose with it. -/
theorem total_replaced (old : Option (AuxDirectoryEntry Session Time Path))
    (key : AuxKey Time Path) (session : Session) :
    total (extraBytes (some session))
        (old.toList.map (fun old => ⟨some old.sessionId, old.bytes, true⟩)) =
      (old.map (fun value => entryBytes session (key, value))).getD 0 ∧
    total (extraRecord session)
        (old.toList.map (fun old => ⟨some old.sessionId, old.bytes, true⟩)) =
      (old.map (fun value => entryRecord session (key, value))).getD 0 ∧
    total (extraBytes none)
        (old.toList.map (fun old => ⟨some old.sessionId, old.bytes, true⟩)) = 0 ∧
    total (fun item : Extra Session => item.bytes)
        (old.toList.map (fun old => ⟨some old.sessionId, old.bytes, true⟩)) =
      (old.map (fun value => value.bytes)).getD 0 := by
  cases old with
  | none => simp
  | some entry => simp [extraBytes, extraRecord, entryBytes, entryRecord]

theorem Accounts.insert (accounts : Accounts ledger extra)
    (entry : AuxDirectoryEntry Session Time Path) :
    Accounts (ledger.insert entry) (extra ++ (Keyed.find ledger.entries entry.key).toList.map
      (fun old => ⟨some old.sessionId, old.bytes, true⟩)) := by
  refine ⟨accounts.sorted.insert _ _, ?_, accounts.distinct.upsert _ _, ?_, ?_, ?_, ?_, ?_⟩
  · intro inspected member
    rcases Keyed.mem_insert member with rfl | old
    · rfl
    · exact accounts.keyed inspected old
  · intro inspected member
    rcases Keyed.mem_insert member with rfl | old
    · simp [AuxLedger.insert, Keyed.find_upsert_self]
    · by_cases same : inspected.2.sessionId = entry.sessionId
      · simp [AuxLedger.insert, same, Keyed.find_upsert_self]
      · simpa [AuxLedger.insert, Keyed.find_upsert_other same] using accounts.tracked inspected old
  · intro session
    have added := Keyed.total_insert (entryBytes session) accounts.sorted entry.key entry
    have noted := (total_replaced (Keyed.find ledger.entries entry.key) entry.key session).1
    rw [AuxLedger.totals, AuxLedger.insert, totals_upsert, total_append, noted]
    calc
      _ = total (entryBytes session) ledger.entries + entryBytes session (entry.key, entry) +
          total (extraBytes (some session)) extra := by
        by_cases same : session = entry.sessionId
        · subst same
          simp only [if_true, accounts.bytes, entryBytes]
          abel
        · simp [same, accounts.bytes, entryBytes, Ne.symm same]
      _ = _ := by
        rw [← added]
        abel
  · intro session
    have added := Keyed.total_insert (entryRecord session) accounts.sorted entry.key entry
    have noted := (total_replaced (Keyed.find ledger.entries entry.key) entry.key session).2.1
    rw [AuxLedger.totals, AuxLedger.insert, totals_upsert, total_append, noted]
    calc
      _ = total (entryRecord session) ledger.entries + entryRecord session (entry.key, entry) +
          total (extraRecord session) extra := by
        by_cases same : session = entry.sessionId
        · subst same
          simp only [if_true, accounts.records, entryRecord]
          abel
        · simp [same, accounts.records, entryRecord, Ne.symm same]
      _ = _ := by
        rw [← added]
        abel
  · have noted :=
      (total_replaced (Keyed.find ledger.entries entry.key) entry.key entry.sessionId).2.2.1
    simp only [AuxLedger.insert, total_append, noted]
    rw [total_sessions_upsert accounts.distinct, accounts.global]
    abel
  · have added := Keyed.total_insert (fun pair => pair.2.bytes) accounts.sorted entry.key entry
    have noted :=
      (total_replaced (Keyed.find ledger.entries entry.key) entry.key entry.sessionId).2.2.2
    simp only [AuxLedger.insert, total_append, noted]
    calc
      _ = total (fun pair => pair.2.bytes) ledger.entries + entry.bytes +
          total (fun item => item.bytes) extra := by
        rw [accounts.whole]
        abel
      _ = _ := by
        rw [← added]
        abel

/-- A key that is present can be removed. -/
theorem Accounts.remove_some (accounts : Accounts ledger extra) {key : AuxKey Time Path}
    {entry : AuxDirectoryEntry Session Time Path}
    (found : Keyed.find ledger.entries key = some entry) :
    ledger.remove key = some {
      entries := Keyed.erase ledger.entries key
      globalBytes := ledger.globalBytes - entry.bytes
      sessions := Keyed.upsert ledger.sessions entry.sessionId
        ((ledger.totals entry.sessionId).1 + -entry.bytes,
          (ledger.totals entry.sessionId).2 + -1) } := by
  obtain ⟨totals, present⟩ := Option.isSome_iff_exists.mp
    (accounts.tracked (key, entry) (Keyed.find_mem found))
  simp only at present
  simp [AuxLedger.remove, AuxLedger.totals, Keyed.upsert, found, present, sub_eq_add_neg]

theorem Accounts.remove (accounts : Accounts ledger extra) {key : AuxKey Time Path}
    (removed : ledger.remove key = some next) : Accounts next extra := by
  cases found : Keyed.find ledger.entries key with
  | none =>
    rw [AuxLedger.remove, found] at removed
    cases removed
  | some entry =>
    rw [accounts.remove_some found] at removed
    obtain rfl := Option.some.inj removed
    refine ⟨accounts.sorted.filter _, ?_, accounts.distinct.upsert _ _, ?_, ?_, ?_, ?_, ?_⟩
    · intro inspected member
      exact accounts.keyed inspected (List.mem_filter.mp member).1
    · intro inspected member
      have known := accounts.tracked inspected (List.mem_filter.mp member).1
      by_cases same : inspected.2.sessionId = entry.sessionId
      · simp [same, Keyed.find_upsert_self]
      · simpa [Keyed.find_upsert_other same] using known
    · intro session
      have taken := Keyed.total_erase (entryBytes session) accounts.sorted.distinct found
      rw [AuxLedger.totals, totals_upsert]
      by_cases same : session = entry.sessionId
      · subst same
        simp only [if_true, accounts.bytes, taken, entryBytes]
        abel
      · simp [same, accounts.bytes, taken, entryBytes, Ne.symm same]
    · intro session
      have taken := Keyed.total_erase (entryRecord session) accounts.sorted.distinct found
      rw [AuxLedger.totals, totals_upsert]
      by_cases same : session = entry.sessionId
      · subst same
        simp only [if_true, accounts.records, taken, entryRecord]
        abel
      · simp [same, accounts.records, taken, entryRecord, Ne.symm same]
    · rw [total_sessions_upsert accounts.distinct]
      simp only [accounts.global]
      abel
    · have taken := Keyed.total_erase (fun pair => pair.2.bytes) accounts.sorted.distinct found
      simp only [accounts.whole, taken]
      abel

/-- A total over what is left of the others is as it was. -/
theorem total_filter_apart {α : Type} {measure : α → UInt64} {test : α → Bool} (items : List α)
    (zero : ∀ item, test item = false → measure item = 0) :
    total measure (items.filter test) = total measure items := by
  rw [Keyed.total_filter]
  unfold total
  congr 1
  refine List.map_congr_left ?_
  intro item _
  by_cases passed : test item = true
  · simp [passed]
  · simp [zero item (by simpa using passed)]

/-- A total of what was filtered away is zero. -/
theorem total_filter_gone {α : Type} {measure : α → UInt64} {test : α → Bool} (items : List α)
    (zero : ∀ item, test item = true → measure item = 0) :
    total measure (items.filter test) = 0 := by
  unfold total
  refine List.sum_eq_zero ?_
  intro value member
  obtain ⟨item, kept, rfl⟩ := List.mem_map.mp member
  exact zero item (List.mem_filter.mp kept).2

theorem Accounts.remove_session (accounts : Accounts ledger extra) (session : Session) :
    Accounts (ledger.removeSession session)
      (extra.filter (fun item => decide (item.session ≠ some session))) := by
  have left : ∀ other, (ledger.removeSession session).totals other =
      if other = session then (0, 0) else ledger.totals other := by
    intro other
    by_cases same : other = session
    · simp [AuxLedger.totals, AuxLedger.removeSession, same, Keyed.find_erase_self]
    · simp [AuxLedger.totals, AuxLedger.removeSession, same, Keyed.find_erase_other same]
  refine ⟨accounts.sorted.filter _, ?_, accounts.distinct.erase _, ?_, ?_, ?_, ?_, ?_⟩
  · intro inspected member
    exact accounts.keyed inspected (List.mem_filter.mp member).1
  · intro inspected member
    obtain ⟨kept, apart⟩ := List.mem_filter.mp member
    have known := accounts.tracked inspected kept
    simpa [AuxLedger.removeSession, Keyed.find_erase_other (of_decide_eq_true apart)] using known
  · intro other
    rw [left, AuxLedger.removeSession]
    by_cases same : other = session
    · subst same
      rw [total_filter_gone ledger.entries, total_filter_gone extra]
      · simp
      · intro item apart
        simp [extraBytes, of_decide_eq_true apart]
      · intro entry apart
        simp [entryBytes, of_decide_eq_true apart]
    · rw [if_neg same, total_filter_apart ledger.entries, total_filter_apart extra]
      · exact accounts.bytes other
      · intro item gone
        have noted : item.session = some session := by simpa using gone
        simp [extraBytes, noted, Ne.symm same]
      · intro entry gone
        have owned : entry.2.sessionId = session := by simpa using gone
        simp [entryBytes, owned, Ne.symm same]
  · intro other
    rw [left, AuxLedger.removeSession]
    by_cases same : other = session
    · subst same
      rw [total_filter_gone ledger.entries, total_filter_gone extra]
      · simp
      · intro item apart
        simp [extraRecord, of_decide_eq_true apart]
      · intro entry apart
        simp [entryRecord, of_decide_eq_true apart]
    · rw [if_neg same, total_filter_apart ledger.entries, total_filter_apart extra]
      · exact accounts.records other
      · intro item gone
        have noted : item.session = some session := by simpa using gone
        simp [extraRecord, noted, Ne.symm same]
      · intro entry gone
        have owned : entry.2.sessionId = session := by simpa using gone
        simp [entryRecord, owned, Ne.symm same]
  · rw [AuxLedger.removeSession, total_filter_apart extra]
    · cases found : Keyed.find ledger.sessions session with
      | none =>
        simp only
        rw [Keyed.erase_absent (Keyed.find_none_iff.mp found), accounts.global]
      | some totals =>
        have taken := Keyed.total_erase (fun totals => totals.2.1) accounts.distinct found
        simp only [accounts.global, taken]
        abel
    · intro item gone
      have noted : item.session = some session := by simpa using gone
      simp [extraBytes, noted]
  · have entries : total (fun entry => entry.2.bytes) ledger.entries =
        total (fun entry => entry.2.bytes)
            (ledger.entries.filter (fun entry => decide (entry.2.sessionId ≠ session))) +
          total (entryBytes session) ledger.entries := by
      rw [Keyed.total_filter, ← total_add]
      refine total_congr ?_ _
      intro entry
      by_cases owned : entry.2.sessionId = session
      · simp [entryBytes, owned]
      · simp [entryBytes, owned]
    have items : total (fun item => item.bytes) extra =
        total (fun item => item.bytes)
            (extra.filter (fun item => decide (item.session ≠ some session))) +
          total (extraBytes (some session)) extra := by
      rw [Keyed.total_filter, ← total_add]
      refine total_congr ?_ _
      intro item
      by_cases noted : item.session = some session
      · simp [extraBytes, noted]
      · simp [extraBytes, noted]
    have own := accounts.bytes session
    rw [AuxLedger.removeSession, accounts.whole, entries, items]
    cases found : Keyed.find ledger.sessions session with
    | none =>
      rw [AuxLedger.totals, found, Option.getD_none] at own
      rw [add_add_add_comm, ← own]
      simp
    | some totals =>
      rw [AuxLedger.totals, found, Option.getD_some] at own
      simp only [own]
      abel

end Accounts

section Ranges

variable {α : Type}

/-- A sum of words is the sum of their values as long as that stays a word. -/
theorem to_nat_total (measure : α → UInt64) (items : List α)
    (small : total (fun item => (measure item).toNat) items < 2 ^ 64) :
    (total measure items).toNat = total (fun item => (measure item).toNat) items := by
  induction items with
  | nil => rfl
  | cons item rest inductionHypothesis =>
    simp only [total_cons] at small ⊢
    rw [UInt64.toNat_add, inductionHypothesis (by omega), Nat.mod_eq_of_lt small]

end Ranges

section Underflow

variable {Session Time Path : Type} [DecidableEq Session] [LinearOrder Time] [LinearOrder Path]
variable {ledger : AuxLedger Session Time Path} {extra : List (Extra Session)}

/-- All that is counted stays within the range of the words. -/
structure Small (ledger : AuxLedger Session Time Path) (extra : List (Extra Session)) : Prop where
  bytes : total (fun entry => entry.2.bytes.toNat) ledger.entries +
    total (fun item => item.bytes.toNat) extra < 2 ^ 64
  records : ledger.entries.length + extra.length < 2 ^ 64

theorem Accounts.global_to_nat (accounts : Accounts ledger extra) (small : Small ledger extra) :
    ledger.globalBytes.toNat = total (fun entry => entry.2.bytes.toNat) ledger.entries +
      total (fun item => item.bytes.toNat) extra := by
  have bound := small.bytes
  rw [accounts.whole, UInt64.toNat_add, to_nat_total _ _ (by omega), to_nat_total _ _ (by omega),
    Nat.mod_eq_of_lt bound]

omit [LinearOrder Time] [LinearOrder Path] in
theorem entry_bytes_le (session : Session)
    (entry : AuxKey Time Path × AuxDirectoryEntry Session Time Path) :
    (entryBytes session entry).toNat ≤ entry.2.bytes.toNat := by
  unfold entryBytes
  split
  · exact Nat.le_refl _
  · exact Nat.zero_le _

theorem extra_bytes_le (session : Option Session) (item : Extra Session) :
    (extraBytes session item).toNat ≤ item.bytes.toNat := by
  unfold extraBytes
  split
  · exact Nat.le_refl _
  · exact Nat.zero_le _

/-- The bytes of a session as a number: those of its entries and of the audit. -/
theorem Accounts.bytes_to_nat (accounts : Accounts ledger extra) (small : Small ledger extra)
    (session : Session) :
    (ledger.totals session).1.toNat =
      total (fun entry => (entryBytes session entry).toNat) ledger.entries +
        total (fun item => (extraBytes (some session) item).toNat) extra := by
  have bound := small.bytes
  have entries := total_le_total (entry_bytes_le session) ledger.entries
  have items := total_le_total (extra_bytes_le (some session)) extra
  rw [accounts.bytes, UInt64.toNat_add, to_nat_total _ _ (by omega), to_nat_total _ _ (by omega),
    Nat.mod_eq_of_lt (by omega)]

theorem Accounts.records_to_nat (accounts : Accounts ledger extra) (small : Small ledger extra)
    (session : Session) :
    (ledger.totals session).2.toNat =
      total (fun entry => (entryRecord session entry).toNat) ledger.entries +
        total (fun item => (extraRecord session item).toNat) extra := by
  have bound := small.records
  have entries : total (fun entry => (entryRecord session entry).toNat) ledger.entries ≤
      ledger.entries.length := by
    rw [← total_one]
    refine total_le_total ?_ _
    intro entry
    unfold entryRecord
    split
    · exact Nat.le_refl _
    · exact Nat.zero_le _
  have items : total (fun item => (extraRecord session item).toNat) extra ≤ extra.length := by
    rw [← total_one]
    refine total_le_total ?_ _
    intro item
    unfold extraRecord
    split
    · exact Nat.le_refl _
    · exact Nat.zero_le _
  rw [accounts.records, UInt64.toNat_add, to_nat_total _ _ (by omega),
    to_nat_total _ _ (by omega), Nat.mod_eq_of_lt (by omega)]

/-- No removal of an entry or of a session subtracts more than there is. -/
def NoUnderflow (ledger : AuxLedger Session Time Path) : Prop :=
  (∀ key entry, Keyed.find ledger.entries key = some entry →
    entry.bytes ≤ ledger.globalBytes ∧ entry.bytes ≤ (ledger.totals entry.sessionId).1 ∧
      1 ≤ (ledger.totals entry.sessionId).2) ∧
  ∀ session, (ledger.totals session).1 ≤ ledger.globalBytes

theorem Accounts.no_underflow (accounts : Accounts ledger extra) (small : Small ledger extra) :
    NoUnderflow ledger := by
  refine ⟨?_, ?_⟩
  · intro key entry found
    have member := Keyed.find_mem found
    refine ⟨?_, ?_, ?_⟩
    · rw [UInt64.le_iff_toNat_le, accounts.global_to_nat small]
      have part := le_total_of_mem (fun pair => pair.2.bytes.toNat) member
      exact Nat.le_trans part (Nat.le_add_right _ _)
    · rw [UInt64.le_iff_toNat_le, accounts.bytes_to_nat small]
      have part := le_total_of_mem (fun pair => (entryBytes entry.sessionId pair).toNat) member
      simp only [entryBytes, if_true] at part
      exact Nat.le_trans part (Nat.le_add_right _ _)
    · rw [UInt64.le_iff_toNat_le, accounts.records_to_nat small]
      have part := le_total_of_mem (fun pair => (entryRecord entry.sessionId pair).toNat) member
      simp only [entryRecord, if_true] at part
      exact Nat.le_trans part (Nat.le_add_right _ _)
  · intro session
    rw [UInt64.le_iff_toNat_le, accounts.global_to_nat small, accounts.bytes_to_nat small]
    exact Nat.add_le_add (total_le_total (entry_bytes_le session) _)
      (total_le_total (extra_bytes_le (some session)) _)

end Underflow

section Enforcing

variable {Session Time Path : Type} [DecidableEq Session] [LinearOrder Time] [LinearOrder Path]
variable {ledger : AuxLedger Session Time Path} {extra : List (Extra Session)}
variable {target : Session} {reserve : UInt64} {limits : AuxLimits}

/-- One more record of the reserved size is within all four limits. -/
structure Fits (ledger : AuxLedger Session Time Path) (target : Session) (reserve : UInt64)
    (limits : AuxLimits) : Prop where
  sessionBytes : saturatingAdd (ledger.totals target).1 reserve ≤ limits.sessionBytes.toNat
  sessionRecords : (ledger.totals target).2 + 1 ≤ limits.sessionRecords
  globalBytes : saturatingAdd ledger.globalBytes reserve ≤ limits.globalBytes.toNat
  globalRecords : ledger.entries.length + 1 ≤ limits.globalRecords.toNat

/-- The evicted entry is the oldest of those that may go, and one of the target's if
it is the target's limit that is full. -/
def OldestFirst (target : Session) (reserve : UInt64) (limits : AuxLimits)
    (eviction : AuxLedger Session Time Path × AuxKey Time Path) : Prop :=
  ∃ entry, Keyed.find eviction.1.entries eviction.2 = some entry ∧
    (eviction.1.sessionFull target reserve limits = true → entry.sessionId = target) ∧
    ∀ other ∈ eviction.1.entries,
      (eviction.1.sessionFull target reserve limits = true → other.2.sessionId = target) →
      entry.mtime ≤ other.2.mtime

omit [LinearOrder Time] [LinearOrder Path] in
theorem fits_iff : Fits ledger target reserve limits ↔
    ledger.sessionFull target reserve limits = false ∧
      ledger.globalFull reserve limits = false := by
  simp only [AuxLedger.sessionFull, AuxLedger.globalFull, Bool.or_eq_false_iff,
    decide_eq_false_iff_not, gt_iff_lt, Nat.not_lt, UInt64.not_lt]
  constructor
  · rintro ⟨one, two, three, four⟩
    exact ⟨⟨one, two⟩, three, four⟩
  · rintro ⟨⟨one, two⟩, three, four⟩
    exact ⟨one, two, three, four⟩

/-- The chosen victim comes first among the entries that may go. -/
theorem Accounts.victim_oldest (accounts : Accounts ledger extra) {key : AuxKey Time Path}
    (chosen : ledger.victim target (ledger.sessionFull target reserve limits) = some key) :
    OldestFirst target reserve limits (ledger, key) := by
  obtain ⟨⟨named, entry⟩, found, rfl⟩ := Option.map_eq_some_iff.mp chosen
  obtain ⟨passed, before, after, whole, skipped⟩ := List.find?_eq_some_iff_append.mp found
  have member : (named, entry) ∈ ledger.entries := List.mem_of_find?_eq_some found
  have here : Keyed.find ledger.entries named = some entry :=
    Keyed.mem_find accounts.sorted.distinct member
  refine ⟨entry, here, ?_, ?_⟩
  · intro full
    simpa [full] using passed
  · intro other present eligible
    have allowed : (!ledger.sessionFull target reserve limits ||
        decide (other.2.sessionId = target)) = true := by
      cases full : ledger.sessionFull target reserve limits with
      | false => rfl
      | true => simpa using eligible full
    have later : named ≤ other.1 := by
      have order := accounts.sorted
      rw [whole] at present
      unfold Keyed.Sorted at order
      rw [whole] at order
      rcases List.mem_append.mp present with early | late
      · have no := skipped other early
        rw [allowed] at no
        cases no
      · rcases List.mem_cons.mp late with rfl | behind
        · exact le_refl _
        · have tail := (List.pairwise_append.mp order).2.1
          exact le_of_lt ((List.pairwise_cons.mp tail).1 other behind)
    have first := accounts.keyed (named, entry) member
    have second := accounts.keyed other present
    simp only at first
    rw [first, second] at later
    rcases Prod.Lex.le_iff.mp later with less | ⟨same, -⟩
    · exact le_of_lt less
    · exact le_of_eq same

/-- A removal leaves one entry less, and less to count. -/
theorem Accounts.remove_less (accounts : Accounts ledger extra) {key : AuxKey Time Path}
    {next : AuxLedger Session Time Path} {entry : AuxDirectoryEntry Session Time Path}
    (found : Keyed.find ledger.entries key = some entry) (taken : ledger.remove key = some next) :
    next.entries.length + 1 = ledger.entries.length ∧
      (Small ledger extra → Small next extra) := by
  rw [accounts.remove_some found] at taken
  obtain rfl := Option.some.inj taken
  obtain ⟨before, after, split⟩ := Keyed.find_split accounts.sorted.distinct found
  have length := congrArg List.length split.whole
  have bytes := Keyed.total_erase (fun pair => pair.2.bytes.toNat) accounts.sorted.distinct found
  simp only [split.erase, List.length_append, List.length_cons] at length bytes ⊢
  refine ⟨by omega, ?_⟩
  rintro ⟨few, short⟩
  refine ⟨?_, ?_⟩
  · simp only
    omega
  · simp only [List.length_append]
    omega

/-- What enforcing does from a ledger in order: it returns, what it leaves is in
order, it grants only what fits, and it evicts oldest first. -/
theorem Accounts.enforce_rounds (accounts : Accounts ledger extra) (target : Session)
    (reserve : UInt64) (limits : AuxLimits) (expired removed : Nat → Bool)
    (rounds round : Nat) (enough : ledger.entries.length < rounds) :
    ∃ enforced, enforceRounds target reserve limits expired removed rounds round ledger =
        some enforced ∧
      (∀ left, enforced.ledger = some left → Accounts left extra) ∧
      (enforced.granted = true →
        ∃ left, enforced.ledger = some left ∧ Fits left target reserve limits) ∧
      ∀ eviction ∈ enforced.evicted, OldestFirst target reserve limits eviction ∧
        (Small ledger extra → NoUnderflow eviction.1) := by
  induction rounds generalizing ledger round with
  | zero => cases enough
  | succ rounds inductionHypothesis =>
    have keep : ∀ left, some ledger = some left → Accounts left extra := by
      rintro left same
      obtain rfl := Option.some.inj same
      exact accounts
    simp only [enforceRounds]
    split
    · rename_i room
      refine ⟨_, rfl, keep, ?_, by simp⟩
      intro _
      refine ⟨ledger, rfl, fits_iff.mpr ?_⟩
      simpa using room
    · split
      · exact ⟨_, rfl, keep, by simp, by simp⟩
      · split
        · exact ⟨_, rfl, keep, by simp, by simp⟩
        · rename_i key chosen
          have oldest := accounts.victim_oldest chosen
          obtain ⟨entry, found, -⟩ := accounts.victim_oldest chosen
          split
          · split
            · rename_i absent
              rw [accounts.remove_some found] at absent
              cases absent
            · rename_i next taken
              obtain ⟨fewer, smaller⟩ := accounts.remove_less found taken
              obtain ⟨enforced, returned, left, granted, rightly⟩ :=
                inductionHypothesis (accounts.remove taken) (round + 1) (by omega)
              rw [returned]
              refine ⟨_, rfl, left, granted, ?_⟩
              intro eviction member
              rcases List.mem_cons.mp member with rfl | later
              · exact ⟨oldest, fun small => accounts.no_underflow small⟩
              · obtain ⟨first, safe⟩ := rightly eviction later
                exact ⟨first, fun small => safe (smaller small)⟩
          · refine ⟨_, rfl, ?_, by simp, by simp⟩
            intro left lost
            cases lost

end Enforcing

section Runs

variable {Session Time Path : Type} [DecidableEq Session] [LinearOrder Time] [LinearOrder Path]

theorem step_accounts {state next : Audited Session Time Path}
    {operation : Operation Session Time Path} (accounts : Accounts state.ledger state.extra)
    (stepped : step state operation = some next) : Accounts next.ledger next.extra := by
  cases operation with
  | insert entry =>
    obtain rfl := Option.some.inj stepped
    exact accounts.insert entry
  | noteForeign session bytes =>
    obtain rfl := Option.some.inj stepped
    exact accounts.note_foreign session bytes
  | remove key =>
    obtain ⟨ledger, removed, rfl⟩ := Option.map_eq_some_iff.mp stepped
    exact accounts.remove removed
  | removeSession session =>
    obtain rfl := Option.some.inj stepped
    exact accounts.remove_session session
  | enforce target reserve limits expired removed =>
    obtain ⟨enforced, returned, left⟩ := Option.bind_eq_some_iff.mp stepped
    obtain ⟨ledger, kept, rfl⟩ := Option.map_eq_some_iff.mp left
    obtain ⟨other, again, held, -⟩ := accounts.enforce_rounds target reserve limits expired
      removed _ 0 (Nat.lt_succ_self _)
    rw [AuxLedger.enforce, again] at returned
    obtain rfl := Option.some.inj returned
    exact held ledger kept

/-- Two records of one session, foreign bytes of a second and of none, and a
reservation that makes the older record go. -/
def sampleOperations : List (Operation Nat Nat Nat) :=
  [.insert ⟨1, 10, 5, 40⟩, .insert ⟨1, 11, 3, 50⟩, .noteForeign (some 2) 7, .noteForeign none 9,
    .enforce 1 20 ⟨100, 10, 1000, 10⟩ (fun _ => false) (fun _ => true)]

theorem sample_defined : (Runs.run step {} sampleOperations).isSome = true ∧
    (Runs.replay step {} sampleOperations).ledger.totals 1 = (40, 1) := by
  decide +kernel

end Runs

end MinicoreAgent.AuxLedgers

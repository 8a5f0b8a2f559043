import MinicoreAgent.CompletionWindows

/-!
# The budget of retained result sources

A charge is counted from the moment `reserve` grants it until its last holder
drops it, wherever it is: in the hands of the turn that reserved it, in an entry
of the catalog, in a page that still reads it after the entry was evicted or the
load removed. The invariant says that the four kinds of counters are the sums
over the charges that are not dropped, and that exactly the charges named by an
entry are marked as held by the catalog.

A charge handed from one holder to another keeps its bytes, its account and its
life, so such moves cannot change a sum.
-/
namespace MinicoreAgent.ResultCatalog

open SessionState (LoopId CompletionEntry UnavailableReason)
open Keyed Runs Slots

variable {LoadId : Type} [DecidableEq LoadId]

namespace SourceCharge

/-- The bytes a charge still holds. -/
def heldBytes (charge : SourceCharge) : Nat := if charge.live then charge.bytes else 0

/-- One for a charge that is not dropped. -/
def heldCount (charge : SourceCharge) : Nat := if charge.live then 1 else 0

/-- The bytes it holds of one account. -/
def bytesOf (account : Nat) (charge : SourceCharge) : Nat :=
  if charge.account = account then charge.heldBytes else 0

def countOf (account : Nat) (charge : SourceCharge) : Nat :=
  if charge.account = account then charge.heldCount else 0

/-- Handed from one holder to another. -/
structure Handed (charge next : SourceCharge) : Prop where
  bytes : next.bytes = charge.bytes
  account : next.account = charge.account
  live : next.live = charge.live

theorem Handed.refl (charge : SourceCharge) : Handed charge charge := ⟨rfl, rfl, rfl⟩

variable {charge next : SourceCharge}

theorem Handed.heldBytes (handed : Handed charge next) : next.heldBytes = charge.heldBytes := by
  simp [SourceCharge.heldBytes, handed.bytes, handed.live]

theorem Handed.heldCount (handed : Handed charge next) : next.heldCount = charge.heldCount := by
  simp [SourceCharge.heldCount, handed.live]

theorem Handed.bytesOf (handed : Handed charge next) (account : Nat) :
    next.bytesOf account = charge.bytesOf account := by
  simp [SourceCharge.bytesOf, handed.account, handed.heldBytes]

theorem Handed.countOf (handed : Handed charge next) (account : Nat) :
    next.countOf account = charge.countOf account := by
  simp [SourceCharge.countOf, handed.account, handed.heldCount]

end SourceCharge

open SourceCharge

/-- Every charge was handed on or left alone. -/
def AllHanded : List SourceCharge → List SourceCharge → Prop := List.Forall₂ Handed

theorem all_handed_refl (charges : List SourceCharge) : AllHanded charges charges := by
  induction charges with
  | nil => exact .nil
  | cons charge rest inductionHypothesis => exact .cons (.refl charge) inductionHypothesis

/-- A measure that handing on does not change has the same sum. -/
theorem AllHanded.total {charges next : List SourceCharge} (handed : AllHanded charges next)
    (measure : SourceCharge → Nat)
    (same : ∀ charge later, Handed charge later → measure later = measure charge) :
    total measure next = total measure charges := by
  induction handed with
  | nil => rfl
  | cons head tail inductionHypothesis =>
    simp only [total_cons, same _ _ head, inductionHypothesis]

/-- Changing one charge hands everything on if it hands that one on. -/
theorem all_handed_modify {charges : List SourceCharge} {source : Nat}
    {change : SourceCharge → SourceCharge}
    (handed : ∀ charge, charges[source]? = some charge → Handed charge (change charge)) :
    AllHanded charges (charges.modify source change) := by
  induction charges generalizing source with
  | nil =>
    rw [List.modify_nil]
    exact .nil
  | cons head rest inductionHypothesis =>
    cases source with
    | zero => exact .cons (handed head rfl) (all_handed_refl rest)
    | succ source => exact .cons (.refl head) (inductionHypothesis fun charge => handed charge)

/-- Replacing one charge changes a sum by the difference of its values. -/
theorem total_set {charges : List SourceCharge} {source : Nat} {charge : SourceCharge}
    (measure : SourceCharge → Nat) (present : charges[source]? = some charge)
    (next : SourceCharge) :
    measure charge ≤ total measure charges ∧
      total measure (charges.set source next) = total measure charges - measure charge + measure next := by
  obtain ⟨others, split⟩ := total_split measure charges source charge present
  obtain ⟨whole, replaced⟩ := split next
  omega

theorem AllHanded.trans {first second third : List SourceCharge} (left : AllHanded first second)
    (right : AllHanded second third) : AllHanded first third := by
  induction left generalizing third with
  | nil => exact right
  | cons head tail inductionHypothesis =>
    cases right with
    | cons next rest =>
      refine .cons ⟨?_, ?_, ?_⟩ (inductionHypothesis rest)
      · exact next.bytes.trans head.bytes
      · exact next.account.trans head.account
      · exact next.live.trans head.live

/-- An entry of the catalog holds the charge. -/
def retainedAt (charges : List SourceCharge) (source : Nat) : Bool :=
  (charges[source]?.map (·.retained)).getD false

theorem retained_at_iff {charges : List SourceCharge} {source : Nat} :
    retainedAt charges source = true ↔
      ∃ charge, charges[source]? = some charge ∧ charge.retained = true := by
  unfold retainedAt
  cases present : charges[source]? with
  | none => simp
  | some charge => simp

theorem retained_at_modify (charges : List SourceCharge) (source other : Nat)
    (change : SourceCharge → SourceCharge) :
    retainedAt (charges.modify source change) other =
      if source = other then (charges[other]?.map (fun charge => (change charge).retained)).getD false
      else retainedAt charges other := by
  unfold retainedAt
  rw [List.getElem?_modify]
  by_cases same : source = other
  · cases charges[other]? <;> simp [same]
  · cases charges[other]? <;> simp [same]

/-- The catalog holds exactly these sources, each in one entry, and only sources
that were made shared. -/
structure KeptBy (held : List Nat) (charges : List SourceCharge) : Prop where
  once : held.Nodup
  same : ∀ source, source ∈ held ↔ retainedAt charges source = true
  shared : ∀ charge ∈ charges, charge.retained = true → charge.stage = .shared

namespace KeptBy

variable {held : List Nat} {charges : List SourceCharge} {source : Nat}

theorem perm {other : List Nat} (kept : KeptBy held charges) (same : held.Perm other) :
    KeptBy other charges :=
  ⟨same.nodup_iff.mp kept.once, fun source => same.mem_iff.symm.trans (kept.same source),
    kept.shared⟩

/-- A held source has a charge that is live. -/
theorem charge (kept : KeptBy held charges) (member : source ∈ held) :
    ∃ charge, charges[source]? = some charge ∧ charge.retained = true :=
  retained_at_iff.mp ((kept.same source).mp member)

theorem mem_modify {next : SourceCharge} {change : SourceCharge → SourceCharge}
    (member : next ∈ charges.modify source change) :
    next ∈ charges ∨ ∃ charge, charges[source]? = some charge ∧ next = change charge := by
  obtain ⟨index, present⟩ := List.getElem?_of_mem member
  rw [List.getElem?_modify] at present
  obtain ⟨old, oldAt, same⟩ := Option.map_eq_some_iff.mp present
  by_cases here : source = index
  · rw [if_pos here] at same
    exact .inr ⟨old, here ▸ oldAt, same.symm⟩
  · rw [if_neg here] at same
    exact .inl (same ▸ List.mem_of_getElem? oldAt)

/-- An entry gives its source out. -/
theorem give_out (kept : KeptBy (source :: held) charges) :
    KeptBy held (Catalog.giveOut charges (some source)) ∧
      AllHanded charges (Catalog.giveOut charges (some source)) := by
  obtain ⟨charge, present, retained⟩ := kept.charge List.mem_cons_self
  obtain ⟨absent, once⟩ := List.nodup_cons.mp kept.once
  refine ⟨⟨once, ?_, ?_⟩, ?_⟩
  · intro other
    rw [Catalog.giveOut, retained_at_modify]
    by_cases same : source = other
    · subst same
      simp [absent, present]
    · rw [if_neg same, ← kept.same other, List.mem_cons]
      exact ⟨.inr, fun found => found.resolve_left (Ne.symm same)⟩
  · intro next member marked
    rcases mem_modify member with old | ⟨old, -, rfl⟩
    · exact kept.shared next old marked
    · cases marked
  · refine all_handed_modify ?_
    intro other same
    obtain rfl : charge = other := Option.some.inj (present.symm.trans same)
    exact ⟨rfl, rfl, by simp [SourceCharge.live, retained]⟩

/-- Several entries give their sources out. -/
theorem give_out_all {released : List Nat} (kept : KeptBy (released ++ held) charges) :
    KeptBy held (released.foldl (fun charges source => Catalog.giveOut charges (some source))
        charges) ∧
      AllHanded charges (released.foldl
        (fun charges source => Catalog.giveOut charges (some source)) charges) := by
  induction released generalizing charges with
  | nil => exact ⟨kept, all_handed_refl charges⟩
  | cons source rest inductionHypothesis =>
    obtain ⟨left, handed⟩ := kept.give_out
    obtain ⟨final, later⟩ := inductionHypothesis left
    exact ⟨final, handed.trans later⟩

/-- An entry takes over a source whose reservation is finished. -/
theorem take_in {charge : SourceCharge} (kept : KeptBy held charges)
    (present : charges[source]? = some charge) (unshared : charge.stage ≠ .shared)
    (outside : 0 < charge.outside) :
    KeptBy (source :: held) (Catalog.takeIn charges (some source)) ∧
      AllHanded charges (Catalog.takeIn charges (some source)) := by
  have loose : source ∉ held := by
    intro member
    obtain ⟨other, same, retained⟩ := kept.charge member
    obtain rfl : charge = other := Option.some.inj (present.symm.trans same)
    exact unshared (kept.shared charge (List.mem_of_getElem? present) retained)
  refine ⟨⟨List.nodup_cons.mpr ⟨loose, kept.once⟩, ?_, ?_⟩, ?_⟩
  · intro other
    rw [Catalog.takeIn, retained_at_modify]
    by_cases same : source = other
    · subst same
      simp [present]
    · rw [if_neg same, ← kept.same other, List.mem_cons]
      exact ⟨fun found => found.resolve_left (Ne.symm same), .inr⟩
  · intro next member marked
    rcases mem_modify member with old | ⟨old, -, rfl⟩
    · exact kept.shared next old marked
    · rfl
  · refine all_handed_modify ?_
    intro other same
    obtain rfl : charge = other := Option.some.inj (present.symm.trans same)
    exact ⟨rfl, rfl, by simp [SourceCharge.live, outside]⟩

/-- Changing a charge without touching who retains it. -/
theorem change {next : SourceCharge} {charge : SourceCharge} (kept : KeptBy held charges)
    (present : charges[source]? = some charge) (retained : next.retained = charge.retained)
    (shared : next.retained = true → next.stage = .shared) :
    KeptBy held (charges.set source next) := by
  refine ⟨kept.once, ?_, ?_⟩
  · intro other
    rw [kept.same other]
    have inside := (List.getElem?_eq_some_iff.mp present).1
    unfold retainedAt
    by_cases same : source = other
    · subst same
      rw [List.getElem?_set_self inside, present]
      simp [retained]
    · rw [List.getElem?_set_ne same]
  · intro other member marked
    rcases List.mem_or_eq_of_mem_set member with old | rfl
    · exact kept.shared other old marked
    · exact shared marked

end KeptBy

namespace Catalog

variable {limits : ResultLimits} {catalog after : Catalog LoadId} {load : LoadId}
  {results : LoadResults}

/-- The counters are the sums over the charges that are not dropped, globally and
for every account, and the limits hold. -/
structure Funded (limits : ResultLimits) (catalog : Catalog LoadId) : Prop where
  bytes : catalog.sourceBytes = total heldBytes catalog.charges
  count : catalog.sourceCount = total heldCount catalog.charges
  accountBytes : ∀ index account, catalog.accounts[index]? = some account →
    account.bytes = total (bytesOf index) catalog.charges
  accountCount : ∀ index account, catalog.accounts[index]? = some account →
    account.count = total (countOf index) catalog.charges
  opened : ∀ charge ∈ catalog.charges, charge.account < catalog.accounts.length
  bytesLimit : catalog.sourceBytes ≤ limits.allSourceBytes
  countLimit : catalog.sourceCount ≤ limits.sources
  accountBytesLimit : ∀ account ∈ catalog.accounts, account.bytes ≤ limits.sourceBytesPerLoad
  accountCountLimit : ∀ account ∈ catalog.accounts, account.count ≤ limits.sourcesPerLoad

omit [DecidableEq LoadId] in
/-- Handing charges on changes no counter. -/
theorem Funded.handed (funded : catalog.Funded limits)
    (handed : AllHanded catalog.charges after.charges)
    (bytes : after.sourceBytes = catalog.sourceBytes)
    (count : after.sourceCount = catalog.sourceCount)
    (accounts : after.accounts = catalog.accounts) : after.Funded limits where
  bytes := by
    rw [bytes, funded.bytes, handed.total _ fun _ _ handed => handed.heldBytes]
  count := by
    rw [count, funded.count, handed.total _ fun _ _ handed => handed.heldCount]
  accountBytes := by
    intro index account present
    rw [accounts] at present
    rw [funded.accountBytes index account present,
      handed.total _ fun _ _ handed => handed.bytesOf index]
  accountCount := by
    intro index account present
    rw [accounts] at present
    rw [funded.accountCount index account present,
      handed.total _ fun _ _ handed => handed.countOf index]
  opened := by
    rw [accounts]
    intro charge member
    obtain ⟨index, inside, rfl⟩ := List.mem_iff_getElem.mp member
    have old : index < catalog.charges.length := handed.length_eq ▸ inside
    have same := List.Forall₂.get handed old inside
    have known := funded.opened _ (List.getElem_mem old)
    have moved := same.account
    simp only [List.get_eq_getElem] at moved
    omega
  bytesLimit := bytes ▸ funded.bytesLimit
  countLimit := count ▸ funded.countLimit
  accountBytesLimit := accounts ▸ funded.accountBytesLimit
  accountCountLimit := accounts ▸ funded.accountCountLimit

omit [DecidableEq LoadId] in
/-- A live charge is part of every counter it is counted in. -/
theorem Funded.charge_le {source : Nat} {charge : SourceCharge} {account : Account}
    (funded : catalog.Funded limits) (present : catalog.charges[source]? = some charge)
    (live : charge.live = true) (opened : catalog.accounts[charge.account]? = some account) :
    charge.bytes ≤ catalog.sourceBytes ∧ 1 ≤ catalog.sourceCount ∧
      charge.bytes ≤ account.bytes ∧ 1 ≤ account.count := by
  have parts (measure : SourceCharge → Nat) := le_total measure catalog.charges source charge present
  have first := parts heldBytes
  have second := parts heldCount
  have third := parts (bytesOf charge.account)
  have fourth := parts (countOf charge.account)
  rw [← funded.bytes] at first
  rw [← funded.count] at second
  rw [← funded.accountBytes _ _ opened] at third
  rw [← funded.accountCount _ _ opened] at fourth
  simp only [SourceCharge.heldBytes, SourceCharge.heldCount, SourceCharge.bytesOf,
    SourceCharge.countOf, live, if_true] at first second third fourth
  exact ⟨first, second, third, fourth⟩

omit [DecidableEq LoadId] in
/-- A live charge that gives up some of its bytes, or all of them together with
its place, is subtracted from all four counters without going below zero. -/
theorem Funded.reduce {source bytes count : Nat} {charge next : SourceCharge}
    (funded : catalog.Funded limits) (present : catalog.charges[source]? = some charge)
    (live : charge.live = true) (account : next.account = charge.account)
    (bytesLeft : next.heldBytes + bytes = charge.bytes) (countLeft : next.heldCount + count = 1) :
    Funded limits { catalog with
      charges := catalog.charges.set source next
      sourceBytes := wrappingSub catalog.sourceBytes bytes
      sourceCount := wrappingSub catalog.sourceCount count
      accounts := catalog.accounts.modify charge.account (fun account =>
        { bytes := wrappingSub account.bytes bytes
          count := wrappingSub account.count count }) } := by
  have opened := funded.opened charge (List.mem_of_getElem? present)
  have known : catalog.accounts[charge.account]? = some catalog.accounts[charge.account] :=
    List.getElem?_eq_getElem opened
  obtain ⟨bytesPart, countPart, accountBytesPart, accountCountPart⟩ :=
    funded.charge_le present live known
  have heldBytes : charge.heldBytes = charge.bytes := by simp [SourceCharge.heldBytes, live]
  have heldCount : charge.heldCount = 1 := by simp [SourceCharge.heldCount, live]
  have splits (measure : SourceCharge → Nat) := total_set measure present next
  have reduced : ∀ found ∈ catalog.accounts.modify charge.account (fun account =>
      { bytes := wrappingSub account.bytes bytes, count := wrappingSub account.count count }),
      ∃ old ∈ catalog.accounts, found.bytes ≤ old.bytes ∧ found.count ≤ old.count := by
    intro found member
    obtain ⟨index, inside⟩ := List.getElem?_of_mem member
    rw [List.getElem?_modify] at inside
    obtain ⟨old, oldAt, same⟩ := Option.map_eq_some_iff.mp inside
    refine ⟨old, List.mem_of_getElem? oldAt, ?_⟩
    by_cases here : charge.account = index
    · rw [if_pos here] at same
      subst here
      obtain rfl : catalog.accounts[charge.account] = old :=
        Option.some.inj (known.symm.trans oldAt)
      rw [← same, wrapping_sub_le (by omega), wrapping_sub_le (by omega)]
      exact ⟨Nat.sub_le _ _, Nat.sub_le _ _⟩
    · rw [if_neg here] at same
      exact same ▸ ⟨Nat.le_refl _, Nat.le_refl _⟩
  -- An account other than the charge's own sees no difference.
  have accounts (index : Nat) (found : Account)
      (presentAt : (catalog.accounts.modify charge.account (fun account =>
        { bytes := wrappingSub account.bytes bytes
          count := wrappingSub account.count count }))[index]? = some found) :
      found.bytes = total (bytesOf index) (catalog.charges.set source next) ∧
        found.count = total (countOf index) (catalog.charges.set source next) := by
    rw [List.getElem?_modify] at presentAt
    obtain ⟨old, oldAt, same⟩ := Option.map_eq_some_iff.mp presentAt
    have oldBytes := funded.accountBytes index old oldAt
    have oldCount := funded.accountCount index old oldAt
    have splitBytes := splits (bytesOf index)
    have splitCount := splits (countOf index)
    by_cases here : charge.account = index
    · rw [if_pos here] at same
      simp only [SourceCharge.bytesOf, SourceCharge.countOf, account, here, if_true]
        at splitBytes splitCount
      rw [← same, wrapping_sub_le (by omega), wrapping_sub_le (by omega)]
      simp only
      omega
    · rw [if_neg here] at same
      simp only [SourceCharge.bytesOf, SourceCharge.countOf, account, here, if_false]
        at splitBytes splitCount
      subst same
      omega
  constructor
  · have split := splits SourceCharge.heldBytes
    have sum := funded.bytes
    simp only
    rw [wrapping_sub_le (by omega)]
    omega
  · have split := splits SourceCharge.heldCount
    have sum := funded.count
    simp only
    rw [wrapping_sub_le (by omega)]
    omega
  · exact fun index found presentAt => (accounts index found presentAt).1
  · exact fun index found presentAt => (accounts index found presentAt).2
  · intro other member
    rw [List.length_modify]
    rcases List.mem_or_eq_of_mem_set member with old | rfl
    · exact funded.opened other old
    · exact account ▸ opened
  · have bound := funded.bytesLimit
    simp only
    rw [wrapping_sub_le (by omega)]
    omega
  · have bound := funded.countLimit
    simp only
    rw [wrapping_sub_le (by omega)]
    omega
  · intro found member
    obtain ⟨old, known, less, -⟩ := reduced found member
    exact Nat.le_trans less (funded.accountBytesLimit old known)
  · intro found member
    obtain ⟨old, known, -, less⟩ := reduced found member
    exact Nat.le_trans less (funded.accountCountLimit old known)

omit [DecidableEq LoadId] in
/-- A drop keeps the books. -/
theorem Funded.drop_reference {source : Nat} (funded : catalog.Funded limits)
    (dropped : catalog.dropReference source = some after) : after.Funded limits := by
  obtain ⟨charge, kept, present, held, rfl, ⟨left, rfl⟩ | ⟨gone, rfl⟩⟩ := drop_reference_ok dropped
  · have live : charge.live = true := by simp [SourceCharge.live, held]
    refine funded.handed ?_ rfl rfl rfl
    have modified : catalog.charges.set source charge.letGo =
        catalog.charges.modify source (fun _ => charge.letGo) := by
      rw [List.modify_eq_set_getElem?, present]
      rfl
    simp only [modified]
    refine all_handed_modify ?_
    intro other same
    obtain rfl : charge = other := Option.some.inj (present.symm.trans same)
    exact ⟨rfl, rfl, left.trans live.symm⟩
  · have live : charge.live = true := by simp [SourceCharge.live, held]
    exact funded.reduce present live rfl (by simp [heldBytes, gone]) (by simp [heldCount, gone])

omit [DecidableEq LoadId] in
/-- A reservation that is finished shrinks, and one that is refused is dropped. -/
theorem Funded.finish_reservation {source bytes : Nat} {outcome : Except UnavailableReason Nat}
    (funded : catalog.Funded limits)
    (unretained : ∀ charge, catalog.charges[source]? = some charge → charge.stage = .granted →
      charge.retained = false)
    (finished : catalog.finishReservation source bytes = some (outcome, after)) :
    after.Funded limits := by
  obtain ⟨charge, present, granted, held, ⟨-, -, rfl⟩ | ⟨fits, -, rfl⟩⟩ :=
    finish_reservation_ok finished
  · have live : charge.live = true := by simp [SourceCharge.live, held]
    have loose := unretained charge present granted
    exact funded.reduce present live rfl (by simp [heldBytes, SourceCharge.live, loose])
      (by simp [heldCount, SourceCharge.live, loose])
  · have live : charge.live = true := by simp [SourceCharge.live, held]
    let bound : SourceCharge := { charge with bytes := bytes, stage := .bound }
    have still : bound.live = true := live
    have bytesLeft : bound.heldBytes + (charge.bytes - bytes) = charge.bytes := by
      simp only [heldBytes, still, if_true, bound]
      omega
    have countLeft : bound.heldCount + 0 = 1 := by simp [heldCount, still]
    have reduced := funded.reduce present live (show bound.account = charge.account from rfl)
      bytesLeft countLeft
    simpa [wrappingSub, bound] using reduced

omit [DecidableEq LoadId] in
/-- What `reserve` checks keeps the new sums exact and within the limits. -/
theorem Funded.grant {bytes : Nat} {account : Account} (funded : catalog.Funded limits)
    (opened : catalog.accounts[results.account]? = some account)
    (countFree : account.count < limits.sourcesPerLoad)
    (bytesFree : saturatingAdd account.bytes bytes ≤ limits.sourceBytesPerLoad)
    (allCountFree : catalog.sourceCount < limits.sources)
    (allBytesFree : saturatingAdd catalog.sourceBytes bytes ≤ limits.allSourceBytes) :
    Funded limits { catalog with
      sourceBytes := wrappingAdd catalog.sourceBytes bytes
      sourceCount := wrappingAdd catalog.sourceCount 1
      accounts := catalog.accounts.set results.account
        { bytes := wrappingAdd account.bytes bytes, count := wrappingAdd account.count 1 }
      charges := catalog.charges ++
        [{ bytes := bytes, account := results.account, stage := .granted, retained := false
           outside := 1 }] } := by
  have word : u64Max < UInt64.size := by decide
  have perLoad := limits.perLoadBelow
  have allBytes := limits.allBelow
  have perLoadCount := limits.perLoadCount
  have allCount := limits.allCount
  -- The saturated sums stay below the limits, so nothing was cut off.
  have bytesFit : account.bytes + bytes ≤ limits.sourceBytesPerLoad := by
    unfold saturatingAdd at bytesFree
    omega
  have allFit : catalog.sourceBytes + bytes ≤ limits.allSourceBytes := by
    unfold saturatingAdd at allBytesFree
    omega
  have added {total amount : Nat} (fits : total + amount ≤ u64Max) :
      wrappingAdd total amount = total + amount := Nat.mod_eq_of_lt (by omega)
  rw [added (by omega), added (by omega), added (by omega), added (by omega)]
  have inside : results.account < catalog.accounts.length :=
    (List.getElem?_eq_some_iff.mp opened).1
  constructor
  · simp [funded.bytes, heldBytes, SourceCharge.live]
  · simp [funded.count, heldCount, SourceCharge.live]
  · intro index found present
    rcases Slots.set_cases present with ⟨rfl, rfl⟩ | ⟨apart, old⟩
    · simp [funded.accountBytes _ _ opened, bytesOf, heldBytes, SourceCharge.live]
    · simp [funded.accountBytes _ _ old, bytesOf, Ne.symm apart]
  · intro index found present
    rcases Slots.set_cases present with ⟨rfl, rfl⟩ | ⟨apart, old⟩
    · simp [funded.accountCount _ _ opened, countOf, heldCount, SourceCharge.live]
    · simp [funded.accountCount _ _ old, countOf, Ne.symm apart]
  · intro charge member
    rw [List.length_set]
    rcases List.mem_append.mp member with old | new
    · exact funded.opened charge old
    · obtain rfl := List.mem_singleton.mp new
      exact inside
  · exact allFit
  · exact allCountFree
  · intro found member
    rcases List.mem_or_eq_of_mem_set member with old | rfl
    · exact funded.accountBytesLimit found old
    · exact bytesFit
  · intro found member
    rcases List.mem_or_eq_of_mem_set member with old | rfl
    · exact funded.accountCountLimit found old
    · exact countFree

/-- The sources the entries of the catalog hold. -/
def heldSources (loads : List (LoadId × LoadResults)) : List Nat :=
  loads.flatMap (fun entry => entry.2.entries.filterMap (·.source))

/-- The held sources split around one load. -/
theorem held_split (distinct : Distinct catalog.loads)
    (found : find catalog.loads load = some results) :
    ∃ others, (heldSources catalog.loads).Perm (results.entries.filterMap (·.source) ++ others) ∧
      (∀ next : LoadResults, (heldSources (put catalog.loads load next)).Perm
        (next.entries.filterMap (·.source) ++ others)) ∧
      heldSources (erase catalog.loads load) = others := by
  obtain ⟨before, behind, split⟩ := find_split distinct found
  have moved (middle : List Nat) : (heldSources before ++ (middle ++ heldSources behind)).Perm
      (middle ++ (heldSources before ++ heldSources behind)) := by
    rw [← List.append_assoc, ← List.append_assoc]
    exact List.Perm.append_right _ List.perm_append_comm
  refine ⟨heldSources before ++ heldSources behind, ?_, ?_, ?_⟩
  · rw [split.whole]
    simpa [heldSources] using moved (results.entries.filterMap (·.source))
  · intro next
    rw [split.put]
    simpa [heldSources] using moved (next.entries.filterMap (·.source))
  · rw [split.erase]
    simp [heldSources]

/-- What concerns sources: the books, the custody and the accounts. -/
structure Backed (limits : ResultLimits) (catalog : Catalog LoadId) : Prop where
  funded : catalog.Funded limits
  kept : KeptBy (heldSources catalog.loads) catalog.charges
  opened : ∀ entry ∈ catalog.loads, entry.2.account < catalog.accounts.length

theorem Backed.pop_front {oldest : Retained} (backed : catalog.Backed limits)
    (distinct : Distinct catalog.loads)
    (popped : catalog.popFront load = some (oldest, after)) : after.Backed limits := by
  obtain ⟨results, rest, found, present, rfl⟩ := pop_front_ok popped
  obtain ⟨others, whole, replaced, -⟩ := held_split distinct found
  have left := replaced { results with entries := rest }
  have opened : ∀ entry ∈ put catalog.loads load { results with entries := rest },
      entry.2.account < catalog.accounts.length := by
    intro entry member
    rcases mem_put member with rfl | ⟨old, -⟩
    · exact backed.opened (load, results) (find_mem found)
    · exact backed.opened entry old
  rw [present] at whole
  cases source : oldest.source with
  | none =>
    rw [List.filterMap_cons_none source] at whole
    refine ⟨backed.funded.handed ?_ rfl rfl rfl, ?_, opened⟩
    · simpa [withoutFront, source, giveOut] using all_handed_refl catalog.charges
    · simpa [withoutFront, source, giveOut] using backed.kept.perm (whole.trans left.symm)
  | some held =>
    rw [List.filterMap_cons_some source, List.cons_append] at whole
    obtain ⟨kept, handed⟩ := (backed.kept.perm whole).give_out
    refine ⟨backed.funded.handed ?_ rfl rfl rfl, ?_, opened⟩
    · simpa [withoutFront, source] using handed
    · simpa [withoutFront, source] using kept.perm left.symm

theorem Backed.push {entry : CompletionEntry} {source : Option Nat} {metadataBytes : Nat}
    (backed : catalog.Backed limits) (distinct : Distinct catalog.loads)
    (free : catalog.insertable source = true)
    (pushed : catalog.push load entry source metadataBytes = some after) :
    after.Backed limits := by
  obtain ⟨results, found, rfl⟩ := push_ok pushed
  obtain ⟨others, whole, replaced, -⟩ := held_split distinct found
  have opened : ∀ next : LoadResults, next.account = results.account →
      ∀ entry ∈ put catalog.loads load next, entry.2.account < catalog.accounts.length := by
    intro next same entry member
    rcases mem_put member with rfl | ⟨old, -⟩
    · exact same ▸ backed.opened _ (find_mem found)
    · exact backed.opened entry old
  cases source with
  | none =>
    refine ⟨backed.funded.handed (all_handed_refl _) rfl rfl rfl, ?_, opened _ rfl⟩
    refine backed.kept.perm (whole.trans (List.Perm.trans ?_ (replaced _).symm))
    simp
  | some source =>
    simp only [insertable] at free
    split at free
    · cases free
    · rename_i charge present
      simp only [Bool.and_eq_true, decide_eq_true_eq] at free
      obtain ⟨kept, handed⟩ := backed.kept.take_in present (by simp [free.1]) free.2
      refine ⟨backed.funded.handed handed rfl rfl rfl, ?_, opened _ rfl⟩
      refine kept.perm ?_
      refine List.Perm.trans ?_ (replaced _).symm
      simp only [List.filterMap_append, List.append_assoc]
      exact (List.Perm.cons source whole).trans List.perm_middle.symm

/-- The eviction loop keeps what every single eviction keeps. -/
theorem evict_loop_keeps (Holds : Catalog LoadId → Prop)
    (popped : ∀ (before : Catalog LoadId) (candidate : LoadId) (oldest : Retained)
      (next : Catalog LoadId), Holds before → before.popFront candidate = some (oldest, next) →
      Holds next)
    (fuel : Nat) {released : List Nat} {affected : List LoadId} (holds : Holds catalog)
    (ended : evictLoop limits load fuel catalog = some (released, affected, after)) :
    Holds after := by
  induction fuel generalizing catalog released affected with
  | zero => cases ended
  | succ fuel inductionHypothesis =>
    unfold evictLoop at ended
    split at ended
    · cases ended
    · cases ended
      exact holds
    · split at ended
      · cases ended
      · rename_i candidate _ oldest next gone
        obtain ⟨⟨_, _, final⟩, later, same⟩ := Option.map_eq_some_iff.mp ended
        cases same
        exact inductionHypothesis (popped _ _ _ _ holds gone) later

theorem Backed.insert {entry : CompletionEntry} {source : Option Nat} {metadataBytes : Nat}
    {released : List Nat} {affected : List LoadId} (backed : catalog.Backed limits)
    (tallied : catalog.Tallied) (free : catalog.insertable source = true)
    (inserted : catalog.insert limits load entry source metadataBytes =
      some (released, affected, after)) : after.Backed limits := by
  unfold Catalog.insert at inserted
  split at inserted
  · cases inserted
  · rename_i next pushed
    obtain ⟨⟨_, _, final⟩, ended, same⟩ := Option.map_eq_some_iff.mp inserted
    cases same
    refine (evict_loop_keeps (fun catalog => catalog.Tallied ∧ catalog.Backed limits) ?_ _
      ⟨tallied.push pushed, backed.push tallied.distinct free pushed⟩ ended).2
    intro before candidate oldest later known gone
    exact ⟨known.1.pop_front gone, known.2.pop_front known.1.distinct gone⟩

theorem Backed.reserve_round {bytes : Nat} {round : Round LoadId} (backed : catalog.Backed limits)
    (distinct : Distinct catalog.loads)
    (advanced : catalog.reserveRound limits load bytes = some (round, after)) :
    after.Backed limits := by
  obtain ⟨results, account, found, opened, granted | ⟨-, rfl⟩ | expired⟩ :=
    reserve_round_cases advanced
  · obtain ⟨countFree, bytesFree, allCountFree, allBytesFree, -, rfl⟩ := granted
    refine ⟨backed.funded.grant opened countFree bytesFree allCountFree allBytesFree, ?_, ?_⟩
    · refine ⟨backed.kept.once, ?_, ?_⟩
      · intro source
        simp only
        rw [backed.kept.same source, retained_at_iff, retained_at_iff]
        constructor
        · rintro ⟨charge, present, retained⟩
          exact ⟨charge, List.getElem?_append_left (List.getElem?_eq_some_iff.mp present).1 ▸ present,
            retained⟩
        · rintro ⟨charge, present, retained⟩
          rcases Nat.lt_or_ge source catalog.charges.length with inside | beyond
          · rw [List.getElem?_append_left inside] at present
            exact ⟨charge, present, retained⟩
          · rw [List.getElem?_append_right beyond] at present
            obtain rfl := List.mem_singleton.mp (List.mem_of_getElem? present)
            cases retained
      · intro charge member retained
        rcases List.mem_append.mp member with old | new
        · exact backed.kept.shared charge old retained
        · obtain rfl := List.mem_singleton.mp new
          cases retained
    · intro entry member
      simp only [List.length_set]
      exact backed.opened entry member
  · exact backed
  · obtain ⟨key, chosen, oldest, source, kept, registered, taken, -, rfl⟩ := expired
    obtain ⟨front, retained, rest, present, -, held, rfl⟩ := expire_split taken
    obtain ⟨others, whole, replaced, -⟩ := held_split distinct registered
    have left := replaced { chosen with entries := front ++ retained.expired :: rest }
    rw [present] at whole
    simp only [List.filterMap_append, List.filterMap_cons_some held, List.append_assoc,
      List.cons_append] at whole
    have expiredNone : retained.expired.source = none := rfl
    simp only [List.filterMap_append, List.filterMap_cons_none expiredNone,
      List.append_assoc] at left
    obtain ⟨custody, handed⟩ := (backed.kept.perm (whole.trans List.perm_middle)).give_out
    refine ⟨backed.funded.handed handed rfl rfl rfl, custody.perm left.symm, ?_⟩
    intro entry member
    rcases mem_put member with rfl | ⟨old, -⟩
    · exact backed.opened (key, chosen) (find_mem registered)
    · exact backed.opened entry old

theorem Backed.register (backed : catalog.Backed limits)
    (registered : catalog.register load = some after) : after.Backed limits := by
  unfold Catalog.register at registered
  split at registered
  · cases registered
  · cases registered
    have fresh : ∀ charge ∈ catalog.charges, charge.account ≠ catalog.accounts.length :=
      fun charge member => Nat.ne_of_lt (backed.funded.opened charge member)
    have zero (measure : SourceCharge → Nat) (none : ∀ charge ∈ catalog.charges, measure charge = 0) :
        total measure catalog.charges = 0 := by
      unfold total
      refine List.sum_eq_zero ?_
      intro value member
      obtain ⟨charge, present, rfl⟩ := List.mem_map.mp member
      exact none charge present
    refine ⟨⟨backed.funded.bytes, backed.funded.count, ?_, ?_, ?_, backed.funded.bytesLimit,
      backed.funded.countLimit, ?_, ?_⟩, ?_, ?_⟩
    · intro index account present
      rcases Nat.lt_or_ge index catalog.accounts.length with inside | beyond
      · rw [List.getElem?_append_left inside] at present
        exact backed.funded.accountBytes index account present
      · have place : index = catalog.accounts.length := by
          have bound := (List.getElem?_eq_some_iff.mp present).1
          simp only [List.length_append, List.length_singleton] at bound
          omega
        subst place
        simp only [List.getElem?_concat_length, Option.some.injEq] at present
        rw [← present, zero _ fun charge member => by simp [bytesOf, fresh charge member]]
    · intro index account present
      rcases Nat.lt_or_ge index catalog.accounts.length with inside | beyond
      · rw [List.getElem?_append_left inside] at present
        exact backed.funded.accountCount index account present
      · have place : index = catalog.accounts.length := by
          have bound := (List.getElem?_eq_some_iff.mp present).1
          simp only [List.length_append, List.length_singleton] at bound
          omega
        subst place
        simp only [List.getElem?_concat_length, Option.some.injEq] at present
        rw [← present, zero _ fun charge member => by simp [countOf, fresh charge member]]
    · intro charge member
      have bound := backed.funded.opened charge member
      simp only [List.length_append]
      omega
    · intro account member
      rcases List.mem_append.mp member with old | new
      · exact backed.funded.accountBytesLimit account old
      · obtain rfl := List.mem_singleton.mp new
        exact Nat.zero_le _
    · intro account member
      rcases List.mem_append.mp member with old | new
      · exact backed.funded.accountCountLimit account old
      · obtain rfl := List.mem_singleton.mp new
        exact Nat.zero_le _
    · simpa [heldSources] using backed.kept
    · intro entry member
      simp only [List.length_append, List.length_singleton]
      rcases List.mem_append.mp member with old | new
      · exact Nat.lt_succ_of_lt (backed.opened entry old)
      · obtain rfl := List.mem_singleton.mp new
        exact Nat.lt_succ_self _

theorem Backed.remove (backed : catalog.Backed limits) (distinct : Distinct catalog.loads)
    (load : LoadId) : (catalog.remove load).2.Backed limits := by
  unfold Catalog.remove
  split
  · exact backed
  · rename_i results found
    obtain ⟨others, whole, -, erased⟩ := held_split distinct found
    obtain ⟨kept, handed⟩ := (backed.kept.perm whole).give_out_all
    refine ⟨backed.funded.handed handed rfl rfl rfl, ?_, ?_⟩
    · simpa [erased] using kept
    · exact fun entry member => backed.opened entry (List.mem_of_mem_filter member)

/-- A page that borrows a source adds a holder to a charge the catalog holds. -/
theorem Backed.lookup (backed : catalog.Backed limits) (load : LoadId) (loopId : LoopId) :
    (catalog.lookup load loopId).2.Backed limits := by
  unfold Catalog.lookup
  split
  · exact backed
  · rename_i retained sought
    obtain ⟨results, found, chosen⟩ := Option.bind_eq_some_iff.mp sought
    have member := List.mem_of_find?_eq_some chosen
    cases named : retained.source with
    | none => simpa [named] using backed
    | some source =>
      have held : source ∈ heldSources catalog.loads := by
        refine List.mem_flatMap.mpr ⟨(load, results), find_mem found, ?_⟩
        exact List.mem_filterMap.mpr ⟨retained, member, named⟩
      obtain ⟨charge, present, marked⟩ := backed.kept.charge held
      have modified (change : SourceCharge → SourceCharge) :
          catalog.charges.modify source change = catalog.charges.set source (change charge) := by
        rw [List.modify_eq_set_getElem?, present]
        rfl
      refine ⟨backed.funded.handed ?_ rfl rfl rfl, ?_, backed.opened⟩
      · refine all_handed_modify ?_
        intro other same
        obtain rfl : charge = other := Option.some.inj (present.symm.trans same)
        exact ⟨rfl, rfl, by simp [SourceCharge.live, marked]⟩
      · simp only [modified]
        refine backed.kept.change present rfl ?_
        exact fun _ => backed.kept.shared charge (List.mem_of_getElem? present) marked

omit [DecidableEq LoadId] in
theorem Backed.drop_reference {source : Nat} (backed : catalog.Backed limits)
    (dropped : catalog.dropReference source = some after) : after.Backed limits := by
  refine ⟨backed.funded.drop_reference dropped, ?_, ?_⟩
  · obtain ⟨charge, kept, present, -, rfl, ⟨-, rfl⟩ | ⟨-, rfl⟩⟩ := drop_reference_ok dropped
    all_goals
      refine backed.kept.change present rfl ?_
      exact backed.kept.shared charge (List.mem_of_getElem? present)
  · obtain ⟨charge, kept, present, -, rfl, ⟨-, rfl⟩ | ⟨-, rfl⟩⟩ := drop_reference_ok dropped
    · exact backed.opened
    · intro entry member
      simp only [refund, List.length_modify]
      exact backed.opened entry member

omit [DecidableEq LoadId] in
theorem Backed.finish_reservation {source bytes : Nat} {outcome : Except UnavailableReason Nat}
    (backed : catalog.Backed limits)
    (finished : catalog.finishReservation source bytes = some (outcome, after)) :
    after.Backed limits := by
  have unretained : ∀ charge, catalog.charges[source]? = some charge →
      charge.stage = .granted → charge.retained = false := by
    intro charge present granted
    by_contra marked
    have shared := backed.kept.shared charge (List.mem_of_getElem? present) (by simpa using marked)
    rw [granted] at shared
    cases shared
  refine ⟨backed.funded.finish_reservation unretained finished, ?_, ?_⟩
  · obtain ⟨charge, present, granted, -, ⟨-, -, rfl⟩ | ⟨-, -, rfl⟩⟩ :=
      finish_reservation_ok finished
    all_goals
      refine backed.kept.change present rfl ?_
      intro marked
      rw [unretained charge present granted] at marked
      cases marked
  · obtain ⟨charge, present, granted, -, ⟨-, -, rfl⟩ | ⟨-, -, rfl⟩⟩ :=
      finish_reservation_ok finished
    all_goals
      intro entry member
      simp only [refund, List.length_modify]
      exact backed.opened entry member

theorem step_backed {action : Action LoadId} (backed : catalog.Backed limits)
    (tallied : catalog.Tallied) (advanced : step limits catalog action = some after) :
    after.Backed limits := by
  cases action with
  | register load => exact backed.register advanced
  | remove load =>
    obtain rfl := Option.some.inj advanced
    exact backed.remove tallied.distinct load
  | reserveRound load bytes =>
    simp only [step] at advanced
    split at advanced
    · obtain rfl := Option.some.inj advanced
      exact backed
    · obtain ⟨⟨round, later⟩, passed, rfl⟩ := Option.map_eq_some_iff.mp advanced
      exact backed.reserve_round tallied.distinct passed
  | finishReservation source bytes =>
    obtain ⟨⟨outcome, later⟩, finished, rfl⟩ := Option.map_eq_some_iff.mp advanced
    exact backed.finish_reservation finished
  | insert load entry source metadataBytes =>
    simp only [step] at advanced
    split at advanced
    · rename_i free
      obtain ⟨⟨released, affected, later⟩, inserted, rfl⟩ := Option.map_eq_some_iff.mp advanced
      exact backed.insert tallied free inserted
    · cases advanced
  | lookup load loopId =>
    obtain rfl := Option.some.inj advanced
    exact backed.lookup load loopId
  | drop source => exact backed.drop_reference advanced

theorem reachable_backed (reached : Reachable (step limits) new catalog) :
    catalog.Backed limits := by
  refine (reachable_invariant (fun catalog => (catalog.Tallied ∧ catalog.Limited limits) ∧
    catalog.Backed limits) ?_ ?_ reached).2
  · refine ⟨reachable_tallied ⟨[], rfl⟩, ⟨rfl, rfl, ?_, ?_, ?_, Nat.zero_le _, Nat.zero_le _, ?_, ?_⟩,
      ⟨List.nodup_nil, ?_, ?_⟩, ?_⟩
    all_goals simp [new, heldSources, retainedAt]
  · intro before action after known advanced
    exact ⟨step_tallied known.1 advanced, step_backed known.2 known.1.1 advanced⟩

omit [DecidableEq LoadId] in
theorem candidates_length (loads : List (LoadId × LoadResults)) :
    (candidates loads).length = (heldSources loads).length := by
  have same (entries : List Retained) :
      (entries.filter (·.source.isSome)).length = (entries.filterMap (·.source)).length := by
    induction entries with
    | nil => rfl
    | cons head rest inductionHypothesis =>
      cases source : head.source with
      | none => simpa [source] using inductionHypothesis
      | some held => simpa [source] using inductionHypothesis
  simp only [candidates, heldSources, List.length_flatMap, List.length_map, same]

/-- The sought entry is the only one of its order, so its source is found. -/
theorem expire_some {entries : List Retained} {retained : Retained}
    (increasing : entries.Pairwise (fun first second => first.order < second.order))
    (member : retained ∈ entries) (held : retained.source.isSome = true) :
    ∃ source kept, expire retained.order entries = some (source, kept) := by
  induction entries with
  | nil => cases member
  | cons head rest inductionHypothesis =>
    obtain ⟨first, others⟩ := List.pairwise_cons.mp increasing
    rcases List.mem_cons.mp member with rfl | later
    · obtain ⟨source, named⟩ := Option.isSome_iff_exists.mp held
      exact ⟨source, retained.expired :: rest, by simp [expire, named]⟩
    · obtain ⟨source, kept, found⟩ := inductionHypothesis others later
      have apart : head.order ≠ retained.order := Nat.ne_of_lt (first retained later)
      exact ⟨source, head :: kept, by simp [expire, apart, found]⟩

/-- A round of `reserve` for a registered load never panics. -/
theorem reserve_round_some (tallied : catalog.Tallied) (backed : catalog.Backed limits)
    (found : find catalog.loads load = some results) (bytes : Nat) :
    ∃ round after, catalog.reserveRound limits load bytes = some (round, after) := by
  have inside := backed.opened _ (find_mem found)
  have opened : catalog.accounts[results.account]? = some catalog.accounts[results.account] :=
    List.getElem?_eq_getElem inside
  simp only [reserveRound, found, opened, bind, Option.bind_some, pure]
  split
  · exact ⟨_, _, rfl⟩
  · split
    · exact ⟨_, _, rfl⟩
    · rename_i key oldest chosen
      have member := (List.mem_filter.mp (List.argmin_mem chosen)).1
      obtain ⟨⟨name, holder⟩, registered, listed⟩ := List.mem_flatMap.mp member
      obtain ⟨retained, present, same⟩ := List.mem_map.mp listed
      obtain ⟨inEntries, held⟩ := List.mem_filter.mp present
      obtain ⟨rfl, rfl⟩ := Prod.mk.inj same
      obtain ⟨source, kept, taken⟩ :=
        expire_some (tallied.ordered _ registered).increasing inEntries held
      simp only [mem_find tallied.distinct registered, Option.bind_some, taken]
      exact ⟨_, _, rfl⟩

/-- A round that expires a source leaves one fewer in the catalog, and the caller
holds it. -/
theorem expired_round {bytes source : Nat} {key : LoadId} (tallied : catalog.Tallied)
    (backed : catalog.Backed limits)
    (advanced : catalog.reserveRound limits load bytes = some (.expired key source, after)) :
    (heldSources after.loads).length + 1 = (heldSources catalog.loads).length ∧
      (∃ dropped, after.dropReference source = some dropped) ∧
      ∀ name, (find catalog.loads name).isSome = true → (find after.loads name).isSome = true := by
  obtain ⟨results, account, found, opened, ⟨-, -, -, -, same, -⟩ | ⟨same, -⟩ | expired⟩ :=
    reserve_round_cases advanced
  · cases same
  · cases same
  · obtain ⟨key', chosen, oldest, source', kept, registered, taken, same, rfl⟩ := expired
    cases same
    obtain ⟨front, retained, rest, present, -, held, rfl⟩ := expire_split taken
    obtain ⟨others, whole, replaced, -⟩ := held_split tallied.distinct registered
    have left := (replaced { chosen with entries := front ++ retained.expired :: rest }).length_eq
    have before := whole.length_eq
    have expiredNone : retained.expired.source = none := rfl
    rw [present] at before
    refine ⟨?_, ?_, ?_⟩
    · simp only [List.filterMap_append, List.filterMap_cons_some held,
        List.filterMap_cons_none expiredNone, List.length_append, List.length_cons] at left before
      simp only
      omega
    · have member : source ∈ heldSources catalog.loads := by
        refine List.mem_flatMap.mpr ⟨(key, chosen), find_mem registered, ?_⟩
        exact List.mem_filterMap.mpr ⟨retained, by simp [present], held⟩
      obtain ⟨charge, known, -⟩ := backed.kept.charge member
      have given : (giveOut catalog.charges source)[source]? =
          some { charge with retained := false, outside := charge.outside + 1 } := by
        simp [giveOut, known]
      exact drop_reference_some given (Nat.succ_pos _)
    · intro name known
      obtain ⟨value, present⟩ := Option.isSome_iff_exists.mp known
      refine Option.isSome_iff_ne_none.mpr ?_
      intro absent
      by_cases here : name = key
      · subst here
        simp only at absent
        rw [find_put_self registered] at absent
        cases absent
      · refine find_none_iff.mp absent (name, value) ?_ rfl
        exact List.mem_map.mpr ⟨(name, value), find_mem present, by simp [here]⟩

/-- `reserve` ends after at most one round for every source the catalog holds. -/
theorem reserve_loop_ends (fuel : Nat) (bytes : Nat) (tallied : catalog.Tallied)
    (limited : catalog.Limited limits) (backed : catalog.Backed limits)
    (registered : (find catalog.loads load).isSome = true)
    (enough : (heldSources catalog.loads).length < fuel) :
    ∃ outcome after, reserveLoop limits load bytes fuel catalog = some (outcome, after) := by
  induction fuel generalizing catalog with
  | zero => omega
  | succ fuel inductionHypothesis =>
    obtain ⟨results, found⟩ := Option.isSome_iff_exists.mp registered
    obtain ⟨round, next, advanced⟩ := reserve_round_some tallied backed found bytes
    unfold reserveLoop
    rw [advanced]
    cases round with
    | granted source => exact ⟨_, _, rfl⟩
    | refused reason => exact ⟨_, _, rfl⟩
    | expired key source =>
      obtain ⟨fewer, ⟨dropped, gone⟩, stays⟩ := expired_round tallied backed advanced
      obtain ⟨nextTallied, nextLimited⟩ := tallied.reserve_round limited advanced
      have nextBacked := backed.reserve_round tallied.distinct advanced
      have same := drop_same gone
      simp only [gone, Option.bind_some]
      refine inductionHypothesis
        (nextTallied.same same.loads same.order same.entries same.metadata)
        (nextLimited.same same.loads same.entries same.metadata)
        (nextBacked.drop_reference gone) ?_ ?_
      · rw [same.loads]
        exact stays load registered
      · rw [same.loads]
        omega

/-- The step is a round of `reserve` that expires a source and goes round again. -/
def expires (limits : ResultLimits) (catalog : Catalog LoadId) : Action LoadId → Bool
  | .reserveRound load bytes =>
    match catalog.reserveRound limits load bytes with
    | some (.expired _ _, _) => decide (bytes ≤ limits.sourceBytesPerLoad)
    | _ => false
  | _ => false

/-- How many rounds along the actions went round again. -/
def expiries (limits : ResultLimits) : Catalog LoadId → List (Action LoadId) → Nat
  | _, [] => 0
  | catalog, action :: rest =>
    (if catalog.expires limits action then 1 else 0) +
      match step limits catalog action with
      | none => 0
      | some next => expiries limits next rest

/-- The step puts a source into the catalog. -/
def gives : Action LoadId → Bool
  | .insert _ _ source _ => source.isSome
  | _ => false

theorem held_pop {oldest : Retained} (tallied : catalog.Tallied)
    (popped : catalog.popFront load = some (oldest, after)) :
    (heldSources after.loads).length ≤ (heldSources catalog.loads).length := by
  obtain ⟨results, rest, found, present, rfl⟩ := pop_front_ok popped
  obtain ⟨others, whole, replaced, -⟩ := held_split tallied.distinct found
  have left := (replaced { results with entries := rest }).length_eq
  have before := whole.length_eq
  rw [present, List.length_append] at before
  rw [List.length_append] at left
  have fewer : (rest.filterMap (·.source)).length ≤
      ((oldest :: rest).filterMap (·.source)).length :=
    ((List.sublist_cons_self oldest rest).filterMap _).length_le
  simp only [withoutFront] at left ⊢
  omega

theorem held_push {entry : CompletionEntry} {source : Option Nat} {metadataBytes : Nat}
    (tallied : catalog.Tallied)
    (pushed : catalog.push load entry source metadataBytes = some after) :
    (heldSources after.loads).length =
      (heldSources catalog.loads).length + if source.isSome then 1 else 0 := by
  obtain ⟨results, found, rfl⟩ := push_ok pushed
  obtain ⟨others, whole, replaced, -⟩ := held_split tallied.distinct found
  have left := (replaced { results with
    through := results.through + 1
    entries := results.entries ++
      [{ entry := numbered entry (results.through + 1), source := source
         order := catalog.order + 1, metadataBytes := metadataBytes }]
    logged := results.logged ++ [numbered entry (results.through + 1)] }).length_eq
  have before := whole.length_eq
  simp only [List.filterMap_append, List.length_append] at left before
  cases source with
  | none =>
    simp at left
    simp
    omega
  | some source =>
    simp at left
    simp
    omega

/-- Every step that goes round again uses up a held source, and only an insertion
adds one. -/
theorem step_held {action : Action LoadId} (tallied : catalog.Tallied)
    (backed : catalog.Backed limits) (advanced : step limits catalog action = some after) :
    (heldSources after.loads).length + (if catalog.expires limits action then 1 else 0) ≤
      (heldSources catalog.loads).length + if gives action then 1 else 0 := by
  cases action with
  | register load =>
    simp only [step, register] at advanced
    split at advanced
    · cases advanced
    · cases advanced
      simp [heldSources, expires, gives]
  | remove load =>
    obtain rfl := Option.some.inj advanced
    simp only [remove, expires, gives]
    split
    · simp
    · rename_i results found
      obtain ⟨others, whole, -, erased⟩ := held_split tallied.distinct found
      have before := whole.length_eq
      rw [List.length_append] at before
      simp [erased]
      omega
  | reserveRound load bytes =>
    simp only [step] at advanced
    split at advanced
    · rename_i large
      obtain rfl := Option.some.inj advanced
      have refused : catalog.expires limits (.reserveRound load bytes) = false := by
        simp only [expires]
        split
        · simpa using large
        · rfl
      simp [refused]
    · obtain ⟨⟨round, later⟩, passed, rfl⟩ := Option.map_eq_some_iff.mp advanced
      simp only [expires, passed, gives]
      cases round with
      | expired key source =>
        have fewer := (expired_round tallied backed passed).1
        split_ifs <;> omega
      | granted source =>
        obtain ⟨_, _, -, -, ⟨-, -, -, -, -, rfl⟩ | ⟨same, -⟩ | ⟨_, _, _, _, _, -, -, same, -⟩⟩ :=
          reserve_round_cases passed
        · simp
        · cases same
        · cases same
      | refused reason =>
        obtain ⟨_, _, -, -, ⟨-, -, -, -, same, -⟩ | ⟨-, rfl⟩ | ⟨_, _, _, _, _, -, -, same, -⟩⟩ :=
          reserve_round_cases passed
        · cases same
        · simp
        · cases same
  | finishReservation source bytes =>
    obtain ⟨⟨outcome, later⟩, finished, rfl⟩ := Option.map_eq_some_iff.mp advanced
    simp [(finish_same finished).loads, expires, gives]
  | insert load entry source metadataBytes =>
    simp only [step] at advanced
    split at advanced
    · obtain ⟨⟨released, affected, later⟩, inserted, rfl⟩ := Option.map_eq_some_iff.mp advanced
      unfold Catalog.insert at inserted
      split at inserted
      · cases inserted
      · rename_i next pushed
        obtain ⟨⟨_, _, final⟩, ended, same⟩ := Option.map_eq_some_iff.mp inserted
        cases same
        have kept := evict_loop_keeps (fun catalog => catalog.Tallied ∧
          (heldSources catalog.loads).length ≤ (heldSources next.loads).length) (by
            intro before candidate oldest later known gone
            exact ⟨known.1.pop_front gone, Nat.le_trans (held_pop known.1 gone) known.2⟩) _
          ⟨tallied.push pushed, Nat.le_refl _⟩ ended
        have grown := held_push tallied pushed
        have bound := kept.2
        cases source with
        | none =>
          simp [expires, gives] at grown ⊢
          omega
        | some source =>
          simp [expires, gives] at grown ⊢
          omega
    · cases advanced
  | lookup load loopId =>
    obtain rfl := Option.some.inj advanced
    simp [(lookup_same catalog load loopId).loads, expires, gives]
  | drop source => simp [(drop_same advanced).loads, expires, gives]

/-- Along any interleaving the rounds that go round again are at most as many as
the sources held at the start and inserted since. -/
theorem run_expiries (actions : List (Action LoadId)) (tallied : catalog.Tallied)
    (limited : catalog.Limited limits) (backed : catalog.Backed limits)
    (completed : run (step limits) catalog actions = some after) :
    (heldSources after.loads).length + expiries limits catalog actions ≤
      (heldSources catalog.loads).length + actions.countP gives := by
  induction actions generalizing catalog with
  | nil =>
    obtain rfl := Option.some.inj completed
    simp [expiries]
  | cons action rest inductionHypothesis =>
    simp only [run, Option.bind_eq_some_iff] at completed
    obtain ⟨next, advanced, remaining⟩ := completed
    obtain ⟨nextTallied, nextLimited⟩ := step_tallied ⟨tallied, limited⟩ advanced
    have later := inductionHypothesis nextTallied nextLimited
      (step_backed backed tallied advanced) remaining
    have now := step_held tallied backed advanced
    simp only [expiries, advanced, List.countP_cons]
    omega

/-- An entry is told to be live exactly while it holds its source. -/
def Told (catalog : Catalog LoadId) : Prop :=
  ∀ entry ∈ catalog.loads, ∀ retained ∈ entry.2.entries,
    retained.entry.availability = .live ↔ retained.source.isSome = true

/-- The callers of `insert` name an entry live exactly when they hand a source
over. -/
def offered : Catalog LoadId → Action LoadId → Bool
  | _, .insert _ entry source _ => decide (entry.availability = .live) == source.isSome
  | _, _ => true

omit [DecidableEq LoadId] in
/-- A finished turn offers its source only when it could not be stored, and then
names the entry live. -/
theorem complete_turn_offers (session : SessionState.Session) (turn : LoopId)
    (report : SessionState.Session.TurnReport) (evicted : Nat) (source : Option Nat)
    (retained : report.sourceRetained = source.isSome)
    (unsaved : source.isSome = true → report.persistence ≠ .persisted) :
    ∃ entry, (session.completeTurn turn report evicted).2.results =
        session.results.insert entry evicted ∧
      ∀ (load : LoadId) metadataBytes catalog,
        offered catalog (.insert load entry source metadataBytes) = true := by
  refine ⟨_, rfl, ?_⟩
  intro load metadataBytes catalog
  simp only [offered, beq_iff_eq]
  cases source with
  | none =>
    by_cases saved : report.persistence = .persisted
    · simp [saved]
    · simp [saved, retained]
  | some source => simp [unsaved rfl, retained]

omit [DecidableEq LoadId] in
/-- An internal error offers no source and names the entry unavailable. -/
theorem publish_internal_offers (session : SessionState.Session) (turn : LoopId)
    (evicted : Nat) :
    ∃ entry, (session.publishInternal turn evicted).results =
        session.results.insert entry evicted ∧
      ∀ (load : LoadId) metadataBytes catalog,
        offered catalog (.insert load entry none metadataBytes) = true :=
  ⟨_, rfl, fun _ _ _ => rfl⟩

theorem Told.pop_front {oldest : Retained} (told : catalog.Told)
    (popped : catalog.popFront load = some (oldest, after)) : after.Told := by
  obtain ⟨results, rest, found, present, rfl⟩ := pop_front_ok popped
  intro entry member retained kept
  rcases mem_put member with rfl | ⟨old, -⟩
  · exact told (load, results) (find_mem found) retained
      (by rw [present]; exact List.mem_cons_of_mem oldest kept)
  · exact told entry old retained kept

theorem Told.push {entry : CompletionEntry} {source : Option Nat} {metadataBytes : Nat}
    (told : catalog.Told) (named : entry.availability = .live ↔ source.isSome = true)
    (pushed : catalog.push load entry source metadataBytes = some after) : after.Told := by
  obtain ⟨results, found, rfl⟩ := push_ok pushed
  intro held member retained kept
  rcases mem_put member with rfl | ⟨old, -⟩
  · rcases List.mem_append.mp kept with earlier | latest
    · exact told (load, results) (find_mem found) retained earlier
    · obtain rfl := List.mem_singleton.mp latest
      exact named
  · exact told held old retained kept

theorem Told.expire {oldest source : Nat} {kept : List Retained} (told : catalog.Told)
    (found : find catalog.loads load = some results)
    (taken : Catalog.expire oldest results.entries = some (source, kept))
    (loads : after.loads = put catalog.loads load { results with entries := kept }) :
    after.Told := by
  obtain ⟨front, expired, rest, present, -, -, rfl⟩ := expire_split taken
  intro entry member retained held
  rw [loads] at member
  rcases mem_put member with rfl | ⟨old, -⟩
  · rcases List.mem_append.mp held with earlier | later
    · exact told (load, results) (find_mem found) retained (by simp [present, earlier])
    · rcases List.mem_cons.mp later with rfl | behind
      · simp [Retained.expired, expiredEntry]
      · exact told (load, results) (find_mem found) retained (by simp [present, behind])
  · exact told entry old retained held

theorem step_told {action : Action LoadId} (told : catalog.Told)
    (allowed : offered catalog action = true)
    (advanced : step limits catalog action = some after) : after.Told := by
  have framed {later : Catalog LoadId} (same : later.loads = catalog.loads) : later.Told := by
    intro entry member
    rw [same] at member
    exact told entry member
  cases action with
  | register load =>
    simp only [step, register] at advanced
    split at advanced
    · cases advanced
    · cases advanced
      intro entry member retained kept
      rcases List.mem_append.mp member with old | new
      · exact told entry old retained kept
      · obtain rfl := List.mem_singleton.mp new
        cases kept
  | remove load =>
    obtain rfl := Option.some.inj advanced
    unfold Catalog.remove
    split
    · exact told
    · exact fun entry member => told entry (List.mem_of_mem_filter member)
  | reserveRound load bytes =>
    simp only [step] at advanced
    split at advanced
    · obtain rfl := Option.some.inj advanced
      exact told
    · obtain ⟨⟨round, later⟩, passed, rfl⟩ := Option.map_eq_some_iff.mp advanced
      obtain ⟨_, _, -, -, ⟨-, -, -, -, -, rfl⟩ | ⟨-, rfl⟩ | expired⟩ := reserve_round_cases passed
      · exact told
      · exact told
      · obtain ⟨key, chosen, oldest, source, kept, found, taken, -, rfl⟩ := expired
        exact told.expire found taken rfl
  | finishReservation source bytes =>
    obtain ⟨⟨outcome, later⟩, finished, rfl⟩ := Option.map_eq_some_iff.mp advanced
    exact framed (finish_same finished).loads
  | insert load entry source metadataBytes =>
    simp only [step] at advanced
    split at advanced
    · obtain ⟨⟨released, affected, later⟩, inserted, rfl⟩ := Option.map_eq_some_iff.mp advanced
      have named : entry.availability = .live ↔ source.isSome = true := by
        simp only [offered, beq_iff_eq] at allowed
        rw [← allowed, decide_eq_true_eq]
      unfold Catalog.insert at inserted
      split at inserted
      · cases inserted
      · rename_i next pushed
        obtain ⟨⟨_, _, final⟩, ended, same⟩ := Option.map_eq_some_iff.mp inserted
        cases same
        exact evict_loop_keeps Told (fun _ _ _ _ known gone => known.pop_front gone) _
          (told.push named pushed) ended
    · cases advanced
  | lookup load loopId =>
    obtain rfl := Option.some.inj advanced
    exact framed (lookup_same catalog load loopId).loads
  | drop source => exact framed (drop_same advanced).loads

theorem reachable_told (reached : Reachable (guarded offered (step limits)) new catalog) :
    catalog.Told := by
  refine reachable_invariant Told ?_ ?_ reached
  · intro entry member
    cases member
  · intro before action after told advanced
    obtain ⟨allowed, advanced⟩ := guarded_some advanced
    exact step_told told allowed advanced

/-- The source budget is exact. In every state the catalog reaches, the global
and the per-load byte and count totals are the sums over the charges that are
not dropped, whoever holds them, and within their limits; every charge that will
still be given back is part of each total it is taken from. `reserve` on a
registered load returns, and where other operations interleave with its rounds
it goes round again at most once for every source held before or inserted since.
And an entry is reported live exactly while it holds a source, whose charge is
then not dropped. -/
theorem source_budget_is_exact (limits : ResultLimits) (catalog : Catalog LoadId)
    (reached : Reachable (guarded offered (step limits)) new catalog) :
    (catalog.sourceBytes = total heldBytes catalog.charges ∧
      catalog.sourceCount = total heldCount catalog.charges ∧
      catalog.sourceBytes ≤ limits.allSourceBytes ∧ catalog.sourceCount ≤ limits.sources) ∧
    (∀ index account, catalog.accounts[index]? = some account →
      account.bytes = total (bytesOf index) catalog.charges ∧
      account.count = total (countOf index) catalog.charges ∧
      account.bytes ≤ limits.sourceBytesPerLoad ∧ account.count ≤ limits.sourcesPerLoad) ∧
    (∀ (source : Nat) charge, catalog.charges[source]? = some charge → charge.live = true →
      ∃ account, catalog.accounts[charge.account]? = some account ∧
        charge.bytes ≤ catalog.sourceBytes ∧ 1 ≤ catalog.sourceCount ∧
        charge.bytes ≤ account.bytes ∧ 1 ≤ account.count) ∧
    (∀ load bytes, (find catalog.loads load).isSome = true →
      ∃ outcome after, catalog.reserve limits load bytes = some (outcome, after)) ∧
    (∀ actions after, run (step limits) catalog actions = some after →
      expiries limits catalog actions ≤
        (heldSources catalog.loads).length + actions.countP gives) ∧
    ∀ load results retained, find catalog.loads load = some results →
      retained ∈ results.entries →
      (retained.entry.availability = .live ↔ retained.source.isSome = true) ∧
      ∀ source, retained.source = some source →
        ∃ charge, catalog.charges[source]? = some charge ∧ charge.live = true := by
  have plain := reachable_of_guarded reached
  obtain ⟨tallied, limited⟩ := reachable_tallied plain
  have backed := reachable_backed plain
  have funded := backed.funded
  refine ⟨⟨funded.bytes, funded.count, funded.bytesLimit, funded.countLimit⟩, ?_, ?_, ?_, ?_, ?_⟩
  · intro index account present
    exact ⟨funded.accountBytes index account present, funded.accountCount index account present,
      funded.accountBytesLimit account (List.mem_of_getElem? present),
      funded.accountCountLimit account (List.mem_of_getElem? present)⟩
  · intro source charge present live
    have opened := funded.opened charge (List.mem_of_getElem? present)
    have known : catalog.accounts[charge.account]? = some catalog.accounts[charge.account] :=
      List.getElem?_eq_getElem opened
    exact ⟨_, known, funded.charge_le present live known⟩
  · intro load bytes registered
    unfold reserve
    by_cases large : limits.sourceBytesPerLoad < bytes
    · exact ⟨_, _, if_pos large⟩
    · rw [if_neg large]
      refine reserve_loop_ends _ bytes tallied limited backed registered ?_
      rw [candidates_length]
      exact Nat.lt_succ_self _
  · intro actions after completed
    have bound := run_expiries actions tallied limited backed completed
    omega
  · intro load results retained found member
    refine ⟨reachable_told reached _ (find_mem found) retained member, ?_⟩
    intro source named
    have held : source ∈ heldSources catalog.loads := by
      refine List.mem_flatMap.mpr ⟨(load, results), find_mem found, ?_⟩
      exact List.mem_filterMap.mpr ⟨retained, member, named⟩
    obtain ⟨charge, present, marked⟩ := backed.kept.charge held
    exact ⟨charge, present, by simp [SourceCharge.live, marked]⟩

end Catalog

/-- Limits that keep one entry in the whole catalog. -/
def singleEntry : ResultLimits := { ResultLimits.standard with entries := 1 }

def liveCompletion : CompletionEntry :=
  { internalCompletion with
    completionKind := .reported, outcomeKind := some .completed, persistence := some .failed
    availability := .live, unavailableReason := none }

/-- A page borrows a source, another load's completion evicts its entry and the
load is removed. -/
def pageOutlivesEntry : List (Action Nat) :=
  [.register 1, .register 2, .reserveRound 1 100, .finishReservation 0 60,
    .insert 1 liveCompletion (some 0) 100, .lookup 1 0, .insert 2 internalCompletion none 100,
    .drop 0, .remove 1]

/-- The page still pays for its source, shrunk to what it needed. -/
theorem page_keeps_its_charge :
    (replay (guarded Catalog.offered (step singleEntry)) Catalog.new pageOutlivesEntry).sourceBytes
      = 60 := by
  have exact := (Catalog.source_budget_is_exact singleEntry _ (reachable_replay
    (show (run (guarded Catalog.offered (step singleEntry)) Catalog.new
      pageOutlivesEntry).isSome = true by decide))).1.1
  rw [exact]
  decide

end MinicoreAgent.ResultCatalog

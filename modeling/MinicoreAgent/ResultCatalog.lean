import Mathlib.Data.List.MinMax
import MinicoreAgent.Lib.Keyed
import MinicoreAgent.Lib.Runs
import MinicoreAgent.Lib.Slots
import MinicoreAgent.SessionState

/-!
# The catalog of turn results

`ResultCatalog` of `sessions/results.rs`: for every load the retained completion
entries, and for the results that could not be stored their sources, which are
paid for by byte and count charges. Every function below is one section under
the catalog's lock, or one drop of a shared source.

The counters a charge is counted in are shared between the catalog and the
charge itself, so they outlive the load: they are accounts addressed by
position, one pair for each registration. A charge knows whether an entry of the
catalog holds it and how many holders it has outside: the reservation in flight,
pages that read it, and the lists of released sources not yet dropped. The
memory a retained entry takes is decided by the allocator and comes as an
argument. What each load was ever given is kept in a log that nothing reads.
-/
namespace MinicoreAgent.ResultCatalog

open SessionState (LoopId CompletionEntry CompletionWindow UnavailableReason)
open Keyed Runs Slots

variable {LoadId : Type} [DecidableEq LoadId]

/-- `ResultLimits`. The counts are machine words, and the two byte limits lie
below the largest one, as every set of limits the program builds does, so that a
saturated sum exceeds them. -/
structure ResultLimits where
  entriesPerLoad : Nat
  entries : Nat
  metadataBytes : Nat
  sourceBytesPerLoad : Nat
  sourcesPerLoad : Nat
  allSourceBytes : Nat
  sources : Nat
  perLoadBelow : sourceBytesPerLoad < u64Max
  allBelow : allSourceBytes < u64Max
  perLoadCount : sourcesPerLoad ≤ u64Max
  allCount : sources ≤ u64Max

/-- The limits of `ResultLimits::default`. -/
def ResultLimits.standard : ResultLimits where
  entriesPerLoad := 256
  entries := 4096
  metadataBytes := 8 * 1024 * 1024
  sourceBytesPerLoad := 64 * 1024 * 1024
  sourcesPerLoad := 32
  allSourceBytes := 256 * 1024 * 1024
  sources := 128
  perLoadBelow := by decide
  allBelow := by decide
  perLoadCount := by decide
  allCount := by decide

/-- `usize` subtraction and `fetch_sub`, which wrap. -/
def wrappingSub (total amount : Nat) : Nat :=
  if amount ≤ total then total - amount else total + UInt64.size - amount

/-- `fetch_add`, which wraps. -/
def wrappingAdd (total amount : Nat) : Nat := (total + amount) % UInt64.size

/-- `usize::saturating_add`. -/
def saturatingAdd (total amount : Nat) : Nat := min (total + amount) u64Max

/-- `checked_add(1).expect`. -/
def expectSucc (counter : Nat) : Option Nat :=
  if counter < u64Max then some (counter + 1) else none

theorem expect_succ_some {counter next : Nat} (added : expectSucc counter = some next) :
    next = counter + 1 := by
  unfold expectSucc at added
  split at added
  · exact (Option.some.inj added).symm
  · cases added

/-- How far a charge has come: granted by `reserve`, bound to its source by
`finish_reservation`, or shared as part of a `ResultSource`. -/
inductive Stage
  | granted
  | bound
  | shared
  deriving DecidableEq, Repr

/-- A `SourceCharge` and who holds it. -/
structure SourceCharge where
  bytes : Nat
  account : Nat
  stage : Stage
  retained : Bool
  outside : Nat
  deriving DecidableEq, Repr

/-- Not dropped yet. -/
def SourceCharge.live (charge : SourceCharge) : Bool := charge.retained || 0 < charge.outside

/-- One holder outside fewer. -/
def SourceCharge.letGo (charge : SourceCharge) : SourceCharge :=
  { charge with outside := charge.outside - 1 }

/-- A pair of counters shared by a registration and its charges. -/
structure Account where
  bytes : Nat
  count : Nat
  deriving DecidableEq, Repr

/-- `Retained`; the source is named by its charge. -/
structure Retained where
  entry : CompletionEntry
  source : Option Nat
  order : Nat
  metadataBytes : Nat
  deriving DecidableEq, Repr

/-- What a completion is told to be once its source is gone. -/
def expiredEntry (entry : CompletionEntry) : CompletionEntry :=
  { entry with availability := .unavailable, unavailableReason := some .expired }

/-- `reserve` takes the source of an entry. -/
def Retained.expired (retained : Retained) : Retained :=
  { retained with source := none, entry := expiredEntry retained.entry }

/-- `LoadResults`, with the log of every entry the load was given. -/
structure LoadResults where
  through : Nat
  entries : List Retained
  account : Nat
  logged : List CompletionEntry
  deriving DecidableEq, Repr

/-- `CatalogState` with the counters of `ResultCatalog`. -/
structure Catalog (LoadId : Type) where
  loads : List (LoadId × LoadResults)
  order : Nat
  metadataBytes : Nat
  entries : Nat
  sourceBytes : Nat
  sourceCount : Nat
  accounts : List Account
  charges : List SourceCharge

namespace Catalog

def new : Catalog LoadId where
  loads := []
  order := 0
  metadataBytes := 0
  entries := 0
  sourceBytes := 0
  sourceCount := 0
  accounts := []
  charges := []

/-- An entry of the catalog lets its source go: the reference moves out to the
caller, which drops it after the lock. -/
def giveOut (charges : List SourceCharge) (source : Option Nat) : List SourceCharge :=
  match source with
  | none => charges
  | some source =>
    charges.modify source (fun charge =>
      { charge with retained := false, outside := charge.outside + 1 })

/-- `register`. A load is drawn afresh for every Session, so it is not
registered yet. -/
def register (catalog : Catalog LoadId) (load : LoadId) : Option (Catalog LoadId) :=
  match find catalog.loads load with
  | some _ => none
  | none =>
    let results : LoadResults :=
      { through := 0, entries := [], account := catalog.accounts.length, logged := [] }
    some { catalog with
      loads := catalog.loads ++ [(load, results)]
      accounts := catalog.accounts ++ [{ bytes := 0, count := 0 }] }

/-- `remove`: the sources of the load and the catalog without it. -/
def remove (catalog : Catalog LoadId) (load : LoadId) : List Nat × Catalog LoadId :=
  match find catalog.loads load with
  | none => ([], catalog)
  | some results =>
    let released := results.entries.filterMap (·.source)
    (released,
      { catalog with
        loads := erase catalog.loads load
        entries := wrappingSub catalog.entries results.entries.length
        metadataBytes :=
          wrappingSub catalog.metadataBytes (total (·.metadataBytes) results.entries)
        charges := released.foldl (fun charges source => giveOut charges (some source))
          catalog.charges })

/-- `SourceCharge::drop`. -/
def refund (catalog : Catalog LoadId) (charge : SourceCharge) : Catalog LoadId :=
  { catalog with
    sourceBytes := wrappingSub catalog.sourceBytes charge.bytes
    sourceCount := wrappingSub catalog.sourceCount 1
    accounts := catalog.accounts.modify charge.account (fun account =>
      { bytes := wrappingSub account.bytes charge.bytes
        count := wrappingSub account.count 1 }) }

/-- A holder outside the catalog drops its reference; the last one drops the
charge. -/
def dropReference (catalog : Catalog LoadId) (source : Nat) : Option (Catalog LoadId) :=
  match catalog.charges[source]? with
  | none => none
  | some charge =>
    if charge.outside = 0 then none
    else if charge.letGo.live then
      some { catalog with charges := catalog.charges.set source charge.letGo }
    else some ({ catalog with charges := catalog.charges.set source charge.letGo }.refund charge)

/-- The entries that hold a source, with the load and the order `reserve`
compares them by. -/
def candidates (loads : List (LoadId × LoadResults)) : List (LoadId × Nat) :=
  loads.flatMap (fun entry =>
    (entry.2.entries.filter (·.source.isSome)).map (fun retained => (entry.1, retained.order)))

/-- The first entry of that order loses its source. -/
def expire (order : Nat) : List Retained → Option (Nat × List Retained)
  | [] => none
  | retained :: rest =>
    if retained.order = order then
      retained.source.map fun source => (source, retained.expired :: rest)
    else (expire order rest).map fun found => (found.1, retained :: found.2)

/-- What one round of `reserve` ends in. -/
inductive Round (LoadId : Type)
  | granted (source : Nat)
  | expired (load : LoadId) (source : Nat)
  | refused (reason : UnavailableReason)

/-- One round of `reserve` under the lock. It is undefined where the source
panics. -/
def reserveRound (limits : ResultLimits) (catalog : Catalog LoadId) (load : LoadId)
    (bytes : Nat) : Option (Round LoadId × Catalog LoadId) := do
  let results ← find catalog.loads load
  let account ← catalog.accounts[results.account]?
  let localFull := limits.sourcesPerLoad ≤ account.count ||
    limits.sourceBytesPerLoad < saturatingAdd account.bytes bytes
  let globalFull := limits.sources ≤ catalog.sourceCount ||
    limits.allSourceBytes < saturatingAdd catalog.sourceBytes bytes
  if !localFull && !globalFull then
    let charge : SourceCharge :=
      { bytes := bytes, account := results.account, stage := .granted, retained := false
        outside := 1 }
    return (.granted catalog.charges.length,
      { catalog with
        sourceBytes := wrappingAdd catalog.sourceBytes bytes
        sourceCount := wrappingAdd catalog.sourceCount 1
        accounts := catalog.accounts.set results.account
          { bytes := wrappingAdd account.bytes bytes, count := wrappingAdd account.count 1 }
        charges := catalog.charges ++ [charge] })
  else
    match ((candidates catalog.loads).filter
        (fun candidate => !localFull || decide (candidate.1 = load))).argmin (·.2) with
    | none => return (.refused .resourceLimit, catalog)
    | some (key, oldest) =>
      let chosen ← find catalog.loads key
      let (source, entries) ← expire oldest chosen.entries
      return (.expired key source,
        { catalog with
          loads := put catalog.loads key { chosen with entries := entries }
          charges := giveOut catalog.charges (some source) })

/-- The loop of `reserve` without interference: an expired source is dropped after
the lock and the limits are looked at again. -/
def reserveLoop (limits : ResultLimits) (load : LoadId) (bytes : Nat) : Nat → Catalog LoadId →
    Option (Except UnavailableReason Nat × Catalog LoadId)
  | 0, _ => none
  | fuel + 1, catalog =>
    match catalog.reserveRound limits load bytes with
    | none => none
    | some (.granted source, next) => some (.ok source, next)
    | some (.refused reason, next) => some (.error reason, next)
    | some (.expired _ source, next) =>
      (next.dropReference source).bind (reserveLoop limits load bytes fuel)

/-- `reserve`. The fuel is one round for every source an entry holds and one to
stop. -/
def reserve (limits : ResultLimits) (catalog : Catalog LoadId) (load : LoadId) (bytes : Nat) :
    Option (Except UnavailableReason Nat × Catalog LoadId) :=
  if limits.sourceBytesPerLoad < bytes then some (.error .tooLarge, catalog)
  else reserveLoop limits load bytes ((candidates catalog.loads).length + 1) catalog

/-- `finish_reservation` for a source of the given size: the charge shrinks to
it, or is dropped when the source turned out larger. -/
def finishReservation (catalog : Catalog LoadId) (source bytes : Nat) :
    Option (Except UnavailableReason Nat × Catalog LoadId) :=
  match catalog.charges[source]? with
  | none => none
  | some charge =>
    if charge.stage ≠ .granted ∨ charge.outside = 0 then none
    else if charge.bytes < bytes then
      some (.error .tooLarge,
        { catalog with
          charges := catalog.charges.set source { charge with outside := 0 } }.refund charge)
    else
      let excess := charge.bytes - bytes
      some (.ok source,
        { catalog with
          sourceBytes := wrappingSub catalog.sourceBytes excess
          accounts := catalog.accounts.modify charge.account (fun account =>
            { account with bytes := wrappingSub account.bytes excess })
          charges := catalog.charges.set source
            { charge with bytes := bytes, stage := .bound } })

/-- The front entry of every load, by the load and its order. -/
def fronts (loads : List (LoadId × LoadResults)) : List (LoadId × Nat) :=
  loads.filterMap (fun entry => entry.2.entries.head?.map (fun front => (entry.1, front.order)))

/-- The catalog after a load took off its oldest entry. -/
def withoutFront (catalog : Catalog LoadId) (load : LoadId) (results : LoadResults)
    (oldest : Retained) (rest : List Retained) : Catalog LoadId :=
  { catalog with
    loads := put catalog.loads load { results with entries := rest }
    entries := wrappingSub catalog.entries 1
    metadataBytes := wrappingSub catalog.metadataBytes oldest.metadataBytes
    charges := giveOut catalog.charges oldest.source }

/-- `pop_front` on the entries of a load. -/
def popFront (catalog : Catalog LoadId) (load : LoadId) :
    Option (Retained × Catalog LoadId) :=
  match find catalog.loads load with
  | none => none
  | some results =>
    match results.entries with
    | [] => none
    | oldest :: rest => some (oldest, catalog.withoutFront load results oldest rest)

/-- The check at the head of the eviction loop: the load whose oldest entry has
to go, or nothing. Undefined where the source would panic. -/
def victim (limits : ResultLimits) (catalog : Catalog LoadId) (load : LoadId) :
    Option (Option LoadId) :=
  match find catalog.loads load with
  | none => none
  | some results =>
    if limits.entriesPerLoad < results.entries.length then some (some load)
    else if catalog.entries ≤ limits.entries ∧ catalog.metadataBytes ≤ limits.metadataBytes then
      some none
    else ((fronts catalog.loads).argmin (·.2)).map (fun front => some front.1)

/-- The eviction loop of `insert`: the sources let go and the loads that lost an
entry, in order. -/
def evictLoop (limits : ResultLimits) (load : LoadId) : Nat → Catalog LoadId →
    Option (List Nat × List LoadId × Catalog LoadId)
  | 0, _ => none
  | fuel + 1, catalog =>
    match victim limits catalog load with
    | none => none
    | some none => some ([], [], catalog)
    | some (some candidate) =>
      match catalog.popFront candidate with
      | none => none
      | some (oldest, next) =>
        (evictLoop limits load fuel next).map fun (released, affected, final) =>
          (oldest.source.toList ++ released, candidate :: affected, final)

/-- The charges after an entry took its source over. -/
def takeIn (charges : List SourceCharge) : Option Nat → List SourceCharge
  | none => charges
  | some source =>
    charges.modify source (fun charge =>
      { charge with stage := .shared, retained := true, outside := charge.outside - 1 })

/-- The entry as it is numbered and pushed. -/
def numbered (entry : CompletionEntry) (seq : Nat) : CompletionEntry := { entry with seq := seq }

/-- The first half of `insert`: the entry gets the next number and the next
order and is pushed at the back. Both counters are checked. -/
def push (catalog : Catalog LoadId) (load : LoadId) (entry : CompletionEntry)
    (source : Option Nat) (metadataBytes : Nat) : Option (Catalog LoadId) := do
  let order ← expectSucc catalog.order
  let results ← find catalog.loads load
  let through ← expectSucc results.through
  let retained : Retained :=
    { entry := numbered entry through, source := source, order := order
      metadataBytes := metadataBytes }
  return { catalog with
    order := order
    loads := put catalog.loads load
      { results with
        through := through
        entries := results.entries ++ [retained]
        logged := results.logged ++ [numbered entry through] }
    entries := catalog.entries + 1
    metadataBytes := catalog.metadataBytes + metadataBytes
    charges := takeIn catalog.charges source }

/-- How many entries the catalog holds. -/
def size (loads : List (LoadId × LoadResults)) : Nat := total (·.2.entries.length) loads

/-- `insert`: the sources the caller has to drop, the loads to mark, and the
catalog. The fuel is one round for every entry and one to stop. -/
def insert (limits : ResultLimits) (catalog : Catalog LoadId) (load : LoadId)
    (entry : CompletionEntry) (source : Option Nat) (metadataBytes : Nat) :
    Option (List Nat × List LoadId × Catalog LoadId) :=
  match catalog.push load entry source metadataBytes with
  | none => none
  | some pushed =>
    (evictLoop limits load (size pushed.loads + 1) pushed).map
      fun (released, affected, final) => (released, load :: affected, final)

/-- `window`; the successor of the last number is only needed, and only checked,
when no entry is retained. -/
def window (catalog : Catalog LoadId) (load : LoadId) : Option CompletionWindow :=
  match find catalog.loads load with
  | none =>
    some { throughSeq := 0, retainedFromSeq := 1, entries := [], truncated := false }
  | some results => do
    let retainedFrom ←
      match results.entries.head? with
      | none => expectSucc results.through
      | some front => pure front.entry.seq
    pure { throughSeq := results.through, retainedFromSeq := retainedFrom
           entries := results.entries.map (·.entry), truncated := decide (1 < retainedFrom) }

/-- `lookup`: a page borrows the source of the entry it finds. -/
def lookup (catalog : Catalog LoadId) (load : LoadId) (loopId : LoopId) :
    Option (CompletionEntry × Option Nat) × Catalog LoadId :=
  match (find catalog.loads load).bind
      (fun results => results.entries.find? (fun retained => retained.entry.loopId = loopId)) with
  | none => (none, catalog)
  | some retained =>
    (some (retained.entry, retained.source),
      match retained.source with
      | none => catalog
      | some source =>
        { catalog with
          charges := catalog.charges.modify source (fun charge =>
            { charge with outside := charge.outside + 1 }) })

end Catalog

/-- One operation on the catalog. -/
inductive Action (LoadId : Type)
  | register (load : LoadId)
  | remove (load : LoadId)
  | reserveRound (load : LoadId) (bytes : Nat)
  | finishReservation (source bytes : Nat)
  | insert (load : LoadId) (entry : CompletionEntry) (source : Option Nat) (metadataBytes : Nat)
  | lookup (load : LoadId) (loopId : LoopId)
  | drop (source : Nat)

/-- A source may be inserted once, by the caller that finished its
reservation. -/
def Catalog.insertable (catalog : Catalog LoadId) : Option Nat → Bool
  | none => true
  | some source =>
    match catalog.charges[source]? with
    | none => false
    | some charge => decide (charge.stage = .bound) && decide (0 < charge.outside)

/-- One step; undefined where the source panics or where no caller holds what
the operation consumes. -/
def step (limits : ResultLimits) (catalog : Catalog LoadId) : Action LoadId →
    Option (Catalog LoadId)
  | .register load => catalog.register load
  | .remove load => some (catalog.remove load).2
  | .reserveRound load bytes =>
    -- A call refuses what exceeds one load's limit before its first round.
    if limits.sourceBytesPerLoad < bytes then some catalog
    else (catalog.reserveRound limits load bytes).map (·.2)
  | .finishReservation source bytes => (catalog.finishReservation source bytes).map (·.2)
  | .insert load entry source metadataBytes =>
    if catalog.insertable source then
      (catalog.insert limits load entry source metadataBytes).map (·.2.2)
    else none
  | .lookup load loopId => some (catalog.lookup load loopId).2
  | .drop source => catalog.dropReference source

namespace Catalog

variable {limits : ResultLimits} {catalog after : Catalog LoadId} {load : LoadId}

/-- Exactly the entry of the sought order loses its source. -/
theorem expire_split {order source : Nat} {entries kept : List Retained}
    (taken : expire order entries = some (source, kept)) :
    ∃ front retained rest, entries = front ++ retained :: rest ∧ retained.order = order ∧
      retained.source = some source ∧ kept = front ++ retained.expired :: rest := by
  induction entries generalizing kept with
  | nil => cases taken
  | cons head rest inductionHypothesis =>
    by_cases here : head.order = order
    · simp only [expire, if_pos here, Option.map_eq_some_iff, Prod.mk.injEq] at taken
      obtain ⟨held, present, rfl, rfl⟩ := taken
      exact ⟨[], head, rest, rfl, here, present, rfl⟩
    · simp only [expire, if_neg here, Option.map_eq_some_iff, Prod.mk.injEq] at taken
      obtain ⟨⟨_, later⟩, found, rfl, rfl⟩ := taken
      obtain ⟨front, retained, tail, whole, sought, held, left⟩ := inductionHypothesis found
      refine ⟨head :: front, retained, tail, ?_, sought, held, ?_⟩
      · rw [whole, List.cons_append]
      · rw [left, List.cons_append]

/-- Everything one round of `reserve` can do. -/
theorem reserve_round_cases {bytes : Nat} {round : Round LoadId}
    (advanced : catalog.reserveRound limits load bytes = some (round, after)) :
    ∃ results account, find catalog.loads load = some results ∧
      catalog.accounts[results.account]? = some account ∧
      ((account.count < limits.sourcesPerLoad ∧
          saturatingAdd account.bytes bytes ≤ limits.sourceBytesPerLoad ∧
          catalog.sourceCount < limits.sources ∧
          saturatingAdd catalog.sourceBytes bytes ≤ limits.allSourceBytes ∧
          round = .granted catalog.charges.length ∧
          after = { catalog with
            sourceBytes := wrappingAdd catalog.sourceBytes bytes
            sourceCount := wrappingAdd catalog.sourceCount 1
            accounts := catalog.accounts.set results.account
              { bytes := wrappingAdd account.bytes bytes, count := wrappingAdd account.count 1 }
            charges := catalog.charges ++
              [{ bytes := bytes, account := results.account, stage := .granted, retained := false
                 outside := 1 }] }) ∨
        (round = .refused .resourceLimit ∧ after = catalog) ∨
        ∃ key chosen oldest source kept, find catalog.loads key = some chosen ∧
          expire oldest chosen.entries = some (source, kept) ∧ round = .expired key source ∧
          after = { catalog with
            loads := put catalog.loads key { chosen with entries := kept }
            charges := giveOut catalog.charges (some source) }) := by
  simp only [reserveRound, bind, Option.bind_eq_some_iff] at advanced
  obtain ⟨results, registered, account, opened, advanced⟩ := advanced
  refine ⟨results, account, registered, opened, ?_⟩
  split at advanced
  · rename_i free
    left
    simp only [Bool.and_eq_true, Bool.not_eq_true', Bool.or_eq_false_iff, decide_eq_false_iff_not,
      Nat.not_le, Nat.not_lt] at free
    cases advanced
    exact ⟨free.1.1, free.1.2, free.2.1, free.2.2, rfl, rfl⟩
  · split at advanced
    · cases advanced
      exact .inr (.inl ⟨rfl, rfl⟩)
    · rename_i key oldest _
      simp only [Option.bind_eq_some_iff] at advanced
      obtain ⟨chosen, found, ⟨source, kept⟩, taken, advanced⟩ := advanced
      cases advanced
      exact .inr (.inr ⟨key, chosen, oldest, source, kept, found, taken, rfl, rfl⟩)

/-- A push numbers the entry after all earlier ones of its load. -/
theorem push_ok {entry : CompletionEntry} {source : Option Nat} {metadataBytes : Nat}
    (pushed : catalog.push load entry source metadataBytes = some after) :
    ∃ results, find catalog.loads load = some results ∧
      after = { catalog with
        order := catalog.order + 1
        loads := put catalog.loads load
          { results with
            through := results.through + 1
            entries := results.entries ++
              [{ entry := numbered entry (results.through + 1), source := source
                 order := catalog.order + 1, metadataBytes := metadataBytes }]
            logged := results.logged ++ [numbered entry (results.through + 1)] }
        entries := catalog.entries + 1
        metadataBytes := catalog.metadataBytes + metadataBytes
        charges := takeIn catalog.charges source } := by
  simp only [push, bind, Option.bind_eq_some_iff] at pushed
  obtain ⟨order, ordered, results, registered, through, numbering, pushed⟩ := pushed
  obtain rfl := expect_succ_some ordered
  obtain rfl := expect_succ_some numbering
  cases pushed
  exact ⟨results, registered, rfl⟩

/-- Taking the oldest entry off a load. -/
theorem pop_front_ok {oldest : Retained} (popped : catalog.popFront load = some (oldest, after)) :
    ∃ results rest, find catalog.loads load = some results ∧ results.entries = oldest :: rest ∧
      after = catalog.withoutFront load results oldest rest := by
  unfold popFront at popped
  split at popped
  · cases popped
  · rename_i results registered
    split at popped
    · cases popped
    · rename_i front rest present
      cases popped
      exact ⟨results, rest, registered, present, rfl⟩

omit [DecidableEq LoadId] in
/-- Dropping a reference leaves the charge to its other holders or gives its
bytes back. -/
theorem drop_reference_ok {source : Nat} (dropped : catalog.dropReference source = some after) :
    ∃ charge kept, catalog.charges[source]? = some charge ∧ 0 < charge.outside ∧
      kept = { catalog with charges := catalog.charges.set source charge.letGo } ∧
      (charge.letGo.live = true ∧ after = kept ∨
        charge.letGo.live = false ∧ after = kept.refund charge) := by
  unfold dropReference at dropped
  split at dropped
  · cases dropped
  · rename_i charge present
    split_ifs at dropped with unheld left
    all_goals cases dropped
    · exact ⟨charge, _, present, Nat.pos_of_ne_zero unheld, rfl, .inl ⟨left, rfl⟩⟩
    · exact ⟨charge, _, present, Nat.pos_of_ne_zero unheld, rfl, .inr ⟨by simpa using left, rfl⟩⟩

omit [DecidableEq LoadId] in
/-- A holder can always drop its reference. -/
theorem drop_reference_some {source : Nat} {charge : SourceCharge}
    (present : catalog.charges[source]? = some charge) (held : 0 < charge.outside) :
    ∃ after, catalog.dropReference source = some after := by
  have some : charge.outside ≠ 0 := Nat.ne_of_gt held
  by_cases left : charge.letGo.live = true
  · exact ⟨_, by simp [dropReference, present, some, left]; rfl⟩
  · exact ⟨_, by simp [dropReference, present, some, left]; rfl⟩

omit [DecidableEq LoadId] in
/-- A finished reservation keeps the bytes of its source, or is dropped. -/
theorem finish_reservation_ok {source bytes : Nat} {outcome : Except UnavailableReason Nat}
    (finished : catalog.finishReservation source bytes = some (outcome, after)) :
    ∃ charge, catalog.charges[source]? = some charge ∧ charge.stage = .granted ∧
      0 < charge.outside ∧
      (charge.bytes < bytes ∧ outcome = .error .tooLarge ∧
          after = { catalog with
            charges := catalog.charges.set source { charge with outside := 0 } }.refund charge ∨
        bytes ≤ charge.bytes ∧ outcome = .ok source ∧
          after = { catalog with
            sourceBytes := wrappingSub catalog.sourceBytes (charge.bytes - bytes)
            accounts := catalog.accounts.modify charge.account (fun account =>
              { account with bytes := wrappingSub account.bytes (charge.bytes - bytes) })
            charges := catalog.charges.set source
              { charge with bytes := bytes, stage := .bound } }) := by
  unfold finishReservation at finished
  split at finished
  · cases finished
  · rename_i charge present
    split_ifs at finished with unfit larger
    all_goals
      cases finished
      rw [not_or, not_not] at unfit
    · exact ⟨charge, present, unfit.1, Nat.pos_of_ne_zero unfit.2, .inl ⟨larger, rfl, rfl⟩⟩
    · exact ⟨charge, present, unfit.1, Nat.pos_of_ne_zero unfit.2,
        .inr ⟨Nat.le_of_not_lt larger, rfl, rfl⟩⟩

theorem pop_front_some {results : LoadResults} {oldest : Retained} {rest : List Retained}
    (found : find catalog.loads load = some results)
    (present : results.entries = oldest :: rest) :
    catalog.popFront load = some (oldest, catalog.withoutFront load results oldest rest) := by
  simp only [popFront, found, present]

end Catalog

end MinicoreAgent.ResultCatalog

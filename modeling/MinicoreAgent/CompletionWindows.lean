import MinicoreAgent.ResultCatalog

/-!
# Completion windows of the result catalog

A client infers lost completions from the sequence numbers it is shown. The
invariant below ties the retained entries of every load to the log of all
entries it was ever given: they are its end, numbered without a gap, with
nothing changed but the sources that expired. The counters of the whole catalog
are the sums over all loads, so the eviction loop finds an entry to evict as
long as a limit is exceeded.
-/
namespace MinicoreAgent.ResultCatalog

open SessionState (CompletionEntry CompletionWindow)
open Keyed Runs Slots

variable {LoadId : Type} [DecidableEq LoadId]

/-- A retained entry is the one that was given, or that one after its source
expired. -/
def Aged (given kept : CompletionEntry) : Prop := kept = given ∨ kept = expiredEntry given

/-- The retained entries are the end of the log, which is numbered from one up to
the number of the last completion. -/
structure LoadResults.Numbered (results : LoadResults) : Prop where
  through : results.through = results.logged.length
  log : results.logged.map (·.seq) = List.range' 1 results.logged.length
  suffix : ∃ gone, gone ≤ results.logged.length ∧
    List.Forall₂ Aged (results.logged.drop gone) (results.entries.map (·.entry))

/-- Within one load the entries are in the order in which they were inserted. -/
structure LoadResults.Ordered (results : LoadResults) (last : Nat) : Prop where
  increasing : results.entries.Pairwise (fun first second => first.order < second.order)
  known : ∀ retained ∈ results.entries, retained.order ≤ last

theorem aged_seq {given kept : CompletionEntry} (aged : Aged given kept) : kept.seq = given.seq := by
  rcases aged with rfl | rfl
  · rfl
  · rfl

theorem aged_expired {given kept : CompletionEntry} (aged : Aged given kept) :
    Aged given (expiredEntry kept) := by
  rcases aged with rfl | rfl
  · exact .inr rfl
  · exact .inr rfl

/-- One element of the right list may be replaced by one that every partner
accepts as well. -/
theorem forall_replace {α β : Type} {Related : α → β → Prop} {lefts : List α} {front rest : List β}
    {old new : β} (related : List.Forall₂ Related lefts (front ++ old :: rest))
    (accepted : ∀ left, Related left old → Related left new) :
    List.Forall₂ Related lefts (front ++ new :: rest) := by
  induction front generalizing lefts with
  | nil =>
    cases related with
    | cons head tail => exact .cons (accepted _ head) tail
  | cons first front inductionHypothesis =>
    cases related with
    | cons head tail => exact .cons head (inductionHypothesis tail)

section Results

variable {results : LoadResults}

/-- The numbers shown are consecutive and end at the last completion's. -/
theorem LoadResults.Numbered.consecutive (numbered : results.Numbered) :
    results.entries.length ≤ results.through ∧
      results.entries.map (·.entry.seq) =
        List.range' (results.through + 1 - results.entries.length) results.entries.length := by
  obtain ⟨gone, within, aged⟩ := numbered.suffix
  have length : results.logged.length - gone = results.entries.length := by
    simpa using aged.length_eq
  have seqs : ∀ {lefts rights : List CompletionEntry}, List.Forall₂ Aged lefts rights →
      rights.map (·.seq) = lefts.map (·.seq) := by
    intro lefts rights related
    induction related with
    | nil => rfl
    | cons head tail inductionHypothesis =>
      simp only [List.map_cons, aged_seq head, inductionHypothesis]
  refine ⟨by rw [numbered.through]; omega, ?_⟩
  have shown : results.entries.map (·.entry.seq) = (results.logged.map (·.seq)).drop gone := by
    have same := seqs aged
    rw [List.map_map, List.map_drop] at same
    exact same
  rw [shown, numbered.log, List.drop_range', numbered.through]
  congr 1
  · omega

theorem LoadResults.Numbered.fresh (account : Nat) :
    LoadResults.Numbered { through := 0, entries := [], account := account, logged := [] } :=
  ⟨rfl, rfl, 0, Nat.le_refl _, .nil⟩

theorem LoadResults.Numbered.push (shown : results.Numbered) (entry : CompletionEntry)
    (source : Option Nat) (order metadataBytes : Nat) :
    LoadResults.Numbered
      { results with
        through := results.through + 1
        entries := results.entries ++
          [{ entry := Catalog.numbered entry (results.through + 1), source := source
             order := order, metadataBytes := metadataBytes }]
        logged := results.logged ++ [Catalog.numbered entry (results.through + 1)] } := by
  obtain ⟨gone, within, aged⟩ := shown.suffix
  refine ⟨by simp [shown.through], ?_, gone, ?_, ?_⟩
  · rw [List.map_append, shown.log, List.length_append]
    simp [List.range'_concat, Catalog.numbered, shown.through, Nat.add_comm]
  · simp only [List.length_append]
    omega
  · rw [List.drop_append_of_le_length within, List.map_append]
    exact List.rel_append aged (.cons (.inl rfl) .nil)

theorem LoadResults.Numbered.pop {oldest : Retained} {rest : List Retained}
    (numbered : results.Numbered) (present : results.entries = oldest :: rest) :
    LoadResults.Numbered { results with entries := rest } := by
  obtain ⟨gone, within, aged⟩ := numbered.suffix
  rw [present, List.map_cons] at aged
  cases left : results.logged.drop gone with
  | nil =>
    rw [left] at aged
    cases aged
  | cons head tail =>
    rw [left] at aged
    have inside : gone < results.logged.length := by
      by_contra beyond
      rw [List.drop_eq_nil_of_le (Nat.le_of_not_lt beyond)] at left
      cases left
    refine ⟨numbered.through, numbered.log, gone + 1, inside, ?_⟩
    rw [← List.tail_drop, left]
    cases aged with
    | cons _ others => exact others

theorem LoadResults.Numbered.expire {front rest : List Retained} {retained : Retained}
    (numbered : results.Numbered) (present : results.entries = front ++ retained :: rest) :
    LoadResults.Numbered { results with entries := front ++ retained.expired :: rest } := by
  obtain ⟨gone, within, aged⟩ := numbered.suffix
  refine ⟨numbered.through, numbered.log, gone, within, ?_⟩
  rw [present, List.map_append, List.map_cons] at aged
  simp only [List.map_append, List.map_cons]
  exact forall_replace aged fun given accepted => aged_expired accepted

theorem LoadResults.Ordered.later {first last : Nat} (ordered : results.Ordered first)
    (grown : first ≤ last) : results.Ordered last :=
  ⟨ordered.increasing, fun retained member => Nat.le_trans (ordered.known retained member) grown⟩

theorem LoadResults.Ordered.push {last : Nat} (ordered : results.Ordered last)
    (retained : Retained) (newest : retained.order = last + 1) (through : Nat)
    (logged : List CompletionEntry) :
    LoadResults.Ordered
      { results with
        through := through, entries := results.entries ++ [retained], logged := logged }
      (last + 1) := by
  constructor
  · refine List.pairwise_append.mpr ⟨ordered.increasing, List.pairwise_singleton _ _, ?_⟩
    intro earlier member latest same
    obtain rfl := List.mem_singleton.mp same
    have bound := ordered.known earlier member
    omega
  · intro candidate member
    rcases List.mem_append.mp member with earlier | latest
    · exact Nat.le_succ_of_le (ordered.known candidate earlier)
    · obtain rfl := List.mem_singleton.mp latest
      exact Nat.le_of_eq newest

theorem LoadResults.Ordered.pop {last : Nat} {oldest : Retained} {rest : List Retained}
    (ordered : results.Ordered last) (present : results.entries = oldest :: rest) :
    LoadResults.Ordered { results with entries := rest } last := by
  have increasing := ordered.increasing
  rw [present] at increasing
  refine ⟨(List.pairwise_cons.mp increasing).2, ?_⟩
  intro retained member
  exact ordered.known retained (by rw [present]; exact List.mem_cons_of_mem oldest member)

theorem LoadResults.Ordered.expire {last : Nat} {front rest : List Retained}
    {retained : Retained} (ordered : results.Ordered last)
    (present : results.entries = front ++ retained :: rest) :
    LoadResults.Ordered { results with entries := front ++ retained.expired :: rest } last := by
  have orders : (front ++ retained.expired :: rest).map (·.order) =
      results.entries.map (·.order) := by
    simp [present, Retained.expired]
  constructor
  · have increasing := List.pairwise_map.mpr ordered.increasing
    rw [← orders] at increasing
    exact List.pairwise_map.mp increasing
  · intro candidate member
    have named : candidate.order ∈ results.entries.map (·.order) := by
      rw [← orders]
      exact List.mem_map_of_mem member
    obtain ⟨old, present, same⟩ := List.mem_map.mp named
    exact same ▸ ordered.known old present

end Results

namespace Catalog

/-- The memory all retained entries take. -/
def weight (loads : List (LoadId × LoadResults)) : Nat :=
  total (fun entry => total (·.metadataBytes) entry.2.entries) loads

/-- The catalog between two operations. -/
structure Tallied (catalog : Catalog LoadId) : Prop where
  distinct : Distinct catalog.loads
  numbered : ∀ entry ∈ catalog.loads, entry.2.Numbered
  ordered : ∀ entry ∈ catalog.loads, entry.2.Ordered catalog.order
  entries : catalog.entries = size catalog.loads
  metadata : catalog.metadataBytes = weight catalog.loads

variable {limits : ResultLimits} {catalog after : Catalog LoadId} {load : LoadId}
  {results next : LoadResults}

theorem wrapping_sub_le {total amount : Nat} (part : amount ≤ total) :
    wrappingSub total amount = total - amount := if_pos part

/-- The sums split around one load, and a replaced load changes them by its own
part. -/
theorem tally_split (distinct : Distinct catalog.loads)
    (found : find catalog.loads load = some results) :
    ∃ others otherWeight,
      size catalog.loads = results.entries.length + others ∧
      weight catalog.loads = total (·.metadataBytes) results.entries + otherWeight ∧
      (∀ next : LoadResults,
        size (put catalog.loads load next) = next.entries.length + others ∧
        weight (put catalog.loads load next) = total (·.metadataBytes) next.entries + otherWeight) ∧
      size (erase catalog.loads load) = others ∧
      weight (erase catalog.loads load) = otherWeight := by
  obtain ⟨before, behind, split⟩ := find_split distinct found
  refine ⟨size before + size behind, weight before + weight behind, ?_, ?_, ?_, ?_, ?_⟩
  · simp only [split.whole, size, total_append, total_cons]
    omega
  · simp only [split.whole, weight, total_append, total_cons]
    omega
  · intro next
    simp only [split.put, size, weight, total_append, total_cons]
    omega
  · simp only [split.erase, size, total_append]
  · simp only [split.erase, weight, total_append]

/-- What the invariant says of a load that is found. -/
theorem Tallied.at (tallied : catalog.Tallied) (found : find catalog.loads load = some results) :
    results.Numbered ∧ results.Ordered catalog.order :=
  ⟨tallied.numbered _ (find_mem found), tallied.ordered _ (find_mem found)⟩

/-- Replacing the results of one load keeps every other load as it was. -/
theorem Tallied.replace (tallied : catalog.Tallied)
    (replaced : after.loads = put catalog.loads load next)
    (later : catalog.order ≤ after.order)
    (numbered : next.Numbered) (ordered : next.Ordered after.order)
    (entries : after.entries = size after.loads)
    (metadata : after.metadataBytes = weight after.loads) : after.Tallied := by
  refine ⟨?_, ?_, ?_, entries, metadata⟩
  · rw [replaced]
    exact tallied.distinct.put load next
  · intro entry member
    rw [replaced] at member
    rcases mem_put member with rfl | ⟨old, -⟩
    · exact numbered
    · exact tallied.numbered entry old
  · intro entry member
    rw [replaced] at member
    rcases mem_put member with rfl | ⟨old, -⟩
    · exact ordered
    · exact (tallied.ordered entry old).later later

theorem Tallied.push {entry : CompletionEntry} {source : Option Nat} {metadataBytes : Nat}
    (tallied : catalog.Tallied)
    (pushed : catalog.push load entry source metadataBytes = some after) : after.Tallied := by
  obtain ⟨results, found, rfl⟩ := push_ok pushed
  obtain ⟨numbered, ordered⟩ := tallied.at found
  obtain ⟨others, otherWeight, sizes, weights, replaced, -, -⟩ :=
    tally_split tallied.distinct found
  refine tallied.replace rfl (Nat.le_succ _) (numbered.push entry source _ metadataBytes)
    (ordered.push _ rfl _ _) ?_ ?_
  · simp only [(replaced _).1, tallied.entries, sizes, List.length_append, List.length_singleton]
    omega
  · simp only [(replaced _).2, tallied.metadata, weights, total_append, total_cons, total_nil]
    omega

theorem Tallied.pop_front {oldest : Retained} (tallied : catalog.Tallied)
    (popped : catalog.popFront load = some (oldest, after)) : after.Tallied := by
  obtain ⟨results, rest, found, present, rfl⟩ := pop_front_ok popped
  obtain ⟨numbered, ordered⟩ := tallied.at found
  obtain ⟨others, otherWeight, sizes, weights, replaced, -, -⟩ :=
    tally_split tallied.distinct found
  rw [present, List.length_cons] at sizes
  rw [present, total_cons] at weights
  have entries := tallied.entries
  have metadata := tallied.metadata
  refine tallied.replace rfl (Nat.le_refl _) (numbered.pop present) (ordered.pop present) ?_ ?_
  · simp only [withoutFront, (replaced _).1]
    rw [wrapping_sub_le (by omega)]
    omega
  · simp only [withoutFront, (replaced _).2]
    rw [wrapping_sub_le (by omega)]
    omega

theorem Tallied.expire {oldest source : Nat} {kept : List Retained} (tallied : catalog.Tallied)
    (found : find catalog.loads load = some results)
    (taken : expire oldest results.entries = some (source, kept))
    (charges : List SourceCharge) :
    Tallied { catalog with
      loads := put catalog.loads load { results with entries := kept }, charges := charges } := by
  obtain ⟨front, retained, rest, present, -, -, rfl⟩ := expire_split taken
  obtain ⟨numbered, ordered⟩ := tallied.at found
  obtain ⟨others, otherWeight, sizes, weights, replaced, -, -⟩ :=
    tally_split tallied.distinct found
  refine tallied.replace rfl (Nat.le_refl _) (numbered.expire present) (ordered.expire present)
    ?_ ?_
  · simp only [(replaced _).1, tallied.entries, sizes, present, List.length_append,
      List.length_cons]
  · simp only [(replaced _).2, tallied.metadata, weights, present, total_append, total_cons,
      Retained.expired]

theorem Tallied.register (tallied : catalog.Tallied)
    (registered : catalog.register load = some after) : after.Tallied := by
  unfold Catalog.register at registered
  split at registered
  · cases registered
  · rename_i absent
    cases registered
    refine ⟨tallied.distinct.append absent _, ?_, ?_, ?_, ?_⟩
    · intro entry member
      rcases List.mem_append.mp member with old | new
      · exact tallied.numbered entry old
      · obtain rfl := List.mem_singleton.mp new
        exact LoadResults.Numbered.fresh _
    · intro entry member
      rcases List.mem_append.mp member with old | new
      · exact tallied.ordered entry old
      · obtain rfl := List.mem_singleton.mp new
        exact ⟨List.Pairwise.nil, fun _ none => absurd none List.not_mem_nil⟩
    · simp [size, tallied.entries]
    · simp [weight, tallied.metadata]

theorem Tallied.remove (tallied : catalog.Tallied) (load : LoadId) :
    (catalog.remove load).2.Tallied := by
  unfold Catalog.remove
  split
  · exact tallied
  · rename_i results found
    obtain ⟨others, otherWeight, sizes, weights, -, erased, erasedWeight⟩ :=
      tally_split tallied.distinct found
    have kept : ∀ entry ∈ erase catalog.loads load, entry ∈ catalog.loads :=
      fun entry member => List.mem_of_mem_filter member
    have entries := tallied.entries
    have metadata := tallied.metadata
    refine ⟨tallied.distinct.erase load, ?_, ?_, ?_, ?_⟩
    · exact fun entry member => tallied.numbered entry (kept entry member)
    · exact fun entry member => tallied.ordered entry (kept entry member)
    · simp only [erased]
      rw [wrapping_sub_le (by omega)]
      omega
    · simp only [erasedWeight]
      rw [wrapping_sub_le (by omega)]
      omega

omit [DecidableEq LoadId] in
/-- Operations on sources alone do not concern the invariant. -/
theorem Tallied.same (tallied : catalog.Tallied) (loads : after.loads = catalog.loads)
    (order : after.order = catalog.order) (entries : after.entries = catalog.entries)
    (metadata : after.metadataBytes = catalog.metadataBytes) : after.Tallied := by
  refine ⟨?_, ?_, ?_, ?_, ?_⟩
  · exact loads ▸ tallied.distinct
  · exact loads ▸ tallied.numbered
  · rw [loads, order]
    exact tallied.ordered
  · rw [entries, loads, tallied.entries]
  · rw [metadata, loads, tallied.metadata]

/-- The three limits on entries. -/
structure Limited (limits : ResultLimits) (catalog : Catalog LoadId) : Prop where
  perLoad : ∀ entry ∈ catalog.loads, entry.2.entries.length ≤ limits.entriesPerLoad
  entries : catalog.entries ≤ limits.entries
  metadata : catalog.metadataBytes ≤ limits.metadataBytes

omit [DecidableEq LoadId] in
/-- A catalog with an entry has a front to choose from. -/
theorem fronts_ne_nil {loads : List (LoadId × LoadResults)} (some : 0 < size loads) :
    fronts loads ≠ [] := by
  induction loads with
  | nil => simp [size] at some
  | cons head rest inductionHypothesis =>
    cases entries : head.2.entries with
    | nil =>
      have later : 0 < size rest := by simpa [size, entries] using some
      simpa [fronts, entries] using inductionHypothesis later
    | cons oldest others => simp [fronts, entries]

omit [DecidableEq LoadId] in
/-- Memory is only taken by entries. -/
theorem size_pos_of_weight {loads : List (LoadId × LoadResults)} (taken : 0 < weight loads) :
    0 < size loads := by
  induction loads with
  | nil => simp [weight] at taken
  | cons head rest inductionHypothesis =>
    simp only [weight, size, total_cons] at taken inductionHypothesis ⊢
    cases entries : head.2.entries with
    | nil =>
      have later := inductionHypothesis (by simpa [entries] using taken)
      omega
    | cons oldest others =>
      simp only [List.length_cons]
      omega

/-- A front names a registered load with an entry. -/
theorem front_found {loads : List (LoadId × LoadResults)} (distinct : Distinct loads)
    {key : LoadId} {order : Nat} (chosen : (key, order) ∈ fronts loads) :
    ∃ results oldest rest, find loads key = some results ∧ results.entries = oldest :: rest := by
  obtain ⟨⟨name, results⟩, member, front⟩ := List.mem_filterMap.mp chosen
  obtain ⟨oldest, first, same⟩ := Option.map_eq_some_iff.mp front
  obtain ⟨rfl, -⟩ := Prod.mk.inj same
  obtain ⟨rest, present⟩ := List.head?_eq_some_iff.mp first
  exact ⟨results, oldest, rest, mem_find distinct member, present⟩

/-- The head of the eviction loop never panics: while a limit is exceeded it
names a load that has an entry, and otherwise the loop stops within the limits. -/
theorem victim_found (tallied : catalog.Tallied) (found : find catalog.loads load = some results) :
    (victim limits catalog load = some none ∧ results.entries.length ≤ limits.entriesPerLoad ∧
      catalog.entries ≤ limits.entries ∧ catalog.metadataBytes ≤ limits.metadataBytes) ∨
    ∃ candidate chosen oldest rest, victim limits catalog load = some (some candidate) ∧
      find catalog.loads candidate = some chosen ∧ chosen.entries = oldest :: rest := by
  unfold victim
  rw [found]
  by_cases localFull : limits.entriesPerLoad < results.entries.length
  · right
    cases entries : results.entries with
    | nil => simp [entries] at localFull
    | cons oldest rest =>
      exact ⟨load, results, oldest, rest, by simp [entries] at localFull ⊢; omega, found, entries⟩
  · simp only [if_neg localFull]
    by_cases within : catalog.entries ≤ limits.entries ∧
        catalog.metadataBytes ≤ limits.metadataBytes
    · left
      exact ⟨by rw [if_pos within], Nat.le_of_not_lt localFull, within⟩
    · right
      have entries := tallied.entries
      have metadata := tallied.metadata
      have held : 0 < size catalog.loads := by
        by_contra none
        have light : ¬ 0 < weight catalog.loads := fun taken => none (size_pos_of_weight taken)
        omega
      obtain ⟨⟨key, order⟩, chosen⟩ : ∃ front, front ∈ (fronts catalog.loads).argmin (·.2) := by
        refine Option.isSome_iff_exists.mp (Option.isSome_iff_ne_none.mpr ?_)
        intro none
        exact fronts_ne_nil held (List.argmin_eq_none.mp none)
      obtain ⟨results, oldest, rest, registered, present⟩ :=
        front_found tallied.distinct (List.argmin_mem chosen)
      refine ⟨key, results, oldest, rest, ?_, registered, present⟩
      rw [if_neg within, Option.mem_def.mp chosen]
      rfl

/-- Taking off the front of a load leaves the other loads and shortens this one. -/
theorem pop_front_loads {candidate key : LoadId} {oldest : Retained}
    (popped : catalog.popFront candidate = some (oldest, after))
    (found : find catalog.loads key = some results) :
    ∃ left, find after.loads key = some left := by
  obtain ⟨chosen, rest, registered, -, rfl⟩ := pop_front_ok popped
  refine Option.ne_none_iff_exists'.mp ?_
  intro absent
  by_cases same : key = candidate
  · subst same
    have kept : find (put catalog.loads key { chosen with entries := rest }) key =
        some { chosen with entries := rest } := find_put_self registered
    rw [withoutFront, kept] at absent
    cases absent
  · have kept : (key, results) ∈ put catalog.loads candidate { chosen with entries := rest } := by
      refine List.mem_map.mpr ⟨(key, results), find_mem found, ?_⟩
      simp [same]
    exact find_none_iff.mp absent _ kept rfl

/-- With one round for every entry the eviction loop comes to its end, within the
limits. -/
theorem evict_loop_ends (fuel : Nat) (tallied : catalog.Tallied)
    (registered : ∃ results, find catalog.loads load = some results)
    (others : ∀ entry ∈ catalog.loads, entry.1 ≠ load →
      entry.2.entries.length ≤ limits.entriesPerLoad)
    (enough : size catalog.loads < fuel) :
    ∃ released affected final,
      evictLoop limits load fuel catalog = some (released, affected, final) ∧
      final.Tallied ∧ final.Limited limits := by
  induction fuel generalizing catalog with
  | zero => omega
  | succ fuel inductionHypothesis =>
    obtain ⟨results, found⟩ := registered
    rcases @victim_found _ _ limits _ _ _ tallied found with
      ⟨stops, fits, entries, metadata⟩ | ⟨candidate, chosen, oldest, rest, goes, held, present⟩
    · refine ⟨[], [], catalog, by simp [evictLoop, stops], tallied, ?_, entries, metadata⟩
      intro entry member
      by_cases same : entry.1 = load
      · have sought := mem_find tallied.distinct (same ▸ member : (load, entry.2) ∈ catalog.loads)
        rw [found] at sought
        exact Option.some.inj sought ▸ fits
      · exact others entry member same
    · have popped := pop_front_some held present
      have smaller : size (catalog.withoutFront candidate chosen oldest rest).loads < fuel := by
        obtain ⟨count, _, sizes, -, replaced, -, -⟩ := tally_split tallied.distinct held
        rw [present, List.length_cons] at sizes
        have after := (replaced { chosen with entries := rest }).1
        simp only [withoutFront] at after ⊢
        omega
      have shorter : ∀ entry ∈ (catalog.withoutFront candidate chosen oldest rest).loads,
          entry.1 ≠ load → entry.2.entries.length ≤ limits.entriesPerLoad := by
        intro entry member apart
        rcases mem_put member with rfl | ⟨old, -⟩
        · have bound := others _ (find_mem held) apart
          rw [present, List.length_cons] at bound
          exact Nat.le_of_succ_le bound
        · exact others entry old apart
      obtain ⟨released, affected, final, ended, sound⟩ :=
        inductionHypothesis (tallied.pop_front popped) (pop_front_loads popped found) shorter
          smaller
      refine ⟨oldest.source.toList ++ released, candidate :: affected, final, ?_, sound⟩
      simp [evictLoop, goes, popped, ended]

/-- Once the entry is pushed, `insert` returns, and it returns within the limits. -/
theorem insert_ends {next : Catalog LoadId} {entry : CompletionEntry} {source : Option Nat}
    {metadataBytes : Nat} (tallied : catalog.Tallied) (limited : catalog.Limited limits)
    (pushed : catalog.push load entry source metadataBytes = some next) :
    ∃ released affected final,
      catalog.insert limits load entry source metadataBytes = some (released, affected, final) ∧
      final.Tallied ∧ final.Limited limits := by
  obtain ⟨results, found, shape⟩ := push_ok pushed
  have others : ∀ entry ∈ next.loads, entry.1 ≠ load →
      entry.2.entries.length ≤ limits.entriesPerLoad := by
    intro entry member apart
    rw [shape] at member
    rcases mem_put member with rfl | ⟨old, -⟩
    · exact absurd rfl apart
    · exact limited.perLoad entry old
  have registered : ∃ results, find next.loads load = some results := by
    rw [shape]
    exact ⟨_, find_put_self found⟩
  obtain ⟨released, affected, final, ended, sound⟩ :=
    evict_loop_ends (size next.loads + 1) (tallied.push pushed) registered others
      (Nat.lt_succ_self _)
  exact ⟨released, load :: affected, final, by simp [insert, pushed, ended], sound⟩

theorem Tallied.insert {entry : CompletionEntry} {source : Option Nat} {metadataBytes : Nat}
    {released : List Nat} {affected : List LoadId} (tallied : catalog.Tallied)
    (limited : catalog.Limited limits)
    (inserted : catalog.insert limits load entry source metadataBytes =
      some (released, affected, after)) : after.Tallied ∧ after.Limited limits := by
  cases pushed : catalog.push load entry source metadataBytes with
  | none => simp [Catalog.insert, pushed] at inserted
  | some next =>
    obtain ⟨_, _, final, ended, sound⟩ := insert_ends tallied limited pushed
    rw [inserted] at ended
    simp only [Option.some.injEq, Prod.mk.injEq] at ended
    exact ended.2.2 ▸ sound

/-- A round of `reserve` keeps the entries and their numbers. -/
theorem Tallied.reserve_round {bytes : Nat} {round : Round LoadId} (tallied : catalog.Tallied)
    (limited : catalog.Limited limits)
    (advanced : catalog.reserveRound limits load bytes = some (round, after)) :
    after.Tallied ∧ after.Limited limits := by
  obtain ⟨results, account, -, -, granted | ⟨-, rfl⟩ | expired⟩ := reserve_round_cases advanced
  · obtain ⟨-, -, -, -, -, rfl⟩ := granted
    exact ⟨tallied.same rfl rfl rfl rfl, limited.perLoad, limited.entries, limited.metadata⟩
  · exact ⟨tallied, limited⟩
  · obtain ⟨key, chosen, oldest, source, kept, found, taken, -, rfl⟩ := expired
    refine ⟨tallied.expire found taken _, ?_, limited.entries, limited.metadata⟩
    intro entry member
    rcases mem_put member with rfl | ⟨old, -⟩
    · obtain ⟨front, retained, rest, present, -, -, rfl⟩ := expire_split taken
      have bound := limited.perLoad _ (find_mem found)
      simpa [present] using bound
    · exact limited.perLoad entry old

omit [DecidableEq LoadId] in
/-- What is known of the entries depends on no counter of the sources. -/
theorem Limited.same (limited : catalog.Limited limits) (loads : after.loads = catalog.loads)
    (entries : after.entries = catalog.entries)
    (metadata : after.metadataBytes = catalog.metadataBytes) : after.Limited limits := by
  refine ⟨loads ▸ limited.perLoad, ?_, ?_⟩
  · exact entries ▸ limited.entries
  · exact metadata ▸ limited.metadata

/-- The loads, the order and the two sums are all that concerns entries. -/
structure SameEntries (catalog after : Catalog LoadId) : Prop where
  loads : after.loads = catalog.loads := by rfl
  order : after.order = catalog.order := by rfl
  entries : after.entries = catalog.entries := by rfl
  metadata : after.metadataBytes = catalog.metadataBytes := by rfl

omit [DecidableEq LoadId] in
theorem finish_same {source bytes : Nat} {outcome : Except SessionState.UnavailableReason Nat}
    (finished : catalog.finishReservation source bytes = some (outcome, after)) :
    SameEntries catalog after := by
  obtain ⟨charge, -, -, -, ⟨-, -, rfl⟩ | ⟨-, -, rfl⟩⟩ := finish_reservation_ok finished
  · exact {}
  · exact {}

omit [DecidableEq LoadId] in
theorem drop_same {source : Nat} (dropped : catalog.dropReference source = some after) :
    SameEntries catalog after := by
  obtain ⟨charge, kept, -, -, rfl, ⟨-, rfl⟩ | ⟨-, rfl⟩⟩ := drop_reference_ok dropped
  · exact {}
  · exact {}

theorem lookup_same (catalog : Catalog LoadId) (load : LoadId) (loopId : SessionState.LoopId) :
    SameEntries catalog (catalog.lookup load loopId).2 := by
  unfold lookup
  split
  · exact {}
  · dsimp only
    split
    all_goals exact {}

theorem Tallied.remove_limited (tallied : catalog.Tallied) (limited : catalog.Limited limits)
    (load : LoadId) : (catalog.remove load).2.Limited limits := by
  have left := tallied.remove load
  have entries := left.entries
  have metadata := left.metadata
  have before := tallied.entries
  have beforeWeight := tallied.metadata
  have bound := limited.entries
  have boundWeight := limited.metadata
  cases found : find catalog.loads load with
  | none => simpa [Catalog.remove, found] using limited
  | some results =>
    obtain ⟨others, otherWeight, sizes, weights, -, erased, erasedWeight⟩ :=
      tally_split tallied.distinct found
    have loads : (catalog.remove load).2.loads = erase catalog.loads load := by
      simp [Catalog.remove, found]
    rw [loads] at entries metadata
    refine ⟨?_, by omega, by omega⟩
    intro entry member
    rw [loads] at member
    exact limited.perLoad entry (List.mem_of_mem_filter member)

theorem step_tallied {action : Action LoadId} (known : catalog.Tallied ∧ catalog.Limited limits)
    (advanced : step limits catalog action = some after) :
    after.Tallied ∧ after.Limited limits := by
  obtain ⟨tallied, limited⟩ := known
  have framed {later : Catalog LoadId} (same : SameEntries catalog later) :
      later.Tallied ∧ later.Limited limits :=
    ⟨tallied.same same.loads same.order same.entries same.metadata,
      limited.same same.loads same.entries same.metadata⟩
  cases action with
  | register load =>
    refine ⟨tallied.register advanced, ?_⟩
    simp only [step, register] at advanced
    split at advanced
    · cases advanced
    · cases advanced
      refine ⟨?_, limited.entries, limited.metadata⟩
      intro entry member
      rcases List.mem_append.mp member with old | new
      · exact limited.perLoad entry old
      · obtain rfl := List.mem_singleton.mp new
        exact Nat.zero_le _
  | remove load =>
    obtain rfl := Option.some.inj advanced
    exact ⟨tallied.remove load, tallied.remove_limited limited load⟩
  | reserveRound load bytes =>
    simp only [step] at advanced
    split at advanced
    · obtain rfl := Option.some.inj advanced
      exact ⟨tallied, limited⟩
    · obtain ⟨⟨round, later⟩, passed, rfl⟩ := Option.map_eq_some_iff.mp advanced
      exact tallied.reserve_round limited passed
  | finishReservation source bytes =>
    obtain ⟨⟨outcome, later⟩, finished, rfl⟩ := Option.map_eq_some_iff.mp advanced
    exact framed (finish_same finished)
  | insert load entry source metadataBytes =>
    simp only [step] at advanced
    split at advanced
    · obtain ⟨⟨released, affected, later⟩, inserted, rfl⟩ := Option.map_eq_some_iff.mp advanced
      exact tallied.insert limited inserted
    · cases advanced
  | lookup load loopId =>
    obtain rfl := Option.some.inj advanced
    exact framed (lookup_same catalog load loopId)
  | drop source => exact framed (drop_same advanced)

theorem reachable_tallied (reached : Reachable (step limits) new catalog) :
    catalog.Tallied ∧ catalog.Limited limits := by
  refine reachable_invariant (fun catalog => catalog.Tallied ∧ catalog.Limited limits) ?_ ?_ reached
  · refine ⟨⟨List.nodup_nil, ?_, ?_, rfl, rfl⟩, ⟨?_, Nat.zero_le _, Nat.zero_le _⟩⟩
    all_goals exact fun entry member => absurd member List.not_mem_nil
  · intro before action after known advanced
    exact step_tallied known advanced

/-- `window` shows the retained entries from the first of their numbers on. -/
theorem window_shows (tallied : catalog.Tallied) (found : find catalog.loads load = some results)
    (representable : results.through < u64Max ∨ results.entries ≠ []) :
    catalog.window load = some
      { throughSeq := results.through
        retainedFromSeq := results.through + 1 - results.entries.length
        entries := results.entries.map (·.entry)
        truncated := decide (1 < results.through + 1 - results.entries.length) } := by
  obtain ⟨numbered, -⟩ := tallied.at found
  obtain ⟨-, consecutive⟩ := numbered.consecutive
  unfold window
  rw [found]
  cases entries : results.entries with
  | nil =>
    have small : results.through < u64Max := representable.resolve_right (fun held => held entries)
    simp [entries, expectSucc, small]
  | cons front rest =>
    rw [entries, List.map_cons, List.length_cons, List.range'_succ] at consecutive
    have first := (List.cons.inj consecutive).1
    simp [entries, first]

/-- Every load shows the end of what it was given. In every state the catalog
reaches, the retained entries of a registered load are the last ones inserted
for it, numbered without a gap up to its `through` counter and unchanged but for
expired sources, and the window shows exactly these; the two global counters are
the sums over all loads, so that no load subtracts more than they hold; and the
limits hold. Inserting for a registered load returns as long as the 64-bit
counters do not run out: the eviction loop ends and finds an entry whenever it
looks for one. -/
theorem retained_completions_are_contiguous (limits : ResultLimits) (catalog : Catalog LoadId)
    (reached : Reachable (step limits) new catalog) :
    (∀ load results, find catalog.loads load = some results →
      (results.entries.length ≤ results.through ∧
        results.entries.map (·.entry.seq) =
          List.range' (results.through + 1 - results.entries.length) results.entries.length) ∧
      (results.through = results.logged.length ∧
        ∃ gone, gone + results.entries.length = results.logged.length ∧
          List.Forall₂ Aged (results.logged.drop gone) (results.entries.map (·.entry))) ∧
      (results.through < u64Max ∨ results.entries ≠ [] →
        catalog.window load = some
          { throughSeq := results.through
            retainedFromSeq := results.through + 1 - results.entries.length
            entries := results.entries.map (·.entry)
            truncated := decide (1 < results.through + 1 - results.entries.length) }) ∧
      results.entries.length ≤ catalog.entries ∧
      total (·.metadataBytes) results.entries ≤ catalog.metadataBytes ∧
      results.entries.length ≤ limits.entriesPerLoad ∧
      ∀ entry source metadataBytes, results.through < u64Max → catalog.order < u64Max →
        ∃ released affected after,
          catalog.insert limits load entry source metadataBytes =
            some (released, affected, after)) ∧
    catalog.entries = size catalog.loads ∧ catalog.metadataBytes = weight catalog.loads ∧
    catalog.entries ≤ limits.entries ∧ catalog.metadataBytes ≤ limits.metadataBytes := by
  obtain ⟨tallied, limited⟩ := reachable_tallied reached
  refine ⟨?_, tallied.entries, tallied.metadata, limited.entries, limited.metadata⟩
  intro load results found
  obtain ⟨numbered, -⟩ := tallied.at found
  obtain ⟨others, otherWeight, sizes, weights, -, -, -⟩ := tally_split tallied.distinct found
  have entries := tallied.entries
  have metadata := tallied.metadata
  refine ⟨numbered.consecutive, ⟨numbered.through, ?_⟩, window_shows tallied found, by omega,
    by omega, limited.perLoad _ (find_mem found), ?_⟩
  · obtain ⟨gone, within, aged⟩ := numbered.suffix
    have length : results.logged.length - gone = results.entries.length := by
      simpa using aged.length_eq
    exact ⟨gone, by omega, aged⟩
  · intro entry source metadataBytes numbers orders
    obtain ⟨next, pushed⟩ : ∃ next, catalog.push load entry source metadataBytes = some next := by
      refine Option.isSome_iff_exists.mp ?_
      simp [push, expectSucc, found, numbers, orders]
    obtain ⟨released, affected, after, ended, -⟩ :=
      insert_ends tallied limited pushed
    exact ⟨released, affected, after, ended⟩

end Catalog

/-- Limits that keep one entry for each load. -/
def narrowLimits : ResultLimits := { ResultLimits.standard with entriesPerLoad := 1 }

def internalCompletion : CompletionEntry where
  seq := 0
  loopId := 0
  inputId := none
  completionKind := .internalError
  outcomeKind := none
  persistence := none
  persistenceUncertain := false
  availability := .unavailable
  unavailableReason := some .internalError
  afterSavedLoopId := none

def twoCompletions : List (Action Nat) :=
  [.register 3, .insert 3 internalCompletion none 100, .insert 3 internalCompletion none 100]

/-- The second completion of a load evicts the first and is shown with number two. -/
theorem second_completion_is_shown :
    ∃ results, find (replay (step narrowLimits) Catalog.new twoCompletions).loads 3 =
        some results ∧ results.entries.map (·.entry.seq) = [2] := by
  obtain ⟨results, found⟩ := Option.isSome_iff_exists.mp (show (find
    (replay (step narrowLimits) Catalog.new twoCompletions).loads 3).isSome = true by decide)
  have shape : (find (replay (step narrowLimits) Catalog.new twoCompletions).loads 3).map
      (fun results => (results.through, results.entries.length)) = some (2, 1) := by decide
  rw [found] at shape
  obtain ⟨through, length⟩ := Prod.mk.inj (Option.some.inj shape)
  have shown := ((Catalog.retained_completions_are_contiguous narrowLimits _
    (reachable_replay (by decide))).1 3 results found).1.2
  rw [through, length] at shown
  exact ⟨results, found, shown⟩

end MinicoreAgent.ResultCatalog

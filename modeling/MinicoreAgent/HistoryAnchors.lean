import MinicoreAgent.ScannedPages

/-!
# Anchors of a summary in the history file

A summary covers a beginning of the history. It is tied to the file by an anchor: how
many bytes, loops and items are covered, which loop is the last one, and the hash of
these bytes. `scan_history_prefix` reads the file once, compares its items with the
loaded history, and keeps on the way the anchor of the last record that ends within a
given number of items.

A later reader scans only as many bytes as the anchor covers, so that it does not see
what was appended since.
-/
namespace MinicoreAgent.HistoryStore

/-- `HistoryPrefix`. -/
structure HistoryPrefix (LoopId : Type) where
  prefixBytes : Nat
  coveredLoopCount : Nat
  coveredItemCount : Nat
  lastLoopId : Option LoopId
  sha256 : String
  deriving DecidableEq

/-- `CompactionAnchors`: of the whole file, and of its part within the bound. -/
structure CompactionAnchors (LoopId : Type) where
  full : HistoryPrefix LoopId
  part : Option (HistoryPrefix LoopId)
  deriving DecidableEq

/-- The answers of the file system during one scan. -/
structure AnchorAnswers where
  length : Except StoreError Nat
  opened : Except StoreError Unit
  chunks : Chunks
  finalLength : Except StoreError Nat

variable {LoopId Payload Replay Digest : Type}
  (externals : Externals LoopId Payload Replay Digest)
  (pages : PageExternals LoopId Payload Digest)

section Model

variable [DecidableEq Payload] [DecidableEq Replay]

/-- The state of the scan. -/
structure AnchorScan (LoopId Digest : Type) where
  chunks : Chunks
  remaining : Nat
  hasher : Digest
  coveredLoopCount : Nat
  coveredItemCount : Nat
  lastLoopId : Option LoopId
  part : Option (HistoryPrefix LoopId)
  expectedItemIndex : Nat

/-- The comparison of a record's items with the expected ones, from an index on. -/
def matchItems (expected : List (HistoryItem Payload Replay)) :
    List (HistoryItem Payload Replay) → Nat → Option Nat
  | [], index => some index
  | item :: rest, index =>
    match expected[index]? with
    | none => none
    | some known => if item ≠ known then none else matchItems expected rest (index + 1)

/-- What one complete line adds to the scan; `none` where the history has other
items. -/
def scanAnchorLine (prefixBytes : Nat) (expected : List (HistoryItem Payload Replay))
    (maxPrefixItems : Option Nat) (scan : AnchorScan LoopId Digest) (line : List UInt8)
    (rest : Chunks) (left : Nat) : Except StoreError (Option (AnchorScan LoopId Digest)) :=
  let hasher := externals.update (externals.update scan.hasher line) [newline]
  if line.isEmpty then .error .corrupt
  else
    match decodeLine externals line with
    | .error error => .error error
    | .ok (record, normalized) =>
      match matchItems expected normalized scan.expectedItemIndex with
      | none => .ok none
      | some expectedItemIndex =>
        let coveredLoopCount := scan.coveredLoopCount + 1
        let coveredItemCount := scan.coveredItemCount + normalized.length
        .ok (some
          { chunks := rest
            remaining := left
            hasher := hasher
            coveredLoopCount := coveredLoopCount
            coveredItemCount := coveredItemCount
            lastLoopId := some record.loopId
            part :=
              if maxPrefixItems.any (fun maximum => expectedItemIndex ≤ maximum) then
                some
                  { prefixBytes := prefixBytes - left
                    coveredLoopCount := coveredLoopCount
                    coveredItemCount := coveredItemCount
                    lastLoopId := some record.loopId
                    sha256 := pages.digestHex hasher }
              else scan.part
            expectedItemIndex := expectedItemIndex })

/-- The loop of `scan_history_prefix`. The fuel bounds the number of lines. -/
def scanAnchorLines (prefixBytes : Nat) (expected : List (HistoryItem Payload Replay))
    (maxPrefixItems : Option Nat) : Nat → AnchorScan LoopId Digest →
    Except StoreError (Option (AnchorScan LoopId Digest))
  | 0, _ => .error .unavailable
  | fuel + 1, scan =>
    if scan.remaining = 0 then .ok (some scan)
    else
      match readBoundedLine scan.chunks scan.remaining .empty with
      | .error error => .error error
      | .ok (.complete line, rest, left) =>
        match scanAnchorLine externals pages prefixBytes expected maxPrefixItems scan line rest left
        with
        | .error error => .error error
        | .ok none => .ok none
        | .ok (some scan) => scanAnchorLines prefixBytes expected maxPrefixItems fuel scan
      | .ok (_, _, _) => .ok none

/-- The scan before the first record. -/
def AnchorScan.first (chunks : Chunks) (prefixBytes : Nat) : AnchorScan LoopId Digest :=
  { chunks := chunks, remaining := prefixBytes, hasher := externals.newDigest,
    coveredLoopCount := 0, coveredItemCount := 0, lastLoopId := none, part := none,
    expectedItemIndex := 0 }

/-- `scan_history_prefix`. -/
def scanHistoryPrefix (chunks : Chunks) (prefixBytes : Nat)
    (expected : List (HistoryItem Payload Replay)) (maxPrefixItems : Option Nat) :
    Except StoreError (Option (CompactionAnchors LoopId)) :=
  (scanAnchorLines externals pages prefixBytes expected maxPrefixItems (prefixBytes + 1)
      (.first externals chunks prefixBytes)).map
    fun scanned => scanned.map fun scan =>
      { full :=
          { prefixBytes := prefixBytes
            coveredLoopCount := scan.coveredLoopCount
            coveredItemCount := scan.coveredItemCount
            lastLoopId := scan.lastLoopId
            sha256 := pages.digestHex scan.hasher }
        part := scan.part }

/-- `read_history_prefix`. -/
def readHistoryPrefix (answers : AnchorAnswers) (prefixBytes : Nat)
    (expected : List (HistoryItem Payload Replay)) :
    Except StoreError (Option (HistoryPrefix LoopId)) :=
  match answers.length with
  | .error error => .error error
  | .ok length =>
    if length < prefixBytes then .ok none
    else
      match answers.opened with
      | .error error => .error error
      | .ok () =>
        (scanHistoryPrefix externals pages answers.chunks prefixBytes expected none).map
          fun found => found.map CompactionAnchors.full

/-- `capture_compaction_anchors`. -/
def captureCompactionAnchors (answers : AnchorAnswers)
    (expected : List (HistoryItem Payload Replay)) (maxPrefixItems : Option Nat) :
    Except StoreError (Option (CompactionAnchors LoopId)) :=
  match answers.length with
  | .error error => .error error
  | .ok length =>
    match answers.opened with
    | .error error => .error error
    | .ok () =>
      match scanHistoryPrefix externals pages answers.chunks length expected maxPrefixItems with
      | .error error => .error error
      | .ok none => .ok none
      | .ok (some anchors) =>
        match answers.finalLength with
        | .error error => .error error
        | .ok finalLength =>
          if finalLength ≠ length then .ok none
          else if anchors.full.coveredItemCount ≠ expected.length then .ok none
          else .ok (some anchors)

/-- `capture_history_anchor`. -/
def captureHistoryAnchor (answers : AnchorAnswers) (expected : List (HistoryItem Payload Replay)) :
    Except StoreError (Option (HistoryPrefix LoopId)) :=
  (captureCompactionAnchors externals pages answers expected none).map
    fun found => found.map CompactionAnchors.full

end Model

section Boundaries

variable {externals pages}
  {lines done before : List (StoredLine LoopId Payload Replay)}
  {line : StoredLine LoopId Payload Replay} {bound : Nat} {maximum : Option Nat}

variable (externals) in
/-- Hashing in parts is hashing the whole. -/
structure Externals.Streams : Prop where
  nothing : ∀ digest, externals.update digest [] = digest
  parts : ∀ digest first second,
    externals.update (externals.update digest first) second =
      externals.update digest (first ++ second)

variable (externals pages) in
/-- The anchor of a beginning of the file. -/
def anchorOf (lines : List (StoredLine LoopId Payload Replay)) : HistoryPrefix LoopId :=
  { prefixBytes := byteCount lines
    coveredLoopCount := lines.length
    coveredItemCount := itemCount lines
    lastLoopId := lines.getLast?.map (fun line => line.record.loopId)
    sha256 := pages.digestHex (externals.update externals.newDigest (fileOf lines)) }

/-- The longest beginning of whole records with at most so many items. -/
structure LastBoundary (lines : List (StoredLine LoopId Payload Replay)) (bound : Nat)
    (before : List (StoredLine LoopId Payload Replay)) : Prop where
  beginning : before <+: lines
  present : before ≠ []
  within : itemCount before ≤ bound
  greatest : ∀ other, other <+: lines → itemCount other ≤ bound → other <+: before

variable (externals pages) in
/-- The anchor of the last boundary within the bound, if there is one. -/
def PartOf (lines : List (StoredLine LoopId Payload Replay)) (maximum : Option Nat)
    (part : Option (HistoryPrefix LoopId)) : Prop :=
  ∀ anchor, part = some anchor ↔
    ∃ bound ∈ maximum, ∃ before, LastBoundary lines bound before ∧
      anchor = anchorOf externals pages before

/-- A record that still ends within the bound is the new boundary. -/
theorem last_boundary_inside (inside : itemCount (done ++ [line]) ≤ bound) :
    LastBoundary (done ++ [line]) bound before ↔ before = done ++ [line] := by
  constructor
  · intro last
    have whole := last.greatest (done ++ [line]) List.prefix_rfl inside
    exact last.beginning.eq_of_length (Nat.le_antisymm last.beginning.length_le whole.length_le)
  · rintro rfl
    exact ⟨List.prefix_rfl, by simp, inside, fun other beginning _ => beginning⟩

/-- A record that ends beyond the bound changes nothing. -/
theorem last_boundary_beyond (beyond : bound < itemCount (done ++ [line])) :
    LastBoundary (done ++ [line]) bound before ↔ LastBoundary done bound before := by
  have shorter {other : List (StoredLine LoopId Payload Replay)}
      (beginning : other <+: done ++ [line]) (within : itemCount other ≤ bound) :
      other <+: done := by
    rcases List.prefix_concat_iff.mp beginning with rfl | inner
    · omega
    · exact inner
  constructor
  · intro last
    refine ⟨shorter last.beginning last.within, last.present, last.within, ?_⟩
    intro other beginning within
    exact last.greatest other (beginning.trans (List.prefix_append _ _)) within
  · intro last
    refine ⟨last.beginning.trans (List.prefix_append _ _), last.present, last.within, ?_⟩
    intro other beginning within
    exact last.greatest other (shorter beginning within) within

theorem part_of_nothing : PartOf externals pages ([] : List (StoredLine LoopId Payload Replay))
    maximum none := by
  intro anchor
  constructor
  · intro none
    cases none
  · rintro ⟨bound, _, before, last, _⟩
    exact absurd (List.prefix_nil.mp last.beginning) last.present

/-- One more record either becomes the boundary or leaves it. -/
theorem part_of_snoc {part : Option (HistoryPrefix LoopId)}
    (known : PartOf externals pages done maximum part) :
    PartOf externals pages (done ++ [line]) maximum
      (if maximum.any (fun bound => itemCount (done ++ [line]) ≤ bound) then
        some (anchorOf externals pages (done ++ [line]))
      else part) := by
  intro anchor
  cases maximum with
  | none => simpa using known anchor
  | some bound =>
    simp only [Option.any_some, decide_eq_true_eq, Option.mem_some_iff]
    by_cases inside : itemCount (done ++ [line]) ≤ bound
    · rw [if_pos inside]
      constructor
      · intro same
        exact ⟨bound, rfl, _, (last_boundary_inside inside).mpr rfl,
          (Option.some.inj same).symm⟩
      · rintro ⟨other, rfl, before, last, rfl⟩
        rw [(last_boundary_inside inside).mp last]
    · rw [if_neg inside, known anchor]
      have beyond := Nat.lt_of_not_le inside
      constructor
      · rintro ⟨other, same, before, last, anchored⟩
        cases same
        exact ⟨bound, rfl, before, (last_boundary_beyond beyond).mpr last, anchored⟩
      · rintro ⟨other, same, before, last, anchored⟩
        cases same
        exact ⟨bound, rfl, before, (last_boundary_beyond beyond).mp last, anchored⟩

end Boundaries

section Reading

variable {clean : Prop} {chunks rest : Chunks} {remaining left : Nat} {held : LineBuffer}
  {before line whole : List UInt8}

theorem held_fitting (holds : held.Holds before) (fits : ¬ held.oversized = true) :
    before.length ≤ maxLoopRecordBytes ∧ held.buffer = before := by
  unfold LineBuffer.Holds at holds
  split at holds
  · rename_i short
    rw [holds]
    exact ⟨short, rfl⟩
  · exact absurd holds fits

theorem find_newline_none {bytes : List UInt8} (absent : bytes.findIdx? (· = newline) = none) :
    newline ∉ bytes := by
  intro member
  have other := List.findIdx?_eq_none_iff.mp absent newline member
  simp at other

/-- A line that was read completely stood before a newline, within the limits. -/
theorem read_line_inverted (holds : held.Holds before)
    (read : readBoundedLine chunks remaining held = .ok (.complete line, rest, left))
    (yields : Yields clean chunks whole) :
    ∃ bytes more, line = before ++ bytes ∧ whole = bytes ++ newline :: more ∧
      newline ∉ bytes ∧ remaining = bytes.length + 1 + left ∧
      (before ++ bytes).length ≤ maxLoopRecordBytes ∧ Yields clean rest more := by
  induction chunks generalizing remaining held before whole with
  | nil =>
    rw [readBoundedLine] at read
    split at read
    · split at read <;> cases read
    · cases read
  | cons answer others inductionHypothesis =>
    cases answer with
    | error error =>
      rw [readBoundedLine] at read
      split at read
      · split at read <;> cases read
      · cases read
    | ok chunk =>
      obtain ⟨later, rfl, yields⟩ := yields
      rw [readBoundedLine] at read
      split at read
      · split at read <;> cases read
      · rename_i unread
        split at read
        · rename_i blank
          rw [List.isEmpty_iff.mp blank, List.nil_append]
          exact inductionHypothesis holds read yields
        · dsimp only at read
          split at read
          · rename_i position found
            split at read
            · cases read
            · rename_i fits
              cases read
              have inside : position < (chunk.take remaining).length :=
                (List.findIdx?_eq_some_iff_findIdx_eq.mp found).1
              have here : chunk.findIdx? (· = newline) = some position := by
                conv_lhs => rw [← List.take_append_drop remaining chunk]
                rw [List.findIdx?_append, found]
                rfl
              obtain ⟨free, split⟩ := chunk_split here
              rw [List.length_take] at inside
              have same : (chunk.take remaining).take position = chunk.take position := by
                rw [List.take_take, Nat.min_eq_left (by omega)]
              rw [same] at fits ⊢
              obtain ⟨short, buffer⟩ := held_fitting (holds.extend (chunk.take position)) fits
              refine ⟨chunk.take position, chunk.drop (position + 1) ++ later, buffer, ?_, free, ?_,
                short, later, rfl, yields⟩
              · conv_lhs => rw [split]
                rw [List.append_assoc, List.cons_append]
              · rw [List.length_take]
                omega
          · rename_i absent
            split at read
            · split at read <;> cases read
            · rename_i all
              rw [List.length_take, Nat.not_lt] at all
              have taken : chunk.take remaining = chunk := List.take_of_length_le (by omega)
              rw [taken] at read absent
              obtain ⟨bytes, more, line, split, free, left, short, yields⟩ :=
                inductionHypothesis (holds.extend chunk) read yields
              refine ⟨chunk ++ bytes, more, ?_, ?_, ?_, ?_, ?_, yields⟩
              · rw [line, List.append_assoc]
              · rw [split, List.append_assoc]
              · rw [List.mem_append, not_or]
                exact ⟨(find_newline_none absent), free⟩
              · rw [List.length_append]
                omega
              · rwa [← List.append_assoc]

end Reading

section Scanning

variable [DecidableEq Payload] [DecidableEq Replay] {externals pages}
  {lines done rest : List (StoredLine LoopId Payload Replay)}
  {line : StoredLine LoopId Payload Replay} {maximum : Option Nat} {clean : Prop}
  {expected normalized : List (HistoryItem Payload Replay)} {prefixBytes : Nat}
  {scan next : AnchorScan LoopId Digest} {left : List UInt8}

omit [DecidableEq Payload] [DecidableEq Replay] in
/-- A line that decodes and fits is one the loader accepts. -/
theorem decoded_well_formed {bytes : List UInt8} {record : StoredLoopRecord LoopId Payload Replay}
    (decoded : decodeLine externals bytes = .ok (record, normalized))
    (fits : bytes.length ≤ maxLoopRecordBytes) (free : newline ∉ bytes) (present : bytes ≠ []) :
    StoredLine.WellFormed externals { record := record, bytes := bytes, items := normalized } := by
  refine ⟨?_, free, present⟩
  unfold decodeLine at decoded
  split at decoded
  · cases decoded
  · rename_i read
    split at decoded
    · cases decoded
    · rename_i normal
      cases decoded
      rw [parseLine, if_pos fits, read, Option.bind_some, normal]
      rfl

/-- The items match where the history goes on with them. -/
theorem match_items_iff {index stop : Nat} :
    matchItems expected normalized index = some stop ↔
      normalized <+: expected.drop index ∧ stop = index + normalized.length := by
  induction normalized generalizing index with
  | nil => simp [matchItems, eq_comm]
  | cons item rest inductionHypothesis =>
    rw [matchItems]
    cases here : expected[index]? with
    | none =>
      have ended : expected.drop index = [] :=
        List.drop_eq_nil_of_le (List.getElem?_eq_none_iff.mp here)
      simp [ended]
    | some known =>
      obtain ⟨inside, same⟩ := List.getElem?_eq_some_iff.mp here
      rw [List.drop_eq_getElem_cons inside, same, List.cons_prefix_cons, List.length_cons]
      dsimp only
      split
      · rename_i different
        simp [different]
      · rename_i equal
        rw [inductionHypothesis]
        rw [Decidable.not_not.mp equal]
        simp only [true_and]
        apply and_congr_right
        intro _
        omega

variable (externals pages) in
/-- The scan between two records, with these bytes of the file still ahead. -/
structure AnchorsAt (clean : Prop) (expected : List (HistoryItem Payload Replay))
    (maximum : Option Nat) (done : List (StoredLine LoopId Payload Replay)) (left : List UInt8)
    (scan : AnchorScan LoopId Digest) : Prop where
  chunks : ∃ more, Yields clean scan.chunks (left ++ more)
  remaining : scan.remaining = left.length
  formed : ∀ line ∈ done, line.WellFormed externals
  matched : done.flatMap StoredLine.items <+: expected
  hasher : scan.hasher = externals.update externals.newDigest (fileOf done)
  loops : scan.coveredLoopCount = done.length
  items : scan.coveredItemCount = itemCount done
  index : scan.expectedItemIndex = itemCount done
  last : scan.lastLoopId = done.getLast?.map (fun line => line.record.loopId)
  part : PartOf externals pages done maximum scan.part

omit [DecidableEq Payload] [DecidableEq Replay] in
theorem flat_items_length (lines : List (StoredLine LoopId Payload Replay)) :
    (lines.flatMap StoredLine.items).length = itemCount lines := by
  induction lines with
  | nil => rfl
  | cons line rest inductionHypothesis => simp [inductionHypothesis]

/-- What the next record of the file does to the scan: the scan goes on if the history
goes on with its items, and says so if it does not. -/
theorem scan_anchor_line_outcome (streams : externals.Streams)
    (standing : AnchorsAt externals pages clean expected maximum done
      (line.bytes ++ newline :: left) scan)
    (formed : line.WellFormed externals)
    (total : prefixBytes = byteCount done + (line.bytes.length + 1 + left.length))
    {chunks : Chunks} {more : List UInt8} (yields : Yields clean chunks (left ++ more)) :
    (∃ next, scanAnchorLine externals pages prefixBytes expected maximum scan line.bytes chunks
        left.length = .ok (some next) ∧
      AnchorsAt externals pages clean expected maximum (done ++ [line]) left next) ∨
    (scanAnchorLine externals pages prefixBytes expected maximum scan line.bytes chunks
        left.length = .ok none ∧
      ¬ (done ++ [line]).flatMap StoredLine.items <+: expected) := by
  have hashed : externals.update (externals.update scan.hasher line.bytes) [newline] =
      externals.update externals.newDigest (fileOf (done ++ [line])) := by
    rw [standing.hasher, streams.parts, streams.parts, file_of_append, file_of_cons, file_of_nil]
  have bytes : prefixBytes - left.length = byteCount (done ++ [line]) := by
    rw [byte_count_append, byte_count_cons, byte_count_nil]
    omega
  have continued : line.items <+: expected.drop scan.expectedItemIndex ↔
      (done ++ [line]).flatMap StoredLine.items <+: expected := by
    obtain ⟨others, rfl⟩ := standing.matched
    rw [standing.index, ← flat_items_length, List.drop_left, List.flatMap_append]
    simp [List.prefix_append_right_inj]
  unfold scanAnchorLine
  rw [if_neg (by simp [formed.present]), formed.decodes]
  dsimp only
  cases matching : matchItems expected line.items scan.expectedItemIndex with
  | none =>
    right
    refine ⟨rfl, ?_⟩
    intro covered
    have found := match_items_iff.mpr ⟨continued.mpr covered, rfl⟩
    rw [matching] at found
    cases found
  | some stop =>
    obtain ⟨goes, rfl⟩ := match_items_iff.mp matching
    left
    refine ⟨_, rfl, ⟨more, yields⟩, rfl, ?_, continued.mp goes, hashed, ?_, ?_, ?_, ?_, ?_⟩
    · intro other member
      rcases List.mem_append.mp member with old | new
      · exact standing.formed other old
      · rw [List.mem_singleton.mp new]
        exact formed
    · simp [standing.loops]
    · simp [standing.items]
    · simp [standing.index]
    · simp
    · have count : scan.expectedItemIndex + line.items.length = itemCount (done ++ [line]) := by
        simp [standing.index]
      have anchored : ({ prefixBytes := prefixBytes - left.length
                         coveredLoopCount := scan.coveredLoopCount + 1
                         coveredItemCount := scan.coveredItemCount + line.items.length
                         lastLoopId := some line.record.loopId
                         sha256 := pages.digestHex (externals.update
                           (externals.update scan.hasher line.bytes) [newline]) } :
          HistoryPrefix LoopId) = anchorOf externals pages (done ++ [line]) := by
        rw [hashed, bytes, standing.loops, standing.items]
        simp [anchorOf]
      rw [anchored, count]
      exact part_of_snoc standing.part

theorem scan_anchor_line_decodes {bytes : List UInt8} {others : Chunks} {unread : Nat}
    (scanned : scanAnchorLine externals pages prefixBytes expected maximum scan bytes others
      unread = .ok (some next)) :
    bytes ≠ [] ∧ ∃ record normalized, decodeLine externals bytes = .ok (record, normalized) := by
  unfold scanAnchorLine at scanned
  dsimp only at scanned
  split at scanned
  · cases scanned
  · rename_i present
    split at scanned
    · cases scanned
    · rename_i record normalized decoded
      exact ⟨by simpa using present, record, normalized, decoded⟩

/-- A scan that reaches its end has read whole records, which the history begins
with. -/
theorem scan_anchor_lines_sound (streams : externals.Streams) {fuel : Nat}
    {final : AnchorScan LoopId Digest}
    (standing : AnchorsAt externals pages clean expected maximum done left scan)
    (total : prefixBytes = byteCount done + left.length)
    (ran : scanAnchorLines externals pages prefixBytes expected maximum fuel scan =
      .ok (some final)) :
    ∃ rest : List (StoredLine LoopId Payload Replay), left = fileOf rest ∧
      AnchorsAt externals pages clean expected maximum (done ++ rest) [] final := by
  induction fuel generalizing done left scan with
  | zero => cases ran
  | succ fuel inductionHypothesis =>
    rw [scanAnchorLines] at ran
    split at ran
    · rename_i ended
      rw [standing.remaining] at ended
      cases ran
      obtain rfl := List.length_eq_zero_iff.mp ended
      exact ⟨[], rfl, by simpa using standing⟩
    · split at ran
      · cases ran
      · rename_i bytes others unread read
        obtain ⟨more, yields⟩ := standing.chunks
        obtain ⟨bytes', later, same, whole, free, count, short, yields⟩ :=
          read_line_inverted LineBuffer.holds_empty read yields
        rw [List.nil_append] at same short
        subst same
        rw [standing.remaining] at count
        obtain ⟨behind, rfl, rfl⟩ : ∃ behind, left = bytes ++ newline :: behind ∧
            later = behind ++ more := by
          have front : bytes ++ [newline] <+: left := by
            have inside : bytes ++ [newline] <+: left ++ more := by
              rw [whole]
              simp
            apply List.prefix_of_prefix_length_le inside (List.prefix_append _ _)
            rw [List.length_append, List.length_singleton]
            omega
          obtain ⟨behind, rfl⟩ := front
          refine ⟨behind, by simp, ?_⟩
          simpa using whole.symm
        have unread' : unread = behind.length := by
          simp at count
          omega
        subst unread'
        split at ran
        · cases ran
        · cases ran
        · rename_i after scanned
          obtain ⟨present, record, normalized, decoded⟩ := scan_anchor_line_decodes scanned
          have formed := decoded_well_formed decoded short free present
          rw [List.length_append, List.length_cons] at total
          have total' : prefixBytes = byteCount done + (bytes.length + 1 + behind.length) := by
            omega
          rcases scan_anchor_line_outcome streams standing formed total' yields with
            ⟨next, taken, standing⟩ | ⟨refused, _⟩
          · cases taken.symm.trans scanned
            have total : prefixBytes = byteCount (done ++
                [{ record := record, bytes := bytes, items := normalized }]) + behind.length := by
              rw [byte_count_append, byte_count_cons, byte_count_nil, total']
              dsimp only
              omega
            obtain ⟨rest, rfl, standing⟩ := inductionHypothesis standing total ran
            refine ⟨{ record := record, bytes := bytes, items := normalized } :: rest, ?_, ?_⟩
            · rw [file_of_cons]
            · rwa [List.append_cons]
          · cases refused.symm.trans scanned
      · cases ran

/-- The scan of whole records of the history reaches its end, unless reading fails. -/
theorem scan_anchor_lines_complete (streams : externals.Streams) {fuel : Nat}
    (formed : ∀ line ∈ rest, line.WellFormed externals)
    (covered : (done ++ rest).flatMap StoredLine.items <+: expected)
    (standing : AnchorsAt externals pages clean expected maximum done (fileOf rest) scan)
    (total : prefixBytes = byteCount done + byteCount rest) (enough : byteCount rest < fuel) :
    (∃ final, scanAnchorLines externals pages prefixBytes expected maximum fuel scan =
        .ok (some final) ∧
      AnchorsAt externals pages clean expected maximum (done ++ rest) [] final) ∨
    (¬ clean ∧ ∃ error,
      scanAnchorLines externals pages prefixBytes expected maximum fuel scan = .error error) := by
  induction rest generalizing done fuel scan with
  | nil =>
    obtain ⟨fuel, rfl⟩ : ∃ less, fuel = less + 1 := ⟨fuel - 1, by omega⟩
    left
    have ended : scan.remaining = 0 := standing.remaining
    rw [scanAnchorLines, if_pos ended]
    exact ⟨scan, rfl, by simpa using standing⟩
  | cons line rest inductionHypothesis =>
    obtain ⟨fuel, rfl⟩ : ∃ less, fuel = less + 1 := ⟨fuel - 1, by omega⟩
    have here := formed line (by simp)
    rw [file_of_cons] at standing
    have remaining := standing.remaining
    rw [List.length_append, List.length_cons] at remaining
    have room : line.bytes.length < scan.remaining := by omega
    have unended : scan.remaining ≠ 0 := by omega
    rw [scanAnchorLines, if_neg unended]
    obtain ⟨more, yields⟩ := standing.chunks
    rw [List.append_assoc, List.cons_append] at yields
    rcases read_line_complete LineBuffer.holds_empty yields here.oneLine here.fits room with
      ⟨others, read, yields⟩ | ⟨dirty, error, read⟩
    · have unread : scan.remaining - (line.bytes.length + 1) = (fileOf rest).length := by
        omega
      rw [read, List.nil_append, unread]
      dsimp only
      rw [byte_count_cons] at total enough
      rcases scan_anchor_line_outcome streams standing here total yields with
        ⟨next, taken, standing⟩ | ⟨_, uncovered⟩
      · rw [taken, List.append_cons]
        rw [List.append_cons] at covered
        have total : prefixBytes = byteCount (done ++ [line]) + byteCount rest := by
          rw [byte_count_append, byte_count_cons, byte_count_nil]
          omega
        apply inductionHypothesis _ covered standing total (by omega)
        intro other member
        exact formed other (List.mem_cons_of_mem _ member)
      · exfalso
        apply uncovered
        rw [List.append_cons, List.flatMap_append] at covered
        exact (List.prefix_append _ _).trans covered
    · right
      rw [read]
      exact ⟨dirty, error, rfl⟩

end Scanning

section Anchors

variable {externals pages} {clean : Prop} {file : List UInt8}
  {lines more : List (StoredLine LoopId Payload Replay)} {answers : AnchorAnswers}
  {history : List (HistoryItem Payload Replay)} {maximum : Option Nat}

/-- The answers for a file: it has the length of its bytes, and reading yields them and
whatever is appended in the meantime. Where nothing may fail, nothing is appended. -/
structure AnchorAnswers.Of (clean : Prop) (file : List UInt8) (answers : AnchorAnswers) :
    Prop where
  length : ∀ length, answers.length = .ok length → length = file.length
  chunks : ∃ more, Yields clean answers.chunks (file ++ more)
  answered : clean → answers.length = .ok file.length ∧ answers.opened = .ok () ∧
    answers.finalLength = .ok file.length

/-- What appending can do to a file: whole records are added to it. -/
theorem append_run_lines (lawful : externals.Lawful) {first after : HistoryFile LoopId Digest}
    (calls : List (StoredLoopRecord LoopId Payload Replay × AppendFaults))
    (ran : appendRun externals first calls = some after) :
    ∃ more : List (StoredLine LoopId Payload Replay),
      (∀ line ∈ more, line.WellFormed externals) ∧ after.bytes = first.bytes ++ fileOf more := by
  induction calls generalizing first with
  | nil =>
    cases ran
    exact ⟨[], by simp, by simp⟩
  | cons call rest inductionHypothesis =>
    obtain ⟨record, faults⟩ := call
    unfold appendRun at ran
    rcases append_cases externals first record faults with
      ⟨line, kept, encoded, done⟩ | ⟨error, done⟩ | unknown
    · rw [done] at ran
      obtain ⟨more, formed, bytes⟩ := inductionHypothesis ran
      refine ⟨line :: more, ?_, ?_⟩
      · intro other member
        rcases List.mem_cons.mp member with rfl | later
        · exact written_well_formed lawful (encode_loop_good encoded)
        · exact formed other later
      · rw [bytes, file_of_cons]
        simp
    · rw [done] at ran
      exact inductionHypothesis ran
    · split at ran
      · cases ran
      · rename_i other done
        rw [done] at unknown
        cases unknown
        exact (other rfl).elim

/-- The scan before the first record stands at the beginning of the file. -/
theorem first_anchors_at (streams : externals.Streams) {chunks : Chunks} {left rest : List UInt8}
    (yields : Yields clean chunks (left ++ rest)) :
    AnchorsAt externals pages clean history maximum [] left
      (.first externals chunks left.length) where
  chunks := ⟨rest, yields⟩
  remaining := rfl
  formed := by simp
  matched := List.nil_prefix
  hasher := (streams.nothing _).symm
  loops := rfl
  items := rfl
  index := rfl
  last := rfl
  part := part_of_nothing

/-- What the scan knows behind the last record is the anchor of all of them. -/
theorem AnchorsAt.anchored {left : List UInt8} {scan : AnchorScan LoopId Digest}
    (standing : AnchorsAt externals pages clean history maximum lines left scan) :
    { prefixBytes := byteCount lines, coveredLoopCount := scan.coveredLoopCount,
      coveredItemCount := scan.coveredItemCount, lastLoopId := scan.lastLoopId,
      sha256 := pages.digestHex scan.hasher } = anchorOf externals pages lines := by
  rw [standing.loops, standing.items, standing.last, standing.hasher]
  rfl

variable [DecidableEq Payload] [DecidableEq Replay]

variable (pages maximum) in
/-- The scan of whole records of the history returns their anchor and the one of the
last boundary. -/
theorem scan_history_complete (streams : externals.Streams)
    (formed : ∀ line ∈ lines, line.WellFormed externals)
    (covered : lines.flatMap StoredLine.items <+: history) {chunks : Chunks} {rest : List UInt8}
    (yields : Yields clean chunks (fileOf lines ++ rest)) :
    (∃ part, scanHistoryPrefix externals pages chunks (byteCount lines) history maximum =
        .ok (some { full := anchorOf externals pages lines, part := part }) ∧
      PartOf externals pages lines maximum part) ∨
    (¬ clean ∧ ∃ error,
      scanHistoryPrefix externals pages chunks (byteCount lines) history maximum =
        .error error) := by
  have standing : AnchorsAt externals pages clean history maximum [] (fileOf lines)
      (.first externals chunks (byteCount lines)) := first_anchors_at streams yields
  have total : byteCount lines =
      byteCount ([] : List (StoredLine LoopId Payload Replay)) + byteCount lines := by simp
  have behind : ([] ++ lines).flatMap StoredLine.items <+: history := covered
  unfold scanHistoryPrefix
  rcases scan_anchor_lines_complete streams formed behind standing total (Nat.lt_succ_self _) with
    ⟨final, ran, standing⟩ | ⟨dirty, error, ran⟩
  · left
    rw [List.nil_append] at standing
    rw [ran]
    refine ⟨final.part, ?_, standing.part⟩
    rw [← standing.anchored]
    rfl
  · right
    rw [ran]
    exact ⟨dirty, error, rfl⟩

/-- Whatever the scan returns, it has read whole records of the history. -/
theorem scan_history_sound (streams : externals.Streams) {chunks : Chunks} {rest : List UInt8}
    {anchors : CompactionAnchors LoopId} (yields : Yields clean chunks (file ++ rest))
    (ran : scanHistoryPrefix externals pages chunks file.length history maximum =
      .ok (some anchors)) :
    ∃ lines : List (StoredLine LoopId Payload Replay), file = fileOf lines ∧
      (∀ line ∈ lines, line.WellFormed externals) ∧
      lines.flatMap StoredLine.items <+: history ∧
      anchors.full = anchorOf externals pages lines ∧
      PartOf externals pages lines maximum anchors.part := by
  have begun : AnchorsAt externals pages clean history maximum [] file
      (.first externals chunks file.length) := first_anchors_at streams yields
  obtain ⟨scanned, done, found⟩ := Results.map_ok.mp ran
  cases scanned with
  | none => cases found
  | some final =>
    cases found
    obtain ⟨lines, rfl, standing⟩ := scan_anchor_lines_sound streams begun (by simp) done
    rw [List.nil_append] at standing
    exact ⟨lines, rfl, standing.formed, standing.matched, standing.anchored, standing.part⟩

/-- A reader that scans as far as some records of a longer file finds their anchor. -/
theorem read_prefix_again (streams : externals.Streams)
    (formed : ∀ line ∈ lines, line.WellFormed externals)
    (covered : lines.flatMap StoredLine.items <+: history)
    (answered : answers.Of clean (fileOf lines ++ file)) :
    readHistoryPrefix externals pages answers (byteCount lines) history =
        .ok (some (anchorOf externals pages lines)) ∨
      (¬ clean ∧ ∃ error,
        readHistoryPrefix externals pages answers (byteCount lines) history = .error error) := by
  unfold readHistoryPrefix
  have failed {error : StoreError} (refused : answers.length = .error error ∨
      answers.opened = .error error) : ¬ clean := by
    intro fine
    obtain ⟨known, opened, _⟩ := answered.answered fine
    rcases refused with refused | refused
    · cases refused.symm.trans known
    · cases refused.symm.trans opened
  cases known : answers.length with
  | error error => exact .inr ⟨failed (.inl known), error, rfl⟩
  | ok length =>
    have whole := answered.length length known
    rw [List.length_append] at whole
    have reached : ¬ length < byteCount lines := by
      unfold byteCount
      omega
    dsimp only
    rw [if_neg reached]
    cases opened : answers.opened with
    | error error => exact .inr ⟨failed (.inr opened), error, rfl⟩
    | ok _ =>
      obtain ⟨more, yields⟩ := answered.chunks
      rw [List.append_assoc] at yields
      dsimp only
      rcases scan_history_complete pages none streams formed covered yields with
        ⟨part, scanned, _⟩ | ⟨dirty, error, scanned⟩
      · rw [scanned]
        exact .inl rfl
      · rw [scanned]
        exact .inr ⟨dirty, error, rfl⟩

/-- What is captured is of whole records of exactly this history. -/
theorem captured_lines (streams : externals.Streams) (answered : answers.Of clean file)
    {anchors : CompactionAnchors LoopId}
    (captured : captureCompactionAnchors externals pages answers history maximum =
      .ok (some anchors)) :
    ∃ lines : List (StoredLine LoopId Payload Replay), file = fileOf lines ∧
      (∀ line ∈ lines, line.WellFormed externals) ∧
      history = lines.flatMap StoredLine.items ∧
      anchors.full = anchorOf externals pages lines ∧
      PartOf externals pages lines maximum anchors.part := by
  obtain ⟨more, yields⟩ := answered.chunks
  unfold captureCompactionAnchors at captured
  split at captured
  · cases captured
  · rename_i length known
    have whole := answered.length length known
    subst whole
    split at captured
    · cases captured
    · split at captured
      · cases captured
      · cases captured
      · rename_i found scanned
        split at captured
        · cases captured
        · split at captured
          · cases captured
          · split at captured
            · cases captured
            · rename_i same
              cases captured
              obtain ⟨lines, rfl, formed, matched, full, part⟩ :=
                scan_history_sound streams yields scanned
              refine ⟨lines, rfl, formed, ?_, full, part⟩
              have count : itemCount lines = history.length := by
                rw [full] at same
                exact Decidable.not_not.mp same
              rw [← flat_items_length] at count
              exact (matched.eq_of_length count).symm

/-- The anchors of a file of whole records of the history are captured. -/
theorem captured_complete (streams : externals.Streams)
    (answered : answers.Of clean (fileOf lines)) (fine : clean)
    (formed : ∀ line ∈ lines, line.WellFormed externals) :
    ∃ anchors, captureCompactionAnchors externals pages answers
      (lines.flatMap StoredLine.items) maximum = .ok (some anchors) := by
  obtain ⟨known, opened, final⟩ := answered.answered fine
  obtain ⟨more, yields⟩ := answered.chunks
  unfold captureCompactionAnchors
  rw [known, opened, final]
  dsimp only
  rcases scan_history_complete pages maximum streams formed List.prefix_rfl yields with
    ⟨part, scanned, _⟩ | ⟨dirty, _⟩
  · refine ⟨{ full := anchorOf externals pages lines, part := part }, ?_⟩
    rw [byteCount] at scanned
    rw [scanned]
    dsimp only
    have counted : (anchorOf externals pages lines).coveredItemCount =
        (lines.flatMap StoredLine.items).length := (flat_items_length lines).symm
    rw [if_neg (not_not.mpr rfl), if_neg (not_not.mpr counted)]
  · exact absurd fine dirty

/-- A file that is read at once. -/
def sampleAnchorAnswers (file : List UInt8) : AnchorAnswers :=
  { length := .ok file.length, opened := .ok (), chunks := [.ok file]
    finalLength := .ok file.length }

theorem sample_anchor_answers (file : List UInt8) : (sampleAnchorAnswers file).Of True file where
  length := fun _ known => (Except.ok.inj known).symm
  chunks := ⟨[], [], rfl, rfl⟩
  answered := fun _ => ⟨rfl, rfl, rfl⟩

/-- Without faults a line is appended. -/
theorem append_run_encoded {externals : Externals Nat String Unit (List UInt8)}
    {record : StoredLoopRecord Nat String Unit} {line : StoredLine Nat String Unit} {kept : Bool}
    (encoded : encodeLoop externals record = .ok (line, kept)) (bytes : List UInt8) :
    appendRun externals { bytes := bytes, index := [] }
      [(record, { missing := none, openFails := false, write := none, rollback := none })] =
        some
          { bytes := bytes ++ (line.bytes ++ [newline])
            index := indexLine externals [] (line.bytes ++ [newline]) line.record
              line.items.length } := by
  rw [appendRun, appendLoopUnder, encoded]
  rfl

end Anchors

end MinicoreAgent.HistoryStore

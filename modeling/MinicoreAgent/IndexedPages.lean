import MinicoreAgent.PagedLines

/-!
# The page through the index

The index locates the lines of a page: all records that lie in the range, and no
other. Reading them gives the page of the lines that the request asks for. Where it
gives none, the request asks for no lines of this file, or a limit or a failure
ended the reading.
-/
namespace MinicoreAgent.HistoryStore

variable {LoopId Payload Replay Digest : Type}
  (externals : Externals LoopId Payload Replay Digest)
  (pages : PageExternals LoopId Payload Digest)

section Indexed

variable {request : PageRequest} {times : Option (Times LoopId)} {limits : HistoryScanLimits}
  {clean : Prop} {lines shown middle : List (StoredLine LoopId Payload Replay)}

/-- Every one of these lines, which begin at an item, lies in the range. -/
def OnPage (request : PageRequest) (start : Nat)
    (middle : List (StoredLine LoopId Payload Replay)) : Prop :=
  ∀ before line after, middle = before ++ line :: after →
    request.itemOffset < start + itemCount before + line.items.length ∧
      start + itemCount before < request.itemOffset + request.itemLimit

theorem OnPage.tail {line : StoredLine LoopId Payload Replay} {start : Nat}
    (onPage : OnPage request start (line :: middle)) :
    OnPage request (start + line.items.length) middle := by
  rintro before other after rfl
  have inside := onPage (line :: before) other after rfl
  rw [item_count_cons] at inside
  omega

variable {externals pages}

variable (pages times limits) in
/-- Reading the lines of a page adds all of them, unless a limit or a failure ends
it. -/
theorem read_indexed_lines_outcome (formed : ∀ line ∈ middle, line.WellFormed externals)
    {fuel start : Nat} (onPage : OnPage request start middle) {chunks : Chunks}
    {more : List UInt8} (yields : Yields clean chunks (fileOf middle ++ more))
    (enough : middle.length < fuel) (scannedLines scannedBytes : Nat)
    (parts : PageParts LoopId Payload Replay) :
    readIndexedLines externals pages request times limits fuel chunks (byteCount middle)
        scannedLines scannedBytes start parts =
      .ok (gather pages request times parts start middle) ∨
    (∃ error, readIndexedLines externals pages request times limits fuel chunks
        (byteCount middle) scannedLines scannedBytes start parts = .error error) ∧
      ¬ (clean ∧ scannedLines + middle.length ≤ limits.maxLines ∧
        scannedBytes + byteCount middle ≤ limits.maxBytes) := by
  induction middle generalizing fuel scannedLines scannedBytes start chunks parts with
  | nil =>
    obtain ⟨fuel, rfl⟩ : ∃ less, fuel = less + 1 := ⟨fuel - 1, by omega⟩
    left
    rw [readIndexedLines, if_pos byte_count_nil, gather]
  | cons line rest inductionHypothesis =>
    obtain ⟨fuel, rfl⟩ : ∃ less, fuel = less + 1 := ⟨fuel - 1, by omega⟩
    have here := formed line (by simp)
    rw [readIndexedLines, if_neg (by rw [byte_count_cons]; omega)]
    by_cases limited : limits.maxLines ≤ scannedLines ∨ limits.maxBytes ≤ scannedBytes
    · right
      rw [if_pos limited]
      refine ⟨⟨_, rfl⟩, ?_⟩
      rintro ⟨_, count, size⟩
      rw [List.length_cons] at count
      rw [byte_count_cons] at size
      omega
    · rw [if_neg limited]
      rw [file_of_cons, List.append_assoc, List.cons_append] at yields
      have within : line.bytes.length < byteCount (line :: rest) := by
        rw [byte_count_cons]
        omega
      rcases read_line_complete LineBuffer.holds_empty yields here.oneLine here.fits within with
        ⟨left, read, yields⟩ | ⟨dirty, error, read⟩
      · have remains : byteCount (line :: rest) - (line.bytes.length + 1) = byteCount rest := by
          rw [byte_count_cons]
          omega
        rw [remains, List.nil_append] at read
        rw [read]
        dsimp only
        by_cases large : limits.maxBytes < scannedBytes + (line.bytes.length + 1)
        · right
          rw [if_pos large]
          refine ⟨⟨_, rfl⟩, ?_⟩
          rintro ⟨_, _, size⟩
          rw [byte_count_cons] at size
          omega
        · have inside := onPage [] line rest rfl
          rw [item_count_nil] at inside
          rw [if_neg large, here.decodes]
          dsimp only
          have fewer : rest.length < fuel := by
            rw [List.length_cons] at enough
            omega
          have later := inductionHypothesis (fun line member => formed line (by simp [member]))
            onPage.tail yields fewer (scannedLines + 1)
            (scannedBytes + (line.bytes.length + 1))
            (appendPageRecord pages parts line.record line.items start request.itemOffset
              (request.itemOffset + request.itemLimit) times)
          rw [gather, if_pos (by omega)]
          rcases later with done | ⟨failed, reason⟩
          · left
            exact done
          · right
            refine ⟨failed, ?_⟩
            rintro ⟨ok, count, size⟩
            rw [List.length_cons] at count
            rw [byte_count_cons] at size
            exact reason ⟨ok, by omega, by omega⟩
      · right
        rw [read]
        exact ⟨⟨error, rfl⟩, fun good => dirty good.1⟩

/-- What the totals of the last entry are, where no entry stands for nothing. -/
theorem last_total {Total : Type} (total : HistoryLine LoopId Digest → Total)
    (lines : List (StoredLine LoopId Payload Replay)) :
    ((entriesFrom externals [] lines).getLast?.map total).getD
        (total (entryOf externals ([] : List (StoredLine LoopId Payload Replay)))) =
      total (entryOf externals lines) := by
  have last : (entriesFrom externals [] lines).getLast?.getD (entryOf externals []) = _ :=
    entries_last [] lines
  rw [Option.getD_map, last, List.nil_append]

/-- A beginning cannot be longer than the beginning it lies in. -/
theorem not_beyond {before : List (StoredLine LoopId Payload Replay)}
    {line : StoredLine LoopId Payload Replay} {more : List (StoredLine LoopId Payload Replay)} :
    ¬ before ++ more ++ [line] <+: before := by
  intro beginning
  have lengths := beginning.length_le
  rw [List.length_append, List.length_append, List.length_singleton] at lengths
  omega

variable (externals) in
/-- The longest beginning whose items pass a bound. -/
theorem longest_items (passes : Nat → Bool) (lines : List (StoredLine LoopId Payload Replay))
    (downward : ∀ less more, less ≤ more → passes more = true → passes less = true)
    (zero : passes 0 = true) :
    ∃ found, found <+: lines ∧
      (entriesFrom externals [] lines).takeWhile (fun line => passes line.items) =
        entriesFrom externals [] found ∧
      passes (itemCount found) = true ∧
      ∀ other, other <+: lines → passes (itemCount other) = true → other <+: found := by
  apply longest_passing externals (fun line => passes line.items)
  · intro before after beginning passed
    exact downward _ _ (item_count_mono beginning) passed
  · exact zero

/-- The entry before a place is the last one of the lines up to it. -/
theorem entry_before (early rest : List (StoredLine LoopId Payload Replay)) :
    (if early.length = 0 then none
      else (entriesFrom externals [] (early ++ rest))[early.length - 1]?) =
      (entriesFrom externals [] early).getLast? := by
  split
  · rename_i none
    rw [List.length_eq_zero_iff.mp none]
    rfl
  · rename_i present
    rw [List.getLast?_eq_getElem?, entries_length, entries_append,
      List.getElem?_append_left (by rw [entries_length]; omega)]

variable (externals) in
/-- The lines that the index locates for a range: nothing before them and nothing
after them lies in it, and each of them does. -/
theorem locate_lines (request : PageRequest) (limited : 1 ≤ request.itemLimit)
    (shown : List (StoredLine LoopId Payload Replay)) :
    ∃ early middle late, shown = early ++ middle ++ late ∧
      itemCount early ≤ request.itemOffset ∧
      (late = [] ∨
        request.itemOffset + request.itemLimit ≤ itemCount (early ++ middle)) ∧
      OnPage request (itemCount early) middle ∧
      let index := entriesFrom externals [] shown
      let first := partitionPoint (fun line => decide (line.items ≤ request.itemOffset)) index
      let start := if first = 0 then none else index[first - 1]?
      let final := partitionPoint
        (fun line => decide (line.items < request.itemOffset + request.itemLimit)) index
      start = (entriesFrom externals [] early).getLast? ∧
      (if request.itemLimit = 0 ∨ first = index.length then (start.map HistoryLine.finish).getD 0
        else ((index[min final (index.length - 1)]?).map HistoryLine.finish).getD 0) =
          byteCount (early ++ middle) := by
  obtain ⟨early, ⟨rest, rfl⟩, foundFirst, reached, furthest⟩ :=
    longest_items externals (fun items => decide (items ≤ request.itemOffset)) shown
      (by
        intro less more smaller passed
        have bound := of_decide_eq_true passed
        exact decide_eq_true (by omega))
      (by simp)
  obtain ⟨near, nearInside, foundFinal, below, furthestNear⟩ :=
    longest_items externals
      (fun items => decide (items < request.itemOffset + request.itemLimit)) (early ++ rest)
      (by
        intro less more smaller passed
        have bound := of_decide_eq_true passed
        exact decide_eq_true (by omega))
      (by simp; omega)
  have reached := of_decide_eq_true reached
  have below := of_decide_eq_true below
  have firstCount : partitionPoint (fun line => decide (line.items ≤ request.itemOffset))
      (entriesFrom externals [] (early ++ rest)) = early.length := by
    rw [partitionPoint, foundFirst, entries_length]
  have finalCount : partitionPoint
      (fun line => decide (line.items < request.itemOffset + request.itemLimit))
      (entriesFrom externals [] (early ++ rest)) = near.length := by
    rw [partitionPoint, foundFinal, entries_length]
  -- No line from here on ends within the offset.
  have begun (before after : List (StoredLine LoopId Payload Replay))
      (line : StoredLine LoopId Payload Replay) (inside : early ++ (before ++ line :: after) <+:
        early ++ rest) :
      request.itemOffset < itemCount early + itemCount before + line.items.length := by
    by_contra small
    have inner : early ++ before ++ [line] <+: early := by
      apply furthest
      · refine List.IsPrefix.trans ?_ inside
        simp
      · apply decide_eq_true
        simp
        omega
    exact not_beyond inner
  dsimp only
  rw [firstCount, finalCount, entries_length, entry_before]
  have startEnd : ((entriesFrom externals [] early).getLast?.map HistoryLine.finish).getD 0 =
      byteCount early := last_total HistoryLine.finish early
  by_cases ended : rest = []
  · refine ⟨early, [], [], by simp [ended], reached, Or.inl rfl, ?_, rfl, ?_⟩
    · intro before line after wrong
      simp at wrong
    · rw [if_pos (Or.inr (by simp [ended])), startEnd, List.append_nil]
  · have unfinished : ¬ (request.itemLimit = 0 ∨ early.length = (early ++ rest).length) := by
      have present := List.length_pos_iff.mpr ended
      rw [List.length_append]
      omega
    rw [if_neg unfinished]
    obtain ⟨middle, rfl⟩ : early <+: near :=
      furthestNear early (List.prefix_append _ _) (decide_eq_true (by omega))
    obtain ⟨far, whole⟩ := nearInside
    rw [List.append_assoc] at whole
    obtain rfl : middle ++ far = rest := List.append_cancel_left whole
    -- The lines found second all begin within the range.
    have low (before : List (StoredLine LoopId Payload Replay)) (beginning : before <+: middle) :
        itemCount early + itemCount before < request.itemOffset + request.itemLimit := by
      have smaller := item_count_mono beginning
      rw [item_count_append] at below
      omega
    cases far with
    | nil =>
      rw [List.append_nil] at ended begun ⊢
      have present := List.length_pos_iff.mpr ended
      refine ⟨early, middle, [], by simp, reached, Or.inl rfl, ?_, rfl, ?_⟩
      · rintro before line after rfl
        exact ⟨begun before after line List.prefix_rfl, low before (List.prefix_append _ _)⟩
      · rw [Nat.min_eq_right (by omega), entries_get _ _ _ (by rw [List.length_append]; omega),
          Nat.sub_add_cancel (by rw [List.length_append]; omega), List.take_length]
        rfl
    | cons line far =>
      refine ⟨early, middle ++ [line], far, by simp, reached, Or.inr ?_, ?_, rfl, ?_⟩
      · by_contra small
        have inner : early ++ middle ++ [] ++ [line] <+: early ++ middle := by
          apply furthestNear
          · simp
          · apply decide_eq_true
            simp at small ⊢
            omega
        exact not_beyond inner
      · intro before other after parts
        refine ⟨begun before after other ?_, low before ?_⟩
        · rw [← parts]
          simp
        · have lengths := congrArg List.length parts
          simp only [List.length_append, List.length_cons, List.length_nil] at lengths
          refine List.prefix_of_prefix_length_le (?_ : before <+: middle ++ [line]) ?_ ?_
          · rw [parts]
            exact List.prefix_append _ _
          · exact List.prefix_append _ _
          · omega
      · rw [Nat.min_eq_left (by simp; omega), entries_get _ _ _ (by simp)]
        have front : (early ++ (middle ++ line :: far)).take ((early ++ middle).length + 1) =
            early ++ (middle ++ [line]) := by
          rw [← List.append_assoc, List.take_length_add_append]
          simp
        rw [front]
        rfl

variable (externals) in
/-- What a request asks for, if anything, is what the index makes visible. -/
theorem visible_lines (request : PageRequest)
    (lines : List (StoredLine LoopId Payload Replay)) :
    ∃ shown, shown <+: lines ∧
      visibleIndex (entriesFrom externals [] lines) request = entriesFrom externals [] shown ∧
      (request.capturedEnd = none → request.visibleItemCount = none → shown = lines) ∧
      (request.capturedEnd = none → ∀ cap ∈ request.visibleItemCount, itemCount shown ≤ cap ∧
        ∀ other, other <+: lines → itemCount other = cap → itemCount shown = cap) ∧
      ∀ captured ∈ request.capturedEnd,
        ∀ other, other <+: lines → byteCount other = captured → other = shown := by
  unfold visibleIndex
  cases pinned : request.capturedEnd with
  | none =>
    cases capped : request.visibleItemCount with
    | none => exact ⟨lines, List.prefix_rfl, by simp, by simp, by simp, by simp⟩
    | some cap =>
      obtain ⟨shown, beginning, found, within, furthest⟩ :=
        longest_items externals (fun items => decide (items ≤ cap)) lines
          (by
            intro less more smaller passed
            have bound := of_decide_eq_true passed
            exact decide_eq_true (by omega))
          (by simp)
      have within := of_decide_eq_true within
      refine ⟨shown, beginning, ?_, by simp, ?_, by simp⟩
      · dsimp only
        rw [partitionPoint, ← List.prefix_iff_eq_take.mp (List.takeWhile_prefix _), found]
      · rintro - _ ⟨rfl⟩
        refine ⟨within, ?_⟩
        intro other inside reaches
        have larger := item_count_mono (furthest other inside (decide_eq_true (by omega)))
        omega
  | some captured =>
    obtain ⟨shown, beginning, found, within, furthest⟩ :=
      longest_passing externals (fun line => decide (line.finish ≤ captured))
        (by
          intro before after beginning passed
          have bound := of_decide_eq_true passed
          have smaller := byte_count_mono beginning
          exact decide_eq_true (Nat.le_trans smaller bound))
        lines (decide_eq_true (Nat.zero_le _))
    have within : byteCount shown ≤ captured := of_decide_eq_true within
    refine ⟨shown, beginning, ?_, by simp, by simp, ?_⟩
    · dsimp only
      rw [partitionPoint, ← List.prefix_iff_eq_take.mp (List.takeWhile_prefix _), found]
    · rintro _ ⟨rfl⟩ other inside reaches
      have inner := furthest other inside (decide_eq_true (Nat.le_of_eq reaches))
      have larger := byte_count_mono inner
      exact byte_count_strict inside beginning (by omega)

variable (pages) in
/-- The checks of `indexed_page`, and the page it locates. -/
theorem indexed_page_located (limited : 1 ≤ request.itemLimit)
    (visible : visibleIndex (entriesFrom externals [] lines) request =
      entriesFrom externals [] shown) :
    ∃ early middle late, shown = early ++ middle ++ late ∧
      itemCount early ≤ request.itemOffset ∧
      (late = [] ∨
        request.itemOffset + request.itemLimit ≤ itemCount (early ++ middle)) ∧
      OnPage request (itemCount early) middle ∧
      (indexedPage externals pages (entriesFrom externals [] lines) request :
        Except StoreError (IndexedPage LoopId Payload Replay)) =
        if request.capturedEnd.any (fun captured => captured ≠ byteCount shown) ||
            request.visibleItemCount.any (fun cap => cap < itemCount shown) then
          .error .historyChanged
        else if request.expectedRevision.any
            (fun expected => expected ≠ pages.digestHex (digestOf externals shown)) then
          .error .historyChanged
        else
          .ok
            { start := byteCount early
              stop := byteCount (early ++ middle)
              firstItem := itemCount early
              page :=
                { parts := .empty, capturedEnd := byteCount shown
                  revision := pages.digestHex (digestOf externals shown)
                  trailingIncomplete := false, totalItems := itemCount shown } } := by
  obtain ⟨early, middle, late, parts, reached, beyond, onPage, start, stop⟩ :=
    locate_lines externals request limited shown
  refine ⟨early, middle, late, parts, reached, beyond, onPage, ?_⟩
  have finish (lines : List (StoredLine LoopId Payload Replay)) :
      ((entriesFrom externals [] lines).getLast?.map HistoryLine.finish).getD 0 =
        byteCount lines := last_total HistoryLine.finish lines
  have items (lines : List (StoredLine LoopId Payload Replay)) :
      ((entriesFrom externals [] lines).getLast?.map HistoryLine.items).getD 0 =
        itemCount lines := last_total HistoryLine.items lines
  have hash : ((entriesFrom externals [] shown).getLast?.map HistoryLine.hash).getD
      externals.newDigest = digestOf externals shown := last_total HistoryLine.hash shown
  unfold indexedPage
  rw [visible]
  dsimp only
  rw [finish, items, hash, stop, start, finish, items]

variable (pages times limits) in
/-- Reading the located lines, unless a limit or a failure ends it. -/
theorem read_located_outcome {early rest : List (StoredLine LoopId Payload Replay)}
    (formed : ∀ line ∈ early ++ middle ++ rest, line.WellFormed externals)
    (onPage : OnPage request (itemCount early) middle) {answers : FileAnswers}
    (answered : Answers clean (early ++ middle ++ rest) (byteCount early) answers)
    (page : HistoryReadPage LoopId Payload Replay) :
    readIndexedPage externals pages
        { start := byteCount early, stop := byteCount (early ++ middle)
          firstItem := itemCount early, page := page } request times limits answers =
      .ok { page with parts := gather pages request times page.parts (itemCount early) middle } ∨
    (∃ error, readIndexedPage externals pages
        { start := byteCount early, stop := byteCount (early ++ middle)
          firstItem := itemCount early, page := page } request times limits answers =
      .error error) ∧ ¬ (clean ∧ Ample limits (early ++ middle ++ rest)) := by
  unfold readIndexedPage
  cases checked : answers.checked with
  | error error =>
    right
    exact ⟨⟨error, rfl⟩, fun good => answered.unclean (Or.inr (Or.inl checked)) good.1⟩
  | ok passed =>
    cases known : answers.length with
    | error error =>
      right
      exact ⟨⟨error, rfl⟩, fun good => answered.unclean (Or.inl known) good.1⟩
    | ok length =>
      cases opened : answers.opened with
      | error error =>
        right
        exact ⟨⟨error, rfl⟩, fun good => answered.unclean (Or.inr (Or.inr opened)) good.1⟩
      | ok opened =>
        dsimp only
        obtain ⟨more, yields⟩ := answered.chunks
        have tail : (fileOf (early ++ middle ++ rest)).drop (byteCount early) ++ more =
            fileOf middle ++ (fileOf rest ++ more) := by
          rw [List.append_assoc early, file_of_append, file_of_append, byteCount, List.drop_left,
            List.append_assoc]
        rw [tail] at yields
        have span : byteCount (early ++ middle) - byteCount early = byteCount middle := by
          rw [byte_count_append]
          omega
        have enough : middle.length < byteCount middle + 1 := by
          have counted := Lines.length_le_join newline (middle.map StoredLine.bytes)
          rw [List.length_map] at counted
          exact Nat.lt_succ_of_le counted
        rw [span]
        rcases read_indexed_lines_outcome pages times limits
          (fun line member => formed line (by simp [member])) onPage yields enough 0 0 page.parts
          with read | ⟨⟨error, read⟩, reason⟩
        · left
          rw [read]
          rfl
        · right
          rw [read]
          refine ⟨⟨error, rfl⟩, ?_⟩
          rintro ⟨clean, ample⟩
          have count := ample.count
          have size := ample.size
          simp only [List.length_append, byte_count_append] at count size
          exact reason ⟨clean, by omega, by omega⟩

variable (times limits) in
/-- The page through the index: it is the page of the lines that the request asks
for. There is none only where the request asks for no lines, or a limit or a
failure ends the reading. -/
theorem indexed_outcome (formed : ∀ line ∈ lines, line.WellFormed externals)
    (limited : 1 ≤ request.itemLimit)
    (boundary : ∀ cap ∈ request.visibleItemCount, ∃ other, other <+: lines ∧
      itemCount other = cap)
    {answersFrom : Nat → FileAnswers}
    (answers : ∀ offset, Answers clean lines offset (answersFrom offset)) :
    (∃ shown, Shows externals pages request lines shown ∧
      indexedHistoryPage externals pages (entriesFrom externals [] lines) request times limits
        answersFrom = .ok (pageOf externals pages request times shown)) ∨
    (∃ error, indexedHistoryPage externals pages (entriesFrom externals [] lines) request times
        limits answersFrom = .error error) ∧
      ¬ (clean ∧ Ample limits lines ∧ ∃ shown, Shows externals pages request lines shown) := by
  unfold indexedHistoryPage
  by_cases together : request.capturedEnd.isSome = request.expectedRevision.isSome
  · rw [if_neg (by simpa using together)]
    obtain ⟨shown, beginning, visible, whole, capped, pinned⟩ :=
      visible_lines externals request lines
    obtain ⟨early, middle, late, parts, reached, beyond, onPage, located⟩ :=
      indexed_page_located pages limited visible
    have asked (other : List (StoredLine LoopId Payload Replay))
        (shows : Shows externals pages request lines other) :
        Shows externals pages request lines shown := by
      cases pin : request.capturedEnd with
      | some captured =>
        rwa [← pinned captured pin other shows.beginning (shows.pinned captured pin)]
      | none =>
        have unrevised : request.expectedRevision = none := by
          rw [pin] at together
          simpa using together.symm
        refine ⟨together, beginning, whole, ?_, by simp [pin], ?_, by simp [unrevised]⟩
        · intro unpinned cap member
          exact (capped unpinned cap member).2 other shows.beginning
            (shows.visible unpinned cap member)
        · intro cap member
          exact (capped pin cap member).1
    rw [located]
    by_cases changed : request.capturedEnd.any (fun captured => captured ≠ byteCount shown) ||
        request.visibleItemCount.any (fun cap => cap < itemCount shown)
    · right
      rw [if_pos changed]
      refine ⟨⟨_, rfl⟩, ?_⟩
      rintro ⟨_, _, other, shows⟩
      have same := asked other shows
      rcases (Bool.or_eq_true _ _).mp changed with moved | cut
      · obtain ⟨captured, pin, apart⟩ := (Option.any_eq_true _ _).mp moved
        exact of_decide_eq_true apart (same.pinned captured pin).symm
      · obtain ⟨cap, member, below⟩ := (Option.any_eq_true _ _).mp cut
        have covered := same.covered cap member
        have below := of_decide_eq_true below
        omega
    · rw [if_neg changed]
      by_cases revised : request.expectedRevision.any
          (fun expected => expected ≠ pages.digestHex (digestOf externals shown))
      · right
        rw [if_pos revised]
        refine ⟨⟨_, rfl⟩, ?_⟩
        rintro ⟨_, _, other, shows⟩
        obtain ⟨expected, member, apart⟩ := (Option.any_eq_true _ _).mp revised
        exact of_decide_eq_true apart ((asked other shows).revised expected member).symm
      · rw [if_neg revised]
        simp only [Bool.or_eq_true, not_or, Option.any_eq_true, not_exists, not_and,
          decide_eq_true_eq, not_not, Nat.not_lt] at changed revised
        have shows : Shows externals pages request lines shown := by
          refine ⟨together, beginning, whole, ?_, ?_, changed.2, ?_⟩
          · intro unpinned cap member
            obtain ⟨other, inside, reaches⟩ := boundary cap member
            exact (capped unpinned cap member).2 other inside reaches
          · intro captured pin
            exact (changed.1 captured pin).symm
          · intro expected member
            exact (revised expected member).symm
        obtain ⟨rest, rfl⟩ := beginning
        subst parts
        rw [List.append_assoc] at formed answers
        rcases read_located_outcome pages times limits formed
          onPage (answers (byteCount early)) _ with read | ⟨failed, reason⟩
        · left
          refine ⟨_, shows, read.trans ?_⟩
          have gathered : gather pages request times .empty (itemCount early) middle =
              gather pages request times .empty 0 (early ++ middle ++ late) := by
            rw [gather_append, gather_append, gather_outside _ 0 (Or.inl (by omega)),
              Nat.zero_add, Nat.zero_add]
            rcases beyond with none | far
            · rw [none, gather]
            · rw [gather_outside _ _ (Or.inr far)]
          rw [gathered]
          rfl
        · right
          refine ⟨failed, ?_⟩
          rintro ⟨clean, ample, _⟩
          rw [List.append_assoc] at ample
          exact reason ⟨clean, ample⟩
  · right
    rw [if_pos (by simpa using together)]
    refine ⟨⟨_, rfl⟩, ?_⟩
    rintro ⟨_, _, shown, shows⟩
    exact together shows.together

end Indexed

end MinicoreAgent.HistoryStore

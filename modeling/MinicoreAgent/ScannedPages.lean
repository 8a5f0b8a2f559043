import Mathlib.Data.List.Nodup
import MinicoreAgent.IndexedPages
import MinicoreAgent.Lib.Results
import MinicoreAgent.Lib.Text

/-!
# The scanned page is the indexed page

The scan adds up from the beginning of the file what the index has recorded. Between
two lines its state is the totals of the lines before, so it ends at the place that
the index finds, and its page is the page of the same lines.
-/
namespace MinicoreAgent.HistoryStore

variable {LoopId Payload Replay Digest : Type}
  (externals : Externals LoopId Payload Replay Digest)
  (pages : PageExternals LoopId Payload Digest)

section Scanned

variable {request : PageRequest} {times : Option (Times LoopId)} {limits : HistoryScanLimits}
  {clean : Prop} {lines shown done rest : List (StoredLine LoopId Payload Replay)}
  {line : StoredLine LoopId Payload Replay}

variable (request times) in
/-- The scan between two lines. -/
structure ScanAt (clean : Prop) (scanTarget : Nat)
    (done rest : List (StoredLine LoopId Payload Replay))
    (scan : Scan LoopId Payload Replay Digest) : Prop where
  chunks : ∃ more, Yields clean scan.chunks (fileOf rest ++ more)
  remaining : scan.remaining = scanTarget - byteCount done
  within : byteCount done ≤ scanTarget
  completeEnd : scan.completeEnd = byteCount done
  hasher : scan.hasher = digestOf externals done
  lineCount : scan.lineCount = done.length
  totalItems : scan.totalItems = itemCount done
  retained : scan.retainedSourceBytes ≤ byteCount done
  parts : scan.parts = gather pages request times .empty 0 done
  trailing : scan.trailingIncomplete = false

variable (request) in
/-- Where items are capped, every line has some. -/
def Filled (lines : List (StoredLine LoopId Payload Replay)) : Prop :=
  request.visibleItemCount ≠ none → ∀ line ∈ lines, line.items ≠ []

variable {externals pages}

/-- A beginning that is not within a place holds the line after it. -/
theorem next_inside (inside : shown <+: done ++ line :: rest) (beyond : ¬ shown <+: done) :
    done ++ [line] <+: shown := by
  have here : done ++ [line] <+: done ++ line :: rest := by simp
  rcases List.prefix_or_prefix_of_prefix inside here with short | long
  · rcases List.prefix_concat_iff.mp short with same | shorter
    · subst same
      exact List.prefix_rfl
    · exact absurd shorter beyond
  · exact long

theorem next_of_bytes (inside : shown <+: done ++ line :: rest)
    (more : byteCount done < byteCount shown) :
    byteCount done + (line.bytes.length + 1) ≤ byteCount shown ∧
      itemCount done + line.items.length ≤ itemCount shown := by
  have next : done ++ [line] <+: shown := by
    apply next_inside inside
    intro shorter
    have fewer := byte_count_mono shorter
    omega
  have bytes := byte_count_mono next
  have items := item_count_mono next
  simp only [byte_count_append, byte_count_cons, byte_count_nil, item_count_append,
    item_count_cons, item_count_nil] at bytes items
  omega

theorem next_of_items (inside : shown <+: done ++ line :: rest)
    (more : itemCount done < itemCount shown) :
    itemCount done + line.items.length ≤ itemCount shown := by
  have next : done ++ [line] <+: shown := by
    apply next_inside inside
    intro shorter
    have fewer := item_count_mono shorter
    omega
  have items := item_count_mono next
  simp only [item_count_append, item_count_cons, item_count_nil] at items
  omega

variable (limits) in
/-- One complete line of the scan: it is taken, unless the visible items end within
it or too much would be retained. -/
theorem scan_line_outcome
    (streams : ∀ digest first second,
      externals.update (externals.update digest first) second =
        externals.update digest (first ++ second))
    (formed : line.WellFormed externals) {scanTarget : Nat}
    {scan : Scan LoopId Payload Replay Digest}
    (standing : ScanAt externals pages request times clean scanTarget done (line :: rest) scan)
    {chunks : Chunks} {more : List UInt8} (yields : Yields clean chunks (fileOf rest ++ more))
    (room : line.bytes.length < scan.remaining)
    (below : ∀ cap ∈ request.visibleItemCount, itemCount done < cap) :
    (∃ next, scanLine externals pages request times limits scanTarget scan line.bytes chunks
        (scan.remaining - (line.bytes.length + 1)) = .ok next ∧
      ScanAt externals pages request times clean scanTarget (done ++ [line]) rest next ∧
      (next.stoppedAtVisibleCap = true ∧
          request.visibleItemCount = some (itemCount (done ++ [line])) ∨
        next.stoppedAtVisibleCap = false ∧
          ∀ cap ∈ request.visibleItemCount, itemCount (done ++ [line]) < cap)) ∨
    (∃ error, scanLine externals pages request times limits scanTarget scan line.bytes chunks
        (scan.remaining - (line.bytes.length + 1)) = .error error) ∧
      ((∃ cap ∈ request.visibleItemCount, cap < itemCount (done ++ [line])) ∨
        limits.maxBytes < byteCount (done ++ [line]) + maxLoopRecordBytes) := by
  have remaining := standing.remaining
  have within := standing.within
  have retained := standing.retained
  unfold scanLine
  rw [if_neg (by simp [formed.present]), formed.decodes]
  dsimp only
  simp only [byte_count_append, byte_count_cons, byte_count_nil, item_count_append,
    item_count_cons, item_count_nil, Nat.add_zero]
  rw [standing.totalItems]
  by_cases cut : request.visibleItemCount.any
      (fun cap => decide (cap < itemCount done + line.items.length))
  · right
    rw [if_pos cut]
    obtain ⟨cap, member, less⟩ := (Option.any_eq_true _ _).mp cut
    exact ⟨⟨_, rfl⟩, Or.inl ⟨cap, member, of_decide_eq_true less⟩⟩
  · rw [if_neg cut]
    generalize overlaps : decide (request.itemOffset < itemCount done + line.items.length ∧
      itemCount done < request.itemOffset + request.itemLimit) = onPage
    have grown : (scan.retainedSourceBytes + if onPage = true then line.bytes.length else 0) ≤
        byteCount done + line.bytes.length := by
      split <;> omega
    by_cases large : onPage = true ∧ limits.maxBytes - maxLoopRecordBytes <
        scan.retainedSourceBytes + if onPage = true then line.bytes.length else 0
    · right
      rw [if_pos large]
      refine ⟨⟨_, rfl⟩, Or.inr ?_⟩
      have much := large.2
      omega
    · left
      rw [if_neg large]
      refine ⟨_, rfl, ?_, ?_⟩
      · refine ⟨⟨more, yields⟩, ?_, ?_, ?_, ?_, ?_, ?_, ?_, ?_, rfl⟩
        · simp
          omega
        · simp
          omega
        · simp
          omega
        · rw [streams, standing.hasher, digest_of_snoc]
        · simp [standing.lineCount]
        · simp
        · simp
          omega
        · dsimp only
          rw [gather_append, Nat.zero_add, ← standing.parts, gather, gather, ← overlaps]
          simp
      · cases visible : request.visibleItemCount with
        | none =>
          right
          exact ⟨rfl, by simp⟩
        | some cap =>
          have positive := below cap visible
          rw [visible] at cut
          simp only [Option.any_some, decide_eq_true_eq, Nat.not_lt] at cut
          by_cases reached : cap = itemCount done + line.items.length
          · left
            simp only [Option.any_some, decide_eq_true_eq, Option.some.injEq]
            exact ⟨⟨by omega, reached⟩, reached⟩
          · right
            simp only [Option.any_some, decide_eq_false_iff_not, Option.mem_some_iff,
              forall_eq']
            omega

/-- The scan from between two lines: it ends between two lines, at the visible items
or at its target, or a limit or a failure ends it, or the request asks for no
lines. -/
theorem scan_lines_outcome
    (streams : ∀ digest first second,
      externals.update (externals.update digest first) second =
        externals.update digest (first ++ second))
    (formed : ∀ line ∈ done ++ rest, line.WellFormed externals)
    {target fuel : Nat} {scan : Scan LoopId Payload Replay Digest}
    (unpinned : request.capturedEnd = none → target = byteCount (done ++ rest))
    (pinned : ∀ captured ∈ request.capturedEnd, target = captured)
    (inside : target ≤ byteCount (done ++ rest))
    (standing : ScanAt externals pages request times clean (min target limits.maxBytes) done rest
      scan)
    (below : ∀ cap ∈ request.visibleItemCount, itemCount done < cap)
    (going : scan.stoppedAtVisibleCap = false) (enough : scan.remaining < fuel) :
    (∃ final shown left, done ++ rest = shown ++ left ∧
      scanLines externals pages request times limits target (min target limits.maxBytes) fuel scan =
        .ok final ∧
      ScanAt externals pages request times clean (min target limits.maxBytes) shown left final ∧
      (final.stoppedAtVisibleCap = true ∧ request.visibleItemCount = some (itemCount shown) ∨
        final.stoppedAtVisibleCap = false ∧ final.remaining = 0 ∧
          ∀ cap ∈ request.visibleItemCount, itemCount shown < cap)) ∨
    (∃ error, scanLines externals pages request times limits target (min target limits.maxBytes)
        fuel scan = .error error) ∧
      ¬ (clean ∧ Ample limits (done ++ rest) ∧
        ∃ shown, Shows externals pages request (done ++ rest) shown) := by
  induction rest generalizing done fuel scan with
  | nil =>
    obtain ⟨fuel, rfl⟩ : ∃ less, fuel = less + 1 := ⟨fuel - 1, by omega⟩
    left
    have ended : scan.remaining = 0 := by
      rw [standing.remaining]
      rw [List.append_nil] at inside
      omega
    exact ⟨scan, done, [], by simp, by rw [scanLines, if_pos ended], standing,
      Or.inr ⟨going, ended, below⟩⟩
  | cons line rest inductionHypothesis =>
    obtain ⟨fuel, rfl⟩ : ∃ less, fuel = less + 1 := ⟨fuel - 1, by omega⟩
    have here := formed line (by simp)
    rw [scanLines]
    by_cases ended : scan.remaining = 0
    · left
      exact ⟨scan, done, line :: rest, rfl, by rw [if_pos ended], standing,
        Or.inr ⟨going, ended, below⟩⟩
    · rw [if_neg ended]
      by_cases many : limits.maxLines ≤ scan.lineCount
      · right
        rw [if_pos many]
        refine ⟨⟨_, rfl⟩, ?_⟩
        rintro ⟨_, ample, _⟩
        have count := ample.count
        rw [standing.lineCount] at many
        rw [List.length_append, List.length_cons] at count
        omega
      · rw [if_neg many]
        have remaining := standing.remaining
        obtain ⟨more, yields⟩ := standing.chunks
        rw [file_of_cons, List.append_assoc, List.cons_append] at yields
        rw [List.append_cons] at formed unpinned inside
        have whole : done ++ line :: rest = done ++ [line] ++ rest := List.append_cons ..
        -- A pinned end that the scan has not reached lies behind this line.
        have ahead (ample : Ample limits (done ++ line :: rest))
            (other : List (StoredLine LoopId Payload Replay))
            (shows : Shows externals pages request (done ++ line :: rest) other)
            (captured : Nat) (pin : request.capturedEnd = some captured) :
            byteCount done + (line.bytes.length + 1) ≤ byteCount other ∧
              itemCount done + line.items.length ≤ itemCount other := by
          have size := ample.size
          rw [← whole] at inside
          apply next_of_bytes shows.beginning
          rw [shows.pinned captured pin, ← pinned captured pin]
          omega
        by_cases room : line.bytes.length < scan.remaining
        · rcases read_line_complete LineBuffer.holds_empty yields here.oneLine here.fits room with
            ⟨left, read, yields⟩ | ⟨dirty, error, read⟩
          · rw [read, List.nil_append]
            dsimp only
            rcases scan_line_outcome limits streams here standing yields room below
              with ⟨next, taken, after, stopped⟩ | ⟨⟨error, refused⟩, reason⟩
            · rw [taken]
              dsimp only
              rcases stopped with ⟨stopped, capped⟩ | ⟨onward, below⟩
              · left
                rw [if_pos stopped]
                exact ⟨next, done ++ [line], rest, whole, rfl, after, Or.inl ⟨stopped, capped⟩⟩
              · rw [if_neg (by simp [onward]), whole]
                have fewer : next.remaining < fuel := by
                  rw [after.remaining, byte_count_append, byte_count_cons]
                  omega
                exact inductionHypothesis formed unpinned inside after below onward fewer
            · right
              rw [refused]
              refine ⟨⟨error, rfl⟩, ?_⟩
              rintro ⟨_, ample, other, shows⟩
              rcases reason with ⟨cap, member, cut⟩ | large
              · have covered := shows.covered cap member
                have counted : itemCount done + line.items.length ≤ itemCount other := by
                  cases pin : request.capturedEnd with
                  | none =>
                    apply next_of_items shows.beginning
                    rw [shows.visible pin cap member]
                    exact below cap member
                  | some captured => exact (ahead ample other shows captured pin).2
                simp only [item_count_append, item_count_cons, item_count_nil] at cut
                omega
              · have size := ample.size
                rw [whole, byte_count_append] at size
                omega
          · right
            rw [read]
            exact ⟨⟨error, rfl⟩, fun good => dirty good.1⟩
        · -- The target lies inside the line, so it is a pinned one, or the budget.
          right
          have cut : request.capturedEnd = none → min target limits.maxBytes < target := by
            intro free
            have total := unpinned free
            simp only [byte_count_append, byte_count_cons, byte_count_nil] at total
            have standingWithin := standing.within
            omega
          constructor
          · cases read : readBoundedLine scan.chunks scan.remaining .empty with
            | error error => exact ⟨error, rfl⟩
            | ok outcome =>
              obtain ⟨bounded, left, remains⟩ := outcome
              cases bounded with
              | finished => exact ⟨_, rfl⟩
              | complete text =>
                exact absurd read (read_line_incomplete yields here.oneLine (by omega) _ _ _)
              | unfinished =>
                dsimp only
                cases pin : request.capturedEnd with
                | none => exact ⟨_, by rw [if_neg (by simp), if_pos (cut pin)]⟩
                | some captured => exact ⟨_, if_pos rfl⟩
          · rintro ⟨_, ample, other, shows⟩
            have size := ample.size
            rw [← whole] at inside
            cases pin : request.capturedEnd with
            | none =>
              have early := cut pin
              omega
            | some captured =>
              have beyond := (ahead ample other shows captured pin).1
              rw [shows.pinned captured pin, ← pinned captured pin] at beyond
              omega

/-- The page of a scan that ended between two lines. -/
theorem finish_outcome {left : List (StoredLine LoopId Payload Replay)}
    (together : request.capturedEnd.isSome = request.expectedRevision.isSome)
    (boundary : ∀ cap ∈ request.visibleItemCount, ∃ other, other <+: shown ++ left ∧
      itemCount other = cap)
    {target : Nat} {final : Scan LoopId Payload Replay Digest}
    (unpinned : request.capturedEnd = none → target = byteCount (shown ++ left))
    (pinned : ∀ captured ∈ request.capturedEnd, target = captured)
    (inside : target ≤ byteCount (shown ++ left))
    (standing : ScanAt externals pages request times clean (min target limits.maxBytes) shown left
      final)
    (ended : final.stoppedAtVisibleCap = true ∧ request.visibleItemCount = some (itemCount shown) ∨
      final.stoppedAtVisibleCap = false ∧ final.remaining = 0 ∧
        ∀ cap ∈ request.visibleItemCount, itemCount shown < cap) :
    (Shows externals pages request (shown ++ left) shown ∧
      finishScan pages request target (min target limits.maxBytes) final =
        .ok (pageOf externals pages request times shown)) ∨
    (∃ error, finishScan pages request target (min target limits.maxBytes) final =
        .error error) ∧
      ¬ (Ample limits (shown ++ left) ∧ Filled request (shown ++ left) ∧
        ∃ other, Shows externals pages request (shown ++ left) other) := by
  have remaining := standing.remaining
  have within := standing.within
  unfold finishScan
  dsimp only
  rw [standing.hasher, standing.completeEnd, standing.parts, standing.totalItems,
    standing.trailing]
  have beginning : shown <+: shown ++ left := List.prefix_append _ _
  by_cases budget : final.stoppedAtVisibleCap = false ∧ min target limits.maxBytes < target
  · right
    rw [if_pos budget]
    refine ⟨⟨_, rfl⟩, ?_⟩
    rintro ⟨ample, _⟩
    have size := ample.size
    omega
  rw [if_neg budget]
  have consumed : ¬ (final.remaining ≠ 0 ∧ final.stoppedAtVisibleCap = false) := by
    rintro ⟨unread, going⟩
    rcases ended with ⟨stopped, _⟩ | ⟨_, none, _⟩
    · rw [going] at stopped
      cases stopped
    · exact unread none
  rw [if_neg consumed]
  by_cases moved : request.capturedEnd.isSome = true ∧ byteCount shown ≠ target
  · right
    rw [if_pos moved]
    refine ⟨⟨_, rfl⟩, ?_⟩
    rintro ⟨ample, filled, other, shows⟩
    obtain ⟨captured, pin⟩ := Option.isSome_iff_exists.mp moved.1
    have reaches := shows.pinned captured pin
    rw [← pinned captured pin] at reaches
    have size := ample.size
    rcases ended with ⟨_, capped⟩ | ⟨going, none, _⟩
    · have covered := shows.covered _ capped
      have more : itemCount shown ≤ itemCount other := by
        rcases List.prefix_or_prefix_of_prefix beginning shows.beginning with inner | inner
        · exact item_count_mono inner
        · have fewer := byte_count_mono inner
          have same := byte_count_strict beginning shows.beginning (by omega)
          exact Nat.le_of_eq (congrArg itemCount same)
      have same := item_count_strict (filled (by simp [capped])) beginning shows.beginning
        (by omega)
      rw [same, reaches] at moved
      exact moved.2 rfl
    · have short := moved.2
      omega
  rw [if_neg moved]
  by_cases revised : request.expectedRevision.any
      (fun expected => expected ≠ pages.digestHex (digestOf externals shown))
  · right
    rw [if_pos revised]
    refine ⟨⟨_, rfl⟩, ?_⟩
    rintro ⟨_, _, other, shows⟩
    obtain ⟨expected, member, apart⟩ := (Option.any_eq_true _ _).mp revised
    obtain ⟨captured, pin⟩ : ∃ captured, request.capturedEnd = some captured := by
      apply Option.isSome_iff_exists.mp
      rw [together, member]
      rfl
    have same : other = shown := by
      apply byte_count_strict shows.beginning beginning
      rw [shows.pinned captured pin, ← pinned captured pin]
      by_contra apart
      exact moved ⟨by simp [pin], fun same => apart same.symm⟩
    have asked := shows.revised expected member
    rw [same] at asked
    exact of_decide_eq_true apart asked.symm
  · left
    rw [if_neg revised]
    refine ⟨?_, rfl⟩
    -- A scan that no cap stopped has read all lines, where nothing is pinned.
    have all (free : request.capturedEnd = none) (going : final.stoppedAtVisibleCap = false)
        (none : final.remaining = 0) : shown = shown ++ left := by
      apply byte_count_strict beginning List.prefix_rfl
      have total := unpinned free
      have within : ¬ min target limits.maxBytes < target := fun less => budget ⟨going, less⟩
      omega
    refine ⟨together, beginning, ?_, ?_, ?_, ?_, ?_⟩
    · intro free uncapped
      rcases ended with ⟨_, capped⟩ | ⟨going, none, _⟩
      · rw [uncapped] at capped
        cases capped
      · exact all free going none
    · intro free cap member
      rcases ended with ⟨_, capped⟩ | ⟨going, none, below⟩
      · rw [capped] at member
        exact Option.some.inj member
      · obtain ⟨other, inner, reaches⟩ := boundary cap member
        rw [← all free going none] at inner
        have less := below cap member
        have fewer := item_count_mono inner
        omega
    · intro captured pin
      rw [← pinned captured pin]
      by_contra apart
      exact moved ⟨Option.isSome_of_mem pin, apart⟩
    · intro cap member
      rcases ended with ⟨_, capped⟩ | ⟨_, _, below⟩
      · rw [capped] at member
        exact Nat.le_of_eq (Option.some.inj member)
      · exact Nat.le_of_lt (below cap member)
    · intro expected member
      by_contra apart
      apply revised
      rw [member]
      exact decide_eq_true (fun same => apart same.symm)

/-- The scan of a file whose visible items are not none. -/
theorem scan_file_outcome
    (streams : ∀ digest first second,
      externals.update (externals.update digest first) second =
        externals.update digest (first ++ second))
    (formed : ∀ line ∈ lines, line.WellFormed externals)
    (together : request.capturedEnd.isSome = request.expectedRevision.isSome)
    (boundary : ∀ cap ∈ request.visibleItemCount, ∃ other, other <+: lines ∧
      itemCount other = cap)
    (positive : ∀ cap ∈ request.visibleItemCount, 0 < cap) {target : Nat}
    (unpinned : request.capturedEnd = none → target = byteCount lines)
    (pinned : ∀ captured ∈ request.capturedEnd, target = captured)
    (inside : target ≤ byteCount lines) {chunks : Chunks} {more : List UInt8}
    (yields : Yields clean chunks (fileOf lines ++ more)) :
    (∃ shown, Shows externals pages request lines shown ∧
      scanFile externals pages request times limits target chunks =
        .ok (pageOf externals pages request times shown)) ∨
    (∃ error, scanFile externals pages request times limits target chunks = .error error) ∧
      ¬ (clean ∧ Ample limits lines ∧ Filled request lines ∧
        ∃ shown, Shows externals pages request lines shown) := by
  unfold scanFile
  dsimp only
  have standing : ScanAt externals pages request times clean (min target limits.maxBytes) [] lines
      { chunks := chunks, remaining := min target limits.maxBytes, completeEnd := 0
        hasher := externals.newDigest, lineCount := 0, totalItems := 0
        retainedSourceBytes := 0, parts := .empty, stoppedAtVisibleCap := false
        trailingIncomplete := false } :=
    ⟨⟨more, yields⟩, rfl, Nat.zero_le _, rfl, rfl, rfl, rfl, Nat.le_refl _, rfl, rfl⟩
  have whole : target ≤ byteCount ([] ++ lines) := inside
  rcases scan_lines_outcome streams formed unpinned pinned whole standing positive rfl
    (Nat.lt_succ_self _) with
    ⟨final, shown, left, parts, ran, ending, ended⟩ | ⟨⟨error, ran⟩, reason⟩
  · rw [List.nil_append] at parts
    subst parts
    rw [ran]
    dsimp only
    rcases finish_outcome together boundary unpinned pinned inside ending ended with
      ⟨shows, finished⟩ | ⟨failed, reason⟩
    · left
      exact ⟨shown, shows, finished⟩
    · right
      exact ⟨failed, fun good => reason good.2⟩
  · right
    rw [ran]
    exact ⟨⟨error, rfl⟩, fun good => reason ⟨good.1, good.2.1, good.2.2.2⟩⟩

variable (pages times) in
/-- The page where no items are visible: it is the page of no lines. -/
theorem empty_outcome
    (together : request.capturedEnd.isSome = request.expectedRevision.isSome)
    (none : request.visibleItemCount = some 0) :
    (∃ shown, Shows externals pages request lines shown ∧
      (if request.capturedEnd.any (fun captured => captured ≠ 0) then .error .historyChanged
        else finishEmptyHistoryPage externals pages request) =
        .ok (pageOf externals pages request times shown)) ∨
    (∃ error, (if request.capturedEnd.any (fun captured => captured ≠ 0) then
          .error .historyChanged
        else finishEmptyHistoryPage externals pages request :
          Except StoreError (HistoryReadPage LoopId Payload Replay)) = .error error) ∧
      ¬ (Filled request lines ∧ ∃ shown, Shows externals pages request lines shown) := by
  have only (filled : Filled request lines) (other : List (StoredLine LoopId Payload Replay))
      (shows : Shows externals pages request lines other) : other = [] := by
    apply item_count_strict (filled (by simp [none])) shows.beginning List.nil_prefix
    have covered := shows.covered 0 none
    rw [item_count_nil]
    omega
  by_cases moved : request.capturedEnd.any (fun captured => captured ≠ 0)
  · right
    rw [if_pos moved]
    refine ⟨⟨_, rfl⟩, ?_⟩
    rintro ⟨filled, other, shows⟩
    obtain ⟨captured, pin, apart⟩ := (Option.any_eq_true _ _).mp moved
    have reaches := shows.pinned captured pin
    rw [only filled other shows] at reaches
    exact of_decide_eq_true apart reaches.symm
  rw [if_neg moved, finishEmptyHistoryPage]
  by_cases revised : request.expectedRevision.any
      (fun expected => expected ≠ pages.digestHex externals.newDigest)
  · right
    rw [if_pos revised]
    refine ⟨⟨_, rfl⟩, ?_⟩
    rintro ⟨filled, other, shows⟩
    obtain ⟨expected, member, apart⟩ := (Option.any_eq_true _ _).mp revised
    have asked := shows.revised expected member
    rw [only filled other shows] at asked
    exact of_decide_eq_true apart asked.symm
  · left
    rw [if_neg revised]
    simp only [Option.any_eq_true, not_exists, not_and, decide_eq_true_eq, not_not]
      at moved revised
    refine ⟨[], ?_, rfl⟩
    refine ⟨together, List.nil_prefix, by simp [none], by simp [none], ?_, by simp, ?_⟩
    · intro captured pin
      exact (moved captured pin).symm
    · intro expected member
      exact (revised expected member).symm

variable (times limits) in
/-- The page by a scan: it is the page of the lines that the request asks for. There
is none only where the request asks for no lines, or a limit or a failure ends the
scan. -/
theorem scan_outcome
    (streams : ∀ digest first second,
      externals.update (externals.update digest first) second =
        externals.update digest (first ++ second))
    (hexes : ∀ digest, validSha256 (pages.digestHex digest) = true)
    (formed : ∀ line ∈ lines, line.WellFormed externals)
    (boundary : ∀ cap ∈ request.visibleItemCount, ∃ other, other <+: lines ∧
      itemCount other = cap)
    {answers : FileAnswers} (answered : Answers clean lines 0 answers) :
    (∃ shown, Shows externals pages request lines shown ∧
      scanHistoryPage externals pages request times limits answers =
        .ok (pageOf externals pages request times shown)) ∨
    (∃ error, scanHistoryPage externals pages request times limits answers = .error error) ∧
      ¬ (clean ∧ Ample limits lines ∧ Filled request lines ∧
        ∃ shown, Shows externals pages request lines shown) := by
  unfold scanHistoryPage
  by_cases together : request.capturedEnd.isSome = request.expectedRevision.isSome
  rotate_left
  · right
    rw [if_pos (by simpa using together)]
    refine ⟨⟨_, rfl⟩, ?_⟩
    rintro ⟨_, _, _, shown, shows⟩
    exact together shows.together
  rw [if_neg (by simpa using together)]
  cases known : answers.length with
  | error error =>
    right
    exact ⟨⟨error, rfl⟩, fun good => answered.unclean (Or.inl known) good.1⟩
  | ok length =>
    obtain rfl := answered.length length known
    dsimp only
    have unpinned (free : request.capturedEnd = none) :
        request.capturedEnd.getD (byteCount lines) = byteCount lines := by
      rw [free]
      rfl
    have pinned (captured : Nat) (pin : captured ∈ request.capturedEnd) :
        request.capturedEnd.getD (byteCount lines) = captured := by
      rw [pin]
      rfl
    generalize request.capturedEnd.getD (byteCount lines) = target at unpinned pinned ⊢
    by_cases beyond : byteCount lines < target
    · right
      rw [if_pos beyond]
      refine ⟨⟨_, rfl⟩, ?_⟩
      rintro ⟨_, _, _, shown, shows⟩
      have fewer := byte_count_mono shows.beginning
      cases pin : request.capturedEnd with
      | none =>
        have same := unpinned pin
        omega
      | some captured =>
        rw [shows.pinned captured pin, ← pinned captured pin] at fewer
        omega
    rw [if_neg beyond]
    by_cases malformed : request.expectedRevision.any (fun expected => !validSha256 expected)
    · right
      rw [if_pos malformed]
      refine ⟨⟨_, rfl⟩, ?_⟩
      rintro ⟨_, _, _, shown, shows⟩
      obtain ⟨expected, member, invalid⟩ := (Option.any_eq_true _ _).mp malformed
      rw [← shows.revised expected member, hexes] at invalid
      cases invalid
    rw [if_neg malformed]
    cases checked : answers.checked with
    | error error =>
      right
      exact ⟨⟨error, rfl⟩, fun good => answered.unclean (Or.inr (Or.inl checked)) good.1⟩
    | ok passed =>
      dsimp only
      by_cases none : request.visibleItemCount = some 0
      · rw [if_pos none]
        rcases empty_outcome pages times together none with shown | ⟨failed, reason⟩
        · left
          exact shown
        · right
          exact ⟨failed, fun good => reason good.2.2⟩
      · rw [if_neg none]
        cases opened : answers.opened with
        | error error =>
          right
          exact ⟨⟨error, rfl⟩, fun good => answered.unclean (Or.inr (Or.inr opened)) good.1⟩
        | ok opened =>
          dsimp only
          obtain ⟨more, yields⟩ := answered.chunks
          rw [List.drop_zero] at yields
          apply scan_file_outcome streams formed together boundary _ unpinned pinned
            (Nat.le_of_not_lt beyond) yields
          intro cap member
          apply Nat.pos_of_ne_zero
          rintro rfl
          exact none member

end Scanned

section KnownTimes

variable {request : PageRequest} {lines : List (StoredLine LoopId Payload Replay)}
  {line : StoredLine LoopId Payload Replay} {record : StoredLoopRecord LoopId Payload Replay}

/-- The times that a line has in the file. -/
def StoredLine.timeOf (line : StoredLine LoopId Payload Replay) (occurrence : Nat) :
    Option String :=
  ((line.record.normalizedUserTimes.getD [])[occurrence]?).join

/-- The known times of the prompts of these lines are those of the file. -/
def Recorded (lines : List (StoredLine LoopId Payload Replay)) (times : Times LoopId) : Prop :=
  ∀ line ∈ lines, ∀ user, .user user ∈ line.items → ∀ occurrence time,
    times (pages.userLoopId user, occurrence) = some time → line.timeOf occurrence = some time

variable {pages}

/-- Times that the file has too change nothing. -/
theorem prompt_time_recorded {times : Times LoopId} {stored : List (Option String)}
    {user : Payload} {occurrence : Nat}
    (recorded : ∀ time, times (pages.userLoopId user, occurrence) = some time →
      (stored[occurrence]?).join = some time) :
    promptTime pages (some times) stored user occurrence =
      promptTime pages none stored user occurrence := by
  unfold promptTime
  rw [Option.bind_some, Option.bind_none, Option.none_or]
  cases known : times (pages.userLoopId user, occurrence) with
  | none => rfl
  | some time => rw [recorded time known, Option.some_or]

theorem items_in_range_recorded {times : Times LoopId} {stored : List (Option String)}
    {first bound : Nat} (items : List (HistoryItem Payload Replay))
    (recorded : ∀ user, .user user ∈ items → ∀ occurrence time,
      times (pages.userLoopId user, occurrence) = some time →
        (stored[occurrence]?).join = some time) (position occurrence : Nat) :
    itemsInRange pages (some times) stored first bound items position occurrence =
      itemsInRange pages none stored first bound items position occurrence := by
  induction items generalizing position occurrence with
  | nil => rfl
  | cons item rest inductionHypothesis =>
    have later := inductionHypothesis
      (fun user member => recorded user (List.mem_cons_of_mem item member))
    cases item with
    | user user =>
      have same := prompt_time_recorded (recorded user (by simp) occurrence)
      simp only [itemsInRange, same, later]
    | assistant assistant => simp only [itemsInRange, later]
    | toolResult result => simp only [itemsInRange, later]
    | summary summary => simp only [itemsInRange, later]

/-- A page is the same with known times as without, if the file has them too. -/
theorem page_recorded {times : Times LoopId} (recorded : Recorded pages lines times) :
    pageOf externals pages request (some times) lines =
      pageOf externals pages request none lines := by
  have gathers (parts : PageParts LoopId Payload Replay) (start : Nat) :
      gather pages request (some times) parts start lines =
        gather pages request none parts start lines := by
    induction lines generalizing parts start with
    | nil => rfl
    | cons line rest inductionHypothesis =>
      have same (parts : PageParts LoopId Payload Replay) :
          appendPageRecord pages parts line.record line.items start request.itemOffset
              (request.itemOffset + request.itemLimit) (some times) =
            appendPageRecord pages parts line.record line.items start request.itemOffset
              (request.itemOffset + request.itemLimit) none := by
        unfold appendPageRecord
        rw [items_in_range_recorded line.items (recorded line (by simp))]
      rw [gather, gather, same]
      exact inductionHypothesis
        (fun line member => recorded line (List.mem_cons_of_mem _ member)) _ _
  unfold pageOf
  rw [gathers]

/-- The reader leaves only valid times in a record. -/
theorem read_record_times {externals : Externals LoopId Payload Replay Digest}
    {bytes : List UInt8} (read : readRecord externals bytes = some record) :
    record.TimesValid := by
  obtain ⟨stored, _, rfl⟩ := Option.map_eq_some_iff.mp read
  intro times known time member value present
  obtain ⟨raw, _, rfl⟩ := Option.map_eq_some_iff.mp known
  obtain ⟨earlier, _, rfl⟩ := List.mem_map.mp member
  exact (Option.filter_eq_some_iff.mp present).2

/-- A time that loading inserts is the time that a page finds in the file. -/
theorem inserted_time (valid : line.record.TimesValid) {occurrence : Nat} {time : String}
    (inserted : (((line.record.userTimes.filter
      (·.length ≤ line.record.userCount)).getD [])[occurrence]?) = some (some time)) :
    line.timeOf occurrence = some time := by
  cases known : line.record.userTimes with
  | none =>
    rw [known] at inserted
    simp at inserted
  | some times =>
    rw [known] at inserted
    by_cases few : times.length ≤ line.record.userCount
    · simp only [Option.filter, few, decide_true, if_true, Option.getD_some] at inserted
      have passes := valid times known (some time) (List.mem_of_getElem? inserted) time rfl
      unfold StoredLine.timeOf StoredLoopRecord.normalizedUserTimes
      rw [known]
      simp only [if_neg (Nat.not_lt.mpr few), Option.getD_some, List.getElem?_map, inserted]
      simp [Option.filter, passes]
    · simp [Option.filter, few] at inserted

variable [DecidableEq LoopId]

/-- Inserting adds only times of the record. -/
theorem insert_times_known {loopId : LoopId} {userTimes : List (Option String)}
    (items : List (HistoryItem Payload Replay)) {occurrence : Nat} {times : Times LoopId}
    {key : LoopId × Nat} {time : String}
    (known : insertTimes loopId userTimes items occurrence times key = some time) :
    times key = some time ∨ key.1 = loopId ∧ userTimes[key.2]? = some (some time) := by
  induction items generalizing occurrence times with
  | nil => exact Or.inl known
  | cons item rest inductionHypothesis =>
    cases item with
    | user user =>
      rcases inductionHypothesis known with found | found
      · split at found
        · rename_i present
          by_cases here : key = (loopId, occurrence)
          · rw [here, Function.update_self] at found
            right
            rw [here, ← Option.some.inj found]
            exact ⟨rfl, present⟩
          · rw [Function.update_of_ne here] at found
            exact Or.inl found
        · exact Or.inl found
      · exact Or.inr found
    | assistant assistant => exact inductionHypothesis known
    | toolResult result => exact inductionHypothesis known
    | summary summary => exact inductionHypothesis known

variable {externals}

/-- A loaded time is the time of a line of its loop. -/
theorem loaded_times_known (formed : ∀ line ∈ lines, line.WellFormed externals)
    {key : LoopId × Nat} {time : String}
    (known : (Loaded.ofLines externals lines).times key = some time) :
    ∃ line ∈ lines, line.record.loopId = key.1 ∧ line.timeOf key.2 = some time := by
  have enters (loaded : Loaded LoopId Payload Replay Digest)
      (known : (lines.foldl (fun loaded line =>
        loaded.enter externals line.bytes line.record line.items) loaded).times key = some time) :
      loaded.times key = some time ∨
        ∃ line ∈ lines, line.record.loopId = key.1 ∧ line.timeOf key.2 = some time := by
    clear * - formed known
    induction lines generalizing loaded with
    | nil => exact Or.inl known
    | cons line rest inductionHypothesis =>
      rw [List.foldl_cons] at known
      rcases inductionHypothesis (fun line member => formed line (by simp [member])) _ known with
        earlier | ⟨other, member, found⟩
      · rcases insert_times_known line.record.items earlier with old | ⟨own, inserted⟩
        · exact Or.inl old
        · right
          have read := (formed line (by simp)).read.1
          exact ⟨line, by simp, own.symm, inserted_time (read_record_times read) inserted⟩
      · exact Or.inr ⟨other, by simp [member], found⟩
  rcases enters .empty known with impossible | found
  · cases impossible
  · exact found

end KnownTimes

section Agreement

variable [DecidableEq LoopId] {lines : List (StoredLine LoopId Payload Replay)}

/-- A history file as the store writes it: every line is a record with at least one
item, every loop has one record, and a prompt names the loop of its record. -/
structure WellFormedHistory (lines : List (StoredLine LoopId Payload Replay)) : Prop where
  formed : ∀ line ∈ lines, line.WellFormed externals
  filled : ∀ line ∈ lines, line.items ≠ []
  distinct : (lines.map (fun line => line.record.loopId)).Nodup
  own : ∀ line ∈ lines, ∀ user, .user user ∈ line.items →
    pages.userLoopId user = line.record.loopId

variable {externals pages}

/-- Well-formed lines are entered one after the other. -/
theorem enter_well_formed (formed : ∀ line ∈ lines, line.WellFormed externals) :
    enterLines externals (lines.map StoredLine.bytes) .empty =
      some (Loaded.ofLines externals lines) := by
  have enters (loaded : Loaded LoopId Payload Replay Digest) :
      enterLines externals (lines.map StoredLine.bytes) loaded =
        some (lines.foldl (fun loaded line =>
          loaded.enter externals line.bytes line.record line.items) loaded) := by
    induction lines generalizing loaded with
    | nil => rfl
    | cons line rest inductionHypothesis =>
      rw [List.map_cons, enterLines, (formed line (by simp)).parsed, Option.bind_some]
      exact inductionHypothesis (fun line member => formed line (by simp [member])) _
  exact enters .empty

omit [DecidableEq LoopId] in
theorem well_formed_free (formed : ∀ line ∈ lines, line.WellFormed externals) :
    ∀ bytes ∈ lines.map StoredLine.bytes, newline ∉ bytes := by
  intro bytes member
  obtain ⟨line, inside, rfl⟩ := List.mem_map.mp member
  exact (formed line inside).oneLine

/-- Well-formed lines are loaded as they are. -/
theorem load_well_formed (formed : ∀ line ∈ lines, line.WellFormed externals)
    {chunks : List (List UInt8)} (reads : Reads chunks (fileOf lines)) :
    loadHistory externals (fileOf lines) chunks =
      (.ok (Loaded.ofLines externals lines), fileOf lines) := by
  have agrees : Agrees externals
      { bytes := fileOf lines, index := (Loaded.ofLines externals lines).index }
      (Loaded.ofLines externals lines) :=
    ⟨⟨lines.map StoredLine.bytes, rfl, well_formed_free formed, enter_well_formed formed⟩, rfl⟩
  exact agrees.loads reads

/-- The times of a loaded history are those of its file. -/
theorem loaded_times_recorded (history : WellFormedHistory externals pages lines) :
    Recorded pages lines (Loaded.ofLines externals lines).times := by
  intro line member user prompt occurrence time known
  obtain ⟨other, inside, loop, found⟩ := loaded_times_known history.formed known
  have same : other = line := by
    apply List.inj_on_of_nodup_map history.distinct inside member
    rw [loop]
    exact history.own line member user prompt
  rwa [same] at found

/-- The page does not depend on whether the reader knows the times of the file. -/
theorem page_with_known_times (history : WellFormedHistory externals pages lines)
    {request : PageRequest} {times : Option (Times LoopId)}
    (known : times = none ∨ times = some (Loaded.ofLines externals lines).times)
    {shown : List (StoredLine LoopId Payload Replay)} (beginning : shown <+: lines) :
    pageOf externals pages request times shown = pageOf externals pages request none shown := by
  rcases known with rfl | rfl
  · rfl
  · apply page_recorded
    intro line member
    exact loaded_times_recorded history line (beginning.subset member)

/-- The indexed page is the scanned page. A well-formed history is loaded, and a page
of at least one item is asked for, with visible items that end with a record and
with or without the end and revision of an earlier page. If the reader with the
index of the loaded Session and the reader that scans the file both answer, their
pages are the same: items, times, turns, captured end, revision and total. If no
limit is reached and no call fails, one answers exactly if the other does. -/
theorem indexed_page_is_scanned_page
    (streams : ∀ digest first second,
      externals.update (externals.update digest first) second =
        externals.update digest (first ++ second))
    (hexes : ∀ digest, validSha256 (pages.digestHex digest) = true)
    (history : WellFormedHistory externals pages lines) {chunks : List (List UInt8)}
    (reads : Reads chunks (fileOf lines)) {loaded : Loaded LoopId Payload Replay Digest}
    {file : List UInt8}
    (opened : loadHistory externals (fileOf lines) chunks = (.ok loaded, file))
    (request : PageRequest) (limited : 1 ≤ request.itemLimit)
    (boundary : ∀ cap ∈ request.visibleItemCount, ∃ other, other <+: lines ∧
      itemCount other = cap)
    {warm cold : Option (Times LoopId)} (warmTimes : warm = none ∨ warm = some loaded.times)
    (coldTimes : cold = none ∨ cold = some loaded.times) (clean : Prop)
    (warmLimits coldLimits : HistoryScanLimits) {answersFrom : Nat → FileAnswers}
    (indexAnswers : ∀ offset, Answers clean lines offset (answersFrom offset))
    {answers : FileAnswers} (scanAnswers : Answers clean lines 0 answers) :
    file = fileOf lines ∧
    (∀ indexed scanned,
      indexedHistoryPage externals pages loaded.index request warm warmLimits answersFrom =
        .ok indexed →
      scanHistoryPage externals pages request cold coldLimits answers = .ok scanned →
      indexed = scanned) ∧
    (clean → Ample warmLimits lines → Ample coldLimits lines →
      (indexedHistoryPage externals pages loaded.index request warm warmLimits
        answersFrom).toOption =
        (scanHistoryPage externals pages request cold coldLimits answers).toOption) := by
  rw [load_well_formed history.formed reads] at opened
  cases opened
  rw [of_lines_index, index_entries]
  have same (shown other : List (StoredLine LoopId Payload Replay))
      (shows : Shows externals pages request lines shown)
      (again : Shows externals pages request lines other) :
      pageOf externals pages request warm shown = pageOf externals pages request cold other := by
    rw [← shows.unique history.filled again, page_with_known_times history warmTimes shows.beginning,
      page_with_known_times history coldTimes shows.beginning]
  rcases indexed_outcome warm warmLimits history.formed limited boundary indexAnswers with
    ⟨shown, shows, indexed⟩ | ⟨⟨error, indexed⟩, noIndexed⟩
  · rcases scan_outcome cold coldLimits streams hexes history.formed boundary scanAnswers with
      ⟨other, again, scanned⟩ | ⟨⟨error, scanned⟩, noScanned⟩
    · rw [indexed, scanned, same shown other shows again]
      refine ⟨rfl, ?_, fun _ _ _ => rfl⟩
      intro first second one two
      rw [← Except.ok.inj one, ← Except.ok.inj two]
    · rw [indexed, scanned]
      refine ⟨rfl, ?_, ?_⟩
      · intro first second _ wrong
        cases wrong
      · intro clean _ ample
        exact absurd ⟨clean, ample, fun _ => history.filled, shown, shows⟩ noScanned
  · rcases scan_outcome cold coldLimits streams hexes history.formed boundary scanAnswers with
      ⟨other, again, scanned⟩ | ⟨⟨error, scanned⟩, _⟩
    · rw [indexed, scanned]
      refine ⟨rfl, ?_, ?_⟩
      · intro first second wrong
        cases wrong
      · intro clean ample _
        exact absurd ⟨clean, ample, other, again⟩ noIndexed
    · rw [indexed, scanned]
      refine ⟨rfl, ?_, fun _ _ _ => rfl⟩
      intro first second wrong
      cases wrong

/-- SHA-256 of the sample file and of the empty one. -/
def samplePages : PageExternals Nat String (List UInt8) :=
  { userLoopId := fun _ => 2
    digestHex := fun digest =>
      if digest = sampleBytes ++ [newline] then
        "f8a984c1f1ea2a81699e8175b26999f9be1bb0c36900a8c125e7413260343a02"
      else "e3b0c44298fc1c149afbf4c8996fb92427ae41e4649b934ca495991b7852b855" }

/-- The first item of one visible, with the end and the revision of that file. -/
def sampleRequest : PageRequest :=
  { itemOffset := 0, itemLimit := 1, visibleItemCount := some 1, capturedEnd := some 367
    expectedRevision := some "f8a984c1f1ea2a81699e8175b26999f9be1bb0c36900a8c125e7413260343a02" }

def sampleLimits : HistoryScanLimits := { maxBytes := 64 * 1024 * 1024, maxLines := 10000 }

/-- The sample file read at once from an offset. -/
def sampleAnswers (offset : Nat) : FileAnswers :=
  { length := .ok 367, checked := .ok (), opened := .ok ()
    chunks := [.ok ((fileOf [sampleLine]).drop offset)] }

theorem single_file_length {line : StoredLine Nat String Unit} {length : Nat}
    (known : line.bytes.length = length) : (fileOf [line]).length = length + 1 := by
  rw [file_of_cons, List.length_append, known]
  rfl

theorem single_ample {line : StoredLine Nat String Unit} {length : Nat}
    (known : line.bytes.length = length) {limits : HistoryScanLimits}
    (count : 1 ≤ limits.maxLines) (size : length + 1 + maxLoopRecordBytes ≤ limits.maxBytes) :
    Ample limits [line] := by
  refine ⟨count, ?_⟩
  rw [byteCount, single_file_length known]
  exact size

theorem sample_file_length : (fileOf [sampleLine]).length = 367 := single_file_length sample_bytes.1

theorem sample_answers (offset : Nat) : Answers True [sampleLine] offset (sampleAnswers offset) where
  length := by
    intro length known
    rw [← Except.ok.inj known]
    exact sample_file_length.symm
  chunks := ⟨[], [], by simp, rfl⟩
  answered := fun _ => ⟨⟨367, rfl⟩, rfl, rfl⟩

theorem sample_history : WellFormedHistory sampleExternals samplePages [sampleLine] where
  formed := by
    intro line member
    rw [List.mem_singleton.mp member]
    exact written_well_formed sample_lawful (encode_loop_good sample_encoded)
  filled := by
    intro line member
    rw [List.mem_singleton.mp member]
    simp [sampleLine]
  distinct := by simp
  own := by
    intro line member user _
    rw [List.mem_singleton.mp member]
    rfl

theorem sample_hexes (digest : List UInt8) : validSha256 (samplePages.digestHex digest) = true := by
  have both : validSha256 "f8a984c1f1ea2a81699e8175b26999f9be1bb0c36900a8c125e7413260343a02" = true ∧
      validSha256 "e3b0c44298fc1c149afbf4c8996fb92427ae41e4649b934ca495991b7852b855" = true := by
    delta validSha256
    rw [Text.utf8_of_list, Text.utf8_of_list]
    decide +kernel
  dsimp only [samplePages]
  split
  · exact both.1
  · exact both.2

theorem sample_update (digest bytes : List UInt8) :
    sampleExternals.update digest bytes = digest ++ bytes := rfl

theorem sample_revision {digest : List UInt8} (same : digest = sampleBytes ++ [newline]) :
    samplePages.digestHex digest =
      "f8a984c1f1ea2a81699e8175b26999f9be1bb0c36900a8c125e7413260343a02" :=
  if_pos same

/-- The request asks for the whole of the sample file. -/
theorem sample_shows :
    Shows sampleExternals samplePages sampleRequest [sampleLine] [sampleLine] where
  together := rfl
  beginning := List.prefix_rfl
  whole := fun _ _ => rfl
  visible := fun unpinned => nomatch unpinned
  pinned := by
    rintro _ ⟨rfl⟩
    exact sample_file_length
  covered := by
    rintro _ ⟨rfl⟩
    exact Nat.le_refl 1
  revised := by
    rintro _ ⟨rfl⟩
    have digest : digestOf sampleExternals [sampleLine] = sampleBytes ++ [newline] := by
      rw [digestOf, List.foldl_cons, List.foldl_nil, sample_update]
      exact List.nil_append _
    exact sample_revision digest

/-- Both readers show the prompt of the sample file, pinned to its end. -/
theorem sample_page_is_shared :
    ∃ page : HistoryReadPage Nat String Unit,
      indexedHistoryPage sampleExternals samplePages
          (Loaded.ofLines sampleExternals [sampleLine]).index sampleRequest
          (some (Loaded.ofLines sampleExternals [sampleLine]).times) sampleLimits sampleAnswers =
        .ok page ∧
      scanHistoryPage sampleExternals samplePages sampleRequest none sampleLimits
          (sampleAnswers 0) = .ok page ∧
      page.parts.items = [.user "prompt"] := by
  have reads : Reads [fileOf [sampleLine]] (fileOf [sampleLine]) := by
    refine ⟨by simp, ?_⟩
    intro chunk member
    rw [List.mem_singleton.mp member, ← List.length_pos_iff, sample_file_length]
    decide
  have ample : Ample sampleLimits [sampleLine] :=
    single_ample sample_bytes.1 (by decide) (by decide)
  have boundary : ∀ cap ∈ sampleRequest.visibleItemCount, ∃ other, other <+: [sampleLine] ∧
      itemCount other = cap := by
    rintro _ ⟨rfl⟩
    exact ⟨[sampleLine], List.prefix_rfl, rfl⟩
  obtain ⟨_, _, agree⟩ :=
    indexed_page_is_scanned_page (by simp [sampleExternals]) sample_hexes sample_history reads
      (load_well_formed sample_history.formed reads) sampleRequest (by decide) boundary
      (Or.inr rfl) (Or.inl rfl) True sampleLimits sampleLimits sample_answers (sample_answers 0)
  have same := agree trivial ample ample
  have scanned : scanHistoryPage sampleExternals samplePages sampleRequest none sampleLimits
      (sampleAnswers 0) = .ok (pageOf sampleExternals samplePages sampleRequest none
        [sampleLine]) := by
    rcases scan_outcome none sampleLimits (by simp [sampleExternals]) sample_hexes
      sample_history.formed boundary (sample_answers 0) with ⟨shown, again, page⟩ | ⟨_, reason⟩
    · rw [page, again.unique sample_history.filled sample_shows]
    · exact absurd ⟨trivial, ample, fun _ => sample_history.filled, _, sample_shows⟩ reason
  rw [scanned] at same
  exact ⟨_, Results.to_option_some.mp same, scanned, rfl⟩

end Agreement

end MinicoreAgent.HistoryStore

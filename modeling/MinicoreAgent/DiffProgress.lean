import MinicoreAgent.DiffTexts

/-!
# When a page of a diff makes progress

A page fails only while it shows nothing. Whether it shows anything is decided at its
first line: by the shortest beginning of the line that halving reaches, since a shorter
beginning never takes more bytes. Once something is shown, the page is answered, and it
goes on behind what it shows.
-/
namespace MinicoreAgent.Diffs

open EditOps (slice)
open JsonSize
open MinicoreAgent.Text (byteLen encode floorPrefix)

section Sizes

variable {text short long : List Char}

/-- Beside its text and its last flag, a fragment of a line always takes the same bytes. -/
theorem fragment_frame (line : LinePlan) (offset : Nat) :
    ∃ frame, ∀ text part : List Char, (line.fragment offset text part).encodedLen =
      frame + stringLen part + boolLen (byteLen part = byteLen text) := by
  obtain ⟨front, parts⟩ : ∃ front, ∀ text part : List Char,
      (line.fragment offset text part).encodedLen =
        objectLen (front ++ [("text", stringLen part),
          ("line_complete", boolLen (byteLen part = byteLen text))]) := by
    refine ⟨("kind", stringLen line.kind.asStr) ::
      optional "old_index" (line.oldIndex.map numberLen) ++
      optional "new_index" (line.newIndex.map numberLen) ++
      [("line_byte_offset", numberLen offset), ("line_byte_len", numberLen line.byteLen)], ?_⟩
    intro text part
    simp [DiffLine.encodedLen, LinePlan.fragment]
  refine ⟨objectLen (front ++ [("text", 0), ("line_complete", 0)]), ?_⟩
  intro text part
  have flagged := object_len_field (front ++ [("text", 0)]) [] "line_complete"
    (boolLen (byteLen part = byteLen text))
  rw [List.append_assoc, List.append_assoc, List.singleton_append, List.singleton_append] at flagged
  rw [parts, object_len_field, flagged]
  omega

/-- A shorter beginning of a text never takes more bytes. -/
theorem fragment_len_mono (line : LinePlan) (offset : Nat) (begins : short <+: long)
    (within : long <+: text) :
    (line.fragment offset text short).encodedLen ≤ (line.fragment offset text long).encodedLen := by
  obtain ⟨frame, sized⟩ := fragment_frame line offset
  obtain ⟨more, rfl⟩ := begins
  cases more with
  | nil =>
    rw [List.append_nil]
  | cons char more =>
    obtain ⟨rest, rfl⟩ := within
    have escaped := length_le_escaped (char :: more)
    have positive := char.utf8Size_pos
    have proper : byteLen short ≠ byteLen (short ++ char :: more ++ rest) := by
      rw [Text.byte_len_append, Text.byte_len_append, Text.byte_len_cons]
      omega
    rw [sized, sized, string_len_append, decide_eq_false proper]
    rw [List.length_cons] at escaped
    have flag (value : Bool) : 4 ≤ boolLen value ∧ boolLen value ≤ 5 := by
      cases value <;> decide
    have first := flag false
    have second := flag (byteLen (short ++ char :: more) = byteLen (short ++ char :: more ++ rest))
    omega

/-- A hunk with one line takes the bytes of the empty hunk and of the line. -/
theorem shown_one (hunk : HunkPlan) (line : DiffLine) :
    (hunk.shown [line]).encodedLen = (hunk.shown []).encodedLen + line.encodedLen := by
  have counted := object_len_field [("old_start", numberLen hunk.oldStart),
    ("old_count", numberLen hunk.oldCount), ("new_start", numberLen hunk.newStart),
    ("new_count", numberLen hunk.newCount)] [] "lines"
  have one := counted (arrayLen [line.encodedLen])
  have none := counted (arrayLen [])
  rw [array_len_one] at one
  simp only [List.cons_append, List.nil_append] at one none
  simp only [DiffHunk.encodedLen, HunkPlan.shown, List.map_cons, List.map_nil]
  rw [array_len_one]
  omega

/-- A result with one hunk takes the bytes of the empty result and of the hunk. -/
theorem result_one (result : DiffResult) (hunk : DiffHunk) :
    { result with hunks := [hunk] }.encodedLen =
      { result with hunks := [] }.encodedLen + hunk.encodedLen := by
  obtain ⟨front, rest, parts⟩ : ∃ front rest, ∀ hunks : List DiffHunk,
      { result with hunks := hunks }.encodedLen =
        objectLen (front ++ ("hunks", arrayLen (hunks.map DiffHunk.encodedLen)) :: rest) := by
    refine ⟨result.head ++ [("availability", stringLen result.availability.asStr)],
      [("complete", boolLen result.complete), ("truncated", boolLen result.truncated)] ++
        optional "next_cursor" (result.nextCursor.map DiffCursor.encodedLen), ?_⟩
    intro hunks
    simp [DiffResult.encodedLen]
  rw [parts, parts, object_len_field, object_len_field _ _ _ (arrayLen (List.map _ []))]
  simp only [List.map_cons, List.map_nil]
  rw [array_len_one]
  omega

end Sizes

section Halving

variable {text : List Char}

/-- What is tried begins the text and is not empty. -/
theorem halvings_spec (text : List Char) (fuel take : Nat) :
    ∀ part ∈ halvings text fuel take, part <+: text ∧ part ≠ [] ∧ byteLen part ≤ take := by
  induction fuel generalizing take with
  | zero =>
    intro part member
    cases member
  | succ fuel inductionHypothesis =>
    intro part member
    obtain ⟨begins, short⟩ := Text.floor_prefix_spec take text
    rw [halvings] at member
    split at member
    · cases member
    · rename_i some_part
      rcases List.mem_cons.mp member with rfl | later
      · exact ⟨begins, some_part, short⟩
      · obtain ⟨later_begins, present, halved⟩ := inductionHypothesis _ part later
        exact ⟨later_begins, present, by omega⟩

theorem byte_len_pos {part : List Char} (present : part ≠ []) : 0 < byteLen part := by
  cases part with
  | nil => exact absurd rfl present
  | cons char rest =>
    have positive := char.utf8Size_pos
    rw [Text.byte_len_cons]
    omega

/-- The last beginning that is tried begins all of them. -/
theorem shortest_begins {fuel take : Nat} {short : List Char}
    (last : (halvings text fuel take).getLast? = some short) :
    ∀ part ∈ halvings text fuel take, short <+: part := by
  induction fuel generalizing take with
  | zero =>
    intro part member
    cases member
  | succ fuel inductionHypothesis =>
    intro part member
    have all := halvings_spec text (fuel + 1) take
    have short_begins := (all short (List.mem_of_getLast? last)).1
    have part_begins := (all part member).1
    rw [halvings] at last member all
    split at last
    · cases last
    · rename_i some_part
      rw [if_neg some_part] at member
      cases rest : halvings text fuel (byteLen (floorPrefix take text) / 2) with
      | nil =>
        rw [rest] at last member
        rw [List.mem_singleton.mp member]
        cases last
        exact List.prefix_rfl
      | cons next others =>
        rw [rest, List.getLast?_cons_cons, ← rest] at last
        rcases List.mem_cons.mp member with rfl | later
        · have halved := (halvings_spec text _ _ short (List.mem_of_getLast? last)).2.2
          rcases List.prefix_or_prefix_of_prefix short_begins part_begins with begins | longer
          · exact begins
          · -- The last is at most half of the first, which is not empty.
            obtain ⟨more, same⟩ := longer
            have positive := byte_len_pos some_part
            rw [← same, Text.byte_len_append] at halved
            omega
        · exact inductionHypothesis last part later

theorem halvings_nil {fuel take : Nat} (enough : take ≤ fuel)
    (nothing : halvings text fuel take = []) : floorPrefix take text = [] := by
  cases fuel with
  | zero =>
    have short := (Text.floor_prefix_spec take text).2
    have none_left : ¬ 0 < byteLen (floorPrefix take text) := by omega
    by_contra present
    exact none_left (byte_len_pos present)
  | succ fuel =>
    rw [halvings] at nothing
    split at nothing
    · assumption
    · cases nothing

end Halving

section Pending

/-- The first line that is not complete at the offset, from a line on. -/
def pendingLine : Nat → Nat → List LinePlan → Option (Nat × Nat × LinePlan)
  | _, _, [] => none
  | lineIndex, offset, line :: rest =>
    if offset = line.byteLen then pendingLine (lineIndex + 1) 0 rest
    else some (lineIndex, offset, line)

/-- The next line of a plan that a page has to show, and from which offset on. -/
structure Pending where
  hunkIndex : Nat
  hunk : HunkPlan
  lineIndex : Nat
  offset : Nat
  line : LinePlan
  deriving DecidableEq, Repr

def pendingFrom : Nat → Nat → Nat → List HunkPlan → Option Pending
  | _, _, _, [] => none
  | hunkIndex, lineIndex, offset, hunk :: rest =>
    match pendingLine lineIndex offset (hunk.lines.drop lineIndex) with
    | some (lineIndex, offset, line) =>
      some {
        hunkIndex := hunkIndex, hunk := hunk, lineIndex := lineIndex, offset := offset
        line := line }
    | none => pendingFrom (hunkIndex + 1) 0 0 rest

def Pending.position (pending : Pending) : Position :=
  { hunkIndex := pending.hunkIndex, lineIndex := pending.lineIndex
    lineByteOffset := pending.offset }

/-- A place lies behind another. -/
def Position.After (later earlier : Position) : Prop :=
  earlier.hunkIndex < later.hunkIndex ∨
    earlier.hunkIndex = later.hunkIndex ∧
      (earlier.lineIndex < later.lineIndex ∨
        earlier.lineIndex = later.lineIndex ∧ earlier.lineByteOffset < later.lineByteOffset)

/-- Some hunk of the page shows a line. -/
def Started (page : List DiffHunk) : Prop := ∃ hunk ∈ page, hunk.lines ≠ []

variable {before after : Bytes} {hunkIndex : Nat} {hunk : HunkPlan} {state : PageState}

theorem line_loop_ends {lineIndex offset : Nat} {lines : List LinePlan}
    (none_pending : pendingLine lineIndex offset lines = none) :
    lineLoop before after hunkIndex hunk lineIndex offset lines state = .ok (state, none) := by
  induction lines generalizing lineIndex offset with
  | nil => rfl
  | cons line rest inductionHypothesis =>
    rw [pendingLine] at none_pending
    split at none_pending
    · rename_i complete
      rw [lineLoop, if_pos complete]
      exact inductionHypothesis none_pending
    · cases none_pending

/-- The loop passes the lines that are complete. -/
theorem line_loop_passes {lineIndex offset : Nat} {lines : List LinePlan}
    {place : Nat × Nat × LinePlan} (pending : pendingLine lineIndex offset lines = some place) :
    ∃ rest, (∀ other ∈ place.2.2 :: rest, other ∈ lines) ∧ place.2.1 ≠ place.2.2.byteLen ∧
      lineLoop before after hunkIndex hunk lineIndex offset lines state =
        lineLoop before after hunkIndex hunk place.1 place.2.1 (place.2.2 :: rest) state := by
  induction lines generalizing lineIndex offset with
  | nil => cases pending
  | cons line rest inductionHypothesis =>
    rw [pendingLine] at pending
    split at pending
    · rename_i complete
      obtain ⟨others, listed, incomplete, passed⟩ := inductionHypothesis pending
      refine ⟨others, ?_, incomplete, ?_⟩
      · intro other member
        exact List.mem_cons_of_mem line (listed other member)
      · rw [lineLoop, if_pos complete]
        exact passed
    · rename_i incomplete
      cases pending
      exact ⟨rest, fun other member => member, incomplete, rfl⟩

/-- The pending line is not complete. It is the first one at the given offset, or a later
one as a whole. -/
theorem pending_line_spec {lineIndex offset : Nat} {lines : List LinePlan}
    {place : Nat × Nat × LinePlan} (pending : pendingLine lineIndex offset lines = some place) :
    place.2.2 ∈ lines ∧ place.2.1 ≠ place.2.2.byteLen ∧
      (place.1 = lineIndex ∧ place.2.1 = offset ∧ lines.head? = some place.2.2 ∨
        lineIndex < place.1 ∧ place.2.1 = 0) := by
  induction lines generalizing lineIndex offset with
  | nil => cases pending
  | cons line rest inductionHypothesis =>
    rw [pendingLine] at pending
    split at pending
    · obtain ⟨listed, incomplete, order⟩ := inductionHypothesis pending
      refine ⟨List.mem_cons_of_mem line listed, incomplete, Or.inr ?_⟩
      rcases order with ⟨index, start, -⟩ | ⟨index, start⟩
      · exact ⟨by omega, start⟩
      · exact ⟨by omega, start⟩
    · rename_i incomplete
      cases pending
      exact ⟨List.mem_cons_self, incomplete, Or.inl ⟨rfl, rfl, rfl⟩⟩

theorem started_append {page : List DiffHunk} (started : Started page) (more : List DiffHunk) :
    Started (page ++ more) := by
  obtain ⟨shown, member, some_line⟩ := started
  exact ⟨shown, List.mem_append_left more member, some_line⟩

theorem opened_started (started : Started state.page) (hunk : HunkPlan) :
    Started (state.opened hunk).page := by
  rw [PageState.opened]
  split
  · exact started_append started _
  · exact started

/-- A line that is pushed is shown. -/
theorem push_started {page : List DiffHunk} (present : page ≠ []) (fragment : DiffLine) :
    Started (pushFragment page fragment) := by
  induction page with
  | nil => exact absurd rfl present
  | cons hunk rest inductionHypothesis =>
    cases rest with
    | nil => exact ⟨_, List.mem_singleton.mpr rfl, by simp⟩
    | cons next rest =>
      obtain ⟨shown, member, some_line⟩ := inductionHypothesis (List.cons_ne_nil next rest)
      exact ⟨shown, List.mem_cons_of_mem hunk member, some_line⟩

/-- What shows a line is not taken away. -/
theorem tail_started {page : List DiffHunk} (started : Started page) :
    Started (removeEmptyTail page) := by
  obtain ⟨shown, member, some_line⟩ := started
  refine ⟨shown, ?_, some_line⟩
  rw [removeEmptyTail, List.mem_reverse]
  have among : shown ∈ page.reverse := List.mem_reverse.mpr member
  generalize page.reverse = turned at among ⊢
  induction turned with
  | nil => cases among
  | cons last others inductionHypothesis =>
    rw [List.dropWhile_cons]
    split
    · rename_i empty
      rcases List.mem_cons.mp among with rfl | earlier
      · exact absurd (List.isEmpty_iff.mp empty) some_line
      · exact inductionHypothesis earlier
    · exact among

theorem started_ne_nil {page : List DiffHunk} (started : Started page) : page ≠ [] := by
  obtain ⟨shown, member, -⟩ := started
  exact List.ne_nil_of_mem member

variable (before after hunkIndex hunk) in
/-- Once a line is shown, the lines of a hunk never end the page with an error. -/
theorem line_loop_started {lines : List LinePlan}
    (readable : ∀ line ∈ lines, ∃ text, LineReads before after line text)
    (state : PageState) (started : Started state.page) (lineIndex : Nat) :
    ∃ reached stop, lineLoop before after hunkIndex hunk lineIndex 0 lines state =
        .ok (reached, stop) ∧ Started reached.page ∧
      ∀ place, stop = some place → place.hunkIndex = hunkIndex ∧ lineIndex ≤ place.lineIndex := by
  induction lines generalizing lineIndex state with
  | nil =>
    refine ⟨state, none, rfl, started, ?_⟩
    intro place stopped
    cases stopped
  | cons line rest inductionHypothesis =>
    have others := fun other member => readable other (List.mem_cons_of_mem line member)
    rw [lineLoop]
    by_cases complete : 0 = line.byteLen
    · rw [if_pos complete]
      obtain ⟨reached, stop, done, showing, order⟩ :=
        inductionHypothesis others state started (lineIndex + 1)
      refine ⟨reached, stop, done, showing, ?_⟩
      intro place stopped
      have known := order place stopped
      omega
    · obtain ⟨text, reads⟩ := readable line List.mem_cons_self
      have pending := whole_text_reads reads
      have opened := opened_started started hunk
      rw [if_neg complete]
      simp only [pending]
      split
      · have showing := tail_started opened
        rw [if_neg (started_ne_nil showing)]
        refine ⟨_, _, rfl, showing, ?_⟩
        intro place stopped
        cases stopped
        exact ⟨rfl, Nat.le_refl lineIndex⟩
      · rename_i part fits
        have showing := push_started (started_ne_nil opened) (line.fragment 0 text part)
        split
        · obtain ⟨reached, stop, done, still, order⟩ :=
            inductionHypothesis others ⟨_, _⟩ showing (lineIndex + 1)
          refine ⟨reached, stop, done, still, ?_⟩
          intro place stopped
          have known := order place stopped
          omega
        · refine ⟨_, _, rfl, showing, ?_⟩
          intro place stopped
          cases stopped
          exact ⟨rfl, Nat.le_refl lineIndex⟩

/-- Once a line is shown, a page is answered. -/
theorem hunk_loop_started {hunks : List HunkPlan}
    (readable : ∀ hunk ∈ hunks, ∀ line ∈ hunk.lines, ∃ text, LineReads before after line text)
    (state : PageState) (started : Started state.page) (hunkIndex : Nat) :
    ∃ page stop, hunkLoop before after hunkIndex 0 0 hunks state = .ok (page, stop) ∧
      Started page ∧ ∀ place, stop = some place → hunkIndex ≤ place.hunkIndex := by
  induction hunks generalizing hunkIndex state with
  | nil =>
    refine ⟨state.page, none, rfl, started, ?_⟩
    intro place stopped
    cases stopped
  | cons hunk rest inductionHypothesis =>
    obtain ⟨reached, stop, done, showing, order⟩ :=
      line_loop_started before after hunkIndex hunk (readable hunk List.mem_cons_self) state
        started 0
    rw [hunkLoop, List.drop_zero, done]
    cases stop with
    | some place =>
      refine ⟨reached.page, some place, rfl, showing, ?_⟩
      intro other stopped
      cases stopped
      exact Nat.le_of_eq (order place rfl).1.symm
    | none =>
      obtain ⟨page, stop, paged, still, later⟩ := inductionHypothesis
        (fun other member => readable other (List.mem_cons_of_mem hunk member))
        ⟨reached.meter.finishHunk, reached.page⟩ showing (hunkIndex + 1)
      refine ⟨page, stop, paged, still, ?_⟩
      intro place stopped
      have known := later place stopped
      omega

end Pending

section First

variable {before after : Bytes} {hunkIndex : Nat} {hunk : HunkPlan}

/-- A meter that has counted nothing yet. -/
def PageMeter.start (baseEmpty maxBytes : Nat) : PageMeter :=
  { baseEmpty := baseEmpty, completedBytes := 0, completedHunks := 0, current := none
    maxBytes := maxBytes }

/-- Whether a beginning of the pending text fits as the first line. -/
def firstFit (baseEmpty maxBytes : Nat) (hunk : HunkPlan) (line : LinePlan) (offset : Nat)
    (text part : List Char) : Bool :=
  baseEmpty + (hunk.shown [line.fragment offset text part]).encodedLen ≤ maxBytes

/-- The first line of a page fits if the result does that holds nothing else. -/
theorem first_fits (baseEmpty maxBytes : Nat) (hunk : HunkPlan) (line : LinePlan) (offset : Nat)
    (text part : List Char) :
    ((PageMeter.start baseEmpty maxBytes).openHunk (hunkOpenLen hunk)).fitsWith
        (line.fragment offset text part).encodedLen =
      firstFit baseEmpty maxBytes hunk line offset text part := by
  have brackets : 2 ≤ (hunk.shown []).encodedLen := by
    rw [DiffHunk.encodedLen, objectLen, arrayLen]
    omega
  rw [firstFit, shown_one]
  simp only [PageMeter.fitsWith, PageMeter.openHunk, PageMeter.start, Option.map_some,
    Nat.lt_irrefl, if_false, hunkOpenLen, Nat.zero_add, Nat.add_zero, Nat.one_ne_zero,
    Nat.sub_self]
  apply decide_eq_decide.mpr
  omega

variable {baseEmpty maxBytes lineIndex offset : Nat} {line : LinePlan} {rest : List LinePlan}
  {text : List Char}

theorem line_loop_first_none (incomplete : offset ≠ line.byteLen)
    (pending : pendingText before after line offset = .ok text)
    (none_fits : (tried text).find? (firstFit baseEmpty maxBytes hunk line offset text) = none) :
    lineLoop before after hunkIndex hunk lineIndex offset (line :: rest)
      ⟨.start baseEmpty maxBytes, []⟩ = .error .invalidArguments := by
  have opened : (⟨.start baseEmpty maxBytes, []⟩ : PageState).opened hunk =
      ⟨(PageMeter.start baseEmpty maxBytes).openHunk (hunkOpenLen hunk), [hunk.shown []]⟩ := rfl
  have empty : removeEmptyTail [hunk.shown []] = [] := rfl
  rw [lineLoop, if_neg incomplete, opened]
  simp only [pending, first_fits]
  rw [none_fits]
  simp [empty]

theorem line_loop_first_some (incomplete : offset ≠ line.byteLen)
    (pending : pendingText before after line offset = .ok text)
    (readable : ∀ other ∈ rest, ∃ text, LineReads before after other text) {part : List Char}
    (fits : (tried text).find? (firstFit baseEmpty maxBytes hunk line offset text) = some part) :
    ∃ reached stop, lineLoop before after hunkIndex hunk lineIndex offset (line :: rest)
        ⟨.start baseEmpty maxBytes, []⟩ = .ok (reached, stop) ∧ Started reached.page ∧
      ∀ place, stop = some place → place.hunkIndex = hunkIndex ∧
        (lineIndex < place.lineIndex ∨
          lineIndex = place.lineIndex ∧ offset < place.lineByteOffset) := by
  have opened : (⟨.start baseEmpty maxBytes, []⟩ : PageState).opened hunk =
      ⟨(PageMeter.start baseEmpty maxBytes).openHunk (hunkOpenLen hunk), [hunk.shown []]⟩ := rfl
  have some_part := (halvings_spec text _ _ part (List.mem_of_find?_eq_some fits)).2.1
  have positive := byte_len_pos some_part
  have showing := push_started (List.cons_ne_nil (hunk.shown []) [])
    (line.fragment offset text part)
  rw [lineLoop, if_neg incomplete, opened]
  simp only [pending, first_fits]
  rw [fits]
  simp only
  split
  · obtain ⟨reached, stop, done, still, order⟩ := line_loop_started before after hunkIndex hunk
      readable ⟨((PageMeter.start baseEmpty maxBytes).openHunk (hunkOpenLen hunk)).commitLine
        (line.fragment offset text part).encodedLen, _⟩ showing (lineIndex + 1)
    refine ⟨reached, stop, done, still, ?_⟩
    intro place stopped
    have known := order place stopped
    omega
  · refine ⟨_, _, rfl, showing, ?_⟩
    intro place stopped
    cases stopped
    exact ⟨rfl, Or.inr ⟨rfl, by simp only; omega⟩⟩

variable (baseEmpty maxBytes) in
/-- The hunks from the start of a page: nothing is shown and the page is refused, or the
next line is shown and the page goes on behind it. -/
theorem hunk_loop_pending {hunks : List HunkPlan} {hunkIndex lineIndex offset : Nat}
    {pending : Pending} (next : pendingFrom hunkIndex lineIndex offset hunks = some pending)
    (readable : ∀ hunk ∈ hunks, ∀ line ∈ hunk.lines, ∃ text, LineReads before after line text)
    (shown : pendingText before after pending.line pending.offset = .ok text) :
    ((tried text).find? (firstFit baseEmpty maxBytes pending.hunk pending.line pending.offset text)
        = none →
      hunkLoop before after hunkIndex lineIndex offset hunks ⟨.start baseEmpty maxBytes, []⟩ =
        .error .invalidArguments) ∧
    ∀ part, (tried text).find?
        (firstFit baseEmpty maxBytes pending.hunk pending.line pending.offset text) = some part →
      ∃ page stop,
        hunkLoop before after hunkIndex lineIndex offset hunks ⟨.start baseEmpty maxBytes, []⟩ =
          .ok (page, stop) ∧ Started page ∧
        ∀ place, stop = some place → place.After pending.position := by
  induction hunks generalizing hunkIndex lineIndex offset with
  | nil => cases next
  | cons hunk rest inductionHypothesis =>
    have others := fun other member => readable other (List.mem_cons_of_mem hunk member)
    have own : ∀ line ∈ hunk.lines.drop lineIndex, ∃ text, LineReads before after line text :=
      fun line member => readable hunk List.mem_cons_self line (List.mem_of_mem_drop member)
    rw [pendingFrom] at next
    split at next
    · rename_i place_line place_offset line found
      cases next
      obtain ⟨remaining, listed, incomplete, passed⟩ := line_loop_passes found
      have later : ∀ other ∈ remaining, ∃ text, LineReads before after other text :=
        fun other member => own other (listed other (List.mem_cons_of_mem _ member))
      rw [hunkLoop, passed]
      constructor
      · intro none_fits
        rw [line_loop_first_none incomplete shown none_fits]
      · intro part fits
        obtain ⟨reached, stop, done, showing, order⟩ :=
          line_loop_first_some incomplete shown later fits
        rw [done]
        cases stop with
        | some place =>
          refine ⟨reached.page, some place, rfl, showing, ?_⟩
          intro other stopped
          cases stopped
          obtain ⟨same, behind⟩ := order place rfl
          exact Or.inr ⟨same.symm, behind⟩
        | none =>
          obtain ⟨page, stop, paged, still, later_place⟩ := hunk_loop_started others
            ⟨reached.meter.finishHunk, reached.page⟩ showing (hunkIndex + 1)
          refine ⟨page, stop, paged, still, ?_⟩
          intro place stopped
          have known := later_place place stopped
          exact Or.inl known
    · rename_i complete
      rw [hunkLoop, line_loop_ends complete]
      exact inductionHypothesis next others

end First

section Start

variable {before after : Bytes} {pending : Pending}

theorem whole_line_pending {line : LinePlan}
    (readable : ∃ text, LineReads before after line text) (some_byte : 0 ≠ line.byteLen) :
    ∃ text, pendingText before after line 0 = .ok text ∧ text ≠ [] := by
  obtain ⟨text, reads⟩ := readable
  refine ⟨text, whole_text_reads reads, ?_⟩
  rintro rfl
  exact some_byte reads.byte_len.symm

/-- From the beginning of a hunk on, the pending line is pending as a whole. -/
theorem pending_from_later {hunks : List HunkPlan} {hunkIndex : Nat}
    (next : pendingFrom hunkIndex 0 0 hunks = some pending)
    (readable : ∀ hunk ∈ hunks, ∀ line ∈ hunk.lines, ∃ text, LineReads before after line text) :
    (∃ text, pendingText before after pending.line pending.offset = .ok text ∧ text ≠ []) ∧
      hunkIndex ≤ pending.hunkIndex := by
  induction hunks generalizing hunkIndex with
  | nil => cases next
  | cons hunk rest inductionHypothesis =>
    rw [pendingFrom] at next
    split at next
    · rename_i lineIndex offset line found
      cases next
      obtain ⟨listed, incomplete, order⟩ := pending_line_spec found
      have start : offset = 0 := by
        rcases order with ⟨-, zero, -⟩ | ⟨-, zero⟩
        · exact zero
        · exact zero
      subst start
      refine ⟨whole_line_pending ?_ incomplete, Nat.le_refl hunkIndex⟩
      exact readable hunk List.mem_cons_self line
        (List.mem_of_mem_drop listed)
    · have others := fun other member => readable other (List.mem_cons_of_mem hunk member)
      obtain ⟨shown, later⟩ := inductionHypothesis next others
      exact ⟨shown, by omega⟩

/-- A cursor names a place of the plan, at a character boundary of its line. -/
def ValidCursor (plan : Plan) (before after : Bytes) (start : Position) : Prop :=
  outside plan start = false ∧
    ∀ hunk line full, plan.hunks[start.hunkIndex]? = some hunk →
      hunk.lines[start.lineIndex]? = some line →
      decode (slice (line.source.bytes before after) line.byteStart line.byteLen) = some full →
      MinicoreAgent.Text.isBoundary full start.lineByteOffset = true

/-- From a valid cursor on, the pending line is a text that is not empty, at the cursor or
behind it. -/
theorem pending_from_start {plan : Plan} {start : Position}
    (valid : ValidCursor plan before after start)
    (readable : ∀ hunk ∈ plan.hunks, ∀ line ∈ hunk.lines,
      ∃ text, LineReads before after line text)
    (next : pendingFrom start.hunkIndex start.lineIndex start.lineByteOffset
      (plan.hunks.drop start.hunkIndex) = some pending) :
    (∃ text, pendingText before after pending.line pending.offset = .ok text ∧ text ≠ []) ∧
      (pending.position = start ∨ pending.position.After start) := by
  cases left : plan.hunks.drop start.hunkIndex with
  | nil =>
    rw [left] at next
    cases next
  | cons hunk rest =>
    have among : ∀ other ∈ hunk :: rest, other ∈ plan.hunks := by
      intro other member
      rw [← left] at member
      exact List.mem_of_mem_drop member
    have first : plan.hunks[start.hunkIndex]? = some hunk := by
      rw [← List.head?_drop, left, List.head?_cons]
    rw [left, pendingFrom] at next
    split at next
    · rename_i lineIndex offset line found
      cases next
      obtain ⟨listed, incomplete, order⟩ := pending_line_spec found
      have reads := readable hunk (among hunk List.mem_cons_self) line
        (List.mem_of_mem_drop listed)
      rcases order with ⟨same_line, same_offset, head⟩ | ⟨behind, zero⟩
      · simp only at same_line same_offset head incomplete
        subst same_line same_offset
        rw [List.head?_drop] at head
        obtain ⟨text, reads⟩ := reads
        have boundary := valid.2 hunk line text first head
          (by rw [reads.bytes, decode_encode])
        obtain ⟨front, behind, rfl, length⟩ := Text.is_boundary_iff.mp boundary
        refine ⟨⟨behind, ?_, ?_⟩, Or.inl rfl⟩
        · rw [← length]
          exact pending_text_reads reads
        · rintro rfl
          rw [List.append_nil] at reads
          exact incomplete (length.symm.trans reads.byte_len.symm)
      · simp only at behind zero incomplete
        subst zero
        refine ⟨whole_line_pending reads incomplete, Or.inr ?_⟩
        exact Or.inr ⟨rfl, Or.inl behind⟩
    · obtain ⟨shown, later⟩ := pending_from_later next
        (fun other member => readable other (among other (List.mem_cons_of_mem hunk member)))
      exact ⟨shown, Or.inr (Or.inl later)⟩

end Start

section Results

theorem after_of_pending {last middle first : Position} (later : last.After middle)
    (earlier : middle = first ∨ middle.After first) : last.After first := by
  rcases earlier with rfl | behind
  · exact later
  · simp only [Position.After] at later behind ⊢
    omega

variable (subject : Subject) (plan : Plan) (before after : Bytes) (contextLines : Nat)
  (head : List (String × Nat)) (pending : Pending) (text : List Char)

/-- The answer that shows the first character of the pending line and nothing else. -/
def firstPage : DiffResult :=
  let part := text.take 1
  let next :=
    if byteLen part = byteLen text then
      (pendingFrom pending.hunkIndex (pending.lineIndex + 1) 0
        (plan.hunks.drop pending.hunkIndex)).map Pending.position
    else some { pending.position with lineByteOffset := pending.offset + byteLen part }
  (DiffResult.base head).page plan
    [pending.hunk.shown [pending.line.fragment pending.offset text part]]
    (next.map (pageCursor subject plan contextLines)) next.isNone

/-- The result as it is sized when a beginning of the pending line is all it shows. -/
def sizedPage (part : List Char) : DiffResult :=
  { (DiffResult.base head).template subject plan before after contextLines with
    hunks := [pending.hunk.shown [pending.line.fragment pending.offset text part]] }

/-- The shortest beginning of the pending line that halving reaches fits. -/
def ShortestFits (maxBytes : Nat) : Prop :=
  ∃ part, (tried text).getLast? = some part ∧
    (sizedPage subject plan before after contextLines head pending text part).encodedLen ≤
      maxBytes

/-- A page is refused only if its first character takes too many bytes; otherwise it
shows something and goes on behind the cursor. -/
def FailsOnlyWhenNothingFits (start : Position) (maxBytes : Nat) : Prop :=
  let answer := buildPage subject plan before after contextLines (.base head) start maxBytes
  let needed := (firstPage subject plan contextLines head pending text).encodedLen
  (answer = .error .invalidArguments → maxBytes < needed) ∧
    (needed ≤ maxBytes → ∃ page next complete, answer = .ok (page, next, complete) ∧
      Started page ∧
      (complete = false → ∃ place, next = some (pageCursor subject plan contextLines place) ∧
        place.After start))

variable {subject plan before after contextLines head pending text}

/-- Some beginning that is tried fits exactly if the shortest does. -/
theorem find_fit_none_iff {baseEmpty maxBytes : Nat} {hunk : HunkPlan} {line : LinePlan}
    {offset : Nat} :
    (tried text).find? (firstFit baseEmpty maxBytes hunk line offset text) = none ↔
      ∀ part, (tried text).getLast? = some part →
        firstFit baseEmpty maxBytes hunk line offset text part = false := by
  rw [List.find?_eq_none]
  constructor
  · intro none_fits part last
    exact Bool.eq_false_iff.mpr (none_fits part (List.mem_of_getLast? last))
  · intro shortest part member
    have some_tried : tried text ≠ [] := List.ne_nil_of_mem member
    have last := List.getLast?_eq_some_getLast some_tried
    have long := shortest _ last
    have begins := shortest_begins last part member
    have within := (halvings_spec text _ _ part member).1
    have fewer := fragment_len_mono line offset begins within
    simp only [firstFit, decide_eq_false_iff_not, decide_eq_true_eq] at long ⊢
    rw [shown_one] at long ⊢
    omega

/-- The first line is metered as the result that shows nothing else. -/
theorem first_fit_sized {maxBytes : Nat} (part : List Char) :
    firstFit ((DiffResult.base head).template subject plan before after contextLines).encodedLen
        maxBytes pending.hunk pending.line pending.offset text part = true ↔
      (sizedPage subject plan before after contextLines head pending text part).encodedLen ≤
        maxBytes := by
  rw [sizedPage, result_one, firstFit, decide_eq_true_eq]
  rfl

theorem build_page_eq {start : Position} (inside : outside plan start = false)
    (base : DiffResult) (maxBytes : Nat) :
    buildPage subject plan before after contextLines base start maxBytes =
      match hunkLoop before after start.hunkIndex start.lineIndex start.lineByteOffset
        (plan.hunks.drop start.hunkIndex)
        ⟨.start (base.template subject plan before after contextLines).encodedLen maxBytes, []⟩ with
      | .error error => .error error
      | .ok (page, none) => .ok (page, none, true)
      | .ok (page, some stop) =>
        .ok (page, some (pageCursor subject plan contextLines stop), false) := by
  rw [buildPage, if_neg (by simp [inside])]
  rfl

end Results

section Samples

def sampleBefore : Bytes := encode ['b']

def sampleAfter : Bytes := encode ['€', 'a', 'a']

def sampleHunk : HunkPlan :=
  { oldStart := 0, oldCount := 1, newStart := 0, newCount := 1
    lines := [⟨.removed, some 0, none, .before, 0, 1⟩, ⟨.added, none, some 0, .after, 0, 5⟩] }

def samplePlan : Plan :=
  { hunks := [sampleHunk], fingerprint := List.replicate 64 'f', truncated := false }

def sampleSubject : Subject :=
  { sessionId := "00000000-0000-4000-8000-000000000000".toList, changeRefLen := 300 }

/-- The fields of a result that is passed on, with a long path. -/
def sampleHead : List (String × Nat) :=
  [("change_ref", 300), ("path", 560), ("kind", 10), ("origin", 6), ("comparison", 19),
    ("base_version", 90), ("target_version", 90), ("commit_state", 11), ("coverage", 6),
    ("binary", 5), ("stale", 5), ("versions_refreshed", 5)]

def sampleStart : Position := { hunkIndex := 0, lineIndex := 1, lineByteOffset := 0 }

def samplePending : Pending :=
  { hunkIndex := 0, hunk := sampleHunk, lineIndex := 1, offset := 0
    line := ⟨.added, none, some 0, .after, 0, 5⟩ }

theorem sample_planned : ∃ origin : DiffPlan Bytes,
    planDiff wholeReplace id true sampleBefore sampleAfter 3 = .ok (.plan origin) ∧
      samplePlan.hunks = origin.hunks := by
  have before : isUtf8 sampleBefore = true :=
    ByteArray.validateUTF8_eq_true_iff.mpr ⟨['b'], rfl⟩
  have after : isUtf8 sampleAfter = true :=
    ByteArray.validateUTF8_eq_true_iff.mpr ⟨['€', 'a', 'a'], rfl⟩
  refine ⟨⟨[sampleHunk], planFingerprint id 3 false [sampleHunk], false⟩, ?_, rfl⟩
  rw [planDiff, planned, before, after]
  rfl

theorem sample_valid : ValidCursor samplePlan sampleBefore sampleAfter sampleStart := by
  refine ⟨by decide, ?_⟩
  intro hunk line full _ _ _
  exact Text.boundary_zero

theorem sample_reads :
    LineReads sampleBefore sampleAfter samplePending.line ['€', 'a', 'a'] :=
  ⟨by decide, by decide⟩

end Samples

end MinicoreAgent.Diffs

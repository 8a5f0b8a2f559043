import MinicoreAgent.DiffQueries

/-!
# The pages of a diff show its plan

A page shows what is pending from its cursor on, in order, and names the place where it
stops. What it shows, put together with what is left there, is what was left at its own
cursor. Its meter counts the bytes of the page as they are encoded.
-/
namespace MinicoreAgent.Diffs

open EditOps (slice)
open JsonSize
open MinicoreAgent.Text (byteLen encode isBoundary)

section Pieces

theorem attach_complete {piece : Piece} (complete : piece.2.lineComplete = true)
    (rest : List Piece) : attach piece rest = piece :: rest := by
  cases rest with
  | nil => rfl
  | cons next rest =>
    have ended : ¬ next.Continues piece := by
      intro continues
      exact absurd (complete.symm.trans continues.1) (by decide)
    rw [attach, if_neg ended]

theorem whole_complete (line : LinePlan) (offset : Nat) (text : List Char) :
    (line.fragment offset text text).lineComplete = true := by
  simp [LinePlan.fragment]

theorem part_incomplete (line : LinePlan) (offset : Nat) (part : List Char) {rest : List Char}
    (present : rest ≠ []) : (line.fragment offset (part ++ rest) part).lineComplete = false := by
  have positive := byte_len_pos present
  simp only [LinePlan.fragment, Text.byte_len_append, decide_eq_false_iff_not]
  omega

/-- The beginning of a pending text is joined with what is pending behind it. -/
theorem attach_part (hunk : DiffHunk) (line : LinePlan) (offset : Nat) (part : List Char)
    {rest : List Char} (present : rest ≠ []) (later : List Piece) :
    attach (hunk, line.fragment offset (part ++ rest) part)
        ((hunk, line.fragment (offset + byteLen part) rest rest) :: later) =
      (hunk, line.fragment offset (part ++ rest) (part ++ rest)) :: later := by
  have continues : Piece.Continues (hunk, line.fragment (offset + byteLen part) rest rest)
      (hunk, line.fragment offset (part ++ rest) part) :=
    ⟨part_incomplete line offset part present, rfl, rfl⟩
  rw [attach, if_pos continues]
  simp only [LinePlan.fragment]

/-- Lines that are complete stay as they are. -/
theorem reassemble_complete {shown : List Piece}
    (complete : ∀ piece ∈ shown, piece.2.lineComplete = true) : reassemble shown = shown := by
  induction shown with
  | nil => rfl
  | cons piece rest inductionHypothesis =>
    have others := inductionHypothesis fun other member =>
      complete other (List.mem_cons_of_mem piece member)
    have first := attach_complete (complete piece List.mem_cons_self) rest
    rw [reassemble] at others ⊢
    rw [List.foldr_cons, others, first]

@[simp] theorem pieces_append (first second : List DiffHunk) :
    pieces (first ++ second) = pieces first ++ pieces second := List.flatMap_append

theorem pieces_shown (hunk : HunkPlan) (lines : List DiffLine) :
    pieces [hunk.shown lines] = lines.map (Prod.mk (hunk.shown [])) := by
  rw [pieces, List.flatMap_singleton]
  rfl

/-- Hunks without lines show nothing. -/
theorem pieces_tail (page : List DiffHunk) : pieces (removeEmptyTail page) = pieces page := by
  have turned (others : List DiffHunk) :
      pieces (others.dropWhile (·.lines.isEmpty)).reverse = pieces others.reverse := by
    induction others with
    | nil => rfl
    | cons last others inductionHypothesis =>
      rw [List.dropWhile_cons]
      split
      · rename_i empty
        have nothing : pieces [last] = [] := by
          rw [pieces, List.flatMap_singleton, List.isEmpty_iff.mp empty, List.map_nil]
        rw [inductionHypothesis, List.reverse_cons, pieces_append, nothing, List.append_nil]
      · rfl
  have same := turned page.reverse
  rwa [List.reverse_reverse] at same

end Pieces

section Left

variable (before after : Bytes)

/-- The lines that are left from an offset into the first of them on, as they would be shown
without a limit. -/
def linesLeft : Nat → List LinePlan → List DiffLine
  | _, [] => []
  | offset, line :: rest =>
    if offset = line.byteLen then linesLeft 0 rest
    else
      match pendingText before after line offset with
      | .error _ => linesLeft 0 rest
      | .ok text => line.fragment offset text text :: linesLeft 0 rest

def hunksLeft : Nat → Nat → List HunkPlan → List Piece
  | _, _, [] => []
  | lineIndex, offset, hunk :: rest =>
    (linesLeft before after offset (hunk.lines.drop lineIndex)).map (Prod.mk (hunk.shown [])) ++
      hunksLeft 0 0 rest

/-- What is left of a plan at a place; at the end there is no place and nothing is left. -/
def left (plan : Plan) : Option Position → List Piece
  | none => []
  | some place =>
    hunksLeft before after place.lineIndex place.lineByteOffset (plan.hunks.drop place.hunkIndex)

variable {before after}

theorem lines_left_pending {offset : Nat} {line : LinePlan} {text : List Char}
    (incomplete : offset ≠ line.byteLen) (pending : pendingText before after line offset = .ok text)
    (rest : List LinePlan) :
    linesLeft before after offset (line :: rest) =
      line.fragment offset text text :: linesLeft before after 0 rest := by
  rw [linesLeft, if_neg incomplete, pending]

theorem lines_left_complete {offset : Nat} {lines : List LinePlan} :
    ∀ line ∈ linesLeft before after offset lines, line.lineComplete = true := by
  induction lines generalizing offset with
  | nil =>
    intro line member
    cases member
  | cons first rest inductionHypothesis =>
    intro line member
    rw [linesLeft] at member
    split at member
    · exact inductionHypothesis line member
    · split at member
      · exact inductionHypothesis line member
      · rcases List.mem_cons.mp member with rfl | later
        · exact whole_complete first offset _
        · exact inductionHypothesis line later

theorem hunks_left_complete {lineIndex offset : Nat} {hunks : List HunkPlan} :
    ∀ piece ∈ hunksLeft before after lineIndex offset hunks, piece.2.lineComplete = true := by
  induction hunks generalizing lineIndex offset with
  | nil =>
    intro piece member
    cases member
  | cons hunk rest inductionHypothesis =>
    intro piece member
    rcases List.mem_append.mp member with own | later
    · obtain ⟨line, listed, rfl⟩ := List.mem_map.mp own
      exact lines_left_complete line listed
    · exact inductionHypothesis piece later

end Left

section Reading

/-- Every line reads as a text, and the offset stands at a boundary of the first one. -/
structure Readable (before after : Bytes) (offset : Nat) (lines : List LinePlan) : Prop where
  texts : ∀ line ∈ lines, ∃ text, LineReads before after line text
  boundary : ∀ line text, lines.head? = some line → LineReads before after line text →
    isBoundary text offset = true

variable {before after : Bytes} {offset : Nat} {line : LinePlan} {rest : List LinePlan}

theorem readable_whole {lines : List LinePlan}
    (texts : ∀ line ∈ lines, ∃ text, LineReads before after line text) :
    Readable before after 0 lines where
  texts := texts
  boundary := fun _ _ _ _ => Text.boundary_zero

theorem Readable.next (readable : Readable before after offset (line :: rest)) :
    Readable before after 0 rest :=
  readable_whole fun other member => readable.texts other (List.mem_cons_of_mem line member)

/-- A text is cut at the offset, and what follows is pending. -/
theorem Readable.pending (readable : Readable before after offset (line :: rest))
    (incomplete : offset ≠ line.byteLen) :
    ∃ front text, LineReads before after line (front ++ text) ∧ byteLen front = offset ∧
      text ≠ [] ∧ pendingText before after line offset = .ok text := by
  obtain ⟨text, reads⟩ := readable.texts line List.mem_cons_self
  obtain ⟨front, behind, rfl, length⟩ :=
    Text.is_boundary_iff.mp (readable.boundary line text rfl reads)
  refine ⟨front, behind, reads, length, ?_, ?_⟩
  · rintro rfl
    rw [List.append_nil] at reads
    exact incomplete (length.symm.trans reads.byte_len.symm)
  · rw [← length]
    exact pending_text_reads reads

theorem LineReads.unique {first second : List Char} (reads : LineReads before after line first)
    (other : LineReads before after line second) : first = second := by
  have same := congrArg decode (reads.bytes.symm.trans other.bytes)
  rw [decode_encode, decode_encode] at same
  exact Option.some.inj same

/-- Behind a part of what is pending, the rest of it is pending. -/
theorem Readable.behind_part {front part text : List Char} (length : byteLen front = offset)
    (reads : LineReads before after line (front ++ (part ++ text))) :
    pendingText before after line (offset + byteLen part) = .ok text := by
  rw [← List.append_assoc] at reads
  rw [← length, ← Text.byte_len_append]
  exact pending_text_reads reads

end Reading

section Meters

/-- The bytes of some lines with the commas between them. -/
def linesBytes (lines : List DiffLine) : Nat :=
  (lines.map DiffLine.encodedLen).sum + (lines.length - 1)

/-- The bytes that some hunks add to a result without hunks. -/
def hunksBytes (page : List DiffHunk) : Nat :=
  (page.map DiffHunk.encodedLen).sum + (page.length - 1)

/-- The last hunk of the page is open, and the meter has counted the others and its lines. -/
structure Open (hunk : HunkPlan) (closed : List DiffHunk) (lines : List DiffLine)
    (state : PageState) : Prop where
  bytes : state.meter.completedBytes = (closed.map DiffHunk.encodedLen).sum
  hunks : state.meter.completedHunks = closed.length
  current : state.meter.current = some (hunkOpenLen hunk, linesBytes lines, lines.length)
  page : state.page = closed ++ [hunk.shown lines]

/-- The meter has counted the hunks of the page, the last of them line by line if it is
open. -/
inductive Counted (hunk : HunkPlan) (state : PageState) : Prop
  | closed (bytes : state.meter.completedBytes = (state.page.map DiffHunk.encodedLen).sum)
      (hunks : state.meter.completedHunks = state.page.length)
      (current : state.meter.current = none)
  | opened {closed : List DiffHunk} {lines : List DiffLine} (isOpen : Open hunk closed lines state)

/-- The page fits, beside a result without hunks. -/
def Fits (state : PageState) : Prop :=
  state.page = [] ∨ state.meter.baseEmpty + hunksBytes state.page ≤ state.meter.maxBytes

variable {hunk : HunkPlan} {state : PageState}

theorem lines_bytes_append (lines : List DiffLine) (line : DiffLine) :
    linesBytes (lines ++ [line]) =
      linesBytes lines + (if 0 < lines.length then 1 else 0) + line.encodedLen := by
  rw [linesBytes, linesBytes, List.map_append, List.sum_append, List.map_singleton,
    List.sum_singleton, List.length_append, List.length_singleton]
  split
  · omega
  · omega

/-- A hunk takes the bytes that open it and those of its lines. -/
theorem shown_lines (hunk : HunkPlan) (lines : List DiffLine) :
    (hunk.shown lines).encodedLen = hunkOpenLen hunk + 2 + linesBytes lines := by
  have counted := object_len_field [("old_start", numberLen hunk.oldStart),
    ("old_count", numberLen hunk.oldCount), ("new_start", numberLen hunk.newStart),
    ("new_count", numberLen hunk.newCount)] [] "lines"
  have all := counted (arrayLen (lines.map DiffLine.encodedLen))
  have none := counted (arrayLen [])
  have brackets : arrayLen [] = 2 := rfl
  simp only [List.cons_append, List.nil_append] at all none
  rw [hunkOpenLen]
  simp only [DiffHunk.encodedLen, HunkPlan.shown, List.map_nil, linesBytes]
  rw [all, none, brackets, arrayLen, List.length_map]
  omega

/-- A result takes the bytes of its hunks beside those of the result without hunks. -/
theorem result_hunks (result : DiffResult) (page : List DiffHunk) :
    { result with hunks := page }.encodedLen =
      { result with hunks := [] }.encodedLen + hunksBytes page := by
  obtain ⟨front, rest, parts⟩ : ∃ front rest, ∀ hunks : List DiffHunk,
      { result with hunks := hunks }.encodedLen =
        objectLen (front ++ ("hunks", arrayLen (hunks.map DiffHunk.encodedLen)) :: rest) := by
    refine ⟨result.head ++ [("availability", stringLen result.availability.asStr)],
      [("complete", boolLen result.complete), ("truncated", boolLen result.truncated)] ++
        optional "next_cursor" (result.nextCursor.map DiffCursor.encodedLen), ?_⟩
    intro hunks
    simp [DiffResult.encodedLen]
  have brackets : arrayLen [] = 2 := rfl
  rw [parts, parts, object_len_field, object_len_field _ _ _ (arrayLen (List.map _ [])),
    List.map_nil, brackets, hunksBytes, arrayLen, List.length_map]
  omega

/-- A page whose hunk is opened shows no more than before. -/
theorem opened_open (counted : Counted hunk state) :
    ∃ closed lines, Open hunk closed lines (state.opened hunk) ∧
      pieces (state.opened hunk).page = pieces state.page ∧
      removeEmptyTail (state.opened hunk).page = removeEmptyTail state.page := by
  cases counted with
  | closed bytes hunks current =>
    have opened : state.opened hunk = ⟨state.meter.openHunk (hunkOpenLen hunk),
        state.page ++ [hunk.shown []]⟩ := by
      rw [PageState.opened, current]
      rfl
    rw [opened]
    refine ⟨state.page, [], ⟨bytes, hunks, rfl, rfl⟩, ?_, ?_⟩
    · rw [pieces_append, pieces_shown, List.map_nil, List.append_nil]
    · simp [removeEmptyTail, HunkPlan.shown]
  | opened isOpen =>
    have opened : state.opened hunk = state := by
      rw [PageState.opened, isOpen.current]
      rfl
    rw [opened]
    exact ⟨_, _, isOpen, rfl, rfl⟩

variable {closed : List DiffHunk} {lines : List DiffLine}

/-- A line fits if the page does that shows it as well. -/
theorem open_fits (isOpen : Open hunk closed lines state) (line : DiffLine) :
    state.meter.fitsWith line.encodedLen = true ↔
      state.meter.baseEmpty + hunksBytes (closed ++ [hunk.shown (lines ++ [line])]) ≤
        state.meter.maxBytes := by
  have counted := lines_bytes_append lines line
  simp only [PageMeter.fitsWith, isOpen.current, Option.map_some, isOpen.bytes, isOpen.hunks,
    decide_eq_true_eq]
  rw [if_neg (Nat.succ_ne_zero _), hunksBytes, List.map_append, List.sum_append,
    List.map_singleton, List.sum_singleton, List.length_append, List.length_singleton, shown_lines,
    counted]
  omega

theorem push_last (closed : List DiffHunk) (last : DiffHunk) (line : DiffLine) :
    pushFragment (closed ++ [last]) line =
      closed ++ [{ last with lines := last.lines ++ [line] }] := by
  induction closed with
  | nil => rfl
  | cons first others inductionHypothesis =>
    cases others with
    | nil => rfl
    | cons second others =>
      rw [List.cons_append, List.cons_append, pushFragment, ← List.cons_append,
        inductionHypothesis]
      rfl

/-- The open hunk gets one more line. -/
theorem push_open (isOpen : Open hunk closed lines state) (line : DiffLine) :
    Open hunk closed (lines ++ [line])
      { meter := state.meter.commitLine line.encodedLen
        page := pushFragment state.page line } where
  bytes := isOpen.bytes
  hunks := isOpen.hunks
  current := by
    rw [PageMeter.commitLine, isOpen.current, Option.map_some, lines_bytes_append,
      List.length_append, List.length_singleton]
  page := by
    rw [isOpen.page, push_last]
    rfl

theorem pieces_open (isOpen : Open hunk closed lines state) :
    pieces state.page = pieces closed ++ lines.map (Prod.mk (hunk.shown [])) := by
  rw [isOpen.page, pieces_append, pieces_shown]

/-- A hunk that is finished is counted as a whole. -/
theorem finish_closed (counted : Counted hunk state) (next : HunkPlan) :
    Counted next { state with meter := state.meter.finishHunk } := by
  cases counted with
  | closed bytes hunks current =>
    rw [PageMeter.finishHunk, current]
    exact Counted.closed bytes hunks current
  | opened isOpen =>
    rw [PageMeter.finishHunk, isOpen.current]
    refine Counted.closed ?_ ?_ rfl
    · simp only [isOpen.page, isOpen.bytes, List.map_append, List.sum_append, List.map_singleton,
        List.sum_singleton, shown_lines]
    · simp only [isOpen.page, isOpen.hunks, List.length_append, List.length_singleton]

end Meters

section Loops

variable {before after : Bytes} {hunkIndex : Nat} {hunk : HunkPlan}

/-- The place stands before a line of the hunk that is not complete. -/
structure StopsIn (before after : Bytes) (hunk : HunkPlan) (place : Position) : Prop where
  pending : ∃ line rest, hunk.lines.drop place.lineIndex = line :: rest ∧
    place.lineByteOffset ≠ line.byteLen
  readable : Readable before after place.lineByteOffset (hunk.lines.drop place.lineIndex)

/-- What is left of a hunk where the loop stops. -/
def leftIn (before after : Bytes) (hunk : HunkPlan) : Option Position → List Piece
  | none => []
  | some place =>
    (linesLeft before after place.lineByteOffset (hunk.lines.drop place.lineIndex)).map
      (Prod.mk (hunk.shown []))

/-- What the lines of a hunk add to a page: it still fits, and what it shows more, with what
is left where it stops, is what was left before. -/
structure LinesShown (before after : Bytes) (hunkIndex : Nat) (hunk : HunkPlan)
    (state reached : PageState) (stop : Option Position) (leftBefore : List DiffLine) : Prop where
  counted : stop = none → Counted hunk reached
  fits : Fits reached
  baseEmpty : reached.meter.baseEmpty = state.meter.baseEmpty
  maxBytes : reached.meter.maxBytes = state.meter.maxBytes
  stops : ∀ place, stop = some place →
    place.hunkIndex = hunkIndex ∧ StopsIn before after hunk place
  shows : ∃ shown, pieces reached.page = pieces state.page ++ shown ∧
    ∀ later, shown.foldr attach (leftIn before after hunk stop ++ later) =
      leftBefore.map (Prod.mk (hunk.shown [])) ++ later

theorem hunks_bytes_array (page : List DiffHunk) :
    hunksBytes page + 2 = arrayLen (page.map DiffHunk.encodedLen) := by
  rw [hunksBytes, arrayLen, List.length_map]
  omega

theorem tail_sublist (page : List DiffHunk) : (removeEmptyTail page).Sublist page := by
  have turned : (page.reverse.dropWhile (·.lines.isEmpty)).Sublist page.reverse :=
    List.dropWhile_sublist _
  have back := turned.reverse
  rwa [List.reverse_reverse] at back

/-- A page that is cut at its end still fits. -/
theorem tail_fits {state opened : PageState} (fits : Fits state)
    (same : removeEmptyTail opened.page = removeEmptyTail state.page)
    (baseEmpty : opened.meter.baseEmpty = state.meter.baseEmpty)
    (maxBytes : opened.meter.maxBytes = state.meter.maxBytes) :
    Fits { opened with page := removeEmptyTail opened.page } := by
  rw [Fits, same, baseEmpty, maxBytes]
  rcases fits with empty | fits
  · left
    rw [empty]
    rfl
  · right
    have shorter := array_len_sublist ((tail_sublist state.page).map DiffHunk.encodedLen)
    rw [← hunks_bytes_array, ← hunks_bytes_array] at shorter
    simp only
    omega

theorem opened_bounds (state : PageState) (hunk : HunkPlan) :
    (state.opened hunk).meter.baseEmpty = state.meter.baseEmpty ∧
      (state.opened hunk).meter.maxBytes = state.meter.maxBytes := by
  rw [PageState.opened]
  split
  · exact ⟨rfl, rfl⟩
  · exact ⟨rfl, rfl⟩

/-- A line that was found to fit is shown behind what the page showed, and the page fits. -/
theorem push_shows {state : PageState} {closed : List DiffHunk} {lines : List DiffLine}
    (isOpen : Open hunk closed lines state) {line : DiffLine}
    (fits : state.meter.fitsWith line.encodedLen = true) :
    let pushed : PageState :=
      { meter := state.meter.commitLine line.encodedLen, page := pushFragment state.page line }
    Counted hunk pushed ∧ Fits pushed ∧
      pieces pushed.page = pieces state.page ++ [(hunk.shown [], line)] := by
  intro pushed
  have opened := push_open isOpen line
  refine ⟨Counted.opened opened, Or.inr ?_, ?_⟩
  · rw [opened.page]
    exact (open_fits isOpen line).mp fits
  · rw [pieces_open opened, pieces_open isOpen, List.map_append, List.append_assoc]
    rfl

theorem line_loop_shows {lines : List LinePlan} {lineIndex offset : Nat}
    {state reached : PageState} {stop : Option Position}
    (drops : hunk.lines.drop lineIndex = lines) (readable : Readable before after offset lines)
    (counted : Counted hunk state) (fits : Fits state)
    (done : lineLoop before after hunkIndex hunk lineIndex offset lines state =
      .ok (reached, stop)) :
    LinesShown before after hunkIndex hunk state reached stop
      (linesLeft before after offset lines) := by
  induction lines generalizing lineIndex offset state with
  | nil =>
    rw [lineLoop] at done
    cases done
    refine ⟨fun _ => counted, fits, rfl, rfl, ?_, [], ?_, ?_⟩
    · intro place stopped
      cases stopped
    · rw [List.append_nil]
    · intro later
      rfl
  | cons line rest inductionHypothesis =>
    have next : hunk.lines.drop (lineIndex + 1) = rest := by
      rw [← List.tail_drop, drops, List.tail_cons]
    rw [lineLoop] at done
    by_cases complete : offset = line.byteLen
    · rw [if_pos complete] at done
      rw [linesLeft, if_pos complete]
      exact inductionHypothesis next readable.next counted fits done
    · obtain ⟨front, text, reads, length, present, pending⟩ := readable.pending complete
      obtain ⟨closed, lines, isOpen, samePieces, sameTail⟩ := opened_open counted
      obtain ⟨baseEmpty, maxBytes⟩ := opened_bounds state hunk
      rw [if_neg complete] at done
      simp only [pending] at done
      rw [lines_left_pending complete pending]
      split at done
      · -- Nothing of the line fits.
        split at done
        · cases done
        · cases done
          refine ⟨(fun ended => by cases ended), tail_fits fits sameTail baseEmpty maxBytes,
            baseEmpty, maxBytes, ?_, [], ?_, ?_⟩
          · intro place stopped
            cases stopped
            exact ⟨rfl, ⟨line, rest, drops, complete⟩, by rwa [drops]⟩
          · rw [pieces_tail, samePieces, List.append_nil]
          · intro later
            rw [leftIn, drops, lines_left_pending complete pending]
            rfl
      · rename_i part found
        obtain ⟨begins, filled, -⟩ := halvings_spec text _ _ part (List.mem_of_find?_eq_some found)
        have chosen := List.find?_some found
        beta_reduce at chosen
        obtain ⟨pushed, pushedFits, shown⟩ := push_shows isOpen chosen
        by_cases whole : part = text
        · -- The rest of the line is shown.
          subst whole
          rw [if_pos (whole_complete line offset part)] at done
          have later := inductionHypothesis next readable.next pushed pushedFits done
          obtain ⟨others, shows, joined⟩ := later.shows
          refine ⟨later.counted, later.fits, later.baseEmpty.trans baseEmpty,
            later.maxBytes.trans maxBytes, later.stops,
            (hunk.shown [], line.fragment offset part part) :: others, ?_, ?_⟩
          · rw [shows, shown, samePieces, List.append_assoc]
            rfl
          · intro behind
            rw [List.foldr_cons, joined, attach_complete (whole_complete line offset part)]
            rfl
        · -- A part of it is shown, and the page ends.
          obtain ⟨more, rfl⟩ := begins
          have remains : more ≠ [] := by
            rintro rfl
            exact whole (List.append_nil part).symm
          have cut := part_incomplete line offset part remains
          rw [if_neg (by simp [cut])] at done
          cases done
          have behind := Readable.behind_part length reads
          have inside : offset + byteLen part ≠ line.byteLen := by
            have positive := byte_len_pos remains
            have total := reads.byte_len
            rw [Text.byte_len_append, Text.byte_len_append] at total
            omega
          refine ⟨(fun ended => by cases ended), pushedFits, baseEmpty, maxBytes, ?_,
            [(hunk.shown [], line.fragment offset (part ++ more) part)], ?_, ?_⟩
          · intro place stopped
            cases stopped
            refine ⟨rfl, ⟨line, rest, drops, inside⟩, ?_⟩
            rw [drops]
            refine ⟨readable.texts, ?_⟩
            intro first full head fullReads
            cases head
            rw [fullReads.unique reads, ← List.append_assoc, ← length, ← Text.byte_len_append]
            exact Text.is_boundary_iff.mpr ⟨front ++ part, more, rfl, rfl⟩
          · rw [shown, samePieces]
          · intro later
            rw [leftIn, drops, lines_left_pending inside behind]
            exact attach_part (hunk.shown []) line offset part remains _

/-- The place stands before a line of the plan that is not complete. -/
structure StopsAt (before after : Bytes) (hunks : List HunkPlan) (place : Position) : Prop where
  inside : ∃ hunk rest, hunks.drop place.hunkIndex = hunk :: rest ∧ StopsIn before after hunk place

theorem hunk_loop_shows {plan : Plan} {hunks : List HunkPlan} {lineIndex offset : Nat}
    {state : PageState} {page : List DiffHunk} {stop : Option Position}
    (drops : plan.hunks.drop hunkIndex = hunks)
    (texts : ∀ hunk ∈ hunks, ∀ line ∈ hunk.lines, ∃ text, LineReads before after line text)
    (readable : ∀ hunk, hunks.head? = some hunk →
      Readable before after offset (hunk.lines.drop lineIndex))
    (counted : ∀ hunk, Counted hunk state) (fits : Fits state)
    (done : hunkLoop before after hunkIndex lineIndex offset hunks state = .ok (page, stop)) :
    (page = [] ∨ state.meter.baseEmpty + hunksBytes page ≤ state.meter.maxBytes) ∧
      (∀ place, stop = some place → StopsAt before after plan.hunks place) ∧
      ∃ shown, pieces page = pieces state.page ++ shown ∧
        shown.foldr attach (left before after plan stop) =
          hunksLeft before after lineIndex offset hunks := by
  induction hunks generalizing hunkIndex lineIndex offset state with
  | nil =>
    rw [hunkLoop] at done
    cases done
    refine ⟨fits, ?_, [], ?_, rfl⟩
    · intro place stopped
      cases stopped
    · rw [List.append_nil]
  | cons hunk rest inductionHypothesis =>
    have next : plan.hunks.drop (hunkIndex + 1) = rest := by
      rw [← List.tail_drop, drops, List.tail_cons]
    have others := fun other member => texts other (List.mem_cons_of_mem hunk member)
    rw [hunkLoop] at done
    split at done
    · cases done
    · rename_i reached place looped
      cases done
      have lines := line_loop_shows rfl (readable hunk rfl) (counted hunk) fits looped
      obtain ⟨shown, shows, joined⟩ := lines.shows
      obtain ⟨same, stops⟩ := lines.stops place rfl
      have there : plan.hunks.drop place.hunkIndex = hunk :: rest := by rw [same, drops]
      have bound := lines.fits
      rw [Fits, lines.baseEmpty, lines.maxBytes] at bound
      refine ⟨bound, ?_, shown, shows, ?_⟩
      · intro other stopped
        cases stopped
        exact ⟨hunk, rest, there, stops⟩
      · rw [left, there]
        exact joined (hunksLeft before after 0 0 rest)
    · rename_i reached looped
      have lines := line_loop_shows rfl (readable hunk rfl) (counted hunk) fits looped
      obtain ⟨shown, shows, joined⟩ := lines.shows
      have finished : (reached.meter.finishHunk).baseEmpty = state.meter.baseEmpty ∧
          (reached.meter.finishHunk).maxBytes = state.meter.maxBytes := by
        rw [PageMeter.finishHunk, ← lines.baseEmpty, ← lines.maxBytes]
        split
        · exact ⟨rfl, rfl⟩
        · exact ⟨rfl, rfl⟩
      have bound : Fits { reached with meter := reached.meter.finishHunk } := by
        have reachedFits := lines.fits
        rw [Fits, lines.baseEmpty, lines.maxBytes] at reachedFits
        rw [Fits, finished.1, finished.2]
        exact reachedFits
      obtain ⟨pageFits, stops, more, moreShows, moreJoined⟩ := inductionHypothesis next others
        (fun other head => readable_whole (by
          rw [List.drop_zero]
          exact others other (List.mem_of_head? head)))
        (finish_closed (lines.counted rfl)) bound done
      rw [finished.1, finished.2] at pageFits
      refine ⟨pageFits, stops, shown ++ more, ?_, ?_⟩
      · rw [moreShows, shows, List.append_assoc]
      · rw [List.foldr_append, moreJoined]
        exact joined (hunksLeft before after 0 0 rest)

/-- Where nothing is pending, the page is complete. -/
theorem hunk_loop_ends {hunks : List HunkPlan} {lineIndex offset : Nat} {state : PageState}
    (nothing : pendingFrom hunkIndex lineIndex offset hunks = none) :
    hunkLoop before after hunkIndex lineIndex offset hunks state = .ok (state.page, none) := by
  induction hunks generalizing hunkIndex lineIndex offset state with
  | nil => rfl
  | cons hunk rest inductionHypothesis =>
    rw [pendingFrom] at nothing
    split at nothing
    · cases nothing
    · rename_i none_pending
      rw [hunkLoop, line_loop_ends none_pending]
      exact inductionHypothesis nothing

end Loops

section Pages

variable {before after : Bytes} {plan : Plan} {place : Position}

theorem le_foldl_max {values : List Nat} {start value : Nat}
    (listed : value ∈ values ∨ value ≤ start) : value ≤ values.foldl max start := by
  induction values generalizing start with
  | nil =>
    rcases listed with member | small
    · cases member
    · exact small
  | cons first rest inductionHypothesis =>
    rw [List.foldl_cons]
    apply inductionHypothesis
    rcases listed with member | small
    · rcases List.mem_cons.mp member with rfl | later
      · exact Or.inr (Nat.le_max_right start value)
      · exact Or.inl later
    · exact Or.inr (Nat.le_trans small (Nat.le_max_left start first))

/-- The largest place that a cursor is sized for. -/
def lastPlace (plan : Plan) (before after : Bytes) : Position :=
  { hunkIndex := plan.hunks.length
    lineIndex := (plan.hunks.map (·.lines.length)).foldl max 0
    lineByteOffset := max before.length after.length }

/-- No number of the place is larger than the one of the other place. -/
structure Position.Within (place bound : Position) : Prop where
  hunkIndex : place.hunkIndex ≤ bound.hunkIndex
  lineIndex : place.lineIndex ≤ bound.lineIndex
  lineByteOffset : place.lineByteOffset ≤ bound.lineByteOffset

theorem stops_within (stops : StopsAt before after plan.hunks place) :
    place.Within (lastPlace plan before after) := by
  obtain ⟨hunk, others, hunkDrops, ⟨line, rest, lineDrops, -⟩, readable⟩ := stops.inside
  have hunkInside : place.hunkIndex < plan.hunks.length := by
    by_contra outside
    rw [List.drop_eq_nil_of_le (Nat.not_lt.mp outside)] at hunkDrops
    cases hunkDrops
  have lineInside : place.lineIndex < hunk.lines.length := by
    by_contra outside
    rw [List.drop_eq_nil_of_le (Nat.not_lt.mp outside)] at lineDrops
    cases lineDrops
  have listed : hunk ∈ plan.hunks :=
    List.mem_of_mem_drop (by rw [hunkDrops]; exact List.mem_cons_self)
  rw [lineDrops] at readable
  obtain ⟨text, reads⟩ := readable.texts line List.mem_cons_self
  have offset := Text.boundary_le (readable.boundary line text rfl reads)
  have inside := reads.inside
  have source : (line.source.bytes before after).length ≤ max before.length after.length := by
    cases line.source with
    | before => exact Nat.le_max_left _ _
    | after => exact Nat.le_max_right _ _
  rw [← reads.byte_len] at offset
  refine ⟨Nat.le_of_lt hunkInside, ?_, ?_⟩
  · have counted : hunk.lines.length ≤ (plan.hunks.map (·.lines.length)).foldl max 0 :=
      le_foldl_max (Or.inl (List.mem_map_of_mem listed))
    exact Nat.le_of_lt (Nat.lt_of_lt_of_le lineInside counted)
  · rw [lastPlace]
    simp only
    omega

variable {subject : Subject} {contextLines : Nat} {head : List (String × Nat)}

theorem cursor_len_mono {bound : Position} (within : place.Within bound) :
    (pageCursor subject plan contextLines place).encodedLen ≤
      (pageCursor subject plan contextLines bound).encodedLen := by
  apply object_len_mono
  simp only [pageCursor, List.forall₂_cons, List.forall₂_nil_right_iff, and_true, true_and,
    Nat.le_refl]
  exact ⟨number_len_mono within.hunkIndex, number_len_mono within.lineIndex,
    number_len_mono within.lineByteOffset⟩

/-- A page takes no more bytes than the hunks beside the largest cursor. -/
theorem page_len_le {page : List DiffHunk} {stop : Option Position} {complete : Bool}
    (within : ∀ place, stop = some place → place.Within (lastPlace plan before after)) :
    ((DiffResult.base head).page plan page (stop.map (pageCursor subject plan contextLines))
        complete).encodedLen ≤
      ((DiffResult.base head).template subject plan before after contextLines).encodedLen +
        hunksBytes page := by
  have availability (first second : Bool) :
      stringLen (if first || !second then DiffAvailability.partialPages
        else DiffAvailability.available).asStr ≤
      stringLen DiffAvailability.unavailable.asStr := by
    cases first <;> cases second <;> decide
  have flag (value : Bool) : boolLen value ≤ boolLen false := by
    cases value <;> decide
  have sized := result_hunks ((DiffResult.base head).template subject plan before after
    contextLines) page
  have largest : (DiffResult.base head).template subject plan before after contextLines =
      { (DiffResult.base head).template subject plan before after contextLines with hunks := [] } :=
    rfl
  have fields (more other : List (String × Nat))
      (each : List.Forall₂ (fun field other => field.1 = other.1 ∧ field.2 ≤ other.2) more other) :
      objectLen (head ++ more) ≤ objectLen (head ++ other) :=
    object_len_mono (List.rel_append (List.forall₂_same.mpr fun _ _ => ⟨rfl, Nat.le_refl _⟩) each)
  rw [largest, ← sized]
  cases stop with
  | none =>
    refine Nat.le_trans ?_ (object_len_append _ _)
    simp only [DiffResult.encodedLen, DiffResult.page, DiffResult.template, DiffResult.base,
      Option.map_none, optional_none, List.append_nil, List.append_assoc]
    apply fields
    simp only [List.cons_append, List.nil_append, List.forall₂_cons, List.forall₂_nil_right_iff,
      and_true, true_and, Nat.le_refl]
    exact ⟨availability _ _, flag _, flag _⟩
  | some place =>
    have cursor : (pageCursor subject plan contextLines place).encodedLen ≤
        (pageCursor subject plan contextLines (lastPlace plan before after)).encodedLen :=
      cursor_len_mono (within place rfl)
    simp only [DiffResult.encodedLen, DiffResult.page, DiffResult.template, DiffResult.base,
      Option.map_some, optional_some, List.append_assoc]
    apply fields
    simp only [List.cons_append, List.nil_append, List.forall₂_cons, List.forall₂_nil_right_iff,
      and_true, true_and, Nat.le_refl]
    exact ⟨availability _ _, flag _, flag _, cursor⟩

/-- What a page shows of a plan from a place on, and where it stops. -/
structure PageShows (subject : Subject) (plan : Plan) (before after : Bytes) (contextLines : Nat)
    (head : List (String × Nat)) (start : Position) (maxBytes : Nat) (page : List DiffHunk)
    (nextCursor : Option DiffCursor) (complete : Bool) (stop : Option Position) : Prop where
  cursor : nextCursor = stop.map (pageCursor subject plan contextLines)
  stops : ∀ place, stop = some place →
    StopsAt before after plan.hunks place ∧ place.After start ∧ pieces page ≠ []
  shows : (pieces page).foldr attach (left before after plan stop) =
    left before after plan (some start)
  fits : page ≠ [] →
    ((DiffResult.base head).page plan page nextCursor complete).encodedLen ≤ maxBytes

/-- A cursor that is accepted has a readable text behind it. -/
theorem valid_readable {start : Position} (valid : ValidCursor plan before after start)
    (texts : ∀ hunk ∈ plan.hunks, ∀ line ∈ hunk.lines, ∃ text, LineReads before after line text) :
    ∀ hunk, (plan.hunks.drop start.hunkIndex).head? = some hunk →
      Readable before after start.lineByteOffset (hunk.lines.drop start.lineIndex) := by
  intro hunk first
  rw [List.head?_drop] at first
  constructor
  · intro line member
    exact texts hunk (List.mem_of_getElem? first) line (List.mem_of_mem_drop member)
  · intro line text head reads
    rw [List.head?_drop] at head
    exact valid.2 hunk line text first head (by rw [reads.bytes, decode_encode])

/-- The place where a page stops is a valid cursor. -/
theorem stops_valid (stops : StopsAt before after plan.hunks place) :
    ValidCursor plan before after place := by
  obtain ⟨hunk, others, hunkDrops, ⟨line, rest, lineDrops, -⟩, readable⟩ := stops.inside
  have first : plan.hunks[place.hunkIndex]? = some hunk := by
    rw [← List.head?_drop, hunkDrops, List.head?_cons]
  have second : hunk.lines[place.lineIndex]? = some line := by
    rw [← List.head?_drop, lineDrops, List.head?_cons]
  have hunkInside := (List.getElem?_eq_some_iff.mp first).1
  have lineInside := (List.getElem?_eq_some_iff.mp second).1
  constructor
  · have order : ¬ plan.hunks.length < place.hunkIndex := by omega
    have behind : place.hunkIndex ≠ plan.hunks.length := by omega
    have inner : ¬ hunk.lines.length ≤ place.lineIndex := by omega
    simp [outside, first, order, behind, inner]
  · intro sameHunk sameLine full found listed decoded
    rw [first] at found
    cases found
    rw [second] at listed
    cases listed
    rw [lineDrops] at readable
    obtain ⟨text, reads⟩ := readable.texts line List.mem_cons_self
    rw [reads.bytes, decode_encode] at decoded
    cases decoded
    exact readable.boundary line _ rfl reads

/-- A line is pending where a page stops. -/
theorem stops_pending (stops : StopsAt before after plan.hunks place) :
    ∃ pending, pendingFrom place.hunkIndex place.lineIndex place.lineByteOffset
      (plan.hunks.drop place.hunkIndex) = some pending := by
  obtain ⟨hunk, others, hunkDrops, ⟨line, rest, lineDrops, incomplete⟩, -⟩ := stops.inside
  refine ⟨⟨place.hunkIndex, hunk, place.lineIndex, place.lineByteOffset, line⟩, ?_⟩
  rw [hunkDrops, pendingFrom, lineDrops, pendingLine, if_neg incomplete]

theorem build_page_shows {start : Position} {maxBytes : Nat} {page : List DiffHunk}
    {nextCursor : Option DiffCursor} {complete : Bool}
    (texts : ∀ hunk ∈ plan.hunks, ∀ line ∈ hunk.lines, ∃ text, LineReads before after line text)
    (valid : ValidCursor plan before after start)
    (built : buildPage subject plan before after contextLines (.base head) start maxBytes =
      .ok (page, nextCursor, complete)) :
    ∃ stop, PageShows subject plan before after contextLines head start maxBytes page nextCursor
      complete stop := by
  have rest : ∀ hunk ∈ plan.hunks.drop start.hunkIndex, ∀ line ∈ hunk.lines,
      ∃ text, LineReads before after line text :=
    fun hunk member => texts hunk (List.mem_of_mem_drop member)
  rw [build_page_eq valid.1] at built
  cases looped : hunkLoop before after start.hunkIndex start.lineIndex start.lineByteOffset
      (plan.hunks.drop start.hunkIndex)
      ⟨.start ((DiffResult.base head).template subject plan before after contextLines).encodedLen
        maxBytes, []⟩ with
  | error error =>
    rw [looped] at built
    cases built
  | ok reached =>
    obtain ⟨shownPage, stop⟩ := reached
    rw [looped] at built
    obtain ⟨fits, stops, shown, shows, joined⟩ := hunk_loop_shows rfl rest
      (valid_readable valid texts) (fun hunk => Counted.closed rfl rfl rfl) (Or.inl rfl) looped
    rw [show pieces ([] : List DiffHunk) = [] from rfl, List.nil_append] at shows
    have same : page = shownPage ∧
        nextCursor = stop.map (pageCursor subject plan contextLines) := by
      cases stop with
      | none =>
        cases built
        exact ⟨rfl, rfl⟩
      | some place =>
        cases built
        exact ⟨rfl, rfl⟩
    obtain ⟨rfl, rfl⟩ := same
    refine ⟨stop, rfl, ?_, ?_, ?_⟩
    · intro place stopped
      subst stopped
      refine ⟨stops place rfl, ?_⟩
      cases next : pendingFrom start.hunkIndex start.lineIndex start.lineByteOffset
          (plan.hunks.drop start.hunkIndex) with
      | none =>
        rw [hunk_loop_ends next] at looped
        cases looped
      | some pending =>
        obtain ⟨⟨text, pendingShown, -⟩, order⟩ := pending_from_start valid texts next
        obtain ⟨refused, answered⟩ := hunk_loop_pending
          ((DiffResult.base head).template subject plan before after contextLines).encodedLen
          maxBytes next rest pendingShown
        cases found : (tried text).find? (firstFit ((DiffResult.base head).template subject plan
            before after contextLines).encodedLen maxBytes pending.hunk pending.line
            pending.offset text) with
        | none =>
          rw [refused found] at looped
          cases looped
        | some part =>
          obtain ⟨otherPage, otherStop, again, started, later⟩ := answered part found
          rw [again] at looped
          cases looped
          refine ⟨after_of_pending (later place rfl) order, ?_⟩
          obtain ⟨hunk, member, filled⟩ := started
          intro nothing
          have none_shown := List.flatMap_eq_nil_iff.mp nothing hunk member
          exact filled (List.map_eq_nil_iff.mp none_shown)
    · rw [shows]
      exact joined
    · intro some_hunk
      have bound := fits.resolve_left some_hunk
      exact Nat.le_trans (page_len_le fun place stopped => stops_within (stops place stopped)) bound

end Pages

end MinicoreAgent.Diffs

import MinicoreAgent.CodexApply

/-!
# When a resolved Codex patch applies

Every line that a patch writes without an ending has to be the last line of the result.
Such a line is the unended last line of the source, where it is copied or kept, or a line
that the patch marks. A hunk that only inserts after the unended last line, without
naming it as context, leaves it unended and cannot be applied.
-/
namespace MinicoreAgent.Patches

open MinicoreAgent.Text (byteLen)

section Condition

/-- A line that a hunk writes without an ending. -/
def PatchContent.leavesOpen (content : PatchContent) : Bool :=
  match content.kind with
  | .context => content.oldNoNewline && content.contextNewEnding.isNone
  | .remove => false
  | .add => content.newNoNewline

/-- From the cursor on the hunks remove all that is left of the source. -/
def writesNothing (source : List SourceLine) : Nat → List ResolvedHunk → Bool
  | cursor, [] => source.length ≤ cursor
  | cursor, hunk :: rest =>
    hunk.old.index == cursor && !hunk.contents.any (·.kept) &&
      writesNothing source hunk.old.stop rest

/-- A line without an ending is the last that its hunk writes, and nothing is written
after the hunk. -/
def closedContents (isLast : Bool) : List PatchContent → Bool
  | [] => true
  | content :: rest =>
    (!content.leavesOpen || (!rest.any (·.kept) && isLast)) && closedContents isLast rest

/-- The last line of the source lacks its ending. -/
def opensAtEnd (source : List SourceLine) : Bool := source.getLast?.any (·.ending == .none)

/-- Nothing is written after a line without an ending: not by the hunk that writes it,
and not by a hunk after the last line of the source, where no hunk has read that line. -/
def closedHunks (source : List SourceLine) : Nat → List ResolvedHunk → Bool
  | _, [] => true
  | cursor, hunk :: rest =>
    !(opensAtEnd source && decide (cursor < source.length) && hunk.old.index == source.length) &&
      closedContents (writesNothing source hunk.old.stop rest) hunk.contents &&
      closedHunks source hunk.old.stop rest

end Condition

section Closed

variable {source : List SourceLine} {preferred : LineEnding} {cursor position : Nat}

theorem not_kept_iff {contents : List PatchContent} :
    (!contents.any (·.kept)) = true ↔ newPart contents = [] := by
  simp [newPart, PatchContent.kept, List.filter_eq_nil_iff]

theorem written_nil_iff {contents : List PatchContent} {stop : Nat}
    (matched : List.Forall₂ Expects (oldPart contents) (between source cursor stop)) :
    writtenLines source preferred cursor contents = [] ↔ newPart contents = [] := by
  have texts : (writtenLines source preferred cursor contents).map (·.text) =
      (newPart contents).map (·.text) := written_texts matched
  rw [← List.map_eq_nil_iff (f := (·.text)), texts, List.map_eq_nil_iff]

theorem between_nil_iff {stop : Nat} (ordered : cursor ≤ stop) (inside : stop ≤ source.length) :
    between source cursor stop = [] ↔ stop = cursor := by
  rw [← List.length_eq_zero_iff, between_length cursor inside]
  omega

/-- Nothing is written exactly where the hunks remove all that is left. -/
theorem writes_nothing_iff {hunks : List ResolvedHunk} (chain : Chain source cursor position hunks) :
    writesNothing source cursor hunks = true ↔
      hunkLines source preferred cursor hunks ++ source.drop (hunksEnd cursor hunks) = [] := by
  induction hunks generalizing cursor position with
  | nil => simp [writesNothing, hunkLines, hunksEnd]
  | cons hunk rest inductionHypothesis =>
    obtain ⟨located, later⟩ := chain
    have stop := located.oldStop
    have inside := located.inside
    rw [writesNothing, Bool.and_eq_true, Bool.and_eq_true, not_kept_iff, beq_iff_eq,
      inductionHypothesis later]
    rw [hunkLines, hunksEnd, List.append_eq_nil_iff, List.append_eq_nil_iff,
      List.append_eq_nil_iff, List.append_eq_nil_iff, written_nil_iff located.matched,
      between_nil_iff located.ordered (by omega)]
    simp only [and_assoc]

theorem ended_before_cons {line : SourceLine} {rest : List SourceLine} :
    EndedBefore (line :: rest) ↔ (rest ≠ [] → line.ending ≠ .none) ∧ EndedBefore rest := by
  have parts : EndedBefore ([line] ++ rest) ↔
      EndedBefore [line] ∧ EndedBefore rest ∧ (rest ≠ [] → Ended [line]) := ended_before_append
  rw [List.singleton_append] at parts
  rw [parts]
  simp [EndedBefore, Ended, and_comm]

/-- A line that is written without an ending is the last of the result. -/
theorem written_line_ended {content : PatchContent} {line : SourceLine} {rest : List PatchContent}
    {written more : List SourceLine} (isOpen : line.ending = .none ↔ content.leavesOpen = true)
    (nothing : written = [] ↔ newPart rest = []) :
    EndedBefore (line :: (written ++ more)) ↔
      (!content.leavesOpen || (!rest.any (·.kept) && decide (more = []))) = true ∧
        EndedBefore (written ++ more) := by
  rw [ended_before_cons, Bool.or_eq_true, Bool.and_eq_true, not_kept_iff, decide_eq_true_iff,
    ← nothing, ne_eq, List.append_eq_nil_iff, ne_eq, isOpen]
  cases content.leavesOpen with
  | true => simp [imp_iff_not_or]
  | false => simp

/-- The new side of a hunk and what follows it keep their endings where the condition
says so. -/
theorem closed_contents_iff {contents : List PatchContent} {stop : Nat}
    {more : List SourceLine} (ending : preferred ≠ .none)
    (matched : List.Forall₂ Expects (oldPart contents) (between source cursor stop))
    (ended : ∀ content ∈ contents, content.contextNewEnding ≠ some .none) :
    EndedBefore (writtenLines source preferred cursor contents ++ more) ↔
      closedContents (decide (more = [])) contents = true ∧ EndedBefore more := by
  induction contents generalizing cursor with
  | nil => simp [writtenLines, closedContents]
  | cons content rest inductionHypothesis =>
    have ended_rest : ∀ other ∈ rest, other.contextNewEnding ≠ some .none :=
      fun other member => ended other (by simp [member])
    rw [closedContents, Bool.and_eq_true, and_assoc]
    cases kind : content.kind with
    | context =>
      have old : oldPart (content :: rest) = content :: oldPart rest := by simp [oldPart, kind]
      rw [old, List.forall₂_cons_left_iff] at matched
      obtain ⟨line, later, expected, following, first⟩ := matched
      obtain ⟨here, remaining⟩ := between_eq_cons first
      have whole : writtenLines source preferred cursor (content :: rest) =
          { line with ending := content.contextNewEnding.getD line.ending } ::
            writtenLines source preferred (cursor + 1) rest := by
        simp [writtenLines, kind, here]
      rw [whole, List.cons_append, written_line_ended ?_ (written_nil_iff (remaining ▸ following)),
        inductionHypothesis (remaining ▸ following) ended_rest]
      have unended : line.ending = .none ↔ content.oldNoNewline = true := by
        rw [← expected.2, beq_iff_eq]
      cases changed : content.contextNewEnding with
      | none => simp [PatchContent.leavesOpen, kind, changed, unended]
      | some given =>
        have present : given ≠ .none := fun same => ended content (by simp) (same ▸ changed)
        simp [PatchContent.leavesOpen, kind, changed, present]
    | remove =>
      have old : oldPart (content :: rest) = content :: oldPart rest := by simp [oldPart, kind]
      rw [old, List.forall₂_cons_left_iff] at matched
      obtain ⟨line, later, expected, following, first⟩ := matched
      obtain ⟨here, remaining⟩ := between_eq_cons first
      have whole : writtenLines source preferred cursor (content :: rest) =
          writtenLines source preferred (cursor + 1) rest := by
        simp [writtenLines, kind]
      rw [whole, inductionHypothesis (remaining ▸ following) ended_rest]
      simp [PatchContent.leavesOpen, kind]
    | add =>
      have old : oldPart (content :: rest) = oldPart rest := by simp [oldPart, kind]
      rw [old] at matched
      have whole : writtenLines source preferred cursor (content :: rest) =
          ⟨content.text, if content.newNoNewline then .none else preferred⟩ ::
            writtenLines source preferred cursor rest := by
        simp [writtenLines, kind]
      rw [whole, List.cons_append, written_line_ended ?_ (written_nil_iff matched),
        inductionHypothesis matched ended_rest]
      cases marked : content.newNoNewline with
      | true => simp [PatchContent.leavesOpen, kind, marked]
      | false => simpa [PatchContent.leavesOpen, kind, marked] using ending

/-- Lines before the last line of the source have their endings. -/
theorem between_ended {stop : Nat} (ended : EndedBefore source) (inside : stop < source.length) :
    Ended (between source cursor stop) := by
  have parts := ended
  rw [← List.take_append_drop stop source, ended_before_append] at parts
  have before : Ended (source.take stop) := parts.2.2 (by simpa using inside)
  intro line member
  rw [between, ← List.drop_take] at member
  exact before line (List.mem_of_mem_drop member)

theorem ended_iff_last {lines : List SourceLine} (ended : EndedBefore lines) :
    Ended lines ↔ (!opensAtEnd lines) = true := by
  rcases List.eq_nil_or_concat lines with rfl | ⟨before, last, rfl⟩
  · simp [Ended, opensAtEnd]
  · rw [List.concat_eq_append, ended_before_append] at ended
    have earlier : Ended before := ended.2.2 (by simp)
    rw [List.concat_eq_append, opensAtEnd, List.getLast?_concat]
    simp only [Ended, List.mem_append, List.mem_singleton, Option.any_some, Bool.not_eq_true',
      beq_eq_false_iff_ne]
    constructor
    · intro all
      exact all last (.inr rfl)
    · rintro closed line (member | rfl)
      · exact earlier line member
      · exact closed

theorem drop_ended_before (ended : EndedBefore source) (cursor : Nat) :
    EndedBefore (source.drop cursor) := by
  rw [← List.take_append_drop cursor source, ended_before_append] at ended
  exact ended.2.1

theorem drop_ended_iff (ended : EndedBefore source) :
    Ended (source.drop cursor) ↔
      (!(opensAtEnd source && decide (cursor < source.length))) = true := by
  rw [ended_iff_last (drop_ended_before ended cursor)]
  by_cases inside : cursor < source.length
  · have last : source.getLast? = (source.drop cursor).getLast? := by
      rw [List.getLast?_drop, if_neg (by omega)]
    simp [opensAtEnd, last, inside]
  · have empty : source.drop cursor = [] := List.drop_eq_nil_of_le (by omega)
    simp [opensAtEnd, empty, inside]

/-- A hunk after the last line of the source only adds lines. -/
theorem Located.adds_at_end {hunk : ResolvedHunk} (located : Located source cursor position hunk)
    (atEnd : hunk.old.index = source.length) : newPart hunk.contents ≠ [] := by
  intro nothing
  have stop := located.oldStop
  have inside := located.inside
  have old : oldPart hunk.contents = [] := List.length_eq_zero_iff.mp (by omega)
  obtain ⟨content, rest, first⟩ := List.exists_cons_of_ne_nil located.present
  rw [first] at nothing old
  cases kind : content.kind with
  | context => simp [newPart, kind] at nothing
  | remove => simp [oldPart, kind] at old
  | add => simp [newPart, kind] at nothing

/-- The lines before a hunk keep their endings unless the hunk follows an unended last
line. -/
theorem between_ended_iff {hunk : ResolvedHunk} (ended : EndedBefore source)
    (located : Located source cursor position hunk) :
    Ended (between source cursor hunk.old.index) ↔
      (!(opensAtEnd source && decide (cursor < source.length) &&
        hunk.old.index == source.length)) = true := by
  have stop := located.oldStop
  have inside := located.inside
  by_cases atEnd : hunk.old.index = source.length
  · have all : between source cursor source.length = source.drop cursor := by
      rw [between, List.take_of_length_le (by simp)]
    rw [atEnd, all, drop_ended_iff ended]
    simp
  · have before : Ended (between source cursor hunk.old.index) :=
      between_ended ended (by omega)
    simp [before, atEnd]

/-- The result of resolved hunks keeps its endings exactly under the condition. -/
theorem closed_hunks_iff {hunks : List ResolvedHunk} (ending : preferred ≠ .none)
    (ended : EndedBefore source) (chain : Chain source cursor position hunks) :
    EndedBefore (hunkLines source preferred cursor hunks ++ source.drop (hunksEnd cursor hunks)) ↔
      closedHunks source cursor hunks = true := by
  induction hunks generalizing cursor position with
  | nil => simpa [hunkLines, hunksEnd, closedHunks] using drop_ended_before ended cursor
  | cons hunk rest inductionHypothesis =>
    obtain ⟨located, later⟩ := chain
    have nothing : decide (hunkLines source preferred hunk.old.stop rest ++
        source.drop (hunksEnd hunk.old.stop rest) = []) =
          writesNothing source hunk.old.stop rest := by
      rw [Bool.eq_iff_iff, decide_eq_true_iff, writes_nothing_iff later]
    have gap := between_ended_iff ended located
    have copied : EndedBefore (between source cursor hunk.old.index) := by
      have parts := ended
      rw [← List.take_append_drop hunk.old.index source, ended_before_append] at parts
      rw [between, ← List.drop_take]
      exact drop_ended_before parts.1 cursor
    have followed : (writtenLines source preferred hunk.old.index hunk.contents ++
        (hunkLines source preferred hunk.old.stop rest ++
          source.drop (hunksEnd hunk.old.stop rest)) ≠ [] →
        Ended (between source cursor hunk.old.index)) ↔
        Ended (between source cursor hunk.old.index) := by
      refine ⟨fun all => ?_, fun all _ => all⟩
      by_cases atEnd : hunk.old.index = source.length
      · apply all
        intro nothing
        have written := (List.append_eq_nil_iff.mp nothing).1
        exact located.adds_at_end atEnd ((written_nil_iff located.matched).mp written)
      · have stop := located.oldStop
        have inside := located.inside
        exact between_ended ended (by omega)
    rw [hunkLines, hunksEnd, List.append_assoc, List.append_assoc, ended_before_append,
      closed_contents_iff ending located.matched located.ended, nothing,
      inductionHypothesis later, closedHunks, Bool.and_eq_true, Bool.and_eq_true, ← gap,
      followed]
    constructor
    · rintro ⟨-, ⟨contents, hunks⟩, before⟩
      exact ⟨⟨before, contents⟩, hunks⟩
    · rintro ⟨⟨before, contents⟩, hunks⟩
      exact ⟨copied, ⟨contents, hunks⟩, before⟩

theorem loop_lines_le_bytes (current rest : Text) :
    (splitSourceLoop current rest).length ≤ byteLen (current ++ rest) := by
  induction rest generalizing current with
  | nil =>
    rw [splitSourceLoop]
    split
    · exact Nat.zero_le _
    · rename_i present
      obtain ⟨char, others, rfl⟩ := List.exists_cons_of_ne_nil present
      have size := Char.utf8Size_pos char
      simp only [List.append_nil, List.length_singleton, Text.byte_len_cons]
      omega
  | cons char rest inductionHypothesis =>
    have size := Char.utf8Size_pos char
    rw [splitSourceLoop]
    split
    · have later := inductionHypothesis []
      simp only [List.nil_append] at later
      simp only [List.length_cons, Text.byte_len_append, Text.byte_len_cons]
      omega
    · have later := inductionHypothesis (current ++ [char])
      simpa using later

/-- A source has no more lines than bytes. -/
theorem source_lines_le_bytes (source : Text) :
    (splitSourceLines source).length ≤ byteLen source := by
  have all := loop_lines_le_bytes [] source
  rw [List.nil_append] at all
  exact all

end Closed

/-- A context line at the end of the source, and a line added after it. -/
def appendedHunk : ResolvedHunk where
  old := { index := 0, count := 1, stop := 1 }
  new := { index := 0, count := 2, stop := 2 }
  contents := [⟨.context, ['a'], true, false, some .lf⟩, ⟨.add, ['b'], false, true, none⟩]

/-- A line that is only inserted after the end of the source. -/
def insertedHunk : ResolvedHunk where
  old := { index := 1, count := 0, stop := 1 }
  new := { index := 1, count := 1, stop := 2 }
  contents := [⟨.add, ['b'], false, true, none⟩]

end MinicoreAgent.Patches

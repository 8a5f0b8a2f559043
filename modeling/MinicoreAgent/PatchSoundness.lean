import MinicoreAgent.Lib.Results
import MinicoreAgent.UnifiedPatch

/-!
# What a patch makes of its source

A result is described line by line: what stands before a hunk and after the last
one is copied, and a hunk becomes its new side, in which context lines are taken
from the source. The pass over the hunks writes exactly these lines, so that a patch
that applies has found all its old lines in place.
-/
namespace MinicoreAgent.Patches

open MinicoreAgent.Text (byteLen)

section Description

/-- The text of some lines with their endings. -/
def sourceText (lines : List SourceLine) : Text :=
  lines.flatMap (fun line => line.text ++ line.ending.asStr)

/-- The lines a hunk reads from the source. -/
def oldPart (contents : List PatchContent) : List PatchContent :=
  contents.filter (fun content => content.kind != .add)

/-- The lines a hunk leaves in the result. -/
def newPart (contents : List PatchContent) : List PatchContent :=
  contents.filter (fun content => content.kind != .remove)

/-- A line of the source is the one that a line of the hunk expects. -/
def Expects (content : PatchContent) (line : SourceLine) : Prop :=
  line.text = content.text ∧ (line.ending == .none) = content.oldNoNewline

/-- The new side of a hunk whose lines are read from the cursor on. -/
def writtenLines (source : List SourceLine) (preferred : LineEnding) :
    Nat → List PatchContent → List SourceLine
  | _, [] => []
  | cursor, content :: rest =>
    match content.kind with
    | .context =>
      (source[cursor]?.map fun line =>
        { line with ending := content.contextNewEnding.getD line.ending }).toList ++
        writtenLines source preferred (cursor + 1) rest
    | .remove => writtenLines source preferred (cursor + 1) rest
    | .add =>
      ⟨content.text, if content.newNoNewline then .none else preferred⟩ ::
        writtenLines source preferred cursor rest

/-- The lines of the source between two positions. -/
def between (source : List SourceLine) (start stop : Nat) : List SourceLine :=
  (source.drop start).take (stop - start)

/-- The result up to the end of the last hunk. -/
def hunkLines (source : List SourceLine) (preferred : LineEnding) :
    Nat → List ResolvedHunk → List SourceLine
  | _, [] => []
  | cursor, hunk :: rest =>
    between source cursor hunk.old.index ++
      writtenLines source preferred hunk.old.index hunk.contents ++
      hunkLines source preferred hunk.old.stop rest

/-- Where the last hunk ends in the source. -/
def hunksEnd : Nat → List ResolvedHunk → Nat
  | cursor, [] => cursor
  | _, hunk :: rest => hunksEnd hunk.old.stop rest

/-- The lines of the result. -/
def patchedLines (source : List SourceLine) (hunks : List ResolvedHunk) : List SourceLine :=
  hunkLines source (preferredLineEnding source) 0 hunks ++ source.drop (hunksEnd 0 hunks)

end Description

section Builder

/-- The builder holds some lines, of which only the last one may lack its ending. -/
structure Writes (builder : ResultBuilder) (lines : List SourceLine) : Prop where
  value : builder.value = sourceText lines
  lineCount : builder.lineCount = lines.length
  unended : builder.previousHadNoNewline = lines.getLast?.any (·.ending == .none)
  ended : ∀ line ∈ lines.dropLast, line.ending ≠ .none
  bounded : byteLen builder.value ≤ maxPatchBytes

theorem Writes.empty : Writes {} [] where
  value := rfl
  lineCount := rfl
  unended := rfl
  ended := by simp
  bounded := by decide

variable {builder next : ResultBuilder} {lines : List SourceLine}

@[simp] theorem source_text_append (first second : List SourceLine) :
    sourceText (first ++ second) = sourceText first ++ sourceText second := by
  simp [sourceText]

theorem source_text_singleton (line : SourceLine) :
    sourceText [line] = line.text ++ line.ending.asStr := by
  simp [sourceText]

theorem add_ok_iff {left right sum : Nat} :
    add left right = .ok sum ↔ left + right ≤ usizeMax ∧ sum = left + right := by
  unfold add
  split
  · rename_i fits
    simp [fits, eq_comm]
  · rename_i large
    simp [large]

/-- A line can be appended after lines that have their endings, within the bound. -/
theorem append_ok_iff {text : Text} {ending : LineEnding} :
    builder.append text ending = .ok next ↔
      builder.previousHadNoNewline = false ∧
        byteLen (builder.value ++ text ++ ending.asStr) ≤ maxPatchBytes ∧
        builder.lineCount + 1 ≤ usizeMax ∧
        next = {
          value := builder.value ++ text ++ ending.asStr
          lineCount := builder.lineCount + 1
          previousHadNoNewline := ending == .none } := by
  have small : maxPatchBytes ≤ usizeMax := by decide
  simp only [Text.byte_len_append]
  constructor
  · intro appended
    unfold ResultBuilder.append at appended
    split at appended
    · cases appended
    · rename_i running
      obtain ⟨added, first, appended⟩ := Results.bind_ok.mp appended
      obtain ⟨length, second, appended⟩ := Results.bind_ok.mp appended
      obtain ⟨-, rfl⟩ := add_ok_iff.mp first
      obtain ⟨-, rfl⟩ := add_ok_iff.mp second
      split at appended
      · cases appended
      · rename_i fits
        obtain ⟨count, third, appended⟩ := Results.bind_ok.mp appended
        obtain ⟨counted, rfl⟩ := add_ok_iff.mp third
        cases appended
        exact ⟨by simpa using running, by omega, counted, rfl⟩
  · rintro ⟨running, fits, counted, rfl⟩
    unfold ResultBuilder.append
    rw [if_neg (by simp [running])]
    refine Results.bind_ok.mpr ⟨_, add_ok_iff.mpr ⟨by omega, rfl⟩, ?_⟩
    refine Results.bind_ok.mpr ⟨_, add_ok_iff.mpr ⟨by omega, rfl⟩, ?_⟩
    rw [if_neg (by omega)]
    exact Results.bind_ok.mpr ⟨_, add_ok_iff.mpr ⟨counted, rfl⟩, rfl⟩

/-- What was appended stands after the lines that were there. -/
theorem Writes.append {text : Text} {ending : LineEnding} (writes : Writes builder lines)
    (appended : builder.append text ending = .ok next) :
    Writes next (lines ++ [⟨text, ending⟩]) := by
  obtain ⟨running, fits, counted, rfl⟩ := append_ok_iff.mp appended
  constructor
  · simp [writes.value, source_text_singleton]
  · simp [writes.lineCount]
  · simp
  · rw [List.dropLast_concat]
    intro line member
    have unended := writes.unended
    rw [running] at unended
    rcases List.eq_nil_or_concat lines with rfl | ⟨before, last, rfl⟩
    · simp at member
    · rw [List.concat_eq_append] at member unended writes
      rcases List.mem_append.mp member with earlier | final
      · exact writes.ended line (by simpa using earlier)
      · rw [List.mem_singleton.mp final]
        simpa using unended.symm
  · exact fits

end Builder

section Pass

variable {source : List SourceLine} {preferred : LineEnding} {cursor position : Nat}
  {builder next : ResultBuilder} {lines : List SourceLine}

theorem advance_ok {cursor position : Nat} (done : advance cursor = .ok position) :
    position = cursor + 1 := by
  unfold advance at done
  split at done
  · cases done
    rfl
  · cases done

theorem append_source_line (writes : Writes builder lines)
    (done : appendSourceLine source cursor builder = .ok (position, next)) :
    ∃ line, source[cursor]? = some line ∧ position = cursor + 1 ∧
      Writes next (lines ++ [line]) := by
  unfold appendSourceLine at done
  split at done
  · cases done
  · rename_i line found
    obtain ⟨appended, first, done⟩ := Results.bind_ok.mp done
    obtain ⟨after, second, done⟩ := Results.bind_ok.mp done
    cases done
    exact ⟨line, found, advance_ok second, writes.append first⟩

/-- Copied lines are those of the source from the cursor on. -/
theorem append_source_lines {rounds : Nat} (inside : cursor ≤ source.length)
    (writes : Writes builder lines)
    (done : appendSourceLines source rounds cursor builder = .ok (position, next)) :
    position = cursor + rounds ∧ position ≤ source.length ∧
      Writes next (lines ++ (source.drop cursor).take rounds) := by
  induction rounds generalizing cursor builder lines with
  | zero =>
    cases done
    exact ⟨rfl, inside, by simpa using writes⟩
  | succ rounds inductionHypothesis =>
    obtain ⟨⟨after, between⟩, first, done⟩ := Results.bind_ok.mp done
    obtain ⟨line, found, rfl, copied⟩ := append_source_line writes first
    obtain ⟨present, rfl⟩ := List.getElem?_eq_some_iff.mp found
    obtain ⟨reached, within, written⟩ := inductionHypothesis present copied done
    refine ⟨by omega, within, ?_⟩
    rw [List.drop_eq_getElem_cons present, List.take_succ_cons]
    simpa using written

theorem matching_source_line {content : PatchContent} {line : SourceLine}
    (found : matchingSourceLine content source cursor = .ok line) :
    source[cursor]? = some line ∧ Expects content line := by
  unfold matchingSourceLine at found
  split at found
  · cases found
  · rename_i present
    split at found
    · cases found
    · rename_i agrees
      cases found
      simp only [ne_eq, not_or, Decidable.not_not] at agrees
      exact ⟨present, agrees⟩

theorem between_cons {line : SourceLine} (here : source[cursor]? = some line)
    (later : cursor + 1 ≤ position) :
    between source cursor position = line :: between source (cursor + 1) position := by
  obtain ⟨present, rfl⟩ := List.getElem?_eq_some_iff.mp here
  unfold between
  rw [List.drop_eq_getElem_cons present, show position - cursor = position - (cursor + 1) + 1 by omega,
    List.take_succ_cons]

/-- What the lines of a hunk read and write from the cursor on. -/
theorem apply_patch_contents {contents : List PatchContent} (inside : cursor ≤ source.length)
    (writes : Writes builder lines)
    (done : applyPatchContents source preferred contents cursor builder = .ok (position, next)) :
    List.Forall₂ Expects (oldPart contents) (between source cursor position) ∧
      cursor ≤ position ∧ position ≤ source.length ∧
      Writes next (lines ++ writtenLines source preferred cursor contents) := by
  induction contents generalizing cursor builder lines with
  | nil =>
    cases done
    exact ⟨by simp [oldPart, between], Nat.le_refl _, inside, by simpa [writtenLines] using writes⟩
  | cons content rest inductionHypothesis =>
    obtain ⟨⟨after, appended⟩, first, done⟩ := Results.bind_ok.mp done
    unfold applyPatchContent at first
    cases kind : content.kind with
    | context =>
      rw [kind] at first
      obtain ⟨line, found, first⟩ := Results.bind_ok.mp first
      obtain ⟨extended, copied, first⟩ := Results.bind_ok.mp first
      obtain ⟨passed, moved, first⟩ := Results.bind_ok.mp first
      cases first
      obtain rfl := advance_ok moved
      obtain ⟨here, expected⟩ := matching_source_line found
      have present := (List.getElem?_eq_some_iff.mp here).1
      obtain ⟨matched, later, within, written⟩ :=
        inductionHypothesis present (writes.append copied) done
      refine ⟨?_, by omega, within, ?_⟩
      · rw [between_cons here later]
        simpa [oldPart, kind] using ⟨expected, matched⟩
      · simpa [writtenLines, kind, here] using written
    | remove =>
      rw [kind] at first
      obtain ⟨line, found, first⟩ := Results.bind_ok.mp first
      obtain ⟨passed, moved, first⟩ := Results.bind_ok.mp first
      cases first
      obtain rfl := advance_ok moved
      obtain ⟨here, expected⟩ := matching_source_line found
      have present := (List.getElem?_eq_some_iff.mp here).1
      obtain ⟨matched, later, within, written⟩ := inductionHypothesis present writes done
      refine ⟨?_, by omega, within, ?_⟩
      · rw [between_cons here later]
        simpa [oldPart, kind] using ⟨expected, matched⟩
      · simpa [writtenLines, kind] using written
    | add =>
      rw [kind] at first
      obtain ⟨extended, added, first⟩ := Results.bind_ok.mp first
      cases first
      obtain ⟨matched, later, within, written⟩ :=
        inductionHypothesis inside (writes.append added) done
      refine ⟨?_, later, within, ?_⟩
      · simpa [oldPart, kind] using matched
      · simpa [writtenLines, kind] using written

/-- What one hunk does to the pass. -/
structure HunkPass (source : List SourceLine) (preferred : LineEnding) (applied after : Applied)
    (hunk : ResolvedHunk) (lines : List SourceLine) : Prop where
  ordered : applied.previousOldEnd ≤ hunk.old.index
  matched : List.Forall₂ Expects (oldPart hunk.contents)
    (between source hunk.old.index hunk.old.stop)
  inside : hunk.old.index ≤ hunk.old.stop ∧ hunk.old.stop ≤ source.length
  placed : (lines ++ between source applied.sourceCursor hunk.old.index).length = hunk.new.index
  counted : (lines ++ between source applied.sourceCursor hunk.old.index ++
    writtenLines source preferred hunk.old.index hunk.contents).length = hunk.new.stop
  writes : Writes after.builder (lines ++ between source applied.sourceCursor hunk.old.index ++
    writtenLines source preferred hunk.old.index hunk.contents)
  cursor : after.sourceCursor = hunk.old.stop
  oldEnd : after.previousOldEnd = hunk.old.stop

theorem apply_hunk {applied after : Applied} {hunk : ResolvedHunk}
    (inside : applied.sourceCursor ≤ source.length) (writes : Writes applied.builder lines)
    (done : applyHunk source preferred applied hunk = .ok after) :
    HunkPass source preferred applied after hunk lines := by
  unfold applyHunk at done
  split at done
  · cases done
  · rename_i ordered
    obtain ⟨⟨before, copied⟩, first, done⟩ := Results.bind_ok.mp done
    obtain ⟨reached, within, written⟩ := append_source_lines inside writes first
    dsimp only at done
    split at done
    · cases done
    · rename_i placed
      obtain ⟨⟨passed, extended⟩, second, done⟩ := Results.bind_ok.mp done
      simp only [ne_eq, not_or, Decidable.not_not] at placed
      obtain ⟨here, count⟩ := placed
      rw [here] at second within
      obtain ⟨matched, forward, stop, result⟩ := apply_patch_contents within written second
      dsimp only at done
      split at done
      · cases done
      · rename_i closed
        simp only [ne_eq, not_or, Decidable.not_not] at closed
        cases done
        obtain ⟨rfl, counted⟩ := closed
        constructor
        · omega
        · exact matched
        · exact ⟨forward, stop⟩
        · exact written.lineCount.symm.trans count
        · exact result.lineCount.symm.trans counted
        · exact result
        · rfl
        · rfl

/-- A hunk stands where its header says: its old lines are those of the source, and
its new side is that part of the result. -/
structure Placed (source : List SourceLine) (preferred : LineEnding) (output : List SourceLine)
    (hunk : ResolvedHunk) : Prop where
  inside : hunk.old.index ≤ hunk.old.stop ∧ hunk.old.stop ≤ source.length
  matched : List.Forall₂ Expects (oldPart hunk.contents)
    (between source hunk.old.index hunk.old.stop)
  replaced : ∃ before after,
    output = before ++ writtenLines source preferred hunk.old.index hunk.contents ++ after ∧
    before.length = hunk.new.index ∧
    hunk.new.stop =
      hunk.new.index + (writtenLines source preferred hunk.old.index hunk.contents).length

theorem Placed.append {output : List SourceLine} {hunk : ResolvedHunk}
    (placed : Placed source preferred output hunk) (more : List SourceLine) :
    Placed source preferred (output ++ more) hunk := by
  obtain ⟨before, after, whole, index, stop⟩ := placed.replaced
  refine ⟨placed.inside, placed.matched, before, after ++ more, ?_, index, stop⟩
  rw [whole, List.append_assoc _ after more]

theorem HunkPass.place {applied after : Applied} {hunk : ResolvedHunk}
    (pass : HunkPass source preferred applied after hunk lines) :
    Placed source preferred
      (lines ++ between source applied.sourceCursor hunk.old.index ++
        writtenLines source preferred hunk.old.index hunk.contents) hunk := by
  refine ⟨pass.inside, pass.matched, _, [], (List.append_nil _).symm, pass.placed, ?_⟩
  rw [← pass.counted, ← pass.placed]
  simp only [List.length_append]

/-- The hunks stand one after another, and the pass has written what they describe. -/
theorem apply_hunks {applied final : Applied} {hunks : List ResolvedHunk}
    (same : applied.previousOldEnd = applied.sourceCursor)
    (inside : applied.sourceCursor ≤ source.length) (writes : Writes applied.builder lines)
    (done : applyHunks source preferred applied hunks = .ok final) :
    Writes final.builder (lines ++ hunkLines source preferred applied.sourceCursor hunks) ∧
      final.sourceCursor = hunksEnd applied.sourceCursor hunks ∧
      final.sourceCursor ≤ source.length ∧
      hunks.Pairwise (fun first second => first.old.stop ≤ second.old.index) ∧
      (∀ hunk ∈ hunks, applied.sourceCursor ≤ hunk.old.index) ∧
      ∀ hunk ∈ hunks, Placed source preferred
        (lines ++ hunkLines source preferred applied.sourceCursor hunks) hunk := by
  induction hunks generalizing applied lines with
  | nil =>
    cases done
    simpa [hunkLines, hunksEnd] using ⟨writes, inside⟩
  | cons hunk rest inductionHypothesis =>
    obtain ⟨after, first, done⟩ := Results.bind_ok.mp done
    have pass := apply_hunk inside writes first
    have forward : applied.sourceCursor ≤ hunk.old.index := same ▸ pass.ordered
    obtain ⟨written, reached, within, ordered, later, placed⟩ :=
      inductionHypothesis (pass.oldEnd.trans pass.cursor.symm) (pass.cursor ▸ pass.inside.2)
        pass.writes done
    rw [pass.cursor] at written reached later placed
    have whole : lines ++ hunkLines source preferred applied.sourceCursor (hunk :: rest) =
        lines ++ between source applied.sourceCursor hunk.old.index ++
          writtenLines source preferred hunk.old.index hunk.contents ++
          hunkLines source preferred hunk.old.stop rest := by
      simp [hunkLines]
    rw [whole]
    refine ⟨written, reached, within, List.pairwise_cons.mpr ⟨later, ordered⟩, ?_, ?_⟩
    · intro inspected member
      rcases List.mem_cons.mp member with rfl | old
      · exact forward
      · have ahead := pass.inside.1
        have behind := later inspected old
        omega
    · intro inspected member
      rcases List.mem_cons.mp member with rfl | old
      · exact pass.place.append _
      · exact placed inspected old

/-- A successful pass writes the described result, within the bound. -/
theorem apply_resolved_hunks {hunks : List ResolvedHunk} {result : Text}
    (done : applyResolvedHunks source hunks = .ok result) :
    Writes { value := result, lineCount := (patchedLines source hunks).length,
             previousHadNoNewline := (patchedLines source hunks).getLast?.any (·.ending == .none) }
        (patchedLines source hunks) ∧
      hunks.Pairwise (fun first second => first.old.stop ≤ second.old.index) ∧
      ∀ hunk ∈ hunks,
        Placed source (preferredLineEnding source) (patchedLines source hunks) hunk := by
  obtain ⟨applied, first, done⟩ := Results.bind_ok.mp done
  obtain ⟨written, reached, within, ordered, -, placed⟩ :=
    apply_hunks rfl (Nat.zero_le _) Writes.empty first
  obtain ⟨⟨last, builder⟩, copied, done⟩ := Results.bind_ok.mp done
  obtain ⟨-, -, whole⟩ := append_source_lines within written copied
  dsimp only at done
  split at done
  · cases done
  · cases done
    have all : hunkLines source (preferredLineEnding source) 0 hunks ++
        (source.drop applied.sourceCursor).take (source.length - applied.sourceCursor) =
        patchedLines source hunks := by
      rw [List.take_of_length_le (by simp), reached, patchedLines]
    simp only [List.nil_append] at whole placed
    rw [all] at whole
    refine ⟨?_, ordered, ?_⟩
    · constructor
      · exact whole.value
      · rfl
      · rfl
      · exact whole.ended
      · exact whole.bounded
    · intro hunk member
      rw [← all]
      exact (placed hunk member).append _

theorem between_eq_cons {line : SourceLine} {rest : List SourceLine}
    (first : between source cursor position = line :: rest) :
    source[cursor]? = some line ∧ between source (cursor + 1) position = rest := by
  have present : 0 < (between source cursor position).length := by simp [first]
  simp only [between, List.length_take, List.length_drop] at present
  have here : source[cursor]? = some source[cursor] := List.getElem?_eq_getElem (by omega)
  rw [between_cons here (by omega), List.cons.injEq] at first
  exact ⟨first.1 ▸ here, first.2⟩

/-- The new side as the hunk spells it. -/
theorem written_texts {contents : List PatchContent}
    (matched : List.Forall₂ Expects (oldPart contents) (between source cursor position)) :
    (writtenLines source preferred cursor contents).map (·.text) =
      (newPart contents).map (·.text) := by
  induction contents generalizing cursor with
  | nil => rfl
  | cons content rest inductionHypothesis =>
    cases kind : content.kind with
    | context =>
      have old : oldPart (content :: rest) = content :: oldPart rest := by simp [oldPart, kind]
      rw [old, List.forall₂_cons_left_iff] at matched
      obtain ⟨line, later, expected, following, first⟩ := matched
      obtain ⟨here, remaining⟩ := between_eq_cons first
      have tail := inductionHypothesis (remaining ▸ following)
      simpa [writtenLines, newPart, kind, here, expected.1] using tail
    | remove =>
      have old : oldPart (content :: rest) = content :: oldPart rest := by simp [oldPart, kind]
      rw [old, List.forall₂_cons_left_iff] at matched
      obtain ⟨line, later, expected, following, first⟩ := matched
      obtain ⟨here, remaining⟩ := between_eq_cons first
      have tail := inductionHypothesis (remaining ▸ following)
      simpa [writtenLines, newPart, kind] using tail
    | add =>
      have old : oldPart (content :: rest) = oldPart rest := by simp [oldPart, kind]
      rw [old] at matched
      simpa [writtenLines, newPart, kind] using inductionHypothesis matched

end Pass

section Reading

theorem source_of_loop (current rest : Text) :
    sourceText (splitSourceLoop current rest) = current ++ rest := by
  induction rest generalizing current with
  | nil =>
    rw [splitSourceLoop]
    split
    · rename_i empty
      simp [empty, sourceText]
    · simp [sourceText, LineEnding.asStr]
  | cons char rest inductionHypothesis =>
    rw [splitSourceLoop]
    split
    · rename_i feed
      have ended : (endedLine current).text ++ (endedLine current).ending.asStr =
          current ++ ['\n'] := by
        unfold endedLine
        split
        · rename_i last
          obtain ⟨before, rfl⟩ := List.getLast?_eq_some_iff.mp last
          simp [LineEnding.asStr]
        · rfl
      have rest_text := inductionHypothesis []
      simp only [sourceText, List.flatMap_cons] at rest_text ⊢
      rw [ended, rest_text, feed]
      simp
    · rw [inductionHypothesis]
      simp

/-- A source is the text of its lines. -/
theorem source_of_lines (source : Text) : sourceText (splitSourceLines source) = source :=
  source_of_loop [] source

/-- A line of a hunk keeps the endings of the context. -/
def Plain (content : PatchContent) : Prop := content.contextNewEnding = none

theorem parse_content_plain {line : Text} {content : PatchContent}
    (parsed : parsePatchContent line = .ok content) : Plain content := by
  unfold parsePatchContent at parsed
  split at parsed
  · cases parsed
    rfl
  · repeat' split at parsed
    all_goals cases parsed
    all_goals rfl

theorem mark_no_newline_plain {content marked : PatchContent} (plain : Plain content)
    (done : markNoNewline content = .ok marked) : Plain marked := by
  unfold markNoNewline at done
  split at done
  · cases done
  · split at done
    all_goals cases done
    all_goals exact plain

theorem consume_no_newline_plain {parser next : PatchLines} {content marked : PatchContent}
    (plain : Plain content) (done : consumeNoNewline parser content = .ok (next, marked)) :
    Plain marked := by
  unfold consumeNoNewline at done
  dsimp only at done
  split at done
  · obtain ⟨between, first, done⟩ := Results.bind_ok.mp done
    split at done
    · cases done
    · cases done
      exact mark_no_newline_plain plain first
  · cases done
    exact plain

theorem parse_contents_plain {expectedOld expectedNew fuel : Nat} {parser next : PatchLines}
    {oldCount newCount : Nat} {contents : List PatchContent}
    (parsed : parseContentsLoop expectedOld expectedNew fuel parser oldCount newCount =
      .ok (contents, next)) :
    ∀ content ∈ contents, Plain content := by
  induction fuel generalizing parser oldCount newCount contents with
  | zero =>
    rw [parseContentsLoop] at parsed
    split at parsed
    all_goals cases parsed
    simp
  | succ fuel inductionHypothesis =>
    rw [parseContentsLoop] at parsed
    split at parsed
    · obtain ⟨⟨raw, remaining⟩, -, parsed⟩ := Results.bind_ok.mp parsed
      dsimp only at parsed
      split at parsed
      · cases parsed
      · obtain ⟨content, read, parsed⟩ := Results.bind_ok.mp parsed
        obtain ⟨old, -, parsed⟩ := Results.bind_ok.mp parsed
        obtain ⟨new, -, parsed⟩ := Results.bind_ok.mp parsed
        split at parsed
        · cases parsed
        · obtain ⟨⟨after, marked⟩, consumed, parsed⟩ := Results.bind_ok.mp parsed
          obtain ⟨⟨rest, last⟩, later, parsed⟩ := Results.bind_ok.mp parsed
          cases parsed
          intro inspected member
          rcases List.mem_cons.mp member with rfl | old
          · exact consume_no_newline_plain (parse_content_plain read) consumed
          · exact inductionHypothesis later inspected old
    · cases parsed
      simp

theorem parse_hunks_plain {fuel : Nat} {parser : PatchLines} {header : Text}
    {previousOldEnd previousNewEnd : Nat} {hunks : List ResolvedHunk}
    (parsed : parseHunksLoop fuel parser header previousOldEnd previousNewEnd = .ok hunks) :
    ∀ hunk ∈ hunks, ∀ content ∈ hunk.contents, Plain content := by
  induction fuel generalizing parser header previousOldEnd previousNewEnd hunks with
  | zero => cases parsed
  | succ fuel inductionHypothesis =>
    rw [parseHunksLoop] at parsed
    obtain ⟨⟨old, new⟩, -, parsed⟩ := Results.bind_ok.mp parsed
    dsimp only at parsed
    split at parsed
    · cases parsed
    · obtain ⟨⟨contents, after⟩, read, parsed⟩ := Results.bind_ok.mp parsed
      obtain ⟨⟨all, last⟩, loop, kept⟩ := Results.bind_ok.mp read
      have plain : ∀ content ∈ contents, Plain content := by
        dsimp only at kept
        split at kept
        · cases kept
        · cases kept
          exact parse_contents_plain loop
      dsimp only at parsed
      split at parsed
      · cases parsed
        simpa using plain
      · split at parsed
        · obtain ⟨rest, later, parsed⟩ := Results.bind_ok.mp parsed
          cases parsed
          intro hunk member
          rcases List.mem_cons.mp member with rfl | old
          · exact plain
          · exact inductionHypothesis later hunk old
        · split at parsed
          · obtain ⟨finished, -, parsed⟩ := Results.bind_ok.mp parsed
            cases parsed
            simpa using plain
          · cases parsed

theorem parse_unified_plain {path patch : Text} {hunks : List ResolvedHunk}
    (parsed : parseUnifiedPatch path patch = .ok hunks) :
    ∀ hunk ∈ hunks, ∀ content ∈ hunk.contents, Plain content := by
  obtain ⟨⟨first, start⟩, -, parsed⟩ := Results.bind_ok.mp parsed
  obtain ⟨⟨second, headed⟩, -, parsed⟩ := Results.bind_ok.mp parsed
  obtain ⟨⟨header, parser⟩, -, parsed⟩ := Results.bind_ok.mp parsed
  exact parse_hunks_plain parsed

theorem strip_suffix_head {text stripped : Text} {last : Char}
    (done : stripSuffix text last = some stripped) : stripped <+: text := by
  unfold stripSuffix at done
  split at done
  · cases done
    exact List.dropLast_prefix text
  · cases done

theorem strip_transport_head (line : Text) : stripTransportEnding line <+: line := by
  unfold stripTransportEnding
  split
  · exact List.prefix_rfl
  · rename_i unfed stripped
    have outer := strip_suffix_head stripped
    cases inner : stripSuffix unfed '\r' with
    | none => exact outer
    | some bare => exact (strip_suffix_head inner).trans outer

/-- A patch in the Codex envelope is no unified patch. -/
theorem unified_not_codex {path patch first : Text} {hunks : List ResolvedHunk}
    (parsed : parseUnifiedPatch path patch = .ok hunks)
    (head : (splitInclusive patch).head? = some first) :
    stripTransportEnding first ≠ codexBeginPatch := by
  intro codex
  have star : ∃ rest, first = '*' :: rest := by
    obtain ⟨more, whole⟩ := strip_transport_head first
    rw [codex] at whole
    exact ⟨_, whole.symm⟩
  obtain ⟨rest, rfl⟩ := star
  obtain ⟨⟨line, start⟩, next, parsed⟩ := Results.bind_ok.mp parsed
  obtain ⟨lines, left⟩ : ∃ lines, splitInclusive patch = ('*' :: rest) :: lines := by
    cases all : splitInclusive patch with
    | nil => simp [all] at head
    | cons line lines => exact ⟨lines, by simpa [all] using head⟩
  have same : line = '*' :: rest := by
    simp only [PatchLines.new, left, PatchLines.next, required, Except.ok.injEq,
      Prod.mk.injEq] at next
    exact next.1.symm
  subst same
  obtain ⟨⟨second, skipped⟩, git, parsed⟩ := Results.bind_ok.mp parsed
  have unmarked : skipGitMetadata start ('*' :: rest) = .ok ('*' :: rest, start) := by
    simp [skipGitMetadata]
  rw [unmarked] at git
  cases git
  obtain ⟨⟨header, headed⟩, files, parsed⟩ := Results.bind_ok.mp parsed
  have headerless : skipFileHeaders path start ('*' :: rest) = .ok ('*' :: rest, start) := by
    unfold skipFileHeaders
    rw [codex, if_neg (by decide)]
  rw [headerless] at files
  cases files
  dsimp only at parsed
  rw [parseHunksLoop, codex] at parsed
  obtain ⟨ranges, headed, -⟩ := Results.bind_ok.mp parsed
  obtain ⟨ranges, required, -⟩ := Results.bind_ok.mp headed
  cases required

end Reading

/-- A unified patch that applies has found its context and its removed lines at the
declared positions. All else of the source is copied, each hunk becomes its new side,
and only the last line of the result may lack its ending. -/
theorem unified_patch_is_sound
    {resolveCodex : Text → Text → List SourceLine → Except ToolError (List ResolvedHunk)}
    {path source patch result : Text} {hunks : List ResolvedHunk}
    (parsed : parseUnifiedPatch path patch = .ok hunks)
    (applied : applySingleFilePatch resolveCodex path source patch = .ok result) :
    let lines := splitSourceLines source
    let output := patchedLines lines hunks
    source = sourceText lines ∧ result = sourceText output ∧
      hunks.Pairwise (fun first second => first.old.stop ≤ second.old.index) ∧
      (∀ hunk ∈ hunks, Placed lines (preferredLineEnding lines) output hunk ∧
        (writtenLines lines (preferredLineEnding lines) hunk.old.index hunk.contents).map
          (·.text) = (newPart hunk.contents).map (·.text) ∧
        ∀ content ∈ hunk.contents, Plain content) ∧
      (∀ line ∈ output.dropLast, line.ending ≠ .none) ∧ byteLen result ≤ maxPatchBytes := by
  intro lines output
  have done : applyResolvedHunks lines hunks = .ok result := by
    obtain ⟨first, head, applied⟩ := Results.bind_ok.mp applied
    have unified : stripTransportEnding first ≠ codexBeginPatch := by
      refine unified_not_codex parsed ?_
      cases found : (splitInclusive patch).head? with
      | none => simp [found, required] at head
      | some line => simpa [found, required] using head
    rw [if_neg unified, parsed] at applied
    exact applied
  obtain ⟨writes, ordered, placed⟩ := apply_resolved_hunks done
  have plain := parse_unified_plain parsed
  refine ⟨(source_of_lines source).symm, writes.value, ordered, ?_, writes.ended,
    writes.bounded⟩
  intro hunk member
  have stands := placed hunk member
  exact ⟨stands, written_texts stands.matched, plain hunk member⟩

/-- A hunk that replaces the second of three lines. -/
def replacedHunk : ResolvedHunk where
  old := { index := 1, count := 1, stop := 2 }
  new := { index := 1, count := 2, stop := 3 }
  contents := [⟨.remove, ['b'], false, false, none⟩, ⟨.add, ['B'], false, false, none⟩,
    ⟨.add, ['x'], false, false, none⟩]

/-- The lines around a hunk keep their endings, and the added ones take the first. -/
theorem replaced_line_is_sound :
    let source := ['a', '\r', '\n', 'b', '\n', 'c']
    let result := ['a', '\r', '\n', 'B', '\r', '\n', 'x', '\r', '\n', 'c']
    result = sourceText (patchedLines (splitSourceLines source) [replacedHunk]) ∧
      Placed (splitSourceLines source) .crlf
        (patchedLines (splitSourceLines source) [replacedHunk]) replacedHunk := by
  intro source result
  have parsed : parseUnifiedPatch ['f'] "@@ -2 +2,2 @@\n-b\n+B\n+x\n".toList =
      .ok [replacedHunk] := by
    decide +kernel
  have applied : applySingleFilePatch (fun _ _ _ => .error .invalidInvocation) ['f'] source
      "@@ -2 +2,2 @@\n-b\n+B\n+x\n".toList = .ok result := by
    decide +kernel
  obtain ⟨-, whole, -, placed, -, -⟩ := unified_patch_is_sound parsed applied
  exact ⟨whole, (placed replacedHunk List.mem_cons_self).1⟩

end MinicoreAgent.Patches

import MinicoreAgent.CodexPatch

/-!
# Resolved Codex hunks and the pass that applies them

Resolving leaves hunks that stand in order, whose old lines are those of the source and
whose positions in the result are counted. The pass over such hunks can fail for two
reasons only: a line follows one that has no ending, or the result exceeds its bound.

Resolving does not ask whether an ending is needed. A line that stays unended at the
end of the source gets an ending where its own hunk goes on, and in no other case.
-/
namespace MinicoreAgent.Patches

open MinicoreAgent.Text (byteLen)

section Endings

/-- Only the last of some lines may lack its ending. -/
def EndedBefore (lines : List SourceLine) : Prop :=
  ∀ line ∈ lines.dropLast, line.ending ≠ .none

def Ended (lines : List SourceLine) : Prop := ∀ line ∈ lines, line.ending ≠ .none

theorem Ended.before {lines : List SourceLine} (ended : Ended lines) : EndedBefore lines :=
  fun line member => ended line (List.dropLast_subset lines member)

theorem ended_before_append {first second : List SourceLine} :
    EndedBefore (first ++ second) ↔
      EndedBefore first ∧ EndedBefore second ∧ (second ≠ [] → Ended first) := by
  by_cases empty : second = []
  · subst empty
    simp [EndedBefore]
  · unfold EndedBefore
    rw [List.dropLast_append_of_ne_nil empty]
    constructor
    · intro ended
      have whole : Ended first := fun line member => ended line (by simp [member])
      exact ⟨whole.before, fun line member => ended line (by simp [member]), fun _ => whole⟩
    · rintro ⟨-, later, earlier⟩ line member
      rcases List.mem_append.mp member with before | after
      · exact earlier empty line before
      · exact later line after

/-- Lines with their endings take at least a byte each. -/
theorem length_le_source_bytes {lines : List SourceLine} (ended : Ended lines) :
    lines.length ≤ byteLen (sourceText lines) := by
  induction lines with
  | nil => exact Nat.zero_le _
  | cons line rest inductionHypothesis =>
    have later := inductionHypothesis (fun other member => ended other (by simp [member]))
    have whole : sourceText (line :: rest) =
        line.text ++ line.ending.asStr ++ sourceText rest := by simp [sourceText]
    have feed : 1 ≤ byteLen line.ending.asStr := by
      cases ending : line.ending with
      | none => exact absurd ending (ended line (by simp))
      | lf => decide
      | crlf => decide
    rw [whole, Text.byte_len_append, Text.byte_len_append, List.length_cons]
    omega

theorem source_loop_ended (current rest : Text) : EndedBefore (splitSourceLoop current rest) := by
  induction rest generalizing current with
  | nil =>
    rw [splitSourceLoop]
    split
    · simp [EndedBefore]
    · simp [EndedBefore]
  | cons char rest inductionHypothesis =>
    rw [splitSourceLoop]
    split
    · have line : Ended [endedLine current] := by
        intro inspected member
        rw [List.mem_singleton.mp member]
        unfold endedLine
        split
        · simp
        · simp
      exact ended_before_append.mpr ⟨line.before, inductionHypothesis [], fun _ => line⟩
    · exact inductionHypothesis _

/-- Only the last line of a source may lack its ending. -/
theorem source_lines_ended (source : Text) : EndedBefore (splitSourceLines source) :=
  source_loop_ended [] source

end Endings

section Building

/-- What may be written: lines within the bound of which only the last may lack its
ending. -/
structure Fits (lines : List SourceLine) : Prop where
  ended : EndedBefore lines
  bounded : byteLen (sourceText lines) ≤ maxPatchBytes

variable {source : List SourceLine} {preferred : LineEnding} {cursor : Nat}
  {builder : ResultBuilder} {lines more : List SourceLine}

/-- The next line of what may be written can be appended. -/
theorem Writes.appends {line : SourceLine} (writes : Writes builder lines)
    (fits : Fits (lines ++ line :: more)) :
    ∃ next, builder.append line.text line.ending = .ok next ∧
      Writes next (lines ++ [line]) := by
  have ended : Ended lines := (ended_before_append.mp fits.ended).2.2 (by simp)
  have running : builder.previousHadNoNewline = false := by
    rw [writes.unended, Option.any_eq_false]
    intro last member
    simpa using ended last (List.mem_of_getLast? member)
  have size := fits.bounded
  have split : sourceText (lines ++ line :: more) =
      sourceText lines ++ line.text ++ line.ending.asStr ++ sourceText more := by
    simp [sourceText]
  rw [split, Text.byte_len_append] at size
  have counted := length_le_source_bytes ended
  have small : maxPatchBytes + 1 ≤ usizeMax := by decide
  have some_size : byteLen (sourceText lines) ≤ maxPatchBytes := writes.value ▸ writes.bounded
  have appended : builder.append line.text line.ending = .ok {
      value := builder.value ++ line.text ++ line.ending.asStr
      lineCount := builder.lineCount + 1
      previousHadNoNewline := line.ending == .none } := by
    refine append_ok_iff.mpr ⟨running, ?_, ?_, rfl⟩
    · rw [writes.value]
      omega
    · rw [writes.lineCount]
      omega
  exact ⟨_, appended, writes.append appended⟩

theorem advance_inside {length : Nat} (short : length ≤ usizeMax) (inside : cursor < length) :
    advance cursor = .ok (cursor + 1) := by
  unfold advance
  rw [if_pos (by omega)]

/-- Lines of the source can be copied. -/
theorem Writes.copies (short : source.length ≤ usizeMax) {rounds : Nat}
    (inside : cursor + rounds ≤ source.length) (writes : Writes builder lines)
    (fits : Fits (lines ++ ((source.drop cursor).take rounds ++ more))) :
    ∃ next, appendSourceLines source rounds cursor builder = .ok (cursor + rounds, next) ∧
      Writes next (lines ++ (source.drop cursor).take rounds) := by
  induction rounds generalizing cursor builder lines with
  | zero => exact ⟨builder, rfl, by simpa using writes⟩
  | succ rounds inductionHypothesis =>
    have present : cursor < source.length := by omega
    rw [List.drop_eq_getElem_cons present, List.take_succ_cons] at fits ⊢
    obtain ⟨between, appended, written⟩ := writes.appends fits
    have later : cursor + 1 + rounds ≤ source.length := by omega
    obtain ⟨next, copied, result⟩ := inductionHypothesis later written (by simpa using fits)
    have first : appendSourceLine source cursor builder = .ok (cursor + 1, between) := by
      simp only [appendSourceLine, List.getElem?_eq_getElem present, appended,
        advance_inside short present, bind, Except.bind]
    refine ⟨next, Results.bind_ok.mpr ⟨(cursor + 1, between), first, ?_⟩, by simpa using result⟩
    rw [show cursor + (rounds + 1) = cursor + 1 + rounds by omega]
    exact copied

theorem matching_of_expected {content : PatchContent} {line : SourceLine}
    (here : source[cursor]? = some line) (expected : Expects content line) :
    matchingSourceLine content source cursor = .ok line := by
  unfold matchingSourceLine
  rw [here]
  dsimp only
  rw [if_neg]
  simp [expected.1, expected.2]

/-- The lines of a hunk that are in place can be applied. -/
theorem Writes.applies (short : source.length ≤ usizeMax) {contents : List PatchContent}
    {stop : Nat} (reached : stop = cursor + (oldPart contents).length)
    (matched : List.Forall₂ Expects (oldPart contents) (between source cursor stop))
    (writes : Writes builder lines)
    (fits : Fits (lines ++ (writtenLines source preferred cursor contents ++ more))) :
    ∃ next, applyPatchContents source preferred contents cursor builder = .ok (stop, next) ∧
      Writes next (lines ++ writtenLines source preferred cursor contents) := by
  induction contents generalizing cursor builder lines with
  | nil =>
    refine ⟨builder, ?_, by simpa [writtenLines] using writes⟩
    rw [reached]
    rfl
  | cons content rest inductionHypothesis =>
    cases kind : content.kind with
    | context =>
      have old : oldPart (content :: rest) = content :: oldPart rest := by simp [oldPart, kind]
      rw [old, List.length_cons] at reached
      rw [old, List.forall₂_cons_left_iff] at matched
      obtain ⟨line, later, expected, following, first⟩ := matched
      obtain ⟨here, remaining⟩ := between_eq_cons first
      have present := (List.getElem?_eq_some_iff.mp here).1
      have whole : writtenLines source preferred cursor (content :: rest) =
          { line with ending := content.contextNewEnding.getD line.ending } ::
            writtenLines source preferred (cursor + 1) rest := by
        simp [writtenLines, kind, here]
      rw [whole] at fits ⊢
      obtain ⟨between, appended, written⟩ := writes.appends fits
      have after : stop = cursor + 1 + (oldPart rest).length := by omega
      obtain ⟨next, done, result⟩ := inductionHypothesis after (remaining ▸ following) written
        (by simpa using fits)
      have step : applyPatchContent source preferred content cursor builder =
          .ok (cursor + 1, between) := by
        simp only [applyPatchContent, kind, matching_of_expected here expected, appended,
          advance_inside short present, bind, Except.bind]
      exact ⟨next, Results.bind_ok.mpr ⟨_, step, done⟩, by simpa using result⟩
    | remove =>
      have old : oldPart (content :: rest) = content :: oldPart rest := by simp [oldPart, kind]
      rw [old, List.length_cons] at reached
      rw [old, List.forall₂_cons_left_iff] at matched
      obtain ⟨line, later, expected, following, first⟩ := matched
      obtain ⟨here, remaining⟩ := between_eq_cons first
      have present := (List.getElem?_eq_some_iff.mp here).1
      have whole : writtenLines source preferred cursor (content :: rest) =
          writtenLines source preferred (cursor + 1) rest := by
        simp [writtenLines, kind]
      rw [whole] at fits ⊢
      have after : stop = cursor + 1 + (oldPart rest).length := by omega
      obtain ⟨next, done, result⟩ :=
        inductionHypothesis after (remaining ▸ following) writes fits
      have step : applyPatchContent source preferred content cursor builder =
          .ok (cursor + 1, builder) := by
        simp only [applyPatchContent, kind, matching_of_expected here expected,
          advance_inside short present, bind, Except.bind]
      exact ⟨next, Results.bind_ok.mpr ⟨_, step, done⟩, result⟩
    | add =>
      have old : oldPart (content :: rest) = oldPart rest := by simp [oldPart, kind]
      rw [old] at reached matched
      have whole : writtenLines source preferred cursor (content :: rest) =
          ⟨content.text, if content.newNoNewline then .none else preferred⟩ ::
            writtenLines source preferred cursor rest := by
        simp [writtenLines, kind]
      rw [whole] at fits ⊢
      obtain ⟨between, appended, written⟩ := writes.appends fits
      obtain ⟨next, done, result⟩ :=
        inductionHypothesis reached matched written (by simpa using fits)
      have step : applyPatchContent source preferred content cursor builder =
          .ok (cursor, between) := by
        simp only [applyPatchContent, kind, appended, bind, Except.bind]
      exact ⟨next, Results.bind_ok.mpr ⟨_, step, done⟩, by simpa using result⟩

end Building

section Chains

variable {source : List SourceLine} {preferred : LineEnding} {cursor position : Nat}
  {builder : ResultBuilder} {lines more : List SourceLine}

/-- A hunk as resolving leaves it after so many lines of the source and of the result. -/
structure Located (source : List SourceLine) (cursor position : Nat) (hunk : ResolvedHunk) :
    Prop where
  ordered : cursor ≤ hunk.old.index
  oldStop : hunk.old.stop = hunk.old.index + (oldPart hunk.contents).length
  inside : hunk.old.stop ≤ source.length
  matched : List.Forall₂ Expects (oldPart hunk.contents)
    (between source hunk.old.index hunk.old.stop)
  placed : hunk.new.index = position + (hunk.old.index - cursor)
  newStop : hunk.new.stop = hunk.new.index + (newPart hunk.contents).length
  present : hunk.contents ≠ []
  ended : ∀ content ∈ hunk.contents, content.contextNewEnding ≠ some .none

/-- The hunks stand one after another. -/
def Chain (source : List SourceLine) : Nat → Nat → List ResolvedHunk → Prop
  | _, _, [] => True
  | cursor, position, hunk :: rest =>
    Located source cursor position hunk ∧ Chain source hunk.old.stop hunk.new.stop rest

/-- What is counted from a later position is counted from an earlier one. -/
theorem Chain.earlier {skipped : Nat} {hunks : List ResolvedHunk}
    (chain : Chain source (cursor + skipped) (position + skipped) hunks) :
    Chain source cursor position hunks := by
  cases hunks with
  | nil => trivial
  | cons hunk rest =>
    obtain ⟨first, later⟩ := chain
    have ordered := first.ordered
    have placed := first.placed
    exact ⟨{ first with ordered := by omega, placed := by omega }, later⟩

/-- The new side of a located hunk has the lines it counts. -/
theorem Located.written_length (preferred : LineEnding) {hunk : ResolvedHunk}
    (hunk_at : Located source cursor position hunk) :
    (writtenLines source preferred hunk.old.index hunk.contents).length =
      (newPart hunk.contents).length := by
  have texts : (writtenLines source preferred hunk.old.index hunk.contents).map (·.text) =
      (newPart hunk.contents).map (·.text) := written_texts hunk_at.matched
  simpa using congrArg List.length texts

theorem between_length (cursor : Nat) {stop : Nat} (inside : stop ≤ source.length) :
    (between source cursor stop).length = stop - cursor := by
  simp only [between, List.length_take, List.length_drop]
  omega

/-- The pass between two hunks. -/
structure Standing (applied : Applied) (cursor position : Nat) (lines : List SourceLine) :
    Prop where
  reached : applied.sourceCursor = cursor
  oldEnd : applied.previousOldEnd = cursor
  newEnd : applied.previousNewEnd = position
  counted : lines.length = position
  writes : Writes applied.builder lines

/-- A located hunk can be applied. -/
theorem Standing.hunk (short : source.length ≤ usizeMax) {applied : Applied}
    {hunk : ResolvedHunk} (standing : Standing applied cursor position lines)
    (located : Located source cursor position hunk)
    (fits : Fits (lines ++ (between source cursor hunk.old.index ++
      (writtenLines source preferred hunk.old.index hunk.contents ++ more)))) :
    ∃ next, applyHunk source preferred applied hunk = .ok next ∧
      Standing next hunk.old.stop hunk.new.stop (lines ++ between source cursor hunk.old.index ++
        writtenLines source preferred hunk.old.index hunk.contents) := by
  obtain ⟨rfl, oldEnd, newEnd, counted, writes⟩ := standing
  have ordered := located.ordered
  have inside := located.inside
  have oldStop := located.oldStop
  have placed := located.placed
  have newStop := located.newStop
  have length := located.written_length preferred
  have gap : applied.sourceCursor + (hunk.old.index - applied.sourceCursor) ≤ source.length := by
    omega
  obtain ⟨between_, copied, written⟩ := writes.copies short gap fits
  rw [show applied.sourceCursor + (hunk.old.index - applied.sourceCursor) = hunk.old.index
    by omega] at copied
  change Writes between_ (lines ++ between source applied.sourceCursor hunk.old.index) at written
  rw [← List.append_assoc] at fits
  obtain ⟨builder, done, result⟩ := written.applies short oldStop located.matched fits
  have copiedCount : between_.lineCount = hunk.new.index := by
    rw [written.lineCount, List.length_append, between_length _ (by omega)]
    omega
  have finalCount : builder.lineCount = hunk.new.stop := by
    rw [result.lineCount, List.length_append, List.length_append, length,
      between_length _ (by omega)]
    omega
  refine ⟨{
      sourceCursor := hunk.old.stop
      builder
      previousOldEnd := hunk.old.stop
      previousNewEnd := hunk.new.stop }, ?_, rfl, rfl, rfl, ?_, result⟩
  · unfold applyHunk
    rw [if_neg (by omega)]
    refine Results.bind_ok.mpr ⟨_, copied, ?_⟩
    dsimp only
    rw [if_neg (by simp [copiedCount])]
    refine Results.bind_ok.mpr ⟨_, done, ?_⟩
    dsimp only
    rw [if_neg (by simp [finalCount])]
  · rw [← result.lineCount, finalCount]

/-- Located hunks can be applied one after another. -/
theorem Standing.hunks (short : source.length ≤ usizeMax) {applied : Applied}
    {hunks : List ResolvedHunk} (standing : Standing applied cursor position lines)
    (chain : Chain source cursor position hunks)
    (fits : Fits (lines ++ (hunkLines source preferred cursor hunks ++ more))) :
    ∃ final, applyHunks source preferred applied hunks = .ok final ∧
      final.sourceCursor = hunksEnd cursor hunks ∧
      Writes final.builder (lines ++ hunkLines source preferred cursor hunks) := by
  induction hunks generalizing applied cursor position lines with
  | nil => exact ⟨applied, rfl, standing.reached, by simpa [hunkLines] using standing.writes⟩
  | cons hunk rest inductionHypothesis =>
    obtain ⟨located, later⟩ := chain
    have whole : hunkLines source preferred cursor (hunk :: rest) =
        between source cursor hunk.old.index ++
          (writtenLines source preferred hunk.old.index hunk.contents ++
            hunkLines source preferred hunk.old.stop rest) := by
      simp [hunkLines]
    rw [whole] at fits ⊢
    simp only [List.append_assoc] at fits
    obtain ⟨next, first, following⟩ := standing.hunk short located fits
    obtain ⟨final, done, reached, written⟩ :=
      inductionHypothesis following later (by simpa using fits)
    exact ⟨final, Results.bind_ok.mpr ⟨next, first, done⟩, reached, by simpa using written⟩

theorem hunks_end_inside {hunks : List ResolvedHunk} (chain : Chain source cursor position hunks)
    (inside : cursor ≤ source.length) : hunksEnd cursor hunks ≤ source.length := by
  induction hunks generalizing cursor position with
  | nil => exact inside
  | cons hunk rest inductionHypothesis =>
    exact inductionHypothesis chain.2 chain.1.inside

/-- Located hunks apply exactly where the result fits. -/
theorem chain_applies_iff (short : source.length ≤ usizeMax) {hunks : List ResolvedHunk}
    (chain : Chain source 0 0 hunks) :
    (∃ result, applyResolvedHunks source hunks = .ok result) ↔
      Fits (patchedLines source hunks) := by
  constructor
  · rintro ⟨result, done⟩
    obtain ⟨writes, -, -⟩ := apply_resolved_hunks done
    exact ⟨writes.ended, writes.value ▸ writes.bounded⟩
  · intro fits
    have start : Standing {} 0 0 [] := ⟨rfl, rfl, rfl, rfl, Writes.empty⟩
    have whole : Fits ([] ++ (hunkLines source (preferredLineEnding source) 0 hunks ++
        source.drop (hunksEnd 0 hunks))) := fits
    obtain ⟨applied, done, reached, written⟩ := start.hunks short chain whole
    have inside := hunks_end_inside chain (Nat.zero_le _)
    have rest : (source.drop applied.sourceCursor).take
        (source.length - applied.sourceCursor) = source.drop (hunksEnd 0 hunks) := by
      rw [List.take_of_length_le (by simp), reached]
    have left : applied.sourceCursor + (source.length - applied.sourceCursor) ≤
        source.length := by omega
    have following : Fits ([] ++ hunkLines source (preferredLineEnding source) 0 hunks ++
        ((source.drop applied.sourceCursor).take (source.length - applied.sourceCursor) ++
          [])) := by
      rw [rest]
      simpa [patchedLines] using fits
    obtain ⟨last, copied, -⟩ := written.copies short left following
    refine ⟨last.value, Results.bind_ok.mpr ⟨applied, done, ?_⟩⟩
    refine Results.bind_ok.mpr ⟨_, copied, ?_⟩
    dsimp only
    rw [if_neg (by omega)]

end Chains

section Parsed

theorem codex_contents_plain {fuel : Nat} {parser next : PatchLines}
    {contents : List PatchContent} {endOfFile : Bool}
    (parsed : codexContentsLoop fuel parser = .ok (contents, endOfFile, next)) :
    ∀ content ∈ contents, Plain content := by
  induction fuel generalizing parser contents with
  | zero => cases parsed
  | succ fuel inductionHypothesis =>
    rw [codexContentsLoop] at parsed
    dsimp only at parsed
    obtain ⟨raw, -, parsed⟩ := Results.bind_ok.mp parsed
    split at parsed
    · cases parsed
      simp
    · split at parsed
      · cases parsed
        simp
      · split at parsed
        · cases parsed
        · obtain ⟨⟨line, after⟩, -, parsed⟩ := Results.bind_ok.mp parsed
          obtain ⟨content, read, parsed⟩ := Results.bind_ok.mp parsed
          obtain ⟨⟨following, marked⟩, consumed, parsed⟩ := Results.bind_ok.mp parsed
          obtain ⟨⟨rest, final, last⟩, later, parsed⟩ := Results.bind_ok.mp parsed
          cases parsed
          intro inspected member
          rcases List.mem_cons.mp member with rfl | old
          · exact consume_no_newline_plain (parse_content_plain read) consumed
          · exact inductionHypothesis later inspected old

theorem codex_hunks_plain {fuel : Nat} {parser : PatchLines} {previous : Option CodexHunk}
    {hunks : List CodexHunk} (parsed : codexHunksLoop fuel parser previous = .ok hunks) :
    ∀ hunk ∈ hunks, ∀ content ∈ hunk.contents, Plain content := by
  induction fuel generalizing parser previous hunks with
  | zero => cases parsed
  | succ fuel inductionHypothesis =>
    rw [codexHunksLoop] at parsed
    obtain ⟨⟨raw, after⟩, -, parsed⟩ := Results.bind_ok.mp parsed
    dsimp only at parsed
    split at parsed
    · split at parsed
      · cases parsed
      · obtain ⟨finished, -, parsed⟩ := Results.bind_ok.mp parsed
        cases parsed
        simp
    · split at parsed
      · cases parsed
      · obtain ⟨locator, -, parsed⟩ := Results.bind_ok.mp parsed
        obtain ⟨⟨contents, endOfFile, following⟩, read, parsed⟩ := Results.bind_ok.mp parsed
        dsimp only at parsed
        split at parsed
        · cases parsed
        · obtain ⟨rest, later, parsed⟩ := Results.bind_ok.mp parsed
          cases parsed
          intro hunk member
          rcases List.mem_cons.mp member with rfl | old
          · exact codex_contents_plain read
          · exact inductionHypothesis later hunk old

/-- A parsed patch starts with the envelope, and its lines keep their endings. -/
theorem parse_codex_patch {path patch : Text} {hunks : List CodexHunk}
    (parsed : parseCodexPatch path patch = .ok hunks) :
    (∃ first, (splitInclusive patch).head? = some first ∧
      stripTransportEnding first = codexBeginPatch) ∧
      ∀ hunk ∈ hunks, ∀ content ∈ hunk.contents, Plain content := by
  obtain ⟨⟨first, after⟩, next, parsed⟩ := Results.bind_ok.mp parsed
  dsimp only at parsed
  split at parsed
  · cases parsed
  · rename_i begins
    rw [ne_eq, not_not] at begins
    obtain ⟨⟨update, following⟩, -, parsed⟩ := Results.bind_ok.mp parsed
    obtain ⟨header, -, parsed⟩ := Results.bind_ok.mp parsed
    obtain ⟨valid, -, parsed⟩ := Results.bind_ok.mp parsed
    refine ⟨⟨first, ?_, begins⟩, codex_hunks_plain parsed⟩
    cases all : splitInclusive patch with
    | nil => simp [PatchLines.new, PatchLines.next, all, required] at next
    | cons line lines =>
      simp only [PatchLines.new, PatchLines.next, all, required, Except.ok.injEq,
        Prod.mk.injEq] at next
      rw [List.head?_cons, next.1]

end Parsed

section Resolved

variable {source : List SourceLine}

theorem preferred_present (lines : List SourceLine) : preferredLineEnding lines ≠ .none := by
  unfold preferredLineEnding
  dsimp only
  split
  · simp
  · split
    · simp
    · cases first : ((lines.map SourceLine.ending).filter (· ≠ .none)).head? with
      | none => simp
      | some ending =>
        have member := List.mem_of_head? first
        rw [List.mem_filter] at member
        simpa using member.2

theorem content_counts {contents : List PatchContent} {oldCount newCount : Nat}
    {counts : Nat × Nat} (counted : codexContentCounts contents (oldCount, newCount) = .ok counts) :
    counts = (oldCount + (oldPart contents).length, newCount + (newPart contents).length) := by
  induction contents generalizing oldCount newCount with
  | nil =>
    cases counted
    rfl
  | cons content rest inductionHypothesis =>
    rw [codexContentCounts] at counted
    obtain ⟨old, first, counted⟩ := Results.bind_ok.mp counted
    obtain ⟨new, second, counted⟩ := Results.bind_ok.mp counted
    obtain ⟨-, rfl⟩ := add_ok_iff.mp first
    obtain ⟨-, rfl⟩ := add_ok_iff.mp second
    rw [inductionHypothesis counted]
    cases kind : content.kind with
    | context => simp [oldPart, newPart, kind, PatchLineKind.delta, Nat.add_assoc, Nat.add_comm 1]
    | remove => simp [oldPart, newPart, kind, PatchLineKind.delta, Nat.add_assoc, Nat.add_comm 1]
    | add => simp [oldPart, newPart, kind, PatchLineKind.delta, Nat.add_assoc, Nat.add_comm 1]

theorem anchor_inside {anchor : Text} {rest : List SourceLine} {index : Nat}
    {found : Option Nat} {visits : Nat} {position spent : Nat}
    (left : source.drop index = rest) (earlier : ∀ line, found = some line → line < source.length)
    (done : anchorLoop anchor rest index found visits = .ok (some position, spent)) :
    position < source.length := by
  induction rest generalizing index found visits with
  | nil =>
    cases done
    exact earlier position rfl
  | cons line rest inductionHypothesis =>
    have inside : index < source.length := by
      have positive : 0 < (source.drop index).length := by simp [left]
      rw [List.length_drop] at positive
      omega
    rw [List.drop_eq_getElem_cons inside, List.cons.injEq] at left
    rw [anchorLoop] at done
    obtain ⟨visited, -, done⟩ := Results.bind_ok.mp done
    split at done
    · split at done
      · cases done
      · refine inductionHypothesis left.2 ?_ done
        intro here same
        cases same
        exact inside
    · exact inductionHypothesis left.2 earlier done

theorem visit_beyond {visits : Nat} (beyond : maxCodexMatchVisits < visits) (spent : Nat) :
    visit visits ≠ .ok spent := by
  unfold visit
  split
  · rw [if_pos (by omega)]
    simp
  · simp

/-- Nothing is found with more visits than the limit. -/
theorem find_unique_spent {pattern : List PatchContent} {start visits : Nat}
    (beyond : maxCodexMatchVisits < visits) (position spent : Nat) :
    findUniqueCodexMatch pattern source (codexSourceIndex source) start visits ≠
      .ok (some position, spent) := by
  intro found
  unfold findUniqueCodexMatch at found
  split at found
  · cases found
  · obtain ⟨offset, -, found⟩ := Results.bind_ok.mp found
    dsimp only at found
    split at found
    · cases found
    · obtain ⟨visited, first, -⟩ := Results.bind_ok.mp found
      exact visit_beyond beyond visited first
    · cases left : source.drop start with
      | nil =>
        rw [left] at found
        cases found
      | cons line rest =>
        rw [left, scanMatches] at found
        obtain ⟨visited, first, -⟩ := Results.bind_ok.mp found
        exact visit_beyond beyond visited first

/-- A position that the search returns is a match. -/
theorem found_matches {pattern : List PatchContent} {start visits position spent : Nat}
    (found : findUniqueCodexMatch pattern source (codexSourceIndex source) start visits =
      .ok (some position, spent)) :
    codexContentsMatchAt pattern source position = true := by
  by_cases present : pattern = []
  · subst present
    rw [find_unique_empty] at found
    cases found
  · by_cases marked : (pattern.filter (·.oldNoNewline)).length ≤ 1
    · by_cases within : visits ≤ maxCodexMatchVisits
      · obtain ⟨positions, distinct, complete, search⟩ :=
          find_unique_spec source start present marked within
        rw [search] at found
        split at found
        · cases found
        · obtain ⟨result, only, same⟩ := Results.map_ok.mp found
          cases same
          exact ((complete position).mp ((unique_some_iff distinct position).mp only).1).2
      · exact absurd found (find_unique_spent (by omega) position spent)
    · rw [find_unique_marked (by omega)] at found
      cases found

/-- A hunk that is located matches the source, whichever way it is located. -/
theorem locate_codex_hunk {locator : CodexLocator} {old : List PatchContent} {newCount : Nat}
    {endOfFile : Bool} {searchStart visits start spent : Nat}
    (done : locateCodexHunk locator old old.length newCount endOfFile source
      (codexSourceIndex source) searchStart visits = .ok (start, spent)) :
    start + old.length ≤ source.length ∧ codexContentsMatchAt old source start = true := by
  cases locator with
  | range oldRange newRange =>
    simp only [locateCodexHunk] at done
    split at done
    · cases done
    · rename_i counts
      obtain ⟨stop, first, done⟩ := Results.bind_ok.mp done
      obtain ⟨-, rfl⟩ := add_ok_iff.mp first
      split at done
      · cases done
      · rename_i inside
        split at done
        · cases done
        · rename_i matched
          cases done
          simp only [ne_eq, not_or, not_not, Nat.not_lt] at counts inside
          rw [counts.1] at inside
          exact ⟨inside.1, by simpa using matched⟩
  | anchor anchor =>
    simp only [locateCodexHunk] at done
    split at done
    · split at done
      · cases done
      · rename_i fits
        split at done
        · cases done
        · rename_i matched
          cases done
          exact ⟨by omega, by simpa using matched⟩
    · split at done
      · rename_i empty
        have none_old : old = [] := List.length_eq_zero_iff.mp empty
        subst none_old
        split at done
        · cases done
        · obtain ⟨⟨found, after⟩, first, done⟩ := Results.bind_ok.mp done
          obtain ⟨line, second, done⟩ := Results.bind_ok.mp done
          obtain ⟨next, third, done⟩ := Results.bind_ok.mp done
          obtain ⟨-, rfl⟩ := add_ok_iff.mp third
          cases done
          cases found with
          | none => cases second
          | some here =>
            cases second
            have inside := anchor_inside rfl (by simp) first
            exact ⟨inside, rfl⟩
      · rename_i present
        obtain ⟨matchStart, before, search⟩ : ∃ matchStart before,
            (findUniqueCodexMatch old source (codexSourceIndex source) matchStart before >>=
              fun found => located found.1 >>= fun start => .ok (start, found.2)) =
                Except.ok (start, spent) := by
          cases anchor with
          | none => exact ⟨searchStart, visits, done⟩
          | some anchor =>
            obtain ⟨found, -, done⟩ := Results.bind_ok.mp done
            obtain ⟨line, -, done⟩ := Results.bind_ok.mp done
            exact ⟨line, found.2, done⟩
        obtain ⟨⟨found, after⟩, second, search⟩ := Results.bind_ok.mp search
        obtain ⟨position, third, search⟩ := Results.bind_ok.mp search
        cases search
        cases found with
        | none => cases third
        | some here =>
          cases third
          have matched := found_matches second
          refine ⟨(match_inside matched).resolve_right ?_, matched⟩
          rintro rfl
          exact present rfl

/-- A line of the source has the text of an old line and is unended where that is
marked. -/
def StandsOn (content : PatchContent) (line : SourceLine) : Prop :=
  line.text = content.text ∧ (content.oldNoNewline = true → line.ending = .none)

theorem match_stands {pattern : List PatchContent} {start : Nat}
    (matched : codexContentsMatchAt pattern source start = true) :
    List.Forall₂ StandsOn pattern (between source start (start + pattern.length)) := by
  induction pattern generalizing start with
  | nil => simp [between]
  | cons content rest inductionHypothesis =>
    rw [codexContentsMatchAt] at matched
    split at matched
    · cases matched
    · rename_i line here
      split at matched
      · cases matched
      · rename_i accepted
        rw [not_or, not_and, not_not, not_not] at accepted
        rw [between_cons here (by simp), List.length_cons,
          show start + (rest.length + 1) = start + 1 + rest.length by omega]
        exact .cons ⟨accepted.1, accepted.2⟩ (inductionHypothesis matched)

/-- What marking leaves of the lines of a hunk that stand on some lines. -/
structure Marked (contents marked : List PatchContent) (lines : List SourceLine) : Prop where
  old : List.Forall₂ Expects (oldPart marked) lines
  oldCount : (oldPart marked).length = (oldPart contents).length
  newCount : (newPart marked).length = (newPart contents).length
  length : marked.length = contents.length
  ended : ∀ content ∈ marked, content.contextNewEnding ≠ some .none

theorem mark_source_endings {preferred : LineEnding} (ending : preferred ≠ .none)
    {contents marked : List PatchContent} {lines : List SourceLine}
    (plain : ∀ content ∈ contents, Plain content)
    (stands : List.Forall₂ StandsOn (oldPart contents) (lines.take (oldPart contents).length))
    (done : markCodexSourceEndings preferred contents lines = .ok marked) :
    Marked contents marked (lines.take (oldPart contents).length) := by
  induction contents generalizing lines marked with
  | nil =>
    cases done
    exact ⟨by simp [oldPart], rfl, rfl, rfl, by simp⟩
  | cons content rest inductionHypothesis =>
    have plain_rest : ∀ other ∈ rest, Plain other := fun other member => plain other (by simp [member])
    have unset : content.contextNewEnding = none := plain content (by simp)
    unfold markCodexSourceEndings at done
    split at done
    · rename_i kind
      obtain ⟨later, first, done⟩ := Results.bind_ok.mp done
      cases done
      have old (tail : List PatchContent) : oldPart (content :: tail) = oldPart tail := by
        simp [oldPart, kind]
      rw [old] at stands ⊢
      have marked := inductionHypothesis plain_rest stands first
      constructor
      · rw [old]
        exact marked.old
      · rw [old, old]
        exact marked.oldCount
      · simpa [newPart, kind] using marked.newCount
      · simpa using marked.length
      · intro inspected member
        rcases List.mem_cons.mp member with rfl | earlier
        · simp [unset]
        · exact marked.ended inspected earlier
    · rename_i other
      split at done
      · cases done
      · rename_i line lines
        obtain ⟨later, first, done⟩ := Results.bind_ok.mp done
        have old (inspected : PatchContent) (tail : List PatchContent)
            (kind : inspected.kind = content.kind) :
            oldPart (inspected :: tail) = inspected :: oldPart tail := by
          simp [oldPart, kind, other]
        rw [old content rest rfl, List.length_cons, List.take_succ_cons] at stands ⊢
        rw [List.forall₂_cons] at stands
        obtain ⟨⟨text, open_line⟩, following⟩ := stands
        have marked := inductionHypothesis plain_rest following first
        have placed (placedLine : PatchContent) (same : placedLine.kind = content.kind)
            (expected : Expects placedLine line)
            (ended : placedLine.contextNewEnding ≠ some .none) :
            Marked (content :: rest) (placedLine :: later)
              (line :: lines.take (oldPart rest).length) := by
          constructor
          · rw [old placedLine later same]
            exact .cons expected marked.old
          · rw [old placedLine later same, old content rest rfl]
            simpa using marked.oldCount
          · have count := marked.newCount
            cases kind : content.kind with
            | context => simpa [newPart, kind, same] using count
            | remove => simpa [newPart, kind, same] using count
            | add => exact absurd kind other
          · simpa using marked.length
          · intro inspected member
            rcases List.mem_cons.mp member with rfl | earlier
            · exact ended
            · exact marked.ended inspected earlier
        cases done
        split
        · rename_i unended
          apply placed
          · rfl
          · exact ⟨text, by simp [unended]⟩
          · dsimp only
            split
            · simpa using ending
            · simp [unset]
        · rename_i closed
          refine placed content rfl ⟨text, ?_⟩ (by simp [unset])
          cases marked_line : content.oldNoNewline with
          | true => exact absurd (open_line marked_line) closed
          | false => simpa using closed

/-- Lines that differ at most in the mark of the result. -/
structure Alike (first second : PatchContent) : Prop where
  kind : second.kind = first.kind
  text : second.text = first.text
  oldNoNewline : second.oldNoNewline = first.oldNoNewline
  contextNewEnding : second.contextNewEnding = first.contextNewEnding

theorem Alike.refl (content : PatchContent) : Alike content content := ⟨rfl, rfl, rfl, rfl⟩

theorem last_kept_alike (contents : List PatchContent) :
    List.Forall₂ Alike contents (markLastKept contents) := by
  induction contents with
  | nil => exact .nil
  | cons content rest inductionHypothesis =>
    have same : List.Forall₂ Alike rest rest := List.forall₂_same.mpr fun other _ => .refl other
    rw [markLastKept]
    split
    · exact .cons (.refl content) inductionHypothesis
    · split
      · exact .cons ⟨rfl, rfl, rfl, rfl⟩ same
      · exact .cons (.refl content) same

theorem alike_sides {first second : List PatchContent} (alike : List.Forall₂ Alike first second) :
    List.Forall₂ Alike (oldPart first) (oldPart second) ∧
      List.Forall₂ Alike (newPart first) (newPart second) := by
  induction alike with
  | nil => exact ⟨.nil, .nil⟩
  | @cons content other _ _ same _ inductionHypothesis =>
    obtain ⟨old, new⟩ := inductionHypothesis
    cases kind : content.kind with
    | context =>
      have kinds : other.kind = .context := same.kind.trans kind
      exact ⟨by simpa [oldPart, kind, kinds] using ⟨same, old⟩,
        by simpa [newPart, kind, kinds] using ⟨same, new⟩⟩
    | remove =>
      have kinds : other.kind = .remove := same.kind.trans kind
      exact ⟨by simpa [oldPart, kind, kinds] using ⟨same, old⟩,
        by simpa [newPart, kind, kinds] using new⟩
    | add =>
      have kinds : other.kind = .add := same.kind.trans kind
      exact ⟨by simpa [oldPart, kind, kinds] using old,
        by simpa [newPart, kind, kinds] using ⟨same, new⟩⟩

theorem alike_expects {first second : List PatchContent} {lines : List SourceLine}
    (alike : List.Forall₂ Alike first second) (expected : List.Forall₂ Expects first lines) :
    List.Forall₂ Expects second lines := by
  induction alike generalizing lines with
  | nil => exact expected
  | cons same _ inductionHypothesis =>
    rw [List.forall₂_cons_left_iff] at expected
    obtain ⟨line, rest, here, following, rfl⟩ := expected
    refine .cons ⟨?_, ?_⟩ (inductionHypothesis following)
    · rw [same.text]
      exact here.1
    · rw [same.oldNoNewline]
      exact here.2

/-- Marking the last line that stays leaves the rest as it is. -/
theorem Marked.last_kept {contents marked : List PatchContent} {lines : List SourceLine}
    (before : Marked contents marked lines) : Marked contents (markLastKept marked) lines := by
  have alike := last_kept_alike marked
  obtain ⟨old, new⟩ := alike_sides alike
  constructor
  · exact alike_expects old before.old
  · rw [← old.length_eq]
    exact before.oldCount
  · rw [← new.length_eq]
    exact before.newCount
  · rw [← alike.length_eq]
    exact before.length
  · intro content member
    obtain ⟨index, bounded, rfl⟩ := List.mem_iff_getElem.mp member
    have here := alike.get (alike.length_eq ▸ bounded) bounded
    simp only [List.get_eq_getElem] at here
    rw [here.contextNewEnding]
    exact before.ended _ (List.getElem_mem _)

/-- So does marking the last line where the result ends like the source. -/
theorem Marked.finish {contents marked : List PatchContent} {lines : List SourceLine}
    (before : Marked contents marked lines) (ends : Prop) [Decidable ends] (newCount : Nat) :
    Marked contents (if ends then markCodexResultNoNewline marked newCount else marked) lines := by
  split
  · unfold markCodexResultNoNewline
    split
    · exact before
    · exact before.last_kept
  · exact before

theorem make_hunk_range {index count : Nat} {range : HunkRange}
    (done : makeHunkRange index count = .ok range) :
    range = { index, count, stop := index + count } := by
  obtain ⟨stop, added, done⟩ := Results.bind_ok.mp done
  obtain ⟨-, rfl⟩ := add_ok_iff.mp added
  cases done
  rfl

/-- One round of resolving moves the cursors on together, and what it resolves is
located. -/
theorem resolve_codex_hunk {isLast : Bool} {state next : Resolving} {hunk : CodexHunk}
    {resolved : Option ResolvedHunk} (plain : ∀ content ∈ hunk.contents, Plain content)
    (done : resolveCodexHunk source isLast state hunk = .ok (next, resolved)) :
    match resolved with
    | none => ∃ skipped, next.sourceCursor = state.sourceCursor + skipped ∧
        next.outputCursor = state.outputCursor + skipped
    | some hunk => Located source state.sourceCursor state.outputCursor hunk ∧
        next.sourceCursor = hunk.old.stop ∧ next.outputCursor = hunk.new.stop := by
  unfold resolveCodexHunk at done
  split at done
  · cases done
  · obtain ⟨⟨oldCount, newCount⟩, counted, done⟩ := Results.bind_ok.mp done
    have counts := content_counts counted
    rw [Nat.zero_add, Nat.zero_add, Prod.mk.injEq] at counts
    obtain ⟨rfl, rfl⟩ := counts
    obtain ⟨⟨start, visits⟩, begun, done⟩ := Results.bind_ok.mp done
    dsimp only at done
    split at done
    · cases done
    · rename_i ordered
      obtain ⟨checked, -, done⟩ := Results.bind_ok.mp done
      obtain ⟨skipped, first, done⟩ := Results.bind_ok.mp done
      obtain ⟨output, second, done⟩ := Results.bind_ok.mp done
      obtain ⟨-, rfl⟩ := add_ok_iff.mp second
      have forward : state.sourceCursor ≤ start := by omega
      have distance : skipped = start - state.sourceCursor := by
        unfold sub at first
        rw [if_pos forward] at first
        cases first
        rfl
      split at done
      · cases done
        exact ⟨skipped, by dsimp only; omega, rfl⟩
      · rename_i present
        unfold startCodexHunk at begun
        rw [if_neg present] at begun
        obtain ⟨inside, matched⟩ := locate_codex_hunk begun
        obtain ⟨oldEnd, third, done⟩ := Results.bind_ok.mp done
        obtain ⟨contents, marking, done⟩ := Results.bind_ok.mp done
        obtain ⟨old, fourth, done⟩ := Results.bind_ok.mp done
        obtain ⟨new, fifth, done⟩ := Results.bind_ok.mp done
        obtain ⟨final, sixth, done⟩ := Results.bind_ok.mp done
        obtain ⟨-, rfl⟩ := add_ok_iff.mp third
        obtain ⟨-, rfl⟩ := add_ok_iff.mp sixth
        obtain rfl := make_hunk_range fourth
        obtain rfl := make_hunk_range fifth
        cases done
        have stands := match_stands matched
        rw [between, Nat.add_sub_cancel_left] at stands
        have sources := mark_source_endings (preferred_present source) plain stands marking
        have marked := sources.finish (isLast = true ∧
          (source.getLast?.any fun line => line.ending == .none) = true ∧
          start + (oldPart hunk.contents).length = source.length) (newPart hunk.contents).length
        refine ⟨?_, rfl, rfl⟩
        constructor
        · exact forward
        · exact congrArg _ marked.oldCount.symm
        · exact inside
        · dsimp only
          rw [between, Nat.add_sub_cancel_left]
          exact marked.old
        · exact congrArg _ distance
        · exact congrArg _ marked.newCount.symm
        · intro empty
          have length := marked.length
          dsimp only at empty
          rw [empty, List.length_nil, eq_comm, List.length_eq_zero_iff] at length
          exact present (by simp [length])
        · exact marked.ended

/-- Resolved hunks stand one after another. -/
theorem resolve_codex_hunks {state : Resolving} {hunks : List CodexHunk}
    {resolved : List ResolvedHunk}
    (plain : ∀ hunk ∈ hunks, ∀ content ∈ hunk.contents, Plain content)
    (done : resolveCodexHunks source state hunks = .ok resolved) :
    Chain source state.sourceCursor state.outputCursor resolved := by
  induction hunks generalizing state resolved with
  | nil =>
    cases done
    trivial
  | cons hunk rest inductionHypothesis =>
    rw [resolveCodexHunks] at done
    obtain ⟨⟨next, first⟩, here, done⟩ := Results.bind_ok.mp done
    obtain ⟨later, following, done⟩ := Results.bind_ok.mp done
    cases done
    have round := resolve_codex_hunk (plain hunk (by simp)) here
    have chain := inductionHypothesis (fun other member => plain other (by simp [member])) following
    cases first with
    | none =>
      obtain ⟨skipped, cursor, output⟩ := round
      rw [cursor, output] at chain
      exact chain.earlier
    | some located =>
      obtain ⟨hunk_at, cursor, output⟩ := round
      rw [cursor, output] at chain
      exact ⟨hunk_at, chain⟩

end Resolved

end MinicoreAgent.Patches

import MinicoreAgent.UnifiedRender

/-!
# Every rendered script applies

The source of a script is split into the lines of the script's old side. The pass
over the hunks of the script keeps its place in both sides: the cursor stands
after the lines of the old side that were passed, and the builder holds the lines
of the new side. Each step of the pass then finds the line it expects, so the pass
ends with the text of the new side.
-/
namespace MinicoreAgent.Patches

open EditScripts
open MinicoreAgent.Text (byteLen)

section TextLines

/-- The line of the source that a line of its text is split into. -/
def toSource (line : DiffLine) : SourceLine :=
  ⟨line.text, if line.ended then .lf else .none⟩

def lineText (line : DiffLine) : Text := line.text ++ (toSource line).ending.asStr

/-- The text that some lines make up. -/
def textOf (lines : List DiffLine) : Text := lines.flatMap lineText

@[simp] theorem text_of_nil : textOf [] = [] := rfl

@[simp] theorem text_of_cons (line : DiffLine) (rest : List DiffLine) :
    textOf (line :: rest) = lineText line ++ textOf rest := rfl

@[simp] theorem text_of_append (first second : List DiffLine) :
    textOf (first ++ second) = textOf first ++ textOf second := by
  simp [textOf]

theorem text_of_ended (lines : List Text) :
    textOf (lines.map (⟨·, true⟩)) = Lines.join '\n' lines := by
  induction lines with
  | nil => rfl
  | cons line rest inductionHypothesis =>
    rw [List.map_cons, text_of_cons, inductionHypothesis, Lines.join_cons]
    simp [lineText, toSource, LineEnding.asStr]

/-- A text is made up of its lines. -/
theorem text_of_lines (text : Text) : textOf (linesOf text) = text := by
  have whole := Lines.join_split '\n' text
  conv => rhs; rw [← whole]
  rw [linesOf, text_of_append, text_of_ended]
  by_cases empty : (Lines.split '\n' text).2 = []
  · rw [if_pos empty, empty]
    rfl
  · rw [if_neg empty]
    simp [lineText, toSource, LineEnding.asStr]

/-- No line of a text has a line feed inside. -/
theorem line_free {text : Text} {line : DiffLine} (member : line ∈ linesOf text) :
    '\n' ∉ line.text := by
  obtain ⟨free, unended⟩ := Lines.split_free '\n' text
  rw [linesOf, List.mem_append] at member
  rcases member with whole | last
  · obtain ⟨found, present, rfl⟩ := List.mem_map.mp whole
    exact free found present
  · split at last
    · cases last
    · rw [List.mem_singleton.mp last]
      exact unended

theorem line_carried {text : Text} (lf : IsLf text) {line : DiffLine}
    (member : line ∈ linesOf text) : Carried line.text :=
  ⟨line_free member, lf line member⟩

/-- Only the last line of a text lacks its line feed. -/
theorem ended_before {text : Text} {before after : List DiffLine} {line : DiffLine}
    (lines : linesOf text = before ++ line :: after) : ∀ earlier ∈ before, earlier.ended = true := by
  intro earlier member
  have whole (ended : List DiffLine) (same : ∀ inspected ∈ ended, inspected.ended = true)
      (last : List DiffLine) (single : last.length ≤ 1)
      (split : ended ++ last = before ++ line :: after) : earlier.ended = true := by
    have short : before.length ≤ ended.length := by
      have lengths := congrArg List.length split
      simp only [List.length_append, List.length_cons] at lengths
      omega
    have inside : before <+: ended :=
      List.prefix_of_prefix_length_le ⟨line :: after, rfl⟩ (split ▸ ⟨last, rfl⟩) short
    exact same earlier (inside.subset member)
  apply whole _ _ _ _ lines
  · intro inspected present
    obtain ⟨found, -, rfl⟩ := List.mem_map.mp present
    rfl
  · split
    · exact Nat.zero_le _
    · exact Nat.le_refl _

theorem split_source_loop (current : Text) (free : '\n' ∉ current) (rest : Text) :
    splitSourceLoop current rest =
      (Lines.split '\n' (current ++ rest)).1.map endedLine ++
        (if (Lines.split '\n' (current ++ rest)).2 = [] then []
          else [⟨(Lines.split '\n' (current ++ rest)).2, .none⟩]) := by
  induction rest generalizing current with
  | nil =>
    rw [List.append_nil, Lines.split_tail free]
    rfl
  | cons char rest inductionHypothesis =>
    rw [splitSourceLoop]
    by_cases feed : char = '\n'
    · have later := inductionHypothesis [] (by simp)
      rw [if_pos feed, feed, Lines.split_line free, later]
      rfl
    · have more : '\n' ∉ current ++ [char] := by
        simp [free, Ne.symm feed]
      rw [if_neg feed, inductionHypothesis _ more, List.append_assoc]
      rfl

/-- A text without returns at its line ends is split into its lines. -/
theorem split_source_lf {source : Text} (lf : IsLf source) :
    splitSourceLines source = (linesOf source).map toSource := by
  have loop := split_source_loop [] (by simp) source
  rw [List.nil_append] at loop
  rw [splitSourceLines, loop, linesOf, List.map_append, List.map_map]
  congr 1
  · apply List.map_congr_left
    intro line member
    have last := lf ⟨line, true⟩ (List.mem_append_left _ (List.mem_map.mpr ⟨line, member, rfl⟩))
    exact if_neg last
  · split
    · rfl
    · rfl

/-- Lines that end in line feeds alone prefer line feeds. -/
theorem preferred_lf (lines : List DiffLine) :
    preferredLineEnding (lines.map toSource) = .lf := by
  have endings : ∀ ending ∈ ((lines.map toSource).map SourceLine.ending).filter (· ≠ .none),
      ending = .lf := by
    intro ending member
    obtain ⟨present, shown⟩ := List.mem_filter.mp member
    obtain ⟨line, found, rfl⟩ := List.mem_map.mp present
    obtain ⟨original, -, rfl⟩ := List.mem_map.mp found
    cases ended : original.ended with
    | true => simp [toSource, ended]
    | false => simp [toSource, ended] at shown
  rw [preferredLineEnding]
  generalize ((lines.map toSource).map SourceLine.ending).filter (· ≠ .none) = found at endings
  have noReturns : found.count .crlf = 0 := by
    apply List.count_eq_zero_of_not_mem
    intro member
    cases endings _ member
  have first : found.head?.getD .lf = .lf := by
    cases found with
    | nil => rfl
    | cons ending rest => exact endings ending (by simp)
  rw [noReturns, if_neg (Nat.not_lt_zero _), first, ite_self]

end TextLines

section Passing

/-- The builder holds the text of some lines. -/
structure Built (builder : ResultBuilder) (lines : List DiffLine) : Prop where
  value : builder.value = textOf lines
  count : builder.lineCount = lines.length
  unended : builder.previousHadNoNewline = true → ∃ line ∈ lines, line.ended = false

/-- What the two sides of a script keep to: only the last line of the new side lacks
its line feed, and the sides are within the bounds. -/
structure Bounded (old new : List DiffLine) : Prop where
  ended : ∀ before line after, new = before ++ line :: after →
    ∀ earlier ∈ before, earlier.ended = true
  size : byteLen (textOf new) ≤ maxPatchBytes
  lines : old.length ≤ usizeMax

/-- Lines that are ended take at least a byte each. -/
theorem length_le_bytes {lines : List DiffLine} (ended : ∀ line ∈ lines, line.ended = true) :
    lines.length ≤ byteLen (textOf lines) := by
  induction lines with
  | nil => simp
  | cons line rest inductionHypothesis =>
    have later := inductionHypothesis (fun other member => ended other (by simp [member]))
    have feed : byteLen (lineText line) = byteLen line.text + 1 := by
      simp [lineText, toSource, ended line (by simp), LineEnding.asStr]
      rfl
    simp only [List.length_cons, text_of_cons, Text.byte_len_append, feed]
    omega

variable {old new oldLeft newLeft : List DiffLine} {cursor : Nat} {builder : ResultBuilder}

/-- A line that comes next on the new side can be appended. -/
theorem append_line (bounded : Bounded old new) {before : List DiffLine} {line : DiffLine}
    (built : Built builder before) (next : new = before ++ line :: newLeft) :
    ∃ after, builder.append line.text (toSource line).ending = .ok after ∧
      Built after (before ++ [line]) := by
  have ended := bounded.ended before line newLeft next
  have running : builder.previousHadNoNewline = false := by
    rw [← Bool.not_eq_true]
    intro stopped
    obtain ⟨inspected, member, unended⟩ := built.unended stopped
    rw [ended inspected member] at unended
    cases unended
  have size : byteLen (textOf before) + byteLen (lineText line) ≤ maxPatchBytes := by
    have whole := bounded.size
    rw [next, text_of_append, text_of_cons, Text.byte_len_append, Text.byte_len_append] at whole
    omega
  have lines := length_le_bytes ended
  have small : maxPatchBytes + 1 ≤ usizeMax := by decide
  have split : byteLen (lineText line) =
      byteLen line.text + byteLen (toSource line).ending.asStr := Text.byte_len_append _ _
  rw [split] at size
  have textFits : byteLen line.text + byteLen (toSource line).ending.asStr ≤ usizeMax := by omega
  have wholeFits : byteLen (textOf before) +
      (byteLen line.text + byteLen (toSource line).ending.asStr) ≤ usizeMax := by omega
  have countFits : before.length + 1 ≤ usizeMax := by omega
  refine ⟨{
      value := textOf before ++ line.text ++ (toSource line).ending.asStr
      lineCount := before.length + 1
      previousHadNoNewline := (toSource line).ending == .none }, ?_, ?_, ?_, ?_⟩
  · simp only [ResultBuilder.append, running, Bool.false_eq_true, if_false, built.value,
      built.count, bind, Except.bind,
      add_ok textFits, add_ok wholeFits, add_ok countFits, if_neg (Nat.not_lt.mpr size)]
  · simp [lineText]
  · simp
  · intro stopped
    refine ⟨line, by simp, ?_⟩
    cases unended : line.ended with
    | false => rfl
    | true => simp [toSource, unended] at stopped

/-- The pass stands before the lines that are left on both sides. -/
structure Stands (old new : List DiffLine) (cursor : Nat) (builder : ResultBuilder)
    (oldLeft newLeft : List DiffLine) : Prop where
  passed : ∃ before, old = before ++ oldLeft ∧ cursor = before.length
  built : ∃ before, new = before ++ newLeft ∧ Built builder before

theorem Stands.cursor_eq (stands : Stands old new cursor builder oldLeft newLeft) :
    cursor + oldLeft.length = old.length := by
  obtain ⟨before, rfl, rfl⟩ := stands.passed
  exact List.length_append.symm

theorem Stands.count_eq (stands : Stands old new cursor builder oldLeft newLeft) :
    builder.lineCount + newLeft.length = new.length := by
  obtain ⟨before, rfl, built⟩ := stands.built
  rw [built.count]
  exact List.length_append.symm

/-- The next line of the old side is the one at the cursor. -/
theorem Stands.at_cursor {line : DiffLine}
    (stands : Stands old new cursor builder (line :: oldLeft) newLeft) :
    (old.map toSource)[cursor]? = some (toSource line) := by
  obtain ⟨before, rfl, rfl⟩ := stands.passed
  simp

/-- The cursor passes a line of the old side. -/
theorem Stands.pass (bounded : Bounded old new) {line : DiffLine}
    (stands : Stands old new cursor builder (line :: oldLeft) newLeft) :
    advance cursor = .ok (cursor + 1) ∧
      Stands old new (cursor + 1) builder oldLeft newLeft := by
  have position := stands.cursor_eq
  have lines := bounded.lines
  rw [List.length_cons] at position
  refine ⟨if_pos (by omega), ?_, stands.built⟩
  obtain ⟨before, split, same⟩ := stands.passed
  refine ⟨before ++ [line], ?_, ?_⟩
  · rw [split, List.append_assoc]
    rfl
  · rw [same, List.length_append]
    rfl

/-- The builder takes a line of the new side. -/
theorem Stands.take (bounded : Bounded old new) {line : DiffLine}
    (stands : Stands old new cursor builder oldLeft (line :: newLeft)) :
    ∃ after, builder.append line.text (toSource line).ending = .ok after ∧
      Stands old new cursor after oldLeft newLeft := by
  obtain ⟨before, split, built⟩ := stands.built
  obtain ⟨after, appended, taken⟩ := append_line bounded built split
  refine ⟨after, appended, stands.passed, before ++ [line], ?_, taken⟩
  rw [split, List.append_assoc]
  rfl

/-- A line common to both sides is copied. -/
theorem Stands.copy (bounded : Bounded old new) {line : DiffLine}
    (stands : Stands old new cursor builder (line :: oldLeft) (line :: newLeft)) :
    ∃ after, appendSourceLine (old.map toSource) cursor builder = .ok (cursor + 1, after) ∧
      Stands old new (cursor + 1) after oldLeft newLeft := by
  obtain ⟨after, appended, taken⟩ := stands.take bounded
  obtain ⟨advanced, passed⟩ := taken.pass bounded
  refine ⟨after, ?_, passed⟩
  have text : (toSource line).text = line.text := rfl
  simp only [appendSourceLine, stands.at_cursor, text, appended, bind, Except.bind, advanced]

/-- Lines common to both sides are copied one after another. -/
theorem Stands.copies (bounded : Bounded old new) {gap : List DiffLine}
    (stands : Stands old new cursor builder (gap ++ oldLeft) (gap ++ newLeft)) :
    ∃ after, appendSourceLines (old.map toSource) gap.length cursor builder =
        .ok (cursor + gap.length, after) ∧
      Stands old new (cursor + gap.length) after oldLeft newLeft := by
  induction gap generalizing cursor builder with
  | nil => exact ⟨builder, rfl, stands⟩
  | cons line rest inductionHypothesis =>
    obtain ⟨copied, appended, later⟩ := stands.copy bounded
    obtain ⟨after, all, done⟩ := inductionHypothesis later
    have count : cursor + 1 + rest.length = cursor + (line :: rest).length := by
      rw [List.length_cons]
      omega
    rw [count] at all done
    refine ⟨after, ?_, done⟩
    rw [List.length_cons, appendSourceLines, appended]
    exact all

/-- Each edit finds its lines on both sides. -/
theorem Stands.edit (bounded : Bounded old new) (edit : Edit DiffLine)
    (stands : Stands old new cursor builder (edit.old ++ oldLeft) (edit.new ++ newLeft)) :
    ∃ after, applyPatchContent (old.map toSource) .lf (contentOf edit) cursor builder =
        .ok (cursor + edit.old.length, after) ∧
      Stands old new (cursor + edit.old.length) after oldLeft newLeft := by
  cases edit with
  | keep line =>
    obtain ⟨after, appended, taken⟩ := Stands.take bounded stands
    obtain ⟨advanced, passed⟩ := taken.pass bounded
    refine ⟨after, ?_, passed⟩
    have matched : matchingSourceLine (contentOf (.keep line)) (old.map toSource) cursor =
        .ok (toSource line) := by
      rw [matchingSourceLine, stands.at_cursor]
      cases ended : line.ended <;> simp [toSource, contentOf, ended]
    have text : (toSource line).text = line.text := rfl
    simp only [applyPatchContent, matched, bind, Except.bind]
    simp only [contentOf, Option.getD_none, text, appended, advanced]
    rfl
  | remove line =>
    obtain ⟨advanced, passed⟩ := Stands.pass bounded stands
    refine ⟨builder, ?_, passed⟩
    have matched : matchingSourceLine (contentOf (.remove line)) (old.map toSource) cursor =
        .ok (toSource line) := by
      rw [matchingSourceLine, stands.at_cursor]
      cases ended : line.ended <;> simp [toSource, contentOf, ended]
    simp only [applyPatchContent, matched, bind, Except.bind]
    simp only [contentOf, advanced]
    rfl
  | insert line =>
    obtain ⟨after, appended, taken⟩ := Stands.take bounded stands
    refine ⟨after, ?_, taken⟩
    have kind : (contentOf (.insert line)).kind = .add := rfl
    have text : (contentOf (.insert line)).text = line.text := rfl
    have ending : (if (contentOf (.insert line)).newNoNewline then LineEnding.none else .lf) =
        (toSource line).ending := by
      cases ended : line.ended <;> simp [toSource, contentOf, ended]
    simp only [applyPatchContent, kind, text, ending, appended, bind, Except.bind]
    rfl

/-- The edits of a hunk find their lines one after another. -/
theorem Stands.edits (bounded : Bounded old new) {edits : List (Edit DiffLine)}
    (stands : Stands old new cursor builder (oldSide edits ++ oldLeft)
      (newSide edits ++ newLeft)) :
    ∃ after, applyPatchContents (old.map toSource) .lf (edits.map contentOf) cursor builder =
        .ok (cursor + (oldSide edits).length, after) ∧
      Stands old new (cursor + (oldSide edits).length) after oldLeft newLeft := by
  induction edits generalizing cursor builder with
  | nil => exact ⟨builder, rfl, stands⟩
  | cons edit rest inductionHypothesis =>
    rw [old_side_cons, new_side_cons, List.append_assoc, List.append_assoc] at stands
    obtain ⟨passed, applied, later⟩ := stands.edit bounded edit
    obtain ⟨after, all, done⟩ := inductionHypothesis later
    have count : cursor + edit.old.length + (oldSide rest).length =
        cursor + (oldSide (edit :: rest)).length := by
      rw [old_side_cons, List.length_append]
      omega
    rw [count] at all done
    refine ⟨after, ?_, done⟩
    rw [List.map_cons, applyPatchContents, applied]
    exact all

/-- A block is applied as the hunk it is read back as. -/
theorem Stands.block (bounded : Bounded old new) {block : Block DiffLine}
    {previousOldEnd previousNewEnd : Nat}
    (stands : Stands old new cursor builder (block.old ++ oldLeft) (block.new ++ newLeft))
    (oldBehind : previousOldEnd ≤ cursor) (newBehind : previousNewEnd ≤ builder.lineCount) :
    ∃ after, applyHunk (old.map toSource) .lf
        { sourceCursor := cursor, builder, previousOldEnd, previousNewEnd }
        {
          old := rangeAt (cursor + block.gap.length) (oldSide block.edits).length
          new := rangeAt (builder.lineCount + block.gap.length) (newSide block.edits).length
          contents := block.edits.map contentOf } =
        .ok {
          sourceCursor := cursor + block.old.length
          builder := after
          previousOldEnd := cursor + block.old.length
          previousNewEnd := builder.lineCount + block.new.length } ∧
      Stands old new (cursor + block.old.length) after oldLeft newLeft ∧
      after.lineCount = builder.lineCount + block.new.length := by
  have started := stands.count_eq
  rw [Block.old, Block.new, List.append_assoc, List.append_assoc] at stands
  obtain ⟨copied, copies, reached⟩ := stands.copies bounded
  obtain ⟨after, applied, passed⟩ := reached.edits bounded
  have oldStop : cursor + block.gap.length + (oldSide block.edits).length =
      cursor + block.old.length := by
    rw [Block.old, List.length_append]
    omega
  have newStop : builder.lineCount + block.gap.length + (newSide block.edits).length =
      builder.lineCount + block.new.length := by
    rw [Block.new, List.length_append]
    omega
  have copiedCount : copied.lineCount = builder.lineCount + block.gap.length := by
    have position := reached.count_eq
    simp only [Block.new, List.length_append] at started position
    omega
  have count : after.lineCount = builder.lineCount + block.new.length := by
    have position := passed.count_eq
    simp only [List.length_append] at started
    omega
  rw [oldStop] at applied passed
  refine ⟨after, ?_, passed, count⟩
  have ordered : ¬ (cursor + block.gap.length < previousOldEnd ∨
      builder.lineCount + block.gap.length < previousNewEnd) := by omega
  have gap : cursor + block.gap.length - cursor = block.gap.length := by omega
  simp only [applyHunk, rangeAt, if_neg ordered, gap, copies, bind, Except.bind, copiedCount,
    ne_eq, not_true_eq_false, or_self, if_false, applied, oldStop, newStop, count]

/-- The blocks are applied one after another. -/
theorem Stands.blocks (bounded : Bounded old new) {blocks : List (Block DiffLine)}
    {previousOldEnd previousNewEnd : Nat}
    (stands : Stands old new cursor builder (blocks.flatMap Block.old ++ oldLeft)
      (blocks.flatMap Block.new ++ newLeft))
    (oldBehind : previousOldEnd ≤ cursor) (newBehind : previousNewEnd ≤ builder.lineCount) :
    ∃ applied, applyHunks (old.map toSource) .lf
        { sourceCursor := cursor, builder, previousOldEnd, previousNewEnd }
        (hunksOf cursor builder.lineCount blocks) = .ok applied ∧
      Stands old new applied.sourceCursor applied.builder oldLeft newLeft := by
  induction blocks generalizing cursor builder previousOldEnd previousNewEnd with
  | nil => exact ⟨_, rfl, stands⟩
  | cons block rest inductionHypothesis =>
    rw [List.flatMap_cons, List.flatMap_cons, List.append_assoc, List.append_assoc] at stands
    obtain ⟨after, first, later, count⟩ := stands.block bounded oldBehind newBehind
    obtain ⟨applied, all, done⟩ := inductionHypothesis later (Nat.le_refl _) (Nat.le_of_eq count.symm)
    refine ⟨applied, ?_, done⟩
    rw [hunksOf, applyHunks, first]
    rw [count] at all
    exact all

end Passing

section Completeness

variable {source target path : Text} {script : Script DiffLine} {style : Rendering}

/-- The hunks of a valid script turn the source into the target. -/
theorem apply_resolved_rendered (lf : IsLf source) (valid : Valid script source target)
    (size : byteLen target ≤ maxPatchBytes) (lines : (linesOf source).length ≤ usizeMax) :
    applyResolvedHunks (splitSourceLines source) (hunksOf 0 0 script.blocks) = .ok target := by
  have bounded : Bounded script.old script.new := by
    constructor
    · intro before line after split
      exact ended_before (valid.new.symm.trans split)
    · rw [valid.new, text_of_lines]
      exact size
    · rw [valid.old]
      exact lines
  have start : Stands script.old script.new 0 {}
      (script.blocks.flatMap Block.old ++ script.tail)
      (script.blocks.flatMap Block.new ++ script.tail) := by
    constructor
    · exact ⟨[], rfl, rfl⟩
    · refine ⟨[], rfl, rfl, rfl, ?_⟩
      intro stopped
      cases stopped
  obtain ⟨applied, hunks, reached⟩ := start.blocks bounded (Nat.le_refl _) (Nat.le_refl _)
  have tail : Stands script.old script.new applied.sourceCursor applied.builder
      (script.tail ++ []) (script.tail ++ []) := by
    rw [List.append_nil]
    exact reached
  obtain ⟨after, copied, done⟩ := tail.copies bounded
  have position := reached.cursor_eq
  have rounds : (script.old.map toSource).length - applied.sourceCursor = script.tail.length := by
    rw [List.length_map]
    omega
  have stop : applied.sourceCursor + script.tail.length = (script.old.map toSource).length := by
    rw [List.length_map]
    exact position
  have text : after.value = target := by
    obtain ⟨before, split, built⟩ := done.built
    rw [List.append_nil] at split
    rw [built.value, ← split, valid.new, text_of_lines]
  rw [split_source_lf lf, ← valid.old, applyResolvedHunks, preferred_lf, hunks]
  simp only [bind, Except.bind, rounds, copied, stop, ne_eq, not_true_eq_false, if_false, text]

/-- A text has at most one line more than it has bytes. -/
theorem lines_le_bytes (text : Text) : (linesOf text).length ≤ byteLen text + 1 := by
  rcases (linesOf text).eq_nil_or_concat with empty | ⟨before, last, split⟩
  · rw [empty]
    exact Nat.zero_le _
  · rw [List.concat_eq_append] at split
    have ended := ended_before split
    have counted := length_le_bytes ended
    have whole := congrArg byteLen (text_of_lines text)
    rw [split, text_of_append, Text.byte_len_append] at whole
    rw [split, List.length_append, List.length_singleton]
    omega

/-- The edited lines of a valid script survive their transport. -/
theorem valid_carried (lfSource : IsLf source) (lfTarget : IsLf target)
    (valid : Valid script source target) : BlocksCarried script.blocks := by
  intro block present edit member
  rcases Script.item_mem present member with onOld | onNew
  · exact line_carried lfSource (valid.old ▸ onOld)
  · exact line_carried lfTarget (valid.new ▸ onNew)

/-- No rendering starts with a Codex envelope. -/
theorem not_codex (plain : style.headers = true → HeaderPath path)
    (carried : BlocksCarried script.blocks) (changed : script.blocks ≠ []) :
    ∃ first, (splitInclusive (render style path script)).head? = some first ∧
      stripTransportEnding first ≠ codexBeginPatch := by
  obtain ⟨block, rest, blocks⟩ := List.exists_cons_of_ne_nil changed
  have left : splitInclusive (render style path script) =
      transported (if style.headers then fileHeaders path else []) ++
        firstHeader style.spelled block :: afterHeader style.spelled block rest :=
    left_rendered plain carried blocks
  rw [left]
  cases headers : style.headers with
  | false =>
    refine ⟨firstHeader style.spelled block, rfl, ?_⟩
    obtain ⟨text, header, headerCarried⟩ := first_header_text style.spelled block
    rw [header, strip_ended headerCarried]
    intro same
    cases (List.cons.inj same).1
  | true =>
    refine ⟨"--- a/".toList ++ path ++ ['\n'], rfl, ?_⟩
    rw [strip_ended (header_line_carried (plain headers) ⟨by decide, by decide⟩)]
    intro same
    cases (List.cons.inj same).1

/-- `isize::MAX`, which no string of the program exceeds. -/
def isizeMax : Nat := 2 ^ 63 - 1

/-- Every rendering of a valid script with at least one hunk, with or without file
headers and with counts of one written or left out, is accepted by the parser, and
applying it to the source gives the target, as long as the target is within the
bound on results. -/
theorem rendered_script_applies
    (resolveCodex : Text → Text → List SourceLine → Except ToolError (List ResolvedHunk))
    (style : Rendering) (path source target : Text) (script : Script DiffLine)
    (lfSource : IsLf source) (lfTarget : IsLf target) (valid : Valid script source target)
    (changed : script.blocks ≠ []) (plain : style.headers = true → HeaderPath path)
    (sourceFits : byteLen source ≤ isizeMax) (targetFits : byteLen target ≤ maxPatchBytes) :
    (∃ hunks, parseUnifiedPatch path (render style path script) = .ok hunks) ∧
      applySingleFilePatch resolveCodex path source (render style path script) = .ok target := by
  have carried := valid_carried lfSource lfTarget valid
  have small : isizeMax + 1 < usizeMax ∧ maxPatchBytes + 1 < usizeMax := by decide
  have sourceLines := lines_le_bytes source
  have targetLines := lines_le_bytes target
  have parsed : parseUnifiedPatch path (render style path script) =
      .ok (hunksOf 0 0 script.blocks) := by
    apply parse_unified_rendered plain carried changed valid.edited
    · rw [valid.old]
      omega
    · rw [valid.new]
      omega
  have applied := apply_resolved_rendered lfSource valid targetFits (by omega)
  obtain ⟨first, head, unified⟩ := not_codex plain carried changed
  refine ⟨⟨_, parsed⟩, ?_⟩
  rw [applySingleFilePatch, head]
  simp only [required, bind, Except.bind, if_neg unified, parsed, applied]

/-- The last of two lines is replaced and gets a line feed. -/
theorem replaced_last_line_applies :
    let source := ['a', '\n', 'b']
    let target := ['a', '\n', 'c', '\n']
    let script : Script DiffLine := {
      blocks := [⟨[⟨['a'], true⟩], [.remove ⟨['b'], false⟩, .insert ⟨['c'], true⟩]⟩]
      tail := [] }
    Valid script source target ∧
      applySingleFilePatch (fun _ _ _ => .error .internal) ['f'] source
        (render ⟨true, false⟩ ['f'] script) = .ok target := by
  intro source target script
  have valid : Valid script source target := by
    constructor
    · decide
    · decide
    · decide
  have plain : HeaderPath ['f'] := by
    constructor
    · exact ⟨by decide, by decide⟩
    · decide
    · decide
    · decide
    · decide
    · decide
  exact ⟨valid, (rendered_script_applies _ ⟨true, false⟩ ['f'] source target script (by decide)
    (by decide) valid (by decide) (fun _ => plain) (by decide) (by decide)).2⟩

/-- The only line of a text that is inserted into an empty source. -/
def inserted (text : Text) : Script DiffLine :=
  { blocks := [⟨[], [.insert ⟨text, false⟩]⟩], tail := [] }

theorem inserted_valid {text : Text} (free : '\n' ∉ text) (some : text ≠ []) :
    Valid (inserted text) [] text := by
  constructor
  · rfl
  · rw [linesOf, Lines.split_tail free, if_neg some]
    rfl
  · simp [inserted]

/-- A result beyond the bound is refused. -/
theorem inserted_refused {text : Text} (large : maxPatchBytes < byteLen text)
    (fits : byteLen text ≤ usizeMax) :
    applyResolvedHunks (splitSourceLines []) (hunksOf 0 0 (inserted text).blocks) =
      .error .invalidInvocation := by
  have refused : ({} : ResultBuilder).append text .none = .error .invalidInvocation := by
    have bytes : byteLen LineEnding.none.asStr = 0 := rfl
    have start : byteLen ({} : ResultBuilder).value = 0 := rfl
    simp only [ResultBuilder.append, Bool.false_eq_true, if_false, bytes, start, bind,
      Except.bind, add_ok (show byteLen text + 0 ≤ usizeMax from fits),
      add_ok (show 0 + byteLen text ≤ usizeMax by omega), Nat.zero_add, Nat.add_zero,
      if_pos large]
  have hunk : applyHunks [] .lf {} (hunksOf 0 0 (inserted text).blocks) =
      .error .invalidInvocation := by
    simp [applyHunks, applyHunk, hunksOf, inserted, rangeAt, appendSourceLines,
      applyPatchContents, applyPatchContent, contentOf, refused, bind, Except.bind]
  exact congrArg (fun result => result >>= _) hunk

/-- The rendering that inserts a text beyond the bound is refused. -/
theorem inserted_not_applied {text : Text} (lineCarried : Carried text)
    (large : maxPatchBytes < byteLen text) (fits : byteLen text ≤ usizeMax) :
    applySingleFilePatch (fun _ _ _ => .error .internal) ['f'] []
      (render ⟨false, false⟩ ['f'] (inserted text)) = .error .invalidInvocation := by
  have carried : BlocksCarried (inserted text).blocks := by
    intro block present edit member
    rw [List.mem_singleton.mp present] at member
    rw [List.mem_singleton.mp member]
    exact lineCarried
  have changed : (inserted text).blocks ≠ [] := List.cons_ne_nil _ _
  have edited : ∀ block ∈ (inserted text).blocks, block.edits ≠ [] := by
    simp [inserted]
  have parsed : parseUnifiedPatch ['f'] (render ⟨false, false⟩ ['f'] (inserted text)) =
      .ok (hunksOf 0 0 (inserted text).blocks) :=
    parse_unified_rendered (fun headed => nomatch headed) carried changed edited
      (show 0 < usizeMax by decide) (show 1 < usizeMax by decide)
  have refused := inserted_refused large fits
  obtain ⟨first, head, unified⟩ :
      ∃ first, (splitInclusive (render ⟨false, false⟩ ['f'] (inserted text))).head? = some first ∧
        stripTransportEnding first ≠ codexBeginPatch :=
    not_codex (fun headed => nomatch headed) carried changed
  rw [applySingleFilePatch, head]
  simp only [required, bind, Except.bind, if_neg unified, parsed, refused]

/-- A text of one line with one byte more than the bound. -/
def largeTarget : Text := List.replicate (maxPatchBytes + 1) 'a'

theorem large_target_carried : Carried largeTarget := by
  constructor
  · intro member
    cases List.eq_of_mem_replicate member
  · intro last
    cases List.eq_of_mem_replicate (List.mem_of_getLast? last)

theorem large_target_bytes : byteLen largeTarget = maxPatchBytes + 1 := by
  have each : ('a').utf8Size = 1 := rfl
  simp [largeTarget, Text.byteLen, each]

/-- A script without hunks renders as an empty patch, which is refused, and so is a
target of one byte more than the bound. -/
theorem empty_patch_and_large_target_refused :
    (IsLf [] ∧ Valid ⟨[], []⟩ [] [] ∧
      applySingleFilePatch (fun _ _ _ => .error .internal) ['f'] []
        (render ⟨false, false⟩ ['f'] ⟨[], []⟩) ≠ .ok []) ∧
    (IsLf largeTarget ∧ Valid (inserted largeTarget) [] largeTarget ∧
      applySingleFilePatch (fun _ _ _ => .error .internal) ['f'] []
        (render ⟨false, false⟩ ['f'] (inserted largeTarget)) ≠ .ok largeTarget) := by
  have some : largeTarget ≠ [] := by
    simp [largeTarget]
  have valid := inserted_valid large_target_carried.1 some
  refine ⟨⟨by decide, ?_, by decide⟩, ?_, valid, ?_⟩
  · constructor
    · rfl
    · rfl
    · simp
  · intro line member
    rw [← valid.new] at member
    rw [List.mem_singleton.mp member]
    exact large_target_carried.2
  · have bound : maxPatchBytes + 1 ≤ usizeMax := by decide
    rw [inserted_not_applied large_target_carried (by rw [large_target_bytes]; omega)
      (by rw [large_target_bytes]; omega)]
    intro same
    cases same

end Completeness

end MinicoreAgent.Patches

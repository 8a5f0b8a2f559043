import MinicoreAgent.DiffPlan

/-!
# The planned hunks rebuild the second text

The lines of a text are its stretches up to and with a line feed, a return, or both
together. A plan is read as a script between the lines of the two texts: its hunks
are the blocks of the script at their stated positions, and every planned line
shows the edit at its position with the bytes of its line. What stands outside the
hunks is common to both texts.
-/
namespace MinicoreAgent.Diffs

open EditScripts
open EditOps (Op slice Walk Chain Stretch Fits)

section TextLines

/-- Neither a line feed nor a return stands in these bytes. -/
def Plain (body : Bytes) : Prop := ∀ byte ∈ body, byte ≠ 0x0a ∧ byte ≠ 0x0d

theorem plain_nil : Plain [] := fun _ member => nomatch member

/-- The lines of a text. A line feed directly after a return belongs to its line, and
what follows the last line ending is a line unless it is empty. -/
inductive LineSplit : List Bytes → Bytes → Prop
  | nil : LineSplit [] []
  | last {body : Bytes} (plain : Plain body) (some : body ≠ []) : LineSplit [body] body
  | line {body ending rest : Bytes} {lines : List Bytes} (plain : Plain body)
      (ended : ending ∈ [[0x0a], [0x0d], [0x0d, 0x0a]])
      (whole : ending = [0x0d] → rest.head? ≠ some 0x0a) (later : LineSplit lines rest) :
      LineSplit ((body ++ ending) :: lines) (body ++ ending ++ rest)

theorem LineSplit.flatten {lines : List Bytes} {text : Bytes} (split : LineSplit lines text) :
    lines.flatten = text := by
  induction split with
  | nil => rfl
  | last plain some => simp
  | line plain ended whole later inductionHypothesis => simp [inductionHypothesis]

/-- A byte that ends no line is put before the first line. -/
theorem LineSplit.cons {lines : List Bytes} {text : Bytes} {byte : UInt8}
    (split : LineSplit lines text) (plain : byte ≠ 0x0a ∧ byte ≠ 0x0d) :
    ∃ more, LineSplit more (byte :: text) := by
  have extended {body : Bytes} (clean : Plain body) : Plain (byte :: body) := by
    intro other member
    rcases List.mem_cons.mp member with rfl | inside
    · exact plain
    · exact clean other inside
  cases split with
  | nil => exact ⟨_, .last (extended (by simp [Plain])) (by simp)⟩
  | last clean some => exact ⟨_, .last (extended clean) (by simp)⟩
  | line clean ended whole later => exact ⟨_, .line (extended clean) ended whole later⟩

/-- Every text has its lines. -/
theorem line_split_total (text : Bytes) : ∃ lines, LineSplit lines text := by
  induction length : text.length using Nat.strongRecOn generalizing text with
  | ind size inductionHypothesis =>
    cases text with
    | nil => exact ⟨[], .nil⟩
    | cons byte rest =>
      have shorter : rest.length < size := by simp at length; omega
      obtain ⟨lines, split⟩ := inductionHypothesis _ shorter rest rfl
      by_cases feed : byte = 0x0a
      · subst feed
        exact ⟨_, .line plain_nil (.head _) (by simp) split⟩
      · by_cases back : byte = 0x0d
        · subst back
          cases rest with
          | nil =>
            exact ⟨_, .line plain_nil (.tail _ (.head _)) (by simp) .nil⟩
          | cons second rest =>
            by_cases pair : second = 0x0a
            · subst pair
              obtain ⟨others, further⟩ := inductionHypothesis rest.length
                (by simp at length; omega) rest rfl
              exact ⟨_, .line plain_nil (.tail _ (.tail _ (.head _)))
                (by simp) further⟩
            · exact ⟨_, .line plain_nil (.tail _ (.head _))
                (by simpa using pair) split⟩
        · exact split.cons ⟨feed, back⟩

/-- The starts and lengths of some lines that follow one another. -/
def tableFrom : Nat → List Bytes → List (Nat × Nat)
  | _, [] => []
  | start, line :: rest => (start, line.length) :: tableFrom (start + line.length) rest

@[simp] theorem table_length (start : Nat) (lines : List Bytes) :
    (tableFrom start lines).length = lines.length := by
  induction lines generalizing start with
  | nil => rfl
  | cons line rest inductionHypothesis => simp [tableFrom, inductionHypothesis]

theorem scan_plain (limit : Nat) {body : Bytes} (plain : Plain body) (rest : Bytes)
    (start index : Nat) (lines : List (Nat × Nat)) :
    splitLinesLoop limit (body ++ rest) start index lines =
      splitLinesLoop limit rest start (index + body.length) lines := by
  induction body generalizing index with
  | nil => rfl
  | cons byte body inductionHypothesis =>
    obtain ⟨noFeed, noReturn⟩ := plain byte (by simp)
    have later := inductionHypothesis (fun other member => plain other (by simp [member]))
      (index + 1)
    rw [List.cons_append, splitLinesLoop.eq_def]
    simp only [if_neg noFeed, if_neg noReturn, later, List.length_cons]
    congr 1
    omega

/-- A line ending closes the line that started, and the scan goes on unless there are
more lines than the limit. -/
theorem scan_ending (limit : Nat) {ending rest : Bytes}
    (ended : ending ∈ [[0x0a], [0x0d], [0x0d, 0x0a]])
    (whole : ending = [0x0d] → rest.head? ≠ some 0x0a) (start index : Nat)
    (lines : List (Nat × Nat)) :
    splitLinesLoop limit (ending ++ rest) start index lines =
      if limit < lines.length + 1 then lines ++ [(start, index + ending.length - start)]
      else splitLinesLoop limit rest (index + ending.length) (index + ending.length)
        (lines ++ [(start, index + ending.length - start)]) := by
  simp only [List.mem_cons, List.not_mem_nil, or_false] at ended
  rcases ended with rfl | rfl | rfl
  · rw [List.cons_append, splitLinesLoop.eq_def]
    simp
  · cases rest with
    | nil =>
      rw [List.cons_append, splitLinesLoop.eq_def]
      simp
    | cons second others =>
      have apart : second ≠ 0x0a := by simpa using whole rfl
      rw [List.cons_append, splitLinesLoop.eq_def]
      simp only [List.nil_append]
      rw [if_neg (by decide), if_pos trivial]
      split
      · rename_i same
        exact absurd (List.cons.inj same).1 apart
      · simp
  · rw [List.cons_append, splitLinesLoop.eq_def]
    simp

/-- The scan finds the lines of a text that are within the limit. -/
theorem split_loop_lines {lines : List Bytes} {text : Bytes} (split : LineSplit lines text)
    (limit start : Nat) (found : List (Nat × Nat)) (fits : found.length + lines.length ≤ limit) :
    splitLinesLoop limit text start start found = found ++ tableFrom start lines := by
  induction split generalizing start found with
  | nil => simp [splitLinesLoop, tableFrom]
  | @last body plain some =>
    have positive : 0 < body.length := List.length_pos_iff.mpr some
    have scanned := scan_plain limit plain [] start start found
    rw [List.append_nil] at scanned
    rw [scanned, splitLinesLoop, if_pos (by omega), tableFrom, tableFrom, Nat.add_sub_cancel_left]
  | @line body ending rest lines plain ended whole later inductionHypothesis =>
    rw [List.length_cons] at fits
    rw [List.append_assoc, scan_plain limit plain, scan_ending limit ended whole start _ found,
      if_neg (by omega), inductionHypothesis _ _ (by rw [List.length_append, List.length_singleton]; omega)]
    simp only [tableFrom, List.length_append, List.append_assoc, List.singleton_append]
    congr 3
    · omega
    · omega

theorem split_lines_spec {lines : List Bytes} {text : Bytes} (split : LineSplit lines text)
    (limit : Nat) (fits : lines.length ≤ limit) :
    splitLines text limit = (tableFrom 0 lines, lines.length) := by
  have found := split_loop_lines split limit 0 [] (by simpa using fits)
  rw [splitLines, found, List.nil_append, table_length]

/-- The table of the lines gives back the lines. -/
theorem tokens_table (before : Bytes) (lines : List Bytes) :
    tokens (before ++ lines.flatten) (tableFrom before.length lines) = lines := by
  induction lines generalizing before with
  | nil => rfl
  | cons line rest inductionHypothesis =>
    have later := inductionHypothesis (before ++ line)
    rw [List.length_append, List.append_assoc] at later
    rw [tableFrom, List.flatten_cons, tokens, List.map_cons]
    congr 1
    simp [slice]

theorem LineSplit.tokens_eq {lines : List Bytes} {text : Bytes} (split : LineSplit lines text) :
    tokens text (tableFrom 0 lines) = lines := by
  have whole := tokens_table [] lines
  rw [List.nil_append, split.flatten] at whole
  exact whole

end TextLines

section Operations

variable {old new : List Bytes}

theorem common_start_spec (old new : List Bytes) :
    commonPrefixLen old new ≤ old.length ∧ commonPrefixLen old new ≤ new.length ∧
      old.take (commonPrefixLen old new) = new.take (commonPrefixLen old new) := by
  induction old generalizing new with
  | nil => simp [commonPrefixLen]
  | cons first rest inductionHypothesis =>
    cases new with
    | nil => simp [commonPrefixLen]
    | cons second others =>
      by_cases same : first = second
      · have counted : commonPrefixLen (first :: rest) (second :: others) =
            commonPrefixLen rest others + 1 := by
          simp [commonPrefixLen, same]
        obtain ⟨oldInside, newInside, equal⟩ := inductionHypothesis others
        rw [counted, List.take_succ_cons, List.take_succ_cons, same, equal]
        exact ⟨Nat.succ_le_succ oldInside, Nat.succ_le_succ newInside, rfl⟩
      · have counted : commonPrefixLen (first :: rest) (second :: others) = 0 := by
          simp [commonPrefixLen, same]
        simp [counted]

/-- Equal beginnings of two reversed sequences are equal ends. -/
theorem ends_equal {start count : Nat} (oldInside : start + count ≤ old.length)
    (newInside : start + count ≤ new.length)
    (same : (old.drop start).reverse.take count = (new.drop start).reverse.take count) :
    Stretch old new (old.length - count) (new.length - count) count := by
  have reversed : ∀ items : List Bytes, start + count ≤ items.length →
      (items.drop start).reverse.take count = (items.drop (items.length - count)).reverse := by
    intro items inside
    rw [List.take_reverse, List.drop_drop, List.length_drop]
    congr 2
    omega
  rw [reversed old oldInside, reversed new newInside, List.reverse_inj] at same
  refine ⟨by omega, by omega, ?_⟩
  rw [EditOps.slice_rest (by omega), EditOps.slice_rest (by omega)]
  exact same

/-- The operations lead from all lines of one side to all lines of the other. -/
theorem diff_ops_walk {similar : Similar} (lawful : similar.Lawful) (old new : List Bytes) :
    Walk old new 0 0 (diffOps similar old new).1 old.length new.length := by
  obtain ⟨oldStart, newStart, startSame⟩ := common_start_spec old new
  obtain ⟨oldStop, newStop, stopSame⟩ := common_start_spec
    (old.drop (commonPrefixLen old new)).reverse (new.drop (commonPrefixLen old new)).reverse
  rw [List.length_reverse, List.length_drop] at oldStop newStop
  have first : Stretch old new 0 0 (commonPrefixLen old new) :=
    ⟨by omega, by omega, startSame⟩
  rw [diffOps]
  generalize commonPrefixLen old new = start at *
  generalize commonPrefixLen (old.drop start).reverse (new.drop start).reverse = count at *
  have last : Stretch old new (old.length - count) (new.length - count) count :=
    ends_equal (by omega) (by omega) stopSame
  have opening : Walk old new 0 0 (if 0 < start then [.equal 0 0 start] else []) start start := by
    split
    · have walk := first.walk
      rw [Nat.zero_add] at walk
      exact walk
    · have none : start = 0 := by omega
      rw [none]
      exact .nil
  have middle : Walk old new start start
      (if maxMyersLines < old.length - count - start + (new.length - count) - start then
        [.replace start (old.length - count - start) start (new.length - count - start)]
      else similar.captureDiff old start (old.length - count) new start (new.length - count))
      (old.length - count) (new.length - count) := by
    split
    · have oldEnd : start + (old.length - count - start) = old.length - count := by omega
      have newEnd : start + (new.length - count - start) = new.length - count := by omega
      have fits : Fits old new start start
          (.replace start (old.length - count - start) start (new.length - count - start)) := by
        refine ⟨rfl, rfl, ?_, ?_, ?_⟩
        · rw [Op.oldLen]
          omega
        · rw [Op.newLen]
          omega
        · intro equal
          cases equal
      have walk := Walk.cons fits .nil
      rw [Op.oldLen, Op.newLen, oldEnd, newEnd] at walk
      exact walk
    · exact lawful.capture old start _ new start _ (by omega) (by omega) (by omega) (by omega)
  have closing : Walk old new (old.length - count) (new.length - count)
      (if 0 < count then [.equal (old.length - count) (new.length - count) count] else [])
      old.length new.length := by
    split
    · have walk := last.walk
      rw [Nat.sub_add_cancel (by omega), Nat.sub_add_cancel (by omega)] at walk
      exact walk
    · have none : count = 0 := by omega
      rw [none]
      exact .nil
  exact (opening.append middle).append closing

end Operations

section Hunks

/-- What the crate says about an edit at its positions. -/
def changeAt : Nat × Nat × Edit Bytes → Change
  | (oldIndex, newIndex, .keep _) => ⟨.equal, some oldIndex, some newIndex⟩
  | (oldIndex, _, .remove _) => ⟨.delete, some oldIndex, none⟩
  | (_, newIndex, .insert _) => ⟨.insert, none, some newIndex⟩

/-- The changes of edits of one kind: the positions advance by the same amounts. -/
theorem changes_of_kind (build : Bytes → Edit Bytes) (change : Nat → Nat → Change)
    (oldStep newStep : Nat)
    (steps : ∀ line, (build line).old.length = oldStep ∧ (build line).new.length = newStep)
    (changes : ∀ oldIndex newIndex line,
      changeAt (oldIndex, newIndex, build line) = change oldIndex newIndex)
    (lines : List Bytes) (oldIndex newIndex : Nat) :
    (placed oldIndex newIndex (lines.map build)).map changeAt =
      (List.range lines.length).map
        (fun line => change (oldIndex + oldStep * line) (newIndex + newStep * line)) := by
  induction lines generalizing oldIndex newIndex with
  | nil => rfl
  | cons line rest inductionHypothesis =>
    obtain ⟨oldStep_eq, newStep_eq⟩ := steps line
    rw [List.map_cons, placed, List.map_cons, inductionHypothesis, changes, List.length_cons,
      List.range_succ_eq_map, List.map_cons, List.map_map, oldStep_eq, newStep_eq]
    congr 1
    apply List.map_congr_left
    intro index _
    simp only [Function.comp_apply, Nat.mul_succ]
    congr 1
    · omega
    · omega

variable {old new : List Bytes} {oldIndex newIndex oldEnd newEnd : Nat}

theorem changes_of_op {op : Op} (fits : Fits old new oldIndex newIndex op) :
    iterChanges op = (placed oldIndex newIndex (op.edits old new)).map changeAt := by
  have oldInside := fits.oldInside
  have newInside := fits.newInside
  rw [← fits.oldStart] at oldInside ⊢
  rw [← fits.newStart] at newInside ⊢
  have kept := changes_of_kind .keep (fun first second => ⟨.equal, some first, some second⟩)
    1 1 (fun _ => ⟨rfl, rfl⟩) (fun _ _ _ => rfl)
  have removed := changes_of_kind .remove (fun first _ => ⟨.delete, some first, none⟩) 1 0
    (fun _ => ⟨rfl, rfl⟩) (fun _ _ _ => rfl)
  have inserted := changes_of_kind .insert (fun _ second => ⟨.insert, none, some second⟩) 0 1
    (fun _ => ⟨rfl, rfl⟩) (fun _ _ _ => rfl)
  cases op with
  | equal first second len =>
    have length : (slice old first len).length = len := EditOps.slice_length oldInside
    rw [Op.edits, kept, length]
    simp [iterChanges, Op.oldStart, Op.newStart]
  | delete first len second =>
    have length : (slice old first len).length = len := EditOps.slice_length oldInside
    rw [Op.edits, removed, length]
    simp [iterChanges, Op.oldStart]
  | insert first second len =>
    have length : (slice new second len).length = len := EditOps.slice_length newInside
    rw [Op.edits, inserted, length]
    simp [iterChanges, Op.newStart]
  | replace first len second newLen =>
    have oldLength : (slice old first len).length = len := EditOps.slice_length oldInside
    have newLength : (slice new second newLen).length = newLen := EditOps.slice_length newInside
    rw [Op.edits, placed_append, List.map_append, removed, inserted, oldLength, newLength]
    simp [iterChanges, Op.oldStart, Op.newStart, EditOps.new_side_map, Edit.new]

/-- The changes of a group are its edits at their positions. -/
theorem changes_of_walk {group : List Op}
    (walk : Walk old new oldIndex newIndex group oldEnd newEnd) :
    group.flatMap iterChanges =
      (placed oldIndex newIndex (group.flatMap (Op.edits old new))).map changeAt := by
  induction walk with
  | nil => rfl
  | cons fits later inductionHypothesis =>
    rw [List.flatMap_cons, List.flatMap_cons, placed_append, List.map_append,
      changes_of_op fits, inductionHypothesis, fits.old_side, fits.new_side,
      EditOps.slice_length fits.oldInside, EditOps.slice_length fits.newInside]

/-- A walk spans the ranges between its ends. -/
theorem span_of_walk {group : List Op}
    (walk : Walk old new oldIndex newIndex group oldEnd newEnd) (some : group ≠ [])
    (oldBound : oldIndex ≤ usizeMax) (newBound : newIndex ≤ usizeMax) :
    span (group.map oldRange) = (oldIndex, oldEnd) ∧
      span (group.map newRange) = (newIndex, newEnd) := by
  -- Once a range was seen, the start stays and the end is that of the last range.
  have further {oldStart newStart oldFrom newFrom oldStop newStop : Nat} {rest : List Op}
      (later : Walk old new oldFrom newFrom rest oldStop newStop) (oldLow : oldStart ≤ oldFrom)
      (newLow : newStart ≤ newFrom) :
      (rest.map oldRange).foldl
          (fun found range => (min found.1 range.1, max found.2 range.2)) (oldStart, oldFrom) =
        (oldStart, oldStop) ∧
      (rest.map newRange).foldl
          (fun found range => (min found.1 range.1, max found.2 range.2)) (newStart, newFrom) =
        (newStart, newStop) := by
    induction later with
    | nil => exact ⟨rfl, rfl⟩
    | cons fits _ inductionHypothesis =>
      have next := inductionHypothesis (by omega) (by omega)
      rw [List.map_cons, List.foldl_cons, List.map_cons, List.foldl_cons, oldRange, newRange,
        fits.oldStart, fits.newStart]
      simpa only [Nat.min_eq_left oldLow, Nat.min_eq_left newLow,
        Nat.max_eq_right (Nat.le_add_right _ _)] using next
  cases walk with
  | nil => exact absurd rfl some
  | cons fits later =>
    have next := further later (Nat.le_add_right _ _) (Nat.le_add_right _ _)
    rw [span, span, List.map_cons, List.foldl_cons, List.map_cons, List.foldl_cons, oldRange,
      newRange, fits.oldStart, fits.newStart]
    simpa only [Nat.min_eq_right oldBound, Nat.min_eq_right newBound, Nat.zero_max] using next

end Hunks

section Shown

variable {before after : Bytes} {old new : List Bytes}

/-- The bytes a planned line names. -/
def lineText (before after : Bytes) (line : LinePlan) : Bytes :=
  match line.source with
  | .before => slice before line.byteStart line.byteLen
  | .after => slice after line.byteStart line.byteLen

/-- A planned line shows an edit at its positions: a context line stands in both texts,
a removed line in the first and an added line in the second. -/
def LineShows (before after : Bytes) (line : LinePlan) : Nat × Nat × Edit Bytes → Prop
  | (oldIndex, newIndex, .keep text) =>
    line.kind = .context ∧ line.oldIndex = some oldIndex ∧ line.newIndex = some newIndex ∧
      lineText before after line = text
  | (oldIndex, _, .remove text) =>
    line.kind = .removed ∧ line.oldIndex = some oldIndex ∧ line.newIndex = none ∧
      lineText before after line = text
  | (_, newIndex, .insert text) =>
    line.kind = .added ∧ line.oldIndex = none ∧ line.newIndex = some newIndex ∧
      lineText before after line = text

/-- A hunk shows some edits from two positions on. -/
structure HunkShows (before after : Bytes) (oldIndex newIndex : Nat) (hunk : HunkPlan)
    (edits : List (Edit Bytes)) : Prop where
  oldStart : hunk.oldStart = oldIndex
  oldCount : hunk.oldCount = (oldSide edits).length
  newStart : hunk.newStart = newIndex
  newCount : hunk.newCount = (newSide edits).length
  edited : edits ≠ []
  lines : List.Forall₂ (LineShows before after) hunk.lines (placed oldIndex newIndex edits)

/-- The hunks show the blocks of a script, from two positions on. -/
inductive HunksShow (before after : Bytes) :
    Nat → Nat → List HunkPlan → List (Block Bytes) → Prop
  | nil {oldIndex newIndex : Nat} : HunksShow before after oldIndex newIndex [] []
  | cons {oldIndex newIndex : Nat} {hunk : HunkPlan} {block : Block Bytes}
      {hunks : List HunkPlan} {blocks : List (Block Bytes)}
      (shows : HunkShows before after (oldIndex + block.gap.length)
        (newIndex + block.gap.length) hunk block.edits)
      (later : HunksShow before after (oldIndex + block.old.length)
        (newIndex + block.new.length) hunks blocks) :
      HunksShow before after oldIndex newIndex (hunk :: hunks) (block :: blocks)

/-- The tables of both texts give their lines. -/
structure Tables (before after : Bytes) (old new : List Bytes)
    (beforeLines afterLines : List (Nat × Nat)) : Prop where
  before : tokens before beforeLines = old
  after : tokens after afterLines = new

theorem table_entry {text : Bytes} {lines : List (Nat × Nat)} {index : Nat} {line : Bytes}
    (found : (tokens text lines)[index]? = some line) :
    ∃ start len, lines[index]? = some (start, len) ∧ slice text start len = line := by
  rw [tokens, List.getElem?_map, Option.map_eq_some_iff] at found
  obtain ⟨⟨start, len⟩, entry, same⟩ := found
  exact ⟨start, len, entry, same⟩

/-- A line is planned for an edit that finds its items. -/
theorem line_plan_shows {beforeLines afterLines : List (Nat × Nat)}
    (tables : Tables before after old new beforeLines afterLines)
    {place : Nat × Nat × Edit Bytes}
    (oldItem : ∀ item ∈ place.2.2.old, old[place.1]? = some item)
    (newItem : ∀ item ∈ place.2.2.new, new[place.2.1]? = some item) :
    ∃ line, linePlan beforeLines afterLines (changeAt place) = some line ∧
      LineShows before after line place := by
  obtain ⟨oldIndex, newIndex, edit⟩ := place
  rw [← tables.before] at oldItem
  rw [← tables.after] at newItem
  cases edit with
  | keep text =>
    obtain ⟨start, len, entry, same⟩ := table_entry (newItem text (.head _))
    refine ⟨⟨.context, some oldIndex, some newIndex, .after, start, len⟩, ?_, rfl, rfl, rfl, same⟩
    simp only at entry
    simp [linePlan, changeAt, entry]
  | remove text =>
    obtain ⟨start, len, entry, same⟩ := table_entry (oldItem text (.head _))
    refine ⟨⟨.removed, some oldIndex, none, .before, start, len⟩, ?_, rfl, rfl, rfl, same⟩
    simp only at entry
    simp [linePlan, changeAt, entry]
  | insert text =>
    obtain ⟨start, len, entry, same⟩ := table_entry (newItem text (.head _))
    refine ⟨⟨.added, none, some newIndex, .after, start, len⟩, ?_, rfl, rfl, rfl, same⟩
    simp only at entry
    simp [linePlan, changeAt, entry]

theorem map_m_shows {Source Result : Type} {step : Source → Option Result}
    {Shows : Result → Source → Prop} {sources : List Source}
    (each : ∀ source ∈ sources, ∃ result, step source = some result ∧ Shows result source) :
    ∃ results, sources.mapM step = some results ∧ List.Forall₂ Shows results sources := by
  induction sources with
  | nil => exact ⟨[], rfl, .nil⟩
  | cons source rest inductionHypothesis =>
    obtain ⟨result, found, shows⟩ := each source (by simp)
    obtain ⟨results, all, later⟩ :=
      inductionHypothesis (fun other member => each other (by simp [member]))
    refine ⟨result :: results, ?_, .cons shows later⟩
    simp [List.mapM_cons, found, all]

variable {oldIndex newIndex oldEnd newEnd : Nat} {beforeLines afterLines : List (Nat × Nat)}

/-- The lines of a group are planned and show its edits. -/
theorem group_lines (tables : Tables before after old new beforeLines afterLines)
    {group : List Op} (walk : Walk old new oldIndex newIndex group oldEnd newEnd) :
    ∃ lines, (group.flatMap iterChanges).mapM (linePlan beforeLines afterLines) = some lines ∧
      List.Forall₂ (LineShows before after) lines
        (placed oldIndex newIndex (group.flatMap (Op.edits old new))) := by
  have items := placed_items walk.rest.1 walk.rest.2
  rw [changes_of_walk walk, List.mapM_map]
  apply map_m_shows
  intro place member
  exact line_plan_shows tables (items place member).1 (items place member).2

/-- A group is planned as a hunk that shows its edits, unless it has none. -/
theorem hunk_plan_shows (tables : Tables before after old new beforeLines afterLines)
    {group : List Op} (walk : Walk old new oldIndex newIndex group oldEnd newEnd)
    (oldBound : oldIndex ≤ usizeMax) (newBound : newIndex ≤ usizeMax)
    (oldInside : oldIndex ≤ old.length) (newInside : newIndex ≤ new.length) :
    (group.flatMap (Op.edits old new) = [] ∧
      hunkPlan beforeLines afterLines group = some none) ∨
    ∃ hunk, hunkPlan beforeLines afterLines group = some (some hunk) ∧
      HunkShows before after oldIndex newIndex hunk (group.flatMap (Op.edits old new)) := by
  obtain ⟨lines, mapped, shown⟩ := group_lines tables walk
  have length := shown.length_eq
  rw [placed_length] at length
  by_cases empty : group.flatMap (Op.edits old new) = []
  · left
    rw [empty, List.length_nil, List.length_eq_zero_iff] at length
    refine ⟨empty, ?_⟩
    simp [hunkPlan, mapped, length]
  · right
    have some : group ≠ [] := by
      rintro rfl
      exact empty rfl
    have listed : lines ≠ [] := by
      rintro rfl
      exact empty (List.length_eq_zero_iff.mp length.symm)
    obtain ⟨oldSpan, newSpan⟩ := span_of_walk walk some oldBound newBound
    obtain ⟨oldLength, newLength⟩ := walk.side_lengths oldInside newInside
    refine ⟨{
        oldStart := oldIndex
        oldCount := oldEnd - oldIndex
        newStart := newIndex
        newCount := newEnd - newIndex
        lines }, ?_, rfl, ?_, rfl, ?_, empty, shown⟩
    · simp only [hunkPlan, mapped, oldSpan, newSpan, bind, Option.bind, if_neg listed]
    · exact Nat.sub_eq_of_eq_add' oldLength.symm
    · exact Nat.sub_eq_of_eq_add' newLength.symm

/-- Common lines before the hunks belong to the gap of the first block. -/
theorem HunksShow.prepend {hunks : List HunkPlan} {blocks : List (Block Bytes)}
    {gap oldRest newRest tail : List Bytes}
    (shows : HunksShow before after (oldIndex + gap.length) (newIndex + gap.length) hunks blocks)
    (oldSplit : oldRest = blocks.flatMap Block.old ++ tail)
    (newSplit : newRest = blocks.flatMap Block.new ++ tail) :
    ∃ blocks tail, HunksShow before after oldIndex newIndex hunks blocks ∧
      gap ++ oldRest = blocks.flatMap Block.old ++ tail ∧
      gap ++ newRest = blocks.flatMap Block.new ++ tail := by
  cases shows with
  | nil => exact ⟨[], gap ++ tail, .nil, by simp [oldSplit], by simp [newSplit]⟩
  | @cons _ _ hunk block hunks blocks shown later =>
    refine ⟨⟨gap ++ block.gap, block.edits⟩ :: blocks, tail, .cons ?_ ?_, ?_, ?_⟩
    · rw [List.length_append, ← Nat.add_assoc, ← Nat.add_assoc]
      exact shown
    · simpa only [Block.old, Block.new, List.length_append, Nat.add_assoc] using later
    · simp [oldSplit, Block.old]
    · simp [newSplit, Block.new]

/-- The hunks of grouped walks show a script between what is left of both texts. -/
theorem chain_shows (tables : Tables before after old new beforeLines afterLines)
    {groups : List (List Op)} (chain : Chain old new oldIndex newIndex groups oldEnd newEnd)
    (oldDone : oldEnd = old.length) (newDone : newEnd = new.length)
    (oldBound : old.length ≤ usizeMax) (newBound : new.length ≤ usizeMax) :
    ∃ found blocks tail, groups.mapM (hunkPlan beforeLines afterLines) = some found ∧
      HunksShow before after oldIndex newIndex (found.filterMap id) blocks ∧
      old.drop oldIndex = blocks.flatMap Block.old ++ tail ∧
      new.drop newIndex = blocks.flatMap Block.new ++ tail := by
  induction chain with
  | nil stretch =>
    refine ⟨[], [], _, rfl, .nil, rfl, ?_⟩
    rw [← EditOps.slice_rest oldDone, ← EditOps.slice_rest newDone, stretch.same]
    rfl
  | @cons oldIndex newIndex len oldMiddle newMiddle oldEnd newEnd group groups stretch walk later
      inductionHypothesis =>
    obtain ⟨found, blocks, tail, planned, shown, oldSplit, newSplit⟩ :=
      inductionHypothesis oldDone newDone
    have oldInside := stretch.oldInside
    have newInside := stretch.newInside
    obtain ⟨oldLength, newLength⟩ := walk.side_lengths oldInside newInside
    have length : (slice old oldIndex len).length = len := EditOps.slice_length oldInside
    have oldRest := EditOps.slice_drop old oldIndex len
    have newRest := EditOps.slice_drop new newIndex len
    rw [walk.rest.1] at oldRest
    rw [walk.rest.2, ← stretch.same] at newRest
    rw [← oldRest, ← newRest]
    rcases hunk_plan_shows tables walk (by omega) (by omega) oldInside newInside with
      ⟨empty, skipped⟩ | ⟨hunk, hunkPlanned, shows⟩
    · -- A group without lines leaves its gap to the next block.
      rw [empty] at oldLength newLength
      rw [← oldLength, ← newLength, old_side_nil, new_side_nil, List.length_nil, Nat.add_zero,
        Nat.add_zero, ← length] at shown
      rw [empty, old_side_nil, new_side_nil, List.nil_append, List.nil_append]
      obtain ⟨more, rest, extended, oldWhole, newWhole⟩ := shown.prepend oldSplit newSplit
      refine ⟨none :: found, more, rest, ?_, extended, oldWhole, newWhole⟩
      simp [List.mapM_cons, skipped, planned]
    · refine ⟨some hunk :: found,
        ⟨slice old oldIndex len, group.flatMap (Op.edits old new)⟩ :: blocks, tail, ?_,
        .cons ?_ ?_, ?_, ?_⟩
      · simp [List.mapM_cons, hunkPlanned, planned]
      · rw [length]
        exact shows
      · rw [Block.old, Block.new, List.length_append, List.length_append, length,
          ← Nat.add_assoc, ← Nat.add_assoc, oldLength, newLength]
        exact shown
      · simp [Block.old, oldSplit]
      · simp [Block.new, newSplit]

end Shown

section Rebuilding

/-- Whether the second text has a planned line. -/
def remains (line : LinePlan) : Bool := line.kind != .removed

/-- The second text's lines, rebuilt from the first text's lines and the hunks: lines
outside the hunks are copied, and of each hunk all lines but the removed ones. -/
def rebuild (before after : Bytes) (oldLines : List Bytes) : Nat → List HunkPlan → List Bytes
  | position, [] => oldLines.drop position
  | position, hunk :: rest =>
    slice oldLines position (hunk.oldStart - position) ++
      (hunk.lines.filter remains).map (lineText before after) ++
      rebuild before after oldLines (hunk.oldStart + hunk.oldCount) rest

/-- The hunks of a plan show a script between the lines of the two texts, and copying
and replacing lines as the hunks say rebuilds the second text. -/
structure Rebuilds (before after : Bytes) (oldLines newLines : List Bytes)
    (hunks : List HunkPlan) : Prop where
  script : ∃ script : Script Bytes, script.old = oldLines ∧ script.new = newLines ∧
    HunksShow before after 0 0 hunks script.blocks
  rebuilt : rebuild before after oldLines 0 hunks = newLines

variable {before after : Bytes} {old new tail : List Bytes} {position oldIndex newIndex : Nat}

/-- The lines of a hunk that are not removed are the new side of its edits. -/
theorem shown_new_side {lines : List LinePlan} {edits : List (Edit Bytes)}
    (shown : List.Forall₂ (LineShows before after) lines (placed oldIndex newIndex edits)) :
    (lines.filter remains).map (lineText before after) =
      newSide edits := by
  induction edits generalizing lines oldIndex newIndex with
  | nil => cases shown; rfl
  | cons edit rest inductionHypothesis =>
    cases shown with
    | cons first later =>
      have remaining := inductionHypothesis later
      cases edit with
      | keep text =>
        obtain ⟨kind, -, -, same⟩ := first
        simp [remains, kind, same, remaining, Edit.new]
      | remove text =>
        obtain ⟨kind, -, -, same⟩ := first
        simp [remains, kind, remaining, Edit.new]
      | insert text =>
        obtain ⟨kind, -, -, same⟩ := first
        simp [remains, kind, same, remaining, Edit.new]

theorem rebuild_shown {hunks : List HunkPlan} {blocks : List (Block Bytes)}
    (shown : HunksShow before after position newIndex hunks blocks)
    (left : old.drop position = blocks.flatMap Block.old ++ tail) :
    rebuild before after old position hunks = blocks.flatMap Block.new ++ tail := by
  induction shown with
  | nil => exact left
  | @cons position newIndex hunk block hunks blocks shows later inductionHypothesis =>
    rw [List.flatMap_cons, Block.old, List.append_assoc, List.append_assoc] at left
    have gap : slice old position block.gap.length = block.gap := by
      rw [slice, left, List.take_left']
      rfl
    have behind : old.drop (position + block.old.length) =
        blocks.flatMap Block.old ++ tail := by
      rw [← List.drop_drop, left, Block.old, ← List.append_assoc, List.drop_left']
      rfl
    have stop : position + block.gap.length + (oldSide block.edits).length =
        position + block.old.length := by
      rw [Block.old, List.length_append, Nat.add_assoc]
    rw [rebuild, shows.oldStart, shows.oldCount, Nat.add_sub_cancel_left, gap,
      shown_new_side shows.lines, stop, inductionHypothesis behind]
    simp [Block.new]

/-- Both texts are within the limit on lines, and the plan of their diff is found and
rebuilds the second text. -/
theorem planned_rebuilds {Fingerprint : Type} {similar : Similar} (lawful : similar.Lawful)
    (digest : Bytes → Fingerprint) (oldSplit : LineSplit old before)
    (newSplit : LineSplit new after) (beforeText : before.toByteArray.IsValidUTF8)
    (afterText : after.toByteArray.IsValidUTF8) (beforeClean : 0 ∉ before)
    (afterClean : 0 ∉ after) (fits : old.length + new.length ≤ maxDiffLines)
    (contextLines : Nat) :
    ∃ plan, planned similar digest before after contextLines = .ok (.plan plan) ∧
      plan.truncated = false ∧ Rebuilds before after old new plan.hunks := by
  have utf8 : isUtf8 before = true ∧ isUtf8 after = true :=
    ⟨ByteArray.validateUTF8_eq_true_iff.mpr beforeText,
      ByteArray.validateUTF8_eq_true_iff.mpr afterText⟩
  have clean : before.contains 0 = false ∧ after.contains 0 = false := by
    simp [beforeClean, afterClean]
  have small : maxDiffLines ≤ usizeMax := by decide
  have oldLines := split_lines_spec oldSplit maxDiffLines (by omega)
  have newLines := split_lines_spec newSplit (maxDiffLines - old.length) (by omega)
  obtain ⟨pieces, cut, grouped⟩ := lawful.group (diffOps similar old new).1 contextLines
  have chain := ((diff_ops_walk lawful old new).cut cut).grouped grouped (Nat.zero_le _)
    (Nat.zero_le _)
  obtain ⟨found, blocks, tail, hunks, shown, oldWhole, newWhole⟩ := chain_shows
    ⟨oldSplit.tokens_eq, newSplit.tokens_eq⟩ chain rfl rfl (by omega) (by omega)
  rw [List.drop_zero] at newWhole
  refine ⟨{
      hunks := found.filterMap id
      fingerprint := planFingerprint digest contextLines (diffOps similar old new).2
        (found.filterMap id)
      truncated := false }, ?_, rfl, ⟨⟨blocks, tail⟩, oldWhole.symm, newWhole.symm, shown⟩, ?_⟩
  · simp only [planned, utf8.1, utf8.2, clean.1, clean.2, Bool.not_true, Bool.or_self,
      Bool.false_eq_true, if_false, oldLines, newLines, if_neg (Nat.not_lt.mpr
        (Nat.le_trans (Nat.le_add_right _ _) fits)), if_neg (Nat.not_lt.mpr
        (Nat.le_sub_of_add_le' fits)), oldSplit.tokens_eq, newSplit.tokens_eq, hunks]
  · rw [newWhole]
    exact rebuild_shown shown oldWhole

/-- Every pair of UTF-8 texts without NUL has its lines, and as long as these are
within the limit, planning their diff with any number of context lines, while the
query's checks pass, yields a plan whose hunks show a script from the lines of the
first text to those of the second: what stands outside the hunks is common to both,
and every planned line shows an edit at its positions. -/
theorem plan_diff_rebuilds {Fingerprint : Type} (similar : Similar) (lawful : similar.Lawful)
    (digest : Bytes → Fingerprint) (before after : Bytes)
    (beforeText : before.toByteArray.IsValidUTF8) (afterText : after.toByteArray.IsValidUTF8)
    (beforeClean : 0 ∉ before) (afterClean : 0 ∉ after) (contextLines : Nat) :
    ∃ oldLines newLines, LineSplit oldLines before ∧ LineSplit newLines after ∧
      (oldLines.length + newLines.length ≤ maxDiffLines →
        ∃ plan, planDiff similar digest true before after contextLines = .ok (.plan plan) ∧
          plan.truncated = false ∧ Rebuilds before after oldLines newLines plan.hunks) := by
  obtain ⟨oldLines, oldSplit⟩ := line_split_total before
  obtain ⟨newLines, newSplit⟩ := line_split_total after
  refine ⟨oldLines, newLines, oldSplit, newSplit, ?_⟩
  intro fits
  exact planned_rebuilds lawful digest oldSplit newSplit beforeText afterText beforeClean
    afterClean fits contextLines

/-- A comparison that replaces the whole range, in one group. On two single lines that
differ this is what the crate finds. -/
def wholeReplace : Similar where
  captureDiff _ oldStart oldEnd _ newStart newEnd :=
    [.replace oldStart (oldEnd - oldStart) newStart (newEnd - newStart)]
  groupDiffOps ops _ := [ops]

theorem whole_replace_lawful : wholeReplace.Lawful := by
  constructor
  · intro old oldStart oldEnd new newStart newEnd oldForward oldInside newForward newInside
    have fits : Fits old new oldStart newStart
        (.replace oldStart (oldEnd - oldStart) newStart (newEnd - newStart)) := by
      refine ⟨rfl, rfl, ?_, ?_, ?_⟩
      · rw [Op.oldLen]
        omega
      · rw [Op.newLen]
        omega
      · intro equal
        cases equal
    have walk := Walk.cons fits .nil
    rw [Op.oldLen, Op.newLen, Nat.add_sub_cancel' oldForward,
      Nat.add_sub_cancel' newForward] at walk
    exact walk
  · intro ops contextLines
    have same : EditOps.Cut ops ops := by
      induction ops with
      | nil => exact .nil
      | cons op rest inductionHypothesis => exact .keep inductionHypothesis
    have none : ∀ op ∈ ([] : List Op), op.isEqual = true := List.forall_mem_nil _
    have grouped : EditOps.Grouped ([] ++ (ops ++ [])) [ops] := .cons none (.nil none)
    rw [List.append_nil, List.nil_append] at grouped
    exact ⟨ops, same, grouped⟩

theorem single_lines_rebuild :
    let before : Bytes := [0x61, 0x0a]
    let after : Bytes := [0x62]
    ∃ oldLines newLines, LineSplit oldLines before ∧ LineSplit newLines after ∧
      (oldLines.length + newLines.length ≤ maxDiffLines →
        ∃ plan, planDiff wholeReplace id true before after 3 = .ok (.plan plan) ∧
          plan.truncated = false ∧ Rebuilds before after oldLines newLines plan.hunks) := by
  intro before after
  exact plan_diff_rebuilds wholeReplace whole_replace_lawful id before after
    ⟨['a', '\n'], rfl⟩ ⟨['b'], rfl⟩ (by decide) (by decide) 3

end Rebuilding

end MinicoreAgent.Diffs

import MinicoreAgent.ReadTool

/-!
# The end of a long output

An output over its limits is cut to its last lines. The lines are walked from the end, with
one more byte for every line break between two of them, until the line limit or the byte
limit. A last line that is too long alone keeps its end, from a character boundary on.

Every subtraction and every slice of the code can fail here, and none does.
-/
namespace MinicoreAgent.Truncation

open Lines Text ReadTool

section Model

/-- The end of a text that exceeded its limits. -/
structure Tail where
  text : List Char
  totalLines : Nat
  keptLines : Nat
  byBytes : Bool
  partial_ : Bool
  lastLineBytes : Nat
  deriving DecidableEq, Repr

/-- The counters of the walk over the lines. -/
structure Walk where
  keptLines : Nat := 0
  keptBytes : Nat := 0
  byBytes : Bool := false
  partial_ : Bool := false
  lastLineBytes : Nat := 0
  deriving DecidableEq, Repr

/-- A subtraction of the machine, which fails below zero. -/
def subtract (left right : Nat) : Option Nat := if right ≤ left then some (left - right) else none

/-- `str::ceil_char_boundary`. -/
def ceilBoundary : List Char → Nat → Nat
  | [], _ => 0
  | char :: rest, index =>
    if index = 0 then 0 else char.utf8Size + ceilBoundary rest (index - char.utf8Size)

/-- `str::strip_suffix('\n')`, or the whole text. -/
def body (text : List Char) : List Char :=
  if text.getLast? = some '\n' then text.dropLast else text

/-- `str::rsplit('\n')`. -/
def rsplit (text : List Char) : List (List Char) :=
  (split '\n' text).2 :: (split '\n' text).1.reverse

/-- The first line of the walk is the last line of the text. -/
def Walk.see (walk : Walk) (line : List Char) : Walk :=
  if walk.keptLines = 0 then { walk with lastLineBytes := byteLen line } else walk

/-- A line that does not fit ends the walk. The last line of the text leaves its end. -/
def Walk.overflow (walk : Walk) (line : List Char) (maxBytes : Nat) : Option Walk :=
  if walk.keptLines = 0 then do
    let index ← subtract (byteLen line) maxBytes
    let keptBytes ← subtract (byteLen line) (ceilBoundary line index)
    some { walk with byBytes := true, keptLines := 1, keptBytes := keptBytes, partial_ := true }
  else some { walk with byBytes := true }

/-- The line and the line break behind it. -/
def Walk.cost (walk : Walk) (line : List Char) : Nat :=
  byteLen line + if 0 < walk.keptLines then 1 else 0

def Walk.keep (walk : Walk) (line : List Char) : Walk :=
  { walk with
    keptLines := walk.keptLines + 1
    keptBytes := walk.keptBytes + walk.cost line }

def walkLines (maxLines maxBytes : Nat) : List (List Char) → Walk → Option Walk
  | [], walk => some walk
  | line :: rest, walk =>
    let walk := walk.see line
    if walk.keptLines = maxLines then some walk
    else if maxBytes < walk.keptBytes + walk.cost line then walk.overflow line maxBytes
    else walkLines maxLines maxBytes rest (walk.keep line)

/-- Keep whole lines from the end of a text, or `none` when nothing is cut. The outer option
is that of a failed slice or subtraction. -/
def truncateTail (text : List Char) (maxLines maxBytes : Nat) : Option (Option Tail) :=
  let totalLines := (splitTerminator text).length
  if totalLines ≤ maxLines ∧ byteLen text ≤ maxBytes then some none
  else do
    let walk ← walkLines maxLines maxBytes (rsplit (body text)) {}
    if walk.keptLines = totalLines ∧ walk.partial_ = false then some none
    else do
      let start ← subtract (byteLen (body text)) walk.keptBytes
      let (_, kept) ← splitAt (body text) start
      some (some {
        text := kept
        totalLines := totalLines
        keptLines := walk.keptLines
        byBytes := walk.byBytes
        partial_ := walk.partial_
        lastLineBytes := walk.lastLineBytes })

/-- Split `total` between two parts so that neither gets less than half unless it needs
less. -/
def share (first second total : Nat) : Nat × Nat :=
  let firstBudget := if first ≤ total / 2 then first else total - min second (total / 2)
  (firstBudget, total - firstBudget)

end Model

section Lines

/-- Lines with a line break between each two. -/
def glue (lines : List (List Char)) : List Char := ['\n'].intercalate lines

theorem glue_append (front : List (List Char)) {kept : List (List Char)} (some : kept ≠ []) :
    glue (front ++ kept) = join '\n' front ++ glue kept := by
  induction front with
  | nil => rfl
  | cons line rest inductionHypothesis =>
    have more : rest ++ kept ≠ [] := by simp [some]
    rw [glue] at inductionHypothesis ⊢
    rw [List.cons_append, List.intercalate_cons_of_ne_nil more, inductionHypothesis, join_cons]
    simp

theorem glue_suffix (front kept : List (List Char)) :
    ∃ before, glue (front ++ kept) = before ++ glue kept := by
  cases kept with
  | nil => exact ⟨glue (front ++ []), (List.append_nil _).symm⟩
  | cons line rest => exact ⟨join '\n' front, glue_append front (List.cons_ne_nil _ _)⟩

/-- One more line in front costs its bytes, and a line break where there is a next line. -/
theorem byte_len_glue_cons (line : List Char) (kept : List (List Char)) :
    byteLen (glue (line :: kept)) =
      byteLen (glue kept) + (byteLen line + if 0 < kept.length then 1 else 0) := by
  cases kept with
  | nil =>
    rw [glue, List.intercalate_singleton]
    exact (Nat.zero_add _).symm
  | cons next rest =>
    rw [glue, List.intercalate_cons_of_ne_nil (List.cons_ne_nil _ _), byte_len_append,
      byte_len_append, if_pos (List.length_pos_of_ne_nil (List.cons_ne_nil _ _))]
    change byteLen line + 1 + byteLen (glue (next :: rest)) = _
    omega

theorem byte_len_glue_le (front kept : List (List Char)) :
    byteLen (glue kept) ≤ byteLen (glue (front ++ kept)) := by
  obtain ⟨before, whole⟩ := glue_suffix front kept
  rw [whole, byte_len_append]
  exact Nat.le_add_left _ _

end Lines

section Walks

/-- A ceiled offset is the first boundary that is not below the offset. -/
theorem ceil_boundary_spec {line : List Char} {index : Nat} (inside : index ≤ byteLen line) :
    ∃ before after, line = before ++ after ∧ byteLen before = ceilBoundary line index ∧
      index ≤ byteLen before ∧
      ∀ front back, line = front ++ back → index ≤ byteLen front →
        byteLen before ≤ byteLen front := by
  induction line generalizing index with
  | nil => exact ⟨[], [], rfl, rfl, inside, fun _ _ _ _ => Nat.zero_le _⟩
  | cons char rest inductionHypothesis =>
    rw [ceilBoundary]
    split
    · rename_i zero
      exact ⟨[], char :: rest, rfl, rfl, Nat.le_of_eq zero, fun _ _ _ _ => Nat.zero_le _⟩
    · rename_i positive
      rw [byte_len_cons] at inside
      have inner : index - char.utf8Size ≤ byteLen rest := by omega
      obtain ⟨before, after, whole, length, reaches, first⟩ := inductionHypothesis inner
      refine ⟨char :: before, after, by rw [whole]; rfl, by rw [byte_len_cons, length], ?_, ?_⟩
      · rw [byte_len_cons]
        omega
      · intro front back parts far
        cases front with
        | nil => exact absurd (Nat.le_zero.mp far) positive
        | cons head front =>
          obtain ⟨same, tails⟩ := List.cons.inj parts
          cases same
          rw [byte_len_cons] at far ⊢
          rw [byte_len_cons]
          have later := first front back tails (by omega)
          omega

/-- The last lines of a text that keep both limits, and no fewer of them than possible. -/
structure LastLines (lines : List (List Char)) (maxLines maxBytes : Nat)
    (kept : List (List Char)) : Prop where
  ends : kept <:+ lines
  count : kept.length ≤ maxLines
  bytes : byteLen (glue kept) ≤ maxBytes
  longest : ∀ other, other <:+ lines → other.length ≤ maxLines →
    byteLen (glue other) ≤ maxBytes → other.length ≤ kept.length

/-- The longest end of a line that keeps the byte limit. -/
structure LineEnd (line : List Char) (maxBytes : Nat) (kept : List Char) : Prop where
  ends : kept <:+ line
  bytes : byteLen kept ≤ maxBytes
  longest : ∀ other, other <:+ line → byteLen other ≤ maxBytes → byteLen other ≤ byteLen kept

/-- What the walk has counted when it stops, for the lines of a text. -/
inductive Walk.Ends (lines : List (List Char)) (maxLines maxBytes : Nat) (walk : Walk) : Prop where
  | whole (kept : List (List Char)) (last : LastLines lines maxLines maxBytes kept)
      (fits : maxLines = 0 ∨ byteLen (lines.getLastD []) ≤ maxBytes)
      (count : walk.keptLines = kept.length) (bytes : walk.keptBytes = byteLen (glue kept))
      (uncut : walk.partial_ = false)
      (stopped : walk.byBytes = true ↔ kept.length < lines.length ∧ kept.length < maxLines)
  | part (kept : List Char) (last : LineEnd (lines.getLastD []) maxBytes kept)
      (positive : 0 < maxLines) (long : maxBytes < byteLen (lines.getLastD []))
      (count : walk.keptLines = 1) (bytes : walk.keptBytes = byteLen kept)
      (cut : walk.partial_ = true) (stopped : walk.byBytes = true)

/-- The counters of the walk after it kept some lines. -/
structure Walk.Counts (walk : Walk) (maxLines maxBytes : Nat) (kept : List (List Char)) :
    Prop where
  count : walk.keptLines = kept.length
  bytes : walk.keptBytes = byteLen (glue kept)
  few : kept.length ≤ maxLines
  short : byteLen (glue kept) ≤ maxBytes
  uncut : walk.partial_ = false
  running : walk.byBytes = false
  seen : kept ≠ [] → walk.lastLineBytes = byteLen (kept.getLastD [])

theorem Walk.Counts.start (maxLines maxBytes : Nat) :
    Walk.Counts {} maxLines maxBytes [] where
  count := rfl
  bytes := rfl
  few := Nat.zero_le _
  short := Nat.zero_le _
  uncut := rfl
  running := rfl
  seen := fun some => absurd rfl some

section Steps

variable {walk : Walk} {maxLines maxBytes : Nat} {kept : List (List Char)}

theorem Walk.Counts.see (counts : walk.Counts maxLines maxBytes kept) (line : List Char) :
    (walk.see line).Counts maxLines maxBytes kept ∧
      (walk.see line).lastLineBytes = byteLen ((line :: kept).getLastD []) := by
  rw [Walk.see]
  split
  · rename_i first
    have none : kept = [] := by
      rw [counts.count] at first
      exact List.eq_nil_of_length_eq_zero first
    subst none
    exact ⟨⟨counts.count, counts.bytes, counts.few, counts.short, counts.uncut, counts.running,
      fun some => absurd rfl some⟩, rfl⟩
  · rename_i later
    rw [counts.count, List.length_eq_zero_iff] at later
    refine ⟨counts, ?_⟩
    rw [counts.seen later, List.getLastD_cons, List.getLastD_eq_getLast?,
      List.getLastD_eq_getLast?, List.getLast?_eq_some_getLast later]
    rfl

theorem Walk.Counts.cost (counts : walk.Counts maxLines maxBytes kept) (line : List Char) :
    walk.keptBytes + walk.cost line = byteLen (glue (line :: kept)) := by
  rw [Walk.cost, counts.count, counts.bytes, byte_len_glue_cons]

/-- A line that fits is kept. -/
theorem Walk.Counts.keep (counts : walk.Counts maxLines maxBytes kept) {line : List Char}
    (seen : walk.lastLineBytes = byteLen ((line :: kept).getLastD []))
    (few : walk.keptLines ≠ maxLines) (short : byteLen (glue (line :: kept)) ≤ maxBytes) :
    (walk.keep line).Counts maxLines maxBytes (line :: kept) where
  count := congrArg (· + 1) counts.count
  bytes := counts.cost line
  few := by
    have least := counts.few
    rw [counts.count] at few
    rw [List.length_cons]
    omega
  short := short
  uncut := counts.uncut
  running := counts.running
  seen := fun _ => seen

end Steps

/-- A list of last lines is the longest one if one more line breaks a limit. -/
theorem last_lines_of_blocked {front kept : List (List Char)} {line : List Char}
    {maxLines maxBytes : Nat} (few : kept.length ≤ maxLines)
    (short : byteLen (glue kept) ≤ maxBytes)
    (blocked : kept.length = maxLines ∨ maxBytes < byteLen (glue (line :: kept))) :
    LastLines (front ++ line :: kept) maxLines maxBytes kept where
  ends := ⟨front ++ [line], by simp⟩
  count := few
  bytes := short
  longest := by
    rintro other ⟨before, parts⟩ count bytes
    rcases blocked with full | large
    · rw [full]
      exact count
    · -- A longer list of last lines would have the line that is too much.
      by_contra more
      have longer : line :: kept <:+ other := by
        have shorter : line :: kept <:+ front ++ line :: kept := ⟨front, rfl⟩
        have whole : other <:+ front ++ line :: kept := ⟨before, parts⟩
        refine List.suffix_of_suffix_length_le shorter whole ?_
        rw [List.length_cons]
        omega
      obtain ⟨between, rfl⟩ := longer
      have less := byte_len_glue_le between (line :: kept)
      omega

/-- What is left of a line from a ceiled offset on is its longest end. -/
theorem line_end_ceil {line : List Char} {maxBytes : Nat} (long : maxBytes < byteLen line) :
    ∃ kept, LineEnd line maxBytes kept ∧
      ceilBoundary line (byteLen line - maxBytes) + byteLen kept = byteLen line := by
  obtain ⟨before, kept, whole, length, reaches, first⟩ :=
    ceil_boundary_spec (Nat.sub_le (byteLen line) maxBytes)
  have sizes : byteLen before + byteLen kept = byteLen line := by
    rw [whole, byte_len_append]
  refine ⟨kept, ⟨⟨before, whole.symm⟩, by omega, ?_⟩, by omega⟩
  rintro other ⟨front, parts⟩ bytes
  have others : byteLen front + byteLen other = byteLen line := by
    rw [← parts, byte_len_append]
  have least := first front other parts.symm (by omega)
  omega

/-- The last of some kept lines fits. -/
theorem last_line_fits (front : List (List Char)) {kept : List (List Char)} {maxBytes : Nat}
    (some : kept ≠ []) (short : byteLen (glue kept) ≤ maxBytes) :
    byteLen ((front ++ kept).getLastD []) ≤ maxBytes := by
  obtain ⟨init, last, rfl⟩ : ∃ init last, kept = init ++ [last] :=
    ⟨kept.dropLast, kept.getLast some, (List.dropLast_append_getLast some).symm⟩
  have less := byte_len_glue_le init [last]
  rw [glue, List.intercalate_singleton] at less
  rw [← List.append_assoc, List.getLastD_concat]
  exact Nat.le_trans less short

section Endings

variable {walk : Walk} {maxLines maxBytes : Nat} {front kept : List (List Char)}
  {line : List Char}

/-- The last line of a text is too long, and the walk ends with the end of it. -/
theorem Walk.Counts.overflow_last (counts : walk.Counts maxLines maxBytes [])
    (positive : 0 < maxLines) (long : maxBytes < byteLen line) :
    ∃ after, walk.overflow line maxBytes = some after ∧
      after.Ends (front ++ [line]) maxLines maxBytes ∧
      after.lastLineBytes = walk.lastLineBytes := by
  obtain ⟨kept, last, sizes⟩ := line_end_ceil long
  have first : walk.keptLines = 0 := counts.count
  have start : subtract (byteLen line) maxBytes = some (byteLen line - maxBytes) :=
    if_pos (Nat.le_of_lt long)
  have size : subtract (byteLen line) (ceilBoundary line (byteLen line - maxBytes)) =
      some (byteLen kept) := by
    rw [subtract, if_pos (by omega)]
    congr 1
    omega
  rw [Walk.overflow, if_pos first, start, Option.bind_eq_bind, Option.bind_some, size,
    Option.bind_some]
  have back : (front ++ [line]).getLastD [] = line := List.getLastD_concat
  refine ⟨_, rfl, Walk.Ends.part kept ?_ positive ?_ rfl rfl rfl rfl, rfl⟩
  · rw [back]
    exact last
  · rw [back]
    exact long

/-- An earlier line is too long for what is left, and the walk ends before it. -/
theorem Walk.Counts.overflow_later (counts : walk.Counts maxLines maxBytes kept)
    (nonempty : kept ≠ []) (few : walk.keptLines ≠ maxLines)
    (long : maxBytes < byteLen (glue (line :: kept))) :
    ∃ after, walk.overflow line maxBytes = some after ∧
      after.Ends (front ++ line :: kept) maxLines maxBytes ∧
      after.lastLineBytes = walk.lastLineBytes := by
  have later : walk.keptLines ≠ 0 := by
    rw [counts.count]
    exact fun none => nonempty (List.eq_nil_of_length_eq_zero none)
  have fits : byteLen ((front ++ line :: kept).getLastD []) ≤ maxBytes := by
    have last := last_line_fits (front ++ [line]) nonempty counts.short
    rwa [List.append_assoc] at last
  have least := counts.few
  rw [counts.count] at few
  rw [Walk.overflow, if_neg later]
  refine ⟨_, rfl, Walk.Ends.whole kept (last_lines_of_blocked counts.few counts.short (.inr long))
    (.inr fits) counts.count counts.bytes counts.uncut ?_, rfl⟩
  rw [List.length_append, List.length_cons]
  exact ⟨fun _ => by omega, fun _ => rfl⟩

/-- The line limit ends the walk. -/
theorem Walk.Counts.full (counts : walk.Counts maxLines maxBytes kept)
    (full : walk.keptLines = maxLines) : walk.Ends (front ++ line :: kept) maxLines maxBytes := by
  rw [counts.count] at full
  have fits : maxLines = 0 ∨ byteLen ((front ++ line :: kept).getLastD []) ≤ maxBytes := by
    by_cases none : kept = []
    · rw [none] at full
      exact .inl full.symm
    · have last := last_line_fits (front ++ [line]) none counts.short
      rw [List.append_assoc] at last
      exact .inr last
  refine Walk.Ends.whole kept (last_lines_of_blocked counts.few counts.short (.inl full)) fits
    counts.count counts.bytes counts.uncut ?_
  rw [counts.running, full]
  exact ⟨fun stopped => Bool.noConfusion stopped, fun below => absurd below.2 (Nat.lt_irrefl _)⟩

/-- All lines are kept. -/
theorem Walk.Counts.all (counts : walk.Counts maxLines maxBytes kept) (some : kept ≠ []) :
    walk.Ends kept maxLines maxBytes := by
  have last : LastLines kept maxLines maxBytes kept :=
    ⟨List.suffix_rfl, counts.few, counts.short, fun other ends _ _ => ends.length_le⟩
  have fits := last_line_fits [] some counts.short
  refine Walk.Ends.whole kept last (.inr fits) counts.count counts.bytes counts.uncut ?_
  rw [counts.running]
  exact ⟨fun stopped => Bool.noConfusion stopped, fun below => absurd below.1 (Nat.lt_irrefl _)⟩

end Endings

/-- The walk over the lines before some kept ones. The induction is on the lines that are
left, from the end of the text to its beginning. -/
theorem walk_lines_ends {maxLines maxBytes : Nat} {walk : Walk} {kept : List (List Char)}
    (remaining : List (List Char)) (nonempty : remaining ++ kept ≠ [])
    (counts : walk.Counts maxLines maxBytes kept) :
    ∃ after, walkLines maxLines maxBytes remaining walk = some after ∧
      after.Ends (remaining.reverse ++ kept) maxLines maxBytes ∧
      after.lastLineBytes = byteLen ((remaining.reverse ++ kept).getLastD []) := by
  induction remaining generalizing walk kept with
  | nil => exact ⟨walk, rfl, counts.all nonempty, counts.seen nonempty⟩
  | cons line rest inductionHypothesis =>
    obtain ⟨counts, seen⟩ := counts.see line
    have parts : (line :: rest).reverse ++ kept = rest.reverse ++ line :: kept := by
      rw [List.reverse_cons, List.append_assoc]
      rfl
    have back : (rest.reverse ++ line :: kept).getLastD [] = (line :: kept).getLastD [] := by
      rw [List.getLastD_eq_getLast?, List.getLastD_eq_getLast?, List.getLast?_append_cons]
    rw [parts, back, walkLines]
    generalize walk.see line = walk at counts seen ⊢
    rw [counts.cost line]
    split
    · rename_i full
      exact ⟨walk, rfl, counts.full full, seen⟩
    · rename_i few
      split
      · rename_i long
        have stopped : ∃ after, walk.overflow line maxBytes = some after ∧
            after.Ends (rest.reverse ++ line :: kept) maxLines maxBytes ∧
            after.lastLineBytes = walk.lastLineBytes := by
          by_cases none : kept = []
          · subst none
            have first : walk.keptLines = 0 := counts.count
            rw [glue, List.intercalate_singleton] at long
            exact counts.overflow_last (by omega) long
          · exact counts.overflow_later none few long
        obtain ⟨after, found, ends, last⟩ := stopped
        exact ⟨after, found, ends, last.trans seen⟩
      · rename_i short
        have next := inductionHypothesis (by simp) (counts.keep seen few (Nat.le_of_not_lt short))
        rw [back] at next
        exact next

end Walks

section Results

/-- The walk sees the lines of the text from the last one on. -/
theorem body_lines {text : List Char} (nonempty : text ≠ []) :
    rsplit (body text) = (splitTerminator text).reverse ∧ splitTerminator text ≠ [] := by
  rw [body, splitTerminator]
  split
  · rename_i ended
    obtain ⟨init, rfl⟩ := List.getLast?_eq_some_iff.mp ended
    rw [split_append_separator, List.dropLast_concat, rsplit]
    simp
  · rename_i unended
    have tail : (split '\n' text).2 ≠ [] := by
      intro none
      have whole := join_split '\n' text
      rw [none, List.append_nil] at whole
      rcases List.eq_nil_or_concat (split '\n' text).1 with nothing | ⟨init, last, lines⟩
      · rw [nothing] at whole
        exact nonempty whole.symm
      · rw [lines, List.concat_eq_append, join_append, join_cons, join_nil] at whole
        apply unended
        rw [← whole]
        simp
    rw [tailLines, if_neg tail, rsplit]
    simp

/-- The lines of a text make up its body, and none contains a line break. -/
theorem glue_lines (text : List Char) :
    glue (splitTerminator text) = body text ∧ ∀ line ∈ splitTerminator text, '\n' ∉ line := by
  by_cases none : text = []
  · subst none
    exact ⟨rfl, fun line member => absurd member List.not_mem_nil⟩
  · obtain ⟨walked, _⟩ := body_lines none
    have lines : splitTerminator text =
        (split '\n' (body text)).1 ++ [(split '\n' (body text)).2] := by
      rw [← List.reverse_reverse (splitTerminator text), ← walked, rsplit, List.reverse_cons,
        List.reverse_reverse]
    obtain ⟨free, unended⟩ := split_free '\n' (body text)
    rw [lines]
    constructor
    · rw [glue_append _ (List.cons_ne_nil _ _), glue, List.intercalate_singleton, join_split]
    · intro line member
      rcases List.mem_append.mp member with ended | last
      · exact free line ended
      · rw [List.mem_singleton.mp last]
        exact unended

/-- What a cut text is: the last lines that fit, or the end of the last line, and how much
of the text that is. -/
structure Tail.Of (tail : Tail) (text : List Char) (maxLines maxBytes : Nat) : Prop where
  total : tail.totalLines = (splitTerminator text).length
  some : tail.keptLines ≤ tail.totalLines
  whole : tail.partial_ = false → ∃ kept, LastLines (splitTerminator text) maxLines maxBytes kept ∧
    tail.text = glue kept ∧ tail.keptLines = kept.length
  part : tail.partial_ = true →
    LineEnd ((splitTerminator text).getLastD []) maxBytes tail.text ∧ tail.keptLines = 1
  cut : tail.partial_ = true ↔
    0 < maxLines ∧ maxBytes < byteLen ((splitTerminator text).getLastD [])
  stopped : tail.byBytes = true ↔ tail.partial_ = true ∨ tail.keptLines < maxLines
  last : tail.lastLineBytes = byteLen ((splitTerminator text).getLastD [])

/-- The end of the body of as many bytes as were kept. -/
theorem split_end {text before kept : List Char} (parts : text = before ++ kept) :
    subtract (byteLen text) (byteLen kept) = some (byteLen before) ∧
      splitAt text (byteLen before) = some (before, kept) := by
  have sizes : byteLen text = byteLen before + byteLen kept := by
    rw [parts, byte_len_append]
  constructor
  · rw [subtract, if_pos (by omega), sizes, Nat.add_sub_cancel]
  · rw [split_at_iff]
    exact ⟨parts, rfl⟩

/-- What the walk kept is the end of the body. -/
theorem Walk.Ends.kept_end {text : List Char} {maxLines maxBytes : Nat} {walk : Walk}
    (ends : walk.Ends (splitTerminator text) maxLines maxBytes)
    (nonempty : splitTerminator text ≠ []) :
    ∃ before kept, body text = before ++ kept ∧ walk.keptBytes = byteLen kept ∧
      (walk.partial_ = false → ∃ lines, LastLines (splitTerminator text) maxLines maxBytes lines ∧
        kept = glue lines ∧ walk.keptLines = lines.length) ∧
      (walk.partial_ = true →
        LineEnd ((splitTerminator text).getLastD []) maxBytes kept ∧ walk.keptLines = 1) := by
  rw [← (glue_lines text).1]
  generalize splitTerminator text = lines at ends nonempty ⊢
  cases ends with
  | whole kept last fits count bytes uncut stopped =>
    obtain ⟨front, parts⟩ := last.ends
    obtain ⟨before, whole⟩ := glue_suffix front kept
    rw [parts] at whole
    refine ⟨before, glue kept, whole, bytes, fun _ => ⟨kept, last, rfl, count⟩, fun cut => ?_⟩
    rw [uncut] at cut
    cases cut
  | part kept last positive long count bytes cut stopped =>
    obtain ⟨front, parts⟩ := last.ends
    obtain ⟨init, line, rfl⟩ : ∃ init line, lines = init ++ [line] :=
      ⟨lines.dropLast, lines.getLast nonempty, (List.dropLast_append_getLast nonempty).symm⟩
    rw [List.getLastD_concat] at last parts ⊢
    have alone : glue [line] = front ++ kept := List.intercalate_singleton.trans parts.symm
    obtain ⟨before, whole⟩ := glue_suffix init [line]
    rw [alone, ← List.append_assoc] at whole
    refine ⟨before ++ front, kept, whole, bytes, fun uncut => ?_, fun _ => ⟨last, count⟩⟩
    rw [cut] at uncut
    cases uncut

/-- The walk keeps everything exactly if everything fits. -/
theorem Walk.Ends.keeps_all_iff {lines : List (List Char)} {maxLines maxBytes : Nat} {walk : Walk}
    (ends : walk.Ends lines maxLines maxBytes) (nonempty : lines ≠ []) :
    (walk.keptLines = lines.length ∧ walk.partial_ = false) ↔
      lines.length ≤ maxLines ∧ byteLen (glue lines) ≤ maxBytes := by
  cases ends with
  | whole kept last fits count bytes uncut stopped =>
    rw [count]
    constructor
    · rintro ⟨all, _⟩
      have same : kept = lines := last.ends.eq_of_length all
      rw [← same]
      exact ⟨last.count, last.bytes⟩
    · rintro ⟨few, short⟩
      have least := last.longest lines List.suffix_rfl few short
      exact ⟨Nat.le_antisymm last.ends.length_le least, uncut⟩
  | part kept last positive long count bytes cut stopped =>
    constructor
    · rintro ⟨_, uncut⟩
      rw [cut] at uncut
      cases uncut
    · rintro ⟨_, short⟩
      have fits := last_line_fits [] nonempty short
      exact absurd fits (Nat.not_le_of_lt long)

theorem Walk.Ends.reports {lines : List (List Char)} {maxLines maxBytes : Nat} {walk : Walk}
    (ends : walk.Ends lines maxLines maxBytes) (nonempty : lines ≠ [])
    (cut : ¬(walk.keptLines = lines.length ∧ walk.partial_ = false)) :
    walk.keptLines ≤ lines.length ∧
      (walk.partial_ = true ↔ 0 < maxLines ∧ maxBytes < byteLen (lines.getLastD [])) ∧
      (walk.byBytes = true ↔ walk.partial_ = true ∨ walk.keptLines < maxLines) := by
  cases ends with
  | whole kept last fits count bytes uncut stopped =>
    have least := last.ends.length_le
    rw [uncut] at cut ⊢
    rw [count] at cut ⊢
    have fewer : kept.length < lines.length :=
      Nat.lt_of_le_of_ne least (fun all => cut ⟨all, rfl⟩)
    refine ⟨least, ⟨fun part => Bool.noConfusion part, ?_⟩, ?_⟩
    · rintro ⟨positive, long⟩
      omega
    · rw [stopped]
      exact ⟨fun both => .inr both.2, fun either => ⟨fewer, either.resolve_left Bool.noConfusion⟩⟩
  | part kept last positive long count bytes part stopped =>
    refine ⟨?_, ⟨fun _ => ⟨positive, long⟩, fun _ => part⟩, ⟨fun _ => .inl part, fun _ => stopped⟩⟩
    rw [count]
    exact List.length_pos_of_ne_nil nonempty

theorem byte_len_body_le (text : List Char) : byteLen (body text) ≤ byteLen text := by
  rw [body]
  split
  · rename_i ended
    obtain ⟨init, rfl⟩ := List.getLast?_eq_some_iff.mp ended
    rw [List.dropLast_concat, byte_len_append]
    exact Nat.le_add_right _ _
  · exact Nat.le_refl _

/-- For every text and all limits the tail is computed without a failed slice or subtraction.
Nothing is cut exactly if the lines of the text fit, a line break at its end left aside. What
is cut leaves the longest end of whole lines, or of the last line where that is too long. -/
theorem truncate_tail_keeps_most (text : List Char) (maxLines maxBytes : Nat) :
    ∃ result, truncateTail text maxLines maxBytes = some result ∧
      (result = none ↔
        (splitTerminator text).length ≤ maxLines ∧ byteLen (body text) ≤ maxBytes) ∧
      (∀ tail, result = some tail → tail.Of text maxLines maxBytes) ∧
      glue (splitTerminator text) = body text ∧ ∀ line ∈ splitTerminator text, '\n' ∉ line := by
  obtain ⟨glued, free⟩ := glue_lines text
  rw [truncateTail]
  split
  · rename_i fits
    refine ⟨none, rfl, ⟨fun _ => ⟨fits.1, ?_⟩, fun _ => rfl⟩, fun tail found => ?_, glued, free⟩
    · exact Nat.le_trans (byte_len_body_le text) fits.2
    · cases found
  · rename_i exceeds
    have nonempty : text ≠ [] := by
      rintro rfl
      exact exceeds ⟨Nat.zero_le _, Nat.zero_le _⟩
    obtain ⟨walked, lines⟩ := body_lines nonempty
    obtain ⟨walk, found, ends, last⟩ := walk_lines_ends (splitTerminator text).reverse
      (by simpa using lines) (Walk.Counts.start maxLines maxBytes)
    rw [List.reverse_reverse, List.append_nil] at ends last
    rw [walked, found]
    simp only [Option.bind_eq_bind, Option.bind_some]
    have all := ends.keeps_all_iff lines
    rw [glued] at all
    split
    · rename_i whole
      refine ⟨none, rfl, ⟨fun _ => all.mp whole, fun _ => rfl⟩, fun tail found => ?_, glued, free⟩
      cases found
    · rename_i cut
      obtain ⟨before, kept, parts, bytes, uncut, part⟩ := ends.kept_end lines
      obtain ⟨start, halves⟩ := split_end parts
      obtain ⟨fewer, when, stopped⟩ := ends.reports lines cut
      simp only [bytes, start, Option.bind_some, halves]
      refine ⟨_, rfl, ⟨fun found => ?_, fun fits => absurd (all.mpr fits) cut⟩, ?_, glued, free⟩
      · cases found
      · rintro tail found
        cases found
        exact ⟨rfl, fewer, uncut, part, when, stopped, last⟩

/-- A last line over the byte limit keeps two of its four characters of three bytes. -/
example :
    (truncateTail "short\n€€€€".toList 100 7).bind (·.map Tail.text) = some "€€".toList := by
  decide +kernel

end Results

section Shares

/-- The shares make up the total, and no part gets less than half of it unless the part needs
less. -/
theorem share_spec (first second total : Nat) :
    (share first second total).1 + (share first second total).2 = total ∧
      min first (total / 2) ≤ (share first second total).1 ∧
      min second (total / 2) ≤ (share first second total).2 := by
  rw [share]
  split
  · omega
  · omega

end Shares

end MinicoreAgent.Truncation

import MinicoreAgent.ReadTool

/-!
# Following the notices of the read tool

A reader of a file continues at the offset that each notice gives. Whatever limits it asks
for, it is shown every line once, with its number, until the file ends or a line is too long
to be shown.
-/
namespace MinicoreAgent.ReadTool

open Lines Text TextLines

/-- The offset that the notice says to continue from. -/
def ReadAnswer.next : ReadAnswer → Option Nat
  | .shown _ (some notice) => some notice.next
  | _ => none

/-- The lines of an answer, each ended. -/
def ReadAnswer.body : ReadAnswer → List Char
  | .shown output _ => output ++ ['\n']
  | _ => []

/-- The reads that follow the notices from an offset on. Each request has its own limit, and
opens the file again. -/
def follow (path : List Char) : List (Nat × Reader) → Nat → Except ToolError (List ReadAnswer)
  | [], _ => .ok []
  | (limit, reader) :: requests, offset => do
    let answer ← readAnswer ⟨path, offset, limit⟩ reader
    match answer.next with
    | none => .ok [answer]
    | some next => do
      let answers ← follow path requests next
      .ok (answer :: answers)

/-- The lines after the first so many, up to another. -/
def slice (lines : List (List Char)) (start stop : Nat) : List (List Char) :=
  (lines.take stop).drop start

/-- What one answer shows: the lines from the offset up to a last one within the budget, and
a notice if more are left, or that the line at the offset alone is too long. -/
inductive AnswerShows (lines : List (List Char)) (path : List Char) (offset : Nat) :
    ReadAnswer → Nat → Prop where
  | shown (output : List Char) (notice : Option Notice) (stop : Nat) (some : offset ≤ stop)
      (within : stop ≤ lines.length)
      (text : output ++ ['\n'] = join '\n' (numbered offset (slice lines (offset - 1) stop)))
      (fits : byteLen output ≤ maxOutputBytes)
      (noticed : notice.isSome = true ↔ stop < lines.length)
      (counted : ∀ given ∈ notice,
        given.first = offset ∧ given.last = stop ∧ given.total = lines.length) :
      AnswerShows lines path offset (.shown output notice) stop
  | oversized (line : List Char) (there : lines[offset - 1]? = some line)
      (long : maxOutputBytes < byteLen (renderLine offset line)) :
      AnswerShows lines path offset (.oversized offset path) (offset - 1)

/-- The answers show the lines from an offset up to a last one, each from where the one
before it stopped. -/
inductive AnswersShow (lines : List (List Char)) (path : List Char) :
    Nat → List ReadAnswer → Nat → Prop where
  | none (offset : Nat) : AnswersShow lines path offset [] (offset - 1)
  | last {offset stop : Nat} {answer : ReadAnswer}
      (shows : AnswerShows lines path offset answer stop) (ends : answer.next = none) :
      AnswersShow lines path offset [answer] stop
  | more {offset stop last : Nat} {answer : ReadAnswer} {answers : List ReadAnswer}
      (shows : AnswerShows lines path offset answer stop) (next : answer.next = some (stop + 1))
      (others : AnswersShow lines path (stop + 1) answers last) :
      AnswersShow lines path offset (answer :: answers) last

/-- The answers end with the file, or with a line that is too long to be shown. -/
def Ends (lines : List (List Char)) (path : List Char) (answers : List ReadAnswer)
    (stop : Nat) : Prop :=
  (stop = lines.length ∧ ∃ output, answers.getLast? = some (.shown output none)) ∨
    ∃ line, lines[stop]? = some line ∧
      maxOutputBytes < byteLen (renderLine (stop + 1) line) ∧
      answers.getLast? = some (.oversized (stop + 1) path)

section Answers

variable {lines : List (List Char)} {path : List Char} {offset stop : Nat}

theorem answer_at_most (positive : 1 ≤ offset) (there : offset ≤ lines.length)
    {answer : ReadAnswer} (shows : AnswerShows lines path offset answer stop) :
    offset - 1 ≤ stop ∧ stop ≤ lines.length := by
  cases shows with
  | shown output notice stop some within text fits noticed counted => exact ⟨by omega, within⟩
  | oversized line at_offset long => exact ⟨Nat.le_refl _, by omega⟩

/-- The lines in the window, as far as they are shown. -/
theorem lines_answer_shows {input : ReadInput} (positive : 1 ≤ input.offset)
    (limited : 0 < input.limit) {window rest : List (List Char)}
    (whole : lines.drop (input.offset - 1) = window ++ rest)
    (there : input.offset ≤ lines.length)
    (long : window = [] → ∀ line ∈ rest.head?, maxOutputBytes ≤ byteLen line) :
    ∃ stop, AnswerShows lines input.path input.offset
      (linesAnswer input window rest.length) stop := by
  have length := congrArg List.length whole
  rw [List.length_drop, List.length_append] at length
  obtain ⟨count, shows⟩ := show_loop_shows input.offset input.limit window 0 [] (fun _ => rfl)
    (Nat.zero_le _)
  have counted := shows.counted
  rw [linesAnswer]
  split
  · rename_i nothing
    obtain ⟨line, others, first⟩ := List.exists_cons_of_length_pos
      (l := lines.drop (input.offset - 1)) (by rw [List.length_drop]; omega)
    have at_offset : lines[input.offset - 1]? = some line := by
      rw [← List.head?_drop, first]
      rfl
    refine ⟨input.offset - 1, AnswerShows.oversized line at_offset ?_⟩
    cases window with
    | nil =>
      rw [List.nil_append, first] at whole
      have large := long rfl line (by rw [← whole]; rfl)
      have rendered := render_line_length input.offset line
      omega
    | cons head window =>
      rw [first] at whole
      obtain ⟨rfl, -⟩ := List.cons.inj whole
      exact first_line_oversized limited nothing
  · rename_i some
    have taken : slice lines (input.offset - 1) (input.offset - 1 + count) =
        window.take count := by
      rw [slice, List.drop_take, whole, Nat.add_sub_cancel_left,
        List.take_append_of_le_length shows.within]
    have left : (showLoop input.offset input.limit window 0 []).left.length + rest.length =
        lines.length - (input.offset - 1 + count) := by
      have within := shows.within
      rw [shows.left, List.length_drop]
      omega
    have text := shows.written
    rw [endOutput, if_neg some, endOutput, if_pos rfl, List.nil_append, Nat.add_zero,
      ← taken] at text
    have within := shows.within
    refine ⟨input.offset - 1 + count,
      AnswerShows.shown _ _ _ (by omega) (by omega) text shows.fits ?_ ?_⟩
    · rw [noticeAfter, left]
      split
      · exact iff_of_true rfl (by omega)
      · exact iff_of_false (by decide) (by omega)
    · intro given noticed
      rw [noticeAfter, left] at noticed
      split at noticed
      · cases noticed
        refine ⟨rfl, ?_, ?_⟩
        · dsimp only
          omega
        · dsimp only
          omega
      · cases noticed

/-- One read from an offset that names a line. -/
theorem read_answer_shows {text : List Char} (plain : '\x00' ∉ text) {reader : Reader}
    (reads : reader.Reads text) (input : ReadInput) (positive : 1 ≤ input.offset)
    (limited : 0 < input.limit) (there : input.offset ≤ (fileLines text).length) :
    ∃ answer stop, readAnswer input reader = .ok answer ∧
      AnswerShows (fileLines text) input.path input.offset answer stop := by
  obtain ⟨free, unended⟩ := split_free '\n' text
  have length := file_lines_length free unended
  rw [join_split] at length
  obtain ⟨answer, read, answers⟩ := read_answer_answers input reads plain
  cases answers with
  | noLines few =>
    split at length
    · omega
    · omega
  | window within answer answers =>
    have kept := file_lines_drop within
    cases answers with
    | empty nothing =>
      rw [nothing] at kept
      have behind : (fileLines text).length ≤ input.offset - 1 := List.drop_eq_nil_iff.mp kept.symm
      omega
    | lines window rest listed some long =>
      rw [kept] at listed
      obtain ⟨stop, shows⟩ := lines_answer_shows positive limited listed there long
      exact ⟨_, stop, read, shows⟩

/-- An answer goes on behind its last line if lines are left, and is the last one if not. -/
theorem answer_next (positive : 1 ≤ offset) {answer : ReadAnswer}
    (shows : AnswerShows lines path offset answer stop) :
    (answer.next = some (stop + 1) ∧ offset ≤ stop ∧ stop < lines.length) ∨
      (answer.next = none ∧ Ends lines path [answer] stop) := by
  cases shows with
  | shown output notice stop some within text fits noticed counted =>
    cases notice with
    | none =>
      right
      have ended : ¬stop < lines.length := fun left => absurd (noticed.mpr left) (by decide)
      exact ⟨rfl, Or.inl ⟨Nat.le_antisymm within (Nat.le_of_not_lt ended), output, rfl⟩⟩
    | some given =>
      left
      obtain ⟨-, last, -⟩ := counted given rfl
      rw [ReadAnswer.next, Notice.next, last]
      exact ⟨rfl, some, noticed.mp rfl⟩
  | oversized line there long =>
    right
    have number : offset - 1 + 1 = offset := Nat.sub_add_cancel positive
    refine ⟨rfl, Or.inr ⟨line, there, ?_, ?_⟩⟩
    · rw [number]
      exact long
    · rw [number]
      rfl

theorem slice_append {start middle : Nat} (first : start ≤ middle) (second : middle ≤ stop) :
    slice lines start middle ++ slice lines middle stop = slice lines start stop := by
  rw [slice, slice, slice, List.drop_take, List.drop_take, List.drop_take]
  obtain ⟨count, rfl⟩ := Nat.exists_eq_add_of_le first
  obtain ⟨more, rfl⟩ := Nat.exists_eq_add_of_le second
  have whole : start + count + more - start = count + more := by omega
  rw [Nat.add_sub_cancel_left, Nat.add_sub_cancel_left, whole, List.take_add, List.drop_drop]

theorem slice_length {start : Nat} (within : stop ≤ lines.length) :
    (slice lines start stop).length = stop - start := by
  rw [slice, List.length_drop, List.length_take, Nat.min_eq_left within]

/-- The body of one answer is the lines it shows. -/
theorem answer_body {answer : ReadAnswer} (shows : AnswerShows lines path offset answer stop) :
    answer.body = join '\n' (numbered offset (slice lines (offset - 1) stop)) := by
  cases shows with
  | shown output notice stop some within text fits noticed counted => exact text
  | oversized line there long =>
    have nothing : slice lines (offset - 1) (offset - 1) = [] := by
      rw [slice, List.drop_take, Nat.sub_self, List.take_zero]
    rw [nothing]
    rfl

/-- The answers together show the lines one after another, with their numbers. -/
theorem answers_body {answers : List ReadAnswer}
    (shows : AnswersShow lines path offset answers stop) (positive : 1 ≤ offset)
    (there : offset ≤ lines.length) :
    (offset - 1 ≤ stop ∧ stop ≤ lines.length) ∧
      answers.flatMap ReadAnswer.body =
        join '\n' (numbered offset (slice lines (offset - 1) stop)) := by
  induction shows with
  | none offset =>
    have nothing : slice lines (offset - 1) (offset - 1) = [] := by
      rw [slice, List.drop_take, Nat.sub_self, List.take_zero]
    rw [nothing]
    exact ⟨⟨Nat.le_refl _, by omega⟩, rfl⟩
  | last shows ends =>
    rw [List.flatMap_singleton]
    exact ⟨answer_at_most positive there shows, answer_body shows⟩
  | more shows next others inductionHypothesis =>
    rename_i offset stop last answer answers
    obtain ⟨-, shown, left⟩ := (answer_next positive shows).resolve_right (by
      rintro ⟨ends, -⟩
      rw [next] at ends
      cases ends)
    obtain ⟨⟨after, within⟩, text⟩ := inductionHypothesis (Nat.succ_pos stop) left
    have number : offset + (slice lines (offset - 1) stop).length = stop + 1 := by
      rw [slice_length (Nat.le_of_lt left)]
      omega
    rw [List.flatMap_cons, answer_body shows, text, Nat.add_sub_cancel, ← number,
      ← join_append, ← numbered_append, slice_append (by omega) (by omega)]
    exact ⟨⟨by omega, within⟩, rfl⟩

theorem ends_cons {answer : ReadAnswer} {answers : List ReadAnswer}
    (ends : Ends lines path answers stop) : Ends lines path (answer :: answers) stop := by
  have last : ∀ given, answers.getLast? = some given →
      (answer :: answers).getLast? = some given := by
    intro given found
    rw [List.getLast?_cons, found]
    rfl
  rcases ends with ⟨whole, output, found⟩ | ⟨line, there, long, found⟩
  · exact Or.inl ⟨whole, output, last _ found⟩
  · exact Or.inr ⟨line, there, long, last _ found⟩

end Answers

end MinicoreAgent.ReadTool

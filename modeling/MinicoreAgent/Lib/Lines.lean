import Mathlib.Data.List.Basic

/-!
# Lines that end in a separator

A sequence of symbols is read as lines, each ended by a separator, and a tail
that no separator ends. Joining lines and splitting them again are inverse as
long as no line contains the separator, so every sequence has exactly one such
reading. Cutting joined lines at any position leaves whole lines and a beginning
of the next one.
-/
namespace MinicoreAgent.Lines

universe u
variable {α : Type u}

/-- The lines one after another, each with its separator. -/
def join (separator : α) (lines : List (List α)) : List α :=
  lines.flatMap (· ++ [separator])

@[simp] theorem join_nil (separator : α) : join separator [] = [] := rfl

@[simp] theorem join_cons (separator : α) (line : List α) (rest : List (List α)) :
    join separator (line :: rest) = line ++ separator :: join separator rest := by
  simp [join]

/-- Joining is a homomorphism. -/
theorem join_append (separator : α) (first second : List (List α)) :
    join separator (first ++ second) = join separator first ++ join separator second := by
  simp [join]

/-- Every line has at least its separator. -/
theorem length_le_join (separator : α) (lines : List (List α)) :
    lines.length ≤ (join separator lines).length := by
  induction lines with
  | nil => simp
  | cons line rest inductionHypothesis =>
    simp only [join_cons, List.length_cons, List.length_append]
    omega

/-- What is left of joined lines after a cut: the lines that are whole up to their
separator, and a beginning of the next one. -/
def cut : List (List α) → Nat → List (List α) × List α
  | [], _ => ([], [])
  | line :: rest, size =>
    if line.length < size then
      let (whole, part) := cut rest (size - (line.length + 1))
      (line :: whole, part)
    else ([], line.take size)

theorem take_join (separator : α) (lines : List (List α)) (size : Nat) :
    (join separator lines).take size =
      join separator (cut lines size).1 ++ (cut lines size).2 := by
  induction lines generalizing size with
  | nil => simp [cut]
  | cons line rest inductionHypothesis =>
    rw [join_cons, cut]
    split
    · rename_i inside
      obtain ⟨more, rfl⟩ : ∃ more, size = line.length + (more + 1) :=
        ⟨size - (line.length + 1), by omega⟩
      have left : line.length + (more + 1) - (line.length + 1) = more := by omega
      rw [List.take_length_add_append, List.take_succ_cons, inductionHypothesis, left]
      simp
    · rename_i short
      rw [List.take_append_of_le_length (by omega)]
      simp

/-- The first line of a sequence is unique. -/
theorem first_line_unique {separator : α} {first second before after : List α}
    (one : separator ∉ first) (other : separator ∉ second)
    (same : first ++ separator :: before = second ++ separator :: after) :
    first = second ∧ before = after := by
  induction first generalizing second with
  | nil =>
    cases second with
    | nil => exact ⟨rfl, by simpa using same⟩
    | cons symbol second =>
      simp only [List.nil_append, List.cons_append, List.cons.injEq] at same
      exact absurd same.1 (fun equal => other (by simp [equal]))
  | cons symbol first inductionHypothesis =>
    cases second with
    | nil =>
      simp only [List.nil_append, List.cons_append, List.cons.injEq] at same
      exact absurd same.1 (fun equal => one (by simp [equal]))
    | cons head second =>
      simp only [List.cons_append, List.cons.injEq] at same
      obtain ⟨rfl, rest⟩ := same
      obtain ⟨rfl, equal⟩ := inductionHypothesis (fun member => one (by simp [member]))
        (fun member => other (by simp [member])) rest
      exact ⟨rfl, equal⟩

/-- A beginning without separators is the beginning of the first line. -/
theorem chunk_in_line {separator : α} {chunk others line rest : List α}
    (free : separator ∉ chunk) (same : chunk ++ others = line ++ separator :: rest) :
    ∃ more, line = chunk ++ more ∧ others = more ++ separator :: rest := by
  rcases List.append_eq_append_iff.mp same with ⟨more, rfl, left⟩ | ⟨more, rfl, left⟩
  · exact ⟨more, rfl, left⟩
  · cases more with
    | nil => exact ⟨[], by simp, by simpa using left.symm⟩
    | cons symbol more =>
      simp only [List.cons_append, List.cons.injEq] at left
      exact absurd (by simp [left.1]) free

section Splitting

variable [DecidableEq α]

/-- The lines of a sequence and its unended tail. -/
def split (separator : α) : List α → List (List α) × List α
  | [] => ([], [])
  | symbol :: rest =>
    let (lines, tail) := split separator rest
    if symbol = separator then ([] :: lines, tail)
    else
      match lines with
      | [] => ([], symbol :: tail)
      | line :: others => ((symbol :: line) :: others, tail)

/-- A sequence is its lines and its tail. -/
theorem join_split (separator : α) (symbols : List α) :
    join separator (split separator symbols).1 ++ (split separator symbols).2 = symbols := by
  induction symbols with
  | nil => rfl
  | cons symbol rest inductionHypothesis =>
    simp only [split]
    split
    · rename_i same
      simp [inductionHypothesis, same]
    · split
      · rename_i none
        simpa [none] using inductionHypothesis
      · rename_i line others some
        simpa [some] using inductionHypothesis

/-- Neither a line nor the tail contains a separator. -/
theorem split_free (separator : α) (symbols : List α) :
    (∀ line ∈ (split separator symbols).1, separator ∉ line) ∧
      separator ∉ (split separator symbols).2 := by
  induction symbols with
  | nil => simp [split]
  | cons symbol rest inductionHypothesis =>
    obtain ⟨free, unended⟩ := inductionHypothesis
    simp only [split]
    split
    · refine ⟨?_, unended⟩
      intro line member
      rcases List.mem_cons.mp member with rfl | old
      · simp
      · exact free line old
    · rename_i other
      have apart : separator ≠ symbol := fun same => other same.symm
      split
      · exact ⟨by simp, by simp [apart, unended]⟩
      · rename_i line others found
        rw [found] at free
        refine ⟨?_, unended⟩
        intro inspected member
        rcases List.mem_cons.mp member with rfl | old
        · simp [apart, free line (by simp)]
        · exact free inspected (by simp [old])

/-- The first line of a sequence that starts with one. -/
theorem split_line {separator : α} {line : List α} (free : separator ∉ line) (rest : List α) :
    split separator (line ++ separator :: rest) =
      (line :: (split separator rest).1, (split separator rest).2) := by
  induction line with
  | nil => simp [split]
  | cons symbol line inductionHypothesis =>
    have other : symbol ≠ separator := by
      rintro rfl
      simp at free
    rw [List.cons_append, split, inductionHypothesis (fun member => free (by simp [member]))]
    simp [other]

/-- A sequence without separators is all tail. -/
theorem split_tail {separator : α} {tail : List α} (free : separator ∉ tail) :
    split separator tail = ([], tail) := by
  induction tail with
  | nil => rfl
  | cons symbol tail inductionHypothesis =>
    have other : symbol ≠ separator := by
      rintro rfl
      simp at free
    rw [split, inductionHypothesis (fun member => free (by simp [member]))]
    simp [other]

/-- Splitting recovers the joined lines and the tail. -/
theorem split_join {separator : α} {lines : List (List α)} {tail : List α}
    (free : ∀ line ∈ lines, separator ∉ line) (unended : separator ∉ tail) :
    split separator (join separator lines ++ tail) = (lines, tail) := by
  induction lines with
  | nil => simpa using split_tail unended
  | cons line rest inductionHypothesis =>
    have later := inductionHypothesis (fun other member => free other (by simp [member]))
    rw [join_cons, List.append_assoc, List.cons_append, split_line (free line (by simp)), later]

/-- A separator at the end ends the tail as one more line. -/
theorem split_append_separator (separator : α) (symbols : List α) :
    split separator (symbols ++ [separator]) =
      ((split separator symbols).1 ++ [(split separator symbols).2], []) := by
  obtain ⟨free, unended⟩ := split_free separator symbols
  have whole : symbols ++ [separator] =
      join separator ((split separator symbols).1 ++ [(split separator symbols).2]) ++ [] := by
    conv => lhs; rw [← join_split separator symbols]
    simp [join_append]
  rw [whole, split_join _ (by simp)]
  intro line member
  rcases List.mem_append.mp member with old | last
  · exact free line old
  · rw [List.mem_singleton.mp last]
    exact unended

/-- Any other symbol at the end belongs to the tail. -/
theorem split_append_symbol {separator symbol : α} (other : symbol ≠ separator)
    (symbols : List α) :
    split separator (symbols ++ [symbol]) =
      ((split separator symbols).1, (split separator symbols).2 ++ [symbol]) := by
  obtain ⟨free, unended⟩ := split_free separator symbols
  have whole : symbols ++ [symbol] =
      join separator (split separator symbols).1 ++ ((split separator symbols).2 ++ [symbol]) := by
    conv => lhs; rw [← join_split separator symbols]
    rw [List.append_assoc]
  rw [whole, split_join free]
  simp [unended, other.symm]

end Splitting

end MinicoreAgent.Lines

import MinicoreAgent.Lib.Lines
import MinicoreAgent.Lib.Text
import Mathlib.Data.List.DropRight

/-!
# Lines of an encoded text

A newline takes one byte, and no other character has that byte. So the lines of an encoded
text are the encoded lines of the text, and what is cut at a newline is text again.
-/
namespace MinicoreAgent.TextLines

open Lines Text

def newlineByte : UInt8 := 10

section Encoding

theorem newline_of_char {char : Char} (member : newlineByte ∈ String.utf8EncodeChar char) :
    char = '\n' :=
  Char.toNat_inj.mp (char_of_ascii (by decide) member)

theorem newline_mem_encode {text : List Char} : newlineByte ∈ encode text ↔ '\n' ∈ text := by
  constructor
  · intro member
    obtain ⟨char, inside, byte⟩ := List.mem_flatMap.mp member
    rw [← newline_of_char byte]
    exact inside
  · intro member
    exact List.mem_flatMap.mpr ⟨'\n', member, by decide⟩

theorem encode_newline : encode ['\n'] = [newlineByte] := by decide

/-- The lines of an encoded text are its lines, encoded. -/
theorem encode_join (lines : List (List Char)) :
    encode (join '\n' lines) = join newlineByte (lines.map encode) := by
  induction lines with
  | nil => rfl
  | cons line rest inductionHypothesis =>
    have ended : line ++ '\n' :: join '\n' rest = line ++ (['\n'] ++ join '\n' rest) := rfl
    rw [join_cons, ended, encode_append, encode_append, encode_newline, inductionHypothesis,
      List.map_cons, join_cons]
    rfl

theorem encode_free {line : List Char} (free : '\n' ∉ line) : newlineByte ∉ encode line :=
  fun member => free (newline_mem_encode.mp member)

theorem lines_free {lines : List (List Char)} (free : ∀ line ∈ lines, '\n' ∉ line) :
    ∀ bytes ∈ lines.map encode, newlineByte ∉ bytes := by
  intro bytes member
  obtain ⟨line, inside, rfl⟩ := List.mem_map.mp member
  exact encode_free (free line inside)

end Encoding

section Beginnings

variable {α : Type} {separator : α} {whole lines : List (List α)} {more tail : List α}

/-- Lines at the beginning of a sequence are the first of its lines. -/
theorem lines_begin (free : ∀ line ∈ whole, separator ∉ line)
    (others : ∀ line ∈ lines, separator ∉ line) (unended : separator ∉ tail)
    (same : join separator whole ++ more = join separator lines ++ tail) :
    whole = lines.take whole.length ∧
      more = join separator (lines.drop whole.length) ++ tail := by
  induction whole generalizing lines with
  | nil => exact ⟨rfl, same⟩
  | cons line whole inductionHypothesis =>
    rw [join_cons, List.append_assoc, List.cons_append] at same
    cases lines with
    | nil =>
      rw [join_nil, List.nil_append] at same
      exact absurd (same ▸ List.mem_append_right line List.mem_cons_self) unended
    | cons first lines =>
      rw [join_cons, List.append_assoc, List.cons_append] at same
      obtain ⟨rfl, rest⟩ := first_line_unique (free line List.mem_cons_self)
        (others first List.mem_cons_self) same
      obtain ⟨taken, left⟩ := inductionHypothesis
        (fun line member => free line (List.mem_cons_of_mem _ member))
        (fun line member => others line (List.mem_cons_of_mem _ member)) rest
      rw [List.length_cons, List.take_succ_cons, List.drop_succ_cons, ← taken]
      exact ⟨rfl, left⟩

/-- Counting separators counts the ended lines. -/
theorem count_join [DecidableEq α] (free : ∀ line ∈ lines, separator ∉ line)
    (unended : separator ∉ tail) : (join separator lines ++ tail).count separator = lines.length := by
  induction lines with
  | nil => exact List.count_eq_zero.mpr unended
  | cons line rest inductionHypothesis =>
    have later := inductionHypothesis fun line member => free line (List.mem_cons_of_mem _ member)
    rw [join_cons, List.append_assoc, List.cons_append, List.count_append,
      List.count_eq_zero.mpr (free line List.mem_cons_self), List.count_cons_self, later,
      List.length_cons]
    omega

/-- The lines of a longer sequence begin with those that are ended before. -/
theorem split_append [DecidableEq α] (symbols more : List α) :
    (Lines.split separator (symbols ++ more)).1 = (Lines.split separator symbols).1 ++
      (Lines.split separator ((Lines.split separator symbols).2 ++ more)).1 := by
  obtain ⟨free, -⟩ := split_free separator symbols
  have whole := join_split separator symbols
  generalize Lines.split separator symbols = parts at free whole
  obtain ⟨lines, tail⟩ := parts
  subst whole
  rw [List.append_assoc]
  dsimp only at free ⊢
  induction lines with
  | nil => rfl
  | cons line lines inductionHypothesis =>
    rw [join_cons, List.append_assoc, List.cons_append,
      split_line (free line List.mem_cons_self), List.cons_append,
      ← inductionHypothesis fun line member => free line (List.mem_cons_of_mem _ member)]

/-- Lines end in their separator. -/
theorem join_ends (separator : α) (lines : List (List α)) :
    join separator lines = [] ∨ ∃ front, join separator lines = front ++ [separator] := by
  rcases List.eq_nil_or_concat lines with rfl | ⟨before, line, rfl⟩
  · exact Or.inl rfl
  · right
    refine ⟨join separator before ++ line, ?_⟩
    rw [List.concat_eq_append, join_append, join_cons, join_nil, List.append_assoc]

/-- Dropping up to the last separator leaves the ended lines. -/
theorem cut_join [DecidableEq α] (lines : List (List α)) (unended : separator ∉ tail) :
    (join separator lines ++ tail).rdropWhile (· ≠ separator) = join separator lines ∧
      (join separator lines ++ tail).rtakeWhile (· ≠ separator) = tail := by
  induction tail using List.reverseRecOn with
  | nil =>
    rw [List.append_nil]
    rcases join_ends separator lines with nothing | ⟨front, ended⟩
    · rw [nothing]
      exact ⟨rfl, rfl⟩
    · rw [ended, List.rdropWhile_concat_neg _ _ _ (by simp),
        List.rtakeWhile_concat_neg _ _ _ (by simp)]
      exact ⟨rfl, rfl⟩
  | append_singleton tail symbol inductionHypothesis =>
    have other : symbol ≠ separator := by
      rintro rfl
      exact unended (by simp)
    obtain ⟨dropped, taken⟩ :=
      inductionHypothesis fun member => unended (List.mem_append_left _ member)
    rw [← List.append_assoc, List.rdropWhile_concat_pos _ _ _ (by simpa using other),
      List.rtakeWhile_concat_pos _ _ _ (by simpa using other), dropped, taken]
    exact ⟨rfl, rfl⟩

end Beginnings

section Pieces

variable {α : Type} {separator : α}

/-- Lines with their separators, of which only the last may have none. -/
inductive Pieces (separator : α) : List (List α) → Prop where
  | nil : Pieces separator []
  | tail {tail : List α} (some : tail ≠ []) (free : separator ∉ tail) : Pieces separator [tail]
  | line {line : List α} {rest : List (List α)} (free : separator ∉ line)
      (others : Pieces separator rest) : Pieces separator ((line ++ [separator]) :: rest)

/-- The lines of a sequence with their separators, and what follows them. -/
def pieces [DecidableEq α] (separator : α) (symbols : List α) : List (List α) :=
  (Lines.split separator symbols).1.map (· ++ [separator]) ++
    if (Lines.split separator symbols).2 = [] then [] else [(Lines.split separator symbols).2]

variable [DecidableEq α]

theorem pieces_are (separator : α) (symbols : List α) : Pieces separator (pieces separator symbols) := by
  obtain ⟨free, unended⟩ := split_free separator symbols
  rw [pieces]
  generalize (Lines.split separator symbols).1 = lines at free
  induction lines with
  | nil =>
    split
    · exact Pieces.nil
    · rename_i some
      exact Pieces.tail some unended
  | cons line lines inductionHypothesis =>
    exact Pieces.line (free line List.mem_cons_self)
      (inductionHypothesis fun line member => free line (List.mem_cons_of_mem _ member))

theorem pieces_flatten (separator : α) (symbols : List α) :
    (pieces separator symbols).flatten = symbols := by
  have whole := join_split separator symbols
  rw [pieces, List.flatten_append, ← List.flatMap_def]
  split
  · rename_i none
    rw [none] at whole
    exact whole
  · rw [List.flatten_singleton]
    exact whole

theorem pieces_line {line : List α} (free : separator ∉ line) (rest : List α) :
    pieces separator (line ++ separator :: rest) =
      (line ++ [separator]) :: pieces separator rest := by
  rw [pieces, split_line free]
  rfl

/-- Pieces are those of the sequence they make up. -/
theorem Pieces.unique {parts : List (List α)} (are : Pieces separator parts) :
    pieces separator parts.flatten = parts := by
  induction are with
  | nil => rfl
  | tail some free => rw [List.flatten_singleton, pieces, split_tail free, if_neg some]; rfl
  | line free others inductionHypothesis =>
    rw [List.flatten_cons, List.append_assoc, List.singleton_append, pieces_line free,
      inductionHypothesis]

omit [DecidableEq α]

theorem Pieces.filled {parts : List (List α)} (are : Pieces separator parts) :
    ∀ part ∈ parts, part ≠ [] := by
  induction are with
  | nil => simp
  | tail some free => simpa using some
  | line free others inductionHypothesis =>
    intro part member
    rcases List.mem_cons.mp member with rfl | later
    · simp
    · exact inductionHypothesis part later

theorem Pieces.rest {part : List α} {parts : List (List α)}
    (are : Pieces separator (part :: parts)) : Pieces separator parts := by
  cases are with
  | tail some free => exact Pieces.nil
  | line free others => exact others

theorem Pieces.later {front parts : List (List α)} (are : Pieces separator (front ++ parts)) :
    Pieces separator parts := by
  induction front with
  | nil => exact are
  | cons first front inductionHypothesis => exact inductionHypothesis are.rest

/-- What is left of the first piece begins the pieces that are left. -/
theorem Pieces.begin {before after : List α} {rest : List (List α)}
    (are : Pieces separator ((before ++ after) :: rest)) (some : after ≠ []) :
    Pieces separator (after :: rest) := by
  generalize same : before ++ after = part at are
  cases are with
  | tail filled free =>
    rw [← same] at free
    exact Pieces.tail some fun member => free (List.mem_append_right before member)
  | line free others =>
    rcases List.eq_nil_or_concat after with none | ⟨front, last, rfl⟩
    · exact absurd none some
    · rw [List.concat_eq_append, ← List.append_assoc] at same
      obtain ⟨rfl, ended⟩ := List.append_inj' same rfl
      obtain ⟨rfl, -⟩ := List.cons.inj ended
      rw [List.concat_eq_append]
      exact Pieces.line (fun member => free (List.mem_append_right before member)) others

end Pieces

end MinicoreAgent.TextLines

import MinicoreAgent.Lib.TextLines

/-!
# Places in a workspace file

A place is a line and a byte offset inside it. The line is found by counting newlines, and
the offset must lie before the end of the line and between two characters. What is there is
the rest of the line and the lines behind it.
-/
namespace MinicoreAgent.WorkspaceRead

open Text TextLines

/-- `AgentError`, as far as a read of the workspace returns it. -/
inductive AgentError where
  | invalidArguments
  | queryLimit
  | workspace
deriving DecidableEq, Repr

section Lines

/-- The loop over the bytes, from the current line and the index of the next byte. -/
def lineStartLoop (line length : Nat) : Nat → Nat → List UInt8 → Option Nat
  | _, _, [] => none
  | current, index, byte :: rest =>
    if byte ≠ newlineByte then lineStartLoop line length current (index + 1) rest
    else if current + 1 = line then if index + 1 < length then some (index + 1) else none
    else lineStartLoop line length (current + 1) (index + 1) rest

def lineStartOffset (buffer : List Char) (line : Nat) : Option Nat :=
  if buffer = [] then none
  else if line ≤ 1 then some 0
  else lineStartLoop line (byteLen buffer) 1 0 (encode buffer)

/-- The line at the beginning of a text, with its newline if it has one. -/
def firstSegment (text : List Char) : List Char := (pieces '\n' text).headD []

/-- The end of the line that begins at an offset. -/
def lineRawEnd (buffer : List Char) (start : Nat) : Nat :=
  match splitAt buffer start with
  | none => byteLen buffer
  | some (_, rest) => start + byteLen (firstSegment rest)

/-- What `read_until` reads from: nothing where there is no such line, and else the text at
the offset in the line. -/
def locate (text : List Char) (startLine offset : Nat) : Except AgentError (Option (List Char)) :=
  match lineStartOffset text startLine with
  | none => if offset ≠ 0 then .error .invalidArguments else .ok none
  | some lineStart =>
    let rawLen := lineRawEnd text lineStart - lineStart
    if offset ≥ rawLen then .error .invalidArguments
    else
      match splitAt text (lineStart + offset) with
      | none => .error .invalidArguments
      | some (_, rest) => .ok (some rest)

end Lines

section Places

variable {text : List Char}

/-- A place in the text, and what is there. -/
inductive Place (text : List Char) : Nat → Nat → List Char → Prop where
  | at {front back : List (List Char)} {before after : List Char}
      (whole : pieces '\n' text = front ++ (before ++ after) :: back) (some : after ≠ []) :
      Place text (front.length + 1) (byteLen before) (after ++ back.flatten)

theorem byte_len_pos {text : List Char} (some : text ≠ []) : 0 < byteLen text := by
  cases text with
  | nil => exact absurd rfl some
  | cons char rest =>
    have positive := char.utf8Size_pos
    rw [byte_len_cons]
    omega

/-- A line without newlines only moves the index. -/
theorem line_start_free {line length current index : Nat} {bytes : List UInt8}
    (free : newlineByte ∉ bytes) (rest : List UInt8) :
    lineStartLoop line length current index (bytes ++ rest) =
      lineStartLoop line length current (index + bytes.length) rest := by
  induction bytes generalizing index with
  | nil => rfl
  | cons byte bytes inductionHypothesis =>
    have other : byte ≠ newlineByte := fun same => free (same ▸ List.mem_cons_self)
    rw [List.cons_append, lineStartLoop, if_pos other,
      inductionHypothesis fun member => free (List.mem_cons_of_mem byte member),
      List.length_cons]
    congr 1
    omega

/-- The loop finds the beginning of a line among those that are left. -/
theorem line_start_loop {parts : List (List Char)} (are : Pieces '\n' parts)
    {line length current index : Nat} (before : current < line)
    (left : length = index + byteLen parts.flatten) :
    lineStartLoop line length current index (encode parts.flatten) =
      if line - current < parts.length then
        some (index + byteLen (parts.take (line - current)).flatten)
      else none := by
  induction are generalizing current index with
  | nil =>
    rw [List.length_nil, if_neg (Nat.not_lt_zero _)]
    rfl
  | tail some free =>
    rename_i tail
    rw [List.flatten_singleton, ← List.append_nil (encode tail), line_start_free (encode_free free),
      List.length_singleton, if_neg (by omega)]
    rfl
  | line free others inductionHypothesis =>
    rename_i first rest
    have newline : byteLen ['\n'] = 1 := rfl
    have size : byteLen ((first ++ ['\n']) :: rest).flatten =
        byteLen first + 1 + byteLen rest.flatten := by
      rw [List.flatten_cons, byte_len_append, byte_len_append, newline]
    have bytes : encode ((first ++ ['\n']) :: rest).flatten =
        encode first ++ newlineByte :: encode rest.flatten := by
      rw [List.flatten_cons, encode_append, encode_append, encode_newline, List.append_assoc]
      rfl
    rw [size] at left
    rw [bytes, line_start_free (encode_free free), lineStartLoop, if_neg (not_not_intro rfl),
      encode_length, List.length_cons]
    by_cases last : current + 1 = line
    · have one : line - current = 1 := by omega
      rw [if_pos last, one, List.take_succ_cons, List.take_zero, List.flatten_singleton,
        byte_len_append, newline]
      cases rest with
      | nil =>
        rw [List.flatten_nil, byte_len_nil] at left
        rw [if_neg (by omega), if_neg (by decide)]
      | cons part rest =>
        have positive := byte_len_pos (others.filled part List.mem_cons_self)
        rw [List.flatten_cons, byte_len_append] at left
        rw [if_pos (by omega), if_pos (by rw [List.length_cons]; omega)]
        rfl
    · have next : line - current = line - (current + 1) + 1 := by omega
      rw [if_neg last, inductionHypothesis (by omega) (by omega), next, List.take_succ_cons,
        List.flatten_cons, byte_len_append, byte_len_append, newline]
      simp only [Nat.add_lt_add_iff_right]
      congr 2
      omega

/-- The beginning of a line that there is. -/
theorem line_start_offset (text : List Char) {line : Nat} (positive : 1 ≤ line) :
    lineStartOffset text line =
      if line - 1 < (pieces '\n' text).length then
        some (byteLen ((pieces '\n' text).take (line - 1)).flatten)
      else none := by
  have are := pieces_are '\n' text
  have whole := pieces_flatten '\n' text
  rw [lineStartOffset]
  by_cases none : text = []
  · rw [if_pos none, none]
    exact (if_neg (Nat.not_lt_zero _)).symm
  · rw [if_neg none]
    by_cases first : line ≤ 1
    · have one : line - 1 = 0 := by omega
      have some : pieces '\n' text ≠ [] := by
        intro nothing
        rw [nothing] at whole
        exact none whole.symm
      rw [if_pos first, one, if_pos (List.length_pos_iff.mpr some)]
      rfl
    · have found : lineStartLoop line (byteLen text) 1 0 (encode (pieces '\n' text).flatten) = _ :=
        line_start_loop are (Nat.lt_of_not_le first) (by rw [whole, Nat.zero_add])
      rw [whole, Nat.zero_add] at found
      rw [if_neg first, found]

/-- The text behind the first lines. -/
theorem split_at_line (text : List Char) (count : Nat) :
    splitAt text (byteLen ((pieces '\n' text).take count).flatten) =
      some (((pieces '\n' text).take count).flatten, ((pieces '\n' text).drop count).flatten) := by
  rw [split_at_iff, ← List.flatten_append, List.take_append_drop, pieces_flatten]
  exact ⟨rfl, rfl⟩

theorem first_segment_drop {text : List Char} {count : Nat} {segment : List Char}
    {rest : List (List Char)} (whole : (pieces '\n' text).drop count = segment :: rest) :
    firstSegment (segment :: rest).flatten = segment := by
  have are : Pieces '\n' ((pieces '\n' text).take count ++ (pieces '\n' text).drop count) := by
    rw [List.take_append_drop]
    exact pieces_are '\n' text
  have later := are.later
  rw [whole] at later
  rw [firstSegment, later.unique]
  rfl

/-- Locating in a line that there is. -/
theorem locate_line {front back : List (List Char)} {segment : List Char}
    (whole : pieces '\n' text = front ++ segment :: back) (offset : Nat) :
    locate text (front.length + 1) offset =
      if offset ≥ byteLen segment then .error .invalidArguments
      else
        match splitAt text (byteLen front.flatten + offset) with
        | none => .error .invalidArguments
        | some (_, rest) => .ok (some rest) := by
  have taken : (pieces '\n' text).take front.length = front := by rw [whole, List.take_left]
  have dropped : (pieces '\n' text).drop front.length = segment :: back := by
    rw [whole, List.drop_left]
  have some := line_start_offset text (Nat.succ_pos front.length)
  have split := split_at_line text front.length
  rw [Nat.succ_sub_one, taken, whole, List.length_append, List.length_cons,
    if_pos (by omega)] at some
  rw [taken, dropped] at split
  have raw : lineRawEnd text (byteLen front.flatten) - byteLen front.flatten = byteLen segment := by
    rw [lineRawEnd, split]
    dsimp only
    rw [first_segment_drop dropped, Nat.add_sub_cancel_left]
  rw [locate, some]
  dsimp only
  rw [raw]

/-- A cut behind the front and inside the segment cuts the segment. -/
theorem cut_inside {front segment back begins rest : List Char} {offset : Nat}
    (same : front ++ (segment ++ back) = begins ++ rest)
    (size : byteLen begins = byteLen front + offset) (inside : offset < byteLen segment) :
    ∃ before after, segment = before ++ after ∧ byteLen before = offset ∧ after ≠ [] ∧
      rest = after ++ back := by
  obtain ⟨middle, rfl, others⟩ : ∃ middle, begins = front ++ middle ∧
      segment ++ back = middle ++ rest := by
    rcases List.append_eq_append_iff.mp same with ⟨middle, whole, left⟩ | ⟨middle, whole, left⟩
    · exact ⟨middle, whole, left⟩
    · have none : middle = [] := by
        by_contra some
        have positive := byte_len_pos some
        rw [whole, byte_len_append] at size
        omega
      rw [none, List.append_nil] at whole
      rw [none, List.nil_append] at left
      exact ⟨[], by rw [whole, List.append_nil], left.symm⟩
  rw [byte_len_append] at size
  rcases List.append_eq_append_iff.mp others with ⟨more, whole, -⟩ | ⟨after, whole, left⟩
  · rw [whole, byte_len_append] at size
    omega
  · refine ⟨middle, after, whole, by omega, ?_, left⟩
    rintro rfl
    rw [List.append_nil] at whole
    rw [whole] at inside
    omega

/-- A place is located, and every located place is one. -/
theorem locate_iff {startLine offset : Nat} {rest : List Char} (positive : 1 ≤ startLine) :
    locate text startLine offset = .ok (some rest) ↔ Place text startLine offset rest := by
  constructor
  · intro located
    have some := line_start_offset text positive
    by_cases there : startLine - 1 < (pieces '\n' text).length
    · obtain ⟨segment, back, dropped⟩ := List.exists_cons_of_length_pos
        (l := (pieces '\n' text).drop (startLine - 1)) (by rw [List.length_drop]; omega)
      have length : ((pieces '\n' text).take (startLine - 1)).length = startLine - 1 := by
        rw [List.length_take, Nat.min_eq_left (Nat.le_of_lt there)]
      have whole : pieces '\n' text =
          (pieces '\n' text).take (startLine - 1) ++ segment :: back := by
        rw [← dropped, List.take_append_drop]
      have number : startLine = ((pieces '\n' text).take (startLine - 1)).length + 1 := by
        omega
      generalize (pieces '\n' text).take (startLine - 1) = front at whole number
      have flat := pieces_flatten '\n' text
      rw [whole, List.flatten_append, List.flatten_cons] at flat
      rw [number] at located ⊢
      rw [locate_line whole] at located
      split at located
      · cases located
      · rename_i inside
        split at located
        · cases located
        · rename_i begins others split
          cases located
          obtain ⟨cut, size⟩ := split_at_iff.mp split
          obtain ⟨before, after, rfl, length, filled, rfl⟩ :=
            cut_inside (flat.trans cut) size (Nat.lt_of_not_le inside)
          rw [← length]
          exact Place.at whole filled
    · rw [if_neg there] at some
      rw [locate, some] at located
      dsimp only at located
      split at located
      · cases located
      · cases located
  · rintro ⟨whole, some⟩
    rename_i front back before after
    have positive := byte_len_pos some
    have flat := pieces_flatten '\n' text
    rw [whole, List.flatten_append, List.flatten_cons] at flat
    have split : splitAt text (byteLen front.flatten + byteLen before) =
        Option.some (front.flatten ++ before, after ++ back.flatten) := by
      rw [split_at_iff, byte_len_append, ← flat]
      exact ⟨by simp, rfl⟩
    rw [locate_line whole, if_neg (by rw [byte_len_append]; omega), split]

/-- Nothing is located where there are fewer lines. -/
theorem locate_none_iff {startLine offset : Nat} (positive : 1 ≤ startLine) :
    locate text startLine offset = .ok none ↔
      (pieces '\n' text).length < startLine ∧ offset = 0 := by
  have some := line_start_offset text positive
  by_cases there : startLine - 1 < (pieces '\n' text).length
  · refine iff_of_false ?_ (by omega)
    rw [if_pos there] at some
    intro located
    rw [locate, some] at located
    dsimp only at located
    split at located
    · cases located
    · split at located
      · cases located
      · cases located
  · rw [if_neg there] at some
    rw [locate, some]
    dsimp only
    by_cases zero : offset = 0
    · rw [if_neg (not_not_intro zero)]
      exact iff_of_true rfl ⟨by omega, zero⟩
    · rw [if_pos zero]
      exact iff_of_false (by simp) (fun few => zero few.2)

end Places

end MinicoreAgent.WorkspaceRead

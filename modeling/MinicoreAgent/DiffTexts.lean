import MinicoreAgent.DiffPages
import MinicoreAgent.DiffRebuild

/-!
# The lines of a plan are texts

A plan is only made of two texts, and their lines end with ASCII characters. A stretch
of an encoded text that ends behind an ASCII byte is itself an encoded text, so every
planned line can be decoded, whole and from any character boundary on.
-/
namespace MinicoreAgent.Diffs

open EditOps (Op slice)
open MinicoreAgent.Text (byteLen encode encode_append encode_cons encode_length encoded_char
  isBoundary)

section Encoding

theorem decode_encode (text : List Char) : decode (encode text) = some text :=
  Text.decode_encode text

/-- An encoded text is cut behind an ASCII byte at a character. -/
theorem encoded_cut {text : List Char} {front rest : Bytes} {byte : UInt8} (ascii : byte < 0x80)
    (whole : encode text = front ++ byte :: rest) :
    ∃ before after, encode before = front ++ [byte] ∧ encode after = rest := by
  induction text generalizing front with
  | nil =>
    rw [encode, List.flatMap_nil] at whole
    exact absurd whole.symm (by simp)
  | cons char text inductionHypothesis =>
    rw [encode_cons] at whole
    rcases List.append_eq_append_iff.mp whole with
      ⟨more, ended, others⟩ | ⟨more, ended, others⟩
    · -- The character's bytes stand before the byte.
      obtain ⟨before, after, cut, behind⟩ := inductionHypothesis others
      refine ⟨char :: before, after, ?_, behind⟩
      rw [encode_cons, cut, ended, List.append_assoc]
    · cases more with
      | nil =>
        rw [List.append_nil] at ended
        have begins : encode text = [] ++ byte :: rest := by simpa using others.symm
        obtain ⟨before, after, cut, behind⟩ := inductionHypothesis begins
        refine ⟨char :: before, after, ?_, behind⟩
        rw [encode_cons, cut, ended, List.nil_append]
      | cons first more =>
        obtain ⟨rfl, tail⟩ := List.cons.inj others
        rcases encoded_char char with ⟨single, alone⟩ | high
        · have only : front = [] ∧ more = [] := by
            rw [alone] at ended
            cases front with
            | nil => exact ⟨rfl, (List.cons.inj ended).2.symm⟩
            | cons other front =>
              have empty := (List.cons.inj ended).2
              exact absurd empty.symm (by simp)
          obtain ⟨rfl, rfl⟩ := only
          refine ⟨[char], text, ?_, tail.symm⟩
          rw [encode, List.flatMap_singleton, ended]
        · have member : byte ∈ String.utf8EncodeChar char := by
            rw [ended]
            simp
          exact absurd (high byte member) (UInt8.not_le.mpr ascii)

end Encoding

section PlannedLines

/-- Every line of an encoded text is an encoded text. -/
theorem line_texts {lines : List Bytes} {bytes : Bytes} (split : LineSplit lines bytes)
    {text : List Char} (encoded : encode text = bytes) :
    ∀ line ∈ lines, ∃ shown, encode shown = line := by
  induction split generalizing text with
  | nil =>
    intro line member
    cases member
  | last plain some =>
    intro line member
    rw [List.mem_singleton.mp member]
    exact ⟨text, encoded⟩
  | @line body ending rest lines plain ended whole later inductionHypothesis =>
    have last : ∃ front byte, body ++ ending = front ++ [byte] ∧ byte < 0x80 := by
      simp only [List.mem_cons, List.not_mem_nil, or_false] at ended
      rcases ended with rfl | rfl | rfl
      · exact ⟨body, 0x0a, rfl, by decide⟩
      · exact ⟨body, 0x0d, rfl, by decide⟩
      · exact ⟨body ++ [0x0d], 0x0a, by simp, by decide⟩
    obtain ⟨front, byte, same, ascii⟩ := last
    rw [same, List.append_assoc, List.singleton_append] at encoded
    obtain ⟨before, after, cut, behind⟩ := encoded_cut ascii encoded
    intro line member
    rcases List.mem_cons.mp member with rfl | among
    · exact ⟨before, cut.trans same.symm⟩
    · exact inductionHypothesis behind line among

theorem split_loop_entries {lines : List Bytes} {text : Bytes} (split : LineSplit lines text)
    (limit start : Nat) (found : List (Nat × Nat)) :
    ∀ entry ∈ splitLinesLoop limit text start start found,
      entry ∈ found ∨ entry ∈ tableFrom start lines := by
  induction split generalizing start found with
  | nil =>
    intro entry member
    rw [splitLinesLoop, if_neg (Nat.lt_irrefl start)] at member
    exact Or.inl member
  | @last body plain some =>
    intro entry member
    have scanned := scan_plain limit plain [] start start found
    rw [List.append_nil] at scanned
    have positive : 0 < body.length := List.length_pos_iff.mpr some
    rw [scanned, splitLinesLoop, if_pos (by omega), Nat.add_sub_cancel_left] at member
    exact List.mem_append.mp member
  | @line body ending rest lines plain ended whole later inductionHypothesis =>
    intro entry member
    have length : start + body.length + ending.length - start = (body ++ ending).length := by
      rw [List.length_append]
      omega
    rw [List.append_assoc, scan_plain limit plain, scan_ending limit ended whole, length] at member
    rw [tableFrom]
    split at member
    · rcases List.mem_append.mp member with earlier | now
      · exact Or.inl earlier
      · exact Or.inr (List.mem_cons.mpr (Or.inl (List.mem_singleton.mp now)))
    · rw [Nat.add_assoc, ← List.length_append] at member
      rcases inductionHypothesis _ _ entry member with earlier | after
      · rcases List.mem_append.mp earlier with before | now
        · exact Or.inl before
        · exact Or.inr (List.mem_cons.mpr (Or.inl (List.mem_singleton.mp now)))
      · exact Or.inr (List.mem_cons_of_mem _ after)

/-- An entry of a table of lines names one of the lines. -/
theorem table_entry_line (front : Bytes) {lines : List Bytes} {entry : Nat × Nat}
    (member : entry ∈ tableFrom front.length lines) :
    ∃ line ∈ lines, slice (front ++ lines.flatten) entry.1 entry.2 = line ∧
      entry.2 = line.length ∧ entry.1 + entry.2 ≤ (front ++ lines.flatten).length := by
  induction lines generalizing front with
  | nil => cases member
  | cons line rest inductionHypothesis =>
    rw [tableFrom] at member
    rcases List.mem_cons.mp member with rfl | later
    · refine ⟨line, List.mem_cons_self, ?_, rfl, ?_⟩
      · simp [slice]
      · simp only [List.flatten_cons, List.length_append]
        omega
    · rw [← List.length_append] at later
      obtain ⟨shown, among, same, length, inside⟩ := inductionHypothesis (front ++ line) later
      rw [List.append_assoc] at same inside
      exact ⟨shown, List.mem_cons_of_mem line among, same, length, inside⟩

/-- A planned line stands inside its source and is this text. -/
structure LineReads (before after : Bytes) (line : LinePlan) (text : List Char) : Prop where
  inside : line.byteStart + line.byteLen ≤ (line.source.bytes before after).length
  bytes : slice (line.source.bytes before after) line.byteStart line.byteLen = encode text

theorem LineSplit.filled {lines : List Bytes} {text : Bytes} (split : LineSplit lines text) :
    ∀ line ∈ lines, line ≠ [] := by
  induction split with
  | nil =>
    intro line member
    cases member
  | last plain some =>
    intro line member
    rw [List.mem_singleton.mp member]
    exact some
  | @line body ending rest lines plain ended whole later inductionHypothesis =>
    intro line member
    rcases List.mem_cons.mp member with rfl | among
    · simp only [List.mem_cons, List.not_mem_nil, or_false] at ended
      rcases ended with rfl | rfl | rfl
      · simp
      · simp
      · simp
    · exact inductionHypothesis line among

/-- Every entry of the lines of an encoded text is an encoded text, and not empty. -/
theorem split_lines_texts {bytes : Bytes} {text : List Char} (encoded : encode text = bytes)
    (limit : Nat) :
    ∀ entry ∈ (splitLines bytes limit).1,
      0 < entry.2 ∧ entry.1 + entry.2 ≤ bytes.length ∧
        ∃ shown, slice bytes entry.1 entry.2 = encode shown := by
  intro entry member
  obtain ⟨lines, split⟩ := line_split_total bytes
  rcases split_loop_entries split limit 0 [] entry member with nothing | among
  · cases nothing
  · obtain ⟨line, of_lines, same, length, inside⟩ := table_entry_line [] among
    rw [List.nil_append, split.flatten] at same inside
    obtain ⟨shown, whole⟩ := line_texts split encoded line of_lines
    have filled := List.length_pos_iff.mpr (split.filled line of_lines)
    exact ⟨length ▸ filled, inside, shown, same.trans whole.symm⟩

theorem map_m_source {Source Result : Type} {step : Source → Option Result}
    {sources : List Source} {results : List Result} (mapped : sources.mapM step = some results) :
    ∀ result ∈ results, ∃ source ∈ sources, step source = some result := by
  induction sources generalizing results with
  | nil =>
    cases mapped
    intro result member
    cases member
  | cons source rest inductionHypothesis =>
    simp only [List.mapM_cons, Option.bind_eq_bind, Option.bind_eq_some_iff, Option.pure_def,
      Option.some.injEq] at mapped
    obtain ⟨first, found, others, more, rfl⟩ := mapped
    intro result member
    rcases List.mem_cons.mp member with rfl | later
    · exact ⟨source, List.mem_cons_self, found⟩
    · obtain ⟨origin, among, same⟩ := inductionHypothesis more result later
      exact ⟨origin, List.mem_cons_of_mem source among, same⟩

theorem utf8_text {bytes : Bytes} (utf8 : isUtf8 bytes = true) : ∃ text, encode text = bytes := by
  obtain ⟨text, same⟩ := ByteArray.validateUTF8_eq_true_iff.mp utf8
  refine ⟨text, ?_⟩
  have data := congrArg (fun array => array.data.toList) same
  simpa [List.utf8Encode, encode] using data.symm

variable {before after : Bytes}

/-- A line that is planned from the tables of two texts reads as a text that is not empty. -/
theorem line_plan_reads {beforeText afterText : List Char} (beforeUtf8 : encode beforeText = before)
    (afterUtf8 : encode afterText = after) {beforeLimit afterLimit : Nat} {change : Change}
    {line : LinePlan}
    (planned : linePlan (splitLines before beforeLimit).1 (splitLines after afterLimit).1 change =
      some line) :
    0 < line.byteLen ∧ ∃ text, LineReads before after line text := by
  have entry (lines : List (Nat × Nat)) (index : Nat) (start len : Nat)
      (found : lines[index]? = some (start, len)) : (start, len) ∈ lines :=
    List.mem_of_getElem? found
  rw [linePlan] at planned
  split at planned
  · simp only [Option.bind_eq_bind, Option.bind_eq_some_iff, Option.some.injEq] at planned
    obtain ⟨index, -, ⟨start, len⟩, found, rfl⟩ := planned
    obtain ⟨filled, inside, text, same⟩ :=
      split_lines_texts afterUtf8 afterLimit _ (entry _ _ _ _ found)
    exact ⟨filled, text, inside, same⟩
  · simp only [Option.bind_eq_bind, Option.bind_eq_some_iff, Option.some.injEq] at planned
    obtain ⟨index, -, ⟨start, len⟩, found, rfl⟩ := planned
    obtain ⟨filled, inside, text, same⟩ :=
      split_lines_texts beforeUtf8 beforeLimit _ (entry _ _ _ _ found)
    exact ⟨filled, text, inside, same⟩
  · simp only [Option.bind_eq_bind, Option.bind_eq_some_iff, Option.some.injEq] at planned
    obtain ⟨index, -, ⟨start, len⟩, found, rfl⟩ := planned
    obtain ⟨filled, inside, text, same⟩ :=
      split_lines_texts afterUtf8 afterLimit _ (entry _ _ _ _ found)
    exact ⟨filled, text, inside, same⟩

/-- Every line of a plan reads as a text that is not empty. -/
theorem planned_texts {Fingerprint : Type} {similar : Similar} {digest : Bytes → Fingerprint}
    {contextLines : Nat} {plan : DiffPlan Fingerprint}
    (made : planned similar digest before after contextLines = .ok (.plan plan)) :
    ∀ hunk ∈ plan.hunks, ∀ line ∈ hunk.lines,
      0 < line.byteLen ∧ ∃ text, LineReads before after line text := by
  rw [planned] at made
  split at made
  · cases made
  · rename_i utf8
    simp only [Bool.not_eq_true, Bool.or_eq_false_iff, Bool.not_eq_false'] at utf8
    obtain ⟨beforeText, beforeUtf8⟩ := utf8_text utf8.1
    obtain ⟨afterText, afterUtf8⟩ := utf8_text utf8.2
    split at made
    · cases made
    · simp only at made
      split at made
      · cases made
        intro hunk member
        cases member
      · split at made
        · cases made
          intro hunk member
          cases member
        · split at made
          · cases made
          · rename_i found mapped
            cases made
            intro hunk member line listed
            obtain ⟨some_hunk, among, same⟩ := List.mem_filterMap.mp member
            have is_hunk : some_hunk = some hunk := same
            obtain ⟨group, -, made⟩ := map_m_source mapped some_hunk among
            rw [is_hunk, hunkPlan] at made
            simp only [Option.bind_eq_bind, Option.bind_eq_some_iff] at made
            obtain ⟨lines, planned_all, rest⟩ := made
            split at rest
            · cases rest
            · cases rest
              obtain ⟨change, -, planned_line⟩ := map_m_source planned_all line listed
              exact line_plan_reads beforeUtf8 afterUtf8 planned_line

/-- Every line of a plan reads as a text. -/
theorem planned_lines {Fingerprint : Type} {similar : Similar} {digest : Bytes → Fingerprint}
    {contextLines : Nat} {plan : DiffPlan Fingerprint}
    (made : planned similar digest before after contextLines = .ok (.plan plan)) :
    ∀ hunk ∈ plan.hunks, ∀ line ∈ hunk.lines, ∃ text, LineReads before after line text :=
  fun hunk member line listed => (planned_texts made hunk member line listed).2

theorem LineReads.byte_len {line : LinePlan} {text : List Char}
    (reads : LineReads before after line text) : line.byteLen = byteLen text := by
  have inside := reads.inside
  rw [← encode_length, ← reads.bytes, slice, List.length_take, List.length_drop]
  omega

/-- A planned line as a whole is its text. -/
theorem whole_text_reads {line : LinePlan} {text : List Char}
    (reads : LineReads before after line text) : pendingText before after line 0 = .ok text := by
  rw [pendingText]
  simp only [reads.bytes]
  rw [if_neg (Nat.not_lt.mpr reads.inside), if_neg (Nat.not_lt_zero _), List.drop_zero,
    decode_encode]
  rfl

/-- From a character boundary on, a planned line is the text behind it. -/
theorem pending_text_reads {line : LinePlan} {front rest : List Char}
    (reads : LineReads before after line (front ++ rest)) :
    pendingText before after line (byteLen front) = .ok rest := by
  have behind : (encode (front ++ rest)).drop (byteLen front) = encode rest := by
    rw [encode_append, ← encode_length, List.drop_left]
  have boundary : isBoundary (front ++ rest) (byteLen front) = true :=
    Text.is_boundary_iff.mpr ⟨front, rest, rfl, rfl⟩
  have long : ¬ (encode (front ++ rest)).length < byteLen front := by
    rw [encode_length, Text.byte_len_append]
    omega
  rw [pendingText]
  simp only [reads.bytes]
  rw [if_neg (Nat.not_lt.mpr reads.inside), if_neg long, behind, decode_encode, decode_encode]
  simp [boundary]

end PlannedLines

end MinicoreAgent.Diffs

import MinicoreAgent.Lib.Matches
import MinicoreAgent.PatchApply

/-!
# The literal edit of a file

An edit replaces the text it is given, once or at every disjoint match. Where the file
has CRLF endings and the text to replace has line feeds only, both texts are first
written with CRLF endings. The length of the result is computed and bounded before the
result is built.
-/
namespace MinicoreAgent.Edits

open MinicoreAgent.Text (byteLen byte_len_append)
open MinicoreAgent.Matches
open MinicoreAgent.Patches (Text ToolError maxPatchBytes usizeMax)

section Model

structure EditInput where
  path : Text
  oldText : Text
  newText : Text
  replaceAll : Bool := false
  deriving DecidableEq

def crlf : Text := ['\r', '\n']

/-- `str::contains` of a pattern that is not empty. -/
def contains (pattern text : Text) : Bool := (find pattern text).isSome

/-- The texts of the edit are written with CRLF endings. -/
def translates (source : Text) (input : EditInput) : Bool :=
  contains crlf source && contains ['\n'] input.oldText && !contains crlf input.oldText

/-- The edit after the line endings of the source were taken over. -/
def translated (source : Text) (input : EditInput) : EditInput :=
  if translates source input then
    { input with
      oldText := replace ['\n'] crlf input.oldText
      newText := replace ['\n'] crlf (replace crlf ['\n'] input.newText) }
  else input

/-- `usize::checked_mul`. -/
def checkedMul (left right : Nat) : Option Nat :=
  if left * right ≤ usizeMax then some (left * right) else none

/-- `usize::checked_sub`. -/
def checkedSub (left right : Nat) : Option Nat :=
  if right ≤ left then some (left - right) else none

/-- `usize::checked_add`. -/
def checkedAdd (left right : Nat) : Option Nat :=
  if left + right ≤ usizeMax then some (left + right) else none

/-- The length of the result, computed in advance. -/
def resultLen (source : Text) (input : EditInput) (replacements : Nat) : Option Nat := do
  let removed ← checkedMul (byteLen input.oldText) replacements
  let inserted ← checkedMul (byteLen input.newText) replacements
  let kept ← checkedSub (byteLen source) removed
  checkedAdd kept inserted

def editText (source : Text) (input : EditInput) : Except ToolError (Text × Nat) :=
  let input := translated source input
  let replacements := (matchIndices input.oldText source).length
  if replacements = 0 ∨ (input.replaceAll = false ∧ 1 < replacements) then .error .failed
  else
    let replacements := if input.replaceAll then replacements else 1
    match resultLen source input replacements with
    | none => .error .invalidInvocation
    | some length =>
      if maxPatchBytes < length then .error .invalidInvocation
      else if input.replaceAll then
        .ok (replace input.oldText input.newText source, replacements)
      else .ok (replacen input.oldText input.newText 1 source, replacements)

end Model

section Lengths

variable {source : Text} {input : EditInput}

theorem byte_len_weave (separator gap : Text) (gaps : List Text) :
    byteLen (weave separator gap gaps) =
      byteLen gap + (gaps.map byteLen).sum + gaps.length * byteLen separator := by
  induction gaps generalizing gap with
  | nil => simp [weave]
  | cons next rest inductionHypothesis =>
    rw [weave, byte_len_append, byte_len_append, inductionHypothesis, List.map_cons,
      List.sum_cons, List.length_cons, Nat.add_mul, Nat.one_mul]
    omega

/-- Replacing every match trades the bytes of the old text for those of the new. -/
theorem byte_len_replace (source : Text) (present : input.oldText ≠ []) :
    byteLen input.oldText * (matchIndices input.oldText source).length ≤ byteLen source ∧
      byteLen (replace input.oldText input.newText source) =
        byteLen source - byteLen input.oldText * (matchIndices input.oldText source).length +
          byteLen input.newText * (matchIndices input.oldText source).length := by
  obtain ⟨gap, gaps, whole, count, replaced⟩ := matches_weave present source input.newText
  have old_size := byte_len_weave input.oldText gap gaps
  have new_size := byte_len_weave input.newText gap gaps
  rw [← whole, count, Nat.mul_comm] at old_size
  rw [← replaced, count, Nat.mul_comm] at new_size
  omega

/-- The length computed in advance is the length of the result. It is computed for every
source and result whose lengths are numbers of the machine. -/
theorem result_len_iff (source : Text) (present : input.oldText ≠ []) {length : Nat} :
    resultLen source input (matchIndices input.oldText source).length = some length ↔
      byteLen input.oldText * (matchIndices input.oldText source).length ≤ usizeMax ∧
        byteLen (replace input.oldText input.newText source) ≤ usizeMax ∧
          length = byteLen (replace input.oldText input.newText source) := by
  obtain ⟨inside, traded⟩ := byte_len_replace source present
  simp only [resultLen, checkedMul, checkedSub, checkedAdd, Option.bind_eq_bind,
    Option.bind_eq_some_iff, Option.ite_none_right_eq_some, Option.some.injEq]
  constructor
  · rintro ⟨removed, ⟨removable, rfl⟩, inserted, ⟨-, rfl⟩, kept, ⟨-, rfl⟩, fits, rfl⟩
    exact ⟨removable, traded ▸ fits, traded.symm⟩
  · rintro ⟨removable, fits, rfl⟩
    refine ⟨_, ⟨removable, rfl⟩, _, ⟨?_, rfl⟩, _, ⟨inside, rfl⟩, traded ▸ fits, traded.symm⟩
    omega

end Lengths

section Success

variable {source result : Text} {input : EditInput} {replacements : Nat}

theorem translated_present (source : Text) (present : input.oldText ≠ []) :
    (translated source input).oldText ≠ [] := by
  rw [translated]
  split
  · apply replace_ne_nil
    · exact List.cons_ne_nil _ _
    · exact present
    · exact List.cons_ne_nil _ _
  · exact present

/-- Replacing follows the settings of the edit, whether or not it is translated. -/
theorem translated_all (source : Text) (input : EditInput) :
    (translated source input).replaceAll = input.replaceAll := by
  rw [translated]
  split
  · rfl
  · rfl

/-- There are enough matches to edit: one, or any number if all are replaced. -/
def Enough (source : Text) (edit : EditInput) : Prop :=
  0 < (matchIndices edit.oldText source).length ∧
    (edit.replaceAll = true ∨ (matchIndices edit.oldText source).length = 1)

theorem edit_text_failed (few : ¬ Enough source (translated source input)) :
    editText source input = .error .failed := by
  rw [editText]
  apply if_pos
  rw [Enough] at few
  cases all : (translated source input).replaceAll with
  | true =>
    rw [all] at few
    simp only [true_or, and_true] at few
    exact Or.inl (Nat.eq_zero_of_not_pos few)
  | false =>
    rw [all] at few
    simp only [Bool.false_eq_true, false_or] at few
    rcases Nat.eq_zero_or_pos (matchIndices (translated source input).oldText source).length with
      absent | found
    · exact Or.inl absent
    · exact Or.inr ⟨rfl, by omega⟩

/-- With enough matches, every match is replaced unless the result is too long. -/
theorem edit_text_enough (enough : Enough source (translated source input)) :
    editText source input =
      match resultLen source (translated source input)
          (matchIndices (translated source input).oldText source).length with
      | none => .error .invalidInvocation
      | some length =>
        if maxPatchBytes < length then .error .invalidInvocation
        else .ok (replace (translated source input).oldText (translated source input).newText
          source, (matchIndices (translated source input).oldText source).length) := by
  rw [editText]
  generalize translated source input = edit at enough
  obtain ⟨found, counted⟩ := enough
  rw [if_neg]
  · cases all : edit.replaceAll with
    | true => rfl
    | false =>
      have single : (matchIndices edit.oldText source).length = 1 := by
        rw [all] at counted
        simpa using counted
      obtain ⟨first, only⟩ := List.length_eq_one_iff.mp single
      rw [replacen_single only, single]
      rfl
  · rw [not_or]
    constructor
    · exact Nat.ne_of_gt found
    · rintro ⟨one, several⟩
      rw [one] at counted
      simp only [Bool.false_eq_true, false_or] at counted
      omega

/-- An edit succeeds where there are enough matches and the result is not too long. It
replaces what the search has found. -/
theorem edit_text_ok_iff (present : input.oldText ≠ []) (bounded : byteLen source ≤ usizeMax) :
    editText source input = .ok (result, replacements) ↔
      Enough source (translated source input) ∧
        replacements = (matchIndices (translated source input).oldText source).length ∧
        result =
          replace (translated source input).oldText (translated source input).newText source ∧
        byteLen result ≤ maxPatchBytes := by
  have still_present := translated_present source present
  obtain ⟨inside, -⟩ := byte_len_replace source still_present
  have small : maxPatchBytes ≤ usizeMax := by decide
  by_cases enough : Enough source (translated source input)
  · rw [edit_text_enough enough]
    cases computed : resultLen source (translated source input)
        (matchIndices (translated source input).oldText source).length with
    | none =>
      constructor
      · intro succeeded
        cases succeeded
      · rintro ⟨-, -, rfl, fits⟩
        have known := (result_len_iff source still_present).mpr
          ⟨Nat.le_trans inside bounded, Nat.le_trans fits small, rfl⟩
        rw [computed] at known
        cases known
    | some length =>
      obtain ⟨-, -, rfl⟩ := (result_len_iff source still_present).mp computed
      simp only
      split
      · rename_i long
        constructor
        · intro succeeded
          cases succeeded
        · rintro ⟨-, -, rfl, fits⟩
          omega
      · rename_i fits
        constructor
        · intro succeeded
          cases succeeded
          exact ⟨enough, rfl, rfl, Nat.le_of_not_lt fits⟩
        · rintro ⟨-, rfl, rfl, -⟩
          rfl
  · rw [edit_text_failed enough]
    constructor
    · intro succeeded
      cases succeeded
    · rintro ⟨found, -⟩
      exact absurd found enough

end Success

section Results

/-- All occurrences begin inside the first one, and there are several. -/
def Clustered (pattern text : Text) : Prop :=
  ∃ first later, first < later ∧ OccursAt pattern text first ∧ OccursAt pattern text later ∧
    ∀ position, OccursAt pattern text position →
      first ≤ position ∧ position < first + pattern.length

theorem single_match_cases {pattern text : Text} (present : pattern ≠ []) {first : Nat}
    (single : matchIndices pattern text = [first]) :
    occurrences pattern text = [first] ∨ Clustered pattern text := by
  obtain ⟨occurs, inside⟩ := (single_match_iff present first).mp single
  by_cases only : ∀ other, OccursAt pattern text other ↔ other = first
  · exact Or.inl ((single_occurrence_iff present).mpr only)
  · right
    have another : ∃ later, OccursAt pattern text later ∧ later ≠ first := by
      by_contra none_other
      apply only
      intro other
      constructor
      · intro other_occurs
        by_contra different
        exact none_other ⟨other, other_occurs, different⟩
      · intro same
        exact same ▸ occurs
    obtain ⟨later, later_occurs, different⟩ := another
    refine ⟨first, later, ?_, occurs, later_occurs, inside⟩
    exact Nat.lt_of_le_of_ne (inside later later_occurs).1 (Ne.symm different)

/-- An edit of one match is applied at the only occurrence of its text exactly where the
text does not occur several times with every occurrence beginning inside the first; such
a cluster counts as one match, and only the length of the result can stop the edit. -/
theorem edited_text_is_unique_iff {source : Text} {input : EditInput}
    (present : input.oldText ≠ []) (single : input.replaceAll = false)
    (bounded : byteLen source ≤ usizeMax) :
    ((∃ edited, editText source input = .ok edited) →
        ∃ position, occurrences (translated source input).oldText source = [position]) ↔
      ¬ (Clustered (translated source input).oldText source ∧
        byteLen source - byteLen (translated source input).oldText +
          byteLen (translated source input).newText ≤ maxPatchBytes) := by
  have still_present := translated_present source present
  have setting := translated_all source input
  obtain ⟨inside, traded⟩ := byte_len_replace source still_present
  constructor
  · rintro unique ⟨⟨first, later, before, occurs, later_occurs, all_inside⟩, fits⟩
    have match_one := (single_match_iff still_present first).mpr ⟨occurs, all_inside⟩
    have one : (matchIndices (translated source input).oldText source).length = 1 := by
      rw [match_one, List.length_singleton]
    rw [one, Nat.mul_one, Nat.mul_one] at traded
    have enough : Enough source (translated source input) := by
      rw [Enough, one]
      exact ⟨Nat.one_pos, Or.inr rfl⟩
    obtain ⟨position, only⟩ := unique
      ⟨_, (edit_text_ok_iff present bounded).mpr ⟨enough, rfl, rfl, traded ▸ fits⟩⟩
    have known := (single_occurrence_iff still_present).mp only
    have first_place := (known first).mp occurs
    have later_place := (known later).mp later_occurs
    omega
  · rintro apart ⟨⟨result, replacements⟩, edited⟩
    obtain ⟨⟨-, counted⟩, -, rfl, fits⟩ := (edit_text_ok_iff present bounded).mp edited
    rw [setting, single] at counted
    simp only [Bool.false_eq_true, false_or] at counted
    obtain ⟨first, match_one⟩ := List.length_eq_one_iff.mp counted
    rw [counted, Nat.mul_one, Nat.mul_one] at traded
    rcases single_match_cases still_present match_one with once | several
    · exact ⟨first, once⟩
    · exact absurd ⟨several, traded ▸ fits⟩ apart

def sampleEdit (oldText newText : String) : EditInput :=
  { path := "value.txt".toList, oldText := oldText.toList, newText := newText.toList }

theorem sample_edit_is_unique :
    editText "old aaa".toList (sampleEdit "aaa" "b") = .ok ("old b".toList, 1) ∧
      ∃ position, occurrences "aaa".toList "old aaa".toList = [position] := by
  refine ⟨rfl, ?_⟩
  have literal : (translated "old aaa".toList (sampleEdit "aaa" "b")).oldText = "aaa".toList := by
    decide
  have present : (sampleEdit "aaa" "b").oldText ≠ [] := by decide
  have bounded : byteLen "old aaa".toList ≤ usizeMax := by decide
  have unique := edited_text_is_unique_iff present rfl bounded
  rw [literal] at unique
  refine unique.mpr ?_ ⟨_, rfl⟩
  rintro ⟨⟨first, later, before, occurs, later_occurs, -⟩, -⟩
  have once : occurrences "aaa".toList "old aaa".toList = [4] := by decide
  have known := (single_occurrence_iff (by decide)).mp once
  rw [(known first).mp occurs, (known later).mp later_occurs] at before
  exact absurd before (Nat.lt_irrefl 4)

/-- The text to replace occurs at two positions, and the edit is applied to the first. -/
theorem overlapping_text_is_edited :
    ¬ ∀ (source : Text) (input : EditInput), input.oldText ≠ [] → input.replaceAll = false →
      byteLen source ≤ usizeMax → (∃ edited, editText source input = .ok edited) →
        ∃ position, occurrences (translated source input).oldText source = [position] := by
  intro claimed
  obtain ⟨position, once⟩ := claimed "aaa".toList (sampleEdit "aa" "b") (by decide) rfl
    (by decide) ⟨("ba".toList, 1), rfl⟩
  have twice : occurrences (translated "aaa".toList (sampleEdit "aa" "b")).oldText
      "aaa".toList = [0, 1] := by decide
  rw [twice] at once
  cases once

/-- Where the text to replace, with the line endings of the source, occurs at exactly one
position and the result is not too long, the edit succeeds and replaces that occurrence
only; without translated endings these are the texts of the edit. The length computed in
advance of any successful edit is the length of its result and within the bound. -/
theorem unique_text_is_edited {source : Text} {input : EditInput}
    (present : input.oldText ≠ []) (bounded : byteLen source ≤ usizeMax) :
    (∀ position, occurrences (translated source input).oldText source = [position] →
      byteLen (source.take position ++ (translated source input).newText ++
        source.drop (position + (translated source input).oldText.length)) ≤ maxPatchBytes →
      source = source.take position ++ (translated source input).oldText ++
          source.drop (position + (translated source input).oldText.length) ∧
        editText source input = .ok (source.take position ++ (translated source input).newText ++
          source.drop (position + (translated source input).oldText.length), 1)) ∧
    (translates source input = false → translated source input = input) ∧
    ∀ result replacements, editText source input = .ok (result, replacements) →
      resultLen source (translated source input) replacements = some (byteLen result) ∧
        byteLen result ≤ maxPatchBytes := by
  have still_present := translated_present source present
  obtain ⟨inside, traded⟩ := byte_len_replace source still_present
  have small : maxPatchBytes ≤ usizeMax := by decide
  refine ⟨?_, ?_, ?_⟩
  · intro position once fits
    have match_one := single_match_of_occurrence still_present once
    have occurs := ((single_occurrence_iff still_present).mp once position).mpr rfl
    have enough : Enough source (translated source input) := by
      rw [Enough, match_one]
      exact ⟨Nat.one_pos, Or.inr rfl⟩
    refine ⟨occurs_split occurs, (edit_text_ok_iff present bounded).mpr ⟨enough, ?_, ?_, fits⟩⟩
    · rw [match_one, List.length_singleton]
    · rw [replace_single match_one]
  · intro literal
    rw [translated, literal]
    rfl
  · intro result replacements edited
    obtain ⟨-, rfl, rfl, fits⟩ := (edit_text_ok_iff present bounded).mp edited
    refine ⟨(result_len_iff source still_present).mpr ⟨?_, ?_, rfl⟩, fits⟩
    · exact Nat.le_trans inside bounded
    · exact Nat.le_trans fits small

theorem sample_lines_are_edited :
    editText "one\r\ntwo\r\nthree\r\n".toList (sampleEdit "one\ntwo\n" "new\nlines\n") =
      .ok ("new\r\nlines\r\nthree\r\n".toList, 1) :=
  ((unique_text_is_edited (by decide) (by decide)).1 0 (by decide) (by decide)).2

/-- In a file whose line endings differ, a text that occurs literally once is not found. -/
theorem literal_text_is_missed :
    ¬ ∀ (source : Text) (input : EditInput) (position : Nat), input.oldText ≠ [] →
      byteLen source ≤ usizeMax → occurrences input.oldText source = [position] →
      byteLen (source.take position ++ input.newText ++
        source.drop (position + input.oldText.length)) ≤ maxPatchBytes →
      editText source input = .ok (source.take position ++ input.newText ++
        source.drop (position + input.oldText.length), 1) := by
  intro claimed
  have found := claimed "a\nb\r\n".toList (sampleEdit "a\nb" "x") 0 (by decide) (by decide)
    (by decide) (by decide)
  have missed : editText "a\nb\r\n".toList (sampleEdit "a\nb" "x") = .error .failed := rfl
  rw [missed] at found
  cases found

end Results

end MinicoreAgent.Edits

import Mathlib.Data.List.Nodup
import MinicoreAgent.Lib.Borders
import MinicoreAgent.PatchSoundness

/-!
# Finding the lines of a Codex hunk

A Codex hunk names no line numbers; its old lines are searched in the source. An
index from texts to line numbers leaves either few candidates for the first line or
one pass over the source that keeps the longest matched beginning. All searches of a
patch share one budget of visited lines.

The search returns what comparing the hunk at every position would, as long as the
budget lasts.
-/
namespace MinicoreAgent.Patches

def maxCodexMatchVisits : Nat := maxPatchBytes * 8

/-- Count one visited line. -/
def visit (visits : Nat) : Except ToolError Nat :=
  if visits + 1 ≤ usizeMax then
    if maxCodexMatchVisits < visits + 1 then .error .invalidInvocation else .ok (visits + 1)
  else .error .internal

/-- Whether each line of the hunk is the line of the source at its place. A line that
is marked as unended needs an unended line. -/
def codexContentsMatchAt : List PatchContent → List SourceLine → Nat → Bool
  | [], _, _ => true
  | content :: rest, source, start =>
    match source[start]? with
    | none => false
    | some line =>
      if line.text ≠ content.text ∨ (content.oldNoNewline ∧ line.ending ≠ .none) then false
      else codexContentsMatchAt rest source (start + 1)

/-- The numbers of the lines with a text, in order. -/
def codexSourceIndex (source : List SourceLine) (text : Text) : List Nat :=
  (source.zipIdx.filter (fun entry => entry.1.text == text)).map Prod.snd

/-- Where the only line stands that is marked as unended. -/
def noNewlineLoop : Nat → Option Nat → List PatchContent → Except ToolError (Option Nat)
  | _, found, [] => .ok found
  | offset, found, content :: rest =>
    if content.oldNoNewline then
      if found.isSome then .error .invalidInvocation
      else noNewlineLoop (offset + 1) (some offset) rest
    else noNewlineLoop (offset + 1) found rest

def codexPatternPrefix (pattern : List PatchContent) : List Nat :=
  Borders.table (pattern.map (·.text))

/-- Whether the line of a candidate that is marked as unended is unended. -/
def unendedAt (source : List SourceLine) (offset : Option Nat) (candidate : Nat) : Bool :=
  offset.all (fun offset => (source[candidate + offset]?).any (·.ending == .none))

/-- The pass over the lines from an index on. -/
def scanMatches (pattern : List PatchContent) (source : List SourceLine) (table : List Nat)
    (offset : Option Nat) : List SourceLine → Nat → Nat → Option Nat → Nat →
      Except ToolError (Option Nat × Nat)
  | [], _, _, found, visits => .ok (found, visits)
  | line :: rest, index, matched, found, visits => do
    let visits ← visit visits
    let matched := Borders.step (pattern.map (·.text)) table line.text matched
    if matched = pattern.length then
      let candidate := index + 1 - pattern.length
      let found ←
        if unendedAt source offset candidate then
          if found.isSome then .error .invalidInvocation else .ok (some candidate)
        else .ok found
      scanMatches pattern source table offset rest (index + 1) (table.getD (matched - 1) 0)
        found visits
    else scanMatches pattern source table offset rest (index + 1) matched found visits

/-- `find_unique_codex_match`: the position and the visits so far. -/
def findUniqueCodexMatch (pattern : List PatchContent) (source : List SourceLine)
    (sourceIndex : Text → List Nat) (start visits : Nat) :
    Except ToolError (Option Nat × Nat) :=
  match pattern with
  | [] => .ok (none, visits)
  | first :: rest => do
    let pattern := first :: rest
    let offset ← noNewlineLoop 0 none pattern
    let candidates := (sourceIndex first.text).dropWhile (· < start)
    match candidates with
    | [] => .ok (none, visits)
    | [candidate] =>
      let visits ← visit visits
      .ok (if codexContentsMatchAt pattern source candidate then some candidate else none, visits)
    | _ =>
      scanMatches pattern source (codexPatternPrefix pattern) offset (source.drop start) start 0
        none visits

section Comparing

variable {pattern : List PatchContent} {source : List SourceLine} {start : Nat}

/-- The lines that are marked as unended stand on unended lines. -/
def MarksHold (pattern : List PatchContent) (source : List SourceLine) (start : Nat) : Prop :=
  ∀ offset content, pattern[offset]? = some content → content.oldNoNewline = true →
    (source[start + offset]?).any (·.ending == .none) = true

theorem marks_hold_cons {content : PatchContent} {rest : List PatchContent} :
    MarksHold (content :: rest) source start ↔
      (content.oldNoNewline = true → (source[start]?).any (·.ending == .none) = true) ∧
        MarksHold rest source (start + 1) := by
  constructor
  · intro holds
    constructor
    · exact fun marked => holds 0 content rfl marked
    · intro offset other here marked
      have shifted := holds (offset + 1) other here marked
      rwa [show start + (offset + 1) = start + 1 + offset by omega] at shifted
  · rintro ⟨first, holds⟩ offset other here marked
    cases offset with
    | zero =>
      cases here
      exact first marked
    | succ offset =>
      rw [show start + (offset + 1) = start + 1 + offset by omega]
      exact holds offset other here marked

/-- A hunk matches where its texts stand and its marks hold. -/
theorem contents_match_iff :
    codexContentsMatchAt pattern source start = true ↔
      pattern.map (·.text) <+: (source.map (·.text)).drop start ∧
        MarksHold pattern source start := by
  induction pattern generalizing start with
  | nil => simp [codexContentsMatchAt, MarksHold]
  | cons content rest inductionHypothesis =>
    rw [codexContentsMatchAt]
    cases here : source[start]? with
    | none =>
      have beyond : source.length ≤ start := List.getElem?_eq_none_iff.mp here
      simp [List.drop_eq_nil_of_le, beyond]
    | some line =>
      obtain ⟨present, rfl⟩ := List.getElem?_eq_some_iff.mp here
      have first : (source.map (·.text)).drop start =
          source[start].text :: (source.map (·.text)).drop (start + 1) := by
        rw [List.drop_eq_getElem_cons (by simpa using present), List.getElem_map]
      rw [first, List.map_cons, List.cons_prefix_cons, marks_hold_cons, here]
      dsimp only
      split
      · rename_i refused
        constructor
        · intro impossible
          cases impossible
        · rintro ⟨⟨same, -⟩, ended, -⟩
          rcases refused with apart | ⟨marked, other⟩
          · exact absurd same.symm apart
          · exact absurd (by simpa using ended marked) other
      · rename_i accepted
        rw [not_or, not_and, not_not, not_not] at accepted
        rw [inductionHypothesis]
        constructor
        · rintro ⟨texts, holds⟩
          exact ⟨⟨accepted.1.symm, texts⟩, fun marked => by simpa using accepted.2 marked, holds⟩
        · rintro ⟨⟨-, texts⟩, -, holds⟩
          exact ⟨texts, holds⟩

/-- A hunk with lines matches inside the source only. -/
theorem match_inside (matched : codexContentsMatchAt pattern source start = true) :
    start + pattern.length ≤ source.length ∨ pattern = [] := by
  have texts := (contents_match_iff.mp matched).1.length_le
  simp only [List.length_map, List.length_drop] at texts
  cases pattern with
  | nil => exact .inr rfl
  | cons content rest =>
    rw [List.length_cons] at texts ⊢
    exact .inl (by omega)

end Comparing

section Counting

/-- The only member of a list, and an error where there are more. -/
def unique : List Nat → Except ToolError (Option Nat)
  | [] => .ok none
  | [position] => .ok (some position)
  | _ :: _ :: _ => .error .invalidInvocation

theorem unique_found (found : Option Nat) (position : Nat) (rest : List Nat) :
    unique (found.toList ++ position :: rest) =
      (if found.isSome then .error .invalidInvocation else .ok (some position)) >>=
        fun found => unique (found.toList ++ rest) := by
  cases found with
  | none => rfl
  | some earlier => rfl

variable {positions : List Nat}

theorem unique_some_iff (distinct : positions.Nodup) (position : Nat) :
    unique positions = .ok (some position) ↔
      position ∈ positions ∧ ∀ other ∈ positions, other = position := by
  match positions, distinct with
  | [], _ => simp [unique]
  | [only], _ =>
    simp only [unique, Except.ok.injEq, Option.some.injEq, List.mem_singleton, forall_eq]
    exact ⟨fun same => ⟨same.symm, same⟩, fun same => same.2⟩
  | first :: second :: rest, distinct =>
    have apart : first ≠ second := by
      rintro rfl
      simp at distinct
    constructor
    · intro impossible
      cases impossible
    · rintro ⟨-, same⟩
      exact absurd ((same first (by simp)).trans (same second (by simp)).symm) apart

theorem unique_none_iff : unique positions = .ok none ↔ ∀ position, position ∉ positions := by
  match positions with
  | [] => simp [unique]
  | [only] => simp [unique]
  | first :: second :: rest =>
    constructor
    · intro impossible
      cases impossible
    · intro empty
      exact absurd List.mem_cons_self (empty first)

theorem unique_error_iff (distinct : positions.Nodup) :
    unique positions = .error .invalidInvocation ↔
      ∃ first second, first ≠ second ∧ first ∈ positions ∧ second ∈ positions := by
  match positions, distinct with
  | [], _ => simp [unique]
  | [only], _ =>
    constructor
    · intro impossible
      cases impossible
    · rintro ⟨first, second, apart, one, other⟩
      rw [List.mem_singleton] at one other
      exact absurd (one.trans other.symm) apart
  | first :: second :: rest, distinct =>
    have apart : first ≠ second := by
      rintro rfl
      simp at distinct
    exact ⟨fun _ => ⟨first, second, apart, by simp, by simp⟩, fun _ => rfl⟩

variable {pattern : List PatchContent} {source : List SourceLine} {start : Nat}

/-- The places of the lines that are marked as unended, from an offset on. -/
def marks : Nat → List PatchContent → List Nat
  | _, [] => []
  | offset, content :: rest =>
    if content.oldNoNewline then offset :: marks (offset + 1) rest else marks (offset + 1) rest

theorem marks_length (offset : Nat) :
    (marks offset pattern).length = (pattern.filter (·.oldNoNewline)).length := by
  induction pattern generalizing offset with
  | nil => rfl
  | cons content rest inductionHypothesis =>
    rw [marks, List.filter_cons]
    split
    · simp [inductionHypothesis]
    · exact inductionHypothesis (offset + 1)

theorem no_newline_loop (offset : Nat) (found : Option Nat) :
    noNewlineLoop offset found pattern = unique (found.toList ++ marks offset pattern) := by
  induction pattern generalizing offset found with
  | nil => cases found <;> rfl
  | cons content rest inductionHypothesis =>
    rw [noNewlineLoop, marks]
    split
    · rw [unique_found]
      split
      · rfl
      · exact inductionHypothesis (offset + 1) (some offset)
    · exact inductionHypothesis (offset + 1) found

theorem marks_hold_iff (offset : Nat) :
    MarksHold pattern source (start + offset) ↔
      ∀ place ∈ marks offset pattern, (source[start + place]?).any (·.ending == .none) = true := by
  induction pattern generalizing offset with
  | nil => simp [MarksHold, marks]
  | cons content rest inductionHypothesis =>
    rw [marks_hold_cons, Nat.add_assoc, inductionHypothesis, marks]
    split
    · rename_i marked
      simp [marked]
    · rename_i unmarked
      simp [unmarked]

/-- The marked line alone tells whether the marks hold. -/
theorem unended_at_iff {offset : Option Nat} (only : unique (marks 0 pattern) = .ok offset) :
    unendedAt source offset start = true ↔ MarksHold pattern source start := by
  have places : MarksHold pattern source (start + 0) ↔
      ∀ place ∈ marks 0 pattern, (source[start + place]?).any (·.ending == .none) = true :=
    marks_hold_iff 0
  rw [Nat.add_zero] at places
  rw [places]
  match all : marks 0 pattern with
  | [] =>
    rw [all] at only
    cases only
    simp [unendedAt]
  | [place] =>
    rw [all] at only
    cases only
    simp [unendedAt]
  | first :: second :: rest =>
    rw [all] at only
    cases only

end Counting

section Scanning

variable {pattern : List PatchContent} {source : List SourceLine} {start : Nat}

/-- A pattern ends what was read exactly where it stands before. -/
theorem suffix_read_iff {α : Type} {pattern text : List α} {start stop : Nat}
    (ordered : start ≤ stop) (inside : stop ≤ text.length) :
    pattern <:+ (text.drop start).take (stop - start) ↔
      start + pattern.length ≤ stop ∧ pattern <+: text.drop (stop - pattern.length) := by
  have length : ((text.drop start).take (stop - start)).length = stop - start := by
    simp only [List.length_take, List.length_drop]
    omega
  constructor
  · intro ends
    have short := ends.length_le
    rw [length] at short
    refine ⟨by omega, ?_⟩
    rw [List.suffix_iff_eq_drop, length, List.drop_take, List.drop_drop] at ends
    rw [List.prefix_iff_eq_take]
    rw [show start + (stop - start - pattern.length) = stop - pattern.length by omega,
      show stop - start - (stop - start - pattern.length) = pattern.length by omega] at ends
    exact ends
  · rintro ⟨short, begins⟩
    rw [List.prefix_iff_eq_take] at begins
    rw [List.suffix_iff_eq_drop, length, List.drop_take, List.drop_drop,
      show start + (stop - start - pattern.length) = stop - pattern.length by omega,
      show stop - start - (stop - start - pattern.length) = pattern.length by omega]
    exact begins

/-- The candidate that ends at a line, if the hunk matches there. -/
def matchEndingAt (pattern : List PatchContent) (source : List SourceLine) (start last : Nat) :
    Option Nat :=
  if start + pattern.length ≤ last + 1 ∧
      codexContentsMatchAt pattern source (last + 1 - pattern.length) then
    some (last + 1 - pattern.length)
  else none

/-- The candidates that end at so many lines. -/
def matchesEnding (pattern : List PatchContent) (source : List SourceLine)
    (start index count : Nat) : List Nat :=
  (List.range' index count).filterMap (matchEndingAt pattern source start)

/-- The texts the pass has read. -/
def readTexts (source : List SourceLine) (start index : Nat) : List Text :=
  ((source.map (·.text)).drop start).take (index - start)

theorem read_texts_succ {index : Nat} (ordered : start ≤ index) (present : index < source.length) :
    readTexts source start (index + 1) =
      readTexts source start index ++ [source[index].text] := by
  have inside : index - start < ((source.map (·.text)).drop start).length := by
    simp only [List.length_drop, List.length_map]
    omega
  unfold readTexts
  rw [show index + 1 - start = index - start + 1 by omega, ← List.take_append_getElem inside]
  simp [show start + (index - start) = index by omega]

theorem visit_within {visits : Nat} (within : visits ≤ maxCodexMatchVisits) :
    visit visits =
      if maxCodexMatchVisits < visits + 1 then .error .invalidInvocation
      else .ok (visits + 1) := by
  have small : maxCodexMatchVisits < usizeMax := by decide
  unfold visit
  rw [if_pos (by omega)]

theorem matches_ending_succ (index count : Nat) :
    matchesEnding pattern source start index (count + 1) =
      (matchEndingAt pattern source start index).toList ++
        matchesEnding pattern source start (index + 1) count := by
  unfold matchesEnding
  rw [List.range'_succ, List.filterMap_cons]
  cases matchEndingAt pattern source start index <;> rfl

/-- A full match whose marked line is unended is a candidate. -/
theorem match_ending_at {offset : Option Nat} (only : unique (marks 0 pattern) = .ok offset)
    {index matched : Nat} (ordered : start ≤ index) (inside : index < source.length)
    (longest : Borders.Longest (pattern.map (·.text)) ((pattern.map (·.text)).length + 1)
      (readTexts source start (index + 1)) matched) :
    matchEndingAt pattern source start index =
      if matched = pattern.length ∧ unendedAt source offset (index + 1 - pattern.length) = true
      then some (index + 1 - pattern.length) else none := by
  have whole := longest.whole_iff
  rw [readTexts, suffix_read_iff (by omega) (by rw [List.length_map]; omega), List.length_map] at whole
  have same : (start + pattern.length ≤ index + 1 ∧
      codexContentsMatchAt pattern source (index + 1 - pattern.length) = true) ↔
      matched = pattern.length ∧ unendedAt source offset (index + 1 - pattern.length) = true := by
    rw [contents_match_iff, unended_at_iff only, whole, and_assoc]
  unfold matchEndingAt
  simp only [same]

/-- The pass finds the candidates that end at the lines it reads, while the visits
last. -/
theorem scan_matches (present : pattern ≠ []) {offset : Option Nat}
    (only : unique (marks 0 pattern) = .ok offset) {rest : List SourceLine}
    (index matched visits : Nat) (found : Option Nat) (left : source.drop index = rest)
    (ordered : start ≤ index)
    (longest : Borders.Longest (pattern.map (·.text)) (pattern.map (·.text)).length
      (readTexts source start index) matched)
    (within : visits ≤ maxCodexMatchVisits) :
    scanMatches pattern source (codexPatternPrefix pattern) offset rest index matched found
        visits =
      if rest ≠ [] ∧ maxCodexMatchVisits < visits + rest.length then .error .invalidInvocation
      else (unique (found.toList ++ matchesEnding pattern source start index rest.length)).map
        (·, visits + rest.length) := by
  induction rest generalizing index matched visits found with
  | nil => cases found <;> rfl
  | cons line rest inductionHypothesis =>
    have inside : index < source.length := by
      have positive : 0 < (source.drop index).length := by simp [left]
      rw [List.length_drop] at positive
      omega
    rw [List.drop_eq_getElem_cons inside, List.cons.injEq] at left
    obtain ⟨rfl, left⟩ := left
    have known : Borders.Table (pattern.map (·.text)) (codexPatternPrefix pattern)
        (pattern.map (·.text)).length := Borders.table_known _
    have extended := Borders.step_longest source[index].text known (Nat.le_refl _)
      (Nat.le_of_lt longest.below) longest
    rw [← read_texts_succ ordered inside] at extended
    have ending := match_ending_at only ordered inside extended
    rw [scanMatches, visit_within within, List.length_cons, matches_ending_succ]
    by_cases exhausted : maxCodexMatchVisits < visits + 1
    · rw [if_pos exhausted, if_pos ⟨by simp, by omega⟩]
      rfl
    · have affordable : visits + 1 ≤ maxCodexMatchVisits := by omega
      have limit : (source[index] :: rest ≠ [] ∧
          maxCodexMatchVisits < visits + (rest.length + 1)) ↔
          (rest ≠ [] ∧ maxCodexMatchVisits < visits + (rest.length + 1)) := by
        cases rest with
        | nil => simpa using affordable
        | cons line rest => simp
      have later (found : Option Nat) (matched : Nat)
          (longest : Borders.Longest (pattern.map (·.text)) (pattern.map (·.text)).length
            (readTexts source start (index + 1)) matched) :=
        inductionHypothesis (index + 1) matched (visits + 1) found left
          (Nat.le_succ_of_le ordered) longest affordable
      simp only [Nat.add_assoc visits 1, Nat.add_comm 1] at later
      rw [if_neg exhausted]
      simp only [limit]
      dsimp only [bind, Except.bind]
      generalize Borders.step (pattern.map (·.text)) (codexPatternPrefix pattern)
        source[index].text matched = now at extended ending ⊢
      by_cases full : now = pattern.length
      · have restart : Borders.Longest (pattern.map (·.text)) (pattern.map (·.text)).length
            (readTexts source start (index + 1))
            ((codexPatternPrefix pattern).getD (now - 1) 0) := by
          have size : now = (pattern.map (·.text)).length := by simpa using full
          rw [size]
          exact Borders.Longest.restart known (by simpa using present)
            (extended.whole_iff.mp size)
        rw [if_pos full]
        by_cases unended : unendedAt source offset (index + 1 - pattern.length) = true
        · rw [if_pos ⟨full, unended⟩] at ending
          rw [if_pos unended, ending, Option.toList_some, List.singleton_append, unique_found]
          cases found with
          | some earlier =>
            simp [bind, Except.bind, Except.map]
          | none => exact later (some _) _ restart
        · rw [if_neg (fun both => unended both.2)] at ending
          rw [if_neg unended, ending]
          exact later found _ restart
      · rw [if_neg (fun both => full both.1)] at ending
        rw [if_neg full, ending]
        exact later found now (extended.narrow (by simpa using full))

end Scanning

section Searching

variable {pattern : List PatchContent} {source : List SourceLine} {start : Nat}

theorem source_index_mem {text : Text} {position : Nat} :
    position ∈ codexSourceIndex source text ↔
      (source[position]?).map (·.text) = some text := by
  simp only [codexSourceIndex, List.mem_map, List.mem_filter, beq_iff_eq, Prod.exists,
    List.mem_zipIdx_iff_getElem?, exists_eq_right, Option.map_eq_some_iff]

theorem source_index_sorted (text : Text) :
    (codexSourceIndex source text).Pairwise (· < ·) := by
  have all : (source.zipIdx.map Prod.snd).Pairwise (· < ·) := by
    rw [List.zipIdx_map_snd]
    exact List.pairwise_lt_range'
  exact all.sublist (List.filter_sublist.map Prod.snd)

theorem mem_drop_below {positions : List Nat} (sorted : positions.Pairwise (· < ·))
    {position : Nat} :
    position ∈ positions.dropWhile (· < start) ↔ start ≤ position ∧ position ∈ positions := by
  induction positions with
  | nil => simp
  | cons first rest inductionHypothesis =>
    obtain ⟨later, sorted⟩ := List.pairwise_cons.mp sorted
    rw [List.dropWhile_cons]
    split
    · rename_i below
      rw [inductionHypothesis sorted, List.mem_cons]
      have before : first < start := by simpa using below
      constructor
      · rintro ⟨reached, member⟩
        exact ⟨reached, .inr member⟩
      · rintro ⟨reached, rfl | member⟩
        · omega
        · exact ⟨reached, member⟩
    · rename_i reached
      have after : start ≤ first := by simpa using reached
      constructor
      · intro member
        refine ⟨?_, member⟩
        rcases List.mem_cons.mp member with rfl | old
        · exact after
        · exact Nat.le_of_lt (Nat.lt_of_le_of_lt after (later position old))
      · exact fun both => both.2

/-- The lines at or after the start that have the text of the first line. -/
def candidates (pattern : List PatchContent) (source : List SourceLine) (start : Nat) :
    List Nat :=
  match pattern with
  | [] => []
  | first :: _ => (codexSourceIndex source first.text).dropWhile (· < start)

/-- The visits of a search: none without a candidate, one for a single candidate, and
otherwise all lines from the start on. -/
def searchVisits (pattern : List PatchContent) (source : List SourceLine) (start : Nat) : Nat :=
  match candidates pattern source start with
  | [] => 0
  | [_] => 1
  | _ => source.length - start

/-- A match starts with a candidate. -/
theorem match_candidate (present : pattern ≠ []) {position : Nat} (reached : start ≤ position)
    (matched : codexContentsMatchAt pattern source position = true) :
    position ∈ candidates pattern source start := by
  cases pattern with
  | nil => exact absurd rfl present
  | cons first rest =>
    rw [candidates, mem_drop_below (source_index_sorted first.text)]
    refine ⟨reached, source_index_mem.mpr ?_⟩
    rw [codexContentsMatchAt] at matched
    split at matched
    · cases matched
    · rename_i line here
      split at matched
      · cases matched
      · rename_i accepted
        rw [not_or, not_not] at accepted
        simp [here, accepted.1]

theorem mem_matches_ending (present : pattern ≠ []) {position : Nat} :
    position ∈ matchesEnding pattern source start start (source.length - start) ↔
      start ≤ position ∧ codexContentsMatchAt pattern source position = true := by
  have positive := List.length_pos_of_ne_nil present
  simp only [matchesEnding, List.mem_filterMap, List.mem_range'_1, matchEndingAt,
    Option.ite_none_right_eq_some, Option.some.injEq]
  constructor
  · rintro ⟨last, -, ⟨reached, matched⟩, rfl⟩
    exact ⟨by omega, matched⟩
  · rintro ⟨reached, matched⟩
    have inside := (match_inside matched).resolve_right present
    refine ⟨position + pattern.length - 1, by omega, ⟨by omega, ?_⟩, by omega⟩
    rwa [show position + pattern.length - 1 + 1 - pattern.length = position by omega]

theorem matches_ending_nodup (index count : Nat) :
    (matchesEnding pattern source start index count).Nodup := by
  refine List.Nodup.filterMap ?_ List.nodup_range'
  intro first second position one other
  simp only [matchEndingAt, Option.mem_def, Option.ite_none_right_eq_some,
    Option.some.injEq] at one other
  omega

/-- At most one marked line is found. -/
theorem unique_marks (marked : (pattern.filter (·.oldNoNewline)).length ≤ 1) :
    ∃ offset, unique (marks 0 pattern) = .ok offset := by
  rw [← marks_length 0] at marked
  match all : marks 0 pattern with
  | [] => exact ⟨none, rfl⟩
  | [place] => exact ⟨some place, rfl⟩
  | first :: second :: rest =>
    rw [all] at marked
    simp at marked

/-- The search returns the only match, as long as the visits last. -/
theorem find_unique_spec (source : List SourceLine) (start : Nat) (present : pattern ≠ [])
    (marked : (pattern.filter (·.oldNoNewline)).length ≤ 1) {visits : Nat}
    (within : visits ≤ maxCodexMatchVisits) :
    ∃ positions : List Nat, positions.Nodup ∧
      (∀ position, position ∈ positions ↔
        start ≤ position ∧ codexContentsMatchAt pattern source position = true) ∧
      findUniqueCodexMatch pattern source (codexSourceIndex source) start visits =
        if 0 < searchVisits pattern source start ∧
            maxCodexMatchVisits < visits + searchVisits pattern source start then
          .error .invalidInvocation
        else (unique positions).map (·, visits + searchVisits pattern source start) := by
  obtain ⟨offset, only⟩ := unique_marks marked
  have candidate {position : Nat} (reached : start ≤ position)
      (matched : codexContentsMatchAt pattern source position = true) :
      position ∈ candidates pattern source start := match_candidate present reached matched
  cases pattern with
  | nil => exact absurd rfl present
  | cons first rest =>
    have loop : noNewlineLoop 0 none (first :: rest) = .ok offset :=
      (no_newline_loop 0 none).trans only
    have search : findUniqueCodexMatch (first :: rest) source (codexSourceIndex source) start
        visits = match candidates (first :: rest) source start with
          | [] => .ok (none, visits)
          | [candidate] => do
            let visits ← visit visits
            .ok (if codexContentsMatchAt (first :: rest) source candidate then some candidate
              else none, visits)
          | _ => scanMatches (first :: rest) source (codexPatternPrefix (first :: rest)) offset
            (source.drop start) start 0 none visits := by
      simp only [findUniqueCodexMatch, loop]
      rfl
    match all : candidates (first :: rest) source start with
    | [] =>
      have none_visited : searchVisits (first :: rest) source start = 0 := by
        simp [searchVisits, all]
      rw [search, all, none_visited]
      rw [all] at candidate
      refine ⟨[], List.nodup_nil, ?_, by simp [unique, Except.map]⟩
      intro position
      constructor
      · intro impossible
        cases impossible
      · rintro ⟨reached, matched⟩
        exact absurd (candidate reached matched) List.not_mem_nil
    | [position] =>
      have reached : start ≤ position := by
        have member : position ∈ candidates (first :: rest) source start := by simp [all]
        rw [candidates, mem_drop_below (source_index_sorted first.text)] at member
        exact member.1
      have one_visited : searchVisits (first :: rest) source start = 1 := by
        simp [searchVisits, all]
      rw [all] at candidate
      rw [search, all, one_visited]
      dsimp only
      rw [visit_within within]
      refine ⟨if codexContentsMatchAt (first :: rest) source position then [position] else [],
        ?_, ?_, ?_⟩
      · split
        · exact List.nodup_singleton position
        · exact List.nodup_nil
      · intro other
        constructor
        · intro member
          split at member
          · rename_i matched
            rw [List.mem_singleton.mp member]
            exact ⟨reached, matched⟩
          · cases member
        · rintro ⟨after, matched⟩
          obtain rfl := List.mem_singleton.mp (candidate after matched)
          simp [matched]
      · by_cases exhausted : maxCodexMatchVisits < visits + 1
        · simp [exhausted, bind, Except.bind]
        · cases codexContentsMatchAt (first :: rest) source position with
          | false => simp [exhausted, unique, Except.map, bind, Except.bind]
          | true => simp [exhausted, unique, Except.map, bind, Except.bind]
    | one :: other :: more =>
      have all_visited : searchVisits (first :: rest) source start = source.length - start := by
        simp [searchVisits, all]
      rw [search, all, all_visited]
      refine ⟨_, matches_ending_nodup start (source.length - start),
        fun position => mem_matches_ending present, ?_⟩
      have scan := scan_matches present only start 0 visits none (rfl : source.drop start = _)
        (Nat.le_refl _) ?_ within
      · simp only [List.length_drop] at scan
        dsimp only
        rw [scan]
        have same : (source.drop start ≠ [] ∧
            maxCodexMatchVisits < visits + (source.length - start)) ↔
            (0 < source.length - start ∧
              maxCodexMatchVisits < visits + (source.length - start)) := by
          rw [← List.length_drop, List.length_pos_iff]
        simp only [same]
        rfl
      · constructor
        · simp
        · simp
        · intro size below ends
          have empty : readTexts source start start = [] := by simp [readTexts]
          rw [empty, List.suffix_nil, List.take_eq_nil_iff] at ends
          rcases ends with nothing | impossible
          · omega
          · simp at impossible

/-- A hunk without old lines is not searched. -/
theorem find_unique_empty (visits : Nat) :
    findUniqueCodexMatch [] source (codexSourceIndex source) start visits = .ok (none, visits) :=
  rfl

/-- A hunk with two lines that are marked as unended is refused. -/
theorem find_unique_marked (marked : 1 < (pattern.filter (·.oldNoNewline)).length)
    (visits : Nat) :
    findUniqueCodexMatch pattern source (codexSourceIndex source) start visits =
      .error .invalidInvocation := by
  rw [← marks_length 0] at marked
  cases pattern with
  | nil => simp [marks] at marked
  | cons first rest =>
    have refused : noNewlineLoop 0 none (first :: rest) = .error .invalidInvocation := by
      rw [no_newline_loop]
      match all : marks 0 (first :: rest) with
      | [] => simp [all] at marked
      | [place] => simp [all] at marked
      | one :: other :: more => rfl
    simp only [findUniqueCodexMatch, refused, bind, Except.bind]

/-- The results of a search as comparing the hunk at every position gives them. -/
structure Naive (pattern : List PatchContent) (source : List SourceLine) (start : Nat)
    (found : Except ToolError (Option Nat)) : Prop where
  only : ∀ position, found = .ok (some position) ↔
    (start ≤ position ∧ codexContentsMatchAt pattern source position = true) ∧
      ∀ other, start ≤ other → codexContentsMatchAt pattern source other = true →
        other = position
  missing : found = .ok none ↔
    ∀ position, start ≤ position → codexContentsMatchAt pattern source position = false
  ambiguous : found = .error .invalidInvocation ↔
    ∃ first second, first ≠ second ∧
      (start ≤ first ∧ codexContentsMatchAt pattern source first = true) ∧
      (start ≤ second ∧ codexContentsMatchAt pattern source second = true)

theorem Naive.of_positions {positions : List Nat} (distinct : positions.Nodup)
    (complete : ∀ position, position ∈ positions ↔
      start ≤ position ∧ codexContentsMatchAt pattern source position = true) :
    Naive pattern source start (unique positions) := by
  constructor
  · intro position
    rw [unique_some_iff distinct, complete]
    simp only [complete, and_imp]
  · rw [unique_none_iff]
    simp only [complete, not_and, Bool.not_eq_true]
  · rw [unique_error_iff distinct]
    simp only [complete]

end Searching

/-- The two ways to search return what comparing the hunk at every position would.
Beyond the limit of visits the search fails. A hunk without old lines and one with two
lines that are marked as unended are left out by guards of their own. -/
theorem search_is_naive (pattern : List PatchContent) (source : List SourceLine)
    (start visits : Nat) (within : visits ≤ maxCodexMatchVisits) :
    let search := findUniqueCodexMatch pattern source (codexSourceIndex source) start visits
    let needed := searchVisits pattern source start
    (pattern = [] → search = .ok (none, visits)) ∧
      (1 < (pattern.filter (·.oldNoNewline)).length → search = .error .invalidInvocation) ∧
      (pattern ≠ [] → (pattern.filter (·.oldNoNewline)).length ≤ 1 →
        (0 < needed → maxCodexMatchVisits < visits + needed →
          search = .error .invalidInvocation) ∧
        (needed = 0 ∨ visits + needed ≤ maxCodexMatchVisits →
          Naive pattern source start (search.map Prod.fst) ∧
          ∀ found spent, search = .ok (found, spent) → spent = visits + needed)) := by
  intro search needed
  refine ⟨?_, fun marked => find_unique_marked marked visits, ?_⟩
  · rintro rfl
    exact find_unique_empty visits
  · intro present marked
    obtain ⟨positions, distinct, complete, found⟩ :=
      find_unique_spec source start present marked within
    have result : search = _ := found
    constructor
    · intro some_needed beyond
      rw [result, if_pos ⟨some_needed, beyond⟩]
    · intro enough
      rw [if_neg (by omega)] at result
      rw [result]
      have naive := Naive.of_positions distinct complete
      cases all : unique positions with
      | error error =>
        rw [all] at naive
        refine ⟨naive, ?_⟩
        intro found spent impossible
        cases impossible
      | ok value =>
        rw [all] at naive
        refine ⟨naive, ?_⟩
        intro found spent same
        cases same
        rfl

/-- Two lines of which both are marked as unended. -/
def twoMarks : List PatchContent :=
  [⟨.context, ['a'], true, true, none⟩, ⟨.context, ['b'], true, true, none⟩]

/-- They match nowhere in a source of one line, and the search fails for it. -/
theorem two_marks_refused :
    findUniqueCodexMatch twoMarks [⟨['a'], .none⟩] (codexSourceIndex [⟨['a'], .none⟩]) 0 0 =
        .error .invalidInvocation ∧
      searchVisits twoMarks [⟨['a'], .none⟩] 0 ≤ maxCodexMatchVisits ∧
      ∀ position, codexContentsMatchAt twoMarks [⟨['a'], .none⟩] position = false := by
  refine ⟨by decide, by decide, ?_⟩
  intro position
  cases position with
  | zero => rfl
  | succ position => rfl

/-- The second of two places of a periodic hunk is found where the first is passed. -/
theorem periodic_match_found :
    let line (text : Char) : SourceLine := ⟨[text], .lf⟩
    let source := [line 'a', line 'a', line 'b', line 'a', line 'a', line 'a', line 'b']
    let pattern := ['a', 'a', 'b'].map fun text =>
      (⟨.context, [text], false, false, none⟩ : PatchContent)
    Naive pattern source 1
      ((findUniqueCodexMatch pattern source (codexSourceIndex source) 1 0).map Prod.fst) := by
  intro line source pattern
  exact ((search_is_naive pattern source 1 0 (by decide)).2.2 (by decide) (by decide)).2
    (.inr (by decide)) |>.1

end MinicoreAgent.Patches

import MinicoreAgent.Lib.EditScripts
import MinicoreAgent.UnifiedPatch

/-!
# The unified rendering of a script, and what the parser makes of it

A text is a sequence of lines of which only the last may lack its line feed. A
script between the lines of two texts is written as hunks, one for each block: a
header with the two ranges, and a line for each edit, followed by a marker where
the line lacks its line feed. A range of no lines names the line before it, any
other range its first line, and a count of one may be left out. The parser reads
such a rendering back as the hunks of the script.
-/
namespace MinicoreAgent.Patches

open EditScripts

/-- A line of a text, and whether a line feed ends it. -/
structure DiffLine where
  text : Text
  ended : Bool
  deriving DecidableEq, Repr

/-- The lines of a text. What follows the last line feed is a line unless it is empty. -/
def linesOf (text : Text) : List DiffLine :=
  (Lines.split '\n' text).1.map (⟨·, true⟩) ++
    (if (Lines.split '\n' text).2 = [] then [] else [⟨(Lines.split '\n' text).2, false⟩])

/-- No line of the text ends in a carriage return. -/
def IsLf (text : Text) : Prop := ∀ line ∈ linesOf text, line.text.getLast? ≠ some '\r'

instance (text : Text) : Decidable (IsLf text) :=
  inferInstanceAs (Decidable (∀ line ∈ linesOf text, line.text.getLast? ≠ some '\r'))

/-- The script leads from the lines of the source to those of the target, and each of
its blocks has an edit. -/
structure Valid (script : Script DiffLine) (source target : Text) : Prop where
  old : script.old = linesOf source
  new : script.new = linesOf target
  edited : ∀ block ∈ script.blocks, block.edits ≠ []

section Rendering

def marker (line : DiffLine) : List Text := if line.ended then [] else [noNewlineAtEnd]

def editSign : Edit DiffLine → Char
  | .keep _ => ' '
  | .remove _ => '-'
  | .insert _ => '+'

def renderEdit (edit : Edit DiffLine) : List Text :=
  (editSign edit :: edit.item.text) :: marker edit.item

/-- A range after so many lines. Ones are spelled out or left out. -/
def renderRange (spelled : Bool) (sign : Char) (position count : Nat) : Text :=
  sign :: (Nat.toDigits 10 (if count = 0 then position else position + 1) ++
    (if count = 1 ∧ spelled = false then [] else ',' :: Nat.toDigits 10 count))

def renderHeader (spelled : Bool) (oldPosition newPosition : Nat)
    (edits : List (Edit DiffLine)) : Text :=
  "@@ ".toList ++
    (renderRange spelled '-' oldPosition (oldSide edits).length ++
      ' ' :: renderRange spelled '+' newPosition (newSide edits).length) ++
    " @@".toList

def renderBlocks (spelled : Bool) : Nat → Nat → List (Block DiffLine) → List Text
  | _, _, [] => []
  | oldPosition, newPosition, block :: rest =>
    renderHeader spelled (oldPosition + block.gap.length) (newPosition + block.gap.length)
        block.edits ::
      block.edits.flatMap renderEdit ++
      renderBlocks spelled (oldPosition + block.old.length) (newPosition + block.new.length) rest

/-- What a rendering may choose: file headers, and whether counts of one are written. -/
structure Rendering where
  headers : Bool
  spelled : Bool
  deriving DecidableEq, Repr

def fileHeaders (path : Text) : List Text :=
  ["--- a/".toList ++ path, "+++ b/".toList ++ path]

/-- The lines of a rendering, without their line feeds. -/
def renderLines (style : Rendering) (path : Text) (script : Script DiffLine) : List Text :=
  (if style.headers then fileHeaders path else []) ++ renderBlocks style.spelled 0 0 script.blocks

def render (style : Rendering) (path : Text) (script : Script DiffLine) : Text :=
  Lines.join '\n' (renderLines style path script)

end Rendering

section TransportLines

/-- A line that survives its transport: it has no line feed and no return at its end. -/
def Carried (line : Text) : Prop := '\n' ∉ line ∧ line.getLast? ≠ some '\r'

theorem strip_ended {line : Text} (carried : Carried line) :
    stripTransportEnding (line ++ ['\n']) = line := by
  have last : stripSuffix (line ++ ['\n']) '\n' = some line := by
    simp [stripSuffix]
  have kept : stripSuffix line '\r' = none := if_neg carried.2
  simp only [stripTransportEnding, last, kept, Option.getD_none]

/-- Joined lines are split into the same lines. -/
theorem split_inclusive_join {lines : List Text} (carried : ∀ line ∈ lines, Carried line) :
    splitInclusive (Lines.join '\n' lines) = lines.map (· ++ ['\n']) := by
  have whole : Lines.split '\n' (Lines.join '\n' lines ++ []) = (lines, []) := Lines.split_join
    (fun line member => (carried line member).1) (by simp)
  rw [List.append_nil] at whole
  simp [splitInclusive, whole]

end TransportLines

section Reading

variable {parser : PatchLines} {line : Text} {rest : List Text}

/-- Reading takes the first line that is left. -/
theorem next_left (left : parser.left = line :: rest) :
    ∃ after, parser.next = some (line, after) ∧ after.left = rest := by
  obtain ⟨lines, peeked⟩ := parser
  cases peeked with
  | some shown =>
    simp only [PatchLines.left, Option.toList_some, List.singleton_append,
      List.cons.injEq] at left
    obtain ⟨rfl, rfl⟩ := left
    exact ⟨_, rfl, rfl⟩
  | none =>
    simp only [PatchLines.left, Option.toList_none, List.nil_append] at left
    subst left
    exact ⟨_, rfl, rfl⟩

theorem next_none (left : parser.left = []) : parser.next = none := by
  obtain ⟨lines, peeked⟩ := parser
  cases peeked with
  | some shown => simp [PatchLines.left] at left
  | none =>
    simp only [PatchLines.left, Option.toList_none, List.nil_append] at left
    subst left
    rfl

/-- Looking ahead shows the first line that is left and takes nothing. -/
theorem peek_left (parser : PatchLines) :
    parser.peek.1 = parser.left.head? ∧ parser.peek.2.left = parser.left := by
  obtain ⟨lines, peeked⟩ := parser
  cases peeked with
  | some shown => exact ⟨rfl, rfl⟩
  | none =>
    cases lines with
    | nil => exact ⟨rfl, rfl⟩
    | cons first others => exact ⟨rfl, rfl⟩

end Reading

section Ranges

theorem split_once_at {separator : Char} {before : Text} (free : separator ∉ before)
    (after : Text) : splitOnce separator (before ++ separator :: after) = some (before, after) := by
  induction before with
  | nil => simp [splitOnce]
  | cons char rest inductionHypothesis =>
    have other : char ≠ separator := fun same => free (by simp [same])
    have later := inductionHypothesis (fun member => free (by simp [member]))
    simp [splitOnce, other, later]

theorem split_once_free {separator : Char} {text : Text} (free : separator ∉ text) :
    splitOnce separator text = none := by
  induction text with
  | nil => rfl
  | cons char rest inductionHypothesis =>
    have other : char ≠ separator := fun same => free (by simp [same])
    have later := inductionHypothesis (fun member => free (by simp [member]))
    simp [splitOnce, other, later]

theorem strip_start_append (start rest : Text) : stripStart start (start ++ rest) = some rest := by
  simp [stripStart]

theorem digit_of_number {number : Nat} {char : Char} (member : char ∈ Nat.toDigits 10 number) :
    char.isDigit = true :=
  Nat.isDigit_of_mem_toDigits (by decide) (by decide) member

theorem not_in_number {char : Char} (other : char.isDigit = false) (number : Nat) :
    char ∉ Nat.toDigits 10 number := by
  intro member
  rw [digit_of_number member] at other
  cases other

theorem is_decimal_number (number : Nat) : isDecimal (Nat.toDigits 10 number) = true := by
  have digits : (Nat.toDigits 10 number).all Char.isDigit = true :=
    List.all_eq_true.mpr (fun _ member => digit_of_number member)
  have some : (Nat.toDigits 10 number).isEmpty = false := by
    simp
  rw [isDecimal, some, digits]
  rfl

theorem parse_number (number : Nat) (fits : number ≤ usizeMax) :
    parseUsize (Nat.toDigits 10 number) = .ok number := by
  rw [parseUsize, Nat.ofDigitChars_ten_toDigits, if_pos fits]

theorem add_ok {left right : Nat} (fits : left + right ≤ usizeMax) :
    add left right = .ok (left + right) := if_pos fits

/-- The start and the count of a rendered range, once its sign is gone. -/
theorem range_parts (spelled : Bool) (start count : Nat) :
    (splitOnce ',' (Nat.toDigits 10 start ++
      (if count = 1 ∧ spelled = false then [] else ',' :: Nat.toDigits 10 count))).getD
        (Nat.toDigits 10 start ++
          (if count = 1 ∧ spelled = false then [] else ',' :: Nat.toDigits 10 count), ['1']) =
      (Nat.toDigits 10 start, Nat.toDigits 10 count) := by
  have free : ',' ∉ Nat.toDigits 10 start := not_in_number (by decide) start
  by_cases omitted : count = 1 ∧ spelled = false
  · rw [if_pos omitted, List.append_nil, split_once_free free, omitted.1]
    rfl
  · rw [if_neg omitted, split_once_at free]
    rfl

/-- A rendered range is read back as its position and its count. -/
theorem parse_range_rendered (spelled : Bool) (sign : Char) {position count : Nat}
    (fits : position + 1 + count ≤ usizeMax) :
    parseHunkRange (renderRange spelled sign position count) sign =
      .ok { index := position, count, stop := position + count } := by
  have bound : position + count ≤ usizeMax := by omega
  have stripped : stripStart [sign] (renderRange spelled sign position count) =
      some (Nat.toDigits 10 (if count = 0 then position else position + 1) ++
        (if count = 1 ∧ spelled = false then [] else ',' :: Nat.toDigits 10 count)) :=
    strip_start_append [sign] _
  have known : parseUsize (Nat.toDigits 10 (if count = 0 then position else position + 1)) =
      .ok (if count = 0 then position else position + 1) := by
    apply parse_number
    split <;> omega
  simp only [parseHunkRange, stripped, required, range_parts, is_decimal_number, Bool.not_true,
    Bool.or_self, Bool.false_eq_true, if_false, known, parse_number count (by omega),
    bind, Except.bind]
  by_cases empty : count = 0
  · simp [empty, add_ok (show position + 0 ≤ usizeMax by omega)]
  · have start : ¬ (position + 1 = 0 ∧ count ≠ 0) := by omega
    have index : sub (position + 1) 1 = .ok position := by
      simp [sub]
    rw [if_neg empty, if_neg start, if_neg empty]
    simp only [index, add_ok bound, add_ok fits]

theorem split_around_closing {text : Text} (free : '@' ∉ text) :
    splitAround " @@".toList (text ++ " @@".toList) = some (text, []) := by
  have pattern : " @@".toList = [' ', '@', '@'] := rfl
  rw [pattern]
  induction text with
  | nil => rfl
  | cons char rest inductionHypothesis =>
    have later := inductionHypothesis (fun member => free (by simp [member]))
    have apart : [' ', '@', '@'].isPrefixOf (char :: (rest ++ [' ', '@', '@'])) = false := by
      cases rest with
      | nil => simp [List.isPrefixOf]
      | cons second others =>
        have other : '@' ≠ second := by
          rintro rfl
          exact free (by simp)
        simp [List.isPrefixOf, other]
    rw [List.cons_append, splitAround, apart]
    simp [later]

/-- The characters of a rendered range: its sign, digits and perhaps a comma. -/
theorem range_char {spelled : Bool} {sign : Char} {position count : Nat} {char : Char}
    (member : char ∈ renderRange spelled sign position count) :
    char = sign ∨ char = ',' ∨ char.isDigit = true := by
  rcases List.mem_cons.mp member with first | inside
  · exact .inl first
  · rcases List.mem_append.mp inside with digit | counted
    · exact .inr (.inr (digit_of_number digit))
    · split at counted
      · cases counted
      · rcases List.mem_cons.mp counted with comma | digit
        · exact .inr (.inl comma)
        · exact .inr (.inr (digit_of_number digit))

theorem not_in_range {char sign : Char} (apart : char ≠ sign) (noComma : char ≠ ',')
    (noDigit : char.isDigit = false) (spelled : Bool) (position count : Nat) :
    char ∉ renderRange spelled sign position count := by
  intro member
  rcases range_char member with same | same | digit
  · exact apart same
  · exact noComma same
  · rw [noDigit] at digit
    cases digit

/-- A rendered header is read back as the ranges of its edits. -/
theorem parse_header_rendered (spelled : Bool) (oldPosition newPosition : Nat)
    (edits : List (Edit DiffLine))
    (oldFits : oldPosition + 1 + (oldSide edits).length ≤ usizeMax)
    (newFits : newPosition + 1 + (newSide edits).length ≤ usizeMax) :
    parseHunkHeader (renderHeader spelled oldPosition newPosition edits) =
      .ok ({
          index := oldPosition
          count := (oldSide edits).length
          stop := oldPosition + (oldSide edits).length },
        {
          index := newPosition
          count := (newSide edits).length
          stop := newPosition + (newSide edits).length }) := by
  have noBlank (sign : Char) (apart : ' ' ≠ sign) (position count : Nat) :
      ' ' ∉ renderRange spelled sign position count :=
    not_in_range apart (by decide) (by decide) spelled position count
  have noAt (sign : Char) (apart : '@' ≠ sign) (position count : Nat) :
      '@' ∉ renderRange spelled sign position count :=
    not_in_range apart (by decide) (by decide) spelled position count
  have free : '@' ∉ renderRange spelled '-' oldPosition (oldSide edits).length ++
      ' ' :: renderRange spelled '+' newPosition (newSide edits).length := by
    rw [List.mem_append, List.mem_cons]
    rintro (member | same | member)
    · exact noAt '-' (by decide) _ _ member
    · exact absurd same (by decide)
    · exact noAt '+' (by decide) _ _ member
  have parts := split_once_at (noBlank '-' (by decide) oldPosition (oldSide edits).length)
    (renderRange spelled '+' newPosition (newSide edits).length)
  have oldPlain : (renderRange spelled '-' oldPosition (oldSide edits).length).contains ' ' =
      false := by
    simpa using noBlank '-' (by decide) oldPosition (oldSide edits).length
  have newPlain : (renderRange spelled '+' newPosition (newSide edits).length).contains ' ' =
      false := by
    simpa using noBlank '+' (by decide) newPosition (newSide edits).length
  rw [parseHunkHeader, renderHeader, List.append_assoc, strip_start_append]
  simp only [required, bind, Except.bind, split_around_closing free, parts, oldPlain, newPlain,
    parse_range_rendered spelled '-' oldFits, parse_range_rendered spelled '+' newFits,
    Bool.or_self, Bool.false_eq_true, if_false]
  rfl

end Ranges

section Contents

/-- The patch line an edit is read back as. -/
def contentOf : Edit DiffLine → PatchContent
  | .keep line => {
      kind := .context
      text := line.text
      oldNoNewline := !line.ended
      newNoNewline := !line.ended }
  | .remove line => { kind := .remove, text := line.text, oldNoNewline := !line.ended }
  | .insert line => { kind := .add, text := line.text, newNoNewline := !line.ended }

/-- The patch line of an edit before its marker is read. -/
def freshContent (edit : Edit DiffLine) : PatchContent :=
  { kind := (contentOf edit).kind, text := edit.item.text }

/-- The lines as they stand in the patch. -/
def transported (lines : List Text) : List Text := lines.map (· ++ ['\n'])

@[simp] theorem transported_nil : transported [] = [] := rfl

@[simp] theorem transported_cons (line : Text) (rest : List Text) :
    transported (line :: rest) = (line ++ ['\n']) :: transported rest := rfl

@[simp] theorem transported_append (first second : List Text) :
    transported (first ++ second) = transported first ++ transported second := by
  simp [transported]

theorem parse_content_rendered (edit : Edit DiffLine) :
    parsePatchContent (editSign edit :: edit.item.text) = .ok (freshContent edit) := by
  cases edit with
  | keep line => rfl
  | remove line => rfl
  | insert line => rfl

theorem delta_old (edit : Edit DiffLine) :
    (freshContent edit).kind.delta.1 = edit.old.length := by
  cases edit with
  | keep line => rfl
  | remove line => rfl
  | insert line => rfl

theorem delta_new (edit : Edit DiffLine) :
    (freshContent edit).kind.delta.2 = edit.new.length := by
  cases edit with
  | keep line => rfl
  | remove line => rfl
  | insert line => rfl

/-- An edit passes a line of one of the two sides. -/
theorem passes_line (edit : Edit DiffLine) : 0 < edit.old.length + edit.new.length := by
  cases edit with
  | keep line => exact Nat.succ_pos _
  | remove line => exact Nat.succ_pos _
  | insert line => exact Nat.succ_pos _

theorem content_ended {edit : Edit DiffLine} (ended : edit.item.ended = true) :
    freshContent edit = contentOf edit := by
  cases edit <;> simp_all [freshContent, contentOf, Edit.item]

theorem mark_unended {edit : Edit DiffLine} (unended : edit.item.ended = false) :
    markNoNewline (freshContent edit) = .ok (contentOf edit) := by
  cases edit <;> simp_all [freshContent, contentOf, Edit.item, markNoNewline]

theorem marker_text : noNewlineAtEnd = '\\' :: noNewlineAtEnd.tail := rfl

/-- A line that does not start with a backslash is no marker. -/
theorem not_marker {char : Char} {text : Text} (carried : Carried (char :: text))
    (apart : char ≠ '\\') : isMarker (some (char :: text ++ ['\n'])) = false := by
  have stripped := strip_ended carried
  simp only [isMarker, Option.any_some, stripped]
  rw [marker_text, beq_eq_false_iff_ne]
  intro same
  exact apart (List.cons.inj same).1

theorem marker_carried : Carried noNewlineAtEnd := by
  constructor
  · decide
  · decide

theorem marker_is_marker : isMarker (some (noNewlineAtEnd ++ ['\n'])) = true := by
  simp [isMarker, strip_ended marker_carried]

/-- A sign is neither a backslash nor part of a line ending. -/
theorem sign_plain (edit : Edit DiffLine) :
    editSign edit ≠ '\\' ∧ editSign edit ≠ '\n' ∧ editSign edit ≠ '\r' := by
  have signs : ∀ sign ∈ [' ', '-', '+'], sign ≠ '\\' ∧ sign ≠ '\n' ∧ sign ≠ '\r' := by simp
  apply signs
  cases edit with
  | keep line => exact .head _
  | remove line => exact .tail _ (.head _)
  | insert line => exact .tail _ (.tail _ (.head _))

/-- The line of an edit is carried if its text is. -/
theorem edit_carried {edit : Edit DiffLine} (carried : Carried edit.item.text) :
    Carried (editSign edit :: edit.item.text) := by
  obtain ⟨-, plain⟩ := sign_plain edit
  constructor
  · rw [List.mem_cons]
    rintro (same | member)
    · exact plain.1 same.symm
    · exact carried.1 member
  · cases text : edit.item.text with
    | nil => simpa using plain.2
    | cons char rest =>
      have last := carried.2
      rw [text] at last
      simpa [List.getLast?_cons_cons] using last

/-- The marker of a line is consumed if it is there. -/
theorem consume_rendered {parser : PatchLines} {following : List Text} (edit : Edit DiffLine)
    (left : parser.left = transported (marker edit.item) ++ following)
    (unmarked : isMarker following.head? = false) :
    ∃ after, consumeNoNewline parser (freshContent edit) = .ok (after, contentOf edit) ∧
      after.left = following := by
  obtain ⟨shown, kept⟩ := peek_left parser
  cases ended : edit.item.ended with
  | true =>
    have nothing : parser.left = following := by simpa [marker, ended] using left
    rw [nothing] at shown kept
    refine ⟨parser.peek.2, ?_, kept⟩
    simp only [consumeNoNewline, shown, unmarked, content_ended ended]
    rfl
  | false =>
    have marked : parser.left = (noNewlineAtEnd ++ ['\n']) :: following := by
      simpa [marker, ended] using left
    have first : parser.left.head? = some (noNewlineAtEnd ++ ['\n']) := by
      rw [marked]
      rfl
    rw [first] at shown
    obtain ⟨after, read, rest⟩ := next_left (kept.trans marked)
    obtain ⟨ahead, still⟩ := peek_left after
    rw [rest] at ahead still
    refine ⟨after.peek.2, ?_, still⟩
    simp only [consumeNoNewline, shown, marker_is_marker, if_true, read, Option.map_some,
      Option.getD_some, mark_unended ended, bind, Except.bind, ahead, unmarked]
    rfl

/-- No edit and nothing after the edits begins with a marker. -/
theorem unmarked_edits {edits : List (Edit DiffLine)} {following : List Text}
    (carried : ∀ edit ∈ edits, Carried edit.item.text)
    (unmarked : isMarker following.head? = false) :
    isMarker (transported (edits.flatMap renderEdit) ++ following).head? = false := by
  cases edits with
  | nil => exact unmarked
  | cons edit rest =>
    exact not_marker (edit_carried (carried edit (by simp))) (sign_plain edit).1

theorem edit_not_marker (edit : Edit DiffLine) :
    editSign edit :: edit.item.text ≠ noNewlineAtEnd := by
  rw [marker_text]
  intro same
  exact (sign_plain edit).1 (List.cons.inj same).1

/-- The rendered lines of some edits are read back until the expected counts are
reached, and nothing after them is read. -/
theorem parse_contents_rendered {edits : List (Edit DiffLine)} {following : List Text}
    {expectedOld expectedNew : Nat}
    (carried : ∀ edit ∈ edits, Carried edit.item.text)
    (unmarked : isMarker following.head? = false)
    (oldFits : expectedOld ≤ usizeMax) (newFits : expectedNew ≤ usizeMax)
    {fuel oldCount newCount : Nat} {parser : PatchLines}
    (enough : edits.length ≤ fuel)
    (oldLeft : oldCount + (oldSide edits).length = expectedOld)
    (newLeft : newCount + (newSide edits).length = expectedNew)
    (left : parser.left = transported (edits.flatMap renderEdit) ++ following) :
    ∃ after, parseContentsLoop expectedOld expectedNew fuel parser oldCount newCount =
        .ok (edits.map contentOf, after) ∧ after.left = following := by
  induction edits generalizing fuel oldCount newCount parser with
  | nil =>
    have reached : ¬ (oldCount < expectedOld ∨ newCount < expectedNew) := by
      simp only [old_side_nil, new_side_nil, List.length_nil] at oldLeft newLeft
      omega
    refine ⟨parser, ?_, left⟩
    cases fuel with
    | zero => rw [parseContentsLoop, if_neg reached]; rfl
    | succ fuel => rw [parseContentsLoop, if_neg reached]; rfl
  | cons edit rest inductionHypothesis =>
    obtain ⟨fuel, rfl⟩ : ∃ more, fuel = more + 1 := ⟨fuel - 1, by simp at enough; omega⟩
    simp only [old_side_cons, new_side_cons, List.length_append] at oldLeft newLeft
    have passed := passes_line edit
    have going : oldCount < expectedOld ∨ newCount < expectedNew := by omega
    have later : ∀ other ∈ rest, Carried other.item.text :=
      fun other member => carried other (by simp [member])
    have shown : parser.left = (editSign edit :: edit.item.text ++ ['\n']) ::
        (transported (marker edit.item) ++
          (transported (rest.flatMap renderEdit) ++ following)) := by
      rw [left]
      simp [renderEdit]
    obtain ⟨read, next, remaining⟩ := next_left shown
    obtain ⟨consumed, marked, behind⟩ :=
      consume_rendered edit remaining (unmarked_edits later unmarked)
    have oldNext : oldCount + edit.old.length + (oldSide rest).length = expectedOld := by omega
    have newNext : newCount + edit.new.length + (newSide rest).length = expectedNew := by omega
    obtain ⟨after, parsed, done⟩ := inductionHypothesis later (Nat.le_of_succ_le_succ enough)
      oldNext newNext behind
    refine ⟨after, ?_, done⟩
    have within : ¬ (expectedOld < oldCount + edit.old.length ∨
        expectedNew < newCount + edit.new.length) := by omega
    have line := strip_ended (edit_carried (carried edit (by simp)))
    rw [parseContentsLoop, if_pos going, next]
    simp only [required, bind, Except.bind, line, edit_not_marker,
      if_false, parse_content_rendered, delta_old, delta_new,
      add_ok (show oldCount + edit.old.length ≤ usizeMax by omega),
      add_ok (show newCount + edit.new.length ≤ usizeMax by omega), if_neg within,
      marked, parsed]
    rfl

end Contents

section Hunks

/-- The range of so many lines after so many lines. -/
def rangeAt (position count : Nat) : HunkRange :=
  { index := position, count, stop := position + count }

/-- The hunks of some blocks, after so many lines of both sides. -/
def hunksOf : Nat → Nat → List (Block DiffLine) → List ResolvedHunk
  | _, _, [] => []
  | oldPosition, newPosition, block :: rest =>
    {
      old := rangeAt (oldPosition + block.gap.length) (oldSide block.edits).length
      new := rangeAt (newPosition + block.gap.length) (newSide block.edits).length
      contents := block.edits.map contentOf } ::
    hunksOf (oldPosition + block.old.length) (newPosition + block.new.length) rest

/-- Every edited line of some blocks is carried. -/
def BlocksCarried (blocks : List (Block DiffLine)) : Prop :=
  ∀ block ∈ blocks, ∀ edit ∈ block.edits, Carried edit.item.text

theorem render_header_split (spelled : Bool) (oldPosition newPosition : Nat)
    (edits : List (Edit DiffLine)) : ∃ rest,
    renderHeader spelled oldPosition newPosition edits = "@@ ".toList ++ rest :=
  ⟨_, List.append_assoc _ _ _⟩

theorem header_carried (spelled : Bool) (oldPosition newPosition : Nat)
    (edits : List (Edit DiffLine)) :
    Carried (renderHeader spelled oldPosition newPosition edits) := by
  have plain (sign : Char) (apart : '\n' ≠ sign) (position count : Nat) :
      '\n' ∉ renderRange spelled sign position count :=
    not_in_range apart (by decide) (by decide) spelled position count
  constructor
  · rw [renderHeader, List.mem_append, List.mem_append, List.mem_append, List.mem_cons]
    rintro ((opening | old | blank | new) | closing)
    · exact absurd opening (by decide)
    · exact plain '-' (by decide) _ _ old
    · exact absurd blank (by decide)
    · exact plain '+' (by decide) _ _ new
    · exact absurd closing (by decide)
  · have last : " @@".toList.getLast? = some '@' := rfl
    rw [renderHeader, List.getLast?_append, last, Option.some_or]
    decide

theorem header_starts (spelled : Bool) (oldPosition newPosition : Nat)
    (edits : List (Edit DiffLine)) :
    "@@ ".toList.isPrefixOf (renderHeader spelled oldPosition newPosition edits) = true := by
  obtain ⟨rest, split⟩ := render_header_split spelled oldPosition newPosition edits
  rw [split, List.isPrefixOf_iff_prefix]
  exact List.prefix_append _ _

theorem header_unmarked (spelled : Bool) (oldPosition newPosition : Nat)
    (edits : List (Edit DiffLine)) (following : List Text) :
    isMarker ((renderHeader spelled oldPosition newPosition edits ++ ['\n']) ::
      following).head? = false := by
  obtain ⟨rest, split⟩ := render_header_split spelled oldPosition newPosition edits
  have carried := header_carried spelled oldPosition newPosition edits
  rw [split] at carried ⊢
  exact not_marker carried (by decide)

/-- Every edit renders at least its own line. -/
theorem edits_le_lines (edits : List (Edit DiffLine)) :
    edits.length ≤ (edits.flatMap renderEdit).length := by
  induction edits with
  | nil => simp
  | cons edit rest inductionHypothesis =>
    simp only [List.flatMap_cons, List.length_append, List.length_cons, renderEdit]
    omega

/-- The lines of a hunk are read back, and the lines after it are left. -/
theorem parse_hunk_contents_rendered {edits : List (Edit DiffLine)} {following : List Text}
    {parser : PatchLines} (edited : edits ≠ [])
    (carried : ∀ edit ∈ edits, Carried edit.item.text)
    (unmarked : isMarker following.head? = false)
    (oldFits : (oldSide edits).length ≤ usizeMax) (newFits : (newSide edits).length ≤ usizeMax)
    (left : parser.left = transported (edits.flatMap renderEdit) ++ following) :
    ∃ after, parseHunkContents parser (oldSide edits).length (newSide edits).length =
        .ok (edits.map contentOf, after) ∧ after.left = following := by
  have enough : edits.length ≤ parser.left.length := by
    have rendered := edits_le_lines edits
    rw [left, transported, List.length_append, List.length_map]
    omega
  obtain ⟨after, parsed, rest⟩ := parse_contents_rendered carried unmarked oldFits newFits
    enough (Nat.zero_add _) (Nat.zero_add _) left
  refine ⟨after, ?_, rest⟩
  have some : edits.map contentOf ≠ [] := by simpa using edited
  simp only [parseHunkContents, parsed, bind, Except.bind, if_neg some]

/-- The rendered blocks are read back as their hunks. -/
theorem parse_hunks_rendered (spelled : Bool) {block : Block DiffLine}
    {rest : List (Block DiffLine)}
    {fuel oldPosition newPosition previousOldEnd previousNewEnd : Nat} {parser : PatchLines}
    (enough : rest.length < fuel)
    (edited : ∀ inspected ∈ block :: rest, inspected.edits ≠ [])
    (carried : BlocksCarried (block :: rest))
    (oldFits : oldPosition + ((block :: rest).flatMap Block.old).length < usizeMax)
    (newFits : newPosition + ((block :: rest).flatMap Block.new).length < usizeMax)
    (oldBehind : previousOldEnd ≤ oldPosition) (newBehind : previousNewEnd ≤ newPosition)
    (left : parser.left = transported (block.edits.flatMap renderEdit ++
      renderBlocks spelled (oldPosition + block.old.length) (newPosition + block.new.length)
        rest)) :
    parseHunksLoop fuel parser
        (renderHeader spelled (oldPosition + block.gap.length)
          (newPosition + block.gap.length) block.edits ++ ['\n'])
        previousOldEnd previousNewEnd =
      .ok (hunksOf oldPosition newPosition (block :: rest)) := by
  induction rest generalizing block fuel oldPosition newPosition previousOldEnd previousNewEnd
    parser with
  | nil =>
    obtain ⟨fuel, rfl⟩ : ∃ more, fuel = more + 1 := ⟨fuel - 1, by simp at enough; omega⟩
    simp only [List.flatMap_cons, List.flatMap_nil, List.append_nil, Block.old, Block.new,
      List.length_append] at oldFits newFits
    have shown : parser.left = transported (block.edits.flatMap renderEdit) ++ [] := by
      simpa [renderBlocks] using left
    obtain ⟨after, parsed, done⟩ := parse_hunk_contents_rendered (edited block (by simp))
      (carried block (by simp)) rfl (by omega) (by omega) shown
    have header := parse_header_rendered spelled (oldPosition + block.gap.length)
      (newPosition + block.gap.length) block.edits (by omega) (by omega)
    have ordered : ¬ (oldPosition + block.gap.length < previousOldEnd ∨
        newPosition + block.gap.length < previousNewEnd) := by omega
    rw [parseHunksLoop, strip_ended (header_carried _ _ _ _), header]
    simp only [bind, Except.bind, if_neg ordered, parsed, next_none done]
    rfl
  | cons following others inductionHypothesis =>
    obtain ⟨fuel, rfl⟩ : ∃ more, fuel = more + 1 := ⟨fuel - 1, by simp at enough; omega⟩
    have behind : oldPosition + block.gap.length + (oldSide block.edits).length =
          oldPosition + block.old.length ∧
        newPosition + block.gap.length + (newSide block.edits).length =
          newPosition + block.new.length := by
      simp only [Block.old, Block.new, List.length_append]
      omega
    rw [List.flatMap_cons, List.length_append] at oldFits newFits
    have oldNext : oldPosition + block.old.length +
        ((following :: others).flatMap Block.old).length < usizeMax := by omega
    have newNext : newPosition + block.new.length +
        ((following :: others).flatMap Block.new).length < usizeMax := by omega
    rw [renderBlocks, transported_append, List.cons_append, transported_cons] at left
    obtain ⟨read, parsed, remaining⟩ := parse_hunk_contents_rendered (edited block (by simp))
      (carried block (by simp)) (header_unmarked _ _ _ _ _) (by omega) (by omega) left
    obtain ⟨after, next, later⟩ := next_left remaining
    have header := parse_header_rendered spelled (oldPosition + block.gap.length)
      (newPosition + block.gap.length) block.edits (by omega) (by omega)
    have ordered : ¬ (oldPosition + block.gap.length < previousOldEnd ∨
        newPosition + block.gap.length < previousNewEnd) := by omega
    have parsedRest := inductionHypothesis (Nat.lt_of_succ_lt_succ enough)
      (fun inspected member => edited inspected (List.mem_cons_of_mem _ member))
      (fun inspected member => carried inspected (List.mem_cons_of_mem _ member))
      oldNext newNext (Nat.le_refl _) (Nat.le_refl _) later
    rw [parseHunksLoop, strip_ended (header_carried _ _ _ _), header]
    simp only [bind, Except.bind, if_neg ordered, parsed, next,
      strip_ended (header_carried _ _ _ _), header_starts, if_true, behind.1, behind.2,
      parsedRest]
    conv => rhs; rw [hunksOf, rangeAt, rangeAt, behind.1, behind.2]

/-- Every line of the rendered blocks survives its transport. -/
theorem blocks_carried {blocks : List (Block DiffLine)} (spelled : Bool)
    (carried : BlocksCarried blocks) (oldPosition newPosition : Nat) :
    ∀ line ∈ renderBlocks spelled oldPosition newPosition blocks, Carried line := by
  induction blocks generalizing oldPosition newPosition with
  | nil => intro line member; cases member
  | cons block rest inductionHypothesis =>
    intro line member
    rw [renderBlocks, List.cons_append, List.mem_cons, List.mem_append] at member
    rcases member with header | edited | later
    · rw [header]
      exact header_carried _ _ _ _
    · obtain ⟨edit, present, rendered⟩ := List.mem_flatMap.mp edited
      rcases List.mem_cons.mp rendered with first | marked
      · rw [first]
        exact edit_carried (carried block (by simp) edit present)
      · rw [marker] at marked
        split at marked
        · cases marked
        · rw [List.mem_singleton.mp marked]
          exact marker_carried
    · exact inductionHypothesis
        (fun inspected present => carried inspected (List.mem_cons_of_mem _ present)) _ _ line later

end Hunks

section Patches

/-- A path that file headers carry without quotes: the tool accepts it as the path of
the file, and it has no tab, line feed or return at its end. -/
structure HeaderPath (path : Text) : Prop where
  carried : Carried path
  named : path ≠ []
  noTab : '\t' ∉ path
  noNul : '\x00' ∉ path
  relative : isAbsolute path = false
  inside : ∀ part ∈ components path, part ≠ .parentDir ∧ part ≠ .rootDir

theorem other_start {first char : Char} (apart : first ≠ char) (pattern text : Text) :
    (first :: pattern).isPrefixOf (char :: text) = false := by
  simp [List.isPrefixOf, apart]

theorem no_git_metadata {parser : PatchLines} {char : Char} (noDiff : 'd' ≠ char)
    (noIndex : 'i' ≠ char) (text : Text) :
    skipGitMetadata parser (char :: text) = .ok (char :: text, parser) := by
  have diff : "diff --git ".toList.isPrefixOf (char :: text) = false := other_start noDiff _ _
  have index : "index ".toList.isPrefixOf (char :: text) = false := other_start noIndex _ _
  rw [skipGitMetadata, diff, index]
  rfl

section Headers

variable {path : Text} (plain : HeaderPath path)
include plain

theorem header_line_carried {start : Text} (clean : Carried start) :
    Carried (start ++ path) := by
  constructor
  · rw [List.mem_append]
    rintro (first | later)
    · exact clean.1 first
    · exact plain.carried.1 later
  · rw [List.getLast?_append]
    cases last : path.getLast? with
    | none => exact absurd (List.getLast?_eq_none_iff.mp last) plain.named
    | some char =>
      rw [Option.some_or, ← last]
      exact plain.carried.2

/-- A header that names the path in one of the two directories is read as such. -/
theorem parse_header_path_rendered {start : Text} {letter : Char}
    (clean : Carried (start ++ [letter, '/']))
    (unquoted : '"' ≠ letter) (noTab : '\t' ∉ [letter, '/']) (noNul : '\x00' ∉ [letter, '/']) :
    parseHeaderPath (start ++ [letter, '/'] ++ path ++ ['\n']) start =
      .ok ([letter, '/'] ++ path) := by
  have line := strip_ended (header_line_carried plain clean)
  have value : stripStart start (start ++ [letter, '/'] ++ path) =
      some ([letter, '/'] ++ path) := by
    rw [List.append_assoc]
    exact strip_start_append _ _
  have quoted : ['"'].isPrefixOf ([letter, '/'] ++ path) = false := other_start unquoted _ _
  have untabbed : splitOnce '\t' ([letter, '/'] ++ path) = none := by
    apply split_once_free
    rw [List.mem_append]
    rintro (first | later)
    · exact noTab first
    · exact plain.noTab later
  have unterminated : ([letter, '/'] ++ path).contains '\x00' = false := by
    rw [List.contains_eq_mem, decide_eq_false_iff_not, List.mem_append]
    rintro (first | later)
    · exact noNul first
    · exact plain.noNul later
  rw [parseHeaderPath, line, value]
  simp only [required, bind, Except.bind, quoted, Bool.false_eq_true, if_false, untabbed,
    Option.elim_none, unterminated, Bool.or_false]
  rfl

/-- A header that names the path in a directory names the tool's path. -/
theorem validate_header_rendered (letter : Char) :
    validateHeaderPath ([letter, '/'] ++ path) path [letter, '/'] = .ok () := by
  have longer : [letter, '/'] ++ path ≠ path := by
    intro same
    have lengths := congrArg List.length same
    rw [List.length_append, List.length_cons] at lengths
    omega
  have unterminated : path.contains '\x00' = false := by
    rw [List.contains_eq_mem, decide_eq_false_iff_not]
    exact plain.noNul
  have inside : (components path).any (fun part => part == .parentDir || part == .rootDir) =
      false := by
    rw [List.any_eq_false]
    intro part member
    simpa using plain.inside part member
  have named : path.isEmpty = false := by simpa using plain.named
  rw [validateHeaderPath, if_neg longer, strip_start_append, Option.getD_some, if_neg]
  rw [named, unterminated, plain.relative, inside]
  simp

end Headers

variable {path : Text}

/-- The file headers are skipped, and the first hunk's header is read next. -/
theorem skip_headers_rendered (plain : HeaderPath path) {parser : PatchLines} {header : Text}
    {following : List Text}
    (left : parser.left =
      ("+++ b/".toList ++ path ++ ['\n']) :: (header ++ ['\n']) :: following) :
    ∃ after, skipFileHeaders path parser ("--- a/".toList ++ path ++ ['\n']) =
        .ok (header ++ ['\n'], after) ∧ after.left = following := by
  obtain ⟨second, read, behind⟩ := next_left left
  obtain ⟨after, next, rest⟩ := next_left behind
  have old : "--- a/".toList = "--- ".toList ++ ['a', '/'] := rfl
  have new : "+++ b/".toList = "+++ ".toList ++ ['b', '/'] := rfl
  have carried : Carried ("--- ".toList ++ ['a', '/']) := by
    constructor
    · decide
    · decide
  have otherCarried : Carried ("+++ ".toList ++ ['b', '/']) := by
    constructor
    · decide
    · decide
  have first := parse_header_path_rendered plain carried (by decide) (by decide) (by decide)
  have modified :=
    parse_header_path_rendered plain otherCarried (by decide) (by decide) (by decide)
  have shown : "--- ".toList.isPrefixOf ("--- ".toList ++ ['a', '/'] ++ path) = true := by
    rw [List.append_assoc, List.isPrefixOf_iff_prefix]
    exact List.prefix_append _ _
  refine ⟨after, ?_, rest⟩
  rw [old]
  rw [new] at read
  rw [skipFileHeaders, strip_ended (header_line_carried plain carried), shown, if_pos rfl, first,
    read]
  simp only [required, bind, Except.bind, modified, next]
  have firstSide : "a/".toList = ['a', '/'] := rfl
  have otherSide : "b/".toList = ['b', '/'] := rfl
  rw [firstSide, otherSide, validate_header_rendered plain, validate_header_rendered plain]

theorem no_file_headers {parser : PatchLines} {line : Text} (carried : Carried ('@' :: line)) :
    skipFileHeaders path parser ('@' :: line ++ ['\n']) = .ok ('@' :: line ++ ['\n'], parser) := by
  have other : "--- ".toList.isPrefixOf ('@' :: line) = false :=
    other_start (by decide) _ _
  rw [skipFileHeaders, strip_ended carried, other]
  rfl

/-- Every line of a rendering survives its transport. -/
theorem lines_carried {style : Rendering} {script : Script DiffLine}
    (plain : style.headers = true → HeaderPath path) (carried : BlocksCarried script.blocks) :
    ∀ line ∈ renderLines style path script, Carried line := by
  intro line member
  rw [renderLines, List.mem_append] at member
  rcases member with headed | rendered
  · cases headers : style.headers with
    | false => simp [headers] at headed
    | true =>
      rw [headers, if_pos rfl, fileHeaders, List.mem_cons, List.mem_singleton] at headed
      rcases headed with rfl | rfl
      · exact header_line_carried (plain headers) ⟨by decide, by decide⟩
      · exact header_line_carried (plain headers) ⟨by decide, by decide⟩
  · exact blocks_carried style.spelled carried 0 0 line rendered

/-- Every block renders at least its header. -/
theorem blocks_le_lines (spelled : Bool) (blocks : List (Block DiffLine))
    (oldPosition newPosition : Nat) :
    blocks.length ≤ (renderBlocks spelled oldPosition newPosition blocks).length := by
  induction blocks generalizing oldPosition newPosition with
  | nil => simp
  | cons block rest inductionHypothesis =>
    have later := inductionHypothesis (oldPosition + block.old.length)
      (newPosition + block.new.length)
    simp only [renderBlocks, List.cons_append, List.length_cons, List.length_append]
    omega

section WholePatch

variable {style : Rendering} {script : Script DiffLine} {block : Block DiffLine}
  {rest : List (Block DiffLine)}

/-- The header line of the first block. -/
def firstHeader (spelled : Bool) (block : Block DiffLine) : Text :=
  renderHeader spelled (0 + block.gap.length) (0 + block.gap.length) block.edits ++ ['\n']

/-- The lines after the header of the first block, as they stand in the patch. -/
def afterHeader (spelled : Bool) (block : Block DiffLine) (rest : List (Block DiffLine)) :
    List Text :=
  transported (block.edits.flatMap renderEdit ++
    renderBlocks spelled (0 + block.old.length) (0 + block.new.length) rest)

theorem first_header_text (spelled : Bool) (block : Block DiffLine) :
    ∃ text, firstHeader spelled block = '@' :: text ++ ['\n'] ∧ Carried ('@' :: text) := by
  obtain ⟨text, header⟩ := render_header_split spelled (0 + block.gap.length)
    (0 + block.gap.length) block.edits
  have carried := header_carried spelled (0 + block.gap.length) (0 + block.gap.length) block.edits
  refine ⟨'@' :: ' ' :: text, ?_, ?_⟩
  · rw [firstHeader, header]
    rfl
  · rw [header] at carried
    exact carried

/-- From the first hunk's header on, the hunks of all blocks are read. -/
theorem parse_blocks_rendered {parser : PatchLines}
    (carried : BlocksCarried (block :: rest))
    (edited : ∀ inspected ∈ block :: rest, inspected.edits ≠ [])
    (oldFits : ((block :: rest).flatMap Block.old).length < usizeMax)
    (newFits : ((block :: rest).flatMap Block.new).length < usizeMax)
    (left : parser.left = afterHeader style.spelled block rest) :
    parseHunksLoop (parser.left.length + 1) parser (firstHeader style.spelled block) 0 0 =
      .ok (hunksOf 0 0 (block :: rest)) := by
  apply parse_hunks_rendered style.spelled _ edited carried (by omega) (by omega)
    (Nat.le_refl _) (Nat.le_refl _) left
  have rendered := blocks_le_lines style.spelled rest (0 + block.old.length)
    (0 + block.new.length)
  rw [left, afterHeader, transported, List.length_map, List.length_append]
  omega

/-- The lines of a rendering, as the parser meets them. -/
theorem left_rendered (plain : style.headers = true → HeaderPath path)
    (carried : BlocksCarried script.blocks) (blocks : script.blocks = block :: rest) :
    (PatchLines.new (render style path script)).left =
      transported (if style.headers then fileHeaders path else []) ++
        firstHeader style.spelled block :: afterHeader style.spelled block rest := by
  have split : splitInclusive (render style path script) =
      transported (renderLines style path script) :=
    split_inclusive_join (lines_carried plain carried)
  rw [PatchLines.new, PatchLines.left, split, renderLines, blocks, renderBlocks,
    transported_append, List.cons_append, transported_cons]
  rfl

/-- A rendering is read back as the hunks of its script. -/
theorem parse_unified_rendered (plain : style.headers = true → HeaderPath path)
    (carried : BlocksCarried script.blocks) (changed : script.blocks ≠ [])
    (edited : ∀ inspected ∈ script.blocks, inspected.edits ≠ [])
    (oldFits : script.old.length < usizeMax) (newFits : script.new.length < usizeMax) :
    parseUnifiedPatch path (render style path script) = .ok (hunksOf 0 0 script.blocks) := by
  obtain ⟨block, rest, blocks⟩ := List.exists_cons_of_ne_nil changed
  have left := left_rendered plain carried blocks
  rw [Script.old, List.length_append] at oldFits
  rw [Script.new, List.length_append] at newFits
  rw [blocks] at carried edited oldFits newFits ⊢
  have parsed {parser : PatchLines} (behind : parser.left = afterHeader style.spelled block rest) :=
    parse_blocks_rendered carried edited (Nat.lt_of_le_of_lt (Nat.le_add_right _ _) oldFits)
      (Nat.lt_of_le_of_lt (Nat.le_add_right _ _) newFits) behind
  obtain ⟨text, header, headerCarried⟩ := first_header_text style.spelled block
  cases headers : style.headers with
  | false =>
    rw [headers] at left
    obtain ⟨after, next, behind⟩ := next_left left
    have metadata : skipGitMetadata after (firstHeader style.spelled block) =
        .ok (firstHeader style.spelled block, after) := by
      rw [header]
      exact no_git_metadata (by decide) (by decide) _
    have unheaded : skipFileHeaders path after (firstHeader style.spelled block) =
        .ok (firstHeader style.spelled block, after) := by
      rw [header]
      exact no_file_headers headerCarried
    rw [parseUnifiedPatch]
    simp only [next, required, bind, Except.bind, metadata, unheaded]
    exact parsed behind
  | true =>
    rw [headers] at left
    obtain ⟨first, next, behind⟩ := next_left left
    have metadata : skipGitMetadata first ("--- a/".toList ++ path ++ ['\n']) =
        .ok ("--- a/".toList ++ path ++ ['\n'], first) :=
      no_git_metadata (by decide) (by decide) _
    obtain ⟨after, skipped, remaining⟩ := skip_headers_rendered (plain headers) behind
    rw [parseUnifiedPatch]
    simp only [next, required, bind, Except.bind, metadata, skipped]
    exact parsed remaining

end WholePatch

end Patches

end MinicoreAgent.Patches

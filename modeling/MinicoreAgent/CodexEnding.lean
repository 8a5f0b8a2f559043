import MinicoreAgent.CodexBuild
import MinicoreAgent.UnifiedRender

/-!
# How a Codex patch ends its result

Where the last hunk reaches the end of a source that has no final newline, resolving marks
the last line that the hunk keeps. An added line is written without an ending then. A
context line is written with the ending it has in the source, so that the result gets a
final newline where the hunk removes the lines after it.

The mark is placed before the hunks are applied. Which line comes last in the result is
read off the located hunks: the last kept line of the last hunk, or what stands before
the hunk where it keeps none.
-/
namespace MinicoreAgent.Patches

section FreeTexts

/-- The lines that are left of a patch have no line feed inside. -/
def FreeLines (parser : PatchLines) : Prop :=
  ∀ line ∈ parser.left, '\n' ∉ stripTransportEnding line

theorem free_of_head {front text : Text} (begins : front <+: text) (free : '\n' ∉ text) :
    '\n' ∉ front :=
  fun member => free (begins.subset member)

theorem strip_fed_free {line : Text} (free : '\n' ∉ line) :
    '\n' ∉ stripTransportEnding (line ++ ['\n']) := by
  have fed : stripSuffix (line ++ ['\n']) '\n' = some line := by simp [stripSuffix]
  simp only [stripTransportEnding, fed]
  cases inner : stripSuffix line '\r' with
  | none => exact free
  | some bare => exact free_of_head (strip_suffix_head inner) free

theorem new_free (patch : Text) : FreeLines (PatchLines.new patch) := by
  obtain ⟨free, last_free⟩ := Lines.split_free '\n' patch
  intro line member
  simp only [PatchLines.new, PatchLines.left, Option.toList_none, List.nil_append, splitInclusive,
    List.mem_append, List.mem_map] at member
  rcases member with ⟨part, present, rfl⟩ | last
  · exact strip_fed_free (free part present)
  · split at last
    · cases last
    · rw [List.mem_singleton.mp last]
      exact free_of_head (strip_transport_head _) last_free

theorem required_ok {Part : Type} {found : Option Part} {part : Part}
    (done : required found = .ok part) : found = some part := by
  cases found with
  | none => cases done
  | some other =>
    cases done
    rfl

theorem next_some {parser after : PatchLines} {line : Text}
    (read : parser.next = some (line, after)) : parser.left = line :: after.left := by
  obtain ⟨lines, peeked⟩ := parser
  cases peeked with
  | some shown =>
    cases read
    rfl
  | none =>
    cases lines with
    | nil => cases read
    | cons first others =>
      cases read
      rfl

theorem FreeLines.next {parser after : PatchLines} {line : Text} (free : FreeLines parser)
    (read : parser.next = some (line, after)) :
    '\n' ∉ stripTransportEnding line ∧ FreeLines after := by
  have left := next_some read
  constructor
  · exact free line (left ▸ List.mem_cons_self)
  · intro other member
    exact free other (left ▸ List.mem_cons_of_mem line member)

theorem FreeLines.skip {parser : PatchLines} (free : FreeLines parser) :
    FreeLines ((parser.next.map Prod.snd).getD parser) := by
  cases read : parser.next with
  | none => exact free
  | some pair => exact (free.next read).2

theorem FreeLines.peek {parser : PatchLines} (free : FreeLines parser) :
    FreeLines parser.peek.2 := by
  intro line member
  rw [(peek_left parser).2] at member
  exact free line member

theorem parse_content_text {line : Text} {content : PatchContent}
    (parsed : parsePatchContent line = .ok content) : content.text <:+ line := by
  cases line with
  | nil =>
    cases parsed
    exact List.suffix_rfl
  | cons char text =>
    simp only [parsePatchContent] at parsed
    split at parsed
    · cases parsed
      exact List.suffix_cons char text
    · split at parsed
      · cases parsed
        exact List.suffix_cons char text
      · split at parsed
        · cases parsed
          exact List.suffix_cons char text
        · cases parsed

theorem mark_no_newline_text {content marked : PatchContent}
    (done : markNoNewline content = .ok marked) : marked.text = content.text := by
  rw [markNoNewline] at done
  split at done
  · cases done
  · split at done
    all_goals cases done
    all_goals rfl

theorem consume_no_newline_free {parser after : PatchLines} {content marked : PatchContent}
    (free : FreeLines parser) (done : consumeNoNewline parser content = .ok (after, marked)) :
    FreeLines after ∧ marked.text = content.text := by
  simp only [consumeNoNewline] at done
  split at done
  · obtain ⟨between, first, done⟩ := Results.bind_ok.mp done
    split at done
    · cases done
    · cases done
      exact ⟨free.peek.skip.peek, mark_no_newline_text first⟩
  · cases done
    exact ⟨free.peek, rfl⟩

theorem codex_contents_free {fuel : Nat} {parser next : PatchLines}
    {contents : List PatchContent} {endOfFile : Bool} (free : FreeLines parser)
    (parsed : codexContentsLoop fuel parser = .ok (contents, endOfFile, next)) :
    FreeLines next ∧ ∀ content ∈ contents, '\n' ∉ content.text := by
  induction fuel generalizing parser contents with
  | zero => cases parsed
  | succ fuel inductionHypothesis =>
    rw [codexContentsLoop] at parsed
    dsimp only at parsed
    obtain ⟨raw, -, parsed⟩ := Results.bind_ok.mp parsed
    split at parsed
    · cases parsed
      exact ⟨free.peek, by simp⟩
    · split at parsed
      · cases parsed
        exact ⟨free.peek.skip, by simp⟩
      · split at parsed
        · cases parsed
        · obtain ⟨⟨line, after⟩, read, parsed⟩ := Results.bind_ok.mp parsed
          obtain ⟨content, shown, parsed⟩ := Results.bind_ok.mp parsed
          obtain ⟨⟨following, marked⟩, consumed, parsed⟩ := Results.bind_ok.mp parsed
          obtain ⟨⟨rest, final, last⟩, later, parsed⟩ := Results.bind_ok.mp parsed
          cases parsed
          obtain ⟨line_free, after_free⟩ := free.peek.next (required_ok read)
          obtain ⟨following_free, same⟩ := consume_no_newline_free after_free consumed
          obtain ⟨next_free, others⟩ := inductionHypothesis following_free later
          refine ⟨next_free, fun inspected member => ?_⟩
          rcases List.mem_cons.mp member with rfl | other
          · rw [same]
            exact fun inside => line_free ((parse_content_text shown).subset inside)
          · exact others inspected other

/-- The lines of parsed hunks have no line feed inside, and the last hunk has lines. -/
theorem codex_hunks_free {fuel : Nat} {parser : PatchLines} {previous : Option CodexHunk}
    {hunks : List CodexHunk} (free : FreeLines parser)
    (parsed : codexHunksLoop fuel parser previous = .ok hunks) :
    (∀ hunk ∈ hunks, ∀ content ∈ hunk.contents, '\n' ∉ content.text) ∧
      ∃ hunk, (hunks.getLast? <|> previous) = some hunk ∧ hunk.contents ≠ [] := by
  induction fuel generalizing parser previous hunks with
  | zero => cases parsed
  | succ fuel inductionHypothesis =>
    rw [codexHunksLoop] at parsed
    obtain ⟨⟨raw, after⟩, read, parsed⟩ := Results.bind_ok.mp parsed
    have after_free := (free.next (required_ok read)).2
    dsimp only at parsed
    split at parsed
    · split at parsed
      · cases parsed
      · rename_i filled
        obtain ⟨finished, -, parsed⟩ := Results.bind_ok.mp parsed
        cases parsed
        refine ⟨by simp, ?_⟩
        cases previous with
        | none => exact absurd rfl filled
        | some hunk => exact ⟨hunk, rfl, by simpa using filled⟩
    · split at parsed
      · cases parsed
      · obtain ⟨locator, -, parsed⟩ := Results.bind_ok.mp parsed
        obtain ⟨⟨contents, endOfFile, following⟩, shown, parsed⟩ := Results.bind_ok.mp parsed
        obtain ⟨following_free, contents_free⟩ := codex_contents_free after_free shown
        dsimp only at parsed
        split at parsed
        · cases parsed
        · obtain ⟨rest, later, parsed⟩ := Results.bind_ok.mp parsed
          cases parsed
          obtain ⟨others, last, found, filled⟩ := inductionHypothesis following_free later
          constructor
          · intro hunk member
            rcases List.mem_cons.mp member with rfl | other
            · exact contents_free
            · exact others hunk other
          · refine ⟨last, ?_, filled⟩
            cases rest with
            | nil => exact found
            | cons second more =>
              rw [List.getLast?_cons_cons]
              cases present : (second :: more).getLast? with
              | none => simp at present
              | some final =>
                rw [present] at found
                exact found

theorem parse_codex_free {path patch : Text} {hunks : List CodexHunk}
    (parsed : parseCodexPatch path patch = .ok hunks) :
    (∀ hunk ∈ hunks, ∀ content ∈ hunk.contents, '\n' ∉ content.text) ∧
      ∃ hunk, hunks.getLast? = some hunk ∧ hunk.contents ≠ [] := by
  obtain ⟨⟨first, after⟩, begun, parsed⟩ := Results.bind_ok.mp parsed
  dsimp only at parsed
  split at parsed
  · cases parsed
  · obtain ⟨⟨update, following⟩, named, parsed⟩ := Results.bind_ok.mp parsed
    obtain ⟨header, -, parsed⟩ := Results.bind_ok.mp parsed
    obtain ⟨valid, -, parsed⟩ := Results.bind_ok.mp parsed
    have after_free := ((new_free patch).next (required_ok begun)).2
    obtain ⟨free, last⟩ := codex_hunks_free (after_free.next (required_ok named)).2 parsed
    exact ⟨free, by simpa using last⟩

end FreeTexts

section LastCharacter

theorem ended_text_last {line : SourceLine} (ended : line.ending ≠ .none) :
    (line.text ++ line.ending.asStr).getLast? = some '\n' := by
  cases ending : line.ending with
  | none => exact absurd ending ended
  | lf => simp [LineEnding.asStr]
  | crlf => simp [LineEnding.asStr]

/-- A text of lines has no final newline exactly where its last line is open and has text. -/
theorem final_newline_iff {lines : List SourceLine} (ended : EndedBefore lines)
    (free : ∀ line, lines.getLast? = some line → line.ending = .none → '\n' ∉ line.text)
    (filled : sourceText lines ≠ []) :
    (sourceText lines).getLast? ≠ some '\n' ↔
      ∃ line, lines.getLast? = some line ∧ line.ending = .none ∧ line.text ≠ [] := by
  rcases List.eq_nil_or_concat lines with rfl | ⟨before, last, rfl⟩
  · exact absurd rfl filled
  · rw [List.concat_eq_append] at ended free filled ⊢
    have earlier : Ended before := (ended_before_append.mp ended).2.2 (by simp)
    have shown : (before ++ [last]).getLast? = some last := List.getLast?_concat
    rw [source_text_append, source_text_singleton] at filled ⊢
    simp only [shown, Option.some.injEq, exists_eq_left']
    by_cases closed : last.ending = .none
    · by_cases empty : last.text = []
      · have nothing : last.text ++ last.ending.asStr = [] := by
          rw [empty, closed]
          rfl
        rw [nothing, List.append_nil] at filled ⊢
        rcases List.eq_nil_or_concat before with rfl | ⟨first, line, rfl⟩
        · exact absurd rfl filled
        · rw [List.concat_eq_append] at earlier ⊢
          have feed := ended_text_last (earlier line (by simp))
          rw [source_text_append, source_text_singleton, List.getLast?_append, feed]
          simp [empty]
      · have no_feed := free last shown closed
        have whole : last.text ++ last.ending.asStr = last.text := by
          rw [closed]
          exact List.append_nil _
        rw [whole, List.getLast?_append_of_ne_nil _ empty]
        refine ⟨fun _ => ⟨closed, empty⟩, fun _ feed => no_feed (List.mem_of_getLast? feed)⟩
    · rw [List.getLast?_append, ended_text_last closed]
      simp [closed]

theorem source_loop_filled (current rest : Text) :
    ∀ line ∈ splitSourceLoop current rest, line.ending = .none → line.text ≠ [] := by
  induction rest generalizing current with
  | nil =>
    rw [splitSourceLoop]
    split
    · simp
    · rename_i filled
      intro line member _
      rw [List.mem_singleton.mp member]
      exact filled
  | cons char rest inductionHypothesis =>
    rw [splitSourceLoop]
    split
    · intro line member closed
      rcases List.mem_cons.mp member with rfl | later
      · rw [endedLine] at closed
        split at closed
        all_goals cases closed
      · exact inductionHypothesis [] line later closed
    · exact inductionHypothesis _

/-- A source without a final newline is empty, or its last line is open and has text. -/
theorem source_open {source : Text} (missing : source.getLast? ≠ some '\n') :
    splitSourceLines source = [] ∨
      ∃ line, (splitSourceLines source).getLast? = some line ∧ line.ending = .none ∧
        line.text ≠ [] := by
  rcases List.eq_nil_or_concat (splitSourceLines source) with empty | ⟨before, last, whole⟩
  · exact Or.inl empty
  · rw [List.concat_eq_append] at whole
    right
    refine ⟨last, by rw [whole]; exact List.getLast?_concat, ?_⟩
    have closed : last.ending = .none := by
      by_contra ended
      apply missing
      rw [← source_of_lines source, whole, source_text_append, source_text_singleton,
        List.getLast?_append, ended_text_last ended]
      rfl
    exact ⟨closed, source_loop_filled [] source last (by rw [← splitSourceLines, whole]; simp)
      closed⟩

theorem source_loop_free (current rest : Text) (free : '\n' ∉ current) :
    ∀ line ∈ splitSourceLoop current rest, '\n' ∉ line.text := by
  induction rest generalizing current with
  | nil =>
    rw [splitSourceLoop]
    split
    · simp
    · intro line member
      rw [List.mem_singleton.mp member]
      exact free
  | cons char rest inductionHypothesis =>
    rw [splitSourceLoop]
    split
    · intro line member
      rcases List.mem_cons.mp member with rfl | later
      · rw [endedLine]
        split
        · exact free_of_head (List.dropLast_prefix current) free
        · exact free
      · exact inductionHypothesis [] (by simp) line later
    · rename_i other
      apply inductionHypothesis
      rw [List.mem_append, List.mem_singleton, not_or]
      exact ⟨free, fun same => other same.symm⟩

end LastCharacter

section Marks

variable {source : List SourceLine}

/-- Lines that differ in their marks only. -/
def SameLine (first second : PatchContent) : Prop :=
  second.kind = first.kind ∧ second.text = first.text

theorem Alike.same_line {first second : PatchContent} (alike : Alike first second) :
    SameLine first second :=
  ⟨alike.kind, alike.text⟩

theorem new_part_cons_filled {content : PatchContent} {rest : List PatchContent}
    (kept : newPart rest ≠ []) :
    (newPart (content :: rest)).getLast? = (newPart rest).getLast? := by
  obtain ⟨first, others, filled⟩ := List.exists_cons_of_ne_nil kept
  rw [newPart, List.filter_cons]
  split
  · change (content :: newPart rest).getLast? = _
    rw [filled, List.getLast?_cons_cons]
  · rfl

theorem new_part_cons_empty {content : PatchContent} {rest : List PatchContent}
    (none_kept : newPart rest = []) :
    newPart (content :: rest) = if content.kept then [content] else [] := by
  rw [newPart, List.filter_cons]
  change (if content.kept then content :: newPart rest else newPart rest) = _
  rw [none_kept]

theorem any_kept_iff {contents : List PatchContent} :
    contents.any (·.kept) = true ↔ newPart contents ≠ [] := by
  rw [ne_eq, ← not_kept_iff]
  simp

theorem same_lines_kept {first second : List PatchContent}
    (same : List.Forall₂ SameLine first second) :
    newPart second = [] ↔ newPart first = [] := by
  induction same with
  | nil => exact Iff.rfl
  | cons line _ inductionHypothesis =>
    simp only [newPart, List.filter_eq_nil_iff] at inductionHypothesis
    simp only [newPart, List.filter_eq_nil_iff, List.forall_mem_cons, line.1, inductionHypothesis]

theorem same_lines_free {first second : List PatchContent}
    (same : List.Forall₂ SameLine first second)
    (free : ∀ content ∈ first, '\n' ∉ content.text) :
    ∀ content ∈ second, '\n' ∉ content.text := by
  induction same with
  | nil => exact free
  | cons line _ inductionHypothesis =>
    intro content member
    rcases List.mem_cons.mp member with rfl | other
    · rw [line.2]
      exact free _ List.mem_cons_self
    · exact inductionHypothesis (fun inner present =>
        free inner (List.mem_cons_of_mem _ present)) content other

/-- The last kept line has the mark of the result. -/
theorem last_kept_marked (contents : List PatchContent) :
    ∀ content, (newPart (markLastKept contents)).getLast? = some content →
      content.newNoNewline = true := by
  induction contents with
  | nil => simp [markLastKept, newPart]
  | cons first rest inductionHypothesis =>
    intro content last
    rw [markLastKept] at last
    split at last
    · rename_i kept
      have alike := last_kept_alike rest
      have same := (alike.imp fun _ _ line => line.same_line)
      have still_kept : newPart (markLastKept rest) ≠ [] := by
        rw [ne_eq, same_lines_kept same]
        exact any_kept_iff.mp kept
      rw [new_part_cons_filled still_kept] at last
      exact inductionHypothesis content last
    · rename_i dropped
      have none_kept : newPart rest = [] := by
        by_contra kept
        exact dropped (any_kept_iff.mpr kept)
      split at last
      · rename_i stays
        have shown : newPart ({ first with newNoNewline := true } :: rest) =
            [{ first with newNoNewline := true }] :=
          (new_part_cons_empty none_kept).trans (if_pos stays)
        rw [shown] at last
        cases last
        rfl
      · rename_i removed
        rw [new_part_cons_empty none_kept, if_neg removed] at last
        cases last

/-- Marking the endings of the source keeps the lines, and the ending of the last kept one. -/
theorem mark_source_same {preferred : LineEnding} {contents marked : List PatchContent}
    {lines : List SourceLine} (plain : ∀ content ∈ contents, Plain content)
    (done : markCodexSourceEndings preferred contents lines = .ok marked) :
    List.Forall₂ SameLine contents marked ∧
      ∀ content, (newPart marked).getLast? = some content → content.contextNewEnding = none := by
  induction contents generalizing lines marked with
  | nil =>
    cases done
    exact ⟨.nil, by simp [newPart]⟩
  | cons content rest inductionHypothesis =>
    have plain_rest : ∀ other ∈ rest, Plain other :=
      fun other member => plain other (List.mem_cons_of_mem content member)
    have unset : content.contextNewEnding = none := plain content List.mem_cons_self
    -- The new line only matters for the last kept line where nothing else is kept.
    have step (placed : PatchContent) (later : List PatchContent) (line : SameLine content placed)
        (ending : newPart rest = [] → placed.contextNewEnding = none)
        (tail : List.Forall₂ SameLine rest later ∧
          ∀ other, (newPart later).getLast? = some other → other.contextNewEnding = none) :
        List.Forall₂ SameLine (content :: rest) (placed :: later) ∧
          ∀ other, (newPart (placed :: later)).getLast? = some other →
            other.contextNewEnding = none := by
      refine ⟨.cons line tail.1, fun other last => ?_⟩
      by_cases kept : newPart later = []
      · rw [new_part_cons_empty kept] at last
        split at last
        · cases last
          exact ending ((same_lines_kept tail.1).mp kept)
        · cases last
      · rw [new_part_cons_filled kept] at last
        exact tail.2 other last
    unfold markCodexSourceEndings at done
    split at done
    · obtain ⟨later, first, done⟩ := Results.bind_ok.mp done
      cases done
      exact step content later ⟨rfl, rfl⟩ (fun _ => unset) (inductionHypothesis plain_rest first)
    · split at done
      · cases done
      · obtain ⟨later, first, done⟩ := Results.bind_ok.mp done
        cases done
        have tail := inductionHypothesis plain_rest first
        split
        · refine step _ later ⟨rfl, rfl⟩ (fun none_kept => ?_) tail
          dsimp only
          rw [if_neg]
          · exact unset
          · rintro ⟨-, -, kept⟩
            exact any_kept_iff.mp kept none_kept
        · exact step content later ⟨rfl, rfl⟩ (fun _ => unset) tail

theorem related_last {First Second : Type} {related : First → Second → Prop}
    {first : List First} {second : List Second} (pairs : List.Forall₂ related first second)
    {last : Second} (found : second.getLast? = some last) :
    ∃ other, first.getLast? = some other ∧ related other last := by
  induction pairs with
  | nil => cases found
  | @cons head other heads others pair tail inductionHypothesis =>
    cases tail with
    | nil =>
      cases found
      exact ⟨head, rfl, pair⟩
    | cons second more =>
      rw [List.getLast?_cons_cons] at found ⊢
      exact inductionHypothesis found

/-- The last line that a hunk keeps is marked, and keeps its ending. -/
def LastMarked (contents : List PatchContent) : Prop :=
  ∀ content, (newPart contents).getLast? = some content →
    content.newNoNewline = true ∧ content.contextNewEnding = none

theorem mark_result_last {contents marked : List PatchContent}
    (same : List.Forall₂ SameLine contents marked)
    (ending : ∀ content, (newPart marked).getLast? = some content →
      content.contextNewEnding = none) :
    LastMarked (markCodexResultNoNewline marked (newPart contents).length) := by
  intro content last
  rw [markCodexResultNoNewline] at last
  split at last
  · rename_i none_kept
    rw [(same_lines_kept same).mpr (List.length_eq_zero_iff.mp none_kept)] at last
    cases last
  · refine ⟨last_kept_marked marked content last, ?_⟩
    obtain ⟨other, before, alike⟩ := related_last (alike_sides (last_kept_alike marked)).2 last
    rw [alike.contextNewEnding]
    exact ending other before

theorem mark_result_same (marked : List PatchContent) (count : Nat) :
    List.Forall₂ SameLine marked (markCodexResultNoNewline marked count) := by
  rw [markCodexResultNoNewline]
  split
  · exact List.forall₂_same.mpr fun _ _ => ⟨rfl, rfl⟩
  · exact (last_kept_alike marked).imp fun _ _ line => line.same_line

/-- What a round leaves of the lines of its hunk. -/
structure Round (source : List SourceLine) (isLast : Bool) (hunk : CodexHunk)
    (resolved : ResolvedHunk) : Prop where
  free : (∀ content ∈ hunk.contents, '\n' ∉ content.text) →
    ∀ content ∈ resolved.contents, '\n' ∉ content.text
  marked : isLast = true → opensAtEnd source = true → resolved.old.stop = source.length →
    LastMarked resolved.contents

theorem resolve_round {isLast : Bool} {state next : Resolving} {hunk : CodexHunk}
    {resolved : Option ResolvedHunk} (plain : ∀ content ∈ hunk.contents, Plain content)
    (done : resolveCodexHunk source isLast state hunk = .ok (next, resolved)) :
    (hunk.contents ≠ [] → resolved ≠ none) ∧
      ∀ found, resolved = some found → Round source isLast hunk found := by
  unfold resolveCodexHunk at done
  split at done
  · cases done
  · obtain ⟨⟨oldCount, newCount⟩, counted, done⟩ := Results.bind_ok.mp done
    have counts := content_counts counted
    rw [Nat.zero_add, Nat.zero_add, Prod.mk.injEq] at counts
    obtain ⟨rfl, rfl⟩ := counts
    obtain ⟨⟨start, visits⟩, -, done⟩ := Results.bind_ok.mp done
    dsimp only at done
    split at done
    · cases done
    · obtain ⟨checked, -, done⟩ := Results.bind_ok.mp done
      obtain ⟨skipped, -, done⟩ := Results.bind_ok.mp done
      obtain ⟨output, -, done⟩ := Results.bind_ok.mp done
      split at done
      · rename_i empty
        cases done
        refine ⟨fun filled => absurd (List.isEmpty_iff.mp empty) filled, ?_⟩
        intro found none_found
        cases none_found
      · obtain ⟨oldEnd, ends, done⟩ := Results.bind_ok.mp done
        obtain ⟨contents, marking, done⟩ := Results.bind_ok.mp done
        obtain ⟨old, ranged, done⟩ := Results.bind_ok.mp done
        obtain ⟨new, -, done⟩ := Results.bind_ok.mp done
        obtain ⟨final, -, done⟩ := Results.bind_ok.mp done
        obtain ⟨-, rfl⟩ := add_ok_iff.mp ends
        obtain rfl := make_hunk_range ranged
        cases done
        obtain ⟨same, ending⟩ := mark_source_same plain marking
        refine ⟨fun _ => Option.some_ne_none _, ?_⟩
        intro found shown
        cases shown
        constructor
        · intro free
          dsimp only
          split
          · exact same_lines_free (mark_result_same contents _) (same_lines_free same free)
          · exact same_lines_free same free
        · intro last opens stop
          dsimp only
          rw [if_pos ⟨last, opens, stop⟩]
          exact mark_result_last same ending

/-- The lines of resolved hunks have no line feed inside; where the last hunk reaches an
open end of the source, its last kept line is marked. -/
theorem resolve_rounds {state : Resolving} {hunks : List CodexHunk}
    {resolved : List ResolvedHunk}
    (plain : ∀ hunk ∈ hunks, ∀ content ∈ hunk.contents, Plain content)
    (free : ∀ hunk ∈ hunks, ∀ content ∈ hunk.contents, '\n' ∉ content.text)
    (filled : ∀ hunk, hunks.getLast? = some hunk → hunk.contents ≠ [])
    (done : resolveCodexHunks source state hunks = .ok resolved) :
    (∀ hunk ∈ resolved, ∀ content ∈ hunk.contents, '\n' ∉ content.text) ∧
      (hunks ≠ [] → resolved ≠ []) ∧
      ∀ hunk, resolved.getLast? = some hunk → opensAtEnd source = true →
        hunk.old.stop = source.length → LastMarked hunk.contents := by
  induction hunks generalizing state resolved with
  | nil =>
    cases done
    exact ⟨by simp, fun present => absurd rfl present, by simp⟩
  | cons hunk rest inductionHypothesis =>
    rw [resolveCodexHunks] at done
    obtain ⟨⟨next, first⟩, here, done⟩ := Results.bind_ok.mp done
    obtain ⟨later, following, done⟩ := Results.bind_ok.mp done
    cases done
    obtain ⟨resolves, round⟩ := resolve_round (plain hunk List.mem_cons_self) here
    cases rest with
    | nil =>
      cases following
      have present := resolves (filled hunk rfl)
      obtain ⟨found, rfl⟩ := Option.ne_none_iff_exists'.mp present
      have last := round found rfl
      refine ⟨?_, by simp, ?_⟩
      · intro other member
        rw [Option.toList_some, List.append_nil, List.mem_singleton] at member
        exact member ▸ last.free (free hunk List.mem_cons_self)
      · intro other shown opens stop
        rw [Option.toList_some, List.append_nil, List.getLast?_singleton] at shown
        cases shown
        exact last.marked rfl opens stop
    | cons second more =>
      obtain ⟨others, kept, marked⟩ := inductionHypothesis
        (fun other member => plain other (List.mem_cons_of_mem hunk member))
        (fun other member => free other (List.mem_cons_of_mem hunk member))
        (fun other last => filled other (by rwa [List.getLast?_cons_cons])) following
      have present := kept (List.cons_ne_nil second more)
      refine ⟨?_, ?_, ?_⟩
      · intro other member
        rcases List.mem_append.mp member with earlier | after
        · rw [Option.mem_toList] at earlier
          exact (round other earlier).free (free hunk List.mem_cons_self)
        · exact others other after
      · intro _ nothing
        exact present (List.append_eq_nil_iff.mp nothing).2
      · rw [List.getLast?_append_of_ne_nil _ present]
        exact marked

end Marks

section Endings

/-- Whether the last line that a hunk keeps is written without an ending and has text, if it
keeps one: an added line where the hunk reaches the open end of the source or where the patch
marks the line, and a context line where the hunk reaches that end with this very line. -/
def staysOpen (reaches : Bool) : List PatchContent → Option Bool
  | [] => none
  | content :: rest =>
    match staysOpen reaches rest with
    | some answer => some answer
    | none =>
      match content.kind with
      | .context => some (reaches && rest.isEmpty)
      | .remove => none
      | .add => some ((reaches || content.newNoNewline) && !content.text.isEmpty)

/-- The same of the last line that located hunks write from a position on. -/
def endsOpen (source : List SourceLine) : Nat → List ResolvedHunk → Option Bool
  | _, [] => none
  | cursor, hunk :: rest =>
    match endsOpen source hunk.old.stop rest with
    | some answer => some answer
    | none =>
      match staysOpen (rest.isEmpty && !source.isEmpty) hunk.contents with
      | some answer => some answer
      | none => if cursor < hunk.old.index then some false else none

variable {source : List SourceLine} {preferred : LineEnding} {cursor position : Nat}

/-- The last of some lines is open and has text exactly where the answer says so; there is no
line where there is no answer. -/
def Answers (answer : Option Bool) (lines : List SourceLine) : Prop :=
  match answer with
  | none => lines = []
  | some value => ∃ line, lines.getLast? = some line ∧
      (value = true ↔ line.ending = .none ∧ line.text ≠ [])

theorem Answers.after {value : Bool} {before lines : List SourceLine}
    (answers : Answers (some value) lines) : Answers (some value) (before ++ lines) := by
  obtain ⟨line, last, same⟩ := answers
  have present : lines ≠ [] := by
    rintro rfl
    cases last
  exact ⟨line, (List.getLast?_append_of_ne_nil before present).trans last, same⟩

theorem Answers.open_iff {answer : Option Bool} {lines : List SourceLine}
    (answers : Answers answer lines) :
    (∃ line, lines.getLast? = some line ∧ line.ending = .none ∧ line.text ≠ []) ↔
      answer = some true := by
  cases answer with
  | none =>
    have nothing : lines = [] := answers
    simp [nothing]
  | some value =>
    obtain ⟨line, last, same⟩ := answers
    simp only [last, Option.some.injEq, exists_eq_left', ← same]

theorem stays_open_none {reaches : Bool} {contents : List PatchContent}
    (none_open : staysOpen reaches contents = none) : newPart contents = [] := by
  induction contents with
  | nil => rfl
  | cons content rest inductionHypothesis =>
    rw [staysOpen] at none_open
    cases later : staysOpen reaches rest with
    | some answer => simp [later] at none_open
    | none =>
      rw [new_part_cons_empty (inductionHypothesis later)]
      rw [later] at none_open
      cases kind : content.kind with
      | context => simp [kind] at none_open
      | remove => simp [PatchContent.kept, kind]
      | add => simp [kind] at none_open

/-- Where no line is kept, all are read from the source. -/
theorem old_part_all {contents : List PatchContent} (none_kept : newPart contents = []) :
    oldPart contents = contents := by
  rw [newPart, List.filter_eq_nil_iff] at none_kept
  apply List.filter_eq_self.mpr
  intro content member
  have removed := none_kept content member
  cases kind : content.kind with
  | context => simp [kind] at removed
  | remove => rfl
  | add => simp [kind] at removed

theorem source_line_ended (ended : EndedBefore source) {line : SourceLine}
    (here : source[cursor]? = some line) (before : cursor + 1 < source.length) :
    line.ending ≠ .none := by
  apply ended
  obtain ⟨inside, rfl⟩ := List.getElem?_eq_some_iff.mp here
  have shorter : cursor < source.dropLast.length := by
    rw [List.length_dropLast]
    omega
  exact List.mem_of_getElem (List.getElem_dropLast shorter)

/-- The end of a source that lacks its final newline. -/
structure OpenEnd (source : List SourceLine) : Prop where
  ended : EndedBefore source
  last : source = [] ∨ ∃ line, source.getLast? = some line ∧ line.ending = .none ∧ line.text ≠ []

theorem OpenEnd.opens (openEnd : OpenEnd source) (filled : source ≠ []) :
    opensAtEnd source = true := by
  obtain ⟨line, last, closed, -⟩ := openEnd.last.resolve_left filled
  rw [opensAtEnd, last, Option.any_some, closed]
  rfl

theorem last_marked_rest {content : PatchContent} {rest : List PatchContent}
    (marked : LastMarked (content :: rest)) : LastMarked rest := by
  intro other last
  by_cases kept : newPart rest = []
  · rw [kept] at last
    cases last
  · rw [← new_part_cons_filled kept] at last
    exact marked other last

/-- A context line behind which nothing is kept is open where it is the last line of the
source. -/
theorem context_line_open {content : PatchContent} {rest : List PatchContent} {line : SourceLine}
    {stop : Nat} {reaches : Bool} (openEnd : OpenEnd source) (kind : content.kind = .context)
    (given : content.contextNewEnding ≠ some .none) (here : source[cursor]? = some line)
    (none_kept : newPart rest = []) (stands : stop = cursor + ((oldPart rest).length + 1))
    (inside : stop ≤ source.length)
    (finished : reaches = true → stop = source.length ∧ LastMarked (content :: rest))
    (short : reaches = false → stop < source.length ∨ source = []) :
    (reaches && rest.isEmpty) = true ↔
      content.contextNewEnding.getD line.ending = .none ∧ line.text ≠ [] := by
  have present := (List.getElem?_eq_some_iff.mp here).1
  rw [old_part_all none_kept] at stands
  by_cases atEnd : reaches = true ∧ rest = []
  · obtain ⟨reached, rfl⟩ := atEnd
    obtain ⟨stop_last, marked⟩ := finished reached
    rw [List.length_nil] at stands
    have only : (newPart [content]).getLast? = some content := by
      rw [new_part_cons_empty rfl, if_pos (by simp [PatchContent.kept, kind])]
      rfl
    have kept_ending := (marked content only).2
    have last : source.getLast? = some line := by
      rw [List.getLast?_eq_getElem?, ← here]
      congr 1
      omega
    have filled : source ≠ [] := List.ne_nil_of_length_pos (by omega)
    obtain ⟨same, shown, closed, text⟩ := openEnd.last.resolve_left filled
    rw [last] at shown
    cases shown
    rw [reached, kept_ending]
    exact iff_of_true rfl ⟨closed, text⟩
  · have before : cursor + 1 < source.length := by
      cases reached : reaches with
      | true =>
        have more : rest ≠ [] := fun empty => atEnd ⟨reached, empty⟩
        have counted := List.length_pos_of_ne_nil more
        omega
      | false =>
        rcases short reached with inner | empty
        · omega
        · rw [empty] at present
          exact absurd present (Nat.not_lt_zero _)
    have line_ended := source_line_ended openEnd.ended here before
    have answer : (reaches && rest.isEmpty) ≠ true := by
      rw [ne_eq, Bool.and_eq_true, List.isEmpty_iff]
      exact atEnd
    apply iff_of_false answer
    rintro ⟨closed, -⟩
    cases changed : content.contextNewEnding with
    | none =>
      rw [changed] at closed
      exact line_ended closed
    | some other =>
      rw [changed] at closed given
      exact given (congrArg some closed)

/-- An added line behind which nothing is kept is open where it is marked. -/
theorem added_line_open {content : PatchContent} {rest : List PatchContent} {reaches : Bool}
    (ending : preferred ≠ .none) (kind : content.kind = .add) (none_kept : newPart rest = [])
    (finished : reaches = true → LastMarked (content :: rest)) :
    ((reaches || content.newNoNewline) && !content.text.isEmpty) = true ↔
      (if content.newNoNewline then LineEnding.none else preferred) = .none ∧
        content.text ≠ [] := by
  have marks : (reaches || content.newNoNewline) = content.newNoNewline := by
    cases reached : reaches with
    | false => exact Bool.false_or _
    | true =>
      have only : (newPart (content :: rest)).getLast? = some content := by
        rw [new_part_cons_empty none_kept, if_pos (by simp [PatchContent.kept, kind])]
        rfl
      rw [(finished reached content only).1]
      exact Bool.or_self true
  rw [marks, Bool.and_eq_true, Bool.not_eq_true', List.isEmpty_eq_false_iff]
  cases content.newNoNewline with
  | true => exact and_congr_left' (iff_of_true rfl (if_pos rfl))
  | false => exact and_congr_left' (iff_of_false Bool.false_ne_true ending)

/-- What a hunk writes ends as it says. -/
theorem written_answers {contents : List PatchContent} {stop : Nat} {reaches : Bool}
    (ending : preferred ≠ .none) (openEnd : OpenEnd source)
    (stands : stop = cursor + (oldPart contents).length) (inside : stop ≤ source.length)
    (matched : List.Forall₂ Expects (oldPart contents) (between source cursor stop))
    (given : ∀ content ∈ contents, content.contextNewEnding ≠ some .none)
    (finished : reaches = true → stop = source.length ∧ LastMarked contents)
    (short : reaches = false → stop < source.length ∨ source = []) :
    Answers (staysOpen reaches contents) (writtenLines source preferred cursor contents) := by
  induction contents generalizing cursor with
  | nil => exact rfl
  | cons content rest inductionHypothesis =>
    have given_rest : ∀ other ∈ rest, other.contextNewEnding ≠ some .none :=
      fun other member => given other (List.mem_cons_of_mem content member)
    have finished_rest : reaches = true → stop = source.length ∧ LastMarked rest :=
      fun reached => ⟨(finished reached).1, last_marked_rest (finished reached).2⟩
    cases kind : content.kind with
    | context =>
      have old : oldPart (content :: rest) = content :: oldPart rest := by simp [oldPart, kind]
      rw [old, List.length_cons] at stands
      rw [old, List.forall₂_cons_left_iff] at matched
      obtain ⟨line, later, expected, following, first⟩ := matched
      obtain ⟨here, remaining⟩ := between_eq_cons first
      have whole : writtenLines source preferred cursor (content :: rest) =
          [{ line with ending := content.contextNewEnding.getD line.ending }] ++
            writtenLines source preferred (cursor + 1) rest := by
        simp [writtenLines, kind, here]
      have answers := inductionHypothesis (by omega) (remaining ▸ following) given_rest
        finished_rest
      rw [whole, staysOpen]
      cases open_rest : staysOpen reaches rest with
      | some answer =>
        rw [open_rest] at answers
        exact answers.after
      | none =>
        have none_kept := stays_open_none open_rest
        rw [open_rest] at answers
        have nothing : writtenLines source preferred (cursor + 1) rest = [] := answers
        rw [nothing, List.append_nil]
        simp only [kind]
        exact ⟨_, rfl, context_line_open openEnd kind (given content List.mem_cons_self) here
          none_kept stands inside finished short⟩
    | remove =>
      have old : oldPart (content :: rest) = content :: oldPart rest := by simp [oldPart, kind]
      rw [old, List.length_cons] at stands
      rw [old, List.forall₂_cons_left_iff] at matched
      obtain ⟨line, later, expected, following, first⟩ := matched
      obtain ⟨here, remaining⟩ := between_eq_cons first
      have whole : writtenLines source preferred cursor (content :: rest) =
          writtenLines source preferred (cursor + 1) rest := by
        simp [writtenLines, kind]
      have answers := inductionHypothesis (by omega) (remaining ▸ following) given_rest
        finished_rest
      rw [whole, staysOpen]
      cases open_rest : staysOpen reaches rest with
      | some answer =>
        rw [open_rest] at answers
        exact answers
      | none =>
        rw [open_rest] at answers
        simp only [kind]
        exact answers
    | add =>
      have old : oldPart (content :: rest) = oldPart rest := by simp [oldPart, kind]
      rw [old] at stands matched
      have whole : writtenLines source preferred cursor (content :: rest) =
          [⟨content.text, if content.newNoNewline then .none else preferred⟩] ++
            writtenLines source preferred cursor rest := by
        simp [writtenLines, kind]
      have answers := inductionHypothesis stands matched given_rest finished_rest
      rw [whole, staysOpen]
      cases open_rest : staysOpen reaches rest with
      | some answer =>
        rw [open_rest] at answers
        exact answers.after
      | none =>
        have none_kept := stays_open_none open_rest
        rw [open_rest] at answers
        have nothing : writtenLines source preferred cursor rest = [] := answers
        rw [nothing, List.append_nil]
        simp only [kind]
        exact ⟨_, rfl, added_line_open ending kind none_kept fun reached => (finished reached).2⟩

/-- Lines between two positions, of which the last is not the last of the source, end in a
line that has its ending. -/
theorem between_answers {stop : Nat} (ended : EndedBefore source) (forward : cursor < stop)
    (inside : stop < source.length) : Answers (some false) (between source cursor stop) := by
  have length := between_length cursor (Nat.le_of_lt inside)
  have filled : between source cursor stop ≠ [] :=
    List.ne_nil_of_length_pos (by omega)
  have last := List.getLast?_eq_some_getLast filled
  refine ⟨_, last, ?_⟩
  apply iff_of_false Bool.false_ne_true
  rintro ⟨closed, -⟩
  exact between_ended ended inside _ (List.getLast_mem filled) closed

/-- What located hunks write ends as they say. -/
theorem hunks_answer {hunks : List ResolvedHunk} (ending : preferred ≠ .none)
    (openEnd : OpenEnd source) (chain : Chain source cursor position hunks)
    (reached : hunksEnd cursor hunks = source.length)
    (marked : ∀ hunk, hunks.getLast? = some hunk → opensAtEnd source = true →
      hunk.old.stop = source.length → LastMarked hunk.contents) :
    Answers (endsOpen source cursor hunks) (hunkLines source preferred cursor hunks) ∧
      (endsOpen source cursor hunks = none → hunks ≠ [] → cursor < source.length) := by
  induction hunks generalizing cursor position with
  | nil => exact ⟨rfl, fun _ present => absurd rfl present⟩
  | cons hunk rest inductionHypothesis =>
    obtain ⟨located, later⟩ := chain
    have ordered := located.ordered
    have stands := located.oldStop
    have inside := located.inside
    have marked_rest : ∀ other, rest.getLast? = some other → opensAtEnd source = true →
        other.old.stop = source.length → LastMarked other.contents := by
      intro other last
      apply marked other
      cases rest with
      | nil => cases last
      | cons second more => exact List.getLast?_cons_cons.trans last
    obtain ⟨answers, shorter⟩ := inductionHypothesis later reached marked_rest
    rw [hunkLines, endsOpen]
    cases open_rest : endsOpen source hunk.old.stop rest with
    | some answer =>
      rw [open_rest] at answers
      exact ⟨answers.after, fun impossible => by cases impossible⟩
    | none =>
      rw [open_rest] at answers
      have nothing : hunkLines source preferred hunk.old.stop rest = [] := answers
      rw [nothing, List.append_nil]
      have finished : (rest.isEmpty && !source.isEmpty) = true →
          hunk.old.stop = source.length ∧ LastMarked hunk.contents := by
        intro last
        rw [Bool.and_eq_true, List.isEmpty_iff, Bool.not_eq_true', List.isEmpty_eq_false_iff]
          at last
        obtain ⟨rfl, filled⟩ := last
        exact ⟨reached, marked hunk rfl (openEnd.opens filled) reached⟩
      have short : (rest.isEmpty && !source.isEmpty) = false →
          hunk.old.stop < source.length ∨ source = [] := by
        intro inner
        rw [Bool.and_eq_false_iff] at inner
        rcases inner with more | empty
        · exact Or.inl (shorter open_rest (List.isEmpty_eq_false_iff.mp more))
        · exact Or.inr (by simpa using empty)
      have written := written_answers ending openEnd stands inside located.matched located.ended
        finished short
      cases open_here : staysOpen (rest.isEmpty && !source.isEmpty) hunk.contents with
      | some answer =>
        rw [open_here] at written
        exact ⟨written.after, fun impossible => by cases impossible⟩
      | none =>
        rw [open_here] at written
        have no_lines : writtenLines source preferred hunk.old.index hunk.contents = [] := written
        rw [no_lines, List.append_nil]
        have counted := List.length_pos_of_ne_nil located.present
        rw [old_part_all (stays_open_none open_here)] at stands
        dsimp only
        split
        · rename_i forward
          exact ⟨between_answers openEnd.ended forward (by omega), fun impossible => by
            cases impossible⟩
        · rename_i stays
          refine ⟨?_, fun _ _ => by omega⟩
          exact (between_nil_iff ordered (by omega)).mpr (by omega)

theorem hunks_end_last {hunks : List ResolvedHunk} {last : ResolvedHunk}
    (found : hunks.getLast? = some last) : hunksEnd cursor hunks = last.old.stop := by
  induction hunks generalizing cursor with
  | nil => cases found
  | cons hunk rest inductionHypothesis =>
    rw [hunksEnd]
    cases rest with
    | nil =>
      cases found
      rfl
    | cons second more =>
      rw [List.getLast?_cons_cons] at found
      exact inductionHypothesis found

theorem written_free {contents : List PatchContent}
    (source_free : ∀ line ∈ source, '\n' ∉ line.text)
    (free : ∀ content ∈ contents, '\n' ∉ content.text) :
    ∀ line ∈ writtenLines source preferred cursor contents, '\n' ∉ line.text := by
  induction contents generalizing cursor with
  | nil => simp [writtenLines]
  | cons content rest inductionHypothesis =>
    have others (position : Nat) : ∀ line ∈ writtenLines source preferred position rest,
        '\n' ∉ line.text :=
      inductionHypothesis fun other member => free other (List.mem_cons_of_mem content member)
    intro line member
    rw [writtenLines] at member
    split at member
    · rcases List.mem_append.mp member with here | later
      · obtain ⟨found, at_cursor, rfl⟩ := Option.map_eq_some_iff.mp (Option.mem_toList.mp here)
        exact source_free found (List.mem_of_getElem? at_cursor)
      · exact others _ line later
    · exact others _ line member
    · rcases List.mem_cons.mp member with rfl | later
      · exact free content List.mem_cons_self
      · exact others _ line later

theorem hunks_free {hunks : List ResolvedHunk}
    (source_free : ∀ line ∈ source, '\n' ∉ line.text)
    (free : ∀ hunk ∈ hunks, ∀ content ∈ hunk.contents, '\n' ∉ content.text) :
    ∀ line ∈ hunkLines source preferred cursor hunks, '\n' ∉ line.text := by
  induction hunks generalizing cursor with
  | nil => simp [hunkLines]
  | cons hunk rest inductionHypothesis =>
    intro line member
    rw [hunkLines, List.mem_append, List.mem_append] at member
    rcases member with (copied | written) | later
    · exact source_free line (List.mem_of_mem_drop (List.mem_of_mem_take copied))
    · exact written_free source_free (free hunk List.mem_cons_self) line written
    · exact inductionHypothesis
        (fun other present => free other (List.mem_cons_of_mem hunk present)) line later

/-- A Codex patch that reaches the end of a source without a final newline makes a result
without one exactly where the last line that is kept of its hunks says so. -/
theorem missing_newline_kept_iff {path source patch result : Text} {hunks : List ResolvedHunk}
    {last : ResolvedHunk} (missing : source.getLast? ≠ some '\n')
    (resolved : parseAndResolveCodexPatch path patch (splitSourceLines source) = .ok hunks)
    (final : hunks.getLast? = some last)
    (reaches : last.old.stop = (splitSourceLines source).length)
    (applied : applySingleFilePatch parseAndResolveCodexPatch path source patch = .ok result)
    (filled : result ≠ []) :
    result.getLast? ≠ some '\n' ↔ endsOpen (splitSourceLines source) 0 hunks = some true := by
  obtain ⟨parsed, read, located⟩ := Results.bind_ok.mp resolved
  obtain ⟨⟨first, head, codex⟩, plain⟩ := parse_codex_patch read
  obtain ⟨free, last_parsed, found, some_lines⟩ := parse_codex_free read
  have chain : Chain (splitSourceLines source) 0 0 hunks := resolve_codex_hunks plain located
  have kept : ∀ hunk, parsed.getLast? = some hunk → hunk.contents ≠ [] := by
    intro hunk shown
    rw [found] at shown
    cases shown
    exact some_lines
  obtain ⟨hunks_are_free, -, marked⟩ := resolve_rounds plain free kept located
  have done : applyResolvedHunks (splitSourceLines source) hunks = .ok result := by
    rw [applySingleFilePatch, head] at applied
    simpa only [required, bind, Except.bind, if_pos codex, resolved] using applied
  obtain ⟨writes, -, -⟩ := apply_resolved_hunks done
  have reached : hunksEnd 0 hunks = (splitSourceLines source).length :=
    (hunks_end_last final).trans reaches
  have output : patchedLines (splitSourceLines source) hunks =
      hunkLines (splitSourceLines source) (preferredLineEnding (splitSourceLines source)) 0
        hunks := by
    rw [patchedLines, reached, List.drop_length, List.append_nil]
  have ended := writes.ended
  have value := writes.value
  rw [output] at ended value
  dsimp only at value
  subst value
  have source_free := source_loop_free [] source (by simp)
  have all_free : ∀ line ∈ hunkLines (splitSourceLines source)
      (preferredLineEnding (splitSourceLines source)) 0 hunks, '\n' ∉ line.text :=
    hunks_free source_free hunks_are_free
  rw [final_newline_iff ended
    (fun line shown _ => all_free line (List.mem_of_getLast? shown)) filled]
  have openEnd : OpenEnd (splitSourceLines source) :=
    ⟨source_lines_ended source, source_open missing⟩
  exact (hunks_answer (preferred_present (splitSourceLines source)) openEnd chain reached
    marked).1.open_iff

/-- The last line of a source without a final newline is removed behind a context line. -/
def shortenedPatch : Text :=
  "*** Begin Patch\n*** Update File: f\n@@\n a\n-b\n*** End Patch\n".toList

def shortenedHunk : ResolvedHunk where
  old := { index := 0, count := 2, stop := 2 }
  new := { index := 0, count := 1, stop := 1 }
  contents := [⟨.context, ['a'], false, true, none⟩, ⟨.remove, ['b'], true, false, none⟩]

/-- The context line is marked and gets its newline all the same. -/
theorem shortened_source_gets_newline :
    ¬∀ (path source patch result : Text) (hunks : List ResolvedHunk) (last : ResolvedHunk),
      source.getLast? ≠ some '\n' →
      parseAndResolveCodexPatch path patch (splitSourceLines source) = .ok hunks →
      hunks.getLast? = some last → last.old.stop = (splitSourceLines source).length →
      applySingleFilePatch parseAndResolveCodexPatch path source patch = .ok result →
      result ≠ [] → result.getLast? ≠ some '\n' := by
  intro kept
  have resolved : parseAndResolveCodexPatch ['f'] shortenedPatch
      (splitSourceLines ['a', '\n', 'b']) = .ok [shortenedHunk] := by
    decide +kernel
  have applied : applySingleFilePatch parseAndResolveCodexPatch ['f'] ['a', '\n', 'b']
      shortenedPatch = .ok ['a', '\n'] := by
    decide +kernel
  exact kept ['f'] ['a', '\n', 'b'] shortenedPatch ['a', '\n'] [shortenedHunk] shortenedHunk
    (by decide) resolved rfl (by decide) applied (by decide) rfl

/-- A line added behind the last line. -/
def extendedPatch : Text :=
  "*** Begin Patch\n*** Update File: f\n@@\n a\n+b\n*** End Patch\n".toList

def extendedHunk : ResolvedHunk where
  old := { index := 0, count := 1, stop := 1 }
  new := { index := 0, count := 2, stop := 2 }
  contents := [⟨.context, ['a'], true, false, some .lf⟩, ⟨.add, ['b'], false, true, none⟩]

/-- An added line takes over the missing newline. -/
theorem extended_source_keeps_no_newline :
    ['a', '\n', 'b'].getLast? ≠ some '\n' ↔
      endsOpen (splitSourceLines ['a']) 0 [extendedHunk] = some true := by
  have resolved : parseAndResolveCodexPatch ['f'] extendedPatch (splitSourceLines ['a']) =
      .ok [extendedHunk] := by
    decide +kernel
  have applied : applySingleFilePatch parseAndResolveCodexPatch ['f'] ['a'] extendedPatch =
      .ok ['a', '\n', 'b'] := by
    decide +kernel
  exact missing_newline_kept_iff (by decide) resolved rfl (by decide) applied (by decide)

end Endings

end MinicoreAgent.Patches

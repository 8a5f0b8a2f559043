import MinicoreAgent.DiffAssembly

/-!
# Reading a diff page by page

A client asks for the first page without a cursor, and for each later one with the cursor
of the page before. The pieces that it is shown are put together to the planned lines.
-/
namespace MinicoreAgent.Diffs

open EditOps (slice)
open MinicoreAgent.Text (byteLen encode)

section Statements

variable (head : List (String × Nat)) (plan : Plan) (before after : Bytes)
  (request : ChangesDiffRequest)

/-- A limit that a request may have. -/
def AllowedLimit (maxBytes : Option Nat) : Prop :=
  ∀ value ∈ maxBytes, minDiffMaxBytes ≤ value ∧ value ≤ maxDiffMaxBytes

/-- A cursor is taken back: the request is valid with it, it is not outdated, it names a place
of the plan, and from there on a page is built as soon as its limit is large enough. -/
structure Accepted (cursor : DiffCursor) : Prop where
  validated : ∀ maxBytes, AllowedLimit maxBytes →
    (request.asking (some cursor) maxBytes).validate = .ok ()
  current : cursor.opsFingerprint = plan.fingerprint
  valid : ValidCursor plan before after cursor.position
  answered : ∃ enough, ∀ maxBytes, enough ≤ maxBytes → ∃ page,
    buildPage request.subject plan before after request.context (.base head) cursor.position
      maxBytes = .ok page

/-- The place where a query begins. -/
def placeOf (cursor : Option DiffCursor) : Position :=
  (cursor.map (·.position)).getD startPosition

/-- The place where the last of some pages stops; before any page, the place where the first
one begins. -/
def reachedPlace (cursor : Option DiffCursor) (pages : List DiffResult) : Option Position :=
  match pages.getLast? with
  | none => some (placeOf cursor)
  | some page => page.nextCursor.map (·.position)

/-- The places named by the cursors of some pages. -/
def places (pages : List DiffResult) : List Position :=
  pages.filterMap fun page => page.nextCursor.map (·.position)

/-- What pages show that are read one after another: with what is left where they stop, they
show what was left where they began. -/
structure PagesShow (cursor : Option DiffCursor) (limits : List (Option Nat))
    (pages : List DiffResult) : Prop where
  shows : (pages.flatMap fun page => pieces page.hunks).foldr attach
      (left before after plan (reachedPlace cursor pages)) =
    left before after plan (some (placeOf cursor))
  fits : ∀ pair ∈ pages.zip limits, pair.1.encodedLen ≤ pair.2.getD defaultDiffMaxBytes
  accepted : ∀ page ∈ pages, ∀ next ∈ page.nextCursor,
    Accepted head plan before after request next
  shown : ∀ page ∈ pages, page.nextCursor.isSome → pieces page.hunks ≠ []
  progress : (placeOf cursor :: places pages).Pairwise fun earlier later => later.After earlier

end Statements

section Queries

variable {head : List (String × Nat)} {plan : Plan} {before after : Bytes}
  {request : ChangesDiffRequest} {cursor : Option DiffCursor}

theorem encoded_result_ok {result page : DiffResult} {maxBytes : Nat}
    (encoded : result.encodedResult maxBytes = .ok page) :
    page = result ∧ result.encodedLen ≤ maxBytes := by
  rw [DiffResult.encodedResult] at encoded
  split at encoded
  · cases encoded
  · rename_i fits
    cases encoded
    exact ⟨rfl, Nat.not_lt.mp fits⟩

theorem validate_iff (request : ChangesDiffRequest) :
    request.validate = .ok () ↔
      request.addressed = true ∧
        (request.contextLines.any fun value => maxContextLines < value) = false ∧
        (request.maxBytes.any fun value =>
          !(minDiffMaxBytes ≤ value && value ≤ maxDiffMaxBytes)) = false ∧
        (request.cursor.any fun cursor => cursor.subject ≠ request.subject ||
          cursor.contextLines ≠ request.context || !validSha256 cursor.opsFingerprint) = false := by
  rw [ChangesDiffRequest.validate]
  split
  · rename_i addressed
    simp [Bool.not_eq_true' _ ▸ addressed]
  · rename_i addressed
    split
    · rename_i wide
      simp only [reduceCtorEq, wide, Bool.true_eq_false, false_and, and_false]
    · rename_i narrow
      split
      · rename_i large
        simp only [reduceCtorEq, large, Bool.true_eq_false, false_and, and_false]
      · rename_i limited
        split
        · rename_i other
          simp only [reduceCtorEq, other, Bool.true_eq_false, and_false]
        · rename_i own
          rw [Bool.not_eq_true] at narrow limited own
          simp only [Bool.not_eq_true', Bool.not_eq_false] at addressed
          exact iff_of_true rfl ⟨addressed, narrow, limited, own⟩

/-- A request that is valid stays valid with a cursor of its own. -/
theorem validate_next {maxBytes other : Option Nat} {next : DiffCursor}
    (valid : (request.asking cursor maxBytes).validate = .ok ()) (allowed : AllowedLimit other)
    (subject : next.subject = request.subject) (context : next.contextLines = request.context)
    (fingerprint : validSha256 next.opsFingerprint = true) :
    (request.asking (some next) other).validate = .ok () := by
  obtain ⟨addressed, narrow, -, -⟩ := (validate_iff _).mp valid
  refine (validate_iff _).mpr ⟨addressed, narrow, ?_, ?_⟩
  · cases other with
    | none => rfl
    | some value =>
      obtain ⟨least, most⟩ := allowed value rfl
      simp [ChangesDiffRequest.asking, least, most]
  · simp only [ChangesDiffRequest.context, ChangesDiffRequest.asking] at context ⊢
    simp [subject, context, fingerprint]

/-- A query that is answered has built a page from its place on. -/
theorem changes_diff_ok {maxBytes : Option Nat} {page : DiffResult}
    (current : ∀ own ∈ cursor, own.opsFingerprint = plan.fingerprint)
    (answered : changesDiff head plan before after (request.asking cursor maxBytes) = .ok page) :
    (request.asking cursor maxBytes).validate = .ok () ∧
      ∃ hunks nextCursor complete,
        buildPage request.subject plan before after request.context (.base head) (placeOf cursor)
          (maxBytes.getD defaultDiffMaxBytes) = .ok (hunks, nextCursor, complete) ∧
        page = (DiffResult.base head).page plan hunks nextCursor complete ∧
        page.encodedLen ≤ maxBytes.getD defaultDiffMaxBytes := by
  rw [changesDiff] at answered
  split at answered
  · cases answered
  · rename_i valid
    refine ⟨valid, ?_⟩
    have fresh : ¬ ((request.asking cursor maxBytes).cursor.any fun own =>
        own.opsFingerprint ≠ plan.fingerprint) = true := by
      cases cursor with
      | none => simp [ChangesDiffRequest.asking]
      | some own => simp [ChangesDiffRequest.asking, current own rfl]
    rw [comparePlan] at answered
    simp only at answered
    rw [if_neg fresh] at answered
    split at answered
    · cases answered
    · rename_i hunks nextCursor complete built
      obtain ⟨rfl, fits⟩ := encoded_result_ok answered
      exact ⟨hunks, nextCursor, complete, built, rfl, fits⟩

end Queries

section Acceptance

variable {head : List (String × Nat)} {plan : Plan} {before after : Bytes} {subject : Subject}
  {contextLines : Nat} {place : Position}

/-- Some beginning of a text is tried unless the text is empty. -/
theorem tried_ne_nil {text : List Char} (present : text ≠ []) : tried text ≠ [] := by
  intro nothing
  have empty := halvings_nil (Nat.le_refl (byteLen text)) nothing
  have whole : byteLen (Text.floorPrefix (byteLen text) text) = byteLen text :=
    Text.floor_of_boundary Text.boundary_length
  have positive := byte_len_pos present
  rw [empty, Text.byte_len_nil] at whole
  omega

/-- From a place where a page stops, a page is built as soon as its limit is large enough. -/
theorem stops_answered
    (texts : ∀ hunk ∈ plan.hunks, ∀ line ∈ hunk.lines, ∃ text, LineReads before after line text)
    (stops : StopsAt before after plan.hunks place) :
    ∃ enough, ∀ maxBytes, enough ≤ maxBytes → ∃ page,
      buildPage subject plan before after contextLines (.base head) place maxBytes = .ok page := by
  obtain ⟨pending, next⟩ := stops_pending stops
  obtain ⟨⟨text, shown, present⟩, -⟩ := pending_from_start (stops_valid stops) texts next
  have last := List.getLast?_eq_some_getLast (tried_ne_nil present)
  let sized := sizedPage subject plan before after contextLines head pending text
    ((tried text).getLast (tried_ne_nil present))
  refine ⟨sized.encodedLen, ?_⟩
  intro maxBytes enough
  have fits : firstFit ((DiffResult.base head).template subject plan before after
      contextLines).encodedLen maxBytes pending.hunk pending.line pending.offset text
      ((tried text).getLast (tried_ne_nil present)) = true := (first_fit_sized _).mpr enough
  obtain ⟨-, answered⟩ := hunk_loop_pending
    ((DiffResult.base head).template subject plan before after contextLines).encodedLen maxBytes
    next (fun hunk member => texts hunk (List.mem_of_mem_drop member)) shown
  cases found : (tried text).find? (firstFit ((DiffResult.base head).template subject plan before
      after contextLines).encodedLen maxBytes pending.hunk pending.line pending.offset text) with
  | none =>
    have long := find_fit_none_iff.mp found _ last
    rw [fits] at long
    cases long
  | some part =>
    obtain ⟨page, stop, built, -⟩ := answered part found
    rw [build_page_eq (stops_valid stops).1, built]
    cases stop with
    | none => exact ⟨_, rfl⟩
    | some other => exact ⟨_, rfl⟩

theorem build_page_inside {start : Position} {maxBytes : Nat} {base : DiffResult}
    {page : List DiffHunk × Option DiffCursor × Bool}
    (built : buildPage subject plan before after contextLines base start maxBytes = .ok page) :
    outside plan start = false := by
  rw [buildPage] at built
  by_cases beyond : outside plan start = true
  · rw [if_pos beyond] at built
    cases built
  · exact Bool.eq_false_iff.mpr beyond

end Acceptance

section Runs

variable {head : List (String × Nat)} {plan : Plan} {before after : Bytes}
  {request : ChangesDiffRequest} {cursor : Option DiffCursor}

/-- A query from the beginning or from an accepted cursor shows what is left there, and the
cursor of its page is accepted again. -/
theorem query_shows {maxBytes : Option Nat} {page : DiffResult}
    (texts : ∀ hunk ∈ plan.hunks, ∀ line ∈ hunk.lines, ∃ text, LineReads before after line text)
    (fingerprint : validSha256 plan.fingerprint = true)
    (taken : ∀ own ∈ cursor, Accepted head plan before after request own)
    (answered : changesDiff head plan before after (request.asking cursor maxBytes) = .ok page) :
    (∃ complete stop, PageShows request.subject plan before after request.context head
      (placeOf cursor) (maxBytes.getD defaultDiffMaxBytes) page.hunks page.nextCursor complete
        stop) ∧
      page.encodedLen ≤ maxBytes.getD defaultDiffMaxBytes ∧
      ∀ next ∈ page.nextCursor, Accepted head plan before after request next := by
  obtain ⟨validated, hunks, nextCursor, complete, built, rfl, fits⟩ :=
    changes_diff_ok (fun own member => (taken own member).current) answered
  have valid : ValidCursor plan before after (placeOf cursor) := by
    cases cursor with
    | none => exact ⟨build_page_inside built, fun _ _ _ _ _ _ => Text.boundary_zero⟩
    | some own => exact (taken own rfl).valid
  obtain ⟨stop, shows⟩ := build_page_shows texts valid built
  refine ⟨⟨complete, stop, shows⟩, fits, ?_⟩
  intro next member
  have named : nextCursor = some next := member
  have cursors := shows.cursor.symm.trans named
  obtain ⟨place, stopped, rfl⟩ := Option.map_eq_some_iff.mp cursors
  have stops := (shows.stops place stopped).1
  constructor
  · intro other allowed
    exact validate_next validated allowed rfl rfl fingerprint
  · rfl
  · exact stops_valid stops
  · exact stops_answered texts stops

/-- A page stops where its cursor points. -/
theorem PageShows.stop_eq {subject : Subject} {contextLines maxBytes : Nat} {start : Position}
    {page : List DiffHunk} {nextCursor : Option DiffCursor} {complete : Bool}
    {stop : Option Position}
    (shows : PageShows subject plan before after contextLines head start maxBytes page nextCursor
      complete stop) : nextCursor.map (·.position) = stop := by
  rw [shows.cursor, Option.map_map]
  cases stop with
  | none => rfl
  | some place => rfl

theorem reached_cons {page : DiffResult} {next : DiffCursor}
    (continued : page.nextCursor = some next) (cursor : Option DiffCursor) (pages : List DiffResult) :
    reachedPlace cursor (page :: pages) = reachedPlace (some next) pages := by
  rw [reachedPlace, reachedPlace, List.getLast?_cons]
  cases pages.getLast? with
  | none => simp [continued, placeOf]
  | some last => rfl

theorem read_pages_show {limits : List (Option Nat)} {pages : List DiffResult}
    (texts : ∀ hunk ∈ plan.hunks, ∀ line ∈ hunk.lines, ∃ text, LineReads before after line text)
    (fingerprint : validSha256 plan.fingerprint = true)
    (taken : ∀ own ∈ cursor, Accepted head plan before after request own)
    (read : readPages head plan before after request cursor limits = .ok pages) :
    PagesShow head plan before after request cursor limits pages := by
  induction limits generalizing cursor pages with
  | nil =>
    rw [readPages] at read
    cases read
    constructor
    · rfl
    · intro pair member
      cases member
    · intro page member
      cases member
    · intro page member
      cases member
    · exact List.pairwise_singleton _ _
  | cons maxBytes limits inductionHypothesis =>
    rw [readPages] at read
    split at read
    · cases read
    · rename_i page answered
      obtain ⟨⟨complete, stop, shows⟩, fits, accepted⟩ :=
        query_shows texts fingerprint taken answered
      split at read
      · rename_i ended
        cases read
        have stopped := shows.stop_eq
        constructor
        · rw [reachedPlace, List.getLast?_singleton, List.flatMap_singleton]
          simp only [stopped]
          exact shows.shows
        · intro pair member
          rw [List.zip_cons_cons, List.zip_nil_left] at member
          rw [List.mem_singleton.mp member]
          exact fits
        · intro other member
          rw [List.mem_singleton.mp member]
          exact accepted
        · intro other member continued
          rw [List.mem_singleton.mp member, ended] at continued
          cases continued
        · have nowhere : places [page] = [] := by
            simp [places, ended]
          rw [nowhere]
          exact List.pairwise_singleton _ _
      · rename_i next continued
        split at read
        · cases read
        · rename_i rest later
          cases read
          have stopped := shows.stop_eq
          rw [continued, Option.map_some] at stopped
          obtain ⟨stops, behind, some_piece⟩ := shows.stops next.position stopped.symm
          have others := inductionHypothesis (fun own member => by
            cases member
            exact accepted next continued) later
          constructor
          · rw [List.flatMap_cons, List.foldr_append, reached_cons continued, others.shows,
              ← shows.shows, ← stopped]
            rfl
          · intro pair member
            rw [List.zip_cons_cons] at member
            rcases List.mem_cons.mp member with rfl | among
            · exact fits
            · exact others.fits pair among
          · intro other member
            rcases List.mem_cons.mp member with rfl | among
            · exact accepted
            · exact others.accepted other among
          · intro other member cursors
            rcases List.mem_cons.mp member with rfl | among
            · exact some_piece
            · exact others.shown other among cursors
          · have named : places (page :: rest) = next.position :: places rest := by
              simp [places, continued]
            have chain : (next.position :: places rest).Pairwise
                fun earlier later => later.After earlier := others.progress
            rw [named, List.pairwise_cons]
            refine ⟨?_, chain⟩
            intro place member
            rcases List.mem_cons.mp member with rfl | among
            · exact behind
            · exact after_of_pending ((List.pairwise_cons.mp chain).1 place among) (Or.inr behind)

end Runs

section Results

variable {before after : Bytes}

/-- The fingerprint of a plan is a digest. -/
theorem planned_fingerprint {Fingerprint : Type} {similar : Similar} {digest : Bytes → Fingerprint}
    {contextLines : Nat} {origin : DiffPlan Fingerprint}
    (made : planned similar digest before after contextLines = .ok (.plan origin)) :
    ∃ bytes, origin.fingerprint = digest bytes := by
  rw [planned] at made
  split at made
  · cases made
  · split at made
    · cases made
    · simp only at made
      split at made
      · cases made
        exact ⟨_, rfl⟩
      · split at made
        · cases made
          exact ⟨_, rfl⟩
        · split at made
          · cases made
          · cases made
            exact ⟨_, rfl⟩

theorem left_complete {plan : Plan} (place : Option Position) :
    ∀ piece ∈ left before after plan place, piece.2.lineComplete = true := by
  cases place with
  | none =>
    intro piece member
    cases member
  | some place => exact hunks_left_complete

theorem LineReads.whole {line : LinePlan} {text : List Char}
    (reads : LineReads before after line text) :
    line.whole before after = line.fragment 0 text text := by
  rw [LinePlan.whole, reads.bytes, decode_encode, Option.getD_some]

/-- From the beginning of a plan on, every planned line is left as a whole. -/
theorem left_start {plan : Plan} (texts : ∀ hunk ∈ plan.hunks, ∀ line ∈ hunk.lines,
      0 < line.byteLen ∧ ∃ text, LineReads before after line text) :
    left before after plan (some startPosition) = wholePieces plan before after := by
  have lines (listed : List LinePlan)
      (reads : ∀ line ∈ listed, 0 < line.byteLen ∧ ∃ text, LineReads before after line text) :
      linesLeft before after 0 listed = listed.map fun line => line.whole before after := by
    induction listed with
    | nil => rfl
    | cons line rest inductionHypothesis =>
      obtain ⟨filled, text, own⟩ := reads line List.mem_cons_self
      rw [lines_left_pending (Nat.ne_of_lt filled) (whole_text_reads own), List.map_cons, own.whole,
        inductionHypothesis fun other member => reads other (List.mem_cons_of_mem line member)]
  rw [left, wholePieces]
  simp only [startPosition, List.drop_zero]
  generalize plan.hunks = hunks at texts
  induction hunks with
  | nil => rfl
  | cons hunk rest inductionHypothesis =>
    rw [hunksLeft, List.drop_zero, lines hunk.lines (texts hunk List.mem_cons_self),
      List.flatMap_cons, List.map_map,
      inductionHypothesis fun other member => texts other (List.mem_cons_of_mem hunk member)]
    rfl

/-- For every planned diff and all limits for which pages succeed, the pieces that the pages
show are put together, with what is left where the pages stop, to every planned line exactly
once and in order. Every page fits its limit, every cursor is accepted again, and every page
with a cursor shows something and names a place behind the one where it began. -/
theorem diff_pages_reassemble {similar : Similar} {digest : Bytes → List Char}
    (hex : ∀ bytes, validSha256 (digest bytes) = true) (head : List (String × Nat))
    (request : ChangesDiffRequest) {origin : Plan}
    (made : planDiff similar digest true before after request.context = .ok (.plan origin))
    (versions : Option (List Char → Bytes)) {limits : List (Option Nat)} {pages : List DiffResult}
    (read : readPages head (origin.compared digest versions) before after request none limits =
      .ok pages) :
    let plan := origin.compared digest versions
    let shown := pages.flatMap fun page => pieces page.hunks
    reassemble (shown ++ left before after plan (reachedPlace none pages)) =
        wholePieces plan before after ∧
      (reachedPlace none pages = none → reassemble shown = wholePieces plan before after) ∧
      (∀ hunk ∈ plan.hunks, ∀ line ∈ hunk.lines, encode (line.whole before after).text =
        slice (line.source.bytes before after) line.byteStart line.byteLen) ∧
      PagesShow head plan before after request none limits pages := by
  intro plan shown
  have same : plan.hunks = origin.hunks := by
    cases versions with
    | none => rfl
    | some encode => rfl
  have texts : ∀ hunk ∈ plan.hunks, ∀ line ∈ hunk.lines,
      0 < line.byteLen ∧ ∃ text, LineReads before after line text := by
    rw [same]
    exact planned_texts made
  have fingerprint : validSha256 plan.fingerprint = true := by
    obtain ⟨bytes, hashed⟩ := planned_fingerprint made
    cases versions with
    | none => exact hashed ▸ hex bytes
    | some encode => exact hex _
  have pagesShow : PagesShow head plan before after request none limits pages := read_pages_show
    (fun hunk member line listed => (texts hunk member line listed).2) fingerprint
    (fun own member => by cases member) read
  have whole : reassemble (shown ++ left before after plan (reachedPlace none pages)) =
      wholePieces plan before after := by
    have rest : reassemble (left before after plan (reachedPlace none pages)) =
        left before after plan (reachedPlace none pages) :=
      reassemble_complete (left_complete (reachedPlace none pages))
    rw [reassemble] at rest ⊢
    rw [List.foldr_append, rest, ← left_start texts]
    exact pagesShow.shows
  refine ⟨whole, ?_, ?_, pagesShow⟩
  · intro ended
    rw [ended, left, List.append_nil] at whole
    exact whole
  · intro hunk member line listed
    obtain ⟨-, text, reads⟩ := texts hunk member line listed
    rw [reads.whole, reads.bytes]
    rfl

/-- The digest of the plan of the sample texts. -/
def sampleDigest : List Char :=
  "84417754ec72180c0740c221357cdcb33936ac74a3b81ae1c81a48942c887a56".toList

def sampleOrigin : Plan := { samplePlan with fingerprint := sampleDigest }

def sampleRequest : ChangesDiffRequest :=
  { subject := sampleSubject, addressed := true, contextLines := none, cursor := none
    maxBytes := none }

/-- Two pages show the two lines of a plan: the first one is too small for both. -/
theorem sample_diff_pages : ∃ pages,
    readPages sampleHead sampleOrigin sampleBefore sampleAfter sampleRequest none
      [some 2048, some 4096] = .ok pages ∧
    pages.length = 2 ∧
    reassemble (pages.flatMap fun page => pieces page.hunks) =
      wholePieces sampleOrigin sampleBefore sampleAfter := by
  have made : planDiff wholeReplace (fun _ => sampleDigest) true sampleBefore sampleAfter 3 =
      .ok (.plan sampleOrigin) := by decide +kernel
  have evaluated : (readPages sampleHead sampleOrigin sampleBefore sampleAfter sampleRequest none
      [some 2048, some 4096]).toOption.map (fun pages => (pages.length, reachedPlace none pages)) =
        some (2, none) := by decide +kernel
  cases read : readPages sampleHead sampleOrigin sampleBefore sampleAfter sampleRequest none
      [some 2048, some 4096] with
  | error error =>
    rw [read] at evaluated
    cases evaluated
  | ok pages =>
    rw [read] at evaluated
    obtain ⟨two, ended⟩ := Prod.mk.inj (Option.some.inj evaluated)
    have shown := diff_pages_reassemble (fun _ => by decide) sampleHead sampleRequest made none read
    exact ⟨pages, rfl, two, shown.2.1 ended⟩

end Results

end MinicoreAgent.Diffs

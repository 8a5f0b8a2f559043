import MinicoreAgent.FileSearch

/-!
# Pages that can be continued

A listing or a search that stops for its page has a key behind the one it began at. The page
keeps room for the path of the last record that it took, so a key that is this path always
fits; another key is advertised only where it fits in what is left.
-/
namespace MinicoreAgent.WorkspaceScan

open Text JsonSize UnixPaths
open WorkspaceRead (maxPathBytes)

section Records

variable {page after : SearchPage} {path line : List Char} {lineNumber : Nat}
  {ranges : List (Nat × Nat)} {pending : PendingLine} {contentBudget : Nat}

/-- The page has room for the record and for a cursor that names its path. -/
structure PendingLine.Fits (page : SearchPage) (path : List Char) (pending : PendingLine) :
    Prop where
  named : pending.record.path = path
  room : page.used + pending.encoded + 1 + stringLen path ≤ page.contentBudget

theorem candidate_fits {start stop : Nat}
    (built : buildCandidate page path lineNumber line ranges start stop = some pending) :
    pending.Fits page path := by
  rw [buildCandidate] at built
  split at built
  · cases built
  · split at built
    · cases built
    · dsimp only at built
      split at built
      · cases built
      · rename_i room
        cases built
        exact ⟨rfl, Nat.le_of_not_lt room⟩

theorem record_fits (built : buildRecord page path lineNumber line ranges = some pending) :
    pending.Fits page path := by
  rw [buildRecord] at built
  split at built
  · split at built
    · rename_i whole
      cases built
      exact candidate_fits whole
    · dsimp only at built
      split at built
      · cases built
      · exact candidate_fits built
  · cases built

theorem probe_fits {left accepted upper : Nat} (fits : pending.Fits page path) :
    (probe page path lineNumber line ranges left accepted upper pending).2.Fits page path := by
  induction left generalizing accepted upper pending with
  | zero => exact fits
  | succ left inductionHypothesis =>
    rw [probe]
    split
    · dsimp only
      split
      · rename_i built
        exact inductionHypothesis (record_fits built)
      · exact inductionHypothesis fits
    · exact fits

/-- A page that found something still has room for the path of its last match. -/
structure SearchPage.Reserves (contentBudget : Nat) (page : SearchPage) : Prop where
  own : page.contentBudget = contentBudget
  within : page.used ≤ contentBudget
  last : ∀ record ∈ page.found.getLast?, page.used + stringLen record.path ≤ contentBudget

theorem commit_reserves (reserves : page.Reserves contentBudget) (fits : pending.Fits page path) :
    (page.commit pending).Reserves contentBudget := by
  have room := fits.room
  rw [reserves.own] at room
  constructor
  · exact reserves.own
  · rw [SearchPage.commit]
    dsimp only
    omega
  · intro record member
    rw [SearchPage.commit, List.getLast?_concat, Option.mem_some_iff] at member
    rw [← member, fits.named, SearchPage.commit]
    dsimp only
    omega

theorem commit_ranges_reserves {overflow : Option Nat} (reserves : page.Reserves contentBudget) :
    (commitRanges path lineNumber line overflow ranges page).2.Reserves contentBudget := by
  induction ranges generalizing page with
  | nil => exact reserves
  | cons first rest inductionHypothesis =>
    rw [commitRanges]
    split
    · split
      · exact inductionHypothesis ⟨reserves.own, reserves.within, reserves.last⟩
      · exact reserves
    · rename_i built
      exact commit_reserves reserves (probe_fits (record_fits built))

end Records

section Visits

variable {walk : Walk} {found : Matcher} {resume : Option (Nat × Nat)} {page after : SearchPage}
  {path line : List Char} {lineNumber : Nat} {budget later : ScanBudget} {contentBudget : Nat}
  {entry : WalkEntry}

theorem visit_line_reserves {start : Nat} {stop : Option (Nat × Nat)}
    (reserves : page.Reserves contentBudget)
    (visited : visitLine walk found path lineNumber line start page budget =
      .ok (stop, after, later)) : after.Reserves contentBudget := by
  rw [visitLine] at visited
  obtain ⟨⟨ranges, overflow, middle⟩, collected, visited⟩ := Results.bind_ok.mp visited
  cases visited
  exact commit_ranges_reserves reserves

theorem visit_from_reserves {stop : Option (Nat × Nat)} (reserves : page.Reserves contentBudget)
    (visited : visitFrom walk found path resume lineNumber line page budget =
      .ok (stop, after, later)) : after.Reserves contentBudget := by
  rw [visitFrom] at visited
  dsimp only at visited
  split at visited
  · cases visited
    exact reserves
  · exact visit_line_reserves reserves visited

theorem scan_lines_reserves {lines : List (List Char)} {stop : Option (Nat × Nat)}
    (reserves : page.Reserves contentBudget)
    (scanned : scanLines walk found path resume lines lineNumber page budget =
      .ok (stop, after, later)) : after.Reserves contentBudget := by
  induction lines generalizing lineNumber page budget with
  | nil =>
    cases scanned
    exact reserves
  | cons line rest inductionHypothesis =>
    rw [scanLines] at scanned
    obtain ⟨checked, -, scanned⟩ := Results.bind_ok.mp scanned
    split at scanned
    · cases scanned
      exact reserves
    · obtain ⟨⟨stopped, middle, used⟩, visited, scanned⟩ := Results.bind_ok.mp scanned
      have kept := visit_from_reserves reserves visited
      dsimp only at scanned
      split at scanned
      · cases scanned
        exact kept
      · exact inductionHypothesis kept scanned

theorem scan_file_reserves {scan : FileScan} (reserves : page.Reserves contentBudget)
    (scanned : scanFile walk found entry resume page budget = .ok (scan, after, later)) :
    after.Reserves contentBudget := by
  have counted {page : SearchPage} (skipped dropped : Nat) (fileDropped : Bool)
      (reserves : page.Reserves contentBudget) : SearchPage.Reserves contentBudget { page with
        skippedFiles := skipped
        dropped := dropped
        fileDropped := fileDropped } := ⟨reserves.own, reserves.within, reserves.last⟩
  rw [scanFile] at scanned
  obtain ⟨⟨read, used⟩, -, scanned⟩ := Results.bind_ok.mp scanned
  cases read with
  | unsupported =>
    cases scanned
    exact counted _ _ _ reserves
  | failed =>
    cases scanned
    exact counted _ _ _ reserves
  | stopBytes =>
    cases scanned
    exact reserves
  | text text =>
    obtain ⟨⟨stop, middle, used⟩, lines, scanned⟩ := Results.bind_ok.mp scanned
    have kept := scan_lines_reserves (counted _ _ false reserves) lines
    have settled : SearchPage.Reserves contentBudget (if middle.fileDropped then
        { middle with skippedFiles := middle.skippedFiles + 1 } else middle) := by
      split
      · exact counted _ _ _ kept
      · exact kept
    cases stop with
    | none =>
      cases scanned
      exact settled
    | some place =>
      cases scanned
      exact settled

/-- A visit of a search leaves the page as it is, or scans the file. -/
theorem visit_search_cases {verdict : Visit}
    (visited : visitSearch walk found resume page entry budget = .ok (verdict, after, later)) :
    (after = page ∧ (verdict = .next ∨ verdict = .stopBefore .page)) ∨
      (∃ place scan, scanFile walk found entry place page budget = .ok (scan, after, later)) ∧
        (verdict = .next ∨ verdict = .stopBefore .bytes ∨
          ∃ line offset, verdict = .stopInside .page line offset) := by
  rw [visitSearch] at visited
  split at visited
  · cases visited
    exact .inl ⟨rfl, .inl rfl⟩
  · split at visited
    · cases visited
      exact .inl ⟨rfl, .inr rfl⟩
    · obtain ⟨⟨scan, middle, used⟩, scanned, visited⟩ := Results.bind_ok.mp visited
      cases scan with
      | done =>
        cases visited
        exact .inr ⟨⟨_, _, scanned⟩, .inl rfl⟩
      | stopInside line offset =>
        cases visited
        exact .inr ⟨⟨_, _, scanned⟩, .inr (.inr ⟨line, offset, rfl⟩)⟩
      | stopBytes =>
        cases visited
        exact .inr ⟨⟨_, _, scanned⟩, .inr (.inl rfl)⟩

theorem visit_search_reserves {verdict : Visit} (reserves : page.Reserves contentBudget)
    (visited : visitSearch walk found resume page entry budget = .ok (verdict, after, later)) :
    after.Reserves contentBudget := by
  rcases visit_search_cases visited with ⟨rfl, -⟩ | ⟨⟨place, scan, scanned⟩, -⟩
  · exact reserves
  · exact scan_file_reserves reserves scanned

theorem visit_search_plain :
    Plain (visitSearch walk found resume) fun page => page.found ≠ [] where
  before page entry budget after later visited some := by
    rcases visit_search_cases visited with ⟨rfl, -⟩ | ⟨-, verdict | verdict | ⟨_, _, verdict⟩⟩
    · exact some
    · cases verdict
    · cases verdict
    · cases verdict
  stops page entry budget verdict after later visited := by
    rcases visit_search_cases visited with ⟨-, rfl | rfl⟩ | ⟨-, rfl | rfl | ⟨line, offset, rfl⟩⟩
    all_goals simp

end Visits

section Roots

variable {files : FileSystem} {limits : ScanLimits} {plan : SearchPlan} {found : Matcher}
  {pathIndex contentBudget : Nat} {root : List Char} {page after : SearchPage}
  {budget later : ScanBudget} {outcome : WalkOutcome}

theorem search_root_reserves (reserves : page.Reserves contentBudget)
    (searched : searchRoot files limits plan found pathIndex root page budget =
      .ok (outcome, after, later)) : after.Reserves contentBudget := by
  obtain ⟨walker, kept, ended⟩ := walk_scope_keeps
    (visitor_kept fun _ _ _ _ _ _ reserves visited => visit_search_reserves reserves visited)
    (fun _ => reserves) searched
  have collected : after = walker.visitor := congrArg (fun ended => ended.2.1) ended
  rw [collected]
  exact kept

/-- A root that is searched with an empty page names a key once it has found something. -/
theorem search_root_names (nothing : page.found = [])
    (searched : searchRoot files limits plan found pathIndex root page budget =
      .ok (outcome, after, later)) (stopped : outcome.reason = .page) (some : after.found ≠ []) :
    ∃ key, Behind (plan.walk files limits pathIndex) key ∧
      outcome.next = named (plan.walk files limits pathIndex) outcome.resume key := by
  obtain ⟨walker, names, ended⟩ := walk_scope_keeps (names_kept visit_search_plain) (by
    intro budget
    refine ⟨fun _ found => absurd nothing found, fun page => ?_⟩
    cases page) searched
  have finished : outcome = (walker.finish (plan.walk files limits pathIndex)).1 :=
    congrArg Prod.fst ended
  have collected : after = walker.visitor := congrArg (fun ended => ended.2.1) ended
  rw [finished] at stopped ⊢
  rw [collected] at some
  exact finish_names names stopped some

/-- The key lies behind the place that the search began at. -/
def SearchPlan.Continues (plan : SearchPlan) (files : FileSystem) (limits : ScanLimits)
    (key : SearchKey) : Prop :=
  plan.startPath < key.pathIndex ∨
    key.pathIndex = plan.startPath ∧ Behind (plan.walk files limits plan.startPath) key.path

/-- A root after the first has a key wherever its walk stops for the page. -/
theorem later_next_path (later : plan.startPath < pathIndex) (stopped : outcome.reason = .page) :
    plan.nextPath pathIndex outcome ≠ none := by
  rw [SearchPlan.nextPath, if_pos ⟨later, .inl stopped⟩]
  cases outcome.next with
  | none => exact fun absent => Option.some_ne_none _ absent
  | some path => exact fun absent => Option.some_ne_none _ absent

theorem start_next_path : plan.nextPath plan.startPath outcome = outcome.next := by
  rw [SearchPlan.nextPath, if_neg (fun later => Nat.lt_irrefl _ later.1), Option.or_none]

/-- What the loop over the roots says at its end: the page has room for the path of its last
match, and if the loop stopped for the page, it has a key of a root after the first. -/
theorem later_roots_stop {roots : List (List Char)} {totals ended : SearchTotals}
    (further : plan.startPath < pathIndex) (going : totals.reason ≠ .page)
    (reserves : page.Reserves contentBudget)
    (searched : searchRoots files limits plan found pathIndex roots totals page budget =
      .ok (ended, after)) :
    after.Reserves contentBudget ∧
      (ended.reason = .page → ∃ key, ended.key = some key ∧ plan.startPath < key.pathIndex) := by
  induction roots generalizing pathIndex totals page budget with
  | nil =>
    cases searched
    exact ⟨reserves, fun stopped => absurd stopped going⟩
  | cons root rest inductionHypothesis =>
    rw [searchRoots] at searched
    obtain ⟨⟨outcome, middle, used⟩, walked, searched⟩ := Results.bind_ok.mp searched
    have kept := search_root_reserves reserves walked
    dsimp only at searched
    split at searched
    · cases searched
      exact ⟨kept, fun _ => ⟨_, rfl, further⟩⟩
    · rename_i absent
      have next := Nat.lt_succ_of_lt further
      split at searched
      · refine inductionHypothesis next ?_ kept searched
        exact going
      · rename_i rules
        exact inductionHypothesis next (by simp [rules]) kept searched
      · rename_i depth
        exact inductionHypothesis next (by simp [depth]) kept searched
      · cases searched
        exact ⟨kept, fun stopped => absurd absent (later_next_path further stopped)⟩

/-- The same from the first root on: there the page names a key behind its cursor, unless it
resumes inside a file. -/
theorem search_roots_stop {roots : List (List Char)} {totals ended : SearchTotals}
    (nothing : page.found = []) (going : totals.reason ≠ .page)
    (reserves : page.Reserves contentBudget)
    (searched : searchRoots files limits plan found plan.startPath roots totals page budget =
      .ok (ended, after)) :
    after.Reserves contentBudget ∧
      (ended.reason = .page → after.found ≠ [] → plan.resume = none →
        ∃ key, ended.key = some key ∧ plan.Continues files limits key) := by
  cases roots with
  | nil =>
    cases searched
    exact ⟨reserves, fun stopped => absurd stopped going⟩
  | cons root rest =>
    rw [searchRoots] at searched
    obtain ⟨⟨outcome, middle, used⟩, walked, searched⟩ := Results.bind_ok.mp searched
    have kept := search_root_reserves reserves walked
    have whole (fresh : plan.resume = none) :
        (plan.walk files limits plan.startPath).options.resumeFile = false := by
      rw [SearchPlan.walk]
      dsimp only
      rw [SearchPlan.rootResume, if_pos rfl, fresh]
      rfl
    have names := search_root_names nothing walked
    have later {totals : SearchTotals} {budget : ScanBudget} (going : totals.reason ≠ .page)
        (searched : searchRoots files limits plan found (plan.startPath + 1) rest totals middle
          budget = .ok (ended, after)) :
        after.Reserves contentBudget ∧
          (ended.reason = .page → after.found ≠ [] → plan.resume = none →
            ∃ key, ended.key = some key ∧ plan.Continues files limits key) := by
      obtain ⟨reserves, stops⟩ :=
        later_roots_stop (Nat.lt_succ_self plan.startPath) going kept searched
      refine ⟨reserves, fun stopped _ _ => ?_⟩
      obtain ⟨key, present, further⟩ := stops stopped
      exact ⟨key, present, .inl further⟩
    dsimp only at searched
    rw [start_next_path] at searched
    split at searched
    · rename_i path next
      cases searched
      refine ⟨kept, fun stopped some fresh => ⟨_, rfl, .inr ⟨rfl, ?_⟩⟩⟩
      obtain ⟨key, behind, same⟩ := names stopped some
      rw [next, named_key behind fun _ => whole fresh] at same
      rw [Option.some.inj same]
      exact behind
    · rename_i absent
      split at searched
      · refine later ?_ searched
        exact going
      · rename_i rules
        exact later (by simp [rules]) searched
      · rename_i depth
        exact later (by simp [depth]) searched
      · cases searched
        refine ⟨kept, fun stopped some fresh => ?_⟩
        obtain ⟨key, behind, same⟩ := names stopped some
        rw [absent, named_key behind fun _ => whole fresh] at same
        cases same

end Roots

section Pages

variable (expression : List Char → Option (List Char → List (Nat × Nat))) (files : FileSystem)
  (limits : ScanLimits)

/-- What `ListingContinues` says, of a page of a search: its key has a root and perhaps a place
in a file. -/
def SearchContinues (plan : SearchPlan) (result : WorkspaceSearchResult) : Prop :=
  ∃ envelope totals page key,
    searchEnvelope plan.maxBytes = .ok envelope ∧
    searchPage files limits expression plan = .ok (totals, page) ∧
    result.found = page.found ∧ totals.key = some key ∧ plan.Continues files limits key ∧
    result.nextCursor = (if KeyFits (plan.maxBytes - envelope) page.used key.path then
      some (plan.cursor key) else none) ∧
    (byteLen key.path ≤ maxPathBytes →
      page.found.getLast?.map WorkspaceSearchMatch.path = some key.path →
        KeyFits (plan.maxBytes - envelope) page.used key.path)

end Pages

section Claims

variable {sha256 : List UInt8 → Vector UInt8 32}
  {expression : List Char → Option (List Char → List (Nat × Nat))} {files : FileSystem}
  {limits : ScanLimits}

theorem scan_search_continues {plan : SearchPlan} {result : WorkspaceSearchResult} {now : Nat}
    (scanned : scanSearch files limits expression plan now = .ok result)
    (some : result.found ≠ []) (stopped : result.stoppedBy = .page)
    (fresh : plan.resume = none) : SearchContinues expression files limits plan result := by
  rw [scanSearch] at scanned
  obtain ⟨⟨totals, page⟩, searched, scanned⟩ := Results.bind_ok.mp scanned
  cases scanned
  have whole := searched
  rw [searchPage] at searched
  obtain ⟨budget, -, searched⟩ := Results.bind_ok.mp searched
  obtain ⟨envelope, sized, searched⟩ := Results.bind_ok.mp searched
  obtain ⟨found, -, searched⟩ := Results.bind_ok.mp searched
  have empty : (plan.emptyPage envelope).Reserves (plan.maxBytes - envelope) :=
    ⟨rfl, Nat.zero_le _, fun _ member => absurd member (by simp [SearchPlan.emptyPage])⟩
  obtain ⟨reserves, names⟩ := search_roots_stop rfl (by simp) empty searched
  obtain ⟨key, present, continues⟩ := names stopped some fresh
  refine ⟨envelope, totals, page, key, sized, whole, rfl, present, continues, ?_, ?_⟩
  · rw [finishSearch]
    dsimp only
    rw [present, reserves.own]
    exact filter_key (fun key => KeyFits (plan.maxBytes - envelope) page.used key.path) _ key
  · intro short last
    obtain ⟨record, ends, same⟩ := Option.map_eq_some_iff.mp last
    rw [← same] at short ⊢
    exact key_fits_of_room short (reserves.last record ends)

end Claims

section Samples

/-- A folder of files with the given names. -/
def sampleFolder (names : List (List Char)) : List (Option DirEntry) :=
  names.map fun name =>
    if is : IsName (encode name) then some ⟨⟨encode name, is⟩, some .file, none⟩ else none

/-- A workspace of one folder, whose files hold the same text. -/
def sampleFiles (names : List (List Char)) (text : List Char) : FileSystem where
  clock _ := ⟨false, false⟩
  canonical _ := some []
  resolve _ := .ok ⟨[], true, false, fun outside => by cases outside⟩
  readDir _ := some (sampleFolder names)
  rootEntry _ := none
  loadRules _ := ⟨0, false⟩
  excludes _ _ := false
  openFile _ := .ok (byteLen text, [some (encode text)])

def sampleSession : List Char := "0190163d-8694-739b-aea5-966c26f8ad91".toList

def sampleListing (limit : Option Nat) : WorkspaceFilesRequest where
  sessionId := sampleSession
  directory := none
  recursive := none
  query := some ['q']
  cursor := none
  limit := limit
  maxBytes := some 1024

def sampleSearch : WorkspaceSearchRequest where
  sessionId := sampleSession
  query := ['q']
  paths := none
  caseSensitive := none
  cursor := none
  maxMatches := some 1
  maxBytes := some 1024

/-- The digests of the scopes of the two requests. -/
def sampleSha256 (message : List UInt8) : Vector UInt8 32 :=
  if (encode "workspace.files".toList).isPrefixOf (message.drop 8) then
    ⟨#[0x0e, 0xa2, 0x13, 0x5f, 0x75, 0x2c, 0xc4, 0xbf, 0x38, 0x3b, 0xf0, 0xe4, 0x9e, 0xcb,
      0xce, 0x71, 0x86, 0x6f, 0x1b, 0x93, 0x15, 0xe0, 0xaf, 0xb8, 0x2b, 0xde, 0x8f, 0xd2, 0xd7, 0xab,
      0x9f, 0xc3], rfl⟩
  else
    ⟨#[0xa7, 0x86, 0xcb, 0x36, 0x49, 0x14, 0x7e, 0xc7, 0x2b, 0x3f, 0xf2, 0x4a, 0x5d, 0xe0,
      0x66, 0x11, 0x98, 0x57, 0x6b, 0x10, 0x8a, 0x91, 0x1d, 0x87, 0xf8, 0xc4, 0x8b, 0xf8, 0xd0, 0xd6,
      0x91, 0xab], rfl⟩

/-- A case-folding expression of a query, for texts without letters beyond ASCII. -/
def sampleExpression (query : List Char) : Option (List Char → List (Nat × Nat)) :=
  some fun line =>
    (Matches.matchIndices (query.map Char.toLower) (line.map Char.toLower)).map fun index =>
      (byteLen (line.take index), byteLen (line.take (index + query.length)))

/-- The claim fails where the key is not the path of the last entry: the page has room for no
cursor that names the second of these files, which the query passes over, nor for the third. -/
def sampleNames : List (List Char) :=
  ['a' :: 'q' :: List.replicate 54 '\x01', 'b' :: List.replicate 70 '\x01',
    'c' :: 'q' :: List.replicate 40 '\x01']

def sampleListed : WorkspaceFilesResult where
  directory := []
  entries := [⟨"aq".toList, .file, none⟩]
  nextCursor := some ⟨"aq".toList, "0ea2135f752cc4bf".toList⟩
  truncated := true
  scanComplete := false
  stoppedBy := .page
  skippedCount := 0
  observedAtUnixMs := 0

def sampleFound : WorkspaceSearchResult where
  found := [⟨"a".toList, 1, 0, [(0, 1)], "Q".toList, false⟩]
  nextCursor := some ⟨0, "a".toList, 0, 0, "a786cb3649147ec7".toList⟩
  truncated := true
  scanComplete := false
  stoppedBy := .page
  skippedFiles := 0
  observedAtUnixMs := 0

end Samples

end MinicoreAgent.WorkspaceScan

import Mathlib.Data.List.Induction
import MinicoreAgent.ScanWalk

/-!
# The key that a walk stops with

What every step of a walk keeps holds at its end. So does this: once the visitor has found
something, the path that was processed last is one behind the cursor, and a walk that stops for
its page names it.
-/
namespace MinicoreAgent.WorkspaceScan

open Text UnixPaths

variable {Visitor : Type}

section Keeping

variable {walk : Walk}
  {visit : Visitor → WalkEntry → ScanBudget → Except AgentError (Visit × Visitor × ScanBudget)}
  {Holds : Walker Visitor → Prop} {walker after : Walker Visitor}

/-- The path names an entry that does not lie before the cursor, and is the cursor's own only
where the page resumes inside that file. -/
structure Behind (walk : Walk) (path : List Char) : Prop where
  filled : path ≠ []
  after : ∀ start ∈ walk.startPath, pathLt (components (encode path)) start = false
  other : walk.startPath = some (components (encode path)) → walk.options.resumeFile = true

/-- The text shows the names of a path. -/
structure Shows (display : List Char) (relative : List FileName) : Prop where
  nothing : display = [] ↔ relative = []
  path : components (encode display) = pathOf relative

theorem shows_root : Shows [] [] where
  nothing := iff_of_true rfl rfl
  path := rfl

theorem shows_child {display part : List Char} {relative : List FileName} {name : FileName}
    (shows : Shows display relative) (read : decode name.bytes = some part) :
    Shows (childDisplay display part) (relative ++ [name]) := by
  have coded := encode_of_decode read
  have filled : part ≠ [] := by
    rintro rfl
    exact name.is.filled coded
  rw [childDisplay]
  by_cases root : display = []
  · have top := shows.nothing.mp root
    rw [if_pos (List.isEmpty_iff.mpr root), top]
    constructor
    · simp [filled]
    · rw [← coded, components_name name.is]
      rfl
  · have below : relative ≠ [] := fun top => root (shows.nothing.mpr top)
    have some : encode display ≠ [] := by
      intro nothing
      have size := encode_length display
      rw [nothing] at size
      cases display with
      | nil => exact root rfl
      | cons char rest =>
        have positive := char.utf8Size_pos
        rw [List.length_nil, byte_len_cons] at size
        omega
    have bytes : encode (display ++ '/' :: part) = encode display ++ slash :: name.bytes := by
      rw [encode_append, encode_cons, ← coded]
      rfl
    rw [if_neg (fun nothing => root (List.isEmpty_iff.mp nothing))]
    constructor
    · simp [below]
    · rw [bytes, components_child some name.is, shows.path, pathOf, pathOf, List.map_append]
      rfl

theorem display_path_shows {relative : List FileName} {display : List Char}
    (shown : displayPath relative = some display) : Shows display relative := by
  induction relative using List.reverseRecOn generalizing display with
  | nil =>
    cases shown
    exact shows_root
  | append_singleton front name inductionHypothesis =>
    rw [displayPath, List.foldlM_append, Option.bind_eq_bind, Option.bind_eq_some_iff] at shown
    obtain ⟨before, prior, last⟩ := shown
    rw [List.foldlM_cons, Option.bind_eq_bind, Option.bind_eq_some_iff] at last
    obtain ⟨after, written, same⟩ := last
    cases same
    obtain ⟨part, read, rfl⟩ := Option.map_eq_some_iff.mp written
    exact shows_child (inductionHypothesis prior) read

/-- An entry that is not passed on the way lies behind the cursor. -/
theorem behind_entry {display : List Char} {relative : List FileName}
    (shows : Shows display relative) (below : relative ≠ [])
    (visited : positioned walk relative = false) : Behind walk display := by
  have free (start : List Component) (begins : start ∈ walk.startPath) :
      pathLt (pathOf relative) start = false ∧
        (decide (pathOf relative = start) && !walk.options.resumeFile) = false := by
    rw [positioned, Option.mem_def.mp begins, Option.any_some] at visited
    exact Bool.or_eq_false_iff.mp visited
  constructor
  · exact fun nothing => below (shows.nothing.mp nothing)
  · intro start begins
    rw [shows.path]
    exact (free start begins).1
  · intro same
    rw [shows.path] at same
    have whole := (free _ same).2
    rw [decide_eq_true rfl, Bool.true_and, Bool.not_eq_false'] at whole
    exact whole

/-- What survives every step of a walk, whatever its visitor and its tree are. -/
structure Kept (walk : Walk)
    (visit : Visitor → WalkEntry → ScanBudget → Except AgentError (Visit × Visitor × ScanBudget))
    (Holds : Walker Visitor → Prop) : Prop where
  counted : ∀ walker budget unrepresentable unreadable excluded depthCapped, Holds walker →
    Holds { walker with
      budget := budget
      unrepresentable := unrepresentable
      unreadable := unreadable
      excluded := excluded
      depthCapped := depthCapped }
  expired : ∀ walker, Holds walker →
    Holds { walker with reason := .deadline, next := none, resume := none }
  bounded : ∀ walker reason next, Holds walker → walker.reason = .ended → reason ≠ .page →
    Holds { walker with reason := reason, next := next }
  passed : ∀ walker path, Holds walker → walker.reason = .ended → Behind walk path →
    Holds { walker with last := path }
  visited : ∀ walker entry verdict visitor budget, Holds walker → walker.reason = .ended →
    Behind walk entry.relative →
    visit walker.visitor entry walker.budget = .ok (verdict, visitor, budget) →
    Holds (Walker.applyVisit walk { walker with visitor := visitor, budget := budget }
      entry.relative verdict)

theorem stop_keeps (kept : Kept walk visit Holds) {reason : WorkspaceScanStop}
    (other : reason ≠ .page) (next : Option (List Char)) (holds : Holds walker) :
    Holds (walker.stop walk reason next) := by
  have looked := kept.counted walker walker.budget.looked walker.unrepresentable
    walker.unreadable walker.excluded walker.depthCapped holds
  rw [Walker.stop]
  split
  · exact kept.expired _ looked
  · split
    · rename_i going
      exact kept.bounded _ _ _ looked going other
    · exact looked

theorem check_keeps (kept : Kept walk visit Holds) (holds : Holds walker)
    (checked : walker.check walk = .ok after) : Holds after := by
  rw [Walker.check] at checked
  obtain ⟨budget, -, checked⟩ := Results.bind_ok.mp checked
  have looked := kept.counted walker budget.looked walker.unrepresentable walker.unreadable
    walker.excluded walker.depthCapped holds
  dsimp only at checked
  split at checked
  · cases checked
    exact stop_keeps kept (by decide) _ looked
  · cases checked
    exact looked

theorem load_keeps (kept : Kept walk visit Holds) (holds : Holds walker)
    {relative : List FileName} (loaded : walker.loadDirectoryRules walk relative = .ok after) :
    Holds after :=
  check_keeps kept (kept.counted walker _ walker.unrepresentable _ walker.excluded
    walker.depthCapped holds) loaded

theorem ancestors_keep (kept : Kept walk visit Holds) {directories : List (List FileName)}
    (holds : Holds walker) (loaded : loadAncestorRules walk directories walker = .ok after) :
    Holds after := by
  induction directories generalizing walker with
  | nil =>
    cases loaded
    exact holds
  | cons relative rest inductionHypothesis =>
    rw [loadAncestorRules] at loaded
    obtain ⟨middle, first, loaded⟩ := Results.bind_ok.mp loaded
    have later := load_keeps kept holds first
    split at loaded
    · cases loaded
      exact later
    · exact inductionHypothesis later loaded

/-- The walk of a directory below keeps what holds. -/
def Descends (Holds : Walker Visitor → Prop)
    (descend : Walker Visitor → List FileName → List Char → Except AgentError (Walker Visitor)) :
    Prop :=
  ∀ walker relative display after, Shows display relative → Holds walker →
    descend walker relative display = .ok after → Holds after

variable {descend : Walker Visitor → List FileName → List Char →
    Except AgentError (Walker Visitor)} {relative : List FileName} {display : List Char}

theorem passed_keeps (kept : Kept walk visit Holds) (shows : Shows display relative)
    {name : FileName} {positioning : Bool}
    (place : positioning = false → positioned walk (relative ++ [name]) = false)
    (holds : Holds walker) (going : walker.reason = .ended) :
    Holds (walker.passed positioning display name) := by
  rw [Walker.passed]
  split
  · rename_i part read
    split
    · exact holds
    · rename_i visited
      refine kept.passed walker _ holds going (behind_entry (shows_child shows read) (by simp) ?_)
      exact place (Bool.eq_false_iff.mpr visited)
  · exact holds

theorem visit_keeps (kept : Kept walk visit Holds) {entry : WalkEntry} (holds : Holds walker)
    (going : walker.reason = .ended) (behind : Behind walk entry.relative)
    (visited : walker.visitEntry walk visit entry = .ok after) : Holds after := by
  rw [Walker.visitEntry] at visited
  obtain ⟨⟨verdict, visitor, budget⟩, found, visited⟩ := Results.bind_ok.mp visited
  cases visited
  exact kept.visited walker entry verdict visitor budget holds going behind found

theorem examine_keeps (kept : Kept walk visit Holds) (descends : Descends Holds descend)
    (shows : Shows display relative) {entry : DirEntry} {positioning : Bool}
    (place : positioning = false → positioned walk (relative ++ [entry.name]) = false)
    (holds : Holds walker) (going : walker.reason = .ended)
    (examined : examine walk visit descend walker relative display entry positioning =
      .ok after) : Holds after := by
  rw [examine] at examined
  dsimp only at examined
  split at examined
  · cases examined
    exact passed_keeps kept shows place (kept.counted walker _ _ _ _ _ holds) going
  · split at examined
    · cases examined
      exact passed_keeps kept shows place holds going
    · split at examined
      · cases examined
        exact kept.counted walker walker.budget _ walker.unreadable walker.excluded
          walker.depthCapped holds
      · rename_i part read
        have child := shows_child shows read
        obtain ⟨middle, visited, examined⟩ := Results.bind_ok.mp examined
        have later : Holds middle := by
          rw [Walker.visitUnless] at visited
          split at visited
          · cases visited
            exact holds
          · rename_i other
            have free := place (Bool.eq_false_iff.mpr other)
            exact visit_keeps kept holds going (behind_entry child (by simp) free) visited
        split at examined
        · exact descends middle _ _ after child later examined
        · cases examined
          exact later

theorem collect_keeps (kept : Kept walk visit Holds) {capacity : Nat}
    {entries : List (Option DirEntry)} {sorted others : List DirEntry} (holds : Holds walker)
    (collected : collect walk relative capacity entries walker sorted = .ok (after, others)) :
    Holds after := by
  induction entries generalizing walker sorted with
  | nil =>
    cases collected
    exact holds
  | cons entry rest inductionHypothesis =>
    rw [collect] at collected
    obtain ⟨middle, checked, collected⟩ := Results.bind_ok.mp collected
    have later := check_keeps kept holds checked
    dsimp only at collected
    split at collected
    · cases collected
      exact later
    · split at collected
      · exact inductionHypothesis (kept.counted middle middle.budget middle.unrepresentable _
          middle.excluded middle.depthCapped later) collected
      · split at collected
        · exact inductionHypothesis later collected
        · exact inductionHypothesis later collected

theorem examine_all_keeps (kept : Kept walk visit Holds) (descends : Descends Holds descend)
    (shows : Shows display relative) {entries : List DirEntry} (holds : Holds walker)
    (examined : examineAll walk visit descend relative display entries walker = .ok after) :
    Holds after := by
  induction entries generalizing walker with
  | nil =>
    cases examined
    exact holds
  | cons entry rest inductionHypothesis =>
    rw [examineAll] at examined
    obtain ⟨middle, checked, examined⟩ := Results.bind_ok.mp examined
    have later := check_keeps kept holds checked
    dsimp only at examined
    split at examined
    · cases examined
      exact later
    · rename_i running
      have going : middle.reason = .ended := by
        rw [Walker.stopped, decide_eq_true_eq] at running
        exact not_not.mp running
      split at examined
      · split at examined
        · obtain ⟨next, found, examined⟩ := Results.bind_ok.mp examined
          exact inductionHypothesis (examine_keeps kept descends shows
            (fun other => absurd other (by simp)) later going found) examined
        · exact inductionHypothesis later examined
      · rename_i other
        split at examined
        · cases examined
          exact stop_keeps kept (by decide) _ later
        · rename_i budget claimed
          obtain ⟨next, found, examined⟩ := Results.bind_ok.mp examined
          refine inductionHypothesis (examine_keeps kept descends shows
            (fun _ => Bool.eq_false_iff.mpr other) ?_ ?_ found) examined
          · exact kept.counted middle budget middle.unrepresentable middle.unreadable
              middle.excluded middle.depthCapped later
          · exact going

theorem walk_entries_keep (kept : Kept walk visit Holds) (descends : Descends Holds descend)
    (shows : Shows display relative) (holds : Holds walker)
    (walked : walkEntries walk visit descend walker relative display = .ok after) :
    Holds after := by
  rw [walkEntries] at walked
  split at walked
  · cases walked
    exact holds
  · split at walked
    · have later (budget : ScanBudget) := kept.counted walker budget walker.unrepresentable
        (walker.unreadable + 1) walker.excluded walker.depthCapped holds
      dsimp only at walked
      split at walked
      · cases walked
        exact stop_keeps kept (by decide) _ (later _)
      · cases walked
        exact later _
    · obtain ⟨⟨middle, sorted⟩, collected, walked⟩ := Results.bind_ok.mp walked
      have later := collect_keeps kept holds collected
      dsimp only at walked
      split at walked
      · cases walked
        exact later
      · exact examine_all_keeps kept descends shows later walked

theorem directory_keeps (kept : Kept walk visit Holds) (levels : Nat) (loadRules : Bool) :
    Descends Holds (walkDirectory walk visit levels loadRules) := by
  have loading {loadRules : Bool} {walker middle : Walker Visitor} {relative : List FileName}
      (holds : Holds walker)
      (loaded : walker.loadRulesIf walk loadRules relative = .ok middle) : Holds middle := by
    rw [Walker.loadRulesIf] at loaded
    split at loaded
    · exact load_keeps kept holds loaded
    · cases loaded
      exact holds
  induction levels generalizing loadRules with
  | zero =>
    intro walker relative display after shows holds walked
    rw [walkDirectory] at walked
    obtain ⟨middle, loaded, walked⟩ := Results.bind_ok.mp walked
    refine walk_entries_keep kept ?_ shows (loading holds loaded) walked
    intro walker relative display after shows holds capped
    cases capped
    exact kept.counted walker walker.budget _ _ _ true holds
  | succ levels inductionHypothesis =>
    intro walker relative display after shows holds walked
    rw [walkDirectory] at walked
    obtain ⟨middle, loaded, walked⟩ := Results.bind_ok.mp walked
    exact walk_entries_keep kept (inductionHypothesis true) shows (loading holds loaded) walked

theorem root_file_keeps (kept : Kept walk visit Holds) (shows : Shows display relative)
    (below : relative ≠ []) (holds : Holds walker) (going : walker.reason = .ended)
    (walked : visitRootFile walk visit walker relative display = .ok after) : Holds after := by
  rw [visitRootFile] at walked
  split at walked
  · cases walked
    exact holds
  · rename_i other
    split at walked
    · cases walked
      exact stop_keeps kept (by decide) _ holds
    · rename_i budget claimed
      have later (unreadable excluded : Nat) := kept.counted walker budget
        walker.unrepresentable unreadable excluded walker.depthCapped holds
      dsimp only at walked
      split at walked
      · cases walked
        exact later _ _
      · split at walked
        · cases walked
          exact later _ _
        · exact visit_keeps kept (later walker.unreadable walker.excluded) going
            (behind_entry shows below (Bool.eq_false_iff.mpr other)) walked

theorem root_keeps (kept : Kept walk visit Holds) {resolved : Resolved}
    (shows : Shows display resolved.relative) (holds : Holds walker)
    (walked : walkRoot walk visit resolved display walker = .ok after) : Holds after := by
  rw [walkRoot] at walked
  split at walked
  · cases walked
    exact holds
  · rename_i running
    split at walked
    · split at walked
      · cases walked
        exact kept.counted walker walker.budget walker.unrepresentable walker.unreadable _
          walker.depthCapped holds
      · exact directory_keeps kept _ false walker _ _ after shows holds walked
    · rename_i file
      have going : walker.reason = .ended := by
        rw [Walker.stopped, decide_eq_true_eq] at running
        exact not_not.mp running
      exact root_file_keeps kept shows (resolved.inside (Bool.eq_false_iff.mpr file)) holds going
        walked

/-- What holds at the start of a walk and is kept holds of the walker that finishes it. -/
theorem walk_scope_keeps (kept : Kept walk visit Holds) {directory : List Char}
    {visitor : Visitor} {budget : ScanBudget} {ended : WalkOutcome × Visitor × ScanBudget}
    (starts : ∀ budget,
      Holds ⟨budget, visitor, walk.start.getD [], .ended, none, none, 0, 0, 0, false⟩)
    (walked : walkScope walk visit directory visitor budget = .ok ended) :
    ∃ walker, Holds walker ∧ ended = walker.finish walk := by
  rw [walkScope] at walked
  obtain ⟨budget, -, walked⟩ := Results.bind_ok.mp walked
  obtain ⟨resolved, -, walked⟩ := Results.bind_ok.mp walked
  dsimp only at walked
  split at walked
  · cases walked
  · split at walked
    · cases walked
    · split at walked
      · cases walked
      · rename_i display shown
        obtain ⟨checked, first, walked⟩ := Results.bind_ok.mp walked
        obtain ⟨loaded, second, walked⟩ := Results.bind_ok.mp walked
        obtain ⟨final, last, walked⟩ := Results.bind_ok.mp walked
        cases walked
        refine ⟨final, ?_, rfl⟩
        exact root_keeps kept (display_path_shows shown)
          (ancestors_keep kept (check_keeps kept (starts budget) first) second) last

end Keeping

section Names

variable {walk : Walk}
  {visit : Visitor → WalkEntry → ScanBudget → Except AgentError (Visit × Visitor × ScanBudget)}
  {walker : Walker Visitor}

/-- What holds of the visitor's state alone. -/
theorem visitor_kept {Holds : Visitor → Prop}
    (kept : ∀ before entry budget verdict after later, Holds before →
      visit before entry budget = .ok (verdict, after, later) → Holds after) :
    Kept walk visit fun walker => Holds walker.visitor where
  counted walker _ _ _ _ _ holds := holds
  expired walker holds := holds
  bounded walker _ _ holds _ _ := holds
  passed walker _ holds _ _ := holds
  visited walker entry verdict visitor budget holds _ _ visited := by
    have later := kept _ _ _ _ _ _ holds visited
    have stopped (walker : Walker Visitor) (reason : WorkspaceScanStop)
        (next : Option (List Char)) : (walker.stop walk reason next).visitor = walker.visitor := by
      rw [Walker.stop]
      split
      · rfl
      · split
        · rfl
        · rfl
    cases verdict with
    | next => exact later
    | stop reason =>
      rw [Walker.applyVisit, stopped]
      exact later
    | stopInside reason line offset =>
      rw [Walker.applyVisit, stopped]
      exact later
    | stopBefore reason =>
      rw [Walker.applyVisit, stopped]
      exact later

theorem Kept.and {First Second : Walker Visitor → Prop} (first : Kept walk visit First)
    (second : Kept walk visit Second) :
    Kept walk visit fun walker => First walker ∧ Second walker where
  counted walker budget unrepresentable unreadable excluded capped holds :=
    ⟨first.counted walker budget unrepresentable unreadable excluded capped holds.1,
      second.counted walker budget unrepresentable unreadable excluded capped holds.2⟩
  expired walker holds := ⟨first.expired walker holds.1, second.expired walker holds.2⟩
  bounded walker reason next holds going other :=
    ⟨first.bounded walker reason next holds.1 going other,
      second.bounded walker reason next holds.2 going other⟩
  passed walker path holds going behind :=
    ⟨first.passed walker path holds.1 going behind, second.passed walker path holds.2 going behind⟩
  visited walker entry verdict visitor budget holds going behind visited :=
    ⟨first.visited walker entry verdict visitor budget holds.1 going behind visited,
      second.visited walker entry verdict visitor budget holds.2 going behind visited⟩

/-- A key is named unless it is the cursor's own path and no place inside that file. -/
def named (walk : Walk) (resume : Option (Nat × Nat)) (key : List Char) : Option (List Char) :=
  (some key).filter fun path => resume.isSome ||
    (!path.isEmpty && walk.startPath ≠ some (components (encode path)))

/-- Once something is found, a walk that stops for its page has a key to go on behind. -/
structure Names (walk : Walk) (Found : Visitor → Prop) (walker : Walker Visitor) : Prop where
  going : walker.reason = .ended → Found walker.visitor → Behind walk walker.last
  page : walker.reason = .page → Found walker.visitor →
    ∃ key, Behind walk key ∧ walker.next = named walk walker.resume key

/-- A visitor finds nothing in an entry that it stops the page before, and it does not end the
walk. -/
structure Plain (visit : Visitor → WalkEntry → ScanBudget →
    Except AgentError (Visit × Visitor × ScanBudget)) (Found : Visitor → Prop) : Prop where
  before : ∀ visitor entry budget after later,
    visit visitor entry budget = .ok (.stopBefore .page, after, later) → Found after → Found visitor
  stops : ∀ visitor entry budget verdict after later,
    visit visitor entry budget = .ok (verdict, after, later) →
      verdict ≠ .stop .ended ∧ verdict ≠ .stopBefore .ended ∧
        ∀ line offset, verdict ≠ .stopInside .ended line offset

theorem names_stop {Found : Visitor → Prop} {reason : WorkspaceScanStop} {key : List Char}
    (going : walker.reason = .ended) (stops : reason ≠ .ended)
    (behind : reason = .page → Found walker.visitor → Behind walk key) :
    Names walk Found (walker.stop walk reason (some key)) := by
  rw [Walker.stop]
  split
  · exact ⟨fun ended => absurd ended (by simp), fun page => absurd page (by simp)⟩
  · exact ⟨fun ended => absurd ended stops, fun page found => ⟨key, behind page found, rfl⟩⟩

theorem names_kept {Found : Visitor → Prop} (plain : Plain visit Found) :
    Kept walk visit (Names walk Found) where
  counted walker _ _ _ _ _ names := ⟨names.going, names.page⟩
  expired walker names :=
    ⟨fun ended => absurd ended (by simp), fun page => absurd page (by simp)⟩
  bounded walker reason next names going other :=
    ⟨fun _ => names.going going, fun page => absurd page other⟩
  passed walker path names going behind :=
    ⟨fun _ _ => behind, fun page => by
      rw [going] at page
      cases page⟩
  visited walker entry verdict visitor budget names going behind visited := by
    obtain ⟨stop, stopBefore, stopInside⟩ := plain.stops _ _ _ _ _ _ visited
    cases verdict with
    | next =>
      refine ⟨fun _ _ => behind, fun page => ?_⟩
      have ended : walker.reason = .page := page
      rw [going] at ended
      cases ended
    | stop reason =>
      exact names_stop going (fun ended => stop (by rw [ended])) fun _ _ => behind
    | stopInside reason line offset =>
      exact names_stop going (fun ended => stopInside line offset (by rw [ended])) fun _ _ => behind
    | stopBefore reason =>
      refine names_stop going (fun ended => stopBefore (by rw [ended])) fun page found => ?_
      rw [page] at visited
      exact names.going going (plain.before _ _ _ _ _ visited found)

/-- What a finished walk that stopped for its page says. -/
theorem finish_page (page : (walker.finish walk).1.reason = .page) :
    walker.reason = .page ∧ (walker.finish walk).1.next = walker.next ∧
      (walker.finish walk).1.resume = walker.resume := by
  rw [Walker.finish] at page ⊢
  dsimp only at page ⊢
  cases late : walker.budget.timeExpired walk with
  | true =>
    rw [late, if_pos rfl] at page
    simp at page
  | false =>
    rw [late, if_neg Bool.false_ne_true] at page
    have own : walker.reason = .page := by
      split at page
      · cases page
      · split at page
        · cases page
        · exact page
    rw [if_neg Bool.false_ne_true, own]
    simp

/-- A key behind the cursor is named, except where the page resumes inside a file and the walk
does not stop inside one. -/
theorem named_key {resume : Option (Nat × Nat)} {key : List Char} (behind : Behind walk key)
    (whole : resume = none → walk.options.resumeFile = false) :
    named walk resume key = some key := by
  rw [named, Option.filter_eq_some_iff]
  refine ⟨rfl, ?_⟩
  cases resume with
  | some place => rfl
  | none =>
    have filled : key.isEmpty = false := by
      rw [List.isEmpty_eq_false_iff]
      exact behind.filled
    have other : walk.startPath ≠ some (components (encode key)) := by
      intro same
      have resumed := behind.other same
      rw [whole rfl] at resumed
      cases resumed
    rw [filled, decide_eq_true other]
    rfl

/-- A walk that stops for its page with something found names a key to go on behind. -/
theorem finish_names {Found : Visitor → Prop} (names : Names walk Found walker)
    (page : (walker.finish walk).1.reason = .page) (found : Found walker.visitor) :
    ∃ key, Behind walk key ∧
      (walker.finish walk).1.next = named walk (walker.finish walk).1.resume key := by
  obtain ⟨own, next, resume⟩ := finish_page page
  rw [next, resume]
  exact names.page own found

end Names

end MinicoreAgent.WorkspaceScan

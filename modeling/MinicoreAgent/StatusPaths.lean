import MinicoreAgent.Lib.TextLines
import MinicoreAgent.Lib.UnixPaths

/-!
# Paths of a Git status

Git names paths relative to the work tree root. Each is joined to that root, resolved, and
stripped of the workspace's own path, so that what is left names something in the workspace,
or the workspace itself.
-/
namespace MinicoreAgent.GitStatus

open Text UnixPaths

/-- `MAX_PATH_BYTES`. -/
def maxPathBytes : Nat := 4096

inductive Mapped where
  | inside (relative : List Char)
  | outside
  | skipped
deriving DecidableEq, Repr

/-- One round of the loop over the components, `none` at a parent of the root. -/
def normalStep (normal : List Component) : Component → Option (List Component)
  | .current => some normal
  | .parent => pop normal
  | component => some (push normal component)

def normalize (components : List Component) : Option (List Component) :=
  components.foldlM normalStep []

/-- The loop that writes the components between slashes. -/
def relativeLoop : List Component → List Char → Option (List Char)
  | [], relative => some relative
  | component :: rest, relative =>
    match decode component.osStr with
    | none => none
    | some name => relativeLoop rest ((if relative = [] then [] else relative ++ ['/']) ++ name)

def relativeToWorkspace (path toplevel workspaceRoot : List UInt8) : Mapped :=
  if path.length > maxPathBytes then .skipped
  else
    match decode path with
    | none => .skipped
    | some _ =>
      match normalize (components (UnixPaths.join toplevel path)) with
      | none => .skipped
      | some normal =>
        match (components workspaceRoot).isPrefixOf? normal with
        | none => .outside
        | some stripped =>
          match relativeLoop stripped [] with
          | none => .skipped
          | some relative => .inside relative

/-- `workspace_pathspec`, `none` where the workspace is not in the work tree. -/
def workspacePathspec (workspaceRoot toplevel : List UInt8) : Option (List UInt8) :=
  match (components toplevel).isPrefixOf? (components workspaceRoot) with
  | none => none
  | some stripped =>
    let spec := stripped.foldl (fun spec component =>
      if component.osStr = [] then spec
      else (if spec = [] then [] else spec ++ [slash]) ++ component.osStr) []
    some (if spec = [] then [dot] else spec)

/-- A normal component of a path in the workspace. -/
structure IsComponent (name : List Char) : Prop where
  filled : name ≠ []
  free : '/' ∉ name
  here : name ≠ ['.']
  up : name ≠ ['.', '.']

/-- The components with a slash between each two. -/
def joined : List (List Char) → List Char
  | [] => []
  | [name] => name
  | name :: rest => name ++ '/' :: joined rest

/-- A path strictly inside the workspace. -/
def WorkspacePath (relative : List Char) : Prop :=
  ∃ names, names ≠ [] ∧ (∀ name ∈ names, IsComponent name) ∧ relative = joined names

/-- The path is one that can be represented, and resolves to the workspace itself. -/
def NamesWorkspace (path toplevel workspaceRoot : List UInt8) : Prop :=
  path.length ≤ maxPathBytes ∧ (decode path).isSome = true ∧
    normalize (components (UnixPaths.join toplevel path)) = some (components workspaceRoot)

instance (path toplevel workspaceRoot : List UInt8) :
    Decidable (NamesWorkspace path toplevel workspaceRoot) :=
  inferInstanceAs (Decidable (_ ∧ _ ∧ _))

section Resolving

/-- A root and names behind it. -/
def Rooted (path : List Component) : Prop :=
  ∃ names, path = .root :: names ∧
    ∀ component ∈ names, ∃ name, component = .normal name ∧ IsName name

theorem normal_step_rooted {path next : List Component} (rooted : Rooted path)
    {component : Component}
    (resolvable : component = .parent ∨ ∃ name, component = .normal name ∧ IsName name)
    (stepped : normalStep path component = some next) : Rooted next := by
  obtain ⟨names, rfl, normal⟩ := rooted
  rcases resolvable with rfl | ⟨name, rfl, isName⟩
  · rcases List.eq_nil_or_concat names with rfl | ⟨front, last, rfl⟩
    · cases stepped
    · obtain ⟨name, rfl, -⟩ := normal last (by simp)
      rw [normalStep, pop, List.concat_eq_append, ← List.cons_append,
        List.getLast?_concat] at stepped
      dsimp only at stepped
      rw [List.dropLast_concat] at stepped
      cases stepped
      exact ⟨front, rfl, fun component member => normal component (by simp [member])⟩
  · cases stepped
    refine ⟨names ++ [.normal name], rfl, ?_⟩
    intro component member
    rcases List.mem_append.mp member with old | new
    · exact normal component old
    · exact ⟨name, List.mem_singleton.mp new, isName⟩

theorem normal_loop_rooted {path next : List Component} {rest : List Component}
    (rooted : Rooted path)
    (resolvable : ∀ component ∈ rest,
      component = .parent ∨ ∃ name, component = .normal name ∧ IsName name)
    (resolved : rest.foldlM normalStep path = some next) : Rooted next := by
  induction rest generalizing path with
  | nil =>
    cases resolved
    exact rooted
  | cons component rest inductionHypothesis =>
    rw [List.foldlM_cons, Option.bind_eq_bind, Option.bind_eq_some_iff] at resolved
    obtain ⟨middle, stepped, resolved⟩ := resolved
    exact inductionHypothesis
      (normal_step_rooted rooted (resolvable component List.mem_cons_self) stepped)
      (fun component member => resolvable component (List.mem_cons_of_mem _ member)) resolved

/-- An absolute path resolves to a root and names behind it. -/
theorem normalize_rooted {path : List UInt8} (absolute : isAbsolute path = true)
    {normal : List Component} (resolved : normalize (components path) = some normal) :
    Rooted normal := by
  obtain ⟨rest, found, resolvable⟩ := absolute_components absolute
  rw [found, normalize, List.foldlM_cons] at resolved
  exact normal_loop_rooted ⟨[], rfl, by simp⟩ resolvable resolved

/-- What is left behind an absolute prefix are names. -/
theorem stripped_names {root : List UInt8} (absolute : isAbsolute root = true)
    {normal stripped : List Component} (rooted : Rooted normal)
    (whole : components root ++ stripped = normal) :
    ∀ component ∈ stripped, ∃ name, component = .normal name ∧ IsName name := by
  obtain ⟨names, rfl, normal⟩ := rooted
  obtain ⟨rest, begins, -⟩ := absolute_components absolute
  rw [begins, List.cons_append] at whole
  obtain ⟨-, same⟩ := List.cons.inj whole
  intro component member
  exact normal component (same ▸ List.mem_append_right rest member)

/-- A name that can be read is a component of a path. -/
theorem component_of_name {name : List UInt8} (isName : IsName name) {text : List Char}
    (read : decode name = some text) : IsComponent text := by
  have coded := encode_of_decode read
  constructor
  · rintro rfl
    exact isName.filled coded
  · intro member
    apply isName.free
    rw [coded]
    exact List.mem_flatMap.mpr ⟨'/', member, by decide⟩
  · rintro rfl
    exact isName.here coded
  · rintro rfl
    exact isName.up coded

theorem joined_cons_cons (name second : List Char) (rest : List (List Char)) :
    joined (name :: second :: rest) = name ++ '/' :: joined (second :: rest) := rfl

theorem joined_append {names : List (List Char)} (some : names ≠ []) (name : List Char) :
    joined (names ++ [name]) = joined names ++ '/' :: name := by
  induction names with
  | nil => exact absurd rfl some
  | cons first names inductionHypothesis =>
    cases names with
    | nil => rfl
    | cons second names =>
      rw [List.cons_append, List.cons_append, joined_cons_cons, ← List.cons_append,
        inductionHypothesis (List.cons_ne_nil _ _), joined_cons_cons, List.append_assoc,
        List.cons_append]

theorem joined_nil {names : List (List Char)} (each : ∀ name ∈ names, IsComponent name)
    (nothing : joined names = []) : names = [] := by
  cases names with
  | nil => rfl
  | cons name rest =>
    exfalso
    apply (each name List.mem_cons_self).filled
    cases rest with
    | nil => exact nothing
    | cons second rest =>
      rw [joined_cons_cons, List.append_eq_nil_iff] at nothing
      exact nothing.1

/-- The loop writes the names behind those that are written. -/
theorem relative_loop_joins {components : List Component}
    (normal : ∀ component ∈ components, ∃ name, component = .normal name ∧ IsName name)
    (names : List (List Char)) (each : ∀ name ∈ names, IsComponent name)
    {relative : List Char} (written : relativeLoop components (joined names) = some relative) :
    ∃ more, more.length = components.length ∧ (∀ name ∈ more, IsComponent name) ∧
      relative = joined (names ++ more) := by
  induction components generalizing names with
  | nil =>
    cases written
    exact ⟨[], rfl, by simp, by rw [List.append_nil]⟩
  | cons component rest inductionHypothesis =>
    obtain ⟨bytes, rfl, isName⟩ := normal component List.mem_cons_self
    rw [relativeLoop] at written
    split at written
    · cases written
    · rename_i name read
      have isComponent := component_of_name isName read
      have next : (if joined names = [] then [] else joined names ++ ['/']) ++ name =
          joined (names ++ [name]) := by
        split
        · rename_i nothing
          rw [joined_nil each nothing]
          rfl
        · rename_i some
          have filled : names ≠ [] := by
            rintro rfl
            exact some rfl
          rw [joined_append filled, List.append_assoc]
          rfl
      have both : ∀ other ∈ names ++ [name], IsComponent other := by
        intro other member
        rcases List.mem_append.mp member with old | new
        · exact each other old
        · rw [List.mem_singleton.mp new]
          exact isComponent
      rw [next] at written
      obtain ⟨more, length, others, same⟩ := inductionHypothesis
        (fun component member => normal component (List.mem_cons_of_mem _ member)) _ both written
      refine ⟨name :: more, ?_, ?_, ?_⟩
      · rw [List.length_cons, List.length_cons, length]
      · intro other member
        rcases List.mem_cons.mp member with rfl | old
        · exact isComponent
        · exact others other old
      · rw [same, List.append_assoc]
        rfl

theorem workspace_path_filled {relative : List Char} (path : WorkspacePath relative) :
    relative ≠ [] := by
  obtain ⟨names, some, each, rfl⟩ := path
  exact fun nothing => some (joined_nil each nothing)

/-- A path in the workspace lies strictly inside, unless it is the workspace itself. -/
theorem inside_iff {path toplevel workspaceRoot : List UInt8} {relative : List Char}
    (top : isAbsolute toplevel = true) (root : isAbsolute workspaceRoot = true)
    (mapped : relativeToWorkspace path toplevel workspaceRoot = .inside relative) :
    WorkspacePath relative ↔ ¬NamesWorkspace path toplevel workspaceRoot := by
  rw [relativeToWorkspace] at mapped
  split at mapped
  · cases mapped
  · rename_i short
    split at mapped
    · cases mapped
    · rename_i text read
      split at mapped
      · cases mapped
      · rename_i normal resolved
        split at mapped
        · cases mapped
        · rename_i stripped found
          split at mapped
          · cases mapped
          · rename_i written
            cases mapped
            have whole := List.isPrefixOf?_eq_some_iff_append_eq.mp found
            have rooted := normalize_rooted (join_absolute top path) resolved
            have names := stripped_names root rooted whole
            obtain ⟨more, length, each, rfl⟩ :=
              relative_loop_joins names [] (by simp) written
            rw [List.nil_append]
            constructor
            · intro inside itself
              obtain ⟨-, -, same⟩ := itself
              rw [resolved, ← whole] at same
              have none : stripped = [] := by simpa using same
              rw [none, List.length_nil, List.length_eq_zero_iff] at length
              rw [length] at inside
              exact workspace_path_filled inside rfl
            · intro other
              refine ⟨more, ?_, each, rfl⟩
              rintro rfl
              have none : stripped = [] := List.length_eq_zero_iff.mp length.symm
              rw [none, List.append_nil] at whole
              refine other ⟨Nat.le_of_not_lt short, ?_, ?_⟩
              · rw [read]
                rfl
              · rw [resolved, whole]

/-- The workspace itself has the empty path. -/
theorem names_workspace_empty {path toplevel workspaceRoot : List UInt8}
    (names : NamesWorkspace path toplevel workspaceRoot) :
    relativeToWorkspace path toplevel workspaceRoot = .inside [] := by
  obtain ⟨short, readable, resolved⟩ := names
  obtain ⟨text, read⟩ := Option.isSome_iff_exists.mp readable
  have stripped : (components workspaceRoot).isPrefixOf? (components workspaceRoot) = some [] :=
    List.isPrefixOf?_eq_some_iff_append_eq.mpr (List.append_nil _)
  rw [relativeToWorkspace, if_neg (Nat.not_lt_of_le short), read]
  dsimp only
  rw [resolved]
  dsimp only
  rw [stripped]
  rfl

end Resolving

end MinicoreAgent.GitStatus

import MinicoreAgent.Lib.Lines

/-!
# Unix paths

A path is bytes. Its components are what stands between its slashes, without the empty ones
and the dots, and a root before them if it begins with a slash. Resolving the parents among
the components of an absolute path leaves its root and normal names.
-/
namespace MinicoreAgent.UnixPaths

open Lines

def slash : UInt8 := 0x2f

def dot : UInt8 := 0x2e

/-- `std::path::Component`. -/
inductive Component where
  | root
  | current
  | parent
  | normal (name : List UInt8)
deriving DecidableEq, Repr

/-- What stands between the slashes. -/
def segments (path : List UInt8) : List (List UInt8) :=
  (Lines.split slash path).1 ++ [(Lines.split slash path).2]

def segmentComponent (segment : List UInt8) : Option Component :=
  if segment = [] ∨ segment = [dot] then none
  else if segment = [dot, dot] then some .parent
  else some (.normal segment)

def isAbsolute (path : List UInt8) : Bool := path.head? == some slash

/-- `Path::components`. A dot is kept only where a relative path begins with it. -/
def components (path : List UInt8) : List Component :=
  if isAbsolute path then .root :: (segments path).filterMap segmentComponent
  else
    (if (segments path).head? = some [dot] then [.current] else []) ++
      (segments path).filterMap segmentComponent

/-- `Path::join`. -/
def join (base path : List UInt8) : List UInt8 :=
  if isAbsolute path then path
  else
    match base.getLast? with
    | none => path
    | some byte => if byte = slash then base ++ path else base ++ slash :: path

/-- `Component::as_os_str`. -/
def Component.osStr : Component → List UInt8
  | .root => [slash]
  | .current => [dot]
  | .parent => [dot, dot]
  | .normal name => name

/-- `PathBuf::pop` on a path that was built from components: a root has no parent. -/
def pop (path : List Component) : Option (List Component) :=
  match path.getLast? with
  | none | some .root => none
  | some _ => some path.dropLast

/-- `PathBuf::push` of one component of a path. -/
def push (path : List Component) : Component → List Component
  | .root => [.root]
  | component => path ++ [component]

/-- The order of lists by their first difference. -/
def lexLt {Item : Type} [DecidableEq Item] (lt : Item → Item → Bool) : List Item → List Item → Bool
  | _, [] => false
  | [], _ :: _ => true
  | first :: front, second :: back => lt first second || (first = second && lexLt lt front back)

/-- The order of names by their bytes. -/
def nameLt : List UInt8 → List UInt8 → Bool := lexLt fun first second => first < second

def Component.rank : Component → Nat
  | .root => 0
  | .current => 1
  | .parent => 2
  | .normal _ => 3

/-- `Component::cmp`. -/
def Component.lt : Component → Component → Bool
  | .normal first, .normal second => nameLt first second
  | first, second => first.rank < second.rank

/-- `Path::cmp`. -/
def pathLt : List Component → List Component → Bool := lexLt Component.lt

section Names

/-- A name that is neither empty nor a dot or two, and has no slash. -/
structure IsName (name : List UInt8) : Prop where
  filled : name ≠ []
  free : slash ∉ name
  here : name ≠ [dot]
  up : name ≠ [dot, dot]

instance (name : List UInt8) : Decidable (IsName name) :=
  decidable_of_iff (name ≠ [] ∧ slash ∉ name ∧ name ≠ [dot] ∧ name ≠ [dot, dot])
    ⟨fun is => ⟨is.1, is.2.1, is.2.2.1, is.2.2.2⟩, fun is => ⟨is.filled, is.free, is.here, is.up⟩⟩

theorem segments_free (path : List UInt8) : ∀ segment ∈ segments path, slash ∉ segment := by
  obtain ⟨free, unended⟩ := split_free slash path
  intro segment member
  rcases List.mem_append.mp member with line | tail
  · exact free segment line
  · rw [List.mem_singleton.mp tail]
    exact unended

/-- A segment stands for a parent or for a name. -/
theorem segment_component {segment : List UInt8} {component : Component}
    (free : slash ∉ segment) (found : segmentComponent segment = some component) :
    component = .parent ∨ ∃ name, component = .normal name ∧ IsName name := by
  rw [segmentComponent] at found
  split_ifs at found with nothing parents
  · cases found
    exact Or.inl rfl
  · cases found
    rw [not_or] at nothing
    exact Or.inr ⟨segment, rfl, ⟨nothing.1, free, nothing.2, parents⟩⟩

/-- The components behind the root of an absolute path are parents and names. -/
theorem absolute_components {path : List UInt8} (absolute : isAbsolute path = true) :
    ∃ rest, components path = .root :: rest ∧
      ∀ component ∈ rest, component = .parent ∨ ∃ name, component = .normal name ∧ IsName name := by
  refine ⟨(segments path).filterMap segmentComponent, if_pos absolute, ?_⟩
  intro component member
  obtain ⟨segment, inside, found⟩ := List.mem_filterMap.mp member
  exact segment_component (segments_free path segment inside) found

/-- What is joined to an absolute path is absolute. -/
theorem join_absolute {base : List UInt8} (absolute : isAbsolute base = true)
    (path : List UInt8) : isAbsolute (join base path) = true := by
  rw [join]
  split
  · assumption
  · cases base with
    | nil => cases absolute
    | cons byte base =>
      split
      · rename_i none
        simp at none
      · split
        · exact absolute
        · exact absolute

theorem components_name {name : List UInt8} (is : IsName name) :
    components name = [.normal name] := by
  have relative : isAbsolute name = false := by
    rw [isAbsolute, beq_eq_false_iff_ne]
    intro absolute
    obtain ⟨rest, rfl⟩ := List.head?_eq_some_iff.mp absolute
    exact is.free List.mem_cons_self
  have one : segments name = [name] := by
    rw [segments, split_tail is.free]
    rfl
  have component : segmentComponent name = some (.normal name) := by
    rw [segmentComponent, if_neg (not_or.mpr ⟨is.filled, is.here⟩), if_neg is.up]
  rw [components, relative, if_neg Bool.false_ne_true, one, List.head?_cons,
    if_neg (fun same => is.here (Option.some.inj same)), List.filterMap_cons, component]
  rfl

/-- A name behind a slash is one more component. -/
theorem components_child {path name : List UInt8} (filled : path ≠ []) (is : IsName name) :
    components (path ++ slash :: name) = components path ++ [.normal name] := by
  have component : segmentComponent name = some (.normal name) := by
    rw [segmentComponent, if_neg (not_or.mpr ⟨is.filled, is.here⟩), if_neg is.up]
  have more : segments (path ++ slash :: name) = segments path ++ [name] := by
    obtain ⟨free, unended⟩ := split_free slash path
    have whole : path ++ slash :: name =
        Lines.join slash ((Lines.split slash path).1 ++ [(Lines.split slash path).2]) ++ name := by
      conv => lhs; rw [← join_split slash path]
      simp [join_append]
    rw [whole, segments, split_join _ is.free]
    · rfl
    · intro line member
      rcases List.mem_append.mp member with old | last
      · exact free line old
      · rw [List.mem_singleton.mp last]
        exact unended
  have absolute : isAbsolute (path ++ slash :: name) = isAbsolute path := by
    rw [isAbsolute, isAbsolute, List.head?_append_of_ne_nil _ filled]
  have first : (segments path ++ [name]).head? = (segments path).head? :=
    List.head?_append_of_ne_nil _ (by simp [segments])
  have named : [name].filterMap segmentComponent = [.normal name] := by
    rw [List.filterMap_cons, component]
    rfl
  rw [components, components, absolute, more, first, List.filterMap_append, named]
  split
  · rfl
  · rw [List.append_assoc]

end Names

end MinicoreAgent.UnixPaths

import Mathlib.Data.List.Range

/-!
# Replacing segments of an index range

Segments lie one after the other in the positions below a length, with gaps
between them. Each is kept as it is, replaced by one piece, or dropped. A walk
over the positions that looks up the segment beginning at each of them yields
the same pieces as going through the segments in order. The pieces show every
position outside a dropped segment once and in order, and each replaced segment
as one piece at its place.
-/
namespace MinicoreAgent.Segments

variable {Key : Type} (start stop : Key → Nat)

/-- What becomes of a segment. -/
inductive Choice
  | keep
  | replace
  | drop
  deriving DecidableEq, Repr

/-- A position by itself, or a segment as a whole. -/
inductive Piece (Key : Type)
  | kept (index : Nat)
  | replaced (key : Key)
  deriving DecidableEq, Repr

/-- The positions a piece stands for. -/
def span : Piece Key → List Nat
  | .kept index => [index]
  | .replaced key => List.range' (start key) (stop key - start key)

def keptIndex : Piece Key → Option Nat
  | .kept index => some index
  | .replaced _ => none

def replacedKey : Piece Key → Option Key
  | .kept _ => none
  | .replaced key => some key

/-- The segments are nonempty and follow one another from the index on. -/
inductive Laid (length : Nat) : Nat → List Key → Prop
  | nil {index : Nat} (bound : index ≤ length) : Laid length index []
  | cons {index : Nat} {key : Key} {rest : List Key} (before : index ≤ start key)
      (nonempty : start key < stop key) (after : Laid length (stop key) rest) :
      Laid length index (key :: rest)

/-- The positions from one index up to another, each by itself. -/
def keptRange (index bound : Nat) : List (Piece Key) :=
  (List.range' index (bound - index)).map .kept

/-- The walk: at each position the segment that begins there is looked up. -/
def trace (length : Nat) (keys : List Key) (choice : Key → Choice) : Nat → Nat → List (Piece Key)
  | 0, _ => []
  | fuel + 1, index =>
    if index < length then
      match keys.find? (fun key => decide (start key = index)) with
      | none => .kept index :: trace length keys choice fuel (index + 1)
      | some key =>
        match choice key with
        | .drop => trace length keys choice fuel (stop key)
        | .replace => .replaced key :: trace length keys choice fuel (stop key)
        | .keep => .kept index :: trace length keys choice fuel (index + 1)
    else []

/-- The pieces of one segment. -/
def treat (choice : Key → Choice) (key : Key) : List (Piece Key) :=
  match choice key with
  | .drop => []
  | .replace => [.replaced key]
  | .keep => keptRange (start key) (stop key)

/-- The pieces of the segments in order and of the gaps around them. -/
def pieces (length : Nat) (choice : Key → Choice) : Nat → List Key → List (Piece Key)
  | index, [] => keptRange index length
  | index, key :: rest =>
    keptRange index (start key) ++ treat start stop choice key ++
      pieces length choice (stop key) rest

/-- Whether a position lies in a segment that passes the test. -/
def hit (keys : List Key) (test : Key → Bool) (index : Nat) : Bool :=
  keys.any (fun key => test key && decide (start key ≤ index) && decide (index < stop key))

section Order

variable {start stop} {length index : Nat} {key : Key} {keys done : List Key}

theorem Laid.bound (laid : Laid start stop length index keys) : index ≤ length := by
  induction laid with
  | nil bound => exact bound
  | cons before nonempty _ inductionHypothesis => omega

theorem Laid.start_le (laid : Laid start stop length index keys) (member : key ∈ keys) :
    index ≤ start key := by
  induction laid with
  | nil => cases member
  | cons before nonempty _ inductionHypothesis =>
    rcases List.mem_cons.mp member with rfl | later
    · exact before
    · have := inductionHypothesis later
      omega

theorem Laid.earlier {bound : Nat} (laid : Laid start stop length bound keys)
    (earlier : index ≤ bound) : Laid start stop length index keys := by
  cases laid with
  | nil bound => exact .nil (by omega)
  | cons before nonempty after => exact .cons (by omega) nonempty after

/-- A segment is known by where it begins. -/
theorem Laid.start_injective {other : Key} (laid : Laid start stop length index keys)
    (member : key ∈ keys) (another : other ∈ keys) (same : start key = start other) :
    key = other := by
  induction laid with
  | nil => cases member
  | cons before nonempty after inductionHypothesis =>
    rcases List.mem_cons.mp member with rfl | later
    · rcases List.mem_cons.mp another with rfl | behind
      · rfl
      · have := after.start_le behind
        omega
    · rcases List.mem_cons.mp another with rfl | behind
      · have := after.start_le later
        omega
      · exact inductionHypothesis later behind

/-- Looking up the beginning of a segment finds that segment. -/
theorem Laid.find_start (laid : Laid start stop length index keys) (member : key ∈ keys) :
    keys.find? (fun other => decide (start other = start key)) = some key := by
  cases found : keys.find? (fun other => decide (start other = start key)) with
  | none =>
    have absent := List.find?_eq_none.mp found key member
    simp at absent
  | some other =>
    have same := List.find?_some found
    rw [decide_eq_true_eq] at same
    rw [laid.start_injective (List.mem_of_find?_eq_some found) member same]

end Order

section Walk

variable {start stop} {length index : Nat} {key : Key} {keys done : List Key}
  {choice : Key → Choice}

theorem range_append {middle bound : Nat} (first : index ≤ middle) (second : middle ≤ bound) :
    List.range' index (bound - index) =
      List.range' index (middle - index) ++ List.range' middle (bound - middle) := by
  have joined := @List.range'_append_1 index (middle - index) (bound - middle)
  rw [show index + (middle - index) = middle by omega] at joined
  rw [joined]
  congr 1
  omega

theorem kept_range_append {middle bound : Nat} (first : index ≤ middle)
    (second : middle ≤ bound) :
    (keptRange index bound : List (Piece Key)) =
      keptRange index middle ++ keptRange middle bound := by
  unfold keptRange
  rw [range_append first second, List.map_append]

theorem kept_range_cons {bound : Nat} (more : index < bound) :
    (keptRange index bound : List (Piece Key)) = .kept index :: keptRange (index + 1) bound := by
  unfold keptRange
  rw [show bound - index = (bound - (index + 1)) + 1 by omega, List.range'_succ, List.map_cons]

/-- The gap before the first segment may be entered anywhere. -/
theorem pieces_earlier {bound : Nat} (laid : Laid start stop length bound keys)
    (earlier : index ≤ bound) :
    pieces start stop length choice index keys =
      keptRange index bound ++ pieces start stop length choice bound keys := by
  cases laid with
  | nil later => exact kept_range_append earlier later
  | cons before =>
    unfold pieces
    rw [kept_range_append earlier before, List.append_assoc, List.append_assoc, List.append_assoc]

/-- The walk yields the pieces of the segments before it. The segments behind the
walk begin earlier and are no longer found. -/
theorem trace_pieces (fuel : Nat) (laid : Laid start stop length index keys)
    (behind : ∀ key ∈ done, start key < index) (enough : length - index ≤ fuel) :
    trace start stop length (done ++ keys) choice fuel index =
      pieces start stop length choice index keys := by
  induction fuel generalizing index done keys with
  | zero =>
    have bound := laid.bound
    have empty : (keptRange index length : List (Piece Key)) = [] := by
      unfold keptRange
      rw [show length - index = 0 by omega]
      rfl
    cases laid with
    | nil => exact empty.symm
    | cons before nonempty after =>
      have := after.bound
      omega
  | succ fuel inductionHypothesis =>
    have passed : done.find? (fun key => decide (start key = index)) = none := by
      apply List.find?_eq_none.mpr
      intro key member
      have := behind key member
      rw [decide_eq_true_eq]
      omega
    unfold trace
    rw [List.find?_append, passed, Option.none_or]
    cases laid with
    | nil bound =>
      split_ifs with more
      · have rest := inductionHypothesis (.nil more)
          (fun key member => Nat.lt_succ_of_lt (behind key member)) (by omega)
        rw [List.append_nil] at rest
        simp only [List.find?_nil, pieces] at rest ⊢
        rw [List.append_nil, rest, kept_range_cons more]
      · unfold pieces keptRange
        rw [show length - index = 0 by omega]
        rfl
    | @cons _ key rest before nonempty after =>
      have inside := after.bound
      rw [if_pos (by omega)]
      rcases Nat.lt_or_eq_of_le before with gap | here
      · -- Before the next segment nothing is found.
        have laid : Laid start stop length (index + 1) (key :: rest) := .cons gap nonempty after
        have none : (key :: rest).find? (fun key => decide (start key = index)) = none := by
          apply List.find?_eq_none.mpr
          intro other member
          have := laid.start_le member
          rw [decide_eq_true_eq]
          omega
        rw [none]
        dsimp only
        rw [inductionHypothesis laid (fun key member => Nat.lt_succ_of_lt (behind key member))
          (by omega)]
        simp only [pieces]
        rw [kept_range_cons gap]
        rfl
      · have found : (key :: rest).find? (fun key => decide (start key = index)) = some key := by
          rw [List.find?_cons_of_pos]
          exact decide_eq_true here.symm
        have passed (next : Nat) (later : index < next) :
            ∀ other ∈ done ++ [key], start other < next := by
          intro other member
          rcases List.mem_append.mp member with old | new
          · exact Nat.lt_trans (behind other old) later
          · rw [List.mem_singleton.mp new]
            omega
        have jump := inductionHypothesis after (passed (stop key) (by omega)) (by omega)
        have next := inductionHypothesis (after.earlier (by omega : index + 1 ≤ stop key))
          (passed (index + 1) (by omega)) (by omega)
        rw [List.append_assoc, List.singleton_append] at jump next
        rw [found]
        unfold pieces treat
        rw [here]
        have empty : (keptRange (start key) (start key) : List (Piece Key)) = [] := by
          unfold keptRange
          rw [Nat.sub_self]
          rfl
        rw [empty, List.nil_append]
        cases chosen : choice key with
        | drop => simpa [chosen] using jump
        | replace => simpa [chosen] using jump
        | keep =>
          simp only [chosen]
          rw [here] at next
          rw [next, kept_range_cons nonempty, List.cons_append, ← pieces_earlier after nonempty]

/-- The whole walk, from the first position. -/
theorem trace_all (laid : Laid start stop length 0 keys) :
    trace start stop length keys choice length 0 = pieces start stop length choice 0 keys := by
  have behind : ∀ key ∈ ([] : List Key), start key < 0 := by simp
  exact trace_pieces length laid behind (Nat.le_refl _)

end Walk

section Positions

variable {start stop} {length index : Nat} {key : Key} {keys : List Key} {choice : Key → Choice}

/-- The positions outside the tested segments, segment by segment. -/
theorem filter_hit_cons (test : Key → Bool)
    (laid : Laid start stop length index (key :: keys)) :
    (List.range' index (length - index)).filter
        (fun position => !hit start stop (key :: keys) test position) =
      List.range' index (start key - index) ++
        (if test key then [] else List.range' (start key) (stop key - start key)) ++
        (List.range' (stop key) (length - stop key)).filter
          (fun position => !hit start stop keys test position) := by
  cases laid with
  | cons before nonempty after =>
    have bound := after.bound
    have missed (position : Nat) (early : position < stop key) :
        hit start stop keys test position = false := by
      apply List.any_eq_false.mpr
      intro other member
      have := after.start_le member
      simp only [Bool.and_eq_true, decide_eq_true_eq, not_and]
      omega
    rw [range_append before (by omega), range_append (Nat.le_of_lt nonempty) bound,
      List.filter_append, List.filter_append, ← List.append_assoc]
    congr 1
    · congr 1
      · apply List.filter_eq_self.mpr
        intro position member
        rw [List.mem_range'_1] at member
        have := missed position (by omega)
        unfold hit at this ⊢
        rw [List.any_cons, this]
        simp
        omega
      · split_ifs with tested
        · apply List.filter_eq_nil_iff.mpr
          intro position member
          rw [List.mem_range'_1] at member
          unfold hit
          rw [List.any_cons]
          simp [tested]
          omega
        · apply List.filter_eq_self.mpr
          intro position member
          rw [List.mem_range'_1] at member
          have := missed position (by omega)
          unfold hit at this ⊢
          rw [List.any_cons, this]
          simp [tested]
    · apply List.filter_congr
      intro position member
      rw [List.mem_range'_1] at member
      have outside : ¬ position < stop key := by omega
      unfold hit
      rw [List.any_cons]
      simp [outside]

theorem filter_hit_nil (test : Key → Bool) (positions : List Nat) :
    positions.filter (fun position => !hit start stop [] test position) = positions := by
  apply List.filter_eq_self.mpr
  intro position _
  rfl

theorem span_kept_range (index bound : Nat) :
    (keptRange index bound).flatMap (span start stop) = List.range' index (bound - index) := by
  unfold keptRange
  rw [List.flatMap_map]
  exact List.flatMap_pure_eq_map _ _ |>.trans (List.map_id _)

/-- The pieces stand for the positions outside the dropped segments, in order. -/
theorem pieces_span (laid : Laid start stop length index keys) :
    (pieces start stop length choice index keys).flatMap (span start stop) =
      (List.range' index (length - index)).filter
        (fun position => !hit start stop keys (fun key => choice key = .drop) position) := by
  induction laid with
  | nil bound =>
    rw [filter_hit_nil]
    exact span_kept_range _ _
  | cons before nonempty after inductionHypothesis =>
    rw [filter_hit_cons _ (.cons before nonempty after)]
    unfold pieces treat
    rw [List.flatMap_append, List.flatMap_append, inductionHypothesis, span_kept_range]
    congr 2
    split
    · rename_i chosen
      simp [chosen]
    · rename_i chosen
      simp [chosen, span]
    · rename_i chosen
      simp [chosen, span_kept_range]

theorem kept_index_range (index bound : Nat) :
    (keptRange index bound : List (Piece Key)).filterMap keptIndex =
      List.range' index (bound - index) := by
  unfold keptRange
  rw [List.filterMap_map]
  exact List.filterMap_some

/-- The positions shown by themselves are those outside the replaced and dropped
segments, in order. -/
theorem pieces_kept (laid : Laid start stop length index keys) :
    (pieces start stop length choice index keys).filterMap keptIndex =
      (List.range' index (length - index)).filter
        (fun position => !hit start stop keys (fun key => choice key ≠ .keep) position) := by
  induction laid with
  | nil bound =>
    rw [filter_hit_nil]
    exact kept_index_range _ _
  | cons before nonempty after inductionHypothesis =>
    rw [filter_hit_cons _ (.cons before nonempty after)]
    unfold pieces treat
    rw [List.filterMap_append, List.filterMap_append, inductionHypothesis, kept_index_range]
    congr 2
    split
    · rename_i chosen
      simp [chosen]
    · rename_i chosen
      simp [chosen, keptIndex]
    · rename_i chosen
      simp [chosen, kept_index_range]

/-- Each replaced segment is one piece, in order. -/
theorem pieces_replaced (laid : Laid start stop length index keys) :
    (pieces start stop length choice index keys).filterMap replacedKey =
      keys.filter (fun key => choice key = .replace) := by
  have none (index bound : Nat) :
      (keptRange index bound : List (Piece Key)).filterMap replacedKey = [] := by
    apply List.filterMap_eq_nil_iff.mpr
    intro piece member
    obtain ⟨position, _, rfl⟩ := List.mem_map.mp member
    rfl
  induction laid with
  | nil bound => exact none _ _
  | cons before nonempty after inductionHypothesis =>
    unfold pieces treat
    rw [List.filterMap_append, List.filterMap_append, inductionHypothesis, none, List.nil_append,
      List.filter_cons]
    split
    · rename_i chosen
      simp [chosen]
    · rename_i chosen
      simp [chosen, replacedKey]
    · rename_i chosen
      simp [chosen, none]

theorem mem_kept_index {parts : List (Piece Key)} :
    index ∈ parts.filterMap keptIndex ↔ Piece.kept index ∈ parts := by
  rw [List.mem_filterMap]
  constructor
  · rintro ⟨piece, member, same⟩
    cases piece with
    | kept position =>
      cases same
      exact member
    | replaced key => cases same
  · intro member
    exact ⟨_, member, rfl⟩

theorem mem_replaced_key {parts : List (Piece Key)} :
    key ∈ parts.filterMap replacedKey ↔ Piece.replaced key ∈ parts := by
  rw [List.mem_filterMap]
  constructor
  · rintro ⟨piece, member, same⟩
    cases piece with
    | kept position => cases same
    | replaced other =>
      cases same
      exact member
  · intro member
    exact ⟨_, member, rfl⟩

end Positions

end MinicoreAgent.Segments

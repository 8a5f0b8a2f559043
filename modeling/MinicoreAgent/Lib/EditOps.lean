import MinicoreAgent.Lib.EditScripts

/-!
# Edit operations with positions

An operation says which stretch of the old sequence it replaces by which stretch of
the new one: two equal stretches, a stretch on one side only, or two different
stretches. A walk is a list of operations of which each starts where the previous
one ended on both sides, so its edits read the old and the new sequence between
its ends. Operations on equal stretches may be cut, and leaving some of them out
groups a walk into shorter walks with common stretches between them.
-/
namespace MinicoreAgent.EditOps

open EditScripts

universe u
variable {Item : Type u}

/-- So many items from a position on. -/
def slice (items : List Item) (start len : Nat) : List Item := (items.drop start).take len

@[simp] theorem slice_zero (items : List Item) (start : Nat) : slice items start 0 = [] := by
  simp [slice]

theorem slice_append (items : List Item) (start first second : Nat) :
    slice items start first ++ slice items (start + first) second =
      slice items start (first + second) := by
  rw [slice, slice, slice, List.take_add, List.drop_drop]

theorem slice_length {items : List Item} {start len : Nat} (inside : start + len ≤ items.length) :
    (slice items start len).length = len := by
  rw [slice, List.length_take, List.length_drop]
  omega

/-- A stretch that reaches the end is what is left. -/
theorem slice_rest {items : List Item} {start len : Nat} (whole : start + len = items.length) :
    slice items start len = items.drop start := by
  rw [slice, List.take_of_length_le]
  rw [List.length_drop]
  omega

theorem slice_drop (items : List Item) (start len : Nat) :
    slice items start len ++ items.drop (start + len) = items.drop start := by
  rw [slice, ← List.drop_drop, List.take_append_drop]

/-- A stretch of the old sequence and the stretch of the new one in its place. -/
inductive Op where
  | equal (oldIndex newIndex len : Nat)
  | delete (oldIndex oldLen newIndex : Nat)
  | insert (oldIndex newIndex newLen : Nat)
  | replace (oldIndex oldLen newIndex newLen : Nat)
  deriving DecidableEq, Repr

namespace Op

def oldStart : Op → Nat
  | .equal oldIndex _ _ => oldIndex
  | .delete oldIndex _ _ => oldIndex
  | .insert oldIndex _ _ => oldIndex
  | .replace oldIndex _ _ _ => oldIndex

def newStart : Op → Nat
  | .equal _ newIndex _ => newIndex
  | .delete _ _ newIndex => newIndex
  | .insert _ newIndex _ => newIndex
  | .replace _ _ newIndex _ => newIndex

def oldLen : Op → Nat
  | .equal _ _ len => len
  | .delete _ oldLen _ => oldLen
  | .insert _ _ _ => 0
  | .replace _ oldLen _ _ => oldLen

def newLen : Op → Nat
  | .equal _ _ len => len
  | .delete _ _ _ => 0
  | .insert _ _ newLen => newLen
  | .replace _ _ _ newLen => newLen

def isEqual : Op → Bool
  | .equal _ _ _ => true
  | _ => false

/-- The edits an operation stands for. A replacement removes before it inserts. -/
def edits (old new : List Item) : Op → List (Edit Item)
  | .equal oldIndex _ len => (slice old oldIndex len).map .keep
  | .delete oldIndex oldLen _ => (slice old oldIndex oldLen).map .remove
  | .insert _ newIndex newLen => (slice new newIndex newLen).map .insert
  | .replace oldIndex oldLen newIndex newLen =>
    (slice old oldIndex oldLen).map .remove ++ (slice new newIndex newLen).map .insert

end Op

/-- Two stretches inside both sequences with the same items. -/
structure Stretch (old new : List Item) (oldIndex newIndex len : Nat) : Prop where
  oldInside : oldIndex + len ≤ old.length
  newInside : newIndex + len ≤ new.length
  same : slice old oldIndex len = slice new newIndex len

/-- The operation starts at a position of both sequences and stays inside them, and
what it takes for equal is equal. -/
structure Fits (old new : List Item) (oldIndex newIndex : Nat) (op : Op) : Prop where
  oldStart : op.oldStart = oldIndex
  newStart : op.newStart = newIndex
  oldInside : oldIndex + op.oldLen ≤ old.length
  newInside : newIndex + op.newLen ≤ new.length
  same : op.isEqual = true → slice old oldIndex op.oldLen = slice new newIndex op.newLen

/-- Operations of which each starts where the previous one ended. -/
inductive Walk (old new : List Item) : Nat → Nat → List Op → Nat → Nat → Prop
  | nil {oldIndex newIndex : Nat} : Walk old new oldIndex newIndex [] oldIndex newIndex
  | cons {oldIndex newIndex oldEnd newEnd : Nat} {op : Op} {rest : List Op}
      (fits : Fits old new oldIndex newIndex op)
      (later : Walk old new (oldIndex + op.oldLen) (newIndex + op.newLen) rest oldEnd newEnd) :
      Walk old new oldIndex newIndex (op :: rest) oldEnd newEnd

section Sides

variable {old new : List Item} {oldIndex newIndex oldEnd newEnd : Nat} {op : Op}
  {ops : List Op}

theorem old_side_map (build : Item → Edit Item) (items : List Item) :
    oldSide (items.map build) = items.flatMap (fun item => (build item).old) := by
  simp [oldSide, List.flatMap_map]

theorem new_side_map (build : Item → Edit Item) (items : List Item) :
    newSide (items.map build) = items.flatMap (fun item => (build item).new) := by
  simp [newSide, List.flatMap_map]

theorem Fits.old_side (fits : Fits old new oldIndex newIndex op) :
    oldSide (op.edits old new) = slice old oldIndex op.oldLen := by
  rw [← fits.oldStart]
  cases op with
  | equal first other len => simp [Op.edits, old_side_map, Edit.old, Op.oldStart, Op.oldLen]
  | delete first len other => simp [Op.edits, old_side_map, Edit.old, Op.oldStart, Op.oldLen]
  | insert first other len => simp [Op.edits, old_side_map, Edit.old, Op.oldLen]
  | replace first len other newLen =>
    simp [Op.edits, old_side_append, old_side_map, Edit.old, Op.oldStart, Op.oldLen]

theorem Fits.new_side (fits : Fits old new oldIndex newIndex op) :
    newSide (op.edits old new) = slice new newIndex op.newLen := by
  cases op with
  | equal first other len =>
    -- An equal operation takes its items from the old side.
    rw [← fits.same rfl, ← fits.oldStart]
    simp [Op.edits, new_side_map, Edit.new, Op.oldStart, Op.oldLen]
  | delete first len other => simp [Op.edits, new_side_map, Edit.new, Op.newLen]
  | insert first other len =>
    rw [← fits.newStart]
    simp [Op.edits, new_side_map, Edit.new, Op.newStart, Op.newLen]
  | replace first len other newLen =>
    rw [← fits.newStart]
    simp [Op.edits, new_side_append, new_side_map, Edit.new, Op.newStart, Op.newLen]

/-- A walk goes forward on both sides and stays inside them. -/
theorem Walk.forward (walk : Walk old new oldIndex newIndex ops oldEnd newEnd) :
    oldIndex ≤ oldEnd ∧ newIndex ≤ newEnd ∧
      (oldIndex ≤ old.length → oldEnd ≤ old.length) ∧
      (newIndex ≤ new.length → newEnd ≤ new.length) := by
  induction walk with
  | nil => exact ⟨Nat.le_refl _, Nat.le_refl _, id, id⟩
  | cons fits later inductionHypothesis =>
    obtain ⟨oldForward, newForward, oldInside, newInside⟩ := inductionHypothesis
    refine ⟨by omega, by omega, ?_, ?_⟩
    · intro _
      exact oldInside fits.oldInside
    · intro _
      exact newInside fits.newInside

/-- The edits of a walk read both sequences between its ends. -/
theorem Walk.sides (walk : Walk old new oldIndex newIndex ops oldEnd newEnd) :
    oldSide (ops.flatMap (Op.edits old new)) = slice old oldIndex (oldEnd - oldIndex) ∧
      newSide (ops.flatMap (Op.edits old new)) = slice new newIndex (newEnd - newIndex) := by
  induction walk with
  | nil => simp
  | @cons oldIndex newIndex oldEnd newEnd op rest fits later inductionHypothesis =>
    obtain ⟨oldForward, newForward, -, -⟩ := later.forward
    have oldSplit : oldEnd - oldIndex = op.oldLen + (oldEnd - (oldIndex + op.oldLen)) := by omega
    have newSplit : newEnd - newIndex = op.newLen + (newEnd - (newIndex + op.newLen)) := by omega
    rw [List.flatMap_cons, old_side_append, new_side_append, fits.old_side, fits.new_side,
      inductionHypothesis.1, inductionHypothesis.2, oldSplit, newSplit, slice_append,
      slice_append]
    exact ⟨rfl, rfl⟩

/-- The edits of a walk pass as many items as lie between its ends. -/
theorem Walk.side_lengths (walk : Walk old new oldIndex newIndex ops oldEnd newEnd)
    (oldInside : oldIndex ≤ old.length) (newInside : newIndex ≤ new.length) :
    oldIndex + (oldSide (ops.flatMap (Op.edits old new))).length = oldEnd ∧
      newIndex + (newSide (ops.flatMap (Op.edits old new))).length = newEnd := by
  obtain ⟨oldForward, newForward, oldStays, newStays⟩ := walk.forward
  have oldStop := oldStays oldInside
  have newStop := newStays newInside
  rw [walk.sides.1, walk.sides.2, slice_length (by omega), slice_length (by omega)]
  omega

/-- What a walk leaves of both sequences stands after its edits. -/
theorem Walk.rest (walk : Walk old new oldIndex newIndex ops oldEnd newEnd) :
    old.drop oldIndex = oldSide (ops.flatMap (Op.edits old new)) ++ old.drop oldEnd ∧
      new.drop newIndex = newSide (ops.flatMap (Op.edits old new)) ++ new.drop newEnd := by
  obtain ⟨oldForward, newForward, -, -⟩ := walk.forward
  have oldHere := slice_drop old oldIndex (oldEnd - oldIndex)
  have newHere := slice_drop new newIndex (newEnd - newIndex)
  rw [Nat.add_sub_cancel' oldForward] at oldHere
  rw [Nat.add_sub_cancel' newForward] at newHere
  rw [walk.sides.1, walk.sides.2]
  exact ⟨oldHere.symm, newHere.symm⟩

theorem Walk.append {more : List Op} {oldMiddle newMiddle : Nat}
    (first : Walk old new oldIndex newIndex ops oldMiddle newMiddle)
    (second : Walk old new oldMiddle newMiddle more oldEnd newEnd) :
    Walk old new oldIndex newIndex (ops ++ more) oldEnd newEnd := by
  induction first with
  | nil => exact second
  | cons fits later inductionHypothesis => exact .cons fits (inductionHypothesis second)

theorem Walk.split {more : List Op}
    (walk : Walk old new oldIndex newIndex (ops ++ more) oldEnd newEnd) :
    ∃ oldMiddle newMiddle, Walk old new oldIndex newIndex ops oldMiddle newMiddle ∧
      Walk old new oldMiddle newMiddle more oldEnd newEnd := by
  induction ops generalizing oldIndex newIndex with
  | nil => exact ⟨oldIndex, newIndex, .nil, walk⟩
  | cons op rest inductionHypothesis =>
    cases walk with
    | cons fits later =>
      obtain ⟨oldMiddle, newMiddle, first, second⟩ := inductionHypothesis later
      exact ⟨oldMiddle, newMiddle, .cons fits first, second⟩

/-- A stretch is a walk of one operation. -/
theorem Stretch.walk {len : Nat} (stretch : Stretch old new oldIndex newIndex len) :
    Walk old new oldIndex newIndex [.equal oldIndex newIndex len] (oldIndex + len)
      (newIndex + len) := by
  refine .cons ⟨rfl, rfl, stretch.oldInside, stretch.newInside, ?_⟩ .nil
  intro _
  exact stretch.same

end Sides

section Groups

/-- The second list has the operations of the first, with equal stretches cut. -/
inductive Cut : List Op → List Op → Prop
  | nil : Cut [] []
  | keep {op : Op} {rest pieces : List Op} (later : Cut rest pieces) :
      Cut (op :: rest) (op :: pieces)
  | cut {oldIndex newIndex first len : Nat} {rest pieces : List Op} (within : first ≤ len)
      (later : Cut (.equal (oldIndex + first) (newIndex + first) (len - first) :: rest) pieces) :
      Cut (.equal oldIndex newIndex len :: rest) (.equal oldIndex newIndex first :: pieces)

/-- The groups stand in the list in their order, and only operations on equal
stretches stand between them. -/
inductive Grouped : List Op → List (List Op) → Prop
  | nil {gap : List Op} (equal : ∀ op ∈ gap, op.isEqual = true) : Grouped gap []
  | cons {gap group rest : List Op} {groups : List (List Op)}
      (equal : ∀ op ∈ gap, op.isEqual = true) (later : Grouped rest groups) :
      Grouped (gap ++ (group ++ rest)) (group :: groups)

/-- Walks with common stretches before, between and after them. -/
inductive Chain (old new : List Item) : Nat → Nat → List (List Op) → Nat → Nat → Prop
  | nil {oldIndex newIndex len : Nat} (stretch : Stretch old new oldIndex newIndex len) :
      Chain old new oldIndex newIndex [] (oldIndex + len) (newIndex + len)
  | cons {oldIndex newIndex len oldMiddle newMiddle oldEnd newEnd : Nat} {group : List Op}
      {groups : List (List Op)} (stretch : Stretch old new oldIndex newIndex len)
      (walk : Walk old new (oldIndex + len) (newIndex + len) group oldMiddle newMiddle)
      (later : Chain old new oldMiddle newMiddle groups oldEnd newEnd) :
      Chain old new oldIndex newIndex (group :: groups) oldEnd newEnd

variable {old new : List Item} {oldIndex newIndex oldEnd newEnd : Nat} {ops pieces : List Op}
  {groups : List (List Op)}

/-- Equal items from a position on are equal on every part of the stretch. -/
theorem Stretch.parts {first len : Nat} (within : first ≤ len)
    (stretch : Stretch old new oldIndex newIndex len) :
    Stretch old new oldIndex newIndex first ∧
      Stretch old new (oldIndex + first) (newIndex + first) (len - first) := by
  have oldInside := stretch.oldInside
  have newInside := stretch.newInside
  have same := stretch.same
  have split : len = first + (len - first) := by omega
  rw [split, ← slice_append, ← slice_append] at same
  have lengths : (slice old oldIndex first).length = (slice new newIndex first).length := by
    rw [slice_length (by omega), slice_length (by omega)]
  obtain ⟨before, after⟩ := List.append_inj same lengths
  exact ⟨⟨by omega, by omega, before⟩, ⟨by omega, by omega, after⟩⟩

theorem Fits.stretch {first second len : Nat}
    (fits : Fits old new oldIndex newIndex (.equal first second len)) :
    first = oldIndex ∧ second = newIndex ∧ Stretch old new oldIndex newIndex len :=
  ⟨fits.oldStart, fits.newStart, fits.oldInside, fits.newInside, fits.same rfl⟩

/-- Cutting equal stretches of a walk leaves a walk. -/
theorem Walk.cut (walk : Walk old new oldIndex newIndex ops oldEnd newEnd)
    (cut : Cut ops pieces) : Walk old new oldIndex newIndex pieces oldEnd newEnd := by
  induction cut generalizing oldIndex newIndex with
  | nil => exact walk
  | keep later inductionHypothesis =>
    cases walk with
    | cons fits rest => exact .cons fits (inductionHypothesis rest)
  | @cut startOld startNew first len rest pieces within later inductionHypothesis =>
    cases walk with
    | cons fits after =>
      obtain ⟨rfl, rfl, stretch⟩ := fits.stretch
      obtain ⟨before, behind⟩ := stretch.parts within
      have together : Walk old new (startOld + first) (startNew + first)
          (.equal (startOld + first) (startNew + first) (len - first) :: rest) oldEnd newEnd := by
        apply behind.walk.append
        have oldSame : startOld + first + (len - first) = startOld + len := by omega
        have newSame : startNew + first + (len - first) = startNew + len := by omega
        rw [oldSame, newSame]
        exact after
      exact before.walk.append (inductionHypothesis together)

/-- A walk over equal stretches only is one equal stretch. -/
theorem Walk.stretch (walk : Walk old new oldIndex newIndex ops oldEnd newEnd)
    (equal : ∀ op ∈ ops, op.isEqual = true)
    (oldInside : oldIndex ≤ old.length) (newInside : newIndex ≤ new.length) :
    ∃ len, oldEnd = oldIndex + len ∧ newEnd = newIndex + len ∧
      Stretch old new oldIndex newIndex len := by
  induction walk with
  | nil => exact ⟨0, rfl, rfl, oldInside, newInside, by simp⟩
  | @cons oldIndex newIndex oldEnd newEnd op rest fits later inductionHypothesis =>
    cases op with
    | equal first second len =>
      obtain ⟨rfl, rfl, stretch⟩ := fits.stretch
      obtain ⟨more, rfl, rfl, further⟩ := inductionHypothesis
        (fun other member => equal other (by simp [member])) fits.oldInside fits.newInside
      refine ⟨len + more, Nat.add_assoc _ _ _, Nat.add_assoc _ _ _, ?_, ?_, ?_⟩
      · have inside := further.oldInside
        rw [Op.oldLen] at inside
        omega
      · have inside := further.newInside
        rw [Op.newLen] at inside
        omega
      · have same := further.same
        rw [Op.oldLen, Op.newLen] at same
        rw [← slice_append, ← slice_append, stretch.same, same]
    | delete first len second => cases equal _ (.head _)
    | insert first second len => cases equal _ (.head _)
    | replace first len second newLen => cases equal _ (.head _)

/-- The groups of a walk are walks with common stretches between them. -/
theorem Walk.grouped (walk : Walk old new oldIndex newIndex ops oldEnd newEnd)
    (grouped : Grouped ops groups)
    (oldInside : oldIndex ≤ old.length) (newInside : newIndex ≤ new.length) :
    Chain old new oldIndex newIndex groups oldEnd newEnd := by
  induction grouped generalizing oldIndex newIndex with
  | nil equal =>
    obtain ⟨len, rfl, rfl, stretch⟩ := walk.stretch equal oldInside newInside
    exact .nil stretch
  | cons equal later inductionHypothesis =>
    obtain ⟨oldGap, newGap, gap, after⟩ := walk.split
    obtain ⟨len, rfl, rfl, stretch⟩ := gap.stretch equal oldInside newInside
    obtain ⟨oldMiddle, newMiddle, group, rest⟩ := after.split
    obtain ⟨-, -, oldStays, newStays⟩ := group.forward
    exact .cons stretch group
      (inductionHypothesis rest (oldStays stretch.oldInside) (newStays stretch.newInside))

end Groups

end MinicoreAgent.EditOps

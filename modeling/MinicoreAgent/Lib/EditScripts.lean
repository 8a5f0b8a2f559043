import Mathlib.Data.List.Basic

/-!
# Edit scripts between two sequences

An edit keeps an item, removes an item of the old sequence, or inserts an item of
the new one. A script groups its edits into blocks: what stands before a block and
after the last one is common to both sequences. Reading the kept and removed items
gives the old sequence, and reading the kept and inserted items gives the new one.
-/
namespace MinicoreAgent.EditScripts

universe u

/-- One step from the old sequence to the new one. -/
inductive Edit (Item : Type u) where
  | keep (item : Item)
  | remove (item : Item)
  | insert (item : Item)
  deriving DecidableEq, Repr

variable {Item : Type u}

/-- The items of the old sequence that an edit passes. -/
def Edit.old : Edit Item → List Item
  | .keep item => [item]
  | .remove item => [item]
  | .insert _ => []

/-- The items of the new sequence that an edit passes. -/
def Edit.new : Edit Item → List Item
  | .keep item => [item]
  | .remove _ => []
  | .insert item => [item]

/-- The item an edit is about. -/
def Edit.item : Edit Item → Item
  | .keep item => item
  | .remove item => item
  | .insert item => item

/-- The old side of some edits. -/
def oldSide (edits : List (Edit Item)) : List Item := edits.flatMap Edit.old

/-- The new side of some edits. -/
def newSide (edits : List (Edit Item)) : List Item := edits.flatMap Edit.new

@[simp] theorem old_side_nil : oldSide ([] : List (Edit Item)) = [] := rfl

@[simp] theorem new_side_nil : newSide ([] : List (Edit Item)) = [] := rfl

@[simp] theorem old_side_cons (edit : Edit Item) (rest : List (Edit Item)) :
    oldSide (edit :: rest) = edit.old ++ oldSide rest := rfl

@[simp] theorem new_side_cons (edit : Edit Item) (rest : List (Edit Item)) :
    newSide (edit :: rest) = edit.new ++ newSide rest := rfl

theorem old_side_append (first second : List (Edit Item)) :
    oldSide (first ++ second) = oldSide first ++ oldSide second := by
  simp [oldSide]

theorem new_side_append (first second : List (Edit Item)) :
    newSide (first ++ second) = newSide first ++ newSide second := by
  simp [newSide]

/-- The item of an edit stands on one of its sides. -/
theorem item_on_side {edits : List (Edit Item)} {edit : Edit Item} (member : edit ∈ edits) :
    edit.item ∈ oldSide edits ∨ edit.item ∈ newSide edits := by
  cases edit with
  | keep item => exact .inl (List.mem_flatMap.mpr ⟨_, member, .head _⟩)
  | remove item => exact .inl (List.mem_flatMap.mpr ⟨_, member, .head _⟩)
  | insert item => exact .inr (List.mem_flatMap.mpr ⟨_, member, .head _⟩)

/-- The edits with the positions they start at in both sequences. -/
def placed : Nat → Nat → List (Edit Item) → List (Nat × Nat × Edit Item)
  | _, _, [] => []
  | oldIndex, newIndex, edit :: rest =>
    (oldIndex, newIndex, edit) ::
      placed (oldIndex + edit.old.length) (newIndex + edit.new.length) rest

@[simp] theorem placed_length (oldIndex newIndex : Nat) (edits : List (Edit Item)) :
    (placed oldIndex newIndex edits).length = edits.length := by
  induction edits generalizing oldIndex newIndex with
  | nil => rfl
  | cons edit rest inductionHypothesis => simp [placed, inductionHypothesis]

theorem placed_append (oldIndex newIndex : Nat) (first second : List (Edit Item)) :
    placed oldIndex newIndex (first ++ second) =
      placed oldIndex newIndex first ++
        placed (oldIndex + (oldSide first).length) (newIndex + (newSide first).length) second := by
  induction first generalizing oldIndex newIndex with
  | nil => rfl
  | cons edit rest inductionHypothesis =>
    simp only [List.cons_append, placed, inductionHypothesis, old_side_cons, new_side_cons,
      List.length_append, Nat.add_assoc]

/-- The edits that start somewhere in two sequences and read what stands there find
their items at their positions. -/
theorem placed_items {old new oldRest newRest : List Item} {edits : List (Edit Item)}
    {oldIndex newIndex : Nat} (oldHere : old.drop oldIndex = oldSide edits ++ oldRest)
    (newHere : new.drop newIndex = newSide edits ++ newRest) :
    ∀ place ∈ placed oldIndex newIndex edits,
      (∀ item ∈ place.2.2.old, old[place.1]? = some item) ∧
        (∀ item ∈ place.2.2.new, new[place.2.1]? = some item) := by
  have first {items rest : List Item} {index : Nat} {item : Item}
      (here : items.drop index = item :: rest) :
      items[index]? = some item ∧ items.drop (index + 1) = rest := by
    constructor
    · rw [← List.head?_drop, here]
      rfl
    · rw [← List.drop_drop, here]
      rfl
  induction edits generalizing oldIndex newIndex with
  | nil => intro place member; cases member
  | cons edit rest inductionHypothesis =>
    intro place member
    rcases List.mem_cons.mp member with rfl | later
    · cases edit with
      | keep item => simpa [Edit.old, Edit.new] using ⟨(first oldHere).1, (first newHere).1⟩
      | remove item => simpa [Edit.old, Edit.new] using (first oldHere).1
      | insert item => simpa [Edit.old, Edit.new] using (first newHere).1
    · cases edit with
      | keep item => exact inductionHypothesis (first oldHere).2 (first newHere).2 place later
      | remove item => exact inductionHypothesis (first oldHere).2 newHere place later
      | insert item => exact inductionHypothesis oldHere (first newHere).2 place later

/-- Items common to both sequences, and the edits that follow them. -/
structure Block (Item : Type u) where
  gap : List Item
  edits : List (Edit Item)
  deriving DecidableEq, Repr

namespace Block

def old (block : Block Item) : List Item := block.gap ++ oldSide block.edits

def new (block : Block Item) : List Item := block.gap ++ newSide block.edits

end Block

/-- Blocks of edits, and the common items after the last of them. -/
structure Script (Item : Type u) where
  blocks : List (Block Item)
  tail : List Item
  deriving DecidableEq, Repr

namespace Script

/-- The sequence a script leads from. -/
def old (script : Script Item) : List Item := script.blocks.flatMap Block.old ++ script.tail

/-- The sequence a script leads to. -/
def new (script : Script Item) : List Item := script.blocks.flatMap Block.new ++ script.tail

/-- An edited item of a script is an item of the old or of the new sequence. -/
theorem item_mem {script : Script Item} {block : Block Item} {edit : Edit Item}
    (present : block ∈ script.blocks) (member : edit ∈ block.edits) :
    edit.item ∈ script.old ∨ edit.item ∈ script.new := by
  rcases item_on_side member with onOld | onNew
  · left
    exact List.mem_append_left _
      (List.mem_flatMap.mpr ⟨block, present, List.mem_append_right _ onOld⟩)
  · right
    exact List.mem_append_left _
      (List.mem_flatMap.mpr ⟨block, present, List.mem_append_right _ onNew⟩)

end Script

end MinicoreAgent.EditScripts

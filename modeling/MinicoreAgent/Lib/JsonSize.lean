import Mathlib.Algebra.BigOperators.Group.List.Basic
import Mathlib.Algebra.Order.BigOperators.Group.List
import Mathlib.Algebra.GroupWithZero.Nat
import Mathlib.Algebra.Order.Group.Nat

/-!
# The size of encoded JSON

A value is written without spaces. What a bounded answer needs to know is the number of
bytes it takes, which follows from the sizes of its parts: brackets, one comma between
two items, and a name and a colon before the value of a field.
-/
namespace MinicoreAgent.JsonSize

section Sizes

/-- The bytes of a character inside a string. -/
def escapedLen (char : Char) : Nat :=
  if char.toNat ∈ [0x22, 0x5c, 0x08, 0x09, 0x0a, 0x0c, 0x0d] then 2
  else if char.toNat < 0x20 then 6
  else char.utf8Size

def stringLen (text : List Char) : Nat := 2 + (text.map escapedLen).sum

def numberLen (number : Nat) : Nat := (Nat.toDigits 10 number).length

def boolLen (value : Bool) : Nat := if value then 4 else 5

def arrayLen (items : List Nat) : Nat := 2 + items.sum + (items.length - 1)

/-- The fields of an object, by name and by the size of the value. -/
def objectLen (fields : List (String × Nat)) : Nat :=
  arrayLen (fields.map fun field => stringLen field.1.toList + 1 + field.2)

/-- A field that is left out if there is no value. -/
def optional (name : String) (value : Option Nat) : List (String × Nat) :=
  value.toList.map fun size => (name, size)

/-- The longest beginning of a text whose characters take so many bytes. -/
def textWithin : Nat → List Char → List Char
  | _, [] => []
  | remaining, char :: rest =>
    if remaining < escapedLen char then []
    else char :: textWithin (remaining - escapedLen char) rest

/-- The longest beginning of a text that fits as a string of so many bytes. -/
def stringWithin (text : List Char) (maxEncodedBytes : Nat) : List Char :=
  textWithin (maxEncodedBytes - 2) text

end Sizes

section Facts

@[simp] theorem optional_none (name : String) : optional name none = [] := rfl

@[simp] theorem optional_some (name : String) (size : Nat) :
    optional name (some size) = [(name, size)] := rfl

theorem escaped_len_pos (char : Char) : 0 < escapedLen char := by
  rw [escapedLen]
  split
  · decide
  · split
    · decide
    · exact char.utf8Size_pos

/-- More text takes more bytes. -/
theorem string_len_append (front rest : List Char) :
    stringLen (front ++ rest) = stringLen front + (rest.map escapedLen).sum := by
  rw [stringLen, stringLen, List.map_append, List.sum_append, Nat.add_assoc]

theorem length_le_escaped (text : List Char) : text.length ≤ (text.map escapedLen).sum := by
  induction text with
  | nil => exact Nat.le_refl 0
  | cons char rest inductionHypothesis =>
    have positive := escaped_len_pos char
    rw [List.length_cons, List.map_cons, List.sum_cons]
    omega

theorem array_len_one (item : Nat) : arrayLen [item] = arrayLen [] + item := by
  simp [arrayLen]

/-- A field takes the bytes of its value beside those of its name. -/
theorem object_len_field (front rest : List (String × Nat)) (name : String) (size : Nat) :
    objectLen (front ++ (name, size) :: rest) = objectLen (front ++ (name, 0) :: rest) + size := by
  simp only [objectLen, arrayLen, List.map_append, List.map_cons, List.sum_append, List.sum_cons,
    List.length_append, List.length_cons, List.length_map]
  omega

/-- An object takes the bytes of its values beside those of its names. -/
theorem object_len_values (fields : List (String × Nat)) :
    objectLen fields =
      objectLen (fields.map fun field => (field.1, 0)) + (fields.map Prod.snd).sum := by
  have sums : (fields.map fun field => stringLen field.1.toList + 1 + field.2).sum =
      (fields.map fun field => stringLen field.1.toList + 1 + 0).sum +
        (fields.map Prod.snd).sum := by
    induction fields with
    | nil => rfl
    | cons field rest inductionHypothesis =>
      simp only [List.map_cons, List.sum_cons, inductionHypothesis]
      omega
  simp only [objectLen, arrayLen, List.map_map, List.length_map, Function.comp_def]
  omega

/-- Leaving out items saves bytes. -/
theorem array_len_sublist {fewer items : List Nat} (left : fewer.Sublist items) :
    arrayLen fewer ≤ arrayLen items := by
  have sums := left.sum_le_sum fun item _ => Nat.zero_le item
  have lengths := left.length_le
  rw [arrayLen, arrayLen]
  omega

/-- An object of the same names whose values take no less takes no fewer bytes. -/
theorem object_len_mono {fields larger : List (String × Nat)}
    (each : List.Forall₂ (fun field other => field.1 = other.1 ∧ field.2 ≤ other.2) fields larger) :
    objectLen fields ≤ objectLen larger := by
  have sums : (fields.map fun field => stringLen field.1.toList + 1 + field.2).sum ≤
      (larger.map fun field => stringLen field.1.toList + 1 + field.2).sum := by
    induction each with
    | nil => exact Nat.le_refl _
    | cons first rest inductionHypothesis =>
      obtain ⟨name, size⟩ := first
      rw [List.map_cons, List.map_cons, List.sum_cons, List.sum_cons, name]
      omega
  have lengths := each.length_eq
  rw [objectLen, objectLen, arrayLen, arrayLen, List.length_map, List.length_map]
  omega

theorem object_len_append (fields more : List (String × Nat)) :
    objectLen fields ≤ objectLen (fields ++ more) :=
  array_len_sublist ((List.sublist_append_left fields more).map _)

theorem array_len_cons (item : Nat) (items : List Nat) :
    arrayLen (item :: items) = 2 + (item + items.sum) + items.length := rfl

theorem number_len_le {number digits : Nat} (positive : 0 < digits)
    (small : number < 10 ^ digits) : numberLen number ≤ digits :=
  (Nat.length_toDigits_le_iff (by decide) positive).mpr small

theorem number_len_mono {small large : Nat} (order : small ≤ large) :
    numberLen small ≤ numberLen large := by
  have digits : 0 < numberLen large := Nat.length_toDigits_pos
  have bounded : large < 10 ^ numberLen large :=
    (Nat.length_toDigits_le_iff (by decide) digits).mp (Nat.le_refl _)
  exact number_len_le digits (Nat.lt_of_le_of_lt order bounded)

theorem text_within_begins (remaining : Nat) (text : List Char) :
    textWithin remaining text <+: text := by
  induction text generalizing remaining with
  | nil => exact List.prefix_rfl
  | cons char rest inductionHypothesis =>
    rw [textWithin]
    split
    · exact List.nil_prefix
    · exact (List.prefix_cons_inj char).mpr (inductionHypothesis _)

/-- A beginning that fits takes no more bytes than it may. -/
theorem text_within_fits (remaining : Nat) (text : List Char) :
    ((textWithin remaining text).map escapedLen).sum ≤ remaining := by
  induction text generalizing remaining with
  | nil => exact Nat.zero_le _
  | cons char rest inductionHypothesis =>
    rw [textWithin]
    split
    · exact Nat.zero_le _
    · have later := inductionHypothesis (remaining - escapedLen char)
      rw [List.map_cons, List.sum_cons]
      omega

end Facts

end MinicoreAgent.JsonSize

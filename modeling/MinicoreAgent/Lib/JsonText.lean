import MinicoreAgent.Lib.JsonSize
import MinicoreAgent.Lib.Text

/-!
# Encoded JSON

A value is written without spaces, as `serde_json` does. The length of what is written
follows from the sizes of its parts.
-/
namespace MinicoreAgent.JsonSize

open Text

section Writing

/-- A character inside a string. -/
def escape (char : Char) : List Char :=
  if char.toNat = 0x22 then ['\x5c', '\x22']
  else if char.toNat = 0x5c then ['\x5c', '\x5c']
  else if char.toNat = 0x08 then ['\x5c', 'b']
  else if char.toNat = 0x09 then ['\x5c', 't']
  else if char.toNat = 0x0a then ['\x5c', 'n']
  else if char.toNat = 0x0c then ['\x5c', 'f']
  else if char.toNat = 0x0d then ['\x5c', 'r']
  else if char.toNat < 0x20 then
    ['\x5c', 'u', '0', '0', (char.toNat / 16).digitChar, (char.toNat % 16).digitChar]
  else [char]

def stringText (text : List Char) : List Char := '\x22' :: (text.flatMap escape ++ ['\x22'])

def numberText (number : Nat) : List Char := Nat.toDigits 10 number

def boolText (value : Bool) : List Char := if value then "true".toList else "false".toList

def nullText : List Char := "null".toList

/-- The items after the first one, with the commas before them. -/
def moreText (items : List (List Char)) : List Char := items.flatMap fun item => ',' :: item

/-- The items between two commas. -/
def itemsText : List (List Char) → List Char
  | [] => []
  | item :: rest => item ++ moreText rest

def arrayText (items : List (List Char)) : List Char := '[' :: (itemsText items ++ [']'])

/-- The fields of an object, by name and by what is written as the value. -/
def objectText (fields : List (String × List Char)) : List Char :=
  '\x7b' :: (itemsText (fields.map fun field =>
    stringText field.1.toList ++ ':' :: field.2) ++ ['\x7d'])

/-- A field that is left out if there is no value. -/
def optionalText (name : String) (value : Option (List Char)) : List (String × List Char) :=
  value.toList.map fun text => (name, text)

end Writing

section Lengths

theorem digit_char_size : ∀ digit < 16, digit.digitChar.utf8Size = 1 := by
  decide

theorem escape_len (char : Char) : byteLen (escape char) = escapedLen char := by
  by_cases short : char.toNat ∈ [0x22, 0x5c, 0x08, 0x09, 0x0a, 0x0c, 0x0d]
  · rw [escapedLen, if_pos short]
    simp only [List.mem_cons, List.not_mem_nil, or_false] at short
    rcases short with code | code | code | code | code | code | code <;>
      (rw [escape, code]; rfl)
  · rw [escapedLen, if_neg short]
    simp only [List.mem_cons, List.not_mem_nil, or_false, not_or] at short
    obtain ⟨quote, backslash, backspace, tab, feed, form, ret⟩ := short
    rw [escape, if_neg quote, if_neg backslash, if_neg backspace, if_neg tab, if_neg feed,
      if_neg form, if_neg ret]
    by_cases control : char.toNat < 0x20
    · have high := digit_char_size (char.toNat / 16) (by omega)
      have low := digit_char_size (char.toNat % 16) (by omega)
      rw [if_pos control, if_pos control]
      simp only [byte_len_cons, byte_len_nil, high, low]
      rfl
    · rw [if_neg control, if_neg control, byte_len_cons, byte_len_nil, Nat.add_zero]

theorem byte_len_flat_map {Part : Type} (write : Part → List Char) (parts : List Part) :
    byteLen (parts.flatMap write) = (parts.map fun part => byteLen (write part)).sum := by
  induction parts with
  | nil => rfl
  | cons part rest inductionHypothesis =>
    rw [List.flatMap_cons, byte_len_append, inductionHypothesis, List.map_cons, List.sum_cons]

theorem string_text_len (text : List Char) : byteLen (stringText text) = stringLen text := by
  have quote : Char.utf8Size '\x22' = 1 := rfl
  have escapes : (text.map fun char => byteLen (escape char)) = text.map escapedLen :=
    List.map_congr_left fun char _ => escape_len char
  rw [stringText, byte_len_cons, byte_len_append, byte_len_flat_map, escapes, byte_len_cons,
    byte_len_nil, quote, stringLen]
  omega

theorem number_text_len (number : Nat) : byteLen (numberText number) = numberLen number := by
  have ones : ∀ char ∈ Nat.toDigits 10 number, char.utf8Size = 1 := by
    intro char member
    have digit := Nat.isDigit_of_mem_toDigits (by decide) (Nat.le_refl 10) member
    simp only [Char.isDigit, Bool.and_eq_true, decide_eq_true_eq] at digit
    rw [Char.utf8Size, if_pos (UInt32.le_trans digit.2 (by decide))]
  rw [numberText, byteLen, List.map_congr_left ones, List.map_const',
    List.sum_replicate_nat, Nat.mul_one, numberLen]

theorem bool_text_len (value : Bool) : byteLen (boolText value) = boolLen value := by
  cases value <;> rfl

theorem items_text_len (items : List (List Char)) :
    byteLen (itemsText items) = (items.map byteLen).sum + (items.length - 1) := by
  have comma : Char.utf8Size ',' = 1 := rfl
  cases items with
  | nil => rfl
  | cons item rest =>
    have more : byteLen (moreText rest) = (rest.map byteLen).sum + rest.length := by
      rw [moreText, byte_len_flat_map]
      induction rest with
      | nil => rfl
      | cons item rest inductionHypothesis =>
        rw [List.map_cons, List.sum_cons, inductionHypothesis, byte_len_cons, comma,
          List.map_cons, List.sum_cons, List.length_cons]
        omega
    rw [itemsText, byte_len_append, more, List.map_cons, List.sum_cons, List.length_cons]
    omega

theorem array_text_len (items : List (List Char)) :
    byteLen (arrayText items) = arrayLen (items.map byteLen) := by
  have opens : Char.utf8Size '[' = 1 := rfl
  have closes : Char.utf8Size ']' = 1 := rfl
  rw [arrayText, byte_len_cons, byte_len_append, byte_len_cons, byte_len_nil, items_text_len,
    opens, closes, arrayLen, List.length_map]
  omega

theorem object_text_len (fields : List (String × List Char)) :
    byteLen (objectText fields) =
      objectLen (fields.map fun field => (field.1, byteLen field.2)) := by
  have opens : Char.utf8Size '\x7b' = 1 := rfl
  have closes : Char.utf8Size '\x7d' = 1 := rfl
  have colon : Char.utf8Size ':' = 1 := rfl
  have each : ((fields.map fun field => stringText field.1.toList ++ ':' :: field.2).map byteLen) =
      (fields.map fun field => (field.1, byteLen field.2)).map
        fun field => stringLen field.1.toList + 1 + field.2 := by
    rw [List.map_map, List.map_map]
    apply List.map_congr_left
    intro field _
    simp only [Function.comp_apply, byte_len_append, byte_len_cons, string_text_len, colon]
    omega
  rw [objectText, byte_len_cons, byte_len_append, byte_len_cons, byte_len_nil, items_text_len,
    each, opens, closes, objectLen, arrayLen, List.length_map, List.length_map, List.length_map]
  omega

theorem optional_text_len (name : String) (value : Option (List Char)) :
    (optionalText name value).map (fun field => (field.1, byteLen field.2)) =
      optional name (value.map byteLen) := by
  cases value <;> rfl

end Lengths

end MinicoreAgent.JsonSize

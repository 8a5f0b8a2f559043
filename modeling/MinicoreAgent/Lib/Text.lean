import Mathlib.Algebra.BigOperators.Group.List.Basic
import Mathlib.Algebra.GroupWithZero.Nat

/-!
# Text and its UTF-8 offsets

Text is a sequence of characters. Offsets into it count bytes of its UTF-8
encoding, so only those offsets that lie between two characters cut the text.
-/
namespace MinicoreAgent.Text

/-- The length of the encoded text in bytes. -/
def byteLen (text : List Char) : Nat := (text.map Char.utf8Size).sum

@[simp] theorem byte_len_nil : byteLen [] = 0 := rfl

@[simp] theorem byte_len_cons (char : Char) (rest : List Char) :
    byteLen (char :: rest) = char.utf8Size + byteLen rest := by
  simp [byteLen]

@[simp] theorem byte_len_append (left right : List Char) :
    byteLen (left ++ right) = byteLen left + byteLen right := by
  simp [byteLen]

/-- The longest beginning of the text that takes at most so many bytes: the text
up to the largest cut not beyond the offset. -/
def floorPrefix (limit : Nat) : List Char → List Char
  | [] => []
  | char :: rest =>
    if char.utf8Size ≤ limit then char :: floorPrefix (limit - char.utf8Size) rest else []

/-- The text before and after an offset that lies between two characters. -/
def splitAt : List Char → Nat → Option (List Char × List Char)
  | text, 0 => some ([], text)
  | [], _ + 1 => none
  | char :: rest, offset + 1 =>
    if char.utf8Size ≤ offset + 1 then
      (splitAt rest (offset + 1 - char.utf8Size)).map (fun parts => (char :: parts.1, parts.2))
    else none

/-- `str::is_char_boundary`. -/
def isBoundary (text : List Char) (offset : Nat) : Bool := (splitAt text offset).isSome

/-- `str::floor_char_boundary`. -/
def floorBoundary (text : List Char) (offset : Nat) : Nat := byteLen (floorPrefix offset text)

/-- `char::is_control`. -/
def isControl (char : Char) : Bool :=
  char.toNat < 0x20 || (0x7f ≤ char.toNat && char.toNat < 0xa0)

/-- The encoded text. -/
def encode (text : List Char) : List UInt8 := text.flatMap String.utf8EncodeChar

/-- The bytes of an array in order. -/
theorem to_list_data (bytes : ByteArray) : bytes.toList = bytes.data.toList := by
  have loop (index : Nat) (taken : List UInt8) :
      ByteArray.toList.loop bytes index taken = taken.reverse ++ bytes.data.toList.drop index := by
    fun_induction ByteArray.toList.loop bytes index taken with
    | case1 index taken inside inductionHypothesis =>
      have byte : bytes.data.toList.drop index =
          bytes.get! index :: bytes.data.toList.drop (index + 1) := by
        rw [List.drop_eq_getElem_cons (by simpa using inside)]
        congr 1
        simp [ByteArray.get!, getElem!_pos, inside]
      rw [inductionHypothesis, byte, List.reverse_cons, List.append_assoc]
      rfl
    | case2 index taken outside =>
      rw [List.drop_eq_nil_of_le (by simpa using outside), List.append_nil]
  rw [ByteArray.toList, loop]
  rfl

/-- The bytes of a string whose characters are spelled out. -/
theorem utf8_of_list (characters : List Char) :
    (String.ofList characters).toUTF8.toList = encode characters := by
  rw [to_list_data, String.toUTF8_eq_toByteArray, String.toByteArray_ofList, List.utf8Encode,
    List.toList_data_toByteArray]
  rfl

/-- `str::from_utf8`. -/
def decode (bytes : List UInt8) : Option (List Char) :=
  bytes.toByteArray.utf8Decode?.map Array.toList

section Encoding

theorem encode_append (first second : List Char) :
    encode (first ++ second) = encode first ++ encode second := List.flatMap_append

theorem encode_cons (char : Char) (rest : List Char) :
    encode (char :: rest) = String.utf8EncodeChar char ++ encode rest := List.flatMap_cons

theorem encode_length (text : List Char) : (encode text).length = byteLen text := by
  induction text with
  | nil => rfl
  | cons char rest inductionHypothesis =>
    rw [encode_cons, List.length_append, inductionHypothesis, String.length_utf8EncodeChar,
      byte_len_cons]

theorem high_or (low : UInt8) {high : UInt8} (bit : 0x80 ≤ high) : 0x80 ≤ low ||| high := by
  rw [UInt8.le_iff_toNat_le, UInt8.toNat_or]
  exact Nat.le_trans (UInt8.le_iff_toNat_le.mp bit) Nat.right_le_or

/-- The bytes of a character are one byte, or none of them is ASCII. -/
theorem encoded_char (char : Char) :
    (∃ byte, String.utf8EncodeChar char = [byte]) ∨
      ∀ byte ∈ String.utf8EncodeChar char, 0x80 ≤ byte := by
  match size : char.utf8Size, char.utf8Size_pos, char.utf8Size_le_four with
  | 1, _, _ => exact Or.inl ⟨_, String.utf8EncodeChar_eq_singleton size⟩
  | 2, _, _ =>
    right
    rw [String.utf8EncodeChar_eq_cons_cons size]
    intro byte member
    simp only [List.mem_cons, List.not_mem_nil, or_false] at member
    rcases member with rfl | rfl
    · exact high_or _ (by decide)
    · exact high_or _ (by decide)
  | 3, _, _ =>
    right
    rw [String.utf8EncodeChar_eq_cons_cons_cons size]
    intro byte member
    simp only [List.mem_cons, List.not_mem_nil, or_false] at member
    rcases member with rfl | rfl | rfl
    · exact high_or _ (by decide)
    · exact high_or _ (by decide)
    · exact high_or _ (by decide)
  | 4, _, _ =>
    right
    rw [String.utf8EncodeChar_eq_cons_cons_cons_cons size]
    intro byte member
    simp only [List.mem_cons, List.not_mem_nil, or_false] at member
    rcases member with rfl | rfl | rfl | rfl
    · exact high_or _ (by decide)
    · exact high_or _ (by decide)
    · exact high_or _ (by decide)
    · exact high_or _ (by decide)

/-- A byte below 0x80 is a character of its own. -/
theorem char_of_ascii {char : Char} {byte : UInt8} (ascii : byte < 0x80)
    (member : byte ∈ String.utf8EncodeChar char) : char.toNat = byte.toNat := by
  by_cases single : char.utf8Size = 1
  · rw [String.utf8EncodeChar_eq_singleton single, List.mem_singleton] at member
    have code : char.val.toNat ≤ 127 :=
      UInt32.le_iff_toNat_le.mp (Char.utf8Size_eq_one_iff.mp single)
    have same := congrArg UInt8.toNat member
    rw [UInt32.toNat_toUInt8, Nat.mod_eq_of_lt (by omega)] at same
    exact same.symm
  · rcases encoded_char char with ⟨byte, alone⟩ | high
    · have length := String.length_utf8EncodeChar char
      rw [alone] at length
      exact absurd length.symm single
    · exact absurd (high byte member) (UInt8.not_le.mpr ascii)

theorem zero_mem_encode {text : List Char} (member : 0 ∈ encode text) : '\x00' ∈ text := by
  obtain ⟨char, inside, byte⟩ := List.mem_flatMap.mp member
  have zero : char = '\x00' := Char.toNat_inj.mp (char_of_ascii (by decide) byte)
  rwa [zero] at inside

theorem decode_encode (text : List Char) : decode (encode text) = some text := by
  have same : (encode text).toByteArray = text.utf8Encode := rfl
  rw [decode, same, List.utf8Decode?_utf8Encode]
  rfl

/-- Bytes that are read as text are the encoding of this text. -/
theorem encode_of_decode {bytes : List UInt8} {text : List Char} (read : decode bytes = some text) :
    bytes = encode text := by
  obtain ⟨characters, found, rfl⟩ := Option.map_eq_some_iff.mp read
  have present : bytes.toByteArray.utf8Decode?.isSome := by
    rw [found]
    rfl
  have whole := ByteArray.utf8Encode_get_utf8Decode? (h := present)
  rw [← List.toList_data_toByteArray (l := bytes), ← whole]
  simp only [found, Option.get_some, List.utf8Encode, List.toList_data_toByteArray]
  rfl

end Encoding

section Splitting

variable {text before after : List Char} {offset : Nat}

/-- The two parts make up the text, and the first has as many bytes as the offset. -/
theorem split_at_iff : splitAt text offset = some (before, after) ↔
    text = before ++ after ∧ byteLen before = offset := by
  fun_induction splitAt text offset generalizing before with
  | case1 text =>
    constructor
    · intro split
      cases split
      exact ⟨rfl, rfl⟩
    · rintro ⟨rfl, empty⟩
      cases before with
      | nil => rfl
      | cons char rest =>
        have positive := char.utf8Size_pos
        rw [byte_len_cons] at empty
        omega
  | case2 offset =>
    constructor
    · intro split
      cases split
    · rintro ⟨whole, length⟩
      rw [(List.append_eq_nil_iff.mp whole.symm).1] at length
      cases length
  | case3 char rest offset fits inductionHypothesis =>
    rw [Option.map_eq_some_iff]
    constructor
    · rintro ⟨⟨front, back⟩, split, same⟩
      cases same
      obtain ⟨whole, length⟩ := inductionHypothesis.mp split
      rw [whole, byte_len_cons, length]
      exact ⟨rfl, by omega⟩
    · rintro ⟨whole, length⟩
      cases before with
      | nil => cases length
      | cons first front =>
        obtain ⟨rfl, rfl⟩ := List.cons.inj whole
        rw [byte_len_cons] at length
        exact ⟨(front, after), inductionHypothesis.mpr ⟨rfl, by omega⟩, rfl⟩
  | case4 char rest offset large =>
    constructor
    · intro split
      cases split
    · rintro ⟨whole, length⟩
      cases before with
      | nil => cases length
      | cons first front =>
        obtain ⟨rfl, rfl⟩ := List.cons.inj whole
        rw [byte_len_cons] at length
        omega

theorem is_boundary_iff : isBoundary text offset = true ↔
    ∃ before after, text = before ++ after ∧ byteLen before = offset := by
  unfold isBoundary
  rw [Option.isSome_iff_exists]
  constructor
  · rintro ⟨⟨before, after⟩, split⟩
    rw [split_at_iff] at split
    exact ⟨before, after, split⟩
  · rintro ⟨before, after, parts⟩
    refine ⟨(before, after), ?_⟩
    rw [split_at_iff]
    exact parts

theorem boundary_zero : isBoundary text 0 = true := by
  rw [is_boundary_iff]
  exact ⟨[], text, rfl, rfl⟩

theorem boundary_length : isBoundary text (byteLen text) = true := by
  rw [is_boundary_iff]
  exact ⟨text, [], (List.append_nil text).symm, rfl⟩

theorem boundary_le (boundary : isBoundary text offset = true) : offset ≤ byteLen text := by
  rw [is_boundary_iff] at boundary
  obtain ⟨before, after, rfl, rfl⟩ := boundary
  rw [byte_len_append]
  exact Nat.le_add_right _ _

/-- The text up to a floored offset begins the text and takes no more bytes. -/
theorem floor_prefix_spec (limit : Nat) (text : List Char) :
    floorPrefix limit text <+: text ∧ byteLen (floorPrefix limit text) ≤ limit := by
  induction text generalizing limit with
  | nil => exact ⟨List.nil_prefix, Nat.zero_le limit⟩
  | cons char rest inductionHypothesis =>
    unfold floorPrefix
    split_ifs with fits
    · obtain ⟨begins, short⟩ := inductionHypothesis (limit - char.utf8Size)
      refine ⟨(List.prefix_cons_inj char).mpr begins, ?_⟩
      rw [byte_len_cons]
      omega
    · exact ⟨List.nil_prefix, Nat.zero_le limit⟩

theorem floor_boundary_le (text : List Char) (offset : Nat) : floorBoundary text offset ≤ offset :=
  (floor_prefix_spec offset text).2

theorem floor_is_boundary (text : List Char) (offset : Nat) :
    isBoundary text (floorBoundary text offset) = true := by
  obtain ⟨rest, whole⟩ := (floor_prefix_spec offset text).1
  rw [is_boundary_iff]
  exact ⟨_, rest, whole.symm, rfl⟩

/-- A boundary is its own floor. -/
theorem floor_of_boundary (boundary : isBoundary text offset = true) :
    floorBoundary text offset = offset := by
  rw [is_boundary_iff] at boundary
  obtain ⟨before, after, rfl, rfl⟩ := boundary
  unfold floorBoundary
  induction before with
  | nil =>
    have short := (floor_prefix_spec 0 after).2
    exact Nat.le_zero.mp short
  | cons char front inductionHypothesis =>
    rw [List.cons_append, byte_len_cons, floorPrefix, if_pos (Nat.le_add_right _ _), byte_len_cons,
      Nat.add_sub_cancel_left, inductionHypothesis]

/-- A smaller limit gives a beginning of what a larger one gives. -/
theorem floor_prefix_begins {first second : Nat} (order : first ≤ second) (text : List Char) :
    floorPrefix first text <+: floorPrefix second text := by
  induction text generalizing first second with
  | nil => exact List.prefix_rfl
  | cons char rest inductionHypothesis =>
    unfold floorPrefix
    by_cases small : char.utf8Size ≤ first
    · rw [if_pos small, if_pos (Nat.le_trans small order), List.prefix_cons_inj]
      exact inductionHypothesis (Nat.sub_le_sub_right order char.utf8Size)
    · rw [if_neg small]
      exact List.nil_prefix

theorem floor_prefix_mono {first second : Nat} (order : first ≤ second) (text : List Char) :
    byteLen (floorPrefix first text) ≤ byteLen (floorPrefix second text) := by
  obtain ⟨rest, whole⟩ := floor_prefix_begins order text
  rw [← whole, byte_len_append]
  exact Nat.le_add_right _ _

theorem floor_boundary_mono {first second : Nat} (order : first ≤ second) :
    floorBoundary text first ≤ floorBoundary text second :=
  floor_prefix_mono order text

/-- A text splits at an offset in one way. -/
theorem split_unique {other rest : List Char} (same : before ++ after = other ++ rest)
    (length : byteLen before = byteLen other) : before = other ∧ after = rest := by
  have first : splitAt (before ++ after) (byteLen other) = some (before, after) := by
    rw [split_at_iff]
    exact ⟨rfl, length⟩
  have second : splitAt (before ++ after) (byteLen other) = some (other, rest) := by
    rw [split_at_iff]
    exact ⟨same, rfl⟩
  rw [first] at second
  cases second
  exact ⟨rfl, rfl⟩

end Splitting

end MinicoreAgent.Text

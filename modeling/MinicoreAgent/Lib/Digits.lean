import MinicoreAgent.Lib.Text

/-!
# Decimal numbers of a fixed width

A number is written with leading zeros up to a width. Numbers of one width are ordered as
their digits are, and columns of fixed widths one after another are ordered as the numbers in
them.
-/
namespace MinicoreAgent.Digits

open Text

/-- A number padded with zeros. A longer number is written in full. -/
def pad (width number : Nat) : List Char :=
  List.replicate (width - (Nat.toDigits 10 number).length) '0' ++ Nat.toDigits 10 number

/-- The last digits of a number. -/
def lastDigits : Nat → Nat → List Char
  | 0, _ => []
  | width + 1, number => lastDigits width (number / 10) ++ [Nat.digitChar (number % 10)]

@[simp] theorem last_digits_length (width number : Nat) :
    (lastDigits width number).length = width := by
  induction width generalizing number with
  | zero => rfl
  | succ width inductionHypothesis =>
    rw [lastDigits, List.length_append, inductionHypothesis]
    rfl

theorem last_digits_zero (width : Nat) : lastDigits width 0 = List.replicate width '0' := by
  induction width with
  | zero => rfl
  | succ width inductionHypothesis =>
    rw [lastDigits, Nat.zero_div, inductionHypothesis, List.replicate_succ']
    rfl

/-- A number that fits its width has the digits of that width. -/
theorem pad_eq {width number : Nat} (positive : 0 < width) (fits : number < 10 ^ width) :
    pad width number = lastDigits width number := by
  induction width generalizing number with
  | zero => cases positive
  | succ width inductionHypothesis =>
    rw [pad, lastDigits, Nat.toDigits_eq_if (by decide)]
    split
    · rename_i small
      rw [Nat.div_eq_of_lt small, last_digits_zero, Nat.mod_eq_of_lt small]
      rfl
    · rename_i large
      have inner : 0 < width := by
        rcases Nat.eq_zero_or_pos width with zero | inner
        · rw [zero] at fits
          omega
        · exact inner
      have shorter : number / 10 < 10 ^ width :=
        Nat.div_lt_of_lt_mul (by rw [Nat.pow_succ, Nat.mul_comm] at fits; exact fits)
      have next := inductionHypothesis inner shorter
      rw [← next, pad, List.length_append, List.append_assoc, List.length_singleton,
        Nat.add_sub_add_right]

section Order

/-- Sequences of one length that differ are ordered whatever follows them. -/
theorem append_lt {first second : List Char} (shape : first.length = second.length)
    (less : first < second) (firstRest secondRest : List Char) :
    first ++ firstRest < second ++ secondRest := by
  induction less with
  | nil => cases shape
  | rel less => exact List.Lex.rel less
  | cons _ inductionHypothesis =>
    exact List.Lex.cons (inductionHypothesis (Nat.succ.inj shape))

theorem digit_char_lt {first second : Nat} (less : first < second) (digit : second < 10) :
    Nat.digitChar first < Nat.digitChar second := by
  have all : ∀ second < 10, ∀ first < second, Nat.digitChar first < Nat.digitChar second := by
    decide
  exact all second digit first less

/-- Numbers of one width are ordered as their digits. -/
theorem last_digits_lt {width first second : Nat} (less : first < second)
    (fits : second < 10 ^ width) : lastDigits width first < lastDigits width second := by
  induction width generalizing first second with
  | zero => omega
  | succ width inductionHypothesis =>
    have inner : second / 10 < 10 ^ width :=
      Nat.div_lt_of_lt_mul (by rw [Nat.pow_succ, Nat.mul_comm] at fits; exact fits)
    rw [lastDigits, lastDigits]
    rcases Nat.lt_or_ge (first / 10) (second / 10) with front | back
    · exact append_lt (by rw [last_digits_length, last_digits_length])
        (inductionHypothesis front inner) _ _
    · have same : first / 10 = second / 10 := by omega
      rw [same]
      apply List.append_left_lt
      apply List.Lex.rel
      exact digit_char_lt (by omega) (Nat.mod_lt _ (by decide))

/-- A number of some width, and the mark behind it. -/
structure Column where
  width : Nat
  value : Nat
  mark : Char

def Column.text (column : Column) : List Char :=
  lastDigits column.width column.value ++ [column.mark]

/-- Columns of the same widths and marks that come to a greater value first. -/
inductive Less : List Column → List Column → Prop where
  | here {width first second : Nat} {mark : Char} (less : first < second)
      (fits : second < 10 ^ width) (firstRest secondRest : List Column) :
      Less (⟨width, first, mark⟩ :: firstRest) (⟨width, second, mark⟩ :: secondRest)
  | later (column : Column) {firstRest secondRest : List Column}
      (less : Less firstRest secondRest) :
      Less (column :: firstRest) (column :: secondRest)

theorem Less.text_lt {first second : List Column} (less : Less first second) :
    first.flatMap Column.text < second.flatMap Column.text := by
  induction less with
  | here less fits firstRest secondRest =>
    rw [List.flatMap_cons, List.flatMap_cons, Column.text, Column.text, List.append_assoc,
      List.append_assoc]
    exact append_lt (by rw [last_digits_length, last_digits_length])
      (last_digits_lt less fits) _ _
  | later column _ inductionHypothesis =>
    rw [List.flatMap_cons, List.flatMap_cons]
    exact List.append_left_lt inductionHypothesis

end Order

section Bytes

/-- The bytes of the last digits of a number. -/
def digitBytes : Nat → Nat → List UInt8
  | 0, _ => []
  | width + 1, number => digitBytes width (number / 10) ++ [48 + (number % 10).toUInt8]

@[simp] theorem digit_bytes_length (width number : Nat) :
    (digitBytes width number).length = width := by
  induction width generalizing number with
  | zero => rfl
  | succ width inductionHypothesis =>
    rw [digitBytes, List.length_append, inductionHypothesis]
    rfl

theorem encode_digit {digit : Nat} (small : digit < 10) :
    encode [Nat.digitChar digit] = [48 + digit.toUInt8] := by
  have all : ∀ digit < 10, encode [Nat.digitChar digit] = [48 + digit.toUInt8] := by
    decide +kernel
  exact all digit small

theorem encode_last_digits (width number : Nat) :
    encode (lastDigits width number) = digitBytes width number := by
  induction width generalizing number with
  | zero => rfl
  | succ width inductionHypothesis =>
    rw [lastDigits, encode_append, inductionHypothesis, encode_digit (Nat.mod_lt _ (by decide)),
      digitBytes]

theorem digit_bytes_are (width number : Nat) :
    ∀ byte ∈ digitBytes width number, 48 ≤ byte ∧ byte ≤ 57 := by
  have all : ∀ digit < 10, (48 : UInt8) ≤ 48 + digit.toUInt8 ∧ 48 + digit.toUInt8 ≤ 57 := by
    decide
  induction width generalizing number with
  | zero => exact fun byte member => absurd member List.not_mem_nil
  | succ width inductionHypothesis =>
    intro byte member
    rcases List.mem_append.mp member with front | last
    · exact inductionHypothesis _ byte front
    · rw [List.mem_singleton.mp last]
      exact all _ (Nat.mod_lt _ (by decide))

/-- Reading the digits of a number that fits gives the number back. -/
theorem digit_bytes_value {width number : Nat} (fits : number < 10 ^ width) :
    (digitBytes width number).foldl (fun total byte => 10 * total + (byte.toNat - 48)) 0 =
      number := by
  have all : ∀ digit < 10, (48 + digit.toUInt8).toNat - 48 = digit := by decide
  induction width generalizing number with
  | zero =>
    rw [Nat.pow_zero] at fits
    exact (Nat.lt_one_iff.mp fits).symm
  | succ width inductionHypothesis =>
    have inner : number / 10 < 10 ^ width :=
      Nat.div_lt_of_lt_mul (by rw [Nat.pow_succ, Nat.mul_comm] at fits; exact fits)
    rw [digitBytes, List.foldl_append, inductionHypothesis inner, List.foldl_cons, List.foldl_nil,
      all _ (Nat.mod_lt _ (by decide))]
    exact Nat.div_add_mod number 10

end Bytes

end MinicoreAgent.Digits

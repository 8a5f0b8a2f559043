import Mathlib.Tactic.Common

/-!
# Bytes as Base64 text

An encoding of bytes as text is given by its two directions, of which the second undoes
the first. The standard one writes three bytes as four digits of six bits each; one or two
bytes at the end are written with two or three digits, filled up with padding.
-/
namespace MinicoreAgent.Base64

/-- An encoding of bytes that can be undone. -/
structure Engine where
  encode : List UInt8 → List Char
  decode : List Char → Option (List UInt8)
  empty : encode [] = []
  round : ∀ bytes, decode (encode bytes) = some bytes

section Digits

def alphabet : List Char :=
  "ABCDEFGHIJKLMNOPQRSTUVWXYZabcdefghijklmnopqrstuvwxyz0123456789+/".toList

def digit (value : Nat) : Char := alphabet.getD value '='

def valueOf (char : Char) : Option Nat := alphabet.findIdx? (· = char)

theorem digits_are_read :
    ∀ value < 64, valueOf (digit value) = some value ∧ digit value ≠ '=' := by
  decide

theorem value_of_digit {value : Nat} (small : value < 64) : valueOf (digit value) = some value :=
  (digits_are_read value small).1

theorem digit_not_padding {value : Nat} (small : value < 64) : digit value ≠ '=' :=
  (digits_are_read value small).2

end Digits

section Standard

def encode : List UInt8 → List Char
  | [] => []
  | [first] => [digit (first.toNat / 4), digit (first.toNat % 4 * 16), '=', '=']
  | [first, second] =>
    [digit (first.toNat / 4), digit (first.toNat % 4 * 16 + second.toNat / 16),
      digit (second.toNat % 16 * 4), '=']
  | first :: second :: third :: rest =>
    digit (first.toNat / 4) :: digit (first.toNat % 4 * 16 + second.toNat / 16) ::
      digit (second.toNat % 16 * 4 + third.toNat / 64) :: digit (third.toNat % 64) :: encode rest

/-- The bytes of four digits, of which the last ones may be padding at the end of the text. -/
def decode : List Char → Option (List UInt8)
  | [] => some []
  | first :: second :: third :: fourth :: rest => do
    let a ← valueOf first
    let b ← valueOf second
    if third = '=' then
      if fourth = '=' ∧ rest = [] ∧ b % 16 = 0 then some [UInt8.ofNat (a * 4 + b / 16)] else none
    else
      let c ← valueOf third
      if fourth = '=' then
        if rest = [] ∧ c % 4 = 0 then
          some [UInt8.ofNat (a * 4 + b / 16), UInt8.ofNat (b % 16 * 16 + c / 4)]
        else none
      else
        let d ← valueOf fourth
        let rest ← decode rest
        some (UInt8.ofNat (a * 4 + b / 16) :: UInt8.ofNat (b % 16 * 16 + c / 4) ::
          UInt8.ofNat (c % 4 * 64 + d) :: rest)
  | _ => none

theorem byte_of_parts (byte : UInt8) {value : Nat} (same : value = byte.toNat) :
    UInt8.ofNat value = byte := by
  rw [same, UInt8.ofNat_toNat]

theorem decode_encode (bytes : List UInt8) : decode (encode bytes) = some bytes := by
  fun_induction encode bytes with
  | case1 => rfl
  | case2 first =>
    have bound := first.toNat_lt
    have whole := byte_of_parts first
      (show first.toNat / 4 * 4 + first.toNat % 4 * 16 / 16 = first.toNat by omega)
    rw [decode, value_of_digit (by omega), value_of_digit (by omega)]
    simp only [Option.bind_eq_bind, Option.bind_some, if_true]
    rw [if_pos ⟨trivial, trivial, by omega⟩, whole]
  | case3 first second =>
    have bound := first.toNat_lt
    have more := second.toNat_lt
    have front := byte_of_parts first (show first.toNat / 4 * 4 +
      (first.toNat % 4 * 16 + second.toNat / 16) / 16 = first.toNat by omega)
    have back := byte_of_parts second (show (first.toNat % 4 * 16 + second.toNat / 16) % 16 * 16 +
      second.toNat % 16 * 4 / 4 = second.toNat by omega)
    rw [decode, value_of_digit (by omega), value_of_digit (by omega), value_of_digit (by omega)]
    simp only [Option.bind_eq_bind, Option.bind_some, if_true]
    rw [if_neg (digit_not_padding (by omega)), if_pos ⟨trivial, by omega⟩, front, back]
  | case4 first second third rest inductionHypothesis =>
    have bound := first.toNat_lt
    have more := second.toNat_lt
    have last := third.toNat_lt
    have front := byte_of_parts first (show first.toNat / 4 * 4 +
      (first.toNat % 4 * 16 + second.toNat / 16) / 16 = first.toNat by omega)
    have middle := byte_of_parts second (show
      (first.toNat % 4 * 16 + second.toNat / 16) % 16 * 16 +
        (second.toNat % 16 * 4 + third.toNat / 64) / 4 = second.toNat by omega)
    have back := byte_of_parts third (show (second.toNat % 16 * 4 + third.toNat / 64) % 4 * 64 +
      third.toNat % 64 = third.toNat by omega)
    rw [decode, value_of_digit (by omega), value_of_digit (by omega), value_of_digit (by omega),
      value_of_digit (by omega), inductionHypothesis]
    simp only [Option.bind_eq_bind, Option.bind_some]
    rw [if_neg (digit_not_padding (by omega)), if_neg (digit_not_padding (by omega)), front, middle,
      back]

/-- The standard alphabet with padding. -/
def standard : Engine where
  encode := encode
  decode := decode
  empty := rfl
  round := decode_encode

theorem Engine.decode_nothing (engine : Engine) : engine.decode [] = some [] := by
  have round := engine.round []
  rw [engine.empty] at round
  exact round

end Standard

end MinicoreAgent.Base64

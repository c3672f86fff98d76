import Cooper.MsgBuffer
import Mathlib.Tactic.Common

namespace Cooper.DecimalText

open Cooper.MsgBuffer

def decimalValue (digits : Bytes) : Nat :=
  digits.foldl (fun value c => value * 10 + (c.toNat - 48)) 0

theorem ascii_toString (n : Nat) :
    ascii (toString n) = (Nat.toDigits 10 n).map fun c => c.toNat.toUInt8 := by
  rw [ascii, Nat.toString_eq_repr, Nat.toList_repr]

theorem toString_ne_nil (n : Nat) : ascii (toString n) ≠ [] := by
  rw [ascii_toString]
  simp

theorem toNat_digit {c : Char} (hc : c.isDigit = true) :
    c.toNat.toUInt8.toNat = c.toNat ∧ 48 ≤ c.toNat ∧ c.toNat ≤ 57 := by
  rw [Char.isDigit_iff_toNat] at hc
  refine ⟨?_, hc.1, hc.2⟩
  have hsmall : c.toNat < 2 ^ 8 := lt_of_le_of_lt hc.2 (by decide)
  exact UInt8.toNat_ofNat_of_lt' hsmall

theorem mem_toString {n : Nat} {c : UInt8} (hc : c ∈ ascii (toString n)) : 48 ≤ c ∧ c ≤ 57 := by
  rw [ascii_toString] at hc
  obtain ⟨digit, hdigit, rfl⟩ := List.mem_map.mp hc
  obtain ⟨hcode, hlow, hhigh⟩ :=
    toNat_digit (Nat.isDigit_of_mem_toDigits (by decide) (by decide) hdigit)
  rw [UInt8.le_iff_toNat_le, UInt8.le_iff_toNat_le, hcode]
  exact ⟨hlow, hhigh⟩

theorem foldl_digits {digits : List Char} (hdigits : ∀ c ∈ digits, c.isDigit = true)
    (value : Nat) :
    (digits.map fun c => c.toNat.toUInt8).foldl (fun value c => value * 10 + (c.toNat - 48)) value =
      Nat.ofDigitChars 10 digits value := by
  induction digits generalizing value with
  | nil => rfl
  | cons c digits ih =>
      have hc := (toNat_digit (hdigits c List.mem_cons_self)).1
      rw [List.map_cons, List.foldl_cons, ih fun c hc => hdigits c (List.mem_cons_of_mem _ hc),
        Nat.ofDigitChars_cons, hc, Nat.mul_comm]
      rfl

@[simp] theorem decimalValue_toString (n : Nat) : decimalValue (ascii (toString n)) = n := by
  rw [decimalValue, ascii_toString, foldl_digits]
  · exact Nat.ofDigitChars_ten_toDigits
  · intro c hc
    exact Nat.isDigit_of_mem_toDigits (by decide) (by decide) hc

theorem toString_injective : Function.Injective fun n : Nat => ascii (toString n) := by
  intro n m h
  have hvalue := congrArg decimalValue h
  rwa [decimalValue_toString, decimalValue_toString] at hvalue

end Cooper.DecimalText

import Cooper.Logging
import Cooper.Numeral

namespace Cooper.IntegerConversion

open Cooper.DecimalText
open Cooper.IntegerFormat (decimalText decimalText_eq finish hexDigit hexText length_decimalText_le
  length_hexText_le zero)
open Cooper.Logging (IntegerType)
open Cooper.MsgBuffer
open Cooper.Numeral
open Cooper.Region

def convertTo (t : IntegerType) (i : Int) : Int :=
  if t.isSigned then i.bmod (2 ^ t.bits) else i % (2 ^ t.bits : Nat)

/-- The loop of both functions: `lsd` is an `int`, and `i` a `T`. -/
def digitLoop (t : IntegerType) (digit : Int → Option UInt8) (base : Int) :
    (fuel : Nat) → (cells : Bytes) → (p : Nat) → (i : Int) → Option (Bytes × Nat)
  | 0, _, _, _ => none
  | fuel + 1, cells, p, i =>
      let lsd := convertTo .int (i.tmod base)
      let i := convertTo t (i.tdiv base)
      (digit lsd).bind fun c => (store p [c] cells).bind fun cells =>
        if i ≠ 0 then digitLoop t digit base fuel cells (p + 1) i else some (cells, p + 1)

def convert (t : IntegerType) (cells : Bytes) (buf : Nat) (value : t.Value) :
    Option (Bytes × Nat) :=
  (digitLoop t zero 10 (value.1.natAbs + 1) cells buf value).bind fun r =>
    if value.1 < 0 then (store r.2 [45] r.1).bind fun cells => finish buf cells (r.2 + 1)
    else finish buf r.1 r.2

/-- A `uintptr_t` is an `unsigned long`. -/
def convertHex (cells : Bytes) (buf : Nat) (value : UInt64) : Option (Bytes × Nat) :=
  (digitLoop .unsignedLong hexDigit 16 (value.toNat + 1) cells buf value.toNat).bind fun r =>
    finish buf r.1 r.2

def digitCode (d : Nat) : UInt8 := if d < 10 then (48 + d).toUInt8 else (55 + d).toUInt8

/-- The text of an integer: a minus sign if it is negative, and its digits. -/
def IsText (base : Nat) (value : Int) (text : Bytes) : Prop :=
  ∃ digits, IsNumeral base value.natAbs digits ∧
    text = (if value < 0 then [45] else []) ++ digits.map digitCode

section Arithmetic

variable {t : IntegerType} {i : Int}

theorem convertTo_of_mem (h : t.min ≤ i ∧ i ≤ t.max) : convertTo t i = i := by
  obtain ⟨hmin, hmax⟩ := h
  have hbits : ∃ k, t.bits = k + 1 := by
    cases t <;> exact ⟨_, rfl⟩
  obtain ⟨k, hk⟩ := hbits
  rw [IntegerType.min, hk] at hmin
  rw [IntegerType.max, hk] at hmax
  have hpow : (2 : Int) ^ (k + 1) = 2 * 2 ^ k := by rw [pow_succ, Int.mul_comm]
  rw [convertTo, hk]
  cases hsigned : t.isSigned with
  | true =>
      simp only [hsigned, if_true, Nat.add_sub_cancel] at hmin hmax ⊢
      apply Int.bmod_eq_of_le
      · push_cast
        omega
      · push_cast
        omega
  | false =>
      simp only [hsigned, Bool.false_eq_true, if_false] at hmin hmax ⊢
      apply Int.emod_eq_of_lt hmin
      push_cast
      omega

theorem tdiv_mem (h : t.min ≤ i ∧ i ≤ t.max) (base : Nat) :
    t.min ≤ i.tdiv base ∧ i.tdiv base ≤ t.max := by
  have hzero : t.min ≤ 0 ∧ 0 ≤ t.max := by
    cases t <;> decide
  have hless := Int.natAbs_tdiv_le_natAbs i base
  rcases Int.le_total 0 i with hi | hi
  · have hquotient := Int.tdiv_nonneg hi (Int.natCast_nonneg base)
    omega
  · have hquotient := Int.tdiv_nonneg (Int.neg_nonneg_of_nonpos hi) (Int.natCast_nonneg base)
    rw [Int.neg_tdiv] at hquotient
    omega

theorem tmod_mem {base : Nat} (hpos : 0 < base) (hbase : base ≤ 16) (i : Int) :
    IntegerType.int.min ≤ i.tmod base ∧ i.tmod base ≤ IntegerType.int.max := by
  have hrange : IntegerType.int.min ≤ -16 ∧ 16 ≤ IntegerType.int.max := by decide
  have habs : (i.tmod base).natAbs = i.natAbs % base := Int.natAbs_tmod i base
  have hless := Nat.mod_lt i.natAbs hpos
  omega

theorem digitLoop_eq (digit : Int → Option UInt8) {base : Nat} (hpos : 0 < base)
    (hbase : base ≤ 16) (fuel : Nat) (cells : Bytes) (p : Nat) (h : t.min ≤ i ∧ i ≤ t.max) :
    digitLoop t digit base fuel cells p i = IntegerFormat.digitLoop digit base fuel cells p i := by
  induction fuel generalizing cells p i with
  | zero => rfl
  | succ fuel ih =>
      have hnext := tdiv_mem h base
      rw [digitLoop, IntegerFormat.digitLoop, convertTo_of_mem (tmod_mem hpos hbase i),
        convertTo_of_mem hnext]
      apply congrArg
      funext c
      apply congrArg
      funext cells
      split
      · exact ih cells (p + 1) hnext
      · rfl

end Arithmetic

section Functions

variable (cells : Bytes) (buf : Nat)

theorem convert_eq (t : IntegerType) (value : t.Value) :
    convert t cells buf value = IntegerFormat.convert cells buf value := by
  have hloop : digitLoop t zero 10 (value.1.natAbs + 1) cells buf value =
      IntegerFormat.digitLoop zero 10 (value.1.natAbs + 1) cells buf value :=
    @digitLoop_eq t value zero 10 (by decide) (by decide) _ cells buf value.2
  rw [convert, hloop]
  rfl

theorem convertHex_eq (value : UInt64) :
    convertHex cells buf value = IntegerFormat.convertHex cells buf value := by
  have hrange : IntegerType.unsignedLong.min ≤ value.toNat ∧
      value.toNat ≤ IntegerType.unsignedLong.max := by
    have hlt := value.toNat_lt
    have hmax : IntegerType.unsignedLong.max = 18446744073709551615 := by decide
    have hmin : IntegerType.unsignedLong.min = 0 := rfl
    omega
  have hloop : digitLoop .unsignedLong hexDigit 16 (value.toNat + 1) cells buf value.toNat =
      IntegerFormat.digitLoop hexDigit 16 (value.toNat + 1) cells buf value.toNat :=
    @digitLoop_eq .unsignedLong value.toNat hexDigit 16 (by decide) (by decide) _ cells buf hrange
  rw [convertHex, hloop]
  rfl

end Functions

section Texts

theorem IsText.unique {base : Nat} {value : Int} {text text' : Bytes} (hbase : 1 < base)
    (h : IsText base value text) (h' : IsText base value text') : text = text' := by
  obtain ⟨digits, hdigits, rfl⟩ := h
  obtain ⟨digits', hdigits', rfl⟩ := h'
  rw [hdigits.unique hbase hdigits']

theorem isText_decimalText (value : Int) : IsText 10 value (decimalText value) := by
  obtain ⟨digits, hdigits, htext⟩ := exists_toDigits (show 1 < 10 by decide) value.natAbs
  refine ⟨digits, hdigits, ?_⟩
  rw [decimalText_eq, ascii_toString, htext, List.map_map]
  congr 1
  apply List.map_congr_left
  intro d hd
  have hcode : ∀ d < 10, (Nat.digitChar d).toNat.toUInt8 = digitCode d := by decide
  exact hcode d (hdigits.lt d hd)

theorem isText_hexText (value : UInt64) : IsText 16 value.toNat (hexText value) := by
  obtain ⟨digits, hdigits, htext⟩ := exists_toDigits (show 1 < 16 by decide) value.toNat
  refine ⟨digits, hdigits, ?_⟩
  rw [hexText, htext, List.map_map, if_neg (Int.not_lt.mpr (Int.natCast_nonneg _)), List.nil_append]
  apply List.map_congr_left
  intro d hd
  have hcode : ∀ d < 16, (Nat.digitChar d).toUpper.toNat.toUInt8 = digitCode d := by decide
  exact hcode d (hdigits.lt d hd)

end Texts

/-- Each integer has one text. `convert` writes it with a NUL behind it, and nothing else, returns
its length and never needs more than the size that `formatInteger` reserves; `convertHex` does so
within what `operator<<` reserves behind the `0x`. -/
theorem convert_writes_text :
    (∀ (t : IntegerType) (value : t.Value), ∃ text, IsText 10 value text ∧
      (∀ other, IsText 10 value other → other = text) ∧ text.length + 1 ≤ t.digits10 + 4 ∧
        ∀ cells buf, convert t cells buf value =
          (store buf (text ++ [0]) cells).map fun cells => (cells, text.length)) ∧
    ∀ value : UInt64, ∃ text, IsText 16 value.toNat text ∧
      (∀ other, IsText 16 value.toNat other → other = text) ∧ 2 + (text.length + 1) ≤ 64 / 4 + 4 ∧
        ∀ cells buf, convertHex cells buf value =
          (store buf (text ++ [0]) cells).map fun cells => (cells, text.length) := by
  constructor
  · intro t value
    have htext := isText_decimalText value
    have hlength := length_decimalText_le (Nat.succ_pos _) (Logging.natAbs_lt t value)
    refine ⟨decimalText value, htext, fun other hother => hother.unique (by decide) htext, ?_, ?_⟩
    · omega
    · intro cells buf
      rw [convert_eq, IntegerFormat.convert_eq]
  · intro value
    have htext := isText_hexText value
    have hlength := length_hexText_le value
    refine ⟨hexText value, htext, fun other hother => hother.unique (by decide) htext, ?_, ?_⟩
    · omega
    · intro cells buf
      rw [convertHex_eq, IntegerFormat.convertHex_eq]

end Cooper.IntegerConversion

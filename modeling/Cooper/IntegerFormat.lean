import Cooper.DecimalText
import Cooper.Region
import Mathlib.Algebra.Group.Nat.Defs

namespace Cooper.IntegerFormat

open Cooper.DecimalText
open Cooper.MsgBuffer
open Cooper.Region

def digits : Bytes := ascii "9876543210123456789"

/-- `zero[lsd]`, where `zero` points at the middle of `digits`. -/
def zero (lsd : Int) : Option UInt8 := if -9 ≤ lsd then digits[(lsd + 9).toNat]? else none

def digitsHex : Bytes := ascii "0123456789ABCDEF"

def hexDigit (lsd : Int) : Option UInt8 := if 0 ≤ lsd then digitsHex[lsd.toNat]? else none

/-- The loop of both functions, from `p` on. It leaves `p` behind the last digit. There is no result
when memory outside of `cells` is written to. -/
def digitLoop (digit : Int → Option UInt8) (base : Int) :
    (fuel : Nat) → (cells : Bytes) → (p : Nat) → (i : Int) → Option (Bytes × Nat)
  | 0, _, _, _ => none
  | fuel + 1, cells, p, i =>
      (digit (i.tmod base)).bind fun c =>
        (store p [c] cells).bind fun cells =>
          if i.tdiv base ≠ 0 then digitLoop digit base fuel cells (p + 1) (i.tdiv base)
          else some (cells, p + 1)

/-- The end of both functions: the NUL, and the digits in the order in which they are read. -/
def finish (buf : Nat) (cells : Bytes) (p : Nat) : Option (Bytes × Nat) :=
  (store p [0] cells).map fun cells => (reverse buf p cells, p - buf)

/-- The memory afterwards, and what is returned. -/
def convert (cells : Bytes) (buf : Nat) (value : Int) : Option (Bytes × Nat) :=
  (digitLoop zero 10 (value.natAbs + 1) cells buf value).bind fun r =>
    if value < 0 then (store r.2 [45] r.1).bind fun cells => finish buf cells (r.2 + 1)
    else finish buf r.1 r.2

def convertHex (cells : Bytes) (buf : Nat) (value : UInt64) : Option (Bytes × Nat) :=
  (digitLoop hexDigit 16 (value.toNat + 1) cells buf value.toNat).bind fun r =>
    finish buf r.1 r.2

def digitBytes (digit : Char → UInt8) (base n : Nat) : Bytes :=
  ((Nat.toDigits base n).map digit).reverse

def hexText (value : UInt64) : Bytes :=
  (Nat.toDigits 16 value.toNat).map fun c => c.toUpper.toNat.toUInt8

def decimalText (value : Int) : Bytes := ascii (toString value)

theorem digitBytes_eq (digit : Char → UInt8) {base : Nat} (hbase : 1 < base) (n : Nat) :
    digitBytes digit base n =
      digit (n % base).digitChar :: if n / base = 0 then [] else digitBytes digit base (n / base) := by
  rw [digitBytes, Nat.toDigits_eq_if hbase]
  by_cases hless : n < base
  · rw [if_pos hless, if_pos (Nat.div_eq_of_lt hless), Nat.mod_eq_of_lt hless]
    rfl
  · have hdiv : n / base ≠ 0 := (Nat.div_pos (Nat.not_lt.mp hless) (by omega)).ne'
    rw [if_neg hless, if_neg hdiv, List.map_append, List.reverse_append]
    rfl

theorem digitLoop_eq (table : Int → Option UInt8) (digit : Char → UInt8) (base : Nat)
    (hbase : 1 < base) {P : Int → Prop} (hP : ∀ i, P i → P (i.tdiv base))
    (htable : ∀ i, P i → table (i.tmod base) = some (digit (i.natAbs % base).digitChar))
    {fuel : Nat} {i : Int} (hi : P i) (hfuel : i.natAbs < fuel) (cells : Bytes) (p : Nat) :
    digitLoop table base fuel cells p i =
      (store p (digitBytes digit base i.natAbs) cells).map fun cells =>
        (cells, p + (digitBytes digit base i.natAbs).length) := by
  induction fuel generalizing cells p i with
  | zero => exact absurd hfuel (Nat.not_lt_zero _)
  | succ fuel ih =>
      have hdiv : (i.tdiv base).natAbs = i.natAbs / base := by
        rw [Int.natAbs_tdiv]
        rfl
      rw [digitLoop, htable i hi, Option.bind_some, digitBytes_eq digit hbase]
      by_cases hlast : i.natAbs / base = 0
      · have hzero : i.tdiv base = 0 := Int.natAbs_eq_zero.mp (hdiv.trans hlast)
        rw [if_pos hlast, hzero]
        simp only [ne_eq, not_true_eq_false, if_false]
        rw [Option.map_eq_bind]
        rfl
      · have hmore : i.tdiv base ≠ 0 := fun hzero => hlast (hdiv.symm.trans (by rw [hzero]; rfl))
        have hless : i.natAbs / base < i.natAbs := Nat.div_lt_self (by
          rcases Nat.eq_zero_or_pos i.natAbs with h | h
          · rw [h, Nat.zero_div] at hlast
            exact absurd rfl hlast
          · exact h) hbase
        have hcons (c : UInt8) (ds : Bytes) : store p (c :: ds) cells =
            (store p [c] cells).bind fun cells => store (p + 1) ds cells :=
          (store_append p [c] ds cells).symm
        rw [if_neg hlast, hcons _ (digitBytes digit base (i.natAbs / base)), Option.map_bind]
        apply congrArg
        funext cells
        rw [if_pos hmore, ih (hP i hi) (by omega), hdiv, List.length_cons]
        simp only [Function.comp_apply, Nat.add_assoc, Nat.add_comm 1]

theorem finish_eq (cells : Bytes) (buf : Nat) (text : Bytes) :
    ((store buf text cells).bind fun cells => finish buf cells (buf + text.length)) =
      (store buf (text.reverse ++ [0]) cells).map fun cells => (cells, text.length) := by
  have hfinish : ((store buf text cells).bind fun cells => finish buf cells (buf + text.length)) =
      (store buf (text ++ [0]) cells).map fun cells =>
        (reverse buf (buf + text.length) cells, text.length) := by
    rw [← store_append, Option.map_bind]
    apply congrArg
    funext cells
    rw [finish, Nat.add_sub_cancel_left]
    rfl
  rw [hfinish]
  cases hstore : store buf (text ++ [0]) cells with
  | some cells' =>
      rw [store_reverse hstore]
      rfl
  | none =>
      have hnone : store buf (text.reverse ++ [0]) cells = none := by
        unfold store at hstore ⊢
        rw [List.length_append, List.length_reverse, ← List.length_append]
        exact if_neg fun hfits => absurd (if_pos hfits) (by rw [hstore]; simp)
      rw [hnone]
      rfl

theorem zero_tmod (i : Int) : zero (i.tmod 10) = some (i.natAbs % 10).digitChar.toNat.toUInt8 := by
  have htable : ∀ d < 10, zero (d : Nat) = some (Nat.digitChar d).toNat.toUInt8 ∧
      zero (-(d : Nat)) = some (Nat.digitChar d).toNat.toUInt8 := by decide
  have hdigit := htable (i.natAbs % 10) (Nat.mod_lt _ (by decide))
  have habs : (i.tmod 10).natAbs = i.natAbs % 10 := Int.natAbs_tmod i 10
  rcases Int.natAbs_eq (i.tmod 10) with h | h
  · rw [h, habs]
    exact hdigit.1
  · rw [h, habs]
    exact hdigit.2

theorem hexDigit_tmod {i : Int} (hi : 0 ≤ i) :
    hexDigit (i.tmod 16) = some (i.natAbs % 16).digitChar.toUpper.toNat.toUInt8 := by
  have htable : ∀ d < 16, hexDigit (d : Nat) = some (Nat.digitChar d).toUpper.toNat.toUInt8 := by
    decide
  have hnat : i.tmod 16 = (i.natAbs % 16 : Nat) := by
    rw [Int.tmod_eq_emod_of_nonneg hi]
    omega
  rw [hnat]
  exact htable _ (Nat.mod_lt _ (by decide))

theorem decimalText_eq (value : Int) :
    decimalText value =
      (if value < 0 then [45] else []) ++ ascii (toString value.natAbs) := by
  cases value with
  | ofNat n => rfl
  | negSucc n =>
      rw [if_pos (Int.negSucc_lt_zero n)]
      change ascii ("-" ++ toString (n + 1)) = _
      rw [ascii, String.toList_append, List.map_append]
      rfl

theorem convert_eq (cells : Bytes) (buf : Nat) (value : Int) :
    convert cells buf value =
      (store buf (decimalText value ++ [0]) cells).map fun cells =>
        (cells, (decimalText value).length) := by
  have hloop : digitLoop zero 10 (value.natAbs + 1) cells buf value = _ :=
    digitLoop_eq zero (fun c => c.toNat.toUInt8) 10 (by decide) (P := fun _ => True)
      (fun _ _ => trivial) (fun i _ => zero_tmod i) trivial (Nat.lt_succ_self _) cells buf
  have htext : (digitBytes (fun c => c.toNat.toUInt8) 10 value.natAbs).reverse =
      ascii (toString value.natAbs) := by
    rw [digitBytes, List.reverse_reverse, ascii_toString]
  rw [convert, hloop, decimalText_eq, ← htext, Option.bind_map]
  by_cases hneg : value < 0
  · simp only [Function.comp_def, if_pos hneg]
    rw [← Option.bind_assoc, store_append]
    have hend := finish_eq cells buf (digitBytes (fun c => c.toNat.toUInt8) 10 value.natAbs ++ [45])
    rw [List.length_append, List.length_singleton, List.reverse_append, List.reverse_singleton,
      ← Nat.add_assoc] at hend
    rw [hend, List.length_append, List.length_reverse, List.length_singleton, Nat.add_comm 1]
  · simp only [Function.comp_def, if_neg hneg]
    rw [finish_eq, List.nil_append, List.length_reverse]

theorem convertHex_eq (cells : Bytes) (buf : Nat) (value : UInt64) :
    convertHex cells buf value =
      (store buf (hexText value ++ [0]) cells).map fun cells => (cells, (hexText value).length) := by
  have hloop : digitLoop hexDigit 16 (value.toNat + 1) cells buf value.toNat = _ :=
    digitLoop_eq hexDigit (fun c => c.toUpper.toNat.toUInt8) 16 (by decide) (P := fun i => 0 ≤ i)
      (fun i hi => Int.tdiv_nonneg hi (by decide)) (fun i hi => hexDigit_tmod hi)
      (Int.natCast_nonneg value.toNat) (Nat.lt_succ_self _) cells buf
  have htext : (digitBytes (fun c => c.toUpper.toNat.toUInt8) 16 value.toNat).reverse =
      hexText value := by
    rw [digitBytes, List.reverse_reverse, hexText]
  rw [convertHex, hloop, ← htext, Option.bind_map]
  simp only [Function.comp_def, Int.natAbs_natCast]
  rw [finish_eq, List.length_reverse]

theorem decimalText_ne_nil (value : Int) : decimalText value ≠ [] := by
  rw [decimalText_eq]
  exact List.append_ne_nil_of_right_ne_nil _ (toString_ne_nil _)

theorem length_decimalText_le {value : Int} {k : Nat} (hk : 0 < k) (hvalue : value.natAbs < 10 ^ k) :
    (decimalText value).length ≤ k + 1 := by
  have hdigits : (ascii (toString value.natAbs)).length ≤ k := by
    rw [ascii_toString, List.length_map]
    exact (Nat.length_toDigits_le_iff (by decide) hk).mpr hvalue
  rw [decimalText_eq, List.length_append, Nat.add_comm]
  apply Nat.add_le_add hdigits
  split <;> decide

theorem length_hexText_le (value : UInt64) : (hexText value).length ≤ 16 := by
  rw [hexText, List.length_map]
  exact (Nat.length_toDigits_le_iff (by decide) (by decide)).mpr value.toNat_lt

end Cooper.IntegerFormat

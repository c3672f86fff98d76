import Cooper.Utilities
import Mathlib.Data.Nat.Bitwise

namespace Cooper.ContentTypeTags

open Cooper.MsgBuffer
open Cooper.Utilities

def listedTags : List Nat :=
  [107203, 107206, 110833, 3657597, 3545, 121652, 123000, 129014, 3611448, 3613464, 108255, 111240,
    119225, 123682, 4233056, 117573, 123483, 4074973, 117117, 3864888, 122409, 4042015, 4233085,
    122414, 4042203, 4233073, 128384, 120317, 122598, 4244088, 5837130, 1901, 3615575, 119026,
    3857208, 124562, 123207, 127332, 4443845, 4190355, 127449, 3389, 133699, 4236872]

/-- Take a character back from a tag of 26 bits; the factor is the inverse of 33. -/
def takeBack (c : UInt8) (tag : Nat) : Nat := 34571233 * (tag ^^^ c.toNat) % 67108864

def takeAllBack (s : Bytes) (tag : Nat) : Nat := s.foldr takeBack tag

def next (h : Nat) (c : UInt8) : Nat := (33 * h % 67108864) ^^^ c.toNat

theorem next_lt (h : Nat) (c : UInt8) : next h c < 67108864 := by
  have hc : c.toNat < 2 ^ 26 := c.toNat_lt.trans (by decide)
  exact Nat.xor_lt_two_pow (Nat.mod_lt _ (by decide)) hc

theorem takeBack_lt (c : UInt8) (tag : Nat) : takeBack c tag < 67108864 :=
  Nat.mod_lt _ (by decide)

theorem next_eq_iff {h tag : Nat} (hh : h < 67108864) (htag : tag < 67108864) (c : UInt8) :
    next h c = tag ↔ takeBack c tag = h := by
  constructor
  · rintro rfl
    rw [takeBack, next, Nat.xor_assoc, Nat.xor_self, Nat.xor_zero]
    omega
  · rintro rfl
    have hc : c.toNat < 2 ^ 26 := c.toNat_lt.trans (by decide)
    have hxor : tag ^^^ c.toNat < 67108864 := Nat.xor_lt_two_pow htag hc
    have hmod : 33 * (34571233 * (tag ^^^ c.toNat) % 67108864) % 67108864 = tag ^^^ c.toNat := by
      omega
    rw [next, takeBack, hmod, Nat.xor_assoc, Nat.xor_self, Nat.xor_zero]

theorem toNat_step (h : UInt32) (c : UInt8) :
    ((0x3ffffff &&& h * 33) ^^^ c.toUInt32).toNat = next h.toNat c := by
  have hmask : (0x3ffffff &&& h * 33).toNat = 33 * h.toNat % 67108864 := by
    rw [UInt32.toNat_and, UInt32.toNat_mul, Nat.and_comm]
    change h.toNat * 33 % 2 ^ 32 &&& 2 ^ 26 - 1 = _
    rw [Nat.and_two_pow_sub_one_eq_mod]
    omega
  rw [UInt32.toNat_xor, hmask, UInt8.toNat_toUInt32, next]

theorem str2tagCore_eq_iff (s : Bytes) {h : UInt32} (hh : h.toNat < 67108864) {tag : Nat}
    (htag : tag < 67108864) : (str2tagCore s h).toNat = tag ↔ takeAllBack s tag = h.toNat := by
  induction s generalizing h with
  | nil => exact eq_comm
  | cons c s ih =>
      have hback : takeAllBack s tag < 67108864 := by
        cases s with
        | nil => exact htag
        | cons d s => exact takeBack_lt d _
      rw [str2tagCore, ih (by rw [toNat_step]; exact next_lt _ _), toNat_step, eq_comm]
      exact next_eq_iff hh hback c

theorem listedTags_eq :
    contentTypes.map (fun entry => (str2tag (ascii entry.1)).toNat) = listedTags := by
  decide

theorem str2tag_eq_iff (ext : Bytes) {entry : String × String} (hentry : entry ∈ contentTypes) :
    str2tag (ascii entry.1) = str2tag ext ↔
      takeAllBack ext (str2tag (ascii entry.1)).toNat = 0 := by
  have hsmall : ∀ entry ∈ contentTypes, (str2tag (ascii entry.1)).toNat < 67108864 := by decide
  rw [← UInt32.toNat_inj, eq_comm]
  exact str2tagCore_eq_iff ext (by decide) (hsmall entry hentry)

def Listed (ext : Bytes) : Prop := ∃ entry ∈ contentTypes, ascii entry.1 = ext

theorem findContentType_eq_iff (path : Bytes) :
    findContentType path = ascii "application/octet-stream" ↔
      ∀ tag ∈ listedTags, takeAllBack (fileExtension path) tag ≠ 0 := by
  have htypes : ∀ entry ∈ contentTypes, ascii entry.2 ≠ ascii "application/octet-stream" := by
    decide
  rw [← listedTags_eq, List.forall_mem_map, findContentType]
  cases hfind : contentTypes.find? fun entry =>
      str2tag (ascii entry.1) = str2tag (fileExtension path) with
  | none =>
      refine iff_of_true rfl ?_
      intro entry hentry hzero
      have hne := List.find?_eq_none.mp hfind entry hentry
      exact hne (decide_eq_true ((str2tag_eq_iff _ hentry).mpr hzero))
  | some entry =>
      have hentry := List.mem_of_find?_eq_some hfind
      refine iff_of_false (htypes entry hentry) ?_
      intro hnone
      have hsame : str2tag (ascii entry.1) = str2tag (fileExtension path) := by
        simpa using List.find?_some hfind
      exact hnone entry hentry ((str2tag_eq_iff _ hentry).mp hsame)

/-- The table decides for a path whose extension is not listed only if a listed tag leads back to
the empty string along it. -/
theorem findContentType_unlisted_iff (path : Bytes) :
    (¬Listed (fileExtension path) → findContentType path = ascii "application/octet-stream") ↔
      Listed (fileExtension path) ∨
        ∀ tag ∈ listedTags, takeAllBack (fileExtension path) tag ≠ 0 := by
  rw [findContentType_eq_iff, or_iff_not_imp_left]

/-- `iP` has the tag of `js`. -/
theorem not_findContentType_unlisted :
    fileExtension (ascii "x.iP") = ascii "iP" ∧ ¬Listed (fileExtension (ascii "x.iP")) ∧
      findContentType (ascii "x.iP") = ascii "text/javascript" := by
  have hunlisted : ∀ entry ∈ contentTypes, ascii entry.1 ≠ ascii "iP" := by decide
  have hext : fileExtension (ascii "x.iP") = ascii "iP" := by decide
  refine ⟨hext, ?_, by decide⟩
  rintro ⟨entry, hentry, hsame⟩
  exact hunlisted entry hentry (hsame.trans hext)

end Cooper.ContentTypeTags

import Mathlib.Tactic.Common
import Mathlib.Algebra.Order.Ring.Nat

namespace Cooper.FloatRounding

def ulp (p n : Nat) : Nat := 2 ^ (Nat.log2 n + 1 - p)

/-- Round to the nearest number of the format, and to the one with an even last digit when two are
equally near. -/
def roundToEven (p n : Nat) : Nat :=
  let q := n / ulp p n
  let r := n % ulp p n
  if 2 * r < ulp p n ∨ 2 * r = ulp p n ∧ q % 2 = 0 then q * ulp p n else (q + 1) * ulp p n

variable {p n : Nat}

theorem ulp_of_lt (hp : 0 < p) (hn : n < 2 ^ p) : ulp p n = 1 := by
  have hlog : Nat.log2 n < p := by
    rcases Nat.eq_zero_or_pos n with rfl | hpos
    · exact hp
    · exact (Nat.log2_lt hpos.ne').mpr hn
  rw [ulp, Nat.sub_eq_zero_of_le hlog, pow_zero]

theorem roundToEven_of_lt (hp : 0 < p) (hn : n < 2 ^ p) : roundToEven p n = n := by
  simp [roundToEven, ulp_of_lt hp hn, Nat.mod_one]

theorem two_pow_le_roundToEven (hp : 0 < p) (hn : 2 ^ p ≤ n) : 2 ^ p ≤ roundToEven p n := by
  have hpos : n ≠ 0 := (Nat.lt_of_lt_of_le (Nat.two_pow_pos p) hn).ne'
  have hlog : p ≤ Nat.log2 n := (Nat.le_log2 hpos).mpr hn
  have hulp : ulp p n ∣ 2 ^ Nat.log2 n := pow_dvd_pow 2 (by omega)
  have hfloor : 2 ^ Nat.log2 n ≤ n / ulp p n * ulp p n := by
    calc
      2 ^ Nat.log2 n = 2 ^ Nat.log2 n / ulp p n * ulp p n := (Nat.div_mul_cancel hulp).symm
      _ ≤ n / ulp p n * ulp p n :=
        Nat.mul_le_mul_right _ (Nat.div_le_div_right (Nat.log2_self_le hpos))
  have hlow : 2 ^ p ≤ n / ulp p n * ulp p n := (Nat.pow_le_pow_right (by decide) hlog).trans hfloor
  rw [roundToEven]
  split
  · exact hlow
  · exact hlow.trans (Nat.mul_le_mul_right _ (Nat.le_succ _))

theorem roundToEven_two_pow (hp : 0 < p) : roundToEven p (2 ^ p) = 2 ^ p := by
  have hulp : ulp p (2 ^ p) = 2 := by
    rw [ulp, Nat.log2_two_pow, Nat.add_sub_cancel_left, pow_one]
  have heven := Nat.two_pow_pred_mul_two hp
  simp only [roundToEven, hulp]
  rw [if_pos (Or.inl (by omega))]
  omega

/-- The first number that the format does not have is as near to the number below as to the one
above. -/
theorem roundToEven_two_pow_succ (hp : 1 < p) : roundToEven p (2 ^ p + 1) = 2 ^ p := by
  have hlog : Nat.log2 (2 ^ p + 1) = p := by
    rw [Nat.log2_eq_iff (Nat.succ_ne_zero _), pow_succ]
    have hlarge : 2 ^ 1 ≤ 2 ^ p := Nat.pow_le_pow_right (by decide) hp.le
    omega
  have hulp : ulp p (2 ^ p + 1) = 2 := by
    rw [ulp, hlog, Nat.add_sub_cancel_left, pow_one]
  have heven := Nat.two_pow_pred_mul_two (Nat.lt_of_succ_lt hp)
  have heven' := Nat.two_pow_pred_mul_two (Nat.sub_pos_of_lt hp)
  simp only [roundToEven, hulp]
  rw [if_pos (Or.inr (by omega))]
  omega

section Errors

theorem ulp_dvd_roundToEven (p n : Nat) : ulp p n ∣ roundToEven p n := by
  rw [roundToEven]
  split
  · exact Nat.dvd_mul_left _ _
  · exact Nat.dvd_mul_left _ _

theorem ulp_mul_le (hn : 2 ^ p ≤ n) : ulp p n * 2 ^ p ≤ 2 * n := by
  have hpos : n ≠ 0 := (Nat.lt_of_lt_of_le (Nat.two_pow_pos p) hn).ne'
  have hlog : p ≤ Nat.log2 n := (Nat.le_log2 hpos).mpr hn
  calc
    ulp p n * 2 ^ p = 2 * 2 ^ Nat.log2 n := by
      rw [ulp, ← pow_add, Nat.sub_add_cancel (Nat.le_succ_of_le hlog), pow_succ, Nat.mul_comm]
    _ ≤ 2 * n := Nat.mul_le_mul_left 2 (Nat.log2_self_le hpos)

/-- Rounding errs by half the distance at most. -/
theorem roundToEven_error (p n : Nat) :
    2 * roundToEven p n ≤ 2 * n + ulp p n ∧ 2 * n ≤ 2 * roundToEven p n + ulp p n := by
  have hsplit := Nat.div_add_mod' n (ulp p n)
  have hless : n % ulp p n < ulp p n := Nat.mod_lt n (Nat.two_pow_pos _)
  rw [roundToEven]
  split <;> rename_i hdown
  · omega
  · rw [not_or] at hdown
    rw [Nat.add_mul (n / ulp p n), Nat.one_mul]
    omega

theorem two_pow_mul_roundToEven_le (hp : 0 < p) (n : Nat) :
    2 ^ p * roundToEven p n ≤ (2 ^ p + 1) * n := by
  rcases Nat.lt_or_ge n (2 ^ p) with hlt | hge
  · rw [roundToEven_of_lt hp hlt]
    exact Nat.mul_le_mul_right n (Nat.le_succ _)
  · have herror := Nat.mul_le_mul_left (2 ^ p) (roundToEven_error p n).1
    have hulp := ulp_mul_le hge
    rw [Nat.mul_add, Nat.mul_left_comm, Nat.mul_left_comm (2 ^ p) 2 n,
      Nat.mul_comm (2 ^ p) (ulp p n)] at herror
    rw [Nat.succ_mul]
    omega

theorem ulp_dvd_self_roundToEven (hp : 0 < p) (n : Nat) :
    ulp p (roundToEven p n) ∣ roundToEven p n := by
  rcases Nat.lt_or_ge n (2 ^ p) with hlt | hge
  · rw [roundToEven_of_lt hp hlt, ulp_of_lt hp hlt]
    exact Nat.one_dvd n
  · have hround : roundToEven p n ≠ 0 :=
      (Nat.lt_of_lt_of_le (Nat.two_pow_pos p) (two_pow_le_roundToEven hp hge)).ne'
    have hpos : n ≠ 0 := (Nat.lt_of_lt_of_le (Nat.two_pow_pos p) hge).ne'
    have hlog : p ≤ Nat.log2 n := (Nat.le_log2 hpos).mpr hge
    have htop : 2 ^ (Nat.log2 n + 1) = 2 ^ p * ulp p n := by
      rw [ulp, ← pow_add, Nat.add_sub_cancel' (Nat.le_succ_of_le hlog)]
    have hfloor : n / ulp p n < 2 ^ p := by
      apply Nat.div_lt_of_lt_mul
      rw [Nat.mul_comm, ← htop]
      exact Nat.lt_log2_self
    have hle : roundToEven p n ≤ 2 ^ (Nat.log2 n + 1) := by
      rw [htop, roundToEven]
      split
      · exact Nat.mul_le_mul_right _ hfloor.le
      · exact Nat.mul_le_mul_right _ hfloor
    rcases Nat.eq_or_lt_of_le hle with heq | hlt
    · rw [heq, ulp, Nat.log2_two_pow]
      exact Nat.pow_dvd_pow 2 (by omega)
    · have hlog' := (Nat.log2_lt hround).mpr hlt
      exact (Nat.pow_dvd_pow 2 (by omega)).trans (ulp_dvd_roundToEven p n)

/-- One more is lost where the numbers of the format lie more than two apart. -/
theorem roundToEven_succ (hn : ulp p n ∣ n) (hulp : 2 < ulp p n) : roundToEven p (n + 1) = n := by
  have hpos : n ≠ 0 := by
    rintro rfl
    have hle : ulp p 0 ≤ 2 ^ 1 := Nat.pow_le_pow_right (by decide) (Nat.sub_le _ _)
    omega
  have hless : n < 2 ^ (Nat.log2 n + 1) := Nat.lt_log2_self
  have hdvd : ulp p n ∣ 2 ^ (Nat.log2 n + 1) := Nat.pow_dvd_pow 2 (Nat.sub_le _ _)
  have hnext : n + ulp p n ≤ 2 ^ (Nat.log2 n + 1) := by
    have hgap : ulp p n ∣ 2 ^ (Nat.log2 n + 1) - n := Nat.dvd_sub hdvd hn
    have hle := Nat.le_of_dvd (Nat.sub_pos_of_lt hless) hgap
    omega
  have hlog : Nat.log2 (n + 1) = Nat.log2 n := by
    rw [Nat.log2_eq_iff (Nat.succ_ne_zero n)]
    exact ⟨(Nat.log2_self_le hpos).trans (Nat.le_succ n), by omega⟩
  have hsame : ulp p (n + 1) = ulp p n := by rw [ulp, ulp, hlog]
  have hmod : (n + 1) % ulp p n = 1 := by
    rw [Nat.add_mod, Nat.mod_eq_zero_of_dvd hn, Nat.zero_add, Nat.mod_mod,
      Nat.mod_eq_of_lt (Nat.lt_of_succ_lt hulp)]
  have hsplit := Nat.div_add_mod' (n + 1) (ulp p n)
  simp only [roundToEven, hsame]
  rw [hmod] at hsplit ⊢
  rw [if_pos (Or.inl hulp)]
  omega

end Errors

end Cooper.FloatRounding

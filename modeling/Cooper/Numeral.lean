import Mathlib.Data.Nat.Digits.Defs
import Mathlib.Tactic.Common

namespace Cooper.Numeral

structure IsNumeral (base n : Nat) (digits : List Nat) : Prop where
  lt : ∀ d ∈ digits, d < base
  ne_nil : digits ≠ []
  noLeadingZero : digits.head? = some 0 → digits = [0]
  value : Nat.ofDigits base digits.reverse = n

variable {base n : Nat} {digits digits' : List Nat}

theorem IsNumeral.zero_or_digits (h : IsNumeral base n digits) (hbase : 1 < base) :
    digits = [0] ∨ n ≠ 0 ∧ Nat.digits base n = digits.reverse := by
  by_cases hzero : digits.head? = some 0
  · exact .inl (h.noLeadingZero hzero)
  · right
    have hdigits : Nat.digits base n = digits.reverse := by
      rw [← h.value]
      apply Nat.digits_ofDigits base hbase
      · intro d hd
        exact h.lt d (List.mem_reverse.mp hd)
      · intro hne hlast
        apply hzero
        rw [← List.getLast?_reverse, List.getLast?_eq_some_getLast hne, hlast]
    refine ⟨?_, hdigits⟩
    rintro rfl
    rw [Nat.digits_zero] at hdigits
    exact h.ne_nil (List.reverse_eq_nil_iff.mp hdigits.symm)

theorem IsNumeral.unique (hbase : 1 < base) (h : IsNumeral base n digits)
    (h' : IsNumeral base n digits') : digits = digits' := by
  have hzero {row : List Nat} (hrow : IsNumeral base n row) (heq : row = [0]) : n = 0 := by
    rw [← hrow.value, heq]
    rfl
  rcases h.zero_or_digits hbase with heq | ⟨hne, heq⟩
  · rcases h'.zero_or_digits hbase with heq' | ⟨hne, -⟩
    · rw [heq, heq']
    · exact absurd (hzero h heq) hne
  · rcases h'.zero_or_digits hbase with heq' | ⟨-, heq'⟩
    · exact absurd (hzero h' heq') hne
    · exact List.reverse_inj.mp (heq.symm.trans heq')

theorem isNumeral_singleton {d : Nat} (hd : d < base) : IsNumeral base d [d] where
  lt _ hmem := List.mem_singleton.mp hmem ▸ hd
  ne_nil := List.cons_ne_nil _ _
  noLeadingZero hzero := by rw [Option.some.inj hzero]
  value := Nat.ofDigits_singleton

theorem IsNumeral.snoc (h : IsNumeral base (n / base) digits) (hmore : 0 < n / base)
    (hbase : 0 < base) : IsNumeral base n (digits ++ [n % base]) where
  lt d hmem := by
    rcases List.mem_append.mp hmem with hd | hd
    · exact h.lt d hd
    · rw [List.mem_singleton.mp hd]
      exact Nat.mod_lt n hbase
  ne_nil := List.append_ne_nil_of_left_ne_nil h.ne_nil _
  noLeadingZero hzero := by
    have hhead : digits.head? = some 0 := by
      obtain ⟨d, rest, rfl⟩ := List.exists_cons_of_ne_nil h.ne_nil
      exact hzero
    have hvalue := h.value
    rw [h.noLeadingZero hhead] at hvalue
    exact absurd hvalue hmore.ne
  value := by
    rw [List.reverse_append, List.reverse_singleton, List.singleton_append, Nat.ofDigits_cons,
      h.value]
    exact Nat.mod_add_div n base

theorem exists_toDigits (hbase : 1 < base) (n : Nat) :
    ∃ digits, IsNumeral base n digits ∧ Nat.toDigits base n = digits.map Nat.digitChar := by
  induction n using Nat.strongRecOn with
  | ind n ih =>
      rw [Nat.toDigits_eq_if hbase]
      split
      · rename_i hless
        exact ⟨[n], isNumeral_singleton hless, rfl⟩
      · rename_i hmore
        have hpos : 0 < n / base := Nat.div_pos (Nat.not_lt.mp hmore) (by omega)
        obtain ⟨digits, hdigits, htext⟩ := ih (n / base) (Nat.div_lt_self (by omega) hbase)
        refine ⟨digits ++ [n % base], hdigits.snoc hpos (by omega), ?_⟩
        rw [htext, List.map_append]
        rfl

end Cooper.Numeral

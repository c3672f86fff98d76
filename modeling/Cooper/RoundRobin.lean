import Mathlib.Data.Int.CardIntervalMod
import Mathlib.Data.List.Nodup

namespace Cooper.RoundRobin

variable {α : Type*} {l xs : List α}

def next (n i : Nat) : Nat := if i + 1 ≥ n then 0 else i + 1

theorem next_mod {n : Nat} (hn : 0 < n) (m : Nat) : next n (m % n) = (m + 1) % n := by
  have hlt := Nat.mod_lt m hn
  rw [next, ← Nat.mod_add_mod]
  split <;> rename_i hge
  · rw [show m % n + 1 = n by omega, Nat.mod_self]
  · exact (Nat.mod_eq_of_lt (by omega)).symm

/-- The elements of `xs` are those of `l` in turns. -/
def Turns (l xs : List α) : Prop := ∀ k x, xs[k]? = some x → l[k % l.length]? = some x

theorem turns_nil (l : List α) : Turns l [] := by
  intro k x hx
  cases hx

theorem Turns.concat (h : Turns l xs) {x : α} (hx : l[xs.length % l.length]? = some x) :
    Turns l (xs ++ [x]) := by
  intro k y hy
  rcases lt_trichotomy k xs.length with hk | rfl | hk
  · rw [List.getElem?_append_left hk] at hy
    exact h k y hy
  · rw [List.getElem?_concat_length] at hy
    rw [hx, hy]
  · rw [List.getElem?_eq_none (by simp; omega)] at hy
    cases hy

theorem Turns.of_concat {x : α} (h : Turns l (xs ++ [x])) :
    Turns l xs ∧ l[xs.length % l.length]? = some x := by
  constructor
  · intro k y hy
    have hk := (List.getElem?_eq_some_iff.mp hy).1
    exact h k y (by rw [List.getElem?_append_left hk, hy])
  · exact h xs.length x List.getElem?_concat_length

theorem Turns.count_eq [DecidableEq α] (h : Turns l xs) (hnodup : l.Nodup) {j : Nat}
    (hj : j < l.length) : xs.count l[j] = Nat.count (· ≡ j [MOD l.length]) xs.length := by
  induction xs using List.reverseRecOn with
  | nil => simp
  | append_singleton xs x ih =>
      obtain ⟨hturns, hx⟩ := h.of_concat
      obtain ⟨hlt, hx⟩ := List.getElem?_eq_some_iff.mp hx
      have hturn : x = l[j] ↔ xs.length ≡ j [MOD l.length] := by
        rw [← hx, hnodup.getElem_inj_iff, Nat.ModEq, Nat.mod_eq_of_lt hj]
      rw [List.count_append, ih hturns, List.length_append, List.length_singleton, Nat.count_succ,
        List.count_singleton]
      simp only [beq_iff_eq, hturn]

theorem Turns.count [DecidableEq α] (h : Turns l xs) (hnodup : l.Nodup) {j : Nat}
    (hj : j < l.length) :
    xs.count l[j] =
      xs.length / l.length + if j < xs.length % l.length then 1 else 0 := by
  rw [h.count_eq hnodup hj, Nat.count_modEq_card _ (by omega), Nat.mod_eq_of_lt hj]

end Cooper.RoundRobin

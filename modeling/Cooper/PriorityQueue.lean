import Mathlib.Data.List.Sort
import Mathlib.Data.Multiset.AddSub
import Mathlib.Order.Basic

namespace Cooper

universe u v

structure PriorityQueue (α : Type u) {κ : Type v} [LinearOrder κ] (key : α → κ) where
  Carrier : Type u
  empty : Carrier
  push : Carrier → α → Carrier
  top : Carrier → Option α
  pop : Carrier → Carrier
  contents : Carrier → Multiset α
  contents_empty : contents empty = 0
  contents_push : ∀ q a, contents (push q a) = a ::ₘ contents q
  contents_of_top_none : ∀ q, top q = none → contents q = 0
  contents_pop : ∀ q a, top q = some a → a ::ₘ contents (pop q) = contents q
  key_top_le : ∀ q a, top q = some a → ∀ b ∈ contents q, key a ≤ key b

namespace PriorityQueue

variable {α : Type u} {κ : Type v} [LinearOrder κ] {key : α → κ} (queue : PriorityQueue α key)

def popBelow (bound : κ) : (fuel : Nat) → queue.Carrier → List α × queue.Carrier
  | 0, q => ([], q)
  | fuel + 1, q =>
      match queue.top q with
      | none => ([], q)
      | some a =>
          if key a < bound then
            let rest := popBelow bound fuel (queue.pop q)
            (a :: rest.1, rest.2)
          else ([], q)

variable {queue}

theorem mem_contents_of_top {q : queue.Carrier} {a : α} (h : queue.top q = some a) :
    a ∈ queue.contents q := by
  rw [← queue.contents_pop q a h]
  exact Multiset.mem_cons_self a _

theorem top_eq_none_iff {q : queue.Carrier} : queue.top q = none ↔ queue.contents q = 0 := by
  constructor
  · exact queue.contents_of_top_none q
  · intro h
    cases htop : queue.top q with
    | none => rfl
    | some a =>
        have hmem := mem_contents_of_top htop
        rw [h] at hmem
        exact absurd hmem (Multiset.notMem_zero a)

theorem key_top_push_of_none {q : queue.Carrier} {a b : α} (hq : queue.top q = none)
    (h : queue.top (queue.push q a) = some b) : key b = key a := by
  have hmem := mem_contents_of_top h
  rw [queue.contents_push, top_eq_none_iff.mp hq] at hmem
  rw [Multiset.mem_singleton.mp hmem]

theorem key_top_push_of_some {q : queue.Carrier} {a b c : α} (hq : queue.top q = some c)
    (h : queue.top (queue.push q a) = some b) : key b = min (key a) (key c) := by
  have hleast := queue.key_top_le _ b h
  rw [queue.contents_push] at hleast
  apply le_antisymm
  · exact le_min (hleast a (Multiset.mem_cons_self _ _))
      (hleast c (Multiset.mem_cons_of_mem (mem_contents_of_top hq)))
  · have hmem := mem_contents_of_top h
    rw [queue.contents_push] at hmem
    rcases Multiset.mem_cons.mp hmem with rfl | hmem
    · exact min_le_left _ _
    · exact (min_le_right _ _).trans (queue.key_top_le q c hq b hmem)

theorem popBelow_spec (bound : κ) (fuel : Nat) (q : queue.Carrier)
    (hfuel : (queue.contents q).card ≤ fuel) :
    queue.contents q =
        ((queue.popBelow bound fuel q).1 : Multiset α) +
          queue.contents (queue.popBelow bound fuel q).2 ∧
      (queue.popBelow bound fuel q).1.Pairwise (key · ≤ key ·) ∧
      (∀ a ∈ (queue.popBelow bound fuel q).1, key a < bound) ∧
      ∀ a ∈ queue.contents (queue.popBelow bound fuel q).2, bound ≤ key a := by
  induction fuel generalizing q with
  | zero =>
      have hempty : queue.contents q = 0 := Multiset.card_eq_zero.mp (by omega)
      simp [popBelow, hempty]
  | succ fuel ih =>
      cases htop : queue.top q with
      | none => simp [popBelow, htop, top_eq_none_iff.mp htop]
      | some a =>
          have hpop := queue.contents_pop q a htop
          have hleast := queue.key_top_le q a htop
          by_cases ha : key a < bound
          · have hcard : (queue.contents (queue.pop q)).card ≤ fuel := by
              rw [← hpop, Multiset.card_cons] at hfuel
              omega
            obtain ⟨hcontents, hsorted, hbelow, habove⟩ := ih (queue.pop q) hcard
            simp only [popBelow, htop, if_pos ha]
            refine ⟨?_, ?_, ?_, habove⟩
            · rw [← hpop, ← Multiset.cons_coe, Multiset.cons_add, ← hcontents]
            · refine List.pairwise_cons.mpr ⟨?_, hsorted⟩
              intro b hb
              apply hleast
              rw [← hpop, hcontents]
              exact Multiset.mem_cons_of_mem (Multiset.mem_add.mpr (Or.inl hb))
            · intro b hb
              rcases List.mem_cons.mp hb with rfl | hb
              · exact ha
              · exact hbelow b hb
          · simp only [popBelow, htop, if_neg ha]
            refine ⟨by simp, List.Pairwise.nil, by simp, ?_⟩
            intro b hb
            exact (not_lt.mp ha).trans (hleast b hb)

section Sorted

variable (key)

def insertSorted (a : α) : List α → List α
  | [] => [a]
  | b :: l => if key b ≤ key a then b :: insertSorted a l else a :: b :: l

theorem insertSorted_perm (a : α) (l : List α) : (insertSorted key a l).Perm (a :: l) := by
  induction l with
  | nil => rfl
  | cons b l ih =>
      rw [insertSorted]
      split
      · exact (List.Perm.cons b ih).trans (List.Perm.swap a b l)
      · rfl

theorem insertSorted_pairwise (a : α) {l : List α} (hl : l.Pairwise (key · ≤ key ·)) :
    (insertSorted key a l).Pairwise (key · ≤ key ·) := by
  induction l with
  | nil => exact List.pairwise_singleton _ a
  | cons b l ih =>
      obtain ⟨hb, htail⟩ := List.pairwise_cons.mp hl
      rw [insertSorted]
      split <;> rename_i hba
      · refine List.pairwise_cons.mpr ⟨?_, ih htail⟩
        intro c hc
        rcases List.mem_cons.mp ((insertSorted_perm key a l).mem_iff.mp hc) with rfl | hc
        · exact hba
        · exact hb c hc
      · refine List.pairwise_cons.mpr ⟨?_, hl⟩
        intro c hc
        rcases List.mem_cons.mp hc with rfl | hc
        · exact (not_le.mp hba).le
        · exact (not_le.mp hba).le.trans (hb c hc)

/-- Sorted lists are priority queues that are first in, first out among equal keys. -/
def sorted : PriorityQueue α key where
  Carrier := { l : List α // l.Pairwise (key · ≤ key ·) }
  empty := ⟨[], List.Pairwise.nil⟩
  push q a := ⟨insertSorted key a q.1, insertSorted_pairwise key a q.2⟩
  top q := q.1.head?
  pop q := ⟨q.1.tail, q.2.tail⟩
  contents q := (q.1 : Multiset α)
  contents_empty := rfl
  contents_push q a := Multiset.coe_eq_coe.mpr (insertSorted_perm key a q.1)
  contents_of_top_none q h := by
    rw [List.head?_eq_none_iff] at h
    rw [h]
    rfl
  contents_pop q a h := by
    obtain ⟨l, hl⟩ := List.head?_eq_some_iff.mp h
    simp only [hl, List.tail_cons, Multiset.cons_coe]
  key_top_le q a h b hb := by
    obtain ⟨l, hl⟩ := List.head?_eq_some_iff.mp h
    have hsorted := q.2
    rw [hl] at hsorted
    rw [hl, Multiset.mem_coe] at hb
    rcases List.mem_cons.mp hb with rfl | hb
    · exact le_refl _
    · exact List.rel_of_pairwise_cons hsorted hb

end Sorted

end PriorityQueue

end Cooper

import Mathlib.Data.Set.Insert
import Mathlib.Tactic.Common

/-!
A calendar of references that are dropped at a fixed tick. What a timer service must do is to behave
like one: a reference that is entered for a tick is dropped at that tick, and entering it changes
nothing else, whatever happens in between.
-/

namespace Cooper.Calendar

variable {ι : Type*}

@[ext] structure DueTable (ι : Type*) where
  now : Nat
  /-- The references that are held, with the ticks at which they are dropped. -/
  due : Set (Nat × ι)
  dropped : Set (Nat × ι)

def DueTable.add (c : DueTable ι) (p : Nat × ι) : DueTable ι := { c with due := insert p c.due }

/-- The next tick: what is due is dropped, and references are entered. -/
def DueTable.advance (c : DueTable ι) (added : Set (Nat × ι)) : DueTable ι where
  now := c.now + 1
  due := { p ∈ c.due | p.1 ≠ c.now + 1 } ∪ added
  dropped := c.dropped ∪ { p ∈ c.due | p.1 = c.now + 1 }

def DueTable.credit (c : DueTable ι) (p : Nat × ι) : DueTable ι :=
  if p.1 ≤ c.now then { c with dropped := insert p c.dropped } else c.add p

theorem DueTable.credit_of_lt {c : DueTable ι} {p : Nat × ι} (hp : c.now < p.1) :
    c.credit p = c.add p := if_neg (Nat.not_le.mpr hp)

theorem DueTable.mem_credit_dropped (c : DueTable ι) (p q : Nat × ι) :
    q ∈ (c.credit p).dropped ↔ q ∈ c.dropped ∨ q = p ∧ q.1 ≤ c.now := by
  unfold DueTable.credit
  by_cases hp : p.1 ≤ c.now
  · rw [if_pos hp, Set.mem_insert_iff, or_comm]
    refine or_congr_right ?_
    constructor
    · rintro rfl
      exact ⟨rfl, hp⟩
    · exact And.left
  · rw [if_neg hp]
    refine (or_iff_left ?_).symm
    rintro ⟨rfl, hq⟩
    exact hp hq

theorem DueTable.add_credit (c : DueTable ι) (p q : Nat × ι) :
    (c.credit p).add q = (c.add q).credit p := by
  unfold DueTable.credit
  rw [show (c.add q).now = c.now from rfl]
  split
  · rfl
  · exact DueTable.ext rfl (Set.insert_comm q p c.due) rfl

theorem DueTable.advance_insert (c : DueTable ι) (p : Nat × ι) (added : Set (Nat × ι)) :
    c.advance (insert p added) = (c.advance added).add p :=
  DueTable.ext rfl Set.union_insert rfl

theorem DueTable.advance_credit (c : DueTable ι) (p : Nat × ι) (added : Set (Nat × ι)) :
    (c.credit p).advance added = (c.advance added).credit p := by
  unfold DueTable.credit
  rw [show (c.advance added).now = c.now + 1 from rfl]
  rcases Nat.lt_trichotomy p.1 (c.now + 1) with hp | hp | hp
  · rw [if_pos (by omega), if_pos (by omega)]
    exact DueTable.ext rfl rfl (Set.insert_union ..)
  · -- The reference is due in this tick.
    rw [if_neg (by omega), if_pos (by omega)]
    have hkept : { q ∈ insert p c.due | q.1 ≠ c.now + 1 } = { q ∈ c.due | q.1 ≠ c.now + 1 } :=
      Set.insert_inter_of_notMem (not_not.mpr hp)
    have hdue : { q ∈ insert p c.due | q.1 = c.now + 1 } =
        insert p { q ∈ c.due | q.1 = c.now + 1 } := Set.insert_inter_of_mem hp
    refine DueTable.ext rfl ?_ ?_
    · simp only [DueTable.advance, DueTable.add, hkept]
    · simp only [DueTable.advance, DueTable.add, hdue, Set.union_insert]
  · rw [if_neg (by omega), if_neg (by omega)]
    have hkept : { q ∈ insert p c.due | q.1 ≠ c.now + 1 } =
        insert p { q ∈ c.due | q.1 ≠ c.now + 1 } := Set.insert_inter_of_mem (Nat.ne_of_gt hp)
    have hdue : { q ∈ insert p c.due | q.1 = c.now + 1 } = { q ∈ c.due | q.1 = c.now + 1 } :=
      Set.insert_inter_of_notMem (Nat.ne_of_gt hp)
    refine DueTable.ext rfl ?_ ?_
    · simp only [DueTable.advance, DueTable.add, hkept, Set.insert_union]
    · simp only [DueTable.advance, DueTable.add, hdue]

end Cooper.Calendar

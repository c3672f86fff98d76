import Cooper.WheelDeadline

namespace Cooper.WheelDestruction

open Cooper.Calendar
open Cooper.Wheel
open Cooper.WheelDeadline

variable {ι : Type*} [DecidableEq ι]

section Destructor

/-- `clear` of `wheels_[i]`, which destroys its buckets. -/
def clear (w : TimingWheel ι) (i : Nat) : TimingWheel ι :=
  ((List.range w.bucketsNumPerWheel).flatMap (w.wheels i)).foldl release
    { w with wheels := fun i' k => if i' = i then [] else w.wheels i' k }

def destroyLoop : Nat → TimingWheel ι → TimingWheel ι
  | 0, w => w
  | i + 1, w => destroyLoop i (clear w i)

def destroy (w : TimingWheel ι) : TimingWheel ι := destroyLoop w.wheelsNum w

end Destructor

section Wheels

variable {w : TimingWheel ι}

/-- The users' entries that a wheel holds, in callbacks or not. -/
def heldIn (w : TimingWheel ι) (i : Nat) : Set ι := { id | ∃ k, ∃ e ∈ w.wheels i k, e.user = id }

theorem heldIn_put (i k : Nat) (e : Entry ι) :
    heldIn (put w i k e) i = insert e.user (heldIn w i) := by
  ext id
  constructor
  · rintro ⟨k', e', hmem, rfl⟩
    rcases mem_put.mp hmem with hmem | ⟨-, rfl⟩
    · exact .inr ⟨k', e', hmem, rfl⟩
    · exact .inl rfl
  · rintro (rfl | ⟨k', e', hmem, rfl⟩)
    · exact ⟨k, e, mem_put.mpr (.inr ⟨⟨rfl, rfl⟩, rfl⟩), rfl⟩
    · exact ⟨k', e', mem_put.mpr (.inl hmem), rfl⟩

theorem foldl_release_below {i : Nat} (hi : i < w.wheelsNum) (hw : Placed w)
    {tmp : EntryBucket ι} (htmp : ∀ e ∈ tmp, Fits (i + 1) e) :
    SameClock w (tmp.foldl release w) ∧ Placed (tmp.foldl release w) ∧
      (tmp.foldl release w).dropped = w.dropped ∧
      (∀ i', i' ≠ i → (tmp.foldl release w).wheels i' = w.wheels i') ∧
      heldIn (tmp.foldl release w) i = heldIn w i ∪ { id | ∃ e ∈ tmp, e.user = id } := by
  induction tmp generalizing w with
  | nil => exact ⟨.refl w, hw, rfl, fun _ _ => rfl, by simp⟩
  | cons e tmp ih =>
      have he := htmp e List.mem_cons_self
      cases e with
      | entry id => exact he.elim
      | callback delay j t e =>
          obtain ⟨hpos, rfl, hfits⟩ := he
          obtain ⟨hclock, hplaced, hdropped, hothers, hheld⟩ := ih
            (w := put w j ((delay + t % w.bucketsNumPerWheel - 1) % w.bucketsNumPerWheel) e) hi
            (hw.put hi (Nat.mod_lt _ (buckets_pos w)) hfits)
            fun e' he' => htmp e' (List.mem_cons_of_mem _ he')
          rw [List.foldl_cons, release, if_pos hpos]
          refine ⟨⟨hclock.1, hclock.2, hclock.3⟩, hplaced, hdropped, fun i' hne => ?_, ?_⟩
          · rw [hothers i' hne]
            funext k
            simp [put, hne]
          · rw [hheld, heldIn_put]
            ext id
            simp only [Set.mem_union, Set.mem_insert_iff, Set.mem_ofPred_eq, List.mem_cons,
              exists_eq_or_imp, Entry.user]
            tauto

omit [DecidableEq ι] in
theorem mem_flatMap_range (hw : Placed w) (i : Nat) (e : Entry ι) :
    e ∈ (List.range w.bucketsNumPerWheel).flatMap (w.wheels i) ↔ ∃ k, e ∈ w.wheels i k := by
  rw [List.mem_flatMap]
  constructor
  · rintro ⟨k, -, hmem⟩
    exact ⟨k, hmem⟩
  · rintro ⟨k, hmem⟩
    exact ⟨k, List.mem_range.mpr (hw.fits i k e hmem).2.1, hmem⟩

omit [DecidableEq ι] in
theorem Placed.without (hw : Placed w) (i : Nat) :
    Placed { w with wheels := fun i' k => if i' = i then [] else w.wheels i' k } := by
  constructor
  · intro i' k e hmem
    dsimp only at hmem
    split at hmem
    · cases hmem
    · exact hw.fits i' k e hmem
  · intro k
    dsimp only
    split
    · exact List.nodup_nil
    · exact hw.nodup k

theorem clear_zero (hw : Placed w) :
    (∀ i k, (clear w 0).wheels i k = if i = 0 then [] else w.wheels i k) ∧
      ∃ due : List (Nat × ι), (clear w 0).dropped = w.dropped ++ due ∧
        (∀ p ∈ due, p.1 = w.ticksCounter) ∧ ∀ id, (∃ p ∈ due, p.2 = id) ↔ id ∈ heldIn w 0 := by
  have hmem := mem_flatMap_range hw 0
  have hclear := foldl_release_users
    (w := { w with wheels := fun i' k => if i' = 0 then [] else w.wheels i' k })
    ((List.range w.bucketsNumPerWheel).flatMap (w.wheels 0)) fun e he => by
      obtain ⟨k, hk⟩ := (hmem e).mp he
      exact (hw.fits 0 k e hk).2.2
  rw [clear, hclear]
  refine ⟨fun _ _ => rfl, _, rfl, fun p hp => ?_, fun id => ?_⟩
  · obtain ⟨e, -, rfl⟩ := List.mem_map.mp hp
    rfl
  · constructor
    · rintro ⟨p, hp, rfl⟩
      obtain ⟨e, he, rfl⟩ := List.mem_map.mp hp
      obtain ⟨k, hk⟩ := (hmem e).mp he
      exact ⟨k, e, hk, rfl⟩
    · rintro ⟨k, e, hk, rfl⟩
      exact ⟨_, List.mem_map_of_mem ((hmem e).mpr ⟨k, hk⟩), rfl⟩

theorem clear_succ {j : Nat} (hj : j + 1 ≤ w.wheelsNum) (hw : Placed w) :
    SameClock w (clear w (j + 1)) ∧ Placed (clear w (j + 1)) ∧
      (clear w (j + 1)).dropped = w.dropped ∧
      (∀ i, i ≠ j → ∀ k, (clear w (j + 1)).wheels i k = if i = j + 1 then [] else w.wheels i k) ∧
      heldIn (clear w (j + 1)) j = heldIn w j ∪ heldIn w (j + 1) := by
  have hmem := mem_flatMap_range hw (j + 1)
  have hfits : ∀ e ∈ (List.range w.bucketsNumPerWheel).flatMap (w.wheels (j + 1)),
      Fits (j + 1) e := by
    intro e he
    obtain ⟨k, hk⟩ := (hmem e).mp he
    exact (hw.fits (j + 1) k e hk).2.2
  obtain ⟨hclock, hplaced, hdropped, hothers, hheld⟩ := foldl_release_below
    (w := { w with wheels := fun i' k => if i' = j + 1 then [] else w.wheels i' k })
    hj (Placed.without hw (j + 1)) hfits
  rw [← clear] at hclock hplaced hdropped hothers hheld
  refine ⟨⟨hclock.1, hclock.2, hclock.3⟩, hplaced, hdropped, fun i hi k => ?_, ?_⟩
  · rw [hothers i hi]
  · rw [hheld]
    congr 1
    · simp only [heldIn, if_neg (Nat.ne_of_lt (Nat.lt_succ_self j))]
    · ext id
      constructor
      · rintro ⟨e, he, rfl⟩
        obtain ⟨k, hk⟩ := (hmem e).mp he
        exact ⟨k, e, hk, rfl⟩
      · rintro ⟨k, e, hk, rfl⟩
        exact ⟨e, (hmem e).mpr ⟨k, hk⟩, rfl⟩

omit [DecidableEq ι] in
theorem heldIn_congr {w' : TimingWheel ι} {i i' : Nat} (h : ∀ k, w'.wheels i' k = w.wheels i k) :
    heldIn w' i' = heldIn w i := by
  simp only [heldIn, h]

/-- What the destructor does when the wheels from `n` on are cleared. -/
theorem destroyLoop_spec (n : Nat) (hn : n ≤ w.wheelsNum) (hw : Placed w)
    (habove : ∀ i, n ≤ i → ∀ k, w.wheels i k = []) :
    (∀ i k, (destroyLoop n w).wheels i k = []) ∧
      ∃ due : List (Nat × ι), (destroyLoop n w).dropped = w.dropped ++ due ∧
        (∀ p ∈ due, p.1 = w.ticksCounter) ∧
        ∀ id, (∃ p ∈ due, p.2 = id) ↔ ∃ i < n, id ∈ heldIn w i := by
  induction n generalizing w with
  | zero => exact ⟨fun i => habove i (Nat.zero_le i), [], by simp [destroyLoop], by simp, by simp⟩
  | succ n ih =>
      rw [destroyLoop]
      cases n with
      | zero =>
          obtain ⟨hwheels, due, hdue, htick, husers⟩ := clear_zero hw
          rw [destroyLoop]
          refine ⟨fun i k => ?_, due, hdue, htick, fun id => ?_⟩
          · rw [hwheels]
            split
            · rfl
            · exact habove i (by omega) k
          · rw [husers]
            constructor
            · exact fun hid => ⟨0, Nat.one_pos, hid⟩
            · rintro ⟨i, hi, hid⟩
              obtain rfl : i = 0 := by omega
              exact hid
      | succ j =>
          obtain ⟨hclock, hplaced, hdropped, hothers, hheld⟩ := clear_succ (Nat.le_of_succ_le hn) hw
          have hcleared : ∀ i, j + 1 ≤ i → ∀ k, (clear w (j + 1)).wheels i k = [] := by
            intro i hi k
            rw [hothers i (by omega)]
            split
            · rfl
            · exact habove i (by omega) k
          obtain ⟨hall, due, hdue, htick, husers⟩ :=
            ih (by rw [hclock.wheelsNum]; omega) hplaced hcleared
          refine ⟨hall, due, by rw [hdue, hdropped], ?_, fun id => ?_⟩
          · exact fun p hp => (htick p hp).trans hclock.ticksCounter
          · rw [husers]
            have hbelow : ∀ i < j, heldIn (clear w (j + 1)) i = heldIn w i := by
              intro i hi
              refine heldIn_congr fun k => ?_
              rw [hothers i (by omega), if_neg (by omega)]
            constructor
            · rintro ⟨i, hi, hid⟩
              rcases Nat.lt_or_eq_of_le (Nat.le_of_lt_succ hi) with hlt | rfl
              · exact ⟨i, by omega, hbelow i hlt ▸ hid⟩
              · rw [hheld] at hid
                rcases hid with hid | hid
                · exact ⟨i, by omega, hid⟩
                · exact ⟨i + 1, by omega, hid⟩
            · rintro ⟨i, hi, hid⟩
              rcases Nat.lt_or_ge i j with hlt | hge
              · exact ⟨i, by omega, (hbelow i hlt).symm ▸ hid⟩
              · refine ⟨j, Nat.lt_succ_self j, ?_⟩
                rw [hheld]
                obtain rfl | rfl : i = j ∨ i = j + 1 := by omega
                · exact .inl hid
                · exact .inr hid

end Wheels

section Runs

variable {w : TimingWheel ι}

/-- The users' entries that an operation inserts. -/
def inserted : WheelOp ι → Set ι
  | .insertEntry delay id => { x | 0 < delay ∧ x = id }
  | .tick calls => { x | ∃ call ∈ calls, 0 < call.1 ∧ x = call.2 }

/-- The users' entries that have come to be in a calendar. -/
def users (c : DueTable ι) : Set ι := { id | ∃ t, (t, id) ∈ c.due ∨ (t, id) ∈ c.dropped }

omit [DecidableEq ι] in
theorem users_calendarStep (w : TimingWheel ι) (c : DueTable ι) (op : WheelOp ι) :
    users (calendarStep w c op) = users c ∪ inserted op := by
  cases op with
  | insertEntry delay id =>
      rw [calendarStep]
      split <;> rename_i hdelay
      · simp [inserted, hdelay]
      · ext x
        simp only [users, DueTable.add, inserted, Set.mem_ofPred_eq, Set.mem_union,
          Set.mem_insert_iff, Prod.mk.injEq]
        constructor
        · rintro ⟨t, (⟨-, rfl⟩ | ht) | ht⟩
          · exact .inr ⟨Nat.pos_of_ne_zero hdelay, rfl⟩
          · exact .inl ⟨t, .inl ht⟩
          · exact .inl ⟨t, .inr ht⟩
        · rintro (⟨t, ht | ht⟩ | ⟨-, rfl⟩)
          · exact ⟨t, .inl (.inr ht)⟩
          · exact ⟨t, .inr ht⟩
          · exact ⟨_, .inl (.inl ⟨rfl, rfl⟩)⟩
  | tick calls =>
      ext x
      simp only [users, calendarStep, DueTable.advance, inserted, entered, Set.mem_ofPred_eq,
        Set.mem_union, Prod.mk.injEq]
      constructor
      · rintro ⟨t, (⟨ht, -⟩ | ⟨call, hcall, hpos, -, rfl⟩) | ht | ⟨ht, -⟩⟩
        · exact .inl ⟨t, .inl ht⟩
        · exact .inr ⟨call, hcall, hpos, rfl⟩
        · exact .inl ⟨t, .inr ht⟩
        · exact .inl ⟨t, .inl ht⟩
      · rintro (⟨t, ht | ht⟩ | ⟨call, hcall, hpos, rfl⟩)
        · by_cases hnow : t = c.now + 1
          · exact ⟨t, .inr (.inr ⟨ht, hnow⟩)⟩
          · exact ⟨t, .inl (.inl ⟨ht, hnow⟩)⟩
        · exact ⟨t, .inr (.inl ht)⟩
        · exact ⟨_, .inl (.inr ⟨call, hcall, hpos, rfl, rfl⟩)⟩

theorem users_run (hw : Placed w) (ops : List (WheelOp ι)) :
    Placed (run w ops) ∧
      users (calendar (run w ops)) = users (calendar w) ∪ { id | ∃ op ∈ ops, id ∈ inserted op } := by
  induction ops generalizing w with
  | nil => exact ⟨hw, by simp [run]⟩
  | cons op ops ih =>
      obtain ⟨-, hplaced, hcalendar⟩ := calendar_step hw op
      obtain ⟨hrun, husers⟩ := ih hplaced
      refine ⟨hrun, husers.trans ?_⟩
      rw [hcalendar, users_calendarStep, Set.union_assoc]
      congr 1
      ext id
      simp

/-- When a wheel is destroyed, after whatever has been done with it, it leaves no reference behind:
each entry that has been inserted has been dropped, and no other. -/
theorem run_destroy {bucketsNumPerWheel wheelsNum : Nat} (hbuckets : 1 < bucketsNumPerWheel)
    (hwheels : 0 < wheelsNum) (ops : List (WheelOp ι)) :
    let w := run (create bucketsNumPerWheel wheelsNum hbuckets hwheels) ops
    (∀ i k, (destroy w).wheels i k = []) ∧
      (∃ due : List (Nat × ι), (destroy w).dropped = w.dropped ++ due ∧
        ∀ p ∈ due, p.1 = w.ticksCounter) ∧
      ∀ id, (∃ p ∈ (destroy w).dropped, p.2 = id) ↔ ∃ op ∈ ops, id ∈ inserted op := by
  intro w
  have hcreated := (kept_create (ι := ι) bucketsNumPerWheel wheelsNum hbuckets hwheels).placed
  obtain ⟨hplaced, husers⟩ := users_run hcreated ops
  have habove : ∀ i, w.wheelsNum ≤ i → ∀ k, w.wheels i k = [] := by
    intro i hi k
    refine List.eq_nil_iff_forall_not_mem.mpr fun e he => ?_
    exact absurd (hplaced.fits i k e he).1 (Nat.not_lt.mpr hi)
  obtain ⟨hempty, due, hdue, htick, hids⟩ := destroyLoop_spec w.wheelsNum le_rfl hplaced habove
  refine ⟨hempty, ⟨due, hdue, htick⟩, fun id => ?_⟩
  have hid : id ∈ users (calendar w) ↔ ∃ op ∈ ops, id ∈ inserted op := by
    rw [husers]
    simp [users, calendar, pendingAt, create]
  rw [← hid]
  constructor
  · rintro ⟨p, hp, rfl⟩
    rw [show (destroy w).dropped = w.dropped ++ due from hdue, List.mem_append] at hp
    rcases hp with hp | hp
    · exact ⟨p.1, .inr hp⟩
    · obtain ⟨i, -, k, e, he, huser⟩ := (hids p.2).mp ⟨p, hp, rfl⟩
      exact ⟨_, .inl ⟨i, k, e, he, Prod.ext rfl huser.symm⟩⟩
  · rintro ⟨t, ⟨i, k, e, he, heq⟩ | hdropped⟩
    · obtain ⟨-, rfl⟩ := Prod.mk.inj heq
      obtain ⟨p, hp, hid⟩ := (hids e.user).mpr ⟨i, (hplaced.fits i k e he).1, k, e, he, rfl⟩
      exact ⟨p, hdue ▸ List.mem_append_right _ hp, hid⟩
    · exact ⟨(t, id), hdue ▸ List.mem_append_left _ hdropped, rfl⟩

theorem run_destroy_three :
    ∃ p ∈ (destroy (run (create 2 3 (by decide) (by decide))
      [.insertEntry 5 9, .tick [(1, 8)]])).dropped, p.2 = 9 :=
  ((run_destroy (by decide) (by decide) _).2.2 9).mpr
    ⟨.insertEntry 5 9, List.mem_cons_self, by decide, rfl⟩

end Runs

end Cooper.WheelDestruction

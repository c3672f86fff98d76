import Cooper.Calendar
import Cooper.Wheel
import Mathlib.Algebra.Order.Ring.Nat
import Mathlib.Data.List.Nodup
import Mathlib.Data.Nat.Basic

namespace Cooper.WheelDeadline

open Cooper.Calendar
open Cooper.Wheel

variable {ι : Type*}

/-- Wheel `i` may hold the reference: one to a user's entry inside as many callbacks as there are
wheels below. -/
def Fits : Nat → Entry ι → Prop
  | 0, .entry _ => True
  | i + 1, .callback delay j _ entryPtr => 0 < delay ∧ j = i ∧ Fits i entryPtr
  | _, _ => False

/-- The ticks from the drop of a reference to the drop of the user's entry inside. -/
def remaining (buckets : Nat) : Entry ι → Nat
  | .entry _ => 0
  | .callback delay i t entryPtr =>
      buckets ^ i * ((delay + t % buckets - 1) % buckets + 1) + remaining buckets entryPtr

/-- The tick at which bucket `k` of wheel `i` is dropped, when in tick `t` the wheels below `stage`
have been rotated and the others not yet. -/
def dropTick (buckets t stage i k : Nat) : Nat :=
  buckets ^ i * ((if i < stage then t else t - 1) / buckets ^ i + k + 1)

structure Placed (w : TimingWheel ι) : Prop where
  fits : ∀ i k e, e ∈ w.wheels i k → i < w.wheelsNum ∧ k < w.bucketsNumPerWheel ∧ Fits i e
  nodup : ∀ k, (w.wheels 0 k).Nodup

/-- The users' entries that the wheels hold, with the ticks at which they are dropped. -/
def pendingAt (stage : Nat) (w : TimingWheel ι) : Set (Nat × ι) :=
  { p | ∃ i k e, e ∈ w.wheels i k ∧
    p = (dropTick w.bucketsNumPerWheel w.ticksCounter stage i k + remaining w.bucketsNumPerWheel e,
      e.user) }

section DropTick

variable {buckets t : Nat}

theorem dropTick_of_lt {stage i : Nat} (hi : i < stage) (buckets t k : Nat) :
    dropTick buckets t stage i k = buckets ^ i * (t / buckets ^ i + k + 1) := by
  rw [dropTick, if_pos hi]

theorem dropTick_of_ge {stage i : Nat} (hi : stage ≤ i) (buckets t k : Nat) :
    dropTick buckets t stage i k = buckets ^ i * ((t - 1) / buckets ^ i + k + 1) := by
  rw [dropTick, if_neg (Nat.not_lt.mpr hi)]

theorem dropTick_succ_of_ne {stage i : Nat} (hi : i ≠ stage) (buckets t k : Nat) :
    dropTick buckets t (stage + 1) i k = dropTick buckets t stage i k := by
  rcases Nat.lt_or_gt_of_ne hi with hlt | hgt
  · rw [dropTick_of_lt (Nat.lt_succ_of_lt hlt), dropTick_of_lt hlt]
  · rw [dropTick_of_ge hgt, dropTick_of_ge hgt.le]

theorem div_of_dvd {m : Nat} (ht : 0 < t) (hm : m ∣ t) : t / m = (t - 1) / m + 1 := by
  obtain ⟨t, rfl⟩ := Nat.exists_eq_succ_of_ne_zero ht.ne'
  exact Nat.succ_div_of_dvd hm

theorem div_of_not_dvd {m : Nat} (hm : ¬m ∣ t) : t / m = (t - 1) / m := by
  rcases t with _ | t
  · rfl
  · exact Nat.succ_div_of_not_dvd hm

theorem dropTick_rotate {stage : Nat} (ht : 0 < t) (hdvd : buckets ^ stage ∣ t) (k : Nat) :
    dropTick buckets t (stage + 1) stage k = dropTick buckets t stage stage (k + 1) := by
  rw [dropTick_of_lt (Nat.lt_succ_self _), dropTick_of_ge (Nat.le_refl _), div_of_dvd ht hdvd]
  congr 1
  omega

theorem dropTick_front {stage : Nat} (ht : 0 < t) (hdvd : buckets ^ stage ∣ t) :
    dropTick buckets t stage stage 0 = t := by
  rw [dropTick_of_ge (Nat.le_refl _), Nat.add_zero, ← div_of_dvd ht hdvd]
  exact Nat.mul_div_cancel' hdvd

theorem dropTick_stay {stage : Nat} (hdvd : ¬buckets ^ stage ∣ t) (i k : Nat) :
    dropTick buckets t (stage + 1) i k = dropTick buckets t stage i k := by
  rcases eq_or_ne i stage with rfl | hi
  · rw [dropTick_of_lt (Nat.lt_succ_self _), dropTick_of_ge (Nat.le_refl _), div_of_not_dvd hdvd]
  · exact dropTick_succ_of_ne hi buckets t k

end DropTick

section Rotate

variable {w : TimingWheel ι}

theorem mem_rotate {i i' k : Nat} {e : Entry ι} :
    e ∈ (rotate w i).wheels i' k ↔
      i' ≠ i ∧ e ∈ w.wheels i' k ∨
        i' = i ∧ k + 1 < w.bucketsNumPerWheel ∧ e ∈ w.wheels i (k + 1) := by
  simp only [rotate]
  rcases eq_or_ne i' i with rfl | hi
  · rw [if_pos rfl]
    split
    · rename_i hk
      simp [hk]
    · rename_i hk
      simp [hk]
  · simp [hi]

theorem Placed.rotate (hw : Placed w) (i : Nat) : Placed (rotate w i) := by
  constructor
  · intro i' k e hmem
    rcases mem_rotate.mp hmem with ⟨-, hmem⟩ | ⟨rfl, hk, hmem⟩
    · exact hw.fits i' k e hmem
    · obtain ⟨hi, -, he⟩ := hw.fits i' (k + 1) e hmem
      exact ⟨hi, Nat.lt_of_succ_lt hk, he⟩
  · intro k
    simp only [Wheel.rotate]
    split_ifs with hi hk
    · subst hi
      exact hw.nodup (k + 1)
    · exact List.nodup_nil
    · exact hw.nodup k

theorem pendingAt_rotate (hw : Placed w) (stage : Nat) (ht : 0 < w.ticksCounter)
    (hdvd : w.bucketsNumPerWheel ^ stage ∣ w.ticksCounter) :
    pendingAt stage w = pendingAt (stage + 1) (rotate w stage) ∪
      { p | ∃ e ∈ w.wheels stage 0,
        p = (w.ticksCounter + remaining w.bucketsNumPerWheel e, e.user) } := by
  ext p
  constructor
  · rintro ⟨i, k, e, hmem, rfl⟩
    rcases eq_or_ne i stage with rfl | hi
    · cases k with
      | zero => exact .inr ⟨e, hmem, by rw [dropTick_front ht hdvd]⟩
      | succ k =>
          refine .inl ⟨i, k, e, mem_rotate.mpr (.inr ⟨rfl, (hw.fits i _ e hmem).2.1, hmem⟩), ?_⟩
          rw [← dropTick_rotate ht hdvd]
          rfl
    · refine .inl ⟨i, k, e, mem_rotate.mpr (.inl ⟨hi, hmem⟩), ?_⟩
      rw [← dropTick_succ_of_ne hi]
      rfl
  · rintro (⟨i, k, e, hmem, rfl⟩ | ⟨e, hmem, rfl⟩)
    · rcases mem_rotate.mp hmem with ⟨hi, hmem⟩ | ⟨rfl, -, hmem⟩
      · exact ⟨i, k, e, hmem, congrArg (fun n => (n + _, _)) (dropTick_succ_of_ne hi _ _ k)⟩
      · exact ⟨i, k + 1, e, hmem, congrArg (fun n => (n + _, _)) (dropTick_rotate ht hdvd k)⟩
    · exact ⟨stage, 0, e, hmem, by rw [dropTick_front ht hdvd]⟩

theorem pendingAt_stay {stage : Nat}
    (hdvd : ¬w.bucketsNumPerWheel ^ stage ∣ w.ticksCounter) :
    pendingAt (stage + 1) w = pendingAt stage w := by
  simp only [pendingAt, dropTick_stay hdvd]

structure SameClock (w w' : TimingWheel ι) : Prop where
  bucketsNumPerWheel : w'.bucketsNumPerWheel = w.bucketsNumPerWheel
  wheelsNum : w'.wheelsNum = w.wheelsNum
  ticksCounter : w'.ticksCounter = w.ticksCounter

theorem SameClock.refl (w : TimingWheel ι) : SameClock w w := ⟨rfl, rfl, rfl⟩

theorem SameClock.trans {w w' w'' : TimingWheel ι} (h : SameClock w w') (h' : SameClock w' w'') :
    SameClock w w'' where
  bucketsNumPerWheel := h'.bucketsNumPerWheel.trans h.bucketsNumPerWheel
  wheelsNum := h'.wheelsNum.trans h.wheelsNum
  ticksCounter := h'.ticksCounter.trans h.ticksCounter

theorem buckets_pos (w : TimingWheel ι) : 0 < w.bucketsNumPerWheel :=
  Nat.lt_of_succ_lt w.one_lt_bucketsNumPerWheel

theorem lt_of_mem_pendingAt_one (hw : Placed w) {p : Nat × ι} (hp : p ∈ pendingAt 1 w) :
    w.ticksCounter < p.1 := by
  obtain ⟨i, k, e, hmem, rfl⟩ := hp
  obtain ⟨-, -, hfits⟩ := hw.fits i k e hmem
  cases i with
  | zero =>
      rw [dropTick_of_lt Nat.one_pos]
      simp only [pow_zero, Nat.div_one, Nat.one_mul]
      omega
  | succ i =>
      cases e with
      | entry id => exact hfits.elim
      | callback delay j t e =>
          have hbuckets := buckets_pos w
          have hnext : w.ticksCounter - 1 < w.bucketsNumPerWheel ^ (i + 1) *
              ((w.ticksCounter - 1) / w.bucketsNumPerWheel ^ (i + 1) + 1) :=
            Nat.lt_mul_div_succ _ (Nat.pow_pos hbuckets)
          have hbucket : w.bucketsNumPerWheel ^ (i + 1) *
                ((w.ticksCounter - 1) / w.bucketsNumPerWheel ^ (i + 1) + 1) ≤
              w.bucketsNumPerWheel ^ (i + 1) *
                ((w.ticksCounter - 1) / w.bucketsNumPerWheel ^ (i + 1) + k + 1) :=
            Nat.mul_le_mul_left _ (by omega)
          have hcallback : 0 < w.bucketsNumPerWheel ^ j *
              ((delay + t % w.bucketsNumPerWheel - 1) % w.bucketsNumPerWheel + 1) :=
            Nat.mul_pos (Nat.pow_pos hbuckets) (Nat.succ_pos _)
          rw [dropTick_of_ge (by omega), remaining]
          simp only
          omega

theorem remaining_of_fits_zero {buckets : Nat} {e : Entry ι} (he : Fits 0 e) :
    remaining buckets e = 0 := by
  cases e with
  | entry id => rfl
  | callback => exact he.elim

end Rotate

section Insert

variable [DecidableEq ι] {w : TimingWheel ι}

@[simp] theorem mem_insert {bucket : EntryBucket ι} {e e' : Entry ι} :
    e' ∈ bucket.insert e ↔ e' ∈ bucket ∨ e' = e := by
  cases e with
  | entry id =>
      rw [EntryBucket.insert]
      split
      · rename_i hmem
        constructor
        · exact Or.inl
        · rintro (h | rfl)
          · exact h
          · exact hmem
      · simp
  | callback delay i t entryPtr => simp [EntryBucket.insert]

theorem nodup_insert {bucket : EntryBucket ι} (hbucket : bucket.Nodup) {e : Entry ι}
    (he : Fits 0 e) : (bucket.insert e).Nodup := by
  cases e with
  | entry id =>
      rw [EntryBucket.insert]
      split
      · exact hbucket
      · rename_i hmem
        refine List.nodup_append.mpr ⟨hbucket, List.nodup_singleton _, ?_⟩
        rintro e he _ (_ | ⟨_, ⟨⟩⟩) rfl
        exact hmem he
  | callback => exact he.elim

theorem mem_put {i k i' k' : Nat} {e e' : Entry ι} :
    e' ∈ (put w i k e).wheels i' k' ↔ e' ∈ w.wheels i' k' ∨ (i' = i ∧ k' = k) ∧ e' = e := by
  simp only [put]
  split
  · rename_i h
    simp [h]
  · rename_i h
    simp [h]

theorem Placed.put (hw : Placed w) {i k : Nat} {e : Entry ι} (hi : i < w.wheelsNum)
    (hk : k < w.bucketsNumPerWheel) (he : Fits i e) : Placed (put w i k e) := by
  constructor
  · intro i' k' e' hmem
    rcases mem_put.mp hmem with hmem | ⟨⟨rfl, rfl⟩, rfl⟩
    · exact hw.fits i' k' e' hmem
    · exact ⟨hi, hk, he⟩
  · intro k'
    simp only [Wheel.put]
    split_ifs with h
    · obtain ⟨rfl, rfl⟩ := h
      exact nodup_insert (hw.nodup k') he
    · exact hw.nodup k'

theorem pendingAt_put (stage i k : Nat) (e : Entry ι) :
    pendingAt stage (put w i k e) =
      insert (dropTick w.bucketsNumPerWheel w.ticksCounter stage i k +
        remaining w.bucketsNumPerWheel e, e.user) (pendingAt stage w) := by
  ext p
  constructor
  · rintro ⟨i', k', e', hmem, rfl⟩
    rcases mem_put.mp hmem with hmem | ⟨⟨rfl, rfl⟩, rfl⟩
    · exact .inr ⟨i', k', e', hmem, rfl⟩
    · exact .inl rfl
  · rintro (rfl | ⟨i', k', e', hmem, rfl⟩)
    · exact ⟨i, k, e, mem_put.mpr (.inr ⟨⟨rfl, rfl⟩, rfl⟩), rfl⟩
    · exact ⟨i', k', e', mem_put.mpr (.inl hmem), rfl⟩

theorem mul_of_pow_dvd {buckets t i stage : Nat} (hi : i ≤ stage) (hdvd : buckets ^ stage ∣ t) :
    buckets ^ i * (t / buckets ^ i) = t :=
  Nat.mul_div_cancel' ((Nat.pow_dvd_pow buckets hi).trans hdvd)

end Insert

section Position

variable {buckets : Nat}

/-- A callback takes its reference one wheel down without changing the tick of its drop. -/
theorem callback_deadline (buckets t delay i : Nat) (hdelay : 0 < delay) :
    buckets ^ (i + 1) * (t / buckets + (delay + t % buckets - 1) / buckets) +
        buckets ^ i * ((delay + t % buckets - 1) % buckets + 1) =
      buckets ^ i * (t + delay) := by
  have hslot := Nat.div_add_mod (delay + t % buckets - 1) buckets
  have hnow := Nat.div_add_mod t buckets
  rw [pow_succ, Nat.mul_assoc, ← Nat.mul_add, Nat.mul_add buckets]
  congr 1
  omega

theorem rounds_le {rest t delay : Nat} (hbuckets : 1 < buckets)
    (hdelay : delay ≤ buckets ^ (rest + 2)) :
    (delay + t % buckets - 1) / buckets ≤ buckets ^ (rest + 1) := by
  have hmod : t % buckets < buckets := Nat.mod_lt _ (Nat.lt_of_succ_lt hbuckets)
  rw [pow_succ] at hdelay
  refine Nat.le_of_lt_succ (Nat.div_lt_of_lt_mul ?_)
  rw [Nat.mul_comm, Nat.succ_mul]
  omega

theorem rounds_pos {t delay : Nat} (hbuckets : 0 < buckets) (hdelay : buckets < delay) :
    0 < (delay + t % buckets - 1) / buckets :=
  Nat.div_pos (by omega) hbuckets

theorem insertPosition_spec (hbuckets : 1 < buckets) (t rest i : Nat) {delay : Nat}
    (hdelay : 0 < delay) {e : Entry ι} (he : Fits i e) :
    let position := insertPosition buckets rest i delay (t / buckets ^ i) e
    (i ≤ position.1 ∧ position.1 ≤ i + rest) ∧ position.2.1 < buckets ∧
      Fits position.1 position.2.2 ∧ position.2.2.user = e.user ∧
      (delay ≤ buckets ^ (rest + 1) →
        buckets ^ position.1 * (t / buckets ^ position.1 + position.2.1 + 1) +
            remaining buckets position.2.2 =
          buckets ^ i * (t / buckets ^ i + delay) + remaining buckets e) := by
  have hhere : delay - 1 + 1 = delay := Nat.succ_pred_eq_of_pos hdelay
  induction rest generalizing i delay e with
  | zero =>
      rw [insertPosition]
      split
      · rename_i hle
        refine ⟨⟨Nat.le_refl i, Nat.le_refl i⟩, Nat.lt_of_succ_le (hhere.trans_le hle), he, rfl, ?_⟩
        intro _
        rw [Nat.add_assoc, hhere]
      · rename_i hgt
        refine ⟨⟨Nat.le_refl i, Nat.le_refl i⟩, Nat.pred_lt (Nat.lt_of_succ_lt hbuckets).ne', he,
          rfl, ?_⟩
        intro hle
        exact absurd (hle.trans_eq (pow_one buckets)) hgt
  | succ rest ih =>
      rw [insertPosition]
      split
      · rename_i hle
        refine ⟨⟨Nat.le_refl i, Nat.le_add_right ..⟩, Nat.lt_of_succ_le (hhere.trans_le hle), he, rfl,
          ?_⟩
        intro _
        rw [Nat.add_assoc, hhere]
      · rename_i hgt
        have hpos := rounds_pos (t := t / buckets ^ i) (Nat.lt_of_succ_lt hbuckets)
          (Nat.lt_of_not_le hgt)
        have hround : t / buckets ^ i / buckets = t / buckets ^ (i + 1) := by
          rw [Nat.div_div_eq_div_mul, pow_succ]
        obtain ⟨⟨hle, hle'⟩, hk, hfits, huser, hdeadline⟩ := ih (i + 1) hpos
          (e := .callback delay i (t / buckets ^ i) e) ⟨hdelay, rfl, he⟩
          (Nat.succ_pred_eq_of_pos hpos)
        rw [hround]
        refine ⟨⟨by omega, by omega⟩, hk, hfits, huser, fun hle => ?_⟩
        rw [hdeadline (rounds_le hbuckets hle), remaining, ← Nat.add_assoc, ← hround,
          callback_deadline _ _ _ _ hdelay]

end Position

section Tick

variable [DecidableEq ι] {w : TimingWheel ι}

theorem foldl_release_callbacks {stage : Nat}
    (hdvd : w.bucketsNumPerWheel ^ (stage + 1) ∣ w.ticksCounter) (hstage : stage < w.wheelsNum)
    (hw : Placed w) {tmp : EntryBucket ι} (htmp : ∀ e ∈ tmp, Fits (stage + 1) e) :
    SameClock w (tmp.foldl release w) ∧ Placed (tmp.foldl release w) ∧
      (tmp.foldl release w).dropped = w.dropped ∧
      pendingAt (stage + 2) (tmp.foldl release w) = pendingAt (stage + 2) w ∪
        { p | ∃ e ∈ tmp, p = (w.ticksCounter + remaining w.bucketsNumPerWheel e, e.user) } := by
  induction tmp generalizing w with
  | nil => exact ⟨.refl w, hw, rfl, by simp⟩
  | cons e tmp ih =>
      have he := htmp e List.mem_cons_self
      cases e with
      | entry id => exact he.elim
      | callback delay i t e =>
          obtain ⟨hpos, rfl, hfits⟩ := he
          obtain ⟨hclock, hplaced, hdropped, hpending⟩ := ih
            (w := put w i ((delay + t % w.bucketsNumPerWheel - 1) % w.bucketsNumPerWheel) e) hdvd
            hstage (hw.put hstage (Nat.mod_lt _ (buckets_pos w)) hfits)
            fun e' he' => htmp e' (List.mem_cons_of_mem _ he')
          rw [List.foldl_cons, release, if_pos hpos]
          refine ⟨⟨hclock.1, hclock.2, hclock.3⟩, hplaced, hdropped, ?_⟩
          rw [hpending, pendingAt_put, dropTick_of_lt (by omega), Nat.add_assoc, Nat.mul_add,
            mul_of_pow_dvd (Nat.le_succ i) hdvd]
          ext p
          simp only [Set.mem_union, Set.mem_insert_iff, Set.mem_ofPred_eq, List.mem_cons,
            exists_eq_or_imp, remaining, Entry.user, put, Nat.add_assoc]
          tauto

/-- A pass for a wheel that is not the first one moves references and drops none. -/
theorem tickWheel_succ (hw : Placed w) (calls : List (Nat × ι)) (stage : Nat)
    (ht : 0 < w.ticksCounter) (hstage : stage + 1 < w.wheelsNum) :
    SameClock w (tickWheel calls (stage + 1) (w.bucketsNumPerWheel ^ (stage + 1)) w) ∧
      Placed (tickWheel calls (stage + 1) (w.bucketsNumPerWheel ^ (stage + 1)) w) ∧
      (tickWheel calls (stage + 1) (w.bucketsNumPerWheel ^ (stage + 1)) w).dropped = w.dropped ∧
      pendingAt (stage + 2) (tickWheel calls (stage + 1) (w.bucketsNumPerWheel ^ (stage + 1)) w) =
        pendingAt (stage + 1) w := by
  rw [tickWheel]
  by_cases hdvd : w.bucketsNumPerWheel ^ (stage + 1) ∣ w.ticksCounter
  · rw [if_pos (Nat.mod_eq_zero_of_dvd hdvd), if_neg (Nat.succ_ne_zero stage)]
    obtain ⟨hclock, hplaced, hdropped, hpending⟩ := foldl_release_callbacks
      (w := rotate w (stage + 1)) hdvd (Nat.lt_of_succ_lt hstage) (hw.rotate (stage + 1))
      fun e he => (hw.fits (stage + 1) 0 e he).2.2
    refine ⟨⟨hclock.1, hclock.2, hclock.3⟩, hplaced, hdropped, ?_⟩
    rw [hpending, pendingAt_rotate hw (stage + 1) ht hdvd]
    rfl
  · rw [if_neg fun hmod => hdvd (Nat.dvd_of_mod_eq_zero hmod)]
    exact ⟨.refl w, hw, rfl, pendingAt_stay hdvd⟩

theorem tickLoop_succ (calls : List (Nat × ι)) (rest stage : Nat) (hw : Placed w)
    (ht : 0 < w.ticksCounter) (hrest : stage + 1 + rest = w.wheelsNum) :
    SameClock w (tickLoop calls rest (stage + 1) (w.bucketsNumPerWheel ^ (stage + 1)) w) ∧
      Placed (tickLoop calls rest (stage + 1) (w.bucketsNumPerWheel ^ (stage + 1)) w) ∧
      (tickLoop calls rest (stage + 1) (w.bucketsNumPerWheel ^ (stage + 1)) w).dropped =
        w.dropped ∧
      pendingAt w.wheelsNum
          (tickLoop calls rest (stage + 1) (w.bucketsNumPerWheel ^ (stage + 1)) w) =
        pendingAt (stage + 1) w := by
  induction rest generalizing stage w with
  | zero => exact ⟨.refl w, hw, rfl, by rw [← hrest]; rfl⟩
  | succ rest ih =>
      obtain ⟨hclock, hplaced, hdropped, hpending⟩ := tickWheel_succ hw calls stage ht (by omega)
      have hnext := ih (stage + 1) hplaced (hclock.ticksCounter ▸ ht)
        (by rw [hclock.wheelsNum]; omega)
      rw [hclock.bucketsNumPerWheel, hclock.wheelsNum] at hnext
      obtain ⟨hclock', hplaced', hdropped', hpending'⟩ := hnext
      rw [tickLoop, ← pow_succ]
      exact ⟨hclock.trans hclock', hplaced', hdropped'.trans hdropped, hpending'.trans hpending⟩

theorem foldl_release_users (tmp : EntryBucket ι) (htmp : ∀ e ∈ tmp, Fits 0 e) :
    tmp.foldl release w =
      { w with dropped := w.dropped ++ tmp.map fun e => (w.ticksCounter, e.user) } := by
  induction tmp generalizing w with
  | nil => simp
  | cons e tmp ih =>
      have he := htmp e List.mem_cons_self
      cases e with
      | entry id =>
          rw [List.foldl_cons, ih fun e' he' => htmp e' (List.mem_cons_of_mem _ he')]
          simp [release, Entry.user]
      | callback delay i t e => exact he.elim

theorem release_front (hw : Placed w) (ht : 0 < w.ticksCounter) :
    let w' := (w.wheels 0 0).foldl release (rotate w 0)
    SameClock w w' ∧ Placed w' ∧
      pendingAt 1 w' = { p ∈ pendingAt 0 w | p.1 ≠ w.ticksCounter } ∧
      ∃ due : List (Nat × ι), w'.dropped = w.dropped ++ due ∧ due.Nodup ∧
        ∀ p, p ∈ due ↔ p ∈ pendingAt 0 w ∧ p.1 = w.ticksCounter := by
  have husers : ∀ e ∈ w.wheels 0 0, Fits 0 e := fun e he => (hw.fits 0 0 e he).2.2
  have hrotated := pendingAt_rotate hw 0 ht (by simp)
  have hlater : ∀ p ∈ pendingAt 1 (rotate w 0), p.1 ≠ w.ticksCounter :=
    fun p hp => (lt_of_mem_pendingAt_one (hw.rotate 0) hp).ne'
  simp only [foldl_release_users _ husers]
  refine ⟨⟨rfl, rfl, rfl⟩, ⟨(hw.rotate 0).fits, (hw.rotate 0).nodup⟩, ?_, _, rfl, ?_, fun p => ?_⟩
  · ext p
    rw [Set.mem_ofPred_eq, hrotated, Set.mem_union]
    constructor
    · intro hp
      exact ⟨.inl hp, hlater p hp⟩
    · rintro ⟨hp | ⟨e, he, rfl⟩, hne⟩
      · exact hp
      · rw [remaining_of_fits_zero (husers e he)] at hne
        exact absurd rfl hne
  · refine List.Nodup.map_on (fun e he e' he' heq => ?_) (hw.nodup 0)
    have huser : e.user = e'.user := congrArg Prod.snd heq
    cases e with
    | entry id =>
        cases e' with
        | entry id' => exact congrArg Entry.entry huser
        | callback => exact (husers _ he').elim
    | callback => exact (husers _ he).elim
  · rw [hrotated, List.mem_map]
    constructor
    · rintro ⟨e, he, rfl⟩
      exact ⟨.inr ⟨e, he, by rw [remaining_of_fits_zero (husers e he)]; rfl⟩, rfl⟩
    · rintro ⟨hp | ⟨e, he, rfl⟩, hnow⟩
      · exact absurd hnow (hlater p hp)
      · exact ⟨e, he, by rw [remaining_of_fits_zero (husers e he)]; rfl⟩

end Tick

section Calendar

/-- What `insertEntry` inserts, and in which bucket of which wheel. -/
def position (w : TimingWheel ι) (delay : Nat) (id : ι) : Nat × Nat × Entry ι :=
  insertPosition w.bucketsNumPerWheel (w.wheelsNum - 1) 0 (delayTicks delay) w.ticksCounter
    (.entry id)

/-- The tick at which the reference that `insertEntry` enters is dropped, when the wheels below
`stage` have been rotated for this tick. -/
def deadlineAt (stage : Nat) (w : TimingWheel ι) (delay : Nat) (id : ι) : Nat :=
  dropTick w.bucketsNumPerWheel w.ticksCounter stage (position w delay id).1
      (position w delay id).2.1 +
    remaining w.bucketsNumPerWheel (position w delay id).2.2

def entered (w : TimingWheel ι) (calls : List (Nat × ι)) : Set (Nat × ι) :=
  { p | ∃ call ∈ calls, 0 < call.1 ∧ p = (deadlineAt 1 w call.1 call.2, call.2) }

/-- The same, when the wheels below `stage` have been rotated for the tick. -/
def enteredAt (stage : Nat) (w : TimingWheel ι) (calls : List (Nat × ι)) : Set (Nat × ι) :=
  { p | ∃ call ∈ calls, 0 < call.1 ∧ p = (deadlineAt stage w call.1 call.2, call.2) }

/-- The wheels between two ticks, as a calendar. -/
def calendar (w : TimingWheel ι) : DueTable ι where
  now := w.ticksCounter
  due := pendingAt w.wheelsNum w
  dropped := { p | p ∈ w.dropped }

variable {w w' : TimingWheel ι}

theorem SameClock.deadlineAt_eq (h : SameClock w w') (stage delay : Nat) (id : ι) :
    deadlineAt stage w' delay id = deadlineAt stage w delay id := by
  unfold deadlineAt position
  rw [h.bucketsNumPerWheel, h.wheelsNum, h.ticksCounter]

theorem SameClock.enteredAt_eq (h : SameClock w w') (stage : Nat) (calls : List (Nat × ι)) :
    enteredAt stage w' calls = enteredAt stage w calls := by
  unfold enteredAt
  simp only [h.deadlineAt_eq]

theorem SameClock.entered_eq (h : SameClock w w') (calls : List (Nat × ι)) :
    entered w' calls = entered w calls :=
  h.enteredAt_eq 1 calls

theorem position_spec (w : TimingWheel ι) (delay : Nat) (id : ι) :
    (position w delay id).1 < w.wheelsNum ∧ (position w delay id).2.1 < w.bucketsNumPerWheel ∧
      Fits (position w delay id).1 (position w delay id).2.2 ∧
      (position w delay id).2.2.user = id := by
  have hwheels := w.wheelsNum_pos
  obtain ⟨⟨-, hi⟩, hk, hfits, huser, -⟩ := insertPosition_spec
    w.one_lt_bucketsNumPerWheel w.ticksCounter (w.wheelsNum - 1) 0 (delayTicks_pos delay)
    (e := .entry id) trivial
  rw [pow_zero, Nat.div_one] at hi hk hfits huser
  exact ⟨hi.trans_lt (by omega), hk, hfits, huser⟩

theorem position_deadline (w : TimingWheel ι) {delay : Nat}
    (hdelay : delayTicks delay ≤ w.bucketsNumPerWheel ^ w.wheelsNum) (id : ι) :
    w.bucketsNumPerWheel ^ (position w delay id).1 *
          (w.ticksCounter / w.bucketsNumPerWheel ^ (position w delay id).1 +
            (position w delay id).2.1 + 1) +
        remaining w.bucketsNumPerWheel (position w delay id).2.2 =
      w.ticksCounter + delayTicks delay := by
  obtain ⟨-, -, -, -, hdeadline⟩ := insertPosition_spec
    w.one_lt_bucketsNumPerWheel w.ticksCounter (w.wheelsNum - 1) 0 (delayTicks_pos delay)
    (e := .entry id) trivial
  rw [Nat.sub_add_cancel w.wheelsNum_pos, pow_zero, Nat.div_one, Nat.one_mul] at hdeadline
  exact hdeadline hdelay

theorem deadlineAt_wheelsNum (w : TimingWheel ι) {delay : Nat}
    (hdelay : delayTicks delay ≤ w.bucketsNumPerWheel ^ w.wheelsNum) (id : ι) :
    deadlineAt w.wheelsNum w delay id = w.ticksCounter + delayTicks delay := by
  rw [deadlineAt, dropTick_of_lt (position_spec w delay id).1, position_deadline w hdelay]

def counted (w : TimingWheel ι) : TimingWheel ι := { w with ticksCounter := w.ticksCounter + 1 }

theorem Placed.counted (hw : Placed w) : Placed (counted w) := ⟨hw.fits, hw.nodup⟩

theorem pendingAt_counted (hw : Placed w) :
    pendingAt 0 (counted w) = pendingAt w.wheelsNum w := by
  have hdrop : ∀ i k e, e ∈ w.wheels i k →
      dropTick w.bucketsNumPerWheel (w.ticksCounter + 1) 0 i k =
        dropTick w.bucketsNumPerWheel w.ticksCounter w.wheelsNum i k := by
    intro i k e hmem
    rw [dropTick_of_lt (hw.fits i k e hmem).1, dropTick_of_ge (Nat.zero_le i), Nat.add_sub_cancel]
  ext p
  constructor
  · rintro ⟨i, k, e, hmem, rfl⟩
    exact ⟨i, k, e, hmem, congrArg (fun n => (n + _, _)) (hdrop i k e hmem)⟩
  · rintro ⟨i, k, e, hmem, rfl⟩
    exact ⟨i, k, e, hmem, congrArg (fun n => (n + _, _)) (hdrop i k e hmem).symm⟩

theorem calendar_due {wheelsNum : Nat} (h : w.wheelsNum = wheelsNum) :
    (calendar w).due = pendingAt wheelsNum w := by
  rw [← h]
  rfl

def calendarStep (w : TimingWheel ι) (c : DueTable ι) : WheelOp ι → DueTable ι
  | .insertEntry delay id => if delay = 0 then c else c.add (deadlineAt w.wheelsNum w delay id, id)
  | .tick calls => c.advance (entered (counted w) calls)

def clockStep (w : TimingWheel ι) : WheelOp ι → TimingWheel ι
  | .insertEntry _ _ => w
  | .tick _ => counted w

theorem SameClock.clockStep (h : SameClock w w') (op : WheelOp ι) :
    SameClock (clockStep w op) (clockStep w' op) := by
  cases op with
  | insertEntry => exact h
  | tick => exact ⟨h.bucketsNumPerWheel, h.wheelsNum, congrArg (· + 1) h.ticksCounter⟩

theorem SameClock.calendarStep_eq (h : SameClock w w') (c : DueTable ι) (op : WheelOp ι) :
    calendarStep w' c op = calendarStep w c op := by
  cases op with
  | insertEntry delay id => rw [calendarStep, calendarStep, h.wheelsNum, h.deadlineAt_eq]
  | tick calls => exact congrArg c.advance ((h.clockStep (.tick calls)).entered_eq calls)

theorem calendarStep_credit (w : TimingWheel ι) (c : DueTable ι) (p : Nat × ι) (op : WheelOp ι) :
    calendarStep w (c.credit p) op = (calendarStep w c op).credit p := by
  cases op with
  | insertEntry delay id =>
      rw [calendarStep, calendarStep]
      split
      · rfl
      · exact c.add_credit p _
  | tick calls => exact c.advance_credit p _

/-- The invariant of a run. No reference has been dropped twice in one tick, and none in a tick to
come. -/
structure Kept (w : TimingWheel ι) : Prop where
  placed : Placed w
  dropped_nodup : w.dropped.Nodup
  dropped_le : ∀ p ∈ w.dropped, p.1 ≤ w.ticksCounter

theorem kept_create (bucketsNumPerWheel wheelsNum : Nat) (hbuckets : 1 < bucketsNumPerWheel)
    (hwheels : 0 < wheelsNum) :
    Kept (create bucketsNumPerWheel wheelsNum hbuckets hwheels : TimingWheel ι) where
  placed := ⟨fun _ _ _ hmem => absurd hmem List.not_mem_nil, fun _ => List.nodup_nil⟩
  dropped_nodup := List.nodup_nil
  dropped_le _ hmem := absurd hmem List.not_mem_nil

variable [DecidableEq ι]

theorem insertEntry_zero (w : TimingWheel ι) (id : ι) : insertEntry w 0 id = w := if_pos rfl

theorem insertEntry_spec (hw : Placed w) (stage : Nat) {delay : Nat} (hdelay : 0 < delay) (id : ι) :
    SameClock w (insertEntry w delay id) ∧ Placed (insertEntry w delay id) ∧
      (insertEntry w delay id).dropped = w.dropped ∧
      pendingAt stage (insertEntry w delay id) =
        insert (deadlineAt stage w delay id, id) (pendingAt stage w) := by
  obtain ⟨hi, hk, hfits, huser⟩ := position_spec w delay id
  rw [insertEntry, if_neg hdelay.ne', insertEntryInloop]
  refine ⟨⟨rfl, rfl, rfl⟩, hw.put hi hk hfits, rfl, ?_⟩
  exact (pendingAt_put ..).trans (by rw [← position, huser, deadlineAt])

theorem foldl_insertEntry (hw : Placed w) (stage : Nat) (calls : List (Nat × ι)) :
    let w' := calls.foldl (fun w call => insertEntry w call.1 call.2) w
    SameClock w w' ∧ Placed w' ∧ w'.dropped = w.dropped ∧
      pendingAt stage w' = pendingAt stage w ∪ enteredAt stage w calls := by
  induction calls generalizing w with
  | nil => exact ⟨.refl w, hw, rfl, by simp [enteredAt]⟩
  | cons call calls ih =>
      rw [List.foldl_cons]
      rcases Nat.eq_zero_or_pos call.1 with hzero | hpos
      · rw [hzero, insertEntry_zero]
        obtain ⟨hclock, hplaced, hdropped, hpending⟩ := ih hw
        refine ⟨hclock, hplaced, hdropped, ?_⟩
        rw [hpending]
        congr 1
        simp [enteredAt, hzero]
      · obtain ⟨hclock, hplaced, hdropped, hpending⟩ := insertEntry_spec hw stage hpos call.2
        obtain ⟨hclock', hplaced', hdropped', hpending'⟩ := ih hplaced
        refine ⟨hclock.trans hclock', hplaced', hdropped'.trans hdropped, ?_⟩
        rw [hpending', hpending, hclock.enteredAt_eq]
        ext p
        simp only [enteredAt, Set.mem_union, Set.mem_insert_iff, Set.mem_ofPred_eq, List.mem_cons,
          exists_eq_or_imp, hpos, true_and, or_assoc]
        exact or_left_comm

theorem tickLoop_of_pos (calls : List (Nat × ι)) {rest : Nat} (hrest : 0 < rest) (i pow : Nat)
    (w : TimingWheel ι) :
    tickLoop calls rest i pow w =
      tickLoop calls (rest - 1) (i + 1) (pow * w.bucketsNumPerWheel) (tickWheel calls i pow w) := by
  cases rest with
  | zero => exact absurd hrest (Nat.lt_irrefl 0)
  | succ rest => rfl

theorem tickWheel_zero (hw : Placed w) (ht : 0 < w.ticksCounter) (calls : List (Nat × ι)) :
    let w' := tickWheel calls 0 1 w
    SameClock w w' ∧ Placed w' ∧
      pendingAt 1 w' = { p ∈ pendingAt 0 w | p.1 ≠ w.ticksCounter } ∪ entered w calls ∧
      ∃ due : List (Nat × ι), w'.dropped = w.dropped ++ due ∧ due.Nodup ∧
        ∀ p, p ∈ due ↔ p ∈ pendingAt 0 w ∧ p.1 = w.ticksCounter := by
  obtain ⟨hclock, hplaced, hpending, due, hdropped, hnodup, hdue⟩ := release_front hw ht
  obtain ⟨hclock', hplaced', hdropped', hpending'⟩ := foldl_insertEntry hplaced 1 calls
  rw [tickWheel, if_pos (Nat.mod_one _)]
  refine ⟨hclock.trans hclock', hplaced', ?_, due, hdropped'.trans hdropped, hnodup, hdue⟩
  rw [← hpending, ← hclock.entered_eq]
  exact hpending'

theorem tick_spec (hw : Placed w) (calls : List (Nat × ι)) :
    SameClock (counted w) (tick w calls) ∧ Placed (tick w calls) ∧
      pendingAt w.wheelsNum (tick w calls) =
        { p ∈ pendingAt w.wheelsNum w | p.1 ≠ w.ticksCounter + 1 } ∪ entered (counted w) calls ∧
      ∃ due : List (Nat × ι), (tick w calls).dropped = w.dropped ++ due ∧ due.Nodup ∧
        ∀ p, p ∈ due ↔ p ∈ pendingAt w.wheelsNum w ∧ p.1 = w.ticksCounter + 1 := by
  obtain ⟨hclock, hplaced, hpending, hdue⟩ :=
    tickWheel_zero hw.counted (Nat.succ_pos _) calls
  obtain ⟨hclock', hplaced', hdropped', hpending'⟩ := tickLoop_succ calls (w.wheelsNum - 1) 0
    hplaced (hclock.ticksCounter ▸ Nat.succ_pos _)
    (by rw [hclock.wheelsNum, Nat.zero_add]; exact Nat.add_sub_cancel' w.wheelsNum_pos)
  have htick : tick w calls = tickLoop calls (w.wheelsNum - 1) (0 + 1)
      ((tickWheel calls 0 1 (counted w)).bucketsNumPerWheel ^ (0 + 1))
      (tickWheel calls 0 1 (counted w)) := by
    rw [hclock.bucketsNumPerWheel, Nat.zero_add, pow_one]
    refine (tickLoop_of_pos calls w.wheelsNum_pos 0 1 (counted w)).trans ?_
    rw [Nat.one_mul]
  rw [← htick] at hclock' hplaced' hdropped' hpending'
  rw [hclock.wheelsNum, hpending, pendingAt_counted hw] at hpending'
  rw [pendingAt_counted hw, ← hdropped'] at hdue
  exact ⟨hclock.trans hclock', hplaced', hpending', hdue⟩

/-- The wheels simulate the calendar. -/
theorem calendar_step (hw : Placed w) (op : WheelOp ι) :
    SameClock (clockStep w op) (step w op) ∧ Placed (step w op) ∧
      calendar (step w op) = calendarStep w (calendar w) op := by
  cases op with
  | insertEntry delay id =>
      rcases Nat.eq_zero_or_pos delay with rfl | hpos
      · exact ⟨.refl w, hw, by rw [step, insertEntry_zero]; rfl⟩
      · obtain ⟨hclock, hplaced, hdropped, hpending⟩ := insertEntry_spec hw w.wheelsNum hpos id
        refine ⟨hclock, hplaced, ?_⟩
        rw [calendarStep, if_neg hpos.ne', step]
        refine DueTable.ext hclock.ticksCounter ?_ ?_
        · exact (calendar_due hclock.wheelsNum).trans hpending
        · exact congrArg (fun dropped => { p | p ∈ dropped }) hdropped
  | tick calls =>
      obtain ⟨hclock, hplaced, hpending, due, hdropped, -, hdue⟩ := tick_spec hw calls
      refine ⟨hclock, hplaced, ?_⟩
      refine DueTable.ext hclock.ticksCounter ?_ ?_
      · exact (calendar_due hclock.wheelsNum).trans hpending
      · ext p
        change p ∈ (tick w calls).dropped ↔ _
        rw [hdropped, List.mem_append, hdue]
        rfl

/-- One reference more in the calendar stays one more, whatever happens afterwards. -/
theorem calendar_run_credit (hw : Placed w) (hw' : Placed w') (hclock : SameClock w w')
    {p : Nat × ι} (hp : calendar w' = (calendar w).credit p) (ops : List (WheelOp ι)) :
    SameClock (run w ops) (run w' ops) ∧
      calendar (run w' ops) = (calendar (run w ops)).credit p := by
  induction ops generalizing w w' with
  | nil => exact ⟨hclock, hp⟩
  | cons op ops ih =>
      obtain ⟨hstep, hplaced, hcalendar⟩ := calendar_step hw op
      obtain ⟨hstep', hplaced', hcalendar'⟩ := calendar_step hw' op
      refine ih hplaced hplaced' ?_ ?_
      · have hnext := hclock.clockStep op
        exact ⟨by rw [hstep'.1, hnext.1, hstep.1], by rw [hstep'.2, hnext.2, hstep.2],
          by rw [hstep'.3, hnext.3, hstep.3]⟩
      · rw [hcalendar', hp, hclock.calendarStep_eq, calendarStep_credit, hcalendar]

theorem Kept.insertEntry (hw : Kept w) (delay : Nat) (id : ι) : Kept (insertEntry w delay id) := by
  rcases Nat.eq_zero_or_pos delay with rfl | hpos
  · rw [insertEntry_zero]
    exact hw
  · obtain ⟨hclock, hplaced, hdropped, -⟩ := insertEntry_spec hw.placed 0 hpos id
    constructor
    · exact hplaced
    · rw [hdropped]
      exact hw.dropped_nodup
    · rw [hdropped, hclock.ticksCounter]
      exact hw.dropped_le

theorem Kept.tick (hw : Kept w) (calls : List (Nat × ι)) : Kept (tick w calls) := by
  obtain ⟨hclock, hplaced, -, due, hdropped, hnodup, hdue⟩ := tick_spec hw.placed calls
  have hnow : (Wheel.tick w calls).ticksCounter = w.ticksCounter + 1 := hclock.ticksCounter
  constructor
  · exact hplaced
  · rw [hdropped]
    refine List.nodup_append.mpr ⟨hw.dropped_nodup, hnodup, ?_⟩
    rintro p hp _ hp' rfl
    have hearlier := hw.dropped_le p hp
    have hlater := ((hdue p).mp hp').2
    omega
  · intro p hp
    rw [hdropped, List.mem_append] at hp
    rcases hp with hp | hp
    · have hearlier := hw.dropped_le p hp
      omega
    · rw [((hdue p).mp hp).2, hnow]

theorem kept_run (hw : Kept w) (ops : List (WheelOp ι)) : Kept (run w ops) := by
  induction ops generalizing w with
  | nil => exact hw
  | cons op ops ih =>
      apply ih
      cases op with
      | insertEntry delay id => exact hw.insertEntry delay id
      | tick calls => exact hw.tick calls

theorem run_sizes (hw : Placed w) (ops : List (WheelOp ι)) :
    (run w ops).bucketsNumPerWheel = w.bucketsNumPerWheel ∧
      (run w ops).wheelsNum = w.wheelsNum := by
  induction ops generalizing w with
  | nil => exact ⟨rfl, rfl⟩
  | cons op ops ih =>
      obtain ⟨hclock, hplaced, -⟩ := calendar_step hw op
      obtain ⟨hbuckets, hwheels⟩ := ih hplaced
      have hsizes : (clockStep w op).bucketsNumPerWheel = w.bucketsNumPerWheel ∧
          (clockStep w op).wheelsNum = w.wheelsNum := by
        cases op <;> exact ⟨rfl, rfl⟩
      exact ⟨hbuckets.trans (hclock.bucketsNumPerWheel.trans hsizes.1),
        hwheels.trans (hclock.wheelsNum.trans hsizes.2)⟩

/-- An entry that is inserted between two ticks is dropped one tick after its delay, once, and its
insertion changes the drop of no other, when a `float` has the delay and its successor. -/
theorem insertEntry_deadline {bucketsNumPerWheel wheelsNum : Nat} (hbuckets : 1 < bucketsNumPerWheel)
    (hwheels : 0 < wheelsNum) (before after : List (WheelOp ι)) {delay : Nat} (hdelay : 1 ≤ delay)
    (hfits : delay + 1 ≤ bucketsNumPerWheel ^ wheelsNum) (hexact : delayTicks delay = delay + 1)
    (entryPtr : ι) :
    let w := run (create bucketsNumPerWheel wheelsNum hbuckets hwheels) before
    let w' := run (insertEntry w delay entryPtr) after
    w'.dropped.Nodup ∧
      ∀ p, p ∈ w'.dropped ↔
        p ∈ (run w after).dropped ∨
          p = (w.ticksCounter + delay + 1, entryPtr) ∧ p.1 ≤ w'.ticksCounter := by
  intro w w'
  have hcreated := kept_create (ι := ι) bucketsNumPerWheel wheelsNum hbuckets hwheels
  have hw : Kept w := kept_run hcreated before
  obtain ⟨hsize, hsize'⟩ := run_sizes hcreated.placed before
  have hdeadline : deadlineAt w.wheelsNum w delay entryPtr = w.ticksCounter + delay + 1 := by
    rw [Nat.add_assoc, ← hexact]
    apply deadlineAt_wheelsNum
    rw [hexact, hsize, hsize']
    exact hfits
  obtain ⟨hclock, hplaced, hcalendar⟩ := calendar_step hw.placed (.insertEntry delay entryPtr)
  have hcredit : calendar (insertEntry w delay entryPtr) =
      (calendar w).credit (w.ticksCounter + delay + 1, entryPtr) := by
    refine hcalendar.trans ?_
    rw [calendarStep, if_neg (by omega), hdeadline]
    refine (DueTable.credit_of_lt ?_).symm
    change w.ticksCounter < w.ticksCounter + delay + 1
    omega
  obtain ⟨hclock', hcalendar'⟩ := calendar_run_credit hw.placed hplaced hclock hcredit after
  refine ⟨(kept_run (hw.insertEntry delay entryPtr) after).dropped_nodup, fun p => ?_⟩
  have hmem := DueTable.mem_credit_dropped (calendar (run w after))
    (w.ticksCounter + delay + 1, entryPtr) p
  rw [← hcalendar'] at hmem
  refine hmem.trans (or_congr_right (and_congr_right fun _ => ?_))
  change p.1 ≤ (run w after).ticksCounter ↔ _
  rw [← hclock'.ticksCounter]
  rfl

theorem insertEntry_deadline_three :
    let w := run (create 2 3 (by decide) (by decide)) [.insertEntry 2 7, .tick [], .tick [(1, 8)]]
    let w' := run (insertEntry w 5 9) (List.replicate 6 (.tick []))
    w'.dropped.Nodup ∧
      ∀ p, p ∈ w'.dropped ↔
        p ∈ (run w (List.replicate 6 (.tick []))).dropped ∨
          p = (w.ticksCounter + 5 + 1, 9) ∧ p.1 ≤ w'.ticksCounter :=
  insertEntry_deadline (by decide) (by decide) _ _ (by decide) (by decide) (by decide) 9

end Calendar

end Cooper.WheelDeadline

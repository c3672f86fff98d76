import Cooper.WheelDeadline
import Mathlib.Algebra.BigOperators.Group.Finset.Basic
import Mathlib.Algebra.BigOperators.Intervals

namespace Cooper.WheelWork

open Cooper.Wheel
open Cooper.WheelDeadline

variable {ι : Type*}

/-- The callbacks around the entry of a user, each of which is a `CallbackEntry` of its own. -/
def depth : Entry ι → Nat
  | .entry _ => 0
  | .callback _ _ _ entryPtr => depth entryPtr + 1

def callbacksOf (w : TimingWheel ι) (i : Nat) : Nat :=
  ∑ k ∈ Finset.range w.bucketsNumPerWheel, ((w.wheels i k).map depth).sum

def callbacks (w : TimingWheel ι) : Nat := ∑ i ∈ Finset.range w.wheelsNum, callbacksOf w i

def releaseWork : Entry ι → Nat
  | .entry _ => 0
  | .callback delay _ _ entryPtr => if delay > 0 then 1 else releaseWork entryPtr + 1

/-- The number of `CallbackEntry` objects that `insertEntry` makes. -/
def made (w : TimingWheel ι) (delay : Nat) (id : ι) : Nat :=
  if delay = 0 then 0 else (position w delay id).1

def madeBy (w : TimingWheel ι) (calls : List (Nat × ι)) : Nat :=
  (calls.map fun call => made w call.1 call.2).sum

def opMade (w : TimingWheel ι) : WheelOp ι → Nat
  | .insertEntry delay id => made w delay id
  | .tick calls => madeBy (counted w) calls

def insertions : WheelOp ι → Nat
  | .insertEntry delay _ => if delay = 0 then 0 else 1
  | .tick calls => calls.countP (·.1 ≠ 0)

section Buckets

variable {w w' : TimingWheel ι}

theorem depth_of_fits {i : Nat} {e : Entry ι} (he : Fits i e) : depth e = i := by
  induction e generalizing i with
  | entry id =>
      cases i with
      | zero => rfl
      | succ i => exact he.elim
  | callback delay j t e ih =>
      cases i with
      | zero => exact he.elim
      | succ i => exact congrArg (· + 1) (ih he.2.2)

theorem callbacksOf_rotate_self (i : Nat) :
    callbacksOf (rotate w i) i + ((w.wheels i 0).map depth).sum = callbacksOf w i := by
  obtain ⟨n, hn⟩ := Nat.exists_eq_add_one_of_ne_zero (buckets_pos w).ne'
  have hlast : (rotate w i).wheels i n = [] := by
    simp only [rotate, if_true, hn, Nat.lt_irrefl, if_false]
  have hfront : ∀ k ∈ Finset.range n, (rotate w i).wheels i k = w.wheels i (k + 1) := by
    intro k hk
    rw [Finset.mem_range] at hk
    simp only [rotate, if_true, hn, Nat.add_lt_add_iff_right, hk]
  have hsizes : (rotate w i).bucketsNumPerWheel = n + 1 := hn
  rw [callbacksOf, callbacksOf, hn, hsizes, Finset.sum_range_succ, Finset.sum_range_succ' _ n, hlast,
    List.map_nil, List.sum_nil, Nat.add_zero]
  congr 1
  exact Finset.sum_congr rfl fun k hk => by rw [hfront k hk]

theorem callbacksOf_rotate_of_ne {i i' : Nat} (hi : i' ≠ i) :
    callbacksOf (rotate w i) i' = callbacksOf w i' := by
  refine Finset.sum_congr rfl fun k _ => ?_
  simp only [rotate, if_neg hi]

theorem callbacks_rotate {i : Nat} (hi : i < w.wheelsNum) :
    callbacks (rotate w i) + ((w.wheels i 0).map depth).sum = callbacks w := by
  have hmem := Finset.mem_range.mpr hi
  have hother : ∑ i' ∈ (Finset.range w.wheelsNum).erase i, callbacksOf (rotate w i) i' =
      ∑ i' ∈ (Finset.range w.wheelsNum).erase i, callbacksOf w i' :=
    Finset.sum_congr rfl fun i' hi' => callbacksOf_rotate_of_ne (Finset.ne_of_mem_erase hi')
  have hrotated : callbacks (rotate w i) = callbacksOf (rotate w i) i +
      ∑ i' ∈ (Finset.range w.wheelsNum).erase i, callbacksOf (rotate w i) i' :=
    (Finset.add_sum_erase _ _ hmem).symm
  have hself := callbacksOf_rotate_self (w := w) i
  rw [hrotated, hother, callbacks, ← Finset.add_sum_erase _ _ hmem]
  omega

end Buckets

section Insert

variable [DecidableEq ι] {w w' : TimingWheel ι}

theorem sum_insert (bucket : EntryBucket ι) (e : Entry ι) :
    ((bucket.insert e).map depth).sum = (bucket.map depth).sum + depth e := by
  cases e with
  | entry id =>
      simp only [EntryBucket.insert]
      split <;> simp [depth]
  | callback delay i t e => simp [EntryBucket.insert]

theorem callbacks_put {i k : Nat} (hi : i < w.wheelsNum) (hk : k < w.bucketsNumPerWheel)
    (e : Entry ι) : callbacks (put w i k e) = callbacks w + depth e := by
  have hbucket : ∀ i' k', (((put w i k e).wheels i' k').map depth).sum =
      ((w.wheels i' k').map depth).sum + if i' = i then if k' = k then depth e else 0 else 0 := by
    intro i' k'
    by_cases hi' : i' = i <;> by_cases hk' : k' = k <;> simp [put, hi', hk', sum_insert]
  have hwheel : ∀ i', callbacksOf (put w i k e) i' =
      callbacksOf w i' + if i' = i then depth e else 0 := by
    intro i'
    simp only [callbacksOf, hbucket, Finset.sum_add_distrib]
    congr 1
    by_cases hi' : i' = i
    · simp only [if_pos hi', Finset.sum_ite_eq', Finset.mem_range]
      exact if_pos hk
    · simp only [if_neg hi', Finset.sum_const_zero]
  simp only [callbacks, hwheel, Finset.sum_add_distrib, Finset.sum_ite_eq', Finset.mem_range]
  rw [if_pos (show i < (put w i k e).wheelsNum from hi)]
  rfl

theorem foldl_release_work {i : Nat} (hi : i < w.wheelsNum) {tmp : EntryBucket ι}
    (htmp : ∀ e ∈ tmp, Fits i e) :
    callbacks (tmp.foldl release w) + (tmp.map releaseWork).sum =
      callbacks w + (tmp.map depth).sum := by
  induction tmp generalizing w with
  | nil => rfl
  | cons e tmp ih =>
      have he := htmp e List.mem_cons_self
      have hrest : ∀ e' ∈ tmp, Fits i e' := fun e' he' => htmp e' (List.mem_cons_of_mem _ he')
      rw [List.foldl_cons, List.map_cons, List.map_cons, List.sum_cons, List.sum_cons]
      cases e with
      | entry id =>
          have hnext := ih (w := release w (.entry id)) hi hrest
          rw [show callbacks (release w (.entry id)) = callbacks w from rfl] at hnext
          rw [releaseWork, depth]
          omega
      | callback delay j t e =>
          cases i with
          | zero => exact he.elim
          | succ i =>
              obtain ⟨hpos, rfl, hfits⟩ := he
              have hk := Nat.mod_lt (delay + t % w.bucketsNumPerWheel - 1) (buckets_pos w)
              have hput := callbacks_put (Nat.lt_of_succ_lt hi) hk e
              have hnext := ih (w := release w (.callback delay j t e)) (by rwa [release, if_pos hpos])
                hrest
              rw [release, if_pos hpos, hput] at hnext
              rw [release, if_pos hpos, releaseWork, if_pos hpos, depth]
              omega

theorem insertEntry_work (delay : Nat) (id : ι) :
    callbacks (insertEntry w delay id) = callbacks w + made w delay id := by
  rw [insertEntry, made]
  split
  · rfl
  · obtain ⟨hi, hk, hfits, -⟩ := position_spec w delay id
    exact (callbacks_put hi hk _).trans (congrArg _ (depth_of_fits hfits))

omit [DecidableEq ι] in
theorem made_eq (h : SameClock w w') (delay : Nat) (id : ι) : made w' delay id = made w delay id := by
  rw [made, made, position, position, h.bucketsNumPerWheel, h.wheelsNum, h.ticksCounter]

omit [DecidableEq ι] in
theorem madeBy_eq (h : SameClock w w') (calls : List (Nat × ι)) : madeBy w' calls = madeBy w calls := by
  simp only [madeBy, made_eq h]

theorem foldl_insertEntry_work (calls : List (Nat × ι)) :
    callbacks (calls.foldl (fun w call => insertEntry w call.1 call.2) w) =
      callbacks w + madeBy w calls := by
  induction calls generalizing w with
  | nil => rfl
  | cons call calls ih =>
      have hclock : SameClock w (insertEntry w call.1 call.2) := by
        rw [insertEntry]
        split
        · exact .refl w
        · exact ⟨rfl, rfl, rfl⟩
      rw [List.foldl_cons, ih, insertEntry_work, madeBy_eq hclock, madeBy, madeBy, List.map_cons,
        List.sum_cons, Nat.add_assoc]

end Insert

section Tick

variable [DecidableEq ι] {w : TimingWheel ι}

def tickWheelWork (i pow : Nat) (w : TimingWheel ι) : Nat :=
  if w.ticksCounter % pow = 0 then ((w.wheels i 0).map releaseWork).sum else 0

def tickLoopWork (calls : List (Nat × ι)) : (rest i pow : Nat) → TimingWheel ι → Nat
  | 0, _, _, _ => 0
  | rest + 1, i, pow, w =>
      tickWheelWork i pow w +
        tickLoopWork calls rest (i + 1) (pow * w.bucketsNumPerWheel) (tickWheel calls i pow w)

def work (w : TimingWheel ι) : WheelOp ι → Nat
  | .insertEntry _ _ => 0
  | .tick calls => tickLoopWork calls w.wheelsNum 0 1 (counted w)

theorem tickLoopWork_of_pos (calls : List (Nat × ι)) {rest : Nat} (hrest : 0 < rest) (i pow : Nat)
    (w : TimingWheel ι) :
    tickLoopWork calls rest i pow w = tickWheelWork i pow w +
      tickLoopWork calls (rest - 1) (i + 1) (pow * w.bucketsNumPerWheel)
        (tickWheel calls i pow w) := by
  cases rest with
  | zero => exact absurd hrest (Nat.lt_irrefl 0)
  | succ rest => rfl

theorem tickWheel_zero_work (hw : Placed w) (ht : 0 < w.ticksCounter) (calls : List (Nat × ι)) :
    callbacks (tickWheel calls 0 1 w) + tickWheelWork 0 1 w = callbacks w + madeBy w calls := by
  have hreleased := foldl_release_work (w := rotate w 0) w.wheelsNum_pos
    fun e he => (hw.fits 0 0 e he).2.2
  have hrotated := callbacks_rotate w.wheelsNum_pos
  obtain ⟨hclock, -⟩ := release_front hw ht
  have hpow : w.ticksCounter % 1 = 0 := Nat.mod_one _
  rw [tickWheel, tickWheelWork, if_pos hpow, if_pos hpow, if_pos rfl, foldl_insertEntry_work,
    madeBy_eq hclock]
  omega

theorem tickWheel_succ_work (hw : Placed w) (calls : List (Nat × ι)) {i : Nat} (pow : Nat)
    (hi : i + 1 < w.wheelsNum) :
    callbacks (tickWheel calls (i + 1) pow w) + tickWheelWork (i + 1) pow w = callbacks w := by
  have hreleased := foldl_release_work (w := rotate w (i + 1)) hi
    fun e he => (hw.fits (i + 1) 0 e he).2.2
  have hrotated := callbacks_rotate hi
  rw [tickWheel, tickWheelWork]
  by_cases hpow : w.ticksCounter % pow = 0
  · rw [if_pos hpow, if_pos hpow, if_neg (Nat.succ_ne_zero i)]
    omega
  · rw [if_neg hpow, if_neg hpow, Nat.add_zero]

theorem tickLoop_work (calls : List (Nat × ι)) (rest i : Nat) (hw : Placed w)
    (ht : 0 < w.ticksCounter) (hrest : i + 1 + rest = w.wheelsNum) :
    callbacks (tickLoop calls rest (i + 1) (w.bucketsNumPerWheel ^ (i + 1)) w) +
      tickLoopWork calls rest (i + 1) (w.bucketsNumPerWheel ^ (i + 1)) w = callbacks w := by
  induction rest generalizing i w with
  | zero => rfl
  | succ rest ih =>
      obtain ⟨hclock, hplaced, -⟩ := tickWheel_succ hw calls i ht (by omega)
      have hpass := tickWheel_succ_work hw calls (w.bucketsNumPerWheel ^ (i + 1))
        (show i + 1 < w.wheelsNum by omega)
      have hnext := ih (i + 1) hplaced (hclock.ticksCounter ▸ ht) (by rw [hclock.wheelsNum]; omega)
      rw [hclock.bucketsNumPerWheel] at hnext
      rw [tickLoop, tickLoopWork, ← pow_succ]
      omega

theorem step_work (hw : Placed w) (op : WheelOp ι) :
    callbacks (step w op) + work w op = callbacks w + opMade w op := by
  cases op with
  | insertEntry delay id => exact insertEntry_work delay id
  | tick calls =>
      have hfirst := tickWheel_zero_work hw.counted (Nat.succ_pos _) calls
      obtain ⟨hclock, hplaced, -⟩ := tickWheel_zero hw.counted (Nat.succ_pos _) calls
      have hrest := tickLoop_work calls (w.wheelsNum - 1) 0 hplaced
        (hclock.ticksCounter ▸ Nat.succ_pos _)
        (by rw [hclock.wheelsNum, Nat.zero_add]; exact Nat.add_sub_cancel' w.wheelsNum_pos)
      rw [hclock.bucketsNumPerWheel, Nat.zero_add, pow_one] at hrest
      have htick := tickLoop_of_pos calls w.wheelsNum_pos 0 1 (counted w)
      have hwork := tickLoopWork_of_pos calls w.wheelsNum_pos 0 1 (counted w)
      rw [Nat.one_mul, Nat.zero_add] at htick hwork
      have hcounted : callbacks (counted w) = callbacks w := rfl
      rw [step, show tick w calls = _ from htick, work, hwork, opMade]
      omega

end Tick

section Run

variable [DecidableEq ι] {w : TimingWheel ι}

def runWork (w : TimingWheel ι) : List (WheelOp ι) → Nat
  | [] => 0
  | op :: ops => work w op + runWork (step w op) ops

def runMade (w : TimingWheel ι) : List (WheelOp ι) → Nat
  | [] => 0
  | op :: ops => opMade w op + runMade (step w op) ops

omit [DecidableEq ι] in
theorem made_le (w : TimingWheel ι) (delay : Nat) (id : ι) :
    made w delay id ≤ (w.wheelsNum - 1) * insertions (.insertEntry delay id) := by
  rw [made, insertions]
  split
  · exact Nat.zero_le _
  · have hlt := (position_spec w delay id).1
    omega

omit [DecidableEq ι] in
theorem madeBy_le (w : TimingWheel ι) (calls : List (Nat × ι)) :
    madeBy w calls ≤ (w.wheelsNum - 1) * insertions (.tick calls) := by
  induction calls with
  | nil => exact Nat.zero_le _
  | cons call calls ih =>
      have hcall := made_le w call.1 call.2
      have hcons : insertions (.tick (call :: calls)) =
          insertions (.insertEntry call.1 call.2) + insertions (.tick calls) := by
        simp only [insertions, List.countP_cons, Nat.add_comm, decide_eq_true_eq, ne_eq, ite_not]
      rw [hcons, Nat.mul_add, madeBy, List.map_cons, List.sum_cons]
      exact Nat.add_le_add hcall ih

omit [DecidableEq ι] in
theorem opMade_le (w : TimingWheel ι) (op : WheelOp ι) :
    opMade w op ≤ (w.wheelsNum - 1) * insertions op := by
  cases op with
  | insertEntry delay id => exact made_le w delay id
  | tick calls => exact madeBy_le (counted w) calls

theorem run_books (hw : Placed w) (ops : List (WheelOp ι)) :
    runWork w ops + callbacks (run w ops) = callbacks w + runMade w ops ∧
      runMade w ops ≤ (w.wheelsNum - 1) * (ops.map insertions).sum := by
  induction ops generalizing w with
  | nil => exact ⟨Nat.add_comm _ _, Nat.zero_le _⟩
  | cons op ops ih =>
      obtain ⟨hclock, hplaced, -⟩ := calendar_step hw op
      obtain ⟨hbooks, hmade⟩ := ih hplaced
      have hstep := step_work hw op
      have hwheels : (step w op).wheelsNum = w.wheelsNum := by
        rw [hclock.wheelsNum]
        cases op <;> rfl
      rw [hwheels] at hmade
      have hop := opMade_le w op
      rw [List.map_cons, List.sum_cons, Nat.mul_add]
      refine ⟨?_, Nat.add_le_add hop hmade⟩
      rw [runWork, runMade]
      change work w op + runWork (step w op) ops + callbacks (run (step w op) ops) = _
      omega

/-- In every run the callbacks that have been made have run, once each, but for those that are still
in the buckets. So all ticks together run at most one callback less than there are wheels for each
insertion, however long the delays are. -/
theorem run_work {bucketsNumPerWheel wheelsNum : Nat} (hbuckets : 1 < bucketsNumPerWheel)
    (hwheels : 0 < wheelsNum) (ops : List (WheelOp ι)) :
    let w := create bucketsNumPerWheel wheelsNum hbuckets hwheels
    runWork w ops + callbacks (run w ops) = runMade w ops ∧
      runWork w ops ≤ (wheelsNum - 1) * (ops.map insertions).sum := by
  intro w
  have hcreated := (kept_create (ι := ι) bucketsNumPerWheel wheelsNum hbuckets hwheels).placed
  obtain ⟨hbooks, hmade⟩ := run_books hcreated ops
  have hempty : callbacks w = 0 := by
    simp [callbacks, callbacksOf, w, create]
  rw [hempty, Nat.zero_add] at hbooks
  refine ⟨hbooks, le_trans ?_ hmade⟩
  exact hbooks ▸ Nat.le_add_right _ _

theorem run_work_three :
    let w := create 2 3 (by decide) (by decide)
    runWork w (.insertEntry 7 9 :: List.replicate 8 (.tick [])) ≤ 2 * 1 :=
  (run_work (by decide) (by decide) (.insertEntry 7 9 :: List.replicate 8 (.tick []))).2

end Run

end Cooper.WheelWork

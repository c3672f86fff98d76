import Cooper.WheelDeadline
import Mathlib.Data.Fintype.EquivFin

namespace Cooper.WheelReinsertion

open Cooper.Calendar
open Cooper.Wheel
open Cooper.WheelDeadline

variable {ι : Type*}

def reach (buckets : Nat) : Nat → Nat
  | 0 => 0
  | i + 1 => buckets * (reach buckets i + 1)

/-- Tick `t` rotates wheel `i`, which is not the first and which the entry goes into. -/
def OvertakenAt (buckets t delay i : Nat) : Prop :=
  0 < i ∧ buckets ^ i ∣ t ∧ reach buckets i ≤ delay ∧ delay < reach buckets (i + 1)

def Overtaken (buckets t delay : Nat) : Prop := ∃ i, OvertakenAt buckets t delay i

def ones (buckets : Nat) : Nat → Nat
  | 0 => 0
  | i + 1 => buckets * ones buckets i + 1

/-- What is left of `ticks` at wheel `i`, after the wheels below have been passed. -/
def roundsAt (buckets i ticks t : Nat) : Nat :=
  (ticks + t % buckets ^ i - ones buckets i) / buckets ^ i

/-- The ticks that an entry loses in tick `t` when its own do not fit the wheels: those for which
the last wheel has no buckets, and a bucket if that wheel is still to be rotated. -/
def cutTicks (buckets wheelsNum ticks t : Nat) : Nat :=
  let last := wheelsNum - 1
  buckets ^ last *
    (roundsAt buckets last ticks t - buckets + if 0 < last ∧ buckets ^ last ∣ t then 1 else 0)

/-- In tick `t` the wheel of the entry is not one that is rotated later and nothing is rounded, or
what is rounded up makes good for what the entry loses. -/
def Punctual (buckets wheelsNum t delay : Nat) : Prop :=
  if delayTicks delay ≤ buckets ^ wheelsNum then
    delayTicks delay = delay + 1 ∧ ¬Overtaken buckets t delay ∨
      ∃ i, OvertakenAt buckets t (delayTicks delay - 1) i ∧
        delayTicks delay = delay + 1 + buckets ^ i
  else delayTicks delay = delay + 1 + cutTicks buckets wheelsNum (delayTicks delay) t

section Landing

variable {buckets : Nat}

theorem le_reach_succ (buckets i : Nat) : buckets ≤ reach buckets (i + 1) :=
  Nat.le_mul_of_pos_right _ (Nat.succ_pos _)

theorem le_insertPosition_wheel (buckets rest i delay t : Nat) (e : Entry ι) :
    i ≤ (insertPosition buckets rest i delay t e).1 := by
  induction rest generalizing i delay t e with
  | zero =>
      rw [insertPosition]
      split <;> exact Nat.le_refl i
  | succ rest ih =>
      rw [insertPosition]
      split
      · exact Nat.le_refl i
      · exact (Nat.le_succ i).trans (ih ..)

theorem insertPosition_of_le {rest i delay t : Nat} {e : Entry ι} (hdelay : delay ≤ buckets) :
    insertPosition buckets rest i delay t e = (i, delay - 1, e) := by
  cases rest with
  | zero => rw [insertPosition, if_pos hdelay]
  | succ rest => rw [insertPosition, if_pos hdelay]

theorem rounds_of_dvd {t delay : Nat} (hbuckets : 0 < buckets) (ht : buckets ∣ t)
    (hdelay : buckets ≤ delay) :
    (delay + 1 + t % buckets - 1) / buckets = (delay - buckets) / buckets + 1 := by
  rw [Nat.mod_eq_zero_of_dvd ht, Nat.add_zero, Nat.add_sub_cancel,
    ← Nat.add_div_right _ hbuckets, Nat.sub_add_cancel hdelay]

theorem le_rounds_iff {delay : Nat} (hbuckets : 0 < buckets) (hdelay : buckets ≤ delay) (n : Nat) :
    n ≤ (delay - buckets) / buckets ↔ buckets * (n + 1) ≤ delay := by
  rw [Nat.le_div_iff_mul_le hbuckets, Nat.le_sub_iff_add_le hdelay, Nat.mul_comm, Nat.mul_succ]

theorem insertPosition_wheel (hbuckets : 1 < buckets) (j rest i : Nat) {t delay : Nat} (e : Entry ι)
    (ht : buckets ^ j ∣ t) (hfits : delay + 1 ≤ buckets ^ (rest + 1)) :
    (insertPosition buckets rest i (delay + 1) t e).1 = i + j ↔
      reach buckets j ≤ delay ∧ delay < reach buckets (j + 1) := by
  have hpos : 0 < buckets := Nat.lt_of_succ_lt hbuckets
  induction j generalizing rest i t delay e with
  | zero =>
      rw [reach, reach, reach, Nat.zero_add, Nat.mul_one, Nat.add_zero]
      by_cases hdelay : delay + 1 ≤ buckets
      · rw [insertPosition_of_le hdelay]
        exact iff_of_true rfl ⟨Nat.zero_le _, hdelay⟩
      · refine iff_of_false ?_ fun h => hdelay h.2
        cases rest with
        | zero => exact absurd (hfits.trans_eq (pow_one buckets)) hdelay
        | succ rest =>
            rw [insertPosition, if_neg hdelay]
            exact Nat.ne_of_gt (le_insertPosition_wheel ..)
  | succ j ih =>
      by_cases hdelay : delay + 1 ≤ buckets
      · rw [insertPosition_of_le hdelay]
        refine iff_of_false (by omega) fun h => ?_
        have hreach := le_reach_succ buckets j
        omega
      · have hle : buckets ≤ delay := by omega
        cases rest with
        | zero => exact absurd (hfits.trans_eq (pow_one buckets)) hdelay
        | succ rest =>
            have hround : buckets ∣ t := (Dvd.intro_left _ (pow_succ buckets j).symm).trans ht
            have hnext : buckets ^ j ∣ t / buckets := by
              rw [pow_succ, Nat.mul_comm] at ht
              exact (Nat.dvd_div_iff_mul_dvd hround).mpr ht
            have hrest := rounds_le (t := t) hbuckets hfits
            rw [rounds_of_dvd hpos hround hle] at hrest
            rw [insertPosition, if_neg hdelay, rounds_of_dvd hpos hround hle,
              show i + (j + 1) = i + 1 + j by omega]
            refine (ih rest (i + 1) _ hnext hrest).trans ?_
            refine and_congr (le_rounds_iff hpos hle _) ?_
            exact lt_iff_lt_of_le_iff_le (le_rounds_iff hpos hle _)

theorem roundsAt_succ (hbuckets : 0 < buckets) {ticks : Nat} (hticks : 0 < ticks) (i t : Nat) :
    roundsAt buckets i ((ticks + t % buckets - 1) / buckets) (t / buckets) =
      roundsAt buckets (i + 1) ticks t := by
  have hround : ticks + t % buckets ^ (i + 1) - ones buckets (i + 1) =
      ticks + t % buckets - 1 + buckets * (t / buckets % buckets ^ i) -
        buckets * ones buckets i := by
    rw [pow_succ', Nat.mod_mul, ones]
    omega
  rw [roundsAt, roundsAt, hround, pow_succ', ← Nat.div_div_eq_div_mul, Nat.sub_mul_div,
    Nat.add_mul_div_left _ _ hbuckets]

theorem rounds_ge {rest ticks : Nat} (hbuckets : 1 < buckets)
    (hlong : buckets ^ (rest + 2) ≤ ticks + 1) (t : Nat) :
    buckets ^ (rest + 1) ≤ (ticks + t % buckets - 1) / buckets + 1 := by
  have hsize : (buckets ^ (rest + 1) - 1) * buckets = buckets ^ (rest + 2) - buckets := by
    rw [Nat.sub_mul, Nat.one_mul, ← pow_succ]
  have hle := (Nat.le_div_iff_mul_le (Nat.lt_of_succ_lt hbuckets)).mpr
    (show (buckets ^ (rest + 1) - 1) * buckets ≤ ticks + t % buckets - 1 by omega)
  omega

/-- Ticks that do not fit the wheels lead to the last one, and are cut there to its buckets. -/
theorem insertPosition_cut (hbuckets : 1 < buckets) (t rest i : Nat) {ticks : Nat}
    (hticks : 0 < ticks) (hlong : buckets ^ (rest + 1) ≤ ticks + 1) (e : Entry ι) :
    let position := insertPosition buckets rest i ticks (t / buckets ^ i) e
    position.1 = i + rest ∧
      buckets ^ position.1 * (t / buckets ^ position.1 + position.2.1 + 1) +
          remaining buckets position.2.2 +
          buckets ^ (i + rest) * (roundsAt buckets rest ticks (t / buckets ^ i) - buckets) =
        buckets ^ i * (t / buckets ^ i + ticks) + remaining buckets e := by
  induction rest generalizing i ticks e with
  | zero =>
      have hrounds : roundsAt buckets 0 ticks (t / buckets ^ i) = ticks := by
        rw [roundsAt, ones, pow_zero, Nat.mod_one, Nat.div_one]
        rfl
      rw [insertPosition, hrounds]
      split
      · rename_i hle
        refine ⟨rfl, ?_⟩
        rw [Nat.sub_eq_zero_of_le hle, Nat.add_assoc _ _ 1, Nat.sub_add_cancel hticks]
        rfl
      · rename_i hgt
        refine ⟨rfl, ?_⟩
        have hsplit : t / buckets ^ i + ticks =
            t / buckets ^ i + (buckets - 1) + 1 + (ticks - buckets) := by omega
        rw [hsplit, Nat.mul_add (buckets ^ i) (_ + 1), Nat.add_right_comm]
        rfl
  | succ rest ih =>
      have hlarge : buckets < ticks := by
        have hpow : buckets ^ 2 ≤ buckets ^ (rest + 1 + 1) :=
          Nat.pow_le_pow_right (Nat.lt_of_succ_lt hbuckets) (Nat.le_add_left _ _)
        have hdouble : 2 * buckets ≤ buckets ^ 2 := by
          rw [pow_two]
          exact Nat.mul_le_mul_right _ hbuckets
        omega
      have hpos := rounds_pos (t := t / buckets ^ i) (Nat.lt_of_succ_lt hbuckets) hlarge
      have hround : t / buckets ^ i / buckets = t / buckets ^ (i + 1) := by
        rw [Nat.div_div_eq_div_mul, pow_succ]
      obtain ⟨hwheel, hdeadline⟩ := ih (i + 1) hpos (rounds_ge hbuckets hlong _)
        (.callback ticks i (t / buckets ^ i) e)
      rw [← hround, roundsAt_succ (Nat.lt_of_succ_lt hbuckets) hticks, hround,
        show i + 1 + rest = i + (rest + 1) by omega] at hdeadline
      rw [insertPosition, if_neg (Nat.not_le.mpr hlarge), hround]
      refine ⟨by rw [hwheel]; omega, ?_⟩
      rw [hdeadline, remaining, ← Nat.add_assoc, ← hround, callback_deadline _ _ _ _ hticks]

end Landing

section Deadline

variable {w : TimingWheel ι} {delay : Nat}

/-- The tick rotates the wheel that the entry goes into, and has not done so yet. -/
def RotatedLater (w : TimingWheel ι) (delay : Nat) (id : ι) : Prop :=
  0 < (position w delay id).1 ∧ w.bucketsNumPerWheel ^ (position w delay id).1 ∣ w.ticksCounter

instance (w : TimingWheel ι) (delay : Nat) (id : ι) : Decidable (RotatedLater w delay id) :=
  inferInstanceAs (Decidable (_ ∧ _))

theorem overtakenAt_iff (hfits : delayTicks delay ≤ w.bucketsNumPerWheel ^ w.wheelsNum) (id : ι)
    (i : Nat) :
    OvertakenAt w.bucketsNumPerWheel w.ticksCounter (delayTicks delay - 1) i ↔
      RotatedLater w delay id ∧ (position w delay id).1 = i := by
  have hticks : delayTicks delay - 1 + 1 = delayTicks delay :=
    Nat.sub_add_cancel (delayTicks_pos delay)
  have hwheel : w.bucketsNumPerWheel ^ i ∣ w.ticksCounter →
      ((position w delay id).1 = i ↔ reach w.bucketsNumPerWheel i ≤ delayTicks delay - 1 ∧
        delayTicks delay - 1 < reach w.bucketsNumPerWheel (i + 1)) := by
    intro hdvd
    have hlanding := @insertPosition_wheel ι w.bucketsNumPerWheel w.one_lt_bucketsNumPerWheel i
      (w.wheelsNum - 1) 0 w.ticksCounter (delayTicks delay - 1) (.entry id) hdvd
      (by rw [hticks, Nat.sub_add_cancel w.wheelsNum_pos]; exact hfits)
    rw [hticks, Nat.zero_add] at hlanding
    exact hlanding
  constructor
  · rintro ⟨hi, hdvd, hreach⟩
    obtain rfl := (hwheel hdvd).mpr hreach
    exact ⟨⟨hi, hdvd⟩, rfl⟩
  · rintro ⟨⟨hi, hdvd⟩, rfl⟩
    exact ⟨hi, hdvd, (hwheel hdvd).mp rfl⟩

/-- An entry that is overtaken loses the ticks of a bucket. -/
theorem deadlineAt_one_of_rotatedLater (ht : 0 < w.ticksCounter) {id : ι}
    (hlater : RotatedLater w delay id) :
    deadlineAt 1 w delay id + w.bucketsNumPerWheel ^ (position w delay id).1 =
      w.bucketsNumPerWheel ^ (position w delay id).1 *
          (w.ticksCounter / w.bucketsNumPerWheel ^ (position w delay id).1 +
            (position w delay id).2.1 + 1) +
        remaining w.bucketsNumPerWheel (position w delay id).2.2 := by
  rw [deadlineAt, dropTick_of_ge hlater.1, div_of_dvd ht hlater.2, Nat.add_right_comm _ 1,
    Nat.mul_succ _ (_ + 1)]
  omega

theorem deadlineAt_one_of_not_rotatedLater {id : ι} (hlater : ¬RotatedLater w delay id) :
    deadlineAt 1 w delay id = w.bucketsNumPerWheel ^ (position w delay id).1 *
          (w.ticksCounter / w.bucketsNumPerWheel ^ (position w delay id).1 +
            (position w delay id).2.1 + 1) +
        remaining w.bucketsNumPerWheel (position w delay id).2.2 := by
  rw [RotatedLater, not_and] at hlater
  rw [deadlineAt]
  rcases Nat.eq_zero_or_pos (position w delay id).1 with hi | hi
  · rw [dropTick_of_lt (by omega)]
  · rw [dropTick_of_ge hi, div_of_not_dvd (hlater hi)]

theorem position_cut (hover : w.bucketsNumPerWheel ^ w.wheelsNum < delayTicks delay) (id : ι) :
    (position w delay id).1 = w.wheelsNum - 1 ∧
      w.bucketsNumPerWheel ^ (position w delay id).1 *
            (w.ticksCounter / w.bucketsNumPerWheel ^ (position w delay id).1 +
              (position w delay id).2.1 + 1) +
          remaining w.bucketsNumPerWheel (position w delay id).2.2 +
          w.bucketsNumPerWheel ^ (w.wheelsNum - 1) *
            (roundsAt w.bucketsNumPerWheel (w.wheelsNum - 1) (delayTicks delay) w.ticksCounter -
              w.bucketsNumPerWheel) =
        w.ticksCounter + delayTicks delay := by
  have hcut := insertPosition_cut w.one_lt_bucketsNumPerWheel w.ticksCounter (w.wheelsNum - 1) 0
    (delayTicks_pos delay) (by rw [Nat.sub_add_cancel w.wheelsNum_pos]; omega) (.entry id)
  rw [Nat.zero_add, pow_zero, Nat.div_one, Nat.one_mul] at hcut
  exact hcut

theorem deadlineAt_one_add_cutTicks (ht : 0 < w.ticksCounter)
    (hover : w.bucketsNumPerWheel ^ w.wheelsNum < delayTicks delay) (id : ι) :
    deadlineAt 1 w delay id +
        cutTicks w.bucketsNumPerWheel w.wheelsNum (delayTicks delay) w.ticksCounter =
      w.ticksCounter + delayTicks delay := by
  obtain ⟨hwheel, hdeadline⟩ := position_cut hover id
  have hrotated : RotatedLater w delay id ↔
      0 < w.wheelsNum - 1 ∧ w.bucketsNumPerWheel ^ (w.wheelsNum - 1) ∣ w.ticksCounter := by
    rw [RotatedLater, hwheel]
  rw [cutTicks, Nat.mul_add]
  by_cases hlater : RotatedLater w delay id
  · have hexact := deadlineAt_one_of_rotatedLater ht hlater
    rw [hwheel] at hexact hdeadline
    rw [if_pos (hrotated.mp hlater), Nat.mul_one]
    omega
  · rw [deadlineAt_one_of_not_rotatedLater hlater, if_neg fun h => hlater (hrotated.mpr h),
      Nat.mul_zero]
    exact hdeadline

theorem entered_append_cons (hdelay : 0 < delay) (front back : List (Nat × ι)) (id : ι) :
    entered w (front ++ (delay, id) :: back) =
      insert (deadlineAt 1 w delay id, id) (entered w (front ++ back)) := by
  ext p
  simp only [entered, Set.mem_insert_iff, Set.mem_ofPred_eq, List.mem_append, List.mem_cons,
    or_and_right, exists_or, exists_eq_left, hdelay, true_and]
  exact or_left_comm

variable [DecidableEq ι]

theorem lt_deadlineAt (hw : Placed w) (hdelay : 0 < delay) (id : ι) :
    w.ticksCounter < deadlineAt 1 w delay id := by
  obtain ⟨hclock, hplaced, -, hpending⟩ := insertEntry_spec hw 1 hdelay id
  have hmem : (deadlineAt 1 w delay id, id) ∈ pendingAt 1 (insertEntry w delay id) := by
    rw [hpending]
    exact Set.mem_insert _ _
  exact hclock.ticksCounter ▸ lt_of_mem_pendingAt_one hplaced hmem

theorem run_tick_append_cons (hw : Placed w) (hdelay : 0 < delay) (front back : List (Nat × ι))
    (id : ι) (after : List (WheelOp ι)) (p : Nat × ι) :
    p ∈ (run (tick w (front ++ (delay, id) :: back)) after).dropped ↔
      p ∈ (run (tick w (front ++ back)) after).dropped ∨
        p = (deadlineAt 1 (counted w) delay id, id) ∧
          p.1 ≤ (run (tick w (front ++ back)) after).ticksCounter := by
  obtain ⟨hclock, hplaced, hcalendar⟩ := calendar_step hw (.tick (front ++ back))
  obtain ⟨hclock', hplaced', hcalendar'⟩ :=
    calendar_step hw (.tick (front ++ (delay, id) :: back))
  have hcredit : calendar (step w (.tick (front ++ (delay, id) :: back))) =
      (calendar (step w (.tick (front ++ back)))).credit
        (deadlineAt 1 (counted w) delay id, id) := by
    rw [hcalendar', hcalendar, calendarStep, calendarStep, entered_append_cons hdelay,
      DueTable.advance_insert]
    exact (DueTable.credit_of_lt (lt_deadlineAt hw.counted hdelay id)).symm
  have hsame : SameClock (step w (.tick (front ++ back)))
      (step w (.tick (front ++ (delay, id) :: back))) :=
    ⟨hclock'.1.trans hclock.1.symm, hclock'.2.trans hclock.2.symm, hclock'.3.trans hclock.3.symm⟩
  have hmem := DueTable.mem_credit_dropped (calendar (run (step w (.tick (front ++ back))) after))
    (deadlineAt 1 (counted w) delay id, id) p
  rw [← (calendar_run_credit hplaced hplaced' hsame hcredit after).2] at hmem
  exact hmem

theorem run_ticks (hw : Placed w) (n : Nat) :
    (run w (List.replicate n (.tick []))).ticksCounter = w.ticksCounter + n := by
  induction n generalizing w with
  | zero => rfl
  | succ n ih =>
      obtain ⟨hclock, hplaced, -⟩ := tick_spec hw []
      have hnext : (tick w []).ticksCounter = w.ticksCounter + 1 := hclock.ticksCounter
      have hrest := ih hplaced
      rw [hnext, Nat.add_assoc, Nat.add_comm 1 n] at hrest
      exact hrest

/-- The entry that one call of the tick inserts is dropped one tick after its delay, once, and the
call changes the drop of no other. -/
def ReinsertedInTime (w : TimingWheel ι) (front back : List (Nat × ι)) (delay : Nat) : Prop :=
  0 < delay → ∀ (entryPtr : ι) (after : List (WheelOp ι)),
    let without := run (tick w (front ++ back)) after
    let w' := run (tick w (front ++ (delay, entryPtr) :: back)) after
    w'.dropped.Nodup ∧
      ∀ p, p ∈ w'.dropped ↔
        p ∈ without.dropped ∨
          p = (w.ticksCounter + 1 + delay + 1, entryPtr) ∧ p.1 ≤ without.ticksCounter

theorem reinsertedInTime_of_deadlineAt (hw : Kept w) (front back : List (Nat × ι))
    (hdeadline : ∀ id, deadlineAt 1 (counted w) delay id = w.ticksCounter + 1 + delay + 1) :
    ReinsertedInTime w front back delay := by
  intro hdelay entryPtr after
  refine ⟨(kept_run (hw.tick _) after).dropped_nodup, fun p => ?_⟩
  rw [run_tick_append_cons hw.placed hdelay, hdeadline]

theorem ReinsertedInTime.exists_deadlineAt [Infinite ι] (hw : Kept w) {front back : List (Nat × ι)}
    (h : ReinsertedInTime w front back delay) (hdelay : 0 < delay) {last : Nat}
    (hlast : ∀ id, deadlineAt 1 (counted w) delay id ≤ w.ticksCounter + 1 + last) :
    ∃ id, deadlineAt 1 (counted w) delay id = w.ticksCounter + 1 + delay + 1 := by
  let after : List (WheelOp ι) := List.replicate last (.tick [])
  obtain ⟨entryPtr, hfresh⟩ := Infinite.exists_notMem_finset
    ((run (tick w (front ++ back)) after).dropped.map Prod.snd).toFinset
  have hnow : (run (tick w (front ++ back)) after).ticksCounter = w.ticksCounter + 1 + last := by
    obtain ⟨hclock, hplaced, -⟩ := tick_spec hw.placed (front ++ back)
    exact (run_ticks hplaced last).trans (congrArg (· + last) hclock.ticksCounter)
  have hdropped := (run_tick_append_cons hw.placed hdelay front back entryPtr after
    (deadlineAt 1 (counted w) delay entryPtr, entryPtr)).mpr
    (.inr ⟨rfl, by rw [hnow]; exact hlast entryPtr⟩)
  rcases ((h hdelay entryPtr after).2 _).mp hdropped with hmem | ⟨heq, -⟩
  · exact absurd (List.mem_toFinset.mpr (List.mem_map_of_mem hmem)) hfresh
  · exact ⟨entryPtr, congrArg Prod.fst heq⟩

theorem not_overtaken_of_lt {buckets t : Nat} (hdelay : delay < buckets) :
    ¬Overtaken buckets t delay := by
  rintro ⟨i, hi, -, hreach, -⟩
  obtain ⟨i, rfl⟩ := Nat.exists_eq_succ_of_ne_zero hi.ne'
  exact absurd (hdelay.trans_le (le_reach_succ buckets i)) (Nat.not_lt.mpr hreach)

theorem punctual_iff_of_lt {buckets wheelsNum t : Nat} (hbuckets : 0 < buckets)
    (hsmall : delay < 2 ^ 24) (hfits : delay + 1 ≤ buckets ^ wheelsNum) :
    Punctual buckets wheelsNum t delay ↔ ¬Overtaken buckets t delay := by
  rw [Punctual, delayTicks_of_lt hsmall, if_pos hfits, and_iff_right rfl]
  refine or_iff_left ?_
  rintro ⟨i, -, hround⟩
  have hpow : 0 < buckets ^ i := Nat.pow_pos hbuckets
  omega

theorem reinsertedInTime_iff_of_early [Infinite ι] (hw : Kept w) (front back : List (Nat × ι))
    (hdelay : 0 < delay) {early : Nat}
    (hearly : ∀ id, deadlineAt 1 (counted w) delay id + early =
      w.ticksCounter + 1 + delayTicks delay) :
    ReinsertedInTime w front back delay ↔ delayTicks delay = delay + 1 + early := by
  constructor
  · intro hintime
    obtain ⟨id, hid⟩ := hintime.exists_deadlineAt hw hdelay
      fun id => (Nat.le_add_right _ _).trans_eq (hearly id)
    have hid' := hearly id
    omega
  · intro hexact
    apply reinsertedInTime_of_deadlineAt hw
    intro id
    have hid := hearly id
    omega

/-- An entry that a destructor inserts is dropped in time if its wheel is not rotated later in the
same tick and nothing is rounded, or if what is rounded up makes good for what is lost. -/
theorem reinsertedInTime_iff [Infinite ι] {bucketsNumPerWheel wheelsNum : Nat}
    (hbuckets : 1 < bucketsNumPerWheel) (hwheels : 0 < wheelsNum) (before : List (WheelOp ι))
    (front back : List (Nat × ι)) (delay : Nat) :
    let w := run (create bucketsNumPerWheel wheelsNum hbuckets hwheels) before
    ReinsertedInTime w front back delay ↔
      Punctual bucketsNumPerWheel wheelsNum (w.ticksCounter + 1) delay := by
  intro w
  have hcreated := kept_create (ι := ι) bucketsNumPerWheel wheelsNum hbuckets hwheels
  have hw : Kept w := kept_run hcreated before
  obtain ⟨hsize, hsize'⟩ := run_sizes hcreated.placed before
  have hsize : (counted w).bucketsNumPerWheel = bucketsNumPerWheel := hsize
  have hsize' : (counted w).wheelsNum = wheelsNum := hsize'
  have hnow : (counted w).ticksCounter = w.ticksCounter + 1 := rfl
  have ht : 0 < (counted w).ticksCounter := Nat.succ_pos _
  rw [← hsize, ← hsize', ← hnow]
  rcases Nat.eq_zero_or_pos delay with rfl | hdelay
  · refine iff_of_true (fun hdelay => absurd hdelay (Nat.lt_irrefl 0)) ?_
    rw [Punctual, if_pos (show delayTicks 0 ≤ _ from Nat.one_le_pow _ _ (buckets_pos _))]
    exact Or.inl ⟨rfl, not_overtaken_of_lt (buckets_pos _)⟩
  rw [Punctual]
  split
  · rename_i hfits
    have hdeadline := position_deadline (counted w) hfits
    by_cases hover : ∃ i, OvertakenAt (counted w).bucketsNumPerWheel (counted w).ticksCounter
        (delayTicks delay - 1) i
    · obtain ⟨i, hi⟩ := hover
      have hearly : ∀ id, deadlineAt 1 (counted w) delay id + (counted w).bucketsNumPerWheel ^ i =
          w.ticksCounter + 1 + delayTicks delay := by
        intro id
        obtain ⟨hlater, hwheel⟩ := (overtakenAt_iff hfits id i).mp hi
        have hexact := deadlineAt_one_of_rotatedLater ht hlater
        rw [hdeadline, hwheel] at hexact
        exact hexact
      rw [reinsertedInTime_iff_of_early hw front back hdelay hearly]
      constructor
      · exact fun hround => Or.inr ⟨i, hi, hround⟩
      · rintro (⟨hexact, hnot⟩ | ⟨j, hj, hround⟩)
        · rw [hexact, Nat.add_sub_cancel] at hi
          exact absurd ⟨i, hi⟩ hnot
        · obtain ⟨id⟩ := Infinite.nonempty ι
          have hsame := ((overtakenAt_iff hfits id j).mp hj).2.symm.trans
            ((overtakenAt_iff hfits id i).mp hi).2
          rwa [hsame] at hround
    · have hlate : ∀ id, deadlineAt 1 (counted w) delay id + 0 =
          w.ticksCounter + 1 + delayTicks delay := by
        intro id
        have hnot : ¬RotatedLater (counted w) delay id := by
          intro hlater
          exact hover ⟨_, (overtakenAt_iff hfits id _).mpr ⟨hlater, rfl⟩⟩
        rw [deadlineAt_one_of_not_rotatedLater hnot, hdeadline]
        rfl
      rw [reinsertedInTime_iff_of_early hw front back hdelay hlate]
      constructor
      · intro hexact
        refine Or.inl ⟨hexact, ?_⟩
        rwa [hexact, Nat.add_zero, Nat.add_sub_cancel] at hover
      · rintro (⟨hexact, -⟩ | ⟨i, hi, -⟩)
        · exact hexact
        · exact absurd ⟨i, hi⟩ hover
  · rename_i hover
    exact reinsertedInTime_iff_of_early hw front back hdelay
      (deadlineAt_one_add_cutTicks ht (Nat.lt_of_not_le hover))

/-- Entry 7 is dropped in the second tick of two wheels of two buckets, and its destructor inserts
entry 8. -/
theorem reinsertedInTime_iff_two :
    ReinsertedInTime
      (run (create 2 2 (by decide) (by decide)) [.insertEntry 1 7, .tick []]) [] [] 1 := by
  refine (reinsertedInTime_iff (by decide) (by decide) [.insertEntry 1 7, .tick []] [] [] 1).mpr ?_
  rw [punctual_iff_of_lt (by decide) (by decide) (by decide)]
  exact not_overtaken_of_lt (by decide)

/-- With a delay of 2 entry 8 goes into the second wheel, which the second tick still rotates. -/
theorem not_reinsertedInTime_two :
    ¬ReinsertedInTime
      (run (create 2 2 (by decide) (by decide)) [.insertEntry 1 7, .tick []]) [] [] 2 := by
  intro hintime
  have hdropped := (hintime (by decide) 8 [.tick []]).2 (3, 8)
  revert hdropped
  decide

end Deadline

end Cooper.WheelReinsertion

import Cooper.WheelReinsertion

namespace Cooper.ServerWheel

open Cooper.Calendar
open Cooper.FloatRounding
open Cooper.Wheel
open Cooper.WheelDeadline
open Cooper.WheelReinsertion

variable {ι : Type*}

/-- The loop of the constructor. `fuel` bounds its passes, of which there are no more than
`maxTickNum` as long as no product overflows. -/
def countWheels (bucketsNumPerWheel maxTickNum : Nat) : (fuel wheelsNum ticksNum : Nat) → Nat
  | 0, wheelsNum, _ => wheelsNum
  | fuel + 1, wheelsNum, ticksNum =>
      if maxTickNum > ticksNum then
        countWheels bucketsNumPerWheel maxTickNum fuel (wheelsNum + 1)
          (ticksNum * bucketsNumPerWheel % 2 ^ 64)
      else wheelsNum

def bucketsFor (maxTimeout : Nat) : Nat := if maxTimeout < 500 then maxTimeout + 1 else 100

def wheelsFor (maxTimeout : Nat) : Nat :=
  countWheels (bucketsFor maxTimeout) (toFloat maxTimeout) (toFloat maxTimeout) 1
    (bucketsFor maxTimeout)

theorem countWheels_spec {buckets maxTickNum : Nat} (hbuckets : 1 < buckets)
    (fuel wheelsNum ticksNum : Nat) (hticks : ticksNum ≤ buckets ^ wheelsNum)
    (hfuel : maxTickNum ≤ buckets ^ wheelsNum + fuel) :
    let n := countWheels buckets maxTickNum fuel wheelsNum ticksNum
    wheelsNum ≤ n ∧ maxTickNum ≤ buckets ^ n := by
  induction fuel generalizing wheelsNum ticksNum with
  | zero => exact ⟨Nat.le_refl _, hfuel⟩
  | succ fuel ih =>
      rw [countWheels]
      split
      · rename_i hmore
        have hgrows : buckets ^ wheelsNum + 1 ≤ buckets ^ (wheelsNum + 1) :=
          Nat.pow_lt_pow_right hbuckets (Nat.lt_succ_self wheelsNum)
        have hnext : ticksNum * buckets % 2 ^ 64 ≤ buckets ^ (wheelsNum + 1) := by
          rw [pow_succ]
          exact (Nat.mod_le _ _).trans (Nat.mul_le_mul_right _ hticks)
        obtain ⟨hle, hreach⟩ := ih (wheelsNum + 1) _ hnext (by omega)
        exact ⟨(Nat.le_succ _).trans hle, hreach⟩
      · rename_i henough
        exact ⟨Nat.le_refl _, (Nat.le_of_not_lt henough).trans hticks⟩

section Sizes

variable {maxTimeout : Nat}

theorem one_lt_bucketsFor (h : 1 < maxTimeout) : 1 < bucketsFor maxTimeout := by
  rw [bucketsFor]
  split
  · exact Nat.lt_succ_of_lt h
  · decide

theorem wheelsFor_spec (h : 1 < maxTimeout) : 1 ≤ wheelsFor maxTimeout ∧
    toFloat maxTimeout ≤ bucketsFor maxTimeout ^ wheelsFor maxTimeout :=
  countWheels_spec (one_lt_bucketsFor h) _ 1 _ (pow_one _).ge (Nat.le_add_left _ _)

theorem wheelsFor_of_lt (h : 1 < maxTimeout) (hshort : maxTimeout < 500) :
    wheelsFor maxTimeout = 1 := by
  have hfloat : toFloat maxTimeout = maxTimeout := toFloat_of_le (by omega)
  obtain ⟨fuel, rfl⟩ : ∃ n, maxTimeout = n + 1 := ⟨maxTimeout - 1, by omega⟩
  rw [wheelsFor, hfloat, countWheels, if_neg]
  rw [bucketsFor, if_pos hshort]
  omega

theorem le_toFloat (hlong : 500 ≤ maxTimeout) : 500 ≤ toFloat maxTimeout := by
  rcases Nat.lt_or_ge maxTimeout (2 ^ 24) with hlt | hge
  · rw [toFloat_of_le hlt.le]
    exact hlong
  · exact Nat.le_trans (by decide) (two_pow_le_roundToEven (by decide) hge)

theorem two_le_wheelsFor (hlong : 500 ≤ maxTimeout) : 2 ≤ wheelsFor maxTimeout := by
  have hone : 1 < maxTimeout := by omega
  obtain ⟨hpos, hreach⟩ := wheelsFor_spec hone
  have hfloat := le_toFloat hlong
  by_contra hless
  have hsingle : wheelsFor maxTimeout = 1 := by omega
  rw [hsingle, pow_one, bucketsFor, if_neg (by omega)] at hreach
  omega

theorem delayTicks_le_wheelsFor (hlong : 500 ≤ maxTimeout) :
    delayTicks maxTimeout ≤ 100 ^ wheelsFor maxTimeout + 1 := by
  have hone : 1 < maxTimeout := by omega
  have hreach := (wheelsFor_spec hone).2
  rw [bucketsFor, if_neg (by omega)] at hreach
  rw [delayTicks]
  rcases Nat.lt_or_ge (toFloat maxTimeout) (2 ^ 24) with hexact | hrounded
  · rw [toFloat_of_le hexact]
    exact Nat.succ_le_succ hreach
  rcases Nat.lt_or_ge (toFloat maxTimeout) (2 ^ 25) with hlast | hlarge
  · have hwheels : 4 ≤ wheelsFor maxTimeout := by
      by_contra hfew
      have hsmall : 100 ^ wheelsFor maxTimeout ≤ 100 ^ 3 :=
        Nat.pow_le_pow_right (by decide) (by omega)
      omega
    have hroom : 100 ^ 4 ≤ 100 ^ wheelsFor maxTimeout := Nat.pow_le_pow_right (by decide) hwheels
    have herror := two_pow_mul_roundToEven_le (p := 24) (by decide) (toFloat maxTimeout + 1)
    rw [← toFloat] at herror
    omega
  · have hpos : toFloat maxTimeout ≠ 0 := by omega
    have hlog : 25 ≤ Nat.log2 (toFloat maxTimeout) := (Nat.le_log2 hpos).mpr hlarge
    have hgap : 2 ^ 2 ≤ ulp 24 (toFloat maxTimeout) := Nat.pow_le_pow_right (by decide) (by omega)
    have hsame : toFloat (toFloat maxTimeout + 1) = toFloat maxTimeout :=
      roundToEven_succ (ulp_dvd_self_roundToEven (by decide) maxTimeout) (by omega)
    rw [hsame]
    exact Nat.le_succ_of_le hreach

end Sizes

/-- `maxTimeout` is `idleTimeout_` or `pingPongInterval_`. -/
def construct (maxTimeout : Nat) (h : 1 < maxTimeout) : TimingWheel ι :=
  create (bucketsFor maxTimeout) (wheelsFor maxTimeout) (one_lt_bucketsFor h) (wheelsFor_spec h).1

section Held

def front (w : TimingWheel ι) : List ι := (w.wheels 0 0).map Entry.user

/-- The entry is in the wheels; otherwise `lock` of a weak pointer to it gives null. -/
def held [DecidableEq ι] (w : TimingWheel ι) (id : ι) : Bool :=
  (List.range w.wheelsNum).any fun i => (List.range w.bucketsNumPerWheel).any fun k =>
    (w.wheels i k).any (·.user = id)

variable {w : TimingWheel ι}

theorem mem_front_iff (hw : Placed w) (id : ι) :
    id ∈ front w ↔ (w.ticksCounter + 1, id) ∈ pendingAt w.wheelsNum w := by
  have hrotated := pendingAt_rotate hw.counted 0 (Nat.succ_pos _) (by simp)
  rw [← pendingAt_counted hw, hrotated, front, List.mem_map]
  have hplain : ∀ e ∈ w.wheels 0 0, remaining w.bucketsNumPerWheel e = 0 :=
    fun e he => remaining_of_fits_zero (hw.fits 0 0 e he).2.2
  constructor
  · rintro ⟨e, he, rfl⟩
    refine Or.inr ⟨e, he, ?_⟩
    change (_, _) = (w.ticksCounter + 1 + remaining w.bucketsNumPerWheel e, _)
    rw [hplain e he, Nat.add_zero]
  · rintro (hlater | ⟨e, he, heq⟩)
    · exact absurd (lt_of_mem_pendingAt_one (hw.counted.rotate 0) hlater) (Nat.lt_irrefl _)
    · exact ⟨e, he, (congrArg Prod.snd heq).symm⟩

theorem nodup_front (hw : Placed w) : (front w).Nodup := by
  apply List.Nodup.map_on _ (hw.nodup 0)
  intro e he e' he' heq
  have hfits := (hw.fits 0 0 e he).2.2
  have hfits' := (hw.fits 0 0 e' he').2.2
  cases e with
  | entry id =>
      cases e' with
      | entry id' => exact congrArg Entry.entry heq
      | callback => exact hfits'.elim
  | callback => exact hfits.elim

theorem lt_of_mem_pendingAt (hw : Placed w) {p : Nat × ι} (hp : p ∈ pendingAt w.wheelsNum w) :
    w.ticksCounter < p.1 := by
  obtain ⟨i, k, e, hmem, rfl⟩ := hp
  obtain ⟨hi, -, -⟩ := hw.fits i k e hmem
  rw [dropTick_of_lt hi]
  have hpos : 0 < w.bucketsNumPerWheel ^ i := Nat.pow_pos (buckets_pos w)
  have hnext := Nat.lt_mul_div_succ w.ticksCounter hpos
  have hbucket : w.bucketsNumPerWheel ^ i * (w.ticksCounter / w.bucketsNumPerWheel ^ i + 1) ≤
      w.bucketsNumPerWheel ^ i * (w.ticksCounter / w.bucketsNumPerWheel ^ i + k + 1) :=
    Nat.mul_le_mul_left _ (by omega)
  simp only
  omega

theorem held_iff [DecidableEq ι] (hw : Placed w) (id : ι) :
    held w id = true ↔ ∃ d, (d, id) ∈ pendingAt w.wheelsNum w := by
  simp only [held, List.any_eq_true, List.mem_range, decide_eq_true_eq]
  constructor
  · rintro ⟨i, -, k, -, e, hmem, rfl⟩
    exact ⟨_, i, k, e, hmem, rfl⟩
  · rintro ⟨d, i, k, e, hmem, heq⟩
    obtain ⟨hi, hk, -⟩ := hw.fits i k e hmem
    exact ⟨i, hi, k, hk, e, hmem, (congrArg Prod.snd heq).symm⟩

theorem pendingAt_tick [DecidableEq ι] (hw : Placed w) (calls : List (Nat × ι)) :
    pendingAt (tick w calls).wheelsNum (tick w calls) =
      { p ∈ pendingAt w.wheelsNum w | p.1 ≠ w.ticksCounter + 1 } ∪
        enteredAt 1 (counted w) calls := by
  obtain ⟨hclock, -, hpending, -⟩ := tick_spec hw calls
  rw [hclock.wheelsNum]
  exact hpending

theorem mem_pendingAt_tick_or [DecidableEq ι] (hw : Placed w) {calls : List (Nat × ι)} {p : Nat × ι}
    (hp : p ∈ pendingAt w.wheelsNum w ∪ enteredAt 1 (counted w) calls) :
    p ∈ pendingAt (tick w calls).wheelsNum (tick w calls) ∨ p.1 = w.ticksCounter + 1 := by
  rw [pendingAt_tick hw]
  rcases hp with hp | hp
  · by_cases hlast : p.1 = w.ticksCounter + 1
    · exact Or.inr hlast
    · exact Or.inl (Or.inl ⟨hp, hlast⟩)
  · exact Or.inl (Or.inr hp)

end Held

section Deadline

variable {w : TimingWheel ι} {delay : Nat}

theorem position_deadline_le (w : TimingWheel ι) (delay : Nat) (id : ι) :
    w.bucketsNumPerWheel ^ (position w delay id).1 *
          (w.ticksCounter / w.bucketsNumPerWheel ^ (position w delay id).1 +
            (position w delay id).2.1 + 1) +
        remaining w.bucketsNumPerWheel (position w delay id).2.2 ≤
      w.ticksCounter + delayTicks delay := by
  rcases Nat.lt_or_ge (w.bucketsNumPerWheel ^ w.wheelsNum) (delayTicks delay) with hover | hfits
  · exact (Nat.le_add_right _ _).trans_eq (position_cut hover id).2
  · exact (WheelDeadline.position_deadline w hfits id).le

theorem deadlineAt_one_le (ht : 0 < w.ticksCounter) (id : ι) :
    deadlineAt 1 w delay id ≤ w.ticksCounter + delayTicks delay := by
  have hle := position_deadline_le w delay id
  by_cases hlater : RotatedLater w delay id
  · have hexact := deadlineAt_one_of_rotatedLater ht hlater
    omega
  · rw [deadlineAt_one_of_not_rotatedLater hlater]
    exact hle

/-- The wheels have room for the ticks: several wheels also for one more than their size. -/
def HasRoom (w : TimingWheel ι) (delay : Nat) : Prop :=
  delayTicks delay ≤ w.bucketsNumPerWheel ^ w.wheelsNum ∨
    2 ≤ w.wheelsNum ∧ delayTicks delay ≤ w.bucketsNumPerWheel ^ w.wheelsNum + 1

theorem HasRoom.position_deadline (hroom : HasRoom w delay) (id : ι) :
    w.bucketsNumPerWheel ^ (position w delay id).1 *
          (w.ticksCounter / w.bucketsNumPerWheel ^ (position w delay id).1 +
            (position w delay id).2.1 + 1) +
        remaining w.bucketsNumPerWheel (position w delay id).2.2 =
      w.ticksCounter + delayTicks delay := by
  rcases Nat.lt_or_ge (w.bucketsNumPerWheel ^ w.wheelsNum) (delayTicks delay) with hover | hfits
  · obtain ⟨hwheels, hle⟩ := hroom.resolve_left (Nat.not_le.mpr hover)
    obtain ⟨last, hlast⟩ : ∃ last, w.wheelsNum = last + 2 := ⟨w.wheelsNum - 2, by omega⟩
    obtain ⟨hwheel, hdeadline⟩ := position_cut hover id
    -- The remainder of the tick does not reach another bucket of the last wheel.
    have hrounds : roundsAt w.bucketsNumPerWheel (w.wheelsNum - 1) (delayTicks delay)
        w.ticksCounter ≤ w.bucketsNumPerWheel := by
      have hpow : 0 < w.bucketsNumPerWheel ^ (last + 1) := Nat.pow_pos (buckets_pos w)
      have hmod := Nat.mod_lt w.ticksCounter hpow
      have hticks : delayTicks delay =
          w.bucketsNumPerWheel ^ (last + 1) * w.bucketsNumPerWheel + 1 := by
        rw [← pow_succ, ← hlast]
        omega
      rw [show w.wheelsNum - 1 = last + 1 by omega, roundsAt, ones, hticks]
      apply Nat.le_of_lt_succ
      apply Nat.div_lt_of_lt_mul
      rw [Nat.mul_succ]
      omega
    rw [Nat.sub_eq_zero_of_le hrounds, Nat.mul_zero, Nat.add_zero] at hdeadline
    exact hdeadline
  · exact WheelDeadline.position_deadline w hfits id

theorem pow_le_remaining {i : Nat} {e : Entry ι} (he : Fits (i + 1) e) (buckets : Nat) :
    buckets ^ i ≤ remaining buckets e := by
  cases e with
  | entry id => exact he.elim
  | callback delay j t entryPtr =>
      obtain ⟨-, rfl, -⟩ := he
      rw [remaining]
      exact (Nat.le_mul_of_pos_right _ (Nat.succ_pos _)).trans (Nat.le_add_right _ _)

/-- Also an entry that is rotated too early stays for a round of the first wheel, when its ticks
take two. -/
theorem HasRoom.le_deadlineAt_one (ht : 0 < w.ticksCounter) (hroom : HasRoom w delay)
    (hlong : 2 * w.bucketsNumPerWheel ≤ delayTicks delay) (id : ι) :
    w.ticksCounter + w.bucketsNumPerWheel ≤ deadlineAt 1 w delay id := by
  have hdeadline := hroom.position_deadline id
  by_cases hlater : RotatedLater w delay id
  · have hexact := deadlineAt_one_of_rotatedLater ht hlater
    obtain ⟨hpos, hdvd⟩ := hlater
    rcases Nat.lt_or_ge 1 (position w delay id).1 with hupper | hfirst
    · obtain ⟨i, hi⟩ : ∃ i, (position w delay id).1 = i + 1 + 1 :=
        ⟨(position w delay id).1 - 2, by omega⟩
      have hrest := pow_le_remaining (hi ▸ (position_spec w delay id).2.2.1) w.bucketsNumPerWheel
      have hround : w.bucketsNumPerWheel ≤ w.bucketsNumPerWheel ^ (i + 1) :=
        Nat.le_self_pow (Nat.succ_ne_zero i) _
      rw [Nat.add_assoc _ _ 1, Nat.mul_add, Nat.mul_div_cancel' hdvd, Nat.mul_succ] at hexact
      omega
    · have hone : (position w delay id).1 = 1 := Nat.le_antisymm hfirst hpos
      rw [hone, pow_one] at hexact hdeadline
      omega
  · rw [deadlineAt_one_of_not_rotatedLater hlater, hdeadline]
    omega

/-- An entry that does not fit the first wheel goes into a wheel that is rotated later, in a tick
that rotates all wheels. -/
theorem rotatedLater_of_dvd (hwheels : 2 ≤ w.wheelsNum)
    (hlong : w.bucketsNumPerWheel < delayTicks delay)
    (hdvd : w.bucketsNumPerWheel ^ w.wheelsNum ∣ w.ticksCounter) (id : ι) :
    RotatedLater w delay id := by
  constructor
  · obtain ⟨rest, hrest⟩ : ∃ rest, w.wheelsNum = rest + 2 := ⟨w.wheelsNum - 2, by omega⟩
    rw [position, show w.wheelsNum - 1 = rest + 1 by omega, insertPosition,
      if_neg (Nat.not_le.mpr hlong)]
    exact le_insertPosition_wheel ..
  · exact (Nat.pow_dvd_pow _ (position_spec w delay id).1.le).trans hdvd

theorem deadlineAt_one_add_le (ht : 0 < w.ticksCounter) {id : ι}
    (hlater : RotatedLater w delay id) :
    deadlineAt 1 w delay id + w.bucketsNumPerWheel ≤ w.ticksCounter + delayTicks delay := by
  have hexact := deadlineAt_one_of_rotatedLater ht hlater
  have hle := position_deadline_le w delay id
  have hround : w.bucketsNumPerWheel ≤ w.bucketsNumPerWheel ^ (position w delay id).1 :=
    Nat.le_self_pow hlater.1.ne' _
  omega

theorem landing_ratio {buckets size k delay rest : Nat} (hk : k + 1 ≤ buckets)
    (hdelay : k + 1 ≤ delay) (hrest : rest ≤ 2 * size) :
    (buckets + 2) * (size * k + rest) ≤ (buckets + 1) * (size * delay + rest) := by
  have hlanding : size * k + rest ≤ (buckets + 1) * size := by
    calc
      size * k + rest ≤ size * k + size * 2 := by omega
      _ = size * (k + 2) := (Nat.mul_add ..).symm
      _ ≤ size * (buckets + 1) := Nat.mul_le_mul_left size (Nat.succ_le_succ hk)
      _ = (buckets + 1) * size := Nat.mul_comm ..
  have hlost : size * k + size ≤ size * delay := Nat.mul_le_mul_left size hdelay
  calc
    (buckets + 2) * (size * k + rest)
      = (buckets + 1) * (size * k + rest) + (size * k + rest) := Nat.succ_mul ..
    _ ≤ (buckets + 1) * (size * k + rest) + (buckets + 1) * size := Nat.add_le_add_left hlanding _
    _ = (buckets + 1) * (size * k + rest + size) := (Nat.mul_add ..).symm
    _ ≤ (buckets + 1) * (size * delay + rest) := Nat.mul_le_mul_left _ (by omega)

/-- In a tick that rotates all wheels an entry that does not fit the first one loses a part of its
ticks that does not depend on them: the bucket is as large as a wheel below, and the callbacks have
no more to go than two of these. -/
theorem insertPosition_ratio (hbuckets : 1 < buckets) {t : Nat} (rest i : Nat) {delay : Nat}
    (hdvd : buckets ^ (i + rest + 1) ∣ t) (hdelay : 0 < delay) {e : Entry ι}
    (he : remaining buckets e ≤ 2 * buckets ^ i) :
    let position := insertPosition buckets rest i delay (t / buckets ^ i) e
    (buckets + 2) * (buckets ^ position.1 * position.2.1 + remaining buckets position.2.2) ≤
      (buckets + 1) * (buckets ^ i * delay + remaining buckets e) := by
  have hhere : delay - 1 + 1 = delay := Nat.succ_pred_eq_of_pos hdelay
  have hlast : buckets - 1 + 1 = buckets := Nat.succ_pred_eq_of_pos (Nat.lt_of_succ_lt hbuckets)
  induction rest generalizing i delay e with
  | zero =>
      rw [insertPosition]
      split
      · rename_i hle
        exact landing_ratio (hhere.trans_le hle) hhere.le he
      · rename_i hgt
        exact landing_ratio hlast.le (hlast.trans_le (Nat.le_of_not_le hgt)) he
  | succ rest ih =>
      rw [insertPosition]
      split
      · rename_i hle
        exact landing_ratio (hhere.trans_le hle) hhere.le he
      · rename_i hgt
        have hpos := rounds_pos (t := t / buckets ^ i) (Nat.lt_of_succ_lt hbuckets)
          (Nat.lt_of_not_le hgt)
        have hround : t / buckets ^ i / buckets = t / buckets ^ (i + 1) := by
          rw [Nat.div_div_eq_div_mul, pow_succ]
        have hwhole : buckets * (t / buckets ^ i / buckets) = t / buckets ^ i := by
          apply Nat.mul_div_cancel'
          apply (Nat.dvd_div_iff_mul_dvd ((Nat.pow_dvd_pow buckets (by omega)).trans hdvd)).mpr
          rw [← pow_succ]
          exact (Nat.pow_dvd_pow buckets (by omega)).trans hdvd
        have hcallback := callback_deadline buckets (t / buckets ^ i) delay i hdelay
        rw [Nat.mul_add, pow_succ, Nat.mul_assoc _ buckets (_ / buckets), hwhole, ← pow_succ,
          Nat.mul_add _ _ delay] at hcallback
        have hslot : buckets ^ i * ((delay + t / buckets ^ i % buckets - 1) % buckets + 1) ≤
            buckets ^ (i + 1) := by
          rw [pow_succ]
          exact Nat.mul_le_mul_left _ (Nat.mod_lt _ (Nat.lt_of_succ_lt hbuckets))
        have hbelow : 2 * buckets ^ i ≤ buckets ^ (i + 1) := by
          rw [pow_succ, Nat.mul_comm]
          exact Nat.mul_le_mul_left _ hbuckets
        have hrest := ih (i + 1) (by rwa [show i + 1 + rest + 1 = i + (rest + 1) + 1 by omega]) hpos
          (e := .callback delay i (t / buckets ^ i) e)
          (by
            rw [remaining]
            omega)
          (Nat.succ_pred_eq_of_pos hpos)
        rw [hround]
        refine hrest.trans_eq ?_
        rw [remaining]
        congr 1
        omega

theorem deadlineAt_one_ratio (ht : 0 < w.ticksCounter)
    (hdvd : w.bucketsNumPerWheel ^ w.wheelsNum ∣ w.ticksCounter) {id : ι}
    (hlater : RotatedLater w delay id) :
    (w.bucketsNumPerWheel + 2) * (deadlineAt 1 w delay id - w.ticksCounter) ≤
      (w.bucketsNumPerWheel + 1) * delayTicks delay := by
  have hexact := deadlineAt_one_of_rotatedLater ht hlater
  have hratio := insertPosition_ratio w.one_lt_bucketsNumPerWheel (t := w.ticksCounter)
    (w.wheelsNum - 1) 0 (by rwa [Nat.zero_add, Nat.sub_add_cancel w.wheelsNum_pos])
    (delayTicks_pos delay) (e := .entry id) (Nat.zero_le _)
  rw [pow_zero, Nat.div_one, Nat.one_mul, remaining, Nat.add_zero] at hratio
  rw [Nat.mul_add, Nat.mul_add, Nat.mul_div_cancel' hlater.2, Nat.mul_one] at hexact
  refine (Nat.mul_le_mul_left _ ?_).trans hratio
  rw [← position]
  omega

end Deadline

structure MadeFor (maxTimeout : Nat) (w : TimingWheel ι) : Prop where
  bucketsNumPerWheel : w.bucketsNumPerWheel = bucketsFor maxTimeout
  wheelsNum : w.wheelsNum = wheelsFor maxTimeout

theorem construct_madeFor {maxTimeout : Nat} (h : 1 < maxTimeout) :
    MadeFor maxTimeout (construct maxTimeout h : TimingWheel ι) := ⟨rfl, rfl⟩

namespace MadeFor

variable {maxTimeout : Nat} {w w' : TimingWheel ι} {delay : Nat}

theorem sameClock (hmade : MadeFor maxTimeout w) (h : SameClock w w') : MadeFor maxTimeout w' :=
  ⟨h.bucketsNumPerWheel.trans hmade.bucketsNumPerWheel, h.wheelsNum.trans hmade.wheelsNum⟩

theorem counted (hmade : MadeFor maxTimeout w) : MadeFor maxTimeout (counted w) :=
  ⟨hmade.bucketsNumPerWheel, hmade.wheelsNum⟩

section Short

variable (hmade : MadeFor maxTimeout w) (h : 1 < maxTimeout) (hshort : maxTimeout < 500)

include hmade h hshort

theorem position_of_short (delay : Nat) (id : ι) :
    position w delay id = (0, min (delayTicks delay - 1) maxTimeout, .entry id) := by
  have hbuckets : w.bucketsNumPerWheel = maxTimeout + 1 := by
    rw [hmade.bucketsNumPerWheel, bucketsFor, if_pos hshort]
  rw [position, hmade.wheelsNum, wheelsFor_of_lt h hshort, hbuckets, insertPosition]
  split
  · rename_i hle
    rw [Nat.min_eq_left (Nat.sub_le_of_le_add hle)]
  · rename_i hgt
    rw [Nat.min_eq_right (by omega)]
    rfl

theorem not_rotatedLater_of_short (delay : Nat) (id : ι) : ¬RotatedLater w delay id := by
  rintro ⟨hpos, -⟩
  rw [hmade.position_of_short h hshort] at hpos
  exact absurd hpos (Nat.lt_irrefl 0)

theorem deadlineAt_of_short {stage : Nat} (hstage : 0 < stage) (delay : Nat) (id : ι) :
    deadlineAt stage w delay id =
      w.ticksCounter + min (delayTicks delay - 1) maxTimeout + 1 := by
  rw [deadlineAt, hmade.position_of_short h hshort, dropTick_of_lt hstage]
  simp [remaining]

end Short

theorem bucketsNumPerWheel_of_long (hmade : MadeFor maxTimeout w) (hlong : 500 ≤ maxTimeout) :
    w.bucketsNumPerWheel = 100 := by
  rw [hmade.bucketsNumPerWheel, bucketsFor, if_neg (Nat.not_lt.mpr hlong)]

theorem two_le_wheelsNum (hmade : MadeFor maxTimeout w) (hlong : 500 ≤ maxTimeout) :
    2 ≤ w.wheelsNum := by
  rw [hmade.wheelsNum]
  exact two_le_wheelsFor hlong

theorem hasRoom (hmade : MadeFor maxTimeout w) : HasRoom w maxTimeout := by
  by_cases hshort : maxTimeout < 500
  · left
    rw [hmade.bucketsNumPerWheel, bucketsFor, if_pos hshort, delayTicks_of_lt (by omega)]
    exact Nat.le_self_pow w.wheelsNum_pos.ne' _
  · have hlong := Nat.le_of_not_lt hshort
    right
    rw [hmade.bucketsNumPerWheel_of_long hlong, hmade.wheelsNum]
    exact ⟨two_le_wheelsFor hlong, delayTicks_le_wheelsFor hlong⟩

theorem deadlineAt_wheelsNum (hmade : MadeFor maxTimeout w) (id : ι) :
    deadlineAt w.wheelsNum w maxTimeout id = w.ticksCounter + delayTicks maxTimeout ∧
      (¬RotatedLater w maxTimeout id →
        deadlineAt 1 w maxTimeout id = w.ticksCounter + delayTicks maxTimeout) := by
  have hexact := hmade.hasRoom.position_deadline id
  constructor
  · rw [deadlineAt, dropTick_of_lt (position_spec w maxTimeout id).1]
    exact hexact
  · intro hlater
    rw [deadlineAt_one_of_not_rotatedLater hlater]
    exact hexact

end MadeFor

end Cooper.ServerWheel

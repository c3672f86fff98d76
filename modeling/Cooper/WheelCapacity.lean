import Cooper.FloatRounding
import Cooper.ServerWheel
import Cooper.WheelReinsertion
import Cooper.WhileLoop

namespace Cooper.WheelCapacity

open Cooper.Calendar
open Cooper.FloatRounding
open Cooper.ServerWheel
open Cooper.Wheel hiding tickLoop tick step run
open Cooper.WheelDeadline
open Cooper.WhileLoop

/-- The loop of the constructor, at `wheelsNum_` and `ticksNum`. -/
def sizingStep (bucketsNumPerWheel maxTickNum : Nat) (s : Nat × Nat) : Nat × Nat ⊕ Nat :=
  if maxTickNum > s.2 then .inl (s.1 + 1, s.2 * bucketsNumPerWheel % 2 ^ 64) else .inr s.1

/-- The number of wheels that the constructor chooses. -/
def WheelsNum (maxTimeout bucketsNumPerWheel : Nat) (wheelsNum : Nat) : Prop :=
  Returns (sizingStep bucketsNumPerWheel (toFloat maxTimeout)) (1, bucketsNumPerWheel) wheelsNum

variable {ι : Type*} [DecidableEq ι]

def tickLoop (calls : List (Nat × ι)) : (rest i pow : Nat) → TimingWheel ι → TimingWheel ι
  | 0, _, _, w => w
  | rest + 1, i, pow, w =>
      tickLoop calls rest (i + 1) (pow * w.bucketsNumPerWheel % 2 ^ 64) (tickWheel calls i pow w)

def tick (w : TimingWheel ι) (calls : List (Nat × ι)) : TimingWheel ι :=
  tickLoop calls w.wheelsNum 0 1 (counted w)

def step (w : TimingWheel ι) : WheelOp ι → TimingWheel ι
  | .insertEntry delay id => insertEntry w delay id
  | .tick calls => tick w calls

def run (w : TimingWheel ι) (ops : List (WheelOp ι)) : TimingWheel ι := ops.foldl step w

section Late

variable {ι : Type*} {w : TimingWheel ι}

theorem pow_le_dropTick (buckets t stage i k : Nat) :
    buckets ^ i ≤ dropTick buckets t stage i k :=
  Nat.le_mul_of_pos_right _ (Nat.succ_pos _)

/-- A wheel whose first rotation is later than all that is due has nothing in it. -/
theorem wheels_eq_nil {stage i : Nat}
    (hdue : ∀ p ∈ pendingAt stage w, p.1 < w.bucketsNumPerWheel ^ i) (k : Nat) :
    w.wheels i k = [] := by
  apply List.eq_nil_iff_forall_not_mem.mpr
  intro e hmem
  have hlt := hdue _ ⟨i, k, e, hmem, rfl⟩
  have hle := pow_le_dropTick w.bucketsNumPerWheel w.ticksCounter stage i k
  exact absurd ((hle.trans (Nat.le_add_right _ _)).trans_lt hlt) (Nat.lt_irrefl _)

theorem rotate_eq_self {i : Nat} (hempty : ∀ k, w.wheels i k = []) : rotate w i = w := by
  have hwheels : (rotate w i).wheels = w.wheels := by
    funext i' k
    rw [rotate]
    by_cases hi : i' = i
    · subst hi
      simp [hempty]
    · simp [hi]
  cases w
  simp only [rotate] at hwheels ⊢
  rw [hwheels]

/-- The products of the callback fit, or the wheels where they do not are empty. -/
def Reaches (stage : Nat) (w : TimingWheel ι) : Prop :=
  ∀ i, i < w.wheelsNum → w.bucketsNumPerWheel ^ i < 2 ^ 64 ∨
    ∀ p ∈ pendingAt stage w, p.1 < w.bucketsNumPerWheel ^ i

end Late

section Exact

variable {w : TimingWheel ι}

theorem tickWheel_eq_self {i : Nat} (hi : i ≠ 0) (hempty : ∀ k, w.wheels i k = [])
    (calls : List (Nat × ι)) (pow : Nat) : tickWheel calls i pow w = w := by
  rw [tickWheel, hempty, rotate_eq_self hempty]
  simp [hi]

theorem tickLoop_eq (calls : List (Nat × ι)) (rest stage : Nat) (hw : Placed w)
    (ht : 0 < w.ticksCounter) (hrest : stage + 1 + rest = w.wheelsNum)
    (hreaches : Reaches (stage + 1) w) :
    tickLoop calls rest (stage + 1) (w.bucketsNumPerWheel ^ (stage + 1) % 2 ^ 64) w =
      Wheel.tickLoop calls rest (stage + 1) (w.bucketsNumPerWheel ^ (stage + 1)) w := by
  induction rest generalizing stage w with
  | zero => rfl
  | succ rest ih =>
      have hpass : tickWheel calls (stage + 1) (w.bucketsNumPerWheel ^ (stage + 1) % 2 ^ 64) w =
          tickWheel calls (stage + 1) (w.bucketsNumPerWheel ^ (stage + 1)) w := by
        rcases hreaches (stage + 1) (by omega) with hfits | hlate
        · rw [Nat.mod_eq_of_lt hfits]
        · have hempty := wheels_eq_nil hlate
          rw [tickWheel_eq_self (Nat.succ_ne_zero stage) hempty,
            tickWheel_eq_self (Nat.succ_ne_zero stage) hempty]
      obtain ⟨hclock, hplaced, -, hpending⟩ :=
        tickWheel_succ hw calls stage ht (by omega)
      have hreaches' : Reaches (stage + 2) (tickWheel calls (stage + 1)
          (w.bucketsNumPerWheel ^ (stage + 1)) w) := by
        intro i hi
        rw [hclock.bucketsNumPerWheel, hpending]
        exact hreaches i (hclock.wheelsNum ▸ hi)
      have hnext := ih (stage + 1) hplaced (hclock.ticksCounter ▸ ht)
        (by rw [hclock.wheelsNum]; omega) hreaches'
      rw [hclock.bucketsNumPerWheel] at hnext
      rw [tickLoop, Wheel.tickLoop, hpass, Nat.mod_mul_mod, ← pow_succ]
      exact hnext

theorem tick_eq (hw : Placed w) {calls : List (Nat × ι)}
    (hreaches : ∀ i, i < w.wheelsNum → w.bucketsNumPerWheel ^ i < 2 ^ 64 ∨
      calls = [] ∧ ∀ p ∈ pendingAt w.wheelsNum w, p.1 < w.bucketsNumPerWheel ^ i) :
    tick w calls = Wheel.tick w calls := by
  obtain ⟨rest, hrest⟩ : ∃ rest, w.wheelsNum = rest + 1 :=
    ⟨w.wheelsNum - 1, (Nat.sub_add_cancel w.wheelsNum_pos).symm⟩
  obtain ⟨hclock, hplaced, hpending, -⟩ := tickWheel_zero hw.counted (Nat.succ_pos _) calls
  rw [pendingAt_counted hw] at hpending
  have hreaches' : Reaches 1 (tickWheel calls 0 1 (counted w)) := by
    intro i hi
    rw [hclock.bucketsNumPerWheel]
    refine (hreaches i (hclock.wheelsNum ▸ hi)).imp_right ?_
    rintro ⟨rfl, hlate⟩ p hp
    rw [hpending] at hp
    rcases hp with hp | ⟨call, hcall, -⟩
    · exact hlate p hp.1
    · exact absurd hcall List.not_mem_nil
  have hnext := tickLoop_eq calls rest 0 hplaced (hclock.ticksCounter ▸ Nat.succ_pos _)
    (by rw [hclock.wheelsNum, Nat.zero_add, Nat.add_comm]; exact hrest.symm) hreaches'
  rw [hclock.bucketsNumPerWheel, Nat.zero_add, pow_one] at hnext
  have htick : Wheel.tick w calls = Wheel.tickLoop calls (rest + 1) 0 1 (counted w) :=
    congrArg (fun n => Wheel.tickLoop calls n 0 1 (counted w)) hrest
  rw [htick, tick, hrest, tickLoop, Wheel.tickLoop, Nat.one_mul]
  exact hnext

theorem run_eq (hw : Placed w) (hfits : ∀ i, i < w.wheelsNum → w.bucketsNumPerWheel ^ i < 2 ^ 64)
    (ops : List (WheelOp ι)) : run w ops = Wheel.run w ops := by
  induction ops generalizing w with
  | nil => rfl
  | cons op ops ih =>
      have hstep : step w op = Wheel.step w op := by
        cases op with
        | insertEntry delay id => rfl
        | tick calls => exact tick_eq hw fun i hi => Or.inl (hfits i hi)
      obtain ⟨-, hplaced, -⟩ := calendar_step hw op
      obtain ⟨hbuckets, hwheels⟩ := run_sizes hw [op]
      change run (step w op) ops = Wheel.run (Wheel.step w op) ops
      rw [hstep]
      apply ih hplaced
      intro i hi
      exact hbuckets ▸ hfits i (hwheels ▸ hi)

theorem run_ticks_eq (hw : Placed w) (hdue : ∀ p ∈ pendingAt w.wheelsNum w, p.1 < 2 ^ 64)
    (n : Nat) :
    Placed (run w (List.replicate n (.tick []))) ∧
      (run w (List.replicate n (.tick []))).ticksCounter = w.ticksCounter + n ∧
      (run w (List.replicate n (.tick []))).wheelsNum = w.wheelsNum ∧
      pendingAt w.wheelsNum (run w (List.replicate n (.tick []))) ⊆ pendingAt w.wheelsNum w := by
  induction n generalizing w with
  | zero => exact ⟨hw, rfl, rfl, Set.Subset.rfl⟩
  | succ n ih =>
      have htick : tick w [] = Wheel.tick w [] := by
        apply tick_eq hw
        intro i _
        refine (Nat.lt_or_ge _ _).imp_right fun hlarge => ⟨rfl, fun p hp => ?_⟩
        exact (hdue p hp).trans_le hlarge
      obtain ⟨hclock, hplaced, hpending, -⟩ := tick_spec hw []
      have hsubset : pendingAt w.wheelsNum (Wheel.tick w []) ⊆ pendingAt w.wheelsNum w := by
        rw [hpending]
        rintro p (hp | ⟨call, hcall, -⟩)
        · exact hp.1
        · exact absurd hcall List.not_mem_nil
      have hwheels : (Wheel.tick w []).wheelsNum = w.wheelsNum := hclock.wheelsNum
      have hnow : (Wheel.tick w []).ticksCounter = w.ticksCounter + 1 := hclock.ticksCounter
      have hrest := ih hplaced fun p hp => hdue p (hsubset (hwheels ▸ hp))
      rw [hwheels, hnow, Nat.add_assoc, Nat.add_comm 1 n, ← htick] at hrest
      rw [← htick] at hsubset
      exact ⟨hrest.1, hrest.2.1, hrest.2.2.1, hrest.2.2.2.trans hsubset⟩

end Exact

section Sizing

variable {maxTimeout buckets wheelsNum : Nat}

/-- However often the product has overflowed, the powers themselves have come as far. -/
theorem wheelsNum_spec (h : WheelsNum maxTimeout buckets wheelsNum) :
    0 < wheelsNum ∧ toFloat maxTimeout ≤ buckets ^ wheelsNum := by
  obtain ⟨fuel, hfuel⟩ := h
  refine of_iterate (fun s => 0 < s.1 ∧ s.2 ≤ buckets ^ s.1)
    (fun n => 0 < n ∧ toFloat maxTimeout ≤ buckets ^ n) ?_ ?_ ⟨Nat.one_pos, (pow_one _).ge⟩ hfuel
  · rintro s s' ⟨hpos, hle⟩ hstep
    rw [sizingStep] at hstep
    split at hstep
    · obtain rfl := Sum.inl.inj hstep
      refine ⟨Nat.succ_pos _, (Nat.mod_le _ _).trans ?_⟩
      rw [pow_succ]
      exact Nat.mul_le_mul_right _ hle
    · contradiction
  · rintro s r ⟨hpos, hle⟩ hstep
    rw [sizingStep] at hstep
    split at hstep
    · contradiction
    · rename_i henough
      obtain rfl := Sum.inr.inj hstep
      exact ⟨hpos, (Nat.le_of_not_lt henough).trans hle⟩

/-- Where no product overflows, the loop of the constructor counts the wheels of the server. -/
theorem returns_countWheels {maxTickNum : Nat} (hbuckets : 1 < buckets)
    (hfits : maxTickNum * buckets ≤ 2 ^ 64) (fuel wheelsNum ticksNum : Nat) (hpos : 0 < ticksNum)
    (hfuel : maxTickNum ≤ ticksNum + fuel) :
    Returns (sizingStep buckets maxTickNum) (wheelsNum, ticksNum)
      (countWheels buckets maxTickNum fuel wheelsNum ticksNum) := by
  induction fuel generalizing wheelsNum ticksNum with
  | zero =>
      have hstep : sizingStep buckets maxTickNum (wheelsNum, ticksNum) = .inr wheelsNum :=
        if_neg (Nat.not_lt.mpr hfuel)
      exact (returns_inr_iff hstep).mpr rfl
  | succ fuel ih =>
      rw [countWheels]
      split
      · rename_i hmore
        have hstep : sizingStep buckets maxTickNum (wheelsNum, ticksNum) =
            .inl (wheelsNum + 1, ticksNum * buckets % 2 ^ 64) := if_pos hmore
        have hsmall : ticksNum * buckets < 2 ^ 64 :=
          (Nat.mul_lt_mul_of_pos_right hmore (Nat.lt_of_succ_lt hbuckets)).trans_le hfits
        have hgrows : ticksNum < ticksNum * buckets := lt_mul_of_one_lt_right hpos hbuckets
        rw [returns_inl_iff hstep, Nat.mod_eq_of_lt hsmall]
        exact ih _ _ (hpos.trans hgrows) (by omega)
      · rename_i henough
        have hstep : sizingStep buckets maxTickNum (wheelsNum, ticksNum) = .inr wheelsNum :=
          if_neg henough
        exact (returns_inr_iff hstep).mpr rfl

theorem wheelsNum_iff_wheelsFor (h : 1 < maxTimeout)
    (hfits : toFloat maxTimeout * bucketsFor maxTimeout ≤ 2 ^ 64) :
    WheelsNum maxTimeout (bucketsFor maxTimeout) wheelsNum ↔ wheelsNum = wheelsFor maxTimeout := by
  have hbuckets := one_lt_bucketsFor h
  have hreturns : WheelsNum maxTimeout (bucketsFor maxTimeout) (wheelsFor maxTimeout) :=
    returns_countWheels hbuckets hfits _ 1 _ (Nat.lt_of_succ_lt hbuckets) (Nat.le_add_left _ _)
  constructor
  · intro hchosen
    exact Returns.unique hchosen hreturns
  · rintro rfl
    exact hreturns

theorem wheelsNum_of_le (h : WheelsNum maxTimeout buckets wheelsNum)
    (hle : toFloat maxTimeout ≤ buckets) : wheelsNum = 1 := by
  have hstep : sizingStep buckets (toFloat maxTimeout) (1, buckets) = .inr 1 :=
    if_neg (Nat.not_lt.mpr hle)
  exact (returns_inr_iff hstep).mp h

theorem exists_wheelsNum (hbuckets : 1 < buckets) (hmax : maxTimeout < 2 ^ 24) :
    ∃ wheelsNum, WheelsNum maxTimeout buckets wheelsNum ∧ 0 < wheelsNum ∧
      maxTimeout ≤ buckets ^ wheelsNum ∧
      (wheelsNum = 1 ∨ buckets ^ (wheelsNum - 1) < maxTimeout) := by
  have hfloat := toFloat_of_le hmax.le
  simp only [WheelsNum, hfloat]
  refine exists_returns_of_variant
    (fun s => 0 < s.1 ∧ s.2 = buckets ^ s.1 ∧ (s.1 = 1 ∨ buckets ^ (s.1 - 1) < maxTimeout)) _
    (fun s => maxTimeout - s.2) ?_ ?_ ⟨Nat.one_pos, (pow_one _).symm, Or.inl rfl⟩
  · rintro s s' ⟨hpos, hproduct, -⟩ hstep
    rw [sizingStep] at hstep
    split at hstep
    · rename_i hmore
      obtain rfl := Sum.inl.inj hstep
      have hbase : buckets ≤ buckets ^ s.1 := Nat.le_self_pow hpos.ne' _
      have hsmall : s.2 * buckets < 2 ^ 64 := by
        calc
          s.2 * buckets ≤ 2 ^ 24 * 2 ^ 24 := Nat.mul_le_mul (by omega) (by omega)
          _ < 2 ^ 64 := by decide
      have hgrows : s.2 < s.2 * buckets :=
        lt_mul_of_one_lt_right (hproduct ▸ Nat.pow_pos (by omega)) hbuckets
      rw [Nat.mod_eq_of_lt hsmall]
      refine ⟨⟨Nat.succ_pos _, ?_, Or.inr ?_⟩, ?_⟩
      · rw [hproduct, pow_succ]
      · rw [Nat.add_sub_cancel, ← hproduct]
        exact hmore
      · simp only
        omega
    · contradiction
  · rintro s r ⟨hpos, hproduct, hbefore⟩ hstep
    rw [sizingStep] at hstep
    split at hstep
    · contradiction
    · rename_i henough
      obtain rfl := Sum.inr.inj hstep
      exact ⟨hpos, hproduct ▸ Nat.le_of_not_lt henough, hbefore⟩

theorem pow_lt_of_least {wheelsNum : Nat} (hbuckets : 1 < buckets) (hmax : maxTimeout < 2 ^ 24)
    (hleast : wheelsNum = 1 ∨ buckets ^ (wheelsNum - 1) < maxTimeout) {i : Nat}
    (hi : i < wheelsNum) : buckets ^ i < 2 ^ 64 := by
  rcases hleast with rfl | hless
  · obtain rfl : i = 0 := by omega
    rw [pow_zero]
    decide
  · have hpow : buckets ^ i ≤ buckets ^ (wheelsNum - 1) :=
      Nat.pow_le_pow_right (Nat.lt_of_succ_lt hbuckets) (by omega)
    omega

theorem room_of_le {wheelsNum delay : Nat} (hne : maxTimeout ≠ buckets) (hwheels : 0 < wheelsNum)
    (hreach : maxTimeout ≤ buckets ^ wheelsNum) (hdelay : delay ≤ maxTimeout)
    (hticks : delayTicks delay = delay + 1) :
    delayTicks delay ≤ buckets ^ wheelsNum ∨
      2 ≤ wheelsNum ∧ delayTicks delay ≤ buckets ^ wheelsNum + 1 := by
  rw [hticks]
  rcases Nat.lt_or_ge 1 wheelsNum with hmore | hone
  · exact Or.inr ⟨hmore, Nat.succ_le_succ (hdelay.trans hreach)⟩
  · obtain rfl : wheelsNum = 1 := by omega
    rw [pow_one] at hreach ⊢
    omega

end Sizing

section Capacity

/-- Whatever delay up to `maxTimeout` an entry is inserted with between two ticks, it is held until
one tick more than this delay has passed. -/
def KeepsDelays (ι : Type*) [DecidableEq ι] (maxTimeout bucketsNumPerWheel : Nat)
    (hbuckets : 1 < bucketsNumPerWheel) : Prop :=
  ∃ (wheelsNum : Nat) (hwheels : 0 < wheelsNum), WheelsNum maxTimeout bucketsNumPerWheel wheelsNum ∧
    ∀ (before after : List (WheelOp ι)) (delay : Nat) (id : ι), 1 ≤ delay → delay ≤ maxTimeout →
      let w := run (create bucketsNumPerWheel wheelsNum hbuckets hwheels) before
      let w' := run (insertEntry w delay id) after
      w'.ticksCounter ≤ w.ticksCounter + delay → held w' id = true

variable {maxTimeout buckets : Nat} {w : TimingWheel ι}

theorem ticksCounter_le_run (hw : Placed w) (ops : List (WheelOp ι)) :
    w.ticksCounter ≤ (Wheel.run w ops).ticksCounter := by
  induction ops generalizing w with
  | nil => exact Nat.le_refl _
  | cons op ops ih =>
      obtain ⟨hclock, hplaced, -⟩ := calendar_step hw op
      have hstep : w.ticksCounter ≤ (Wheel.step w op).ticksCounter := by
        rw [hclock.ticksCounter]
        cases op with
        | insertEntry delay id => exact Nat.le_refl _
        | tick calls => exact Nat.le_succ _
      exact hstep.trans (ih hplaced)

theorem mem_pendingAt_run (hw : Placed w) {p : Nat × ι} (hp : p ∈ pendingAt w.wheelsNum w)
    (ops : List (WheelOp ι)) (hlate : (Wheel.run w ops).ticksCounter < p.1) :
    p ∈ pendingAt w.wheelsNum (Wheel.run w ops) := by
  induction ops generalizing w with
  | nil => exact hp
  | cons op ops ih =>
      obtain ⟨hclock, hplaced, hcalendar⟩ := calendar_step hw op
      have hwheels := (run_sizes hw [op]).2
      have hnow : (Wheel.step w op).ticksCounter < p.1 :=
        (ticksCounter_le_run hplaced ops).trans_lt hlate
      have hdue : p ∈ (calendar (Wheel.step w op)).due := by
        rw [hcalendar]
        cases op with
        | insertEntry delay id =>
            rw [calendarStep]
            split
            · exact hp
            · exact Set.mem_insert_of_mem _ hp
        | tick calls =>
            refine Or.inl ⟨hp, ?_⟩
            rw [hclock.ticksCounter] at hnow
            exact Nat.ne_of_gt hnow
      have hrest := ih hplaced hdue hlate
      rwa [show (Wheel.step w op).wheelsNum = w.wheelsNum from hwheels] at hrest

theorem keepsDelays_of_ne (hbuckets : 1 < buckets) (hne : maxTimeout ≠ buckets)
    (hmax : maxTimeout < 2 ^ 24) : KeepsDelays ι maxTimeout buckets hbuckets := by
  obtain ⟨wheelsNum, hchosen, hwheels, hreach, hleast⟩ := exists_wheelsNum hbuckets hmax
  have hfits : ∀ i, i < wheelsNum → buckets ^ i < 2 ^ 64 :=
    fun i hi => pow_lt_of_least hbuckets hmax hleast hi
  refine ⟨wheelsNum, hwheels, hchosen, ?_⟩
  intro before after delay id hdelay hle w w' hnow
  have hcreated := kept_create (ι := ι) buckets wheelsNum hbuckets hwheels
  have hrun : w = Wheel.run (create buckets wheelsNum hbuckets hwheels) before :=
    run_eq hcreated.placed hfits before
  have hkept : Kept w := hrun ▸ kept_run hcreated before
  have hw := hkept.placed
  obtain ⟨hsize, hsize'⟩ := run_sizes hcreated.placed before
  rw [← hrun] at hsize hsize'
  have hticks : delayTicks delay = delay + 1 := delayTicks_of_lt (hle.trans_lt hmax)
  obtain ⟨hclock, hplaced, -, hpending⟩ := insertEntry_spec hw w.wheelsNum hdelay id
  have hdeadline : deadlineAt w.wheelsNum w delay id = w.ticksCounter + delay + 1 := by
    have hroom : HasRoom w delay := by
      rw [HasRoom, hsize, hsize']
      exact room_of_le hne hwheels hreach hle hticks
    rw [deadlineAt, dropTick_of_lt (position_spec w delay id).1, hroom.position_deadline, hticks]
    rfl
  have hafter : w' = Wheel.run (insertEntry w delay id) after := by
    apply run_eq hplaced
    intro i hi
    rw [hclock.bucketsNumPerWheel, hsize]
    exact hfits i (by rwa [hclock.wheelsNum, hsize'] at hi)
  have hmem : (w.ticksCounter + delay + 1, id) ∈
      pendingAt (insertEntry w delay id).wheelsNum (insertEntry w delay id) := by
    rw [hclock.wheelsNum, hpending, hdeadline]
    exact Set.mem_insert _ _
  have hstays := mem_pendingAt_run hplaced hmem after (hafter ▸ Nat.lt_succ_of_le hnow)
  have hend := (kept_run (hkept.insertEntry delay id) after).placed
  rw [← (run_sizes hplaced after).2] at hstays
  rw [hafter]
  exact (held_iff hend id).mpr ⟨_, hstays⟩

/-- The first entry of new wheels is dropped when it is due, however many more wheels there are. -/
theorem not_keepsDelays_of_deadline [Inhabited ι] (hbuckets : 1 < buckets) (delay : Nat)
    (hdelay : 1 ≤ delay) (hle : delay ≤ maxTimeout) (hsmall : delay < 2 ^ 64)
    (hdeadline : ∀ (wheelsNum : Nat) (hwheels : 0 < wheelsNum),
      WheelsNum maxTimeout buckets wheelsNum →
        deadlineAt wheelsNum (create buckets wheelsNum hbuckets hwheels) delay (default : ι) ≤
          delay) :
    ¬KeepsDelays ι maxTimeout buckets hbuckets := by
  rintro ⟨wheelsNum, hwheels, hchosen, hkeeps⟩
  have hearly := hdeadline wheelsNum hwheels hchosen
  have hcreated := (kept_create (ι := ι) buckets wheelsNum hbuckets hwheels).placed
  obtain ⟨hclock, hplaced, -, hpending⟩ := insertEntry_spec hcreated wheelsNum hdelay default
  have hheld : (run (insertEntry (create buckets wheelsNum hbuckets hwheels) delay (default : ι))
        (List.replicate delay (.tick []))).ticksCounter ≤ 0 + delay →
      held (run (insertEntry (create buckets wheelsNum hbuckets hwheels) delay default)
        (List.replicate delay (.tick []))) (default : ι) = true :=
    hkeeps [] (List.replicate delay (.tick [])) delay default hdelay hle
  generalize insertEntry (create buckets wheelsNum hbuckets hwheels) delay (default : ι) = w
    at hclock hplaced hpending hheld
  have hsize : w.wheelsNum = wheelsNum := hclock.wheelsNum
  have hstart : w.ticksCounter = 0 := hclock.ticksCounter
  have honly : ∀ p ∈ pendingAt w.wheelsNum w, p.1 ≤ delay := by
    intro p hp
    rw [hsize, hpending] at hp
    rcases hp with rfl | ⟨i, k, e, hmem, -⟩
    · exact hearly
    · exact absurd hmem List.not_mem_nil
  obtain ⟨hend, hnow, hwheels', hsubset⟩ :=
    run_ticks_eq hplaced (fun p hp => (honly p hp).trans_lt hsmall) delay
  rw [hstart] at hnow
  obtain ⟨d, hd⟩ := (held_iff hend default).mp (hheld hnow.le)
  have hlater := lt_of_mem_pendingAt hend hd
  rw [hwheels'] at hd
  have hdue := honly _ (hsubset hd)
  omega

theorem not_keepsDelays_self [Inhabited ι] (hbuckets : 1 < buckets) (hmax : buckets < 2 ^ 24) :
    ¬KeepsDelays ι buckets buckets hbuckets := by
  apply not_keepsDelays_of_deadline hbuckets buckets (Nat.lt_of_succ_lt hbuckets) (Nat.le_refl _)
    (hmax.trans (by decide))
  intro wheelsNum hwheels hchosen
  obtain rfl := wheelsNum_of_le hchosen (toFloat_of_le hmax.le).le
  have hposition : position (create buckets 1 hbuckets hwheels) buckets (default : ι) =
      (0, buckets - 1, .entry default) := by
    rw [position, delayTicks_of_lt hmax]
    exact if_neg (Nat.not_succ_le_self buckets)
  rw [deadlineAt, hposition, dropTick_of_lt Nat.one_pos, pow_zero, remaining]
  change 1 * (0 / 1 + (buckets - 1) + 1) + 0 ≤ buckets
  omega

/-- The delay of `2 ^ 24` ticks gets none of the extra tick. -/
theorem not_keepsDelays_of_ge [Inhabited ι] (hbuckets : 1 < buckets) (hmax : 2 ^ 24 ≤ maxTimeout) :
    ¬KeepsDelays ι maxTimeout buckets hbuckets := by
  apply not_keepsDelays_of_deadline hbuckets (2 ^ 24) (by decide) hmax (by decide)
  intro wheelsNum hwheels hchosen
  have hreach : 2 ^ 24 ≤ buckets ^ wheelsNum :=
    (two_pow_le_roundToEven (by decide) hmax).trans (wheelsNum_spec hchosen).2
  refine (deadlineAt_wheelsNum (create buckets wheelsNum hbuckets hwheels)
    (delayTicks_two_pow.trans_le hreach) default).trans_le ?_
  rw [delayTicks_two_pow]
  exact (Nat.zero_add _).le

/-- The wheels keep every delay exactly when `maxTimeout` is not the number of buckets and when a
`float` has every number up to one more than it. -/
theorem keepsDelays_iff [Inhabited ι] (maxTimeout : Nat) {bucketsNumPerWheel : Nat}
    (hbuckets : 1 < bucketsNumPerWheel) :
    KeepsDelays ι maxTimeout bucketsNumPerWheel hbuckets ↔
      maxTimeout ≠ bucketsNumPerWheel ∧ maxTimeout < 2 ^ 24 := by
  constructor
  · intro hkeeps
    have hmax : maxTimeout < 2 ^ 24 := by
      by_contra hlarge
      exact not_keepsDelays_of_ge hbuckets (Nat.le_of_not_lt hlarge) hkeeps
    refine ⟨?_, hmax⟩
    rintro rfl
    exact not_keepsDelays_self hbuckets hmax hkeeps
  · rintro ⟨hne, hmax⟩
    exact keepsDelays_of_ne hbuckets hne hmax

theorem keepsDelays_iff_three : KeepsDelays Nat 3 2 (by decide) :=
  (keepsDelays_iff 3 (by decide)).mpr (by decide)

/-- One wheel of the default size has no room for its longest delay. -/
theorem not_keepsDelays_hundred :
    ¬∀ (maxTimeout bucketsNumPerWheel : Nat), 1 < maxTimeout →
      ∀ hbuckets : 1 < bucketsNumPerWheel,
        KeepsDelays Nat maxTimeout bucketsNumPerWheel hbuckets := by
  intro h
  exact not_keepsDelays_self (by decide) (by decide) (h 100 100 (by decide) (by decide))

end Capacity

end Cooper.WheelCapacity

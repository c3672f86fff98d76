import Cooper.ServerWheel
import Cooper.StepRun
import Mathlib.Logic.Function.Basic

/-!
The idle kick-off of `TcpServer`: the connections of an I/O loop keep themselves in its timing wheel
when something is read or written. Times are in microseconds.
-/

namespace Cooper.IdleKickoff

open Cooper.ServerWheel
open Cooper.StepRun
open Cooper.Wheel
open Cooper.WheelDeadline
open Cooper.WheelReinsertion

def MICRO_SECONDS_PRE_SEC : Nat := 1000000

/-- The members of a `TcpConnectionImpl` for its idle time. `entryConn` says whether its
`KickoffEntry` still knows the connection, and `forceClosed` whether the entry has closed it.
`lastCall` is the time of the last call of `extendLife`, or of `enableKickingOff` before that, and
`keptAlive` says whether `keepAlive` has been called. -/
structure Life where
  idleTimeout : Nat
  lastTimingWheelUpdateTime : Nat
  entryConn : Bool
  forceClosed : Bool
  lastCall : Nat
  keptAlive : Bool
deriving DecidableEq, Repr

/-- The delay that `extendLife` inserts the entry with comes with the result, 0 when it does not. -/
def Life.extendLife (l : Life) (now : Nat) : Life × Nat :=
  let l := { l with lastCall := now }
  if l.idleTimeout > 0 then
    if now < l.lastTimingWheelUpdateTime + MICRO_SECONDS_PRE_SEC then (l, 0)
    else ({ l with lastTimingWheelUpdateTime := now }, l.idleTimeout)
  else (l, 0)

def Life.keepAlive (l : Life) : Life :=
  { l with idleTimeout := 0, entryConn := false, keptAlive := true }

def Life.enableKickingOff (timeout now : Nat) : Life where
  idleTimeout := timeout
  lastTimingWheelUpdateTime := 0
  entryConn := true
  forceClosed := false
  lastCall := now
  keptAlive := false

/-- The wheel of the loop has been constructed at `phase` and ticks every second. -/
structure Process (ι : Type*) where
  idleTimeout : Nat
  wheel : TimingWheel ι
  conns : ι → Option Life
  phase : Nat
  now : Nat

inductive Call (ι : Type*) where
  | extendLife (id : ι)
  | keepAlive (id : ι)

inductive Action (ι : Type*) where
  | pass (microseconds : Nat)
  | enableKickingOff (id : ι)
  | call (call : Call ι)
  /-- `calls` are those that the destructors of entries lead to, on connections whose entries are
  not destroyed yet. -/
  | tick (calls : List (Call ι))

def init {ι : Type*} (idleTimeout : Nat) (h : 1 < idleTimeout) (phase : Nat) : Process ι where
  idleTimeout := idleTimeout
  wheel := construct idleTimeout h
  conns := fun _ => none
  phase := phase
  now := phase

def nextTick {ι : Type*} (s : Process ι) : Nat :=
  s.phase + (s.wheel.ticksCounter + 1) * MICRO_SECONDS_PRE_SEC

variable {ι : Type*} [DecidableEq ι]

/-- A call at `now`, when `w` is the wheel. The insertions that are made are listed. -/
def perform (w : TimingWheel ι) (now : Nat) (r : (ι → Option Life) × List (Nat × ι)) :
    Call ι → (ι → Option Life) × List (Nat × ι)
  | .extendLife id =>
      match r.1 id with
      | none => r
      | some l =>
          (Function.update r.1 id (some (l.extendLife now).1),
            if held w id then r.2 ++ [((l.extendLife now).2, id)] else r.2)
  | .keepAlive id => (Function.update r.1 id ((r.1 id).map Life.keepAlive), r.2)

/-- An entry that the tick destroys closes the connection that it knows. -/
def destroyed (w w' : TimingWheel ι) (id : ι) (l : Life) : Life :=
  if held w id && !held w' id && l.entryConn then { l with forceClosed := true } else l

def step (s : Process ι) : Action ι → Option (Process ι)
  | .pass microseconds =>
      if s.now + microseconds ≤ nextTick s then some { s with now := s.now + microseconds }
      else none
  | .enableKickingOff id =>
      match s.conns id with
      | some _ => none
      | none => some { s with
          wheel := insertEntry s.wheel s.idleTimeout id
          conns := Function.update s.conns id (some (Life.enableKickingOff s.idleTimeout s.now)) }
  | .call call =>
      let (conns, insertions) := perform s.wheel s.now (s.conns, []) call
      some { s with
        wheel := insertions.foldl (fun w call => insertEntry w call.1 call.2) s.wheel
        conns := conns }
  | .tick calls =>
      if s.now = nextTick s then
        let (conns, insertions) := calls.foldl (perform s.wheel s.now) (s.conns, [])
        let wheel := tick s.wheel insertions
        some { s with
          wheel := wheel
          conns := fun id => (conns id).map (destroyed s.wheel wheel id) }
      else none

/-- A connection that the wheel closes in a step was left alone for the time, and `keepAlive` has
not been called on it. -/
def RespectsTimeout (time : Nat) (s : Process ι) (a : Action ι) : Prop :=
  ∀ s' ∈ step s a, ∀ id, ∀ l ∈ s.conns id, ∀ l' ∈ s'.conns id, l.forceClosed = false →
    l'.forceClosed = true → l'.keptAlive = false ∧ l'.lastCall + time ≤ s'.now

instance [Fintype ι] (time : Nat) (s : Process ι) (a : Action ι) :
    Decidable (RespectsTimeout time s a) :=
  inferInstanceAs (Decidable (∀ _ ∈ step s a, ∀ _ : ι, ∀ _ ∈ _, ∀ _ ∈ _, _))

/-- Calls in a tick do not insert into wheels that the tick has still to rotate. -/
def CallInTime (s : Process ι) : Call ι → Prop
  | .extendLife id => ¬RotatedLater (counted s.wheel) s.idleTimeout id
  | .keepAlive _ => True

instance (s : Process ι) : (call : Call ι) → Decidable (CallInTime s call)
  | .extendLife _ => inferInstanceAs (Decidable (¬ _))
  | .keepAlive _ => inferInstanceAs (Decidable True)

def CallsInTime (s : Process ι) : Action ι → Prop
  | .tick calls => ∀ call ∈ calls, CallInTime s call
  | .pass _ | .enableKickingOff _ | .call _ => True

instance (s : Process ι) : (a : Action ι) → Decidable (CallsInTime s a)
  | .tick calls => inferInstanceAs (Decidable (∀ _ ∈ calls, _))
  | .pass _ | .enableKickingOff _ | .call _ => inferInstanceAs (Decidable True)

/-- A call either inserts the entry anew, or it comes less than a second after one that has. -/
theorem Life.extendLife_cases (l : Life) (now : Nat) :
    (l.idleTimeout = 0 ∨ now < l.lastTimingWheelUpdateTime + MICRO_SECONDS_PRE_SEC) ∧
        l.extendLife now = ({ l with lastCall := now }, 0) ∨
      0 < l.idleTimeout ∧ l.extendLife now =
        ({ l with lastCall := now, lastTimingWheelUpdateTime := now }, l.idleTimeout) := by
  rw [Life.extendLife]
  split <;> rename_i htimeout
  · split <;> rename_i hthrottled
    · exact Or.inl ⟨Or.inr hthrottled, rfl⟩
    · exact Or.inr ⟨htimeout, rfl⟩
  · exact Or.inl ⟨Or.inl (Nat.eq_zero_of_not_pos htimeout), rfl⟩

theorem Life.extendLife_forceClosed (l : Life) (now : Nat) :
    (l.extendLife now).1.forceClosed = l.forceClosed := by
  rcases l.extendLife_cases now with ⟨-, hcall⟩ | ⟨-, hcall⟩
  · rw [hcall]
  · rw [hcall]

section Lives

omit [DecidableEq ι]

/-- For so long an entry stays for sure: a part of its first second may have passed. -/
def seconds (timeout : Nat) : Nat := delayTicks timeout - 1

/-- The entry stays until the time has passed since the last call, one throttled call apart. -/
def Lives (timeout phase : Nat) (due : Set (Nat × ι)) (id : ι) (l : Life) : Prop :=
  ∃ d, (d, id) ∈ due ∧
    l.lastTimingWheelUpdateTime + seconds timeout * MICRO_SECONDS_PRE_SEC ≤
      phase + d * MICRO_SECONDS_PRE_SEC ∧
    l.lastCall + seconds timeout * MICRO_SECONDS_PRE_SEC <
      phase + d * MICRO_SECONDS_PRE_SEC + MICRO_SECONDS_PRE_SEC

theorem seconds_succ (timeout : Nat) : seconds timeout + 1 = delayTicks timeout :=
  Nat.sub_add_cancel (delayTicks_pos timeout)

theorem seconds_pos {timeout : Nat} (h : 0 < timeout) : 0 < seconds timeout :=
  Nat.sub_pos_of_lt (lt_delayTicks (by decide) h)

/-- `isHeld` says whether the entry is in the wheels, and `due` when they drop which references. -/
structure LifeKept (timeout phase : Nat) (due : Set (Nat × ι)) (isHeld : Prop) (id : ι)
    (l : Life) : Prop where
  kept : l.keptAlive = true → l.idleTimeout = 0 ∧ l.entryConn = false
  idle : l.keptAlive = false → l.idleTimeout = timeout
  lives : isHeld → l.keptAlive = false → Lives timeout phase due id l

variable {timeout phase now : Nat} {due due' : Set (Nat × ι)} {isHeld : Prop} {id : ι} {l : Life}

theorem LifeKept.mono (h : LifeKept timeout phase due isHeld id l) (hsub : due ⊆ due') :
    LifeKept timeout phase due' isHeld id l := by
  refine ⟨h.kept, h.idle, ?_⟩
  intro hheld hkept
  obtain ⟨d, hd, hbounds⟩ := h.lives hheld hkept
  exact ⟨d, hsub hd, hbounds⟩

theorem keepAlive_kept (l : Life) : LifeKept timeout phase due isHeld id l.keepAlive := by
  refine ⟨fun _ => ⟨rfl, rfl⟩, ?_, ?_⟩
  · intro hkept
    contradiction
  · intro _ hkept
    contradiction

theorem LifeKept.extendLife (h : LifeKept timeout phase due isHeld id l) (htimeout : 0 < timeout)
    (hsub : due ⊆ due')
    (hnew : isHeld → (l.extendLife now).2 = timeout →
      ∃ d, (d, id) ∈ due' ∧
        now + seconds timeout * MICRO_SECONDS_PRE_SEC ≤ phase + d * MICRO_SECONDS_PRE_SEC) :
    LifeKept timeout phase due' isHeld id (l.extendLife now).1 := by
  rcases l.extendLife_cases now with ⟨hidle, hcall⟩ | ⟨-, hcall⟩
  · rw [hcall]
    refine ⟨h.kept, h.idle, ?_⟩
    intro hheld (hkept : l.keptAlive = false)
    have hthrottled := hidle.resolve_left (by rw [h.idle hkept]; exact htimeout.ne')
    obtain ⟨d, hd, hlast, -⟩ := h.lives hheld hkept
    refine ⟨d, hsub hd, hlast, ?_⟩
    change now + _ < _
    omega
  · rw [hcall] at hnew ⊢
    refine ⟨h.kept, h.idle, ?_⟩
    intro hheld (hkept : l.keptAlive = false)
    obtain ⟨d, hd, hlast⟩ := hnew hheld (h.idle hkept)
    have hsecond : 0 < MICRO_SECONDS_PRE_SEC := by decide
    refine ⟨d, hd, hlast, ?_⟩
    change now + _ < _
    omega

end Lives

section Calls

/-- What holds while calls are made. `w` and `conns` are those before the first call, and `clock`
are the wheels whose clock the insertions go by. -/
structure Performed (timeout phase stage : Nat) (w clock : TimingWheel ι) (conns : ι → Option Life)
    (r : (ι → Option Life) × List (Nat × ι)) : Prop where
  same : ∀ id, (r.1 id).map Life.forceClosed = (conns id).map Life.forceClosed
  held : ∀ call ∈ r.2, held w call.2 = true
  lives : ∀ id, ∀ l ∈ r.1 id, LifeKept timeout phase
    (pendingAt w.wheelsNum w ∪ enteredAt stage clock r.2) (ServerWheel.held w id = true) id l

variable {timeout phase now stage : Nat} {w clock : TimingWheel ι} {conns : ι → Option Life}

theorem Performed.held_of {r : (ι → Option Life) × List (Nat × ι)}
    (h : Performed timeout phase stage w clock conns r) (hw : Placed w) {p : Nat × ι}
    (hp : p ∈ pendingAt w.wheelsNum w ∪ enteredAt stage clock r.2) :
    ServerWheel.held w p.2 = true := by
  rcases hp with hp | ⟨call, hcall, -, rfl⟩
  · exact (held_iff hw p.2).mpr ⟨p.1, hp⟩
  · exact h.held call hcall

theorem Performed.update {r : (ι → Option Life) × List (Nat × ι)}
    (h : Performed timeout phase stage w clock conns r) {id : ι} {before after : Life}
    (hconn : r.1 id = some before) (hclosed : after.forceClosed = before.forceClosed)
    {insertions : List (Nat × ι)} (hsub : ∀ call ∈ r.2, call ∈ insertions)
    (hheld : ∀ call ∈ insertions, ServerWheel.held w call.2 = true)
    (hafter : LifeKept timeout phase (pendingAt w.wheelsNum w ∪ enteredAt stage clock insertions)
      (ServerWheel.held w id = true) id after) :
    Performed timeout phase stage w clock conns
      (Function.update r.1 id (some after), insertions) := by
  refine ⟨?_, hheld, ?_⟩
  · intro other
    change (Function.update r.1 id (some after) other).map _ = _
    by_cases hother : other = id
    · subst hother
      rw [Function.update_self, Option.map_some, hclosed, ← h.same, hconn, Option.map_some]
    · rw [Function.update_of_ne hother, h.same]
  · intro other l hl
    change Function.update r.1 id (some after) other = some l at hl
    by_cases hother : other = id
    · subst hother
      rw [Function.update_self] at hl
      obtain rfl := Option.some.inj hl
      exact hafter
    · rw [Function.update_of_ne hother] at hl
      apply (h.lives other l hl).mono
      apply Set.union_subset_union_right
      rintro p ⟨call, hcall, hp⟩
      exact ⟨call, hsub call hcall, hp⟩

theorem perform_performed {r : (ι → Option Life) × List (Nat × ι)}
    (h : Performed timeout phase stage w clock conns r) (htimeout : 0 < timeout) (call : Call ι)
    (hdue : ∀ id, call = .extendLife id → now + seconds timeout * MICRO_SECONDS_PRE_SEC ≤
      phase + deadlineAt stage clock timeout id * MICRO_SECONDS_PRE_SEC) :
    Performed timeout phase stage w clock conns (perform w now r call) := by
  cases call with
  | keepAlive id =>
      rcases hconn : r.1 id with _ | before
      · rw [perform, hconn, Option.map_none, ← hconn, Function.update_eq_self]
        exact h
      · rw [perform, hconn]
        apply h.update hconn
        · rfl
        · exact fun call hcall => hcall
        · exact h.held
        · exact keepAlive_kept before
  | extendLife id =>
      rcases hconn : r.1 id with _ | before
      · rw [perform, hconn]
        exact h
      · have hsub : ∀ call ∈ r.2, call ∈
            if held w id then r.2 ++ [((before.extendLife now).2, id)] else r.2 := by
          intro call hcall
          split
          · exact List.mem_append_left _ hcall
          · exact hcall
        rw [perform, hconn]
        apply h.update hconn (before.extendLife_forceClosed now) hsub
        · intro call hcall
          split at hcall <;> rename_i hheld
          · rcases List.mem_append.mp hcall with hcall | hcall
            · exact h.held call hcall
            · rw [List.mem_singleton.mp hcall]
              exact hheld
          · exact h.held call hcall
        · apply (h.lives id before hconn).extendLife htimeout
          · apply Set.union_subset_union_right
            rintro p ⟨call, hcall, hp⟩
            exact ⟨call, hsub call hcall, hp⟩
          · intro hheld hdelay
            refine ⟨_, Or.inr ⟨(timeout, id), ?_, htimeout, rfl⟩, hdue id rfl⟩
            rw [if_pos hheld, hdelay]
            exact List.mem_append_right _ List.mem_cons_self

theorem foldl_performed {calls : List (Call ι)} {r : (ι → Option Life) × List (Nat × ι)}
    (h : Performed timeout phase stage w clock conns r) (htimeout : 0 < timeout)
    (hdue : ∀ id, .extendLife id ∈ calls → now + seconds timeout * MICRO_SECONDS_PRE_SEC ≤
      phase + deadlineAt stage clock timeout id * MICRO_SECONDS_PRE_SEC) :
    Performed timeout phase stage w clock conns (calls.foldl (perform w now) r) := by
  induction calls generalizing r with
  | nil => exact h
  | cons call calls ih =>
      apply ih
      · apply perform_performed h htimeout
        rintro id rfl
        exact hdue id List.mem_cons_self
      · intro id hid
        exact hdue id (List.mem_cons_of_mem _ hid)

end Calls

structure Kept (s : Process ι) : Prop where
  timeout : 1 < s.idleTimeout
  made : MadeFor s.idleTimeout s.wheel
  placed : Placed s.wheel
  now_le : s.now ≤ nextTick s
  lives : ∀ id, ∀ l ∈ s.conns id, LifeKept s.idleTimeout s.phase
    (pendingAt s.wheel.wheelsNum s.wheel) (held s.wheel id = true) id l

theorem init_kept {timeout : Nat} (h : 1 < timeout) (phase : Nat) :
    Kept (init timeout h phase : Process ι) := by
  refine ⟨h, construct_madeFor h, ?_, Nat.le_add_right _ _, ?_⟩
  · exact (kept_create _ _ _ _).placed
  · intro id l hl
    contradiction

section Steps

variable {s s' : Process ι}

theorem Kept.performed (h : Kept s) (stage : Nat) (clock : TimingWheel ι) :
    Performed s.idleTimeout s.phase stage s.wheel clock s.conns (s.conns, []) := by
  refine ⟨fun _ => rfl, ?_, ?_⟩
  · intro call hcall
    contradiction
  · intro id l hl
    exact (h.lives id l hl).mono Set.subset_union_left

theorem Kept.due (h : Kept s) (id : ι) :
    s.now + seconds s.idleTimeout * MICRO_SECONDS_PRE_SEC ≤
      s.phase + deadlineAt s.wheel.wheelsNum s.wheel s.idleTimeout id *
        MICRO_SECONDS_PRE_SEC := by
  have hnow := h.now_le
  rw [nextTick, Nat.add_mul] at hnow
  rw [(h.made.deadlineAt_wheelsNum id).1, ← seconds_succ, Nat.add_mul, Nat.add_mul (seconds _)]
  omega

theorem step_call (h : Kept s) (call : Call ι) (hstep : step s (.call call) = some s') :
    Kept s' ∧ ∀ id, (s'.conns id).map Life.forceClosed = (s.conns id).map Life.forceClosed := by
  have hperformed := perform_performed (h.performed s.wheel.wheelsNum s.wheel)
    (Nat.lt_of_succ_lt h.timeout) call fun id _ => h.due id
  rcases hcall : perform s.wheel s.now (s.conns, []) call with ⟨conns, insertions⟩
  rw [hcall] at hperformed
  simp only [step, hcall, Option.some.injEq] at hstep
  obtain ⟨hclock, hplaced, -, hpending⟩ :=
    foldl_insertEntry h.placed s.wheel.wheelsNum insertions
  rw [← hclock.wheelsNum] at hpending
  subst hstep
  refine ⟨⟨h.timeout, h.made.sameClock hclock, hplaced, ?_, ?_⟩, hperformed.same⟩
  · rw [nextTick, hclock.ticksCounter]
    exact h.now_le
  · intro id l hl
    have hkept := hperformed.lives id l hl
    simp only [hpending]
    refine ⟨hkept.kept, hkept.idle, fun hheld => ?_⟩
    obtain ⟨d, hd⟩ := (held_iff hplaced id).mp hheld
    rw [hpending, hclock.wheelsNum] at hd
    rw [hclock.wheelsNum]
    exact hkept.lives (hperformed.held_of h.placed hd)

theorem Kept.due_in_tick (h : Kept s) {calls : List (Call ι)} (hnow : s.now = nextTick s)
    (hintime : CallsInTime s (.tick calls)) {id : ι} (hid : .extendLife id ∈ calls) :
    s.now + seconds s.idleTimeout * MICRO_SECONDS_PRE_SEC ≤
      s.phase + deadlineAt 1 (counted s.wheel) s.idleTimeout id * MICRO_SECONDS_PRE_SEC := by
  have hlater := hintime _ hid
  rw [(h.made.counted.deadlineAt_wheelsNum id).2 hlater, hnow, nextTick, ← seconds_succ]
  change _ ≤ s.phase + (s.wheel.ticksCounter + 1 + (seconds s.idleTimeout + 1)) * _
  rw [Nat.add_mul (_ + 1) (seconds _ + 1), Nat.add_mul (seconds _)]
  omega

theorem Performed.tick_lives (hw : Placed w) {r : (ι → Option Life) × List (Nat × ι)}
    (h : Performed timeout phase 1 w (counted w) conns r) {id : ι} {l : Life} (hl : l ∈ r.1 id) :
    LifeKept timeout phase (pendingAt (tick w r.2).wheelsNum (tick w r.2))
      (ServerWheel.held (tick w r.2) id = true) id l := by
  have hkept := h.lives id l hl
  obtain ⟨hclock, hplaced, -⟩ := tick_spec hw r.2
  refine ⟨hkept.kept, hkept.idle, ?_⟩
  intro hheld hidle
  obtain ⟨later, hlater⟩ := (held_iff hplaced id).mp hheld
  have hafter : w.ticksCounter + 1 < later := by
    have hlt := lt_of_mem_pendingAt hplaced hlater
    rw [hclock.ticksCounter] at hlt
    exact hlt
  have hbefore : (later, id) ∈ pendingAt w.wheelsNum w ∪ enteredAt 1 (counted w) r.2 := by
    rw [pendingAt_tick hw] at hlater
    exact hlater.imp And.left fun hin => hin
  obtain ⟨d, hd, hlast, hcall⟩ := hkept.lives (h.held_of hw hbefore) hidle
  rcases mem_pendingAt_tick_or hw hd with hd | hnext
  · exact ⟨d, hd, hlast, hcall⟩
  · have hle : d * MICRO_SECONDS_PRE_SEC ≤ later * MICRO_SECONDS_PRE_SEC := by
      apply Nat.mul_le_mul_right
      simp only at hnext
      omega
    exact ⟨later, hlater, by omega, by omega⟩

theorem Performed.tick_closes (hw : Placed w) {r : (ι → Option Life) × List (Nat × ι)}
    (h : Performed timeout phase 1 w (counted w) conns r) {id : ι} {l : Life} (hl : l ∈ r.1 id)
    (hopen : l.forceClosed = false)
    (hclosed : (destroyed w (tick w r.2) id l).forceClosed = true) :
    (destroyed w (tick w r.2) id l).keptAlive = false ∧
      (destroyed w (tick w r.2) id l).lastCall + seconds timeout * MICRO_SECONDS_PRE_SEC <
        phase + (w.ticksCounter + 1) * MICRO_SECONDS_PRE_SEC + MICRO_SECONDS_PRE_SEC := by
  obtain ⟨-, hplaced, -⟩ := tick_spec hw r.2
  rw [destroyed] at hclosed ⊢
  split at hclosed <;> rename_i hdestroyed
  · rw [if_pos hdestroyed]
    simp only [Bool.and_eq_true, Bool.not_eq_true'] at hdestroyed
    obtain ⟨⟨hheld, hgone⟩, hconn⟩ := hdestroyed
    have hkept := h.lives id l hl
    have hidle : l.keptAlive = false := by
      rcases hkeep : l.keptAlive with _ | _
      · rfl
      · rw [(hkept.kept hkeep).2] at hconn
        contradiction
    obtain ⟨d, hd, -, hcall⟩ := hkept.lives hheld hidle
    refine ⟨hidle, ?_⟩
    rcases mem_pendingAt_tick_or hw hd with hd | hnext
    · rw [(held_iff hplaced id).mpr ⟨d, hd⟩] at hgone
      contradiction
    · rw [← hnext]
      exact hcall
  · rw [hopen] at hclosed
    contradiction

theorem step_tick (h : Kept s) {calls : List (Call ι)} (hintime : CallsInTime s (.tick calls))
    (hstep : step s (.tick calls) = some s') :
    Kept s' ∧ ∀ id, ∀ l ∈ s.conns id, ∀ l' ∈ s'.conns id, l.forceClosed = false →
      l'.forceClosed = true → l'.keptAlive = false ∧
        l'.lastCall + ((seconds s.idleTimeout - 1) * MICRO_SECONDS_PRE_SEC + 1) ≤ s'.now := by
  rw [step] at hstep
  split at hstep <;> rename_i hnow
  · have hperformed := foldl_performed (h.performed 1 (counted s.wheel))
      (Nat.lt_of_succ_lt h.timeout) fun id => h.due_in_tick hnow hintime
    generalize calls.foldl (perform s.wheel s.now) (s.conns, []) = r at hstep hperformed
    obtain rfl := Option.some.inj hstep
    obtain ⟨hclock, hplaced, -⟩ := tick_spec h.placed r.2
    refine ⟨⟨h.timeout, h.made.counted.sameClock hclock, hplaced, ?_, ?_⟩, ?_⟩
    · rw [nextTick, hclock.ticksCounter, hnow, nextTick]
      apply Nat.add_le_add_left
      apply Nat.mul_le_mul_right
      exact Nat.le_succ _
    · intro id l hl
      obtain ⟨before, hbefore, rfl⟩ := Option.map_eq_some_iff.mp hl
      have hkept := hperformed.tick_lives h.placed hbefore
      rw [destroyed]
      split
      · exact ⟨hkept.kept, hkept.idle, hkept.lives⟩
      · exact hkept
    · intro id l hl l' hl' hopen hclosed
      obtain ⟨before, hbefore, rfl⟩ := Option.map_eq_some_iff.mp hl'
      have hsame := hperformed.same id
      rw [hbefore, hl, Option.map_some, Option.map_some, Option.some.injEq, hopen] at hsame
      obtain ⟨hidle, hcall⟩ := hperformed.tick_closes h.placed hbefore hsame hclosed
      refine ⟨hidle, ?_⟩
      have hseconds := seconds_pos (Nat.lt_of_succ_lt h.timeout)
      obtain ⟨timeout, htimeout⟩ : ∃ n, seconds s.idleTimeout = n + 1 :=
        ⟨seconds s.idleTimeout - 1, by omega⟩
      rw [htimeout, Nat.add_mul timeout] at hcall
      rw [htimeout, Nat.add_sub_cancel]
      change _ ≤ s.now
      rw [hnow, nextTick]
      omega
  · contradiction

theorem step_enableKickingOff (h : Kept s) {id : ι}
    (hstep : step s (.enableKickingOff id) = some s') :
    Kept s' ∧ ∀ other, ∀ l ∈ s.conns other, s'.conns other = some l := by
  rw [step] at hstep
  split at hstep <;> rename_i hconn
  · contradiction
  · obtain ⟨hclock, hplaced, -, hpending⟩ := insertEntry_spec h.placed s.wheel.wheelsNum
      (Nat.lt_of_succ_lt h.timeout) id
    simp only [Option.some.injEq] at hstep
    subst hstep
    refine ⟨⟨h.timeout, h.made.sameClock hclock, hplaced, ?_, ?_⟩, ?_⟩
    · rw [nextTick, hclock.ticksCounter]
      exact h.now_le
    · intro other l hl
      simp only [hclock.wheelsNum]
      rw [hpending]
      change Function.update s.conns id _ other = some l at hl
      by_cases hother : other = id
      · subst hother
        rw [Function.update_self] at hl
        obtain rfl := Option.some.inj hl
        have hdue := h.due other
        have hsecond : 0 < MICRO_SECONDS_PRE_SEC := by decide
        refine ⟨fun hkept => ?_, fun _ => rfl, fun _ _ => ⟨_, Set.mem_insert _ _, ?_, ?_⟩⟩
        · contradiction
        · change 0 + _ ≤ _
          omega
        · change s.now + _ < _
          omega
      · rw [Function.update_of_ne hother] at hl
        have hkept := (h.lives other l hl).mono (Set.subset_insert
          (deadlineAt s.wheel.wheelsNum s.wheel s.idleTimeout id, id) _)
        refine ⟨hkept.kept, hkept.idle, fun hheld => ?_⟩
        obtain ⟨d, hd⟩ := (held_iff hplaced other).mp hheld
        rw [hclock.wheelsNum, hpending] at hd
        rcases hd with heq | hd
        · exact absurd (congrArg Prod.snd heq) hother
        · exact hkept.lives ((held_iff h.placed other).mpr ⟨d, hd⟩)
    · intro other l hl
      have hother : other ≠ id := by
        rintro rfl
        rw [hl] at hconn
        contradiction
      exact (Function.update_of_ne hother _ _).trans hl

theorem step_kept (h : Kept s) {a : Action ι} (hintime : CallsInTime s a)
    (hstep : step s a = some s') : Kept s' := by
  cases a with
  | pass microseconds =>
      rw [step] at hstep
      split at hstep <;> rename_i hle
      · obtain rfl := Option.some.inj hstep
        exact ⟨h.timeout, h.made, h.placed, hle, h.lives⟩
      · contradiction
  | enableKickingOff id => exact (step_enableKickingOff h hstep).1
  | call call => exact (step_call h call hstep).1
  | tick calls => exact (step_tick h hintime hstep).1

theorem respectsTimeout_of_kept (h : Kept s) {a : Action ι} (hintime : CallsInTime s a) :
    RespectsTimeout ((seconds s.idleTimeout - 1) * MICRO_SECONDS_PRE_SEC + 1) s a := by
  intro s' hstep id l hl l' hl' hopen hclosed
  cases a with
  | pass microseconds =>
      rw [Option.mem_def, step] at hstep
      split at hstep
      · obtain rfl := Option.some.inj hstep
        obtain rfl := Option.some.inj (hl.symm.trans hl')
        rw [hopen] at hclosed
        contradiction
      · contradiction
  | enableKickingOff other =>
      have hsame := (step_enableKickingOff h hstep).2 id l hl
      obtain rfl := Option.some.inj (hsame.symm.trans hl')
      rw [hopen] at hclosed
      contradiction
  | call call =>
      have hsame := (step_call h call hstep).2 id
      rw [hl, hl', Option.map_some, Option.map_some, Option.some.injEq, hopen, hclosed] at hsame
      contradiction
  | tick calls => exact (step_tick h hintime hstep).2 id l hl l' hl' hopen hclosed

theorem idleTimeout_of_step {a : Action ι} (hstep : step s a = some s') :
    s'.idleTimeout = s.idleTimeout := by
  cases a with
  | pass microseconds =>
      rw [step] at hstep
      split at hstep
      · obtain rfl := Option.some.inj hstep
        rfl
      · contradiction
  | enableKickingOff id =>
      rw [step] at hstep
      split at hstep
      · contradiction
      · obtain rfl := Option.some.inj hstep
        rfl
  | call call =>
      obtain rfl := Option.some.inj hstep
      rfl
  | tick calls =>
      rw [step] at hstep
      split at hstep
      · obtain rfl := Option.some.inj hstep
        rfl
      · contradiction

end Steps

theorem callsInTime_of_short {s : Process ι} (h : Kept s) (hshort : s.idleTimeout < 500)
    (a : Action ι) : CallsInTime s a := by
  cases a with
  | tick calls =>
      intro call _
      cases call with
      | extendLife id =>
          exact h.made.counted.not_rotatedLater_of_short h.timeout hshort s.idleTimeout id
      | keepAlive id => trivial
  | pass microseconds => trivial
  | enableKickingOff id => trivial
  | call call => trivial

/-- The wheel closes no connection in whose last timeout but a second a call has been made, and none
on which `keepAlive` has been called. The second is the one in which `extendLife` does nothing after
a call that has inserted the entry, and the timeout is that of the ticks as a `float` has them. -/
theorem allSteps_respectsTimeout {timeout : Nat} (h : 1 < timeout) (phase : Nat)
    {actions : List (Action ι)}
    (hintime : 500 ≤ timeout → AllSteps step CallsInTime (init timeout h phase) actions) :
    AllSteps step (RespectsTimeout ((delayTicks timeout - 2) * MICRO_SECONDS_PRE_SEC + 1))
      (init timeout h phase) actions := by
  have hlong : AllSteps step (fun s a => 500 ≤ timeout → CallsInTime s a)
      (init timeout h phase) actions := by
    by_cases hlong : 500 ≤ timeout
    · exact (hintime hlong).imp (fun _ => True) (fun _ _ _ _ _ _ => trivial)
        (fun _ _ _ hcalls _ => hcalls) trivial
    · exact allSteps_of_forall (fun _ _ _ hle => absurd hle hlong) _
  have hcalls : ∀ (s : Process ι) (a : Action ι), Kept s ∧ s.idleTimeout = timeout →
      (500 ≤ timeout → CallsInTime s a) → CallsInTime s a := by
    rintro s a ⟨hkept, rfl⟩ hcalls
    by_cases hlong : 500 ≤ s.idleTimeout
    · exact hcalls hlong
    · exact callsInTime_of_short hkept (Nat.lt_of_not_le hlong) a
  refine hlong.imp (fun s => Kept s ∧ s.idleTimeout = timeout) ?_ ?_ ⟨init_kept h phase, rfl⟩
  · intro s a s' hs hintime hstep
    exact ⟨step_kept hs.1 (hcalls s a hs hintime) hstep, (idleTimeout_of_step hstep).trans hs.2⟩
  · intro s a hs hintime
    have hrespects := respectsTimeout_of_kept hs.1 (hcalls s a hs hintime)
    rwa [hs.2] at hrespects

def throttled : List (Action Unit) :=
  [.enableKickingOff (), .pass 900000, .call (.extendLife ()), .pass 100000, .tick [], .pass 800000,
    .call (.extendLife ()), .pass 200000, .tick [], .pass 1000000, .tick []]

theorem not_respectsTimeout : ¬ ∀ (timeout : Nat) (h : 1 < timeout) (phase : Nat)
    (actions : List (Action Unit)),
    AllSteps step (RespectsTimeout (timeout * MICRO_SECONDS_PRE_SEC)) (init timeout h phase)
      actions := by
  intro h
  have hall := h 2 (by decide) 10000000 throttled
  revert hall
  decide

theorem allSteps_respectsTimeout_two :
    AllSteps step (RespectsTimeout 1000001) (init 2 (by decide) 10000000)
      [.enableKickingOff true, .enableKickingOff false, .call (.keepAlive false), .pass 1000000,
        .tick [], .call (.extendLife true), .pass 1000000, .tick [], .pass 1000000, .tick [],
        .pass 1000000, .tick []] :=
  @allSteps_respectsTimeout Bool _ 2 (by decide) 10000000 _ fun hlong => absurd hlong (by decide)

end Cooper.IdleKickoff

import Cooper.TimerQueue

/-!
The timer descriptor of `TimerQueue` and the clock. Time passes and the descriptor expires between
any two steps of the queue, also while the callbacks of a batch run, and time passes in
`resetTimerfd`, which reads the clock before it sets the descriptor. The system calls succeed.
-/

namespace Cooper.TimerDescriptor

open Cooper.StepRun
open Cooper.TimerQueue

/-- `expired` has not been read, and `armed` tells at what times `resetTimerfd` read the clock and
called `timerfd_settime`. -/
inductive Timerfd where
  | disarmed
  | armed (readAt armedAt expiration : TimePoint)
  | expired
deriving DecidableEq, Repr

structure Timespec where
  tv_sec : Int
  tv_nsec : Int
deriving DecidableEq, Repr

/-- A tick of the clock is a nanosecond, and `duration_cast` rounds towards zero. -/
def howMuchTimeFromNow (now when : TimePoint) : Timespec :=
  let microSeconds := (when - now).tdiv 1000
  let microSeconds := if microSeconds < 100 then 100 else microSeconds
  ⟨microSeconds.tdiv 1000000, microSeconds.tmod 1000000 * 1000⟩

/-- `timerfd_settime` for a relative time and without an interval. What it refuses it leaves
alone. -/
def settime (timerfd : Timerfd) (readAt armedAt : TimePoint) (value : Timespec) : Timerfd :=
  if 0 ≤ value.tv_sec ∧ 0 ≤ value.tv_nsec ∧ value.tv_nsec < 1000000000 then
    if value = ⟨0, 0⟩ then .disarmed
    else .armed readAt armedAt (armedAt + value.tv_sec * 1000000000 + value.tv_nsec)
  else timerfd

/-- The clock is read at `readAt`, and the descriptor is set at `armedAt`. -/
def resetTimerfd (timerfd : Timerfd) (readAt armedAt expiration : TimePoint) : Timerfd :=
  settime timerfd readAt armedAt (howMuchTimeFromNow readAt expiration)

/-- There is nothing to read before the descriptor has expired. -/
def readTimerfd : Timerfd → Timerfd
  | .expired => .disarmed
  | timerfd => timerfd

/-- The descriptor has expired, or does so no later than 100 microseconds after it was armed or
after `when` by the time that `resetTimerfd` took. -/
def Covers (timerfd : Timerfd) (when : TimePoint) : Prop :=
  timerfd = .expired ∨ ∃ readAt armedAt expiration,
    timerfd = .armed readAt armedAt expiration ∧
      expiration ≤ max (when + (armedAt - readAt)) (armedAt + 100000)

theorem howMuchTimeFromNow_spec (now when : Int) :
    ∃ microSeconds : Int, 100 ≤ microSeconds ∧ microSeconds * 1000 ≤ max (when - now) 100000 ∧
      howMuchTimeFromNow now when = ⟨microSeconds / 1000000, microSeconds % 1000000 * 1000⟩ := by
  have htimespec {microSeconds : Int} (h : 100 ≤ microSeconds) :
      (⟨microSeconds.tdiv 1000000, microSeconds.tmod 1000000 * 1000⟩ : Timespec) =
        ⟨microSeconds / 1000000, microSeconds % 1000000 * 1000⟩ := by
    have hnonneg : 0 ≤ microSeconds := by omega
    rw [Int.tdiv_eq_ediv_of_nonneg hnonneg, Int.tmod_eq_emod_of_nonneg hnonneg]
  by_cases hshort : (when - now).tdiv 1000 < 100
  · refine ⟨100, le_refl _, le_max_right _ _, ?_⟩
    rw [howMuchTimeFromNow, if_pos hshort]
    exact htimespec (le_refl _)
  · have hlong := not_lt.mp hshort
    have hnonneg : 0 ≤ when - now := by
      by_contra hneg
      have hquotient : 0 ≤ (-(when - now)).tdiv 1000 := Int.tdiv_nonneg (by omega) (by decide)
      rw [Int.neg_tdiv] at hquotient
      omega
    refine ⟨(when - now).tdiv 1000, hlong, ?_, ?_⟩
    · rw [Int.tdiv_eq_ediv_of_nonneg hnonneg]
      exact (Int.ediv_mul_le _ (by decide)).trans (le_max_left _ _)
    · rw [howMuchTimeFromNow, if_neg hshort]
      exact htimespec hlong

theorem resetTimerfd_covers (timerfd : Timerfd) (readAt armedAt when : Int) :
    Covers (resetTimerfd timerfd readAt armedAt when) when := by
  obtain ⟨microSeconds, hleast, hmost, hvalue⟩ := howMuchTimeFromNow_spec readAt when
  have hnonzero :
      (⟨microSeconds / 1000000, microSeconds % 1000000 * 1000⟩ : Timespec) ≠ ⟨0, 0⟩ := by
    intro hzero
    obtain ⟨hsec, hnsec⟩ := Timespec.mk.inj hzero
    omega
  have hsum : armedAt + microSeconds / 1000000 * 1000000000 + microSeconds % 1000000 * 1000 =
      armedAt + microSeconds * 1000 := by omega
  have hearly : armedAt + microSeconds * 1000 ≤
      max (when + (armedAt - readAt)) (armedAt + 100000) := by omega
  refine Or.inr ⟨readAt, armedAt, armedAt + microSeconds * 1000, ?_, hearly⟩
  rw [resetTimerfd, hvalue, settime, if_pos (by simp only; omega), if_neg hnonzero]
  exact congrArg (Timerfd.armed readAt armedAt) hsum

/-- The queue, its descriptor and the steady clock. -/
structure State (queue : PriorityQueue Timer Timer.when) where
  timerQueue : TimerQueue queue
  timerfd : Timerfd
  clock : TimePoint

/-- In the steps that may call `resetTimerfd`, `armedAt` is when it calls `timerfd_settime`. -/
inductive Action where
  /-- time passes -/
  | pass (now : TimePoint)
  /-- the descriptor expires -/
  | expire
  | create (when : TimePoint) (interval : TimeInterval)
  | addTimerInLoop (id : TimerId) (armedAt : TimePoint)
  | invalidateTimer (id : TimerId)
  | beginBatch (now : TimePoint)
  | runNext
  | endBatch (armedAt : TimePoint)
  /-- `reset` without arguments, after a fork -/
  | reset (armedAt : TimePoint)
deriving DecidableEq, Repr

variable {queue : PriorityQueue Timer Timer.when}

namespace State

def init (queue : PriorityQueue Timer Timer.when) (timersCreated : Nat) (clock : TimePoint) :
    State queue where
  timerQueue := TimerQueue.init queue timersCreated clock
  timerfd := .disarmed
  clock := clock

def resetTimerfd (s : State queue) (armedAt expiration : TimePoint) : State queue :=
  { s with
    timerfd := TimerDescriptor.resetTimerfd s.timerfd s.clock armedAt expiration
    clock := armedAt }

def addTimerInLoop (s : State queue) (timer : Timer) (armedAt : TimePoint) : State queue :=
  let earliestChanged := (s.timerQueue.insert timer).1
  let s := { s with timerQueue := s.timerQueue.addTimerInLoop timer }
  if earliestChanged then s.resetTimerfd armedAt timer.when else s

/-- What both functions `reset` do last. -/
def setEarliest (s : State queue) (armedAt : TimePoint) : State queue :=
  match queue.top s.timerQueue.timers with
  | none => s
  | some top => s.resetTimerfd armedAt top.when

def endBatch (s : State queue) (batch : Batch) (armedAt : TimePoint) : State queue :=
  setEarliest { s with timerQueue := s.timerQueue.endBatch batch s.clock } armedAt

/-- A new descriptor takes the place of the old one. -/
def reset (s : State queue) (armedAt : TimePoint) : State queue :=
  let timerfd := (queue.top s.timerQueue.timers).map Timer.when
  setEarliest { s with
    timerQueue := { s.timerQueue with timerfd := timerfd }
    timerfd := .disarmed } armedAt

/-- `beginBatch` reads the clock first and the descriptor then. -/
def step (s : State queue) : Action → Option (State queue)
  | .pass now => if s.clock ≤ now then some { s with clock := now } else none
  | .expire =>
      match s.timerfd with
      | .armed _ _ expiration =>
          if expiration ≤ s.clock then some { s with timerfd := .expired } else none
      | _ => none
  | .create when interval => some { s with timerQueue := s.timerQueue.create when interval }
  | .addTimerInLoop id armedAt =>
      match s.timerQueue.waiting.find? (·.id = id) with
      | none => none
      | some timer =>
          let timerQueue := { s.timerQueue with waiting := s.timerQueue.waiting.erase timer }
          if s.clock ≤ armedAt then
            some (addTimerInLoop { s with timerQueue := timerQueue } timer armedAt)
          else none
  | .invalidateTimer id => some { s with timerQueue := s.timerQueue.invalidateTimer id }
  | .beginBatch now =>
      if now ≤ s.clock then
        (s.timerQueue.step (.beginBatch now)).map fun timerQueue =>
          { s with
            timerQueue := timerQueue
            timerfd := readTimerfd s.timerfd }
      else none
  | .runNext =>
      (s.timerQueue.step .runNext).map fun timerQueue => { s with timerQueue := timerQueue }
  | .endBatch armedAt =>
      match s.timerQueue.batch with
      | some ⟨now, expired, []⟩ =>
          if s.clock ≤ armedAt then some (s.endBatch ⟨now, expired, []⟩ armedAt) else none
      | _ => none
  | .reset armedAt =>
      if s.timerQueue.batch = none ∧ s.clock ≤ armedAt then some (s.reset armedAt) else none

/-- What holds in every state of a run: the descriptor does what the queue last asked it for. -/
structure Kept (s : State queue) : Prop where
  armed : s.timerQueue.Armed
  covers : ∀ when, s.timerQueue.timerfd = some when → Covers s.timerfd when
  clock : s.timerQueue.clock ≤ s.clock

theorem kept_init (timersCreated : Nat) (clock : TimePoint) :
    (init queue timersCreated clock).Kept := by
  refine ⟨?_, ?_, le_refl clock⟩
  · exact @TimerQueue.runSteps_armed queue timersCreated clock [] _ rfl
  · intro when hwhen
    cases hwhen

variable {s : State queue}

theorem setEarliest_frame {armedAt : TimePoint} (hlater : s.clock ≤ armedAt) :
    (s.setEarliest armedAt).timerQueue = s.timerQueue ∧
      s.clock ≤ (s.setEarliest armedAt).clock := by
  rw [setEarliest]
  split
  · exact ⟨rfl, le_refl _⟩
  · exact ⟨rfl, hlater⟩

theorem covers_setEarliest {top : Timer} (htop : queue.top s.timerQueue.timers = some top)
    {armedAt : TimePoint} : Covers (s.setEarliest armedAt).timerfd top.when := by
  rw [setEarliest, htop]
  exact resetTimerfd_covers _ _ _ _

theorem foldl_resetTimer_frame (now current : TimePoint) (timers : List Timer)
    (q : TimerQueue queue) :
    (timers.foldl (resetTimer now current) q).timerfd = q.timerfd ∧
      (timers.foldl (resetTimer now current) q).clock = q.clock := by
  induction timers generalizing q with
  | nil => exact ⟨rfl, rfl⟩
  | cons timer timers ih =>
      have htimer : (resetTimer now current q timer).timerfd = q.timerfd ∧
          (resetTimer now current q timer).clock = q.clock := by
        rw [resetTimer]
        split
        · split <;> exact ⟨rfl, rfl⟩
        · exact ⟨rfl, rfl⟩
      obtain ⟨htimerfd, hclock⟩ := ih (resetTimer now current q timer)
      exact ⟨htimerfd.trans htimer.1, hclock.trans htimer.2⟩

theorem timerQueue_endBatch_frame (q : TimerQueue queue) (batch : Batch) (current : TimePoint) :
    (q.endBatch batch current).clock = q.clock ∧
      (queue.top (q.endBatch batch current).timers = none →
        (q.endBatch batch current).timerfd = q.timerfd) := by
  obtain ⟨htimerfd, hclock⟩ := foldl_resetTimer_frame batch.now current batch.expired q
  simp only [TimerQueue.endBatch, TimerQueue.reset]
  split
  · exact ⟨hclock, fun _ => htimerfd⟩
  · rename_i top htop
    refine ⟨hclock, fun hnone => ?_⟩
    simp only [htop] at hnone
    contradiction

theorem timerfd_addTimerInLoop (q : TimerQueue queue) (timer : Timer) :
    (q.addTimerInLoop timer).timerfd =
      if (q.insert timer).1 then some timer.when else q.timerfd := by
  rw [TimerQueue.addTimerInLoop]
  exact apply_ite TimerQueue.timerfd _ _ _

theorem addTimerInLoop_kept (h : s.Kept) (timer : Timer) {armedAt : TimePoint}
    (hlater : s.clock ≤ armedAt) : (s.addTimerInLoop timer armedAt).Kept := by
  have hqueue : (s.addTimerInLoop timer armedAt).timerQueue =
      s.timerQueue.addTimerInLoop timer := by
    rw [addTimerInLoop]
    split <;> rfl
  have hnow : s.clock ≤ (s.addTimerInLoop timer armedAt).clock := by
    rw [addTimerInLoop]
    split
    · exact hlater
    · exact le_refl _
  constructor
  · rw [hqueue]
    exact TimerQueue.addTimerInLoop_armed h.armed timer
  · intro when hwhen
    rw [hqueue, timerfd_addTimerInLoop] at hwhen
    rw [addTimerInLoop]
    split at hwhen <;> rename_i hchanged
    · rw [if_pos hchanged]
      obtain rfl := Option.some.inj hwhen
      exact resetTimerfd_covers _ _ _ _
    · rw [if_neg hchanged]
      exact h.covers when hwhen
  · obtain ⟨timerfd, heq⟩ := s.timerQueue.addTimerInLoop_eq timer
    rw [hqueue, heq]
    exact h.clock.trans hnow

theorem endBatch_kept (h : s.Kept) (batch : Batch) {armedAt : TimePoint}
    (hlater : s.clock ≤ armedAt) : (s.endBatch batch armedAt).Kept := by
  obtain ⟨hclock, hlast⟩ := timerQueue_endBatch_frame s.timerQueue batch s.clock
  obtain ⟨hqueue, hnow⟩ := @setEarliest_frame queue
    { s with timerQueue := s.timerQueue.endBatch batch s.clock } armedAt hlater
  have harmed := TimerQueue.endBatch_armed s.timerQueue batch s.clock
  constructor
  · rw [endBatch, hqueue]
    exact harmed
  · intro when hwhen
    rw [endBatch, hqueue] at hwhen
    rw [endBatch]
    cases htop : queue.top (s.timerQueue.endBatch batch s.clock).timers with
    | none =>
        rw [setEarliest, htop]
        apply h.covers when
        rw [← hlast htop]
        exact hwhen
    | some top =>
        rw [harmed rfl top htop] at hwhen
        obtain rfl := Option.some.inj hwhen
        exact covers_setEarliest htop
  · rw [endBatch, hqueue, hclock]
    exact h.clock.trans hnow

theorem reset_kept (h : s.Kept) {armedAt : TimePoint} (hlater : s.clock ≤ armedAt) :
    (s.reset armedAt).Kept := by
  obtain ⟨hqueue, hnow⟩ := @setEarliest_frame queue { s with
    timerQueue := { s.timerQueue with
      timerfd := (queue.top s.timerQueue.timers).map Timer.when }
    timerfd := .disarmed } armedAt hlater
  constructor
  · intro hbatch top htop
    rw [reset, hqueue] at htop ⊢
    simp only [htop, Option.map_some]
  · intro when hwhen
    rw [reset, hqueue] at hwhen
    obtain ⟨top, htop, rfl⟩ := Option.map_eq_some_iff.mp hwhen
    apply covers_setEarliest
    exact htop
  · rw [reset, hqueue]
    exact h.clock.trans hnow

theorem step_kept {s s' : State queue} {a : Action} (h : s.Kept) (hstep : s.step a = some s') :
    s'.Kept := by
  cases a with
  | pass now =>
      rw [step] at hstep
      split at hstep <;> rename_i hnow
      · obtain rfl := Option.some.inj hstep
        exact ⟨h.armed, h.covers, h.clock.trans hnow⟩
      · contradiction
  | expire =>
      rw [step] at hstep
      split at hstep
      · split at hstep
        · obtain rfl := Option.some.inj hstep
          exact ⟨h.armed, fun _ _ => Or.inl rfl, h.clock⟩
        · contradiction
      · contradiction
  | create when interval =>
      obtain rfl := Option.some.inj hstep
      exact ⟨h.armed, h.covers, h.clock⟩
  | addTimerInLoop id armedAt =>
      rw [step] at hstep
      split at hstep
      · contradiction
      · rename_i timer _
        split at hstep <;> rename_i hlater
        · obtain rfl := Option.some.inj hstep
          apply addTimerInLoop_kept
          · exact ⟨h.armed, h.covers, h.clock⟩
          · exact hlater
        · contradiction
  | invalidateTimer id =>
      obtain rfl := Option.some.inj hstep
      exact ⟨h.armed, h.covers, h.clock⟩
  | beginBatch now =>
      rw [step] at hstep
      split at hstep <;> rename_i hnow
      · obtain ⟨q, hq, rfl⟩ := Option.map_eq_some_iff.mp hstep
        have harmed := TimerQueue.step_armed h.armed hq
        obtain ⟨-, -, expired, heap, -, -, -, -, rfl⟩ := TimerQueue.step_beginBatch hq
        refine ⟨harmed, ?_, hnow⟩
        intro when hwhen
        cases hwhen
      · contradiction
  | runNext =>
      obtain ⟨q, hq, rfl⟩ := Option.map_eq_some_iff.mp hstep
      have harmed := TimerQueue.step_armed h.armed hq
      obtain ⟨now, expired, timer, rest, -, -, rfl⟩ := TimerQueue.step_runNext hq
      exact ⟨harmed, h.covers, h.clock⟩
  | endBatch armedAt =>
      rw [step] at hstep
      split at hstep
      · split at hstep <;> rename_i hlater
        · obtain rfl := Option.some.inj hstep
          exact endBatch_kept h _ hlater
        · contradiction
      · contradiction
  | reset armedAt =>
      rw [step] at hstep
      split at hstep <;> rename_i hready
      · obtain rfl := Option.some.inj hstep
        exact reset_kept h hready.2
      · contradiction

theorem kept_of_run {timersCreated : Nat} {clock : TimePoint} {actions : List Action}
    {s : State queue} (hrun : runSteps step (init queue timersCreated clock) actions = some s) :
    s.Kept :=
  runSteps_invariant Kept (fun _ _ _ => step_kept) (kept_init timersCreated clock) hrun

theorem Kept.earliest (h : s.Kept) (hbatch : s.timerQueue.batch = none)
    (htimers : queue.contents s.timerQueue.timers ≠ 0) :
    ∃ earliest ∈ queue.contents s.timerQueue.timers,
      (∀ timer ∈ queue.contents s.timerQueue.timers, earliest.when ≤ timer.when) ∧
        Covers s.timerfd earliest.when := by
  cases htop : queue.top s.timerQueue.timers with
  | none => exact absurd (queue.contents_of_top_none _ htop) htimers
  | some top =>
      refine ⟨top, PriorityQueue.mem_contents_of_top htop, queue.key_top_le _ top htop, ?_⟩
      exact h.covers top.when (h.armed hbatch top htop)

/-- In every run, when no batch is in progress and there are timers, the descriptor has expired and
is not read yet, or it expires no later than 100 microseconds after it was armed or after the time
of the earliest timer by what passed between the reading of the clock and the arming. -/
theorem armed_for_earliest {timersCreated : Nat} {clock : TimePoint} {actions : List Action}
    {s : State queue} (hrun : runSteps step (init queue timersCreated clock) actions = some s)
    (hbatch : s.timerQueue.batch = none) (htimers : queue.contents s.timerQueue.timers ≠ 0) :
    ∃ earliest ∈ queue.contents s.timerQueue.timers,
      (∀ timer ∈ queue.contents s.timerQueue.timers, earliest.when ≤ timer.when) ∧
        (s.timerfd = .expired ∨ ∃ readAt armedAt expiration,
          s.timerfd = .armed readAt armedAt expiration ∧
            expiration ≤ max (earliest.when + (armedAt - readAt)) (armedAt + 100000)) :=
  (kept_of_run hrun).earliest hbatch htimers

def forked : List Action :=
  [.create 1000000 0, .addTimerInLoop 1 300, .create 5000000 0, .addTimerInLoop 2 300,
    .pass 1000500, .expire, .beginBatch 1000500, .runNext, .create 3000000 0,
    .addTimerInLoop 3 1000800, .endBatch 1001000, .pass 1200000, .reset 1200400]

theorem armed_for_earliest_forked :
    ∃ s, runSteps step (init (PriorityQueue.sorted Timer.when) 0 0) forked = some s ∧
      s.timerfd = .armed 1200000 1200400 3000400 ∧
      ∃ earliest ∈ (PriorityQueue.sorted Timer.when).contents s.timerQueue.timers,
        (∀ timer ∈ (PriorityQueue.sorted Timer.when).contents s.timerQueue.timers,
          earliest.when ≤ timer.when) ∧
          (s.timerfd = .expired ∨ ∃ readAt armedAt expiration,
            s.timerfd = .armed readAt armedAt expiration ∧
              expiration ≤ max (earliest.when + (armedAt - readAt)) (armedAt + 100000)) := by
  let s₀ := init (PriorityQueue.sorted Timer.when) 0 0
  obtain ⟨s, hs⟩ := Option.isSome_iff_exists.mp
    (by decide : (runSteps step s₀ forked).isSome = true)
  have hend : (runSteps step s₀ forked).map (fun s => (s.timerfd, s.timerQueue.batch,
      ((PriorityQueue.sorted Timer.when).contents s.timerQueue.timers).card)) =
        some (Timerfd.armed 1200000 1200400 3000400, none, 2) := by decide
  rw [hs, Option.map_some, Option.some.injEq, Prod.mk.injEq, Prod.mk.injEq] at hend
  obtain ⟨htimerfd, hbatch, hcard⟩ := hend
  refine ⟨s, hs, htimerfd, armed_for_earliest hs hbatch ?_⟩
  intro hempty
  rw [hempty, Multiset.card_zero] at hcard
  omega

/-- Half a microsecond passes between the reading of the clock and the arming: a timer for 1 ms
expires half a microsecond late. -/
theorem not_armed_by_when :
    ¬∀ (timersCreated : Nat) (clock : TimePoint) (actions : List Action)
      (s : State (PriorityQueue.sorted Timer.when)),
      runSteps step (init (PriorityQueue.sorted Timer.when) timersCreated clock) actions = some s →
      s.timerQueue.batch = none →
      (PriorityQueue.sorted Timer.when).contents s.timerQueue.timers ≠ 0 →
      ∃ earliest ∈ (PriorityQueue.sorted Timer.when).contents s.timerQueue.timers,
        (∀ timer ∈ (PriorityQueue.sorted Timer.when).contents s.timerQueue.timers,
          earliest.when ≤ timer.when) ∧
        (s.timerfd = .expired ∨ ∃ readAt armedAt expiration,
          s.timerfd = .armed readAt armedAt expiration ∧
            expiration ≤ max earliest.when (armedAt + 100000)) := by
  intro h
  let s₀ := init (PriorityQueue.sorted Timer.when) 0 0
  let actions : List Action := [.create 1000000 0, .addTimerInLoop 1 500]
  obtain ⟨s, hs⟩ := Option.isSome_iff_exists.mp
    (by decide : (runSteps step s₀ actions).isSome = true)
  have hend : (runSteps step s₀ actions).map (fun s => (s.timerfd, s.timerQueue.batch,
      ((PriorityQueue.sorted Timer.when).contents s.timerQueue.timers).map Timer.when)) =
        some (Timerfd.armed 0 500 1000500, none, {1000000}) := by decide
  rw [hs, Option.map_some, Option.some.injEq, Prod.mk.injEq, Prod.mk.injEq] at hend
  obtain ⟨htimerfd, hbatch, hwhen⟩ := hend
  obtain ⟨earliest, hmem, -, hcovers⟩ := h 0 0 actions s hs hbatch (by
    intro hempty
    rw [hempty] at hwhen
    exact absurd hwhen (by decide))
  have hearliest : earliest.when = 1000000 := by
    have hmap := Multiset.mem_map_of_mem Timer.when hmem
    rw [hwhen, Multiset.mem_singleton] at hmap
    exact hmap
  rw [htimerfd, hearliest] at hcovers
  rcases hcovers with hexpired | ⟨readAt, armedAt, expiration, harmed, hle⟩
  · contradiction
  · obtain ⟨rfl, rfl, rfl⟩ := Timerfd.armed.inj harmed
    exact absurd hle (by decide)

theorem mem_expired_beginBatch (q : TimerQueue queue) {now : TimePoint} {timer : Timer}
    (htimer : timer ∈ queue.contents q.timers) (hdue : timer.when < now) :
    timer ∈ (q.beginBatch now).expired := by
  obtain ⟨hcontents, -, -, hlater⟩ :=
    PriorityQueue.popBelow_spec now (queue.contents q.timers).card q.timers (le_refl _)
  rw [hcontents] at htimer
  rcases Multiset.mem_add.mp htimer with htaken | hleft
  · exact Multiset.mem_coe.mp htaken
  · exact absurd (hlater timer hleft) (not_le.mpr hdue)

/-- No timer is forgotten: when its time is over, by what the arming took, and 100 microseconds
since the descriptor was armed, the descriptor has expired or does so, and `handleRead` takes the
timer off the heap. -/
theorem taken_in_time {timersCreated : Nat} {clock : TimePoint} {actions : List Action}
    {s : State queue} (hrun : runSteps step (init queue timersCreated clock) actions = some s)
    (hbatch : s.timerQueue.batch = none) {timer : Timer}
    (htimer : timer ∈ queue.contents s.timerQueue.timers) (hdue : timer.when < s.clock)
    (hpassed : ∀ readAt armedAt expiration, s.timerfd = .armed readAt armedAt expiration →
      timer.when + (armedAt - readAt) ≤ s.clock ∧ armedAt + 100000 ≤ s.clock) :
    ∃ s', (s' = s ∨ s.step .expire = some s') ∧ s'.timerfd = .expired ∧
      ∃ s'', s'.step (.beginBatch s.clock) = some s'' ∧ timer ∈ s''.timerQueue.expired := by
  have hkept := kept_of_run hrun
  have htimers : queue.contents s.timerQueue.timers ≠ 0 := by
    intro hempty
    rw [hempty] at htimer
    exact absurd htimer (Multiset.notMem_zero timer)
  have hbegin : s.timerQueue.step (.beginBatch s.clock) = some (s.timerQueue.beginBatch s.clock) :=
    if_pos ⟨hbatch, hkept.clock⟩
  have htaken := mem_expired_beginBatch s.timerQueue htimer hdue
  obtain ⟨earliest, -, hleast, hexpired | ⟨readAt, armedAt, expiration, harmed, hearly⟩⟩ :=
    hkept.earliest hbatch htimers
  · refine ⟨s, Or.inl rfl, hexpired, { s with
      timerQueue := s.timerQueue.beginBatch s.clock
      timerfd := readTimerfd s.timerfd }, ?_, htaken⟩
    rw [step, if_pos (le_refl _), hbegin]
    rfl
  · have hreached : expiration ≤ s.clock := by
      obtain ⟨hlate, hleastWait⟩ := hpassed readAt armedAt expiration harmed
      apply hearly.trans
      exact max_le ((Int.add_le_add_right (hleast timer htimer) _).trans hlate) hleastWait
    refine ⟨{ s with timerfd := .expired }, Or.inr ?_, rfl, { s with
      timerQueue := s.timerQueue.beginBatch s.clock
      timerfd := .disarmed }, ?_, htaken⟩
    · rw [step, harmed]
      exact if_pos hreached
    · rw [step, if_pos (le_refl _), hbegin]
      rfl

end State

end Cooper.TimerDescriptor

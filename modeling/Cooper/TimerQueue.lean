import Cooper.PriorityQueue
import Cooper.StepRun
import Mathlib.Data.Finset.Basic
import Mathlib.Data.Multiset.Filter

/-!
`TimerQueue` and `Timer`. The machine interleaves what callbacks do with the timers of the batch in
progress; `handleRead` is the function of the source, for callbacks of known effect.
-/

namespace Cooper

open Cooper.StepRun

namespace TimerQueue

abbrev TimerId := Nat

/-- Ticks of the steady clock. -/
abbrev TimePoint := Int

abbrev TimeInterval := Int

/-- The callback stands in for itself by the id. -/
structure Timer where
  id : TimerId
  when : TimePoint
  interval : TimeInterval
deriving DecidableEq, Repr

def Timer.isRepeat (timer : Timer) : Bool := 0 < timer.interval

/-- `current` is what `steady_clock::now()` is at the call. -/
def Timer.restart (timer : Timer) (now current : TimePoint) : Timer :=
  { timer with when := if timer.isRepeat then now + timer.interval else current }

/-- A call of a callback: the timer as it was then, the `now` of the batch and its number. -/
structure Run where
  timer : Timer
  now : TimePoint
  batch : Nat
deriving DecidableEq, Repr

/-- `handleRead` between `getExpired` and `reset`; `rest` is what its loop has still to visit. -/
structure Batch where
  now : TimePoint
  expired : List Timer
  rest : List Timer
deriving DecidableEq, Repr

end TimerQueue

open TimerQueue in
/-- `waiting` are the timers that are constructed and not yet passed to `addTimerInLoop`, those of
other queues included. `clock` is the last time that was read, `batches` counts the calls of
`handleRead`, `log` is what ran. -/
structure TimerQueue (queue : PriorityQueue Timer Timer.when) where
  timersCreated : Nat
  waiting : List Timer
  timers : queue.Carrier
  timerIdSet : Finset TimerId
  timerfd : Option TimePoint
  clock : TimePoint
  batches : Nat
  batch : Option Batch
  log : List Run

namespace TimerQueue

inductive Action where
  | create (when : TimePoint) (interval : TimeInterval)
  | addTimerInLoop (id : TimerId)
  | invalidateTimer (id : TimerId)
  | beginBatch (now : TimePoint)
  | runNext
  | endBatch (current : TimePoint)
deriving DecidableEq, Repr

variable {queue : PriorityQueue Timer Timer.when}

def init (queue : PriorityQueue Timer Timer.when) (timersCreated : Nat) (clock : TimePoint) :
    TimerQueue queue where
  timersCreated := timersCreated
  waiting := []
  timers := queue.empty
  timerIdSet := ∅
  timerfd := none
  clock := clock
  batches := 0
  batch := none
  log := []

/-- The constructor of `Timer`, whose id is `++timersCreated_`. -/
def create (s : TimerQueue queue) (when : TimePoint) (interval : TimeInterval) :
    TimerQueue queue :=
  { s with
    timersCreated := s.timersCreated + 1
    waiting := s.waiting ++ [⟨s.timersCreated + 1, when, interval⟩] }

/-- The answer is `earliestChanged`. -/
def insert (s : TimerQueue queue) (timer : Timer) : Bool × TimerQueue queue :=
  let earliestChanged :=
    match queue.top s.timers with
    | none => true
    | some top => timer.when < top.when
  let s := { s with timers := queue.push s.timers timer }
  (earliestChanged, s)

def addTimerInLoop (s : TimerQueue queue) (timer : Timer) : TimerQueue queue :=
  let s := { s with timerIdSet := Insert.insert timer.id s.timerIdSet }
  let r := s.insert timer
  if r.1 then { r.2 with timerfd := some timer.when } else r.2

def invalidateTimer (s : TimerQueue queue) (id : TimerId) : TimerQueue queue :=
  { s with timerIdSet := s.timerIdSet.erase id }

def getExpired (s : TimerQueue queue) (now : TimePoint) : List Timer × TimerQueue queue :=
  let r := queue.popBelow now (queue.contents s.timers).card s.timers
  let s := { s with timers := r.2 }
  (r.1, s)

/-- The body of the loop of `handleRead`, less the effect of the callback. -/
def runTimer (s : TimerQueue queue) (now : TimePoint) (timer : Timer) : TimerQueue queue :=
  if timer.id ∈ s.timerIdSet then { s with log := s.log ++ [⟨timer, now, s.batches⟩] } else s

/-- The body of the loop of `reset`. -/
def resetTimer (now current : TimePoint) (s : TimerQueue queue) (timer : Timer) :
    TimerQueue queue :=
  if timer.id ∈ s.timerIdSet then
    if timer.isRepeat then (s.insert (timer.restart now current)).2
    else { s with timerIdSet := s.timerIdSet.erase timer.id }
  else s

def reset (s : TimerQueue queue) (expired : List Timer) (now current : TimePoint) :
    TimerQueue queue :=
  let s := expired.foldl (resetTimer now current) s
  match queue.top s.timers with
  | none => s
  | some top => { s with timerfd := some top.when }

/-- `handleRead` up to its loop. The timer descriptor has expired and is read. -/
def beginBatch (s : TimerQueue queue) (now : TimePoint) : TimerQueue queue :=
  let s := { s with
    clock := now
    timerfd := none
    batches := s.batches + 1 }
  let r := s.getExpired now
  { r.2 with batch := some ⟨now, r.1, r.1⟩ }

def endBatch (s : TimerQueue queue) (batch : Batch) (current : TimePoint) : TimerQueue queue :=
  { s.reset batch.expired batch.now current with batch := none }

/-- A callback does its work after the `runNext` of its timer and before the next step of the
batch. -/
def step (s : TimerQueue queue) : Action → Option (TimerQueue queue)
  | .create when interval => some (s.create when interval)
  | .addTimerInLoop id =>
      match s.waiting.find? (·.id = id) with
      | none => none
      | some timer =>
          let s := { s with waiting := s.waiting.erase timer }
          some (s.addTimerInLoop timer)
  | .invalidateTimer id => some (s.invalidateTimer id)
  | .beginBatch now => if s.batch = none ∧ s.clock ≤ now then some (s.beginBatch now) else none
  | .runNext =>
      match s.batch with
      | some ⟨now, expired, timer :: rest⟩ =>
          let s := { s with batch := some ⟨now, expired, rest⟩ }
          some (s.runTimer now timer)
      | _ => none
  | .endBatch current =>
      match s.batch with
      | some ⟨now, expired, []⟩ => some (s.endBatch ⟨now, expired, []⟩ current)
      | _ => none

/-- What a callback can do. -/
def Action.IsCall : Action → Prop
  | .create _ _ | .addTimerInLoop _ | .invalidateTimer _ => True
  | .beginBatch _ | .runNext | .endBatch _ => False

def visitAll (callback : Timer → TimerQueue queue → TimerQueue queue) (now : TimePoint)
    (expired : List Timer) : (rest : List Timer) → TimerQueue queue → TimerQueue queue
  | [], s => s
  | timer :: rest, s =>
      let s := { s with batch := some ⟨now, expired, rest⟩ }
      visitAll callback now expired rest
        (if timer.id ∈ s.timerIdSet then callback timer (s.runTimer now timer) else s)

/-- `now` is read at the beginning and `current` at the end. -/
def handleRead (s : TimerQueue queue) (callback : Timer → TimerQueue queue → TimerQueue queue)
    (now current : TimePoint) : TimerQueue queue :=
  let r := s.getExpired now
  let s := s.beginBatch now
  (visitAll callback now r.1 r.1 s).endBatch ⟨now, r.1, []⟩ current

def expired (s : TimerQueue queue) : List Timer :=
  match s.batch with
  | none => []
  | some batch => batch.expired

def rest (s : TimerQueue queue) : List Timer :=
  match s.batch with
  | none => []
  | some batch => batch.rest

def held (s : TimerQueue queue) : Multiset Timer := queue.contents s.timers + s.expired

/-- The timers whose callback can still run before they are inserted again. -/
def pending (s : TimerQueue queue) : Multiset Timer := queue.contents s.timers + s.rest

def runsOf (s : TimerQueue queue) (id : TimerId) : List Run :=
  s.log.filter (·.timer.id = id)

def known (s : TimerQueue queue) : Multiset Timer := s.waiting + s.held

section Effects

variable (s : TimerQueue queue)

theorem addTimerInLoop_eq (timer : Timer) :
    ∃ timerfd, s.addTimerInLoop timer =
      { s with
        timerIdSet := Insert.insert timer.id s.timerIdSet
        timers := queue.push s.timers timer
        timerfd := timerfd } := by
  rw [addTimerInLoop]
  split
  · exact ⟨_, rfl⟩
  · exact ⟨_, rfl⟩

/-- The timers of a batch that `reset` puts back, when `ids` are the valid ones. -/
def restarted (ids : Finset TimerId) (now current : TimePoint) (timers : List Timer) :
    List Timer :=
  (timers.filter fun timer => timer.id ∈ ids ∧ timer.isRepeat = true).map (·.restart now current)

/-- The ids that `reset` leaves valid. -/
def revalidated (ids : Finset TimerId) (timers : List Timer) : Finset TimerId :=
  ids.filter fun id => ∀ timer ∈ timers, timer.id = id → timer.isRepeat = true

theorem mem_revalidated {ids : Finset TimerId} {timers : List Timer} {id : TimerId} :
    id ∈ revalidated ids timers ↔
      id ∈ ids ∧ ∀ timer ∈ timers, timer.id = id → timer.isRepeat = true :=
  Finset.mem_filter

theorem restarted_congr {ids ids' : Finset TimerId} (now current : TimePoint) {timers : List Timer}
    (h : ∀ timer ∈ timers, timer.id ∈ ids ↔ timer.id ∈ ids') :
    restarted ids now current timers = restarted ids' now current timers := by
  rw [restarted, restarted]
  congr 1
  apply List.filter_congr
  intro timer hmem
  simp only [h timer hmem]

theorem resetTimer_eq (now current : TimePoint) (timer : Timer) :
    ∃ heap, queue.contents heap =
        queue.contents s.timers + restarted s.timerIdSet now current [timer] ∧
      resetTimer now current s timer =
        { s with
          timers := heap
          timerIdSet := revalidated s.timerIdSet [timer] } := by
  rw [resetTimer, restarted]
  split <;> rename_i hvalid
  · split <;> rename_i hrepeat
    · have hids : revalidated s.timerIdSet [timer] = s.timerIdSet := by
        ext id
        simp [mem_revalidated, hrepeat]
      refine ⟨queue.push s.timers (timer.restart now current), ?_, ?_⟩
      · rw [queue.contents_push, ← Multiset.singleton_add, Multiset.add_comm]
        simp [hvalid, hrepeat]
      · rw [hids]
        rfl
    · have hids : revalidated s.timerIdSet [timer] = s.timerIdSet.erase timer.id := by
        ext id
        simp only [mem_revalidated, List.mem_singleton, forall_eq, hrepeat, Finset.mem_erase]
        rw [and_comm, ne_comm]
        simp
      refine ⟨s.timers, by simp [hrepeat], ?_⟩
      rw [hids]
  · have hids : revalidated s.timerIdSet [timer] = s.timerIdSet := by
      ext id
      simp only [mem_revalidated, List.mem_singleton, forall_eq, and_iff_left_iff_imp]
      intro hid heq
      exact absurd (heq ▸ hid) hvalid
    refine ⟨s.timers, by simp [hvalid], ?_⟩
    rw [hids]

theorem foldl_resetTimer (now current : TimePoint) {timers : List Timer}
    (hnodup : (timers.map Timer.id).Nodup) :
    ∃ heap, queue.contents heap =
        queue.contents s.timers + restarted s.timerIdSet now current timers ∧
      timers.foldl (resetTimer now current) s =
        { s with
          timers := heap
          timerIdSet := revalidated s.timerIdSet timers } := by
  induction timers generalizing s with
  | nil => exact ⟨s.timers, by simp [restarted], by simp [revalidated]⟩
  | cons timer timers ih =>
      rw [List.map_cons, List.nodup_cons] at hnodup
      have hother : ∀ other ∈ timers, timer.id ≠ other.id := by
        intro other hmem heq
        exact hnodup.1 (heq ▸ List.mem_map_of_mem hmem)
      obtain ⟨first, hfirst, hreset⟩ := s.resetTimer_eq now current timer
      obtain ⟨heap, hheap, hfold⟩ := ih (resetTimer now current s timer) hnodup.2
      refine ⟨heap, ?_, ?_⟩
      · rw [hheap, hreset]
        have hcongr : restarted (revalidated s.timerIdSet [timer]) now current timers =
            restarted s.timerIdSet now current timers := by
          apply restarted_congr
          intro other hmem
          simp [mem_revalidated, hother other hmem]
        rw [hfirst, hcongr, Multiset.add_assoc, Multiset.coe_add]
        congr 2
        simp only [restarted, List.filter_cons, List.filter_nil]
        split <;> rfl
      · have hids : revalidated (revalidated s.timerIdSet [timer]) timers =
            revalidated s.timerIdSet (timer :: timers) := by
          ext id
          simp [mem_revalidated, and_assoc]
        rw [List.foldl_cons, hfold, hreset, hids]

theorem reset_eq (now current : TimePoint) {timers : List Timer}
    (hnodup : (timers.map Timer.id).Nodup) :
    ∃ heap timerfd, queue.contents heap =
        queue.contents s.timers + restarted s.timerIdSet now current timers ∧
      s.reset timers now current =
        { s with
          timers := heap
          timerIdSet := revalidated s.timerIdSet timers
          timerfd := timerfd } := by
  obtain ⟨heap, hheap, hfold⟩ := s.foldl_resetTimer now current hnodup
  rw [reset, hfold]
  split
  · exact ⟨heap, s.timerfd, hheap, rfl⟩
  · exact ⟨heap, _, hheap, rfl⟩

theorem beginBatch_spec (now : TimePoint) :
    ∃ expired heap, s.beginBatch now =
        { s with
          clock := now
          timerfd := none
          batches := s.batches + 1
          timers := heap
          batch := some ⟨now, expired, expired⟩ } ∧
      queue.contents s.timers = expired + queue.contents heap ∧
      expired.Pairwise (·.when ≤ ·.when) ∧ ∀ timer ∈ expired, timer.when < now := by
  obtain ⟨hcontents, hsorted, hbelow, -⟩ :=
    PriorityQueue.popBelow_spec now (queue.contents s.timers).card s.timers (le_refl _)
  exact ⟨_, _, rfl, hcontents, hsorted, hbelow⟩

end Effects

structure RunLaw (log : List Run) : Prop where
  late : ∀ r ∈ log, r.timer.when < r.now
  once : log.Pairwise fun r₁ r₂ => r₁.timer.id = r₂.timer.id → r₁.timer.isRepeat = true
  apart : log.Pairwise fun r₁ r₂ =>
    r₁.timer.id = r₂.timer.id → r₁.now + r₁.timer.interval < r₂.now
  ordered : log.Pairwise fun r₁ r₂ => r₁.batch = r₂.batch → r₁.timer.when ≤ r₂.timer.when

/-- The books on ids: no timer is there twice, and an id is valid only while its timer is held. -/
structure Booked (s : TimerQueue queue) : Prop where
  nodup : (s.known.map Timer.id).Nodup
  created : ∀ timer ∈ s.known, timer.id ≤ s.timersCreated
  valid : ∀ id ∈ s.timerIdSet, ∃ timer ∈ s.held, timer.id = id

theorem known_create (s : TimerQueue queue) (when : TimePoint) (interval : TimeInterval) :
    (s.create when interval).known = ⟨s.timersCreated + 1, when, interval⟩ ::ₘ s.known := by
  change ((s.waiting ++ [_] : List Timer) : Multiset Timer) + s.held = _
  rw [known, ← Multiset.coe_add, Multiset.coe_singleton, Multiset.add_assoc,
    Multiset.singleton_add, Multiset.add_cons]

theorem create_booked {s : TimerQueue queue} (h : s.Booked) (when : TimePoint)
    (interval : TimeInterval) : (s.create when interval).Booked := by
  refine ⟨?_, ?_, h.valid⟩
  · rw [known_create, Multiset.map_cons, Multiset.nodup_cons]
    refine ⟨?_, h.nodup⟩
    intro hmem
    obtain ⟨timer, htimer, heq⟩ := Multiset.mem_map.mp hmem
    have hle := h.created timer htimer
    rw [heq] at hle
    exact absurd hle (Nat.not_succ_le_self _)
  · rw [known_create]
    intro timer htimer
    rcases Multiset.mem_cons.mp htimer with rfl | htimer
    · exact le_refl _
    · exact (h.created timer htimer).trans (Nat.le_succ _)

theorem held_of_batch {s : TimerQueue queue} {batch : Batch} (h : s.batch = some batch) :
    s.held = queue.contents s.timers + batch.expired := by
  rw [held, expired, h]

theorem held_of_no_batch {s : TimerQueue queue} (h : s.batch = none) :
    s.held = queue.contents s.timers := by
  rw [held, expired, h]
  exact Multiset.add_zero _

section Steps

variable {s s' : TimerQueue queue}

theorem step_addTimerInLoop {id : TimerId} (h : s.step (.addTimerInLoop id) = some s') :
    ∃ timer ∈ s.waiting, ∃ heap timerfd, timer.id = id ∧
      queue.contents heap = timer ::ₘ queue.contents s.timers ∧ s'.held = timer ::ₘ s.held ∧
      s' = { s with
        waiting := s.waiting.erase timer
        timerIdSet := Insert.insert id s.timerIdSet
        timers := heap
        timerfd := timerfd } := by
  simp only [step] at h
  split at h
  · simp at h
  · rename_i timer hfind
    obtain rfl : timer.id = id := by simpa using List.find?_some hfind
    obtain ⟨timerfd, heq⟩ :=
      TimerQueue.addTimerInLoop_eq { s with
        waiting := s.waiting.erase timer } timer
    rw [heq] at h
    have hs' := (Option.some.inj h).symm
    have hheap := queue.contents_push s.timers timer
    refine ⟨timer, List.mem_of_find?_eq_some hfind, _, timerfd, rfl, hheap, ?_, hs'⟩
    simp only [held, expired, hs', hheap, Multiset.cons_add]

theorem step_beginBatch {now : TimePoint} (h : s.step (.beginBatch now) = some s') :
    s.batch = none ∧ s.clock ≤ now ∧ ∃ (expired : List Timer) (heap : queue.Carrier),
      queue.contents s.timers = expired + queue.contents heap ∧
      expired.Pairwise (·.when ≤ ·.when) ∧ (∀ timer ∈ expired, timer.when < now) ∧
      s'.held = s.held ∧
      s' = { s with
        clock := now
        timerfd := none
        batches := s.batches + 1
        timers := heap
        batch := some ⟨now, expired, expired⟩ } := by
  simp only [step] at h
  split at h <;> rename_i hguard
  · obtain ⟨expired, heap, heq, hcontents, hsorted, hbelow⟩ := s.beginBatch_spec now
    rw [heq] at h
    have hs' := (Option.some.inj h).symm
    refine ⟨hguard.1, hguard.2, expired, heap, hcontents, hsorted, hbelow, ?_, hs'⟩
    rw [held_of_no_batch hguard.1, hcontents, held, TimerQueue.expired, hs', Multiset.add_comm]
  · simp at h

theorem step_runNext (h : s.step .runNext = some s') :
    ∃ now expired timer rest, s.batch = some ⟨now, expired, timer :: rest⟩ ∧ s'.held = s.held ∧
      s' = { s with
        batch := some ⟨now, expired, rest⟩
        log := s.log ++ if timer.id ∈ s.timerIdSet then [⟨timer, now, s.batches⟩] else [] } := by
  simp only [step] at h
  split at h
  · rename_i now expired timer rest hbatch
    have hs' : s' = { s with
        batch := some ⟨now, expired, rest⟩
        log := s.log ++ if timer.id ∈ s.timerIdSet then [⟨timer, now, s.batches⟩] else [] } := by
      rw [← Option.some.inj h, runTimer]
      split
      · rfl
      · rw [List.append_nil]
    refine ⟨now, expired, timer, rest, hbatch, ?_, hs'⟩
    rw [held_of_batch hbatch, held, TimerQueue.expired, hs']
  · simp at h

theorem step_endBatch {current : TimePoint} (h : s.step (.endBatch current) = some s')
    (hnodup : (s.expired.map Timer.id).Nodup) :
    ∃ now expired heap timerfd, s.batch = some ⟨now, expired, []⟩ ∧
      queue.contents heap =
        queue.contents s.timers + restarted s.timerIdSet now current expired ∧
      s'.held = queue.contents s.timers + restarted s.timerIdSet now current expired ∧
      s' = { s with
        timers := heap
        timerIdSet := revalidated s.timerIdSet expired
        timerfd := timerfd
        batch := none } := by
  simp only [step] at h
  split at h
  · rename_i now expired hbatch
    simp only [TimerQueue.expired, hbatch] at hnodup
    obtain ⟨heap, timerfd, hheap, heq⟩ := s.reset_eq now current hnodup
    have hs' := (Option.some.inj h).symm
    rw [endBatch, heq] at hs'
    refine ⟨now, expired, heap, timerfd, hbatch, hheap, ?_, hs'⟩
    rw [held_of_no_batch (by rw [hs']), hs', hheap]
  · simp at h

end Steps

theorem known_erase {s : TimerQueue queue} {timer : Timer} (h : timer ∈ s.waiting)
    (held : Multiset Timer) :
    (↑(s.waiting.erase timer) : Multiset Timer) + timer ::ₘ held = s.waiting + held := by
  rw [Multiset.add_cons, ← Multiset.cons_add, ← Multiset.coe_erase,
    Multiset.cons_erase (Multiset.mem_coe.mpr h)]

theorem mem_restarted {ids : Finset TimerId} {now current : TimePoint} {timers : List Timer}
    {timer : Timer} :
    timer ∈ restarted ids now current timers ↔
      ∃ old ∈ timers, old.id ∈ ids ∧ 0 < old.interval ∧
        timer = { old with
          when := now + old.interval } := by
  simp only [restarted, List.mem_map, List.mem_filter, decide_eq_true_eq, Timer.isRepeat,
    Timer.restart]
  constructor
  · rintro ⟨old, ⟨hold, hid, hrepeat⟩, rfl⟩
    exact ⟨old, hold, hid, hrepeat, by rw [if_pos (by simpa using hrepeat)]⟩
  · rintro ⟨old, hold, hid, hrepeat, rfl⟩
    exact ⟨old, ⟨hold, hid, hrepeat⟩, by rw [if_pos (by simpa using hrepeat)]⟩

theorem restarted_ids_le (ids : Finset TimerId) (now current : TimePoint) (timers : List Timer) :
    ((restarted ids now current timers : Multiset Timer).map Timer.id) ≤
      (timers : Multiset Timer).map Timer.id := by
  have hids : (restarted ids now current timers).map Timer.id =
      (timers.filter fun timer => timer.id ∈ ids ∧ timer.isRepeat = true).map Timer.id := by
    rw [restarted, List.map_map]
    rfl
  rw [Multiset.map_coe, hids, ← Multiset.map_coe]
  exact Multiset.map_le_map (Multiset.coe_le.mpr List.filter_sublist.subperm)

theorem Booked.of_le {s s' : TimerQueue queue} (h : s.Booked)
    (hknown : s'.known.map Timer.id ≤ s.known.map Timer.id)
    (hcreated : s'.timersCreated = s.timersCreated)
    (hvalid : ∀ id ∈ s'.timerIdSet, ∃ timer ∈ s'.held, timer.id = id) : s'.Booked := by
  refine ⟨Multiset.nodup_of_le hknown h.nodup, ?_, hvalid⟩
  intro timer htimer
  obtain ⟨other, hother, heq⟩ := Multiset.mem_map.mp
    (Multiset.mem_of_le hknown (Multiset.mem_map_of_mem Timer.id htimer))
  rw [hcreated, ← heq]
  exact h.created other hother

theorem Booked.expired_nodup {s : TimerQueue queue} (h : s.Booked) :
    (s.expired.map Timer.id).Nodup := by
  have hnodup := h.nodup
  rw [known, held, Multiset.map_add, Multiset.map_add, Multiset.map_coe] at hnodup
  have hle := Multiset.le_add_left (s.expired.map Timer.id : Multiset TimerId)
    ((queue.contents s.timers).map Timer.id)
  exact Multiset.coe_nodup.mp (Multiset.nodup_of_le
    (hle.trans (Multiset.le_add_left _ _)) hnodup)

theorem Booked.eq_of_id {s : TimerQueue queue} (h : s.Booked) {timer other : Timer}
    (htimer : timer ∈ s.known) (hother : other ∈ s.known) (hid : timer.id = other.id) :
    timer = other :=
  Multiset.inj_on_of_nodup_map h.nodup timer htimer other hother hid

theorem Booked.waiting_ne {s : TimerQueue queue} (h : s.Booked) {timer other : Timer}
    (htimer : timer ∈ s.waiting) (hother : other ∈ s.held) : timer.id ≠ other.id := by
  have hnodup := h.nodup
  rw [known, Multiset.map_add, Multiset.nodup_add] at hnodup
  intro heq
  apply Multiset.disjoint_left.mp hnodup.2.2 (Multiset.mem_map_of_mem Timer.id
    (Multiset.mem_coe.mpr htimer))
  rw [heq]
  exact Multiset.mem_map_of_mem Timer.id hother

theorem mem_known_of_held {s : TimerQueue queue} {timer : Timer} (h : timer ∈ s.held) :
    timer ∈ s.known :=
  Multiset.mem_add.mpr (Or.inr h)

theorem mem_known_of_waiting {s : TimerQueue queue} {timer : Timer} (h : timer ∈ s.waiting) :
    timer ∈ s.known :=
  Multiset.mem_add.mpr (Or.inl (Multiset.mem_coe.mpr h))

theorem step_booked {s s' : TimerQueue queue} {a : Action} (h : s.Booked)
    (hstep : s.step a = some s') : s'.Booked := by
  cases a with
  | create when interval =>
      rw [← Option.some.inj hstep]
      exact create_booked h when interval
  | addTimerInLoop id =>
      obtain ⟨timer, hmem, heap, timerfd, rfl, hheap, hheld, hs'⟩ := step_addTimerInLoop hstep
      have hknown : s'.known = s.known := by
        rw [known, hheld, hs', known_erase hmem, known]
      refine h.of_le (by rw [hknown]) (by rw [hs']) ?_
      intro id hid
      rw [hs'] at hid
      rw [hheld]
      rcases Finset.mem_insert.mp hid with rfl | hid
      · exact ⟨timer, Multiset.mem_cons_self _ _, rfl⟩
      · obtain ⟨other, hother, heq⟩ := h.valid id hid
        exact ⟨other, Multiset.mem_cons_of_mem hother, heq⟩
  | invalidateTimer id =>
      rw [← Option.some.inj hstep]
      exact h.of_le (le_refl _) rfl fun i hi => h.valid i (Finset.mem_of_mem_erase hi)
  | beginBatch now =>
      obtain ⟨hbatch, -, expired, heap, -, -, -, hheld, hs'⟩ := step_beginBatch hstep
      have hknown : s'.known = s.known := by
        rw [known, hheld, hs', known]
      refine h.of_le (by rw [hknown]) (by rw [hs']) ?_
      rw [hheld, hs']
      exact h.valid
  | runNext =>
      obtain ⟨now, expired, timer, rest, hbatch, hheld, hs'⟩ := step_runNext hstep
      have hknown : s'.known = s.known := by
        rw [known, hheld, hs', known]
      refine h.of_le (by rw [hknown]) (by rw [hs']) ?_
      rw [hheld, hs']
      exact h.valid
  | endBatch current =>
      obtain ⟨now, expired, heap, timerfd, hbatch, hheap, hheld, hs'⟩ :=
        step_endBatch hstep h.expired_nodup
      have hknown : s'.known.map Timer.id ≤ s.known.map Timer.id := by
        rw [known, known, hheld, held_of_batch hbatch, hs']
        simp only [Multiset.map_add]
        exact Multiset.add_le_add_left
          (Multiset.add_le_add_left (restarted_ids_le _ _ _ _))
      refine h.of_le hknown (by rw [hs']) ?_
      intro id hid
      rw [hs'] at hid
      obtain ⟨hmem, hrepeat⟩ := mem_revalidated.mp hid
      obtain ⟨timer, htimer, rfl⟩ := h.valid id hmem
      rw [held_of_batch hbatch] at htimer
      rw [hheld]
      rcases Multiset.mem_add.mp htimer with htimer | htimer
      · exact ⟨timer, Multiset.mem_add.mpr (Or.inl htimer), rfl⟩
      · have hpos := hrepeat timer (Multiset.mem_coe.mp htimer) rfl
        refine ⟨_, Multiset.mem_add.mpr (Or.inr (Multiset.mem_coe.mpr (mem_restarted.mpr
          ⟨timer, Multiset.mem_coe.mp htimer, hmem, ?_, rfl⟩))), rfl⟩
        simpa [Timer.isRepeat] using hpos

/-- What the log says about the timers: `pending` is about those whose callback can still run before
they are inserted again. -/
structure Scheduled (s : TimerQueue queue) : Prop where
  law : RunLaw s.log
  logged : ∀ r ∈ s.log, r.timer.id ≤ s.timersCreated ∧ r.now ≤ s.clock ∧ r.batch ≤ s.batches
  waiting : ∀ timer ∈ s.waiting, ∀ r ∈ s.log, r.timer.id ≠ timer.id
  interval : ∀ timer ∈ s.held, ∀ r ∈ s.log, r.timer.id = timer.id →
    r.timer.interval = timer.interval
  pending : ∀ timer ∈ s.pending, ∀ r ∈ s.log, r.timer.id = timer.id →
    0 < timer.interval ∧ r.now + timer.interval ≤ timer.when
  clock : ∀ batch, s.batch = some batch → batch.now = s.clock
  visiting : ∀ batch, s.batch = some batch → batch.rest <:+ batch.expired
  due : ∀ batch, s.batch = some batch → ∀ timer ∈ batch.expired, timer.when < batch.now
  sorted : s.rest.Pairwise (·.when ≤ ·.when)
  passed : ∀ r ∈ s.log, r.batch = s.batches → ∀ timer ∈ s.rest, r.timer.when ≤ timer.when

theorem RunLaw.append {log : List Run} (h : RunLaw log) {run : Run}
    (hlate : run.timer.when < run.now)
    (hsame : ∀ r ∈ log, r.timer.id = run.timer.id →
      r.timer.isRepeat = true ∧ r.now + r.timer.interval < run.now)
    (hbatch : ∀ r ∈ log, r.batch = run.batch → r.timer.when ≤ run.timer.when) :
    RunLaw (log ++ [run]) := by
  constructor
  · intro r hr
    rcases List.mem_append.mp hr with hr | hr
    · exact h.late r hr
    · rw [List.mem_singleton.mp hr]
      exact hlate
  · refine List.pairwise_append.mpr ⟨h.once, List.pairwise_singleton _ _, ?_⟩
    intro r hr last hlast
    rw [List.mem_singleton.mp hlast]
    exact fun hid => (hsame r hr hid).1
  · refine List.pairwise_append.mpr ⟨h.apart, List.pairwise_singleton _ _, ?_⟩
    intro r hr last hlast
    rw [List.mem_singleton.mp hlast]
    exact fun hid => (hsame r hr hid).2
  · refine List.pairwise_append.mpr ⟨h.ordered, List.pairwise_singleton _ _, ?_⟩
    intro r hr last hlast
    rw [List.mem_singleton.mp hlast]
    exact hbatch r hr

theorem pending_of_batch {s : TimerQueue queue} {batch : Batch} (h : s.batch = some batch) :
    s.pending = queue.contents s.timers + batch.rest := by
  rw [pending, rest, h]

theorem pending_of_no_batch {s : TimerQueue queue} (h : s.batch = none) :
    s.pending = queue.contents s.timers := by
  rw [pending, rest, h]
  exact Multiset.add_zero _

theorem pending_le_held {s : TimerQueue queue}
    (hvisiting : ∀ batch, s.batch = some batch → batch.rest <:+ batch.expired) :
    s.pending ≤ s.held := by
  cases hbatch : s.batch with
  | none => rw [pending_of_no_batch hbatch, held_of_no_batch hbatch]
  | some batch =>
      rw [pending_of_batch hbatch, held_of_batch hbatch]
      exact Multiset.add_le_add_left
        (Multiset.coe_le.mpr (hvisiting batch hbatch).sublist.subperm)

theorem Booked.pending_nodup {s : TimerQueue queue} (h : s.Booked)
    (hvisiting : ∀ batch, s.batch = some batch → batch.rest <:+ batch.expired) :
    (s.pending.map Timer.id).Nodup :=
  Multiset.nodup_of_le (Multiset.map_le_map
    ((pending_le_held hvisiting).trans (Multiset.le_add_left _ _))) h.nodup

theorem runNext_scheduled {s s' : TimerQueue queue} (hbooked : s.Booked) (h : s.Scheduled)
    (hstep : s.step .runNext = some s') : s'.Scheduled := by
  obtain ⟨now, expired, timer, rest, hbatch, hheld, hs'⟩ := step_runNext hstep
  have hpending : s.pending = timer ::ₘ s'.pending := by
    rw [pending_of_batch hbatch, TimerQueue.pending, TimerQueue.rest, hs', ← Multiset.cons_coe,
      Multiset.add_cons]
  have hrest : s.rest = timer :: rest := by
    rw [TimerQueue.rest, hbatch]
  have htimer : timer ∈ s.pending := by
    rw [hpending]
    exact Multiset.mem_cons_self _ _
  have hclock : now = s.clock := h.clock _ hbatch
  have hdue : timer.when < now :=
    h.due _ hbatch timer ((h.visiting _ hbatch).subset (List.mem_cons_self))
  have hsorted := h.sorted
  rw [hrest, List.pairwise_cons] at hsorted
  -- no other timer with this id is left
  have hother : ∀ other ∈ s'.pending, timer.id ≠ other.id := by
    have hnodup := hbooked.pending_nodup h.visiting
    rw [hpending, Multiset.map_cons, Multiset.nodup_cons] at hnodup
    intro other hmem heq
    exact hnodup.1 (heq ▸ Multiset.mem_map_of_mem Timer.id hmem)
  have hlog : ∀ r ∈ s'.log, r ∈ s.log ∨ r = ⟨timer, now, s.batches⟩ := by
    intro r hr
    rw [hs'] at hr
    rcases List.mem_append.mp hr with hr | hr
    · exact Or.inl hr
    · split at hr
      · exact Or.inr (List.mem_singleton.mp hr)
      · exact absurd hr List.not_mem_nil
  have hheldTimer := Multiset.mem_of_le (pending_le_held h.visiting) htimer
  constructor
  case law =>
    rw [hs']
    split
    · apply h.law.append hdue
      · intro r hr hid
        obtain ⟨hpos, hle⟩ := h.pending timer htimer r hr hid
        rw [Timer.isRepeat, h.interval timer hheldTimer r hr hid]
        exact ⟨by simpa using hpos, hle.trans_lt hdue⟩
      · intro r hr hnumber
        apply h.passed r hr hnumber
        rw [hrest]
        exact List.mem_cons_self
    · rw [List.append_nil]
      exact h.law
  case logged =>
    intro r hr
    rcases hlog r hr with hr | rfl
    · rw [hs']
      exact h.logged r hr
    · rw [hs']
      exact ⟨hbooked.created timer (mem_known_of_held hheldTimer), hclock.le, le_refl _⟩
  case waiting =>
    intro other hmem r hr
    have hmem' : other ∈ s.waiting := by rwa [hs'] at hmem
    rcases hlog r hr with hr | rfl
    · exact h.waiting other hmem' r hr
    · exact (hbooked.waiting_ne hmem' hheldTimer).symm
  case interval =>
    intro other hmem r hr hid
    rw [hheld] at hmem
    rcases hlog r hr with hr | rfl
    · exact h.interval other hmem r hr hid
    · rw [hbooked.eq_of_id (mem_known_of_held hheldTimer) (mem_known_of_held hmem) hid]
  case pending =>
    intro other hmem r hr hid
    rcases hlog r hr with hr | rfl
    · apply h.pending other _ r hr hid
      rw [hpending]
      exact Multiset.mem_cons_of_mem hmem
    · exact absurd hid (hother other hmem)
  case passed =>
    intro r hr hnumber other hmem
    have hmem' : other ∈ rest := by
      rw [hs'] at hmem
      exact hmem
    rcases hlog r hr with hr | rfl
    · rw [hs'] at hnumber
      apply h.passed r hr hnumber
      rw [hrest]
      exact List.mem_cons_of_mem _ hmem'
    · exact hsorted.1 other hmem'
  all_goals rw [hs']
  · rintro batch hcurrent
    rw [← Option.some.inj hcurrent]
    exact hclock
  · rintro batch hcurrent
    rw [← Option.some.inj hcurrent]
    exact (List.suffix_cons timer rest).trans (h.visiting _ hbatch)
  · rintro batch hcurrent
    rw [← Option.some.inj hcurrent]
    exact h.due ⟨now, expired, timer :: rest⟩ hbatch
  · exact hsorted.2

theorem endBatch_scheduled {s s' : TimerQueue queue} {current : TimePoint} (hbooked : s.Booked)
    (h : s.Scheduled) (hstep : s.step (.endBatch current) = some s') : s'.Scheduled := by
  obtain ⟨now, expired, heap, timerfd, hbatch, hheap, hheld, hs'⟩ :=
    step_endBatch hstep hbooked.expired_nodup
  have hnone : s'.batch = none := by
    rw [hs']
  have hcontents : queue.contents s'.timers =
      queue.contents s.timers + restarted s.timerIdSet now current expired := by
    rw [hs', hheap]
  have hheld := held_of_batch hbatch
  have hclock : now = s.clock := h.clock _ hbatch
  have hold : ∀ r ∈ s'.log, r ∈ s.log := by
    intro r hr
    rwa [hs'] at hr
  constructor
  case interval =>
    rw [held_of_no_batch hnone, hcontents]
    intro timer htimer r hr hid
    rcases Multiset.mem_add.mp htimer with htimer | htimer
    · apply h.interval timer _ r (hold r hr) hid
      rw [hheld]
      exact Multiset.mem_add.mpr (Or.inl htimer)
    · obtain ⟨old, hmem, -, -, rfl⟩ := mem_restarted.mp (Multiset.mem_coe.mp htimer)
      apply h.interval old _ r (hold r hr) hid
      rw [hheld]
      exact Multiset.mem_add.mpr (Or.inr (Multiset.mem_coe.mpr hmem))
  case pending =>
    rw [pending_of_no_batch hnone, hcontents]
    intro timer htimer r hr hid
    rcases Multiset.mem_add.mp htimer with htimer | htimer
    · apply h.pending timer _ r (hold r hr) hid
      rw [pending_of_batch hbatch]
      exact Multiset.mem_add.mpr (Or.inl htimer)
    · obtain ⟨old, -, -, hpos, rfl⟩ := mem_restarted.mp (Multiset.mem_coe.mp htimer)
      refine ⟨hpos, ?_⟩
      have hnow := (h.logged r (hold r hr)).2.1
      rw [← hclock] at hnow
      exact Int.add_le_add_right hnow old.interval
  all_goals rw [hs']
  · exact h.law
  · exact h.logged
  · exact h.waiting
  · rintro batch hcurrent
    cases hcurrent
  · rintro batch hcurrent
    cases hcurrent
  · rintro batch hcurrent
    cases hcurrent
  · exact List.Pairwise.nil
  · intro r hr hnumber timer htimer
    exact absurd htimer List.not_mem_nil

theorem create_scheduled {s : TimerQueue queue} (h : s.Scheduled) (when : TimePoint)
    (interval : TimeInterval) : (s.create when interval).Scheduled := by
  refine ⟨h.law, ?_, ?_, h.interval, h.pending, h.clock, h.visiting, h.due, h.sorted, h.passed⟩
  · intro r hr
    obtain ⟨hid, hnow, hbatch⟩ := h.logged r hr
    exact ⟨hid.trans (Nat.le_succ _), hnow, hbatch⟩
  · intro timer htimer r hr
    rcases List.mem_append.mp htimer with htimer | htimer
    · exact h.waiting timer htimer r hr
    · rw [List.mem_singleton.mp htimer]
      exact ((h.logged r hr).1.trans_lt (Nat.lt_succ_self _)).ne

theorem addTimerInLoop_scheduled {s s' : TimerQueue queue} {id : TimerId} (h : s.Scheduled)
    (hstep : s.step (.addTimerInLoop id) = some s') : s'.Scheduled := by
  obtain ⟨timer, hmem, heap, timerfd, rfl, hheap, hheld, hs'⟩ := step_addTimerInLoop hstep
  have hpending : s'.pending = timer ::ₘ s.pending := by
    simp only [TimerQueue.pending, rest, hs', hheap, Multiset.cons_add]
  have hnew := h.waiting timer hmem
  constructor
  case interval =>
    rw [hheld, hs']
    intro other hother r hr hid
    rcases Multiset.mem_cons.mp hother with rfl | hother
    · exact absurd hid (hnew r hr)
    · exact h.interval other hother r hr hid
  case pending =>
    rw [hpending, hs']
    intro other hother r hr hid
    rcases Multiset.mem_cons.mp hother with rfl | hother
    · exact absurd hid (hnew r hr)
    · exact h.pending other hother r hr hid
  case waiting =>
    rw [hs']
    exact fun other hother => h.waiting other (List.mem_of_mem_erase hother)
  all_goals rw [hs']
  · exact h.law
  · exact h.logged
  · exact h.clock
  · exact h.visiting
  · exact h.due
  · exact h.sorted
  · exact h.passed

theorem beginBatch_scheduled {s s' : TimerQueue queue} {now : TimePoint} (h : s.Scheduled)
    (hstep : s.step (.beginBatch now) = some s') : s'.Scheduled := by
  obtain ⟨hbatch, hclock, expired, heap, hcontents, hsorted, hdue, hheld, hs'⟩ :=
    step_beginBatch hstep
  have hpending : s'.pending = s.pending := by
    rw [pending_of_no_batch hbatch, hcontents, TimerQueue.pending, rest, hs', Multiset.add_comm]
  constructor
  case interval =>
    rw [hheld, hs']
    exact h.interval
  case pending =>
    rw [hpending, hs']
    exact h.pending
  all_goals rw [hs']
  · exact h.law
  · intro r hr
    obtain ⟨hid, hnow, hnumber⟩ := h.logged r hr
    exact ⟨hid, hnow.trans hclock, hnumber.trans (Nat.le_succ _)⟩
  · exact h.waiting
  · rintro batch hcurrent
    rw [← Option.some.inj hcurrent]
  · rintro batch hcurrent
    rw [← Option.some.inj hcurrent]
  · rintro batch hcurrent
    rw [← Option.some.inj hcurrent]
    exact hdue
  · exact hsorted
  · intro r hr hnumber
    exact absurd hnumber ((h.logged r hr).2.2.trans_lt (Nat.lt_succ_self _)).ne

theorem step_scheduled {s s' : TimerQueue queue} {a : Action} (hbooked : s.Booked)
    (h : s.Scheduled) (hstep : s.step a = some s') : s'.Scheduled := by
  cases a with
  | create when interval =>
      obtain rfl := Option.some.inj hstep
      exact create_scheduled h when interval
  | addTimerInLoop id => exact addTimerInLoop_scheduled h hstep
  | invalidateTimer id =>
      obtain rfl := Option.some.inj hstep
      exact ⟨h.law, h.logged, h.waiting, h.interval, h.pending, h.clock, h.visiting, h.due,
        h.sorted, h.passed⟩
  | beginBatch now => exact beginBatch_scheduled h hstep
  | runNext => exact runNext_scheduled hbooked h hstep
  | endBatch current => exact endBatch_scheduled hbooked h hstep

theorem init_booked (timersCreated : Nat) (clock : TimePoint) :
    (init queue timersCreated clock).Booked := by
  have hknown : (init queue timersCreated clock).known = 0 := by
    rw [known, held_of_no_batch rfl]
    exact (Multiset.zero_add _).trans queue.contents_empty
  constructor
  · rw [hknown]
    exact Multiset.nodup_zero
  · rw [hknown]
    exact fun timer h => absurd h (Multiset.notMem_zero timer)
  · exact fun id h => absurd h (Finset.notMem_empty id)

theorem init_scheduled (timersCreated : Nat) (clock : TimePoint) :
    (init queue timersCreated clock).Scheduled := by
  have hlog : ∀ r, r ∉ (init queue timersCreated clock).log := fun r => List.not_mem_nil
  constructor
  case law =>
    exact ⟨fun r hr => absurd hr (hlog r), List.Pairwise.nil, List.Pairwise.nil, List.Pairwise.nil⟩
  case logged => exact fun r hr => absurd hr (hlog r)
  case waiting => exact fun timer h => absurd h List.not_mem_nil
  case interval => exact fun timer h r hr => absurd hr (hlog r)
  case pending => exact fun timer h r hr => absurd hr (hlog r)
  case sorted => exact List.Pairwise.nil
  case passed => exact fun r hr => absurd hr (hlog r)
  all_goals
    intro batch h
    cases h

theorem runSteps_sound {s s' : TimerQueue queue} {ts : List Action}
    (hs : s.Booked ∧ s.Scheduled) (hrun : runSteps step s ts = some s') :
    s'.Booked ∧ s'.Scheduled := by
  apply runSteps_invariant (fun s : TimerQueue queue => s.Booked ∧ s.Scheduled) _ hs hrun
  rintro s a s' ⟨hbooked, hscheduled⟩ hstep
  exact ⟨step_booked hbooked hstep, step_scheduled hbooked hscheduled hstep⟩

structure Inserted (id : TimerId) (s : TimerQueue queue) : Prop where
  created : id ≤ s.timersCreated
  gone : ∀ timer ∈ s.waiting, timer.id ≠ id

theorem step_inserted {s s' : TimerQueue queue} {a : Action} {id : TimerId} (hbooked : s.Booked)
    (h : Inserted id s) (hstep : s.step a = some s') : Inserted id s' := by
  cases a with
  | create when interval =>
      obtain rfl := Option.some.inj hstep
      refine ⟨h.created.trans (Nat.le_succ _), ?_⟩
      intro timer htimer
      rcases List.mem_append.mp htimer with htimer | htimer
      · exact h.gone timer htimer
      · rw [List.mem_singleton.mp htimer]
        exact (h.created.trans_lt (Nat.lt_succ_self _)).ne'
  | addTimerInLoop id' =>
      obtain ⟨timer, hmem, heap, timerfd, rfl, -, -, rfl⟩ := step_addTimerInLoop hstep
      exact ⟨h.created, fun other hother => h.gone other (List.mem_of_mem_erase hother)⟩
  | invalidateTimer id' =>
      obtain rfl := Option.some.inj hstep
      exact ⟨h.created, h.gone⟩
  | beginBatch now =>
      obtain ⟨-, -, expired, heap, -, -, -, -, rfl⟩ := step_beginBatch hstep
      exact ⟨h.created, h.gone⟩
  | runNext =>
      obtain ⟨now, expired, timer, rest, -, -, rfl⟩ := step_runNext hstep
      exact ⟨h.created, h.gone⟩
  | endBatch current =>
      obtain ⟨now, expired, heap, timerfd, -, -, -, rfl⟩ := step_endBatch hstep hbooked.expired_nodup
      exact ⟨h.created, h.gone⟩

theorem step_waiting {s s' : TimerQueue queue} {a : Action} (hbooked : s.Booked)
    (hcreate : ∀ when interval, a ≠ .create when interval) (hadd : ∀ id, a ≠ .addTimerInLoop id)
    (hstep : s.step a = some s') :
    s'.waiting = s.waiting ∧ s'.timersCreated = s.timersCreated := by
  cases a with
  | create when interval => exact absurd rfl (hcreate when interval)
  | addTimerInLoop id => exact absurd rfl (hadd id)
  | invalidateTimer id =>
      obtain rfl := Option.some.inj hstep
      exact ⟨rfl, rfl⟩
  | beginBatch now =>
      obtain ⟨-, -, expired, heap, -, -, -, -, rfl⟩ := step_beginBatch hstep
      exact ⟨rfl, rfl⟩
  | runNext =>
      obtain ⟨now, expired, timer, rest, -, -, rfl⟩ := step_runNext hstep
      exact ⟨rfl, rfl⟩
  | endBatch current =>
      obtain ⟨now, expired, heap, timerfd, -, -, -, rfl⟩ :=
        step_endBatch hstep hbooked.expired_nodup
      exact ⟨rfl, rfl⟩

theorem Booked.waiting_nodup {s : TimerQueue queue} (h : s.Booked) :
    (s.waiting.map Timer.id).Nodup := by
  have hnodup := h.nodup
  rw [known, Multiset.map_add, Multiset.map_coe] at hnodup
  exact Multiset.coe_nodup.mp (Multiset.nodup_of_le (Multiset.le_add_right _ _) hnodup)

theorem inserted_of_step {s s' : TimerQueue queue} {id : TimerId} (hbooked : s.Booked)
    (hstep : s.step (.addTimerInLoop id) = some s') : Inserted id s' := by
  obtain ⟨timer, hmem, heap, timerfd, rfl, -, -, rfl⟩ := step_addTimerInLoop hstep
  refine ⟨hbooked.created timer (mem_known_of_waiting hmem), ?_⟩
  intro other hother hid
  have hne := (List.Nodup.mem_erase_iff hbooked.waiting_nodup.of_map).mp hother
  exact hne.1 (List.inj_on_of_nodup_map hbooked.waiting_nodup hne.2 hmem hid)

theorem inserted_of_runSteps {s s' : TimerQueue queue} {ts : List Action} {id : TimerId}
    (hbooked : s.Booked) (hmem : .addTimerInLoop id ∈ ts) (hrun : runSteps step s ts = some s') :
    Inserted id s' := by
  induction ts generalizing s with
  | nil => exact absurd hmem List.not_mem_nil
  | cons a ts ih =>
      rw [runSteps_cons] at hrun
      obtain ⟨next, hnext, hrest⟩ := Option.bind_eq_some_iff.mp hrun
      rcases List.mem_cons.mp hmem with rfl | hmem
      · apply And.right (runSteps_invariant (fun s : TimerQueue queue => s.Booked ∧ Inserted id s) _
          ⟨step_booked hbooked hnext, inserted_of_step hbooked hnext⟩ hrest)
        rintro s a s' ⟨hbooked, hinserted⟩ hstep
        exact ⟨step_booked hbooked hstep, step_inserted hbooked hinserted hstep⟩
      · exact ih (step_booked hbooked hnext) hmem hrest

/-- An id that is no longer valid never becomes valid again, and its timer does not run. -/
theorem step_of_invalid {s s' : TimerQueue queue} {a : Action} {id : TimerId} (hbooked : s.Booked)
    (hinserted : Inserted id s) (hinvalid : id ∉ s.timerIdSet) (hstep : s.step a = some s') :
    id ∉ s'.timerIdSet ∧ s'.runsOf id = s.runsOf id := by
  cases a with
  | create when interval =>
      obtain rfl := Option.some.inj hstep
      exact ⟨hinvalid, rfl⟩
  | addTimerInLoop id' =>
      obtain ⟨timer, hmem, heap, timerfd, rfl, -, -, rfl⟩ := step_addTimerInLoop hstep
      refine ⟨?_, rfl⟩
      intro hid
      rcases Finset.mem_insert.mp hid with rfl | hid
      · exact hinserted.gone timer hmem rfl
      · exact hinvalid hid
  | invalidateTimer id' =>
      obtain rfl := Option.some.inj hstep
      exact ⟨fun hid => hinvalid (Finset.mem_of_mem_erase hid), rfl⟩
  | beginBatch now =>
      obtain ⟨-, -, expired, heap, -, -, -, -, rfl⟩ := step_beginBatch hstep
      exact ⟨hinvalid, rfl⟩
  | runNext =>
      obtain ⟨now, expired, timer, rest, -, -, rfl⟩ := step_runNext hstep
      refine ⟨hinvalid, ?_⟩
      simp only [runsOf, List.filter_append]
      split <;> rename_i hvalid
      · have hne : timer.id ≠ id := fun heq => hinvalid (heq ▸ hvalid)
        simp [hne]
      · simp
  | endBatch current =>
      obtain ⟨now, expired, heap, timerfd, -, -, -, rfl⟩ := step_endBatch hstep hbooked.expired_nodup
      exact ⟨fun hid => hinvalid (mem_revalidated.mp hid).1, rfl⟩

theorem runSteps_of_invalid {s s' : TimerQueue queue} {ts : List Action} {id : TimerId}
    (hbooked : s.Booked) (hinserted : Inserted id s) (hinvalid : id ∉ s.timerIdSet)
    (hrun : runSteps step s ts = some s') : s'.runsOf id = s.runsOf id := by
  induction ts generalizing s with
  | nil =>
      obtain rfl := Option.some.inj hrun
      rfl
  | cons a ts ih =>
      rw [runSteps_cons] at hrun
      obtain ⟨next, hnext, hrest⟩ := Option.bind_eq_some_iff.mp hrun
      obtain ⟨hinvalid', hruns⟩ := step_of_invalid hbooked hinserted hinvalid hnext
      rw [ih (step_booked hbooked hnext) (step_inserted hbooked hinserted hnext) hinvalid' hrest,
        hruns]

structure Kept (timer : Timer) (s : TimerQueue queue) : Prop where
  valid : timer.id ∈ s.timerIdSet
  interval : ∀ other ∈ s.held, other.id = timer.id → other.interval = timer.interval

theorem step_kept {s s' : TimerQueue queue} {a : Action} {timer : Timer} (hbooked : s.Booked)
    (hrepeat : 0 < timer.interval) (h : Kept timer s) (ha : a ≠ .invalidateTimer timer.id)
    (hstep : s.step a = some s') : Kept timer s' := by
  obtain ⟨self, hself, hid⟩ := hbooked.valid timer.id h.valid
  cases a with
  | create when interval =>
      obtain rfl := Option.some.inj hstep
      exact ⟨h.valid, h.interval⟩
  | addTimerInLoop id =>
      obtain ⟨added, hmem, heap, timerfd, rfl, hheap, hheld, hs'⟩ := step_addTimerInLoop hstep
      constructor
      · rw [hs']
        exact Finset.mem_insert_of_mem h.valid
      · rw [hheld]
        intro other hother hother'
        rcases Multiset.mem_cons.mp hother with rfl | hother
        · exact absurd (hother'.trans hid.symm) (hbooked.waiting_ne hmem hself)
        · exact h.interval other hother hother'
  | invalidateTimer id =>
      obtain rfl := Option.some.inj hstep
      refine ⟨Finset.mem_erase.mpr ⟨?_, h.valid⟩, h.interval⟩
      rintro rfl
      exact ha rfl
  | beginBatch now =>
      obtain ⟨hbatch, -, expired, heap, -, -, -, hheld, hs'⟩ := step_beginBatch hstep
      constructor
      · rw [hs']
        exact h.valid
      · rw [hheld]
        exact h.interval
  | runNext =>
      obtain ⟨now, expired, next, rest, hbatch, hheld, hs'⟩ := step_runNext hstep
      constructor
      · rw [hs']
        exact h.valid
      · rw [hheld]
        exact h.interval
  | endBatch current =>
      obtain ⟨now, expired, heap, timerfd, hbatch, hheap, hheld, hs'⟩ :=
        step_endBatch hstep hbooked.expired_nodup
      constructor
      · rw [hs']
        refine mem_revalidated.mpr ⟨h.valid, ?_⟩
        intro other hother hother'
        have hinterval := h.interval other (by
          rw [held_of_batch hbatch]
          exact Multiset.mem_add.mpr (Or.inr (Multiset.mem_coe.mpr hother))) hother'
        simpa [Timer.isRepeat, hinterval] using hrepeat
      · rw [hheld]
        intro other hother hother'
        rcases Multiset.mem_add.mp hother with hother | hother
        · apply h.interval other _ hother'
          rw [held_of_batch hbatch]
          exact Multiset.mem_add.mpr (Or.inl hother)
        · obtain ⟨old, hold, -, -, rfl⟩ := mem_restarted.mp (Multiset.mem_coe.mp hother)
          apply h.interval old _ hother'
          rw [held_of_batch hbatch]
          exact Multiset.mem_add.mpr (Or.inr (Multiset.mem_coe.mpr hold))

theorem kept_of_step {s s' : TimerQueue queue} {timer : Timer} (hbooked : s.Booked)
    (hwaiting : timer ∈ s.waiting) (hstep : s.step (.addTimerInLoop timer.id) = some s') :
    Kept timer s' := by
  obtain ⟨added, hmem, heap, timerfd, hid, -, hheld, hs'⟩ := step_addTimerInLoop hstep
  obtain rfl := hbooked.eq_of_id (mem_known_of_waiting hmem) (mem_known_of_waiting hwaiting) hid
  constructor
  · rw [hs']
    exact Finset.mem_insert_self _ _
  · rw [hheld]
    intro other hother hother'
    rcases Multiset.mem_cons.mp hother with rfl | hother
    · rfl
    · exact absurd hother'.symm (hbooked.waiting_ne hmem hother)

theorem runSteps_kept {s s' : TimerQueue queue} {ts : List Action} {timer : Timer}
    (hbooked : s.Booked) (hrepeat : 0 < timer.interval) (h : Kept timer s)
    (hts : .invalidateTimer timer.id ∉ ts) (hrun : runSteps step s ts = some s') :
    s'.Booked ∧ Kept timer s' := by
  induction ts generalizing s with
  | nil =>
      obtain rfl := Option.some.inj hrun
      exact ⟨hbooked, h⟩
  | cons a ts ih =>
      rw [List.mem_cons, not_or] at hts
      rw [runSteps_cons] at hrun
      obtain ⟨next, hnext, hrest⟩ := Option.bind_eq_some_iff.mp hrun
      exact ih (step_booked hbooked hnext)
        (step_kept hbooked hrepeat h (fun heq => hts.1 heq.symm) hnext) hts.2 hrest

theorem step_of_isCall {s s' : TimerQueue queue} {a : Action} (ha : a.IsCall)
    (hstep : s.step a = some s') : s'.batch = s.batch := by
  cases a with
  | create when interval =>
      obtain rfl := Option.some.inj hstep
      rfl
  | addTimerInLoop id =>
      obtain ⟨timer, hmem, heap, timerfd, rfl, -, -, rfl⟩ := step_addTimerInLoop hstep
      rfl
  | invalidateTimer id =>
      obtain rfl := Option.some.inj hstep
      rfl
  | beginBatch now => exact ha.elim
  | runNext => exact ha.elim
  | endBatch current => exact ha.elim

theorem runSteps_of_isCall {s s' : TimerQueue queue} {ts : List Action}
    (hts : ∀ a ∈ ts, a.IsCall) (hrun : runSteps step s ts = some s') : s'.batch = s.batch := by
  induction ts generalizing s with
  | nil => rw [Option.some.inj hrun]
  | cons a ts ih =>
      rw [runSteps_cons] at hrun
      obtain ⟨next, hnext, hrest⟩ := Option.bind_eq_some_iff.mp hrun
      rw [ih (fun b hb => hts b (List.mem_cons_of_mem a hb)) hrest,
        step_of_isCall (hts a List.mem_cons_self) hnext]

section HandleRead

variable {callback : Timer → TimerQueue queue → TimerQueue queue}

theorem visitAll_run (hcallback : ∀ timer s, ∃ calls : List Action, (∀ a ∈ calls, a.IsCall) ∧
      runSteps step s calls = some (callback timer s))
    {now : TimePoint} {expired rest : List Timer} {s : TimerQueue queue}
    (hbatch : s.batch = some ⟨now, expired, rest⟩) :
    ∃ ts, runSteps step s ts = some (visitAll callback now expired rest s) ∧
      (visitAll callback now expired rest s).batch = some ⟨now, expired, []⟩ := by
  induction rest generalizing s with
  | nil => exact ⟨[], rfl, hbatch⟩
  | cons timer rest ih =>
      have hnext : s.step .runNext =
          some (runTimer { s with
            batch := some ⟨now, expired, rest⟩ } now timer) := by
        simp only [step, hbatch]
      simp only [visitAll]
      split <;> rename_i hvalid
      · obtain ⟨calls, hcalls, hrun⟩ := hcallback timer (runTimer { s with
          batch := some ⟨now, expired, rest⟩ } now timer)
        have hbatch' := runSteps_of_isCall hcalls hrun
        obtain ⟨ts, hts, hdone⟩ := ih (s := callback timer _) (by
          rw [hbatch', runTimer]
          split <;> rfl)
        refine ⟨.runNext :: (calls ++ ts), ?_, hdone⟩
        rw [runSteps_cons, hnext, Option.bind_some, runSteps_append, hrun, Option.bind_some, hts]
      · obtain ⟨ts, hts, hdone⟩ := ih (s := { s with batch := some ⟨now, expired, rest⟩ }) rfl
        refine ⟨.runNext :: ts, ?_, hdone⟩
        rw [runSteps_cons, hnext, Option.bind_some, runTimer, if_neg hvalid, hts]

/-- `handleRead` is a run of the machine, whatever calls the callbacks make. -/
theorem handleRead_run (hcallback : ∀ timer s, ∃ calls : List Action, (∀ a ∈ calls, a.IsCall) ∧
      runSteps step s calls = some (callback timer s))
    {s : TimerQueue queue} (hbatch : s.batch = none) {now : TimePoint} (hclock : s.clock ≤ now)
    (current : TimePoint) :
    ∃ ts, runSteps step s ts = some (s.handleRead callback now current) := by
  obtain ⟨ts, hts, hdone⟩ := visitAll_run hcallback (s := s.beginBatch now) rfl
  refine ⟨.beginBatch now :: (ts ++ [.endBatch current]), ?_⟩
  have hbegin : s.step (.beginBatch now) = some (s.beginBatch now) := by
    rw [step, if_pos ⟨hbatch, hclock⟩]
  rw [runSteps_cons, hbegin, Option.bind_some, runSteps_append, hts, Option.bind_some,
    runSteps_cons, step, hdone]
  rfl

end HandleRead

/-- Outside of a batch the timer descriptor is set to the earliest timer. -/
def Armed (s : TimerQueue queue) : Prop :=
  s.batch = none → ∀ top, queue.top s.timers = some top → s.timerfd = some top.when

theorem endBatch_armed (s : TimerQueue queue) (batch : Batch) (current : TimePoint) :
    (s.endBatch batch current).Armed := by
  intro _ top htop
  simp only [endBatch, reset] at htop ⊢
  split at htop <;> rename_i h
  · rw [h] at htop
    cases htop
  · rw [h] at htop
    simp only [Option.some.inj htop]

theorem addTimerInLoop_armed {s : TimerQueue queue} (h : s.Armed) (timer : Timer) :
    (s.addTimerInLoop timer).Armed := by
  intro hbatch top htop
  cases hold : queue.top s.timers with
  | none =>
      simp only [addTimerInLoop, insert, hold, if_true] at htop ⊢
      rw [PriorityQueue.key_top_push_of_none hold htop]
  | some old =>
      simp only [addTimerInLoop, insert, hold, decide_eq_true_eq] at hbatch htop ⊢
      split at hbatch <;> rename_i hlt
      · rw [if_pos hlt] at htop ⊢
        rw [PriorityQueue.key_top_push_of_some hold htop, min_eq_left hlt.le]
      · rw [if_neg hlt] at htop ⊢
        rw [PriorityQueue.key_top_push_of_some hold htop, min_eq_right (not_lt.mp hlt)]
        exact h hbatch old hold

theorem step_armed {s s' : TimerQueue queue} {a : Action} (h : s.Armed)
    (hstep : s.step a = some s') : s'.Armed := by
  cases a with
  | create when interval =>
      obtain rfl := Option.some.inj hstep
      exact h
  | addTimerInLoop id =>
      simp only [step] at hstep
      split at hstep
      · cases hstep
      · obtain rfl := Option.some.inj hstep
        apply addTimerInLoop_armed
        exact h
  | invalidateTimer id =>
      obtain rfl := Option.some.inj hstep
      exact h
  | beginBatch now =>
      obtain ⟨-, -, expired, heap, -, -, -, -, rfl⟩ := step_beginBatch hstep
      intro hbatch
      cases hbatch
  | runNext =>
      obtain ⟨now, expired, timer, rest, -, -, rfl⟩ := step_runNext hstep
      intro hbatch
      cases hbatch
  | endBatch current =>
      simp only [step] at hstep
      split at hstep
      · obtain rfl := Option.some.inj hstep
        exact endBatch_armed s _ current
      · cases hstep

theorem runSteps_armed {timersCreated : Nat} {clock : TimePoint} {ts : List Action}
    {s : TimerQueue queue} (hrun : runSteps step (init queue timersCreated clock) ts = some s) :
    s.Armed := by
  apply runSteps_invariant Armed (fun s a s' => step_armed) _ hrun
  intro _ top htop
  have hmem := PriorityQueue.mem_contents_of_top htop
  rw [init, queue.contents_empty] at hmem
  exact absurd hmem (Multiset.notMem_zero top)

/-- The law of a timer queue: of its log; of a timer that is invalidated after its insertion; of a
repeating timer that is inserted and not invalidated. -/
theorem runSteps_law {timersCreated : Nat} {clock : TimePoint} {ts : List Action}
    {s : TimerQueue queue} (hrun : runSteps step (init queue timersCreated clock) ts = some s) :
    RunLaw s.log ∧
      (∀ id us s', .addTimerInLoop id ∈ ts →
        runSteps step s (.invalidateTimer id :: us) = some s' → s'.runsOf id = s.runsOf id) ∧
      ∀ timer ∈ s.waiting, 0 < timer.interval → ∀ us s', .invalidateTimer timer.id ∉ us →
        runSteps step s (.addTimerInLoop timer.id :: us) = some s' →
        timer.id ∈ s'.timerIdSet ∧
          (∃ kept ∈ s'.held, kept.id = timer.id ∧ kept.interval = timer.interval) ∧
          (s'.batch = none →
            ∃ kept ∈ queue.contents s'.timers,
              kept.id = timer.id ∧ kept.interval = timer.interval) := by
  have hinit := @init_booked queue timersCreated clock
  obtain ⟨hbooked, hscheduled⟩ :=
    runSteps_sound ⟨hinit, init_scheduled timersCreated clock⟩ hrun
  refine ⟨hscheduled.law, ?_, ?_⟩
  · intro id us s' hmem hrest
    rw [runSteps_cons] at hrest
    obtain ⟨next, hnext, hrest⟩ := Option.bind_eq_some_iff.mp hrest
    have hbooked' := step_booked hbooked hnext
    have hinserted := step_inserted hbooked (inserted_of_runSteps hinit hmem hrun) hnext
    obtain rfl := Option.some.inj hnext
    have hruns := runSteps_of_invalid hbooked' hinserted (Finset.notMem_erase id _) hrest
    exact hruns
  · intro timer hwaiting hrepeat us s' hus hrest
    rw [runSteps_cons] at hrest
    obtain ⟨next, hnext, hrest⟩ := Option.bind_eq_some_iff.mp hrest
    obtain ⟨hbooked', hkept⟩ := runSteps_kept (step_booked hbooked hnext) hrepeat
      (kept_of_step hbooked hwaiting hnext) hus hrest
    obtain ⟨kept, hmem, hid⟩ := hbooked'.valid timer.id hkept.valid
    refine ⟨hkept.valid, ⟨kept, hmem, hid, hkept.interval kept hmem hid⟩, ?_⟩
    intro hbatch
    rw [← held_of_no_batch hbatch]
    exact ⟨kept, hmem, hid, hkept.interval kept hmem hid⟩

def sample : List Action := [.create 10 0, .create 5 20, .addTimerInLoop 1]

theorem runSteps_law_sample :
    ∃ s, runSteps step (init (PriorityQueue.sorted Timer.when) 0 0) sample = some s ∧
      RunLaw s.log ∧
      (∃ s', runSteps step s [.invalidateTimer 1, .beginBatch 12, .runNext, .endBatch 13] = some s' ∧
        s'.runsOf 1 = s.runsOf 1) ∧
      ∃ s', runSteps step s
          [.addTimerInLoop 2, .beginBatch 12, .runNext, .runNext, .endBatch 13] = some s' ∧
        2 ∈ s'.timerIdSet := by
  let s₀ := init (PriorityQueue.sorted Timer.when) 0 0
  obtain ⟨s, hs⟩ := Option.isSome_iff_exists.mp
    (by decide : (runSteps step s₀ sample).isSome = true)
  have hwaiting : s.waiting = [⟨2, 5, 20⟩] := by
    have h : (runSteps step s₀ sample).map (·.waiting) = some [⟨2, 5, 20⟩] := by decide
    rw [hs] at h
    exact Option.some.inj h
  have hsteps : ∀ us : List Action, (runSteps step s₀ (sample ++ us)).isSome = true →
      ∃ s', runSteps step s us = some s' := by
    intro us hus
    rw [runSteps_append, hs, Option.bind_some] at hus
    exact Option.isSome_iff_exists.mp hus
  obtain ⟨hlaw, hinvalid, hkept⟩ := runSteps_law hs
  refine ⟨s, hs, hlaw, ?_, ?_⟩
  · obtain ⟨s', hs'⟩ := hsteps [.invalidateTimer 1, .beginBatch 12, .runNext, .endBatch 13]
      (by decide)
    exact ⟨s', hs', hinvalid 1 _ s' (by decide) hs'⟩
  · obtain ⟨s', hs'⟩ := hsteps
      [.addTimerInLoop 2, .beginBatch 12, .runNext, .runNext, .endBatch 13] (by decide)
    exact ⟨s', hs', (hkept ⟨2, 5, 20⟩ (by rw [hwaiting]; decide) (by decide) _ s' (by decide)
      hs').1⟩

end TimerQueue

end Cooper

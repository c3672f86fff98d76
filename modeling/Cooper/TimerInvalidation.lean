import Cooper.TimerQueue

namespace Cooper.TimerInvalidation

open Cooper.StepRun Cooper.TimerQueue

/-- What these functions put into `funcs_`. `after` tells whether the call that adds the timer had
returned when the call that invalidates it was made. -/
inductive Func where
  | addTimerInLoop (id : TimerId)
  | invalidateTimer (id : TimerId) (after : Bool)
deriving DecidableEq, Repr

/-- `adding` are the timers that are constructed by a call that has not returned. `invalidating` are
the calls of `invalidateTimer` from other threads that have found the loop running. `settled` are
the timers for which a call of `invalidateTimer` that came after the call that adds the timer has
returned and has been executed, or has had nothing executed. -/
structure EventLoop (queue : PriorityQueue Timer Timer.when) where
  timerQueue : TimerQueue queue
  funcs : List Func
  looping : Bool
  quit : Bool
  adding : List TimerId
  invalidating : List (TimerId × Bool)
  settled : List TimerId

inductive Action where
  | loop
  | quit
  | leave
  | create (when : TimePoint) (interval : TimeInterval)
  /-- `runInLoop` of the loop thread in `addTimer` -/
  | addInLoop (id : TimerId)
  /-- `runInLoop` of another thread in `addTimer` -/
  | queueAdd (id : TimerId)
  /-- `invalidateTimer` on the loop thread -/
  | invalidateInLoop (id : TimerId)
  /-- the test in `invalidateTimer` on another thread -/
  | checkInvalidate (id : TimerId)
  /-- `queueInLoop` in `invalidateTimer` of another thread -/
  | queueInvalidate (id : TimerId) (after : Bool)
  | runFunc
  | beginBatch (now : TimePoint)
  | runNext
  | endBatch (current : TimePoint)
deriving DecidableEq, Repr

variable {queue : PriorityQueue Timer Timer.when}

namespace EventLoop

def init (queue : PriorityQueue Timer Timer.when) (timersCreated : Nat) (clock : TimePoint) :
    EventLoop queue where
  timerQueue := TimerQueue.init queue timersCreated clock
  funcs := []
  looping := false
  quit := false
  adding := []
  invalidating := []
  settled := []

def isRunning (s : EventLoop queue) : Bool := s.looping && !s.quit

/-- The call that adds the timer has returned. -/
def Returned (s : EventLoop queue) (id : TimerId) : Prop :=
  id ≤ s.timerQueue.timersCreated ∧ id ∉ s.adding

instance (s : EventLoop queue) (id : TimerId) : Decidable (s.Returned id) :=
  inferInstanceAs (Decidable (_ ∧ _))

def settle (s : EventLoop queue) (id : TimerId) (after : Bool) : EventLoop queue :=
  { s with settled := if after then id :: s.settled else s.settled }

def onTimerQueue (s : EventLoop queue) (a : TimerQueue.Action) : Option (EventLoop queue) :=
  (s.timerQueue.step a).map fun timerQueue => { s with timerQueue := timerQueue }

/-- One iteration of the inner loop of `doRunInLoopFuncs`. -/
def runFunc (s : EventLoop queue) : Option (EventLoop queue) :=
  match s.funcs with
  | [] => none
  | .addTimerInLoop id :: funcs =>
      let s := { s with funcs := funcs }
      s.onTimerQueue (.addTimerInLoop id)
  | .invalidateTimer id after :: funcs =>
      let s := { s with funcs := funcs }
      (s.onTimerQueue (.invalidateTimer id)).map (·.settle id after)

def step (s : EventLoop queue) : Action → Option (EventLoop queue)
  | .loop => if s.looping then none else some { s with
      looping := true
      quit := false }
  | .quit => some { s with quit := true }
  | .leave =>
      if s.looping ∧ s.quit ∧ s.timerQueue.batch = none then some { s with looping := false }
      else none
  | .create when interval =>
      let s := { s with adding := s.adding ++ [s.timerQueue.timersCreated + 1] }
      s.onTimerQueue (.create when interval)
  | .addInLoop id =>
      if id ∈ s.adding then
        let s := { s with adding := s.adding.filter (· ≠ id) }
        s.onTimerQueue (.addTimerInLoop id)
      else none
  | .queueAdd id =>
      if id ∈ s.adding then
        some { s with
          adding := s.adding.filter (· ≠ id)
          funcs := s.funcs ++ [.addTimerInLoop id] }
      else none
  | .invalidateInLoop id =>
      if s.isRunning then
        (s.onTimerQueue (.invalidateTimer id)).map (·.settle id (s.Returned id))
      else some (s.settle id (s.Returned id))
  | .checkInvalidate id =>
      if s.isRunning then
        some { s with invalidating := s.invalidating ++ [(id, decide (s.Returned id))] }
      else some (s.settle id (s.Returned id))
  | .queueInvalidate id after =>
      if (id, after) ∈ s.invalidating then
        some { s with
          invalidating := s.invalidating.erase (id, after)
          funcs := s.funcs ++ [.invalidateTimer id after] }
      else none
  | .runFunc => if s.looping ∧ s.timerQueue.batch = none then s.runFunc else none
  | .beginBatch now => if s.looping then s.onTimerQueue (.beginBatch now) else none
  | .runNext => s.onTimerQueue .runNext
  | .endBatch current => s.onTimerQueue (.endBatch current)

/-- A callback of a timer that is settled does not run. -/
def Respects (s : EventLoop queue) (a : Action) : Prop :=
  ∀ s', s.step a = some s' → ∀ id ∈ s.settled,
    s'.timerQueue.runsOf id = s.timerQueue.runsOf id

/-- A call of `invalidateTimer` whose timer has been added is made while the loop is running, if the
timer can still run; and it is made from another thread as long as the insertion of the timer is
queued. -/
def Effective (s : EventLoop queue) : Action → Prop
  | .invalidateInLoop id => s.Returned id →
      .addTimerInLoop id ∉ s.funcs ∧ (id ∈ s.timerQueue.timerIdSet → s.isRunning = true)
  | .checkInvalidate id => s.Returned id →
      .addTimerInLoop id ∈ s.funcs ∨ id ∈ s.timerQueue.timerIdSet → s.isRunning = true
  | _ => True

instance (s : EventLoop queue) (a : Action) : Decidable (s.Effective a) :=
  match a with
  | .invalidateInLoop _ => inferInstanceAs (Decidable (_ → _ ∧ (_ → _)))
  | .checkInvalidate _ => inferInstanceAs (Decidable (_ → _ ∨ _ → _))
  | .loop | .quit | .leave | .create _ _ | .addInLoop _ | .queueAdd _ | .queueInvalidate _ _
  | .runFunc | .beginBatch _ | .runNext | .endBatch _ => isTrue trivial

variable {s s' : EventLoop queue}

theorem onTimerQueue_eq_some {a : TimerQueue.Action} :
    s.onTimerQueue a = some s' ↔
      ∃ timerQueue, s.timerQueue.step a = some timerQueue ∧
        s' = { s with timerQueue := timerQueue } := by
  rw [onTimerQueue, Option.map_eq_some_iff]
  constructor
  · rintro ⟨timerQueue, hstep, rfl⟩
    exact ⟨timerQueue, hstep, rfl⟩
  · rintro ⟨timerQueue, hstep, rfl⟩
    exact ⟨timerQueue, hstep, rfl⟩

/-- What holds of the calls in progress and of `funcs_` as long as all calls are effective. -/
structure Queued (s : EventLoop queue) : Prop where
  booked : s.timerQueue.Booked
  waiting : ∀ timer ∈ s.timerQueue.waiting, s.Returned timer.id →
    .addTimerInLoop timer.id ∈ s.funcs
  checked : ∀ id, (id, true) ∈ s.invalidating → s.Returned id
  invalidating : ∀ id, .invalidateTimer id true ∈ s.funcs → s.Returned id
  order : s.funcs.Pairwise fun f g => ∀ id, f = .invalidateTimer id true → g ≠ .addTimerInLoop id
  settled : ∀ id ∈ s.settled, Inserted id s.timerQueue ∧ id ∉ s.timerQueue.timerIdSet

theorem init_queued (timersCreated : Nat) (clock : TimePoint) :
    (init queue timersCreated clock).Queued where
  booked := init_booked timersCreated clock
  waiting _ h := absurd h List.not_mem_nil
  checked _ h := absurd h List.not_mem_nil
  invalidating _ h := absurd h List.not_mem_nil
  order := List.Pairwise.nil
  settled _ h := absurd h List.not_mem_nil

theorem Queued.inserted (h : s.Queued) {id : TimerId} (hreturned : s.Returned id)
    (hfuncs : .addTimerInLoop id ∉ s.funcs) : Inserted id s.timerQueue := by
  refine ⟨hreturned.1, ?_⟩
  rintro timer htimer rfl
  exact hfuncs (h.waiting timer htimer hreturned)

theorem Queued.settled_of_step (h : s.Queued) {a : TimerQueue.Action} {timerQueue : TimerQueue queue}
    (hstep : s.timerQueue.step a = some timerQueue) :
    ∀ id ∈ s.settled, Inserted id timerQueue ∧ id ∉ timerQueue.timerIdSet := by
  intro id hid
  obtain ⟨hinserted, hinvalid⟩ := h.settled id hid
  exact ⟨step_inserted h.booked hinserted hstep,
    (step_of_invalid h.booked hinserted hinvalid hstep).1⟩

theorem Queued.onTimerQueue (h : s.Queued) {a : TimerQueue.Action}
    (hcreate : ∀ when interval, a ≠ .create when interval) (hadd : ∀ id, a ≠ .addTimerInLoop id)
    (hstep : s.onTimerQueue a = some s') : s'.Queued := by
  obtain ⟨timerQueue, hqueue, rfl⟩ := onTimerQueue_eq_some.mp hstep
  obtain ⟨hwaiting, hcreated⟩ := step_waiting h.booked hcreate hadd hqueue
  have hreturned : ∀ id, Returned { s with timerQueue := timerQueue } id ↔ s.Returned id := by
    intro id
    rw [Returned, Returned, hcreated]
  refine ⟨step_booked h.booked hqueue, ?_, ?_, ?_, h.order, h.settled_of_step hqueue⟩
  · intro timer htimer hid
    rw [hwaiting] at htimer
    exact h.waiting timer htimer ((hreturned timer.id).mp hid)
  · exact fun id hid => (hreturned id).mpr (h.checked id hid)
  · exact fun id hid => (hreturned id).mpr (h.invalidating id hid)

theorem Queued.settle (h : s.Queued) {id : TimerId} {after : Bool}
    (hid : after = true → Inserted id s.timerQueue ∧ id ∉ s.timerQueue.timerIdSet) :
    (s.settle id after).Queued := by
  refine ⟨h.booked, h.waiting, h.checked, h.invalidating, h.order, ?_⟩
  intro other hother
  rw [EventLoop.settle] at hother
  split at hother <;> rename_i hafter
  · rcases List.mem_cons.mp hother with rfl | hother
    · exact hid hafter
    · exact h.settled other hother
  · exact h.settled other hother

theorem Queued.insert (h : s.Queued) {id : TimerId} {timerQueue : TimerQueue queue}
    (hstep : s.timerQueue.step (.addTimerInLoop id) = some timerQueue) {funcs : List Func}
    {adding : List TimerId} (hsublist : funcs.Sublist s.funcs)
    (hfuncs : ∀ other, other ≠ id → .addTimerInLoop other ∈ s.funcs → .addTimerInLoop other ∈ funcs)
    (hadding : ∀ other, other ≠ id → (other ∈ adding ↔ other ∈ s.adding))
    (hid : id ∈ adding → id ∈ s.adding) :
    Queued { s with
      timerQueue := timerQueue
      funcs := funcs
      adding := adding } := by
  have hinserted := inserted_of_step h.booked hstep
  obtain ⟨timer, -, heap, timerfd, -, -, -, htimerQueue⟩ := step_addTimerInLoop hstep
  have hreturned : ∀ other, s.Returned other → Returned { s with
      timerQueue := timerQueue
      funcs := funcs
      adding := adding } other := by
    rintro other ⟨hcreated, hother⟩
    refine ⟨by rw [htimerQueue]; exact hcreated, ?_⟩
    intro hmem
    rcases eq_or_ne other id with rfl | hne
    · exact hother (hid hmem)
    · exact hother ((hadding other hne).mp hmem)
  refine ⟨step_booked h.booked hstep, ?_, ?_, ?_, h.order.sublist hsublist,
    h.settled_of_step hstep⟩
  · rintro other hmem ⟨hcreated, hother⟩
    have hne := hinserted.gone other hmem
    apply hfuncs other.id hne
    rw [htimerQueue] at hmem hcreated
    exact h.waiting other (List.mem_of_mem_erase hmem)
      ⟨hcreated, fun hmem' => hother ((hadding other.id hne).mpr hmem')⟩
  · exact fun other hmem => hreturned other (h.checked other hmem)
  · exact fun other hmem => hreturned other (h.invalidating other (hsublist.mem hmem))

theorem step_create_eq {s : TimerQueue queue} (when : TimePoint) (interval : TimeInterval) :
    s.step (.create when interval) = some (s.create when interval) :=
  rfl

theorem create_queued (h : s.Queued) {when : TimePoint} {interval : TimeInterval}
    (hstep : s.step (.create when interval) = some s') : s'.Queued := by
  have hqueue := step_create_eq (s := s.timerQueue) when interval
  simp only [step] at hstep
  obtain ⟨timerQueue, hcreate, rfl⟩ := onTimerQueue_eq_some.mp hstep
  obtain rfl := Option.some.inj (hqueue.symm.trans hcreate)
  have hreturned : ∀ id, s.Returned id → Returned { s with
      timerQueue := s.timerQueue.create when interval
      adding := s.adding ++ [s.timerQueue.timersCreated + 1] } id := by
    rintro id ⟨hcreated, hid⟩
    refine ⟨hcreated.trans (Nat.le_succ _), ?_⟩
    rw [List.mem_append, List.mem_singleton, not_or]
    exact ⟨hid, (hcreated.trans_lt (Nat.lt_succ_self _)).ne⟩
  refine ⟨step_booked h.booked hqueue, ?_, fun id hid => hreturned id (h.checked id hid),
    fun id hid => hreturned id (h.invalidating id hid), h.order, h.settled_of_step hqueue⟩
  rintro timer htimer ⟨hcreated, hid⟩
  rw [List.mem_append, List.mem_singleton, not_or] at hid
  rcases List.mem_append.mp htimer with htimer | htimer
  · apply h.waiting timer htimer
    exact ⟨h.booked.created timer (mem_known_of_waiting htimer), hid.1⟩
  · rw [List.mem_singleton.mp htimer] at hid
    exact absurd rfl hid.2

theorem queueAdd_queued (h : s.Queued) {id : TimerId} (hstep : s.step (.queueAdd id) = some s') :
    s'.Queued := by
  simp only [step] at hstep
  split at hstep <;> rename_i hadding
  · obtain rfl := Option.some.inj hstep
    have hreturned : ∀ other, s.Returned other → Returned { s with
        adding := s.adding.filter (· ≠ id)
        funcs := s.funcs ++ [.addTimerInLoop id] } other := by
      rintro other ⟨hcreated, hother⟩
      exact ⟨hcreated, fun hmem => hother (List.mem_of_mem_filter hmem)⟩
    refine ⟨h.booked, ?_, fun other hmem => hreturned other (h.checked other hmem), ?_, ?_,
      h.settled⟩
    · rintro timer htimer ⟨hcreated, hother⟩
      rcases eq_or_ne timer.id id with rfl | hne
      · exact List.mem_append_right _ (List.mem_singleton_self _)
      · apply List.mem_append_left
        apply h.waiting timer htimer
        refine ⟨hcreated, fun hmem => hother (List.mem_filter.mpr ⟨hmem, ?_⟩)⟩
        simpa using hne
    · intro other hmem
      apply hreturned other
      apply h.invalidating other
      simpa using hmem
    · refine List.pairwise_append.mpr ⟨h.order, List.pairwise_singleton _ _, ?_⟩
      rintro f hf g hg other rfl heq
      rw [List.mem_singleton.mp hg] at heq
      obtain rfl := Func.addTimerInLoop.inj heq
      exact (h.invalidating _ hf).2 hadding
  · cases hstep

theorem queueInvalidate_queued (h : s.Queued) {id : TimerId} {after : Bool}
    (hstep : s.step (.queueInvalidate id after) = some s') : s'.Queued := by
  simp only [step] at hstep
  split at hstep <;> rename_i hmem
  · obtain rfl := Option.some.inj hstep
    refine ⟨h.booked, fun timer htimer hid => List.mem_append_left _ (h.waiting timer htimer hid),
      fun other hother => h.checked other (List.mem_of_mem_erase hother), ?_, ?_, h.settled⟩
    · intro other hother
      rcases List.mem_append.mp hother with hother | hother
      · exact h.invalidating other hother
      · obtain ⟨rfl, rfl⟩ := Func.invalidateTimer.inj (List.mem_singleton.mp hother)
        exact h.checked other hmem
    · refine List.pairwise_append.mpr ⟨h.order, List.pairwise_singleton _ _, ?_⟩
      rintro f - g hg other -
      rw [List.mem_singleton.mp hg]
      exact Func.noConfusion
  · cases hstep

theorem runFunc_queued (h : s.Queued) (hstep : s.runFunc = some s') : s'.Queued := by
  rw [runFunc] at hstep
  split at hstep <;> rename_i hfuncs
  · cases hstep
  · rename_i id funcs
    obtain ⟨timerQueue, hqueue, rfl⟩ := onTimerQueue_eq_some.mp hstep
    have hsublist : funcs.Sublist s.funcs := by
      rw [hfuncs]
      exact List.sublist_cons_self _ _
    apply h.insert hqueue hsublist _ (fun _ _ => Iff.rfl) (fun hid => hid)
    intro other hne hmem
    rw [hfuncs] at hmem
    rcases List.mem_cons.mp hmem with heq | hmem
    · exact absurd (Func.addTimerInLoop.inj heq) hne
    · exact hmem
  · rename_i id after funcs
    obtain ⟨next, hnext, rfl⟩ := Option.map_eq_some_iff.mp hstep
    have horder := h.order
    rw [hfuncs, List.pairwise_cons] at horder
    have hmem : ∀ f ∈ funcs, f ∈ s.funcs := by
      intro f hf
      rw [hfuncs]
      exact List.mem_cons_of_mem _ hf
    have hpopped : Queued { s with funcs := funcs } := by
      refine ⟨h.booked, ?_, h.checked, fun other hother => h.invalidating other (hmem _ hother),
        horder.2, h.settled⟩
      intro timer htimer hid
      have hadd := h.waiting timer htimer hid
      rw [hfuncs] at hadd
      rcases List.mem_cons.mp hadd with heq | hadd
      · cases heq
      · exact hadd
    apply (hpopped.onTimerQueue (by simp) (by simp) hnext).settle
    rintro rfl
    obtain ⟨timerQueue, hqueue, rfl⟩ := onTimerQueue_eq_some.mp hnext
    have hreturned : s.Returned id := by
      apply h.invalidating id
      rw [hfuncs]
      exact List.mem_cons_self
    -- no insertion of this timer is queued behind the call that invalidates it
    have hinserted : Inserted id s.timerQueue := by
      apply h.inserted hreturned
      rw [hfuncs, List.mem_cons, not_or]
      exact ⟨Func.noConfusion, fun hadd => horder.1 _ hadd id rfl rfl⟩
    refine ⟨step_inserted h.booked hinserted hqueue, ?_⟩
    rw [← Option.some.inj hqueue]
    exact Finset.notMem_erase id _

theorem invalidateInLoop_queued (h : s.Queued) {id : TimerId}
    (heffective : s.Effective (.invalidateInLoop id))
    (hstep : s.step (.invalidateInLoop id) = some s') : s'.Queued := by
  simp only [step] at hstep
  split at hstep <;> rename_i hrunning
  · obtain ⟨next, hnext, rfl⟩ := Option.map_eq_some_iff.mp hstep
    apply (h.onTimerQueue (by simp) (by simp) hnext).settle
    intro hreturned
    obtain ⟨timerQueue, hqueue, rfl⟩ := onTimerQueue_eq_some.mp hnext
    have hreturned' := of_decide_eq_true hreturned
    have hinserted := h.inserted hreturned' (heffective hreturned').1
    refine ⟨step_inserted h.booked hinserted hqueue, ?_⟩
    rw [← Option.some.inj hqueue]
    exact Finset.notMem_erase id _
  · obtain rfl := Option.some.inj hstep
    apply h.settle
    intro hreturned
    have hreturned' := of_decide_eq_true hreturned
    obtain ⟨hfuncs, hvalid⟩ := heffective hreturned'
    exact ⟨h.inserted hreturned' hfuncs, fun hid => hrunning (hvalid hid)⟩

theorem checkInvalidate_queued (h : s.Queued) {id : TimerId}
    (heffective : s.Effective (.checkInvalidate id))
    (hstep : s.step (.checkInvalidate id) = some s') : s'.Queued := by
  simp only [step] at hstep
  split at hstep <;> rename_i hrunning
  · obtain rfl := Option.some.inj hstep
    refine ⟨h.booked, h.waiting, ?_, h.invalidating, h.order, h.settled⟩
    intro other hother
    rcases List.mem_append.mp hother with hother | hother
    · exact h.checked other hother
    · obtain ⟨rfl, hreturned⟩ := Prod.mk.inj (List.mem_singleton.mp hother)
      exact of_decide_eq_true hreturned.symm
  · obtain rfl := Option.some.inj hstep
    apply h.settle
    intro hreturned
    have hreturned' := of_decide_eq_true hreturned
    have hidle := mt (heffective hreturned') hrunning
    rw [not_or] at hidle
    exact ⟨h.inserted hreturned' hidle.1, hidle.2⟩

theorem step_queued {a : Action} (h : s.Queued) (heffective : s.Effective a)
    (hstep : s.step a = some s') : s'.Queued := by
  cases a with
  | loop =>
      simp only [step] at hstep
      split at hstep
      · cases hstep
      · obtain rfl := Option.some.inj hstep
        exact ⟨h.booked, h.waiting, h.checked, h.invalidating, h.order, h.settled⟩
  | quit =>
      obtain rfl := Option.some.inj hstep
      exact ⟨h.booked, h.waiting, h.checked, h.invalidating, h.order, h.settled⟩
  | leave =>
      simp only [step] at hstep
      split at hstep
      · obtain rfl := Option.some.inj hstep
        exact ⟨h.booked, h.waiting, h.checked, h.invalidating, h.order, h.settled⟩
      · cases hstep
  | create when interval => exact create_queued h hstep
  | addInLoop id =>
      simp only [step] at hstep
      split at hstep
      · obtain ⟨timerQueue, hqueue, rfl⟩ := onTimerQueue_eq_some.mp hstep
        apply h.insert hqueue (List.Sublist.refl _) (fun _ _ hother => hother)
        · intro other hne
          simp [hne]
        · simp
      · cases hstep
  | queueAdd id => exact queueAdd_queued h hstep
  | invalidateInLoop id => exact invalidateInLoop_queued h heffective hstep
  | checkInvalidate id => exact checkInvalidate_queued h heffective hstep
  | queueInvalidate id after => exact queueInvalidate_queued h hstep
  | runFunc =>
      simp only [step] at hstep
      split at hstep
      · exact runFunc_queued h hstep
      · cases hstep
  | beginBatch now =>
      simp only [step] at hstep
      split at hstep
      · exact h.onTimerQueue (by simp) (by simp) hstep
      · cases hstep
  | runNext => exact h.onTimerQueue (by simp) (by simp) hstep
  | endBatch current => exact h.onTimerQueue (by simp) (by simp) hstep

theorem timerQueue_of_onTimerQueue {a : TimerQueue.Action} (h : s.onTimerQueue a = some s') :
    s.timerQueue.step a = some s'.timerQueue := by
  obtain ⟨timerQueue, hqueue, rfl⟩ := onTimerQueue_eq_some.mp h
  exact hqueue

theorem timerQueue_of_step {a : Action} (hstep : s.step a = some s') :
    s'.timerQueue = s.timerQueue ∨ ∃ b, s.timerQueue.step b = some s'.timerQueue := by
  cases a with
  | loop =>
      simp only [step] at hstep
      split at hstep
      · cases hstep
      · exact Or.inl (by rw [← Option.some.inj hstep])
  | quit => exact Or.inl (by rw [← Option.some.inj hstep])
  | leave =>
      simp only [step] at hstep
      split at hstep
      · exact Or.inl (by rw [← Option.some.inj hstep])
      · cases hstep
  | create when interval =>
      have hqueue := timerQueue_of_onTimerQueue hstep
      exact Or.inr ⟨_, hqueue⟩
  | addInLoop id =>
      simp only [step] at hstep
      split at hstep
      · have hqueue := timerQueue_of_onTimerQueue hstep
        exact Or.inr ⟨_, hqueue⟩
      · cases hstep
  | queueAdd id =>
      simp only [step] at hstep
      split at hstep
      · exact Or.inl (by rw [← Option.some.inj hstep])
      · cases hstep
  | invalidateInLoop id =>
      simp only [step] at hstep
      split at hstep
      · obtain ⟨next, hnext, rfl⟩ := Option.map_eq_some_iff.mp hstep
        have hqueue := timerQueue_of_onTimerQueue hnext
        exact Or.inr ⟨_, hqueue⟩
      · exact Or.inl (by rw [← Option.some.inj hstep]; rfl)
  | checkInvalidate id =>
      simp only [step] at hstep
      split at hstep
      · exact Or.inl (by rw [← Option.some.inj hstep])
      · exact Or.inl (by rw [← Option.some.inj hstep]; rfl)
  | queueInvalidate id after =>
      simp only [step] at hstep
      split at hstep
      · exact Or.inl (by rw [← Option.some.inj hstep])
      · cases hstep
  | runFunc =>
      simp only [step, runFunc] at hstep
      split at hstep
      · split at hstep
        · cases hstep
        · have hqueue := timerQueue_of_onTimerQueue hstep
          exact Or.inr ⟨_, hqueue⟩
        · obtain ⟨next, hnext, rfl⟩ := Option.map_eq_some_iff.mp hstep
          have hqueue := timerQueue_of_onTimerQueue hnext
          exact Or.inr ⟨_, hqueue⟩
      · cases hstep
  | beginBatch now =>
      simp only [step] at hstep
      split at hstep
      · have hqueue := timerQueue_of_onTimerQueue hstep
        exact Or.inr ⟨_, hqueue⟩
      · cases hstep
  | runNext => exact Or.inr ⟨_, timerQueue_of_onTimerQueue hstep⟩
  | endBatch current => exact Or.inr ⟨_, timerQueue_of_onTimerQueue hstep⟩

/-- In every run in which the calls of `invalidateTimer` are effective, no callback runs once its
timer is settled. -/
theorem allSteps_respects (timersCreated : Nat) (clock : TimePoint) {ts : List Action}
    (h : AllSteps step Effective (init queue timersCreated clock) ts) :
    AllSteps step Respects (init queue timersCreated clock) ts := by
  apply h.imp Queued (fun s a s' => step_queued) _ (init_queued timersCreated clock)
  intro s a hqueued _ s' hstep id hid
  obtain ⟨hinserted, hinvalid⟩ := hqueued.settled id hid
  rcases timerQueue_of_step hstep with heq | ⟨b, hqueue⟩
  · rw [heq]
  · exact (step_of_invalid hqueued.booked hinserted hinvalid hqueue).2

theorem allSteps_respects_other_thread :
    AllSteps step Respects (init (PriorityQueue.sorted Timer.when) 0 0)
      [.loop, .create 10 0, .queueAdd 1, .checkInvalidate 1, .queueInvalidate 1 true, .runFunc,
        .runFunc, .beginBatch 12, .runNext] :=
  allSteps_respects 0 0 (by decide)

/-- An insertion that another thread has queued is overtaken by a call on the loop thread. -/
def overtaken : List Action :=
  [.loop, .create 10 0, .queueAdd 1, .invalidateInLoop 1, .runFunc, .beginBatch 12]

def dropped : List Action :=
  [.create 10 0, .addInLoop 1, .invalidateInLoop 1, .loop, .beginBatch 12]

theorem not_respects_of_runNext {ts : List Action} {timersCreated : Nat} {clock : TimePoint}
    (id : TimerId)
    (hsettled : (runSteps step (init queue timersCreated clock) ts).map (·.settled) = some [id])
    (hbefore : (runSteps step (init queue timersCreated clock) ts).map
      (·.timerQueue.runsOf id) = some [])
    (hafter : ((runSteps step (init queue timersCreated clock) (ts ++ [.runNext])).map
      fun s => (s.timerQueue.runsOf id).length) = some 1) :
    ¬ AllSteps step Respects (init queue timersCreated clock) (ts ++ [.runNext]) := by
  intro hall
  obtain ⟨s, hs, hid⟩ := Option.map_eq_some_iff.mp hsettled
  have hrun := (hall.drop hs).1
  rw [hs] at hbefore
  rw [runSteps_append, hs, Option.bind_some, runSteps_cons] at hafter
  obtain ⟨s', hs', hlength⟩ := Option.map_eq_some_iff.mp hafter
  obtain ⟨next, hnext, hrest⟩ := Option.bind_eq_some_iff.mp hs'
  obtain rfl := Option.some.inj hrest
  have hruns := hrun next hnext id (by rw [hid]; exact List.mem_singleton_self id)
  have hnone : s.timerQueue.runsOf id = [] := Option.some.inj hbefore
  rw [hruns, hnone] at hlength
  cases hlength

theorem not_allSteps_respects :
    ¬ AllSteps step Respects (init (PriorityQueue.sorted Timer.when) 0 0)
        (overtaken ++ [.runNext]) ∧
      ¬ AllSteps step Respects (init (PriorityQueue.sorted Timer.when) 0 0)
        (dropped ++ [.runNext]) :=
  ⟨not_respects_of_runNext 1 (by decide) (by decide) (by decide),
    not_respects_of_runNext 1 (by decide) (by decide) (by decide)⟩

end EventLoop

end Cooper.TimerInvalidation

import Cooper.SessionManager

/-!
The timers of `SessionManager` on several event loops. A callback knows its session by the key only,
and the invalidation of a timer of another loop waits in the queue of that loop.
-/

namespace Cooper.SessionExpiry

open Cooper.IndexedList
open Cooper.MsgBuffer
open Cooper.SessionManager
open Cooper.StepRun
open Cooper.TimerQueue (TimerId)

/-- A timer that `store` has created. `key` is what its callback has captured. -/
structure Timer where
  id : TimerId
  key : Bytes
  when : Nat
deriving DecidableEq, Repr

/-- `timers` are in the order in which they expire. `expired` and `rest` are those of the batch that
`handleRead` works on and those of them that it has still to visit, and `calling` is the timer whose
callback has begun and does not have the mutex yet. `funcs` are the timers that functors in the
queue of the loop are to invalidate. -/
structure EventLoop where
  looping : Bool
  quit : Bool
  timers : List Timer
  timerIdSet : List TimerId
  expired : Option (List Timer)
  rest : List Timer
  calling : Option Timer
  funcs : List TimerId
deriving DecidableEq, Repr

/-- `storing` are the threads between the two sections of `store`; a thread is known by its loop.
`dropped` are the timers for which a call of `invalidateTimer` has found the loop not running. -/
structure Process where
  manager : SessionManager
  loops : Loop → EventLoop
  storing : List Loop
  timersCreated : Nat
  clock : Nat
  dropped : List TimerId

def idle : EventLoop where
  looping := false
  quit := false
  timers := []
  timerIdSet := []
  expired := none
  rest := []
  calling := none
  funcs := []

def init : Process where
  manager := SessionManager.init
  loops := fun _ => idle
  storing := []
  timersCreated := 0
  clock := 0
  dropped := []

def EventLoop.isRunning (l : EventLoop) : Bool := l.looping && !l.quit

def onLoop (s : Process) (loop : Loop) (f : EventLoop → EventLoop) : Process :=
  { s with loops := Function.update s.loops loop (f (s.loops loop)) }

def EventLoop.invalidate (l : EventLoop) (id : TimerId) : EventLoop :=
  { l with timerIdSet := l.timerIdSet.filter (· ≠ id) }

/-- `EventLoop::invalidateTimer`, called on the thread of the loop `thread`. -/
def invalidateTimer (s : Process) (thread loop : Loop) (id : TimerId) : Process :=
  if (s.loops loop).isRunning then
    if thread = loop then onLoop s loop (·.invalidate id)
    else onLoop s loop fun l => { l with funcs := l.funcs ++ [id] }
  else { s with dropped := id :: s.dropped }

/-- `EventLoop::runAfter`, called on the thread of the loop. -/
def runAfter (s : Process) (loop : Loop) (delay : Nat) (id : TimerId) (key : Bytes) : Process :=
  let s := { s with timersCreated := id }
  onLoop s loop fun l =>
    { l with
      timers := l.timers ++ [⟨id, key, s.clock + delay⟩]
      timerIdSet := l.timerIdSet ++ [id] }

def perform (thread : Loop) (s : Process) : LoopCall → Process
  | .invalidateTimer loop id => invalidateTimer s thread loop id
  | .runAfter loop delay id key => runAfter s loop delay id key

def afterSection (s : Process) (thread : Loop) (m : SessionManager) : Process :=
  let calls := m.loopCalls.drop s.manager.loopCalls.length
  { calls.foldl (perform thread) s with manager := m }

inductive Action where
  | pass (seconds : Nat)
  | loop (loop : Loop)
  | quit (loop : Loop)
  | leave (loop : Loop)
  /-- The first section of `store` in `processHandshake`, on the thread of the connection's loop. -/
  | store (thread : Loop) (hostname ipPort : Bytes) (session : Session)
  | removeExcessSession (thread : Loop)
  | runFunc (loop : Loop)
  | beginBatch (loop : Loop)
  | visit (loop : Loop)
  | callback (loop : Loop)
  | endBatch (loop : Loop)
deriving DecidableEq, Repr

def EventLoop.visit (l : EventLoop) (timer : Timer) (rest : List Timer) : EventLoop :=
  { l with
    rest := rest
    calling := if timer.id ∈ l.timerIdSet then some timer else none }

/-- `handleRead` up to its loop. -/
def EventLoop.beginBatch (l : EventLoop) (now : Nat) : EventLoop :=
  let expired := l.timers.takeWhile (·.when < now)
  { l with
    timers := l.timers.dropWhile (·.when < now)
    expired := some expired
    rest := expired }

/-- `TimerQueue::reset`: none of the timers repeats. -/
def EventLoop.endBatch (l : EventLoop) (expired : List Timer) : EventLoop :=
  { l with
    timerIdSet := l.timerIdSet.filter (· ∉ expired.map Timer.id)
    expired := none }

def step (s : Process) : Action → Option Process
  | .pass seconds => some { s with clock := s.clock + seconds }
  | .loop loop =>
      if (s.loops loop).looping then none
      else some (onLoop s loop fun l => { l with looping := true, quit := false })
  | .quit loop => some (onLoop s loop fun l => { l with quit := true })
  | .leave loop =>
      let l := s.loops loop
      if l.looping ∧ l.quit ∧ l.expired = none then
        some (onLoop s loop fun l => { l with looping := false })
      else none
  | .store thread hostname ipPort session =>
      if (s.loops thread).calling = none ∧ thread ∉ s.storing then
        (SessionManager.store s.manager hostname ipPort session thread (s.timersCreated + 1)).map
          fun m => { afterSection s thread m with storing := thread :: s.storing }
      else none
  | .removeExcessSession thread =>
      if (s.loops thread).calling = none ∧ thread ∈ s.storing then
        (SessionManager.removeExcessSession s.manager).map
          fun m => { afterSection s thread m with storing := s.storing.erase thread }
      else none
  | .runFunc loop =>
      let l := s.loops loop
      match l.funcs with
      | [] => none
      | id :: funcs =>
          if l.looping ∧ l.expired = none then
            some (onLoop s loop fun l => { l with funcs := funcs }.invalidate id)
          else none
  | .beginBatch loop =>
      let l := s.loops loop
      if l.looping ∧ l.expired = none then some (onLoop s loop (·.beginBatch s.clock)) else none
  | .visit loop =>
      let l := s.loops loop
      match l.rest with
      | [] => none
      | timer :: rest =>
          if l.calling = none then some (onLoop s loop (·.visit timer rest)) else none
  | .callback loop =>
      match (s.loops loop).calling with
      | none => none
      | some timer =>
          (SessionManager.expire s.manager timer.key).map fun m =>
            { onLoop s loop (fun l => { l with calling := none }) with manager := m }
  | .endBatch loop =>
      let l := s.loops loop
      match l.expired with
      | none => none
      | some expired =>
          if l.rest = [] ∧ l.calling = none then some (onLoop s loop (·.endBatch expired)) else none

def contents (s : Process) : List SessionData := s.manager.sessions.map Prod.snd

/-- What a session may leave the cache for. -/
def Reason (s : Process) (a : Action) (data : SessionData) : Prop :=
  match a with
  | .store _ hostname ipPort _ => toKey hostname ipPort = data.key
  | .removeExcessSession _ => (contents s).getLast? = some data
  | .callback loop => ∃ timer ∈ (s.loops loop).calling, timer.id = data.timerId
  | _ => False

instance (s : Process) (data : SessionData) : (a : Action) → Decidable (Reason s a data)
  | .store .. => inferInstanceAs (Decidable (_ = _))
  | .removeExcessSession _ => inferInstanceAs (Decidable (_ = _))
  | .callback loop => inferInstanceAs (Decidable (∃ _ ∈ (s.loops loop).calling, _))
  | .pass _ | .loop _ | .quit _ | .leave _ | .runFunc _ | .beginBatch _ | .visit _ | .endBatch _ =>
      inferInstanceAs (Decidable False)

/-- The sessions that leave the cache in a step have a reason of their own. -/
def OwnReasons (s : Process) (a : Action) : Prop :=
  ∀ s' ∈ step s a, ∀ data ∈ contents s, data ∉ contents s' → Reason s a data

instance (s : Process) (a : Action) : Decidable (OwnReasons s a) :=
  inferInstanceAs (Decidable (∀ _ ∈ step s a, ∀ _ ∈ contents s, _))

/-- A callback finds no session under its key when the invalidation of its timer was dropped by a
loop that was not running, or waits in the queue of its loop. -/
def Heeded (s : Process) (a : Action) : Prop :=
  ∀ loop, a = .callback loop → ∀ timer ∈ (s.loops loop).calling,
    (∃ data ∈ contents s, data.key = timer.key) →
      timer.id ∉ s.dropped ∧ timer.id ∉ (s.loops loop).funcs

def EventLoop.held (l : EventLoop) : List Timer := l.calling.toList ++ (l.rest ++ l.timers)

/-- The callback of the timer will run unless something is done about it. -/
def EventLoop.Live (l : EventLoop) (timer : Timer) : Prop :=
  timer ∈ l.held ∧ (timer.id ∈ l.timerIdSet ∨ l.calling = some timer)

/-- What holds of a loop when `c` is in the cache: a timer that is live has its session in the
cache, or its invalidation has been asked for. -/
structure LoopTracked (created : Nat) (dropped : List TimerId) (c : List SessionData) (loop : Loop)
    (l : EventLoop) : Prop where
  requested : ∀ id ∈ l.funcs, id ≤ created ∧ ∀ data ∈ c, data.timerId ≠ id
  created : ∀ timer ∈ l.held, timer.id ≤ created
  nodup : (l.held.map Timer.id).Nodup
  quiet : l.expired = none → l.rest = [] ∧ l.calling = none
  live : ∀ timer, l.Live timer →
    (∃ data ∈ c, data.timerId = timer.id ∧ data.key = timer.key ∧ data.loop = loop) ∨
      timer.id ∈ dropped ∨ timer.id ∈ l.funcs

structure Tracked (s : Process) (c : List SessionData) : Prop where
  created : ∀ data ∈ c, data.timerId ≤ s.timersCreated
  unique : ∀ data ∈ c, ∀ other ∈ c, data.timerId = other.timerId → data = other
  dropped : ∀ id ∈ s.dropped, id ≤ s.timersCreated ∧ ∀ data ∈ c, data.timerId ≠ id
  loops : ∀ loop, LoopTracked s.timersCreated s.dropped c loop (s.loops loop)

section Loops

variable {created created' : Nat} {dropped dropped' : List TimerId} {c c' : List SessionData}
  {loop : Loop} {l : EventLoop}

theorem LoopTracked.shrink (h : LoopTracked created dropped c loop l) (hc : c' ⊆ c)
    (hdropped : dropped ⊆ dropped')
    (hgone : ∀ data ∈ c, data ∉ c' → data.loop = loop → ∀ timer, l.Live timer →
      timer.id = data.timerId → timer.id ∈ dropped' ∨ timer.id ∈ l.funcs) :
    LoopTracked created dropped' c' loop l := by
  refine ⟨?_, h.created, h.nodup, h.quiet, ?_⟩
  · intro id hid
    obtain ⟨hle, hne⟩ := h.requested id hid
    exact ⟨hle, fun data hdata => hne data (hc hdata)⟩
  · intro timer hlive
    rcases h.live timer hlive with ⟨data, hdata, hid, hkey, hloop⟩ | hdrop | hfunc
    · by_cases hstays : data ∈ c'
      · exact Or.inl ⟨data, hstays, hid, hkey, hloop⟩
      · exact Or.inr (hgone data hdata hstays hloop timer hlive hid.symm)
    · exact Or.inr (Or.inl (hdropped hdrop))
    · exact Or.inr (Or.inr hfunc)

theorem unused_cons {data : SessionData} (hid : data.timerId = created + 1) {id : TimerId}
    (h : id ≤ created ∧ ∀ other ∈ c, other.timerId ≠ id) :
    id ≤ created + 1 ∧ ∀ other ∈ data :: c, other.timerId ≠ id := by
  obtain ⟨hle, hne⟩ := h
  refine ⟨hle.trans (Nat.le_succ _), ?_⟩
  intro other hother
  rcases List.mem_cons.mp hother with rfl | hother
  · rw [hid]
    exact (Nat.lt_succ_of_le hle).ne'
  · exact hne other hother

theorem LoopTracked.grow (h : LoopTracked created dropped c loop l) {data : SessionData}
    (hid : data.timerId = created + 1) :
    LoopTracked (created + 1) dropped (data :: c) loop l := by
  refine ⟨?_, ?_, h.nodup, h.quiet, ?_⟩
  · intro id hfunc
    exact unused_cons hid (h.requested id hfunc)
  · intro timer hheld
    exact (h.created timer hheld).trans (Nat.le_succ _)
  · intro timer hlive
    rcases h.live timer hlive with ⟨other, hother, hrest⟩ | hrequested
    · exact Or.inl ⟨other, List.mem_cons_of_mem _ hother, hrest⟩
    · exact Or.inr hrequested

theorem LoopTracked.add (h : LoopTracked created dropped c loop l) {data : SessionData}
    (hid : data.timerId = created + 1) (hloop : data.loop = loop) (when : Nat) :
    LoopTracked (created + 1) dropped (data :: c) loop
      { l with
        timers := l.timers ++ [⟨created + 1, data.key, when⟩]
        timerIdSet := l.timerIdSet ++ [created + 1] } := by
  have hgrown := h.grow hid
  have hheld : ∀ timer, timer ∈ l.calling.toList ++
      (l.rest ++ (l.timers ++ [⟨created + 1, data.key, when⟩])) →
        timer ∈ l.held ∨ timer = ⟨created + 1, data.key, when⟩ := by
    intro timer hmem
    rw [← List.append_assoc l.rest, ← List.append_assoc] at hmem
    rcases List.mem_append.mp hmem with hmem | hmem
    · exact Or.inl hmem
    · exact Or.inr (List.mem_singleton.mp hmem)
  refine ⟨hgrown.requested, ?_, ?_, h.quiet, ?_⟩
  · intro timer hmem
    rcases hheld timer hmem with hmem | rfl
    · exact hgrown.created timer hmem
    · exact le_refl _
  · have hnew : ∀ timer ∈ l.held, timer.id ≠ created + 1 := by
      intro timer hmem
      exact (Nat.lt_succ_of_le (h.created timer hmem)).ne
    change ((l.calling.toList ++ (l.rest ++ (l.timers ++ [_]))).map Timer.id).Nodup
    rw [← List.append_assoc l.rest, ← List.append_assoc, List.map_append, List.nodup_append]
    refine ⟨h.nodup, List.nodup_singleton _, ?_⟩
    intro id hmem other hother
    obtain ⟨timer, htimer, rfl⟩ := List.mem_map.mp hmem
    rw [List.mem_singleton.mp hother]
    exact hnew timer htimer
  · rintro timer ⟨hmem, hvalid⟩
    rcases hheld timer hmem with hold | rfl
    · apply hgrown.live timer
      refine ⟨hold, ?_⟩
      rcases hvalid with hvalid | hcalling
      · left
        rcases List.mem_append.mp hvalid with hvalid | hnew
        · exact hvalid
        · have hlt := Nat.lt_succ_of_le (h.created timer hold)
          exact absurd (List.mem_singleton.mp hnew) hlt.ne
      · exact Or.inr hcalling
    · exact Or.inl ⟨data, List.mem_cons_self, hid, rfl, hloop⟩

theorem LoopTracked.release (h : LoopTracked created dropped c loop l) {l' : EventLoop}
    (hfuncs : l'.funcs = l.funcs) (hheld : l'.held.Sublist l.held)
    (hquiet : l'.expired = none → l'.rest = [] ∧ l'.calling = none)
    (hlive : ∀ timer, l'.Live timer → l.Live timer) :
    LoopTracked created dropped c loop l' := by
  refine ⟨?_, ?_, (hheld.map Timer.id).nodup h.nodup, hquiet, ?_⟩
  · rw [hfuncs]
    exact h.requested
  · intro timer hmem
    exact h.created timer (hheld.subset hmem)
  · intro timer htimer
    rw [hfuncs]
    exact h.live timer (hlive timer htimer)

theorem LoopTracked.flags (h : LoopTracked created dropped c loop l) (looping quit : Bool) :
    LoopTracked created dropped c loop { l with looping := looping, quit := quit } :=
  h.release rfl (List.Sublist.refl _) h.quiet fun _ hlive => hlive

theorem LoopTracked.visit (h : LoopTracked created dropped c loop l) {timer : Timer}
    {rest : List Timer} (hrest : l.rest = timer :: rest) (hcalling : l.calling = none) :
    LoopTracked created dropped c loop (l.visit timer rest) := by
  have hheld : l.held = timer :: (rest ++ l.timers) := by
    rw [EventLoop.held, hcalling, hrest]
    rfl
  have hbatch : l.expired ≠ none := by
    intro hnone
    rw [(h.quiet hnone).1] at hrest
    contradiction
  rcases hvalid : decide (timer.id ∈ l.timerIdSet) with _ | _
  · have hinvalid := of_decide_eq_false hvalid
    have hnext : (l.visit timer rest).held = rest ++ l.timers := by
      simp [EventLoop.held, EventLoop.visit, hinvalid]
    refine h.release rfl ?_ (fun hnone => absurd hnone hbatch) ?_
    · rw [hnext, hheld]
      exact List.sublist_cons_self _ _
    · rintro other ⟨hmem, hother⟩
      rw [hnext] at hmem
      refine ⟨hheld ▸ List.mem_cons_of_mem _ hmem, ?_⟩
      simpa [EventLoop.visit, hinvalid, hcalling] using hother
  · have hisvalid := of_decide_eq_true hvalid
    have hnext : (l.visit timer rest).held = l.held := by
      simp [EventLoop.held, EventLoop.visit, hisvalid, hrest, hcalling]
    refine h.release rfl ?_ (fun hnone => absurd hnone hbatch) ?_
    · rw [hnext]
    · rintro other ⟨hmem, hother⟩
      refine ⟨hnext ▸ hmem, Or.inl ?_⟩
      rcases hother with hother | hother
      · exact hother
      · simp only [EventLoop.visit, hisvalid, if_true, Option.some.injEq] at hother
        exact hother ▸ hisvalid

theorem LoopTracked.beginBatch (h : LoopTracked created dropped c loop l)
    (hnone : l.expired = none) (now : Nat) :
    LoopTracked created dropped c loop (l.beginBatch now) := by
  obtain ⟨hrest, hcalling⟩ := h.quiet hnone
  have hheld : (l.beginBatch now).held = l.held := by
    simp [EventLoop.held, EventLoop.beginBatch, hrest, hcalling]
  refine h.release rfl ?_ (fun hbatch => ?_) ?_
  · rw [hheld]
  · contradiction
  · rintro timer ⟨hmem, hvalid⟩
    exact ⟨hheld ▸ hmem, hvalid⟩

theorem LoopTracked.endBatch (h : LoopTracked created dropped c loop l) (hrest : l.rest = [])
    (hcalling : l.calling = none) (expired : List Timer) :
    LoopTracked created dropped c loop (l.endBatch expired) := by
  refine h.release rfl (List.Sublist.refl _) (fun _ => ⟨hrest, hcalling⟩) ?_
  rintro timer ⟨hmem, hvalid | hcalls⟩
  · exact ⟨hmem, Or.inl (List.mem_of_mem_filter hvalid)⟩
  · exact ⟨hmem, Or.inr hcalls⟩

theorem live_invalidate (hcalling : l.calling = none) {id : TimerId} {timer : Timer}
    (hlive : (l.invalidate id).Live timer) : l.Live timer ∧ timer.id ≠ id := by
  obtain ⟨hmem, hvalid | hcalls⟩ := hlive
  · obtain ⟨hvalid, hne⟩ := List.mem_filter.mp hvalid
    exact ⟨⟨hmem, Or.inl hvalid⟩, of_decide_eq_true hne⟩
  · change l.calling = some timer at hcalls
    rw [hcalling] at hcalls
    contradiction

theorem LoopTracked.invalidate (h : LoopTracked created dropped c loop l)
    (hcalling : l.calling = none) (id : TimerId) :
    LoopTracked created dropped c loop (l.invalidate id) :=
  h.release rfl (List.Sublist.refl _) h.quiet fun _ hlive => (live_invalidate hcalling hlive).1

theorem LoopTracked.callback (h : LoopTracked created dropped c loop l) :
    LoopTracked created dropped c loop { l with calling := none } := by
  refine h.release rfl ?_ (fun hnone => ⟨(h.quiet hnone).1, rfl⟩) ?_
  · exact List.sublist_append_right _ _
  · rintro timer ⟨hmem, hvalid | hcalls⟩
    · exact ⟨List.mem_append_right _ hmem, Or.inl hvalid⟩
    · contradiction

theorem LoopTracked.id_ne_calling (h : LoopTracked created dropped c loop l) {timer other : Timer}
    (hcalling : l.calling = some timer) (hlive : { l with calling := none }.Live other) :
    other.id ≠ timer.id := by
  have hnodup := h.nodup
  rw [EventLoop.held, hcalling] at hnodup
  intro hid
  apply (List.nodup_cons.mp hnodup).1
  rw [← hid]
  exact List.mem_map_of_mem hlive.1

theorem LoopTracked.runFunc (h : LoopTracked created dropped c loop l) {id : TimerId}
    {funcs : List TimerId} (hfuncs : l.funcs = id :: funcs) (hnone : l.expired = none) :
    LoopTracked created dropped c loop ({ l with funcs := funcs }.invalidate id) := by
  obtain ⟨hrest, hcalling⟩ := h.quiet hnone
  refine ⟨?_, h.created, h.nodup, h.quiet, ?_⟩
  · intro other hother
    exact h.requested other (hfuncs ▸ List.mem_cons_of_mem _ hother)
  · intro timer hlive
    obtain ⟨hbefore, hne⟩ := live_invalidate hcalling hlive
    rcases h.live timer hbefore with hdata | hdrop | hfunc
    · exact Or.inl hdata
    · exact Or.inr (Or.inl hdrop)
    · rw [hfuncs] at hfunc
      exact Or.inr (Or.inr (List.mem_of_ne_of_mem hne hfunc))

theorem LoopTracked.enqueue (h : LoopTracked created dropped c loop l) (hc : c' ⊆ c)
    {data : SessionData} (hcreated : data.timerId ≤ created)
    (hunique : ∀ other ∈ c', other.timerId ≠ data.timerId)
    (hgone : ∀ other ∈ c, other ∉ c' → other = data) :
    LoopTracked created dropped c' loop { l with funcs := l.funcs ++ [data.timerId] } := by
  refine ⟨?_, h.created, h.nodup, h.quiet, ?_⟩
  · intro id hid
    rcases List.mem_append.mp hid with hid | hid
    · obtain ⟨hle, hne⟩ := h.requested id hid
      exact ⟨hle, fun other hother => hne other (hc hother)⟩
    · rw [List.mem_singleton.mp hid]
      exact ⟨hcreated, hunique⟩
  · intro timer hlive
    rcases h.live timer hlive with ⟨other, hother, hid, hrest⟩ | hdrop | hfunc
    · by_cases hstays : other ∈ c'
      · exact Or.inl ⟨other, hstays, hid, hrest⟩
      · rw [← hid, hgone other hother hstays]
        exact Or.inr (Or.inr (List.mem_append_right _ (List.mem_singleton_self _)))
    · exact Or.inr (Or.inl hdrop)
    · exact Or.inr (Or.inr (List.mem_append_left _ hfunc))

end Loops

section Processes

variable {s : Process} {c c' : List SessionData}

theorem Tracked.leaves (h : Tracked s c) (hc : c' ⊆ c) {loop : Loop}
    {f : EventLoop → EventLoop}
    (hother : ∀ other ≠ loop, LoopTracked s.timersCreated s.dropped c' other (s.loops other))
    (hloop : LoopTracked s.timersCreated s.dropped c' loop (f (s.loops loop))) :
    Tracked (onLoop s loop f) c' := by
  refine ⟨fun data hdata => h.created data (hc hdata), ?_, ?_, ?_⟩
  · intro data hdata other hother
    exact h.unique data (hc hdata) other (hc hother)
  · intro id hid
    obtain ⟨hle, hne⟩ := h.dropped id hid
    exact ⟨hle, fun data hdata => hne data (hc hdata)⟩
  · intro other
    change LoopTracked _ _ _ _ (Function.update s.loops loop (f (s.loops loop)) other)
    by_cases hsame : other = loop
    · subst hsame
      rw [Function.update_self]
      exact hloop
    · rw [Function.update_of_ne hsame]
      exact hother other hsame

theorem Tracked.onLoop (h : Tracked s c) {loop : Loop} {f : EventLoop → EventLoop}
    (hloop : LoopTracked s.timersCreated s.dropped c loop (f (s.loops loop))) :
    Tracked (onLoop s loop f) c :=
  h.leaves (List.Subset.refl c) (fun other _ => h.loops other) hloop

theorem Tracked.invalidateTimer (h : Tracked s c) (hnodup : c.Nodup) {data : SessionData}
    (hperm : c.Perm (data :: c')) {thread : Loop} (hcalling : (s.loops thread).calling = none) :
    Tracked (invalidateTimer s thread data.loop data.timerId) c' := by
  have hc : c' ⊆ c := fun other hother => hperm.mem_iff.mpr (List.mem_cons_of_mem _ hother)
  have hdata : data ∈ c := hperm.mem_iff.mpr List.mem_cons_self
  have hleft : data ∉ c' := (List.nodup_cons.mp (hperm.nodup_iff.mp hnodup)).1
  have hgone : ∀ other ∈ c, other ∉ c' → other = data := by
    intro other hother hnot
    exact (List.mem_cons.mp (hperm.mem_iff.mp hother)).resolve_right hnot
  have hunique : ∀ other ∈ c', other.timerId ≠ data.timerId := by
    intro other hother hid
    exact hleft (h.unique other (hc hother) data hdata hid ▸ hother)
  have hcreated := h.created data hdata
  have hother : ∀ loop ≠ data.loop, LoopTracked s.timersCreated s.dropped c' loop
      (s.loops loop) := by
    intro loop hloop
    apply (h.loops loop).shrink hc (List.Subset.refl _)
    intro gone hmem hnot hown
    rw [hgone gone hmem hnot] at hown
    exact absurd hown.symm hloop
  rw [SessionExpiry.invalidateTimer]
  by_cases hrunning : (s.loops data.loop).isRunning
  · rw [if_pos hrunning]
    by_cases hthread : thread = data.loop
    · rw [if_pos hthread]
      apply h.leaves hc hother
      rw [hthread] at hcalling
      apply ((h.loops data.loop).invalidate hcalling data.timerId).shrink hc (List.Subset.refl _)
      intro gone hmem hnot _ timer hlive hid
      rw [hgone gone hmem hnot] at hid
      exact absurd hid (live_invalidate hcalling hlive).2
    · rw [if_neg hthread]
      exact h.leaves hc hother ((h.loops data.loop).enqueue hc hcreated hunique hgone)
  · rw [if_neg hrunning]
    refine ⟨fun other hmem => h.created other (hc hmem), ?_, ?_, ?_⟩
    · intro first hfirst second hsecond
      exact h.unique first (hc hfirst) second (hc hsecond)
    · intro id hid
      rcases List.mem_cons.mp hid with rfl | hid
      · exact ⟨hcreated, hunique⟩
      · obtain ⟨hle, hne⟩ := h.dropped id hid
        exact ⟨hle, fun other hmem => hne other (hc hmem)⟩
    · intro loop
      apply (h.loops loop).shrink hc (List.subset_cons_self _ _)
      intro gone hmem hnot _ timer _ hid
      rw [hgone gone hmem hnot] at hid
      exact Or.inl (hid ▸ List.mem_cons_self)

theorem Tracked.runAfter (h : Tracked s c) (data : SessionData)
    (hid : data.timerId = s.timersCreated + 1) (delay : Nat) :
    Tracked (runAfter s data.loop delay data.timerId data.key) (data :: c) := by
  have hnew : ∀ other ∈ c, other.timerId ≠ data.timerId := by
    intro other hother
    rw [hid]
    exact (Nat.lt_succ_of_le (h.created other hother)).ne
  rw [hid]
  refine ⟨?_, ?_, ?_, ?_⟩
  · intro other hother
    rcases List.mem_cons.mp hother with rfl | hother
    · exact hid.le
    · exact (h.created other hother).trans (Nat.le_succ _)
  · intro first hfirst second hsecond heq
    rcases List.mem_cons.mp hfirst with hnewest | hold
    · rcases List.mem_cons.mp hsecond with hnewest' | hold'
      · rw [hnewest, hnewest']
      · exact absurd (hnewest ▸ heq).symm (hnew second hold')
    · rcases List.mem_cons.mp hsecond with hnewest' | hold'
      · exact absurd (hnewest' ▸ heq) (hnew first hold)
      · exact h.unique first hold second hold' heq
  · intro id hdropped
    exact unused_cons hid (h.dropped id hdropped)
  · intro loop
    change LoopTracked _ _ _ _ (Function.update s.loops data.loop _ loop)
    by_cases hloop : loop = data.loop
    · subst hloop
      rw [Function.update_self]
      exact (h.loops data.loop).add hid rfl _
    · rw [Function.update_of_ne hloop]
      exact (h.loops loop).grow hid

theorem Tracked.frame (h : Tracked s c) (m : SessionManager) (storing : List Loop) (clock : Nat) :
    Tracked { s with manager := m, storing := storing, clock := clock } c :=
  ⟨h.created, h.unique, h.dropped, h.loops⟩

theorem timersCreated_invalidateTimer (s : Process) (thread loop : Loop) (id : TimerId) :
    (invalidateTimer s thread loop id).timersCreated = s.timersCreated := by
  rw [invalidateTimer]
  split
  · split <;> rfl
  · rfl

theorem Tracked.invalidations (h : Tracked s c) (hnodup : c.Nodup) (found : Option SessionData)
    (hnone : found = none → c' = c) (hsome : ∀ data, found = some data → c.Perm (data :: c'))
    {thread : Loop} (hcalling : (s.loops thread).calling = none) :
    ∃ s', (found.map Booked.invalidation).toList.foldl (perform thread) s = s' ∧ Tracked s' c' ∧
      s'.timersCreated = s.timersCreated := by
  rcases found with _ | data
  · rw [hnone rfl]
    exact ⟨s, rfl, h, rfl⟩
  · exact ⟨_, rfl, h.invalidateTimer hnodup (hsome data rfl) hcalling,
      timersCreated_invalidateTimer s thread data.loop data.timerId⟩

end Processes

def Cache.after (c : Cache) (s : Process) : Action → Cache
  | .store thread hostname ipPort session =>
      c.put ⟨session, toKey hostname ipPort, s.timersCreated + 1, thread⟩
  | .removeExcessSession _ => c.removeExcess
  | .callback loop =>
      match (s.loops loop).calling with
      | none => c
      | some timer => c.remove timer.key
  | _ => c

section Steps

variable {s s' : Process}

theorem afterSection_eq (s : Process) (thread : Loop) {m : SessionManager} {calls : List LoopCall}
    (hcalls : m.loopCalls = s.manager.loopCalls ++ calls) :
    afterSection s thread m = { calls.foldl (perform thread) s with manager := m } := by
  rw [afterSection, hcalls, List.drop_left]

theorem cache_nodup (c : Cache) : c.values.Nodup := List.Nodup.of_map _ c.nodup

/-- What holds in every state of a run: the list and the map are in bijection, and the timers that
are live are those of the cache. -/
structure Kept (s : Process) : Prop where
  booked : Booked s.manager
  tracked : Tracked s booked.cache.values

theorem Kept.store (h : Kept s) {thread : Loop} {hostname ipPort : Bytes} {session : Session}
    (hstep : step s (.store thread hostname ipPort session) = some s') :
    ∃ h' : Kept s', h'.booked.cache =
      Cache.after h.booked.cache s (.store thread hostname ipPort session) := by
  rw [step] at hstep
  split at hstep <;> rename_i hready
  · obtain ⟨m, hstore, rfl⟩ := Option.map_eq_some_iff.mp hstep
    obtain ⟨next, hnext, hbooked, hcache⟩ :=
      h.booked.store hostname ipPort session thread (s.timersCreated + 1)
    obtain rfl := Option.some.inj (hnext.symm.trans hstore)
    obtain ⟨t, ht, htracked, hcreated⟩ := h.tracked.invalidations (cache_nodup _)
      (h.booked.cache.find (toKey hostname ipPort))
      (fun hnone => congrArg KeyedList.values (KeyedList.remove_of_find hnone))
      (fun data hdata => KeyedList.perm_of_find hdata) hready.1
    have hstored := htracked.runAfter ⟨session, toKey hostname ipPort, s.timersCreated + 1, thread⟩
      (congrArg (· + 1) hcreated.symm) sessionTimeout
    rw [afterSection_eq s thread (h.booked.loopCalls_store hstore), List.foldl_append, ht]
    refine ⟨⟨hbooked, ?_⟩, hcache⟩
    rw [hcache]
    exact ⟨hstored.created, hstored.unique, hstored.dropped, hstored.loops⟩
  · contradiction

theorem Kept.removeExcessSession (h : Kept s) {thread : Loop}
    (hstep : step s (.removeExcessSession thread) = some s') :
    ∃ h' : Kept s', h'.booked.cache =
      Cache.after h.booked.cache s (.removeExcessSession thread) := by
  rw [step] at hstep
  split at hstep <;> rename_i hready
  · obtain ⟨m, hremove, rfl⟩ := Option.map_eq_some_iff.mp hstep
    obtain ⟨next, hnext, hbooked, hcache⟩ := h.booked.removeExcessSession
    obtain rfl := Option.some.inj (hnext.symm.trans hremove)
    rw [afterSection_eq s thread (h.booked.loopCalls_removeExcessSession hremove)]
    refine ⟨⟨hbooked, ?_⟩, hcache⟩
    rw [hcache, Cache.removeExcess]
    split
    · exact ⟨h.tracked.created, h.tracked.unique, h.tracked.dropped, h.tracked.loops⟩
    · obtain ⟨t, ht, htracked, -⟩ := h.tracked.invalidations (cache_nodup _)
        (h.booked.cache.values.getLast?)
        (fun hnone => congrArg KeyedList.values (KeyedList.dropOldest_of_getLast? hnone))
        (fun data hdata => KeyedList.perm_of_getLast? hdata) hready.1
      rw [ht]
      exact ⟨htracked.created, htracked.unique, htracked.dropped, htracked.loops⟩
  · contradiction

theorem Kept.find_calling (h : Kept s) {loop : Loop} (hheeded : Heeded s (.callback loop))
    {timer : Timer} (hcalling : (s.loops loop).calling = some timer) {data : SessionData}
    (hfind : h.booked.cache.find timer.key = some data) :
    data.timerId = timer.id ∧ data.loop = loop := by
  obtain ⟨hdata, hkey⟩ := KeyedList.find_eq_some_iff.mp hfind
  obtain ⟨hdropped, hfuncs⟩ := hheeded loop rfl timer hcalling ⟨data, hdata, hkey⟩
  have hlive : (s.loops loop).Live timer := by
    refine ⟨?_, Or.inr hcalling⟩
    rw [EventLoop.held, hcalling]
    exact List.mem_cons_self
  rcases (h.tracked.loops loop).live timer hlive with
    ⟨own, hown, hid, hownkey, hloop⟩ | hdrop | hfunc
  · have hsame : own = data :=
      List.inj_on_of_nodup_map h.booked.cache.nodup hown hdata (hownkey.trans hkey.symm)
    exact ⟨hsame ▸ hid, hsame ▸ hloop⟩
  · exact absurd hdrop hdropped
  · exact absurd hfunc hfuncs

theorem Kept.callback (h : Kept s) {loop : Loop} (hheeded : Heeded s (.callback loop))
    (hstep : step s (.callback loop) = some s') :
    ∃ h' : Kept s', h'.booked.cache = Cache.after h.booked.cache s (.callback loop) := by
  rw [step] at hstep
  rcases hcalling : (s.loops loop).calling with _ | timer
  · rw [hcalling] at hstep
    contradiction
  · rw [hcalling] at hstep
    obtain ⟨m, hexpire, rfl⟩ := Option.map_eq_some_iff.mp hstep
    obtain ⟨next, hnext, hbooked, hcache⟩ := h.booked.expire timer.key
    obtain rfl := Option.some.inj (hnext.symm.trans hexpire)
    rw [Cache.after, hcalling]
    refine ⟨⟨hbooked, ?_⟩, hcache⟩
    rw [hcache]
    have hcalled : Tracked (onLoop s loop fun l => { l with calling := none })
        (h.booked.cache.remove timer.key).values := by
      rcases hfind : h.booked.cache.find timer.key with _ | data
      · rw [KeyedList.remove_of_find hfind]
        exact h.tracked.onLoop (h.tracked.loops loop).callback
      · obtain ⟨hid, rfl⟩ := h.find_calling hheeded hcalling hfind
        have hsub : (h.booked.cache.remove timer.key).values ⊆ h.booked.cache.values :=
          List.filter_subset_self _
        have hgone : ∀ other ∈ h.booked.cache.values,
            other ∉ (h.booked.cache.remove timer.key).values → other = data := by
          intro other hother hnot
          have hmem := (KeyedList.perm_of_find hfind).mem_iff.mp hother
          exact (List.mem_cons.mp hmem).resolve_right hnot
        apply h.tracked.leaves hsub
        · intro loop hloop
          apply (h.tracked.loops loop).shrink hsub (List.Subset.refl _)
          intro other hother hnot hown
          rw [hgone other hother hnot] at hown
          exact absurd hown.symm hloop
        · apply (h.tracked.loops data.loop).callback.shrink hsub (List.Subset.refl _)
          intro other hother hnot _ live hlive hlast
          rw [hgone other hother hnot, hid] at hlast
          exact absurd hlast ((h.tracked.loops data.loop).id_ne_calling hcalling hlive)
    exact ⟨hcalled.created, hcalled.unique, hcalled.dropped, hcalled.loops⟩

theorem Kept.onLoop (h : Kept s) {loop : Loop} {f : EventLoop → EventLoop}
    (hloop : LoopTracked s.timersCreated s.dropped h.booked.cache.values loop
      (f (s.loops loop))) :
    ∃ h' : Kept (onLoop s loop f), h'.booked.cache = h.booked.cache :=
  ⟨⟨h.booked, h.tracked.onLoop hloop⟩, rfl⟩

theorem step_kept (h : Kept s) {a : Action} (hheeded : Heeded s a)
    (hstep : step s a = some s') :
    ∃ h' : Kept s', h'.booked.cache = Cache.after h.booked.cache s a := by
  cases a with
  | pass seconds =>
      obtain rfl := Option.some.inj hstep
      exact ⟨⟨h.booked, h.tracked.frame s.manager s.storing (s.clock + seconds)⟩, rfl⟩
  | loop loop =>
      rw [step] at hstep
      split at hstep
      · contradiction
      · obtain rfl := Option.some.inj hstep
        exact h.onLoop ((h.tracked.loops loop).flags true false)
  | quit loop =>
      obtain rfl := Option.some.inj hstep
      exact h.onLoop ((h.tracked.loops loop).flags _ true)
  | leave loop =>
      rw [step] at hstep
      split at hstep
      · obtain rfl := Option.some.inj hstep
        exact h.onLoop ((h.tracked.loops loop).flags false _)
      · contradiction
  | store thread hostname ipPort session => exact h.store hstep
  | removeExcessSession thread => exact h.removeExcessSession hstep
  | runFunc loop =>
      rw [step] at hstep
      rcases hfuncs : (s.loops loop).funcs with _ | ⟨id, funcs⟩
      · simp only [hfuncs] at hstep
        contradiction
      · simp only [hfuncs] at hstep
        split at hstep <;> rename_i hready
        · obtain rfl := Option.some.inj hstep
          exact h.onLoop ((h.tracked.loops loop).runFunc hfuncs hready.2)
        · contradiction
  | beginBatch loop =>
      rw [step] at hstep
      split at hstep <;> rename_i hready
      · obtain rfl := Option.some.inj hstep
        exact h.onLoop ((h.tracked.loops loop).beginBatch hready.2 s.clock)
      · contradiction
  | visit loop =>
      rw [step] at hstep
      rcases hrest : (s.loops loop).rest with _ | ⟨timer, rest⟩
      · simp only [hrest] at hstep
        contradiction
      · simp only [hrest] at hstep
        split at hstep <;> rename_i hcalling
        · obtain rfl := Option.some.inj hstep
          exact h.onLoop ((h.tracked.loops loop).visit hrest hcalling)
        · contradiction
  | callback loop => exact h.callback hheeded hstep
  | endBatch loop =>
      rw [step] at hstep
      rcases hexpired : (s.loops loop).expired with _ | expired
      · simp only [hexpired] at hstep
        contradiction
      · simp only [hexpired] at hstep
        split at hstep <;> rename_i hdone
        · obtain rfl := Option.some.inj hstep
          exact h.onLoop ((h.tracked.loops loop).endBatch hdone.1 hdone.2 expired)
        · contradiction

/-- A session that has left the cache had a reason of its own, unless a callback was not heeded. -/
theorem ownReasons_of_heeded (h : Kept s) {a : Action} (hheeded : Heeded s a) :
    OwnReasons s a := by
  intro s' hstep data hdata hleft
  obtain ⟨h', hcache⟩ := step_kept h hheeded hstep
  change data ∈ h.booked.cache.values at hdata
  change data ∉ h'.booked.cache.values at hleft
  rw [hcache] at hleft
  have hremoved : ∀ key, data ∉ (h.booked.cache.remove key).values → data.key = key := by
    intro key hnot
    by_contra hne
    exact hnot (List.mem_filter.mpr ⟨hdata, decide_eq_true hne⟩)
  cases a with
  | store thread hostname ipPort session =>
      exact (hremoved _ fun hmem => hleft (List.mem_cons_of_mem _ hmem)).symm
  | removeExcessSession thread =>
      rw [Cache.after, Cache.removeExcess] at hleft
      split at hleft
      · exact absurd hdata hleft
      · rcases hlast : h.booked.cache.values.getLast? with _ | last
        · rw [KeyedList.dropOldest_of_getLast? hlast] at hleft
          exact absurd hdata hleft
        · have hmem := (KeyedList.perm_of_getLast? hlast).mem_iff.mp hdata
          rw [(List.mem_cons.mp hmem).resolve_right hleft]
          exact hlast
  | callback loop =>
      rcases hcalling : (s.loops loop).calling with _ | timer
      · rw [Cache.after, hcalling] at hleft
        exact absurd hdata hleft
      · rw [Cache.after, hcalling] at hleft
        have hfind := KeyedList.find_eq_some_iff.mpr ⟨hdata, hremoved _ hleft⟩
        exact ⟨timer, hcalling, (h.find_calling hheeded hcalling hfind).1.symm⟩
  | pass seconds => exact absurd hdata hleft
  | loop loop => exact absurd hdata hleft
  | quit loop => exact absurd hdata hleft
  | leave loop => exact absurd hdata hleft
  | runFunc loop => exact absurd hdata hleft
  | beginBatch loop => exact absurd hdata hleft
  | visit loop => exact absurd hdata hleft
  | endBatch loop => exact absurd hdata hleft

/-- A callback that is not heeded takes the session of another timer. -/
theorem heeded_of_ownReasons (h : Kept s) {a : Action} (hown : OwnReasons s a) : Heeded s a := by
  rintro loop rfl timer hcalling ⟨data, hdata, hkey⟩
  have hcalls : (s.loops loop).calling = some timer := hcalling
  obtain ⟨m, hexpire, hbooked, hcache⟩ := h.booked.expire timer.key
  have hstep : step s (.callback loop) =
      some { onLoop s loop (fun l => { l with calling := none }) with manager := m } := by
    simp only [step, hcalls, hexpire, Option.map_some]
  have hleft : data ∉ hbooked.cache.values := by
    rw [hcache]
    intro hmem
    exact of_decide_eq_true (List.mem_filter.mp hmem).2 hkey
  obtain ⟨called, hcalled, hid⟩ := hown _ hstep data hdata hleft
  obtain rfl := Option.some.inj (hcalls.symm.trans hcalled)
  constructor
  · intro hdropped
    exact (h.tracked.dropped _ hdropped).2 data hdata hid.symm
  · intro hfunc
    exact ((h.tracked.loops loop).requested _ hfunc).2 data hdata hid.symm

end Steps

theorem init_kept : Kept init := by
  refine ⟨init_booked, ?_, ?_, ?_, ?_⟩
  · intro data hdata
    contradiction
  · intro data hdata
    contradiction
  · intro id hid
    contradiction
  · intro loop
    refine ⟨?_, ?_, List.nodup_nil, fun _ => ⟨rfl, rfl⟩, ?_⟩
    · intro id hid
      contradiction
    · intro timer hmem
      contradiction
    · intro timer hlive
      have hmem := hlive.1
      contradiction

/-- The sessions leave the cache for their own reasons in the runs in which no callback finds a
session under its key while the invalidation of its timer is dropped or waits. -/
theorem allSteps_ownReasons_iff (actions : List Action) :
    AllSteps step OwnReasons init actions ↔ AllSteps step Heeded init actions := by
  refine allSteps_iff_of_kept Kept ?_ ?_ init_kept actions
  · intro s a s' h hown hstep
    obtain ⟨h', -⟩ := step_kept h (heeded_of_ownReasons h hown) hstep
    exact h'
  · intro s a h
    constructor
    · exact heeded_of_ownReasons h
    · exact ownReasons_of_heeded h

def successorRemoved : List Action :=
  [.loop 0, .loop 1, .store 0 (ascii "cooper") (ascii "1.2.3.4:443") 1, .removeExcessSession 0,
    .pass 3601, .store 1 (ascii "cooper") (ascii "1.2.3.4:443") 2, .removeExcessSession 1,
    .beginBatch 0, .visit 0, .callback 0]

theorem not_allSteps_ownReasons : ¬ ∀ actions, AllSteps step OwnReasons init actions := by
  intro h
  have hall := h successorRemoved
  revert hall
  decide

end Cooper.SessionExpiry

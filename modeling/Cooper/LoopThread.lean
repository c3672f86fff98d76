import Cooper.LoopProgress

namespace Cooper.LoopThread

open Cooper.StepRun Cooper.Progress Cooper.Wakeup Cooper.LoopProgress
open Cooper.LockFreeQueue hiding Action

section Model

inductive Functor (φ : Type*)
  | ready
  | user (functor : φ)
  deriving DecidableEq

def Functor.isReady {φ : Type*} : Functor φ → Bool
  | .ready => true
  | .user _ => false

/-- Where `loopFuncs` is: in `queueInLoop` with the functor `ready`, which sets `promiseForLoop_`,
at `get` of `promiseForRun_`, in `loop()` or behind it. -/
inductive ThreadPc
  | exchange
  | store
  | wakeup
  | setLoopPointer
  | awaitRun
  | looping
  | resetLoop
  | exited
  deriving DecidableEq

def ThreadPc.announces : ThreadPc → Bool
  | .exchange | .store | .wakeup => true
  | _ => false

/-- Where a user of the object is: in `run` or in the destructor, which calls `run` first, at `get`
of `promiseForLoop_` (`awaitLoop`), or in `thread_.join()`, of the destructor or of `wait`. -/
inductive Pc
  | outside
  | callOnce (destroys : Bool)
  | setRun (destroys : Bool)
  | awaitLoop (destroys : Bool)
  | copyLoop
  | quit
  | quitWakeup
  | joinTest
  | join (destroys : Bool)
  deriving DecidableEq

/-- `once_`, and the thread that executes the callable. -/
inductive Once (ι : Type*)
  | fresh
  | busy (t : ι)
  | done
  deriving DecidableEq

/-- `loopPointer`, `run` and `ready` tell which promises have a value, and `hasLoop` whether `loop_`
is not null. `inside` are the threads in `run` and `wait`. -/
structure EventLoopThread (ι φ : Type*) where
  loop : EventLoop ι (Functor φ)
  thread : ThreadPc
  loopPointer : Bool
  run : Bool
  ready : Bool
  constructed : Bool
  hasLoop : Bool
  once : Once ι
  pc : ι → Pc
  inside : List ι
  destructor : Option ι
  joined : Bool
  destroyed : Bool

/-- What the users of the loop do: `queueInLoop` on any thread, and `quit`. -/
def uses {ι φ : Type*} : Wakeup.Action ι (Functor φ) → Bool
  | .exchange _ functor _ => !functor.isReady
  | .store _ | .wakeup _ | .quit | .write => true
  | _ => false

/-- `thread` is a step of `loopFuncs` outside of `loop()`, with what `new` returns; `use` is one of
the users of the loop, on other threads. -/
inductive Action (ι φ : Type*)
  | thread (node : Addr)
  | loop (a : Wakeup.Action ι (Functor φ))
  | construct
  | run (t : ι)
  | wait (t : ι)
  | destroy (t : ι)
  | advance (t : ι)
  | use (a : Wakeup.Action ι (Functor φ))

variable {ι φ : Type*} [DecidableEq ι]

namespace EventLoopThread

def init (loopThread : ι) (φ : Type*) (node : Addr) : EventLoopThread ι φ where
  loop := .init loopThread (Functor φ) node
  thread := .exchange
  loopPointer := false
  run := false
  ready := false
  constructed := false
  hasLoop := false
  once := .fresh
  pc := fun _ => .outside
  inside := []
  destructor := none
  joined := false
  destroyed := false

def put (s : EventLoopThread ι φ) (t : ι) (pc : Pc) : EventLoopThread ι φ :=
  { s with pc := Function.update s.pc t pc }

def runsReady (loop : EventLoop ι (Functor φ)) : Wakeup.Action ι (Functor φ) → Bool
  | .dequeue =>
      match loop.funcs.step .dequeue with
      | some (_, .dequeue (some func)) => func.functor.isReady
      | _ => false
  | _ => false

def advanceThread (s : EventLoopThread ι φ) (node : Addr) : Option (EventLoopThread ι φ) :=
  match s.thread with
  | .exchange =>
      (s.loop.step (.exchange s.loop.loopThread .ready node)).map fun loop =>
        { s with loop, thread := .store }
  | .store =>
      (s.loop.step (.store s.loop.loopThread)).map fun loop => { s with loop, thread := .wakeup }
  | .wakeup =>
      (s.loop.step (.wakeup s.loop.loopThread)).map fun loop =>
        { s with loop, thread := .setLoopPointer }
  | .setLoopPointer => some { s with loopPointer := true, thread := .awaitRun }
  | .awaitRun =>
      if s.run then (s.loop.step .loop).map fun loop => { s with loop, thread := .looping }
      else none
  | .looping =>
      if s.loop.phase = .outside ∧ s.loop.Idle then some { s with thread := .resetLoop } else none
  | .resetLoop => some { s with hasLoop := false, thread := .exited }
  | .exited => none

def leaveRun (s : EventLoopThread ι φ) (t : ι) (destroys : Bool) : EventLoopThread ι φ :=
  if destroys then s.put t .copyLoop else { s.put t .outside with inside := s.inside.erase t }

def advance (s : EventLoopThread ι φ) (t : ι) : Option (EventLoopThread ι φ) :=
  match s.pc t with
  | .outside => none
  | .callOnce destroys =>
      match s.once with
      | .fresh => some { s.put t (.setRun destroys) with once := .busy t }
      | .busy _ => none
      | .done => some (s.leaveRun t destroys)
  | .setRun destroys => some { s.put t (.awaitLoop destroys) with run := true }
  | .awaitLoop destroys =>
      if s.ready then some { s.leaveRun t destroys with once := .done } else none
  | .copyLoop => some (s.put t (if s.hasLoop then .quit else .joinTest))
  | .quit => (s.loop.step .quit).map fun loop => { s.put t .quitWakeup with loop }
  | .quitWakeup => (s.loop.step .write).map fun loop => { s.put t .joinTest with loop }
  | .joinTest =>
      some (if s.joined then { s.put t .outside with destroyed := true }
        else { s.put t (.join true) with joined := true })
  | .join destroys =>
      if s.thread = .exited then
        some { s.put t .outside with
          inside := s.inside.erase t
          destroyed := s.destroyed || destroys }
      else none

/-- A thread may call a function of the object. -/
def Callable (s : EventLoopThread ι φ) (t : ι) : Prop :=
  s.constructed = true ∧ s.destructor = none ∧ s.pc t = .outside ∧ t ≠ s.loop.loopThread

instance (s : EventLoopThread ι φ) (t : ι) : Decidable (s.Callable t) :=
  inferInstanceAs (Decidable (_ ∧ _))

/-- On the loop thread the users' code runs in `loop()` only. -/
def MayUse (s : EventLoopThread ι φ) : Wakeup.Action ι (Functor φ) → Prop
  | .exchange t _ _ => t = s.loop.loopThread → s.thread = .looping
  | _ => True

instance (s : EventLoopThread ι φ) (a : Wakeup.Action ι (Functor φ)) : Decidable (s.MayUse a) :=
  match a with
  | .exchange t _ _ => inferInstanceAs (Decidable (t = s.loop.loopThread → s.thread = .looping))
  | .store _ | .wakeup _ | .loop | .test | .pollReturns _ | .wakeupRead | .handled | .checkEmpty
  | .dequeue | .functorReturns | .quit | .write => isTrue trivial

def step (s : EventLoopThread ι φ) : Action ι φ → Option (EventLoopThread ι φ)
  | .thread node => s.advanceThread node
  | .loop a =>
      if s.thread = .looping ∧ cycles a then
        (s.loop.step a).map fun loop => { s with loop, ready := s.ready || runsReady s.loop a }
      else none
  | .construct =>
      if s.loopPointer ∧ s.constructed = false then
        some { s with constructed := true, hasLoop := true }
      else none
  | .run t =>
      if s.Callable t then some { s.put t (.callOnce false) with inside := t :: s.inside } else none
  | .wait t =>
      if s.Callable t ∧ s.joined = false then
        some { s.put t (.join false) with inside := t :: s.inside, joined := true }
      else none
  | .destroy t =>
      if s.Callable t ∧ s.inside = [] then
        some { s.put t (.callOnce true) with destructor := some t }
      else none
  | .advance t => s.advance t
  | .use a =>
      if s.constructed ∧ uses a ∧ s.MayUse a then (s.loop.step a).map fun loop => { s with loop }
      else none

end EventLoopThread

end Model

section Loop

variable {ι φ : Type*} [DecidableEq ι] {L : ι} {loop loop' : EventLoop ι (Functor φ)}
  {thread : ThreadPc} {ready : Bool} {q : List (Entry ι (Func (Functor φ)))}
  {a : Wakeup.Action ι (Functor φ)}

theorem step_phase (hcycles : cycles a = false) (hloop : a ≠ .loop)
    (hstep : loop.step a = some loop') : loop'.phase = loop.phase := by
  have hturn := (step_turn hstep).2
  cases a with
  | loop => exact absurd rfl hloop
  | exchange | store | wakeup | quit | write => exact hturn.1
  | test | pollReturns | wakeupRead | handled | checkEmpty | dequeue | functorReturns => cases hcycles

theorem phase_of_running (ha : a ≠ .dequeue) (hstep : loop.step a = some loop')
    (hphase : loop'.phase = .running) : loop.phase = .running := by
  have hturn := (step_turn hstep).2
  cases a with
  | dequeue => exact absurd rfl ha
  | exchange | store | wakeup | quit | write => exact hturn.1.symm.trans hphase
  | test =>
      have hafter := hphase.symm.trans hturn.2.1
      split at hafter <;> cases hafter
  | checkEmpty => rcases hturn.2.1 with h | h <;> cases hphase.symm.trans h
  | loop | pollReturns | wakeupRead | handled | functorReturns => cases hphase.symm.trans hturn.2.1

theorem settled_of_settled (ha : a ≠ .checkEmpty) (hstep : loop.step a = some loop')
    (hsettled : loop'.phase.isSettled = true) :
    loop.phase.isSettled = true ∧ loop.wakeupFd ≤ loop'.wakeupFd := by
  have hturn := (step_turn hstep).2
  cases a with
  | checkEmpty => exact absurd rfl ha
  | exchange | store | quit => exact ⟨hturn.1 ▸ hsettled, Nat.le_of_eq hturn.2.2.symm⟩
  | wakeup | write => exact ⟨hturn.1 ▸ hsettled, hturn.2.2⟩
  | loop | test => exact ⟨by rw [hturn.1]; rfl, Nat.le_of_eq hturn.2.2.2.symm⟩
  | pollReturns | wakeupRead | handled | functorReturns =>
      rw [hturn.2.1] at hsettled
      cases hsettled
  | dequeue => rcases hturn.2.1 with h | h <;> rw [h] at hsettled <;> cases hsettled

def Others (q : List (Entry ι (Func (Functor φ)))) : Prop :=
  ∀ e ∈ q, e.item.functor.isReady = false

/-- The functor of `loopFuncs` is in the queue until the loop takes it, in front. -/
def Queued (L : ι) (thread : ThreadPc) (ready : Bool) (q : List (Entry ι (Func (Functor φ)))) :
    Prop :=
  if thread = .exchange ∨ ready = true then Others q
  else ∃ e rest, q = e :: rest ∧ e.item.functor.isReady = true ∧
    e.storing = (if thread = .store then some L else none) ∧ Others rest

structure LoopKept (L : ι) (loop : EventLoop ι (Functor φ)) (thread : ThreadPc) (ready : Bool) :
    Prop extends LoopProgress.Kept L loop where
  queued : ∃ q, loop.Sound q ∧ Queued L thread ready q
  initial : thread = .exchange → ∃ node, loop = .init L (Functor φ) node
  storing' : thread = .store → ∃ ticket, loop.calls L = some ⟨ticket, false⟩
  waking : thread = .wakeup → ∃ ticket, loop.calls L = some ⟨ticket, true⟩
  idle : thread = .setLoopPointer ∨ thread = .awaitRun → loop.Idle
  outside : thread ≠ .looping → loop.phase = .outside
  started : ready = true → thread = .looping ∨ thread = .resetLoop ∨ thread = .exited
  running : loop.phase = .running → ready = true
  readable : ready = false → thread.announces = false → loop.phase.isSettled = true →
    0 < loop.wakeupFd

omit [DecidableEq ι] in
theorem queued_of_pos (h : thread = .exchange ∨ ready = true) :
    Queued L thread ready q ↔ Others q := by
  rw [Queued, if_pos h]

omit [DecidableEq ι] in
theorem queued_of_neg (h : ¬(thread = .exchange ∨ ready = true)) :
    Queued L thread ready q ↔ ∃ e rest, q = e :: rest ∧ e.item.functor.isReady = true ∧
      e.storing = (if thread = .store then some L else none) ∧ Others rest := by
  rw [Queued, if_neg h]

theorem Others.store (h : Others q) (thread : ι) : Others (q.map (·.store thread)) := by
  intro e' he'
  obtain ⟨e, he, rfl⟩ := List.mem_map.mp he'
  rw [MpscQueue.store_item]
  exact h e he

omit [DecidableEq ι] in
theorem Others.concat (h : Others q) {e : Entry ι (Func (Functor φ))}
    (he : e.item.functor.isReady = false) : Others (q ++ [e]) := by
  intro e' he'
  rcases List.mem_append.mp he' with he' | he'
  · exact h e' he'
  · rw [List.mem_singleton.mp he']
    exact he

def newReady : Wakeup.Action ι (Functor φ) → Bool
  | .exchange _ functor _ => functor.isReady
  | _ => false

theorem Queued.step (h : Queued L thread ready q) (hsound : loop.Sound q)
    (hthread : thread.announces = false) (ha : a ≠ .dequeue) (hnew : newReady a = false)
    (hstep : loop.step a = some loop') : ∃ q', loop'.Sound q' ∧ Queued L thread ready q' := by
  have hstore : thread ≠ .store := by
    rintro rfl
    cases hthread
  by_cases hcase : thread = .exchange ∨ ready = true
  · have hothers := (queued_of_pos hcase).mp h
    rcases step_queue hsound ha hstep with h' | ⟨t, rfl, h'⟩ | ⟨t, functor, node, rfl, h'⟩
    · exact ⟨q, h', h⟩
    · exact ⟨_, h', (queued_of_pos hcase).mpr (hothers.store t)⟩
    · exact ⟨_, h', (queued_of_pos hcase).mpr (hothers.concat hnew)⟩
  · obtain ⟨e, rest, rfl, hready, hlinked, hothers⟩ := (queued_of_neg hcase).mp h
    have he : ∀ t, e.storing ≠ some t := by
      rw [hlinked, if_neg hstore]
      exact fun _ => nofun
    rcases step_queue hsound ha hstep with h' | ⟨t, rfl, h'⟩ | ⟨t, functor, node, rfl, h'⟩
    · exact ⟨_, h', h⟩
    · rw [List.map_cons, MpscQueue.store_of_ne (he t)] at h'
      refine ⟨_, h', (queued_of_neg hcase).mpr ?_⟩
      exact ⟨e, _, rfl, hready, hlinked, hothers.store t⟩
    · refine ⟨_, h', (queued_of_neg hcase).mpr ?_⟩
      exact ⟨e, _, rfl, hready, hlinked, hothers.concat hnew⟩

omit [DecidableEq ι] in
theorem Queued.moved (h : Queued L thread ready q) {thread' : ThreadPc}
    (hthread : thread.announces = false) (hthread' : thread'.announces = false) :
    Queued L thread' ready q := by
  have hne : ∀ thread : ThreadPc, thread.announces = false →
      thread ≠ .exchange ∧ thread ≠ .store := by
    intro thread h
    cases thread <;> cases h <;> decide
  obtain ⟨hexchange, hstore⟩ := hne thread hthread
  obtain ⟨hexchange', hstore'⟩ := hne thread' hthread'
  simpa only [Queued, hexchange, hstore, hexchange', hstore', false_or, if_false] using h

omit [DecidableEq ι] in
theorem init_loopKept (node : Addr) :
    LoopKept L (.init L (Functor φ) node) .exchange false where
  toKept := init_kept L node
  queued := ⟨[], EventLoop.init_sound L node, fun _ h => absurd h List.not_mem_nil⟩
  initial _ := ⟨node, rfl⟩
  storing' := nofun
  waking := nofun
  idle _ := rfl
  outside _ := rfl
  started := nofun
  running := nofun
  readable _ := nofun

theorem step_exchange {functor : Functor φ} {node : Addr}
    (hstep : loop.step (.exchange L functor node) = some loop') :
    ∃ funcs, loop' = { loop with
      funcs
      calls := Function.update loop.calls L (some ⟨loop.tickets, false⟩)
      tickets := loop.tickets + 1 } := by
  simp only [EventLoop.step, Option.ite_none_right_eq_some] at hstep
  obtain ⟨-, hstep⟩ := hstep
  obtain ⟨r, -, rfl⟩ := Option.map_eq_some_iff.mp hstep
  exact ⟨_, rfl⟩

theorem step_store {ticket : Nat} (hcall : loop.calls L = some ⟨ticket, false⟩)
    (hstep : loop.step (.store L) = some loop') :
    ∃ funcs, loop' = { loop with
      funcs
      calls := Function.update loop.calls L (some ⟨ticket, true⟩) } := by
  simp only [EventLoop.step, hcall] at hstep
  obtain ⟨r, -, rfl⟩ := Option.map_eq_some_iff.mp hstep
  exact ⟨_, rfl⟩

theorem step_start_iff :
    loop.step .loop = some loop' ↔ (loop.phase = .outside ∧ loop.Idle) ∧
      { loop with phase := .test, looping := true, quit := false } = loop' := by
  simp only [EventLoop.step, Option.ite_none_right_eq_some, Option.some.injEq]

theorem guard_of_dequeue (hstep : loop.step .dequeue = some loop') :
    loop.phase = .inner ∧ loop.Idle := by
  simp only [EventLoop.step, Option.ite_none_right_eq_some] at hstep
  exact hstep.1

namespace LoopKept

theorem exchange (h : LoopKept L loop .exchange ready) {node : Addr}
    (hstep : loop.step (.exchange L .ready node) = some loop') :
    LoopKept L loop' .store ready := by
  obtain ⟨q, hsound, hqueued⟩ := h.queued
  obtain ⟨node₀, rfl⟩ := h.initial rfl
  have hsound' := EventLoop.exchange_sound (EventLoop.init_sound L node₀) hstep
  have hready : ready = false := by
    cases ready with
    | false => rfl
    | true => exact absurd (h.started rfl) (by decide)
  subst hready
  have hkept := h.toKept.step hstep
  obtain ⟨funcs, rfl⟩ := step_exchange hstep
  refine ⟨hkept, ⟨_, hsound', ?_⟩, nofun, fun _ => ⟨_, Function.update_self _ _ _⟩, nofun, nofun,
    fun _ => rfl, nofun, nofun, fun _ => nofun⟩
  exact ⟨_, [], rfl, rfl, rfl, fun _ h => absurd h List.not_mem_nil⟩

theorem store (h : LoopKept L loop .store ready) (hstep : loop.step (.store L) = some loop') :
    LoopKept L loop' .wakeup ready := by
  obtain ⟨q, hsound, hqueued⟩ := h.queued
  have hsound' := EventLoop.store_sound hsound hstep
  have hkept := h.toKept.step hstep
  have hready : ready = false := by
    cases ready with
    | false => rfl
    | true => exact absurd (h.started rfl) (by decide)
  subst hready
  obtain ⟨e, rest, rfl, hready, hstoring, hothers⟩ := hqueued
  obtain ⟨ticket, hcall⟩ := h.storing' rfl
  obtain ⟨funcs, rfl⟩ := step_store hcall hstep
  refine ⟨hkept, ⟨_, hsound', ?_⟩, nofun, nofun, fun _ => ⟨_, Function.update_self _ _ _⟩, nofun,
    fun _ => h.outside nofun, nofun, h.running, fun _ => nofun⟩
  refine ⟨_, _, rfl, ?_, ?_, hothers.store L⟩
  · rw [MpscQueue.store_item]
    exact hready
  · exact congrArg Entry.storing (MpscQueue.store_of_eq hstoring)

theorem wakeup (h : LoopKept L loop .wakeup ready) (hstep : loop.step (.wakeup L) = some loop') :
    LoopKept L loop' .setLoopPointer ready := by
  obtain ⟨q, hsound, hqueued⟩ := h.queued
  have hsound' := EventLoop.wakeup_sound hsound hstep
  have hkept := h.toKept.step hstep
  have hready : ready = false := by
    cases ready with
    | false => rfl
    | true => exact absurd (h.started rfl) (by decide)
  subst hready
  obtain ⟨ticket, hcall⟩ := h.waking rfl
  obtain rfl := Option.some.inj ((step_wakeup hcall).symm.trans hstep)
  refine ⟨hkept, ⟨q, hsound', hqueued⟩, nofun, nofun, nofun, fun _ => ?_, fun _ => h.outside nofun,
    nofun, h.running, fun _ _ _ => ?_⟩
  · rw [EventLoop.Idle, hkept.loopThread]
    exact Function.update_self _ _ _
  · have hwrites : L ≠ loop.loopThread ∨ loop.looping = false :=
      .inr (hsound.outside (h.outside nofun))
    simp only [if_pos hwrites]
    exact Nat.succ_pos _

omit [DecidableEq ι] in
theorem setLoopPointer (h : LoopKept L loop .setLoopPointer ready) :
    LoopKept L loop .awaitRun ready where
  toKept := h.toKept
  queued := h.queued.imp fun _ hq => ⟨hq.1, hq.2.moved rfl rfl⟩
  initial := nofun
  storing' := nofun
  waking := nofun
  idle _ := h.idle (.inl rfl)
  outside _ := h.outside nofun
  started hready := absurd (h.started hready) (by decide)
  running := h.running
  readable hready _ := h.readable hready rfl

theorem loopStarts (h : LoopKept L loop .awaitRun ready) (hstep : loop.step .loop = some loop') :
    LoopKept L loop' .looping ready := by
  obtain ⟨q, hsound, hqueued⟩ := h.queued
  obtain ⟨q', hsound', hqueued'⟩ := hqueued.step hsound rfl (a := .loop) nofun rfl hstep
  have hkept := h.toKept.step hstep
  obtain ⟨⟨hphase, -⟩, rfl⟩ := step_start_iff.mp hstep
  refine ⟨hkept, ⟨q', hsound', hqueued'.moved rfl rfl⟩, nofun, nofun, nofun, nofun, nofun,
    fun _ => .inl rfl, nofun, fun hready _ _ => ?_⟩
  exact h.readable hready rfl (by rw [hphase]; rfl)

omit [DecidableEq ι] in
theorem loopReturns (h : LoopKept L loop .looping ready) (hphase : loop.phase = .outside) :
    LoopKept L loop .resetLoop ready where
  toKept := h.toKept
  queued := h.queued.imp fun _ hq => ⟨hq.1, hq.2.moved rfl rfl⟩
  initial := nofun
  storing' := nofun
  waking := nofun
  idle := nofun
  outside _ := hphase
  started _ := .inr (.inl rfl)
  running := h.running
  readable hready _ := h.readable hready rfl

omit [DecidableEq ι] in
theorem exits (h : LoopKept L loop .resetLoop ready) : LoopKept L loop .exited ready where
  toKept := h.toKept
  queued := h.queued.imp fun _ hq => ⟨hq.1, hq.2.moved rfl rfl⟩
  initial := nofun
  storing' := nofun
  waking := nofun
  idle := nofun
  outside _ := h.outside nofun
  started _ := .inr (.inr rfl)
  running := h.running
  readable hready _ := h.readable hready rfl

theorem step (h : LoopKept L loop thread ready) (hthread : thread.announces = false)
    (ha : a ≠ .dequeue) (hnew : newReady a = false)
    (hcycles : cycles a = true → thread = .looping)
    (hexchange : ∀ functor node, a = .exchange L functor node → thread = .looping)
    (hloop : a ≠ .loop) (hstep : loop.step a = some loop') : LoopKept L loop' thread ready := by
  obtain ⟨q, hsound, hqueued⟩ := h.queued
  have hkept := h.toKept.step hstep
  have hL := h.loopThread
  refine ⟨hkept, hqueued.step hsound hthread ha hnew hstep, ?_, ?_, ?_, ?_, ?_, h.started, ?_, ?_⟩
  · rintro rfl
    cases hthread
  · rintro rfl
    cases hthread
  · rintro rfl
    cases hthread
  · intro hawait
    have hne : thread ≠ .looping := by rcases hawait with rfl | rfl <;> decide
    have hidle : loop.calls L = none := hL ▸ h.idle hawait
    rw [EventLoop.Idle, hkept.loopThread]
    exact step_calls hidle (fun functor node heq => hne (hexchange functor node heq)) hstep
  · intro hne
    have hnot : cycles a = false := by
      by_contra hcycle
      exact hne (hcycles (Bool.not_eq_false _ ▸ hcycle))
    exact (step_phase hnot hloop hstep).trans (h.outside hne)
  · exact fun hphase => h.running (phase_of_running ha hstep hphase)
  · intro hready _ hsettled
    have hfd := h.readable hready hthread
    by_cases hempty : a = .checkEmpty
    · subst hempty
      obtain rfl := hcycles rfl
      rw [queued_of_neg (by rw [hready]; decide)] at hqueued
      obtain ⟨e, rest, rfl, -, hlinked, -⟩ := hqueued
      have hguard : loop.phase = .outer ∧ loop.Idle := by
        simp only [EventLoop.step, Option.ite_none_right_eq_some] at hstep
        exact hstep.1
      obtain ⟨funcs, hstep', -⟩ := step_checkEmpty_linked hsound hlinked hguard.1 hguard.2
      obtain rfl := Option.some.inj (hstep.symm.trans hstep')
      cases hsettled
    · obtain ⟨hbefore, hle⟩ := settled_of_settled hempty hstep hsettled
      exact Nat.lt_of_lt_of_le (hfd hbefore) hle

theorem dequeue (h : LoopKept L loop .looping ready) (hstep : loop.step .dequeue = some loop') :
    EventLoopThread.runsReady loop .dequeue = !ready ∧ LoopKept L loop' .looping true := by
  obtain ⟨q, hsound, hqueued⟩ := h.queued
  have hkept := h.toKept.step hstep
  have hguard := guard_of_dequeue hstep
  have htaken : ∀ q', loop'.Sound q' → Others q' → LoopKept L loop' .looping true :=
    fun q' hsound' hothers' => ⟨hkept, ⟨q', hsound', (queued_of_pos (.inr rfl)).mpr hothers'⟩, nofun,
      nofun, nofun, nofun, nofun, fun _ => .inl rfl, fun _ => rfl, nofun⟩
  cases ready with
  | false =>
      obtain ⟨e, rest, rfl, hready, hlinked, hothers⟩ := (queued_of_neg (by decide)).mp hqueued
      obtain ⟨funcs, hfuncs, hstep', hsound'⟩ :=
        step_dequeue_linked hsound hlinked hguard.1 hguard.2
      obtain rfl := Option.some.inj (hstep.symm.trans hstep')
      refine ⟨?_, htaken rest hsound' hothers⟩
      simp only [EventLoopThread.runsReady, hfuncs, hready]
      rfl
  | true =>
      have hothers := (queued_of_pos (.inr rfl)).mp hqueued
      by_cases hq : Blocked q
      · obtain ⟨funcs, hfuncs, hstep', hsound'⟩ :=
          step_dequeue_blocked hsound hq hguard.1 hguard.2
        obtain rfl := Option.some.inj (hstep.symm.trans hstep')
        refine ⟨?_, htaken q hsound' hothers⟩
        simp only [EventLoopThread.runsReady, hfuncs]
        rfl
      · cases q with
        | nil => exact absurd trivial hq
        | cons e rest =>
            obtain ⟨funcs, hfuncs, hstep', hsound'⟩ :=
              step_dequeue_linked hsound (not_not.mp hq) hguard.1 hguard.2
            obtain rfl := Option.some.inj (hstep.symm.trans hstep')
            refine ⟨?_, htaken rest hsound' fun e he => hothers e (List.mem_cons_of_mem _ he)⟩
            simp only [EventLoopThread.runsReady, hfuncs, hothers e List.mem_cons_self]
            rfl

end LoopKept

end Loop

section Users

def Pc.calls : Pc → Bool
  | .setRun _ | .awaitLoop _ => true
  | _ => false

def Pc.isInside : Pc → Bool
  | .callOnce destroys | .setRun destroys | .awaitLoop destroys | .join destroys => !destroys
  | _ => false

def Pc.destroys : Pc → Bool
  | .outside => false
  | .callOnce destroys | .setRun destroys | .awaitLoop destroys | .join destroys => destroys
  | _ => true

def Pc.hasRun : Pc → Bool
  | .copyLoop | .quit | .quitWakeup | .joinTest => true
  | .join destroys => destroys
  | _ => false

variable {ι φ : Type*} [DecidableEq ι] {L : ι} {s s' : EventLoopThread ι φ}

structure Kept (L : ι) (s : EventLoopThread ι φ) : Prop where
  loop : LoopKept L s.loop s.thread s.ready
  pointer : s.loopPointer = true → s.thread.announces = false ∧ s.thread ≠ .setLoopPointer
  constructed : s.constructed = true → s.loopPointer = true
  hasLoop : s.constructed = true → (s.hasLoop = true ↔ s.thread ≠ .exited)
  runs : s.thread = .looping ∨ s.thread = .resetLoop ∨ s.thread = .exited → s.run = true
  fresh : s.run = true → s.once ≠ .fresh
  done : s.once = .done → s.ready = true
  busy : ∀ t, s.once = .busy t ↔ (s.pc t).calls = true
  ran : s.run = true → s.constructed = true
  setRun : ∀ t destroys, s.pc t = .setRun destroys → s.run = false
  awaitLoop : ∀ t destroys, s.pc t = .awaitLoop destroys → s.run = true
  users : ∀ t, s.pc t ≠ .outside → s.constructed = true ∧ t ≠ L
  inside : ∀ t, t ∈ s.inside ↔ (s.pc t).isInside = true
  nodup : s.inside.Nodup
  destructor : ∀ t, (s.pc t).destroys = true ↔ s.destructor = some t ∧ s.destroyed = false
  alone : s.destructor ≠ none → s.inside = []
  hasRun : ∀ t, (s.pc t).hasRun = true → s.ready = true
  quitWakeup : ∀ t, s.pc t = .quitWakeup → s.thread = .looping → s.loop.quit = true
  quits : ∀ t, s.pc t = .joinTest ∨ s.pc t = .join true → s.thread = .looping → Leaving s.loop
  joined : s.joined = true → s.thread = .exited ∨ ∃ t destroys, s.pc t = .join destroys
  destroyed : s.destroyed = true → s.thread = .exited ∧ ∃ t, s.destructor = some t

omit [DecidableEq ι] in
theorem init_kept (L : ι) (node : Addr) : Kept L (.init L φ node) where
  loop := init_loopKept node
  pointer := nofun
  constructed := nofun
  hasLoop := nofun
  runs := nofun
  fresh := nofun
  done := nofun
  busy _ := ⟨nofun, nofun⟩
  ran := nofun
  setRun _ _ := nofun
  awaitLoop _ _ := nofun
  users _ h := absurd rfl h
  inside _ := ⟨fun h => absurd h List.not_mem_nil, nofun⟩
  nodup := List.nodup_nil
  destructor _ := ⟨nofun, nofun⟩
  alone _ := rfl
  hasRun _ := nofun
  quitWakeup _ := nofun
  quits _ h := by rcases h with h | h <;> cases h
  joined := nofun
  destroyed := nofun

omit [DecidableEq ι] in
theorem Kept.loops (h : Kept L s) {loop : EventLoop ι (Functor φ)} {ready : Bool}
    (hloop : LoopKept L loop s.thread ready) (hready : s.ready = true → ready = true)
    (hquit : s.loop.quit = true → loop.quit = true) (hleaving : Leaving s.loop → Leaving loop) :
    Kept L { s with loop, ready } :=
  { h with
    loop := hloop
    done := fun hdone => hready (h.done hdone)
    hasRun := fun t ht => hready (h.hasRun t ht)
    quitWakeup := fun t ht hthread => hquit (h.quitWakeup t ht hthread)
    quits := fun t ht hthread => hleaving (h.quits t ht hthread) }

theorem runsReady_eq_false {loop : EventLoop ι (Functor φ)} {a : Wakeup.Action ι (Functor φ)}
    (ha : a ≠ .dequeue) : EventLoopThread.runsReady loop a = false := by
  cases a with
  | dequeue => exact absurd rfl ha
  | _ => rfl

theorem loop_kept (h : Kept L s) {a : Wakeup.Action ι (Functor φ)}
    (hstep : s.step (.loop a) = some s') : Kept L s' := by
  simp only [EventLoopThread.step, Option.ite_none_right_eq_some] at hstep
  obtain ⟨⟨hthread, hcycles⟩, hstep⟩ := hstep
  obtain ⟨loop, hloop, rfl⟩ := Option.map_eq_some_iff.mp hstep
  have hne : a ≠ .loop := by
    rintro rfl
    cases hcycles
  have hquit : s.loop.quit = true → loop.quit = true :=
    fun hquit => (step_quit hloop).mpr (.inr ⟨hquit, hne⟩)
  refine h.loops ?_ (fun hready => by rw [hready]; rfl) hquit fun hl => step_leaving hl hne hloop
  have hkept := h.loop
  rw [hthread] at hkept ⊢
  by_cases hdequeue : a = .dequeue
  · subst hdequeue
    obtain ⟨hruns, hkept'⟩ := hkept.dequeue hloop
    rw [hruns, Bool.or_not_self]
    exact hkept'
  · rw [runsReady_eq_false hdequeue, Bool.or_false]
    refine hkept.step rfl hdequeue ?_ (fun _ => rfl) (fun _ _ _ => rfl) hne hloop
    cases a <;> cases hcycles <;> rfl

theorem use_kept (h : Kept L s) {a : Wakeup.Action ι (Functor φ)}
    (hstep : s.step (.use a) = some s') : Kept L s' := by
  simp only [EventLoopThread.step, Option.ite_none_right_eq_some] at hstep
  obtain ⟨⟨hconstructed, huses, hmay⟩, hstep⟩ := hstep
  obtain ⟨loop, hloop, rfl⟩ := Option.map_eq_some_iff.mp hstep
  have hne : a ≠ .loop := by
    rintro rfl
    cases huses
  have hquit : s.loop.quit = true → loop.quit = true :=
    fun hquit => (step_quit hloop).mpr (.inr ⟨hquit, hne⟩)
  refine h.loops ?_ id hquit fun hl => step_leaving hl hne hloop
  refine h.loop.step (h.pointer (h.constructed hconstructed)).1 ?_ ?_ ?_ ?_ hne hloop
  · rintro rfl
    cases huses
  · cases a with
    | exchange t functor node => exact Bool.not_eq_true' _ ▸ huses
    | _ => rfl
  · intro hcycles
    cases a <;> cases hcycles <;> cases huses
  · rintro functor node rfl
    exact hmay h.loop.loopThread.symm

omit [DecidableEq ι] in
theorem Kept.moves (h : Kept L s) {loop : EventLoop ι (Functor φ)} {thread : ThreadPc}
    {loopPointer hasLoop : Bool} (hexited : s.thread ≠ .exited)
    (hloop : LoopKept L loop thread s.ready)
    (hpointer : s.loopPointer = true → loopPointer = true)
    (hafter : loopPointer = true → thread.announces = false ∧ thread ≠ .setLoopPointer)
    (hhasLoop : s.constructed = true → (hasLoop = true ↔ thread ≠ .exited))
    (hruns : thread = .looping ∨ thread = .resetLoop ∨ thread = .exited → s.run = true)
    (hready : thread = .looping → s.ready = false) :
    Kept L { s with loop, thread, loopPointer, hasLoop } :=
  { h with
    loop := hloop
    pointer := hafter
    constructed := fun hconstructed => hpointer (h.constructed hconstructed)
    hasLoop := hhasLoop
    runs := hruns
    quitWakeup := by
      intro t ht hthread
      have hran := h.hasRun t (by rw [ht]; rfl)
      rw [hready hthread] at hran
      cases hran
    quits := by
      intro t ht hthread
      have hran := h.hasRun t (by rcases ht with ht | ht <;> rw [ht] <;> rfl)
      rw [hready hthread] at hran
      cases hran
    joined := fun hjoined => .inr ((h.joined hjoined).resolve_left hexited)
    destroyed := fun hdestroyed => absurd (h.destroyed hdestroyed).1 hexited }

theorem thread_kept (h : Kept L s) {node : Addr} (hstep : s.step (.thread node) = some s') :
    Kept L s' := by
  have hloop := h.loop
  have hL := hloop.loopThread
  have hearly : s.loopPointer = false → s.constructed = false := by
    intro hpointer
    by_contra hconstructed
    have := h.constructed (Bool.not_eq_false _ ▸ hconstructed)
    rw [hpointer] at this
    cases this
  have hpointer : s.thread.announces = true ∨ s.thread = .setLoopPointer →
      s.loopPointer = false := by
    intro hthread
    by_contra hcon
    obtain ⟨hannounces, hne⟩ := h.pointer (Bool.not_eq_false _ ▸ hcon)
    rcases hthread with hthread | hthread
    · rw [hannounces] at hthread
      cases hthread
    · exact hne hthread
  have hhasLoop : s.thread ≠ .exited → s.constructed = true → s.hasLoop = true :=
    fun hne hconstructed => (h.hasLoop hconstructed).mpr hne
  simp only [EventLoopThread.step, EventLoopThread.advanceThread] at hstep
  split at hstep <;> rename_i hthread <;> rw [hthread] at hloop
  · obtain ⟨loop, hexchange, rfl⟩ := Option.map_eq_some_iff.mp hstep
    rw [hL] at hexchange
    have hnone := hpointer (.inl (by rw [hthread]; rfl))
    refine h.moves (by rw [hthread]; decide) (hloop.exchange hexchange) id ?_ ?_ nofun nofun
    · rw [hnone]; exact nofun
    · rw [hearly hnone]; exact nofun
  · obtain ⟨loop, hstore, rfl⟩ := Option.map_eq_some_iff.mp hstep
    rw [hL] at hstore
    have hnone := hpointer (.inl (by rw [hthread]; rfl))
    refine h.moves (by rw [hthread]; decide) (hloop.store hstore) id ?_ ?_ nofun nofun
    · rw [hnone]; exact nofun
    · rw [hearly hnone]; exact nofun
  · obtain ⟨loop, hwakeup, rfl⟩ := Option.map_eq_some_iff.mp hstep
    rw [hL] at hwakeup
    have hnone := hpointer (.inl (by rw [hthread]; rfl))
    refine h.moves (by rw [hthread]; decide) (hloop.wakeup hwakeup) id ?_ ?_ nofun nofun
    · rw [hnone]; exact nofun
    · rw [hearly hnone]; exact nofun
  · obtain rfl := Option.some.inj hstep
    have hnone := hpointer (.inr hthread)
    refine h.moves (by rw [hthread]; decide) hloop.setLoopPointer (fun _ => rfl)
      (fun _ => by decide) ?_ nofun nofun
    rw [hearly hnone]; exact nofun
  · split at hstep <;> rename_i hrun
    · obtain ⟨loop, hstart, rfl⟩ := Option.map_eq_some_iff.mp hstep
      refine h.moves (by rw [hthread]; decide) (hloop.loopStarts hstart) id (fun _ => by decide) ?_
        (fun _ => hrun) fun _ => ?_
      · exact fun hc => iff_of_true (hhasLoop (by rw [hthread]; decide) hc) (by decide)
      · by_contra hready
        exact absurd (hloop.started (Bool.not_eq_false _ ▸ hready)) (by decide)
    · cases hstep
  · split at hstep <;> rename_i hreturns
    · obtain rfl := Option.some.inj hstep
      refine h.moves (by rw [hthread]; decide) (hloop.loopReturns hreturns.1) id
        (fun _ => by decide) ?_ (fun _ => h.runs (.inl hthread)) nofun
      exact fun hc => iff_of_true (hhasLoop (by rw [hthread]; decide) hc) (by decide)
    · cases hstep
  · obtain rfl := Option.some.inj hstep
    exact h.moves (by rw [hthread]; decide) hloop.exits id (fun _ => by decide)
      (fun _ => iff_of_false (by decide) (by decide)) (fun _ => h.runs (.inr (.inl hthread))) nofun
  · cases hstep

theorem construct_kept (h : Kept L s) (hstep : s.step .construct = some s') : Kept L s' := by
  simp only [EventLoopThread.step, Option.ite_none_right_eq_some, Option.some.injEq] at hstep
  obtain ⟨⟨hpointer, hconstructed⟩, rfl⟩ := hstep
  have hthread : s.thread ≠ .exited := by
    intro hthread
    have := h.ran (h.runs (.inr (.inr hthread)))
    rw [hconstructed] at this
    cases this
  exact { h with
    constructed := fun _ => hpointer
    hasLoop := fun _ => iff_of_true rfl hthread
    ran := fun _ => rfl
    users := fun t ht => ⟨rfl, (h.users t ht).2⟩ }

structure Place (L : ι) (s : EventLoopThread ι φ) (t : ι) (pc : Pc) : Prop where
  busy : s.once = .busy t ↔ pc.calls = true
  setRun : ∀ destroys, pc = .setRun destroys → s.run = false
  awaitLoop : ∀ destroys, pc = .awaitLoop destroys → s.run = true
  users : pc ≠ .outside → s.constructed = true ∧ t ≠ L
  inside : t ∈ s.inside ↔ pc.isInside = true
  destructor : pc.destroys = true ↔ s.destructor = some t ∧ s.destroyed = false
  hasRun : pc.hasRun = true → s.ready = true
  quitWakeup : pc = .quitWakeup → s.thread = .looping → s.loop.quit = true
  quits : pc = .joinTest ∨ pc = .join true → s.thread = .looping → Leaving s.loop

omit [DecidableEq ι] in
theorem Kept.place (h : Kept L s) {t : ι} {pc : Pc} (hpc : s.pc t = pc) : Place L s t pc := by
  subst hpc
  exact ⟨h.busy t, h.setRun t, h.awaitLoop t, h.users t, h.inside t, h.destructor t, h.hasRun t,
    h.quitWakeup t, h.quits t⟩

theorem Pc.not_quits {pc : Pc} (h : pc.hasRun = false) : ¬(pc = .joinTest ∨ pc = .join true) := by
  rintro (rfl | rfl) <;> cases h

theorem Kept.put (h : Kept L s) {t : ι} {p : Pc}
    (hframe : s' = { s with
      pc := Function.update s.pc t p
      run := s'.run
      once := s'.once
      inside := s'.inside
      destructor := s'.destructor
      joined := s'.joined
      destroyed := s'.destroyed })
    (hplace : Place L s' t p) (hothers : ∀ u ≠ t, Place L s u (s.pc u) → Place L s' u (s.pc u))
    (hrun : s.run = true → s'.run = true) (hran : s'.run = true → s.constructed = true)
    (hfresh : s'.run = true → s'.once ≠ .fresh) (hdone : s'.once = .done → s.ready = true)
    (hnodup : s'.inside.Nodup) (halone : s'.destructor ≠ none → s'.inside = [])
    (hjoined : s'.joined = true → s.thread = .exited ∨ (∃ destroys, p = .join destroys) ∨
      s.joined = true ∧ ∀ destroys, s.pc t ≠ .join destroys)
    (hdestroyed : s'.destroyed = true → s.thread = .exited ∧ ∃ u, s'.destructor = some u) :
    Kept L s' := by
  have hpc : s'.pc = Function.update s.pc t p := congrArg EventLoopThread.pc hframe
  have hloop : s'.loop = s.loop :=
    (congrArg EventLoopThread.loop hframe).trans rfl
  have hthread : s'.thread = s.thread :=
    (congrArg EventLoopThread.thread hframe).trans rfl
  have hready : s'.ready = s.ready :=
    (congrArg EventLoopThread.ready hframe).trans rfl
  have hpointer : s'.loopPointer = s.loopPointer :=
    (congrArg EventLoopThread.loopPointer hframe).trans rfl
  have hconstructed : s'.constructed = s.constructed :=
    (congrArg EventLoopThread.constructed hframe).trans rfl
  have hhasLoop : s'.hasLoop = s.hasLoop :=
    (congrArg EventLoopThread.hasLoop hframe).trans rfl
  have hplaces : ∀ u, Place L s' u (s'.pc u) := by
    intro u
    rw [hpc]
    rcases eq_or_ne u t with rfl | hne
    · rw [Function.update_self]
      exact hplace
    · rw [Function.update_of_ne hne]
      exact hothers u hne (h.place rfl)
  refine ⟨?_, ?_, ?_, ?_, ?_, hfresh, ?_, fun u => (hplaces u).busy, ?_, fun u => (hplaces u).setRun,
    fun u => (hplaces u).awaitLoop, fun u => (hplaces u).users, fun u => (hplaces u).inside, hnodup,
    fun u => (hplaces u).destructor, halone, fun u => (hplaces u).hasRun,
    fun u => (hplaces u).quitWakeup, fun u => (hplaces u).quits, ?_, ?_⟩
  · rw [hloop, hthread, hready]
    exact h.loop
  · rw [hpointer, hthread]
    exact h.pointer
  · rw [hconstructed, hpointer]
    exact h.constructed
  · rw [hconstructed, hhasLoop, hthread]
    exact h.hasLoop
  · rw [hthread]
    exact fun hthread => hrun (h.runs hthread)
  · rw [hready]
    exact hdone
  · rw [hconstructed]
    exact hran
  · intro hjoin
    rw [hthread, hpc]
    rcases hjoined hjoin with hexited | ⟨destroys, rfl⟩ | ⟨hbefore, hne⟩
    · exact .inl hexited
    · exact .inr ⟨t, destroys, Function.update_self ..⟩
    · refine (h.joined hbefore).imp_right ?_
      rintro ⟨u, destroys, hu⟩
      refine ⟨u, destroys, (Function.update_of_ne ?_ ..).trans hu⟩
      rintro rfl
      exact hne destroys hu
  · rw [hthread]
    exact hdestroyed

theorem run_kept (h : Kept L s) {t : ι} (hstep : s.step (.run t) = some s') : Kept L s' := by
  simp only [EventLoopThread.step, Option.ite_none_right_eq_some, Option.some.injEq] at hstep
  obtain ⟨⟨hconstructed, hdestructor, hpc, hne⟩, rfl⟩ := hstep
  rw [h.loop.loopThread] at hne
  have hplace := h.place hpc
  have hout : t ∉ s.inside := fun hmem => nomatch hplace.inside.mp hmem
  refine h.put (t := t) rfl ?_ ?_ id h.ran h.fresh h.done (List.nodup_cons.mpr ⟨hout, h.nodup⟩)
    (absurd hdestructor) (fun hjoined => .inr (.inr ⟨hjoined, by rw [hpc]; nofun⟩)) h.destroyed
  · exact { hplace with
      setRun := nofun
      awaitLoop := nofun
      users := fun _ => ⟨hconstructed, hne⟩
      inside := iff_of_true List.mem_cons_self rfl
      quitWakeup := nofun
      quits := fun hquits => absurd hquits (Pc.not_quits rfl) }
  · intro u hu hplace
    exact { hplace with inside := List.mem_cons.trans ((or_iff_right hu).trans hplace.inside) }

theorem wait_kept (h : Kept L s) {t : ι} (hstep : s.step (.wait t) = some s') : Kept L s' := by
  simp only [EventLoopThread.step, Option.ite_none_right_eq_some, Option.some.injEq] at hstep
  obtain ⟨⟨⟨hconstructed, hdestructor, hpc, hne⟩, hjoined⟩, rfl⟩ := hstep
  rw [h.loop.loopThread] at hne
  have hplace := h.place hpc
  have hout : t ∉ s.inside := fun hmem => nomatch hplace.inside.mp hmem
  refine h.put (t := t) rfl ?_ ?_ id h.ran h.fresh h.done (List.nodup_cons.mpr ⟨hout, h.nodup⟩)
    (absurd hdestructor) (fun _ => .inr (.inl ⟨false, rfl⟩)) h.destroyed
  · exact { hplace with
      setRun := nofun
      awaitLoop := nofun
      users := fun _ => ⟨hconstructed, hne⟩
      inside := iff_of_true List.mem_cons_self rfl
      quitWakeup := nofun
      quits := fun hquits => absurd hquits (by rintro (hpc | hpc) <;> cases hpc) }
  · intro u hu hplace
    exact { hplace with inside := List.mem_cons.trans ((or_iff_right hu).trans hplace.inside) }

theorem destroy_kept (h : Kept L s) {t : ι} (hstep : s.step (.destroy t) = some s') :
    Kept L s' := by
  simp only [EventLoopThread.step, Option.ite_none_right_eq_some, Option.some.injEq] at hstep
  obtain ⟨⟨⟨hconstructed, hdestructor, hpc, hne⟩, hinside⟩, rfl⟩ := hstep
  rw [h.loop.loopThread] at hne
  have hplace := h.place hpc
  have hdestroyed : s.destroyed = false := by
    by_contra hdestroyed
    obtain ⟨-, u, hu⟩ := h.destroyed (Bool.not_eq_false _ ▸ hdestroyed)
    rw [hdestructor] at hu
    cases hu
  refine h.put (t := t) rfl ?_ ?_ id h.ran h.fresh h.done h.nodup (fun _ => hinside)
    (fun hjoined => .inr (.inr ⟨hjoined, by rw [hpc]; nofun⟩)) ?_
  · exact { hplace with
      setRun := nofun
      awaitLoop := nofun
      users := fun _ => ⟨hconstructed, hne⟩
      destructor := iff_of_true rfl ⟨rfl, hdestroyed⟩
      quitWakeup := nofun
      quits := fun hquits => absurd hquits (by rintro (hpc | hpc) <;> cases hpc) }
  · intro u hu hplace
    refine { hplace with destructor := hplace.destructor.trans (iff_of_false ?_ ?_) }
    · rw [hdestructor]
      exact fun hboth => nomatch hboth.1
    · exact fun hboth => hu (Option.some.inj hboth.1).symm
  · exact fun hafter => nomatch hdestroyed.symm.trans hafter

theorem callOnce_kept (h : Kept L s) {t : ι} {destroys : Bool} (hpc : s.pc t = .callOnce destroys)
    (honce : s.once = .fresh) :
    Kept L { s.put t (.setRun destroys) with once := .busy t } := by
  have hplace := h.place hpc
  have hrun : s.run = false := by
    by_contra hrun
    exact h.fresh (Bool.not_eq_false _ ▸ hrun) honce
  refine h.put (t := t) rfl ?_ ?_ id h.ran nofun nofun h.nodup h.alone
    (fun hjoined => .inr (.inr ⟨hjoined, by rw [hpc]; nofun⟩)) h.destroyed
  · exact { hplace with
      busy := iff_of_true rfl rfl
      setRun := fun _ _ => hrun
      awaitLoop := nofun
      users := fun _ => hplace.users nofun
      hasRun := nofun
      quitWakeup := nofun
      quits := fun hquits => absurd hquits (by rintro (hpc | hpc) <;> cases hpc) }
  · intro u hu hplace
    refine { hplace with busy := iff_of_false ?_ ?_ }
    · exact fun hbusy => hu (Once.busy.inj hbusy).symm
    · rw [← hplace.busy, honce]
      exact nofun

theorem setRun_kept (h : Kept L s) {t : ι} {destroys : Bool} (hpc : s.pc t = .setRun destroys) :
    Kept L { s.put t (.awaitLoop destroys) with run := true } := by
  have hplace := h.place hpc
  have hbusy : s.once = .busy t := hplace.busy.mpr rfl
  refine h.put (t := t) rfl ?_ ?_ (fun _ => rfl) (fun _ => (hplace.users nofun).1) (fun _ => ?_)
    h.done h.nodup h.alone (fun hjoined => .inr (.inr ⟨hjoined, by rw [hpc]; nofun⟩)) h.destroyed
  · exact { hplace with
      setRun := nofun
      awaitLoop := fun _ _ => rfl
      users := fun _ => hplace.users nofun
      hasRun := nofun
      quitWakeup := nofun
      quits := fun hquits => absurd hquits (by rintro (hpc | hpc) <;> cases hpc) }
  · intro u hu hplace
    refine { hplace with setRun := fun d hd => ?_, awaitLoop := fun _ _ => rfl }
    have hbusy' := hplace.busy.mpr (by rw [hd]; rfl)
    exact absurd (Once.busy.inj (hbusy'.symm.trans hbusy)) hu
  · exact fun hfresh => nomatch hbusy.symm.trans hfresh

theorem leaveRun_kept (h : Kept L s) {t : ι} {destroys : Bool}
    (hpc : s.pc t = .callOnce destroys ∧ s.once = .done ∨ s.pc t = .awaitLoop destroys)
    (hready : s.ready = true) : Kept L { s.leaveRun t destroys with once := .done } := by
  have hplace : Place L s t (s.pc t) := h.place rfl
  have hnot : ∀ d, s.pc t ≠ .join d := by
    rcases hpc with ⟨hpc, -⟩ | hpc <;> rw [hpc] <;> exact fun _ => nofun
  have husers := hplace.users (by rcases hpc with ⟨hpc, -⟩ | hpc <;> rw [hpc] <;> nofun)
  have hinside : t ∈ s.inside ↔ destroys = false := by
    rw [hplace.inside]
    rcases hpc with ⟨hpc, -⟩ | hpc <;> rw [hpc] <;> cases destroys <;> decide
  have hdestructor : destroys = true ↔ s.destructor = some t ∧ s.destroyed = false := by
    rw [← hplace.destructor]
    rcases hpc with ⟨hpc, -⟩ | hpc <;> rw [hpc] <;> rfl
  have honly : ∀ u ≠ t, s.once ≠ .busy u := by
    intro u hu hbusy
    rcases hpc with ⟨-, honce⟩ | hpc
    · rw [honce] at hbusy
      cases hbusy
    · have hbusy' := (h.place hpc).busy.mpr rfl
      exact hu (Once.busy.inj (hbusy.symm.trans hbusy'))
  have hbusy : ∀ u ≠ t, (Once.done : Once ι) = .busy u ↔ (s.pc u).calls = true := by
    intro u hu
    refine iff_of_false nofun ?_
    rw [← h.busy u]
    exact honly u hu
  cases destroys with
  | true =>
      refine h.put (t := t) (p := .copyLoop) rfl ?_ ?_ id h.ran (fun _ => nofun) (fun _ => hready)
        h.nodup h.alone (fun hjoined => .inr (.inr ⟨hjoined, hnot⟩)) h.destroyed
      · exact ⟨iff_of_false nofun nofun, nofun, nofun, fun _ => husers,
          iff_of_false (fun hmem => nomatch hinside.mp hmem) nofun, hdestructor, fun _ => hready,
          nofun, fun hquits => absurd hquits (by rintro (hpc | hpc) <;> cases hpc)⟩
      · intro u hu hplace
        exact { hplace with busy := hbusy u hu }
  | false =>
      refine h.put (t := t) (p := .outside) rfl ?_ ?_ id h.ran (fun _ => nofun) (fun _ => hready)
        (h.nodup.erase t) (fun hne => ?_) (fun hjoined => .inr (.inr ⟨hjoined, hnot⟩)) h.destroyed
      · exact ⟨iff_of_false nofun nofun, nofun, nofun, absurd rfl,
          iff_of_false h.nodup.not_mem_erase nofun, hdestructor, nofun, nofun,
          fun hquits => absurd hquits (by rintro (hpc | hpc) <;> cases hpc)⟩
      · intro u hu hplace
        exact { hplace with
          busy := hbusy u hu
          inside := (List.mem_erase_of_ne hu).trans hplace.inside }
      · have hnil : s.inside = [] := h.alone hne
        exact congrArg (·.erase t) hnil

theorem leaveRun_once (s : EventLoopThread ι φ) (t : ι) (destroys : Bool) :
    (s.leaveRun t destroys).once = s.once := by
  cases destroys <;> rfl

theorem Pc.place_of_hasRun {pc : Pc} (h : pc.hasRun = true)
    (hjoin : ∀ destroys, pc ≠ .join destroys) :
    pc.calls = false ∧ pc.isInside = false ∧ pc.destroys = true ∧ pc ≠ .outside := by
  cases pc with
  | join destroys => exact absurd rfl (hjoin destroys)
  | outside | callOnce _ | setRun _ | awaitLoop _ => cases h
  | copyLoop | quit | quitWakeup | joinTest => exact ⟨rfl, rfl, rfl, nofun⟩

theorem put_kept (h : Kept L s) {t : ι} (pc : Pc)
    (hpc : (s.pc t).hasRun = true ∧ ∀ destroys, s.pc t ≠ .join destroys)
    (hpc' : pc.hasRun = true ∧ ∀ destroys, pc ≠ .join destroys)
    (hquitWakeup : pc = .quitWakeup → s.thread = .looping → s.loop.quit = true)
    (hjoinTest : pc = .joinTest → s.thread = .looping → Leaving s.loop) : Kept L (s.put t pc) := by
  have hplace := h.place (t := t) rfl
  obtain ⟨hcalls, hinside, hdestroys, houtside⟩ := Pc.place_of_hasRun hpc.1 hpc.2
  obtain ⟨hcalls', hinside', hdestroys', -⟩ := Pc.place_of_hasRun hpc'.1 hpc'.2
  refine h.put (t := t) rfl ?_ (fun _ _ hother => { hother with }) id h.ran h.fresh h.done h.nodup
    h.alone (fun hjoined => .inr (.inr ⟨hjoined, hpc.2⟩)) h.destroyed
  refine ⟨?_, ?_, ?_, fun _ => hplace.users houtside, ?_, ?_, fun _ => hplace.hasRun hpc.1,
    hquitWakeup, ?_⟩
  · rw [hcalls', ← hcalls]
    exact hplace.busy
  · rintro destroys rfl
    cases hpc'.1
  · rintro destroys rfl
    cases hpc'.1
  · rw [hinside', ← hinside]
    exact hplace.inside
  · have hdestructor := hplace.destructor
    rw [hdestroys] at hdestructor
    rw [hdestroys']
    exact hdestructor
  · rintro (hjoinTest' | hjoin)
    · exact hjoinTest hjoinTest'
    · exact absurd hjoin (hpc'.2 true)

theorem joinTest_kept (h : Kept L s) {t : ι} (hpc : s.pc t = .joinTest)
    (hjoined : s.joined = true) : Kept L { s.put t .outside with destroyed := true } := by
  have hexited : s.thread = .exited := by
    refine (h.joined hjoined).resolve_right ?_
    rintro ⟨t', destroys, ht'⟩
    have hdestructor := (h.destructor t).mp (by rw [hpc]; rfl)
    cases destroys with
    | false =>
        have hmem := (h.inside t').mpr (by rw [ht']; rfl)
        rw [h.alone (by rw [hdestructor.1]; exact nofun)] at hmem
        cases hmem
    | true =>
        have hdestructor' := (h.destructor t').mp (by rw [ht']; rfl)
        obtain rfl := Option.some.inj (hdestructor.1.symm.trans hdestructor'.1)
        rw [hpc] at ht'
        cases ht'
  have hplace := h.place hpc
  have hdestructor : s.destructor = some t := (hplace.destructor.mp rfl).1
  refine h.put (t := t) rfl ?_ ?_ id h.ran h.fresh h.done h.nodup h.alone
    (fun hjoined => .inr (.inr ⟨hjoined, by rw [hpc]; nofun⟩)) (fun _ => ⟨hexited, t, hdestructor⟩)
  · exact { hplace with
      setRun := nofun
      awaitLoop := nofun
      users := absurd rfl
      destructor := iff_of_false nofun fun hboth => nomatch hboth.2
      hasRun := nofun
      quitWakeup := nofun
      quits := fun hquits => absurd hquits (Pc.not_quits rfl) }
  · intro u hu hplace
    refine { hplace with destructor := iff_of_false ?_ fun hboth => nomatch hboth.2 }
    intro hdestroys
    have hsame := hdestructor.symm.trans (hplace.destructor.mp hdestroys).1
    exact hu (Option.some.inj hsame).symm

theorem joins_kept (h : Kept L s) {t : ι} (hpc : s.pc t = .joinTest) :
    Kept L { s.put t (.join true) with joined := true } := by
  have hplace := h.place hpc
  refine h.put (t := t) rfl ?_ (fun _ _ hother => { hother with }) id h.ran h.fresh h.done h.nodup
    h.alone (fun _ => .inr (.inl ⟨true, rfl⟩)) h.destroyed
  exact { hplace with
    setRun := nofun
    awaitLoop := nofun
    users := fun _ => hplace.users nofun
    quitWakeup := nofun
    quits := fun _ => hplace.quits (.inl rfl) }

theorem join_kept (h : Kept L s) {t : ι} {destroys : Bool} (hpc : s.pc t = .join destroys)
    (hexited : s.thread = .exited) :
    Kept L { s.put t .outside with
      inside := s.inside.erase t
      destroyed := s.destroyed || destroys } := by
  have hplace := h.place hpc
  refine h.put (t := t) rfl ?_ ?_ id h.ran h.fresh h.done (h.nodup.erase t) (fun hne => ?_)
    (fun _ => .inl hexited) (fun hdestroyed => ⟨hexited, ?_⟩)
  · refine { hplace with
      setRun := nofun
      awaitLoop := nofun
      users := absurd rfl
      inside := iff_of_false h.nodup.not_mem_erase nofun
      destructor := iff_of_false nofun ?_
      hasRun := nofun
      quitWakeup := nofun
      quits := fun hquits => absurd hquits (Pc.not_quits rfl) }
    rintro ⟨hdestructor, hneither⟩
    obtain ⟨hdestroyed, rfl⟩ := Bool.or_eq_false_iff.mp hneither
    cases hplace.destructor.mpr ⟨hdestructor, hdestroyed⟩
  · intro u hu hother
    refine { hother with
      inside := (List.mem_erase_of_ne hu).trans hother.inside
      destructor := ?_ }
    cases destroys with
    | false => exact (Bool.or_false s.destroyed).symm ▸ hother.destructor
    | true =>
        have hdestructor := (hplace.destructor.mp rfl).1
        refine iff_of_false (fun hdestroys => ?_) fun hboth => ?_
        · have hsame := hdestructor.symm.trans (hother.destructor.mp hdestroys).1
          exact hu (Option.some.inj hsame).symm
        · exact nomatch (Bool.or_eq_false_iff.mp hboth.2).2
  · have hnil : s.inside = [] := h.alone hne
    exact congrArg (·.erase t) hnil
  · rcases Bool.or_eq_true_iff.mp hdestroyed with hdestroyed | rfl
    · exact (h.destroyed hdestroyed).2
    · exact ⟨t, (hplace.destructor.mp rfl).1⟩

theorem advance_kept (h : Kept L s) {t : ι} (hstep : s.advance t = some s') : Kept L s' := by
  cases hpc : s.pc t with
  | outside =>
      simp only [EventLoopThread.advance, hpc] at hstep
      cases hstep
  | callOnce destroys =>
      simp only [EventLoopThread.advance, hpc] at hstep
      split at hstep <;> rename_i honce
      · obtain rfl := Option.some.inj hstep
        exact callOnce_kept h hpc honce
      · cases hstep
      · obtain rfl := Option.some.inj hstep
        have hkept := leaveRun_kept h (.inl ⟨hpc, honce⟩) (h.done honce)
        rw [← honce, ← leaveRun_once s t destroys] at hkept
        exact hkept
  | setRun destroys =>
      simp only [EventLoopThread.advance, hpc] at hstep
      obtain rfl := Option.some.inj hstep
      exact setRun_kept h hpc
  | awaitLoop destroys =>
      simp only [EventLoopThread.advance, hpc, Option.ite_none_right_eq_some] at hstep
      obtain ⟨hready, hstep⟩ := hstep
      obtain rfl := Option.some.inj hstep
      exact leaveRun_kept h (.inr hpc) hready
  | copyLoop =>
      simp only [EventLoopThread.advance, hpc] at hstep
      obtain rfl := Option.some.inj hstep
      have hran : (s.pc t).hasRun = true ∧ ∀ destroys, s.pc t ≠ .join destroys := by
        rw [hpc]
        exact ⟨rfl, fun _ => nofun⟩
      split <;> rename_i hhasLoop
      · exact put_kept h _ hran ⟨rfl, fun _ => nofun⟩ nofun nofun
      · refine put_kept h _ hran ⟨rfl, fun _ => nofun⟩ nofun fun _ hthread => absurd ?_ hhasLoop
        refine (h.hasLoop (h.users t (by rw [hpc]; exact nofun)).1).mpr ?_
        rw [hthread]
        decide
  | quit =>
      simp only [EventLoopThread.advance, hpc] at hstep
      obtain rfl := Option.some.inj hstep
      have hloop : s.loop.step .quit = some { s.loop with quit := true } := rfl
      have hconstructed := (h.users t (by rw [hpc]; exact nofun)).1
      have hkept := h.loops
        (h.loop.step (h.pointer (h.constructed hconstructed)).1 (a := .quit) nofun rfl nofun
          (fun _ _ => nofun) nofun hloop) id (fun _ => rfl)
        fun hl => step_leaving (a := .quit) hl nofun hloop
      refine put_kept hkept (t := t) .quitWakeup ?_ ⟨rfl, fun _ => nofun⟩ (fun _ _ => rfl)
        nofun
      rw [hpc]
      exact ⟨rfl, fun _ => nofun⟩
  | quitWakeup =>
      simp only [EventLoopThread.advance, hpc] at hstep
      obtain rfl := Option.some.inj hstep
      have hloop : s.loop.step .write = some { s.loop with wakeupFd := s.loop.wakeupFd + 1 } := rfl
      have hconstructed := (h.users t (by rw [hpc]; exact nofun)).1
      have hkept := h.loops
        (h.loop.step (h.pointer (h.constructed hconstructed)).1 (a := .write) nofun rfl nofun
          (fun _ _ => nofun) nofun hloop) id id
        fun hl => step_leaving (a := .write) hl nofun hloop
      refine put_kept hkept (t := t) .joinTest ?_ ⟨rfl, fun _ => nofun⟩ nofun
        fun _ hthread => ⟨h.quitWakeup t hpc hthread, fun _ => Nat.succ_pos _⟩
      rw [hpc]
      exact ⟨rfl, fun _ => nofun⟩
  | joinTest =>
      simp only [EventLoopThread.advance, hpc] at hstep
      obtain rfl := Option.some.inj hstep
      split <;> rename_i hjoined
      · exact joinTest_kept h hpc hjoined
      · exact joins_kept h hpc
  | join destroys =>
      simp only [EventLoopThread.advance, hpc, Option.ite_none_right_eq_some] at hstep
      obtain ⟨hexited, hstep⟩ := hstep
      obtain rfl := Option.some.inj hstep
      exact join_kept h hpc hexited

theorem step_kept (h : Kept L s) {a : Action ι φ} (hstep : s.step a = some s') : Kept L s' := by
  cases a with
  | thread node => exact thread_kept h hstep
  | loop a => exact loop_kept h hstep
  | construct => exact construct_kept h hstep
  | run t => exact run_kept h hstep
  | wait t => exact wait_kept h hstep
  | destroy t => exact destroy_kept h hstep
  | advance t => exact advance_kept h hstep
  | use a => exact use_kept h hstep

theorem runSteps_kept (node : Addr) {as : List (Action ι φ)}
    (hrun : runSteps EventLoopThread.step (.init L φ node) as = some s) : Kept L s :=
  runSteps_invariant (Kept L) (fun _ _ _ h hstep => step_kept h hstep) (init_kept L node) hrun

end Users

section Returns

variable {ι φ : Type*} [DecidableEq ι] {L : ι} {s s' : EventLoopThread ι φ} {t : ι}

/-- What happens when no user starts anything: a thread goes on in the function that it is in, and
the loop thread goes on. -/
def system (loopThread : ι) : Action ι φ → Prop
  | .thread _ | .construct | .advance _ => True
  | .loop a => ownStep loopThread a
  | .use (.store t) | .use (.wakeup t) => t = loopThread
  | _ => False

/-- The loop has left `loop()`, or is about to, without its first functor. -/
def Missed (s : EventLoopThread ι φ) : Prop :=
  s.ready = false ∧ (s.thread = .resetLoop ∨ s.thread = .exited ∨
    s.thread = .looping ∧ (s.loop.phase = .outside ∨ s.loop.phase = .test ∧ s.loop.quit = true))

theorem step_loop {loop : EventLoop ι (Functor φ)} {a : Wakeup.Action ι (Functor φ)}
    (hthread : s.thread = .looping) (hcycles : cycles a = true)
    (hstep : s.loop.step a = some loop) :
    s.step (.loop a) =
      some { s with loop, ready := s.ready || EventLoopThread.runsReady s.loop a } := by
  simp only [EventLoopThread.step, if_pos (And.intro hthread hcycles), hstep, Option.map_some]

theorem leads_loop {P : EventLoop ι (Functor φ) → Prop} (h : Kept L s) (hthread : s.thread = .looping)
    (hleads : Leads EventLoop.step (ownStep L) s.loop P) :
    Leads EventLoopThread.step (system L) s fun s' =>
      Kept L s' ∧ ∃ loop ready, s' = { s with loop, ready } ∧ P loop := by
  have hconstructed := h.ran (h.runs (.inl hthread))
  have hlift := hleads.lift EventLoopThread.step (system L) (r := s)
    (fun loop s' => ∃ ready, s' = { s with loop, ready }) ?_ ⟨s.ready, rfl⟩
  · refine (hlift.keep (Kept L) (fun _ _ _ hk _ hstep => step_kept hk hstep) h).mono ?_
    rintro s' ⟨hkept, loop, ⟨ready, rfl⟩, hP⟩
    exact ⟨hkept, loop, ready, rfl, hP⟩
  · rintro loop s' a loop' ⟨ready, rfl⟩ hown hstep
    by_cases hcycles : cycles a = true
    · have hloop := step_loop (s := { s with loop, ready }) hthread hcycles hstep
      exact ⟨.loop a, _, hown, hloop, _, rfl⟩
    · cases a with
      | store t =>
          refine ⟨.use (.store t), { s with loop := loop', ready }, hown, ?_, ready, rfl⟩
          simp only [EventLoopThread.step, EventLoopThread.MayUse, hconstructed, uses, hstep,
            and_self, if_true, Option.map_some]
      | wakeup t =>
          refine ⟨.use (.wakeup t), { s with loop := loop', ready }, hown, ?_, ready, rfl⟩
          simp only [EventLoopThread.step, EventLoopThread.MayUse, hconstructed, uses, hstep,
            and_self, if_true, Option.map_some]
      | _ => first | exact absurd rfl hcycles | cases hown

theorem leads_ready_of_looping (h : Kept L s) (hthread : s.thread = .looping)
    (hready : s.ready = false) (hphase : s.loop.phase ≠ .outside)
    (htest : s.loop.phase = .test → s.loop.quit = false) :
    Leads EventLoopThread.step (system L) s fun s' =>
      Kept L s' ∧ s'.ready = true ∧ s'.pc = s.pc ∧ s'.once = s.once := by
  have hloop := h.loop
  obtain ⟨q, hsound, hqueued⟩ := hloop.queued
  rw [hready, hthread] at hqueued
  obtain ⟨e, rest, rfl, -, hlinked, -⟩ := (queued_of_neg (by decide)).mp hqueued
  have hfront : Front L e s.loop := ⟨hloop.toKept, hlinked, rest, hsound⟩
  have hreadable : s.loop.phase = .test ∨ s.loop.phase = .polling → 0 < s.loop.wakeupFd := by
    intro hphase
    refine hloop.readable hready (by rw [hthread]; rfl) ?_
    rcases hphase with hphase | hphase <;> rw [hphase] <;> rfl
  refine (leads_loop h hthread (leads_taking hfront hphase htest hreadable)).trans ?_
  rintro s₁ ⟨hkept₁, loop, ready, rfl, hfront₁, hphase₁, hidle₁⟩
  obtain ⟨rest₁, hsound₁⟩ := hfront₁.front
  obtain ⟨funcs, -, hdequeue, -⟩ := step_dequeue_linked hsound₁ hlinked hphase₁ hidle₁
  have hloop₁ := hkept₁.loop
  simp only [hthread] at hloop₁
  have hruns := (hloop₁.dequeue hdequeue).1
  have hstep := step_loop (s := { s with loop, ready }) hthread (a := .dequeue) rfl hdequeue
  refine .next (t := .loop .dequeue) rfl hstep (.here ⟨step_kept hkept₁ hstep, ?_, rfl, rfl⟩)
  simp only [hruns, Bool.or_not_self]

/-- Once the loop thread may start, it comes to its first functor, unless that is missed. -/
theorem leads_ready (h : Kept L s) (hmissed : ¬Missed s) (hrun : s.run = true) :
    Leads EventLoopThread.step (system L) s fun s' =>
      Kept L s' ∧ s'.ready = true ∧ s'.pc = s.pc ∧ s'.once = s.once := by
  cases hready : s.ready with
  | true => exact .here ⟨h, hready, rfl, rfl⟩
  | false =>
      have hafter := h.pointer (h.constructed (h.ran hrun))
      have hthreads : s.thread = .awaitRun ∨ s.thread = .looping := by
        cases hthread : s.thread with
        | exchange | store | wakeup | setLoopPointer =>
            rw [hthread] at hafter
            exact absurd hafter (by decide)
        | awaitRun => exact .inl rfl
        | looping => exact .inr rfl
        | resetLoop => exact absurd ⟨hready, .inl hthread⟩ hmissed
        | exited => exact absurd ⟨hready, .inr (.inl hthread)⟩ hmissed
      rcases hthreads with hthread | hthread
      · have hguard : s.loop.phase = .outside ∧ s.loop.Idle :=
          ⟨h.loop.outside (by rw [hthread]; decide), h.loop.idle (.inr hthread)⟩
        have hstart : s.loop.step .loop =
            some { s.loop with phase := .test, looping := true, quit := false } :=
          step_start_iff.mpr ⟨hguard, rfl⟩
        have hstep : s.step (.thread 0) = some { s with
            loop := { s.loop with phase := .test, looping := true, quit := false }
            thread := .looping } := by
          simp only [EventLoopThread.step, EventLoopThread.advanceThread, hthread, if_pos hrun,
            hstart, Option.map_some]
        refine .next (t := .thread 0) trivial hstep ?_
        exact leads_ready_of_looping (step_kept h hstep) rfl hready nofun fun _ => rfl
      · refine leads_ready_of_looping h hthread hready ?_ ?_
        · exact fun hphase => hmissed ⟨hready, .inr (.inr ⟨hthread, .inl hphase⟩)⟩
        · intro hphase
          by_contra hquit
          exact hmissed ⟨hready, .inr (.inr ⟨hthread, .inr ⟨hphase, Bool.not_eq_false _ ▸ hquit⟩⟩)⟩

theorem leads_done (h : Kept L s) (hmissed : ¬Missed s) {destroys : Bool}
    (hpc : s.pc t = .setRun destroys ∨ s.pc t = .awaitLoop destroys) :
    Leads EventLoopThread.step (system L) s fun s' =>
      Kept L s' ∧ s'.once = .done ∧ s'.pc = Function.update s.pc t (if destroys then .copyLoop
        else .outside) := by
  have hawait : ∀ s : EventLoopThread ι φ, Kept L s → ¬Missed s → s.pc t = .awaitLoop destroys →
      Leads EventLoopThread.step (system L) s fun s' =>
        Kept L s' ∧ s'.once = .done ∧ s'.pc = Function.update s.pc t (if destroys then .copyLoop
          else .outside) := by
    intro s h hmissed hpc
    refine (leads_ready h hmissed (h.awaitLoop t destroys hpc)).trans ?_
    rintro s₁ ⟨h₁, hready₁, hpc₁, -⟩
    rw [← hpc₁] at hpc ⊢
    have hstep : s₁.step (.advance t) = some { s₁.leaveRun t destroys with once := .done } := by
      simp only [EventLoopThread.step, EventLoopThread.advance, hpc, if_pos hready₁]
    refine .next (t := .advance t) trivial hstep (.here ⟨step_kept h₁ hstep, rfl, ?_⟩)
    cases destroys <;> rfl
  rcases hpc with hpc | hpc
  · have hstep : s.step (.advance t) = some { s.put t (.awaitLoop destroys) with run := true } := by
      simp only [EventLoopThread.step, EventLoopThread.advance, hpc]
    refine .next (t := .advance t) trivial hstep ?_
    have hleads := hawait _ (step_kept h hstep) hmissed (Function.update_self _ _ _)
    simpa only [EventLoopThread.put, Function.update_idem] using hleads
  · exact hawait s h hmissed hpc

theorem leads_hasRun (h : Kept L s) (hmissed : ¬Missed s) {destroys : Bool}
    (hpc : s.pc t = .callOnce destroys ∨ s.pc t = .setRun destroys ∨
      s.pc t = .awaitLoop destroys) :
    Leads EventLoopThread.step (system L) s fun s' =>
      Kept L s' ∧ s'.pc t = if destroys then .copyLoop else .outside := by
  have hcalled : ∀ s : EventLoopThread ι φ, Kept L s → ¬Missed s →
      s.pc t = .setRun destroys ∨ s.pc t = .awaitLoop destroys →
      Leads EventLoopThread.step (system L) s fun s' =>
        Kept L s' ∧ s'.pc t = if destroys then .copyLoop else .outside := by
    intro s h hmissed hpc
    refine (leads_done h hmissed hpc).mono ?_
    rintro s' ⟨h', -, hpc'⟩
    rw [hpc']
    exact ⟨h', Function.update_self _ _ _⟩
  have hpast : ∀ s : EventLoopThread ι φ, Kept L s → s.once = .done → s.pc t = .callOnce destroys →
      Leads EventLoopThread.step (system L) s fun s' =>
        Kept L s' ∧ s'.pc t = if destroys then .copyLoop else .outside := by
    intro s h honce hpc
    have hstep : s.step (.advance t) = some (s.leaveRun t destroys) := by
      simp only [EventLoopThread.step, EventLoopThread.advance, hpc, honce]
    refine .next (t := .advance t) trivial hstep (.here ⟨step_kept h hstep, ?_⟩)
    cases destroys <;> exact Function.update_self _ _ _
  rcases hpc with hpc | hpc
  · cases honce : s.once with
    | fresh =>
        have hstep : s.step (.advance t) =
            some { s.put t (.setRun destroys) with once := .busy t } := by
          simp only [EventLoopThread.step, EventLoopThread.advance, hpc, honce]
        refine .next (t := .advance t) trivial hstep ?_
        exact hcalled _ (step_kept h hstep) hmissed (.inl (Function.update_self _ _ _))
    | busy t' =>
        have hcalls := (h.busy t').mp honce
        have hne : t ≠ t' := by
          rintro rfl
          rw [hpc] at hcalls
          cases hcalls
        obtain ⟨destroys', hpc'⟩ : ∃ destroys', s.pc t' = .setRun destroys' ∨
            s.pc t' = .awaitLoop destroys' := by
          cases hpc' : s.pc t' with
          | setRun destroys' => exact ⟨destroys', .inl rfl⟩
          | awaitLoop destroys' => exact ⟨destroys', .inr rfl⟩
          | outside | callOnce _ | copyLoop | quit | quitWakeup | joinTest | join _ =>
              rw [hpc'] at hcalls
              cases hcalls
        refine (leads_done h hmissed hpc').trans ?_
        rintro s₁ ⟨h₁, honce₁, hpc₁⟩
        refine hpast s₁ h₁ honce₁ ?_
        rw [hpc₁, Function.update_of_ne hne, hpc]
    | done => exact hpast s h honce hpc
  · exact hcalled s h hmissed hpc

theorem leads_exited (h : Kept L s) (hready : s.ready = true)
    (hleaving : s.thread = .looping → Leaving s.loop) :
    Leads EventLoopThread.step (system L) s fun s' =>
      Kept L s' ∧ s'.thread = .exited ∧ s'.pc = s.pc := by
  have hreset : ∀ s : EventLoopThread ι φ, Kept L s → s.thread = .resetLoop →
      Leads EventLoopThread.step (system L) s fun s' =>
        Kept L s' ∧ s'.thread = .exited ∧ s'.pc = s.pc := by
    intro s h hthread
    have hstep : s.step (.thread 0) = some { s with hasLoop := false, thread := .exited } := by
      simp only [EventLoopThread.step, EventLoopThread.advanceThread, hthread]
    exact .next (t := .thread 0) trivial hstep (.here ⟨step_kept h hstep, rfl, rfl⟩)
  rcases h.loop.started hready with hthread | hthread | hthread
  · obtain ⟨hquit, hfd⟩ := hleaving hthread
    refine (leads_loop h hthread (leads_outside h.loop.toKept (fun _ => hquit) hfd)).trans ?_
    rintro s₁ ⟨h₁, loop, ready, rfl, hguard⟩
    have hstep : EventLoopThread.step { s with loop, ready } (.thread 0) =
        some { s with loop, ready, thread := .resetLoop } := by
      simp only [EventLoopThread.step, EventLoopThread.advanceThread, hthread, if_pos hguard]
    exact .next (t := .thread 0) trivial hstep (hreset _ (step_kept h₁ hstep) rfl)
  · exact hreset s h hthread
  · exact .here ⟨h, hthread, rfl⟩

theorem leads_destroyed (h : Kept L s) (hpc : (s.pc t).hasRun = true) :
    Leads EventLoopThread.step (system L) s fun s' => s'.pc t = .outside := by
  have hjoin : ∀ s : EventLoopThread ι φ, Kept L s → s.pc t = .join true →
      Leads EventLoopThread.step (system L) s fun s' => s'.pc t = .outside := by
    intro s h hpc
    have hready := h.hasRun t (by rw [hpc]; rfl)
    refine (leads_exited h hready (h.quits t (.inr hpc))).trans ?_
    rintro s₁ ⟨-, hthread₁, hpc₁⟩
    have hstep : s₁.step (.advance t) = some { s₁.put t .outside with
        inside := s₁.inside.erase t
        destroyed := s₁.destroyed || true } := by
      simp only [EventLoopThread.step, EventLoopThread.advance, hpc₁, hpc, if_pos hthread₁]
    exact .next (t := .advance t) trivial hstep (.here (Function.update_self _ _ _))
  have hjoinTest : ∀ s : EventLoopThread ι φ, Kept L s → s.pc t = .joinTest →
      Leads EventLoopThread.step (system L) s fun s' => s'.pc t = .outside := by
    intro s h hpc
    cases hjoined : s.joined with
    | true =>
        have hstep : s.step (.advance t) = some { s.put t .outside with destroyed := true } := by
          simp only [EventLoopThread.step, EventLoopThread.advance, hpc, hjoined, if_true]
        exact .next (t := .advance t) trivial hstep (.here (Function.update_self _ _ _))
    | false =>
        have hstep : s.step (.advance t) = some { s.put t (.join true) with joined := true } := by
          simp only [EventLoopThread.step, EventLoopThread.advance, hpc, hjoined,
            if_neg Bool.false_ne_true]
        refine .next (t := .advance t) trivial hstep ?_
        exact hjoin _ (step_kept h hstep) (Function.update_self _ _ _)
  have hquitWakeup : ∀ s : EventLoopThread ι φ, Kept L s → s.pc t = .quitWakeup →
      Leads EventLoopThread.step (system L) s fun s' => s'.pc t = .outside := by
    intro s h hpc
    have hstep : s.step (.advance t) = some { s.put t .joinTest with
        loop := { s.loop with wakeupFd := s.loop.wakeupFd + 1 } } := by
      simp only [EventLoopThread.step, EventLoopThread.advance, hpc]
      rfl
    refine .next (t := .advance t) trivial hstep ?_
    exact hjoinTest _ (step_kept h hstep) (Function.update_self _ _ _)
  have hquit : ∀ s : EventLoopThread ι φ, Kept L s → s.pc t = .quit →
      Leads EventLoopThread.step (system L) s fun s' => s'.pc t = .outside := by
    intro s h hpc
    have hstep : s.step (.advance t) = some { s.put t .quitWakeup with
        loop := { s.loop with quit := true } } := by
      simp only [EventLoopThread.step, EventLoopThread.advance, hpc]
      rfl
    refine .next (t := .advance t) trivial hstep ?_
    exact hquitWakeup _ (step_kept h hstep) (Function.update_self _ _ _)
  cases hcase : s.pc t with
  | copyLoop =>
      have hstep : s.step (.advance t) =
          some (s.put t (if s.hasLoop then .quit else .joinTest)) := by
        simp only [EventLoopThread.step, EventLoopThread.advance, hcase]
      refine .next (t := .advance t) trivial hstep ?_
      have hkept := step_kept h hstep
      cases hhasLoop : s.hasLoop with
      | true =>
          rw [hhasLoop] at hkept
          exact hquit _ hkept (Function.update_self _ _ _)
      | false =>
          rw [hhasLoop] at hkept
          exact hjoinTest _ hkept (Function.update_self _ _ _)
  | quit => exact hquit s h hcase
  | quitWakeup => exact hquitWakeup s h hcase
  | joinTest => exact hjoinTest s h hcase
  | join destroys =>
      rw [hcase] at hpc
      obtain rfl : destroys = true := hpc
      exact hjoin s h hcase
  | outside | callOnce _ | setRun _ | awaitLoop _ =>
      rw [hcase] at hpc
      cases hpc

def Pc.returns : Pc → Bool
  | .outside => false
  | .join destroys => destroys
  | _ => true

theorem leads_returns (h : Kept L s) (hmissed : ¬Missed s) (hpc : (s.pc t).returns = true) :
    Leads EventLoopThread.step (system L) s fun s' => s'.pc t = .outside := by
  have hrun : ∀ destroys, s.pc t = .callOnce destroys ∨ s.pc t = .setRun destroys ∨
      s.pc t = .awaitLoop destroys →
      Leads EventLoopThread.step (system L) s fun s' => s'.pc t = .outside := by
    intro destroys hpc
    refine (leads_hasRun h hmissed hpc).trans ?_
    rintro s₁ ⟨h₁, hpc₁⟩
    cases destroys with
    | true => exact leads_destroyed h₁ (by rw [hpc₁]; rfl)
    | false => exact .here hpc₁
  cases hcase : s.pc t with
  | callOnce destroys => exact hrun destroys (.inl hcase)
  | setRun destroys => exact hrun destroys (.inr (.inl hcase))
  | awaitLoop destroys => exact hrun destroys (.inr (.inr hcase))
  | copyLoop | quit | quitWakeup | joinTest => exact leads_destroyed h (by rw [hcase]; rfl)
  | outside =>
      rw [hcase] at hpc
      cases hpc
  | join destroys =>
      rw [hcase] at hpc
      exact leads_destroyed h (by rw [hcase]; exact hpc)

theorem step_phase_of_uses {loop loop' : EventLoop ι (Functor φ)}
    {a : Wakeup.Action ι (Functor φ)} (huses : uses a = true)
    (hstep : loop.step a = some loop') : loop'.phase = loop.phase := by
  refine step_phase ?_ ?_ hstep
  · cases a <;> first | rfl | cases huses
  · rintro rfl
    cases huses

theorem leaveRun_frame (s : EventLoopThread ι φ) (t : ι) (destroys : Bool) :
    (s.leaveRun t destroys).thread = s.thread ∧ (s.leaveRun t destroys).ready = s.ready ∧
      (s.leaveRun t destroys).loop = s.loop := by
  cases destroys <;> exact ⟨rfl, rfl, rfl⟩

theorem advance_frame (hstep : s.advance t = some s') :
    s'.thread = s.thread ∧ s'.ready = s.ready ∧ s'.loop.phase = s.loop.phase ∧
      (s'.loop.quit = true ↔ s.loop.quit = true ∨ s.pc t = .quit) := by
  cases hpc : s.pc t <;> simp only [EventLoopThread.advance, hpc] at hstep
  case quit | quitWakeup =>
    obtain rfl := Option.some.inj hstep
    exact ⟨rfl, rfl, rfl, by simp⟩
  all_goals grind [EventLoopThread.put, leaveRun_frame]

theorem advance_pc (hstep : s.advance t = some s') :
    ∃ pc, s'.pc = Function.update s.pc t pc := by
  cases hpc : s.pc t with
  | outside =>
      simp only [EventLoopThread.advance, hpc] at hstep
      cases hstep
  | callOnce destroys =>
      simp only [EventLoopThread.advance, hpc] at hstep
      split at hstep
      · obtain rfl := Option.some.inj hstep
        exact ⟨_, rfl⟩
      · cases hstep
      · obtain rfl := Option.some.inj hstep
        cases destroys <;> exact ⟨_, rfl⟩
  | awaitLoop destroys =>
      simp only [EventLoopThread.advance, hpc, Option.ite_none_right_eq_some] at hstep
      obtain rfl := Option.some.inj hstep.2
      cases destroys <;> exact ⟨_, rfl⟩
  | joinTest =>
      simp only [EventLoopThread.advance, hpc] at hstep
      obtain rfl := Option.some.inj hstep
      split <;> exact ⟨_, rfl⟩
  | join destroys =>
      simp only [EventLoopThread.advance, hpc, Option.ite_none_right_eq_some] at hstep
      obtain rfl := Option.some.inj hstep.2
      exact ⟨_, rfl⟩
  | setRun _ | copyLoop | quit | quitWakeup =>
      simp only [EventLoopThread.advance, hpc] at hstep
      obtain rfl := Option.some.inj hstep
      exact ⟨_, rfl⟩

omit [DecidableEq ι] in
theorem Missed.mono (h : Missed s) (hthread : s'.thread = s.thread) (hready : s'.ready = s.ready)
    (hphase : s'.loop.phase = s.loop.phase)
    (hquit : s.loop.quit = true → s'.loop.quit = true) : Missed s' := by
  rw [Missed, hthread, hready, hphase]
  exact ⟨h.1, h.2.imp_right fun h => h.imp_right fun h => ⟨h.1, h.2.imp_right fun h =>
    ⟨h.1, hquit h.2⟩⟩⟩

/-- What is missed stays missed, whatever is done. -/
theorem missed_step (h : Missed s) {a : Action ι φ} (hstep : s.step a = some s') : Missed s' := by
  cases a with
  | thread node =>
      obtain ⟨hready, hthreads⟩ := h
      simp only [EventLoopThread.step, EventLoopThread.advanceThread] at hstep
      grind [Missed]
  | loop a =>
      simp only [EventLoopThread.step, Option.ite_none_right_eq_some] at hstep
      obtain ⟨⟨hthread, hcycles⟩, hstep⟩ := hstep
      obtain ⟨loop, hloop, rfl⟩ := Option.map_eq_some_iff.mp hstep
      obtain ⟨hready, hthreads⟩ := h
      rw [hthread] at hthreads
      have hphase : s.loop.phase = .outside ∨ s.loop.phase = .test ∧ s.loop.quit = true := by
        simpa using hthreads
      have hdequeue : a ≠ .dequeue := by
        rintro rfl
        simp only [EventLoop.step] at hloop
        grind
      refine ⟨?_, .inr (.inr ⟨hthread, .inl ?_⟩)⟩
      · simp only [hready, runsReady_eq_false hdequeue, Bool.or_false]
      · cases a <;> simp only [EventLoop.step] at hloop <;> grind [cycles]
  | construct | run t | wait t | destroy t =>
      simp only [EventLoopThread.step, Option.ite_none_right_eq_some, Option.some.injEq] at hstep
      obtain ⟨-, rfl⟩ := hstep
      exact h
  | advance t =>
      obtain ⟨hthread, hready, hphase, hquit⟩ := advance_frame hstep
      exact h.mono hthread hready hphase fun h => hquit.mpr (.inl h)
  | use a =>
      simp only [EventLoopThread.step, Option.ite_none_right_eq_some] at hstep
      obtain ⟨⟨-, huses, -⟩, hstep⟩ := hstep
      obtain ⟨loop, hloop, rfl⟩ := Option.map_eq_some_iff.mp hstep
      refine h.mono rfl rfl (step_phase_of_uses huses hloop) fun hquit =>
        (step_quit hloop).mpr (.inr ⟨hquit, ?_⟩)
      rintro rfl
      cases huses

def Pc.runs : Pc → Bool
  | .callOnce _ | .setRun _ | .awaitLoop _ => true
  | _ => false

theorem runs_update {t' : ι} {pc : Pc} (hpc : (s.pc t).runs = true)
    (ht' : t = t' → pc.runs = true) : (Function.update s.pc t' pc t).runs = true := by
  rcases eq_or_ne t t' with rfl | hne
  · rw [Function.update_self]
    exact ht' rfl
  · rw [Function.update_of_ne hne]
    exact hpc

theorem step_runs (h : Kept L s) (hready : s.ready = false) (hpc : (s.pc t).runs = true)
    {a : Action ι φ} (hstep : s.step a = some s') : (s'.pc t).runs = true := by
  have houtside : ∀ {t'}, s.pc t' = .outside → ∀ {pc : Pc}, t = t' → pc.runs = true := by
    rintro t' ht' pc rfl
    rw [ht'] at hpc
    cases hpc
  cases a with
  | thread node =>
      simp only [EventLoopThread.step, EventLoopThread.advanceThread] at hstep
      grind [Option.map_eq_some_iff]
  | loop a | use a =>
      simp only [EventLoopThread.step, Option.ite_none_right_eq_some] at hstep
      obtain ⟨-, hstep⟩ := hstep
      obtain ⟨loop, -, rfl⟩ := Option.map_eq_some_iff.mp hstep
      exact hpc
  | construct =>
      simp only [EventLoopThread.step, Option.ite_none_right_eq_some, Option.some.injEq] at hstep
      obtain ⟨-, rfl⟩ := hstep
      exact hpc
  | run t' =>
      simp only [EventLoopThread.step, Option.ite_none_right_eq_some, Option.some.injEq] at hstep
      obtain ⟨⟨-, -, ht', -⟩, rfl⟩ := hstep
      exact runs_update hpc (houtside ht')
  | wait t' | destroy t' =>
      simp only [EventLoopThread.step, Option.ite_none_right_eq_some, Option.some.injEq] at hstep
      obtain ⟨⟨⟨-, -, ht', -⟩, -⟩, rfl⟩ := hstep
      exact runs_update hpc (houtside ht')
  | advance t' =>
      simp only [EventLoopThread.step] at hstep
      cases hcase : s.pc t' with
      | outside =>
          simp only [EventLoopThread.advance, hcase] at hstep
          cases hstep
      | callOnce destroys =>
          simp only [EventLoopThread.advance, hcase] at hstep
          split at hstep <;> rename_i honce
          · obtain rfl := Option.some.inj hstep
            exact runs_update hpc fun _ => rfl
          · cases hstep
          · have hdone := h.done honce
            rw [hready] at hdone
            cases hdone
      | setRun destroys =>
          simp only [EventLoopThread.advance, hcase] at hstep
          obtain rfl := Option.some.inj hstep
          exact runs_update hpc fun _ => rfl
      | awaitLoop destroys =>
          simp only [EventLoopThread.advance, hcase, hready, if_neg Bool.false_ne_true] at hstep
          cases hstep
      | copyLoop | quit | quitWakeup | joinTest | join _ =>
          have hne : t ≠ t' := by
            rintro rfl
            rw [hcase] at hpc
            cases hpc
          obtain ⟨pc, hpc'⟩ := advance_pc hstep
          rw [hpc', Function.update_of_ne hne]
          exact hpc

omit [DecidableEq ι] in
theorem runs_of_missed (h : Kept L s) (hmissed : Missed s) (hpc : (s.pc t).returns = true) :
    (s.pc t).runs = true := by
  have hran := h.hasRun t
  rw [hmissed.1] at hran
  cases hcase : s.pc t <;> simp_all [Pc.returns, Pc.runs, Pc.hasRun]

/-- `run` and the destructor return, from every state of every run, if and only if the loop has not
left `loop()` without its first functor, nor is about to. Where it has, nothing helps. -/
theorem leads_returns_iff (L : ι) (node : Addr) {as : List (Action ι φ)}
    (hrun : runSteps EventLoopThread.step (.init L φ node) as = some s) (t : ι)
    (hpc : (s.pc t).returns = true) :
    (¬Missed s → Leads EventLoopThread.step (system L) s fun s' => s'.pc t = .outside) ∧
      (Missed s → ¬Leads EventLoopThread.step (fun _ => True) s fun s' => s'.pc t = .outside) := by
  have hkept := runSteps_kept node hrun
  refine ⟨fun hmissed => leads_returns hkept hmissed hpc, fun hmissed => ?_⟩
  refine not_leads (fun s => Kept L s ∧ Missed s ∧ (s.pc t).runs = true) ?_ ?_
    ⟨hkept, hmissed, runs_of_missed hkept hmissed hpc⟩
  · rintro s a s' ⟨hk, hm, hr⟩ - hstep
    exact ⟨step_kept hk hstep, missed_step hm hstep, step_runs hk hm.1 hr hstep⟩
  · rintro s ⟨-, -, hr⟩ hpc
    rw [hpc] at hr
    cases hr

def sample : List (Action Bool Nat) :=
  [.thread 1, .thread 0, .thread 0, .thread 0, .construct, .run false, .advance false,
    .advance false, .thread 0]

/-- The same with `quit` on the loop then. -/
theorem leads_returns_iff_sample :
    (∃ s, runSteps EventLoopThread.step (.init true Nat 0) sample = some s ∧
      Leads EventLoopThread.step (system true) s fun s' => s'.pc false = .outside) ∧
    ∃ s, runSteps EventLoopThread.step (.init true Nat 0) (sample ++ [.use .quit]) = some s ∧
      ¬Leads EventLoopThread.step (fun _ => True) s fun s' => s'.pc false = .outside := by
  constructor
  · obtain ⟨s, hs, hstate⟩ := Option.map_eq_some_iff.mp
      (by decide : (runSteps EventLoopThread.step (.init true Nat 0) sample).map
        (fun s => (s.pc false, s.thread, s.loop.phase, s.loop.quit)) =
          some (.awaitLoop false, .looping, .test, false))
    simp only [Prod.mk.injEq] at hstate
    obtain ⟨hpc, hthread, hphase, hquit⟩ := hstate
    refine ⟨s, hs, (leads_returns_iff true 0 hs false (by rw [hpc]; rfl)).1 ?_⟩
    rw [Missed, hthread, hphase, hquit]
    rintro ⟨-, h | h | ⟨-, h | ⟨-, h⟩⟩⟩ <;> cases h
  · obtain ⟨s, hs, hstate⟩ := Option.map_eq_some_iff.mp
      (by decide : (runSteps EventLoopThread.step (.init true Nat 0) (sample ++ [.use .quit])).map
        (fun s => (s.pc false, s.thread, s.loop.phase, s.loop.quit, s.ready)) =
          some (.awaitLoop false, .looping, .test, true, false))
    simp only [Prod.mk.injEq] at hstate
    obtain ⟨hpc, hthread, hphase, hquit, hready⟩ := hstate
    refine ⟨s, hs, (leads_returns_iff true 0 hs false (by rw [hpc]; rfl)).2 ?_⟩
    exact ⟨hready, .inr (.inr ⟨hthread, .inr ⟨hphase, hquit⟩⟩)⟩

/-- The first functor is still to come, and nothing has been said about the end of the loop. -/
def Pending (s : EventLoopThread ι φ) : Prop :=
  s.ready = false → s.thread ≠ .resetLoop ∧ s.thread ≠ .exited ∧
    (s.thread = .looping → s.loop.phase ≠ .outside ∧ s.loop.quit = false)

omit [DecidableEq ι] in
theorem Pending.not_missed (h : Pending s) : ¬Missed s := by
  rintro ⟨hready, hmissed⟩
  obtain ⟨hreset, hexited, hlooping⟩ := h hready
  rcases hmissed with hthread | hthread | ⟨hthread, hmissed⟩
  · exact hreset hthread
  · exact hexited hthread
  · obtain ⟨hphase, hquit⟩ := hlooping hthread
    rcases hmissed with houtside | ⟨-, htrue⟩
    · exact hphase houtside
    · rw [hquit] at htrue
      cases htrue

omit [DecidableEq ι] in
theorem Pending.mono (h : Pending s) (hthread : s'.thread = s.thread) (hready : s'.ready = s.ready)
    (hphase : s'.loop.phase = s.loop.phase)
    (hquit : s.ready = false → s.loop.quit = false → s'.loop.quit = false) : Pending s' := by
  intro hready'
  rw [hready] at hready'
  obtain ⟨hreset, hexited, hlooping⟩ := h hready'
  rw [hthread, hphase]
  refine ⟨hreset, hexited, fun hthread => ?_⟩
  exact ⟨(hlooping hthread).1, hquit hready' (hlooping hthread).2⟩

theorem step_pending (hkept : Kept L s) (h : Pending s) {a : Action ι φ}
    (ha : a = .use .quit → s.ready = true) (hstep : s.step a = some s') : Pending s' := by
  cases a with
  | thread node =>
      intro hready'
      simp only [EventLoopThread.step, EventLoopThread.advanceThread] at hstep
      have hready : s.ready = false := by
        grind [Option.map_eq_some_iff]
      have hpending := h hready
      split at hstep
      · obtain ⟨loop, -, rfl⟩ := Option.map_eq_some_iff.mp hstep
        exact ⟨nofun, nofun, nofun⟩
      · obtain ⟨loop, -, rfl⟩ := Option.map_eq_some_iff.mp hstep
        exact ⟨nofun, nofun, nofun⟩
      · obtain ⟨loop, -, rfl⟩ := Option.map_eq_some_iff.mp hstep
        exact ⟨nofun, nofun, nofun⟩
      · obtain rfl := Option.some.inj hstep
        exact ⟨nofun, nofun, nofun⟩
      · simp only [EventLoop.step] at hstep
        grind [Option.map_eq_some_iff]
      all_goals grind
  | loop a =>
      simp only [EventLoopThread.step, Option.ite_none_right_eq_some] at hstep
      obtain ⟨⟨hthread, hcycles⟩, hstep⟩ := hstep
      obtain ⟨loop, hloop, rfl⟩ := Option.map_eq_some_iff.mp hstep
      intro hready'
      obtain ⟨hready, -⟩ := Bool.or_eq_false_iff.mp hready'
      obtain ⟨hphase, hquit⟩ := (h hready).2.2 hthread
      refine ⟨by simp [hthread], by simp [hthread], fun _ => ?_⟩
      cases a <;> simp only [EventLoop.step] at hloop <;> grind [cycles]
  | construct | run t | wait t | destroy t =>
      simp only [EventLoopThread.step, Option.ite_none_right_eq_some, Option.some.injEq] at hstep
      obtain ⟨-, rfl⟩ := hstep
      exact h
  | advance t =>
      obtain ⟨hthread, hready, hphase, hquit⟩ := advance_frame hstep
      refine h.mono hthread hready hphase fun hready hfalse => ?_
      by_contra htrue
      rcases hquit.mp (Bool.not_eq_false _ ▸ htrue) with hset | hpc
      · rw [hfalse] at hset
        cases hset
      · have hran := hkept.hasRun t (by rw [hpc]; rfl)
        rw [hready] at hran
        cases hran
  | use a =>
      simp only [EventLoopThread.step, Option.ite_none_right_eq_some] at hstep
      obtain ⟨⟨-, huses, -⟩, hstep⟩ := hstep
      obtain ⟨loop, hloop, rfl⟩ := Option.map_eq_some_iff.mp hstep
      refine h.mono rfl rfl (step_phase_of_uses huses hloop) fun hready hfalse => ?_
      by_contra htrue
      rcases (step_quit hloop).mp (Bool.not_eq_false _ ▸ htrue) with rfl | ⟨hset, -⟩
      · rw [hready] at ha
        cases ha rfl
      · rw [hfalse] at hset
        cases hset

/-- Where nobody calls `quit` on the loop before it has taken its first functor, `run` and the
destructor return. -/
theorem leads_returns_of_quits (L : ι) (node : Addr) {as : List (Action ι φ)}
    (hquits : AllSteps EventLoopThread.step (fun s a => a = .use .quit → s.ready = true)
      (.init L φ node) as)
    (hrun : runSteps EventLoopThread.step (.init L φ node) as = some s) (t : ι)
    (hpc : (s.pc t).returns = true) :
    Leads EventLoopThread.step (system L) s fun s' => s'.pc t = .outside := by
  have hpending : Kept L s ∧ Pending s := by
    refine hquits.invariant (fun s => Kept L s ∧ Pending s) ?_ ⟨init_kept L node, ?_⟩ hrun
    · rintro s a s' ⟨hkept, hpending⟩ ha hstep
      exact ⟨step_kept hkept hstep, step_pending hkept hpending ha hstep⟩
    · exact fun _ => ⟨nofun, nofun, nofun⟩
  exact leads_returns hpending.1 hpending.2.not_missed hpc

theorem leads_returns_of_quits_sample :
    ∃ s, runSteps EventLoopThread.step (.init true Nat 0) sample = some s ∧
      Leads EventLoopThread.step (system true) s fun s' => s'.pc false = .outside := by
  obtain ⟨s, hs, hpc⟩ := Option.map_eq_some_iff.mp
    (by decide : (runSteps EventLoopThread.step (.init true Nat 0) sample).map
      (fun s => s.pc false) = some (.awaitLoop false))
  refine ⟨s, hs, leads_returns_of_quits true 0 ?_ hs false (by rw [hpc]; rfl)⟩
  exact allSteps_of_forall (by simp [sample]) _

/-- After the destructor nothing touches the object: what is left are the uses of the loop. The
functor of `loopFuncs`, which captures the object, runs once at most, and not after the destructor.
-/
theorem runSteps_lifetime (L : ι) (node : Addr) {as : List (Action ι φ)}
    (hrun : runSteps EventLoopThread.step (.init L φ node) as = some s) :
    (s.destroyed = true → ∀ a s', s.step a = some s' → ∃ b, a = .use b) ∧
      ∀ a s', s.step (.loop a) = some s' → EventLoopThread.runsReady s.loop a = true →
        s.ready = false ∧ s'.ready = true ∧ s.destroyed = false := by
  have hkept := runSteps_kept node hrun
  constructor
  · intro hdestroyed a s' hstep
    obtain ⟨hexited, t₀, hdestructor⟩ := hkept.destroyed hdestroyed
    have hconstructed := hkept.ran (hkept.runs (.inr (.inr hexited)))
    have houtside : ∀ t, s.pc t = .outside := by
      intro t
      have hinside : ¬(s.pc t).isInside = true := by
        rw [← hkept.inside t, hkept.alone (by rw [hdestructor]; exact nofun)]
        exact List.not_mem_nil
      have hdestroys : ¬(s.pc t).destroys = true := by
        rw [hkept.destructor t, hdestroyed]
        exact fun h => absurd h.2 (by decide)
      cases hcase : s.pc t <;> simp_all [Pc.isInside, Pc.destroys]
    cases a with
    | use b => exact ⟨b, rfl⟩
    | thread node =>
        simp only [EventLoopThread.step, EventLoopThread.advanceThread, hexited] at hstep
        cases hstep
    | loop a =>
        simp only [EventLoopThread.step, hexited] at hstep
        cases hstep
    | construct =>
        simp only [EventLoopThread.step, hconstructed] at hstep
        grind
    | run t | wait t | destroy t =>
        simp only [EventLoopThread.step, EventLoopThread.Callable, hdestructor] at hstep
        grind
    | advance t =>
        simp only [EventLoopThread.step, EventLoopThread.advance, houtside t] at hstep
        cases hstep
  · intro a s' hstep hruns
    simp only [EventLoopThread.step, Option.ite_none_right_eq_some] at hstep
    obtain ⟨⟨hthread, -⟩, hstep⟩ := hstep
    obtain ⟨loop, hloop, rfl⟩ := Option.map_eq_some_iff.mp hstep
    have hdequeue : a = .dequeue := by
      by_contra hne
      rw [runsReady_eq_false hne] at hruns
      cases hruns
    subst hdequeue
    have hkeptLoop := hkept.loop
    rw [hthread] at hkeptLoop
    have hready := (hkeptLoop.dequeue hloop).1
    refine ⟨?_, ?_, ?_⟩
    · simpa [hruns] using hready
    · simp only [hruns, Bool.or_true]
    · by_contra hdestroyed
      have hexited := (hkept.destroyed (Bool.not_eq_false _ ▸ hdestroyed)).1
      rw [hthread] at hexited
      cases hexited

def destroying : List (Action Bool Nat) :=
  [.thread 1, .thread 0, .thread 0, .thread 0, .construct, .destroy false, .advance false,
    .advance false, .thread 0, .loop .test, .loop (.pollReturns true), .loop .wakeupRead,
    .loop .handled, .loop .checkEmpty, .loop .dequeue, .advance false, .advance false,
    .advance false, .advance false, .advance false, .loop .functorReturns, .loop .dequeue,
    .loop .checkEmpty, .loop .test, .thread 0, .thread 0, .advance false]

theorem runSteps_lifetime_sample :
    ∃ s, runSteps EventLoopThread.step (.init true Nat 0) destroying = some s ∧
      s.destroyed = true ∧ ∀ a s', s.step a = some s' → ∃ b, a = .use b := by
  obtain ⟨s, hs, hdestroyed⟩ := Option.map_eq_some_iff.mp
    (by decide : (runSteps EventLoopThread.step (.init true Nat 0) destroying).map
      (fun s => s.destroyed) = some true)
  exact ⟨s, hs, hdestroyed, (runSteps_lifetime true 0 hs).1 hdestroyed⟩

end Returns

end Cooper.LoopThread

import Cooper.LockFreeQueue

/-!
`EventLoop`: the cycle of `loop()` and `doRunInLoopFuncs` on the loop thread, interleaved with calls
of `queueInLoop` from any thread. Such a call takes three steps: the two of `enqueue`, and the test
with the write to the eventfd. `runInLoop` is such a call on other threads, and no call on the loop
thread.
-/

namespace Cooper.Wakeup

open Cooper.StepRun Cooper.LockFreeQueue

/-- Where the loop thread is: outside of `loop()`, at its condition, in `poll`, with channels still
to be handled (the one of the eventfd among them if `wakeup`), at the conditions of the two loops of
`doRunInLoopFuncs`, or in a functor. -/
inductive Phase where
  | outside
  | test
  | polling
  | handling (wakeup : Bool)
  | outer
  | inner
  | running
deriving DecidableEq, Repr

/-- The loop thread may run user code: in a handler, in a functor, in the destructor of one, or
outside of `loop()`. -/
def Phase.hasUserCode : Phase → Bool
  | .outside | .handling _ | .outer | .inner | .running => true
  | .test | .polling => false

/-- The phases in which the queue has been found empty and the eventfd is not read. -/
def Phase.isSettled : Phase → Bool
  | .outside | .test | .polling => true
  | .handling _ | .outer | .inner | .running => false

theorem Phase.eq_outside {phase : Phase} (hsettled : phase.isSettled = true)
    (huser : phase.hasUserCode = true) : phase = .outside := by
  cases phase <;> simp_all [Phase.isSettled, Phase.hasUserCode]

/-- A functor in `funcs_`, with the number of its exchange. -/
structure Func (φ : Type*) where
  functor : φ
  ticket : Nat
deriving DecidableEq, Repr

/-- A call of `queueInLoop` in progress: the number of its exchange, and whether it has stored
`next_`. -/
structure Call where
  ticket : Nat
  stored : Bool
deriving DecidableEq, Repr

structure EventLoop (ι φ : Type*) where
  loopThread : ι
  phase : Phase
  looping : Bool
  quit : Bool
  funcs : MpscQueue ι (Func φ)
  wakeupFd : Nat
  calls : ι → Option Call
  tickets : Nat

inductive Action (ι φ : Type*) where
  | exchange (thread : ι) (functor : φ) (node : Addr)
  | store (thread : ι)
  | wakeup (thread : ι)
  | loop
  | test
  | pollReturns (wakeup : Bool)
  | wakeupRead
  | handled
  | checkEmpty
  | dequeue
  | functorReturns
  | quit
  | write

variable {ι φ : Type*} [DecidableEq ι]

namespace EventLoop

def init (loopThread : ι) (φ : Type*) (node : Addr) : EventLoop ι φ where
  loopThread := loopThread
  phase := .outside
  looping := false
  quit := false
  funcs := MpscQueue.init ι (Func φ) node
  wakeupFd := 0
  calls := fun _ => none
  tickets := 0

/-- The loop thread moves on when it is not in a call of `queueInLoop`. -/
def Idle (s : EventLoop ι φ) : Prop := s.calls s.loopThread = none

instance (s : EventLoop ι φ) : Decidable s.Idle := inferInstanceAs (Decidable (_ = none))

def step (s : EventLoop ι φ) : Action ι φ → Option (EventLoop ι φ)
  | .exchange thread functor node =>
      if s.calls thread = none ∧ (thread = s.loopThread → s.phase.hasUserCode = true) ∧
          (s.funcs.nodes node).isNone then
        (s.funcs.step (.exchange thread ⟨functor, s.tickets⟩ node)).map fun r =>
          { s with
            funcs := r.1
            calls := Function.update s.calls thread (some ⟨s.tickets, false⟩)
            tickets := s.tickets + 1 }
      else none
  | .store thread =>
      match s.calls thread with
      | some ⟨ticket, false⟩ =>
          (s.funcs.step (.store thread)).map fun r =>
            { s with
              funcs := r.1
              calls := Function.update s.calls thread (some ⟨ticket, true⟩) }
      | _ => none
  | .wakeup thread =>
      match s.calls thread with
      | some ⟨_, true⟩ =>
          some { s with
            wakeupFd := if thread ≠ s.loopThread ∨ s.looping = false then s.wakeupFd + 1
              else s.wakeupFd
            calls := Function.update s.calls thread none }
      | _ => none
  | .loop =>
      if s.phase = .outside ∧ s.Idle then
        some { s with
          phase := .test
          looping := true
          quit := false }
      else none
  | .test =>
      if s.phase = .test then
        some (if s.quit then { s with
          phase := .outside
          looping := false } else { s with phase := .polling })
      else none
  | .pollReturns wakeup =>
      if s.phase = .polling ∧ (wakeup = true → 0 < s.wakeupFd) then
        some { s with phase := .handling wakeup }
      else none
  | .wakeupRead =>
      if s.phase = .handling true ∧ s.Idle then
        some { s with
          phase := .handling false
          wakeupFd := 0 }
      else none
  | .handled => if s.phase = .handling false ∧ s.Idle then some { s with phase := .outer } else none
  | .checkEmpty =>
      if s.phase = .outer ∧ s.Idle then
        match s.funcs.step .empty with
        | some (funcs, .empty true) => some { s with
            phase := .test
            funcs := funcs }
        | some (funcs, .empty false) => some { s with
            phase := .inner
            funcs := funcs }
        | _ => none
      else none
  | .dequeue =>
      if s.phase = .inner ∧ s.Idle then
        match s.funcs.step .dequeue with
        | some (funcs, .dequeue none) => some { s with
            phase := .outer
            funcs := funcs }
        | some (funcs, .dequeue (some _)) => some { s with
            phase := .running
            funcs := funcs }
        | _ => none
      else none
  | .functorReturns =>
      if s.phase = .running ∧ s.Idle then some { s with phase := .inner } else none
  | .quit => some { s with quit := true }
  | .write => some { s with wakeupFd := s.wakeupFd + 1 }

/-- The call of `queueInLoop` with this functor has returned. -/
def Completed (s : EventLoop ι φ) (e : Entry ι (Func φ)) : Prop :=
  ∀ thread call, s.calls thread = some call → call.ticket ≠ e.item.ticket

/-- With the functors `q` in the queue, the loop has something to do, or will be told. -/
def Awake (s : EventLoop ι φ) (q : List (Entry ι (Func φ))) : Prop :=
  q = [] ∨ 0 < s.wakeupFd ∨
    ∃ e rest thread call, q = e :: rest ∧ s.calls thread = some call ∧
      call.ticket = e.item.ticket

structure Sound (s : EventLoop ι φ) (q : List (Entry ι (Func φ))) : Prop where
  represents : s.funcs.Represents q
  storing : ∀ e ∈ q, ∀ thread, e.storing = some thread →
    s.calls thread = some ⟨e.item.ticket, false⟩
  increasing : q.Pairwise (·.item.ticket < ·.item.ticket)
  bounded : ∀ e ∈ q, e.item.ticket < s.tickets
  outside : s.phase = .outside → s.looping = false
  idle : s.phase.hasUserCode = false → s.Idle
  awake : s.phase.isSettled = true → s.Awake q

omit [DecidableEq ι] in
theorem init_sound (loopThread : ι) (node : Addr) :
    (init loopThread φ node).Sound [] where
  represents := MpscQueue.init_represents node
  storing _ h := absurd h List.not_mem_nil
  increasing := List.Pairwise.nil
  bounded _ h := absurd h List.not_mem_nil
  outside _ := rfl
  idle _ := rfl
  awake _ := Or.inl rfl

variable {s s' : EventLoop ι φ} {q : List (Entry ι (Func φ))}

omit [DecidableEq ι] in
theorem Sound.storing_eq_none (h : s.Sound q) {thread : ι} (hcall : s.calls thread = none) :
    s.funcs.storing thread = none := by
  obtain ⟨l, rfl, -, -, -, hstoring⟩ := h.represents
  cases hw : s.funcs.storing thread with
  | none => rfl
  | some w =>
      obtain ⟨p, hp, hproducer⟩ := hstoring thread w hw
      have hstored := h.storing p.1 (List.mem_map_of_mem hp) thread hproducer
      rw [hcall] at hstored
      cases hstored

theorem exchange_sound (h : s.Sound q) {thread : ι} {functor : φ} {node : Addr}
    (hstep : s.step (.exchange thread functor node) = some s') :
    s'.Sound (q ++ [⟨⟨functor, s.tickets⟩, some thread⟩]) := by
  simp only [step] at hstep
  split at hstep <;> rename_i hguard
  · obtain ⟨hcall, huser, hnode⟩ := hguard
    have henabled : s.funcs.Enabled (.exchange thread ⟨functor, s.tickets⟩ node) :=
      ⟨h.storing_eq_none hcall, Option.isNone_iff_eq_none.mp hnode⟩
    obtain ⟨funcs, hfuncs, hrepresents⟩ := MpscQueue.exchange_spec h.represents henabled
    rw [hfuncs, Option.map_some] at hstep
    obtain rfl := Option.some.inj hstep
    have hother : ∀ other call, s.calls other = some call →
        Function.update s.calls thread (some ⟨s.tickets, false⟩) other = some call := by
      intro other call hcall'
      rw [Function.update_of_ne, hcall']
      rintro rfl
      rw [hcall] at hcall'
      cases hcall'
    constructor
    case represents => exact hrepresents
    case storing =>
      intro e he other hstoring
      rcases List.mem_append.mp he with he | he
      · exact hother other _ (h.storing e he other hstoring)
      · rw [List.mem_singleton.mp he] at hstoring ⊢
        obtain rfl := Option.some.inj hstoring
        exact Function.update_self _ _ _
    case increasing =>
      refine List.pairwise_append.mpr ⟨h.increasing, List.pairwise_singleton _ _, ?_⟩
      intro e he last hlast
      rw [List.mem_singleton.mp hlast]
      exact h.bounded e he
    case bounded =>
      intro e he
      rcases List.mem_append.mp he with he | he
      · exact Nat.lt_succ_of_lt (h.bounded e he)
      · rw [List.mem_singleton.mp he]
        exact Nat.lt_succ_self _
    case outside => exact h.outside
    case idle =>
      intro hphase
      have hne : s.loopThread ≠ thread := by
        intro heq
        have huser' := huser heq.symm
        rw [hphase] at huser'
        cases huser'
      exact (Function.update_of_ne hne _ _).trans (h.idle hphase)
    case awake =>
      intro hphase
      rcases h.awake hphase with rfl | hfd | ⟨e, rest, other, call, rfl, hcall', hticket⟩
      · exact Or.inr (Or.inr ⟨_, [], thread, ⟨s.tickets, false⟩, rfl, Function.update_self _ _ _,
          rfl⟩)
      · exact Or.inr (Or.inl hfd)
      · exact Or.inr (Or.inr ⟨e, rest ++ _, other, call, rfl, hother other call hcall', hticket⟩)
  · cases hstep

theorem store_sound (h : s.Sound q) {thread : ι} (hstep : s.step (.store thread) = some s') :
    s'.Sound (q.map (·.store thread)) := by
  simp only [step] at hstep
  split at hstep
  · rename_i ticket hcall
    obtain ⟨r, hfuncs, rfl⟩ := Option.map_eq_some_iff.mp hstep
    have henabled : s.funcs.Enabled (.store thread) := by
      intro hnone
      simp only [MpscQueue.step, hnone] at hfuncs
      cases hfuncs
    obtain ⟨funcs, hfuncs', hrepresents⟩ := MpscQueue.store_spec h.represents henabled
    obtain rfl := Option.some.inj (hfuncs.symm.trans hfuncs')
    constructor
    case represents => exact hrepresents
    case storing =>
      intro e he other hstoring
      obtain ⟨e, hmem, rfl⟩ := List.mem_map.mp he
      rw [MpscQueue.store_item]
      by_cases hthread : e.storing = some thread
      · rw [MpscQueue.store_of_eq hthread] at hstoring
        cases hstoring
      · rw [MpscQueue.store_of_ne hthread] at hstoring
        have hne : other ≠ thread := by
          rintro rfl
          exact hthread hstoring
        exact (Function.update_of_ne hne _ _).trans (h.storing e hmem other hstoring)
    case increasing =>
      rw [List.pairwise_map]
      simp only [MpscQueue.store_item]
      exact h.increasing
    case bounded =>
      intro e he
      obtain ⟨e, hmem, rfl⟩ := List.mem_map.mp he
      rw [MpscQueue.store_item]
      exact h.bounded e hmem
    case outside => exact h.outside
    case idle =>
      intro hphase
      have hidle := h.idle hphase
      have hne : s.loopThread ≠ thread := by
        intro heq
        rw [Idle, heq, hcall] at hidle
        cases hidle
      exact (Function.update_of_ne hne _ _).trans hidle
    case awake =>
      intro hphase
      rcases h.awake hphase with rfl | hfd | ⟨e, rest, other, call, rfl, hcall', hticket⟩
      · exact Or.inl rfl
      · exact Or.inr (Or.inl hfd)
      · refine Or.inr (Or.inr ?_)
        rcases eq_or_ne other thread with rfl | hne
        · refine ⟨_, _, other, _, rfl, Function.update_self _ _ _, ?_⟩
          rw [MpscQueue.store_item, ← hticket, ← Option.some.inj (hcall.symm.trans hcall')]
        · refine ⟨_, _, other, call, rfl, (Function.update_of_ne hne _ _).trans hcall', ?_⟩
          rw [MpscQueue.store_item, hticket]
  · cases hstep

theorem wakeup_sound (h : s.Sound q) {thread : ι} (hstep : s.step (.wakeup thread) = some s') :
    s'.Sound q := by
  simp only [step] at hstep
  split at hstep
  · rename_i ticket hcall
    obtain rfl := Option.some.inj hstep
    constructor
    case represents => exact h.represents
    case storing =>
      intro e he other hstoring
      have hstored := h.storing e he other hstoring
      have hne : other ≠ thread := by
        rintro rfl
        rw [hcall] at hstored
        cases hstored
      exact (Function.update_of_ne hne _ _).trans hstored
    case increasing => exact h.increasing
    case bounded => exact h.bounded
    case outside => exact h.outside
    case idle =>
      intro hphase
      rcases eq_or_ne s.loopThread thread with heq | hne
      · rw [Idle, heq]
        exact Function.update_self _ _ _
      · exact (Function.update_of_ne hne _ _).trans (h.idle hphase)
    case awake =>
      intro hphase
      refine Or.inr (Or.inl ?_)
      -- where the eventfd matters, the loop thread makes such a call only before `loop()`
      have hwrites : thread ≠ s.loopThread ∨ s.looping = false := by
        rcases eq_or_ne thread s.loopThread with heq | hne
        · refine Or.inr (h.outside (Phase.eq_outside hphase ?_))
          by_contra huser
          have hidle := h.idle (Bool.not_eq_true _ ▸ huser)
          rw [Idle, ← heq, hcall] at hidle
          cases hidle
        · exact Or.inl hne
      simp only [if_pos hwrites]
      exact Nat.succ_pos _
  · cases hstep

omit [DecidableEq ι] in
theorem Sound.move (h : s.Sound q) {phase : Phase} {looping quit : Bool} {wakeupFd : Nat}
    (houtside : phase = .outside → looping = false)
    (hidle : phase.hasUserCode = false → s.Idle)
    (hawake : phase.isSettled = true → s.phase.isSettled = true ∧ s.wakeupFd ≤ wakeupFd) :
    Sound { s with
      phase := phase
      looping := looping
      quit := quit
      wakeupFd := wakeupFd } q := by
  refine ⟨h.represents, h.storing, h.increasing, h.bounded, houtside, hidle, ?_⟩
  intro hphase
  obtain ⟨hsettled, hle⟩ := hawake hphase
  rcases h.awake hsettled with hq | hfd | hcall
  · exact Or.inl hq
  · exact Or.inr (Or.inl (Nat.lt_of_lt_of_le hfd hle))
  · exact Or.inr (Or.inr hcall)

omit [DecidableEq ι] in
theorem Sound.busy (h : s.Sound q) {phase : Phase} {wakeupFd : Nat}
    (huser : phase.hasUserCode = true) (hsettled : phase.isSettled = false) :
    Sound { s with
      phase := phase
      wakeupFd := wakeupFd } q := by
  apply h.move
  · rintro rfl
    cases hsettled
  · intro hquiet
    rw [huser] at hquiet
    cases hquiet
  · intro hphase
    rw [hsettled] at hphase
    cases hphase

/-- `empty()` answers true only if there is nothing or the first functor's call is in progress. -/
theorem checkEmpty_sound (h : s.Sound q) (hstep : s.step .checkEmpty = some s') : s'.Sound q := by
  simp only [step] at hstep
  split at hstep <;> rename_i hguard
  · obtain ⟨-, hidle⟩ := hguard
    obtain ⟨funcs, hfuncs, hrepresents⟩ := MpscQueue.empty_spec h.represents
    rw [hfuncs] at hstep
    cases q with
    | nil =>
        obtain rfl := Option.some.inj hstep
        exact ⟨hrepresents, h.storing, h.increasing, h.bounded, nofun,
          fun _ => hidle, fun _ => Or.inl rfl⟩
    | cons e rest =>
        obtain ⟨item, storing⟩ := e
        cases storing with
        | none =>
            obtain rfl := Option.some.inj hstep
            exact ⟨hrepresents, h.storing, h.increasing, h.bounded, nofun,
              fun _ => hidle, nofun⟩
        | some thread =>
            obtain rfl := Option.some.inj hstep
            refine ⟨hrepresents, h.storing, h.increasing, h.bounded,
              nofun, fun _ => hidle, fun _ => ?_⟩
            have hcall := h.storing _ List.mem_cons_self thread rfl
            exact Or.inr (Or.inr ⟨_, rest, thread, _, rfl, hcall, rfl⟩)
  · cases hstep

theorem dequeue_sound (h : s.Sound q) (hstep : s.step .dequeue = some s') :
    ∃ q', s'.Sound q' := by
  simp only [step] at hstep
  split at hstep <;> rename_i hguard
  · obtain ⟨-, hidle⟩ := hguard
    obtain ⟨funcs, hfuncs, hrepresents⟩ := MpscQueue.dequeue_spec h.represents
    rw [hfuncs] at hstep
    cases q with
    | nil =>
        obtain rfl := Option.some.inj hstep
        exact ⟨[], hrepresents, h.storing, h.increasing, h.bounded, nofun,
          fun _ => hidle, nofun⟩
    | cons e rest =>
        obtain ⟨item, storing⟩ := e
        cases storing with
        | none =>
            obtain rfl := Option.some.inj hstep
            exact ⟨rest, hrepresents, fun e he => h.storing e (List.mem_cons_of_mem _ he),
              (List.pairwise_cons.mp h.increasing).2,
              fun e he => h.bounded e (List.mem_cons_of_mem _ he), nofun,
              fun _ => hidle, nofun⟩
        | some thread =>
            obtain rfl := Option.some.inj hstep
            exact ⟨_, hrepresents, h.storing, h.increasing, h.bounded,
              nofun, fun _ => hidle, nofun⟩
  · cases hstep

theorem step_sound {a : Action ι φ} (h : ∃ q, s.Sound q) (hstep : s.step a = some s') :
    ∃ q, s'.Sound q := by
  obtain ⟨q, h⟩ := h
  cases a with
  | exchange thread functor node => exact ⟨_, exchange_sound h hstep⟩
  | store thread => exact ⟨_, store_sound h hstep⟩
  | wakeup thread => exact ⟨q, wakeup_sound h hstep⟩
  | loop =>
      simp only [step] at hstep
      split at hstep <;> rename_i hguard
      · obtain rfl := Option.some.inj hstep
        refine ⟨q, h.move (fun hphase => by cases hphase) (fun _ => hguard.2) fun _ => ?_⟩
        rw [hguard.1]
        exact ⟨rfl, Nat.le_refl _⟩
      · cases hstep
  | test =>
      simp only [step] at hstep
      split at hstep <;> rename_i hguard
      · obtain rfl := Option.some.inj hstep
        have hidle := h.idle (by rw [hguard]; rfl)
        split
        · refine ⟨q, h.move (fun _ => rfl) (fun _ => hidle) fun _ => ?_⟩
          rw [hguard]
          exact ⟨rfl, Nat.le_refl _⟩
        · refine ⟨q, h.move (fun hphase => by cases hphase) (fun _ => hidle) fun _ => ?_⟩
          rw [hguard]
          exact ⟨rfl, Nat.le_refl _⟩
      · cases hstep
  | pollReturns wakeup =>
      simp only [step] at hstep
      split at hstep
      · obtain rfl := Option.some.inj hstep
        exact ⟨q, h.busy rfl rfl⟩
      · cases hstep
  | wakeupRead =>
      simp only [step] at hstep
      split at hstep
      · obtain rfl := Option.some.inj hstep
        exact ⟨q, h.busy rfl rfl⟩
      · cases hstep
  | handled =>
      simp only [step] at hstep
      split at hstep
      · obtain rfl := Option.some.inj hstep
        exact ⟨q, h.busy rfl rfl⟩
      · cases hstep
  | checkEmpty => exact ⟨q, checkEmpty_sound h hstep⟩
  | dequeue => exact dequeue_sound h hstep
  | functorReturns =>
      simp only [step] at hstep
      split at hstep
      · obtain rfl := Option.some.inj hstep
        exact ⟨q, h.busy rfl rfl⟩
      · cases hstep
  | quit =>
      obtain rfl := Option.some.inj hstep
      exact ⟨q, h.move h.outside h.idle fun hphase => ⟨hphase, Nat.le_refl _⟩⟩
  | write =>
      obtain rfl := Option.some.inj hstep
      exact ⟨q, h.move h.outside h.idle fun hphase => ⟨hphase, Nat.le_succ _⟩⟩

/-- In a loop that is blocked in `poll`, a functor whose call has returned waits only if the eventfd
is readable or a call that exchanged before is still in progress; so with no call in progress the
queue is empty or `poll` returns at once. -/
theorem runSteps_wakeup (loopThread : ι) (node : Addr) {ts : List (Action ι φ)}
    {s : EventLoop ι φ} (hrun : runSteps step (init loopThread φ node) ts = some s) :
    ∃ q, s.funcs.Represents q ∧
      (s.phase = .polling →
        (∀ e ∈ q, s.Completed e → 0 < s.wakeupFd ∨
          ∃ thread call, s.calls thread = some call ∧ call.ticket < e.item.ticket) ∧
        ((∀ thread, s.calls thread = none) → s.wakeupFd = 0 → q = [])) := by
  obtain ⟨q, h⟩ : ∃ q, s.Sound q := by
    apply runSteps_invariant (fun s : EventLoop ι φ => ∃ q, s.Sound q) _
      ⟨[], init_sound loopThread node⟩ hrun
    exact fun s a s' => step_sound
  refine ⟨q, h.represents, ?_⟩
  intro hphase
  have hawake := h.awake (by rw [hphase]; rfl)
  constructor
  · intro e he hcompleted
    rcases hawake with rfl | hfd | ⟨first, rest, thread, call, rfl, hcall, hticket⟩
    · exact absurd he List.not_mem_nil
    · exact Or.inl hfd
    · refine Or.inr ⟨thread, call, hcall, ?_⟩
      rw [hticket]
      rcases List.mem_cons.mp he with rfl | he
      · exact absurd hticket (hcompleted thread call hcall)
      · exact List.rel_of_pairwise_cons h.increasing he
  · intro hcalls hfd
    rcases hawake with rfl | hfd' | ⟨first, rest, thread, call, rfl, hcall, -⟩
    · rfl
    · rw [hfd] at hfd'
      cases hfd'
    · rw [hcalls thread] at hcall
      cases hcall

def sample : List (Action Bool Nat) :=
  [.loop, .test, .exchange false 7 1, .store false, .wakeup false]

theorem runSteps_wakeup_sample :
    ∃ s, runSteps step (init true Nat 0) sample = some s ∧ s.phase = .polling ∧
      ∃ q, s.funcs.Represents q ∧ ∀ e ∈ q, s.Completed e → 0 < s.wakeupFd ∨
        ∃ thread call, s.calls thread = some call ∧ call.ticket < e.item.ticket := by
  obtain ⟨s, hs, hphase⟩ := Option.map_eq_some_iff.mp
    (by decide : (runSteps step (init true Nat 0) sample).map (·.phase) = some Phase.polling)
  obtain ⟨q, hrepresents, hwakeup⟩ := runSteps_wakeup true 0 hs
  exact ⟨s, hs, hphase, q, hrepresents, (hwakeup hphase).1⟩

end EventLoop

end Cooper.Wakeup

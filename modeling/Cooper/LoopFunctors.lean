import Cooper.LoopProgress

namespace Cooper.LoopFunctors

open Cooper.StepRun Cooper.Progress Cooper.Wakeup Cooper.LoopProgress
open Cooper.LockFreeQueue hiding Action

variable {ι φ : Type*} [DecidableEq ι] {s s' : EventLoop ι φ} {a : Action ι φ}
  {as bs : List (Action ι φ)} {q : List (Entry ι (Func φ))} {L : ι}

/-- The functor that `dequeue` moves out of `funcs_`, which runs then. -/
def takes (s : EventLoop ι φ) : Action ι φ → List φ
  | .dequeue =>
      match s.funcs.step .dequeue with
      | some (_, .dequeue (some f)) => [f.functor]
      | _ => []
  | _ => []

def ran (s : EventLoop ι φ) : List (Action ι φ) → List φ
  | [] => []
  | a :: as =>
      takes s a ++
        match s.step a with
        | some s' => ran s' as
        | none => []

def queues : Action ι φ → List φ
  | .exchange _ functor _ => [functor]
  | _ => []

def queued (as : List (Action ι φ)) : List φ := as.flatMap queues

def functors (q : List (Entry ι (Func φ))) : List φ := q.map (·.item.functor)

section Order

theorem ran_cons (hstep : s.step a = some s') : ran s (a :: as) = takes s a ++ ran s' as := by
  rw [ran, hstep]

theorem functors_store (thread : ι) (q : List (Entry ι (Func φ))) :
    functors (q.map (·.store thread)) = functors q := by
  rw [functors, functors, List.map_map]
  refine List.map_congr_left fun e _ => ?_
  rw [Function.comp_apply, MpscQueue.store_item]

theorem step_dequeue_functors (h : s.Sound q) (hstep : s.step .dequeue = some s') :
    ∃ q', s'.Sound q' ∧ functors q = takes s .dequeue ++ functors q' := by
  have hphase : s.phase = .inner ∧ s.Idle := by
    simp only [EventLoop.step, Option.ite_none_right_eq_some] at hstep
    exact hstep.1
  by_cases hq : Blocked q
  · obtain ⟨funcs, hfuncs, hdequeue, hsound⟩ := step_dequeue_blocked h hq hphase.1 hphase.2
    obtain rfl := Option.some.inj (hdequeue.symm.trans hstep)
    refine ⟨q, hsound, ?_⟩
    rw [takes, hfuncs, List.nil_append]
  · cases q with
    | nil => exact absurd trivial hq
    | cons e rest =>
        obtain ⟨funcs, hfuncs, hdequeue, hsound⟩ :=
          step_dequeue_linked h (not_not.mp hq) hphase.1 hphase.2
        obtain rfl := Option.some.inj (hdequeue.symm.trans hstep)
        refine ⟨rest, hsound, ?_⟩
        rw [takes, hfuncs]
        rfl

theorem step_functors (h : s.Sound q) (hstep : s.step a = some s') :
    ∃ q', s'.Sound q' ∧ functors q ++ queues a = takes s a ++ functors q' := by
  by_cases ha : a = .dequeue
  · subst ha
    obtain ⟨q', h', heq⟩ := step_dequeue_functors h hstep
    exact ⟨q', h', (List.append_nil _).trans heq⟩
  · have htakes : takes s a = [] := by
      cases a <;> first | rfl | exact absurd rfl ha
    simp only [htakes, List.nil_append]
    cases a with
    | exchange thread functor node =>
        refine ⟨_, EventLoop.exchange_sound h hstep, ?_⟩
        rw [functors, functors, List.map_append]
        rfl
    | _ =>
        rcases step_queue h ha hstep with h' | ⟨thread, -, h'⟩ | ⟨thread, functor, node, heq, -⟩
        · exact ⟨q, h', List.append_nil _⟩
        · exact ⟨_, h', (List.append_nil _).trans (functors_store thread q).symm⟩
        · cases heq

theorem runSteps_functors (h : s.Sound q) (hrun : runSteps EventLoop.step s as = some s') :
    ∃ q', s'.Sound q' ∧ functors q ++ queued as = ran s as ++ functors q' := by
  induction as generalizing s q with
  | nil =>
      obtain rfl := Option.some.inj hrun
      exact ⟨q, h, List.append_nil _⟩
  | cons a as ih =>
      rw [runSteps_cons] at hrun
      obtain ⟨mid, hmid, hrest⟩ := Option.bind_eq_some_iff.mp hrun
      obtain ⟨q₁, h₁, heq₁⟩ := step_functors h hmid
      obtain ⟨q₂, h₂, heq₂⟩ := ih h₁ hrest
      refine ⟨q₂, h₂, ?_⟩
      rw [queued, List.flatMap_cons, ← List.append_assoc, heq₁, List.append_assoc, ← queued, heq₂,
        ran_cons hmid, List.append_assoc]

end Order

section Progress

/-- No other thread is in a call of `queueInLoop`. -/
def Calm (loopThread : ι) (s : EventLoop ι φ) : Prop :=
  Kept loopThread s ∧ ∀ thread, thread ≠ loopThread → s.calls thread = none

theorem Calm.step (h : Calm L s) (hown : ownStep L a) (hstep : s.step a = some s') : Calm L s' := by
  refine ⟨h.1.step hstep, fun thread hne => step_calls (h.2 thread hne) ?_ hstep⟩
  rintro functor node rfl
  cases hown

omit [DecidableEq ι] in
theorem Calm.eq_nil (h : Calm L s) (hidle : s.Idle) (hsound : s.Sound q) (hq : Blocked q) :
    q = [] := by
  cases q with
  | nil => rfl
  | cons e rest =>
      exfalso
      obtain ⟨thread, hthread⟩ := Option.ne_none_iff_exists'.mp hq
      have hcall := hsound.storing e List.mem_cons_self thread hthread
      have hnone : s.calls thread = none := by
        rcases eq_or_ne thread L with rfl | hne
        · rw [EventLoop.Idle, h.1.loopThread] at hidle
          exact hidle
        · exact h.2 thread hne
      rw [hnone] at hcall
      cases hcall

theorem blocked_of_sound (hsound : s.Sound []) (hsound' : s.Sound q) : Blocked q := by
  obtain ⟨funcs, hfuncs, -⟩ := MpscQueue.empty_spec hsound.represents
  obtain ⟨funcs', hfuncs', -⟩ := MpscQueue.empty_spec hsound'.represents
  have hanswer := congrArg Prod.snd (Option.some.inj (hfuncs.symm.trans hfuncs'))
  cases q with
  | nil => trivial
  | cons e rest =>
      obtain ⟨item, storing⟩ := e
      cases storing with
      | none => cases hanswer
      | some thread => exact Option.some_ne_none thread

def Drained (s : EventLoop ι φ) : Prop := s.phase = .polling ∧ s.Sound []

theorem leads_polling (hphase : s.phase = .test) (hquit : s.quit = false)
    (hsound : s.Sound []) : Leads EventLoop.step (ownStep L) s Drained := by
  have hnext := step_test hphase hquit
  refine .next (t := .test) rfl hnext (.here ⟨rfl, ?_⟩)
  rcases step_queue hsound (a := .test) (by rintro ⟨⟩) hnext with h' | ⟨_, heq, -⟩ | ⟨_, _, _, heq, -⟩
  · exact h'
  · cases heq
  · cases heq

theorem leads_drained_of_round (h : Calm L s) (houtside : s.phase ≠ .outside)
    (htest : s.phase ≠ .test) (hquit : s.quit = false) (hfd : s.phase = .polling → 0 < s.wakeupFd) :
    Leads EventLoop.step (ownStep L) s Drained := by
  have hround := (leads_test h.1 houtside htest hfd).keep (Calm L)
    (fun s a s' hs hown hstep => hs.step hown hstep) h
  refine hround.trans ?_
  rintro s₁ ⟨h₁, haround⟩
  obtain ⟨q, hsound, hq⟩ := haround.blocked
  have hidle : s₁.Idle := hsound.idle (by rw [haround.phase]; rfl)
  obtain rfl := h₁.eq_nil hidle hsound hq
  exact leads_polling haround.phase (haround.quit.trans hquit) hsound

omit [DecidableEq ι] in
/-- With an eventfd that is not readable and nobody in a call, a loop that may block in `poll` has
nothing in its queue. -/
theorem Calm.drained (h : Calm L s) (hsettled : s.phase.isSettled = true) (hidle : s.Idle)
    (hfd : s.wakeupFd = 0) (hsound : s.Sound q) : q = [] := by
  rcases hsound.awake hsettled with hq | hpos | ⟨e, rest, thread, call, -, hcall, -⟩
  · exact hq
  · omega
  · have hnone : s.calls thread = none := by
      rcases eq_or_ne thread L with rfl | hne
      · rw [EventLoop.Idle, h.1.loopThread] at hidle
        exact hidle
      · exact h.2 thread hne
    rw [hnone] at hcall
    cases hcall

theorem leads_drained (h : Calm L s) (houtside : s.phase ≠ .outside) (hquit : s.quit = false) :
    Leads EventLoop.step (ownStep L) s Drained := by
  have hpolling : ∀ s : EventLoop ι φ, Calm L s → s.phase = .polling → s.quit = false →
      Leads EventLoop.step (ownStep L) s Drained := by
    intro s h hphase hquit
    obtain ⟨q, hsound⟩ := h.1.sound
    have hidle : s.Idle := hsound.idle (by rw [hphase]; rfl)
    rcases Nat.eq_zero_or_pos s.wakeupFd with hfd | hfd
    · obtain rfl := h.drained (by rw [hphase]; rfl) hidle hfd hsound
      exact .here ⟨hphase, hsound⟩
    · refine leads_drained_of_round h ?_ ?_ hquit fun _ => hfd <;> rw [hphase] <;> exact nofun
  by_cases htest : s.phase = .test
  · have hnext := step_test htest hquit
    refine .next (t := .test) rfl hnext (hpolling _ ?_ rfl hquit)
    exact h.step (a := .test) rfl hnext
  · by_cases hphase : s.phase = .polling
    · exact hpolling s h hphase hquit
    · exact leads_drained_of_round h houtside htest hquit fun h => absurd h hphase

end Progress

section Runs

/-- In every run the functors run in the order in which they were queued, each at most once. While
the loop runs and nobody is in the middle of queueing one, its thread comes by itself to a `poll`
before which each of them has run. -/
theorem runSteps_ran (L : ι) (node : Addr)
    (hrun : runSteps EventLoop.step (.init L φ node) as = some s) :
    ran (.init L φ node) as <+: queued as ∧
      (s.phase ≠ .outside → s.quit = false → (∀ thread, thread ≠ L → s.calls thread = none) →
        ∃ bs s', (∀ b ∈ bs, ownStep L b) ∧ runSteps EventLoop.step s bs = some s' ∧
          s'.phase = .polling ∧ ran (.init L φ node) (as ++ bs) = queued as) := by
  have hinit : (EventLoop.init L φ node).Sound [] := EventLoop.init_sound L node
  obtain ⟨q, hsound, hbooks⟩ := runSteps_functors hinit hrun
  refine ⟨⟨functors q, hbooks.symm⟩, fun houtside hquit hcalls => ?_⟩
  have hcalm : Calm L s := ⟨runSteps_kept (init_kept L node) hrun, hcalls⟩
  obtain ⟨bs, hbs, s', hrun', hcalm', hphase, hempty⟩ :=
    (leads_drained hcalm houtside hquit).keep (Calm L)
      (fun s a s' hs hown hstep => hs.step hown hstep) hcalm
  refine ⟨bs, s', hbs, hrun', hphase, ?_⟩
  have htotal : runSteps EventLoop.step (.init L φ node) (as ++ bs) = some s' := by
    rw [runSteps_append, hrun, Option.bind_some, hrun']
  obtain ⟨q', hsound', hbooks'⟩ := runSteps_functors hinit htotal
  have hidle : s'.Idle := hempty.idle (by rw [hphase]; rfl)
  obtain rfl := hcalm'.eq_nil hidle hsound' (blocked_of_sound hempty hsound')
  have hbs' : queued bs = [] := by
    refine List.flatMap_eq_nil_iff.mpr fun b hb => ?_
    have hown := hbs b hb
    cases b <;> first | rfl | cases hown
  rw [functors, List.map_nil, List.append_nil, List.nil_append] at hbooks'
  rw [← hbooks', queued, List.flatMap_append, ← queued, ← queued, hbs', List.append_nil]

def queueing : List (Wakeup.Action Bool Nat) :=
  [.loop, .test, .exchange false 7 1, .store false, .wakeup false, .pollReturns true,
    .exchange false 8 2, .store false, .wakeup false]

theorem runSteps_ran_sample :
    ∃ s, runSteps EventLoop.step (.init true Nat 0) queueing = some s ∧
      ran (.init true Nat 0) queueing = [] ∧
        ∃ bs s', (∀ b ∈ bs, ownStep true b) ∧ runSteps EventLoop.step s bs = some s' ∧
          s'.phase = .polling ∧ ran (.init true Nat 0) (queueing ++ bs) = [7, 8] := by
  refine ⟨_, rfl, rfl, ?_⟩
  have hrun : runSteps EventLoop.step (.init true Nat 0) queueing = some _ := rfl
  refine (runSteps_ran true 0 hrun).2 nofun rfl ?_
  intro thread hthread
  cases thread with
  | false => rfl
  | true => exact absurd rfl hthread

end Runs

end Cooper.LoopFunctors

import Cooper.Progress
import Cooper.Wakeup
import Mathlib

namespace Cooper.LoopProgress

open Cooper.StepRun Cooper.Progress Cooper.Wakeup
open Cooper.LockFreeQueue hiding Action

variable {ι φ : Type*} [DecidableEq ι] {s s' : EventLoop ι φ} {a : Action ι φ}
  {e : Entry ι (Func φ)} {q rest : List (Entry ι (Func φ))}

def cycles : Action ι φ → Bool
  | .test | .pollReturns _ | .wakeupRead | .handled | .checkEmpty | .dequeue => true
  | .functorReturns => true
  | _ => false

/-- The steps that a loop thread takes when nobody asks for anything: those of `loop()`, where
`poll` returns for the eventfd only, and those of a call of `queueInLoop` that it is in. -/
def ownStep (loopThread : ι) : Action ι φ → Prop
  | .pollReturns wakeup => wakeup = true
  | .store thread | .wakeup thread => thread = loopThread
  | a => cycles a = true

def Storing (calls : ι → Option Call) (storing : ι → Option (Addr × Addr)) : Prop :=
  ∀ thread ticket, calls thread = some ⟨ticket, false⟩ → storing thread ≠ none

structure Kept (loopThread : ι) (s : EventLoop ι φ) : Prop where
  loopThread : s.loopThread = loopThread
  sound : ∃ q, s.Sound q
  storing : Storing s.calls s.funcs.storing

structure Front (loopThread : ι) (e : Entry ι (Func φ)) (s : EventLoop ι φ) : Prop
    extends Kept loopThread s where
  linked : e.storing = none
  front : ∃ rest, s.Sound (e :: rest)

section Front

theorem step_wakeup {thread : ι} {ticket : Nat} (hcall : s.calls thread = some ⟨ticket, true⟩) :
    s.step (.wakeup thread) = some { s with
      wakeupFd := if thread ≠ s.loopThread ∨ s.looping = false then s.wakeupFd + 1 else s.wakeupFd
      calls := Function.update s.calls thread none } := by
  simp only [EventLoop.step, hcall]

theorem step_test (hphase : s.phase = .test) (hquit : s.quit = false) :
    s.step .test = some { s with phase := .polling } := by
  simp only [EventLoop.step, if_pos hphase, hquit, if_neg Bool.false_ne_true]

theorem step_queue (h : s.Sound q) (ha : a ≠ .dequeue) (hstep : s.step a = some s') :
    s'.Sound q ∨ (∃ thread, a = .store thread ∧ s'.Sound (q.map (·.store thread))) ∨
      ∃ thread functor node, a = .exchange thread functor node ∧
        s'.Sound (q ++ [⟨⟨functor, s.tickets⟩, some thread⟩]) := by
  cases a with
  | exchange thread functor node =>
      exact .inr (.inr ⟨thread, functor, node, rfl, EventLoop.exchange_sound h hstep⟩)
  | store thread => exact .inr (.inl ⟨thread, rfl, EventLoop.store_sound h hstep⟩)
  | wakeup thread => exact .inl (EventLoop.wakeup_sound h hstep)
  | checkEmpty => exact .inl (EventLoop.checkEmpty_sound h hstep)
  | dequeue => exact absurd rfl ha
  | loop =>
      simp only [EventLoop.step, Option.ite_none_right_eq_some, Option.some.injEq] at hstep
      obtain ⟨⟨hphase, hidle⟩, rfl⟩ := hstep
      exact .inl (h.move (by rintro ⟨⟩) (fun _ => hidle) fun _ => ⟨by rw [hphase]; rfl, Nat.le_refl _⟩)
  | test =>
      simp only [EventLoop.step, Option.ite_none_right_eq_some, Option.some.injEq] at hstep
      obtain ⟨hphase, rfl⟩ := hstep
      have hidle := h.idle (by rw [hphase]; rfl)
      have hsettled : s.phase.isSettled = true := by rw [hphase]; rfl
      split
      · exact .inl (h.move (fun _ => rfl) (fun _ => hidle) fun _ => ⟨hsettled, Nat.le_refl _⟩)
      · exact .inl (h.move (by rintro ⟨⟩) (fun _ => hidle) fun _ => ⟨hsettled, Nat.le_refl _⟩)
  | pollReturns _ | wakeupRead | handled | functorReturns =>
      simp only [EventLoop.step, Option.ite_none_right_eq_some, Option.some.injEq] at hstep
      obtain ⟨-, rfl⟩ := hstep
      exact .inl (h.busy rfl rfl)
  | quit =>
      obtain rfl := Option.some.inj hstep
      exact .inl (h.move h.outside h.idle fun hphase => ⟨hphase, Nat.le_refl _⟩)
  | write =>
      obtain rfl := Option.some.inj hstep
      exact .inl (h.move h.outside h.idle fun hphase => ⟨hphase, Nat.le_succ _⟩)

theorem step_front (h : s.Sound (e :: rest)) (he : e.storing = none) (ha : a ≠ .dequeue)
    (hstep : s.step a = some s') : ∃ rest', s'.Sound (e :: rest') := by
  rcases step_queue h ha hstep with h' | ⟨thread, -, h'⟩ | ⟨thread, functor, node, -, h'⟩
  · exact ⟨rest, h'⟩
  · rw [List.map_cons, MpscQueue.store_of_ne (by rw [he]; exact nofun)] at h'
    exact ⟨_, h'⟩
  · exact ⟨_, h'⟩

theorem storing_dequeue {funcs : MpscQueue ι (Func φ)} {answer : Answer (Func φ)}
    (hfuncs : s.funcs.step .dequeue = some (funcs, answer)) : funcs.storing = s.funcs.storing := by
  simp only [MpscQueue.step] at hfuncs
  split at hfuncs
  · cases hfuncs
  · obtain ⟨rfl, -⟩ := Prod.mk.inj (Option.some.inj hfuncs)
    rfl
  · split at hfuncs
    · cases hfuncs
    · cases hfuncs
    · obtain ⟨rfl, -⟩ := Prod.mk.inj (Option.some.inj hfuncs)
      rfl

theorem storing_empty {funcs : MpscQueue ι (Func φ)} {answer : Answer (Func φ)}
    (hfuncs : s.funcs.step .empty = some (funcs, answer)) : funcs = s.funcs := by
  obtain ⟨n, -, heq⟩ := Option.map_eq_some_iff.mp hfuncs
  exact (Prod.mk.inj heq).1.symm

variable {L : ι}

theorem Storing.update {calls : ι → Option Call} {storing storing' : ι → Option (Addr × Addr)}
    (h : Storing calls storing) {thread : ι} {call : Option Call}
    (hcall : ∀ ticket, call ≠ some ⟨ticket, false⟩)
    (hother : ∀ other, other ≠ thread → storing' other = storing other) :
    Storing (Function.update calls thread call) storing' := by
  intro other ticket hstores
  rcases eq_or_ne other thread with rfl | hne
  · rw [Function.update_self] at hstores
    exact absurd hstores (hcall ticket)
  · rw [Function.update_of_ne hne] at hstores
    rw [hother other hne]
    exact h other ticket hstores

theorem step_storing (h : Storing s.calls s.funcs.storing) (hstep : s.step a = some s') :
    Storing s'.calls s'.funcs.storing := by
  cases a with
  | exchange thread functor node =>
      simp only [EventLoop.step, Option.ite_none_right_eq_some] at hstep
      obtain ⟨-, hstep⟩ := hstep
      obtain ⟨r, hfuncs, rfl⟩ := Option.map_eq_some_iff.mp hstep
      obtain rfl := Option.some.inj hfuncs
      intro other ticket hcall
      rcases eq_or_ne other thread with rfl | hne
      · simp only [Function.update_self]
        exact Option.some_ne_none _
      · simp only [Function.update_of_ne hne] at hcall ⊢
        exact h other ticket hcall
  | store thread =>
      simp only [EventLoop.step] at hstep
      split at hstep
      · obtain ⟨r, hfuncs, rfl⟩ := Option.map_eq_some_iff.mp hstep
        refine h.update (fun _ => by rintro ⟨⟩) fun other hne => ?_
        simp only [MpscQueue.step] at hfuncs
        split at hfuncs
        · cases hfuncs
        · obtain ⟨n, -, rfl⟩ := Option.map_eq_some_iff.mp hfuncs
          exact Function.update_of_ne hne _ _
      · cases hstep
  | wakeup thread =>
      simp only [EventLoop.step] at hstep
      split at hstep
      · obtain rfl := Option.some.inj hstep
        exact h.update (fun _ => by rintro ⟨⟩) fun _ _ => rfl
      · cases hstep
  | checkEmpty =>
      simp only [EventLoop.step, Option.ite_none_right_eq_some] at hstep
      obtain ⟨-, hstep⟩ := hstep
      split at hstep
      · rename_i hfuncs
        obtain rfl := Option.some.inj hstep
        rw [storing_empty hfuncs]
        exact h
      · rename_i hfuncs
        obtain rfl := Option.some.inj hstep
        rw [storing_empty hfuncs]
        exact h
      · cases hstep
  | dequeue =>
      simp only [EventLoop.step, Option.ite_none_right_eq_some] at hstep
      obtain ⟨-, hstep⟩ := hstep
      split at hstep
      · rename_i hfuncs
        obtain rfl := Option.some.inj hstep
        rw [storing_dequeue hfuncs]
        exact h
      · rename_i hfuncs
        obtain rfl := Option.some.inj hstep
        rw [storing_dequeue hfuncs]
        exact h
      · cases hstep
  | test =>
      simp only [EventLoop.step, Option.ite_none_right_eq_some, Option.some.injEq] at hstep
      obtain ⟨-, rfl⟩ := hstep
      split <;> exact h
  | loop | pollReturns _ | wakeupRead | handled | functorReturns =>
      simp only [EventLoop.step, Option.ite_none_right_eq_some, Option.some.injEq] at hstep
      obtain ⟨-, rfl⟩ := hstep
      exact h
  | quit | write =>
      obtain rfl := Option.some.inj hstep
      exact h

def Turn (s s' : EventLoop ι φ) : Action ι φ → Prop
  | .exchange _ _ _ | .store _ =>
      s'.phase = s.phase ∧ s'.quit = s.quit ∧ s'.wakeupFd = s.wakeupFd
  | .wakeup _ | .write => s'.phase = s.phase ∧ s'.quit = s.quit ∧ s.wakeupFd ≤ s'.wakeupFd
  | .loop =>
      s.phase = .outside ∧ s'.phase = .test ∧ s'.quit = false ∧ s'.wakeupFd = s.wakeupFd
  | .test =>
      s.phase = .test ∧ s'.phase = (if s.quit then .outside else .polling) ∧ s'.quit = s.quit ∧
        s'.wakeupFd = s.wakeupFd
  | .pollReturns wakeup =>
      s.phase = .polling ∧ s'.phase = .handling wakeup ∧ s'.quit = s.quit ∧
        s'.wakeupFd = s.wakeupFd
  | .wakeupRead =>
      s.phase = .handling true ∧ s'.phase = .handling false ∧ s'.quit = s.quit ∧ s'.wakeupFd = 0
  | .handled =>
      s.phase = .handling false ∧ s'.phase = .outer ∧ s'.quit = s.quit ∧ s'.wakeupFd = s.wakeupFd
  | .checkEmpty =>
      s.phase = .outer ∧ (s'.phase = .test ∨ s'.phase = .inner) ∧ s'.quit = s.quit ∧
        s'.wakeupFd = s.wakeupFd
  | .dequeue =>
      s.phase = .inner ∧ (s'.phase = .outer ∨ s'.phase = .running) ∧ s'.quit = s.quit ∧
        s'.wakeupFd = s.wakeupFd
  | .functorReturns =>
      s.phase = .running ∧ s'.phase = .inner ∧ s'.quit = s.quit ∧ s'.wakeupFd = s.wakeupFd
  | .quit => s'.phase = s.phase ∧ s'.quit = true ∧ s'.wakeupFd = s.wakeupFd

theorem step_turn (hstep : s.step a = some s') : s'.loopThread = s.loopThread ∧ Turn s s' a := by
  cases a with
  | exchange thread functor node =>
      obtain ⟨-, hstep⟩ := Option.ite_none_right_eq_some.mp hstep
      obtain ⟨r, -, rfl⟩ := Option.map_eq_some_iff.mp hstep
      exact ⟨rfl, rfl, rfl, rfl⟩
  | store thread =>
      simp only [EventLoop.step] at hstep
      split at hstep
      · obtain ⟨r, -, rfl⟩ := Option.map_eq_some_iff.mp hstep
        exact ⟨rfl, rfl, rfl, rfl⟩
      · cases hstep
  | wakeup thread =>
      simp only [EventLoop.step] at hstep
      split at hstep
      · obtain rfl := Option.some.inj hstep
        refine ⟨rfl, rfl, rfl, ?_⟩
        simp only
        split
        · exact Nat.le_succ _
        · exact Nat.le_refl _
      · cases hstep
  | loop =>
      obtain ⟨⟨hphase, -⟩, hstep⟩ := Option.ite_none_right_eq_some.mp hstep
      obtain rfl := Option.some.inj hstep
      exact ⟨rfl, hphase, rfl, rfl, rfl⟩
  | test =>
      obtain ⟨hphase, hstep⟩ := Option.ite_none_right_eq_some.mp hstep
      obtain rfl := Option.some.inj hstep
      rw [Turn]
      split
      · exact ⟨rfl, hphase, rfl, rfl, rfl⟩
      · exact ⟨rfl, hphase, rfl, rfl, rfl⟩
  | pollReturns wakeup | wakeupRead | handled | functorReturns =>
      obtain ⟨⟨hphase, -⟩, hstep⟩ := Option.ite_none_right_eq_some.mp hstep
      obtain rfl := Option.some.inj hstep
      exact ⟨rfl, hphase, rfl, rfl, rfl⟩
  | checkEmpty =>
      obtain ⟨⟨hphase, -⟩, hstep⟩ := Option.ite_none_right_eq_some.mp hstep
      split at hstep
      · obtain rfl := Option.some.inj hstep
        exact ⟨rfl, hphase, .inl rfl, rfl, rfl⟩
      · obtain rfl := Option.some.inj hstep
        exact ⟨rfl, hphase, .inr rfl, rfl, rfl⟩
      · cases hstep
  | dequeue =>
      obtain ⟨⟨hphase, -⟩, hstep⟩ := Option.ite_none_right_eq_some.mp hstep
      split at hstep
      · obtain rfl := Option.some.inj hstep
        exact ⟨rfl, hphase, .inl rfl, rfl, rfl⟩
      · obtain rfl := Option.some.inj hstep
        exact ⟨rfl, hphase, .inr rfl, rfl, rfl⟩
      · cases hstep
  | quit =>
      obtain rfl := Option.some.inj hstep
      exact ⟨rfl, rfl, rfl, rfl⟩
  | write =>
      obtain rfl := Option.some.inj hstep
      exact ⟨rfl, rfl, rfl, Nat.le_succ _⟩

theorem step_loopThread (hstep : s.step a = some s') : s'.loopThread = s.loopThread :=
  (step_turn hstep).1

theorem step_calls {thread : ι} (hcall : s.calls thread = none)
    (ha : ∀ functor node, a ≠ .exchange thread functor node) (hstep : s.step a = some s') :
    s'.calls thread = none := by
  cases a with
  | exchange other functor node =>
      simp only [EventLoop.step, Option.ite_none_right_eq_some] at hstep
      obtain ⟨r, -, rfl⟩ := Option.map_eq_some_iff.mp hstep.2
      refine (Function.update_of_ne ?_ _ _).trans hcall
      rintro rfl
      exact ha functor node rfl
  | store other | wakeup other =>
      have hne : thread ≠ other := by
        rintro rfl
        simp only [EventLoop.step, hcall] at hstep
        cases hstep
      simp only [EventLoop.step] at hstep
      split at hstep
      · first
          | obtain rfl := Option.some.inj hstep
            exact (Function.update_of_ne hne _ _).trans hcall
          | obtain ⟨r, -, rfl⟩ := Option.map_eq_some_iff.mp hstep
            exact (Function.update_of_ne hne _ _).trans hcall
      · cases hstep
  | quit | write =>
      obtain rfl := Option.some.inj hstep
      exact hcall
  | _ =>
      simp only [EventLoop.step] at hstep
      grind

theorem Kept.step (h : Kept L s) (hstep : s.step a = some s') : Kept L s' where
  loopThread := (step_loopThread hstep).trans h.loopThread
  sound := EventLoop.step_sound h.sound hstep
  storing := step_storing h.storing hstep

theorem Front.step (h : Front L e s) (ha : a ≠ .dequeue) (hstep : s.step a = some s') :
    Front L e s' := by
  obtain ⟨rest, hsound⟩ := h.front
  exact ⟨h.toKept.step hstep, h.linked, step_front hsound h.linked ha hstep⟩

end Front

section Take

theorem step_dequeue_linked (h : s.Sound (e :: rest)) (he : e.storing = none)
    (hphase : s.phase = .inner) (hidle : s.Idle) :
    ∃ funcs, s.funcs.step .dequeue = some (funcs, .dequeue (some e.item)) ∧
      s.step .dequeue = some { s with phase := .running, funcs } ∧
      EventLoop.Sound { s with phase := .running, funcs } rest := by
  obtain ⟨funcs, hfuncs, hrepresents⟩ := MpscQueue.dequeue_spec h.represents
  obtain ⟨item, storing⟩ := e
  obtain rfl : storing = none := he
  refine ⟨funcs, hfuncs, ?_, hrepresents, fun e he => h.storing e (List.mem_cons_of_mem _ he),
    (List.pairwise_cons.mp h.increasing).2, fun e he => h.bounded e (List.mem_cons_of_mem _ he),
    nofun, fun _ => hidle, nofun⟩
  simp only [EventLoop.step, if_pos (And.intro hphase hidle), hfuncs, specStep]

/-- The functor in front cannot be taken yet, or there is none. -/
def Blocked : List (Entry ι (Func φ)) → Prop
  | [] => True
  | e :: _ => e.storing ≠ none

theorem step_dequeue_blocked (h : s.Sound q) (hq : Blocked q) (hphase : s.phase = .inner)
    (hidle : s.Idle) :
    ∃ funcs, s.funcs.step .dequeue = some (funcs, .dequeue none) ∧
      s.step .dequeue = some { s with phase := .outer, funcs } ∧
      EventLoop.Sound { s with phase := .outer, funcs } q := by
  obtain ⟨funcs, hfuncs, hrepresents⟩ := MpscQueue.dequeue_spec h.represents
  have hspec : specStep q .dequeue = (q, .dequeue none) := by
    cases q with
    | nil => rfl
    | cons e q =>
        obtain ⟨item, storing⟩ := e
        cases storing with
        | none => exact absurd rfl hq
        | some thread => rfl
  rw [hspec] at hfuncs hrepresents
  refine ⟨funcs, hfuncs, ?_, hrepresents, h.storing, h.increasing, h.bounded, nofun, fun _ => hidle,
    nofun⟩
  simp only [EventLoop.step, if_pos (And.intro hphase hidle), hfuncs]

theorem step_checkEmpty_linked (h : s.Sound (e :: rest)) (he : e.storing = none)
    (hphase : s.phase = .outer) (hidle : s.Idle) :
    ∃ funcs, s.step .checkEmpty = some { s with phase := .inner, funcs } ∧
      EventLoop.Sound { s with phase := .inner, funcs } (e :: rest) := by
  obtain ⟨funcs, hfuncs, -⟩ := MpscQueue.empty_spec h.represents
  obtain ⟨item, storing⟩ := e
  obtain rfl : storing = none := he
  have hstep : s.step .checkEmpty = some { s with phase := .inner, funcs } := by
    simp only [EventLoop.step, if_pos (And.intro hphase hidle), hfuncs, specStep]
  exact ⟨funcs, hstep, EventLoop.checkEmpty_sound h hstep⟩

theorem step_checkEmpty_blocked (h : s.Sound q) (hq : Blocked q) (hphase : s.phase = .outer)
    (hidle : s.Idle) :
    ∃ funcs, s.step .checkEmpty = some { s with phase := .test, funcs } ∧
      EventLoop.Sound { s with phase := .test, funcs } q := by
  obtain ⟨funcs, hfuncs, -⟩ := MpscQueue.empty_spec h.represents
  have hspec : specStep q .empty = (q, .empty true) := by
    cases q with
    | nil => rfl
    | cons e q =>
        obtain ⟨item, storing⟩ := e
        cases storing with
        | none => exact absurd rfl hq
        | some thread => rfl
  rw [hspec] at hfuncs
  have hstep : s.step .checkEmpty = some { s with phase := .test, funcs } := by
    simp only [EventLoop.step, if_pos (And.intro hphase hidle), hfuncs]
  exact ⟨funcs, hstep, EventLoop.checkEmpty_sound h hstep⟩

end Take

section Leads

variable {L : ι} {Inv : EventLoop ι φ → Prop} (hkept : ∀ s, Inv s → Kept L s)
  (hstep : ∀ s a s', Inv s → ownStep L a → a ≠ .dequeue → s.step a = some s' → Inv s')

include hkept hstep

theorem leads_idle (h : Inv s) :
    Leads EventLoop.step (ownStep L) s fun s' =>
      Inv s' ∧ s'.Idle ∧ s'.phase = s.phase ∧ s'.quit = s.quit ∧ s.wakeupFd ≤ s'.wakeupFd := by
  have hlast : ∀ ticket s, Inv s → s.calls L = some ⟨ticket, true⟩ →
      Leads EventLoop.step (ownStep L) s fun s' =>
        Inv s' ∧ s'.Idle ∧ s'.phase = s.phase ∧ s'.quit = s.quit ∧
          s.wakeupFd ≤ s'.wakeupFd := by
    intro ticket s h hcall
    have hwakeup := step_wakeup hcall
    refine .next (t := .wakeup L) rfl hwakeup (.here ⟨?_, ?_, rfl, rfl, ?_⟩)
    · exact hstep s (.wakeup L) _ h rfl (by rintro ⟨⟩) hwakeup
    · rw [EventLoop.Idle, (hkept s h).loopThread]
      exact Function.update_self _ _ _
    · simp only
      split <;> omega
  cases hcall : s.calls L with
  | none =>
      refine .here ⟨h, ?_, rfl, rfl, Nat.le_refl _⟩
      rw [EventLoop.Idle, (hkept s h).loopThread]
      exact hcall
  | some call =>
      obtain ⟨ticket, stored⟩ := call
      cases stored with
      | true => exact hlast ticket s h hcall
      | false =>
          obtain ⟨q, hsound⟩ := (hkept s h).sound
          obtain ⟨funcs, hfuncs, -⟩ := @MpscQueue.store_spec _ _ _ _ _ hsound.represents L
            ((hkept s h).storing L ticket hcall)
          have hstore : s.step (.store L) = some { s with
              funcs
              calls := Function.update s.calls L (some ⟨ticket, true⟩) } := by
            simp only [EventLoop.step, hcall, hfuncs, Option.map_some]
          refine .next (t := .store L) rfl hstore ?_
          have h' := hstep s (.store L) _ h rfl (by rintro ⟨⟩) hstore
          exact hlast ticket _ h' (Function.update_self _ _ _)

/-- What the loop comes to: it is about to take a functor. -/
def Taking (Inv : EventLoop ι φ → Prop) (s : EventLoop ι φ) : Prop :=
  Inv s ∧ s.phase = .inner ∧ s.Idle

theorem leads_inner_of_running (h : Inv s) (hphase : s.phase = .running) :
    Leads EventLoop.step (ownStep L) s fun s' => Taking Inv s' ∧ s'.quit = s.quit := by
  refine (leads_idle hkept hstep h).trans ?_
  rintro s₁ ⟨h₁, hidle, hphase₁, hquit, -⟩
  have hreturn : s₁.step .functorReturns = some { s₁ with phase := .inner } := by
    simp only [EventLoop.step, if_pos (And.intro (hphase₁.trans hphase) hidle)]
  refine .next (t := .functorReturns) rfl hreturn (.here ⟨⟨?_, rfl, hidle⟩, hquit⟩)
  exact hstep s₁ .functorReturns _ h₁ rfl (by rintro ⟨⟩) hreturn

theorem leads_outer_of_handling (h : Inv s) {wakeup : Bool}
    (hphase : s.phase = .handling wakeup) :
    Leads EventLoop.step (ownStep L) s fun s' =>
      Inv s' ∧ s'.phase = .outer ∧ s'.Idle ∧ s'.quit = s.quit := by
  have hlast : ∀ s, Inv s → s.phase = .handling false → s.Idle →
      Leads EventLoop.step (ownStep L) s fun s' =>
        Inv s' ∧ s'.phase = .outer ∧ s'.Idle ∧ s'.quit = s.quit := by
    intro s h hphase hidle
    have hhandled : s.step .handled = some { s with phase := .outer } := by
      simp only [EventLoop.step, if_pos (And.intro hphase hidle)]
    refine .next (t := .handled) rfl hhandled (.here ⟨?_, rfl, hidle, rfl⟩)
    exact hstep s .handled _ h rfl (by rintro ⟨⟩) hhandled
  refine (leads_idle hkept hstep h).trans ?_
  rintro s₁ ⟨h₁, hidle, hphase₁, hquit, -⟩
  cases wakeup with
  | false =>
      refine (hlast s₁ h₁ (hphase₁.trans hphase) hidle).mono ?_
      rintro s₂ ⟨h₂, hphase₂, hidle₂, hquit₂⟩
      exact ⟨h₂, hphase₂, hidle₂, hquit₂.trans hquit⟩
  | true =>
      have hread : s₁.step .wakeupRead =
          some { s₁ with phase := .handling false, wakeupFd := 0 } := by
        simp only [EventLoop.step, if_pos (And.intro (hphase₁.trans hphase) hidle)]
      have h₂ := hstep s₁ .wakeupRead _ h₁ rfl (by rintro ⟨⟩) hread
      refine .next (t := .wakeupRead) rfl hread ((hlast _ h₂ rfl hidle).mono ?_)
      rintro s₂ ⟨h₂, hphase₂, hidle₂, hquit₂⟩
      exact ⟨h₂, hphase₂, hidle₂, hquit₂.trans hquit⟩

theorem leads_outer_of_polling (h : Inv s) (hphase : s.phase = .polling)
    (hfd : 0 < s.wakeupFd) :
    Leads EventLoop.step (ownStep L) s fun s' =>
      Inv s' ∧ s'.phase = .outer ∧ s'.Idle ∧ s'.quit = s.quit := by
  have hpoll : s.step (.pollReturns true) = some { s with phase := .handling true } :=
    if_pos ⟨hphase, fun _ => hfd⟩
  refine .next (t := .pollReturns true) rfl hpoll ?_
  exact leads_outer_of_handling hkept hstep (hstep s (.pollReturns true) _ h rfl nofun hpoll) rfl

end Leads

section Taking

variable {L : ι}

theorem leads_taking (h : Front L e s) (houtside : s.phase ≠ .outside)
    (htest : s.phase = .test → s.quit = false)
    (hfd : s.phase = .test ∨ s.phase = .polling → 0 < s.wakeupFd) :
    Leads EventLoop.step (ownStep L) s (Taking (Front L e)) := by
  have hkept : ∀ s : EventLoop ι φ, Front L e s → Kept L s := fun s h => h.toKept
  have hstep : ∀ s a s', Front L e s → ownStep L a → a ≠ .dequeue →
      s.step a = some s' → Front L e s' := fun s a s' h _ ha hstep => h.step ha hstep
  have houter : ∀ s, Front L e s → s.phase = .outer → s.Idle →
      Leads EventLoop.step (ownStep L) s (Taking (Front L e)) := by
    intro s h hphase hidle
    obtain ⟨rest, hsound⟩ := h.front
    obtain ⟨funcs, hempty, -⟩ := step_checkEmpty_linked hsound h.linked hphase hidle
    refine .next (t := .checkEmpty) rfl hempty (.here ⟨?_, rfl, hidle⟩)
    exact h.step (a := .checkEmpty) (by rintro ⟨⟩) hempty
  have hpolling : ∀ s, Front L e s → s.phase = .polling → 0 < s.wakeupFd →
      Leads EventLoop.step (ownStep L) s (Taking (Front L e)) := by
    intro s h hphase hfd
    refine (leads_outer_of_polling hkept hstep h hphase hfd).trans ?_
    rintro s' ⟨h', hphase', hidle', _⟩
    exact houter s' h' hphase' hidle'
  cases hphase : s.phase with
  | outside => exact absurd hphase houtside
  | test =>
      have hnext := step_test hphase (htest hphase)
      refine .next (t := .test) rfl hnext (hpolling _ ?_ rfl (hfd (.inl hphase)))
      exact h.step (a := .test) (by rintro ⟨⟩) hnext
  | polling => exact hpolling s h hphase (hfd (.inr hphase))
  | handling wakeup =>
      refine (leads_outer_of_handling hkept hstep h hphase).trans ?_
      rintro s' ⟨h', hphase', hidle', _⟩
      exact houter s' h' hphase' hidle'
  | outer =>
      refine (leads_idle hkept hstep h).trans ?_
      rintro s' ⟨h', hidle', hphase', _⟩
      exact houter s' h' (hphase'.trans hphase) hidle'
  | inner =>
      refine (leads_idle hkept hstep h).mono ?_
      rintro s' ⟨h', hidle', hphase', _⟩
      exact ⟨h', hphase'.trans hphase, hidle'⟩
  | running =>
      exact (leads_inner_of_running hkept hstep h hphase).mono fun s' hs' => hs'.1

end Taking

section Quit

variable {L : ι} {n : Nat}

def Holds (loopThread : ι) (n : Nat) (s : EventLoop ι φ) : Prop :=
  Kept loopThread s ∧ ∃ q, s.Sound q ∧ q.length = n

theorem Holds.step (h : Holds L n s) (hown : ownStep L a) (ha : a ≠ .dequeue)
    (hstep : s.step a = some s') : Holds L n s' := by
  obtain ⟨hkept, q, hsound, hlength⟩ := h
  refine ⟨hkept.step hstep, ?_⟩
  rcases step_queue hsound ha hstep with h' | ⟨thread, -, h'⟩ | ⟨thread, functor, node, rfl, -⟩
  · exact ⟨q, h', hlength⟩
  · exact ⟨_, h', (List.length_map _).trans hlength⟩
  · cases hown

structure Around (loopThread : ι) (quit : Bool) (s : EventLoop ι φ) : Prop
    extends Kept loopThread s where
  blocked : ∃ q, s.Sound q ∧ Blocked q
  phase : s.phase = .test
  quit : s.quit = quit

theorem leads_test_of_blocked (h : Kept L s) (hsound : s.Sound q) (hq : Blocked q)
    (hphase : s.phase = .outer) (hidle : s.Idle) :
    Leads EventLoop.step (ownStep L) s (Around L s.quit) := by
  obtain ⟨funcs, hempty, hsound'⟩ := step_checkEmpty_blocked hsound hq hphase hidle
  exact .next (t := .checkEmpty) rfl hempty (.here ⟨h.step hempty, ⟨q, hsound', hq⟩, rfl, rfl⟩)

/-- The loop thread comes to the condition of the loop, with fewer functors in each round. -/
theorem leads_test_of_inner (h : Taking (Holds L n) s) :
    Leads EventLoop.step (ownStep L) s (Around L s.quit) := by
  have hlast : ∀ (s : EventLoop ι φ) q, Kept L s → s.Sound q → Blocked q → s.phase = .inner →
      s.Idle → Leads EventLoop.step (ownStep L) s (Around L s.quit) := by
    intro s q hkept hsound hq hphase hidle
    obtain ⟨funcs, -, hdequeue, hsound'⟩ := step_dequeue_blocked hsound hq hphase hidle
    refine .next (t := .dequeue) rfl hdequeue ?_
    exact leads_test_of_blocked (hkept.step hdequeue) hsound' hq rfl hidle
  induction n generalizing s with
  | zero =>
      obtain ⟨⟨hkept, q, hsound, hlength⟩, hphase, hidle⟩ := h
      obtain rfl := List.length_eq_zero_iff.mp hlength
      exact hlast s [] hkept hsound trivial hphase hidle
  | succ n ih =>
      obtain ⟨⟨hkept, q, hsound, hlength⟩, hphase, hidle⟩ := h
      by_cases hq : Blocked q
      · exact hlast s q hkept hsound hq hphase hidle
      · cases q with
        | nil => cases hlength
        | cons e rest =>
            obtain ⟨funcs, -, hdequeue, hsound'⟩ :=
              step_dequeue_linked hsound (not_not.mp hq) hphase hidle
            have h' : Holds L n { s with phase := .running, funcs } :=
              ⟨hkept.step hdequeue, rest, hsound', Nat.succ.inj hlength⟩
            refine .next (t := .dequeue) rfl hdequeue ?_
            refine (leads_inner_of_running (fun s hs => hs.1)
              (fun s a s' hs hown ha => hs.step hown ha) h' rfl).trans ?_
            rintro s₁ ⟨h₁, hquit⟩
            have haround := ih h₁
            rw [hquit] at haround
            exact haround

theorem leads_test_of_outer (h : Holds L n s) (hphase : s.phase = .outer) (hidle : s.Idle) :
    Leads EventLoop.step (ownStep L) s (Around L s.quit) := by
  obtain ⟨hkept, q, hsound, hlength⟩ := h
  by_cases hq : Blocked q
  · exact leads_test_of_blocked hkept hsound hq hphase hidle
  · cases q with
    | nil => exact absurd trivial hq
    | cons e rest =>
        obtain ⟨funcs, hempty, hsound'⟩ :=
          step_checkEmpty_linked hsound (not_not.mp hq) hphase hidle
        refine .next (t := .checkEmpty) rfl hempty ?_
        exact leads_test_of_inner ⟨⟨hkept.step hempty, _, hsound', hlength⟩, rfl, hidle⟩

theorem leads_test (h : Kept L s) (houtside : s.phase ≠ .outside) (htest : s.phase ≠ .test)
    (hfd : s.phase = .polling → 0 < s.wakeupFd) :
    Leads EventLoop.step (ownStep L) s (Around L s.quit) := by
  obtain ⟨q, hsound⟩ := h.sound
  have hholds : Holds L q.length s := ⟨h, q, hsound, rfl⟩
  have hkept : ∀ n (s : EventLoop ι φ), Holds L n s → Kept L s := fun n s hs => hs.1
  have hstep : ∀ n (s : EventLoop ι φ) a s', Holds L n s → ownStep L a → a ≠ .dequeue →
      s.step a = some s' → Holds L n s' := fun n s a s' hs hown ha => hs.step hown ha
  have houter : ∀ s' : EventLoop ι φ,
      Holds L q.length s' ∧ s'.phase = .outer ∧ s'.Idle ∧ s'.quit = s.quit →
      Leads EventLoop.step (ownStep L) s' (Around L s.quit) := by
    rintro s₁ ⟨h₁, hphase₁, hidle₁, hquit₁⟩
    rw [← hquit₁]
    exact leads_test_of_outer h₁ hphase₁ hidle₁
  have hinner : ∀ s' : EventLoop ι φ, Taking (Holds L q.length) s' → s'.quit = s.quit →
      Leads EventLoop.step (ownStep L) s' (Around L s.quit) := by
    intro s₁ h₁ hquit₁
    rw [← hquit₁]
    exact leads_test_of_inner h₁
  cases hphase : s.phase with
  | outside => exact absurd hphase houtside
  | test => exact absurd hphase htest
  | polling =>
      exact (leads_outer_of_polling (hkept _) (hstep _) hholds hphase (hfd hphase)).trans houter
  | handling wakeup =>
      exact (leads_outer_of_handling (hkept _) (hstep _) hholds hphase).trans houter
  | outer =>
      refine (leads_idle (hkept _) (hstep _) hholds).trans ?_
      rintro s₁ ⟨h₁, hidle₁, hphase₁, hquit₁, -⟩
      exact houter s₁ ⟨h₁, hphase₁.trans hphase, hidle₁, hquit₁⟩
  | inner =>
      refine (leads_idle (hkept _) (hstep _) hholds).trans ?_
      rintro s₁ ⟨h₁, hidle₁, hphase₁, hquit₁, -⟩
      exact hinner s₁ ⟨h₁, hphase₁.trans hphase, hidle₁⟩ hquit₁
  | running =>
      refine (leads_inner_of_running (hkept _) (hstep _) hholds hphase).trans ?_
      exact fun s₁ ⟨h₁, hquit₁⟩ => hinner s₁ h₁ hquit₁

theorem leads_outside (h : Kept L s) (hquit : s.phase ≠ .outside → s.quit = true)
    (hfd : s.phase = .polling → 0 < s.wakeupFd) :
    Leads EventLoop.step (ownStep L) s fun s' => s'.phase = .outside ∧ s'.Idle := by
  have hlast : ∀ s : EventLoop ι φ, Kept L s → s.phase = .test → s.quit = true →
      Leads EventLoop.step (ownStep L) s fun s' => s'.phase = .outside ∧ s'.Idle := by
    intro s h hphase hquit
    obtain ⟨q, hsound⟩ := h.sound
    have hnext : s.step .test = some { s with phase := .outside, looping := false } := by
      simp only [EventLoop.step, if_pos hphase, if_pos hquit]
    exact .next (t := .test) rfl hnext (.here ⟨rfl, hsound.idle (by rw [hphase]; rfl)⟩)
  by_cases houtside : s.phase = .outside
  · refine (leads_idle (fun (s : EventLoop ι φ) (hs : Kept L s) => hs)
      (fun s a s' hs _ _ hstep => hs.step hstep) h).mono ?_
    rintro s' ⟨_, hidle', hphase', _⟩
    exact ⟨hphase'.trans houtside, hidle'⟩
  · by_cases htest : s.phase = .test
    · exact hlast s h htest (hquit houtside)
    · refine (leads_test h houtside htest hfd).trans ?_
      exact fun s' h' => hlast s' h'.toKept h'.phase (h'.quit.trans (hquit houtside))

omit [DecidableEq ι] in
theorem init_kept (loopThread : ι) (node : Addr) :
    Kept loopThread (.init loopThread φ node : EventLoop ι φ) where
  loopThread := rfl
  sound := ⟨[], EventLoop.init_sound loopThread node⟩
  storing _ _ h := nomatch h

theorem runSteps_kept (h : Kept L s) {as : List (Action ι φ)}
    (hrun : runSteps EventLoop.step s as = some s') : Kept L s' :=
  runSteps_invariant (Kept L) (fun _ _ _ h hstep => h.step hstep) h hrun

theorem step_quit (hstep : s.step a = some s') :
    s'.quit = true ↔ a = .quit ∨ s.quit = true ∧ a ≠ .loop := by
  have hturn := (step_turn hstep).2
  cases a with
  | quit => exact iff_of_true hturn.2.1 (.inl rfl)
  | loop =>
      rw [hturn.2.2.1]
      exact iff_of_false nofun fun h => h.elim nofun fun hboth => hboth.2 rfl
  | exchange | store | wakeup | write =>
      rw [hturn.2.1]
      exact ⟨fun h => .inr ⟨h, nofun⟩, fun h => (h.resolve_left nofun).1⟩
  | test | pollReturns | wakeupRead | handled | checkEmpty | dequeue | functorReturns =>
      rw [hturn.2.2.1]
      exact ⟨fun h => .inr ⟨h, nofun⟩, fun h => (h.resolve_left nofun).1⟩

theorem runSteps_quit {as : List (Action ι φ)} (has : .quit ∉ as)
    (hrun : runSteps EventLoop.step s as = some s') :
    s'.quit = true ↔ s.quit = true ∧ .loop ∉ as := by
  induction as generalizing s with
  | nil =>
      obtain rfl := Option.some.inj hrun
      simp only [List.not_mem_nil, not_false_eq_true, and_true]
  | cons a as ih =>
      rw [runSteps_cons] at hrun
      obtain ⟨mid, hmid, hrest⟩ := Option.bind_eq_some_iff.mp hrun
      obtain ⟨hne, has⟩ := List.ne_and_not_mem_of_not_mem_cons has
      rw [ih has hrest, step_quit hmid, List.mem_cons, not_or]
      constructor
      · rintro ⟨rfl | ⟨hquit, hloop⟩, hmem⟩
        · exact absurd rfl hne
        · exact ⟨hquit, Ne.symm hloop, hmem⟩
      · rintro ⟨hquit, hloop, hmem⟩
        exact ⟨.inr ⟨hquit, Ne.symm hloop⟩, hmem⟩

/-- `poll` will not block on the way out of `loop()`. -/
def Leaving (s : EventLoop ι φ) : Prop :=
  s.quit = true ∧ (s.phase = .polling → 0 < s.wakeupFd)

theorem step_leaving (h : Leaving s) (ha : a ≠ .loop) (hstep : s.step a = some s') :
    Leaving s' := by
  obtain ⟨hquit, hfd⟩ := h
  refine ⟨(step_quit hstep).mpr (.inr ⟨hquit, ha⟩), fun hpolling => ?_⟩
  have hturn := (step_turn hstep).2
  cases a with
  | loop => exact absurd rfl ha
  | exchange | store | quit => exact hturn.2.2.symm ▸ hfd (hturn.1.symm.trans hpolling)
  | wakeup | write => exact Nat.lt_of_lt_of_le (hfd (hturn.1.symm.trans hpolling)) hturn.2.2
  | test =>
      -- With `quit_` the loop is left.
      have hphase := hturn.2.1
      rw [if_pos hquit, hpolling] at hphase
      cases hphase
  | pollReturns | wakeupRead | handled | functorReturns =>
      have hphase := hturn.2.1
      rw [hpolling] at hphase
      cases hphase
  | checkEmpty | dequeue =>
      rcases hturn.2.1 with hphase | hphase <;> rw [hpolling] at hphase <;> cases hphase

theorem runSteps_leaving {as : List (Action ι φ)} (h : Leaving s) (has : .loop ∉ as)
    (hrun : runSteps EventLoop.step s as = some s') : Leaving s' := by
  have hall : AllSteps EventLoop.step (fun _ a => a ≠ .loop) s as := by
    refine allSteps_of_forall (fun a ha _ => ?_) s
    rintro rfl
    exact has ha
  exact hall.invariant Leaving (fun s a s' h ha hstep => step_leaving h ha hstep) h hrun

/-- The last call of `quit` takes the loop thread out of `loop()`, unless `loop()` is called after
it. The loop thread itself calls it without a write to the eventfd. -/
theorem leads_outside_iff (loopThread : ι) (node : Addr) {as bs : List (Action ι φ)}
    (hbs : .quit ∉ bs) (has : runSteps EventLoop.step (.init loopThread φ node) as = some s)
    (hrun : runSteps EventLoop.step s (.quit :: bs) = some s')
    (hwrite : s.phase = .polling → .write ∈ bs) :
    Leads EventLoop.step (ownStep loopThread) s' (fun s' => s'.phase = .outside ∧ s'.Idle) ↔
      s'.phase = .outside ∨ .loop ∉ bs := by
  have hkept : Kept loopThread s' :=
    runSteps_kept (runSteps_kept (init_kept loopThread node) has) hrun
  replace hrun : runSteps EventLoop.step { s with quit := true } bs = some s' := hrun
  have hquit := runSteps_quit hbs hrun
  have hsame : s'.quit = true ↔ .loop ∉ bs := by
    rw [hquit]
    exact and_iff_right rfl
  constructor
  · intro hleads
    by_contra hcon
    obtain ⟨hphase, hloop⟩ := not_or.mp hcon
    refine not_leads (fun s => s.phase ≠ .outside ∧ ¬s.quit = true) ?_ ?_ ?_ hleads
    · rintro s a s' ⟨hphase, hquit⟩ hown hstep
      cases a <;> simp only [EventLoop.step] at hstep <;>
        grind [Option.map_eq_some_iff, ownStep, cycles]
    · rintro s ⟨hphase, -⟩ ⟨hphase', -⟩
      exact hphase hphase'
    · exact ⟨hphase, fun h => hloop (hsame.mp h)⟩
  · intro h
    refine leads_outside hkept ?_ ?_
    · intro hphase
      exact hsame.mpr (h.resolve_left hphase)
    · intro hphase
      have hloop : .loop ∉ bs := by
        refine h.resolve_left ?_
        rw [hphase]
        rintro ⟨⟩
      by_cases hpolling : s.phase = .polling
      · obtain ⟨us, vs, rfl⟩ := List.append_of_mem (hwrite hpolling)
        rw [runSteps_append] at hrun
        obtain ⟨mid, hmid, hrest⟩ := Option.bind_eq_some_iff.mp hrun
        have hmidQuit : mid.quit = true := by
          refine (runSteps_quit (fun h => hbs (List.mem_append_left _ h)) hmid).mpr ⟨rfl, ?_⟩
          exact fun h => hloop (List.mem_append_left _ h)
        have hleaving : Leaving { mid with wakeupFd := mid.wakeupFd + 1 } :=
          ⟨hmidQuit, fun _ => Nat.succ_pos _⟩
        refine (runSteps_leaving hleaving ?_ hrest).2 hphase
        exact fun h => hloop (List.mem_append_right _ (List.mem_cons_of_mem _ h))
      · have hleaving : Leaving { s with quit := true } := ⟨rfl, fun h => absurd h hpolling⟩
        exact (runSteps_leaving hleaving hloop hrun).2 hphase

/-- A call of `quit` while the loop is in `poll`, and one before `loop()`, which is lost. -/
theorem leads_outside_iff_sample :
    (∃ s, runSteps EventLoop.step (.init true Nat 0) [.loop, .test, .quit, .write] = some s ∧
      Leads EventLoop.step (ownStep true) s fun s' => s'.phase = .outside ∧ s'.Idle) ∧
    ∃ s, runSteps EventLoop.step (.init true Nat 0) [.quit, .write, .loop, .test] = some s ∧
      ¬Leads EventLoop.step (ownStep true) s fun s' => s'.phase = .outside ∧ s'.Idle := by
  constructor
  · have hbs : (.quit : Wakeup.Action Bool Nat) ∉ [.write] := by simp
    have hrun : runSteps EventLoop.step (.init true Nat 0) [.loop, .test] = some _ := rfl
    refine ⟨_, rfl, (leads_outside_iff true 0 hbs hrun rfl fun _ => ?_).mpr (.inr ?_)⟩
    · exact List.mem_singleton_self _
    · simp
  · have hbs : (.quit : Wakeup.Action Bool Nat) ∉ [.write, .loop, .test] := by simp
    have hrun : runSteps EventLoop.step (.init true Nat 0) [] = some _ := rfl
    refine ⟨_, rfl, fun hleads => ?_⟩
    rcases (leads_outside_iff true 0 hbs hrun rfl nofun).mp hleads with hphase | hloop
    · exact nomatch hphase
    · exact hloop (by simp)

end Quit

end Cooper.LoopProgress

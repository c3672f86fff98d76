import Cooper.ShutdownBarrier
import Cooper.ThreadBooks

namespace Cooper.GracefulShutdown

open Cooper.ConnectionThread
open Cooper.MsgBuffer
open Cooper.OpenSSLProvider (OpenSSL)
open Cooper.SendAfterClose (isCall)
open Cooper.ShutdownBarrier (fullKernel readyKernel shutdown_closed)
open Cooper.SocketGrowth
open Cooper.StepRun
open Cooper.TcpConnectionImpl (IoResult Kernel)
open Cooper.ThreadBooks
open Cooper.ThreadOutcome
open Cooper.WriteQueue (OnlyEAGAIN accepted output payload)

variable {σ : Type*} (kernel : Kernel) (S : OpenSSL σ)

structure Watched (σ : Type*) where
  thread : LoopThread σ
  /-- The data of the sends that have been called before. -/
  promised : Bytes
  /-- How many of the functors that wait are of before. -/
  ahead : Nat

def noted (s : LoopThread σ) : Watched σ where
  thread := s
  promised := accepted s.conn
  ahead := s.funcs.length

/-- A step takes at most the first of the functors. -/
def watch (w : Watched σ) (event : Event) : Option (Watched σ) :=
  (step kernel S w.thread event).map fun thread =>
    { w with
      thread
      ahead := if thread.funcs.length < w.thread.funcs.length then w.ahead - 1 else w.ahead }

def before (w : Watched σ) : List Functor := w.thread.funcs.take w.ahead

/-- The write side is closed only behind all that is promised, and of that everything has been
written, is buffered, is about to be sent or waits in a functor of before. -/
def KeepsPromise (w : Watched σ) : Prop :=
  (w.thread.conn.socket.writeClosed → w.promised <+: w.thread.conn.socket.written) ∧
    w.promised <+: handed w.thread ++ waiting (before w)

def LosesNothing (w : Watched σ) (event : Event) : Prop :=
  ∀ w' ∈ watch kernel S w event, KeepsPromise w'

def takesEffect (s : LoopThread σ) (event : Event) : Bool :=
  runsShutdown s event && s.conn.status = .Connected && s.conn.writeBufferList = []

/-- When `shutdown()` takes effect, no functor of before waits that has something to send. -/
def Meets (w : Watched σ) (event : Event) : Prop :=
  takesEffect w.thread event → (before w).all fun functor => functorPayload functor = []

instance (w : Watched σ) : Decidable (KeepsPromise w) := inferInstanceAs (Decidable (_ ∧ _))

instance (w : Watched σ) (event : Event) : Decidable (LosesNothing kernel S w event) :=
  inferInstanceAs (Decidable (∀ w' ∈ watch kernel S w event, KeepsPromise w'))

instance (w : Watched σ) (event : Event) : Decidable (Meets w event) :=
  inferInstanceAs (Decidable (_ → _))

section Waiting

theorem waiting_cons (functor : Functor) (funcs : List Functor) :
    waiting (functor :: funcs) = functorPayload functor ++ waiting funcs := by
  rw [waiting, List.map_cons, List.flatten_cons]
  rfl

theorem waiting_append (funcs funcs' : List Functor) :
    waiting (funcs ++ funcs') = waiting funcs ++ waiting funcs' := by
  rw [waiting, List.map_append, List.flatten_append]
  rfl

theorem waiting_mono {funcs funcs' : List Functor} (h : funcs <+: funcs') :
    waiting funcs <+: waiting funcs' := by
  obtain ⟨rest, rfl⟩ := h
  rw [waiting_append]
  exact List.prefix_append _ _

theorem waiting_eq_nil {funcs : List Functor}
    (h : ∀ functor ∈ funcs, functorPayload functor = []) : waiting funcs = [] := by
  rw [waiting, List.flatten_eq_nil_iff]
  intro payload hmem
  obtain ⟨functor, hfunctor, rfl⟩ := List.mem_map.mp hmem
  exact h functor hfunctor

theorem waiting_of_no_call {funcs : List Functor} (h : funcs.countP isCall = 0) :
    waiting funcs = [] := by
  apply waiting_eq_nil
  intro functor hmem
  have hcall := List.countP_eq_zero.mp h functor hmem
  cases functor with
  | connectDestroyed => rfl
  | request request =>
      cases request with
      | call call => exact absurd rfl hcall
      | shutdown | forceClose => rfl

end Waiting

section Invariant

variable {kernel S} {s s' : LoopThread σ} {event : Event}

/-- On an open connection every byte that has been sent is written, buffered, about to be sent or
waits in a functor. -/
structure Balanced (s : LoopThread σ) : Prop where
  sends : Sends s
  books : handed s ++ waiting s.funcs = accepted s.conn

theorem balanced_established (highWaterMarkLen : Option Nat) (inServerLoop : Bool) :
    Balanced (@established σ highWaterMarkLen inServerLoop none) :=
  ⟨sends_established highWaterMarkLen inServerLoop, rfl⟩

theorem books_of_moved (h : Moved s event s')
    (hbooks : handed s ++ waiting s.funcs = accepted s.conn) :
    handed s' ++ waiting s'.funcs = accepted s'.conn := by
  cases h with
  | keeps hhanded hfuncs haccepted => rw [hhanded, hfuncs, haccepted, hbooks]
  | enters functor hfuncs hhanded haccepted =>
      rw [hhanded, haccepted, ← hbooks, hfuncs, waiting_cons, List.append_assoc]
  | direct call hnone hhanded hfuncs haccepted =>
      rw [hhanded, hfuncs, haccepted, ← hbooks, waiting_of_no_call hnone, List.append_nil,
        List.append_nil]
  | queued call hhanded hfuncs haccepted =>
      rw [hhanded, hfuncs, haccepted, ← hbooks, waiting_append, List.append_assoc]
      simp [waiting, functorPayload]
  | asked hhanded hfuncs haccepted =>
      rw [hhanded, hfuncs, haccepted, ← hbooks, waiting_append]
      simp [waiting, functorPayload]

theorem step_of_runsShutdown (hruns : runsShutdown s event) (hclose : s.conn.writeBufferList = [])
    (hstep : step kernel S s event = some s') :
    ∃ stack funcs, s' = shutdown kernel S { s with stack, funcs } := by
  cases event with
  | inLoop request =>
      cases request with
      | shutdown =>
          simp only [runsShutdown] at hruns
          rw [step, if_pos hruns] at hstep
          exact ⟨s.stack, s.funcs, (Option.some.inj hstep).symm⟩
      | call | forceClose => simp [runsShutdown] at hruns
  | functor =>
      simp only [runsShutdown, Bool.and_eq_true, decide_eq_true_eq] at hruns
      obtain ⟨funcs, hfuncs⟩ := List.head?_eq_some_iff.mp hruns.2
      simp only [step, hruns.1, hfuncs, runFunctor, Option.some.injEq] at hstep
      exact ⟨[], funcs, hstep.symm⟩
  | resume =>
      simp only [runsShutdown, Bool.and_eq_true, decide_eq_true_eq] at hruns
      obtain ⟨stack, hstack⟩ := List.head?_eq_some_iff.mp hruns.1
      simp only [step, hstack, exec, checkCloseOnEmpty, hruns.2, hclose, true_or, and_self, if_true,
        Option.some.injEq] at hstep
      exact ⟨stack, s.funcs, hstep.symm⟩
  | handleEvent | elsewhere | serverLoop => simp [runsShutdown] at hruns

theorem flight_of_runsShutdown (h : Sends s) (hruns : runsShutdown s event) :
    flight s.stack = [] := by
  cases event with
  | inLoop request =>
      cases request with
      | shutdown => exact (h.inUser_flight hruns).1
      | call | forceClose => simp [runsShutdown] at hruns
  | functor =>
      simp only [runsShutdown, Bool.and_eq_true, decide_eq_true_eq] at hruns
      rw [hruns.1]
      rfl
  | resume =>
      simp only [runsShutdown, Bool.and_eq_true, decide_eq_true_eq] at hruns
      obtain ⟨stack, hstack⟩ := List.head?_eq_some_iff.mp hruns.1
      rw [hstack]
      rfl
  | handleEvent | elsewhere | serverLoop => simp [runsShutdown] at hruns

/-- A `shutdown()` that takes effect finds everything written that has been handed over, and it ends
the time in which the connection is `Connected`. -/
theorem ends_of_takesEffect (h : Sends s) (heffect : takesEffect s event)
    (hstep : step kernel S s event = some s') :
    s'.conn.status ≠ .Connected ∧ handed s = s.conn.socket.written := by
  simp only [takesEffect, Bool.and_eq_true, decide_eq_true_eq] at heffect
  obtain ⟨⟨hruns, -⟩, hempty⟩ := heffect
  constructor
  · obtain ⟨stack, funcs, rfl⟩ := step_of_runsShutdown hruns hempty hstep
    exact shutdown_closed h.plain fun _ => hempty
  · have hbuffer : s.conn.fileBuffer = [] := by
      apply h.conn.fileBuffer_eq_nil
      rintro ⟨_, _, _, hlist, -⟩
      simp [hempty] at hlist
    simp [handed, output, flight_of_runsShutdown h hruns, hbuffer, hempty]

theorem Balanced.step (hk : OnlyEAGAIN kernel) (h : Balanced s) (hgraceful : graceful event)
    (hstep : ConnectionThread.step kernel S s event = some s') :
    s'.conn.status = .Connected → Balanced s' := by
  intro hconnected
  have hpending : runsShutdown s event → s.conn.writeBufferList ≠ [] := by
    intro hruns hempty
    have heffect : takesEffect s event := by
      simp [takesEffect, hruns, hempty, h.sends.conn.connected]
    exact (ends_of_takesEffect h.sends heffect hstep).1 hconnected
  obtain ⟨hsends, hmoved⟩ := h.sends.step hk hgraceful hpending hstep
  exact ⟨hsends, books_of_moved hmoved h.books⟩

theorem balanced_of_run (hk : OnlyEAGAIN kernel) {highWaterMarkLen : Option Nat}
    {inServerLoop : Bool} {events : List Event} (hgraceful : ∀ event ∈ events, graceful event)
    (hrun : runSteps (ConnectionThread.step kernel S)
      (established highWaterMarkLen inServerLoop none) events = some s)
    (hconnected : s.conn.status = .Connected) : Balanced s := by
  let Inv (s : LoopThread σ) : Prop :=
    s.tlsProvider = none ∧ (s.conn.status = .Connected → Balanced s)
  have hinv : Inv s := by
    apply AllSteps.invariant Inv _ ⟨rfl, fun _ => balanced_established _ _⟩
      (allSteps_of_forall (fun event hmem _ => hgraceful event hmem) _) hrun
    intro s event s' hinv hevent hstep
    have hflows := step_flows hinv.1 hstep
    refine ⟨hflows.plain hinv.1, fun hconnected => ?_⟩
    have hbefore : s.conn.status = .Connected := by
      by_contra hclosed
      exact hflows.status hclosed hconnected
    exact (hinv.2 hbefore).step hk hevent hstep hconnected
  exact hinv.2 hconnected

/-- Nothing has been lost: the connection is open, or it is closed and everything promised has been
written. -/
inductive Kept (w : Watched σ) : Prop
  | opened (sends : Sends w.thread) (promise : w.promised <+: handed w.thread ++ waiting (before w))
  | closed (plain : w.thread.tlsProvider = none) (status : w.thread.conn.status ≠ .Connected)
      (promise : w.promised <+: w.thread.conn.socket.written)

variable {w w' : Watched σ}

theorem Kept.keepsPromise (h : Kept w) : KeepsPromise w := by
  cases h with
  | opened sends promise =>
      refine ⟨fun hclosed => ?_, promise⟩
      rw [sends.conn.writable] at hclosed
      exact Bool.noConfusion hclosed
  | closed _ _ promise =>
      refine ⟨fun _ => promise, promise.trans ?_⟩
      simp only [handed, output, List.append_assoc]
      exact List.prefix_append _ _

theorem kept_noted (h : Balanced s) : Kept (noted s) := by
  refine .opened h.sends ?_
  rw [before, noted, List.take_length, h.books]

theorem promise_of_moved {thread : LoopThread σ} (h : Moved w.thread event thread)
    (hpromise : w.promised <+: handed w.thread ++ waiting (before w)) :
    let ahead := if thread.funcs.length < w.thread.funcs.length then w.ahead - 1 else w.ahead
    w.promised <+: handed thread ++ waiting (thread.funcs.take ahead) := by
  unfold before at hpromise
  -- functors that come behind those of before
  have hbehind : ∀ functor, handed thread = handed w.thread →
      thread.funcs = w.thread.funcs ++ [functor] →
      w.promised <+: handed thread ++ waiting (thread.funcs.take w.ahead) := by
    intro functor hhanded hfuncs
    rw [hhanded]
    refine hpromise.trans ((List.prefix_append_right_inj _).mpr (waiting_mono ?_))
    rw [hfuncs, List.take_append]
    exact List.prefix_append _ _
  cases h with
  | keeps hhanded hfuncs _ =>
      simpa only [hhanded, hfuncs, lt_irrefl, if_false] using hpromise
  | enters functor hfuncs hhanded _ =>
      simp only [hfuncs, List.length_cons, Nat.lt_succ_self, if_true, hhanded]
      rw [hfuncs] at hpromise
      cases hahead : w.ahead with
      | zero =>
          rw [hahead, List.take_zero] at hpromise
          refine hpromise.trans ?_
          simp [waiting]
      | succ n =>
          rw [hahead, List.take_succ_cons, waiting_cons] at hpromise
          simpa using hpromise
  | direct call hnone hhanded hfuncs _ =>
      have hwaiting : waiting (w.thread.funcs.take w.ahead) = [] := by
        apply waiting_of_no_call
        exact Nat.le_zero.mp (hnone ▸ (List.take_sublist _ _).countP_le)
      simp only [hfuncs, lt_irrefl, if_false, hhanded, hwaiting, List.append_nil]
      rw [hwaiting, List.append_nil] at hpromise
      exact hpromise.trans (List.prefix_append _ _)
  | queued call hhanded hfuncs _ =>
      have hlength : ¬thread.funcs.length < w.thread.funcs.length := by simp [hfuncs]
      simpa only [if_neg hlength] using hbehind _ hhanded hfuncs
  | asked hhanded hfuncs _ =>
      have hlength : ¬thread.funcs.length < w.thread.funcs.length := by simp [hfuncs]
      simpa only [if_neg hlength] using hbehind _ hhanded hfuncs

theorem Kept.watch (hk : OnlyEAGAIN kernel) (h : Kept w) (hgraceful : graceful event)
    (hmeets : Meets w event) (hwatch : GracefulShutdown.watch kernel S w event = some w') :
    Kept w' := by
  obtain ⟨thread, hstep, rfl⟩ := Option.map_eq_some_iff.mp hwatch
  cases h with
  | closed plain status promise =>
      have hflows := step_flows plain hstep
      exact .closed (hflows.plain plain) (hflows.status status) (promise.trans hflows.socket.written)
  | opened sends promise =>
      by_cases heffect : takesEffect w.thread event
      · have hflows := step_flows sends.plain hstep
        obtain ⟨hstatus, hwritten⟩ := ends_of_takesEffect sends heffect hstep
        have hnone : waiting (before w) = [] := by
          apply waiting_eq_nil
          intro functor hmem
          exact of_decide_eq_true (List.all_eq_true.mp (hmeets heffect) functor hmem)
        rw [hnone, List.append_nil, hwritten] at promise
        exact .closed (hflows.plain sends.plain) hstatus (promise.trans hflows.socket.written)
      · have hpending : runsShutdown w.thread event → w.thread.conn.writeBufferList ≠ [] := by
          intro hruns hempty
          exact heffect (by simp [takesEffect, hruns, hempty, sends.conn.connected])
        obtain ⟨hsends, hmoved⟩ := sends.step hk hgraceful hpending hstep
        exact .opened hsends (promise_of_moved hmoved promise)

/-- `shutdown()` may be called in any state `s` in which the connection is `Connected`. When no
`shutdown()` takes effect before the functors of the sends that have been called till then, nothing
of these sends is lost. -/
theorem allSteps_losesNothing (hk : OnlyEAGAIN kernel) (highWaterMarkLen : Option Nat)
    (inServerLoop : Bool) {events events' : List Event}
    (hgraceful : (events ++ events').all graceful)
    (hrun : runSteps (step kernel S) (established highWaterMarkLen inServerLoop none) events = some s)
    (hconnected : s.conn.status = .Connected)
    (hmeets : AllSteps (GracefulShutdown.watch kernel S) Meets (noted s) events') :
    AllSteps (GracefulShutdown.watch kernel S) (LosesNothing kernel S) (noted s) events' := by
  rw [List.all_append, Bool.and_eq_true, List.all_eq_true, List.all_eq_true] at hgraceful
  have hkept : Kept (noted s) := kept_noted (balanced_of_run hk hgraceful.1 hrun hconnected)
  have hsteps := hmeets.and (allSteps_of_forall (fun event hmem _ => hgraceful.2 event hmem) _)
  refine hsteps.imp Kept ?_ ?_ hkept
  · exact fun w event w' h hevent hwatch => h.watch hk hevent.2 hevent.1 hwatch
  · intro w event h hevent w' hwatch
    exact (h.watch hk hevent.2 hevent.1 hwatch).keepsPromise

def twoSends : List Event :=
  [.inLoop (.call (.send [1, 2])), .resume, .resume, .resume, .elsewhere (.call (.send [3]))]

def shutdownElsewhere : List Event :=
  [.elsewhere .shutdown, .functor, .resume, .resume, .functor, .writable, .resume, .resume,
    .writable, .resume, .resume, .resume, .resume]

theorem allSteps_losesNothing_fullKernel :
    ∃ s, runSteps (step fullKernel unusedSSL) (established none true none) twoSends = some s ∧
      AllSteps (GracefulShutdown.watch fullKernel unusedSSL) (LosesNothing fullKernel unusedSSL)
        (noted s) shutdownElsewhere := by
  have hk : OnlyEAGAIN fullKernel := by
    intro calls len e he
    unfold fullKernel at he
    split at he
    · exact (IoResult.error.inj he).symm
    · simp at he
  have hgraceful : (twoSends ++ shutdownElsewhere).all graceful := by decide
  exact ⟨_, rfl, allSteps_losesNothing hk none true hgraceful rfl rfl (by decide)⟩

/-- A send of another thread waits in the loop when `connectionCallback_` calls `shutdown()`. -/
theorem not_allSteps_losesNothing :
    OnlyEAGAIN readyKernel ∧
      [Event.elsewhere (.call (.send [1])), .inLoop .shutdown].all graceful ∧
      ∃ s, runSteps (step readyKernel unusedSSL) (established none true none)
          [.elsewhere (.call (.send [1]))] = some s ∧ s.conn.status = .Connected ∧
        ¬AllSteps (GracefulShutdown.watch readyKernel unusedSSL)
          (LosesNothing readyKernel unusedSSL) (noted s) [.inLoop .shutdown] := by
  refine ⟨?_, by decide, _, rfl, rfl, by decide⟩
  rintro calls len e ⟨⟩

end Invariant

end Cooper.GracefulShutdown

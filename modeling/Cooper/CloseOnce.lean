import Cooper.ThreadOutcome

namespace Cooper.CloseOnce

open Cooper.ConnectionThread
open Cooper.MsgBuffer
open Cooper.OpenSSLProvider (OpenSSL Provider)
open Cooper.StepRun
open Cooper.TcpConnectionImpl (BufferNode ConnEvent ConnStatus Connection Kernel ReadResult
  SendCall)
open Cooper.ThreadOutcome

/-- The way of a close from `handleClose` to `connectDestroyed`: how often each station has been
passed, and how often what leads to the next one waits. -/
structure Closing where
  disconnected : Bool
  reported : Nat
  callbackFrames : Nat
  closeCallbacks : Nat
  closing : Nat
  inConnSet : Bool
  erased : List Nat
  destroyFunctors : Nat
  destroyed : Nat

namespace Closing

def handleClose (v : Closing) : Closing :=
  { v with
    disconnected := true
    reported := v.reported + 1
    callbackFrames := v.callbackFrames + 1 }

def handleCloseInLoop (v : Closing) : Closing :=
  { v with
    erased := v.erased ++ [v.inConnSet.toNat]
    inConnSet := false
    destroyFunctors := v.destroyFunctors + 1 }

/-- The close has been begun once when the connection is disconnected, and it has then passed each
station or waits before it. -/
structure Once (v : Closing) : Prop where
  reported : v.reported = v.disconnected.toNat
  called : v.closeCallbacks + v.callbackFrames = v.disconnected.toNat
  handled : v.erased.length + v.closing = v.closeCallbacks
  inConnSet : v.inConnSet = v.erased.isEmpty
  erased : ∀ n ∈ v.erased, n = 1
  destroyed : v.destroyed + v.destroyFunctors = v.erased.length

variable {v : Closing}

theorem Once.of_eq {v' : Closing} (h : Once v) (heq : v' = v) : Once v' := heq ▸ h

theorem Once.handleClose (h : Once v) (hopen : v.disconnected = false) : Once v.handleClose := by
  have hreported := h.reported
  have hcalled := h.called
  rw [hopen, Bool.toNat_false] at hreported hcalled
  refine ⟨?_, ?_, h.handled, h.inConnSet, h.erased, h.destroyed⟩
  · simp [Closing.handleClose, hreported]
  · simp only [Closing.handleClose, Bool.toNat_true]
    omega

theorem Once.handleCloseInLoop (h : Once v) {closing : Nat} (hclosing : v.closing = closing + 1) :
    Once { v.handleCloseInLoop with closing } := by
  have hcalled := h.called
  have hhandled := h.handled
  have hbound := v.disconnected.toNat_le
  have hempty : v.erased = [] := List.length_eq_zero_iff.mp (by omega)
  have hin : v.inConnSet = true := by rw [h.inConnSet, hempty, List.isEmpty_nil]
  have hdestroyed := h.destroyed
  refine ⟨h.reported, hcalled, ?_, ?_, ?_, ?_⟩
  · simp only [Closing.handleCloseInLoop, hempty, List.nil_append, List.length_singleton]
    rw [hempty, List.length_nil] at hhandled
    omega
  · simp [Closing.handleCloseInLoop]
  · simp [Closing.handleCloseInLoop, hempty, hin]
  · simp only [Closing.handleCloseInLoop, hempty, List.nil_append, List.length_singleton]
    rw [hempty, List.length_nil] at hdestroyed
    omega

theorem Once.closeCallback (h : Once v) {callbackFrames : Nat}
    (hframes : v.callbackFrames = callbackFrames + 1) :
    Once { v with
      callbackFrames
      closeCallbacks := v.closeCallbacks + 1
      closing := v.closing + 1 } := by
  have hcalled := h.called
  have hhandled := h.handled
  refine ⟨h.reported, ?_, ?_, h.inConnSet, h.erased, h.destroyed⟩
  · simp only
    omega
  · simp only
    omega

theorem Once.connectDestroyed (h : Once v) {destroyFunctors : Nat}
    (hfunctors : v.destroyFunctors = destroyFunctors + 1) :
    Once { v with destroyFunctors, destroyed := v.destroyed + 1 } := by
  have hdestroyed := h.destroyed
  refine ⟨h.reported, h.called, h.handled, h.inConnSet, h.erased, ?_⟩
  simp only
  omega

end Closing

section View

variable {σ : Type*}

@[simp]
def isDisconnected : ConnStatus → Bool
  | .Disconnected => true
  | _ => false

theorem isDisconnected_of_ne {status : ConnStatus} (h : status ≠ .Disconnected) :
    isDisconnected status = false := by
  cases status <;> first | rfl | exact absurd rfl h

def closing (s : LoopThread σ) : Closing where
  disconnected := isDisconnected s.conn.status
  reported := s.conn.trace.count (.connectionCallback .Disconnected)
  callbackFrames := s.stack.count .closeCallback
  closeCallbacks := s.conn.trace.count .closeCallback
  closing := s.closing
  inConnSet := s.inConnSet
  erased := s.erased
  destroyFunctors := s.funcs.count (.connectDestroyed)
  destroyed := s.destroyed

def ClosesOnce (s : LoopThread σ) : Prop :=
  s.conn.trace.count (.connectionCallback .Disconnected) ≤ 1 ∧
    s.conn.trace.count .closeCallback ≤ 1 ∧ (∀ n ∈ s.erased, n = 1) ∧ s.destroyed ≤ 1

theorem ClosesOnce.of_once {s : LoopThread σ} (h : (closing s).Once) : ClosesOnce s := by
  have hbound := (closing s).disconnected.toNat_le
  have hreported := h.reported
  have hcalled := h.called
  have hhandled := h.handled
  have hdestroyed := h.destroyed
  simp only [closing] at *
  exact ⟨by omega, by omega, h.erased, by omega⟩

variable {s s' : LoopThread σ}

theorem count_trace_of_quiet {c c' : Connection} (h : QuietConn c c') (event : ConnEvent)
    (hevent : isOutputEvent event = false) : c'.trace.count event = c.trace.count event := by
  obtain ⟨events, htrace, hevents⟩ := h.trace
  rw [htrace, List.count_append, Nat.add_eq_left, List.count_eq_zero]
  intro hmem
  rw [hevents event hmem] at hevent
  exact Bool.noConfusion hevent

theorem closing_of_quiet (h : Quiet s s') : closing s' = closing s := by
  obtain ⟨frames, hstack, hframes⟩ := h.stack
  have hcount : frames.count .closeCallback = 0 := by
    apply List.count_eq_zero_of_not_mem
    intro hmem
    exact (List.any_eq_false.mp hframes _ hmem) rfl
  have hreported := count_trace_of_quiet h.conn (.connectionCallback .Disconnected) rfl
  have hclosed := count_trace_of_quiet h.conn .closeCallback rfl
  have houtside := h.outside
  simp only [surroundings, Prod.mk.injEq] at houtside
  simp only [closing, h.conn.status, hreported, hclosed, hstack, List.count_append, hcount,
    Nat.zero_add, houtside]

theorem closing_handleClose (s : LoopThread σ) :
    closing (handleClose s) = (closing s).handleClose := by
  simp [closing, handleClose, push, Closing.handleClose, TcpConnectionImpl.log,
    TcpConnectionImpl.disableAll]

theorem once_handleClose (h : (closing s).Once) (hopen : s.conn.status ≠ .Disconnected) :
    (closing (handleClose s)).Once := by
  rw [closing_handleClose]
  exact h.handleClose (isDisconnected_of_ne hopen)

theorem once_forceClose (h : (closing s).Once) : (closing (forceClose s)).Once := by
  unfold forceClose
  split
  · rename_i hopen
    have hsame : closing { s with conn.status := .Disconnecting } = closing s := by
      rcases hopen with hopen | hopen <;> simp [closing, hopen]
    exact once_handleClose (hsame ▸ h) (by simp)
  · exact h

variable {kernel : Kernel} {S : OpenSSL σ}

theorem closing_shutdown (s : LoopThread σ) : closing (shutdown kernel S s) = closing s := by
  unfold shutdown
  split
  · rename_i hconnected
    split
    · rfl
    · have hsame : closing { s with
          tlsProvider := s.tlsProvider.map (OpenSSLProvider.close kernel S)
          conn.status := .Disconnecting } = closing s := by
        simp [closing, hconnected]
      simp only
      split
      · exact (closing_of_quiet (quiet_closeWrite _)).trans hsame
      · exact hsame
  · rfl

theorem once_of_moves (hmoves : Moves kernel S s s') (h : (closing s).Once) :
    (closing s').Once := by
  induction hmoves with
  | start => exact h
  | quiet _ hquiet ih => exact ih.of_eq (closing_of_quiet hquiet)
  | onSslError _ ih => exact once_forceClose (ih.of_eq (closing_of_quiet (quiet_push _ _ rfl)))
  | shutdown _ ih => exact ih.of_eq (closing_shutdown _)

theorem closing_push {frames : List Frame} (h : frames.count .closeCallback = 0)
    (s : LoopThread σ) : closing (push frames s) = closing s := by
  simp only [closing, push, List.count_append, h, Nat.zero_add]

theorem closing_handleCloseInLoop (s : LoopThread σ) :
    closing (handleCloseInLoop s) = (closing s).handleCloseInLoop := by
  simp only [closing, handleCloseInLoop, Closing.handleCloseInLoop, List.count_append,
    List.count_singleton_self]

end View

section Run

variable {σ : Type*} (kernel : Kernel) (S : OpenSSL σ)

def KeepsOnce (s : LoopThread σ) (event : Event) : Prop :=
  ∀ s' ∈ step kernel S s event, ClosesOnce s'

/-- The frame runs `handleClose` without a test of the status, or it reports the connection. -/
def closesAgain (s : LoopThread σ) : Bool :=
  s.stack.head?.any fun frame => closes frame || finishes S s frame

/-- On a disconnected connection no event and no read closes it, and no handshake is finished. -/
def Meets (s : LoopThread σ) (event : Event) : Prop :=
  s.conn.status = .Disconnected → event = .resume → closesAgain S s = false

instance (s : LoopThread σ) : Decidable (ClosesOnce s) :=
  inferInstanceAs (Decidable (_ ∧ _ ∧ _ ∧ _))

instance (s : LoopThread σ) (event : Event) : Decidable (KeepsOnce kernel S s event) :=
  inferInstanceAs (Decidable (∀ s' ∈ step kernel S s event, ClosesOnce s'))

variable {kernel S} {s s' : LoopThread σ}

theorem closing_pushNode (node : BufferNode) (s : LoopThread σ) :
    closing (pushNode node s) = closing s := rfl

theorem closing_callInLoop (s : LoopThread σ) (call : SendCall) :
    closing (callInLoop s call) = closing s := by
  have hfile : ∀ s : LoopThread σ, closing (if s.conn.writeBufferList.length = 1 then
      push [.sendFileInLoop, .unlock] { s with locked := true } else s) = closing s := by
    intro s
    split
    · exact closing_push rfl { s with locked := true }
    · rfl
  cases call with
  | send msg => exact closing_push rfl { s with locked := true }
  | sendFile | sendStream => exact (hfile _).trans (closing_pushNode _ s)

theorem closing_queueCall (s : LoopThread σ) (call : SendCall) :
    closing (queueCall s call) = closing s := by
  simp only [closing, queueCall, List.count_append]
  rfl

theorem closing_logCall (s : LoopThread σ) (call : SendCall) :
    closing { s with conn := TcpConnectionImpl.log s.conn (.call call) } = closing s := by
  simp only [closing, TcpConnectionImpl.log, List.count_append]
  rfl

theorem once_requestInLoop {request : Request} (h : (closing s).Once)
    (hrequest : requestInLoop kernel S s request = some s') : (closing s').Once := by
  cases requestInLoop_cases hrequest with
  | direct => exact (h.of_eq (closing_logCall s _)).of_eq (closing_callInLoop _ _)
  | queued => exact (h.of_eq (closing_logCall s _)).of_eq (closing_queueCall _ _)
  | shutdown => exact h.of_eq (closing_shutdown s)
  | forceClose => exact once_forceClose h

theorem closing_requestElsewhere (s : LoopThread σ) (request : Request) :
    closing (requestElsewhere s request) = closing s := by
  have hqueue : closing { s with funcs := s.funcs ++ [.request request] } = closing s := by
    simp only [closing, List.count_append]
    rfl
  cases request with
  | call call =>
      simp only [requestElsewhere]
      split
      · rfl
      · exact (closing_queueCall _ call).trans (closing_logCall s call)
  | shutdown | forceClose => exact hqueue

theorem once_connectDestroyed {funcs : List Functor} (h : (closing s).Once)
    (hfuncs : s.funcs = .connectDestroyed :: funcs) :
    (closing (connectDestroyed { s with funcs })).Once := by
  have hcount : (closing s).destroyFunctors = funcs.count .connectDestroyed + 1 := by
    simp only [closing, hfuncs, List.count_cons_self]
  -- the functor has been queued behind a close
  have hdisconnected : s.conn.status = .Disconnected := by
    have hcalled := h.called
    have hhandled := h.handled
    have hdestroyed := h.destroyed
    by_contra hopen
    rw [show (closing s).disconnected = false from isDisconnected_of_ne hopen] at hcalled
    simp only [Bool.toNat_false] at hcalled
    omega
  unfold connectDestroyed
  rw [if_neg (by simp [hdisconnected])]
  exact h.connectDestroyed hcount

theorem once_runFunctor {functor : Functor} {funcs : List Functor} (h : (closing s).Once)
    (hfuncs : s.funcs = functor :: funcs) :
    (closing (runFunctor kernel S { s with funcs } functor)).Once := by
  cases functor with
  | connectDestroyed => exact once_connectDestroyed h hfuncs
  | request request =>
      have htail : (closing { s with funcs }).Once := by
        refine h.of_eq ?_
        simp only [closing, hfuncs]
        rfl
      cases request with
      | call call =>
          cases call with
          | send msg => exact htail.of_eq (closing_push (by rfl) _)
          | sendFile | sendStream =>
              exact (htail.of_eq (closing_pushNode _ _)).of_eq (closing_push (by rfl) _)
      | shutdown => exact htail.of_eq (closing_shutdown _)
      | forceClose => exact once_forceClose htail

theorem once_closeCallback {stack : List Frame} (h : (closing s).Once)
    (hstack : s.stack = .closeCallback :: stack) :
    (closing (closeCallback { s with stack })).Once := by
  have hcount : (closing s).callbackFrames = stack.count .closeCallback + 1 := by
    simp only [closing, hstack, List.count_cons_self]
  have hcalled := h.closeCallback hcount
  have hlog : closing { s with
      stack
      conn := TcpConnectionImpl.log s.conn .closeCallback
      closing := s.closing + 1 } =
      { closing s with
        callbackFrames := stack.count .closeCallback
        closeCallbacks := (closing s).closeCallbacks + 1
        closing := (closing s).closing + 1 } := by
    simp [closing, TcpConnectionImpl.log]
  unfold closeCallback
  simp only
  split
  · refine (hcalled.handleCloseInLoop rfl).of_eq ?_
    rw [closing_handleCloseInLoop]
    simp [closing, TcpConnectionImpl.log, Closing.handleCloseInLoop]
  · exact hcalled.of_eq hlog

theorem once_finishes {frame : Frame} (h : (closing s).Once) (hfinishes : finishes S s frame)
    (hopen : s.conn.status ≠ .Disconnected) (hexec : exec kernel S s frame = some s') :
    (closing s').Once := by
  obtain ⟨inRecvData, p, hresult⟩ := exec_of_finishes kernel hfinishes
  obtain rfl := Option.some.inj (hresult.symm.trans hexec)
  have hevent : TcpConnectionImpl.ConnEvent.connectionCallback s.conn.status ≠
      .connectionCallback .Disconnected := by simpa using hopen
  refine h.of_eq ((closing_push rfl _).trans ?_)
  simp [closing, TcpConnectionImpl.log, List.count_append, hevent]

theorem once_exec {frame : Frame} {stack : List Frame} (h : (closing s).Once)
    (hstack : s.stack = frame :: stack)
    (hmeets : s.conn.status = .Disconnected → closes frame = false ∧ finishes S s frame = false)
    (hexec : exec kernel S { s with stack } frame = some s') : (closing s').Once := by
  by_cases hcallback : frame = .closeCallback
  · subst hcallback
    obtain rfl := Option.some.inj hexec
    exact once_closeCallback h hstack
  · have htail : (closing { s with stack }).Once := by
      refine h.of_eq ?_
      simp only [closing, hstack, List.count_cons_of_ne hcallback]
    cases hcloses : closes frame with
    | true =>
        rw [exec_of_closes hcloses] at hexec
        obtain rfl := Option.some.inj hexec
        refine once_handleClose htail fun hclosed => ?_
        rw [(hmeets hclosed).1] at hcloses
        exact Bool.noConfusion hcloses
    | false =>
        cases hfinishes : finishes S { s with stack } frame with
        | true =>
            refine once_finishes htail hfinishes (fun hclosed => ?_) hexec
            rw [finishes_stack, (hmeets hclosed).2] at hfinishes
            exact Bool.noConfusion hfinishes
        | false =>
            cases hends : ends frame with
            | false => exact once_of_moves (exec_moves hends hcloses hfinishes hexec) htail
            | true =>
                cases frame with
                | closeCallback => exact absurd rfl hcallback
                | remove | unlock | decrement =>
                    obtain rfl := Option.some.inj hexec
                    exact htail
                | _ => simp [ends] at hends

theorem closing_handleEvent (revents : Revents) (result : ReadResult) (s : LoopThread σ) :
    closing (handleEvent revents result s) = closing s := by
  unfold handleEvent
  split
  · rfl
  · refine closing_push ?_ s
    rcases revents with ⟨hup, inn, nval, err, pri, rdhup, out⟩
    simp only [List.count_append]
    split <;> split <;> split <;> rfl

theorem once_serverLoop (h : (closing s).Once) (hclosing : s.closing ≠ 0) :
    (closing (handleCloseInLoop { s with closing := s.closing - 1 })).Once := by
  have hcount : (closing s).closing = s.closing - 1 + 1 :=
    (Nat.sub_add_cancel (Nat.pos_of_ne_zero hclosing)).symm
  refine (h.handleCloseInLoop hcount).of_eq ?_
  rw [closing_handleCloseInLoop]
  rfl

theorem once_step {event : Event} (h : (closing s).Once) (hmeets : Meets S s event)
    (hstep : step kernel S s event = some s') : (closing s').Once := by
  cases step_cases hstep with
  | idle => exact h
  | handleEvent revents result => exact h.of_eq (closing_handleEvent revents result s)
  | functor _ hfuncs => exact once_runFunctor h hfuncs
  | resume hstack hexec =>
      refine once_exec h hstack (fun hclosed => ?_) hexec
      simpa [Meets, closesAgain, hstack] using hmeets hclosed rfl
  | inLoop _ hrequest => exact once_requestInLoop h hrequest
  | elsewhere request => exact h.of_eq (closing_requestElsewhere s request)
  | serverLoop hclosing => exact once_serverLoop h hclosing

theorem not_keepsOnce (h : (closing s).Once) (hclosed : s.conn.status = .Disconnected)
    (hagain : closesAgain S s) : ¬KeepsOnce kernel S s .resume := by
  have hreported := h.reported
  simp only [closing, hclosed, isDisconnected, Bool.toNat_true] at hreported
  cases hstack : s.stack with
  | nil => simp [closesAgain, hstack] at hagain
  | cons frame stack =>
      simp only [closesAgain, hstack, List.head?_cons, Option.any_some, Bool.or_eq_true] at hagain
      have htwice : ∃ s', exec kernel S { s with stack } frame = some s' ∧
          s'.conn.trace = s.conn.trace ++ [.connectionCallback .Disconnected] := by
        rcases hagain with hcloses | hfinishes
        · exact ⟨_, exec_of_closes hcloses, rfl⟩
        · rw [← finishes_stack S s stack] at hfinishes
          obtain ⟨inRecvData, p, hexec⟩ := exec_of_finishes kernel hfinishes
          refine ⟨_, hexec, ?_⟩
          simp [push, TcpConnectionImpl.log, hclosed]
      obtain ⟨s', hexec, htrace⟩ := htwice
      intro hkeeps
      have honce := (hkeeps s' (by simpa [step, hstack] using hexec)).1
      rw [htrace, List.count_append, hreported] at honce
      simp at honce

theorem keepsOnce_iff {event : Event} (h : (closing s).Once) :
    KeepsOnce kernel S s event ↔ Meets S s event := by
  constructor
  · intro hkeeps hclosed hresume
    subst hresume
    by_contra hagain
    exact not_keepsOnce h hclosed (Bool.not_eq_false _ ▸ hagain) hkeeps
  · intro hmeets s' hstep
    exact .of_once (once_step h hmeets hstep)

theorem once_established (highWaterMarkLen : Option Nat) (inServerLoop : Bool) (ssl : Option σ) :
    (closing (established highWaterMarkLen inServerLoop ssl)).Once := by
  cases ssl <;> exact ⟨rfl, rfl, rfl, rfl, by simp [closing, established], rfl⟩

/-- In a run of one connection nothing of a close happens twice if and only if no event and no read
closes the connection, and no handshake is finished on it, after it has been disconnected. -/
theorem allSteps_keepsOnce_iff (kernel : Kernel) (S : OpenSSL σ) (highWaterMarkLen : Option Nat)
    (inServerLoop : Bool) (ssl : Option σ) (events : List Event) :
    AllSteps (step kernel S) (KeepsOnce kernel S)
        (established highWaterMarkLen inServerLoop ssl) events ↔
      AllSteps (step kernel S) (Meets S) (established highWaterMarkLen inServerLoop ssl) events := by
  refine allSteps_iff_of_kept (fun s => (closing s).Once) ?_ ?_
    (once_established highWaterMarkLen inServerLoop ssl) events
  · exact fun s event s' h hkeeps hstep => once_step h ((keepsOnce_iff h).mp hkeeps) hstep
  · exact fun s event h => keepsOnce_iff h

/-- The peer is gone and there is something urgent, so the closed connection is read, and the read
finds its end. -/
theorem not_allSteps_keepsOnce :
    ¬AllSteps (step (fun _ len => .done (Fin.last len)) unusedSSL)
        (KeepsOnce (fun _ len => .done (Fin.last len)) unusedSSL) (established none true none)
        [.resume, .handleEvent ⟨true, false, false, false, true, false, false⟩ (.ok []), .resume,
          .resume, .resume, .resume] := by
  decide

end Run

end Cooper.CloseOnce

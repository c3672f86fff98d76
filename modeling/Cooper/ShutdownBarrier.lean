import Cooper.SocketGrowth
import Mathlib.Data.List.Forall2

namespace Cooper.ShutdownBarrier

open Cooper.ConnectionThread
open Cooper.MsgBuffer
open Cooper.OpenSSLProvider (OpenSSL)
open Cooper.SocketGrowth
open Cooper.StepRun
open Cooper.TcpConnectionImpl (BufferNode ConnEvent Errno Kernel ReadResult SendCall)
open Cooper.ThreadOutcome

variable {σ : Type*} (kernel : Kernel) (S : OpenSSL σ)

def sameKind : SendCall → SendCall → Bool
  | .send _, .send _ | .sendFile _ _ _, .sendFile _ _ _ | .sendStream _, .sendStream _ => true
  | _, _ => false

/-- Whatever is done behind the call, the bytes that are written do not depend on its data. -/
def NeverTransmitted (s : LoopThread σ) (call : SendCall) : Prop :=
  ∀ call', sameKind call call' → ∀ events,
    ∀ s₁ ∈ runSteps (step kernel S) s (.inLoop (.call call) :: events),
    ∀ s₂ ∈ runSteps (step kernel S) s (.inLoop (.call call') :: events),
      s₁.conn.socket.written = s₂.conn.socket.written

structure Watched (σ : Type*) where
  thread : LoopThread σ
  /-- `shutdown()` has returned on the loop thread. -/
  returned : Bool

def watch (w : Watched σ) (event : Event) : Option (Watched σ) :=
  (step kernel S w.thread event).map fun thread =>
    { thread, returned := w.returned || (event = .inLoop .shutdown && inUser w.thread) }

/-- A send of the loop thread behind the return of `shutdown()` is never transmitted. -/
def Barrier (w : Watched σ) (event : Event) : Prop :=
  ∀ call, event = .inLoop (.call call) → w.returned → NeverTransmitted kernel S w.thread call

/-- Behind the return of `shutdown()` a message is sent only when the connection is not `Connected`
any more, and a file or a stream only when the write side is closed. -/
def Meets (w : Watched σ) : Event → Prop
  | .inLoop (.call (.send _)) => w.returned → w.thread.conn.status ≠ .Connected
  | .inLoop (.call _) => w.returned → w.thread.conn.socket.writeClosed
  | _ => True

section Same

def SameFrame (frame frame' : Frame) : Prop :=
  frame = frame' ∨ ∃ msg msg', frame = .sendInLoop msg ∧ frame' = .sendInLoop msg'

def SameFunctor (functor functor' : Functor) : Prop :=
  functor = functor' ∨
    ∃ msg msg', functor = .request (.call (.send msg)) ∧ functor' = .request (.call (.send msg'))

/-- The states differ in the data of sends that have not begun and in what has been called. -/
inductive Same : LoopThread σ → LoopThread σ → Prop
  | intro (s : LoopThread σ) (stack : List Frame) (funcs : List Functor) (trace : List ConnEvent)
      (hstack : List.Forall₂ SameFrame s.stack stack)
      (hfuncs : List.Forall₂ SameFunctor s.funcs funcs) :
      Same s { s with stack, funcs, conn.trace := trace }

def SameResult : Option (LoopThread σ) → Option (LoopThread σ) → Prop := Option.Rel Same

variable {kernel S} {s s' s₁ s₂ : LoopThread σ}

theorem sameFrames_refl (frames : List Frame) : List.Forall₂ SameFrame frames frames :=
  List.forall₂_same.mpr fun _ _ => .inl rfl

theorem sameFunctors_refl (funcs : List Functor) : List.Forall₂ SameFunctor funcs funcs :=
  List.forall₂_same.mpr fun _ _ => .inl rfl

theorem Same.refl (s : LoopThread σ) : Same s s :=
  .intro s s.stack s.funcs s.conn.trace (sameFrames_refl _) (sameFunctors_refl _)

theorem Same.stack (h : Same s s') : List.Forall₂ SameFrame s.stack s'.stack := by
  cases h with
  | intro _ _ _ hstack _ => exact hstack

theorem Same.funcs (h : Same s s') : List.Forall₂ SameFunctor s.funcs s'.funcs := by
  cases h with
  | intro _ _ _ _ hfuncs => exact hfuncs

theorem Same.setStack (h : Same s s') {stack stack' : List Frame}
    (hstack : List.Forall₂ SameFrame stack stack') :
    Same { s with stack } { s' with stack := stack' } := by
  cases h with
  | intro _ funcs trace _ hfuncs => exact .intro _ stack' funcs trace hstack hfuncs

theorem Same.setFuncs (h : Same s s') {funcs funcs' : List Functor}
    (hfuncs : List.Forall₂ SameFunctor funcs funcs') :
    Same { s with funcs } { s' with funcs := funcs' } := by
  cases h with
  | intro stack _ trace hstack _ => exact .intro _ stack funcs' trace hstack hfuncs

theorem Same.push (h : Same s s') (frames : List Frame) : Same (push frames s) (push frames s') := by
  cases h with
  | intro stack funcs trace hstack hfuncs =>
      exact .intro (ConnectionThread.push frames s) (frames ++ stack) funcs trace
        (List.rel_append (sameFrames_refl frames) hstack) hfuncs

theorem Same.sendFrames (h : Same s s') (msg msg' : Bytes) (frame : Frame) :
    Same (ConnectionThread.push [.sendInLoop msg, frame] s)
      (ConnectionThread.push [.sendInLoop msg', frame] s') := by
  cases h with
  | intro stack funcs trace hstack hfuncs =>
      refine .intro _ _ funcs trace (.cons (.inr ⟨msg, msg', rfl, rfl⟩) ?_) hfuncs
      exact .cons (.inl rfl) hstack

theorem Same.ite {p q : Prop} [Decidable p] [Decidable q] (hpq : p ↔ q) (h : Same s s')
    (h' : Same s₁ s₂) : Same (if p then s else s₁) (if q then s' else s₂) := by
  by_cases hp : p
  · rw [if_pos hp, if_pos (hpq.mp hp)]
    exact h
  · rw [if_neg hp, if_neg (mt hpq.mpr hp)]
    exact h'

theorem Same.enableWriting (h : Same s s') : Same (enableWriting s) (enableWriting s') := by
  cases h with
  | intro stack funcs trace hstack hfuncs => exact .intro _ stack funcs trace hstack hfuncs

theorem Same.handleClose (h : Same s s') : Same (handleClose s) (handleClose s') := by
  apply Same.push
  cases h with
  | intro stack funcs trace hstack hfuncs => exact .intro _ stack funcs _ hstack hfuncs

theorem Same.forceClose (h : Same s s') : Same (forceClose s) (forceClose s') := by
  cases h with
  | intro stack funcs trace hstack hfuncs =>
      apply Same.ite Iff.rfl
      · apply Same.handleClose
        exact .intro _ stack funcs trace hstack hfuncs
      · exact .intro s stack funcs trace hstack hfuncs

theorem Same.closeWrite (h : Same s s') : Same (closeWrite s) (closeWrite s') := by
  cases h with
  | intro stack funcs trace hstack hfuncs =>
      unfold ConnectionThread.closeWrite
      cases hp : s.tlsProvider <;> exact .intro _ stack funcs trace hstack hfuncs

theorem Same.onSslError (h : Same s s') : Same (onSslError s) (onSslError s') :=
  (h.push [.user]).forceClose

theorem Same.closeCallback (h : Same s s') : Same (closeCallback s) (closeCallback s') := by
  cases h with
  | intro stack funcs trace hstack hfuncs =>
      apply Same.ite Iff.rfl
      · exact .intro _ stack _ _ hstack (List.rel_append hfuncs (sameFunctors_refl _))
      · exact .intro _ stack funcs _ hstack hfuncs

theorem Same.handleCloseInLoop (h : Same s s') :
    Same (handleCloseInLoop { s with closing := s.closing - 1 })
      (handleCloseInLoop { s' with closing := s'.closing - 1 }) := by
  cases h with
  | intro stack funcs trace hstack hfuncs =>
      exact .intro _ stack _ trace hstack (List.rel_append hfuncs (sameFunctors_refl _))

theorem Same.connectDestroyed (h : Same s s') :
    Same (connectDestroyed s) (connectDestroyed s') := by
  cases h with
  | intro stack funcs trace hstack hfuncs =>
      apply Same.ite Iff.rfl
      · apply Same.push
        exact .intro _ stack funcs _ hstack hfuncs
      · exact .intro _ stack funcs trace hstack hfuncs

theorem Same.writeInLoop (kernel : Kernel) (S : OpenSSL σ) (h : Same s s') (data : Bytes) :
    ∃ answer reported s₁ s₂, writeInLoop kernel S s data = (answer, reported, s₁) ∧
      writeInLoop kernel S s' data = (answer, reported, s₂) ∧ Same s₁ s₂ := by
  cases h with
  | intro stack funcs trace hstack hfuncs =>
      unfold ConnectionThread.writeInLoop
      cases hp : s.tlsProvider with
      | none =>
          simp only [TcpConnectionImpl.writeInLoop]
          rcases s.conn.socket.write kernel data with ⟨_ | _, socket⟩
          · exact ⟨_, _, _, _, rfl, rfl, .intro _ stack funcs trace hstack hfuncs⟩
          · exact ⟨_, _, _, _, rfl, rfl, .intro _ stack funcs trace hstack hfuncs⟩
      | some p =>
          simp only
          rcases OpenSSLProvider.sendData kernel S p data with ⟨_ | _, p'⟩
          · exact ⟨_, _, _, _, rfl, rfl, .intro _ stack funcs trace hstack hfuncs⟩
          · exact ⟨_, _, _, _, rfl, rfl, .intro _ stack funcs trace hstack hfuncs⟩

theorem Same.write (h : Same s s') {data : Bytes} {ok : Nat → LoopThread σ → LoopThread σ}
    {failed reported : Errno → LoopThread σ → LoopThread σ}
    (hok : ∀ n {s s'}, Same s s' → Same (ok n s) (ok n s'))
    (hfailed : ∀ e {s s'}, Same s s' → Same (failed e s) (failed e s'))
    (hreported : ∀ e {s s'}, Same s s' → Same (reported e s) (reported e s')) :
    Same
      (match ConnectionThread.writeInLoop kernel S s data with
        | (.ok n, _, s) => ok n s
        | (.error e, report, s) =>
            if report then ConnectionThread.onSslError (reported e s) else failed e s)
      (match ConnectionThread.writeInLoop kernel S s' data with
        | (.ok n, _, s) => ok n s
        | (.error e, report, s) =>
            if report then ConnectionThread.onSslError (reported e s) else failed e s) := by
  obtain ⟨answer, report, s₁, s₂, hresult, hresult', hsame⟩ := h.writeInLoop kernel S data
  rw [hresult, hresult']
  cases answer with
  | ok n => exact hok n hsame
  | error e => exact .ite Iff.rfl (hreported e hsame).onSslError (hfailed e hsame)

theorem Same.streamFailed (h : Same s s') (e : Errno) :
    Same (streamFailed e s) (streamFailed e s') := by
  apply Same.ite Iff.rfl
  · cases h with
    | intro stack funcs trace hstack hfuncs => exact .intro _ stack funcs trace hstack hfuncs
  · exact h.enableWriting

theorem Same.fetch (h : Same s s') (fileBytesToSend : Nat) :
    Same (fetch fileBytesToSend s) (fetch fileBytesToSend s') :=
  .ite Iff.rfl h.enableWriting (h.push _)

theorem Same.status_eq (h : Same s s') : s'.conn.status = s.conn.status := by
  cases h
  rfl

theorem Same.list_eq (h : Same s s') : s'.conn.writeBufferList = s.conn.writeBufferList := by
  cases h
  rfl

theorem Same.fileBuffer_eq (h : Same s s') : s'.conn.fileBuffer = s.conn.fileBuffer := by
  cases h
  rfl

theorem Same.setList (h : Same s s') (list : List BufferNode) :
    Same { s with conn.writeBufferList := list } { s' with conn.writeBufferList := list } := by
  cases h with
  | intro stack funcs trace hstack hfuncs => exact .intro _ stack funcs trace hstack hfuncs

theorem Same.setFileBuffer (h : Same s s') (buffer : Bytes) :
    Same { s with conn.fileBuffer := buffer } { s' with conn.fileBuffer := buffer } := by
  cases h with
  | intro stack funcs trace hstack hfuncs => exact .intro _ stack funcs trace hstack hfuncs

theorem Same.writeFileBuffer (h : Same s s') (fileBytesToSend : Nat) :
    Same (writeFileBuffer kernel S fileBytesToSend s)
      (writeFileBuffer kernel S fileBytesToSend s') := by
  unfold ConnectionThread.writeFileBuffer
  rw [h.fileBuffer_eq]
  apply h.write
  · intro n s s' h
    rw [h.fileBuffer_eq]
    exact .ite Iff.rfl (h.setFileBuffer _).enableWriting ((h.setFileBuffer _).fetch _)
  · exact fun e s s' h => h.streamFailed e
  · exact fun e s s' h => h.push _

theorem Same.fetched (h : Same s s') : Same (fetched kernel S s) (fetched kernel S s') := by
  unfold ConnectionThread.fetched
  rw [h.list_eq]
  split
  · exact (h.setList _).enableWriting
  · rename_i fileBytesToSend chunk chunks rest _
    have hset := (h.setFileBuffer chunk).setList (.stream fileBytesToSend chunks :: rest)
    exact .ite Iff.rfl (h.setList _).enableWriting (hset.writeFileBuffer fileBytesToSend)
  · exact h

theorem Same.fileLoop (h : Same s s') : Same (fileLoop kernel S s) (fileLoop kernel S s') := by
  unfold ConnectionThread.fileLoop
  rw [h.list_eq, h.fileBuffer_eq]
  split
  · refine .ite Iff.rfl h.enableWriting (.ite Iff.rfl h ((h.setFileBuffer _).write ?_ ?_ ?_))
    · exact fun n s s' h => .ite Iff.rfl (h.setList _).enableWriting ((h.setList _).push _)
    · exact fun e s s' h => .ite Iff.rfl h h.enableWriting
    · exact fun e s s' h => h.push _
  · exact h

theorem Same.shutdown (h : Same s s') : Same (shutdown kernel S s) (shutdown kernel S s') := by
  cases h with
  | intro stack funcs trace hstack hfuncs =>
      apply Same.ite Iff.rfl
      · apply Same.ite Iff.rfl
        · exact .intro _ stack funcs trace hstack hfuncs
        · apply Same.ite Iff.rfl
          · apply Same.closeWrite
            exact .intro _ stack funcs trace hstack hfuncs
          · exact .intro _ stack funcs trace hstack hfuncs
      · exact .intro s stack funcs trace hstack hfuncs

theorem Same.writeMsg (h : Same s s') (msgBuffer : Bytes) (rest : List BufferNode) :
    Same (writeMsg kernel S s msgBuffer rest) (writeMsg kernel S s' msgBuffer rest) := by
  have hcheck : ∀ (e : Errno) {s s' : LoopThread σ}, Same s s' →
      Same (if e ≠ .EAGAIN then s else ConnectionThread.push [.checkCloseOnEmpty] s)
        (if e ≠ .EAGAIN then s' else ConnectionThread.push [.checkCloseOnEmpty] s') :=
    fun e s s' h => .ite Iff.rfl h (h.push _)
  exact h.write (fun n s s' h => (h.setList _).push _) hcheck hcheck

theorem SameResult.ite {p : Prop} [Decidable p] {a a' b b' : Option (LoopThread σ)}
    (h : SameResult a a') (h' : SameResult b b') :
    SameResult (if p then a else b) (if p then a' else b') := by
  split
  · exact h
  · exact h'

theorem Same.sendFileInLoop (h : Same s s') :
    SameResult (sendFileInLoop kernel S s) (sendFileInLoop kernel S s') := by
  unfold ConnectionThread.sendFileInLoop
  rw [h.list_eq, h.fileBuffer_eq]
  split
  · rename_i content offset fileBytesToSend rest _
    cases h with
    | intro stack funcs trace hstack hfuncs =>
        apply SameResult.ite
        · apply Option.Rel.some
          apply Same.push
          exact .intro _ stack funcs trace hstack hfuncs
        · simp only [TcpConnectionImpl.sendfileInLoop]
          rcases s.conn.socket.sendfile kernel content offset fileBytesToSend with ⟨e | n, socket⟩
          · by_cases he : e = .EAGAIN
            · simp only [he, ne_eq, not_true_eq_false, if_false]
              exact .some (.intro _ stack funcs trace hstack hfuncs)
            · simp only [he, ne_eq, not_false_eq_true, if_true]
              exact .some (.intro _ stack funcs trace hstack hfuncs)
          · by_cases hnone : n < fileBytesToSend ∧ n = 0
            · simp only [if_pos hnone]
              exact .some (.intro _ stack funcs trace hstack hfuncs)
            · simp only [if_neg hnone]
              exact .some (.intro _ stack funcs trace hstack hfuncs)
  · exact .ite (.some (h.fetch _)) (.some (h.writeFileBuffer _))
  · exact .none

theorem Same.writeNext (h : Same s s') (afterFile : Bool) (rest : List BufferNode) :
    SameResult (writeNext kernel S afterFile s rest) (writeNext kernel S afterFile s' rest) := by
  unfold ConnectionThread.writeNext
  rcases rest with _ | ⟨msgBuffer | _ | _, rest'⟩
  · apply Option.Rel.some
    apply Same.push
    cases h with
    | intro stack funcs trace hstack hfuncs => exact .intro _ stack funcs _ hstack hfuncs
  · exact .ite (.some ((h.setList _).writeMsg _ _)) .none
  · exact .some ((h.setList _).push _)
  · exact .some ((h.setList _).push _)

theorem Same.writeList (h : Same s s') :
    SameResult (writeList kernel S s) (writeList kernel S s') := by
  unfold ConnectionThread.writeList
  rw [h.list_eq]
  split
  · exact .none
  · exact .ite (h.writeNext _ _) (.some (h.writeMsg _ _))
  · exact .ite (h.writeNext _ _) (.some (h.push _))
  · exact .ite (h.writeNext _ _) (.some (h.push _))

theorem Same.readCallback (h : Same s s') (result : ReadResult) :
    Same (readCallback s result) (readCallback s' result) := by
  rcases result with e | _ | ⟨byte, chunk⟩
  · exact .ite Iff.rfl h h.handleClose
  · exact h.handleClose
  · cases h with
    | intro stack funcs trace hstack hfuncs =>
        apply Same.push
        exact .intro _ stack funcs trace hstack hfuncs

theorem Same.startFile (h : Same s s') :
    SameResult (exec kernel S s .startFile) (exec kernel S s' .startFile) := by
  simp only [exec, h.list_eq]
  exact .ite (.some (h.push _)) (.some h)

theorem sendFailed_of_closed (hclosed : s.conn.status ≠ .Connected) {e : Errno} {msg : Bytes} :
    sendFailed e msg s = s := by
  have hqueue : queueInList s msg = s := if_neg fun hopen => hclosed hopen.2
  rw [sendFailed, hqueue, ite_self]

theorem Same.exec (h : Same s s') (hplain : s.tlsProvider = none)
    (hclosed : s.conn.status ≠ .Connected) (frame : Frame) :
    SameResult (exec kernel S s frame) (exec kernel S s' frame) := by
  have hplain' : s'.tlsProvider = none := by
    cases h
    exact hplain
  have hclosed' := h.status_eq.trans_ne hclosed
  cases frame with
  | user => exact .some h
  | closeEvent => exact .some h.handleClose
  | readCallback result => exact .some (h.readCallback result)
  | closeCallback => exact .some h.closeCallback
  | startFile => exact h.startFile
  | sendFileInLoop => exact h.sendFileInLoop
  | fetched => exact .some h.fetched
  | streamFailed e => exact .some (h.streamFailed e)
  | fileLoop => exact .some h.fileLoop
  | fileFailed e => exact .some (.ite Iff.rfl h h.enableWriting)
  | writeCallback =>
      have hwriting : s'.conn.writing = s.conn.writing := by
        cases h
        rfl
      simp only [ConnectionThread.exec, writeCallback, hplain, hplain', hwriting]
      exact .ite h.writeList (.some h)
  | sendInLoop msg =>
      simp only [ConnectionThread.exec, sendInLoop, if_pos hclosed, if_pos hclosed']
      exact .some h
  | sendFailed e msg =>
      simp only [ConnectionThread.exec, sendFailed_of_closed hclosed, sendFailed_of_closed hclosed']
      exact .some h
  | checkBufferedData =>
      simp only [ConnectionThread.exec, checkBufferedData, hplain, hplain']
      exact .some h
  | completed =>
      have hsame := h
      cases h
      exact .some (.ite Iff.rfl hsame.closeWrite hsame)
  | checkCloseOnEmpty =>
      have hsame := h
      cases h
      exact .some (.ite Iff.rfl hsame.shutdown hsame)
  | recvData | processHandshake | handshakeFinished | processApplicationData =>
      simp only [ConnectionThread.exec, hplain, hplain', Option.elim_none]
      exact .some h
  | remove | unlock | decrement =>
      cases h with
      | intro stack funcs trace hstack hfuncs =>
          exact .some (.intro _ stack funcs trace hstack hfuncs)

theorem Same.handleEvent (h : Same s s') (revents : Revents) (result : ReadResult) :
    Same (handleEvent revents result s) (handleEvent revents result s') := by
  have hsame := h
  cases h
  exact .ite Iff.rfl hsame (hsame.push _)

theorem Same.pushNode (h : Same s s') (node : BufferNode) :
    Same (pushNode node s) (pushNode node s') := by
  cases h with
  | intro stack funcs trace hstack hfuncs => exact .intro _ stack funcs trace hstack hfuncs

theorem Same.lock (h : Same s s') : Same { s with locked := true } { s' with locked := true } := by
  cases h with
  | intro stack funcs trace hstack hfuncs => exact .intro _ stack funcs trace hstack hfuncs

theorem Same.callInLoop (h : Same s s') (call : SendCall) :
    Same (callInLoop s call) (callInLoop s' call) := by
  have hfile : ∀ {s s' : LoopThread σ}, Same s s' →
      Same
        (if s.conn.writeBufferList.length = 1 then
          ConnectionThread.push [.sendFileInLoop, .unlock] { s with locked := true } else s)
        (if s'.conn.writeBufferList.length = 1 then
          ConnectionThread.push [.sendFileInLoop, .unlock] { s' with locked := true } else s') := by
    intro s s' h
    rw [h.list_eq]
    exact .ite Iff.rfl (h.lock.push _) h
  cases call with
  | send msg => exact h.lock.push _
  | sendFile | sendStream => exact hfile (h.pushNode _)

theorem Same.queueCall (h : Same s s') (call : SendCall) :
    Same (queueCall s call) (queueCall s' call) := by
  cases h with
  | intro stack funcs trace hstack hfuncs =>
      exact .intro _ stack _ trace hstack (List.rel_append hfuncs (sameFunctors_refl _))

theorem Same.log (h : Same s s') (event : ConnEvent) :
    Same { s with conn := TcpConnectionImpl.log s.conn event }
      { s' with conn := TcpConnectionImpl.log s'.conn event } := by
  cases h with
  | intro stack funcs trace hstack hfuncs => exact .intro _ stack funcs _ hstack hfuncs

theorem Same.requestInLoop (h : Same s s') (request : Request) :
    SameResult (requestInLoop kernel S s request) (requestInLoop kernel S s' request) := by
  cases request with
  | call call =>
      have hdirect := (h.log (.call call)).callInLoop call
      have hqueued := (h.log (.call call)).queueCall call
      cases h
      exact SameResult.ite .none (.some (.ite Iff.rfl hdirect hqueued))
  | shutdown => exact .some h.shutdown
  | forceClose => exact .some h.forceClose

theorem Same.requestElsewhere (h : Same s s') (request : Request) :
    Same (requestElsewhere s request) (requestElsewhere s' request) := by
  have hqueue : Same { s with funcs := s.funcs ++ [.request request] }
      { s' with funcs := s'.funcs ++ [.request request] } := by
    cases h with
    | intro stack funcs trace hstack hfuncs =>
        exact .intro _ stack _ trace hstack (List.rel_append hfuncs (sameFunctors_refl _))
  cases request with
  | call call =>
      have hcall := (h.log (.call call)).queueCall call
      have hsame := h
      cases h
      exact .ite Iff.rfl hsame hcall
  | shutdown | forceClose => exact hqueue

theorem Same.runFunctor (h : Same s s') {functor functor' : Functor}
    (hfunctor : SameFunctor functor functor') :
    Same (runFunctor kernel S s functor) (runFunctor kernel S s' functor') := by
  rcases hfunctor with rfl | ⟨msg, msg', rfl, rfl⟩
  · cases functor with
    | connectDestroyed => exact h.connectDestroyed
    | request request =>
        cases request with
        | call call =>
            cases call with
            | send msg => exact h.push _
            | sendFile | sendStream => exact (h.pushNode _).push _
        | shutdown => exact h.shutdown
        | forceClose => exact h.forceClose
  · exact h.sendFrames msg msg' _

theorem Same.inUser_eq (h : Same s s') : inUser s' = inUser s := by
  have hstack := h.stack
  unfold inUser
  rcases hs : s.stack with _ | ⟨frame, rest⟩
  · rw [hs] at hstack
    rw [List.forall₂_nil_left_iff.mp hstack]
  · rw [hs] at hstack
    obtain ⟨frame', rest', hframe, -, hs'⟩ := List.forall₂_cons_left_iff.mp hstack
    rw [hs']
    rcases hframe with rfl | ⟨msg, msg', rfl, rfl⟩
    · rfl
    · rfl

/-- On a plain connection that is not `Connected`, every step keeps the states the same. -/
theorem Same.step (h : Same s s') (hplain : s.tlsProvider = none)
    (hclosed : s.conn.status ≠ .Connected) (event : Event) :
    SameResult (step kernel S s event) (step kernel S s' event) := by
  cases event with
  | handleEvent revents result =>
      have hevent := h.handleEvent revents result
      have hidle : s'.stack = [] ↔ s.stack = [] := by
        rw [← List.length_eq_zero_iff, ← List.length_eq_zero_iff, h.stack.length_eq]
      simp only [ConnectionThread.step, hidle]
      exact .ite (.some hevent) (.some h)
  | functor =>
      have hstack := h.stack
      have hfuncs := h.funcs
      rcases hs : s.stack with _ | ⟨frame, rest⟩
      · rw [hs] at hstack
        have hs' := List.forall₂_nil_left_iff.mp hstack
        rcases hf : s.funcs with _ | ⟨functor, funcs⟩
        · rw [hf] at hfuncs
          have hf' := List.forall₂_nil_left_iff.mp hfuncs
          simp only [ConnectionThread.step, hs, hs', hf, hf']
          exact .some h
        · rw [hf] at hfuncs
          obtain ⟨functor', funcs', hfunctor, hrest, hf'⟩ := List.forall₂_cons_left_iff.mp hfuncs
          have hrun : SameResult
              (some (ConnectionThread.runFunctor kernel S { s with funcs } functor))
              (some (ConnectionThread.runFunctor kernel S { s' with funcs := funcs' } functor')) :=
            .some ((h.setFuncs hrest).runFunctor hfunctor)
          simp only [ConnectionThread.step, hs, hs', hf, hf']
          simpa only [hs, hs'] using hrun
      · rw [hs] at hstack
        obtain ⟨frame', rest', -, -, hs'⟩ := List.forall₂_cons_left_iff.mp hstack
        simp only [ConnectionThread.step, hs, hs']
        exact .some h
  | resume =>
      have hstack := h.stack
      rcases hs : s.stack with _ | ⟨frame, rest⟩
      · rw [hs] at hstack
        have hs' := List.forall₂_nil_left_iff.mp hstack
        simp only [ConnectionThread.step, hs, hs']
        exact .some h
      · rw [hs] at hstack
        obtain ⟨frame', rest', hframe, hrest, hs'⟩ := List.forall₂_cons_left_iff.mp hstack
        simp only [ConnectionThread.step, hs, hs']
        have htail := h.setStack hrest
        rcases hframe with rfl | ⟨msg, msg', rfl, rfl⟩
        · exact htail.exec hplain hclosed frame
        · have hclosed' := h.status_eq.trans_ne hclosed
          simp only [ConnectionThread.exec, sendInLoop, if_pos hclosed, if_pos hclosed']
          exact .some htail
  | inLoop request =>
      simp only [ConnectionThread.step, h.inUser_eq]
      exact .ite (h.requestInLoop request) (.some h)
  | elsewhere request => exact .some (h.requestElsewhere request)
  | serverLoop =>
      have hsame := h
      have hserver := h.handleCloseInLoop
      cases h
      exact SameResult.ite (.some hsame) (.some hserver)

theorem Same.runSteps (h : Same s s') (hplain : s.tlsProvider = none)
    (hclosed : s.conn.status ≠ .Connected) (events : List Event) :
    SameResult (runSteps (ConnectionThread.step kernel S) s events)
      (runSteps (ConnectionThread.step kernel S) s' events) := by
  induction events generalizing s s' with
  | nil => exact .some h
  | cons event events ih =>
      rw [runSteps_cons, runSteps_cons]
      have hstep : SameResult (ConnectionThread.step kernel S s event)
          (ConnectionThread.step kernel S s' event) := h.step hplain hclosed event
      generalize hresult : ConnectionThread.step kernel S s event = result at hstep ⊢
      generalize ConnectionThread.step kernel S s' event = result' at hstep ⊢
      cases hstep with
      | none => exact .none
      | some hsame =>
          have hflows := step_flows hplain hresult
          exact ih hsame (hflows.plain hplain) (hflows.status hclosed)

theorem sameResult_sends (kernel : Kernel) (S : OpenSSL σ) (s : LoopThread σ) (msg msg' : Bytes) :
    SameResult (step kernel S s (.inLoop (.call (.send msg))))
      (step kernel S s (.inLoop (.call (.send msg')))) := by
  have hlog : Same { s with conn := TcpConnectionImpl.log s.conn (.call (.send msg)) }
      { s with conn := TcpConnectionImpl.log s.conn (.call (.send msg')) } :=
    .intro _ s.stack s.funcs _ (sameFrames_refl _) (sameFunctors_refl _)
  refine .ite (.ite .none (.some (.ite Iff.rfl (hlog.lock.sendFrames msg msg' _) ?_))) ?_
  · refine .intro _ s.stack _ _ (sameFrames_refl _) ?_
    exact List.rel_append (sameFunctors_refl _) (.cons (.inr ⟨msg, msg', rfl, rfl⟩) .nil)
  · exact .some (.refl s)

end Same

section Barrier

variable {kernel S} {s s' : LoopThread σ}

theorem Same.written_eq (h : Same s s') : s.conn.socket.written = s'.conn.socket.written := by
  cases h
  rfl

theorem neverTransmitted_send (hplain : s.tlsProvider = none) (hclosed : s.conn.status ≠ .Connected)
    (msg : Bytes) : NeverTransmitted kernel S s (.send msg) := by
  intro call' hkind events s₁ hs₁ s₂ hs₂
  cases call' with
  | send msg' =>
      rw [Option.mem_def, runSteps_cons] at hs₁ hs₂
      have hstep := sameResult_sends kernel S s msg msg'
      generalize hresult : step kernel S s (.inLoop (.call (.send msg))) = result at hstep hs₁
      generalize step kernel S s (.inLoop (.call (.send msg'))) = result' at hstep hs₂
      cases hstep with
      | none => simp at hs₁
      | some hsame =>
          have hflows := step_flows hplain hresult
          have hrun : SameResult (some s₁) (some s₂) := by
            rw [← hs₁, ← hs₂]
            exact hsame.runSteps (hflows.plain hplain) (hflows.status hclosed) events
          cases hrun with
          | some hend => exact hend.written_eq
  | _ => simp [sameKind] at hkind

theorem neverTransmitted_of_writeClosed (hplain : s.tlsProvider = none)
    (hclosed : s.conn.socket.writeClosed) (call : SendCall) : NeverTransmitted kernel S s call := by
  intro call' _ events s₁ hs₁ s₂ hs₂
  have hsame₁ := ((runSteps_flows hplain hs₁).socket.closed hclosed).2
  have hsame₂ := ((runSteps_flows hplain hs₂).socket.closed hclosed).2
  rw [hsame₁, hsame₂]

theorem shutdown_closed (hplain : s.tlsProvider = none)
    (hempty : s.conn.status = .Connected → s.conn.writeBufferList = []) :
    (shutdown kernel S s).conn.status ≠ .Connected := by
  unfold shutdown
  split
  · rename_i hconnected
    rw [if_neg (by simp [hplain, hempty hconnected])]
    simp only
    split
    · exact (flows_closeWrite _).status (by simp)
    · simp
  · assumption

theorem watch_plain {w w' : Watched σ} {event : Event} (h : w.thread.tlsProvider = none)
    (hwatch : watch kernel S w event = some w') : w'.thread.tlsProvider = none := by
  obtain ⟨thread, hstep, rfl⟩ := Option.map_eq_some_iff.mp hwatch
  exact (step_flows h hstep).plain h

theorem barrier_of_meets {w : Watched σ} {event : Event} (h : w.thread.tlsProvider = none)
    (hmeets : Meets w event) : Barrier kernel S w event := by
  rintro call rfl hreturned
  cases call with
  | send msg => exact neverTransmitted_send h (hmeets hreturned) msg
  | sendFile | sendStream => exact neverTransmitted_of_writeClosed h (hmeets hreturned) _

def opened (highWaterMarkLen : Option Nat) (inServerLoop : Bool) : Watched σ where
  thread := established highWaterMarkLen inServerLoop none
  returned := false

theorem barrier_of_allSteps {highWaterMarkLen : Option Nat} {inServerLoop : Bool}
    {events : List Event}
    (h : AllSteps (watch kernel S) Meets (opened highWaterMarkLen inServerLoop) events) :
    AllSteps (watch kernel S) (Barrier kernel S) (opened highWaterMarkLen inServerLoop) events :=
  h.imp (fun w => w.thread.tlsProvider = none) (fun _ _ _ h _ => watch_plain h)
    (fun _ _ h => barrier_of_meets h) rfl

/-- `shutdown()` finds no node on an open connection, and a file or a stream is sent behind it only
when the write side is closed. -/
def FindsEmpty (w : Watched σ) : Event → Prop
  | .inLoop .shutdown =>
      inUser w.thread → w.thread.conn.status = .Connected → w.thread.conn.writeBufferList = []
  | .inLoop (.call (.send _)) => True
  | .inLoop (.call call) => Meets w (.inLoop (.call call))
  | _ => True

/-- Behind the return of `shutdown()` the connection is not `Connected`. -/
def Closed (w : Watched σ) : Prop :=
  w.thread.tlsProvider = none ∧ (w.returned → w.thread.conn.status ≠ .Connected)

theorem closed_watch {w w' : Watched σ} {event : Event} (h : Closed w) (hempty : FindsEmpty w event)
    (hwatch : watch kernel S w event = some w') : Closed w' := by
  refine ⟨watch_plain h.1 hwatch, ?_⟩
  obtain ⟨thread, hstep, rfl⟩ := Option.map_eq_some_iff.mp hwatch
  have hflows := step_flows h.1 hstep
  simp only [Bool.or_eq_true, Bool.and_eq_true, decide_eq_true_eq]
  rintro (hreturned | ⟨rfl, huser⟩)
  · exact hflows.status (h.2 hreturned)
  · rw [step, if_pos huser] at hstep
    obtain rfl := Option.some.inj hstep
    exact shutdown_closed h.1 (hempty huser)

theorem meets_of_closed {w : Watched σ} {event : Event} (h : Closed w)
    (hempty : FindsEmpty w event) : Meets w event := by
  cases event with
  | inLoop request =>
      rcases request with (_ | _ | _) | _ | _
      · exact h.2
      · exact hempty
      · exact hempty
      · trivial
      · trivial
  | _ => trivial

theorem closed_opened (highWaterMarkLen : Option Nat) (inServerLoop : Bool) :
    Closed (@opened σ highWaterMarkLen inServerLoop) :=
  ⟨rfl, nofun⟩

/-- Where `shutdown()` finds an empty list, the connection is not `Connected` behind it. -/
theorem allSteps_meets_of_findsEmpty {highWaterMarkLen : Option Nat} {inServerLoop : Bool}
    {events : List Event}
    (h : AllSteps (watch kernel S) FindsEmpty (opened highWaterMarkLen inServerLoop) events) :
    AllSteps (watch kernel S) Meets (opened highWaterMarkLen inServerLoop) events :=
  h.imp Closed (fun _ _ _ h => closed_watch h) (fun _ _ h => meets_of_closed h)
    (closed_opened highWaterMarkLen inServerLoop)

/-- Two runs, for example such as differ in the answers of the kernel alone: when the connection is
not `Connected` any more at a message that is sent behind `shutdown()`, and files and streams are
sent behind it on a closed write side only, then in neither run anything that is sent behind it is
transmitted. -/
theorem allSteps_barrier (kernel kernel' : Kernel) (S : OpenSSL σ) (highWaterMarkLen : Option Nat)
    (inServerLoop : Bool) (events events' : List Event)
    (h : AllSteps (watch kernel S) Meets (opened highWaterMarkLen inServerLoop) events)
    (h' : AllSteps (watch kernel' S) Meets (opened highWaterMarkLen inServerLoop) events') :
    AllSteps (watch kernel S) (Barrier kernel S) (opened highWaterMarkLen inServerLoop) events ∧
      AllSteps (watch kernel' S) (Barrier kernel' S) (opened highWaterMarkLen inServerLoop)
        events' :=
  ⟨barrier_of_allSteps h, barrier_of_allSteps h'⟩

instance decidableMeets (w : Watched σ) : (event : Event) → Decidable (Meets w event)
  | .inLoop (.call (.send _)) => inferInstanceAs (Decidable (_ → _ ≠ _))
  | .inLoop (.call (.sendFile _ _ _)) => inferInstanceAs (Decidable (_ → _))
  | .inLoop (.call (.sendStream _)) => inferInstanceAs (Decidable (_ → _))
  | .inLoop .shutdown => isTrue trivial
  | .inLoop .forceClose => isTrue trivial
  | .handleEvent _ _ => isTrue trivial
  | .functor => isTrue trivial
  | .resume => isTrue trivial
  | .elsewhere _ => isTrue trivial
  | .serverLoop => isTrue trivial

/-- The socket is full at the first output call. -/
def fullKernel : Kernel := fun calls len =>
  if calls = 0 then .error .EAGAIN else .done (Fin.last len)

def readyKernel : Kernel := fun _ len => .done (Fin.last len)

def lateSend : List Event :=
  [.inLoop (.call (.send [1, 2])), .resume, .resume, .inLoop .shutdown,
    .inLoop (.call (.send [3]))]

/-- The third byte is sent from a callback of a later read event. Until then a full socket has taken
the two bytes, too, and `writeCallback` has shut the connection down. -/
def drainedSend : List Event :=
  lateSend.take 4 ++ [.resume, .writable, .resume, .resume, .writable, .resume, .resume, .resume,
    .resume, .handleEvent ⟨false, true, false, false, false, false, false⟩ (.ok [7]), .resume,
    .inLoop (.call (.send [3])), .inLoop (.call (.sendFile [4, 5] 0 2))]

theorem allSteps_barrier_drained :
    AllSteps (watch fullKernel unusedSSL) (Barrier fullKernel unusedSSL) (opened none true)
        drainedSend ∧
      AllSteps (watch readyKernel unusedSSL) (Barrier readyKernel unusedSSL) (opened none true)
        drainedSend :=
  allSteps_barrier fullKernel readyKernel unusedSSL none true drainedSend drainedSend (by decide)
    (by decide)

/-- A socket that takes the two bytes a little later gets the third, too. -/
theorem not_allSteps_barrier :
    ¬AllSteps (watch fullKernel unusedSSL) (Barrier fullKernel unusedSSL) (opened none true)
        lateSend ∧
      AllSteps (watch readyKernel unusedSSL) (Barrier readyKernel unusedSSL) (opened none true)
        lateSend := by
  constructor
  · intro h
    have hsplit : AllSteps (watch fullKernel unusedSSL) (Barrier fullKernel unusedSSL)
        (opened none true) (lateSend.take 4 ++ [.inLoop (.call (.send [3]))]) := h
    have hnever := (hsplit.drop rfl).1 (.send [3]) rfl rfl (.send [4]) rfl
      [.resume, .resume, .resume, .writable, .resume]
      _ rfl _ rfl
    exact absurd hnever (by decide)
  · exact barrier_of_allSteps (by decide)

end Barrier

end Cooper.ShutdownBarrier

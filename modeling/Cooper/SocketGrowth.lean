import Cooper.ThreadOutcome

namespace Cooper.SocketGrowth

open Cooper.ConnectionThread
open Cooper.MsgBuffer
open Cooper.OpenSSLProvider (OpenSSL)
open Cooper.StepRun
open Cooper.TcpConnectionImpl (BufferNode Connection Errno Kernel ReadResult SendCall Socket)
open Cooper.ThreadOutcome

structure Grows (socket socket' : Socket) : Prop where
  written : socket.written <+: socket'.written
  closed : socket.writeClosed = true →
    socket'.writeClosed = true ∧ socket'.written = socket.written

variable {σ : Type*}

structure Flows (s s' : LoopThread σ) : Prop where
  plain : s.tlsProvider = none → s'.tlsProvider = none
  socket : Grows s.conn.socket s'.conn.socket
  status : s.conn.status ≠ .Connected → s'.conn.status ≠ .Connected

section Grows

theorem Grows.refl (socket : Socket) : Grows socket socket :=
  ⟨List.prefix_refl _, fun hclosed => ⟨hclosed, rfl⟩⟩

theorem Grows.trans {socket socket' socket'' : Socket} (h : Grows socket socket')
    (h' : Grows socket' socket'') : Grows socket socket'' := by
  refine ⟨h.written.trans h'.written, fun hclosed => ?_⟩
  obtain ⟨hclosed', hsame⟩ := h.closed hclosed
  obtain ⟨hclosed'', hsame'⟩ := h'.closed hclosed'
  exact ⟨hclosed'', hsame'.trans hsame⟩

theorem grows_write (kernel : Kernel) (socket : Socket) (data : Bytes) :
    Grows socket (socket.write kernel data).2 := by
  unfold Socket.write
  split
  · exact .refl socket
  · rename_i hopen
    split
    · exact ⟨List.prefix_append _ _, fun hclosed => absurd hclosed hopen⟩
    · exact ⟨List.prefix_refl _, fun hclosed => absurd hclosed hopen⟩

end Grows

section Flows

variable {kernel : Kernel} {S : OpenSSL σ} {s s' s'' : LoopThread σ}

theorem Flows.of_same (hplain : s'.tlsProvider = s.tlsProvider)
    (hsocket : s'.conn.socket = s.conn.socket) (hstatus : s'.conn.status = s.conn.status) :
    Flows s s' := by
  refine ⟨fun h => hplain.trans h, ?_, ?_⟩
  · rw [hsocket]
    exact .refl _
  · rw [hstatus]
    exact id

theorem Flows.refl (s : LoopThread σ) : Flows s s := .of_same rfl rfl rfl

theorem Flows.trans (h : Flows s s') (h' : Flows s' s'') : Flows s s'' where
  plain := h'.plain ∘ h.plain
  socket := h.socket.trans h'.socket
  status := h'.status ∘ h.status

theorem Flows.ite {p : Prop} [Decidable p] (h : Flows s s') (h' : Flows s s'') :
    Flows s (if p then s' else s'') := by
  split
  · exact h
  · exact h'

theorem flows_push (frames : List Frame) (s : LoopThread σ) : Flows s (push frames s) :=
  .of_same rfl rfl rfl

theorem Flows.push (h : Flows s s') (frames : List Frame) : Flows s (push frames s') :=
  h.trans (flows_push frames s')

theorem flows_enableWriting (s : LoopThread σ) : Flows s (enableWriting s) := .of_same rfl rfl rfl

theorem flows_handleClose (s : LoopThread σ) : Flows s (handleClose s) :=
  ⟨id, .refl _, fun _ => by simp [handleClose, ConnectionThread.push, TcpConnectionImpl.log,
    TcpConnectionImpl.disableAll]⟩

theorem flows_forceClose (s : LoopThread σ) : Flows s (forceClose s) := by
  refine .ite ?_ (.refl s)
  exact ⟨id, .refl _, (flows_handleClose { s with conn.status := .Disconnecting }).status ∘ by simp⟩

theorem flows_closeWrite (s : LoopThread σ) : Flows s (closeWrite s) := by
  unfold closeWrite
  split
  · exact ⟨id, ⟨List.prefix_refl _, fun _ => ⟨rfl, rfl⟩⟩, id⟩
  · rename_i hp
    exact ⟨fun hplain => by simp [hplain] at hp, .refl _, id⟩

theorem flows_shutdown (s : LoopThread σ) : Flows s (shutdown kernel S s) := by
  refine .ite (.ite (.of_same rfl rfl rfl) ?_) (.refl s)
  let s₁ := { s with
    tlsProvider := s.tlsProvider.map (OpenSSLProvider.close kernel S)
    conn.status := .Disconnecting }
  have hset : Flows s s₁ :=
    ⟨fun hplain => by simp only [s₁, hplain, Option.map_none], .refl _, fun _ => by simp [s₁]⟩
  exact .ite (hset.trans (flows_closeWrite s₁)) hset

theorem flows_writeInLoop (kernel : Kernel) (S : OpenSSL σ) (s : LoopThread σ) (data : Bytes) :
    Flows s (writeInLoop kernel S s data).2.2 := by
  have hgrows := grows_write kernel s.conn.socket data
  unfold writeInLoop
  split
  · simp only [TcpConnectionImpl.writeInLoop]
    split
    · rename_i hwrite
      rw [hwrite] at hgrows
      exact ⟨id, hgrows, id⟩
    · rename_i hwrite
      rw [hwrite] at hgrows
      exact ⟨id, hgrows, id⟩
  · rename_i hp
    split
    · exact ⟨fun hplain => by simp [hplain] at hp, .refl _, id⟩
    · exact ⟨fun hplain => by simp [hplain] at hp, .refl _, id⟩

theorem flows_onSslError (s : LoopThread σ) : Flows s (onSslError s) :=
  (flows_push [.user] s).trans (flows_forceClose _)

theorem flows_of_write {buffer : Bytes} {ok : Nat → LoopThread σ → LoopThread σ}
    {failed reported : Errno → LoopThread σ → LoopThread σ}
    (hok : ∀ n s, Flows s (ok n s)) (hfailed : ∀ e s, Flows s (failed e s))
    (hreported : ∀ e s, Flows s (reported e s)) :
    Flows s (match writeInLoop kernel S s buffer with
      | (.ok n, _, s) => ok n s
      | (.error e, report, s) => if report then onSslError (reported e s) else failed e s) := by
  have hwrite := flows_writeInLoop kernel S s buffer
  rcases hresult : writeInLoop kernel S s buffer with ⟨e | n, report, s'⟩
  · rw [hresult] at hwrite
    refine .ite ?_ (hwrite.trans (hfailed e s'))
    exact (hwrite.trans (hreported e s')).trans (flows_onSslError _)
  · rw [hresult] at hwrite
    exact hwrite.trans (hok n s')

theorem flows_queueInList (s : LoopThread σ) (remaining : Bytes) :
    Flows s (queueInList s remaining) := by
  have hqueued : Flows s { s with conn := TcpConnectionImpl.queueInList s.conn remaining } := by
    refine .of_same rfl ?_ (quietConn_queueInList s.conn remaining).status
    unfold TcpConnectionImpl.queueInList TcpConnectionImpl.checkHighWaterMark
    split
    · split
      · split <;> rfl
      · rfl
    · rfl
  have hbuffered := Flows.ite (p := s.tlsProvider.isSome) (hqueued.push [.checkBufferedData]) hqueued
  exact .ite (.ite (hbuffered.push [.user]) hbuffered) (.refl s)

theorem flows_sendFailed (e : Errno) (msg : Bytes) (s : LoopThread σ) :
    Flows s (sendFailed e msg s) :=
  .ite (.refl s) (flows_queueInList s msg)

theorem flows_sendInLoop (s : LoopThread σ) (msg : Bytes) : Flows s (sendInLoop kernel S s msg) := by
  refine .ite (.refl s) (.ite ?_ (flows_queueInList s msg))
  exact flows_of_write (fun n s => flows_queueInList s _) (fun e s => flows_sendFailed e msg s)
    (fun e s => flows_push [.sendFailed e msg] s)

theorem flows_checkBufferedData (s : LoopThread σ) : Flows s (checkBufferedData s) := by
  unfold checkBufferedData
  split
  · exact .refl s
  · exact .ite (.of_same rfl rfl rfl) (.refl s)

theorem flows_streamFailed (e : Errno) (s : LoopThread σ) : Flows s (streamFailed e s) :=
  .ite (.of_same rfl rfl rfl) (flows_enableWriting s)

theorem flows_fetch (fileBytesToSend : Nat) (s : LoopThread σ) :
    Flows s (fetch fileBytesToSend s) :=
  .ite (flows_enableWriting s) (flows_push _ s)

theorem flows_writeFileBuffer (fileBytesToSend : Nat) (s : LoopThread σ) :
    Flows s (writeFileBuffer kernel S fileBytesToSend s) := by
  refine flows_of_write (fun n s => .ite ?_ ?_) (fun e s => flows_streamFailed e s)
    (fun e s => flows_push [.streamFailed e] s)
  · exact .of_same rfl rfl rfl
  · have hdone : Flows s { s with conn.fileBuffer := [] } := .of_same rfl rfl rfl
    exact hdone.trans (flows_fetch _ _)

theorem flows_fetched (s : LoopThread σ) : Flows s (fetched kernel S s) := by
  unfold fetched
  split
  · exact .of_same rfl rfl rfl
  · refine .ite (.of_same rfl rfl rfl) (Flows.trans ?_ (flows_writeFileBuffer _ _))
    exact .of_same rfl rfl rfl
  · exact .refl s

theorem flows_fileFailed (e : Errno) (s : LoopThread σ) : Flows s (fileFailed e s) :=
  .ite (.refl s) (flows_enableWriting s)

theorem flows_fileLoop (s : LoopThread σ) : Flows s (fileLoop kernel S s) := by
  unfold fileLoop
  split
  · refine .ite (flows_enableWriting s) (.ite (.refl s) (Flows.trans ?_ (flows_of_write
      (fun n s => .ite ?_ ?_) (fun e s => flows_fileFailed e s)
      (fun e s => flows_push [.fileFailed e] s))))
    · exact .of_same rfl rfl rfl
    · exact .of_same rfl rfl rfl
    · exact .of_same rfl rfl rfl
  · exact .refl s

theorem grows_sendfileInLoop (kernel : Kernel) (c : Connection) (content : Bytes)
    (offset fileBytesToSend : Nat) : Grows c.socket
      (TcpConnectionImpl.sendfileInLoop kernel c content offset fileBytesToSend).1.socket := by
  have hgrows := grows_write kernel c.socket ((content.drop offset).take fileBytesToSend)
  unfold TcpConnectionImpl.sendfileInLoop Socket.sendfile
  split
  · rename_i hwrite
    rw [hwrite] at hgrows
    simp only
    split <;> exact hgrows
  · rename_i hwrite
    rw [hwrite] at hgrows
    simp only
    split <;> exact hgrows

theorem flows_sendFileInLoop (hsend : sendFileInLoop kernel S s = some s') : Flows s s' := by
  unfold sendFileInLoop at hsend
  split at hsend
  · split at hsend
    · obtain rfl := Option.some.inj hsend
      exact .of_same rfl rfl rfl
    · rename_i content offset fileBytesToSend _ _ _
      obtain rfl := Option.some.inj hsend
      refine ⟨id, grows_sendfileInLoop kernel s.conn _ _ _, fun hclosed => ?_⟩
      exact (quietConn_sendfileInLoop kernel s.conn content offset fileBytesToSend).status.trans_ne
        hclosed
  · split at hsend
    · obtain rfl := Option.some.inj hsend
      exact flows_fetch _ s
    · obtain rfl := Option.some.inj hsend
      exact flows_writeFileBuffer _ s
  · simp at hsend

theorem flows_writeMsg (s : LoopThread σ) (msgBuffer : Bytes) (rest : List BufferNode) :
    Flows s (writeMsg kernel S s msgBuffer rest) := by
  have hcheck : ∀ (e : Errno) (s : LoopThread σ),
      Flows s (if e ≠ .EAGAIN then s else push [.checkCloseOnEmpty] s) :=
    fun e s => .ite (.refl s) (flows_push _ s)
  exact flows_of_write (fun n s => .of_same rfl rfl rfl) hcheck hcheck

theorem flows_writeNext {afterFile : Bool} {rest : List BufferNode}
    (hnext : writeNext kernel S afterFile s rest = some s') : Flows s s' := by
  have hpop : Flows s { s with conn.writeBufferList := rest } := .of_same rfl rfl rfl
  unfold writeNext at hnext
  simp only at hnext
  split at hnext
  · obtain rfl := Option.some.inj hnext
    exact .of_same rfl rfl rfl
  · split at hnext
    · obtain rfl := Option.some.inj hnext
      exact hpop.trans (flows_writeMsg _ _ _)
    · simp at hnext
  · obtain rfl := Option.some.inj hnext
    exact .of_same rfl rfl rfl

theorem flows_writeList (hlist : writeList kernel S s = some s') : Flows s s' := by
  unfold writeList at hlist
  split at hlist
  · simp at hlist
  · split at hlist
    · exact flows_writeNext hlist
    · obtain rfl := Option.some.inj hlist
      exact flows_writeMsg s _ _
  all_goals
    split at hlist
    · exact flows_writeNext hlist
    · obtain rfl := Option.some.inj hlist
      exact flows_push _ s

theorem flows_readCallback (s : LoopThread σ) (result : ReadResult) :
    Flows s (readCallback s result) := by
  unfold readCallback
  split
  · exact flows_handleClose s
  · exact .of_same rfl rfl rfl
  · exact .ite (.refl s) (flows_handleClose s)

theorem flows_connectDestroyed (s : LoopThread σ) : Flows s (connectDestroyed s) := by
  unfold connectDestroyed
  simp only
  split
  · exact ⟨id, .refl _, fun _ => by simp [ConnectionThread.push, TcpConnectionImpl.log,
      TcpConnectionImpl.disableAll]⟩
  · exact .of_same rfl rfl rfl

theorem flows_closeCallback (s : LoopThread σ) : Flows s (closeCallback s) := by
  refine .ite ?_ ?_
  · exact .of_same rfl rfl rfl
  · exact .of_same rfl rfl rfl

theorem exec_flows (hplain : s.tlsProvider = none) {frame : Frame}
    (hexec : exec kernel S s frame = some s') : Flows s s' := by
  cases frame with
  | sendFileInLoop => exact flows_sendFileInLoop hexec
  | writeCallback =>
      simp only [exec, writeCallback, hplain] at hexec
      split at hexec
      · exact flows_writeList hexec
      · obtain rfl := Option.some.inj hexec
        exact .refl s
  | startFile =>
      simp only [exec] at hexec
      split at hexec
      · obtain rfl := Option.some.inj hexec
        exact flows_push _ s
      · obtain rfl := Option.some.inj hexec
        exact .refl s
  | recvData | processHandshake | handshakeFinished | processApplicationData =>
      simp only [exec, hplain, Option.elim_none] at hexec
      obtain rfl := Option.some.inj hexec
      exact .refl s
  | _ =>
      obtain rfl := Option.some.inj hexec
      first
        | exact .of_same rfl rfl rfl
        | exact flows_handleClose s
        | exact flows_readCallback s _
        | exact flows_closeCallback s
        | exact flows_sendInLoop s _
        | exact flows_sendFailed _ _ s
        | exact flows_checkBufferedData s
        | exact flows_fetched s
        | exact flows_streamFailed _ s
        | exact flows_fileLoop s
        | exact flows_fileFailed _ s
        | exact .ite (flows_closeWrite s) (.refl s)
        | exact .ite (flows_shutdown s) (.refl s)

theorem flows_pushNode (node : BufferNode) (s : LoopThread σ) : Flows s (pushNode node s) :=
  .of_same rfl rfl rfl

theorem flows_callInLoop (s : LoopThread σ) (call : SendCall) : Flows s (callInLoop s call) := by
  have hfile : ∀ s : LoopThread σ, Flows s (if s.conn.writeBufferList.length = 1 then
      push [.sendFileInLoop, .unlock] { s with locked := true } else s) :=
    fun s => .ite (.of_same rfl rfl rfl) (.refl s)
  cases call with
  | send msg => exact .of_same rfl rfl rfl
  | sendFile | sendStream => exact (flows_pushNode _ s).trans (hfile _)

theorem flows_requestInLoop {request : Request}
    (hrequest : requestInLoop kernel S s request = some s') : Flows s s' := by
  cases requestInLoop_cases hrequest with
  | @direct call =>
      have hlog : Flows s { s with conn := TcpConnectionImpl.log s.conn (.call call) } :=
        .of_same rfl rfl rfl
      exact hlog.trans (flows_callInLoop _ call)
  | queued => exact .of_same rfl rfl rfl
  | shutdown => exact flows_shutdown s
  | forceClose => exact flows_forceClose s

theorem flows_requestElsewhere (s : LoopThread σ) (request : Request) :
    Flows s (requestElsewhere s request) := by
  cases request with
  | call call => exact .ite (.refl s) (.of_same rfl rfl rfl)
  | shutdown | forceClose => exact .of_same rfl rfl rfl

theorem flows_runFunctor (s : LoopThread σ) (functor : Functor) :
    Flows s (runFunctor kernel S s functor) := by
  cases functor with
  | connectDestroyed => exact flows_connectDestroyed s
  | request request =>
      cases request with
      | call call => cases call <;> exact .of_same rfl rfl rfl
      | shutdown => exact flows_shutdown s
      | forceClose => exact flows_forceClose s

theorem step_flows (hplain : s.tlsProvider = none) {event : Event}
    (hstep : step kernel S s event = some s') : Flows s s' := by
  cases step_cases hstep with
  | idle => exact .refl s
  | handleEvent => exact .ite (.refl s) (flows_push _ s)
  | @functor functor funcs _ _ =>
      have htail : Flows s { s with funcs } := .of_same rfl rfl rfl
      exact htail.trans (flows_runFunctor _ functor)
  | @resume frame stack _ _ hexec =>
      have htail : Flows s { s with stack } := .of_same rfl rfl rfl
      exact htail.trans (exec_flows hplain hexec)
  | inLoop _ hrequest => exact flows_requestInLoop hrequest
  | elsewhere request => exact flows_requestElsewhere s request
  | serverLoop => exact .of_same rfl rfl rfl

theorem runSteps_flows (hplain : s.tlsProvider = none) {events : List Event}
    (hrun : runSteps (step kernel S) s events = some s') : Flows s s' := by
  refine runSteps_invariant (fun s' => s'.tlsProvider = none ∧ Flows s s') ?_ ⟨hplain, .refl s⟩
    hrun |>.2
  rintro s₁ event s₂ ⟨hplain₁, hflows⟩ hstep
  have hnext := step_flows hplain₁ hstep
  exact ⟨hnext.plain hplain₁, hflows.trans hnext⟩

end Flows

end Cooper.SocketGrowth

import Cooper.ConnectionThread

namespace Cooper.ThreadOutcome

open Cooper.ConnectionThread
open Cooper.MsgBuffer
open Cooper.OpenSSLProvider (OpenSSL Provider)
open Cooper.TcpConnectionImpl (Connection ConnEvent Errno Kernel SendCall BufferNode ReadResult)

/-- A frame that ends a close, a call or a functor. -/
def ends : Frame → Bool
  | .closeCallback | .remove | .unlock | .decrement => true
  | _ => false

def isOutputEvent : ConnEvent → Bool
  | .writeCompleteCallback | .highWaterMarkCallback _ => true
  | _ => false

variable {σ : Type*}

def surroundings (s : LoopThread σ) : Bool × List Functor × Bool × Bool × Nat × List Nat × Nat :=
  (s.locked, s.funcs, s.inServerLoop, s.inConnSet, s.closing, s.erased, s.destroyed)

/-- `c'` differs from `c` in what has been read, queued and written only. -/
structure QuietConn (c c' : Connection) : Prop where
  status : c'.status = c.status
  sendNum : c'.sendNum = c.sendNum
  trace : ∃ events, c'.trace = c.trace ++ events ∧ ∀ event ∈ events, isOutputEvent event

structure Quiet (s s' : LoopThread σ) : Prop where
  conn : QuietConn s.conn s'.conn
  stack : ∃ frames, s'.stack = frames ++ s.stack ∧ frames.any ends = false
  outside : surroundings s' = surroundings s

section Quiet

variable {c c' c'' : Connection} {s s' s'' : LoopThread σ}

theorem QuietConn.of_same (hstatus : c'.status = c.status) (hsendNum : c'.sendNum = c.sendNum)
    (htrace : c'.trace = c.trace) : QuietConn c c' :=
  ⟨hstatus, hsendNum, [], by simp [htrace]⟩

theorem QuietConn.refl (c : Connection) : QuietConn c c := .of_same rfl rfl rfl

theorem QuietConn.trans (h : QuietConn c c') (h' : QuietConn c' c'') : QuietConn c c'' := by
  obtain ⟨events, htrace, hevents⟩ := h.trace
  obtain ⟨events', htrace', hevents'⟩ := h'.trace
  refine ⟨h'.status.trans h.status, h'.sendNum.trans h.sendNum, events ++ events', ?_, ?_⟩
  · rw [htrace', htrace, List.append_assoc]
  · intro event hevent
    exact (List.mem_append.mp hevent).elim (hevents event) (hevents' event)

theorem quietConn_log (c : Connection) {event : ConnEvent} (hevent : isOutputEvent event) :
    QuietConn c (TcpConnectionImpl.log c event) :=
  ⟨rfl, rfl, [event], rfl, by simpa using hevent⟩

theorem Quiet.of_conn (hconn : QuietConn s.conn s'.conn) (hstack : s'.stack = s.stack)
    (houtside : surroundings s' = surroundings s) : Quiet s s' :=
  ⟨hconn, ⟨[], by simp [hstack]⟩, houtside⟩

theorem Quiet.refl (s : LoopThread σ) : Quiet s s := .of_conn (.refl s.conn) rfl rfl

theorem Quiet.trans (h : Quiet s s') (h' : Quiet s' s'') : Quiet s s'' := by
  obtain ⟨frames, hstack, hframes⟩ := h.stack
  obtain ⟨frames', hstack', hframes'⟩ := h'.stack
  refine ⟨h.conn.trans h'.conn, ⟨frames' ++ frames, ?_, ?_⟩, h'.outside.trans h.outside⟩
  · rw [hstack', hstack, List.append_assoc]
  · rw [List.any_append, hframes, hframes', Bool.or_false]

theorem quiet_push (frames : List Frame) (s : LoopThread σ) (hframes : frames.any ends = false) :
    Quiet s (push frames s) :=
  ⟨.refl s.conn, ⟨frames, rfl, hframes⟩, rfl⟩

theorem Quiet.push (h : Quiet s s') (frames : List Frame)
    (hframes : frames.any ends = false) : Quiet s (push frames s') :=
  h.trans (quiet_push frames s' hframes)

theorem Quiet.ite {p : Prop} [Decidable p] (h : Quiet s s') (h' : Quiet s s'') :
    Quiet s (if p then s' else s'') := by
  split
  · exact h
  · exact h'

end Quiet

section Output

variable (kernel : Kernel) (S : OpenSSL σ)

theorem quietConn_writeInLoop (c : Connection) (buffer : Bytes) :
    QuietConn c (TcpConnectionImpl.writeInLoop kernel c buffer).2 := by
  unfold TcpConnectionImpl.writeInLoop
  split <;> exact .of_same rfl rfl rfl

theorem quietConn_queueInList (c : Connection) (remaining : Bytes) :
    QuietConn c (TcpConnectionImpl.queueInList c remaining) := by
  unfold TcpConnectionImpl.queueInList TcpConnectionImpl.checkHighWaterMark
  have hqueued : QuietConn c (TcpConnectionImpl.enableWriting { c with
      writeBufferList := TcpConnectionImpl.appendMsg remaining c.writeBufferList }) :=
    .of_same rfl rfl rfl
  split
  · split
    · split
      · exact hqueued.trans (quietConn_log _ rfl)
      · exact hqueued
    · exact hqueued
  · exact .refl c

theorem quietConn_sendfileInLoop (c : Connection) (content : Bytes)
    (offset fileBytesToSend : Nat) :
    QuietConn c (TcpConnectionImpl.sendfileInLoop kernel c content offset fileBytesToSend).1 := by
  unfold TcpConnectionImpl.sendfileInLoop
  split
  · simp only
    split <;> exact .of_same rfl rfl rfl
  · simp only
    split <;> exact .of_same rfl rfl rfl

theorem quiet_writeInLoop (s : LoopThread σ) (buffer : Bytes) :
    Quiet s (writeInLoop kernel S s buffer).2.2 := by
  unfold writeInLoop
  split
  · exact .of_conn (quietConn_writeInLoop kernel s.conn buffer) rfl rfl
  · split <;> exact .of_conn (.refl s.conn) rfl rfl

theorem quiet_checkBufferedData (s : LoopThread σ) : Quiet s (checkBufferedData s) := by
  unfold checkBufferedData
  split
  · exact .refl s
  · refine .ite (.push ?_ _ rfl) (.refl s)
    exact .of_conn (quietConn_log s.conn rfl) rfl rfl

theorem quiet_queueInList (s : LoopThread σ) (remaining : Bytes) :
    Quiet s (queueInList s remaining) := by
  have hqueued : Quiet s { s with conn := TcpConnectionImpl.queueInList s.conn remaining } :=
    .of_conn (quietConn_queueInList s.conn remaining) rfl rfl
  have hbuffered := Quiet.ite (p := s.tlsProvider.isSome)
    (hqueued.push [.checkBufferedData] rfl) hqueued
  exact .ite (.ite (hbuffered.push [.user] rfl) hbuffered) (.refl s)

theorem quiet_sendFailed (e : Errno) (msg : Bytes) (s : LoopThread σ) :
    Quiet s (sendFailed e msg s) :=
  .ite (.refl s) (quiet_queueInList s msg)

theorem quiet_enableWriting (s : LoopThread σ) : Quiet s (enableWriting s) :=
  .of_conn (.of_same rfl rfl rfl) rfl rfl

theorem Quiet.enableWriting {s s' : LoopThread σ} (h : Quiet s s') : Quiet s (enableWriting s') :=
  h.trans (quiet_enableWriting s')

theorem quiet_closeWrite (s : LoopThread σ) : Quiet s (closeWrite s) := by
  unfold closeWrite
  split <;> exact .of_conn (.of_same rfl rfl rfl) rfl rfl

end Output

/-- What is left of a frame that neither ends anything nor closes the connection of itself: quiet
moves, errors of the provider and calls of `shutdown`. -/
inductive Moves (kernel : Kernel) (S : OpenSSL σ) (s : LoopThread σ) : LoopThread σ → Prop
  | start : Moves kernel S s s
  | quiet {s' s''} (h : Moves kernel S s s') (h' : Quiet s' s'') : Moves kernel S s s''
  | onSslError {s'} (h : Moves kernel S s s') : Moves kernel S s (onSslError s')
  | shutdown {s'} (h : Moves kernel S s s') : Moves kernel S s (shutdown kernel S s')

section Moves

variable {kernel : Kernel} {S : OpenSSL σ} {s s' s'' : LoopThread σ}

theorem Quiet.moves (h : Quiet s s') : Moves kernel S s s' := Moves.start.quiet h

theorem Moves.ite {p : Prop} [Decidable p] (h : Moves kernel S s s') (h' : Moves kernel S s s'') :
    Moves kernel S s (if p then s' else s'') := by
  split
  · exact h
  · exact h'

theorem Moves.handleSSLError (h : Moves kernel S s s') (p p' : Provider σ) :
    Moves kernel S s (handleSSLError p p' s') :=
  have hset : Moves kernel S s { s' with tlsProvider := some p' } :=
    h.quiet (.of_conn (.refl s'.conn) rfl rfl)
  .ite hset.onSslError hset

theorem of_write {P : LoopThread σ → Prop} {buffer : Bytes} {ok : Nat → LoopThread σ → LoopThread σ}
    {failed reported : Errno → LoopThread σ → LoopThread σ}
    (hok : ∀ n, P (ok n (writeInLoop kernel S s buffer).2.2))
    (hfailed : ∀ e, P (failed e (writeInLoop kernel S s buffer).2.2))
    (hreported : ∀ e,
      P (ConnectionThread.onSslError (reported e (writeInLoop kernel S s buffer).2.2))) :
    P (match writeInLoop kernel S s buffer with
      | (.ok n, _, s) => ok n s
      | (.error e, report, s) =>
          if report then ConnectionThread.onSslError (reported e s) else failed e s) := by
  generalize writeInLoop kernel S s buffer = result at hok hfailed hreported
  rcases result with ⟨e | n, report, s'⟩
  · cases report with
    | false => exact hfailed e
    | true => exact hreported e
  · exact hok n

theorem moves_of_write {buffer : Bytes} {ok : Nat → LoopThread σ → LoopThread σ}
    {failed reported : Errno → LoopThread σ → LoopThread σ}
    (hok : ∀ n s, Quiet s (ok n s)) (hfailed : ∀ e s, Quiet s (failed e s))
    (hreported : ∀ e s, Quiet s (reported e s)) :
    Moves kernel S s (match writeInLoop kernel S s buffer with
      | (.ok n, _, s) => ok n s
      | (.error e, report, s) =>
          if report then ConnectionThread.onSslError (reported e s) else failed e s) := by
  have hwrite := quiet_writeInLoop kernel S s buffer
  apply of_write
  · exact fun n => (hwrite.trans (hok n _)).moves
  · exact fun e => (hwrite.trans (hfailed e _)).moves
  · exact fun e => .onSslError (hwrite.trans (hreported e _)).moves

theorem moves_sendInLoop (s : LoopThread σ) (msg : Bytes) :
    Moves kernel S s (sendInLoop kernel S s msg) := by
  refine .ite .start (.ite ?_ (quiet_queueInList s msg).moves)
  exact moves_of_write (fun _ s => quiet_queueInList s _) (fun e s => quiet_sendFailed e msg s)
    (fun e s => quiet_push [.sendFailed e msg] s rfl)

theorem quiet_streamFailed (e : Errno) (s : LoopThread σ) : Quiet s (streamFailed e s) :=
  .ite (.of_conn (.of_same rfl rfl rfl) rfl rfl) (quiet_enableWriting s)

theorem quiet_fetch (fileBytesToSend : Nat) (s : LoopThread σ) :
    Quiet s (fetch fileBytesToSend s) :=
  .ite (quiet_enableWriting s) (quiet_push _ s rfl)

theorem Quiet.fetch (h : Quiet s s') (fileBytesToSend : Nat) :
    Quiet s (fetch fileBytesToSend s') :=
  h.trans (quiet_fetch fileBytesToSend s')

theorem Quiet.of_buffers (hstatus : s'.conn.status = s.conn.status)
    (hsendNum : s'.conn.sendNum = s.conn.sendNum) (htrace : s'.conn.trace = s.conn.trace)
    (hstack : s'.stack = s.stack) (houtside : surroundings s' = surroundings s) : Quiet s s' :=
  .of_conn (.of_same hstatus hsendNum htrace) hstack houtside

theorem moves_writeFileBuffer (fileBytesToSend : Nat) (s : LoopThread σ) :
    Moves kernel S s (writeFileBuffer kernel S fileBytesToSend s) := by
  refine moves_of_write (fun n s => ?_) (fun e s => quiet_streamFailed e s)
    (fun e s => quiet_push [.streamFailed e] s rfl)
  refine .ite (.enableWriting ?_) (.fetch ?_ _)
  · exact .of_buffers rfl rfl rfl rfl rfl
  · exact .of_buffers rfl rfl rfl rfl rfl

theorem Quiet.moves_of (h : Quiet s s') (h' : Moves kernel S s' s'') : Moves kernel S s s'' := by
  induction h' with
  | start => exact h.moves
  | quiet _ hquiet ih => exact ih.quiet hquiet
  | onSslError _ ih => exact ih.onSslError
  | shutdown _ ih => exact ih.shutdown

theorem moves_fetched (s : LoopThread σ) : Moves kernel S s (fetched kernel S s) := by
  unfold fetched
  split
  · refine Quiet.moves (.enableWriting ?_)
    exact .of_buffers rfl rfl rfl rfl rfl
  · refine .ite (Quiet.moves (.enableWriting ?_)) (Quiet.moves_of ?_ (moves_writeFileBuffer _ _))
    · exact .of_buffers rfl rfl rfl rfl rfl
    · exact .of_buffers rfl rfl rfl rfl rfl
  · exact .start

theorem quiet_fileFailed (e : Errno) (s : LoopThread σ) : Quiet s (fileFailed e s) :=
  .ite (.refl s) (quiet_enableWriting s)

theorem moves_fileLoop (s : LoopThread σ) : Moves kernel S s (fileLoop kernel S s) := by
  unfold fileLoop
  split
  · refine .ite (quiet_enableWriting s).moves (.ite .start ?_)
    refine Quiet.moves_of ?_ (moves_of_write (fun n s => ?_) (fun e s => quiet_fileFailed e s)
      (fun e s => quiet_push [.fileFailed e] s rfl))
    · exact .of_buffers rfl rfl rfl rfl rfl
    · refine .ite (.enableWriting ?_) (.push ?_ _ rfl)
      · exact .of_buffers rfl rfl rfl rfl rfl
      · exact .of_buffers rfl rfl rfl rfl rfl
  · exact .start

theorem moves_sendFileInLoop (hsend : sendFileInLoop kernel S s = some s') :
    Moves kernel S s s' := by
  unfold sendFileInLoop at hsend
  split at hsend
  · split at hsend
    · obtain rfl := Option.some.inj hsend
      refine Quiet.moves (.push ?_ _ rfl)
      exact .of_buffers rfl rfl rfl rfl rfl
    · obtain rfl := Option.some.inj hsend
      refine Quiet.moves (.of_conn ?_ rfl rfl)
      exact (quietConn_sendfileInLoop kernel s.conn _ _ _).trans (.of_same rfl rfl rfl)
  · split at hsend
    · obtain rfl := Option.some.inj hsend
      exact (quiet_fetch _ s).moves
    · obtain rfl := Option.some.inj hsend
      exact moves_writeFileBuffer _ s
  · simp at hsend

theorem moves_writeMsg (s : LoopThread σ) (msgBuffer : Bytes) (rest : List BufferNode) :
    Moves kernel S s (writeMsg kernel S s msgBuffer rest) := by
  have hcheck : ∀ (e : Errno) (s : LoopThread σ),
      Quiet s (if e ≠ .EAGAIN then s else push [.checkCloseOnEmpty] s) :=
    fun e s => .ite (.refl s) (quiet_push _ s rfl)
  refine moves_of_write (fun n s => .push ?_ _ rfl) hcheck hcheck
  exact .of_buffers rfl rfl rfl rfl rfl

theorem moves_writeNext {afterFile : Bool} {rest : List BufferNode}
    (hnext : writeNext kernel S afterFile s rest = some s') : Moves kernel S s s' := by
  have hpop : Quiet s { s with conn.writeBufferList := rest } := .of_buffers rfl rfl rfl rfl rfl
  unfold writeNext at hnext
  simp only at hnext
  split at hnext
  · obtain rfl := Option.some.inj hnext
    refine Quiet.moves (.push ?_ _ rfl)
    refine .of_conn (.trans ?_ (quietConn_log _ rfl)) rfl rfl
    exact .of_same rfl rfl rfl
  · split at hnext
    · obtain rfl := Option.some.inj hnext
      exact hpop.moves_of (moves_writeMsg _ _ _)
    · simp at hnext
  · obtain rfl := Option.some.inj hnext
    exact (hpop.trans (quiet_push _ _ rfl)).moves

theorem moves_writeList (hlist : writeList kernel S s = some s') : Moves kernel S s s' := by
  unfold writeList at hlist
  split at hlist
  · simp at hlist
  · split at hlist
    · exact moves_writeNext hlist
    · obtain rfl := Option.some.inj hlist
      exact moves_writeMsg s _ _
  all_goals
    split at hlist
    · exact moves_writeNext hlist
    · obtain rfl := Option.some.inj hlist
      exact (quiet_push _ s rfl).moves

theorem quiet_provider (s : LoopThread σ) (p : Option (Provider σ)) :
    Quiet s { s with tlsProvider := p } :=
  .of_conn (.refl s.conn) rfl rfl

theorem moves_writeCallback (hwrite : writeCallback kernel S s = some s') :
    Moves kernel S s s' := by
  unfold writeCallback at hwrite
  split at hwrite
  · split at hwrite
    · exact moves_writeList hwrite
    · split at hwrite
      · obtain rfl := Option.some.inj hwrite
        exact ((quiet_provider s _).trans (quiet_enableWriting _)).moves
      · exact (quiet_provider s _).moves_of (moves_writeList hwrite)
  · obtain rfl := Option.some.inj hwrite
    exact .start

theorem moves_recvData (p : Provider σ) (s : LoopThread σ) :
    Moves kernel S s (recvData kernel S p s) := by
  unfold recvData
  split
  · exact Moves.start.handleSSLError p _
  · refine Quiet.moves (.push ?_ _ ?_)
    · exact .of_buffers rfl rfl rfl rfl rfl
    · split <;> rfl

theorem moves_processHandshake (inRecvData : Bool) (p : Provider σ) (s : LoopThread σ)
    (hhandshake : (OpenSSLProvider.processHandshake kernel S p).1 ≠ .handshakeCallback) :
    Moves kernel S s (processHandshake kernel S inRecvData p s) := by
  unfold processHandshake
  split
  · rename_i hfinished
    exact absurd (congrArg Prod.fst hfinished) hhandshake
  · rename_i p' _
    have hshutdown : Moves kernel S s (shutdown kernel S { s with tlsProvider := some p' }) :=
      (quiet_provider s (some p')).moves.shutdown
    simp only
    cases (shutdown kernel S { s with tlsProvider := some p' }).tlsProvider with
    | none => exact hshutdown
    | some p => exact hshutdown.handleSSLError p _
  · exact Moves.start.handleSSLError p _

theorem quiet_handshakeFinished (inRecvData : Bool) (p : Provider σ) (s : LoopThread σ) :
    Quiet s (handshakeFinished kernel inRecvData p s) := by
  refine (quiet_provider s _).push _ ?_
  cases inRecvData <;> rfl

theorem moves_processApplicationData (p : Provider σ) (s : LoopThread σ) :
    Moves kernel S s (processApplicationData kernel S p s) := by
  unfold processApplicationData
  split
  · exact ((quiet_provider s _).trans (quiet_push _ _ rfl)).moves
  · exact (quiet_provider s _).moves.shutdown
  · exact Moves.start.handleSSLError p _

/-- Whether the frame is an event or a read that runs `handleClose`. -/
def closes : Frame → Bool
  | .closeEvent | .readCallback (.ok []) => true
  | .readCallback (.error e) => e ∉ [.EPIPE, .ECONNRESET, .EAGAIN]
  | _ => false

theorem exec_of_closes {frame : Frame} (hcloses : closes frame) :
    exec kernel S s frame = some (handleClose s) := by
  cases frame with
  | closeEvent => rfl
  | readCallback result =>
      rcases result with e | _ | ⟨byte, chunk⟩
      · simp only [closes, List.mem_cons, List.not_mem_nil, or_false, decide_not,
          Bool.not_eq_true', decide_eq_false_iff_not] at hcloses
        exact congrArg some (if_neg hcloses)
      · rfl
      · simp [closes] at hcloses
  | _ => simp [closes] at hcloses

theorem moves_readCallback {result : ReadResult} (hcloses : closes (.readCallback result) = false) :
    Moves kernel S s (readCallback s result) := by
  rcases result with e | _ | ⟨byte, chunk⟩
  · simp only [closes, List.mem_cons, List.not_mem_nil, or_false, decide_not, Bool.not_eq_false',
      decide_eq_true_eq] at hcloses
    rw [readCallback, if_pos hcloses]
    exact .start
  · simp [closes] at hcloses
  · refine Quiet.moves (.push ?_ _ ?_)
    · exact .of_buffers rfl rfl rfl rfl rfl
    · split <;> rfl

def finishes (S : OpenSSL σ) (s : LoopThread σ) : Frame → Bool
  | .processHandshake _ => s.tlsProvider.any fun p => (S.SSL_do_handshake p.ssl).1 = .finished
  | _ => false

theorem finishes_stack (S : OpenSSL σ) (s : LoopThread σ) (stack : List Frame) (frame : Frame) :
    finishes S { s with stack } frame = finishes S s frame := by
  cases frame <;> rfl

theorem handshakeCallback_iff (kernel : Kernel) (p : Provider σ) :
    (OpenSSLProvider.processHandshake kernel S p).1 = .handshakeCallback ↔
      (S.SSL_do_handshake p.ssl).1 = .finished := by
  unfold OpenSSLProvider.processHandshake
  simp only
  split
  case h_5 hfailed => split <;> simp [hfailed]
  all_goals rename_i hanswer; simp [hanswer]

theorem exec_of_finishes (kernel : Kernel) {frame : Frame} (hfinishes : finishes S s frame) :
    ∃ inRecvData p, exec kernel S s frame =
      some (push [.user, .handshakeFinished inRecvData] { s with
        tlsProvider := some p
        conn := TcpConnectionImpl.log s.conn (.connectionCallback s.conn.status) }) := by
  cases frame with
  | processHandshake inRecvData =>
      cases hp : s.tlsProvider with
      | none => simp [finishes, hp] at hfinishes
      | some p =>
          have hcallback := (handshakeCallback_iff (S := S) kernel p).mpr
            (by simpa [finishes, hp] using hfinishes)
          rcases hanswer : OpenSSLProvider.processHandshake kernel S p with ⟨answer, p'⟩
          rw [hanswer] at hcallback
          obtain rfl := hcallback
          refine ⟨inRecvData, p', ?_⟩
          simp only [exec, hp, Option.elim_some, processHandshake, hanswer]
  | _ => simp [finishes] at hfinishes

theorem Moves.elim {f : Provider σ → LoopThread σ}
    (h : ∀ p, s.tlsProvider = some p → Moves kernel S s (f p)) :
    Moves kernel S s (s.tlsProvider.elim s f) := by
  cases hp : s.tlsProvider with
  | none => exact .start
  | some p => exact h p hp

theorem exec_moves {frame : Frame} (hends : ends frame = false) (hcloses : closes frame = false)
    (hfinishes : finishes S s frame = false) (hexec : exec kernel S s frame = some s') :
    Moves kernel S s s' := by
  cases frame with
  | closeEvent => simp [closes] at hcloses
  | closeCallback | remove | unlock | decrement => simp [ends] at hends
  | user =>
      obtain rfl := Option.some.inj hexec
      exact .start
  | readCallback result =>
      obtain rfl := Option.some.inj hexec
      exact moves_readCallback hcloses
  | writeCallback => exact moves_writeCallback hexec
  | sendInLoop msg =>
      obtain rfl := Option.some.inj hexec
      exact moves_sendInLoop s msg
  | sendFailed e msg =>
      obtain rfl := Option.some.inj hexec
      exact (quiet_sendFailed e msg s).moves
  | checkBufferedData =>
      obtain rfl := Option.some.inj hexec
      exact (quiet_checkBufferedData s).moves
  | startFile =>
      simp only [exec] at hexec
      split at hexec
      · obtain rfl := Option.some.inj hexec
        exact (quiet_push _ s rfl).moves
      · obtain rfl := Option.some.inj hexec
        exact .start
  | sendFileInLoop => exact moves_sendFileInLoop hexec
  | fetched =>
      obtain rfl := Option.some.inj hexec
      exact moves_fetched s
  | streamFailed e =>
      obtain rfl := Option.some.inj hexec
      exact (quiet_streamFailed e s).moves
  | fileLoop =>
      obtain rfl := Option.some.inj hexec
      exact moves_fileLoop s
  | fileFailed e =>
      obtain rfl := Option.some.inj hexec
      exact (quiet_fileFailed e s).moves
  | completed =>
      obtain rfl := Option.some.inj hexec
      exact .ite (quiet_closeWrite s).moves .start
  | checkCloseOnEmpty =>
      obtain rfl := Option.some.inj hexec
      exact .ite Moves.start.shutdown .start
  | recvData =>
      obtain rfl := Option.some.inj hexec
      exact .elim fun p _ => moves_recvData p s
  | processHandshake inRecvData =>
      obtain rfl := Option.some.inj hexec
      refine .elim fun p hp => moves_processHandshake inRecvData p s ?_
      rw [Ne, handshakeCallback_iff]
      simpa [finishes, hp] using hfinishes
  | handshakeFinished inRecvData =>
      obtain rfl := Option.some.inj hexec
      exact .elim fun p _ => (quiet_handshakeFinished inRecvData p s).moves
  | processApplicationData =>
      obtain rfl := Option.some.inj hexec
      exact .elim fun p _ => moves_processApplicationData p s

end Moves

inductive Requested (kernel : Kernel) (S : OpenSSL σ) (s : LoopThread σ) :
    Request → LoopThread σ → Prop
  | direct {call : SendCall} (hlocked : s.locked = false) (hfree : s.conn.sendNum = 0) :
      Requested kernel S s (.call call)
        (callInLoop { s with conn := TcpConnectionImpl.log s.conn (.call call) } call)
  | queued {call : SendCall} (hlocked : s.locked = false) (hbusy : s.conn.sendNum ≠ 0) :
      Requested kernel S s (.call call)
        (queueCall { s with conn := TcpConnectionImpl.log s.conn (.call call) } call)
  | shutdown : Requested kernel S s .shutdown (ConnectionThread.shutdown kernel S s)
  | forceClose : Requested kernel S s .forceClose (ConnectionThread.forceClose s)

theorem requestInLoop_cases {kernel : Kernel} {S : OpenSSL σ} {s s' : LoopThread σ}
    {request : Request} (hrequest : requestInLoop kernel S s request = some s') :
    Requested kernel S s request s' := by
  cases request with
  | call call =>
      simp only [requestInLoop] at hrequest
      split at hrequest
      · simp at hrequest
      · rename_i hlocked
        obtain rfl := Option.some.inj hrequest
        split
        · rename_i hfree
          exact .direct (Bool.eq_false_iff.mpr hlocked) hfree
        · rename_i hbusy
          exact .queued (Bool.eq_false_iff.mpr hlocked) hbusy
  | shutdown =>
      obtain rfl := Option.some.inj hrequest
      exact .shutdown
  | forceClose =>
      obtain rfl := Option.some.inj hrequest
      exact .forceClose

/-- What a step can do. An event that a thread is not ready for changes nothing. -/
inductive Steps (kernel : Kernel) (S : OpenSSL σ) (s : LoopThread σ) : Event → LoopThread σ → Prop
  | idle (event : Event) : Steps kernel S s event s
  | handleEvent (revents : Revents) (result : ReadResult) (hidle : s.stack = []) :
      Steps kernel S s (.handleEvent revents result) (handleEvent revents result s)
  | functor {functor : Functor} {funcs : List Functor} (hidle : s.stack = [])
      (hfuncs : s.funcs = functor :: funcs) :
      Steps kernel S s .functor (runFunctor kernel S { s with funcs } functor)
  | resume {frame : Frame} {stack : List Frame} {s' : LoopThread σ} (hstack : s.stack = frame :: stack)
      (hexec : exec kernel S { s with stack } frame = some s') : Steps kernel S s .resume s'
  | inLoop {request : Request} {s' : LoopThread σ} (huser : inUser s)
      (hrequest : requestInLoop kernel S s request = some s') :
      Steps kernel S s (.inLoop request) s'
  | elsewhere (request : Request) :
      Steps kernel S s (.elsewhere request) (requestElsewhere s request)
  | serverLoop (hclosing : s.closing ≠ 0) :
      Steps kernel S s .serverLoop (handleCloseInLoop { s with closing := s.closing - 1 })

theorem step_cases {kernel : Kernel} {S : OpenSSL σ} {s s' : LoopThread σ} {event : Event}
    (hstep : step kernel S s event = some s') : Steps kernel S s event s' := by
  cases event with
  | handleEvent revents result =>
      simp only [step] at hstep
      split at hstep
      · rename_i hidle
        obtain rfl := Option.some.inj hstep
        exact .handleEvent revents result hidle
      · obtain rfl := Option.some.inj hstep
        exact .idle _
  | functor =>
      simp only [step] at hstep
      split at hstep
      · rename_i hidle hfuncs
        obtain rfl := Option.some.inj hstep
        exact .functor hidle hfuncs
      · obtain rfl := Option.some.inj hstep
        exact .idle _
  | resume =>
      simp only [step] at hstep
      split at hstep
      · obtain rfl := Option.some.inj hstep
        exact .idle _
      · rename_i hstack
        exact .resume hstack hstep
  | inLoop request =>
      simp only [step] at hstep
      split at hstep
      · rename_i huser
        exact .inLoop huser hstep
      · obtain rfl := Option.some.inj hstep
        exact .idle _
  | elsewhere request =>
      obtain rfl := Option.some.inj hstep
      exact .elsewhere request
  | serverLoop =>
      simp only [step] at hstep
      split at hstep
      · obtain rfl := Option.some.inj hstep
        exact .idle _
      · rename_i hclosing
        obtain rfl := Option.some.inj hstep
        exact .serverLoop hclosing

end Cooper.ThreadOutcome

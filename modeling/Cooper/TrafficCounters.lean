import Cooper.Multipart
import Cooper.ThreadOutcome

namespace Cooper.TrafficCounters

open Cooper.ConnectionThread
open Cooper.MsgBuffer
open Cooper.OpenSSLProvider (OpenSSL Provider)
open Cooper.StepRun
open Cooper.TcpConnectionImpl (BufferNode ConnEvent Connection Errno Kernel ReadResult)
open Cooper.ThreadOutcome

/-- How many bytes the kernel has taken that `bytesSent_` does not count. -/
def drift (c : Connection) : Int := (c.socket.written.length : Int) - c.bytesSent

section Connection

variable {kernel : Kernel}

theorem length_write (socket : TcpConnectionImpl.Socket) (data : Bytes) :
    (socket.write kernel data).2.written.length =
      socket.written.length + ((socket.write kernel data).1.toOption.getD 0) := by
  unfold TcpConnectionImpl.Socket.write
  split
  · rfl
  · cases kernel socket.calls data.length with
    | done n =>
        simp only [List.length_append, List.length_take, Except.toOption, Option.getD_some]
        omega
    | error e => rfl

theorem drift_writeInLoop (c : Connection) (buffer : Bytes) :
    drift (TcpConnectionImpl.writeInLoop kernel c buffer).2 = drift c := by
  have hlength := @length_write kernel c.socket buffer
  unfold TcpConnectionImpl.writeInLoop
  rcases hwrite : c.socket.write kernel buffer with ⟨e | n, socket⟩
  all_goals
    rw [hwrite] at hlength
    simp only [drift, hlength, Except.toOption, Option.getD]
    omega

end Connection

structure Balanced (c c' : Connection) : Prop where
  sent : drift c' = drift c
  received : c'.bytesReceived = c.bytesReceived

section Balanced

variable {kernel : Kernel} {c c' c'' : Connection}

theorem Balanced.refl (c : Connection) : Balanced c c := ⟨rfl, rfl⟩

theorem Balanced.trans (h : Balanced c c') (h' : Balanced c' c'') : Balanced c c'' :=
  ⟨h'.sent.trans h.sent, h'.received.trans h.received⟩

theorem Balanced.ite {p : Prop} [Decidable p] (h : Balanced c c') (h' : Balanced c c'') :
    Balanced c (if p then c' else c'') := by
  split
  · exact h
  · exact h'

theorem balanced_writeInLoop (c : Connection) (buffer : Bytes) :
    Balanced c (TcpConnectionImpl.writeInLoop kernel c buffer).2 := by
  refine ⟨drift_writeInLoop c buffer, ?_⟩
  unfold TcpConnectionImpl.writeInLoop
  split <;> rfl

theorem balanced_queueInList (c : Connection) (remaining : Bytes) :
    Balanced c (TcpConnectionImpl.queueInList c remaining) := by
  refine .ite ?_ (.refl c)
  unfold TcpConnectionImpl.checkHighWaterMark
  split
  · exact .ite ⟨rfl, rfl⟩ ⟨rfl, rfl⟩
  · exact ⟨rfl, rfl⟩

end Balanced

section Frames

variable {σ : Type*} {kernel : Kernel} {S : OpenSSL σ} {s s' : LoopThread σ}

theorem balanced_writeInLoop_thread (s : LoopThread σ) (buffer : Bytes) :
    Balanced s.conn (writeInLoop kernel S s buffer).2.2.conn := by
  unfold writeInLoop
  split
  · exact balanced_writeInLoop s.conn buffer
  · split <;> exact .refl s.conn

theorem balanced_forceClose (s : LoopThread σ) : Balanced s.conn (forceClose s).conn := by
  unfold forceClose
  split <;> exact ⟨rfl, rfl⟩

theorem balanced_handleSSLError (p p' : Provider σ) (s : LoopThread σ) :
    Balanced s.conn (handleSSLError p p' s).conn := by
  unfold handleSSLError
  dsimp only
  split
  · refine Balanced.trans ?_ (balanced_forceClose _)
    exact ⟨rfl, rfl⟩
  · exact .refl s.conn

theorem balanced_closeWrite (s : LoopThread σ) : Balanced s.conn (closeWrite s).conn := by
  unfold closeWrite
  split <;> exact ⟨rfl, rfl⟩

theorem balanced_shutdown (s : LoopThread σ) : Balanced s.conn (shutdown kernel S s).conn := by
  unfold shutdown
  split
  · split
    · exact ⟨rfl, rfl⟩
    · dsimp only
      split
      · refine Balanced.trans ?_ (balanced_closeWrite _)
        exact ⟨rfl, rfl⟩
      · exact ⟨rfl, rfl⟩
  · exact .refl s.conn

theorem balanced_of_write {buffer : Bytes} {ok : Nat → LoopThread σ → LoopThread σ}
    {failed reported : Errno → LoopThread σ → LoopThread σ}
    (hok : ∀ n s, Balanced s.conn (ok n s).conn)
    (hfailed : ∀ e s, Balanced s.conn (failed e s).conn)
    (hreported : ∀ e s, Balanced s.conn (reported e s).conn) :
    Balanced s.conn (match writeInLoop kernel S s buffer with
      | (.ok n, _, s) => ok n s
      | (.error e, report, s) =>
          if report then onSslError (reported e s) else failed e s).conn := by
  have hwrite := @balanced_writeInLoop_thread σ kernel S s buffer
  apply of_write (P := fun s' => Balanced s.conn s'.conn)
  · exact fun n => hwrite.trans (hok n _)
  · exact fun e => hwrite.trans (hfailed e _)
  · intro e
    refine hwrite.trans ((hreported e _).trans ?_)
    exact balanced_forceClose (push [.user] (reported e _))

theorem balanced_queueInList_thread (s : LoopThread σ) (remaining : Bytes) :
    Balanced s.conn (queueInList s remaining).conn := by
  have hqueued := balanced_queueInList s.conn remaining
  unfold queueInList
  split
  · dsimp only
    split <;> split <;> exact hqueued
  · exact .refl s.conn

theorem balanced_sendFailed (e : Errno) (msg : Bytes) (s : LoopThread σ) :
    Balanced s.conn (sendFailed e msg s).conn := by
  unfold sendFailed
  split
  · exact .refl s.conn
  · exact balanced_queueInList_thread s msg

theorem balanced_sendInLoop (s : LoopThread σ) (msg : Bytes) :
    Balanced s.conn (sendInLoop kernel S s msg).conn := by
  unfold sendInLoop
  split
  · exact .refl s.conn
  · split
    · exact balanced_of_write (fun _ s => balanced_queueInList_thread s _)
        (fun e s => balanced_sendFailed e msg s) (fun _ s => .refl s.conn)
    · exact balanced_queueInList_thread s msg

theorem balanced_streamFailed (e : Errno) (s : LoopThread σ) :
    Balanced s.conn (streamFailed e s).conn := by
  unfold streamFailed
  split <;> exact ⟨rfl, rfl⟩

theorem balanced_fetch (fileBytesToSend : Nat) (s : LoopThread σ) :
    Balanced s.conn (fetch fileBytesToSend s).conn := by
  unfold fetch
  split <;> exact ⟨rfl, rfl⟩

theorem balanced_writeFileBuffer (fileBytesToSend : Nat) (s : LoopThread σ) :
    Balanced s.conn (writeFileBuffer kernel S fileBytesToSend s).conn := by
  refine balanced_of_write (fun n s => ?_) (fun e s => balanced_streamFailed e s)
    (fun _ s => .refl s.conn)
  split
  · exact ⟨rfl, rfl⟩
  · refine Balanced.trans ?_ (balanced_fetch fileBytesToSend _)
    exact ⟨rfl, rfl⟩

theorem balanced_fetched (s : LoopThread σ) : Balanced s.conn (fetched kernel S s).conn := by
  unfold fetched
  split
  · exact ⟨rfl, rfl⟩
  · split
    · exact ⟨rfl, rfl⟩
    · refine Balanced.trans ?_ (balanced_writeFileBuffer _ _)
      exact ⟨rfl, rfl⟩
  · exact .refl s.conn

theorem balanced_fileLoop (s : LoopThread σ) : Balanced s.conn (fileLoop kernel S s).conn := by
  unfold fileLoop
  split
  · split
    · exact ⟨rfl, rfl⟩
    · dsimp only
      split
      · exact .refl s.conn
      · refine Balanced.trans ?_ (balanced_of_write (fun n s => ?_) (fun e s => ?_)
          (fun _ s => .refl s.conn))
        · exact ⟨rfl, rfl⟩
        · split <;> exact ⟨rfl, rfl⟩
        · unfold fileFailed
          split <;> exact ⟨rfl, rfl⟩
  · exact .refl s.conn

theorem balanced_writeMsg (s : LoopThread σ) (msgBuffer : Bytes) (rest : List BufferNode) :
    Balanced s.conn (writeMsg kernel S s msgBuffer rest).conn := by
  have hcheck : ∀ (e : Errno) (s : LoopThread σ),
      Balanced s.conn (if e ≠ .EAGAIN then s else push [.checkCloseOnEmpty] s).conn := by
    intro e s
    split <;> exact .refl s.conn
  exact balanced_of_write (fun _ s => ⟨rfl, rfl⟩) hcheck hcheck

theorem balanced_writeNext {afterFile : Bool} {rest : List BufferNode}
    (hnext : writeNext kernel S afterFile s rest = some s') : Balanced s.conn s'.conn := by
  unfold writeNext at hnext
  dsimp only at hnext
  split at hnext
  · obtain rfl := Option.some.inj hnext
    exact ⟨rfl, rfl⟩
  · split at hnext
    · obtain rfl := Option.some.inj hnext
      refine Balanced.trans ?_ (balanced_writeMsg _ _ _)
      exact ⟨rfl, rfl⟩
    · cases hnext
  · obtain rfl := Option.some.inj hnext
    exact ⟨rfl, rfl⟩

theorem balanced_writeList (hlist : writeList kernel S s = some s') : Balanced s.conn s'.conn := by
  unfold writeList at hlist
  split at hlist
  · cases hlist
  · split at hlist
    · exact balanced_writeNext hlist
    · obtain rfl := Option.some.inj hlist
      exact balanced_writeMsg s _ _
  all_goals
    split at hlist
    · exact balanced_writeNext hlist
    · obtain rfl := Option.some.inj hlist
      exact .refl s.conn

theorem balanced_writeCallback (hwrite : writeCallback kernel S s = some s') :
    Balanced s.conn s'.conn := by
  unfold writeCallback at hwrite
  split at hwrite
  · split at hwrite
    · exact balanced_writeList hwrite
    · split at hwrite
      · obtain rfl := Option.some.inj hwrite
        exact ⟨rfl, rfl⟩
      · refine Balanced.trans ?_ (balanced_writeList hwrite)
        exact ⟨rfl, rfl⟩
  · obtain rfl := Option.some.inj hwrite
    exact .refl s.conn

theorem balanced_recvData (p : Provider σ) (s : LoopThread σ) :
    Balanced s.conn (recvData kernel S p s).conn := by
  unfold recvData
  split
  · exact balanced_handleSSLError _ _ s
  · exact ⟨rfl, rfl⟩

theorem balanced_processHandshake (inRecvData : Bool) (p : Provider σ) (s : LoopThread σ) :
    Balanced s.conn (processHandshake kernel S inRecvData p s).conn := by
  unfold processHandshake
  split
  · exact ⟨rfl, rfl⟩
  · rename_i p' _
    have hshutdown := @balanced_shutdown σ kernel S { s with tlsProvider := some p' }
    dsimp only
    rcases (shutdown kernel S { s with tlsProvider := some p' }).tlsProvider with _ | q
    · exact hshutdown
    · exact hshutdown.trans (balanced_handleSSLError _ _ _)
  · exact balanced_handleSSLError _ _ s

theorem balanced_processApplicationData (p : Provider σ) (s : LoopThread σ) :
    Balanced s.conn (processApplicationData kernel S p s).conn := by
  unfold processApplicationData
  split
  · exact ⟨rfl, rfl⟩
  · refine Balanced.trans ?_ (balanced_shutdown _)
    exact ⟨rfl, rfl⟩
  · exact balanced_handleSSLError _ _ s

end Frames

/-- What `sendfile()` takes when `sendFileInLoop` is called. -/
def sendfileBytes (kernel : Kernel) (c : Connection) : Nat :=
  match c.writeBufferList with
  | .file content offset fileBytesToSend :: _ =>
      (c.socket.sendfile kernel content offset fileBytesToSend).1.toOption.getD 0
  | _ => 0

/-- What a frame hands to the kernel's `sendfile()`. -/
def transferred {σ : Type*} (kernel : Kernel) (s : LoopThread σ) : Frame → Nat
  | .sendFileInLoop => if s.tlsProvider.isSome then 0 else sendfileBytes kernel s.conn
  | _ => 0

/-- What a frame has read from the socket. -/
def arrived : Frame → Bytes
  | .readCallback (.ok chunk) => chunk
  | _ => []

structure Counts (c : Connection) (uncounted : Nat) (read : Bytes) (c' : Connection) : Prop where
  sent : drift c' = drift c + uncounted
  received : c'.bytesReceived = c.bytesReceived + read.length

section Counts

variable {σ : Type*} {kernel : Kernel} {S : OpenSSL σ} {s s' : LoopThread σ}

theorem Balanced.counts {c c' : Connection} (h : Balanced c c') : Counts c 0 [] c' where
  sent := by
    rw [h.sent]
    exact (Int.add_zero _).symm
  received := h.received

theorem drift_sendfileInLoop (c : Connection) (content : Bytes) (offset fileBytesToSend : Nat) :
    drift (TcpConnectionImpl.sendfileInLoop kernel c content offset fileBytesToSend).1 =
      drift c +
        ((c.socket.sendfile kernel content offset fileBytesToSend).1.toOption.getD 0 : Nat) := by
  have hlength := @length_write kernel c.socket
    ((content.drop offset).take fileBytesToSend)
  unfold TcpConnectionImpl.sendfileInLoop TcpConnectionImpl.Socket.sendfile
  rcases hwrite : c.socket.write kernel ((content.drop offset).take fileBytesToSend) with
    ⟨e | n, socket⟩
  all_goals
    simp only [hwrite, Except.toOption, Option.getD] at hlength ⊢
    split <;>
      simp only [drift, TcpConnectionImpl.enableWriting, TcpConnectionImpl.disableWriting] <;>
      omega

theorem received_sendfileInLoop (c : Connection) (content : Bytes) (offset fileBytesToSend : Nat) :
    (TcpConnectionImpl.sendfileInLoop kernel c content offset fileBytesToSend).1.bytesReceived =
      c.bytesReceived := by
  unfold TcpConnectionImpl.sendfileInLoop
  split
  · dsimp only
    split <;> rfl
  · dsimp only
    split <;> rfl

theorem counts_sendFileInLoop (hsend : sendFileInLoop kernel S s = some s') :
    Counts s.conn (transferred kernel s .sendFileInLoop) [] s'.conn := by
  unfold transferred sendfileBytes
  unfold sendFileInLoop at hsend
  split at hsend
  · rename_i content offset toSend rest hlist
    rw [hlist]
    split at hsend
    · rename_i hprovider
      obtain rfl := Option.some.inj hsend
      rw [if_pos hprovider]
      exact Balanced.counts ⟨rfl, rfl⟩
    · rename_i hplain
      obtain rfl := Option.some.inj hsend
      rw [if_neg hplain]
      exact ⟨drift_sendfileInLoop s.conn content offset toSend,
        received_sendfileInLoop s.conn content offset toSend⟩
  · rename_i toSend chunks rest hlist
    rw [hlist, ite_self]
    apply Balanced.counts
    split at hsend
    · obtain rfl := Option.some.inj hsend
      exact balanced_fetch toSend s
    · obtain rfl := Option.some.inj hsend
      exact balanced_writeFileBuffer toSend s
  · cases hsend

theorem balanced_elim {f : Provider σ → LoopThread σ} (h : ∀ p, Balanced s.conn (f p).conn) :
    Balanced s.conn (s.tlsProvider.elim s f).conn := by
  cases s.tlsProvider with
  | none => exact .refl s.conn
  | some p => exact h p

theorem counts_readCallback (result : ReadResult) :
    Counts s.conn 0 (arrived (.readCallback result)) (readCallback s result).conn := by
  rcases result with e | _ | ⟨byte, chunk⟩
  · apply Balanced.counts
    simp only [readCallback]
    split <;> exact ⟨rfl, rfl⟩
  · exact Balanced.counts ⟨rfl, rfl⟩
  · exact ⟨(Int.add_zero _).symm, rfl⟩

theorem counts_exec {frame : Frame} (hexec : exec kernel S s frame = some s') :
    Counts s.conn (transferred kernel s frame) (arrived frame) s'.conn := by
  cases frame with
  | readCallback result =>
      obtain rfl := Option.some.inj hexec
      exact counts_readCallback result
  | sendFileInLoop => exact counts_sendFileInLoop hexec
  | writeCallback => exact (balanced_writeCallback hexec).counts
  | user | unlock | decrement | remove | closeEvent =>
      obtain rfl := Option.some.inj hexec
      exact Balanced.counts ⟨rfl, rfl⟩
  | closeCallback =>
      obtain rfl := Option.some.inj hexec
      unfold closeCallback
      dsimp only
      split <;> exact Balanced.counts ⟨rfl, rfl⟩
  | sendInLoop msg =>
      obtain rfl := Option.some.inj hexec
      exact (balanced_sendInLoop s msg).counts
  | sendFailed e msg =>
      obtain rfl := Option.some.inj hexec
      exact (balanced_sendFailed e msg s).counts
  | checkBufferedData =>
      obtain rfl := Option.some.inj hexec
      unfold checkBufferedData
      split
      · exact (Balanced.refl s.conn).counts
      · dsimp only
        split <;> exact Balanced.counts ⟨rfl, rfl⟩
  | startFile =>
      simp only [exec] at hexec
      split at hexec
      all_goals
        obtain rfl := Option.some.inj hexec
        exact Balanced.counts ⟨rfl, rfl⟩
  | fetched =>
      obtain rfl := Option.some.inj hexec
      exact (balanced_fetched s).counts
  | streamFailed e =>
      obtain rfl := Option.some.inj hexec
      exact (balanced_streamFailed e s).counts
  | fileLoop =>
      obtain rfl := Option.some.inj hexec
      exact (balanced_fileLoop s).counts
  | fileFailed e =>
      obtain rfl := Option.some.inj hexec
      unfold fileFailed
      split <;> exact Balanced.counts ⟨rfl, rfl⟩
  | completed =>
      obtain rfl := Option.some.inj hexec
      unfold completed
      split
      · exact (balanced_closeWrite s).counts
      · exact (Balanced.refl s.conn).counts
  | checkCloseOnEmpty =>
      obtain rfl := Option.some.inj hexec
      unfold checkCloseOnEmpty
      split
      · exact (balanced_shutdown s).counts
      · exact (Balanced.refl s.conn).counts
  | recvData =>
      obtain rfl := Option.some.inj hexec
      exact (balanced_elim fun p => balanced_recvData p s).counts
  | processHandshake inRecvData =>
      obtain rfl := Option.some.inj hexec
      exact (balanced_elim fun p => balanced_processHandshake inRecvData p s).counts
  | handshakeFinished inRecvData =>
      obtain rfl := Option.some.inj hexec
      apply Balanced.counts
      apply balanced_elim
      intro p
      exact ⟨rfl, rfl⟩
  | processApplicationData =>
      obtain rfl := Option.some.inj hexec
      exact (balanced_elim fun p => balanced_processApplicationData p s).counts

theorem balanced_callInLoop (s : LoopThread σ) (call : TcpConnectionImpl.SendCall) :
    Balanced s.conn (callInLoop s call).conn := by
  cases call with
  | send msg => exact .refl s.conn
  | sendFile | sendStream =>
      unfold callInLoop
      dsimp only
      split <;> exact ⟨rfl, rfl⟩

theorem balanced_requestInLoop {request : Request}
    (hrequest : requestInLoop kernel S s request = some s') : Balanced s.conn s'.conn := by
  cases requestInLoop_cases hrequest with
  | direct =>
      refine Balanced.trans ?_ (balanced_callInLoop _ _)
      exact ⟨rfl, rfl⟩
  | queued => exact ⟨rfl, rfl⟩
  | shutdown => exact balanced_shutdown s
  | forceClose => exact balanced_forceClose s

theorem balanced_requestElsewhere (s : LoopThread σ) (request : Request) :
    Balanced s.conn (requestElsewhere s request).conn := by
  cases request with
  | call call =>
      simp only [requestElsewhere]
      split <;> exact ⟨rfl, rfl⟩
  | shutdown | forceClose => exact .refl s.conn

theorem balanced_runFunctor (s : LoopThread σ) (functor : Functor) :
    Balanced s.conn (runFunctor kernel S s functor).conn := by
  rcases functor with (call | _ | _) | _
  · cases call with
    | send | sendFile | sendStream => exact ⟨rfl, rfl⟩
  · exact balanced_shutdown s
  · exact balanced_forceClose s
  · simp only [runFunctor, connectDestroyed]
    split <;> exact ⟨rfl, rfl⟩

theorem transferred_stack (s : LoopThread σ) (stack : List Frame) (frame : Frame) :
    transferred kernel { s with stack } frame = transferred kernel s frame := by
  cases frame <;> rfl

/-- What an event hands to `sendfile()` and what it reads. -/
def eventTransferred (kernel : Kernel) (s : LoopThread σ) : Event → Nat
  | .resume => (s.stack.head?.map (transferred kernel s)).getD 0
  | _ => 0

def eventArrived (s : LoopThread σ) : Event → Bytes
  | .resume => (s.stack.head?.map arrived).getD []
  | _ => []

theorem counts_step {event : Event} (hstep : step kernel S s event = some s') :
    Counts s.conn (eventTransferred kernel s event) (eventArrived s event) s'.conn := by
  cases event with
  | resume =>
      simp only [step] at hstep
      unfold eventTransferred eventArrived
      split at hstep
      · rename_i hstack
        obtain rfl := Option.some.inj hstep
        rw [hstack]
        exact (Balanced.refl s.conn).counts
      · rename_i frame stack hstack
        have hcounts := counts_exec hstep
        rw [transferred_stack] at hcounts
        rw [hstack]
        exact hcounts
  | handleEvent revents result =>
      apply Balanced.counts
      simp only [step] at hstep
      split at hstep
      · obtain rfl := Option.some.inj hstep
        unfold handleEvent
        split <;> exact ⟨rfl, rfl⟩
      · obtain rfl := Option.some.inj hstep
        exact .refl s.conn
  | functor =>
      apply Balanced.counts
      simp only [step] at hstep
      split at hstep
      · rename_i functor funcs _ _
        obtain rfl := Option.some.inj hstep
        exact balanced_runFunctor { s with funcs } functor
      · obtain rfl := Option.some.inj hstep
        exact .refl s.conn
  | inLoop request =>
      apply Balanced.counts
      simp only [step] at hstep
      split at hstep
      · exact balanced_requestInLoop hstep
      · obtain rfl := Option.some.inj hstep
        exact .refl s.conn
  | elsewhere request =>
      obtain rfl := Option.some.inj hstep
      exact (balanced_requestElsewhere s request).counts
  | serverLoop =>
      apply Balanced.counts
      simp only [step] at hstep
      split at hstep
      all_goals
        obtain rfl := Option.some.inj hstep
        exact ⟨rfl, rfl⟩

end Counts

/-- A connection and the calls of `MultipartFormDataParser::parse` in its callbacks. -/
structure System (σ : Type*) where
  thread : LoopThread σ
  /-- The names registered for the parts, the loop of `parse` and the stack of the callback that has
  called it. -/
  parsing : Option (List Bytes × Multipart.LoopState × List Frame)
  /-- What has been read from the socket. -/
  received : Bytes

inductive Action
  | thread (event : Event)
  /-- A callback of the user calls `parse`. -/
  | parse (registered : List Bytes) (parser : Multipart.MultipartFormDataParser)
  /-- An iteration of the loop, in which a `readv()` answers `result`. -/
  | iterate (result : ReadResult)

section System

variable {σ : Type*} (kernel : Kernel) (S : OpenSSL σ)

/-- The callback in which `parse` runs does not return. -/
def inParse (s : System σ) : Bool := s.parsing.any fun p => p.2.2 = s.thread.stack

/-- What an iteration of `parse` reads from the socket. -/
def parsed (p : Multipart.LoopState) (result : ReadResult) : Bytes :=
  if p.needToReadMore then result.toOption.getD [] else []

/-- The parser works on `readBuffer_`. -/
def iterate (s : System σ) (registered : List Bytes) (p : Multipart.LoopState) (base : List Frame)
    (result : ReadResult) : System σ :=
  let p := { p with buffer := s.thread.conn.readBuffer, input := [result] }
  let received := s.received ++ parsed p result
  match Multipart.parseStep registered p with
  | .inl p =>
      { thread := { s.thread with conn.readBuffer := p.buffer }
        parsing := some (registered, p, base)
        received }
  | .inr (_, p) =>
      { thread := { s.thread with conn.readBuffer := p.buffer }
        parsing := none
        received }

/-- What the loop thread is not ready for changes nothing. -/
def act (s : System σ) : Action → Option (System σ)
  | .thread event =>
      if event = .resume ∧ inParse s then some s
      else
        (step kernel S s.thread event).map fun thread =>
          { s with thread, received := s.received ++ eventArrived s.thread event }
  | .parse registered parser =>
      if s.parsing = none ∧ s.thread.stack.head? = some .user then
        some { s with
          parsing :=
            some (registered, Multipart.parseEntry parser s.thread.conn.readBuffer [],
              s.thread.stack) }
      else some s
  | .iterate result =>
      match s.parsing with
      | none => some s
      | some (registered, p, base) =>
          if s.thread.stack = base then some (iterate s registered p base result) else some s

/-- A plain connection that has just been established. -/
def opened (σ : Type*) (highWaterMarkLen : Option Nat) (inServerLoop : Bool) : System σ where
  thread := established highWaterMarkLen inServerLoop none
  parsing := none
  received := []

end System

/-- `bytesSent()` and `bytesReceived()` are what has gone through the socket. -/
def Exact {σ : Type*} (s : System σ) : Prop :=
  s.thread.conn.bytesSent = s.thread.conn.socket.written.length ∧
    s.thread.conn.bytesReceived = s.received.length

/-- Neither `sendfile()` nor the parser moves a byte in this step. -/
def Counted {σ : Type*} (kernel : Kernel) (s : System σ) : Action → Prop
  | .thread event => event = .resume ∧ inParse s ∨ eventTransferred kernel s.thread event = 0
  | .parse .. => True
  | .iterate result =>
      ∀ registered p base, s.parsing = some (registered, p, base) → s.thread.stack = base →
        parsed p result = []

section Runs

variable {σ : Type*} {kernel : Kernel} {S : OpenSSL σ} {s s' : System σ}

theorem exists_step_of_transferred {thread : LoopThread σ} {event : Event}
    (h : eventTransferred kernel thread event ≠ 0) :
    ∃ thread', step kernel S thread event = some thread' := by
  unfold eventTransferred at h
  split at h
  · simp only [step]
    split
    · exact ⟨_, rfl⟩
    · rename_i frame stack hstack
      rw [hstack, List.head?_cons, Option.map_some, Option.getD_some] at h
      unfold transferred sendfileBytes at h
      split at h
      · split at h
        · exact absurd rfl h
        · rename_i hplain
          split at h
          · rename_i hlist
            simp only [exec, sendFileInLoop, hlist, hplain]
            exact ⟨_, rfl⟩
          · exact absurd rfl h
      · exact absurd rfl h
  · exact absurd rfl h

theorem exact_iff (s : System σ) :
    Exact s ↔ drift s.thread.conn = 0 ∧ s.thread.conn.bytesReceived = s.received.length := by
  unfold Exact drift
  apply and_congr_left
  intro _
  omega

theorem act_thread_iff {event : Event} (hexact : Exact s) :
    (∀ s', act kernel S s (.thread event) = some s' → Exact s') ↔
      Counted kernel s (.thread event) := by
  rw [exact_iff] at hexact
  simp only [act, Counted]
  split
  · rename_i hparse
    constructor
    · intro _
      exact Or.inl hparse
    · intro _ s' hs'
      obtain rfl := Option.some.inj hs'
      rwa [exact_iff]
  · rename_i hparse
    constructor
    · intro hkeeps
      refine Or.inr (by_contra fun hmoved => ?_)
      obtain ⟨thread, hstep⟩ := @exists_step_of_transferred σ kernel S _ _ hmoved
      have hcounts := counts_step hstep
      have hafter := hkeeps _ (by rw [hstep]; rfl)
      rw [exact_iff] at hafter
      have hsent := hcounts.sent
      rw [hafter.1, hexact.1] at hsent
      omega
    · rintro (h | hnone)
      · exact absurd h hparse
      · intro s' hs'
        obtain ⟨thread, hstep, rfl⟩ := Option.map_eq_some_iff.mp hs'
        have hcounts := counts_step hstep
        rw [exact_iff]
        refine ⟨?_, ?_⟩
        · rw [hcounts.sent, hnone, hexact.1]
          rfl
        · rw [hcounts.received, hexact.2, List.length_append]

theorem iterate_counters (s : System σ) (registered : List Bytes) (p : Multipart.LoopState)
    (base : List Frame) (result : ReadResult) :
    drift (iterate s registered p base result).thread.conn = drift s.thread.conn ∧
      (iterate s registered p base result).thread.conn.bytesReceived =
        s.thread.conn.bytesReceived ∧
      (iterate s registered p base result).received = s.received ++ parsed p result := by
  unfold iterate
  dsimp only
  split <;> exact ⟨rfl, rfl, rfl⟩

theorem act_iterate_iff {result : ReadResult} (hexact : Exact s) :
    (∀ s', act kernel S s (.iterate result) = some s' → Exact s') ↔
      Counted kernel s (.iterate result) := by
  rw [exact_iff] at hexact
  simp only [act, Counted]
  rcases hparsing : s.parsing with _ | ⟨registered, p, base⟩
  · constructor
    · rintro _ registered p base h
      cases h
    · intro _ s' hs'
      obtain rfl := Option.some.inj hs'
      rwa [exact_iff]
  · by_cases hbase : s.thread.stack = base
    · obtain ⟨hdrift, hreceived, htotal⟩ := iterate_counters s registered p base result
      have hafter : Exact (iterate s registered p base result) ↔ parsed p result = [] := by
        rw [exact_iff, hdrift, hreceived, htotal, hexact.1, hexact.2, List.length_append]
        constructor
        · intro h
          exact List.length_eq_zero_iff.mp (by omega)
        · intro h
          rw [h]
          exact ⟨rfl, rfl⟩
      constructor
      · rintro hkeeps _ _ _ h -
        cases h
        exact hafter.mp (hkeeps _ (if_pos hbase))
      · intro hnone s' hs'
        simp only [if_pos hbase] at hs'
        obtain rfl := Option.some.inj hs'
        exact hafter.mpr (hnone registered p base rfl hbase)
    · constructor
      · rintro _ _ _ _ h hbase'
        cases h
        exact absurd hbase' hbase
      · intro _ s' hs'
        simp only [if_neg hbase] at hs'
        obtain rfl := Option.some.inj hs'
        rwa [exact_iff]

theorem act_exact_iff (action : Action) (hexact : Exact s) :
    (∀ s', act kernel S s action = some s' → Exact s') ↔ Counted kernel s action := by
  cases action with
  | thread event => exact act_thread_iff hexact
  | iterate result => exact act_iterate_iff hexact
  | parse registered parser =>
      constructor
      · intro _
        trivial
      · intro _ s' hs'
        simp only [act] at hs'
        split at hs'
        all_goals
          obtain rfl := Option.some.inj hs'
          exact hexact

variable (kernel S)

/-- The counters are exact in every state of a run if and only if in none of its steps `sendfile()`
or the parser moves a byte. -/
theorem exact_run_iff (highWaterMarkLen : Option Nat) (inServerLoop : Bool)
    (actions : List Action) :
    Exact (opened σ highWaterMarkLen inServerLoop) ∧
        AllSteps (act kernel S) (fun s action => ∀ s', act kernel S s action = some s' → Exact s')
          (opened σ highWaterMarkLen inServerLoop) actions ↔
      AllSteps (act kernel S) (Counted kernel) (opened σ highWaterMarkLen inServerLoop)
        actions := by
  have hopened : Exact (opened σ highWaterMarkLen inServerLoop) := ⟨rfl, rfl⟩
  rw [and_iff_right hopened]
  apply allSteps_iff_of_kept Exact _ _ hopened
  · intro s action s' _ hkeeps hs'
    exact hkeeps s' hs'
  · intro s action hexact
    exact act_exact_iff action hexact

end Runs

/-- A kernel that takes all it is given. -/
def takesAll : Kernel := fun _ len => .done (Fin.last len)

def sendThreeBytes : List Action :=
  [.thread (.inLoop (.call (.sendFile [1, 2, 3] 0 3))), .thread .resume]

def parseBoundary : List Action :=
  [.thread .resume,
    .thread (.handleEvent ⟨false, true, false, false, false, false, false⟩
      (.ok [45, 45, 98, 13, 10])),
    .thread .resume, .parse [] (Multipart.setBoundary .init [98]), .iterate (.ok []),
    .iterate (.ok []), .iterate (.ok []), .iterate (.ok [65])]

theorem sendfile_not_counted :
    (runSteps (act takesAll unusedSSL) (opened Unit none true) sendThreeBytes).map
        (fun s => (s.thread.conn.bytesSent, s.thread.conn.socket.written.length)) = some (0, 3) ∧
      (runSteps (act takesAll unusedSSL) (opened Unit none true) parseBoundary).map
        (fun s => (s.thread.conn.bytesReceived, s.received.length)) = some (5, 6) := by
  decide

end Cooper.TrafficCounters

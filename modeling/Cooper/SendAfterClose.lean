import Cooper.ThreadOutcome

namespace Cooper.SendAfterClose

open Cooper.ConnectionThread
open Cooper.MsgBuffer
open Cooper.OpenSSLProvider (OpenSSL Provider)
open Cooper.StepRun
open Cooper.TcpConnectionImpl (BufferNode Connection Errno Kernel SendCall Socket)
open Cooper.ThreadOutcome (requestInLoop_cases step_cases)

variable {σ : Type*}

def written (s : LoopThread σ) : Bytes :=
  match s.tlsProvider with
  | none => s.conn.socket.written
  | some p => p.socket.written

/-- Nothing is written, and `enableWriting` is not called on a disabled channel. -/
def Silent (s s' : LoopThread σ) : Prop :=
  written s' = written s ∧ (s.conn.writing = false → s'.conn.writing = false)

/-- The frame is of a call, unless it has been entered from `writeCallback`. -/
def sends : Frame → Bool
  | .sendInLoop _ | .sendFailed _ _ | .checkBufferedData | .unlock | .decrement | .startFile
  | .sendFileInLoop | .fetched | .streamFailed _ | .fileLoop | .fileFailed _ => true
  | _ => false

def isCall : Functor → Bool
  | .request (.call _) => true
  | _ => false

/-- The event is a call, or it runs some part of one. -/
def ofCall (s : LoopThread σ) : Event → Bool
  | .inLoop (.call _) | .elsewhere (.call _) => true
  | .functor => s.funcs.head?.any isCall
  | .resume => s.stack.head?.any sends && s.stack.tail.head? != some .checkCloseOnEmpty
  | _ => false

variable (kernel : Kernel) (S : OpenSSL σ)

/-- On a disconnected connection calls are silent. -/
def KeepsSilent (s : LoopThread σ) (event : Event) : Prop :=
  s.conn.status = .Disconnected → ofCall s event → ∀ s' ∈ step kernel S s event, Silent s s'

/-- An output call for the data is complete, or it fails and need not be tried again. -/
def goesOn (data : Bytes) : Except Errno Nat → Bool
  | .ok n => n = data.length
  | .error e => e ≠ .EAGAIN

/-- The output of the data sends nothing, and behind it nothing is left to be tried again. -/
def sendsNothing (s : LoopThread σ) (data : Bytes) : Bool :=
  match s.tlsProvider with
  | none =>
      (s.conn.socket.write kernel data).2.written = s.conn.socket.written &&
        goesOn data (s.conn.socket.write kernel data).1
  | some p =>
      (OpenSSLProvider.sendData kernel S p data).2.socket.written = p.socket.written &&
        match (OpenSSLProvider.sendData kernel S p data).1 with
        | .done n => goesOn data (.ok n)
        | .error e => goesOn data (.error e)

/-- A kernel `sendfile()` fails; a positive rest of which nothing is sent counts as an error. -/
def sendfileFails (s : LoopThread σ) (content : Bytes) (offset fileBytesToSend : Nat) : Bool :=
  match (s.conn.socket.sendfile kernel content offset fileBytesToSend).1 with
  | .ok n => n = 0 && 0 < fileBytesToSend
  | .error _ => true

/-- What a part of `sendFileInLoop` must come to for nothing to be sent. -/
def fileFails (s : LoopThread σ) : Frame → Bool
  | .sendFileInLoop =>
      match s.conn.writeBufferList with
      | .file content offset fileBytesToSend :: _ =>
          s.tlsProvider.isSome || sendfileFails kernel s content offset fileBytesToSend
      | .stream fileBytesToSend _ :: _ =>
          fileBytesToSend ≠ 0 &&
            (s.conn.fileBuffer = [] || sendsNothing kernel S s s.conn.fileBuffer)
      | _ => true
  | .fetched =>
      match s.conn.writeBufferList with
      | .stream fileBytesToSend (chunk :: _) :: _ =>
          chunk ≠ [] && fileBytesToSend ≠ 0 && sendsNothing kernel S s chunk
      | .stream _ [] :: _ => false
      | _ => true
  | .streamFailed e | .fileFailed e => e ≠ .EAGAIN
  | .fileLoop =>
      match s.conn.writeBufferList with
      | .file content offset fileBytesToSend :: _ =>
          let chunk := (content.drop offset).take (min s.conn.fileBuffer.length fileBytesToSend)
          fileBytesToSend ≠ 0 && (chunk = [] || sendsNothing kernel S s chunk)
      | _ => true
  | _ => true

/-- On a disconnected connection `sendFileInLoop` sends nothing for a call. -/
def Meets (s : LoopThread σ) (event : Event) : Prop :=
  s.conn.status = .Disconnected → event = .resume → ofCall s event →
    s.stack.head?.all (fileFails kernel S s)

instance (s s' : LoopThread σ) : Decidable (Silent s s') := inferInstanceAs (Decidable (_ ∧ _))

instance (s : LoopThread σ) (event : Event) : Decidable (KeepsSilent kernel S s event) :=
  inferInstanceAs (Decidable (_ → _ → ∀ s' ∈ step kernel S s event, Silent s s'))

instance (s : LoopThread σ) (event : Event) : Decidable (Meets kernel S s event) :=
  inferInstanceAs (Decidable (_ → _ → _ → _))

section Silent

variable {kernel S} {s s' s'' : LoopThread σ}

theorem Silent.refl (s : LoopThread σ) : Silent s s := ⟨rfl, id⟩

theorem Silent.trans (h : Silent s s') (h' : Silent s' s'') : Silent s s'' :=
  ⟨h'.1.trans h.1, h'.2 ∘ h.2⟩

theorem silent_sendFailed (hclosed : s.conn.status = .Disconnected) (e : Errno) (msg : Bytes) :
    Silent s (sendFailed e msg s) := by
  have hqueue : queueInList s msg = s := if_neg (by simp [hclosed])
  unfold sendFailed
  rw [hqueue, ite_self]
  exact .refl s

theorem sendInLoop_of_closed (hclosed : s.conn.status = .Disconnected) (msg : Bytes) :
    sendInLoop kernel S s msg = s :=
  if_pos (by simp [hclosed])

theorem silent_onSslError (hclosed : s.conn.status = .Disconnected) : Silent s (onSslError s) := by
  unfold onSslError forceClose
  rw [if_neg (by simp [push, hclosed])]
  exact ⟨rfl, id⟩

theorem writeInLoop_conn (kernel : Kernel) (S : OpenSSL σ) (s : LoopThread σ) (data : Bytes) :
    (writeInLoop kernel S s data).2.2.conn.writing = s.conn.writing ∧
      (writeInLoop kernel S s data).2.2.conn.status = s.conn.status ∧
      (writeInLoop kernel S s data).2.2.conn.fileBuffer = s.conn.fileBuffer := by
  unfold writeInLoop
  split
  · simp only [TcpConnectionImpl.writeInLoop]
    split <;> exact ⟨rfl, rfl, rfl⟩
  · split <;> exact ⟨rfl, rfl, rfl⟩

theorem writeInLoop_of_sendsNothing {data : Bytes} (hnothing : sendsNothing kernel S s data) :
    written (writeInLoop kernel S s data).2.2 = written s ∧
      goesOn data (writeInLoop kernel S s data).1 := by
  unfold sendsNothing at hnothing
  unfold writeInLoop
  cases hp : s.tlsProvider with
  | none =>
      rw [hp] at hnothing
      simp only [TcpConnectionImpl.writeInLoop, written, hp]
      rcases hwrite : s.conn.socket.write kernel data with ⟨_ | _, socket⟩
      · simpa [hwrite] using hnothing
      · simpa [hwrite] using hnothing
  | some p =>
      rw [hp] at hnothing
      simp only [written, hp]
      rcases hsend : OpenSSLProvider.sendData kernel S p data with ⟨_ | _, p'⟩
      · simpa [hsend] using hnothing
      · simpa [hsend] using hnothing

/-- Behind an output that sends nothing the code either goes on with all of it done, or it gives up.
-/
theorem silent_of_sendsNothing {data : Bytes} (hclosed : s.conn.status = .Disconnected)
    (hnothing : sendsNothing kernel S s data) {ok : Nat → LoopThread σ → LoopThread σ}
    {failed reported : Errno → LoopThread σ → LoopThread σ}
    (hok : ∀ s', s'.conn.fileBuffer = s.conn.fileBuffer → Silent s' (ok data.length s'))
    (hfailed : ∀ e ≠ .EAGAIN, ∀ s', Silent s' (failed e s'))
    (hreported : ∀ e s', Silent s' (reported e s') ∧
      (reported e s').conn.status = s'.conn.status) :
    Silent s (match writeInLoop kernel S s data with
      | (.ok n, _, s) => ok n s
      | (.error e, report, s) => if report then onSslError (reported e s) else failed e s) := by
  obtain ⟨hwriting, hstatus, hbuffer⟩ := writeInLoop_conn kernel S s data
  have hgoes := writeInLoop_of_sendsNothing hnothing
  rcases hresult : writeInLoop kernel S s data with ⟨e | n, report, s'⟩
  · rw [hresult] at hwriting hstatus hgoes
    have hwrite : Silent s s' := ⟨hgoes.1, fun h => hwriting.trans h⟩
    refine hwrite.trans ?_
    simp only
    split
    · refine (hreported e s').1.trans (silent_onSslError ?_)
      exact (hreported e s').2.trans (hstatus.trans hclosed)
    · exact hfailed e (of_decide_eq_true hgoes.2) s'
  · rw [hresult] at hwriting hbuffer hgoes
    have hwrite : Silent s s' := ⟨hgoes.1, fun h => hwriting.trans h⟩
    obtain rfl : n = data.length := of_decide_eq_true hgoes.2
    exact hwrite.trans (hok s' hbuffer)

theorem silent_fetch {fileBytesToSend : Nat} (hrest : fileBytesToSend ≠ 0) (s : LoopThread σ) :
    Silent s (fetch fileBytesToSend s) := by
  unfold fetch
  rw [if_neg hrest]
  exact ⟨rfl, id⟩

theorem silent_streamFailed {e : Errno} (he : e ≠ .EAGAIN) (s : LoopThread σ) :
    Silent s (streamFailed e s) := by
  unfold streamFailed
  rw [if_pos he]
  exact ⟨rfl, id⟩

theorem silent_fileFailed {e : Errno} (he : e ≠ .EAGAIN) (s : LoopThread σ) :
    Silent s (fileFailed e s) := by
  unfold fileFailed
  rw [if_pos he]
  exact .refl s

theorem silent_writeFileBuffer (hclosed : s.conn.status = .Disconnected) {fileBytesToSend : Nat}
    (hrest : fileBytesToSend ≠ 0) (hnothing : sendsNothing kernel S s s.conn.fileBuffer) :
    Silent s (writeFileBuffer kernel S fileBytesToSend s) := by
  refine silent_of_sendsNothing hclosed hnothing (fun s' hbuffer => ?_)
    (fun e he s' => silent_streamFailed he s') (fun e s' => ⟨⟨rfl, id⟩, rfl⟩)
  rw [hbuffer, if_neg (Nat.lt_irrefl _)]
  exact silent_fetch hrest _

theorem silent_fetched (hclosed : s.conn.status = .Disconnected)
    (hfails : fileFails kernel S s .fetched) : Silent s (fetched kernel S s) := by
  unfold fetched
  simp only [fileFails] at hfails
  split
  · rename_i hlist
    simp [hlist] at hfails
  · rename_i fileBytesToSend chunk chunks rest hlist
    simp only [hlist, Bool.and_eq_true, decide_eq_true_eq] at hfails
    obtain ⟨⟨hchunk, hrest⟩, hnothing⟩ := hfails
    rw [if_neg hchunk]
    let s₁ := { s with
      conn.fileBuffer := chunk
      conn.writeBufferList := .stream fileBytesToSend chunks :: rest }
    have hset : Silent s s₁ := ⟨rfl, id⟩
    have hclosed' : s₁.conn.status = .Disconnected := hclosed
    have hnothing' : sendsNothing kernel S s₁ s₁.conn.fileBuffer := hnothing
    exact hset.trans (silent_writeFileBuffer hclosed' hrest hnothing')
  · exact .refl s

theorem silent_fileLoop (hclosed : s.conn.status = .Disconnected)
    (hfails : fileFails kernel S s .fileLoop) : Silent s (fileLoop kernel S s) := by
  unfold fileLoop
  simp only [fileFails] at hfails
  split
  · rename_i content offset fileBytesToSend rest hlist
    simp only [hlist, Bool.and_eq_true, Bool.or_eq_true, decide_eq_true_eq] at hfails
    obtain ⟨hrest, hnothing⟩ := hfails
    rw [if_neg hrest]
    simp only
    split
    · exact .refl s
    · rename_i hchunk
      let chunk := (content.drop offset).take (min s.conn.fileBuffer.length fileBytesToSend)
      let s₁ := { s with conn.fileBuffer := chunk ++ s.conn.fileBuffer.drop chunk.length }
      have hset : Silent s s₁ := ⟨rfl, id⟩
      have hclosed' : s₁.conn.status = .Disconnected := hclosed
      have hnothing' : sendsNothing kernel S s₁ chunk := hnothing.resolve_left hchunk
      refine hset.trans (silent_of_sendsNothing hclosed' hnothing' (fun s' _ => ?_)
        (fun e he s' => silent_fileFailed he s') (fun e s' => ⟨⟨rfl, id⟩, rfl⟩))
      rw [if_neg (Nat.lt_irrefl _)]
      exact ⟨rfl, id⟩
  · exact .refl s

theorem write_written (kernel : Kernel) (socket : Socket) (data : Bytes) :
    (socket.write kernel data).2.written = socket.written ++
      match (socket.write kernel data).1 with
      | .ok n => data.take n
      | .error _ => [] := by
  unfold Socket.write
  split
  · simp
  · split <;> simp

theorem silent_sendfile {content : Bytes} {offset fileBytesToSend : Nat} {rest : List BufferNode}
    (hfails : sendfileFails kernel s content offset fileBytesToSend) (hplain : s.tlsProvider = none)
    {conn : Connection} {node : BufferNode} (hsend : TcpConnectionImpl.sendfileInLoop kernel s.conn
      content offset fileBytesToSend = (conn, node)) :
    Silent s { s with conn := { conn with writeBufferList := node :: rest } } := by
  have hsame : conn.socket.written = s.conn.socket.written ∧
      (s.conn.writing = false → conn.writing = false) := by
    unfold sendfileFails at hfails
    unfold TcpConnectionImpl.sendfileInLoop at hsend
    have hwritten := write_written kernel s.conn.socket
      ((content.drop offset).take fileBytesToSend)
    rcases hwrite : s.conn.socket.sendfile kernel content offset fileBytesToSend with
      ⟨e | n, socket⟩
    · rw [Socket.sendfile] at hwrite
      rw [hwrite, List.append_nil] at hwritten
      rw [Socket.sendfile, hwrite] at hsend
      obtain ⟨rfl, -⟩ := Prod.mk.inj hsend
      refine ⟨?_, fun h => ?_⟩ <;> split <;> first | exact hwritten | rfl | exact h
    · rw [hwrite] at hfails hsend
      simp only [Bool.and_eq_true, decide_eq_true_eq] at hfails
      obtain ⟨rfl, hrest⟩ := hfails
      rw [Socket.sendfile] at hwrite
      simp only [hwrite, List.take_zero, List.append_nil] at hwritten
      simp only [hrest, and_true, if_true] at hsend
      obtain ⟨rfl, -⟩ := Prod.mk.inj hsend
      exact ⟨hwritten, id⟩
  refine ⟨?_, hsame.2⟩
  simp only [written, hplain]
  exact hsame.1

theorem silent_sendFileInLoop (hclosed : s.conn.status = .Disconnected)
    (hfails : fileFails kernel S s .sendFileInLoop)
    (hsend : sendFileInLoop kernel S s = some s') : Silent s s' := by
  unfold sendFileInLoop at hsend
  simp only [fileFails] at hfails
  split at hsend
  · rename_i content offset fileBytesToSend rest hlist
    simp only [hlist, Bool.or_eq_true] at hfails
    split at hsend
    · obtain rfl := Option.some.inj hsend
      exact ⟨rfl, id⟩
    · rename_i hplain
      obtain rfl := Option.some.inj hsend
      refine silent_sendfile (hfails.resolve_left hplain) ?_ rfl
      simpa using hplain
  · rename_i fileBytesToSend chunks rest hlist
    simp only [hlist, Bool.and_eq_true, Bool.or_eq_true, decide_eq_true_eq] at hfails
    split at hsend
    · obtain rfl := Option.some.inj hsend
      exact silent_fetch hfails.1 s
    · rename_i hbuffer
      obtain rfl := Option.some.inj hsend
      exact silent_writeFileBuffer hclosed hfails.1 (hfails.2.resolve_left hbuffer)
  · simp at hsend

theorem silent_callInLoop (s : LoopThread σ) (call : SendCall) : Silent s (callInLoop s call) := by
  cases call with
  | send msg => exact ⟨rfl, id⟩
  | sendFile | sendStream =>
      simp only [callInLoop]
      split
      · exact ⟨rfl, id⟩
      · exact ⟨rfl, id⟩

theorem silent_requestInLoop {call : SendCall}
    (hcall : requestInLoop kernel S s (.call call) = some s') : Silent s s' := by
  have hlog : Silent s { s with conn := TcpConnectionImpl.log s.conn (.call call) } := ⟨rfl, id⟩
  cases requestInLoop_cases hcall with
  | direct => exact hlog.trans (silent_callInLoop _ call)
  | queued => exact hlog.trans ⟨rfl, id⟩

theorem silent_requestElsewhere (s : LoopThread σ) (call : SendCall) :
    Silent s (requestElsewhere s (.call call)) := by
  simp only [requestElsewhere]
  split
  · exact .refl s
  · exact ⟨rfl, id⟩

theorem silent_runFunctor (s : LoopThread σ) (call : SendCall) :
    Silent s (runFunctor kernel S s (.request (.call call))) := by
  cases call <;> exact ⟨rfl, id⟩

theorem silent_checkBufferedData (s : LoopThread σ) : Silent s (checkBufferedData s) := by
  unfold checkBufferedData
  split
  · exact .refl s
  · simp only
    split
    · exact ⟨rfl, id⟩
    · exact .refl s

/-- `sendInLoop` looks at the status and sends nothing, and `sendFileInLoop` does where it fails. -/
theorem silent_exec {frame : Frame} (hclosed : s.conn.status = .Disconnected) (hsends : sends frame)
    (hfails : fileFails kernel S s frame) (hexec : exec kernel S s frame = some s') :
    Silent s s' := by
  cases frame with
  | sendInLoop msg =>
      obtain rfl := Option.some.inj hexec
      rw [sendInLoop_of_closed hclosed]
      exact .refl s
  | sendFailed e msg =>
      obtain rfl := Option.some.inj hexec
      exact silent_sendFailed hclosed e msg
  | checkBufferedData =>
      obtain rfl := Option.some.inj hexec
      exact silent_checkBufferedData s
  | unlock | decrement =>
      obtain rfl := Option.some.inj hexec
      exact ⟨rfl, id⟩
  | startFile =>
      simp only [exec] at hexec
      split at hexec
      · obtain rfl := Option.some.inj hexec
        exact ⟨rfl, id⟩
      · obtain rfl := Option.some.inj hexec
        exact .refl s
  | sendFileInLoop => exact silent_sendFileInLoop hclosed hfails hexec
  | fetched =>
      obtain rfl := Option.some.inj hexec
      exact silent_fetched hclosed hfails
  | streamFailed e =>
      obtain rfl := Option.some.inj hexec
      exact silent_streamFailed (of_decide_eq_true hfails) s
  | fileLoop =>
      obtain rfl := Option.some.inj hexec
      exact silent_fileLoop hclosed hfails
  | fileFailed e =>
      obtain rfl := Option.some.inj hexec
      exact silent_fileFailed (of_decide_eq_true hfails) s
  | _ => simp [sends] at hsends

theorem keepsSilent_of_meets {event : Event} (hmeets : Meets kernel S s event) :
    KeepsSilent kernel S s event := by
  intro hclosed hcall s' hstep
  cases step_cases hstep with
  | idle => exact .refl s
  | handleEvent | serverLoop => simp [ofCall] at hcall
  | @inLoop request _ _ hrequest =>
      cases request with
      | shutdown | forceClose => simp [ofCall] at hcall
      | call call => exact silent_requestInLoop hrequest
  | elsewhere request =>
      cases request with
      | shutdown | forceClose => simp [ofCall] at hcall
      | call call => exact silent_requestElsewhere s call
  | @functor functor funcs _ hfuncs =>
      rcases functor with (call | _ | _) | _
      · have htail : Silent s { s with funcs } := ⟨rfl, id⟩
        exact htail.trans (silent_runFunctor _ call)
      all_goals simp [ofCall, hfuncs, isCall] at hcall
  | @resume frame stack _ hstack hexec =>
      have hsends : sends frame := by
        simp only [ofCall, hstack, List.head?_cons, Option.any_some, Bool.and_eq_true] at hcall
        exact hcall.1
      have hfails : fileFails kernel S s frame := by
        simpa [hstack] using hmeets hclosed rfl hcall
      have hpop : Silent s { s with stack } := ⟨rfl, id⟩
      refine hpop.trans (silent_exec hclosed hsends ?_ hexec)
      cases frame <;> exact hfails

/-- In a run in which `sendFileInLoop` sends nothing for calls on a disconnected connection, no call
sends anything then and none enables the channel. -/
theorem allSteps_keepsSilent (kernel : Kernel) (S : OpenSSL σ) (highWaterMarkLen : Option Nat)
    (inServerLoop : Bool) (ssl : Option σ) (events : List Event)
    (hmeets : AllSteps (step kernel S) (Meets kernel S)
      (established highWaterMarkLen inServerLoop ssl) events) :
    AllSteps (step kernel S) (KeepsSilent kernel S)
      (established highWaterMarkLen inServerLoop ssl) events :=
  hmeets.imp (fun _ => True) (fun _ _ _ _ _ _ => trivial) (fun _ _ _ => keepsSilent_of_meets) trivial

def sendsFile : Frame → Bool
  | .sendFileInLoop | .fetched | .streamFailed _ | .fileLoop | .fileFailed _ => true
  | _ => false

/-- On a disconnected connection no call comes to `sendFileInLoop`, or goes on in it. -/
def SendsNoFile (s : LoopThread σ) (event : Event) : Prop :=
  s.conn.status = .Disconnected → event = .resume → ofCall s event →
    s.stack.head?.all fun frame => !sendsFile frame

theorem SendsNoFile.meets {event : Event} (h : SendsNoFile s event) : Meets kernel S s event := by
  intro hclosed hresume hcall
  have hfile := h hclosed hresume hcall
  cases hstack : s.stack.head? with
  | none => rfl
  | some frame =>
      rw [hstack, Option.all_some] at hfile
      rw [Option.all_some]
      cases frame <;> first | rfl | simp [sendsFile] at hfile

/-- So it is in a run in which no file or stream is sent on a disconnected connection. -/
theorem allSteps_keepsSilent_of_sendsNoFile (kernel : Kernel) (S : OpenSSL σ)
    (highWaterMarkLen : Option Nat) (inServerLoop : Bool) (ssl : Option σ) (events : List Event)
    (h : AllSteps (step kernel S) SendsNoFile (established highWaterMarkLen inServerLoop ssl)
      events) :
    AllSteps (step kernel S) (KeepsSilent kernel S)
      (established highWaterMarkLen inServerLoop ssl) events :=
  h.imp (fun _ => True) (fun _ _ _ _ _ _ => trivial) (fun _ _ _ h => keepsSilent_of_meets h.meets)
    trivial

theorem allSteps_keepsSilent_reset :
    AllSteps (step (fun _ _ => .error .EPIPE) unusedSSL)
      (KeepsSilent (fun _ _ => .error .EPIPE) unusedSSL) (established none true none)
      [.resume, .elsewhere (.call (.send [1])), .elsewhere (.call (.sendFile [2] 0 1)),
        .handleEvent ⟨false, true, false, false, false, false, false⟩ (.ok []), .resume, .resume,
        .resume, .functor, .resume, .resume, .functor, .resume, .resume, .resume] :=
  allSteps_keepsSilent _ _ _ _ _ _ (by decide)

/-- Another thread sends a file, and its functor runs behind the close. -/
theorem not_allSteps_keepsSilent :
    ¬AllSteps (step (fun _ len => .done (Fin.last len)) unusedSSL)
      (KeepsSilent (fun _ len => .done (Fin.last len)) unusedSSL) (established none true none)
      [.resume, .elsewhere (.call (.sendFile [1, 2] 0 2)),
        .handleEvent ⟨false, true, false, false, false, false, false⟩ (.ok []), .resume, .resume,
        .resume, .functor, .resume, .resume, .resume] := by
  decide

end Silent

end Cooper.SendAfterClose

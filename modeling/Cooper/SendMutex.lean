import Cooper.ThreadOutcome

namespace Cooper.SendMutex

open Cooper.ConnectionThread
open Cooper.MsgBuffer
open Cooper.OpenSSLProvider (OpenSSL Provider)
open Cooper.StepRun
open Cooper.TcpConnectionImpl (Connection Errno Kernel SendCall appendMsg backReadableBytes)
open Cooper.ThreadOutcome

variable {σ : Type*} (kernel : Kernel) (S : OpenSSL σ)

/-- The loop thread locks the mutex: in a call, or where a functor decrements `sendNum_`. -/
def locks (s : LoopThread σ) : Event → Bool
  | .inLoop (.call _) => inUser s
  | .resume => s.stack.head? = some .decrement
  | _ => false

/-- The loop thread does not wait for itself, and no callback of the user is invoked while it holds
the mutex. -/
def LocksOnce (s : LoopThread σ) (event : Event) : Prop :=
  ¬(locks s event ∧ s.locked) ∧
    ∀ s' ∈ step kernel S s event, ¬(s'.locked ∧ s'.stack.head? = some .user)

/-- With `remaining` behind what it holds, the last node holds more than the high water mark. -/
def passesMark (s : LoopThread σ) (remaining : Bytes) : Bool :=
  remaining.length > 0 && s.conn.status = .Connected &&
    exceedsMark s.conn.highWaterMarkLen
      (backReadableBytes (appendMsg remaining s.conn.writeBufferList))

def answer (s : LoopThread σ) (data : Bytes) : Except Errno Nat × Bool :=
  ((writeInLoop kernel S s data).1, (writeInLoop kernel S s data).2.1)

/-- A part of a direct call comes to a callback of the user: `highWaterMarkCallback_`, a
`streamCallback_`, or those of an error that the provider reports. -/
def invokes (s : LoopThread σ) : Frame → Bool
  | .sendInLoop msg =>
      s.conn.status = .Connected &&
        if s.conn.writing = false ∧ s.conn.writeBufferList = [] then
          match answer kernel S s msg with
          | (.ok n, _) => passesMark s (msg.drop n)
          | (.error e, reported) => reported || (e = .EAGAIN && passesMark s msg)
        else passesMark s msg
  | .checkBufferedData =>
      s.tlsProvider.any fun p =>
        exceedsMark s.conn.highWaterMarkLen (readableBytes p.writeBuffer)
  | .sendFileInLoop =>
      match s.conn.writeBufferList with
      | .stream fileBytesToSend _ :: _ =>
          if s.conn.fileBuffer = [] then fileBytesToSend ≠ 0
          else
            match answer kernel S s s.conn.fileBuffer with
            | (.ok n, _) => !(n < s.conn.fileBuffer.length) && fileBytesToSend ≠ 0
            | (.error _, reported) => reported
      | _ => false
  | .fileLoop =>
      match s.conn.writeBufferList with
      | .file content offset fileBytesToSend :: _ =>
          let chunk := (content.drop offset).take (min s.conn.fileBuffer.length fileBytesToSend)
          fileBytesToSend ≠ 0 && chunk ≠ [] &&
            match answer kernel S s chunk with
            | (.ok _, _) => false
            | (.error _, reported) => reported
      | _ => false
  | _ => false

/-- While the mutex is held, no part of a call comes to a callback. -/
def Meets (s : LoopThread σ) (event : Event) : Prop :=
  s.locked → event = .resume → s.stack.head?.all (!invokes kernel S s ·)

instance (s : LoopThread σ) (event : Event) : Decidable (LocksOnce kernel S s event) :=
  inferInstanceAs (Decidable (_ ∧ ∀ s' ∈ step kernel S s event, _))

/-- The frames of a direct call up to the first callback that it invokes. -/
def direct : Frame → Bool
  | .sendInLoop _ | .checkBufferedData | .sendFileInLoop | .fileLoop => true
  | _ => false

/-- Whether the loop thread holds the mutex is kept, and it comes to a callback or stays in a call.
-/
def Reaches (callback : Bool) (s s' : LoopThread σ) : Prop :=
  s'.locked = s.locked ∧
    if callback then s'.stack.head? = some .user
    else ∃ frames, s'.stack = frames ++ s.stack ∧ frames.all direct

section Reaches

variable {kernel S} {s s' s'' : LoopThread σ} {callback : Bool}

theorem Reaches.stay (hlocked : s'.locked = s.locked) (hstack : s'.stack = s.stack) :
    Reaches false s s' :=
  ⟨hlocked, [], hstack, rfl⟩

theorem Reaches.behind (h : Reaches callback s' s'') (hlocked : s'.locked = s.locked)
    (hstack : s'.stack = s.stack) : Reaches callback s s'' := by
  unfold Reaches at *
  rw [hlocked, hstack] at h
  exact h

theorem reaches_push {frames : List Frame} (hframes : frames.all direct) (s : LoopThread σ) :
    Reaches false s (push frames s) :=
  ⟨rfl, frames, rfl, hframes⟩

theorem reaches_user (s : LoopThread σ) (frames : List Frame) :
    Reaches true s (push (.user :: frames) s) :=
  ⟨rfl, rfl⟩

theorem reaches_onSslError (s : LoopThread σ) (frames : List Frame) :
    Reaches true s (onSslError (push frames s)) := by
  unfold onSslError forceClose
  split
  · exact ⟨rfl, rfl⟩
  · exact ⟨rfl, rfl⟩

theorem queueInList_conn (c : Connection) {remaining : Bytes}
    (hqueue : remaining.length > 0 ∧ c.status = .Connected) :
    (TcpConnectionImpl.queueInList c remaining).highWaterMarkLen = c.highWaterMarkLen ∧
      (TcpConnectionImpl.queueInList c remaining).writeBufferList =
        appendMsg remaining c.writeBufferList := by
  rw [TcpConnectionImpl.queueInList, if_pos hqueue]
  unfold TcpConnectionImpl.checkHighWaterMark
  split
  · split <;> exact ⟨rfl, rfl⟩
  · exact ⟨rfl, rfl⟩

theorem reaches_queueInList (s : LoopThread σ) (remaining : Bytes) :
    Reaches (passesMark s remaining) s (queueInList s remaining) := by
  unfold queueInList
  split
  · rename_i hqueue
    obtain ⟨hmark, hlist⟩ := queueInList_conn s.conn hqueue
    let s₁ := { s with conn := TcpConnectionImpl.queueInList s.conn remaining }
    let s₂ := if s₁.tlsProvider.isSome then push [.checkBufferedData] s₁ else s₁
    have hconn : s₂.conn = s₁.conn := by simp only [s₂]; split <;> rfl
    have hstay : Reaches false s s₂ := by
      simp only [s₂]
      split
      · exact (reaches_push rfl s₁).behind rfl rfl
      · exact .stay rfl rfl
    have hpasses : passesMark s remaining =
        exceedsMark s₂.conn.highWaterMarkLen (backReadableBytes s₂.conn.writeBufferList) := by
      simp only [passesMark, hconn, s₁, hmark, hlist, hqueue, decide_true, Bool.true_and]
    rw [hpasses]
    change Reaches _ s (if exceedsMark s₂.conn.highWaterMarkLen
      (backReadableBytes s₂.conn.writeBufferList) then push [.user] s₂ else s₂)
    cases exceedsMark s₂.conn.highWaterMarkLen (backReadableBytes s₂.conn.writeBufferList) with
    | true => exact ⟨hstay.1, rfl⟩
    | false => exact hstay
  · rename_i hskip
    have hpasses : passesMark s remaining = false := by
      simp only [passesMark, Bool.and_eq_false_iff, decide_eq_false_iff_not]
      exact .inl (not_and_or.mp hskip)
    rw [hpasses]
    exact .stay rfl rfl

def SameBuffers (s s' : LoopThread σ) : Prop :=
  s'.locked = s.locked ∧ s'.stack = s.stack ∧ s'.conn.status = s.conn.status ∧
    s'.conn.highWaterMarkLen = s.conn.highWaterMarkLen ∧
    s'.conn.writeBufferList = s.conn.writeBufferList ∧ s'.conn.fileBuffer = s.conn.fileBuffer

theorem sameBuffers_writeInLoop (kernel : Kernel) (S : OpenSSL σ) (s : LoopThread σ)
    (data : Bytes) : SameBuffers s (writeInLoop kernel S s data).2.2 := by
  unfold writeInLoop
  split
  · simp only [TcpConnectionImpl.writeInLoop]
    split <;> exact ⟨rfl, rfl, rfl, rfl, rfl, rfl⟩
  · split <;> exact ⟨rfl, rfl, rfl, rfl, rfl, rfl⟩

theorem SameBuffers.passesMark (h : SameBuffers s s') (remaining : Bytes) :
    passesMark s' remaining = passesMark s remaining := by
  simp only [SendMutex.passesMark, h.2.2.1, h.2.2.2.1, h.2.2.2.2.1]

theorem SameBuffers.reaches (h : SameBuffers s s') (h' : Reaches callback s' s'') :
    Reaches callback s s'' :=
  h'.behind h.1 h.2.1

theorem reaches_sendFailed (e : Errno) (msg : Bytes) (s : LoopThread σ) :
    Reaches (e = .EAGAIN && passesMark s msg) s (sendFailed e msg s) := by
  unfold sendFailed
  split
  · rename_i he
    rw [decide_eq_false he]
    exact .stay rfl rfl
  · rename_i he
    rw [decide_eq_true (not_not.mp he)]
    exact reaches_queueInList s msg

theorem answer_of_same (kernel : Kernel) (S : OpenSSL σ) (s s' : LoopThread σ)
    (hsocket : s'.conn.socket = s.conn.socket) (hprovider : s'.tlsProvider = s.tlsProvider)
    (data : Bytes) : answer kernel S s' data = answer kernel S s data := by
  unfold answer writeInLoop
  rw [hprovider]
  split
  · simp only [TcpConnectionImpl.writeInLoop, hsocket]
    split <;> rfl
  · split <;> rfl

theorem reaches_of_write {data : Bytes} {ok : Nat → LoopThread σ → LoopThread σ}
    {failed : Errno → LoopThread σ → LoopThread σ} {frames : Errno → List Frame}
    {okCalls : Nat → Bool} {failedCalls : Errno → Bool → Bool}
    (hok : ∀ n s', SameBuffers s s' → Reaches (okCalls n) s' (ok n s'))
    (hfailed : ∀ e s', SameBuffers s s' → Reaches (failedCalls e false) s' (failed e s'))
    (hreported : ∀ e, failedCalls e true = true) :
    Reaches
      (match answer kernel S s data with
        | (.ok n, _) => okCalls n
        | (.error e, reported) => failedCalls e reported)
      s
      (match writeInLoop kernel S s data with
        | (.ok n, _, s) => ok n s
        | (.error e, reported, s) =>
            if reported then onSslError (push (frames e) s) else failed e s) := by
  have hsame := sameBuffers_writeInLoop kernel S s data
  unfold answer
  rcases hresult : writeInLoop kernel S s data with ⟨e | n, reported, s'⟩
  · rw [hresult] at hsame
    cases reported with
    | true =>
        simp only [hreported, if_true]
        exact hsame.reaches (reaches_onSslError s' _)
    | false => exact hsame.reaches (hfailed e s' hsame)
  · rw [hresult] at hsame
    exact hsame.reaches (hok n s' hsame)

theorem reaches_sendInLoop (s : LoopThread σ) (msg : Bytes) :
    Reaches (invokes kernel S s (.sendInLoop msg)) s (sendInLoop kernel S s msg) := by
  rw [sendInLoop, invokes]
  by_cases hstatus : s.conn.status = .Connected
  · rw [if_neg (not_not.mpr hstatus), decide_eq_true hstatus, Bool.true_and]
    split
    · apply reaches_of_write
      · intro n s' hsame
        rw [← hsame.passesMark]
        exact reaches_queueInList s' _
      · intro e s' hsame
        rw [Bool.false_or, ← hsame.passesMark]
        exact reaches_sendFailed e msg s'
      · exact fun e => Bool.true_or _
    · exact reaches_queueInList s msg
  · rw [if_pos hstatus, decide_eq_false hstatus]
    exact .stay rfl rfl

theorem reaches_checkBufferedData (s : LoopThread σ) :
    Reaches (invokes kernel S s .checkBufferedData) s (checkBufferedData s) := by
  rw [checkBufferedData, invokes]
  cases s.tlsProvider with
  | none => exact .stay rfl rfl
  | some p =>
      simp only [Option.any_some]
      split
      · rename_i hexceeds
        rw [hexceeds]
        exact ⟨rfl, rfl⟩
      · rename_i hbelow
        rw [Bool.eq_false_iff.mpr hbelow]
        exact .stay rfl rfl

theorem reaches_fetch (fileBytesToSend : Nat) (s : LoopThread σ) :
    Reaches (fileBytesToSend ≠ 0) s (fetch fileBytesToSend s) := by
  unfold fetch
  split
  · rename_i hend
    rw [decide_eq_false (not_not.mpr hend)]
    exact .stay rfl rfl
  · rename_i hrest
    rw [decide_eq_true hrest]
    exact reaches_user s _

theorem reaches_streamFailed (e : Errno) (s : LoopThread σ) :
    Reaches false s (streamFailed e s) := by
  unfold streamFailed
  split <;> exact .stay rfl rfl

theorem reaches_writeFileBuffer (fileBytesToSend : Nat) (s : LoopThread σ) :
    Reaches
      (match answer kernel S s s.conn.fileBuffer with
        | (.ok n, _) => !(n < s.conn.fileBuffer.length) && fileBytesToSend ≠ 0
        | (.error _, reported) => reported)
      s (writeFileBuffer kernel S fileBytesToSend s) := by
  apply reaches_of_write
  · intro n s' hsame
    rw [hsame.2.2.2.2.2]
    split
    · rename_i hcut
      rw [decide_eq_true hcut]
      exact .stay rfl rfl
    · rename_i hall
      rw [decide_eq_false hall, Bool.not_false, Bool.true_and]
      exact (reaches_fetch _ _).behind rfl rfl
  · exact fun e s' _ => reaches_streamFailed e s'
  · exact fun e => rfl

theorem reaches_sendFileInLoop (hsend : sendFileInLoop kernel S s = some s') :
    Reaches (invokes kernel S s .sendFileInLoop) s s' := by
  unfold sendFileInLoop at hsend
  rw [invokes]
  split at hsend
  · rename_i hlist
    rw [hlist]
    split at hsend
    · obtain rfl := Option.some.inj hsend
      exact (reaches_push rfl _).behind rfl rfl
    · obtain rfl := Option.some.inj hsend
      exact .stay rfl rfl
  · rename_i hlist
    rw [hlist]
    simp only
    split at hsend
    · rename_i hbuffer
      obtain rfl := Option.some.inj hsend
      rw [if_pos hbuffer]
      exact reaches_fetch _ s
    · rename_i hbuffer
      obtain rfl := Option.some.inj hsend
      rw [if_neg hbuffer]
      exact reaches_writeFileBuffer _ s
  · simp at hsend

theorem reaches_fileFailed (e : Errno) (s : LoopThread σ) : Reaches false s (fileFailed e s) := by
  unfold fileFailed
  split <;> exact .stay rfl rfl

theorem reaches_fileLoop (s : LoopThread σ) :
    Reaches (invokes kernel S s .fileLoop) s (fileLoop kernel S s) := by
  rcases hlist : s.conn.writeBufferList with _ | ⟨node, rest⟩
  · rw [fileLoop, invokes, hlist]
    exact .stay rfl rfl
  · cases node with
    | msg | stream =>
        rw [fileLoop, invokes, hlist]
        exact .stay rfl rfl
    | file content offset fileBytesToSend =>
        rw [fileLoop, invokes, hlist]
        simp only
        by_cases hend : fileBytesToSend = 0
        · rw [if_pos hend, decide_eq_false (not_not.mpr hend)]
          exact .stay rfl rfl
        · rw [if_neg hend, decide_eq_true hend, Bool.true_and]
          let chunk := (content.drop offset).take (min s.conn.fileBuffer.length fileBytesToSend)
          by_cases hchunk : chunk = []
          · rw [if_pos hchunk, decide_eq_false (not_not.mpr hchunk)]
            exact .stay rfl rfl
          · rw [if_neg hchunk, decide_eq_true hchunk, Bool.true_and]
            let s₁ := { s with conn.fileBuffer := chunk ++ s.conn.fileBuffer.drop chunk.length }
            have hanswer : answer kernel S s₁ chunk = answer kernel S s chunk :=
              answer_of_same kernel S s s₁ rfl rfl chunk
            rw [← hanswer]
            refine Reaches.behind (?_ : Reaches _ s₁ _) rfl rfl
            apply reaches_of_write
            · intro n s' _
              split
              · exact .stay rfl rfl
              · exact (reaches_push rfl _).behind rfl rfl
            · exact fun e s' _ => reaches_fileFailed e s'
            · exact fun e => rfl

theorem exec_reaches {frame : Frame} (hdirect : direct frame)
    (hexec : exec kernel S s frame = some s') : Reaches (invokes kernel S s frame) s s' := by
  cases frame with
  | sendInLoop msg =>
      obtain rfl := Option.some.inj hexec
      exact reaches_sendInLoop s msg
  | checkBufferedData =>
      obtain rfl := Option.some.inj hexec
      exact reaches_checkBufferedData s
  | sendFileInLoop => exact reaches_sendFileInLoop hexec
  | fileLoop =>
      obtain rfl := Option.some.inj hexec
      exact reaches_fileLoop s
  | _ => simp [direct] at hdirect

theorem exec_of_invokes {frame : Frame} (hinvokes : invokes kernel S s frame) :
    direct frame ∧ ∃ s', exec kernel S s frame = some s' := by
  cases frame with
  | sendInLoop | checkBufferedData | fileLoop => exact ⟨rfl, _, rfl⟩
  | sendFileInLoop =>
      refine ⟨rfl, ?_⟩
      simp only [invokes] at hinvokes
      split at hinvokes
      · rename_i hlist
        simp only [exec, sendFileInLoop, hlist]
        split
        · exact ⟨_, rfl⟩
        · exact ⟨_, rfl⟩
      · simp at hinvokes
  | _ => simp [invokes] at hinvokes

theorem invokes_stack (s : LoopThread σ) (stack : List Frame) (frame : Frame) :
    invokes kernel S { s with stack } frame = invokes kernel S s frame := by
  have hanswer := answer_of_same kernel S s { s with stack } rfl rfl
  cases frame with
  | sendInLoop msg =>
      simp only [invokes, hanswer]
      rfl
  | sendFileInLoop | fileLoop => simp only [invokes, hanswer]
  | _ => rfl

end Reaches

section Locks

/-- While the loop thread holds the mutex, it is in a direct call with the end of its lock behind
it. -/
def Locks (s : LoopThread σ) : Prop :=
  match s.locked with
  | true => ∃ frames rest,
      s.stack = frames ++ .unlock :: rest ∧ frames.all direct ∧ .unlock ∉ rest
  | false => .unlock ∉ s.stack

def Unlocked (s : LoopThread σ) : Prop := s.locked = false ∧ .unlock ∉ s.stack

variable {kernel S} {s s' : LoopThread σ}

theorem Unlocked.locks (h : Unlocked s) : Locks s := by
  unfold Locks
  rw [h.1]
  exact h.2

theorem unlocked_of_locks (h : Locks s) (hlocked : s.locked = false) : Unlocked s := by
  unfold Locks at h
  rw [hlocked] at h
  exact ⟨hlocked, h⟩

theorem Unlocked.push (h : Unlocked s) {frames : List Frame} (hframes : .unlock ∉ frames) :
    Unlocked (push frames s) :=
  ⟨h.1, fun hmem => (List.mem_append.mp hmem).elim hframes h.2⟩

theorem Unlocked.of_same (h : Unlocked s) (hlocked : s'.locked = s.locked)
    (hstack : s'.stack = s.stack) : Unlocked s' :=
  ⟨hlocked.trans h.1, by simpa only [hstack] using h.2⟩

theorem Unlocked.quiet (h : Unlocked s) (hquiet : Quiet s s') : Unlocked s' := by
  obtain ⟨frames, hstack, hframes⟩ := hquiet.stack
  refine ⟨(congrArg Prod.fst hquiet.outside).trans h.1, ?_⟩
  rw [hstack]
  intro hmem
  refine (List.mem_append.mp hmem).elim (fun hunlock => ?_) h.2
  exact List.any_eq_false.mp hframes _ hunlock rfl

theorem Unlocked.handleClose (h : Unlocked s) : Unlocked (handleClose s) :=
  Unlocked.push (s := { s with conn := _ }) h (by simp)

theorem Unlocked.forceClose (h : Unlocked s) : Unlocked (forceClose s) := by
  unfold ConnectionThread.forceClose
  split
  · exact Unlocked.handleClose (s := { s with conn.status := .Disconnecting }) h
  · exact h

theorem Unlocked.shutdown (h : Unlocked s) : Unlocked (shutdown kernel S s) := by
  unfold ConnectionThread.shutdown
  split
  · split
    · exact h
    · have hset : Unlocked { s with
          tlsProvider := s.tlsProvider.map (OpenSSLProvider.close kernel S)
          conn.status := .Disconnecting } := h
      simp only
      split
      · exact hset.quiet (quiet_closeWrite _)
      · exact hset
  · exact h

theorem Unlocked.moves (h : Unlocked s) (hmoves : Moves kernel S s s') : Unlocked s' := by
  induction hmoves with
  | start => exact h
  | quiet _ hquiet ih => exact ih.quiet hquiet
  | onSslError _ ih => exact (ih.push (by simp)).forceClose
  | shutdown _ ih => exact ih.shutdown

theorem Unlocked.exec {frame : Frame} (h : Unlocked s) (hframe : frame ≠ .unlock)
    (hexec : exec kernel S s frame = some s') : Unlocked s' := by
  cases hcloses : closes frame with
  | true =>
      obtain rfl := Option.some.inj ((exec_of_closes hcloses).symm.trans hexec)
      exact h.handleClose
  | false =>
      cases hfinishes : finishes S s frame with
      | true =>
          obtain ⟨inRecvData, p, hresult⟩ := exec_of_finishes kernel hfinishes
          obtain rfl := Option.some.inj (hresult.symm.trans hexec)
          exact Unlocked.push (h.of_same rfl rfl) (by simp)
      | false =>
          cases hends : ends frame with
          | false => exact h.moves (exec_moves hends hcloses hfinishes hexec)
          | true =>
              cases frame with
              | unlock => exact absurd rfl hframe
              | closeCallback =>
                  obtain rfl := Option.some.inj hexec
                  simp only [closeCallback]
                  split
                  · exact h.of_same rfl rfl
                  · exact h.of_same rfl rfl
              | remove | decrement =>
                  obtain rfl := Option.some.inj hexec
                  exact h.of_same rfl rfl
              | _ => simp [ends] at hends

theorem locks_callInLoop (h : Unlocked s) (call : SendCall) : Locks (callInLoop s call) := by
  have hfile : ∀ s : LoopThread σ, Unlocked s → Locks (if s.conn.writeBufferList.length = 1 then
      push [.sendFileInLoop, .unlock] { s with locked := true } else s) := by
    intro s h
    split
    · exact ⟨[.sendFileInLoop], s.stack, rfl, rfl, h.2⟩
    · exact h.locks
  cases call with
  | send msg => exact ⟨[.sendInLoop msg], s.stack, rfl, rfl, h.2⟩
  | sendFile | sendStream => exact hfile _ (h.of_same rfl rfl)

theorem locks_requestInLoop {request : Request} (h : Unlocked s)
    (hrequest : requestInLoop kernel S s request = some s') : Locks s' := by
  cases requestInLoop_cases hrequest with
  | @direct call =>
      have hlog : Unlocked { s with conn := TcpConnectionImpl.log s.conn (.call call) } := h
      exact locks_callInLoop hlog call
  | queued => exact Unlocked.locks (h.of_same rfl rfl)
  | shutdown => exact h.shutdown.locks
  | forceClose => exact h.forceClose.locks

theorem Unlocked.runFunctor (h : Unlocked s) (functor : Functor) :
    Unlocked (runFunctor kernel S s functor) := by
  cases functor with
  | connectDestroyed =>
      simp only [ConnectionThread.runFunctor, connectDestroyed]
      split
      · exact Unlocked.push (h.of_same rfl rfl) (by simp)
      · exact h.of_same rfl rfl
  | request request =>
      cases request with
      | call call =>
          cases call with
          | send msg => exact h.push (by simp)
          | sendFile | sendStream => exact Unlocked.push (h.of_same rfl rfl) (by simp)
      | shutdown => exact h.shutdown
      | forceClose => exact h.forceClose

theorem Unlocked.handleEvent (h : Unlocked s) (revents : Revents)
    (result : TcpConnectionImpl.ReadResult) : Unlocked (handleEvent revents result s) := by
  unfold ConnectionThread.handleEvent
  split
  · exact h
  · refine h.push ?_
    simp only [List.mem_append, not_or]
    refine ⟨⟨?_, ?_⟩, ?_⟩ <;> split <;> simp

theorem requestElsewhere_same (s : LoopThread σ) (request : Request) :
    (requestElsewhere s request).locked = s.locked ∧ (requestElsewhere s request).stack = s.stack := by
  cases request with
  | call call =>
      simp only [requestElsewhere]
      split
      · exact ⟨rfl, rfl⟩
      · exact ⟨rfl, rfl⟩
  | shutdown | forceClose => exact ⟨rfl, rfl⟩

theorem locks_step_of_unlocked (h : Unlocked s) {event : Event}
    (hstep : step kernel S s event = some s') : Locks s' := by
  cases step_cases hstep with
  | idle => exact h.locks
  | handleEvent revents result => exact (h.handleEvent revents result).locks
  | @functor functor funcs _ _ =>
      have htail : Unlocked { s with funcs } := h
      exact (htail.runFunctor functor).locks
  | @resume frame stack _ hstack hexec =>
      have hnot := h.2
      rw [hstack, List.mem_cons, not_or] at hnot
      have htail : Unlocked { s with stack } := ⟨h.1, hnot.2⟩
      exact (htail.exec (Ne.symm hnot.1) hexec).locks
  | inLoop _ hrequest => exact locks_requestInLoop h hrequest
  | elsewhere request =>
      obtain ⟨hlocked, hstack⟩ := requestElsewhere_same s request
      exact Unlocked.locks (h.of_same hlocked hstack)
  | serverLoop => exact Unlocked.locks (h.of_same rfl rfl)

theorem stack_of_locked (h : Locks s) (hlocked : s.locked) : ∃ frames rest,
    s.stack = frames ++ .unlock :: rest ∧ frames.all direct ∧ .unlock ∉ rest := by
  unfold Locks at h
  rw [hlocked] at h
  exact h

theorem locks_of_stack (hlocked : s.locked) {frames rest : List Frame}
    (hstack : s.stack = frames ++ .unlock :: rest) (hframes : frames.all direct)
    (hrest : .unlock ∉ rest) : Locks s := by
  unfold Locks
  rw [hlocked]
  exact ⟨frames, rest, hstack, hframes, hrest⟩

theorem head_of_locked (h : Locks s) (hlocked : s.locked) :
    ∃ frame stack, s.stack = frame :: stack ∧ (direct frame ∨ frame = .unlock) := by
  obtain ⟨frames, rest, hstack, hframes, -⟩ := stack_of_locked h hlocked
  cases frames with
  | nil => exact ⟨.unlock, rest, hstack, .inr rfl⟩
  | cons frame frames =>
      rw [List.all_cons, Bool.and_eq_true] at hframes
      exact ⟨frame, frames ++ .unlock :: rest, hstack, .inl hframes.1⟩

theorem not_user_of_locks (h : Locks s) : ¬(s.locked ∧ s.stack.head? = some .user) := by
  rintro ⟨hlocked, huser⟩
  obtain ⟨frame, stack, hstack, hframe⟩ := head_of_locked h hlocked
  rw [hstack] at huser
  obtain rfl := Option.some.inj huser
  simp [direct] at hframe

theorem step_of_locked (h : Locks s) (hlocked : s.locked) {event : Event} (hother : event ≠ .resume)
    (hstep : step kernel S s event = some s') : s'.locked = s.locked ∧ s'.stack = s.stack := by
  obtain ⟨frame, stack, hstack, hframe⟩ := head_of_locked h hlocked
  cases step_cases hstep with
  | idle => exact ⟨rfl, rfl⟩
  | handleEvent _ _ hidle => simp [hstack] at hidle
  | functor hidle => simp [hstack] at hidle
  | resume => exact absurd rfl hother
  | inLoop huser =>
      simp only [inUser, hstack, List.head?_cons, Option.all_some, decide_eq_true_eq] at huser
      subst huser
      simp [direct] at hframe
  | elsewhere request => exact requestElsewhere_same s request
  | serverLoop => exact ⟨rfl, rfl⟩

theorem locks_exec (h : Locks s) (hlocked : s.locked) {frame : Frame} {stack : List Frame}
    (hstack : s.stack = frame :: stack) (hnone : invokes kernel S s frame = false)
    (hexec : exec kernel S { s with stack } frame = some s') : Locks s' := by
  obtain ⟨frames, rest, hsplit, hframes, hrest⟩ := stack_of_locked h hlocked
  cases frames with
  | nil =>
      obtain ⟨rfl, rfl⟩ := List.cons.inj (hstack.symm.trans hsplit)
      obtain rfl := Option.some.inj hexec
      exact Unlocked.locks ⟨rfl, hrest⟩
  | cons first frames =>
      obtain ⟨rfl, rfl⟩ := List.cons.inj (hstack.symm.trans hsplit)
      rw [List.all_cons, Bool.and_eq_true] at hframes
      have hreaches := exec_reaches hframes.1 hexec
      rw [invokes_stack, hnone] at hreaches
      obtain ⟨hkept, above, habove, hall⟩ := hreaches
      have hstack' : s'.stack = (above ++ frames) ++ .unlock :: rest :=
        habove.trans (List.append_assoc above frames _).symm
      refine locks_of_stack (hkept.trans hlocked) hstack' ?_ hrest
      rw [List.all_append, hall, hframes.2, Bool.and_true]

theorem locks_step (h : Locks s) {event : Event} (hmeets : Meets kernel S s event)
    (hstep : step kernel S s event = some s') : Locks s' := by
  cases hlocked : s.locked with
  | false => exact locks_step_of_unlocked (unlocked_of_locks h hlocked) hstep
  | true =>
      by_cases hresume : event = .resume
      · obtain ⟨frame, stack, hstack, -⟩ := head_of_locked h hlocked
        subst hresume
        have hnone := hmeets hlocked rfl
        rw [hstack, List.head?_cons, Option.all_some, Bool.not_eq_true'] at hnone
        simp only [step, hstack] at hstep
        exact locks_exec h hlocked hstack hnone hstep
      · obtain ⟨hkept, hsame⟩ := step_of_locked h hlocked hresume hstep
        obtain ⟨frames, rest, hstack, hframes, hrest⟩ := stack_of_locked h hlocked
        exact locks_of_stack (hkept.trans hlocked) (hsame.trans hstack) hframes hrest

theorem not_locks_of_locked (h : Locks s) (event : Event) : ¬(locks s event ∧ s.locked) := by
  rintro ⟨hlocks, hlocked⟩
  obtain ⟨frame, stack, hstack, hframe⟩ := head_of_locked h hlocked
  cases event with
  | inLoop request =>
      cases request with
      | call call =>
          simp only [locks, inUser, hstack, List.head?_cons, Option.all_some,
            decide_eq_true_eq] at hlocks
          subst hlocks
          simp [direct] at hframe
      | _ => simp [locks] at hlocks
  | resume =>
      simp only [locks, hstack, List.head?_cons, Option.some.injEq, decide_eq_true_eq] at hlocks
      subst hlocks
      simp [direct] at hframe
  | _ => simp [locks] at hlocks

theorem not_locksOnce (hlocked : s.locked) {frame : Frame} {stack : List Frame}
    (hstack : s.stack = frame :: stack) (hinvokes : invokes kernel S s frame) :
    ¬LocksOnce kernel S s .resume := by
  rw [← invokes_stack s stack] at hinvokes
  obtain ⟨hdirect, s', hexec⟩ := exec_of_invokes hinvokes
  have hreaches := exec_reaches hdirect hexec
  rw [hinvokes] at hreaches
  intro honce
  apply honce.2 s'
  · simpa only [step, hstack, Option.mem_def] using hexec
  · exact ⟨hreaches.1.trans hlocked, hreaches.2⟩

theorem locksOnce_iff {event : Event} (h : Locks s) :
    LocksOnce kernel S s event ↔ Meets kernel S s event := by
  constructor
  · intro honce hlocked hresume
    subst hresume
    obtain ⟨frame, stack, hstack, -⟩ := head_of_locked h hlocked
    rw [hstack, List.head?_cons, Option.all_some, Bool.not_eq_true']
    exact Bool.eq_false_iff.mpr fun hinvokes => not_locksOnce hlocked hstack hinvokes honce
  · intro hmeets
    refine ⟨not_locks_of_locked h event, fun s' hstep => ?_⟩
    exact not_user_of_locks (locks_step h hmeets hstep)

/-- In a run of one connection the loop thread never waits for itself, and no callback is invoked
under the mutex, if and only if no part of a direct call comes to a callback. -/
theorem allSteps_locksOnce_iff (kernel : Kernel) (S : OpenSSL σ) (highWaterMarkLen : Option Nat)
    (inServerLoop : Bool) (ssl : Option σ) (events : List Event) :
    AllSteps (step kernel S) (LocksOnce kernel S)
        (established highWaterMarkLen inServerLoop ssl) events ↔
      AllSteps (step kernel S) (Meets kernel S)
        (established highWaterMarkLen inServerLoop ssl) events := by
  refine allSteps_iff_of_kept Locks ?_ (fun s event h => locksOnce_iff h) ?_ events
  · exact fun s event s' h honce hstep => locks_step h ((locksOnce_iff h).mp honce) hstep
  · refine Unlocked.locks ⟨rfl, ?_⟩
    cases ssl <;> simp [established]

/-- A send in `connectionCallback_` of which the kernel takes nothing passes the high water mark,
and a send in `highWaterMarkCallback_` waits for the mutex. -/
theorem not_allSteps_locksOnce :
    ¬AllSteps (step (fun _ _ => .error .EAGAIN) unusedSSL)
        (LocksOnce (fun _ _ => .error .EAGAIN) unusedSSL) (established (some 1) true none)
        [.inLoop (.call (.send [7, 7])), .resume, .inLoop (.call (.send [7]))] := by
  decide

end Locks

end Cooper.SendMutex

import Cooper.SendOrder
import Cooper.ThreadOutcome

namespace Cooper.ThreadRun

open Cooper.ConnectionThread
open Cooper.MsgBuffer
open Cooper.OpenSSLProvider (OpenSSL)
open Cooper.QueueFrame
open Cooper.StepRun
open Cooper.TcpConnectionImpl (BufferNode Connection Errno Kernel ReadResult SendCall)

variable {σ : Type*} (kernel : Kernel) (S : OpenSSL σ)

/-- What the loop thread does by itself, and the sends that its callbacks ask for. -/
def ofLoop : Event → Bool
  | .handleEvent _ _ | .functor | .resume | .inLoop (.call _) => true
  | _ => false

def Executes (s s' : LoopThread σ) : Prop :=
  ∃ events : List Event, events.all ofLoop ∧ runSteps (step kernel S) s events = some s'

def withConn (s : LoopThread σ) (conn : Connection) (stack : List Frame) : LoopThread σ :=
  { s with conn, stack }

@[simp]
theorem withConn_conn (s : LoopThread σ) (conn : Connection) (stack : List Frame) :
    (withConn s conn stack).conn = conn :=
  rfl

section Executes

variable {kernel S} {s s' s'' : LoopThread σ}

theorem Executes.refl (s : LoopThread σ) : Executes kernel S s s := ⟨[], rfl, rfl⟩

theorem Executes.trans (h : Executes kernel S s s') (h' : Executes kernel S s' s'') :
    Executes kernel S s s'' := by
  obtain ⟨events, hloop, hrun⟩ := h
  obtain ⟨events', hloop', hrun'⟩ := h'
  refine ⟨events ++ events', ?_, ?_⟩
  · rw [List.all_append, hloop, hloop', Bool.and_true]
  · rw [runSteps_append, hrun]
    exact hrun'

theorem executes_step {event : Event} (hloop : ofLoop event)
    (hstep : step kernel S s event = some s') : Executes kernel S s s' := by
  refine ⟨[event], ?_, ?_⟩
  · rw [List.all_cons, hloop]
    rfl
  · rw [runSteps_cons, hstep]
    rfl

theorem executes_exec {c : Connection} {stack : List Frame} {frame : Frame}
    (hexec : exec kernel S (withConn s c stack) frame = some s') :
    Executes kernel S (withConn s c (frame :: stack)) s' :=
  @executes_step _ kernel S _ s' .resume rfl hexec

theorem executes_user (s : LoopThread σ) (c : Connection) (stack : List Frame) :
    Executes kernel S (withConn s c (.user :: stack)) (withConn s c stack) :=
  executes_exec rfl

end Executes

section Output

variable {kernel S} {s : LoopThread σ}

theorem writeInLoop_plain (hplain : s.tlsProvider = none) (c : Connection) (stack : List Frame)
    (data : Bytes) :
    writeInLoop kernel S (withConn s c stack) data =
      ((TcpConnectionImpl.writeInLoop kernel c data).1, false,
        withConn s (TcpConnectionImpl.writeInLoop kernel c data).2 stack) := by
  simp only [writeInLoop, withConn, hplain]

theorem queueInList_plain (hplain : s.tlsProvider = none) (c : Connection) (stack : List Frame)
    (data : Bytes) :
    ∃ frames, (frames = [] ∨ frames = [.user]) ∧
      queueInList (withConn s c stack) data =
        withConn s (TcpConnectionImpl.queueInList c data) (frames ++ stack) := by
  have hnone : (withConn s c stack).tlsProvider.isSome = false := by
    rw [withConn, hplain, Option.isSome_none]
  unfold queueInList
  split
  · simp only [hnone, Bool.false_eq_true, if_false]
    split
    · exact ⟨[.user], .inr rfl, rfl⟩
    · exact ⟨[], .inl rfl, rfl⟩
  · rename_i hskip
    refine ⟨[], .inl rfl, ?_⟩
    rw [TcpConnectionImpl.queueInList, if_neg (by simpa using hskip)]
    rfl

theorem sendInLoop_plain (hplain : s.tlsProvider = none) (c : Connection) (stack : List Frame)
    (msg : Bytes) :
    ∃ frames, (frames = [] ∨ frames = [.user]) ∧
      sendInLoop kernel S (withConn s c stack) msg =
        withConn s (TcpConnectionImpl.sendInLoop kernel c msg) (frames ++ stack) := by
  unfold sendInLoop TcpConnectionImpl.sendInLoop
  rw [withConn_conn]
  by_cases hconnected : c.status ≠ .Connected
  · rw [if_pos hconnected, if_pos hconnected]
    exact ⟨[], .inl rfl, rfl⟩
  · rw [if_neg hconnected, if_neg hconnected]
    by_cases hdirect : c.writing = false ∧ c.writeBufferList = []
    · rw [if_pos hdirect, if_pos hdirect, writeInLoop_plain hplain]
      rcases TcpConnectionImpl.writeInLoop kernel c msg with ⟨e | sendLen, c'⟩
      · simp only [Bool.false_eq_true, if_false, sendFailed]
        split
        · exact ⟨[], .inl rfl, rfl⟩
        · exact queueInList_plain hplain c' stack msg
      · exact queueInList_plain hplain c' stack _
    · rw [if_neg hdirect, if_neg hdirect]
      exact queueInList_plain hplain c stack msg

theorem executes_sendInLoop (hplain : s.tlsProvider = none) (c : Connection) (stack : List Frame)
    (msg : Bytes) :
    Executes kernel S (withConn s c (.sendInLoop msg :: stack))
      (withConn s (TcpConnectionImpl.sendInLoop kernel c msg) stack) := by
  obtain ⟨frames, hframes, hsend⟩ := sendInLoop_plain hplain c stack msg
  have hexec : Executes kernel S (withConn s c (.sendInLoop msg :: stack))
      (withConn s (TcpConnectionImpl.sendInLoop kernel c msg) (frames ++ stack)) :=
    executes_exec (congrArg some hsend)
  rcases hframes with rfl | rfl
  · exact hexec
  · exact hexec.trans (executes_user s _ stack)

def withFront (c : Connection) (node : BufferNode) (rest : List BufferNode) : Connection :=
  { c with writeBufferList := node :: rest }

theorem writeFileBuffer_plain (hplain : s.tlsProvider = none) (c : Connection) (stack : List Frame)
    (toSend : Nat) (chunks : List Bytes) (rest : List BufferNode) :
    writeFileBuffer kernel S toSend
        (withConn s (withFront c (.stream toSend chunks) rest) stack) =
      match TcpConnectionImpl.writeFileBuffer kernel c toSend with
      | .inl c' => fetch toSend (withConn s (withFront c' (.stream toSend chunks) rest) stack)
      | .inr (c', toSend') => withConn s (withFront c' (.stream toSend' chunks) rest) stack := by
  unfold writeFileBuffer TcpConnectionImpl.writeFileBuffer
  rw [writeInLoop_plain hplain]
  simp only [TcpConnectionImpl.writeInLoop, withFront, withConn_conn]
  rcases c.socket.write kernel c.fileBuffer with ⟨e | nWritten, socket⟩
  · simp only [Bool.false_eq_true, if_false, streamFailed]
    split
    · rfl
    · rfl
  · simp only [withConn_conn]
    by_cases hpart : nWritten < c.fileBuffer.length
    · simp only [hpart, if_true]
      rfl
    · simp only [hpart, if_false]
      rfl

theorem executes_streamLoop (hplain : s.tlsProvider = none) (c : Connection) (stack : List Frame)
    {toSend : Nat} (hpos : toSend ≠ 0) (chunks : List Bytes) (rest : List BufferNode) :
    Executes kernel S
      (withConn s (withFront c (.stream toSend chunks) rest) (.user :: .fetched :: stack))
      (withConn s (withFront (TcpConnectionImpl.streamLoop kernel toSend chunks c).1
        (TcpConnectionImpl.streamLoop kernel toSend chunks c).2 rest) stack) := by
  induction chunks generalizing c with
  | nil => exact (executes_user s _ _).trans (executes_exec rfl)
  | cons chunk chunks ih =>
      refine (executes_user s _ _).trans ?_
      rw [TcpConnectionImpl.streamLoop]
      by_cases hchunk : chunk = []
      · rw [if_pos hchunk]
        refine executes_exec (congrArg some ?_)
        exact if_pos hchunk
      · rw [if_neg hchunk]
        have hfetched : fetched kernel S
            (withConn s (withFront c (.stream toSend (chunk :: chunks)) rest) stack) =
              writeFileBuffer kernel S toSend (withConn s
                (withFront { c with fileBuffer := chunk } (.stream toSend chunks) rest) stack) :=
          if_neg hchunk
        rw [writeFileBuffer_plain hplain] at hfetched
        have hexec := @executes_exec _ kernel S s _ _ stack .fetched (congrArg some hfetched)
        generalize TcpConnectionImpl.writeFileBuffer kernel { c with fileBuffer := chunk } toSend =
          result at hexec ⊢
        rcases result with c' | ⟨c', toSend'⟩
        · refine hexec.trans ?_
          simp only [fetch, if_neg hpos]
          exact ih c'
        · exact hexec

theorem executes_fetch (hplain : s.tlsProvider = none) (c : Connection) (stack : List Frame)
    (toSend : Nat) (chunks : List Bytes) (rest : List BufferNode) :
    let sent := if toSend = 0 then (TcpConnectionImpl.enableWriting c, .stream 0 chunks)
      else TcpConnectionImpl.streamLoop kernel toSend chunks c
    Executes kernel S (fetch toSend (withConn s (withFront c (.stream toSend chunks) rest) stack))
      (withConn s (withFront sent.1 sent.2 rest) stack) := by
  unfold fetch
  by_cases hzero : toSend = 0
  · rw [if_pos hzero, if_pos hzero, hzero]
    exact .refl _
  · rw [if_neg hzero, if_neg hzero]
    exact executes_streamLoop hplain c stack hzero chunks rest

theorem executes_sendStreamInLoop (hplain : s.tlsProvider = none) {c : Connection} {toSend : Nat}
    {chunks : List Bytes} {rest : List BufferNode}
    (hlist : c.writeBufferList = .stream toSend chunks :: rest) (stack : List Frame) :
    let sent := TcpConnectionImpl.sendStreamInLoop kernel c toSend chunks
    Executes kernel S (withConn s c (.sendFileInLoop :: stack))
      (withConn s (withFront sent.1 sent.2 rest) stack) := by
  have hfront : withFront c (.stream toSend chunks) rest = c := by rw [withFront, ← hlist]
  rw [TcpConnectionImpl.sendStreamInLoop]
  by_cases hbuffer : c.fileBuffer = []
  · have hexec : exec kernel S (withConn s c stack) .sendFileInLoop =
        some (fetch toSend (withConn s (withFront c (.stream toSend chunks) rest) stack)) := by
      rw [hfront, exec, sendFileInLoop, withConn_conn, hlist]
      exact if_pos hbuffer
    rw [if_pos hbuffer]
    exact (executes_exec hexec).trans (executes_fetch hplain c stack toSend chunks rest)
  · have hexec : exec kernel S (withConn s c stack) .sendFileInLoop =
        some (writeFileBuffer kernel S toSend
          (withConn s (withFront c (.stream toSend chunks) rest) stack)) := by
      rw [hfront, exec, sendFileInLoop, withConn_conn, hlist]
      exact if_neg hbuffer
    rw [writeFileBuffer_plain hplain] at hexec
    rw [if_neg hbuffer]
    refine (executes_exec hexec).trans ?_
    rcases TcpConnectionImpl.writeFileBuffer kernel c toSend with c' | ⟨c', toSend'⟩
    · exact executes_fetch hplain c' stack toSend chunks rest
    · exact .refl _

theorem executes_sendFileInLoop (hplain : s.tlsProvider = none) {c c' : Connection}
    (hsend : TcpConnectionImpl.sendFileInLoop kernel c = some c') (stack : List Frame) :
    Executes kernel S (withConn s c (.sendFileInLoop :: stack)) (withConn s c' stack) := by
  have hnone : (withConn s c stack).tlsProvider.isSome = false := by
    rw [withConn, hplain, Option.isSome_none]
  rcases hlist : c.writeBufferList with _ | ⟨node, rest⟩
  · simp [TcpConnectionImpl.sendFileInLoop, hlist] at hsend
  · rw [TcpConnectionImpl.sendFileInLoop, hlist] at hsend
    cases node with
    | msg => simp at hsend
    | file content offset toSend =>
        let sent := TcpConnectionImpl.sendfileInLoop kernel c content offset toSend
        obtain rfl : withFront sent.1 sent.2 rest = c' := Option.some.inj hsend
        apply executes_exec
        rw [exec, sendFileInLoop, withConn_conn, hlist]
        simp only [hnone, Bool.false_eq_true, if_false]
        rfl
    | stream toSend chunks =>
        let sent := TcpConnectionImpl.sendStreamInLoop kernel c toSend chunks
        obtain rfl : withFront sent.1 sent.2 rest = c' := Option.some.inj hsend
        exact executes_sendStreamInLoop hplain hlist stack

end Output

section Calls

variable {kernel S} {s : LoopThread σ} {c c' : Connection}

theorem withConn_unlocked (hlocked : s.locked = false) (c : Connection) (stack : List Frame) :
    { withConn s c stack with locked := false } = withConn s c stack := by
  simp only [withConn, hlocked]

theorem executes_unlock (hlocked : s.locked = false) (c : Connection) (stack : List Frame) :
    Executes kernel S (withConn { s with locked := true } c (.unlock :: stack))
      (withConn s c stack) := by
  refine executes_exec (congrArg some ?_)
  exact withConn_unlocked hlocked c stack

theorem executes_pushFile (hplain : s.tlsProvider = none) (hlocked : s.locked = false)
    {node : BufferNode} (hpush : TcpConnectionImpl.pushFile kernel c node = some c')
    (stack : List Frame) :
    let s₁ := pushNode node (withConn s c stack)
    Executes kernel S
      (if s₁.conn.writeBufferList.length = 1 then
        push [.sendFileInLoop, .unlock] { s₁ with locked := true }
      else s₁)
      (withConn s c' stack) := by
  simp only
  rw [TcpConnectionImpl.pushFile] at hpush
  by_cases hone : (c.writeBufferList ++ [node]).length = 1
  · rw [if_pos hone] at hpush
    have hplain' : { s with locked := true }.tlsProvider = none := hplain
    have hsend := @executes_sendFileInLoop _ kernel S _ hplain' _ _ hpush (.unlock :: stack)
    have hstart : (pushNode node (withConn s c stack)).conn.writeBufferList.length = 1 := hone
    rw [if_pos hstart]
    exact hsend.trans (executes_unlock hlocked c' stack)
  · rw [if_neg hone] at hpush
    obtain rfl := Option.some.inj hpush
    have hstart : ¬(pushNode node (withConn s c stack)).conn.writeBufferList.length = 1 := hone
    rw [if_neg hstart]
    exact .refl _

theorem executes_call (hplain : s.tlsProvider = none) (hlocked : s.locked = false)
    {stack : List Frame} (huser : inUser (withConn s c stack)) (hdirect : c.sendNum = 0)
    {call : SendCall} (hcall : TcpConnectionImpl.runCall kernel true c call = some c') :
    Executes kernel S (withConn s c stack) (withConn s c' stack) := by
  have hstep : step kernel S (withConn s c stack) (.inLoop (.call call)) =
      some (callInLoop (withConn s (TcpConnectionImpl.log c (.call call)) stack) call) := by
    have hunlocked : ¬(withConn s c stack).locked := by simp [withConn, hlocked]
    rw [step, if_pos huser, requestInLoop, if_neg hunlocked]
    exact congrArg some (if_pos hdirect)
  refine (executes_step rfl hstep).trans ?_
  have hlog : true = true ∧ (TcpConnectionImpl.log c (.call call)).sendNum = 0 := ⟨rfl, hdirect⟩
  cases call with
  | send msg =>
      rw [TcpConnectionImpl.runCall, TcpConnectionImpl.send, if_pos hlog] at hcall
      obtain rfl := Option.some.inj hcall
      have hplain' : { s with locked := true }.tlsProvider = none := hplain
      have hsend := @executes_sendInLoop _ kernel S _ hplain'
        (TcpConnectionImpl.log c (.call (.send msg))) (.unlock :: stack) msg
      exact hsend.trans (executes_unlock hlocked _ stack)
  | sendFile content offset length =>
      rw [TcpConnectionImpl.runCall, TcpConnectionImpl.sendFile, if_pos hlog] at hcall
      exact executes_pushFile hplain hlocked hcall stack
  | sendStream chunks =>
      rw [TcpConnectionImpl.runCall, TcpConnectionImpl.sendStream, if_pos hlog] at hcall
      exact executes_pushFile hplain hlocked hcall stack

theorem runCall_sendNum (hdirect : c.sendNum = 0) {call : SendCall}
    (hcall : TcpConnectionImpl.runCall kernel true c call = some c') : c'.sendNum = 0 := by
  rw [SendOrder.runCall_of_direct hdirect] at hcall
  obtain ⟨c'', -, rfl⟩ := Option.map_eq_some_iff.mp hcall
  rfl

theorem executes_calls (hplain : s.tlsProvider = none) (hlocked : s.locked = false)
    {stack : List Frame} (huser : stack.head?.all (· = .user)) (hdirect : c.sendNum = 0)
    {calls : List SendCall} (hcalls : calls.foldlM (TcpConnectionImpl.runCall kernel true) c = some c') :
    Executes kernel S (withConn s c stack) (withConn s c' stack) ∧ c'.sendNum = 0 := by
  induction calls generalizing c with
  | nil =>
      obtain rfl := Option.some.inj hcalls
      exact ⟨.refl _, hdirect⟩
  | cons call calls ih =>
      rw [List.foldlM_cons] at hcalls
      obtain ⟨next, hcall, hrest⟩ := Option.bind_eq_some_iff.mp hcalls
      obtain ⟨hexecutes, hdirect'⟩ := ih (runCall_sendNum hdirect hcall) hrest
      exact ⟨(executes_call hplain hlocked huser hdirect hcall).trans hexecutes, hdirect'⟩

theorem executes_functor (hplain : s.tlsProvider = none) {call : SendCall} {funcs : List Functor}
    (hfuncs : s.funcs = .request (.call call) :: funcs)
    (hrun : TcpConnectionImpl.runFunctor kernel c call = some c') :
    Executes kernel S (withConn s c []) { withConn s c' [] with funcs } := by
  have hstep : step kernel S (withConn s c []) .functor =
      some (runFunctor kernel S (withConn { s with funcs } c []) (.request (.call call))) := by
    simp only [step, withConn, hfuncs]
  have hplain' : { s with funcs }.tlsProvider = none := hplain
  have hfile : ∀ {node}, TcpConnectionImpl.pushFile kernel { c with sendNum := c.sendNum - 1 } node =
      some c' → Executes kernel S
        (withConn { s with funcs } { c with writeBufferList := c.writeBufferList ++ [node] }
          [.decrement, .startFile]) { withConn s c' [] with funcs } := by
    intro node hpush
    let counted := { c with
      sendNum := c.sendNum - 1, writeBufferList := c.writeBufferList ++ [node] }
    have hcounted : Executes kernel S (withConn { s with funcs }
        { c with writeBufferList := c.writeBufferList ++ [node] } [.decrement, .startFile])
        (withConn { s with funcs } counted [.startFile]) := executes_exec rfl
    refine hcounted.trans ?_
    rw [TcpConnectionImpl.pushFile] at hpush
    by_cases hone : counted.writeBufferList.length = 1
    · rw [if_pos hone] at hpush
      have hstart : exec kernel S (withConn { s with funcs } counted []) .startFile =
          some (withConn { s with funcs } counted [.sendFileInLoop]) := if_pos hone
      exact (executes_exec hstart).trans (executes_sendFileInLoop hplain' hpush [])
    · rw [if_neg hone] at hpush
      obtain rfl := Option.some.inj hpush
      have hstart : exec kernel S (withConn { s with funcs } counted []) .startFile =
          some (withConn { s with funcs } counted []) := if_neg hone
      exact executes_exec hstart
  refine (executes_step rfl hstep).trans ?_
  cases call with
  | send msg =>
      obtain rfl := Option.some.inj hrun
      have hsend := @executes_sendInLoop _ kernel S _ hplain' c [.decrement] msg
      exact hsend.trans (executes_exec rfl)
  | sendFile content offset length => exact hfile hrun
  | sendStream chunks => exact hfile hrun

end Calls

section Events

variable {kernel S} {s s' : LoopThread σ} {c c' : Connection}

theorem shutdown_plain (hplain : s.tlsProvider = none) (c : Connection) (stack : List Frame) :
    shutdown kernel S (withConn s c stack) = withConn s (TcpConnectionImpl.shutdown c) stack := by
  simp only [shutdown, TcpConnectionImpl.shutdown, withConn, hplain, Option.any_none,
    Bool.false_eq_true, false_or, Option.map_none, closeWrite]
  split
  · split
    · rfl
    · split
      · rfl
      · rfl
  · rfl

theorem executes_checkCloseOnEmpty (hplain : s.tlsProvider = none) (c : Connection)
    (stack : List Frame) :
    Executes kernel S (withConn s c (.checkCloseOnEmpty :: stack))
      (withConn s (TcpConnectionImpl.checkCloseOnEmpty c) stack) := by
  refine executes_exec (congrArg some ?_)
  unfold checkCloseOnEmpty TcpConnectionImpl.checkCloseOnEmpty
  have hprovider : ((withConn s c stack).tlsProvider.all fun p => readableBytes p.writeBuffer = 0) := by
    rw [withConn, hplain, Option.all_none]
  rw [hprovider, withConn_conn, shutdown_plain hplain]
  simp only [or_true, and_true]
  split
  · rfl
  · rfl

theorem executes_writeMsg (hplain : s.tlsProvider = none) (c : Connection) (stack : List Frame)
    (msgBuffer : Bytes) (rest : List BufferNode) :
    Executes kernel S (writeMsg kernel S (withConn s c stack) msgBuffer rest)
      (withConn s (TcpConnectionImpl.writeMsg kernel c msgBuffer rest) stack) := by
  unfold writeMsg TcpConnectionImpl.writeMsg
  rw [writeInLoop_plain hplain]
  rcases TcpConnectionImpl.writeInLoop kernel c msgBuffer with ⟨e | n, c'⟩
  · simp only [Bool.false_eq_true, if_false]
    split
    · exact .refl _
    · exact executes_checkCloseOnEmpty hplain c' stack
  · exact executes_checkCloseOnEmpty hplain _ stack

theorem executes_completed (hplain : s.tlsProvider = none) (hlocked : s.locked = false)
    (hdirect : c.sendNum = 0) {calls : List SendCall}
    (hfinish : TcpConnectionImpl.finishWriting kernel calls c = some c') (stack : List Frame) :
    Executes kernel S
      (withConn s (TcpConnectionImpl.log (TcpConnectionImpl.disableWriting c) .writeCompleteCallback)
        (.user :: .completed :: stack))
      (withConn s c' stack) ∧ c'.sendNum = 0 := by
  obtain ⟨called, hcalls, rfl⟩ := Option.map_eq_some_iff.mp hfinish
  have hlog : (TcpConnectionImpl.log (TcpConnectionImpl.disableWriting c)
      .writeCompleteCallback).sendNum = 0 := hdirect
  obtain ⟨hexecutes, hnone⟩ := @executes_calls _ kernel S s _ _ hplain hlocked
    (.user :: .completed :: stack) rfl hlog _ hcalls
  have hcompleted : exec kernel S (withConn s called stack) .completed = some (withConn s
      (if called.status = .Disconnecting then TcpConnectionImpl.closeWrite called else called)
      stack) := by
    simp only [exec, completed, withConn, closeWrite, hplain]
    split
    · rfl
    · rfl
  refine ⟨hexecutes.trans ((executes_user s called _).trans (executes_exec hcompleted)), ?_⟩
  split
  · exact hnone
  · exact hnone

theorem checkCloseOnEmpty_sendNum (c : Connection) :
    (TcpConnectionImpl.checkCloseOnEmpty c).sendNum = c.sendNum :=
  (SendOrder.sendNum_of_frame (checkCloseOnEmpty_withQueue c.sendNum c.funcs c)).1

theorem writeMsg_sendNum (kernel : Kernel) (c : Connection) (msgBuffer : Bytes)
    (rest : List BufferNode) :
    (TcpConnectionImpl.writeMsg kernel c msgBuffer rest).sendNum = c.sendNum :=
  (SendOrder.sendNum_of_frame (writeMsg_withQueue kernel c.sendNum c.funcs c msgBuffer rest)).1

theorem executes_checkedFile (hplain : s.tlsProvider = none)
    (hsend : (TcpConnectionImpl.sendFileInLoop kernel c).map TcpConnectionImpl.checkCloseOnEmpty =
      some c') (stack : List Frame) :
    Executes kernel S (withConn s c (.sendFileInLoop :: .checkCloseOnEmpty :: stack))
      (withConn s c' stack) ∧ c'.sendNum = c.sendNum := by
  obtain ⟨sent, hsent, rfl⟩ := Option.map_eq_some_iff.mp hsend
  have hsendNum := SendOrder.sendNum_of_map_frame
    (sendFileInLoop_withQueue kernel c.sendNum c.funcs c) hsent
  refine ⟨?_, (checkCloseOnEmpty_sendNum sent).trans hsendNum.1⟩
  exact (executes_sendFileInLoop hplain hsent _).trans (executes_checkCloseOnEmpty hplain sent stack)

/-- The loop thread has come from one part of `writeCallback` to `result`, and it goes on to `c'`.
-/
def GoesOn (kernel : Kernel) (S : OpenSSL σ) (result : Option (LoopThread σ)) (s : LoopThread σ)
    (c' : Connection) (stack : List Frame) : Prop :=
  ∃ s₁, result = some s₁ ∧ Executes kernel S s₁ (withConn s c' stack) ∧ c'.sendNum = 0

theorem writeNext_goesOn (hplain : s.tlsProvider = none) (hlocked : s.locked = false)
    (hdirect : c.sendNum = 0) {calls : List SendCall} {afterFile : Bool} {rest : List BufferNode}
    (hnext : TcpConnectionImpl.writeNext kernel calls afterFile c rest = some c')
    (stack : List Frame) :
    GoesOn kernel S (writeNext kernel S afterFile (withConn s c stack) rest) s c' stack := by
  let popped := { c with writeBufferList := rest }
  have hfile : (TcpConnectionImpl.sendFileInLoop kernel popped).map
      TcpConnectionImpl.checkCloseOnEmpty = some c' →
      GoesOn kernel S
        (some (withConn s popped (.sendFileInLoop :: .checkCloseOnEmpty :: stack))) s c' stack := by
    intro hsend
    obtain ⟨hexecutes, hsendNum⟩ := executes_checkedFile hplain hsend stack
    exact ⟨_, rfl, hexecutes, hsendNum.trans hdirect⟩
  rcases rest with _ | ⟨msgBuffer | _ | _, rest⟩
  · obtain ⟨finished, hfinish, rfl⟩ := Option.map_eq_some_iff.mp hnext
    obtain ⟨hexecutes, hnone⟩ := @executes_completed _ kernel S s popped _ hplain hlocked hdirect _
      hfinish (.checkCloseOnEmpty :: stack)
    refine ⟨_, rfl, hexecutes.trans (executes_checkCloseOnEmpty hplain finished stack), ?_⟩
    exact (checkCloseOnEmpty_sendNum finished).trans hnone
  · cases afterFile with
    | false => simp [TcpConnectionImpl.writeNext] at hnext
    | true =>
        obtain rfl := Option.some.inj hnext
        refine ⟨_, rfl, executes_writeMsg hplain popped stack msgBuffer rest, ?_⟩
        exact (writeMsg_sendNum kernel popped msgBuffer rest).trans hdirect
  · exact hfile hnext
  · exact hfile hnext

theorem writeList_goesOn (hplain : s.tlsProvider = none) (hlocked : s.locked = false)
    (hdirect : c.sendNum = 0) (hwriting : c.writing) {calls : List SendCall}
    (hcallback : TcpConnectionImpl.writeCallback kernel calls c = some c') (stack : List Frame) :
    GoesOn kernel S (writeList kernel S (withConn s c stack)) s c' stack := by
  rw [TcpConnectionImpl.writeCallback, if_pos hwriting] at hcallback
  have hfile : (TcpConnectionImpl.sendFileInLoop kernel c).map
      TcpConnectionImpl.checkCloseOnEmpty = some c' →
      GoesOn kernel S
        (some (withConn s c (.sendFileInLoop :: .checkCloseOnEmpty :: stack))) s c' stack := by
    intro hsend
    obtain ⟨hexecutes, hsendNum⟩ := executes_checkedFile hplain hsend stack
    exact ⟨_, rfl, hexecutes, hsendNum.trans hdirect⟩
  rw [writeList, withConn_conn]
  rcases hlist : c.writeBufferList with _ | ⟨msgBuffer | ⟨_, _, toSend⟩ | ⟨toSend, _⟩, rest⟩
  · simp [hlist] at hcallback
  · rw [hlist] at hcallback
    simp only at hcallback ⊢
    by_cases hempty : readableBytes msgBuffer = 0
    · rw [if_pos hempty] at hcallback ⊢
      exact writeNext_goesOn hplain hlocked hdirect hcallback stack
    · rw [if_neg hempty] at hcallback ⊢
      obtain rfl := Option.some.inj hcallback
      refine ⟨_, rfl, executes_writeMsg hplain c stack msgBuffer rest, ?_⟩
      exact (writeMsg_sendNum kernel c msgBuffer rest).trans hdirect
  all_goals
    rw [hlist] at hcallback
    simp only at hcallback ⊢
    by_cases hzero : toSend = 0
    · rw [if_pos hzero] at hcallback ⊢
      exact writeNext_goesOn hplain hlocked hdirect hcallback stack
    · rw [if_neg hzero] at hcallback ⊢
      exact hfile hcallback

theorem executes_writeCallback (hplain : s.tlsProvider = none) (hlocked : s.locked = false)
    (hdirect : c.sendNum = 0) {calls : List SendCall}
    (hcallback : TcpConnectionImpl.writeCallback kernel calls c = some c') :
    Executes kernel S (withConn s c []) (withConn s c' []) ∧ c'.sendNum = 0 := by
  by_cases hwriting : c.writing
  · obtain ⟨s₁, hlist, hexecutes, hnone⟩ :=
      @writeList_goesOn _ kernel S s c c' hplain hlocked hdirect hwriting _ hcallback []
    have hstep : step kernel S (withConn s c []) .writable = some (withConn s c [.writeCallback]) := by
      have henabled : ¬(c.reading = false ∧ c.writing = false) := by simp [hwriting]
      exact congrArg some (if_neg henabled)
    have hexec : exec kernel S (withConn s c []) .writeCallback = some s₁ := by
      rw [exec, writeCallback, withConn_conn, if_pos hwriting, ← hlist]
      simp only [withConn, hplain]
    refine ⟨?_, hnone⟩
    exact (executes_step rfl hstep).trans ((executes_exec hexec).trans hexecutes)
  · rw [TcpConnectionImpl.writeCallback, if_neg hwriting] at hcallback
    obtain rfl := Option.some.inj hcallback
    exact ⟨.refl _, hdirect⟩

/-- Every run of the functions is a run of the loop thread. -/
theorem executes_run (hplain : s.tlsProvider = none) (hlocked : s.locked = false)
    (hdirect : c.sendNum = 0) {ops : List WriteQueue.LoopOp}
    (hrun : WriteQueue.run kernel c ops = some c') :
    Executes kernel S (withConn s c []) (withConn s c' []) := by
  induction ops generalizing c with
  | nil =>
      obtain rfl := Option.some.inj hrun
      exact .refl _
  | cons op ops ih =>
      rw [WriteQueue.run, List.foldlM_cons] at hrun
      obtain ⟨next, hop, hrest⟩ := Option.bind_eq_some_iff.mp hrun
      cases op with
      | call call =>
          have hexecutes := @executes_call _ kernel S _ _ _ hplain hlocked [] rfl hdirect _ hop
          exact hexecutes.trans (ih (runCall_sendNum hdirect hop) hrest)
      | writeCallback calls =>
          obtain ⟨hexecutes, hdirect'⟩ :=
            @executes_writeCallback _ kernel S _ _ _ hplain hlocked hdirect _ hop
          exact hexecutes.trans (ih hdirect' hrest)

/-- What the functions make of a connection that has just been established, the loop thread makes of
it when the same calls are made. -/
theorem executes_established (highWaterMarkLen : Option Nat) (inServerLoop : Bool)
    {ops : List WriteQueue.LoopOp}
    (hrun : WriteQueue.run kernel (TcpConnectionImpl.established highWaterMarkLen) ops = some c') :
    let s : LoopThread σ := established highWaterMarkLen inServerLoop none
    Executes kernel S s (withConn s c' []) := by
  intro s
  have hstart : Executes kernel S s (withConn s (TcpConnectionImpl.established highWaterMarkLen) []) :=
    executes_user s _ []
  exact hstart.trans (executes_run rfl rfl rfl hrun)

end Events

end Cooper.ThreadRun

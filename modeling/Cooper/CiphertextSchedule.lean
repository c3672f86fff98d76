import Cooper.OpenSSLConnection
import Cooper.RecordOrder
import Cooper.TlsWriteInterest

namespace Cooper.CiphertextSchedule

open Cooper.MsgBuffer
open Cooper.StepRun
open Cooper.TcpConnectionImpl (Kernel SendCall)
open Cooper.Tls
open Cooper.OpenSSLProvider
open Cooper.OpenSSLConnection
open Cooper.RecordOrder (taken sendTLSData_output)
open Cooper.TlsPlaintext (TlsOp)
open Cooper.TlsWriteInterest

variable {σ : Type*} (kernel : Kernel) (S : OpenSSL σ)

def Failed (p : Provider σ) : Prop := p.processedSslError = true

inductive LoopOp
  | sending (op : TlsOp)
  | startEncryption (calls : List SendCall)
  | readCallback (result : TcpConnectionImpl.ReadResult) (calls : List SendCall)
      (messages : List (List SendCall))
  | shutdown

def step (t : TlsConnection (Provider σ)) : LoopOp → Option (TlsConnection (Provider σ))
  | .sending op => TlsPlaintext.step (tlsProvider kernel S) t op
  | .startEncryption calls => startEncryption kernel S calls t
  | .readCallback result calls messages => readCallback kernel S result calls messages t
  | .shutdown => some (shutdown (tlsProvider kernel S) t)

/-- The connection is closed when the operation returns, or what is pending is scheduled. -/
def StaysScheduled (t : TlsConnection (Provider σ)) (op : LoopOp) : Prop :=
  ∀ t', step kernel S t op = some t' → Connected Failed t' → Scheduled (tlsProvider kernel S) t'

def TakesAll (p : Provider σ) : Prop := taken kernel p.socket p.wbio = p.wbio

/-- `sendData` is given more than it takes, or the socket takes all records. -/
def SendTaken (p : Provider σ) (msg : Bytes) : Prop :=
  maxSend < msg.length ∨
    ((encrypt S p msg).1 = .ok () ∨ msg = [] → TakesAll kernel (encrypt S p msg).2)

/-- What is carried out at once while write events are disabled: the socket takes a message as a
whole, and the end of a file is not reached too early. -/
def DirectTaken (t : TlsConnection (Provider σ)) (call : SendCall) : Prop :=
  Connected Failed t → t.conn.writing = false →
    match call with
    | .send msg => SendTaken kernel S t.provider msg
    | .sendFile content offset length =>
        ¬MeetsEnd (tlsProvider kernel S) content (growFileBuffer t.conn.fileBuffer).length offset
          length t.provider
    | .sendStream _ => True

/-- The same for a call from the loop thread, which waits when other calls do. -/
def CallReaches (t : TlsConnection (Provider σ)) (call : SendCall) : Prop :=
  t.conn.sendNum = 0 → DirectTaken kernel S t call

def CallsReach (t : TlsConnection (Provider σ)) (calls : List SendCall) : Prop :=
  AllSteps (runCall (tlsProvider kernel S) true) (CallReaches kernel S) t calls

/-- Where `wbio_` is flushed for a handshake, write events are enabled or the socket takes all. -/
def FlushTaken (t : TlsConnection (Provider σ)) : Prop :=
  Connected Failed t → t.conn.writing = true ∨ TakesAll kernel t.provider

def handshaken (t : TlsConnection (Provider σ)) : TlsConnection (Provider σ) :=
  { t with provider := produce t.provider (S.SSL_do_handshake t.provider.ssl).2 }

structure HandshakeTaken (t : TlsConnection (Provider σ)) (calls : List SendCall) : Prop where
  flush : (S.SSL_do_handshake t.provider.ssl).1 = .wantReadOrWrite →
    FlushTaken kernel (handshaken S t)
  callsReach : (S.SSL_do_handshake t.provider.ssl).1 = .finished →
    CallsReach kernel S (onHandshakeFinished (handshaken S t)) calls
  flushAfterCalls : (S.SSL_do_handshake t.provider.ssl).1 = .finished → ∀ t',
    runCalls kernel S (onHandshakeFinished (handshaken S t)) calls = some t' → FlushTaken kernel t'

def MessagesTaken : List (List SendCall) → TlsConnection (Provider σ) → Prop
  | [], _ => True
  | calls :: messages, t =>
      let t := { t with provider := (readApplicationData kernel S t.provider).2 }
      CallsReach kernel S t calls ∧ ∀ t', runCalls kernel S t calls = some t' →
        MessagesTaken messages t'

def RecvTaken (calls : List SendCall) (messages : List (List SendCall))
    (t : TlsConnection (Provider σ)) : Prop :=
  ∀ ssl, S.BIO_write t.provider.ssl t.conn.readBuffer = some ssl →
    let t := { t with
      provider.ssl := ssl
      conn.readBuffer := retrieve t.conn.readBuffer (readableBytes t.conn.readBuffer) }
    if S.SSL_is_init_finished ssl then MessagesTaken kernel S messages t
    else HandshakeTaken kernel S t calls ∧ ∀ t',
      OpenSSLConnection.processHandshake kernel S calls t = some (true, t') →
        MessagesTaken kernel S messages t'

/-- The socket takes all bytes wherever nobody would ask for a write event. -/
def Taken (t : TlsConnection (Provider σ)) : LoopOp → Prop
  | .sending (.call inLoopThread call) => inLoopThread = true → CallReaches kernel S t call
  | .sending .runFunctor => ∀ call funcs, t.conn.funcs = call :: funcs → DirectTaken kernel S t call
  | .sending (.writeCallback calls) => ∀ done, completing (tlsProvider kernel S) t = some done →
      CallsReach kernel S done calls
  | .startEncryption calls => HandshakeTaken kernel S t calls
  | .readCallback result calls messages =>
      (TcpConnectionImpl.readCallback t.conn result).2 = true →
        RecvTaken kernel S calls messages
          { t with conn := (TcpConnectionImpl.readCallback t.conn result).1 }
  | .shutdown => True

variable {kernel S} {t t' : TlsConnection (Provider σ)}

section Provider

theorem processedSslError_sendTLSData (p : Provider σ) :
    (sendTLSData kernel p).processedSslError = p.processedSslError := by
  unfold OpenSSLProvider.sendTLSData
  split
  · rfl
  · split
    · rfl
    · rfl

theorem failed_handleSSLError (p : Provider σ) : Failed (handleSSLError kernel p) := rfl

theorem writeBuffer_sendTLSData {p : Provider σ} (h : TakesAll kernel p) :
    (sendTLSData kernel p).writeBuffer = p.writeBuffer := by
  obtain ⟨-, -, rest, hrest, -, hbuffer⟩ := sendTLSData_output kernel p
  rw [show taken kernel p.socket p.wbio = p.wbio from h, List.self_eq_append_right] at hrest
  rw [hbuffer, hrest, List.append_nil]

theorem sendData_cases (p : Provider σ) (msg : Bytes) :
    (sendData kernel S p msg = (.error .EAGAIN, p) ∧ p.writeBuffer ≠ []) ∨
    (p.writeBuffer = [] ∧ ((encrypt S p msg).1 = .ok () ∨ msg = []) ∧
      sendData kernel S p msg =
        (.done (limit msg), sendTLSData kernel (encrypt S p msg).2)) ∨
    ∃ e q, sendData kernel S p msg = (.error e, q) ∧ Failed q := by
  unfold sendData
  by_cases hbuffer : p.writeBuffer = []
  · rw [if_neg (by simp [hbuffer])]
    rcases encrypt S p msg with ⟨e | _, q⟩
    · by_cases hmsg : msg = []
      · refine .inr (.inl ⟨hbuffer, .inr hmsg, ?_⟩)
        exact if_neg (by simp [hmsg])
      · exact .inr (.inr ⟨e, handleSSLError kernel q, if_pos (by simp [hmsg]), rfl⟩)
    · exact .inr (.inl ⟨hbuffer, .inl rfl, rfl⟩)
  · exact .inl ⟨if_pos (by simp [hbuffer]), hbuffer⟩

theorem reports_tlsProvider : Reports (tlsProvider kernel S) Failed where
  of_sendData p data hfailed := by
    change ¬Failed (sendData kernel S p data).2 at hfailed
    change ¬Failed p ∧ ∀ e, (sendData kernel S p data).1 = .error e → e = .EAGAIN ∧ p.writeBuffer ≠ []
    rcases sendData_cases p data with ⟨heq, hbuffer⟩ | ⟨-, -, heq⟩ | ⟨e, q, heq, hq⟩
    · rw [heq] at hfailed ⊢
      refine ⟨hfailed, fun e he => ⟨?_, hbuffer⟩⟩
      exact (TcpConnectionImpl.IoResult.error.inj he).symm
    · rw [heq] at hfailed ⊢
      rw [Failed, processedSslError_sendTLSData] at hfailed
      exact ⟨hfailed, by simp⟩
    · rw [heq] at hfailed
      exact absurd hq hfailed
  of_sendBufferedData p hfailed hp := by
    apply hfailed
    change Failed (sendBufferedData kernel p).2
    unfold sendBufferedData
    split
    · exact hp
    · split
      · exact hp
      · split
        · exact hp
        · exact hp
  sentAll p hall := by
    change (sendBufferedData kernel p).1 = true at hall
    change (sendBufferedData kernel p).2.writeBuffer = []
    revert hall
    unfold sendBufferedData
    split
    · rename_i hempty
      exact fun _ => List.length_eq_zero_iff.mp hempty
    · split
      · exact fun h => absurd h (by simp)
      · split
        · exact fun h => absurd h (by simp)
        · exact fun _ => rfl

theorem sentOver_of_sendTaken {msg : Bytes} (h : SendTaken kernel S t.provider msg) :
    SentOver (tlsProvider kernel S) Failed t msg := by
  intro provider hanswer hconnected
  change sendData kernel S t.provider msg = _ at hanswer
  change provider.writeBuffer = []
  rcases sendData_cases t.provider msg with ⟨heq, -⟩ | ⟨hbuffer, hok, heq⟩ | ⟨e, q, heq, -⟩
  · rw [heq] at hanswer
    simp at hanswer
  · rw [heq, Prod.mk.injEq] at hanswer
    obtain ⟨hlen, rfl⟩ := hanswer
    have hlen : min msg.length maxSend = msg.length :=
      congrArg Fin.val (TcpConnectionImpl.IoResult.done.inj hlen)
    have htaken : TakesAll kernel (encrypt S t.provider msg).2 := by
      rcases h with hlong | htaken
      · omega
      · exact htaken hok
    rw [writeBuffer_sendTLSData htaken]
    exact hbuffer
  · rw [heq] at hanswer
    simp at hanswer

theorem callSent_of_directTaken {call : SendCall} (h : DirectTaken kernel S t call)
    (hconnected : Connected Failed t) (hwriting : t.conn.writing = false) :
    CallSent (tlsProvider kernel S) Failed t call := by
  cases call with
  | send msg => exact sentOver_of_sendTaken (h hconnected hwriting)
  | sendFile content offset length => exact h hconnected hwriting
  | sendStream chunks => trivial

theorem allSteps_callTaken {calls : List SendCall} (h : CallsReach kernel S t calls) :
    AllSteps (runCall (tlsProvider kernel S) true) (CallTaken (tlsProvider kernel S) Failed) t
      calls :=
  h.imp (fun _ => True) (fun _ _ _ _ _ _ => trivial)
    (fun _ _ _ hreaches hfree => callSent_of_directTaken (hreaches hfree)) trivial

theorem runCalls_keeps {calls : List SendCall} (h : CallsReach kernel S t calls)
    (hrun : runCalls kernel S t calls = some t') : Keeps (tlsProvider kernel S) Failed t t' :=
  foldlM_runCall_keeps reports_tlsProvider (allSteps_callTaken h) hrun

end Provider

section ReadCallback

theorem sendTLSData_keeps (h : FlushTaken kernel t) : Keeps (tlsProvider kernel S) Failed t
    { t with provider := sendTLSData kernel t.provider } := by
  intro hconnected
  have hfailed := hconnected.2
  rw [Failed, processedSslError_sendTLSData] at hfailed
  have hbefore : Connected Failed t := ⟨hconnected.1, hfailed⟩
  refine ⟨hbefore, fun hscheduled hpending => ?_⟩
  · rcases h hbefore with hwriting | htaken
    · exact hwriting
    · apply hscheduled
      change (sendTLSData kernel t.provider).writeBuffer ≠ [] ∨ _ at hpending
      rwa [writeBuffer_sendTLSData htaken] at hpending

theorem handleSSLError_keeps (s : TlsConnection (Provider σ)) (p : Provider σ) :
    Keeps (tlsProvider kernel S) Failed s { t with provider := handleSSLError kernel p } :=
  fun hconnected => absurd (failed_handleSSLError p) hconnected.2

theorem handshaken_keeps (t : TlsConnection (Provider σ)) :
    Keeps (tlsProvider kernel S) Failed t (handshaken S t) := fun h => ⟨h, id⟩

theorem processHandshake_keeps {calls : List SendCall} (h : HandshakeTaken kernel S t calls)
    {handshakeDone : Bool}
    (hrun : OpenSSLConnection.processHandshake kernel S calls t = some (handshakeDone, t')) :
    Keeps (tlsProvider kernel S) Failed t t' := by
  unfold OpenSSLConnection.processHandshake OpenSSLProvider.processHandshake at hrun
  simp only at hrun
  have hhandshaken : Keeps (tlsProvider kernel S) Failed t (handshaken S t) := handshaken_keeps t
  cases hresult : (S.SSL_do_handshake t.provider.ssl).1 with
  | finished =>
      simp only [hresult] at hrun
      obtain ⟨called, hcalls, heq⟩ := Option.map_eq_some_iff.mp hrun
      obtain rfl := (Prod.mk.inj heq).2
      have hfinished : Keeps (tlsProvider kernel S) Failed (handshaken S t)
          (onHandshakeFinished (handshaken S t)) := fun h => ⟨h, id⟩
      have hcalled := runCalls_keeps (h.callsReach hresult) hcalls
      exact ((hhandshaken.trans hfinished).trans hcalled).trans
        (sendTLSData_keeps (h.flushAfterCalls hresult called hcalls))
  | noApplicationProtocol =>
      simp only [hresult, Option.some.injEq, Prod.mk.injEq] at hrun
      exact hrun.2 ▸ handleSSLError_keeps t _
  | invalidCertificate =>
      simp only [hresult, Option.some.injEq, Prod.mk.injEq] at hrun
      exact hrun.2 ▸ handleSSLError_keeps t _
  | wantReadOrWrite =>
      simp only [hresult, Option.some.injEq, Prod.mk.injEq] at hrun
      exact hrun.2 ▸ hhandshaken.trans (sendTLSData_keeps (h.flush hresult))
  | failed =>
      by_cases hagain : (produce t.provider
          (S.SSL_do_handshake t.provider.ssl).2).processedHandshakeError = true
      · simp only [hresult, if_pos hagain, Option.some.injEq, Prod.mk.injEq] at hrun
        exact hrun.2 ▸ hhandshaken
      · simp only [hresult, if_neg hagain, Option.some.injEq, Prod.mk.injEq] at hrun
        exact hrun.2 ▸ handleSSLError_keeps t _

variable (kernel S) in
theorem readApplicationData_keeps (t : TlsConnection (Provider σ)) :
    Keeps (tlsProvider kernel S) Failed t
      { t with provider := (readApplicationData kernel S t.provider).2 } := by
  unfold readApplicationData
  simp only
  split
  · exact fun h => ⟨h, id⟩
  · exact fun h => ⟨h, id⟩
  · exact fun h => ⟨h, id⟩
  · exact handleSSLError_keeps t _

theorem processApplicationData_keeps {messages : List (List SendCall)}
    (h : MessagesTaken kernel S messages t)
    (hrun : processApplicationData kernel S messages t = some t') :
    Keeps (tlsProvider kernel S) Failed t t' := by
  induction messages generalizing t with
  | nil =>
      have hread := readApplicationData_keeps kernel S t
      unfold processApplicationData at hrun
      rcases hanswer : readApplicationData kernel S t.provider with ⟨_ | _ | _, provider⟩
      · simp [hanswer] at hrun
      · rw [hanswer] at hrun hread
        obtain rfl := Option.some.inj hrun
        exact hread.trans (shutdown_keeps _)
      · rw [hanswer] at hrun hread
        obtain rfl := Option.some.inj hrun
        exact hread
  | cons calls messages ih =>
      have hread := readApplicationData_keeps kernel S t
      obtain ⟨hcalls, hmessages⟩ := h
      unfold processApplicationData at hrun
      rcases hanswer : readApplicationData kernel S t.provider with ⟨_ | _ | _, provider⟩
      · rw [hanswer] at hrun hread hcalls hmessages
        obtain ⟨called, hcalled, hrest⟩ := Option.bind_eq_some_iff.mp hrun
        exact (hread.trans (runCalls_keeps hcalls hcalled)).trans
          (ih (hmessages called hcalled) hrest)
      · rw [hanswer] at hrun hread
        obtain rfl := Option.some.inj hrun
        exact hread.trans (shutdown_keeps _)
      · rw [hanswer] at hrun hread
        obtain rfl := Option.some.inj hrun
        exact hread

theorem recvData_keeps {calls : List SendCall} {messages : List (List SendCall)}
    (h : RecvTaken kernel S calls messages t)
    (hrun : recvData kernel S calls messages t = some t') :
    Keeps (tlsProvider kernel S) Failed t t' := by
  unfold recvData at hrun
  cases hssl : S.BIO_write t.provider.ssl t.conn.readBuffer with
  | none =>
      simp only [hssl, Option.some.injEq] at hrun
      exact hrun ▸ handleSSLError_keeps t _
  | some ssl =>
      simp only [hssl] at hrun
      have htaken := h ssl hssl
      have hreceived : Keeps (tlsProvider kernel S) Failed t { t with
          provider.ssl := ssl
          conn.readBuffer := retrieve t.conn.readBuffer (readableBytes t.conn.readBuffer) } :=
        fun h => ⟨h, id⟩
      by_cases hfinished : S.SSL_is_init_finished ssl = true
      · simp only [if_pos hfinished] at hrun htaken
        exact hreceived.trans (processApplicationData_keeps htaken hrun)
      · simp only [if_neg hfinished] at hrun htaken
        obtain ⟨⟨handshakeDone, called⟩, hhandshake, hrest⟩ := Option.bind_eq_some_iff.mp hrun
        have hshaken := hreceived.trans (processHandshake_keeps htaken.1 hhandshake)
        cases handshakeDone with
        | false =>
            obtain rfl := Option.some.inj hrest
            exact hshaken
        | true => exact hshaken.trans (processApplicationData_keeps (htaken.2 called hhandshake) hrest)

variable (kernel S) in
theorem readSocket_keeps (t : TlsConnection (Provider σ)) (result : TcpConnectionImpl.ReadResult) :
    Keeps (tlsProvider kernel S) Failed t
      { t with conn := (TcpConnectionImpl.readCallback t.conn result).1 } := by
  have hclosed : Keeps (tlsProvider kernel S) Failed t
      { t with conn := TcpConnectionImpl.handleClose t.conn } := by
    intro hconnected
    exact absurd hconnected.1 (by
      simp [TcpConnectionImpl.handleClose, TcpConnectionImpl.log, TcpConnectionImpl.disableAll])
  unfold TcpConnectionImpl.readCallback
  split
  · exact hclosed
  · exact fun h => ⟨h, id⟩
  · split
    · exact .refl t
    · exact hclosed

theorem readCallback_keeps {result : TcpConnectionImpl.ReadResult} {calls : List SendCall}
    {messages : List (List SendCall)}
    (h : (TcpConnectionImpl.readCallback t.conn result).2 = true → RecvTaken kernel S calls messages
      { t with conn := (TcpConnectionImpl.readCallback t.conn result).1 })
    (hrun : readCallback kernel S result calls messages t = some t') :
    Keeps (tlsProvider kernel S) Failed t t' := by
  have hread := readSocket_keeps kernel S t result
  unfold readCallback at hrun
  rcases hanswer : TcpConnectionImpl.readCallback t.conn result with ⟨conn, _ | _⟩
  · rw [hanswer] at hrun hread
    obtain rfl := Option.some.inj hrun
    exact hread
  · rw [hanswer] at hrun hread h
    exact hread.trans (recvData_keeps (h rfl) hrun)

end ReadCallback

section Run

theorem step_keeps {op : LoopOp} (h : Taken kernel S t op) (hstep : step kernel S t op = some t') :
    Keeps (tlsProvider kernel S) Failed t t' := by
  cases op with
  | sending op =>
      cases op with
      | call inLoopThread call =>
          exact runCall_keeps reports_tlsProvider
            (fun hloop hfree => callSent_of_directTaken (h hloop hfree)) hstep
      | runFunctor =>
          exact runFunctor_keeps reports_tlsProvider
            (fun call funcs hfuncs => callSent_of_directTaken (h call funcs hfuncs)) hstep
      | writeCallback calls =>
          exact writeCallback_keeps reports_tlsProvider
            (fun done hdone => allSteps_callTaken (h done hdone)) hstep
  | startEncryption calls =>
      obtain ⟨⟨handshakeDone, called⟩, hhandshake, rfl⟩ := Option.map_eq_some_iff.mp hstep
      exact processHandshake_keeps h hhandshake
  | readCallback result calls messages => exact readCallback_keeps h hstep
  | shutdown =>
      obtain rfl := Option.some.inj hstep
      exact shutdown_keeps t

/-- In a run in which the socket takes all bytes wherever nobody would ask for a write event, what
is pending is scheduled whenever an operation returns. -/
theorem allSteps_staysScheduled (highWaterMarkLen : Option Nat) (ssl : σ) (ops : List LoopOp)
    (h : AllSteps (step kernel S) (Taken kernel S) (established highWaterMarkLen ssl) ops) :
    AllSteps (step kernel S) (StaysScheduled kernel S) (established highWaterMarkLen ssl) ops := by
  have hkept : ∀ t op t', (Connected Failed t → Scheduled (tlsProvider kernel S) t) →
      Taken kernel S t op → step kernel S t op = some t' →
      Connected Failed t' → Scheduled (tlsProvider kernel S) t' := by
    intro t op t' hscheduled htaken hstep hconnected
    obtain ⟨hconnected', hkeeps⟩ := step_keeps htaken hstep hconnected
    exact hkeeps (hscheduled hconnected')
  apply h.imp (fun t => Connected Failed t → Scheduled (tlsProvider kernel S) t) hkept
  · intro t op hscheduled htaken t' hstep
    exact hkept t op t' hscheduled htaken hstep
  · intro _ hpending
    exact absurd hpending (by
      simp [established, tlsProvider, newTLSProvider, TcpConnectionImpl.established])

def nullCipher : OpenSSL Unit where
  BIO_write _ _ := some ()
  SSL_is_init_finished _ := true
  SSL_do_handshake _ := (.finished, [], ())
  SSL_read _ := (.noData, [], ())
  SSL_write _ data := (.ok (), data, ())
  SSL_shutdown _ := ([], ())

def wideKernel : Kernel := fun _ len => .done (Fin.last len)

def helloAndMessage : List LoopOp :=
  [.startEncryption [], .sending (.call true (.send [1, 2]))]

def helloAndFile : List LoopOp :=
  helloAndMessage ++ [.sending (.call true (.sendFile [3, 4, 5] 1 2))]

theorem allSteps_staysScheduled_wideKernel :
    AllSteps (step wideKernel nullCipher) (Taken wideKernel nullCipher) (established none ())
      helloAndFile ∧
    AllSteps (step wideKernel nullCipher) (StaysScheduled wideKernel nullCipher)
      (established none ()) helloAndFile := by
  have htaken : AllSteps (step wideKernel nullCipher) (Taken wideKernel nullCipher)
      (established none ()) helloAndFile := by
    refine ⟨⟨?_, ?_, ?_⟩, fun t ht => ⟨?_, fun t' ht' => ⟨?_, fun _ _ => trivial⟩⟩⟩
    · intro hwants
      exact absurd (show HandshakeResult.finished = .wantReadOrWrite from hwants) (by decide)
    · exact fun _ => trivial
    · intro _ t ht _
      obtain rfl := Option.some.inj ht
      exact .inr rfl
    · obtain rfl := Option.some.inj ht
      exact fun _ _ _ _ => .inr fun _ => rfl
    · exact fun _ _ _ _ => NodeStops.of_whole (by decide)
  exact ⟨htaken, allSteps_staysScheduled none () helloAndFile htaken⟩

/-- The first message leaves its second byte in `writeBuffer_`. -/
theorem not_staysScheduled_narrowAtFirst :
    ¬∀ ops, AllSteps (step RecordOrder.narrowAtFirst nullCipher)
      (StaysScheduled RecordOrder.narrowAtFirst nullCipher) (established none ()) ops := by
  intro h
  obtain ⟨-, hrest⟩ := h helloAndMessage
  obtain ⟨hsent, -⟩ := hrest _ rfl
  have hwriting := hsent _ rfl ⟨rfl, Bool.false_ne_true⟩ (.inl (by decide))
  exact absurd hwriting (by decide)

end Run

end Cooper.CiphertextSchedule

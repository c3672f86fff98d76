import Cooper.OpenSSLProvider
import Cooper.StepRun

namespace Cooper.RecordOrder

open Cooper.MsgBuffer
open Cooper.TcpConnectionImpl (Kernel Socket IoResult)
open Cooper.OpenSSLProvider
open Cooper.StepRun

variable {σ : Type*} (kernel : Kernel) (S : OpenSSL σ)

/-- What a provider does at once, from a call of the connection or between two calls back into it.
-/
inductive ProviderOp
  | processHandshake
  /-- The rest of `processHandshake` after `handshakeCallback_`. -/
  | sendTLSData
  | bioWrite (data : Bytes)
  | readApplicationData
  | sendData (data : Bytes)
  | sendBufferedData
  | handleSSLError
  | close
  deriving DecidableEq

def step (p : Provider σ) : ProviderOp → Provider σ
  | .processHandshake => (processHandshake kernel S p).2
  | .sendTLSData => sendTLSData kernel p
  | .bioWrite data => bioWrite kernel S p data
  | .readApplicationData => (readApplicationData kernel S p).2
  | .sendData data => (sendData kernel S p data).2
  | .sendBufferedData => (sendBufferedData kernel p).2
  | .handleSSLError => handleSSLError kernel p
  | .close => close kernel S p

/-- What the socket has taken, what is buffered and what `wbio_` still holds are the bytes that
OpenSSL has produced, in this order. -/
def Ordered (p : Provider σ) : Prop :=
  p.socket.written ++ (p.writeBuffer ++ p.wbio) = p.produced

def taken (socket : Socket) (data : Bytes) : Bytes :=
  match (socket.write kernel data).1 with
  | .ok n => data.take n
  | .error _ => []

/-- The provider when the step comes to `sendTLSData`, if it does. -/
def atSendTLSData (p : Provider σ) : ProviderOp → Option (Provider σ)
  | .processHandshake =>
      let answer := S.SSL_do_handshake p.ssl
      let p := produce p answer.2
      match answer.1 with
      | .noApplicationProtocol | .wantReadOrWrite => some p
      | .invalidCertificate => some (produce p (S.SSL_shutdown p.ssl))
      | .finished | .failed => none
  | .sendTLSData | .handleSSLError => some p
  | .bioWrite data => if (S.BIO_write p.ssl data).isSome then none else some p
  | .readApplicationData =>
      let answer := S.SSL_read p.ssl
      if answer.1 = .failed then some (produce p answer.2) else none
  | .sendData data => if p.writeBuffer = [] then some (encrypt S p data).2 else none
  | .sendBufferedData => none
  | .close =>
      if S.SSL_is_init_finished p.ssl then some (produce p (S.SSL_shutdown p.ssl)) else none

/-- What the socket takes of the new bytes may as well come before the buffered ones. So it is when
nothing is buffered, and when the socket takes nothing. -/
def TakenInOrder (p : Provider σ) : Prop :=
  taken kernel p.socket p.wbio ++ p.writeBuffer = p.writeBuffer ++ taken kernel p.socket p.wbio

/-- The step does not come to `sendTLSData` unless the socket takes bytes in order. -/
def InOrder (p : Provider σ) (op : ProviderOp) : Prop :=
  ∀ q, atSendTLSData S p op = some q → TakenInOrder kernel q

variable {kernel S} {p : Provider σ}

theorem write_written (kernel : Kernel) (socket : Socket) (data : Bytes) :
    (socket.write kernel data).2.written = socket.written ++ taken kernel socket data := by
  unfold taken Socket.write
  split
  · exact (List.append_nil _).symm
  · split
    · rfl
    · exact (List.append_nil _).symm

theorem sendTLSData_output (kernel : Kernel) (p : Provider σ) :
    (sendTLSData kernel p).produced = p.produced ∧ (sendTLSData kernel p).wbio = [] ∧
    ∃ rest, p.wbio = taken kernel p.socket p.wbio ++ rest ∧
      (sendTLSData kernel p).socket.written = p.socket.written ++ taken kernel p.socket p.wbio ∧
      (sendTLSData kernel p).writeBuffer = p.writeBuffer ++ rest := by
  have hwritten := write_written kernel p.socket p.wbio
  unfold OpenSSLProvider.sendTLSData
  by_cases hwbio : p.wbio = []
  · have htaken : taken kernel p.socket p.wbio = [] := by
      unfold taken
      split <;> simp [hwbio]
    rw [if_pos hwbio, htaken]
    exact ⟨rfl, hwbio, [], hwbio, (List.append_nil _).symm, (List.append_nil _).symm⟩
  · rw [if_neg hwbio]
    rcases hwrite : p.socket.write kernel p.wbio with ⟨e | n, socket⟩
    · have htaken : taken kernel p.socket p.wbio = [] := by rw [taken, hwrite]
      rw [hwrite, htaken] at hwritten
      rw [htaken]
      exact ⟨rfl, rfl, p.wbio, rfl, hwritten, rfl⟩
    · have htaken : taken kernel p.socket p.wbio = p.wbio.take n := by rw [taken, hwrite]
      rw [hwrite, htaken] at hwritten
      rw [htaken]
      exact ⟨rfl, rfl, p.wbio.drop n, (List.take_append_drop ..).symm, hwritten, rfl⟩

theorem ordered_sendTLSData_iff (h : Ordered p) :
    Ordered (sendTLSData kernel p) ↔ TakenInOrder kernel p := by
  obtain ⟨hproduced, hwbio, rest, hrest, hwritten, hbuffer⟩ :=
    sendTLSData_output kernel p
  rw [Ordered, hproduced, hwbio, hwritten, hbuffer, ← h, TakenInOrder]
  generalize taken kernel p.socket p.wbio = out at hrest
  rw [hrest, List.append_nil, List.append_assoc, List.append_cancel_left_eq, ← List.append_assoc,
    ← List.append_assoc, List.append_cancel_right_eq]

theorem Ordered.produce (h : Ordered p) (answer : Bytes × σ) : Ordered (produce p answer) := by
  rw [Ordered, OpenSSLProvider.produce, ← h]
  simp only [List.append_assoc]

theorem Ordered.sendBufferedData (h : Ordered p) : Ordered (sendBufferedData kernel p).2 := by
  have hwritten := write_written kernel p.socket p.writeBuffer
  unfold OpenSSLProvider.sendBufferedData
  split
  · exact h
  · rcases hwrite : p.socket.write kernel p.writeBuffer with ⟨e | n, socket⟩
    · rw [hwrite, taken, hwrite] at hwritten
      rw [Ordered, hwritten, List.append_nil]
      exact h
    · rw [hwrite, taken, hwrite] at hwritten
      have hsplit : Ordered { p with socket, writeBuffer := p.writeBuffer.drop n } := by
        rw [Ordered, hwritten, List.append_assoc, ← List.append_assoc (p.writeBuffer.take n),
          List.take_append_drop]
        exact h
      simp only
      split
      · rw [retrieve_eq]
        exact hsplit
      · rename_i hall
        rw [not_not, readableBytes_eq] at hall
        rwa [hall, List.drop_length] at hsplit

/-- A step keeps the order exactly when it comes to `sendTLSData` with bytes that are in order. -/
theorem ordered_step_iff (h : Ordered p) (op : ProviderOp) :
    Ordered (step kernel S p op) ↔ InOrder kernel S p op := by
  have hsend : ∀ q : Provider σ, Ordered q → (Ordered (sendTLSData kernel q) ↔
      ∀ q', some q = some q' → TakenInOrder kernel q') := by
    intro q hq
    rw [ordered_sendTLSData_iff hq]
    exact ⟨fun hin q' heq => Option.some.inj heq ▸ hin, fun hin => hin q rfl⟩
  have hkeep : ∀ q : Provider σ, Ordered q → (Ordered q ↔
      ∀ q' : Provider σ, none = some q' → TakenInOrder kernel q') :=
    fun q hq => iff_of_true hq (by simp)
  cases op with
  | processHandshake =>
      unfold InOrder
      simp only [step, OpenSSLProvider.processHandshake, atSendTLSData]
      have hproduced := h.produce (S.SSL_do_handshake p.ssl).2
      generalize OpenSSLProvider.produce p (S.SSL_do_handshake p.ssl).2 = q at hproduced
      rcases (S.SSL_do_handshake p.ssl).1 with _ | _ | _ | _ | _
      · exact hkeep q hproduced
      · exact hsend q hproduced
      · exact hsend _ (hproduced.produce _)
      · exact hsend q hproduced
      · simp only
        split
        · exact hkeep q hproduced
        · exact hkeep _ hproduced
  | sendTLSData => exact hsend p h
  | bioWrite data =>
      unfold InOrder
      simp only [step, bioWrite, atSendTLSData]
      rcases S.BIO_write p.ssl data with _ | ssl
      · exact hsend p h
      · exact hkeep _ h
  | readApplicationData =>
      unfold InOrder
      simp only [step, readApplicationData, atSendTLSData]
      have hproduced := h.produce (S.SSL_read p.ssl).2
      generalize OpenSSLProvider.produce p (S.SSL_read p.ssl).2 = q at hproduced
      rcases (S.SSL_read p.ssl).1 with _ | _ | _ | _
      · exact hkeep q hproduced
      · exact hkeep q hproduced
      · exact hkeep q hproduced
      · exact hsend q hproduced
  | sendData data =>
      unfold InOrder
      simp only [step, sendData, atSendTLSData, readableBytes_eq, List.length_eq_zero_iff, ne_eq]
      by_cases hbuffer : p.writeBuffer = []
      · rw [if_neg (not_not.mpr hbuffer), if_pos hbuffer]
        have hproduced : Ordered (encrypt S p data).2 := h.produce _
        rcases hanswer : encrypt S p data with ⟨e | _, q⟩
        · rw [hanswer] at hproduced
          simp only
          split
          · exact hsend q hproduced
          · exact hsend q hproduced
        · rw [hanswer] at hproduced
          exact hsend q hproduced
      · rw [if_pos hbuffer, if_neg hbuffer]
        exact hkeep p h
  | sendBufferedData => exact hkeep _ h.sendBufferedData
  | handleSSLError => exact hsend p h
  | close =>
      unfold InOrder
      simp only [step, OpenSSLProvider.close, atSendTLSData]
      split
      · exact hsend _ (h.produce _)
      · exact hkeep p h

/-- In every run, all states are ordered exactly when each step that comes to `sendTLSData` finds
nothing buffered, or bytes that the socket takes in order. -/
theorem allSteps_ordered_iff (kernel : Kernel) (S : OpenSSL σ) (ssl : σ) (ops : List ProviderOp) :
    AllSteps (fun p op => some (step kernel S p op)) (fun p op => Ordered (step kernel S p op))
        (newTLSProvider ssl) ops ↔
      AllSteps (fun p op => some (step kernel S p op)) (InOrder kernel S) (newTLSProvider ssl)
        ops := by
  apply allSteps_iff_of_kept Ordered
  · intro p op p' _ hordered hstep
    obtain rfl := Option.some.inj hstep
    exact hordered
  · intro p op h
    exact ordered_step_iff h op
  · rfl

section AlertAfterFlight

def narrowAtFirst : Kernel :=
  fun calls len => .done ⟨if calls = 0 then min 1 len else len, by split <;> omega⟩

def failingHandshake : OpenSSL Nat where
  BIO_write calls _ := some calls
  SSL_is_init_finished _ := false
  SSL_do_handshake calls :=
    if calls = 0 then (.wantReadOrWrite, [1, 2], 1) else (.failed, [3], calls + 1)
  SSL_read calls := (.failed, [], calls)
  SSL_write calls _ := (.error (.other 0), [], calls)
  SSL_shutdown calls := ([], calls)

/-- The alert overtakes the second byte of the flight. -/
theorem not_ordered_failingHandshake :
    ¬∀ ops : List ProviderOp,
      Ordered (ops.foldl (step narrowAtFirst failingHandshake) (newTLSProvider 0)) := by
  intro h
  have hordered := h [.processHandshake, .bioWrite [0], .processHandshake, .handleSSLError]
  exact absurd (show ([1, 3] : Bytes) ++ ([2] ++ []) = [1, 2, 3] from hordered) (by decide)

end AlertAfterFlight

end Cooper.RecordOrder

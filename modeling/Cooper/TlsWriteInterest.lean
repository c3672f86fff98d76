import Cooper.StepRun
import Cooper.TlsPlaintext

namespace Cooper.TlsWriteInterest

open Cooper.MsgBuffer
open Cooper.StepRun
open Cooper.TcpConnectionImpl (Connection SendCall BufferNode Errno IoResult)
open Cooper.Tls
open Cooper.WriteInterest (nodeDone)

variable {π : Type*}

/-- A provider fails for good. Before, its only error is `EAGAIN`, when something is buffered. -/
structure Reports (P : TLSProvider π) (failed : π → Prop) : Prop where
  of_sendData : ∀ p data, ¬failed (P.sendData p data).2 → ¬failed p ∧
    ∀ e, (P.sendData p data).1 = .error e → e = .EAGAIN ∧ P.getBufferedData p ≠ []
  of_sendBufferedData : ∀ p, ¬failed (P.sendBufferedData p).2 → ¬failed p
  /-- It answers true when nothing is left. -/
  sentAll : ∀ p, (P.sendBufferedData p).1 = true → P.getBufferedData (P.sendBufferedData p).2 = []

variable (P : TLSProvider π) (failed : π → Prop)

/-- The error callback of the provider, `onSslError`, closes the connection. -/
def Connected (t : TlsConnection π) : Prop := t.conn.status = .Connected ∧ ¬failed t.provider

/-- What is pending, in the connection or in its provider, will be sent. -/
def Scheduled (t : TlsConnection π) : Prop :=
  P.getBufferedData t.provider ≠ [] ∨ t.conn.writeBufferList ≠ [] → t.conn.writing = true

/-- A connection that is still connected has stayed connected, and has kept its write interest. -/
def Follows (t t' : TlsConnection π) : Prop :=
  Connected failed t' → Connected failed t ∧ (t.conn.writing = true → t'.conn.writing = true)

/-- A connection that is still connected has stayed connected, and has write events enabled. -/
def Wakes (t t' : TlsConnection π) : Prop :=
  Connected failed t' → Connected failed t ∧ t'.conn.writing = true

/-- A connection that is still connected has stayed connected, and its bytes have stayed scheduled.
-/
def Keeps (t t' : TlsConnection π) : Prop :=
  Connected failed t' → Connected failed t ∧ (Scheduled P t → Scheduled P t')

variable {P failed} {t t' t'' : TlsConnection π}

theorem Follows.refl (t : TlsConnection π) : Follows failed t t := fun h => ⟨h, id⟩

theorem Follows.trans (h : Follows failed t t') (h' : Follows failed t' t'') :
    Follows failed t t'' := by
  intro hconnected
  obtain ⟨hconnected', hwriting'⟩ := h' hconnected
  obtain ⟨hconnected'', hwriting⟩ := h hconnected'
  exact ⟨hconnected'', hwriting' ∘ hwriting⟩

theorem Wakes.follows (h : Wakes failed t t') : Follows failed t t' :=
  fun hconnected => ⟨(h hconnected).1, fun _ => (h hconnected).2⟩

theorem Wakes.keeps (h : Wakes failed t t') : Keeps P failed t t' :=
  fun hconnected => ⟨(h hconnected).1, fun _ _ => (h hconnected).2⟩

theorem Follows.wakes (h : Follows failed t t') (h' : Wakes failed t' t'') :
    Wakes failed t t'' := by
  intro hconnected
  obtain ⟨hconnected', hwriting⟩ := h' hconnected
  exact ⟨(h hconnected').1, hwriting⟩

theorem Keeps.refl (t : TlsConnection π) : Keeps P failed t t := fun h => ⟨h, id⟩

theorem Keeps.trans (h : Keeps P failed t t') (h' : Keeps P failed t' t'') :
    Keeps P failed t t'' := by
  intro hconnected
  obtain ⟨hconnected', hscheduled'⟩ := h' hconnected
  obtain ⟨hconnected'', hscheduled⟩ := h hconnected'
  exact ⟨hconnected'', hscheduled' ∘ hscheduled⟩

theorem Follows.keeps (h : Follows failed t t') (hwriting : t.conn.writing = true) :
    Keeps P failed t t' :=
  fun hconnected => ⟨(h hconnected).1, fun _ _ => (h hconnected).2 hwriting⟩

section SendFileInLoop

theorem writeInLoop_cases (t : TlsConnection π) (hP : Reports P failed) (data : Bytes) :
    (∃ n provider, P.sendData t.provider data = (.done n, provider) ∧
      writeInLoop P t data =
        (.ok n, { t with provider, plaintext := t.plaintext ++ data.take n }) ∧
      (¬failed provider → ¬failed t.provider)) ∨
    (∃ e provider, writeInLoop P t data = (.error e, { t with provider }) ∧
      (¬failed provider →
        ¬failed t.provider ∧ e = .EAGAIN ∧ P.getBufferedData t.provider ≠ [])) := by
  have hreports := hP.of_sendData t.provider data
  unfold writeInLoop
  rcases hanswer : P.sendData t.provider data with ⟨n | e, provider⟩
  · rw [hanswer] at hreports
    exact .inl ⟨n, provider, rfl, rfl, fun h => (hreports h).1⟩
  · rw [hanswer] at hreports
    exact .inr ⟨e, provider, rfl, fun h => ⟨(hreports h).1, (hreports h).2 e rfl⟩⟩

theorem writeFileBuffer_cases (t : TlsConnection π) (hP : Reports P failed) (toSend : Nat) :
    (∃ t', writeFileBuffer P t toSend = .inl t' ∧ Follows failed t t') ∨
    (∃ t' toSend', writeFileBuffer P t toSend = .inr (t', toSend') ∧ Wakes failed t t') := by
  unfold writeFileBuffer
  rcases writeInLoop_cases t hP t.conn.fileBuffer with
    ⟨n, provider, -, hw, hkept⟩ | ⟨e, provider, hw, hkept⟩
  · rw [hw]
    simp only
    split
    · exact .inr ⟨_, _, rfl, fun h => ⟨⟨h.1, hkept h.2⟩, rfl⟩⟩
    · exact .inl ⟨_, rfl, fun h => ⟨⟨h.1, hkept h.2⟩, id⟩⟩
  · rw [hw]
    simp only
    split
    · rename_i hfatal
      exact .inr ⟨_, _, rfl, fun h => absurd (hkept h.2).2.1 hfatal⟩
    · exact .inr ⟨_, _, rfl, fun h => ⟨⟨h.1, (hkept h.2).1⟩, rfl⟩⟩

theorem streamLoop_wakes (hP : Reports P failed) (toSend : Nat) (chunks : List Bytes)
    (t : TlsConnection π) : Wakes failed t (streamLoop P toSend chunks t).1 := by
  induction chunks generalizing t with
  | nil => exact fun h => ⟨h, rfl⟩
  | cons chunk chunks ih =>
      rw [streamLoop]
      split
      · exact fun h => ⟨h, rfl⟩
      · have hfetched : Follows failed t { t with conn.fileBuffer := chunk } := fun h => ⟨h, id⟩
        rcases writeFileBuffer_cases { t with conn.fileBuffer := chunk } hP toSend with
          ⟨t', hw, hfollows⟩ | ⟨t', toSend', hw, hwakes⟩
        · rw [hw]
          exact (hfetched.trans hfollows).wakes (ih t')
        · rw [hw]
          exact hfetched.wakes hwakes

theorem sendStreamInLoop_wakes (hP : Reports P failed) (t : TlsConnection π) (toSend : Nat)
    (chunks : List Bytes) : Wakes failed t (sendStreamInLoop P t toSend chunks).1 := by
  have hloop : ∀ t' : TlsConnection π, Wakes failed t'
      (if toSend = 0 then ({ t' with conn := TcpConnectionImpl.enableWriting t'.conn },
        BufferNode.stream 0 chunks) else streamLoop P toSend chunks t').1 := by
    intro t'
    split
    · exact fun h => ⟨h, rfl⟩
    · exact streamLoop_wakes hP toSend chunks t'
  unfold sendStreamInLoop
  split
  · exact hloop t
  · rcases writeFileBuffer_cases t hP toSend with ⟨t', hw, hfollows⟩ | ⟨t', toSend', hw, hwakes⟩
    · rw [hw]
      exact hfollows.wakes (hloop t')
    · rw [hw]
      exact hwakes

variable (P) in
/-- The loop for a file comes to its end with bytes left to send, when the provider has taken all
that was read before. -/
inductive MeetsEnd (content : Bytes) (size : Nat) : (offset toSend : Nat) → π → Prop
  | atEnd {offset toSend : Nat} {p : π} (hpos : toSend ≠ 0)
      (hend : (content.drop offset).take (min size toSend) = []) :
      MeetsEnd content size offset toSend p
  | taken {offset toSend : Nat} {p provider : π} {chunk : Bytes} (hne : chunk ≠ [])
      (hchunk : (content.drop offset).take (min size toSend) = chunk)
      (hsent : P.sendData p chunk = (.done (Fin.last chunk.length), provider))
      (hrest : MeetsEnd content size (offset + chunk.length) (toSend - chunk.length) provider) :
      MeetsEnd content size offset toSend p

theorem MeetsEnd.truncated {content : Bytes} {size offset toSend : Nat} {p : π} (hsize : 0 < size)
    (h : MeetsEnd P content size offset toSend p) : content.length < offset + toSend := by
  induction h with
  | atEnd hpos hend =>
      have hlength := congrArg List.length hend
      rw [List.length_take, List.length_drop, List.length_nil] at hlength
      omega
  | taken hne hchunk hsent hrest ih =>
      have hlength := congrArg List.length hchunk
      have hpos := List.length_pos_iff.mpr hne
      rw [List.length_take, List.length_drop] at hlength
      omega

/-- The loop leaves write events disabled only where it meets the end of the file. -/
theorem fileLoop_follows (hP : Reports P failed) (content : Bytes) (offset toSend : Nat)
    (t : TlsConnection π) :
    Follows failed t (fileLoop P content offset toSend t).1 ∧
      (¬MeetsEnd P content t.conn.fileBuffer.length offset toSend t.provider →
        Wakes failed t (fileLoop P content offset toSend t).1) := by
  induction toSend using Nat.strong_induction_on generalizing offset t with
  | _ toSend ih =>
      have hends : ∀ t', Wakes failed t t' → Follows failed t t' ∧
          (¬MeetsEnd P content t.conn.fileBuffer.length offset toSend t.provider →
            Wakes failed t t') :=
        fun t' hwakes => ⟨hwakes.follows, fun _ => hwakes⟩
      rw [fileLoop]
      split
      · exact hends _ fun h => ⟨h, rfl⟩
      · rename_i hpos
        generalize hchunk : readChunk t content offset toSend = chunk
        have hlength : chunk.length ≤ t.conn.fileBuffer.length := by
          rw [← hchunk, readChunk, List.length_take]
          exact (Nat.min_le_left _ _).trans (Nat.min_le_left _ _)
        simp only
        split
        · rename_i hend
          exact ⟨.refl t, fun hstops => absurd (.atEnd hpos (hchunk.trans hend)) hstops⟩
        · rename_i hne
          have hread : Follows failed t { t with
              conn.fileBuffer := chunk ++ t.conn.fileBuffer.drop chunk.length } :=
            fun h => ⟨h, id⟩
          rcases writeInLoop_cases { t with
              conn.fileBuffer := chunk ++ t.conn.fileBuffer.drop chunk.length } hP chunk with
            ⟨n, provider, hanswer, hw, hkept⟩ | ⟨e, provider, hw, hkept⟩
          · rw [hw]
            simp only
            split
            · exact hends _ fun h => ⟨⟨h.1, hkept h.2⟩, rfl⟩
            · rename_i hall
              obtain rfl : n = Fin.last chunk.length := Fin.ext (by simp only [Fin.val_last]; omega)
              have hn := List.length_pos_iff.mpr hne
              simp only [Fin.val_last]
              obtain ⟨hfollows, hwakes⟩ := ih (toSend - chunk.length) (by omega)
                (offset + chunk.length) { t with
                  provider
                  plaintext := t.plaintext ++ chunk.take chunk.length
                  conn.fileBuffer := chunk ++ t.conn.fileBuffer.drop chunk.length }
              have hsent : Follows failed t { t with
                  provider
                  plaintext := t.plaintext ++ chunk.take chunk.length
                  conn.fileBuffer := chunk ++ t.conn.fileBuffer.drop chunk.length } :=
                fun h => ⟨⟨h.1, hkept h.2⟩, id⟩
              refine ⟨hsent.trans hfollows, fun hstops => hsent.wakes (hwakes fun hmeets => ?_)⟩
              have hsize : (chunk ++ t.conn.fileBuffer.drop chunk.length).length =
                  t.conn.fileBuffer.length := by
                rw [List.length_append, List.length_drop]
                omega
              rw [hsize] at hmeets
              exact hstops (.taken hne hchunk hanswer hmeets)
          · rw [hw]
            simp only
            split
            · rename_i hfatal
              exact hends _ fun h => absurd (hkept h.2).2.1 hfatal
            · exact hends _ fun h => ⟨⟨h.1, (hkept h.2).1⟩, rfl⟩

variable (P) in
/-- The loop for the node stops before the end of the file, or it has sent all that it should. -/
def NodeStops (t : TlsConnection π) : BufferNode → Prop
  | .file content offset fileBytesToSend =>
      ¬MeetsEnd P content (growFileBuffer t.conn.fileBuffer).length offset fileBytesToSend
        t.provider
  | _ => True

theorem NodeStops.of_whole {content : Bytes} {offset length : Nat}
    (hwhole : offset + length ≤ content.length) : NodeStops P t (.file content offset length) := by
  intro hmeets
  have htruncated := hmeets.truncated (by
    rw [growFileBuffer, List.length_append, List.length_replicate, kMaxSendFileBufferSize]
    omega)
  omega

theorem sendFileInLoop_follows (hP : Reports P failed) {node : BufferNode} {rest : List BufferNode}
    (hlist : t.conn.writeBufferList = node :: rest) (hsent : sendFileInLoop P t = some t') :
    Follows failed t t' ∧ (NodeStops P t node → Wakes failed t t') := by
  unfold sendFileInLoop at hsent
  rw [hlist] at hsent
  cases node with
  | msg msgBuffer => exact absurd hsent (by simp)
  | file content offset toSend =>
      obtain rfl := Option.some.inj hsent
      obtain ⟨hfollows, hwakes⟩ := fileLoop_follows hP content offset toSend { t with
        conn.fileBuffer := growFileBuffer t.conn.fileBuffer
        fileBufferUse := if t.fileBufferUse = .mixed then .mixed else .file }
      exact ⟨hfollows, hwakes⟩
  | stream toSend chunks =>
      obtain rfl := Option.some.inj hsent
      have hwakes := sendStreamInLoop_wakes hP { t with
        fileBufferUse := if t.fileBufferUse = .stream then .stream else .mixed } toSend chunks
      exact ⟨hwakes.follows, fun _ => hwakes⟩

end SendFileInLoop

section Calls

theorem checkHighWaterMark_keeps (t : TlsConnection π) :
    (checkHighWaterMark P t).provider = t.provider ∧
      (checkHighWaterMark P t).conn.status = t.conn.status ∧
      (checkHighWaterMark P t).conn.writing = t.conn.writing := by
  have hplain : (TcpConnectionImpl.checkHighWaterMark t.conn).status = t.conn.status ∧
      (TcpConnectionImpl.checkHighWaterMark t.conn).writing = t.conn.writing := by
    unfold TcpConnectionImpl.checkHighWaterMark
    split
    · split
      · exact ⟨rfl, rfl⟩
      · exact ⟨rfl, rfl⟩
    · exact ⟨rfl, rfl⟩
  unfold checkHighWaterMark
  simp only
  split
  · split
    · exact ⟨rfl, hplain⟩
    · exact ⟨rfl, hplain⟩
  · exact ⟨rfl, hplain⟩

variable (failed) in
theorem queueInList_cases (t : TlsConnection π) (data : Bytes) :
    Wakes failed t (queueInList P t data) ∨
      queueInList P t data = t ∧ (t.conn.status = .Connected → data = []) := by
  unfold queueInList
  split
  · left
    obtain ⟨hprovider, hstatus, hwriting⟩ := checkHighWaterMark_keeps (P := P) { t with
      conn := TcpConnectionImpl.enableWriting { t.conn with
        writeBufferList := TcpConnectionImpl.appendMsg data t.conn.writeBufferList } }
    rintro ⟨hconnected, hfailed⟩
    rw [hstatus] at hconnected
    rw [hprovider] at hfailed
    exact ⟨⟨hconnected, hfailed⟩, hwriting⟩
  · rename_i hdata
    refine .inr ⟨rfl, fun hconnected => ?_⟩
    by_contra hne
    exact hdata ⟨List.length_pos_iff.mpr hne, hconnected⟩

theorem queueInList_follows (t : TlsConnection π) (data : Bytes) :
    Follows failed t (queueInList P t data) := by
  rcases queueInList_cases (P := P) failed t data with hwakes | ⟨heq, -⟩
  · exact hwakes.follows
  · rw [heq]
    exact .refl t

theorem queueInList_keeps (data : Bytes)
    (hbusy : t.conn.writing = true ∨ t.conn.writeBufferList ≠ []) :
    Keeps P failed t (queueInList P t data) := by
  intro hconnected
  have hfollows := queueInList_follows (P := P) t data hconnected
  refine ⟨hfollows.1, fun hscheduled _ => hfollows.2 ?_⟩
  exact hbusy.elim id fun hlist => hscheduled (.inr hlist)

variable (P failed) in
/-- What the provider takes as a whole, it does not have to buffer. -/
def SentOver (t : TlsConnection π) (msg : Bytes) : Prop :=
  ∀ provider, P.sendData t.provider msg = (.done (Fin.last msg.length), provider) →
    ¬failed provider → P.getBufferedData provider = []

theorem sendInLoop_keeps (hP : Reports P failed) (msg : Bytes)
    (hsent : Connected failed t → t.conn.writing = false → SentOver P failed t msg) :
    Keeps P failed t (sendInLoop P t msg) := by
  unfold sendInLoop
  split
  · exact .refl t
  · split
    · rename_i hdirect
      rcases writeInLoop_cases t hP msg with
        ⟨n, provider, hanswer, hw, hkept⟩ | ⟨e, provider, hw, hkept⟩
      · rw [hw]
        simp only
        have hfollows : Follows failed t { t with
            provider
            plaintext := t.plaintext ++ msg.take n } := fun h => ⟨⟨h.1, hkept h.2⟩, id⟩
        rcases queueInList_cases (P := P) failed { t with
            provider
            plaintext := t.plaintext ++ msg.take n } (msg.drop n) with hwakes | ⟨heq, hall⟩
        · exact (hfollows.wakes hwakes).keeps
        · rw [heq]
          intro hconnected
          refine ⟨(hfollows hconnected).1, fun _ hpending => ?_⟩
          have hn : n = Fin.last msg.length := by
            have := List.drop_eq_nil_iff.mp (hall hconnected.1)
            exact Fin.ext (by simp only [Fin.val_last]; omega)
          have hbuffered := hsent (hfollows hconnected).1 hdirect.1 provider (hn ▸ hanswer)
            hconnected.2
          exact absurd hpending (by simp [hbuffered, hdirect.2])
      · rw [hw]
        simp only
        have hbuffered : ∀ t', Connected failed t' → t'.provider = provider → Scheduled P t →
            t.conn.writing = true :=
          fun t' h hp hscheduled => hscheduled (.inl (hkept (hp ▸ h.2)).2.2)
        split
        · rename_i hfatal
          exact fun h => absurd (hkept h.2).2.1 hfatal
        · have hfollows : Follows failed t { t with provider } :=
            fun h => ⟨⟨h.1, (hkept h.2).1⟩, id⟩
          have hqueue := hfollows.trans (queueInList_follows (P := P) { t with provider } msg)
          intro hconnected
          obtain ⟨hconnected', -⟩ := queueInList_follows (P := P) { t with provider } msg hconnected
          refine ⟨(hqueue hconnected).1, fun hscheduled _ => (hqueue hconnected).2 ?_⟩
          exact hbuffered _ hconnected' rfl hscheduled
    · rename_i hbusy
      apply queueInList_keeps
      by_contra hne
      rw [not_or, Bool.not_eq_true, not_not] at hne
      exact hbusy hne

theorem pushFile_keeps (hP : Reports P failed) (node : BufferNode)
    (hstops : Connected failed t → t.conn.writing = false → NodeStops P t node)
    (hpush : pushFile P t node = some t') : Keeps P failed t t' := by
  unfold pushFile at hpush
  simp only at hpush
  have hpushed : Follows failed t { t with
    conn.writeBufferList := t.conn.writeBufferList ++ [node] } := fun h => ⟨h, id⟩
  split at hpush
  · rename_i hone
    have hlist : t.conn.writeBufferList ++ [node] = [node] := by
      rw [List.length_append, List.length_singleton, Nat.add_eq_right, List.length_eq_zero_iff]
        at hone
      rw [hone, List.nil_append]
    obtain ⟨hfollows, hwakes⟩ := sendFileInLoop_follows hP hlist hpush
    cases hwriting : t.conn.writing with
    | true => exact (hpushed.trans hfollows).keeps hwriting
    | false =>
        intro hconnected
        have hbefore := ((hpushed.trans hfollows) hconnected).1
        exact (hpushed.wakes (hwakes (hstops hbefore hwriting))).keeps hconnected
  · rename_i hmore
    obtain rfl := Option.some.inj hpush
    refine fun hconnected => ⟨hconnected, fun hscheduled _ => hscheduled (.inr ?_)⟩
    intro hnil
    exact hmore (by simp [hnil])

variable (P failed) in
/-- What a call that is carried out at once leaves over is scheduled. -/
def CallSent (t : TlsConnection π) : SendCall → Prop
  | .send msg => SentOver P failed t msg
  | .sendFile content offset length => NodeStops P t (.file content offset length)
  | .sendStream _ => True

theorem runCall_keeps (hP : Reports P failed) {inLoopThread : Bool} {call : SendCall}
    (hcall : inLoopThread = true → t.conn.sendNum = 0 → Connected failed t →
      t.conn.writing = false → CallSent P failed t call)
    (hrun : runCall P inLoopThread t call = some t') : Keeps P failed t t' := by
  have hlog : Keeps P failed t { t with conn := TcpConnectionImpl.log t.conn (.call call) } :=
    fun h => ⟨h, id⟩
  have hqueue : Keeps P failed t
      (queueCall { t with conn := TcpConnectionImpl.log t.conn (.call call) } call) :=
    fun h => ⟨h, id⟩
  by_cases hdirect : inLoopThread = true ∧ t.conn.sendNum = 0
  · cases call with
    | send msg =>
        obtain rfl := Option.some.inj hrun
        rw [send, if_pos (by exact hdirect)]
        exact hlog.trans (sendInLoop_keeps hP msg (hcall hdirect.1 hdirect.2))
    | sendFile content offset length =>
        exact hlog.trans (pushFile_keeps hP (.file content offset length) (hcall hdirect.1 hdirect.2)
          ((if_pos hdirect).symm.trans hrun))
    | sendStream chunks =>
        exact hlog.trans (pushFile_keeps hP (.stream 1 chunks) (fun _ _ => trivial)
          ((if_pos hdirect).symm.trans hrun))
  · have heq : queueCall { t with conn := TcpConnectionImpl.log t.conn (.call call) } call = t' := by
      apply Option.some.inj
      rw [← hrun]
      cases call with
      | send msg => exact congrArg some (if_neg hdirect).symm
      | sendFile | sendStream => exact (if_neg hdirect).symm
    exact heq ▸ hqueue

theorem runFunctor_keeps (hP : Reports P failed)
    (hcall : ∀ call funcs, t.conn.funcs = call :: funcs → Connected failed t →
      t.conn.writing = false → CallSent P failed t call)
    (hrun : runFunctor P t = some t') : Keeps P failed t t' := by
  unfold runFunctor at hrun
  cases hfuncs : t.conn.funcs with
  | nil =>
      rw [hfuncs] at hrun
      obtain rfl := Option.some.inj hrun
      exact .refl t
  | cons call funcs =>
      rw [hfuncs] at hrun
      have htaken : ∀ sendNum, Keeps P failed t
          { t with conn.sendNum := sendNum, conn.funcs := funcs } := fun _ h => ⟨h, id⟩
      cases call with
      | send msg =>
          obtain rfl := Option.some.inj hrun
          have hsent := sendInLoop_keeps (t := { t with conn.funcs := funcs }) hP msg
            (hcall _ _ hfuncs)
          exact (htaken t.conn.sendNum).trans hsent
      | sendFile content offset length =>
          exact (htaken _).trans
            (pushFile_keeps hP (.file content offset length) (hcall _ _ hfuncs) hrun)
      | sendStream chunks =>
          exact (htaken _).trans (pushFile_keeps hP (.stream 1 chunks) (fun _ _ => trivial) hrun)

end Calls

section WriteCallback

variable (P failed) in
/-- A call from the loop thread, which is carried out at once unless others wait. -/
def CallTaken (t : TlsConnection π) (call : SendCall) : Prop :=
  t.conn.sendNum = 0 → Connected failed t → t.conn.writing = false → CallSent P failed t call

theorem foldlM_runCall_keeps (hP : Reports P failed) {calls : List SendCall}
    (hcalls : AllSteps (runCall P true) (CallTaken P failed) t calls)
    (hrun : calls.foldlM (runCall P true) t = some t') : Keeps P failed t t' := by
  apply hcalls.invariant (Keeps P failed t) _ (.refl t) hrun
  intro s call s' hkept htaken hcall
  exact hkept.trans (runCall_keeps hP (fun _ => htaken) hcall)

theorem shutdown_of_connected (hconnected : Connected failed (shutdown P t)) :
    ∃ closeOnEmpty, shutdown P t = { t with conn.closeOnEmpty := closeOnEmpty } := by
  revert hconnected
  unfold shutdown
  split
  · split
    · exact fun _ => ⟨true, rfl⟩
    · simp only
      split
      · exact fun h => absurd h.1 (by simp [TcpConnectionImpl.closeWrite])
      · exact fun h => absurd h.1 (by simp)
  · exact fun _ => ⟨_, rfl⟩

theorem checkCloseOnEmpty_of_connected (hconnected : Connected failed (checkCloseOnEmpty P t)) :
    ∃ closeOnEmpty, checkCloseOnEmpty P t = { t with conn.closeOnEmpty := closeOnEmpty } := by
  revert hconnected
  unfold checkCloseOnEmpty
  split
  · exact shutdown_of_connected
  · exact fun _ => ⟨_, rfl⟩

theorem shutdown_keeps (t : TlsConnection π) : Keeps P failed t (shutdown P t) := by
  intro hconnected
  obtain ⟨closeOnEmpty, heq⟩ := shutdown_of_connected hconnected
  rw [heq] at hconnected ⊢
  exact ⟨hconnected, id⟩

theorem checkCloseOnEmpty_keeps (t : TlsConnection π) :
    Keeps P failed t (checkCloseOnEmpty P t) := by
  intro hconnected
  obtain ⟨closeOnEmpty, heq⟩ := checkCloseOnEmpty_of_connected hconnected
  rw [heq] at hconnected ⊢
  exact ⟨hconnected, id⟩

theorem checkCloseOnEmpty_follows (t : TlsConnection π) :
    Follows failed t (checkCloseOnEmpty P t) := by
  intro hconnected
  obtain ⟨closeOnEmpty, heq⟩ := checkCloseOnEmpty_of_connected hconnected
  rw [heq] at hconnected ⊢
  exact ⟨hconnected, id⟩

theorem writeMsg_follows (hP : Reports P failed) (t : TlsConnection π) (msgBuffer : Bytes)
    (rest : List BufferNode) : Follows failed t (writeMsg P t msgBuffer rest) := by
  unfold writeMsg
  rcases writeInLoop_cases t hP msgBuffer with
    ⟨n, provider, -, hw, hkept⟩ | ⟨e, provider, hw, hkept⟩
  · rw [hw]
    have hsent : Follows failed t { t with
        provider
        plaintext := t.plaintext ++ msgBuffer.take n
        conn.writeBufferList := .msg (retrieve msgBuffer n) :: rest } :=
      fun h => ⟨⟨h.1, hkept h.2⟩, id⟩
    exact hsent.trans (checkCloseOnEmpty_follows _)
  · rw [hw]
    have hsent : Follows failed t { t with provider } := fun h => ⟨⟨h.1, (hkept h.2).1⟩, id⟩
    simp only
    split
    · exact hsent
    · exact hsent.trans (checkCloseOnEmpty_follows _)

theorem sendFileInLoop_checked_keeps (hP : Reports P failed) {node : BufferNode}
    {rest : List BufferNode} (hlist : t.conn.writeBufferList = node :: rest)
    (hwriting : t.conn.writing = true)
    (hmap : (sendFileInLoop P t).map (checkCloseOnEmpty P) = some t') : Keeps P failed t t' := by
  obtain ⟨sent, hsent, rfl⟩ := Option.map_eq_some_iff.mp hmap
  have hfollows := (sendFileInLoop_follows hP hlist hsent).1
  exact (hfollows.trans (checkCloseOnEmpty_follows sent)).keeps hwriting

/-- The connection on which `writeCompleteCallback_` is invoked once the list has become empty. -/
def completed (t : TlsConnection π) : TlsConnection π :=
  { t with
    conn := TcpConnectionImpl.log
      (TcpConnectionImpl.disableWriting { t.conn with writeBufferList := [] })
      .writeCompleteCallback }

theorem finishWriting_keeps (hP : Reports P failed) {calls : List SendCall}
    (hbuffered : P.getBufferedData t.provider = [])
    (hcalls : AllSteps (runCall P true) (CallTaken P failed) (completed t) calls)
    (hfinish : (finishWriting P calls { t with conn.writeBufferList := [] }).map
      (checkCloseOnEmpty P) = some t') : Keeps P failed t t' := by
  have hcompleted : Keeps P failed t (completed t) := by
    refine fun h => ⟨h, fun _ hpending => ?_⟩
    exact absurd hpending (by
      simp [completed, hbuffered, TcpConnectionImpl.log, TcpConnectionImpl.disableWriting])
  obtain ⟨closed, hclosed, rfl⟩ := Option.map_eq_some_iff.mp hfinish
  obtain ⟨called, hcalled, rfl⟩ := Option.map_eq_some_iff.mp hclosed
  apply (hcompleted.trans (foldlM_runCall_keeps hP hcalls hcalled)).trans
  split
  · rename_i hdisconnecting
    refine Keeps.trans ?_ (checkCloseOnEmpty_keeps _)
    exact fun h => absurd (h.1.symm.trans hdisconnecting) (by decide)
  · exact checkCloseOnEmpty_keeps called

variable (P) in
/-- The connection on which `writeCallback` invokes `writeCompleteCallback_`. -/
def completing (t : TlsConnection π) : Option (TlsConnection π) :=
  match t.conn.writeBufferList with
  | [node] =>
      if t.conn.writing = true ∧ (P.sendBufferedData t.provider).1 = true ∧ nodeDone node then
        some (completed { t with provider := (P.sendBufferedData t.provider).2 })
      else none
  | _ => none

theorem writeNext_keeps (hP : Reports P failed) {calls : List SendCall} {afterFile : Bool}
    {rest : List BufferNode} (hwriting : t.conn.writing = true)
    (hbuffered : P.getBufferedData t.provider = [])
    (hcalls : rest = [] → AllSteps (runCall P true) (CallTaken P failed) (completed t) calls)
    (hnext : writeNext P calls afterFile t rest = some t') : Keeps P failed t t' := by
  have hpopped : Follows failed t { t with conn.writeBufferList := rest } := fun h => ⟨h, id⟩
  unfold writeNext at hnext
  cases rest with
  | nil => exact finishWriting_keeps hP hbuffered (hcalls rfl) hnext
  | cons node rest =>
      cases node with
      | msg msgBuffer =>
          simp only at hnext
          split at hnext
          · obtain rfl := Option.some.inj hnext
            exact (hpopped.trans (writeMsg_follows hP _ msgBuffer rest)).keeps hwriting
          · exact absurd hnext (by simp)
      | file | stream =>
          exact (hpopped.keeps hwriting).trans (sendFileInLoop_checked_keeps hP rfl hwriting hnext)

theorem writeList_keeps (hP : Reports P failed) {calls : List SendCall}
    (hwriting : t.conn.writing = true) (hbuffered : P.getBufferedData t.provider = [])
    (hcalls : ∀ node, t.conn.writeBufferList = [node] → nodeDone node →
      AllSteps (runCall P true) (CallTaken P failed) (completed t) calls)
    (hlist : writeList P calls t = some t') : Keeps P failed t t' := by
  unfold writeList at hlist
  cases hnodes : t.conn.writeBufferList with
  | nil => simp [hnodes] at hlist
  | cons node rest =>
      have hdone : nodeDone node → rest = [] →
          AllSteps (runCall P true) (CallTaken P failed) (completed t) calls := by
        rintro hdone rfl
        exact hcalls node hnodes hdone
      simp only [hnodes] at hlist
      cases node with
      | msg msgBuffer =>
          simp only at hlist
          split at hlist
          · rename_i hempty
            exact writeNext_keeps hP hwriting hbuffered (hdone hempty) hlist
          · obtain rfl := Option.some.inj hlist
            exact (writeMsg_follows hP t msgBuffer rest).keeps hwriting
      | file | stream =>
          simp only at hlist
          split at hlist
          · rename_i hempty
            exact writeNext_keeps hP hwriting hbuffered (hdone hempty) hlist
          · exact sendFileInLoop_checked_keeps hP hnodes hwriting hlist

theorem writeCallback_keeps (hP : Reports P failed) {calls : List SendCall}
    (hcalls : ∀ done, completing P t = some done →
      AllSteps (runCall P true) (CallTaken P failed) done calls)
    (hcallback : writeCallback P calls t = some t') : Keeps P failed t t' := by
  unfold writeCallback at hcallback
  split at hcallback
  · rename_i hwriting
    have hmono := hP.of_sendBufferedData t.provider
    have hsentAll := hP.sentAll t.provider
    rcases hanswer : P.sendBufferedData t.provider with ⟨_ | _, provider⟩
    · rw [hanswer] at hcallback hmono
      obtain rfl := Option.some.inj hcallback
      exact Follows.keeps (fun h => ⟨⟨h.1, hmono h.2⟩, fun _ => rfl⟩) hwriting
    · rw [hanswer] at hcallback hmono hsentAll
      have hflushed : Keeps P failed t { t with provider } :=
        fun h => ⟨⟨h.1, hmono h.2⟩, fun _ _ => hwriting⟩
      refine hflushed.trans (writeList_keeps hP hwriting (hsentAll rfl) ?_ hcallback)
      intro node hlist hdone
      apply hcalls
      rw [completing, hlist, hanswer]
      exact if_pos ⟨hwriting, rfl, hdone⟩
  · obtain rfl := Option.some.inj hcallback
    exact .refl t

end WriteCallback

end Cooper.TlsWriteInterest

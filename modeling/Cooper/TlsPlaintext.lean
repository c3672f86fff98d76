import Cooper.Tls
import Cooper.WriteInterest

namespace Cooper.TlsPlaintext

open Cooper.MsgBuffer
open Cooper.TcpConnectionImpl (Connection SendCall BufferNode ConnEvent Errno IoResult)
open Cooper.Tls
open Cooper.WriteInterest (nodeDone)
open Cooper.WriteQueue (nodePending streamContent payload eventPayload accepted Alternating)

variable {π : Type*}

/-- `sendData` accepts some first bytes or fails with `EAGAIN`. -/
def OnlyEAGAIN (P : TLSProvider π) : Prop :=
  ∀ p data e, (P.sendData p data).1 = .error e → e = .EAGAIN

/-- The bytes of `*fileBufferPtr_` that are still to be sent. -/
def leftover (t : TlsConnection π) : Bytes :=
  if t.fileBufferUse = .stream then t.conn.fileBuffer else []

/-- The bytes that have been accepted, and those that are pending. -/
def output (t : TlsConnection π) : Bytes :=
  t.plaintext ++ (leftover t ++ (t.conn.writeBufferList.map nodePending).flatten)

/-- The states that sending alone can reach. -/
structure Sending (t : TlsConnection π) : Prop where
  connected : t.conn.status = .Connected
  notClosing : t.conn.closeOnEmpty = false
  nonempty : t.conn.writing = true → t.conn.writeBufferList ≠ []
  alternating : Alternating t.conn.writeBufferList
  leftoverAtFront : leftover t ≠ [] →
    ∃ toSend chunks rest, t.conn.writeBufferList = .stream toSend chunks :: rest ∧ toSend ≠ 0

/-- `t'` has put `out` behind the output of `t`, unless it has mixed it up. -/
structure Progress (t : TlsConnection π) (out : Bytes) (t' : TlsConnection π) : Prop where
  sending : Sending t'
  output_eq : t'.fileBufferUse ≠ .mixed →
    t.fileBufferUse ≠ .mixed ∧ output t' = output t ++ out
  accepted_eq : accepted t'.conn = accepted t.conn
  sendNum_eq : t'.conn.sendNum = t.conn.sendNum
  funcs_eq : t'.conn.funcs = t.conn.funcs
  socket_eq : t'.conn.socket = t.conn.socket

theorem Progress.refl {t : TlsConnection π} (h : Sending t) : Progress t [] t :=
  ⟨h, fun hclean => ⟨hclean, (List.append_nil _).symm⟩, rfl, rfl, rfl, rfl⟩

theorem Progress.trans {t t' t'' : TlsConnection π} {out out' : Bytes}
    (h : Progress t out t') (h' : Progress t' out' t'') : Progress t (out ++ out') t'' where
  sending := h'.sending
  output_eq := by
    intro hclean
    obtain ⟨hclean', hout'⟩ := h'.output_eq hclean
    obtain ⟨hclean'', hout⟩ := h.output_eq hclean'
    exact ⟨hclean'', by rw [hout', hout, List.append_assoc]⟩
  accepted_eq := h'.accepted_eq.trans h.accepted_eq
  sendNum_eq := h'.sendNum_eq.trans h.sendNum_eq
  funcs_eq := h'.funcs_eq.trans h.funcs_eq
  socket_eq := h'.socket_eq.trans h.socket_eq

variable {P : TLSProvider π} {t t' : TlsConnection π}

section SendInLoop

theorem writeInLoop_cases (t : TlsConnection π) (hP : OnlyEAGAIN P) (data : Bytes) :
    (∃ n ≤ data.length, ∃ provider, writeInLoop P t data =
      (.ok n, { t with provider, plaintext := t.plaintext ++ data.take n })) ∨
    (∃ provider, writeInLoop P t data = (.error .EAGAIN, { t with provider })) := by
  unfold writeInLoop
  rcases hanswer : P.sendData t.provider data with ⟨n | e, provider⟩
  · exact .inl ⟨n, by omega, provider, rfl⟩
  · obtain rfl := hP t.provider data e (by rw [hanswer])
    exact .inr ⟨provider, rfl⟩

theorem Sending.log (h : Sending t) (event : ConnEvent) (hevent : eventPayload event = []) :
    Progress t [] { t with conn := TcpConnectionImpl.log t.conn event } where
  sending := ⟨h.1, h.2, h.3, h.4, h.5⟩
  output_eq hclean := ⟨hclean, (List.append_nil _).symm⟩
  accepted_eq := by simp [accepted, TcpConnectionImpl.log, hevent]
  sendNum_eq := rfl
  funcs_eq := rfl
  socket_eq := rfl

theorem checkHighWaterMark_progress (h : Sending t) : Progress t [] (checkHighWaterMark P t) := by
  have hplain : Progress t [] { t with conn := TcpConnectionImpl.checkHighWaterMark t.conn } := by
    unfold TcpConnectionImpl.checkHighWaterMark
    split
    · split
      · exact h.log _ rfl
      · exact .refl h
    · exact .refl h
  unfold checkHighWaterMark
  simp only
  split
  · split
    · exact hplain.trans (hplain.sending.log _ rfl)
    · exact hplain
  · exact hplain

theorem queueInList_progress (h : Sending t) (data : Bytes) :
    Progress t data (queueInList P t data) := by
  unfold queueInList
  split
  · have hqueued : Progress t data { t with
        conn := TcpConnectionImpl.enableWriting { t.conn with
          writeBufferList := TcpConnectionImpl.appendMsg data t.conn.writeBufferList } } := by
      refine ⟨⟨h.1, h.2, ?_, ?_, ?_⟩, fun hclean => ⟨hclean, ?_⟩, rfl, rfl, rfl, rfl⟩
      · exact fun _ => TcpConnectionImpl.appendMsg_ne_nil _ _
      · exact WriteQueue.appendMsg_alternating data h.alternating
      · intro hleft
        obtain ⟨toSend, chunks, rest, hlist, hpos⟩ := h.leftoverAtFront hleft
        refine ⟨toSend, chunks, TcpConnectionImpl.appendMsg data rest, ?_, hpos⟩
        simp only [TcpConnectionImpl.enableWriting, hlist]
        exact WriteQueue.appendMsg_cons_of_isFile rfl data rest
      · simp [output, leftover, TcpConnectionImpl.enableWriting, WriteQueue.appendMsg_pending]
    simpa using hqueued.trans (checkHighWaterMark_progress hqueued.sending)
  · rename_i hdata
    have hnil : data = [] := by
      by_contra hne
      exact hdata ⟨List.length_pos_iff.mpr hne, h.connected⟩
    exact hnil ▸ .refl h

theorem leftover_eq_nil (h : Sending t)
    (hlist : ∀ toSend chunks rest, t.conn.writeBufferList ≠ .stream toSend chunks :: rest) :
    leftover t = [] := by
  by_contra hne
  obtain ⟨toSend, chunks, rest, hstream, -⟩ := h.leftoverAtFront hne
  exact hlist toSend chunks rest hstream

theorem sendInLoop_progress (hP : OnlyEAGAIN P) (h : Sending t) (data : Bytes) :
    Progress t data (sendInLoop P t data) := by
  unfold sendInLoop
  rw [if_neg (not_not.mpr h.connected)]
  split
  · rename_i hdirect
    have hleft := leftover_eq_nil h (by simp [hdirect.2])
    rcases writeInLoop_cases t hP data with ⟨n, hn, provider, hw⟩ | ⟨provider, hw⟩
    · have hsent : Progress t (data.take n)
          { t with provider, plaintext := t.plaintext ++ data.take n } := by
        refine ⟨⟨h.1, h.2, h.3, h.4, h.5⟩, fun hclean => ⟨hclean, ?_⟩, rfl, rfl, rfl, rfl⟩
        change t.plaintext ++ data.take n ++ (leftover t ++ _) = output t ++ data.take n
        simp [output, hleft, hdirect.2]
      rw [hw]
      simpa using hsent.trans (queueInList_progress hsent.sending (data.drop n))
    · have hsent : Progress t [] { t with provider } :=
        ⟨⟨h.1, h.2, h.3, h.4, h.5⟩, fun hclean => ⟨hclean, (List.append_nil _).symm⟩, rfl, rfl, rfl,
          rfl⟩
      rw [hw]
      simpa using hsent.trans (queueInList_progress hsent.sending data)
  · exact queueInList_progress h data

end SendInLoop

section SendFileInLoop

theorem writeFileBuffer_cases (t : TlsConnection π) (hP : OnlyEAGAIN P)
    (hbuffer : t.conn.fileBuffer ≠ []) (toSend : Nat) :
    (∃ provider, writeFileBuffer P t toSend = .inl { t with
      provider
      plaintext := t.plaintext ++ t.conn.fileBuffer
      conn.fileBuffer := [] }) ∨
    (∃ provider plaintext fileBuffer, writeFileBuffer P t toSend = .inr ({ t with
        provider
        plaintext
        conn := { t.conn with fileBuffer, writing := true } }, toSend) ∧
      fileBuffer ≠ [] ∧ plaintext ++ fileBuffer = t.plaintext ++ t.conn.fileBuffer) := by
  unfold writeFileBuffer
  rcases writeInLoop_cases t hP t.conn.fileBuffer with ⟨n, hn, provider, hw⟩ | ⟨provider, hw⟩
  · rw [hw]
    by_cases hpart : n < t.conn.fileBuffer.length
    · refine .inr ⟨provider, t.plaintext ++ t.conn.fileBuffer.take n, t.conn.fileBuffer.drop n, ?_,
        ?_, ?_⟩
      · simp [hpart, TcpConnectionImpl.enableWriting]
      · simpa using hpart
      · simp
    · refine .inl ⟨provider, ?_⟩
      simp only [if_neg hpart]
      rw [List.take_of_length_le (by omega)]
  · rw [hw]
    exact .inr ⟨provider, t.plaintext, t.conn.fileBuffer, by simp [TcpConnectionImpl.enableWriting],
      hbuffer, rfl⟩

def StreamSent (t : TlsConnection π) (content : Bytes) (result : TlsConnection π × BufferNode) :
    Prop :=
  ∃ provider plaintext fileBuffer toSend chunks,
    result = ({ t with
        provider
        plaintext
        conn := { t.conn with fileBuffer, writing := true } }, .stream toSend chunks) ∧
      (fileBuffer ≠ [] → toSend ≠ 0) ∧
      plaintext ++ (fileBuffer ++ nodePending (.stream toSend chunks)) = t.plaintext ++ content

theorem streamLoop_sent (t : TlsConnection π) (hP : OnlyEAGAIN P) {toSend : Nat}
    (hpos : toSend ≠ 0) (chunks : List Bytes) (hbuffer : t.conn.fileBuffer = []) :
    StreamSent t (streamContent chunks) (streamLoop P toSend chunks t) := by
  induction chunks generalizing t with
  | nil =>
      exact ⟨t.provider, t.plaintext, t.conn.fileBuffer, 0, [], rfl, by simp [hbuffer],
        by simp [nodePending, streamContent, hbuffer]⟩
  | cons chunk chunks ih =>
      rw [streamLoop]
      by_cases hchunk : chunk = []
      · rw [if_pos hchunk]
        exact ⟨t.provider, t.plaintext, t.conn.fileBuffer, 0, chunks, rfl, by simp [hbuffer],
          by simp [nodePending, streamContent, hbuffer, hchunk]⟩
      · rw [if_neg hchunk, WriteQueue.streamContent_cons hchunk]
        rcases writeFileBuffer_cases { t with conn.fileBuffer := chunk } hP hchunk toSend with
          ⟨provider, hw⟩ | ⟨provider, plaintext, fileBuffer, hw, hne, hsplit⟩
        · rw [hw]
          obtain ⟨provider', plaintext', fileBuffer', toSend', chunks', hloop, hleft, hout⟩ :=
            ih { t with provider, plaintext := t.plaintext ++ chunk, conn.fileBuffer := [] } rfl
          exact ⟨provider', plaintext', fileBuffer', toSend', chunks', hloop, hleft,
            by rw [hout, List.append_assoc]⟩
        · rw [hw]
          refine ⟨provider, plaintext, fileBuffer, toSend, chunks, rfl, fun _ => hpos, ?_⟩
          rw [← List.append_assoc, hsplit]
          simp [nodePending, hpos]

theorem sendStreamInLoop_sent (t : TlsConnection π) (hP : OnlyEAGAIN P) {toSend : Nat}
    (hpos : toSend ≠ 0) (chunks : List Bytes) :
    StreamSent t (t.conn.fileBuffer ++ streamContent chunks)
      (sendStreamInLoop P t toSend chunks) := by
  unfold sendStreamInLoop
  by_cases hbuffer : t.conn.fileBuffer = []
  · rw [if_pos hbuffer, if_neg hpos, hbuffer]
    exact streamLoop_sent t hP hpos chunks hbuffer
  · rw [if_neg hbuffer]
    rcases writeFileBuffer_cases t hP hbuffer toSend with
      ⟨provider, hw⟩ | ⟨provider, plaintext, fileBuffer, hw, hne, hsplit⟩
    · rw [hw]
      simp only [if_neg hpos]
      obtain ⟨provider', plaintext', fileBuffer', toSend', chunks', hloop, hleft, hout⟩ :=
        streamLoop_sent { t with
          provider
          plaintext := t.plaintext ++ t.conn.fileBuffer
          conn.fileBuffer := [] } hP hpos chunks rfl
      exact ⟨provider', plaintext', fileBuffer', toSend', chunks', hloop, hleft,
        by rw [hout, List.append_assoc]⟩
    · rw [hw]
      refine ⟨provider, plaintext, fileBuffer, toSend, chunks, rfl, fun _ => hpos, ?_⟩
      rw [← List.append_assoc, hsplit]
      simp [nodePending, hpos]

theorem take_append_rest (content : Bytes) {offset toSend size n : Nat} (hsize : n ≤ min size toSend) :
    (((content.drop offset).take (min size toSend)).take n) ++
        ((content.drop (offset + n)).take (toSend - n)) =
      (content.drop offset).take toSend := by
  have hrest : (content.drop (offset + n)).take (toSend - n) =
      ((content.drop offset).take toSend).drop n := by
    rw [List.drop_take, List.drop_drop]
  rw [hrest, List.take_take, Nat.min_eq_left hsize]
  have hfirst : (content.drop offset).take n = ((content.drop offset).take toSend).take n := by
    rw [List.take_take, Nat.min_eq_left (hsize.trans (Nat.min_le_right ..))]
  rw [hfirst, List.take_append_drop]

def FileSent (t : TlsConnection π) (content : Bytes) (offset toSend : Nat)
    (result : TlsConnection π × BufferNode) : Prop :=
  ∃ provider plaintext fileBuffer writing offset' toSend',
    result = ({ t with
        provider
        plaintext
        conn := { t.conn with fileBuffer, writing } }, .file content offset' toSend') ∧
      plaintext ++ nodePending (.file content offset' toSend') =
        t.plaintext ++ nodePending (.file content offset toSend)

theorem fileLoop_sent (t : TlsConnection π) (hP : OnlyEAGAIN P) (content : Bytes)
    (offset toSend : Nat) :
    FileSent t content offset toSend (fileLoop P content offset toSend t) := by
  induction toSend using Nat.strong_induction_on generalizing t offset with
  | _ toSend ih =>
      rw [fileLoop]
      split
      · exact ⟨t.provider, t.plaintext, t.conn.fileBuffer, true, offset, toSend, rfl, rfl⟩
      · have hlength : (readChunk t content offset toSend).length ≤
            min t.conn.fileBuffer.length toSend := List.length_take_le ..
        have hfirst : ∀ n ≤ (readChunk t content offset toSend).length,
            t.plaintext ++ (readChunk t content offset toSend).take n ++
                nodePending (.file content (offset + n) (toSend - n)) =
              t.plaintext ++ nodePending (.file content offset toSend) := by
          intro n hn
          rw [List.append_assoc]
          exact congrArg _ (take_append_rest content (hn.trans hlength))
        generalize readChunk t content offset toSend = chunk at hlength hfirst
        simp only
        split
        · exact ⟨t.provider, t.plaintext, t.conn.fileBuffer, t.conn.writing, offset, toSend, rfl, rfl⟩
        · rename_i hchunk
          have hchunk := List.length_pos_iff.mpr hchunk
          let fileBuffer := chunk ++ t.conn.fileBuffer.drop chunk.length
          rcases writeInLoop_cases { t with conn.fileBuffer := fileBuffer } hP chunk with
            ⟨n, hn, provider, hw⟩ | ⟨provider, hw⟩
          · rw [hw]
            simp only
            split
            · exact ⟨provider, _, fileBuffer, true, offset + n, toSend - n, rfl, hfirst n hn⟩
            · obtain ⟨provider', plaintext', fileBuffer', writing', offset', toSend', hloop, hout⟩ :=
                ih (toSend - n) (by omega) { t with
                  provider
                  plaintext := t.plaintext ++ chunk.take n
                  conn.fileBuffer := fileBuffer } (offset + n)
              exact ⟨provider', plaintext', fileBuffer', writing', offset', toSend', hloop,
                hout.trans (hfirst n hn)⟩
          · rw [hw]
            exact ⟨provider, t.plaintext, fileBuffer, true, offset, toSend, rfl, rfl⟩

theorem sendStreamInLoop_ended (t : TlsConnection π) (hP : OnlyEAGAIN P) (chunks : List Bytes) :
    ∃ provider plaintext fileBuffer, sendStreamInLoop P t 0 chunks = ({ t with
        provider
        plaintext
        conn := { t.conn with fileBuffer, writing := true } }, .stream 0 chunks) ∧
      (t.conn.fileBuffer = [] → plaintext = t.plaintext ∧ fileBuffer = []) := by
  unfold sendStreamInLoop
  by_cases hbuffer : t.conn.fileBuffer = []
  · rw [if_pos hbuffer, if_pos rfl]
    exact ⟨t.provider, t.plaintext, t.conn.fileBuffer, rfl, fun _ => ⟨rfl, hbuffer⟩⟩
  · rw [if_neg hbuffer]
    rcases writeFileBuffer_cases t hP hbuffer 0 with
      ⟨provider, hw⟩ | ⟨provider, plaintext, fileBuffer, hw, -, -⟩
    · rw [hw]
      exact ⟨provider, t.plaintext ++ t.conn.fileBuffer, [], rfl, fun hnil => absurd hnil hbuffer⟩
    · rw [hw]
      exact ⟨provider, plaintext, fileBuffer, rfl, fun hnil => absurd hnil hbuffer⟩

theorem stream_of_not_mixed {use : FileBufferUse}
    (h : (if use = .stream then FileBufferUse.stream else .mixed) ≠ .mixed) : use = .stream := by
  by_contra hother
  exact h (if_neg hother)

theorem sendStream_progress_of_ended (hP : OnlyEAGAIN P) (h : Sending t) {chunks : List Bytes}
    {rest : List BufferNode} (hlist : t.conn.writeBufferList = .stream 0 chunks :: rest) :
    ∃ t', sendFileInLoop P t = some t' ∧ Progress t [] t' := by
  have halt := h.alternating
  rw [hlist] at halt
  have hleft : leftover t = [] := by
    by_contra hne
    obtain ⟨toSend, chunks', _, hstream, hpos⟩ := h.leftoverAtFront hne
    rw [hlist] at hstream
    injection hstream with hnode
    injection hnode with htoSend
    exact hpos htoSend.symm
  obtain ⟨provider, plaintext, fileBuffer, hsent, hkept⟩ := sendStreamInLoop_ended { t with
    fileBufferUse := if t.fileBufferUse = .stream then .stream else .mixed } hP chunks
  have hnothing : t.fileBufferUse = .stream → plaintext = t.plaintext ∧ fileBuffer = [] :=
    fun huse => hkept ((if_pos huse).symm.trans hleft)
  unfold sendFileInLoop
  rw [hlist]
  simp only [hsent]
  refine ⟨_, rfl, ⟨h.1, h.2, by simp, halt.replaceFront fun _ => rfl, fun hne => ?_⟩, ?_, rfl, rfl,
    rfl, rfl⟩
  · by_cases hstream : t.fileBufferUse = .stream
    · simp [leftover, hnothing hstream] at hne
    · simp [leftover, hstream] at hne
  · intro hmixed
    have hstream := stream_of_not_mixed hmixed
    obtain ⟨rfl, rfl⟩ := hnothing hstream
    refine ⟨by simp [hstream], ?_⟩
    change t.plaintext ++ _ = t.plaintext ++ _ ++ []
    rw [List.append_nil, hleft]
    simp [leftover, hlist]

theorem sendStream_progress (hP : OnlyEAGAIN P) (h : Sending t) {toSend : Nat} {chunks : List Bytes}
    {rest : List BufferNode} (hlist : t.conn.writeBufferList = .stream toSend chunks :: rest) :
    ∃ t', sendFileInLoop P t = some t' ∧ Progress t [] t' := by
  rcases eq_or_ne toSend 0 with rfl | hopen
  · exact sendStream_progress_of_ended hP h hlist
  · have halt := h.alternating
    rw [hlist] at halt
    obtain ⟨provider, plaintext, fileBuffer, toSend', chunks', hsent, hleft, hout⟩ :=
      sendStreamInLoop_sent { t with
        fileBufferUse := if t.fileBufferUse = .stream then .stream else .mixed } hP hopen chunks
    unfold sendFileInLoop
    rw [hlist]
    simp only [hsent]
    refine ⟨_, rfl, ⟨h.1, h.2, by simp, halt.replaceFront fun _ => rfl, ?_⟩, ?_, rfl, rfl, rfl, rfl⟩
    · intro hne
      refine ⟨toSend', chunks', rest, rfl, hleft ?_⟩
      rintro rfl
      simp [leftover] at hne
    · intro hmixed
      have huse := stream_of_not_mixed hmixed
      refine ⟨by simp [huse], ?_⟩
      simp only [output, leftover, huse, if_true, hlist, List.map_cons, List.flatten_cons,
        List.append_nil]
      rw [← List.append_assoc fileBuffer, ← List.append_assoc, hout, nodePending, if_neg hopen]
      simp [List.append_assoc]

theorem sendFileInLoop_progress (hP : OnlyEAGAIN P) (h : Sending t) {node : BufferNode}
    {rest : List BufferNode} (hlist : t.conn.writeBufferList = node :: rest)
    (hfile : node.isFile) : ∃ t', sendFileInLoop P t = some t' ∧ Progress t [] t' := by
  cases node with
  | msg msgBuffer => simp [BufferNode.isFile] at hfile
  | file content offset toSend =>
      have halt := h.alternating
      rw [hlist] at halt
      have hleft := leftover_eq_nil h (by simp [hlist])
      obtain ⟨provider, plaintext, fileBuffer, writing, offset', toSend', hsent, hout⟩ :=
        fileLoop_sent { t with
          conn.fileBuffer := growFileBuffer t.conn.fileBuffer
          fileBufferUse := if t.fileBufferUse = .mixed then .mixed else .file } hP content offset
          toSend
      unfold sendFileInLoop
      rw [hlist]
      simp only [hsent]
      refine ⟨_, rfl, ⟨h.1, h.2, by simp, halt.replaceFront fun _ => rfl, ?_⟩, ?_, rfl, rfl, rfl, rfl⟩
      · intro hne
        refine absurd (if_neg ?_) hne
        simp only
        split <;> simp
      · intro hmixed
        have hclean : t.fileBufferUse ≠ .mixed := by
          intro hmixed'
          exact hmixed (if_pos hmixed')
        refine ⟨hclean, ?_⟩
        simp only [output, leftover, if_neg hclean, hlist, List.map_cons, List.flatten_cons,
          List.append_nil]
        rw [show (if t.fileBufferUse = .stream then t.conn.fileBuffer else []) = [] from hleft,
          if_neg (by decide), List.nil_append, List.nil_append, ← List.append_assoc, hout,
          List.append_assoc]
  | stream toSend chunks => exact sendStream_progress hP h hlist

end SendFileInLoop

section Calls

theorem push_progress (h : Sending t) {node : BufferNode} (hnode : node.isFile) :
    Progress t (nodePending node)
      { t with conn.writeBufferList := t.conn.writeBufferList ++ [node] } := by
  refine ⟨⟨h.1, h.2, by simp, h.alternating.append hnode, ?_⟩, fun hclean => ⟨hclean, ?_⟩, rfl, rfl,
    rfl, rfl⟩
  · intro hne
    obtain ⟨toSend, chunks, rest, hlist, hpos⟩ := h.leftoverAtFront hne
    exact ⟨toSend, chunks, rest ++ [node], by simp [hlist], hpos⟩
  · simp [output, leftover]

theorem pushFile_progress (hP : OnlyEAGAIN P) (h : Sending t) (node : BufferNode)
    (hnode : node.isFile) :
    ∃ t', pushFile P t node = some t' ∧ Progress t (nodePending node) t' := by
  have hpushed := push_progress h hnode
  unfold pushFile
  simp only
  split
  · rename_i hone
    have hlist : t.conn.writeBufferList ++ [node] = [node] := by
      rw [List.length_append, List.length_singleton, Nat.add_eq_right, List.length_eq_zero_iff]
        at hone
      rw [hone, List.nil_append]
    obtain ⟨t', hsent, hprogress⟩ := sendFileInLoop_progress hP hpushed.sending hlist hnode
    exact ⟨t', hsent, by simpa using hpushed.trans hprogress⟩
  · exact ⟨_, rfl, hpushed⟩

/-- The payloads of the calls that have been made: some that have been written in `clear`, then
those that are output, then those that wait in the loop. -/
structure Booked (clear : Bytes) (t : TlsConnection π) : Prop where
  sending : Sending t
  sendNum : t.conn.sendNum = t.conn.funcs.length
  clear_eq : t.conn.socket.written = clear
  books : t.fileBufferUse ≠ .mixed →
    clear ++ (output t ++ (t.conn.funcs.map payload).flatten) = accepted t.conn

variable {clear : Bytes}

theorem Booked.of_progress (h : Booked clear t) (hprogress : Progress t [] t') :
    Booked clear t' where
  sending := hprogress.sending
  sendNum := by rw [hprogress.sendNum_eq, hprogress.funcs_eq, h.sendNum]
  clear_eq := by rw [hprogress.socket_eq, h.clear_eq]
  books := by
    intro hmixed
    obtain ⟨hclean, hout⟩ := hprogress.output_eq hmixed
    rw [hout, List.append_nil, hprogress.funcs_eq, hprogress.accepted_eq, h.books hclean]

theorem Sending.call (h : Sending t) (call : SendCall) :
    Sending { t with conn := TcpConnectionImpl.log t.conn (.call call) } :=
  ⟨h.1, h.2, h.3, h.4, h.5⟩

theorem accepted_log (c : Connection) (call : SendCall) :
    accepted (TcpConnectionImpl.log c (.call call)) = accepted c ++ payload call := by
  simp [accepted, TcpConnectionImpl.log, eventPayload]

theorem Booked.queueCall (h : Booked clear t) (call : SendCall) :
    Booked clear (queueCall { t with conn := TcpConnectionImpl.log t.conn (.call call) } call) where
  sending := ⟨h.sending.1, h.sending.2, h.sending.3, h.sending.4, h.sending.5⟩
  sendNum := by
    simp only [Tls.queueCall, List.length_append, List.length_singleton]
    exact congrArg (· + 1) h.sendNum
  clear_eq := h.clear_eq
  books := by
    intro hclean
    change clear ++ (output t ++ ((t.conn.funcs ++ [call]).map payload).flatten) =
      accepted (TcpConnectionImpl.log t.conn (.call call))
    rw [accepted_log, ← h.books hclean]
    simp

theorem Booked.direct (h : Booked clear t) (hdirect : t.conn.sendNum = 0) {call : SendCall}
    (hprogress : Progress { t with conn := TcpConnectionImpl.log t.conn (.call call) }
      (payload call) t') : Booked clear t' := by
  have hfuncs : t.conn.funcs = [] := List.length_eq_zero_iff.mp (h.sendNum.symm.trans hdirect)
  refine ⟨hprogress.sending, ?_, ?_, fun hmixed => ?_⟩
  · rw [hprogress.sendNum_eq, hprogress.funcs_eq]
    exact h.sendNum
  · rw [hprogress.socket_eq]
    exact h.clear_eq
  · obtain ⟨hclean, hout⟩ := hprogress.output_eq hmixed
    have hbooks := h.books hclean
    rw [hfuncs, List.map_nil, List.flatten_nil, List.append_nil] at hbooks
    rw [hout, hprogress.funcs_eq, hprogress.accepted_eq, accepted_log, ← hbooks,
      show ({ t with conn := TcpConnectionImpl.log t.conn (.call call) } :
        TlsConnection π).conn.funcs = [] from hfuncs, List.map_nil, List.flatten_nil,
      List.append_nil, List.append_assoc]
    rfl

theorem Booked.runCall (hP : OnlyEAGAIN P) (h : Booked clear t) (inLoopThread : Bool)
    (call : SendCall) : ∃ t', runCall P inLoopThread t call = some t' ∧ Booked clear t' := by
  have hcall := h.sending.call call
  by_cases hdirect : inLoopThread = true ∧ t.conn.sendNum = 0
  · cases call with
    | send msg =>
        refine ⟨_, rfl, ?_⟩
        rw [send, if_pos (by exact hdirect)]
        exact h.direct hdirect.2 (sendInLoop_progress hP hcall msg)
    | sendFile content offset length =>
        obtain ⟨t', hpush, hprogress⟩ := pushFile_progress hP hcall
          (.file content offset length) rfl
        exact ⟨t', (if_pos hdirect).trans hpush, h.direct hdirect.2 hprogress⟩
    | sendStream chunks =>
        obtain ⟨t', hpush, hprogress⟩ := pushFile_progress hP hcall
          (.stream 1 chunks) rfl
        exact ⟨t', (if_pos hdirect).trans hpush, h.direct hdirect.2 hprogress⟩
  · refine ⟨_, ?_, h.queueCall call⟩
    cases call with
    | send msg => exact congrArg some (if_neg hdirect)
    | sendFile | sendStream => exact if_neg hdirect

theorem Booked.functor (h : Booked clear t) {call : SendCall} {rest : List SendCall}
    (hfuncs : t.conn.funcs = call :: rest) (hsending : Sending t') (houtput :
      t'.fileBufferUse ≠ .mixed →
        t.fileBufferUse ≠ .mixed ∧ output t' = output t ++ payload call)
    (haccepted : accepted t'.conn = accepted t.conn)
    (hsendNum : t'.conn.sendNum = t.conn.sendNum - 1) (hrest : t'.conn.funcs = rest)
    (hsocket : t'.conn.socket = t.conn.socket) : Booked clear t' := by
  refine ⟨hsending, ?_, by rw [hsocket, h.clear_eq], fun hmixed => ?_⟩
  · rw [hsendNum, hrest, h.sendNum, hfuncs, List.length_cons, Nat.add_sub_cancel]
  · obtain ⟨hclean, hout⟩ := houtput hmixed
    rw [haccepted, ← h.books hclean, hout, hrest, hfuncs, List.map_cons, List.flatten_cons,
      List.append_assoc]

theorem Booked.runFunctor (hP : OnlyEAGAIN P) (h : Booked clear t) :
    ∃ t', runFunctor P t = some t' ∧ Booked clear t' := by
  have htaken : ∀ sendNum funcs, Sending { t with conn.sendNum := sendNum, conn.funcs := funcs } :=
    fun _ _ => ⟨h.sending.1, h.sending.2, h.sending.3, h.sending.4, h.sending.5⟩
  unfold Tls.runFunctor
  cases hfuncs : t.conn.funcs with
  | nil => exact ⟨t, rfl, h⟩
  | cons call rest =>
      cases call with
      | send msg =>
          have hprogress := sendInLoop_progress hP (htaken t.conn.sendNum rest) msg
          refine ⟨_, rfl, h.functor hfuncs ?_ hprogress.output_eq hprogress.accepted_eq ?_
            hprogress.funcs_eq hprogress.socket_eq⟩
          · exact ⟨hprogress.sending.1, hprogress.sending.2, hprogress.sending.3,
              hprogress.sending.4, hprogress.sending.5⟩
          · exact congrArg (· - 1) hprogress.sendNum_eq
      | sendFile content offset length =>
          obtain ⟨t', hpush, hprogress⟩ := pushFile_progress hP
            (htaken (t.conn.sendNum - 1) rest) (.file content offset length) rfl
          exact ⟨t', hpush, h.functor hfuncs hprogress.sending hprogress.output_eq
            hprogress.accepted_eq hprogress.sendNum_eq hprogress.funcs_eq hprogress.socket_eq⟩
      | sendStream chunks =>
          obtain ⟨t', hpush, hprogress⟩ := pushFile_progress hP
            (htaken (t.conn.sendNum - 1) rest) (.stream 1 chunks) rfl
          exact ⟨t', hpush, h.functor hfuncs hprogress.sending hprogress.output_eq
            hprogress.accepted_eq hprogress.sendNum_eq hprogress.funcs_eq hprogress.socket_eq⟩

end Calls

section WriteCallback

variable {clear : Bytes}

theorem checkCloseOnEmpty_eq (h : Sending t) : checkCloseOnEmpty P t = t := by
  simp [checkCloseOnEmpty, h.notClosing]

theorem Sending.setProvider (h : Sending t) (provider : π) :
    Progress t [] { t with provider } where
  sending := ⟨h.1, h.2, h.3, h.4, h.5⟩
  output_eq hclean := ⟨hclean, (List.append_nil _).symm⟩
  accepted_eq := rfl
  sendNum_eq := rfl
  funcs_eq := rfl
  socket_eq := rfl

theorem pop_progress (h : Sending t) {node : BufferNode} {rest : List BufferNode}
    (hlist : t.conn.writeBufferList = node :: rest) (hdone : nodeDone node) (writing : Bool)
    (hwriting : writing = true → rest ≠ []) :
    Progress t [] { t with conn.writeBufferList := rest, conn.writing := writing } := by
  have halt := h.alternating
  rw [hlist] at halt
  have hleft : leftover t = [] := by
    by_contra hne
    obtain ⟨toSend, chunks, _, hstream, hpos⟩ := h.leftoverAtFront hne
    obtain rfl := (List.cons.inj (hlist.symm.trans hstream)).1
    exact hpos hdone
  have hnode : nodePending node = [] := by
    cases node with
    | msg msgBuffer => exact List.length_eq_zero_iff.mp hdone
    | file content offset toSend => rw [nodePending, show toSend = 0 from hdone, List.take_zero]
    | stream toSend chunks => rw [nodePending, if_pos (show toSend = 0 from hdone)]
  refine ⟨⟨h.1, h.2, hwriting, halt.tail, fun hne => absurd hleft hne⟩,
    fun hclean => ⟨hclean, ?_⟩, rfl, rfl, rfl, rfl⟩
  change t.plaintext ++ (leftover t ++ _) = output t ++ []
  simp [output, hleft, hlist, hnode]

theorem writeMsg_progress (hP : OnlyEAGAIN P) (h : Sending t) {msgBuffer : Bytes}
    {rest : List BufferNode} (hlist : t.conn.writeBufferList = .msg msgBuffer :: rest) :
    Progress t [] (writeMsg P t msgBuffer rest) := by
  have hleft := leftover_eq_nil h (by simp [hlist])
  have halt := h.alternating
  rw [hlist] at halt
  unfold writeMsg
  rcases writeInLoop_cases t hP msgBuffer with ⟨n, hn, provider, hw⟩ | ⟨provider, hw⟩
  · have hsent : Progress t [] { t with
        provider
        plaintext := t.plaintext ++ msgBuffer.take n
        conn.writeBufferList := .msg (retrieve msgBuffer n) :: rest } := by
      refine ⟨⟨h.1, h.2, by simp, halt.replaceFront fun hfile => ?_, fun hne => absurd hleft hne⟩,
        fun hclean => ⟨hclean, ?_⟩, rfl, rfl, rfl, rfl⟩
      · simp [BufferNode.isFile] at hfile
      · change t.plaintext ++ msgBuffer.take n ++ (leftover t ++ _) = output t ++ []
        simp only [output, hleft, hlist, List.map_cons, List.flatten_cons, nodePending, retrieve_eq,
          List.nil_append, List.append_nil, List.append_assoc]
        rw [← List.append_assoc (List.take n msgBuffer), List.take_append_drop]
    simp only [hw, checkCloseOnEmpty_eq hsent.sending]
    exact hsent
  · have hsent := h.setProvider provider
    simp only [hw, checkCloseOnEmpty_eq hsent.sending]
    exact hsent

theorem map_checkCloseOnEmpty_progress (hP : OnlyEAGAIN P) (h : Sending t) {node : BufferNode}
    {rest : List BufferNode} (hlist : t.conn.writeBufferList = node :: rest) (hfile : node.isFile) :
    ∃ t', (sendFileInLoop P t).map (checkCloseOnEmpty P) = some t' ∧ Progress t [] t' := by
  obtain ⟨t', hsent, hprogress⟩ := sendFileInLoop_progress hP h hlist hfile
  exact ⟨t', by rw [hsent, Option.map_some, checkCloseOnEmpty_eq hprogress.sending], hprogress⟩

theorem Booked.foldlM_runCall (hP : OnlyEAGAIN P) (h : Booked clear t) (calls : List SendCall) :
    ∃ t', calls.foldlM (Tls.runCall P true) t = some t' ∧ Booked clear t' := by
  induction calls generalizing t with
  | nil => exact ⟨t, rfl, h⟩
  | cons call calls ih =>
      obtain ⟨t₁, hcall, h₁⟩ := h.runCall hP true call
      obtain ⟨t₂, hcalls, h₂⟩ := ih h₁
      exact ⟨t₂, by rw [List.foldlM_cons, hcall]; exact hcalls, h₂⟩

theorem Booked.finishWriting (hP : OnlyEAGAIN P)
    (h : Booked clear { t with conn.writing := false }) (calls : List SendCall) :
    ∃ t', (finishWriting P calls t).map (checkCloseOnEmpty P) = some t' ∧ Booked clear t' := by
  have hlog := h.of_progress (h.sending.log .writeCompleteCallback rfl)
  obtain ⟨t', hcalls, h'⟩ := hlog.foldlM_runCall hP calls
  refine ⟨t', ?_, h'⟩
  rw [Tls.finishWriting]
  have hconnected : ¬t'.conn.status = .Disconnecting := by
    rw [h'.sending.connected]
    decide
  refine (congrArg (fun result => (Option.map _ result).map (checkCloseOnEmpty P)) hcalls).trans ?_
  rw [Option.map_some, if_neg hconnected, Option.map_some, checkCloseOnEmpty_eq h'.sending]

theorem Booked.writeNext (hP : OnlyEAGAIN P) (h : Booked clear t) {node : BufferNode}
    {rest : List BufferNode} (hlist : t.conn.writeBufferList = node :: rest) (hdone : nodeDone node)
    (calls : List SendCall) :
    ∃ t', writeNext P calls node.isFile t rest = some t' ∧ Booked clear t' := by
  have halt := h.sending.alternating
  rw [hlist] at halt
  cases rest with
  | nil =>
      have hpop := pop_progress h.sending hlist hdone false (by simp)
      exact (h.of_progress hpop).finishWriting (t := { t with conn.writeBufferList := [] }) hP calls
  | cons next rest =>
      have hpop := pop_progress h.sending hlist hdone t.conn.writing (by simp)
      cases next with
      | msg msgBuffer =>
          have hfile : node.isFile = true := by
            simpa [BufferNode.isFile] using (List.isChain_cons_cons.mp halt).1
          rw [Tls.writeNext, hfile]
          exact ⟨_, rfl, h.of_progress (hpop.trans (writeMsg_progress hP hpop.sending rfl))⟩
      | file | stream =>
          obtain ⟨t', hsent, hprogress⟩ := map_checkCloseOnEmpty_progress hP hpop.sending rfl rfl
          exact ⟨t', hsent, h.of_progress (hpop.trans hprogress)⟩

theorem Booked.writeList (hP : OnlyEAGAIN P) (h : Booked clear t)
    (hne : t.conn.writeBufferList ≠ []) (calls : List SendCall) :
    ∃ t', writeList P calls t = some t' ∧ Booked clear t' := by
  unfold Tls.writeList
  cases hlist : t.conn.writeBufferList with
  | nil => exact absurd hlist hne
  | cons node rest =>
      have hfile : node.isFile →
          ∃ t', (sendFileInLoop P t).map (checkCloseOnEmpty P) = some t' ∧ Booked clear t' := by
        intro hnode
        obtain ⟨t', hsent, hprogress⟩ := map_checkCloseOnEmpty_progress hP h.sending hlist hnode
        exact ⟨t', hsent, h.of_progress hprogress⟩
      cases node with
      | msg msgBuffer =>
          simp only
          split
          · rename_i hdone
            exact h.writeNext hP hlist hdone calls
          · exact ⟨_, rfl, h.of_progress (writeMsg_progress hP h.sending hlist)⟩
      | file | stream =>
          simp only
          split
          · rename_i hdone
            exact h.writeNext hP hlist hdone calls
          · exact hfile rfl

theorem Booked.writeCallback (hP : OnlyEAGAIN P) (h : Booked clear t) (calls : List SendCall) :
    ∃ t', writeCallback P calls t = some t' ∧ Booked clear t' := by
  unfold Tls.writeCallback
  split
  · rename_i hwriting
    have hne := h.sending.nonempty hwriting
    rcases P.sendBufferedData t.provider with ⟨_ | _, provider⟩
    · refine ⟨_, rfl, h.of_progress ?_⟩
      have hprogress := h.sending.setProvider provider
      rw [show TcpConnectionImpl.enableWriting t.conn = t.conn by
        rw [TcpConnectionImpl.enableWriting, ← hwriting]]
      exact hprogress
    · exact (h.of_progress (h.sending.setProvider provider)).writeList hP hne calls
  · exact ⟨t, rfl, h⟩

end WriteCallback

section Run

/-- What happens to the sending side of a connection: a call, in the loop thread or in another one,
the next functor, or `writeCallback` with the calls that `writeCompleteCallback_` makes. -/
inductive TlsOp
  | call (inLoopThread : Bool) (call : SendCall)
  | runFunctor
  | writeCallback (calls : List SendCall)
  deriving DecidableEq

def step (P : TLSProvider π) (t : TlsConnection π) : TlsOp → Option (TlsConnection π)
  | .call inLoopThread call => runCall P inLoopThread t call
  | .runFunctor => runFunctor P t
  | .writeCallback calls => writeCallback P calls t

def run (P : TLSProvider π) (t : TlsConnection π) (ops : List TlsOp) : Option (TlsConnection π) :=
  ops.foldlM (step P) t

variable {clear : Bytes}

theorem Booked.step (hP : OnlyEAGAIN P) (h : Booked clear t) (op : TlsOp) :
    ∃ t', step P t op = some t' ∧ Booked clear t' := by
  cases op with
  | call inLoopThread call => exact h.runCall hP inLoopThread call
  | runFunctor => exact h.runFunctor hP
  | writeCallback calls => exact h.writeCallback hP calls

theorem Booked.run (hP : OnlyEAGAIN P) (h : Booked clear t) (ops : List TlsOp) :
    ∃ t', run P t ops = some t' ∧ Booked clear t' := by
  induction ops generalizing t with
  | nil => exact ⟨t, rfl, h⟩
  | cons op ops ih =>
      obtain ⟨t₁, hstep, h₁⟩ := h.step hP op
      obtain ⟨t₂, hrun, h₂⟩ := ih h₁
      exact ⟨t₂, by rw [TlsPlaintext.run, List.foldlM_cons, hstep]; exact hrun, h₂⟩

def secured (highWaterMarkLen : Option Nat) (provider : π) : TlsConnection π where
  conn := TcpConnectionImpl.established highWaterMarkLen
  provider
  plaintext := []
  fileBufferUse := .stream

theorem booked_secured (highWaterMarkLen : Option Nat) (provider : π) :
    Booked [] (secured highWaterMarkLen provider) where
  sending := ⟨rfl, rfl, by simp [secured, TcpConnectionImpl.established], List.isChain_nil,
    by simp [secured, leftover, TcpConnectionImpl.established]⟩
  sendNum := rfl
  clear_eq := rfl
  books _ := rfl

theorem Booked.plaintext_prefix (h : Booked clear t) (hclean : t.fileBufferUse ≠ .mixed) :
    clear ++ t.plaintext <+: accepted t.conn := by
  rw [← h.books hclean, output, List.append_assoc, ← List.append_assoc clear]
  exact List.prefix_append ..

/-- As long as no stream has been started from the bytes of a file, the provider gets the payloads
of the calls, in call order. -/
theorem plaintext_prefix_accepted (hP : OnlyEAGAIN P) (highWaterMarkLen : Option Nat) (provider : π)
    (ops : List TlsOp) :
    ∃ t, run P (secured highWaterMarkLen provider) ops = some t ∧
      (t.fileBufferUse ≠ .mixed → t.plaintext <+: accepted t.conn) := by
  obtain ⟨t, hrun, h⟩ := (booked_secured highWaterMarkLen provider).run hP ops
  exact ⟨t, hrun, h.plaintext_prefix⟩

def narrowProvider : TLSProvider Unit where
  sendData _ data := (.done ⟨min 2 data.length, by omega⟩, ())
  sendBufferedData _ := (true, ())
  getBufferedData _ := []
  close _ := ()

theorem onlyEAGAIN_narrowProvider : OnlyEAGAIN narrowProvider := by
  rintro p data e ⟨⟩

theorem plaintext_prefix_accepted_narrowProvider :
    OnlyEAGAIN narrowProvider ∧
    ∃ t, run narrowProvider (secured none ()) [.call true (.sendStream [[3, 4, 5], []]),
        .call true (.sendFile [1, 2] 0 2), .writeCallback [.send [6]]] = some t ∧
      (t.fileBufferUse ≠ .mixed → t.plaintext <+: accepted t.conn) :=
  ⟨onlyEAGAIN_narrowProvider, plaintext_prefix_accepted onlyEAGAIN_narrowProvider none () _⟩

def fileThenStream : List TlsOp :=
  [.call true (.sendFile [1, 2] 0 2), .call true (.sendStream [[3], []]), .writeCallback []]

/-- The stream starts with the bytes that the file has left. -/
theorem not_plaintext_prefix_fileThenStream :
    ¬∀ ops t, run narrowProvider (secured none ()) ops = some t →
      t.plaintext <+: accepted t.conn := by
  intro h
  obtain ⟨t, hrun, -⟩ :=
    (booked_secured none ()).run onlyEAGAIN_narrowProvider fileThenStream
  have hplaintext : (run narrowProvider (secured none ()) fileThenStream).map
      TlsConnection.plaintext = some [1, 2, 1, 2] := by decide +kernel
  have haccepted : (run narrowProvider (secured none ()) fileThenStream).map
      (fun t => accepted t.conn) = some [1, 2, 3] := by decide +kernel
  rw [hrun, Option.map_some, Option.some.injEq] at hplaintext haccepted
  have hprefix := h fileThenStream t hrun
  rw [hplaintext, haccepted] at hprefix
  exact absurd hprefix (by decide)

end Run

end Cooper.TlsPlaintext

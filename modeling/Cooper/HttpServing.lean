import Cooper.HttpLoop

namespace Cooper.HttpServing

open Cooper.Http
open Cooper.HttpLoop
open Cooper.HttpReply
open Cooper.HttpServer
open Cooper.MsgBuffer
open Cooper.Multipart
open Cooper.TcpConnectionImpl

structure Serving (c : Connection) : Prop where
  status : c.status = .Connected ∨ c.status = .Disconnected
  writable : c.socket.writeClosed = false
  notClosing : c.closeOnEmpty = false
  direct : c.sendNum = 0
  nonempty : c.writing = true → c.writeBufferList ≠ []

structure SameQueue (c c' : Connection) : Prop where
  status : c'.status = c.status
  writeClosed : c'.socket.writeClosed = c.socket.writeClosed
  closeOnEmpty : c'.closeOnEmpty = c.closeOnEmpty
  sendNum : c'.sendNum = c.sendNum
  writeBufferList : c'.writeBufferList = c.writeBufferList

section SameQueue

variable {c c' c'' : Connection}

theorem SameQueue.trans (h : SameQueue c c') (h' : SameQueue c' c'') : SameQueue c c'' where
  status := h'.status.trans h.status
  writeClosed := h'.writeClosed.trans h.writeClosed
  closeOnEmpty := h'.closeOnEmpty.trans h.closeOnEmpty
  sendNum := h'.sendNum.trans h.sendNum
  writeBufferList := h'.writeBufferList.trans h.writeBufferList

theorem SameQueue.serving (h : SameQueue c c') (hs : Serving c) (list : List BufferNode)
    (hlist : list ≠ []) : Serving { c' with writeBufferList := list } where
  status := h.status ▸ hs.status
  writable := h.writeClosed.trans hs.writable
  notClosing := h.closeOnEmpty.trans hs.notClosing
  direct := h.sendNum.trans hs.direct
  nonempty _ := hlist

theorem SameQueue.serving_of_idle (h : SameQueue c c') (hs : Serving c)
    (hidle : c'.writing = false) : Serving c' where
  status := h.status ▸ hs.status
  writable := h.writeClosed.trans hs.writable
  notClosing := h.closeOnEmpty.trans hs.notClosing
  direct := h.sendNum.trans hs.direct
  nonempty hwriting := by simp [hidle] at hwriting

variable (kernel : Kernel)

theorem write_writeClosed (socket : Socket) (data : Bytes) :
    (socket.write kernel data).2.writeClosed = socket.writeClosed := by
  rw [Socket.write]
  split
  · rfl
  · split <;> rfl

theorem writeInLoop_eq (c : Connection) (data : Bytes) :
    (writeInLoop kernel c data).1 = (c.socket.write kernel data).1 ∧
      (writeInLoop kernel c data).2.socket = (c.socket.write kernel data).2 ∧
      (writeInLoop kernel c data).2.writing = c.writing ∧
      SameQueue c (writeInLoop kernel c data).2 := by
  have hclosed := write_writeClosed kernel c.socket data
  rcases hwrite : c.socket.write kernel data with ⟨e | n, socket⟩ <;>
    · rw [hwrite] at hclosed
      rw [writeInLoop, hwrite]
      exact ⟨rfl, rfl, rfl, rfl, hclosed, rfl, rfl, rfl⟩

theorem streamKept_same : StreamKept kernel SameQueue where
  trans _ _ _ h h' := h.trans h'
  written c data := (writeInLoop_eq kernel c data).2.2.2
  stored _ _ _ := ⟨rfl, rfl, rfl, rfl, rfl⟩

theorem sendfileInLoop_same (c : Connection) (content : Bytes) (offset fileBytesToSend : Nat) :
    SameQueue c (sendfileInLoop kernel c content offset fileBytesToSend).1 := by
  have hclosed := write_writeClosed kernel c.socket ((content.drop offset).take fileBytesToSend)
  rw [← Socket.sendfile] at hclosed
  rw [sendfileInLoop]
  rcases hwrite : c.socket.sendfile kernel content offset fileBytesToSend with ⟨e | n, socket⟩
  · rw [hwrite] at hclosed
    simp only
    split <;> exact ⟨rfl, hclosed, rfl, rfl, rfl⟩
  · rw [hwrite] at hclosed
    simp only
    split <;> exact ⟨rfl, hclosed, rfl, rfl, rfl⟩

end SameQueue

section Serving

variable {kernel : Kernel} {c c' : Connection}

theorem sendFileInLoop_serving (hs : Serving c) (hsend : sendFileInLoop kernel c = some c') :
    Serving c' ∧ c'.status = c.status := by
  rw [sendFileInLoop] at hsend
  split at hsend
  · rename_i content offset fileBytesToSend rest hlist
    obtain rfl := Option.some.inj hsend
    have hsame := sendfileInLoop_same kernel c content offset fileBytesToSend
    exact ⟨hsame.serving hs _ (by simp), hsame.status⟩
  · rename_i fileBytesToSend chunks rest hlist
    obtain rfl := Option.some.inj hsend
    have hsame := (streamKept_same kernel).sendStreamInLoop c fileBytesToSend chunks
    exact ⟨hsame.serving hs _ (by simp), hsame.status⟩
  · simp at hsend

theorem queueInList_serving (hs : Serving c) (remaining : Bytes) :
    Serving (queueInList c remaining) := by
  rw [queueInList]
  split
  · have hqueued : Serving (enableWriting
        { c with writeBufferList := appendMsg remaining c.writeBufferList }) :=
      ⟨hs.status, hs.writable, hs.notClosing, hs.direct, fun _ =>
        appendMsg_ne_nil _ _⟩
    rw [checkHighWaterMark]
    split
    · split
      · exact ⟨hqueued.1, hqueued.2, hqueued.3, hqueued.4, hqueued.5⟩
      · exact hqueued
    · exact hqueued
  · exact hs

theorem sendInLoop_serving (hs : Serving c) (data : Bytes) :
    Serving (sendInLoop kernel c data) := by
  rw [sendInLoop]
  split
  · exact hs
  · split
    · rename_i hidle
      obtain ⟨-, -, hwriting, hsame⟩ := writeInLoop_eq kernel c data
      rcases hwrite : writeInLoop kernel c data with ⟨e | n, c'⟩
      · rw [hwrite] at hwriting hsame
        have hc' := hsame.serving_of_idle hs (hwriting.trans hidle.1)
        simp only
        split
        · exact hc'
        · exact queueInList_serving hc' data
      · rw [hwrite] at hwriting hsame
        exact queueInList_serving (hsame.serving_of_idle hs (hwriting.trans hidle.1)) _
    · exact queueInList_serving hs data

theorem log_serving (hs : Serving c) (event : ConnEvent) : Serving (log c event) :=
  ⟨hs.status, hs.writable, hs.notClosing, hs.direct, hs.nonempty⟩

theorem send_eq (hs : Serving c) (data : Bytes) :
    send kernel true c data = sendInLoop kernel (log c (.call (.send data))) data := by
  rw [send]
  exact if_pos ⟨rfl, hs.direct⟩

theorem send_serving (hs : Serving c) (data : Bytes) : Serving (send kernel true c data) := by
  rw [send_eq hs]
  exact sendInLoop_serving (log_serving hs _) data

theorem sendFile_serving (hs : Serving c) (content : Bytes) (offset length : Nat)
    (hsend : sendFile kernel true c content offset length = some c') : Serving c' := by
  have hpushed : Serving { log c (.call (.sendFile content offset length)) with
      writeBufferList := c.writeBufferList ++ [.file content offset length] } :=
    ⟨hs.status, hs.writable, hs.notClosing, hs.direct, fun _ => by simp⟩
  rw [sendFile, if_pos ⟨rfl, hs.direct⟩, pushFile] at hsend
  simp only at hsend
  split at hsend
  · exact (sendFileInLoop_serving hpushed hsend).1
  · obtain rfl := Option.some.inj hsend
    exact hpushed

theorem write_serving (hs : Serving c) (env : Environment) (writer : HttpContentWriter)
    (size : Nat) : Serving (writer.write env size c) := by
  rw [HttpContentWriter.write]
  split
  · exact hs
  · rw [sendFileName]
    split
    · exact hs
    · rename_i content _
      obtain ⟨c', hsend, -⟩ := exists_sendFile env.kernel c true content 0 size
      rw [hsend]
      exact sendFile_serving hs content 0 size hsend

theorem checkCloseOnEmpty_of_serving (hs : Serving c) : checkCloseOnEmpty c = c :=
  if_neg (by simp [hs.notClosing])

theorem writeMsg_serving (hs : Serving c) (hlist : c.writeBufferList ≠ []) (msgBuffer : Bytes)
    (rest : List BufferNode) :
    Serving (writeMsg kernel c msgBuffer rest) ∧
      (writeMsg kernel c msgBuffer rest).status = c.status := by
  have hsame := (writeInLoop_eq kernel c msgBuffer).2.2.2
  rw [writeMsg]
  rcases hwrite : writeInLoop kernel c msgBuffer with ⟨e | n, c'⟩
  · rw [hwrite] at hsame
    have hc' : Serving c' := hsame.serving hs c'.writeBufferList
      (hsame.writeBufferList ▸ hlist)
    simp only [checkCloseOnEmpty_of_serving hc', ite_self]
    exact ⟨hc', hsame.status⟩
  · rw [hwrite] at hsame
    have hnext := hsame.serving hs (.msg (retrieve msgBuffer n) :: rest) (by simp)
    simp only [checkCloseOnEmpty_of_serving hnext]
    exact ⟨hnext, hsame.status⟩

theorem sendFileInLoop_checked_serving (hs : Serving c)
    (hsend : (sendFileInLoop kernel c).map checkCloseOnEmpty = some c') :
    Serving c' ∧ c'.status = c.status := by
  obtain ⟨sent, hsent, rfl⟩ := Option.map_eq_some_iff.mp hsend
  obtain ⟨hserving, hstatus⟩ := sendFileInLoop_serving hs hsent
  rw [checkCloseOnEmpty_of_serving hserving]
  exact ⟨hserving, hstatus⟩

theorem finishWriting_eq (hstatus : c.status = .Connected ∨ c.status = .Disconnected) :
    finishWriting kernel [] c = some (log (disableWriting c) .writeCompleteCallback) := by
  have hnot : c.status ≠ .Disconnecting := by
    rcases hstatus with hstatus | hstatus <;> simp [hstatus]
  exact congrArg some (if_neg hnot)

theorem writeNext_serving (hs : Serving c) (afterFile : Bool) (rest : List BufferNode)
    (hnext : writeNext kernel [] afterFile c rest = some c') :
    Serving c' ∧ c'.status = c.status := by
  rcases rest with _ | ⟨node, rest⟩
  · have hdone : Serving (log (disableWriting { c with writeBufferList := [] })
        .writeCompleteCallback) :=
      ⟨hs.status, hs.writable, hs.notClosing, hs.direct, fun hwriting => by
        simp [log, disableWriting] at hwriting⟩
    rw [writeNext, finishWriting_eq (c := { c with writeBufferList := [] }) hs.status,
      Option.map_some, checkCloseOnEmpty_of_serving hdone] at hnext
    obtain rfl := Option.some.inj hnext
    exact ⟨hdone, rfl⟩
  · have hpopped : Serving { c with writeBufferList := node :: rest } :=
      ⟨hs.status, hs.writable, hs.notClosing, hs.direct, fun _ => by simp⟩
    cases node with
    | msg msgBuffer =>
        rw [writeNext] at hnext
        split at hnext
        · obtain rfl := Option.some.inj hnext
          exact writeMsg_serving hpopped (by simp) msgBuffer rest
        · simp at hnext
    | file content offset fileBytesToSend =>
        have hsent := sendFileInLoop_checked_serving hpopped hnext
        exact hsent
    | stream fileBytesToSend chunks =>
        have hsent := sendFileInLoop_checked_serving hpopped hnext
        exact hsent

theorem writeCallback_serving (hs : Serving c)
    (hwrite : TcpConnectionImpl.writeCallback kernel [] c = some c') :
    Serving c' ∧ c'.status = c.status := by
  rw [TcpConnectionImpl.writeCallback] at hwrite
  split at hwrite
  · rename_i hwriting
    split at hwrite
    · simp at hwrite
    · split at hwrite
      · exact writeNext_serving hs false _ hwrite
      · obtain rfl := Option.some.inj hwrite
        exact writeMsg_serving hs (hs.nonempty hwriting) _ _
    · split at hwrite
      · exact writeNext_serving hs true _ hwrite
      · exact sendFileInLoop_checked_serving hs hwrite
    · split at hwrite
      · exact writeNext_serving hs true _ hwrite
      · exact sendFileInLoop_checked_serving hs hwrite
  · obtain rfl := Option.some.inj hwrite
    exact ⟨hs, rfl⟩

theorem handleClose_serving (hs : Serving c) : Serving (handleClose c) :=
  ⟨.inr rfl, hs.writable, hs.notClosing, hs.direct, fun hwriting => by
    simp [handleClose, disableAll, log] at hwriting⟩

theorem forceClose_serving (hs : Serving c) : Serving (forceClose c) := by
  rw [forceClose]
  split
  · exact ⟨.inr rfl, hs.writable, hs.notClosing, hs.direct, fun hwriting => by
      simp [handleClose, disableAll, log] at hwriting⟩
  · exact hs

theorem connectDestroyed_serving (hs : Serving c) : Serving (connectDestroyed c) := by
  rw [connectDestroyed]
  split
  · exact ⟨.inr rfl, hs.writable, hs.notClosing, hs.direct, fun hwriting => by
      simp [disableAll, log] at hwriting⟩
  · exact hs

theorem readCallback_serving (hs : Serving c) (result : ReadResult) :
    Serving (readCallback c result).1 := by
  rcases result with e | _ | ⟨byte, chunk⟩
  · rw [readCallback]
    split
    · exact hs
    · exact handleClose_serving hs
  · exact handleClose_serving hs
  · exact ⟨hs.status, hs.writable, hs.notClosing, hs.direct, hs.nonempty⟩

end Serving

section Step

variable {env : Environment} {server : Server} {input : List ReadResult} {s s' : HttpConnection}

theorem setReadBuffer_serving (hs : Serving s.conn) (readBuffer : Bytes) :
    Serving (setReadBuffer s readBuffer).conn :=
  ⟨hs.status, hs.writable, hs.notClosing, hs.direct, hs.nonempty⟩

theorem sendResponse_serving (hs : Serving s.conn) (response : HttpResponse)
    (contentWriter : Option HttpContentWriter) :
    Serving (sendResponse env server response contentWriter s).conn := by
  cases contentWriter with
  | none => exact send_serving hs _
  | some writer => exact write_serving (send_serving hs _) env writer _

theorem countRequest_serving (hs : Serving s.conn) (response : HttpResponse) :
    Serving (countRequest response s).conn := by
  rw [countRequest_eq]
  split
  · exact hs
  · exact forceClose_serving hs

theorem recvMsgCallback_serving (hs : Serving s.conn)
    (hreturn : recvMsgCallback env server input s = .returned s') : Serving s'.conn := by
  rcases hparsed : parseRequest s.conn.readBuffer with e | ⟨_ | _, request⟩
  · simp [recvMsgCallback, hparsed] at hreturn
  · simp only [recvMsgCallback, hparsed, CallbackResult.returned.injEq] at hreturn
    rw [← hreturn]
    exact forceClose_serving (sendResponse_serving (setReadBuffer_serving hs _) _ none)
  · obtain ⟨reply, -, rfl⟩ := exists_reply_of_returned hparsed hreturn
    have hopened : Serving (opened server request s).2.conn := by
      rw [opened_conn]
      exact setReadBuffer_serving hs request.buffer
    have hprepared : Serving (reply.prepare (opened server request s).2).conn :=
      setReadBuffer_serving hopened reply.readBuffer
    exact countRequest_serving (sendResponse_serving hprepared _ _) _

theorem hangUp_serving (hs : Serving s.conn) (revents : Revents) :
    Serving (hangUp revents s).conn := by
  rw [hangUp]
  split
  · exact handleClose_serving hs
  · exact hs

theorem readEvent_serving (hs : Serving s.conn) {result : ReadResult}
    (hread : readEvent env server result input s = .returned s') : Serving s'.conn := by
  have hbuffered := readCallback_serving hs result
  rw [readEvent] at hread
  rcases hcallback : readCallback s.conn result with ⟨conn, _ | _⟩
  · rw [hcallback] at hread hbuffered
    rw [← CallbackResult.returned.inj hread]
    exact hbuffered
  · rw [hcallback] at hread hbuffered
    exact recvMsgCallback_serving (s := { s with conn }) hbuffered hread

theorem readPart_serving (hs : Serving s.conn) {revents : Revents} {result : ReadResult}
    (hread : readPart env server revents result input s = .returned s') : Serving s'.conn := by
  rw [readPart] at hread
  split at hread
  · exact readEvent_serving (hangUp_serving hs revents) hread
  · obtain rfl := CallbackResult.returned.inj hread
    exact hangUp_serving hs revents

theorem step_serving (s : HttpConnection) (t : ConnStep) (s' : HttpConnection)
    (hs : Serving s.conn) (hstep : step env server s t = some s') : Serving s'.conn := by
  cases t with
  | event revents result input =>
      rcases handleEvent_cases hstep with ⟨-, rfl⟩ | ⟨-, read, hread, hwrite⟩
      · exact hs
      · have hserving := readPart_serving hs hread
        rcases hwrite with rfl | ⟨conn, hwritten, rfl⟩
        · exact hserving
        · exact (writeCallback_serving hserving hwritten).1
  | forceClose =>
      obtain rfl := Option.some.inj hstep
      exact forceClose_serving hs
  | connectDestroyed =>
      obtain rfl := Option.some.inj hstep
      exact connectDestroyed_serving hs

theorem accepted_serving : Serving accepted.conn :=
  ⟨.inl rfl, rfl, rfl, rfl, fun hwriting => by simp [accepted, established] at hwriting⟩

end Step

end Cooper.HttpServing

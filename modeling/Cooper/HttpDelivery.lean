import Cooper.HttpSegmentation
import Cooper.HttpServing
import Cooper.StepRun

namespace Cooper.HttpDelivery

open Cooper.Http
open Cooper.HttpLoop
open Cooper.HttpReply
open Cooper.HttpSegmentation
open Cooper.HttpServer
open Cooper.HttpServing
open Cooper.MsgBuffer
open Cooper.StepRun
open Cooper.TcpConnectionImpl

def NodeSent : BufferNode → Prop
  | .msg msgBuffer => msgBuffer = []
  | .file _ _ fileBytesToSend => fileBytesToSend = 0
  | .stream fileBytesToSend _ => fileBytesToSend = 0

instance : DecidablePred NodeSent
  | .msg msgBuffer => inferInstanceAs (Decidable (msgBuffer = []))
  | .file _ _ fileBytesToSend => inferInstanceAs (Decidable (fileBytesToSend = 0))
  | .stream fileBytesToSend _ => inferInstanceAs (Decidable (fileBytesToSend = 0))

def AllSent (c : Connection) : Prop := ∀ node ∈ c.writeBufferList, NodeSent node

instance (c : Connection) : Decidable (AllSent c) := by
  unfold AllSent
  infer_instance

/-- When this step makes the server close the connection, all bytes of its responses have been
sent. -/
def ClosesWhole (env : Environment) (server : Server) (s : HttpConnection) : ConnStep → Prop
  | .event revents result input =>
      ∀ entry, callbackEntry revents result s = some entry → entry.conn.status = .Connected →
        ∀ s', recvMsgCallback env server input entry = .returned s' →
          s'.conn.status = .Disconnected → AllSent s'.conn
  | .forceClose | .connectDestroyed => s.conn.status = .Connected → AllSent s.conn

/-- What is left of a string that is written at once. An error other than `EAGAIN` drops it. -/
def leftBehind (kernel : Kernel) (socket : Socket) (data : Bytes) : Bytes :=
  match (socket.write kernel data).1 with
  | .ok n => data.drop n
  | .error e => if e = .EAGAIN then data else []

def FileTaken (env : Environment) (writer : HttpContentWriter) (socket : Socket) : Prop :=
  let size := env.getFileSize writer.file
  writer.file = [] ∨ size = 0 ∨
    match env.openFile writer.file with
    | none => True
    | some content =>
        match (socket.sendfile env.kernel content 0 size).1 with
        | .ok n => size ≤ n
        | .error _ => False

/-- The kernel takes the whole answer while it is handed over: no earlier response waits, and one
`write()` takes the text and one `sendfile()` the file. -/
def TakenAtOnce (env : Environment) (server : Server) (answer : Answer) (c : Connection) : Prop :=
  let text := responseText env server answer.response answer.contentWriter answer.entry.2
  c.writeBufferList = [] ∧ leftBehind env.kernel c.socket text = [] ∧
    ∀ writer, answer.contentWriter = some writer →
      FileTaken env writer (c.socket.write env.kernel text).2

/-- A step that does not close the connection before its responses are sent: the connection stays
open after an answer or the kernel has taken the answer at once, and the connections that are kicked
off have nothing in their queue. -/
def Deliverable (env : Environment) (server : Server) (s : HttpConnection) : ConnStep → Prop
  | .event revents result input =>
      ∀ entry, callbackEntry revents result s = some entry → entry.conn.status = .Connected →
        ∀ answer, answerTo env server input entry = some answer →
          StaysOpen answer.response answer.entry ∨ TakenAtOnce env server answer entry.conn
  | .forceClose | .connectDestroyed => s.conn.status = .Connected → AllSent s.conn

section Queue

variable (kernel : Kernel) {c : Connection}

theorem queueInList_eq (hconnected : c.status = .Connected) (remaining : Bytes) :
    (queueInList c remaining).writeBufferList =
        (if remaining = [] then c.writeBufferList
          else appendMsg remaining c.writeBufferList) ∧
      (queueInList c remaining).socket = c.socket := by
  rcases remaining with _ | ⟨byte, remaining⟩
  · rw [queueInList, if_neg (by simp)]
    exact ⟨rfl, rfl⟩
  · rw [queueInList, if_pos ⟨Nat.succ_pos _, hconnected⟩, checkHighWaterMark]
    split
    · split <;> exact ⟨rfl, rfl⟩
    · exact ⟨rfl, rfl⟩

theorem send_idle (hs : Serving c) (hconnected : c.status = .Connected)
    (hlist : c.writeBufferList = []) (data : Bytes) :
    (send kernel true c data).writeBufferList =
        (if leftBehind kernel c.socket data = [] then []
          else [.msg (leftBehind kernel c.socket data)]) ∧
      (send kernel true c data).socket = (c.socket.write kernel data).2 := by
  have hidle : c.writing = false := by
    by_contra hwriting
    exact hs.nonempty (by simpa using hwriting) hlist
  obtain ⟨hresult, hsocket, -, hsame⟩ :=
    writeInLoop_eq kernel (log c (.call (.send data))) data
  have hstatus := hsame.status.trans hconnected
  have hempty := hsame.writeBufferList.trans hlist
  rw [send_eq hs, sendInLoop, if_neg (by simp [log, hconnected]), if_pos ⟨hidle, hlist⟩,
    leftBehind]
  rcases hwrite : writeInLoop kernel (log c (.call (.send data))) data with ⟨e | n, c'⟩
  · rw [hwrite] at hresult hsocket hstatus hempty
    rw [show (c.socket.write kernel data).1 = .error e from hresult.symm]
    rcases eq_or_ne e .EAGAIN with rfl | he
    · obtain ⟨hqueued, hsame⟩ := queueInList_eq hstatus data
      simp only [ne_eq, not_true_eq_false, if_false, if_true, hqueued, hsame]
      exact ⟨by rw [hempty, appendMsg], hsocket⟩
    · simp only [ne_eq, he, not_false_eq_true, if_true, if_false]
      exact ⟨hempty, hsocket⟩
  · rw [hwrite] at hresult hsocket hstatus hempty
    rw [show (c.socket.write kernel data).1 = .ok n from hresult.symm]
    obtain ⟨hqueued, hsame⟩ := queueInList_eq hstatus (data.drop n)
    simp only [hqueued, hsame]
    exact ⟨by rw [hempty, appendMsg], hsocket⟩

theorem send_busy (hs : Serving c) (hconnected : c.status = .Connected)
    (hlist : c.writeBufferList ≠ []) {data : Bytes} (hdata : data ≠ []) :
    (send kernel true c data).writeBufferList = appendMsg data c.writeBufferList := by
  rw [send_eq hs, sendInLoop, if_neg (by simp [log, hconnected]),
    if_neg (fun hidle => hlist hidle.2)]
  have hqueued := (queueInList_eq (c := log c (.call (.send data))) hconnected data).1
  rwa [if_neg hdata] at hqueued

theorem send_cases (hs : Serving c) (hconnected : c.status = .Connected) {data : Bytes}
    (hdata : data ≠ []) :
    (c.writeBufferList = [] ∧ leftBehind kernel c.socket data = [] ∧
        (send kernel true c data).writeBufferList = [] ∧
        (send kernel true c data).socket = (c.socket.write kernel data).2) ∨
      (¬(c.writeBufferList = [] ∧ leftBehind kernel c.socket data = []) ∧
        ∃ msgBuffer, msgBuffer ≠ [] ∧ .msg msgBuffer ∈ (send kernel true c data).writeBufferList)
    := by
  rcases eq_or_ne c.writeBufferList [] with hlist | hlist
  · obtain ⟨hqueue, hsocket⟩ := send_idle kernel hs hconnected hlist data
    rcases eq_or_ne (leftBehind kernel c.socket data) [] with hleft | hleft
    · rw [if_pos hleft] at hqueue
      exact .inl ⟨hlist, hleft, hqueue, hsocket⟩
    · rw [if_neg hleft] at hqueue
      exact .inr ⟨fun htaken => hleft htaken.2, _, hleft, by rw [hqueue]; exact List.mem_cons_self⟩
  · obtain ⟨msgBuffer, hmem⟩ := exists_mem_appendMsg data c.writeBufferList
    rw [← send_busy kernel hs hconnected hlist hdata] at hmem
    exact .inr ⟨fun htaken => hlist htaken.1, _, by simp [hdata], hmem⟩

theorem nodeSent_sendfileInLoop_iff (c : Connection) (content : Bytes) {size : Nat}
    (hsize : size ≠ 0) :
    NodeSent (sendfileInLoop kernel c content 0 size).2 ↔
      match (c.socket.sendfile kernel content 0 size).1 with
      | .ok n => size ≤ n
      | .error _ => False := by
  rw [sendfileInLoop]
  rcases c.socket.sendfile kernel content 0 size with ⟨e | n, socket⟩
  · exact iff_of_false hsize id
  · simp only
    split
    · rename_i hnone
      exact iff_of_false hsize (by omega)
    · exact Nat.sub_eq_zero_iff_le

theorem sendFile_idle (hs : Serving c) (hlist : c.writeBufferList = []) (content : Bytes)
    (size : Nat) :
    ∃ c' sending, sendFile kernel true c content 0 size = some c' ∧ sending.socket = c.socket ∧
      c'.writeBufferList = [(sendfileInLoop kernel sending content 0 size).2] := by
  rw [sendFile, if_pos ⟨rfl, hs.direct⟩, pushFile]
  simp only [log, hlist, List.nil_append, List.length_singleton, if_true]
  rw [sendFileInLoop_of_file kernel _ rfl]
  exact ⟨_, { log c (.call (.sendFile content 0 size)) with
    writeBufferList := [.file content 0 size] }, rfl, rfl, rfl⟩

theorem sendFile_busy (hs : Serving c) (hlist : c.writeBufferList ≠ []) (content : Bytes)
    (size : Nat) :
    ∃ c', sendFile kernel true c content 0 size = some c' ∧
      c'.writeBufferList = c.writeBufferList ++ [.file content 0 size] := by
  have hlength := List.length_pos_iff.mpr hlist
  rw [sendFile, if_pos ⟨rfl, hs.direct⟩, pushFile, if_neg]
  · exact ⟨_, rfl, rfl⟩
  · simp only [log, List.length_append, List.length_singleton]
    omega

theorem mem_write_of_mem (hs : Serving c) {env : Environment} (writer : HttpContentWriter)
    (size : Nat) {node : BufferNode} (hnode : node ∈ c.writeBufferList) :
    node ∈ (writer.write env size c).writeBufferList := by
  rw [HttpContentWriter.write]
  split
  · exact hnode
  · rw [sendFileName]
    split
    · exact hnode
    · rename_i content _
      obtain ⟨c', hsend, hlist⟩ := sendFile_busy env.kernel hs
        (List.ne_nil_of_mem hnode) content size
      rw [hsend, Option.getD_some, hlist]
      exact List.mem_append_left _ hnode

theorem allSent_write_iff (hs : Serving c) (hlist : c.writeBufferList = []) (env : Environment)
    (writer : HttpContentWriter) :
    AllSent (writer.write env (env.getFileSize writer.file) c) ↔
      FileTaken env writer c.socket := by
  rw [HttpContentWriter.write, FileTaken]
  by_cases hskip : writer.file = [] ∨ env.getFileSize writer.file = 0
  · rw [if_pos hskip]
    refine iff_of_true (fun node hnode => ?_) (hskip.imp_right .inl)
    simp [hlist] at hnode
  · obtain ⟨hfile, hsize⟩ := not_or.mp hskip
    rw [if_neg hskip, sendFileName]
    cases hopen : env.openFile writer.file with
    | none =>
        refine iff_of_true (fun node hnode => ?_) (.inr (.inr trivial))
        simp [hlist] at hnode
    | some content =>
        obtain ⟨c', sending, hsend, hsocket, hnode⟩ := sendFile_idle env.kernel hs
          hlist content (env.getFileSize writer.file)
        have hsent := nodeSent_sendfileInLoop_iff env.kernel sending content hsize
        rw [hsocket] at hsent
        simp only [hsend, Option.getD_some, AllSent, hnode, List.mem_singleton, forall_eq, hfile,
          hsize, false_or]
        exact hsent

end Queue

section Close

variable {env : Environment} {server : Server} {s : HttpConnection}

theorem responseText_ne_nil (env : Environment) (server : Server) (response : HttpResponse)
    (contentWriter : Option HttpContentWriter) (max : Int) :
    responseText env server response contentWriter max ≠ [] := by
  have hcrlf : CRLF ≠ [] := by decide
  simp [responseText, hcrlf]

theorem allSent_sendResponse_iff (env : Environment) (server : Server) (hs : Serving s.conn)
    (hconnected : s.conn.status = .Connected)
    (answer : Answer) (hentry : keepAliveEntry s = answer.entry) :
    AllSent (sendResponse env server answer.response answer.contentWriter s).conn ↔
      TakenAtOnce env server answer s.conn := by
  have hcases := send_cases env.kernel hs hconnected
    (responseText_ne_nil env server answer.response answer.contentWriter
      answer.entry.2)
  have hserving : Serving (send env.kernel true s.conn
      (responseText env server answer.response answer.contentWriter answer.entry.2)) :=
    send_serving hs _
  simp only [sendResponse, record, hentry, TakenAtOnce]
  rcases hcases with ⟨hlist, hleft, hempty, hsocket⟩ | ⟨hnot, msgBuffer, hmsg, hmem⟩
  · simp only [hlist, hleft, true_and]
    cases hwriter : answer.contentWriter with
    | none =>
        rw [hwriter] at hempty
        simp [AllSent, hempty]
    | some writer =>
        rw [hwriter] at hempty hsocket hserving
        simp only [Option.some.injEq, forall_eq']
        rw [← hsocket]
        exact allSent_write_iff hserving hempty env writer
  · refine iff_of_false (fun hall => hmsg ?_) fun htaken => hnot ⟨htaken.1, htaken.2.1⟩
    cases hwriter : answer.contentWriter with
    | none =>
        rw [hwriter] at hall hmem
        exact hall _ hmem
    | some writer =>
        rw [hwriter] at hall hmem hserving
        exact hall _ (mem_write_of_mem hserving writer _ hmem)

theorem closeAndErase_closesWhole_iff (hconnected : s.conn.status = .Connected) :
    ((closeAndErase s).conn.status = .Disconnected → AllSent (closeAndErase s).conn) ↔
      AllSent s.conn := by
  have hlist : (closeAndErase s).conn.writeBufferList = s.conn.writeBufferList := by
    simp only [closeAndErase, forceClose]
    split <;> rfl
  simp only [(closeAndErase_closed hconnected).1, forall_const, AllSent, hlist]

theorem countRequest_closesWhole_iff (response : HttpResponse)
    (hconnected : s.conn.status = .Connected) :
    ((countRequest response s).conn.status = .Disconnected →
        AllSent (countRequest response s).conn) ↔
      StaysOpen response (keepAliveEntry s) ∨ AllSent s.conn := by
  rw [countRequest_eq]
  by_cases hopen : StaysOpen response (keepAliveEntry s)
  · simp only [if_pos hopen]
    refine iff_of_true (fun hclosed => ?_) (.inl hopen)
    simp [hconnected] at hclosed
  · simp only [hopen, if_false, false_or]
    exact closeAndErase_closesWhole_iff hconnected

theorem recvMsgCallback_closesWhole_iff (input : List ReadResult) (hs : Serving s.conn)
    (hconnected : s.conn.status = .Connected) :
    (∀ s', recvMsgCallback env server input s = .returned s' →
        s'.conn.status = .Disconnected → AllSent s'.conn) ↔
      ∀ answer, answerTo env server input s = some answer →
        StaysOpen answer.response answer.entry ∨ TakenAtOnce env server answer s.conn := by
  rcases hparsed : parseRequest s.conn.readBuffer with e | ⟨_ | _, request⟩
  · simp [recvMsgCallback, answerTo, hparsed]
  · have hstatus := (sendResponse_untouched env server
      { HttpResponse.init with statusCode := CODE_400 } none
      (setReadBuffer s request.buffer)).status
    have hnot : ¬StaysOpen { HttpResponse.init with statusCode := CODE_400 } (keepAliveEntry s) :=
      fun hopen => absurd hopen.1 (by decide)
    simp only [recvMsgCallback, answerTo, hparsed, CallbackResult.returned.injEq, forall_eq',
      Option.some.injEq, hnot, false_or]
    rw [closeAndErase_closesWhole_iff (hstatus.trans hconnected)]
    exact allSent_sendResponse_iff env server (setReadBuffer_serving hs request.buffer) hconnected
      { response := { HttpResponse.init with statusCode := CODE_400 }
        contentWriter := none
        entry := keepAliveEntry s } rfl
  · rw [recvMsgCallback_of_request env server input hparsed]
    simp only [answerTo, hparsed]
    have hopened : (opened server request s).2.conn = (setReadBuffer s request.buffer).conn :=
      opened_conn server request s
    generalize opened server request s = o at hopened ⊢
    rcases requestReply env server input o.1 with _ | reply
    · simp
    · have hprepared : (reply.prepare o.2).conn = (setReadBuffer s reply.readBuffer).conn := by
        simp only [Reply.prepare, setReadBuffer, hopened]
      have hserving : Serving (reply.prepare o.2).conn := by
        rw [hprepared]
        exact setReadBuffer_serving hs reply.readBuffer
      have hconn : (reply.prepare o.2).conn.status = .Connected := by
        rw [hprepared]
        exact hconnected
      have hstatus := (sendResponse_untouched env server reply.response reply.contentWriter
        (reply.prepare o.2)).status
      simp only [CallbackResult.returned.injEq, forall_eq', Option.map_some, Option.some.injEq]
      have hsent := allSent_sendResponse_iff env server hserving hconn
        { response := reply.response
          contentWriter := reply.contentWriter
          entry := keepAliveEntry o.2 } rfl
      rw [hprepared] at hsent
      exact (countRequest_closesWhole_iff reply.response (hstatus.trans hconn)).trans
        (or_congr Iff.rfl hsent)

end Close

section Run

variable {env : Environment} {server : Server}

theorem callbackEntry_serving {revents : Revents} {result : ReadResult} {s entry : HttpConnection}
    (hs : Serving s.conn) (hentry : callbackEntry revents result s = some entry) :
    Serving entry.conn := by
  have hread := readCallback_serving (hangUp_serving hs revents) result
  rw [callbackEntry] at hentry
  split at hentry
  · simp at hentry
  · split at hentry
    · rcases hcallback : readCallback (hangUp revents s).conn result with ⟨conn, _ | _⟩
      · simp [hcallback] at hentry
      · rw [hcallback] at hread
        simp only [hcallback, Option.some.injEq] at hentry
        rw [← hentry]
        exact hread
    · simp at hentry

theorem closesWhole_iff_deliverable (s : HttpConnection) (t : ConnStep) (hs : Serving s.conn) :
    ClosesWhole env server s t ↔ Deliverable env server s t := by
  cases t with
  | event revents result input =>
      refine forall_congr' fun entry => forall_congr' fun hentry => forall_congr' fun hconnected => ?_
      exact recvMsgCallback_closesWhole_iff input (callbackEntry_serving hs hentry) hconnected
  | forceClose => exact Iff.rfl
  | connectDestroyed => exact Iff.rfl

/-- In every run of a connection the server never closes it over bytes that are still to be sent
exactly when each step is deliverable. -/
theorem closesWhole_run_iff (server : Server) (steps : List (Environment × ConnStep)) :
    AllSteps (stepIn server) (fun s t => ClosesWhole t.1 server s t.2) accepted steps ↔
      AllSteps (stepIn server) (fun s t => Deliverable t.1 server s t.2) accepted steps := by
  apply allSteps_iff (fun s => Serving s.conn)
  · exact fun s t => step_serving s t.2
  · exact fun s t => closesWhole_iff_deliverable s t.2
  · exact accepted_serving

def slowEnvironment : Environment where
  kernel _ len := .done ⟨min 1 len, by omega⟩
  isFile _ := false
  getFileSize _ := 0
  openFile _ := none
  iterationOrder := id
  fuel := 0

theorem not_closesWhole_missing :
    ¬AllSteps (stepIn helloServer) (fun s t => ClosesWhole t.1 helloServer s t.2) accepted
      [(slowEnvironment, .event pollIn (.ok (ascii "GET /missing HTTP/1.1\r\n\r\n")) [])] := by
  rintro ⟨hwhole, -⟩
  have hclosed : ∃ entry s', callbackEntry pollIn
      (.ok (ascii "GET /missing HTTP/1.1\r\n\r\n")) accepted = some entry ∧
      entry.conn.status = .Connected ∧
      recvMsgCallback slowEnvironment helloServer [] entry = .returned s' ∧
      s'.conn.status = .Disconnected ∧ ¬AllSent s'.conn :=
    ⟨_, _, rfl, rfl, rfl, by decide, by decide⟩
  obtain ⟨entry, s', hentry, hconnected, hreturn, hstatus, hunsent⟩ := hclosed
  exact hunsent (hwhole entry hentry hconnected s' hreturn hstatus)

end Run

end Cooper.HttpDelivery

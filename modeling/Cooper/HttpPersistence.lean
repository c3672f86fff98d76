import Cooper.ResponseFraming

namespace Cooper.HttpPersistence

open Cooper.Http
open Cooper.HttpDelivery
open Cooper.HttpLoop
open Cooper.HttpReply
open Cooper.HttpSegmentation
open Cooper.HttpServer
open Cooper.HttpServing
open Cooper.MsgBuffer
open Cooper.ResponseFraming
open Cooper.StepRun
open Cooper.TcpConnectionImpl

section Model

def AsksToClose (data : RequestData) : Prop :=
  (data.version = ascii "HTTP/1.1" ∧ data.headers.find CONNECTION = some CONNECTION_CLOSE) ∨
    (data.version = ascii "HTTP/1.0" ∧
      data.headers.find CONNECTION ≠ some CONNECTION_KEEP_ALIVE)

def served (s : HttpConnection) : Nat := (handledRequests s.events).length

def Reported (s : HttpConnection) : ConnStep → Prop
  | .event revents _ _ =>
      (revents.POLLIN || revents.POLLPRI || revents.POLLRDHUP) = true → s.conn.reading = true
  | .forceClose | .connectDestroyed => True

/-- A request that asks to close is answered by a response and a close. -/
def ClosesWhenAsked (env : Environment) (server : Server) (s : HttpConnection) : ConnStep → Prop
  | .event revents result input =>
      ∀ entry request s', callbackEntry revents result s = some entry →
        parseRequest entry.conn.readBuffer = .ok (true, request) →
        AsksToClose request.toRequestData →
        recvMsgCallback env server input entry = .returned s' → s'.conn.status = .Disconnected
  | .forceClose | .connectDestroyed => True

structure Persists (env : Environment) (server : Server) (s : HttpConnection) (t : ConnStep) :
    Prop where
  closes : ClosesWhenAsked env server s t
  bounded : ∀ s', step env server s t = some s' →
    (served s' : Int) ≤ max 1 server.maxKeepAliveRequests

/-- A request that asks to close is the first one of the connection or the last one that it may
have, or it is not answered with the status 200. -/
def AskedInTime (env : Environment) (server : Server) (s : HttpConnection) : ConnStep → Prop
  | .event revents result input =>
      ∀ entry request answer, callbackEntry revents result s = some entry →
        parseRequest entry.conn.readBuffer = .ok (true, request) →
        AsksToClose request.toRequestData → entry.conn.status = .Connected →
        answerTo env server input entry = some answer →
          served entry = 0 ∨ server.maxKeepAliveRequests ≤ served entry + 1 ∨
            answer.response.statusCode.code ≠ CODE_200.code
  | .forceClose | .connectDestroyed => True

/-- What the entry of an open connection says, after `n` requests. -/
def Counts (server : Server) (n : Nat) : Option (Int × Int) → Prop
  | none => n = 0
  | some (first, second) =>
      first = n ∧ 0 < n ∧ second = server.maxKeepAliveRequests ∧ first < second

/-- A connection that reads is open and has counted its requests. -/
structure Counted (server : Server) (s : HttpConnection) : Prop where
  serving : Serving s.conn
  connected : s.conn.reading = true → s.conn.status = .Connected
  counts : s.conn.reading = true → Counts server (served s) s.keepAliveRequest
  bounded : (served s : Int) ≤ max 1 server.maxKeepAliveRequests

end Model

section Writing

variable {kernel : Kernel} {c : Connection}

theorem streamKept_untouched (kernel : Kernel) : StreamKept kernel Untouched where
  trans _ _ _ h h' := h.trans h'
  written := writeInLoop_untouched kernel
  stored _ _ _ := ⟨rfl, rfl, rfl, rfl⟩

theorem sendFileInLoop_untouched {c' : Connection} (hsend : sendFileInLoop kernel c = some c') :
    Untouched c c' := by
  rw [sendFileInLoop] at hsend
  split at hsend
  · rename_i content offset fileBytesToSend rest hlist
    obtain rfl := Option.some.inj hsend
    have hsent := sendfileInLoop_untouched kernel c content offset fileBytesToSend
    exact hsent.trans ⟨rfl, rfl, rfl, rfl⟩
  · rename_i fileBytesToSend chunks rest hlist
    obtain rfl := Option.some.inj hsend
    have hsent := (streamKept_untouched kernel).sendStreamInLoop c fileBytesToSend chunks
    exact hsent.trans ⟨rfl, rfl, rfl, rfl⟩
  · simp at hsend

theorem checkCloseOnEmpty_untouched (hopen : c.closeOnEmpty = false) :
    Untouched c (checkCloseOnEmpty c) := by
  rw [checkCloseOnEmpty, if_neg (by simp [hopen])]
  exact .refl c

theorem map_checkCloseOnEmpty_untouched {c' : Connection} (hopen : c.closeOnEmpty = false)
    (hsend : (sendFileInLoop kernel c).map checkCloseOnEmpty = some c') : Untouched c c' := by
  obtain ⟨sent, hsent, rfl⟩ := Option.map_eq_some_iff.mp hsend
  have huntouched := sendFileInLoop_untouched hsent
  exact huntouched.trans (checkCloseOnEmpty_untouched (huntouched.closeOnEmpty.trans hopen))

theorem writeMsg_untouched (hopen : c.closeOnEmpty = false) (msgBuffer : Bytes)
    (rest : List BufferNode) : Untouched c (writeMsg kernel c msgBuffer rest) := by
  have hwrite := writeInLoop_untouched kernel c msgBuffer
  rw [writeMsg]
  rcases hresult : writeInLoop kernel c msgBuffer with ⟨e | n, c'⟩
  · rw [hresult] at hwrite
    simp only
    split
    · exact hwrite
    · exact hwrite.trans (checkCloseOnEmpty_untouched (hwrite.closeOnEmpty.trans hopen))
  · rw [hresult] at hwrite
    have hnext : Untouched c' { c' with
        writeBufferList := .msg (retrieve msgBuffer n) :: rest } := ⟨rfl, rfl, rfl, rfl⟩
    exact (hwrite.trans hnext).trans
      (checkCloseOnEmpty_untouched (hwrite.closeOnEmpty.trans hopen))

theorem writeNext_untouched {c' : Connection} (hopen : c.closeOnEmpty = false)
    (hstatus : c.status = .Connected ∨ c.status = .Disconnected) {afterFile : Bool}
    {rest : List BufferNode} (hnext : writeNext kernel [] afterFile c rest = some c') :
    Untouched c c' := by
  have hpopped : Untouched c { c with writeBufferList := rest } := ⟨rfl, rfl, rfl, rfl⟩
  rcases rest with _ | ⟨node, rest⟩
  · rw [writeNext, finishWriting_eq (c := { c with writeBufferList := [] }) hstatus,
      Option.map_some] at hnext
    obtain rfl := Option.some.inj hnext
    have hdone : Untouched c (log (disableWriting { c with writeBufferList := [] })
        .writeCompleteCallback) := ⟨rfl, rfl, rfl, rfl⟩
    exact hdone.trans (checkCloseOnEmpty_untouched hopen)
  · cases node with
    | msg msgBuffer =>
        rw [writeNext] at hnext
        split at hnext
        · obtain rfl := Option.some.inj hnext
          exact hpopped.trans (writeMsg_untouched
            (c := { c with writeBufferList := .msg msgBuffer :: rest }) hopen msgBuffer rest)
        · simp at hnext
    | file content offset fileBytesToSend =>
        refine hpopped.trans ?_
        exact map_checkCloseOnEmpty_untouched hopen hnext
    | stream fileBytesToSend chunks =>
        refine hpopped.trans ?_
        exact map_checkCloseOnEmpty_untouched hopen hnext

theorem writeCallback_untouched {c' : Connection} (hs : Serving c)
    (hwrite : TcpConnectionImpl.writeCallback kernel [] c = some c') : Untouched c c' := by
  have hopen := hs.notClosing
  rw [TcpConnectionImpl.writeCallback] at hwrite
  split at hwrite
  · split at hwrite
    · simp at hwrite
    · split at hwrite
      · exact writeNext_untouched hopen hs.status hwrite
      · obtain rfl := Option.some.inj hwrite
        exact writeMsg_untouched hopen _ _
    · split at hwrite
      · exact writeNext_untouched hopen hs.status hwrite
      · exact map_checkCloseOnEmpty_untouched hopen hwrite
    · split at hwrite
      · exact writeNext_untouched hopen hs.status hwrite
      · exact map_checkCloseOnEmpty_untouched hopen hwrite
  · obtain rfl := Option.some.inj hwrite
    exact .refl c

end Writing

section Callback

variable {env : Environment} {server : Server} {input : List ReadResult} {s s' : HttpConnection}

theorem opened_entry_of_some (request : HttpRequest) {entry : Int × Int}
    (hentry : s.keepAliveRequest = some entry) :
    keepAliveEntry (opened server request s).2 = entry := by
  have hsame : (record (setReadBuffer s request.buffer)
      (.request request.toRequestData)).keepAliveRequest = some entry := hentry
  rw [opened, openKeepAlive, hsame]
  simp only [keepAliveEntry, hsame, Option.getD_some]

theorem opened_entry_of_none (request : HttpRequest) (hnone : s.keepAliveRequest = none) :
    keepAliveEntry (opened server request s).2 = (0, server.maxKeepAliveRequests) ∨
      keepAliveEntry (opened server request s).2 = (0, 0) := by
  have hsame : (record (setReadBuffer s request.buffer)
      (.request request.toRequestData)).keepAliveRequest = none := hnone
  rw [opened, openKeepAlive, hsame]
  simp only [keepAliveEntry, Option.getD_some]
  split
  · exact .inl rfl
  · exact .inr rfl

theorem opened_entry {request : HttpRequest} (hasks : AsksToClose request.toRequestData) :
    keepAliveEntry (opened server request s).2 = s.keepAliveRequest.getD (0, 0) := by
  rw [opened, openKeepAlive]
  split
  · rename_i entry hentry
    have hsame : s.keepAliveRequest = some entry := hentry
    rw [keepAliveEntry, hentry, hsame]
  · rename_i hentry
    have hnone : s.keepAliveRequest = none := hentry
    have hvalue : (request.headers.at CONNECTION).1 =
        (request.headers.find CONNECTION).getD [] := by
      rw [Headers.at]
      cases request.headers.find CONNECTION with
      | none => rfl
      | some value => rfl
    have hclose : ¬((request.version = ascii "HTTP/1.0" ∧
        (request.headers.at CONNECTION).1 = CONNECTION_KEEP_ALIVE) ∨
        (request.version = ascii "HTTP/1.1" ∧
          (request.headers.at CONNECTION).1 ≠ CONNECTION_CLOSE)) := by
      rw [hvalue]
      rcases hasks with ⟨hversion, hfind⟩ | ⟨hversion, hfind⟩
      · rw [hversion, hfind]
        decide
      · rw [hversion]
        rintro (⟨-, hkeep⟩ | ⟨hother, -⟩)
        · cases hfound : request.headers.find CONNECTION with
          | none =>
              rw [hfound] at hkeep
              exact absurd hkeep (by decide)
          | some value =>
              rw [hfound] at hkeep
              exact hfind (hfound.trans (congrArg some hkeep))
        · exact absurd hother (by decide)
    simp only [keepAliveEntry, hnone, Option.getD_some, Option.getD_none, if_neg hclose]

theorem answer_entry {request : HttpRequest} {answer : Answer}
    (hparsed : parseRequest s.conn.readBuffer = .ok (true, request))
    (hanswer : answerTo env server input s = some answer) :
    answer.entry = keepAliveEntry (opened server request s).2 := by
  simp only [answerTo, hparsed] at hanswer
  obtain ⟨reply, -, rfl⟩ := Option.map_eq_some_iff.mp hanswer
  rfl

theorem exists_answerTo {request : HttpRequest}
    (hparsed : parseRequest s.conn.readBuffer = .ok (true, request))
    (hreturn : recvMsgCallback env server input s = .returned s') :
    ∃ answer, answerTo env server input s = some answer := by
  obtain ⟨reply, hreply, -⟩ := exists_reply_of_returned hparsed hreturn
  simp only [answerTo, hparsed, hreply, Option.map_some]
  exact ⟨_, rfl⟩

theorem keepAliveRequest_of_answer {answer : Answer} {request : HttpRequest}
    (hparsed : parseRequest s.conn.readBuffer = .ok (true, request))
    (hanswer : answerTo env server input s = some answer)
    (hreturn : recvMsgCallback env server input s = .returned s')
    (hopen : s'.conn.status = .Connected) :
    s'.keepAliveRequest = some (answer.entry.1 + 1, answer.entry.2) := by
  obtain ⟨reply, hreply, rfl⟩ := exists_reply_of_returned hparsed hreturn
  have hstays := ((countRequest_connected_iff _ _).mp hopen).2
  simp only [answerTo, hparsed, hreply, Option.map_some, Option.some.injEq] at hanswer
  subst hanswer
  rw [countRequest_eq, if_pos hstays]
  rfl

theorem closeAndErase_reading (hconnected : s.conn.reading = true → s.conn.status = .Connected) :
    (closeAndErase s).conn.reading = false := by
  rcases eq_or_ne s.conn.status .Connected with hopen | hopen
  · exact (closeAndErase_closed hopen).2.1
  · have hidle : s.conn.reading = false := by
      rw [Bool.eq_false_iff]
      exact fun hreading => hopen (hconnected hreading)
    simp only [closeAndErase, forceClose]
    split
    · rfl
    · exact hidle

theorem countRequest_connected (response : HttpResponse)
    (hconnected : s.conn.reading = true → s.conn.status = .Connected) :
    (countRequest response s).conn.reading = true →
      (countRequest response s).conn.status = .Connected := by
  rw [countRequest_eq]
  split
  · exact hconnected
  · intro hreading
    rw [closeAndErase_reading hconnected] at hreading
    simp at hreading

theorem served_append (events : List HttpEvent) (hevents : s'.events = s.events ++ events) :
    served s' = served s + (handledRequests events).length := by
  rw [served, served, hevents, handledRequests_append, List.length_append]

theorem sendResponse_connected (response : HttpResponse)
    (contentWriter : Option HttpContentWriter)
    (hconnected : s.conn.reading = true → s.conn.status = .Connected) :
    (sendResponse env server response contentWriter s).conn.reading = true →
      (sendResponse env server response contentWriter s).conn.status = .Connected := by
  have hsent := sendResponse_untouched env server response contentWriter s
  rw [hsent.reading, hsent.status]
  exact hconnected

theorem Counts.succ_le {n : Nat} {entry : Option (Int × Int)} (h : Counts server n entry) :
    (n + 1 : Int) ≤ max 1 server.maxKeepAliveRequests := by
  rcases entry with _ | ⟨first, second⟩
  · have hzero : n = 0 := h
    omega
  · obtain ⟨hfirst, -, hsecond, hlt⟩ := h
    omega

theorem Counts.of_answer {request : HttpRequest} {answer : Answer}
    (hcounts : Counts server (served s) s.keepAliveRequest)
    (hparsed : parseRequest s.conn.readBuffer = .ok (true, request))
    (hanswer : answerTo env server input s = some answer)
    (hroom : answer.entry.1 + 1 < answer.entry.2) :
    Counts server (served s + 1) (some (answer.entry.1 + 1, answer.entry.2)) := by
  have hentry := answer_entry hparsed hanswer
  rcases hkeep : s.keepAliveRequest with _ | ⟨first, second⟩
  · rw [hkeep] at hcounts
    have hzero : served s = 0 := hcounts
    rcases opened_entry_of_none request hkeep with hnew | hnew
    · rw [hentry, hnew] at hroom ⊢
      exact ⟨by simp [hzero], by omega, rfl, hroom⟩
    · rw [hentry, hnew] at hroom
      simp at hroom
  · rw [hkeep] at hcounts
    obtain ⟨hfirst, hpos, hsecond, -⟩ := hcounts
    rw [hentry, opened_entry_of_some request hkeep] at hroom ⊢
    exact ⟨by simp [hfirst], by omega, hsecond, hroom⟩

/-- The callback on a connection whose entry is right: it serves one request more, and keeps the
connection open only where that leaves room for another. -/
theorem recvMsgCallback_counted (hs : Serving s.conn)
    (hconnected : s.conn.reading = true → s.conn.status = .Connected)
    (hcounts : Counts server (served s) s.keepAliveRequest)
    (hbounded : (served s : Int) ≤ max 1 server.maxKeepAliveRequests)
    (hreturn : recvMsgCallback env server input s = .returned s') : Counted server s' := by
  have hserving := recvMsgCallback_serving hs hreturn
  rcases hparsed : parseRequest s.conn.readBuffer with e | ⟨_ | _, request⟩
  · simp [recvMsgCallback, hparsed] at hreturn
  · simp only [recvMsgCallback, hparsed, CallbackResult.returned.injEq] at hreturn
    have hidle : s'.conn.reading = false := by
      rw [← hreturn]
      refine closeAndErase_reading (sendResponse_connected _ none ?_)
      exact hconnected
    have hserved : served s' = served s := by
      rw [← hreturn]
      exact served_append [.response CODE_400.code] rfl
    refine ⟨hserving, fun hreading => ?_, fun hreading => ?_, hserved ▸ hbounded⟩
    · simp [hidle] at hreading
    · simp [hidle] at hreading
  · have hserved : served s' = served s + 1 := by
      rw [served, served, handledRequests_of_returned hparsed hreturn, List.length_append]
      rfl
    have hstays : s'.conn.reading = true → s'.conn.status = .Connected := by
      obtain ⟨reply, -, rfl⟩ := exists_reply_of_returned hparsed hreturn
      refine countRequest_connected reply.response (sendResponse_connected _ _ ?_)
      have hconn := opened_conn server request s
      simpa only [Reply.prepare, setReadBuffer, hconn] using hconnected
    obtain ⟨answer, hanswer⟩ := exists_answerTo hparsed hreturn
    have hroom : s'.conn.status = .Connected → answer.entry.1 + 1 < answer.entry.2 := by
      intro hopen
      obtain ⟨s'', hreturn', -, hstatus⟩ := recvMsgCallback_of_answer hanswer
      obtain rfl : s'' = s' := by simpa [hreturn] using hreturn'.symm
      exact (hstatus.mp hopen).2.2
    refine ⟨hserving, hstays, fun hreading => ?_, ?_⟩
    · have hopen := hstays hreading
      rw [keepAliveRequest_of_answer hparsed hanswer hreturn hopen, hserved]
      exact hcounts.of_answer hparsed hanswer (hroom hopen)
    · rw [hserved]
      exact_mod_cast hcounts.succ_le

end Callback

section Step

variable {env : Environment} {server : Server} {s s' : HttpConnection}

theorem Counted.of_closed (h : Counted server s) {conn : Connection} (hserving : Serving conn)
    (hclosed : conn.reading = true → conn = s.conn) :
    Counted server { s with conn } where
  serving := hserving
  connected := fun hreading => by
    obtain rfl := hclosed hreading
    exact h.connected hreading
  counts := fun hreading => by
    obtain rfl := hclosed hreading
    exact h.counts hreading
  bounded := h.bounded

theorem Counted.untouched (h : Counted server s) {conn : Connection} (hserving : Serving conn)
    (hsame : Untouched s.conn conn) : Counted server { s with conn } where
  serving := hserving
  connected := fun hreading => by
    have hopen := h.connected (hsame.reading.symm.trans hreading)
    exact hsame.status.trans hopen
  counts := fun hreading => h.counts (hsame.reading.symm.trans hreading)
  bounded := h.bounded

theorem hangUp_counted (h : Counted server s) (revents : Revents) :
    Counted server (hangUp revents s) := by
  rw [hangUp]
  split
  · refine h.of_closed (handleClose_serving h.serving) fun hreading => ?_
    simp [handleClose, disableAll, log] at hreading
  · exact h

theorem hangUp_same (revents : Revents) (s : HttpConnection) :
    served (hangUp revents s) = served s ∧
      (hangUp revents s).keepAliveRequest = s.keepAliveRequest := by
  rw [hangUp]
  split <;> exact ⟨rfl, rfl⟩

theorem readCallback_counted (h : Counted server s) (result : ReadResult) :
    Counted server { s with conn := (readCallback s.conn result).1 } := by
  have hserving := readCallback_serving h.serving result
  have hclosed : Counted server { s with conn := handleClose s.conn } := by
    refine h.of_closed (handleClose_serving h.serving) fun hreading => ?_
    simp [handleClose, disableAll, log] at hreading
  rcases result with e | _ | ⟨byte, chunk⟩
  · rw [readCallback]
    split
    · exact h
    · exact hclosed
  · exact hclosed
  · exact ⟨hserving, h.connected, h.counts, h.bounded⟩

theorem readPart_counted {revents : Revents} {result : ReadResult} {input : List ReadResult}
    (h : Counted server s)
    (hreported : (revents.POLLIN || revents.POLLPRI || revents.POLLRDHUP) = true →
      s.conn.reading = true)
    (hread : readPart env server revents result input s = .returned s') : Counted server s' := by
  rw [readPart] at hread
  split at hread
  · rename_i hreads
    have hcounts := h.counts (hreported hreads)
    obtain ⟨hserved, hkeep⟩ := hangUp_same revents s
    have hbuffered := readCallback_counted (hangUp_counted h revents) result
    rw [readEvent] at hread
    rcases hcallback : readCallback (hangUp revents s).conn result with ⟨conn, _ | _⟩
    · rw [hcallback] at hread hbuffered
      rw [← CallbackResult.returned.inj hread]
      exact hbuffered
    · rw [hcallback] at hread hbuffered
      refine recvMsgCallback_counted (s := { hangUp revents s with conn }) hbuffered.serving
        hbuffered.connected ?_ hbuffered.bounded hread
      change Counts server (served (hangUp revents s)) (hangUp revents s).keepAliveRequest
      rw [hserved, hkeep]
      exact hcounts
  · obtain rfl := CallbackResult.returned.inj hread
    exact hangUp_counted h revents

theorem step_counted {t : ConnStep} (h : Counted server s) (hreported : Reported s t)
    (hstep : step env server s t = some s') : Counted server s' := by
  cases t with
  | event revents result input =>
      rcases handleEvent_cases hstep with ⟨-, rfl⟩ | ⟨-, read, hread, hwrite⟩
      · exact h
      · have hcounted := readPart_counted h hreported hread
        rcases hwrite with rfl | ⟨conn, hwritten, rfl⟩
        · exact hcounted
        · exact hcounted.untouched (writeCallback_serving hcounted.serving hwritten).1
            (writeCallback_untouched hcounted.serving hwritten)
  | forceClose =>
      obtain rfl := Option.some.inj hstep
      refine h.of_closed (forceClose_serving h.serving) fun hreading => ?_
      rw [forceClose] at hreading
      split at hreading
      · simp [handleClose, disableAll, log] at hreading
      · rename_i hopen
        exact if_neg hopen
  | connectDestroyed =>
      obtain rfl := Option.some.inj hstep
      refine h.of_closed (connectDestroyed_serving h.serving) fun hreading => ?_
      rw [connectDestroyed] at hreading
      split at hreading
      · simp [disableAll, log] at hreading
      · rename_i hopen
        exact if_neg hopen

theorem accepted_counted (server : Server) : Counted server accepted where
  serving := accepted_serving
  connected := fun _ => rfl
  counts := fun _ => rfl
  bounded := by
    have hzero : served accepted = 0 := rfl
    rw [hzero]
    omega

theorem closes_iff {input : List ReadResult} {request : HttpRequest} {answer : Answer}
    (hs : Serving s.conn) (hcounts : Counts server (served s) s.keepAliveRequest)
    (hparsed : parseRequest s.conn.readBuffer = .ok (true, request))
    (hasks : AsksToClose request.toRequestData)
    (hanswer : answerTo env server input s = some answer)
    (hreturn : recvMsgCallback env server input s = .returned s') :
    s'.conn.status = .Disconnected ↔ (s.conn.status = .Connected →
      served s = 0 ∨ server.maxKeepAliveRequests ≤ served s + 1 ∨
        answer.response.statusCode.code ≠ CODE_200.code) := by
  obtain ⟨s'', hreturn', -, hstatus⟩ := recvMsgCallback_of_answer hanswer
  obtain rfl : s'' = s' := by simpa [hreturn] using hreturn'.symm
  have hclosed : s''.conn.status = .Disconnected ↔ ¬s''.conn.status = .Connected := by
    rcases (recvMsgCallback_serving hs hreturn).status with hopen | hclosed
    · simp [hopen]
    · simp [hclosed]
  have hentry : answer.entry = s.keepAliveRequest.getD (0, 0) :=
    (answer_entry hparsed hanswer).trans (opened_entry hasks)
  rw [hclosed, hstatus, not_and]
  refine forall_congr' fun _ => ?_
  rw [StaysOpen, not_and_or, hentry]
  cases hkeep : s.keepAliveRequest with
  | none =>
      rw [hkeep] at hcounts
      have hzero : served s = 0 := hcounts
      simp [hzero]
  | some entry =>
      rw [hkeep] at hcounts
      obtain ⟨hfirst, hpos, hsecond, -⟩ := hcounts
      rw [Option.getD_some, hfirst, hsecond, Int.not_lt]
      constructor
      · rintro (hcode | hlast)
        · exact .inr (.inr hcode)
        · exact .inr (.inl hlast)
      · rintro (hzero | hlast | hcode)
        · omega
        · exact .inr hlast
        · exact .inl hcode

theorem callbackEntry_counted {revents : Revents} {result : ReadResult} {entry : HttpConnection}
    (h : Counted server s)
    (hreported : (revents.POLLIN || revents.POLLPRI || revents.POLLRDHUP) = true →
      s.conn.reading = true)
    (hentry : callbackEntry revents result s = some entry) :
    Serving entry.conn ∧ Counts server (served entry) entry.keepAliveRequest := by
  refine ⟨callbackEntry_serving h.serving hentry, ?_⟩
  obtain ⟨hserved, hkeep⟩ := hangUp_same revents s
  rw [callbackEntry] at hentry
  split at hentry
  · simp at hentry
  · split at hentry
    · rename_i hreads
      have hcounts := h.counts (hreported hreads)
      split at hentry
      · obtain rfl := Option.some.inj hentry
        change Counts server (served (hangUp revents s)) (hangUp revents s).keepAliveRequest
        rw [hserved, hkeep]
        exact hcounts
      · simp at hentry
    · simp at hentry

theorem persists_iff {t : ConnStep} (h : Counted server s) (hreported : Reported s t) :
    Persists env server s t ↔ AskedInTime env server s t := by
  have hbounded : ∀ s', step env server s t = some s' →
      (served s' : Int) ≤ max 1 server.maxKeepAliveRequests :=
    fun s' hstep => (step_counted h hreported hstep).bounded
  have hcloses : ClosesWhenAsked env server s t ↔ AskedInTime env server s t := by
    cases t with
    | event revents result input =>
        constructor
        · intro hcloses entry request answer hentry hparsed hasks hopen hanswer
          obtain ⟨hserving, hcounts⟩ := callbackEntry_counted h hreported hentry
          obtain ⟨s', hreturn, -⟩ := recvMsgCallback_of_answer hanswer
          exact (closes_iff hserving hcounts hparsed hasks hanswer hreturn).mp
            (hcloses entry request s' hentry hparsed hasks hreturn) hopen
        · intro hasked entry request s' hentry hparsed hasks hreturn
          obtain ⟨hserving, hcounts⟩ := callbackEntry_counted h hreported hentry
          obtain ⟨answer, hanswer⟩ := exists_answerTo hparsed hreturn
          refine (closes_iff hserving hcounts hparsed hasks hanswer hreturn).mpr fun hopen => ?_
          exact hasked entry request answer hentry hparsed hasks hopen hanswer
    | forceClose => exact Iff.rfl
    | connectDestroyed => exact Iff.rfl
  constructor
  · exact fun hpersists => hcloses.mp hpersists.closes
  · exact fun hasked => ⟨hcloses.mpr hasked, hbounded⟩

end Step

section Run

/-- In every run of a connection, persistence is decided per request exactly when each request that
asks to close asks in time. -/
theorem persists_run_iff (server : Server) (steps : List (Environment × ConnStep))
    (hreported : AllSteps (stepIn server) (fun s t => Reported s t.2) accepted steps) :
    AllSteps (stepIn server) (fun s t => Persists t.1 server s t.2) accepted steps ↔
      AllSteps (stepIn server) (fun s t => AskedInTime t.1 server s t.2) accepted steps := by
  have hcounted := accepted_counted server
  generalize accepted = s at hreported hcounted
  induction steps generalizing s with
  | nil => exact Iff.rfl
  | cons t steps ih =>
      obtain ⟨hhead, htail⟩ := hreported
      refine and_congr (persists_iff hcounted hhead) ?_
      refine forall_congr' fun s' => forall_congr' fun hs' => ?_
      exact ih s' (htail s' hs') (step_counted hcounted hhead hs')

def keepEvent : ConnStep := .event pollIn (.ok (ascii "GET /hello HTTP/1.1\r\n\r\n")) []

def closeEvent : ConnStep :=
  .event pollIn (.ok (ascii "GET /hello HTTP/1.1\r\nConnection: close\r\n\r\n")) []

theorem persists_closeEvent :
    AllSteps (stepIn helloServer) (fun s t => Reported s t.2) accepted
        [(plainEnvironment, closeEvent)] ∧
      AllSteps (stepIn helloServer) (fun s t => Persists t.1 helloServer s t.2) accepted
        [(plainEnvironment, closeEvent)] := by
  have hreported : AllSteps (stepIn helloServer) (fun s t => Reported s t.2) accepted
      [(plainEnvironment, closeEvent)] := ⟨fun _ => rfl, fun _ _ => trivial⟩
  refine ⟨hreported, (persists_run_iff helloServer _ hreported).mpr ⟨?_, fun _ _ => trivial⟩⟩
  intro entry request answer hentry _ _ _ _
  obtain rfl := Option.some.inj hentry
  exact .inl rfl

/-- The second request of a connection asks to close, and the connection stays open. -/
theorem not_persists_keepEvent_closeEvent :
    AllSteps (stepIn helloServer) (fun s t => Reported s t.2) accepted
        [(plainEnvironment, keepEvent), (plainEnvironment, closeEvent)] ∧
      ¬AllSteps (stepIn helloServer) (fun s t => Persists t.1 helloServer s t.2) accepted
        [(plainEnvironment, keepEvent), (plainEnvironment, closeEvent)] := by
  constructor
  · refine ⟨fun _ => rfl, fun s hs => ⟨fun _ => ?_, fun _ _ => trivial⟩⟩
    obtain rfl := Option.some.inj hs
    rfl
  · rintro ⟨-, h⟩
    obtain ⟨⟨hcloses, -⟩, -⟩ := h _ rfl
    have hclosed := hcloses _ _ _ rfl rfl (.inl ⟨rfl, rfl⟩) rfl
    exact absurd hclosed (by decide)

end Run

end Cooper.HttpPersistence

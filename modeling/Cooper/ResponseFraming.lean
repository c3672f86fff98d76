import Cooper.DecimalText
import Cooper.HttpDelivery
import Cooper.HttpRoundTrip
import Cooper.WriteQueue

namespace Cooper.ResponseFraming

open Cooper.DecimalText
open Cooper.Http
open Cooper.HttpBoundary
open Cooper.HttpDelivery
open Cooper.HttpEncoding
open Cooper.HttpLoop
open Cooper.HttpReply
open Cooper.HttpRoundTrip
open Cooper.HttpSegmentation
open Cooper.HttpServer
open Cooper.MsgBuffer
open Cooper.StepRun
open Cooper.TcpConnectionImpl

section Model

variable (env : Environment) (server : Server) (answer : Answer)

def answerHeaders : Headers :=
  responseHeaders env server answer.response answer.contentWriter answer.entry.2

def sentHeaders : List (Bytes × Bytes) := env.iterationOrder (answerHeaders env server answer)

def responseHead : Bytes :=
  answer.response.version ++ ascii " " ++ to_string answer.response.statusCode.code ++ ascii " " ++
    answer.response.statusCode.description ++ CRLF ++
    (sentHeaders env server answer).flatMap
      (fun header => header.1 ++ ascii ": " ++ header.2 ++ CRLF) ++ CRLF

def fileContent (writer : HttpContentWriter) : Bytes :=
  let size := env.getFileSize writer.file
  if writer.file = [] ∨ size = 0 then []
  else
    match env.openFile writer.file with
    | none => []
    | some content => content.take size

def content : Bytes :=
  match answer.contentWriter with
  | none => answer.response.body
  | some writer => fileContent env writer

/-- The entry of the table under `Content-Length` is written, and it counts what follows. -/
def SelfDelimiting : Prop :=
  ∃ header ∈ sentHeaders env server answer, SameName CONTENT_LENGTH header.1 ∧
    (answerHeaders env server answer).find CONTENT_LENGTH = some header.2 ∧
    IsLength header.2 (content env answer).length

/-- There is no body, and the user has set a `Content-Length` of zero. -/
def SaysEmpty : Prop :=
  answer.response.body = [] ∧
    ∃ value, answer.response.headers.find CONTENT_LENGTH = some value ∧ IsLength value 0

/-- There is something to send and all of it is there, or the user has said that nothing is. -/
def Announced : Prop :=
  match answer.contentWriter with
  | none => answer.response.body ≠ [] ∨ SaysEmpty answer
  | some writer =>
      if env.getFileSize writer.file = 0 then SaysEmpty answer
      else writer.file ≠ [] ∧
        ∃ content, env.openFile writer.file = some content ∧
          env.getFileSize writer.file ≤ content.length

/-- An `unordered_map` is iterated over by visiting each of its entries once. -/
def VisitsAll : Prop := ∀ headers, (env.iterationOrder headers).Perm headers

end Model

section Headers

variable {env : Environment} {server : Server} {answer : Answer}

theorem isLength_to_string (n : Nat) : IsLength (to_string n) n where
  nonempty := toString_ne_nil n
  digits := fun c hc => by
    rw [isDigit, decide_eq_true_eq]
    exact mem_toString hc
  length_eq := decimalValue_toString n

theorem find_responseHeaders (env : Environment) (server : Server) (answer : Answer) :
    (answerHeaders env server answer).find CONTENT_LENGTH =
      match answer.contentWriter with
      | some writer =>
          if env.getFileSize writer.file > 0 then some (to_string (env.getFileSize writer.file))
          else if answer.response.body ≠ [] then some (to_string answer.response.body.length)
          else answer.response.headers.find CONTENT_LENGTH
      | none =>
          if answer.response.body ≠ [] then some (to_string answer.response.body.length)
          else answer.response.headers.find CONTENT_LENGTH := by
  have hself : sameKey CONTENT_LENGTH CONTENT_LENGTH = true := by decide
  have hconnection : ∀ headers : Headers, ∀ value,
      ((if answer.entry.2 = 0 then headers.set CONNECTION value else headers) : Headers).find
        CONTENT_LENGTH = headers.find CONTENT_LENGTH := by
    intro headers value
    split
    · exact find_set value (by decide)
    · rfl
  have hbody : ∀ headers : Headers,
      ((if answer.response.body ≠ [] then
        headers.set CONTENT_LENGTH (to_string answer.response.body.length) else headers) :
          Headers).find CONTENT_LENGTH =
      if answer.response.body ≠ [] then some (to_string answer.response.body.length)
      else headers.find CONTENT_LENGTH := by
    intro headers
    split
    · exact find_set_self _ hself
    · rfl
  rw [answerHeaders]
  simp only [responseHeaders]
  cases answer.contentWriter with
  | none =>
      simp only
      rw [hbody, hconnection, find_set _ (by decide)]
  | some writer =>
      simp only
      split
      · exact find_set_self _ hself
      · rw [find_set _ (by decide), hbody, hconnection, find_set _ (by decide)]

theorem exists_mem_of_find {headers : Headers} {key value : Bytes}
    (hfind : headers.find key = some value) :
    ∃ header ∈ headers, SameName key header.1 ∧ header.2 = value := by
  obtain ⟨header, hheader, rfl⟩ := Option.map_eq_some_iff.mp hfind
  have hkey : sameKey key header.1 = true := by simpa using List.find?_some hheader
  exact ⟨header, List.mem_of_find?_eq_some hheader, (sameKey_iff.mp hkey).1, rfl⟩

theorem selfDelimiting_iff_find (henv : VisitsAll env) :
    SelfDelimiting env server answer ↔
      ∃ value, (answerHeaders env server answer).find CONTENT_LENGTH = some value ∧
        IsLength value (content env answer).length := by
  constructor
  · rintro ⟨header, -, -, hfind, hlength⟩
    exact ⟨header.2, hfind, hlength⟩
  · rintro ⟨value, hfind, hlength⟩
    obtain ⟨header, hmem, hname, rfl⟩ := exists_mem_of_find hfind
    exact ⟨header, (henv _).mem_iff.mpr hmem, hname, hfind, hlength⟩

theorem isLength_unique {value : Bytes} {n m : Nat} (h : IsLength value n) (h' : IsLength value m) :
    n = m :=
  h.length_eq.symm.trans h'.length_eq

theorem length_fileContent_iff (env : Environment) {writer : HttpContentWriter}
    (hsize : env.getFileSize writer.file ≠ 0) :
    (fileContent env writer).length = env.getFileSize writer.file ↔
      writer.file ≠ [] ∧ ∃ content, env.openFile writer.file = some content ∧
        env.getFileSize writer.file ≤ content.length := by
  rw [fileContent]
  rcases eq_or_ne writer.file [] with hfile | hfile
  · simp only [hfile, true_or, if_true, List.length_nil, ne_eq, not_true_eq_false, false_and,
      iff_false]
    rw [← hfile]
    exact hsize.symm
  · simp only [hfile, hsize, or_self, if_false, ne_eq, not_false_eq_true, true_and]
    cases env.openFile writer.file with
    | none => simpa using hsize.symm
    | some content =>
        simp only [List.length_take, Option.some.injEq, exists_eq_left']
        omega

theorem selfDelimiting_iff (henv : VisitsAll env) :
    SelfDelimiting env server answer ↔ Announced env answer := by
  have hempty : (∃ value, answer.response.headers.find CONTENT_LENGTH = some value ∧
      IsLength value 0) → answer.response.body = [] → SaysEmpty answer :=
    fun h hbody => ⟨hbody, h⟩
  rw [selfDelimiting_iff_find henv, find_responseHeaders, Announced, content]
  cases answer.contentWriter with
  | none =>
      simp only
      rcases eq_or_ne answer.response.body [] with hbody | hbody
      · simp [hbody, SaysEmpty]
      · simp [hbody, isLength_to_string]
  | some writer =>
      simp only
      rcases Nat.eq_zero_or_pos (env.getFileSize writer.file) with hsize | hsize
      · have hcontent : fileContent env writer = [] := if_pos (.inr hsize)
        rw [if_neg (by omega), if_pos hsize, hcontent, SaysEmpty]
        rcases eq_or_ne answer.response.body [] with hbody | hbody
        · simp [hbody]
        · simp only [ne_eq, hbody, not_false_eq_true, if_true, Option.some.injEq, exists_eq_left',
            false_and, iff_false, List.length_nil]
          intro hlength
          have hzero := isLength_unique (isLength_to_string answer.response.body.length) hlength
          exact hbody (List.length_eq_zero_iff.mp hzero)
      · rw [if_pos hsize, if_neg (by omega), ← length_fileContent_iff env (by omega)]
        simp only [Option.some.injEq, exists_eq_left']
        constructor
        · intro hlength
          exact isLength_unique hlength (isLength_to_string _)
        · intro hlength
          rw [hlength]
          exact isLength_to_string _

end Headers

section Sending

variable {kernel : Kernel} {env : Environment} {server : Server} {answer : Answer}

theorem accepted_log (c : Connection) (event : ConnEvent) :
    WriteQueue.accepted (log c event) = WriteQueue.accepted c ++ WriteQueue.eventPayload event := by
  simp [WriteQueue.accepted, log]

theorem accepted_congr {c c' : Connection} (htrace : c'.trace = c.trace) :
    WriteQueue.accepted c' = WriteQueue.accepted c := by
  rw [WriteQueue.accepted, WriteQueue.accepted, htrace]

theorem accepted_queueInList (c : Connection) (remaining : Bytes) :
    WriteQueue.accepted (queueInList c remaining) = WriteQueue.accepted c := by
  rw [queueInList]
  split
  · rw [checkHighWaterMark]
    split
    · split
      · exact ((accepted_log _ _).trans (List.append_nil _)).trans (accepted_congr rfl)
      · exact accepted_congr rfl
    · exact accepted_congr rfl
  · rfl

theorem accepted_sendInLoop (kernel : Kernel) (c : Connection) (data : Bytes) :
    WriteQueue.accepted (sendInLoop kernel c data) = WriteQueue.accepted c := by
  have htrace : (writeInLoop kernel c data).2.trace = c.trace := by
    rw [writeInLoop]
    split <;> rfl
  rw [sendInLoop]
  split
  · rfl
  · split
    · rcases hwrite : writeInLoop kernel c data with ⟨e | n, c'⟩
      · rw [hwrite] at htrace
        simp only
        split
        · exact accepted_congr htrace
        · exact (accepted_queueInList c' data).trans (accepted_congr htrace)
      · rw [hwrite] at htrace
        exact (accepted_queueInList c' _).trans (accepted_congr htrace)
    · exact accepted_queueInList c data

theorem accepted_send (kernel : Kernel) (c : Connection) (data : Bytes) :
    WriteQueue.accepted (send kernel true c data) = WriteQueue.accepted c ++ data := by
  rw [send]
  split
  · rw [accepted_sendInLoop, accepted_log]
    rfl
  · exact accepted_log c (.call (.send data))

theorem accepted_sendFile {c c' : Connection} {content : Bytes} {offset length : Nat}
    (hsend : sendFile kernel true c content offset length = some c') :
    WriteQueue.accepted c' =
      WriteQueue.accepted c ++ (content.drop offset).take length := by
  have hlogged := accepted_log c (.call (.sendFile content offset length))
  have hfile : ∀ c : Connection,
      (sendfileInLoop kernel c content offset length).1.trace = c.trace := by
    intro c
    rw [sendfileInLoop]
    split
    · split <;> rfl
    · split <;> rfl
  rw [sendFile] at hsend
  simp only at hsend
  split at hsend
  · rw [pushFile] at hsend
    simp only at hsend
    split at hsend
    · rename_i hsingle
      have hnil : (log c (.call (.sendFile content offset length))).writeBufferList = [] := by
        simpa using hsingle
      rw [sendFileInLoop_of_file kernel _ (by rw [hnil]; rfl)] at hsend
      obtain rfl := Option.some.inj hsend
      exact (accepted_congr (hfile _)).trans hlogged
    · obtain rfl := Option.some.inj hsend
      exact hlogged
  · obtain rfl := Option.some.inj hsend
    exact hlogged

theorem accepted_write (env : Environment) (writer : HttpContentWriter) (c : Connection) :
    WriteQueue.accepted (writer.write env (env.getFileSize writer.file) c) =
      WriteQueue.accepted c ++ fileContent env writer := by
  rw [HttpContentWriter.write, fileContent]
  split
  · rw [List.append_nil]
  · rw [sendFileName]
    cases env.openFile writer.file with
    | none => simp
    | some content =>
        obtain ⟨c', hsend, -⟩ :=
          exists_sendFile env.kernel c true content 0 (env.getFileSize writer.file)
        simp only [hsend, Option.getD_some]
        rw [accepted_sendFile hsend, List.drop_zero]

theorem responseText_eq (env : Environment) (server : Server) (answer : Answer) :
    responseText env server answer.response answer.contentWriter answer.entry.2 =
      responseHead env server answer ++
        if answer.contentWriter = none then answer.response.body else [] := rfl

theorem accepted_sendResponse (env : Environment) (server : Server) (answer : Answer)
    {s : HttpConnection} (hentry : keepAliveEntry s = answer.entry) :
    WriteQueue.accepted
        (sendResponse env server answer.response answer.contentWriter s).conn =
      WriteQueue.accepted s.conn ++ (responseHead env server answer ++ content env answer) := by
  simp only [sendResponse, record, hentry, responseText_eq, content]
  cases answer.contentWriter with
  | none => rw [accepted_send, if_pos rfl]
  | some writer =>
      simp only [reduceCtorEq, if_false, List.append_nil]
      rw [accepted_write, accepted_send, List.append_assoc]

theorem accepted_forceClose (c : Connection) :
    WriteQueue.accepted (forceClose c) = WriteQueue.accepted c := by
  rw [forceClose]
  split
  · rw [handleClose, accepted_log, accepted_log]
    simp only [WriteQueue.eventPayload, List.append_nil]
    exact accepted_congr rfl
  · rfl

theorem accepted_countRequest (response : HttpResponse) (s : HttpConnection) :
    WriteQueue.accepted (countRequest response s).conn = WriteQueue.accepted s.conn := by
  rw [countRequest_eq]
  split
  · rfl
  · exact accepted_forceClose s.conn

theorem countRequest_connected_iff (response : HttpResponse) (s : HttpConnection) :
    (countRequest response s).conn.status = .Connected ↔
      s.conn.status = .Connected ∧ StaysOpen response (keepAliveEntry s) := by
  rw [countRequest_eq]
  split
  · rename_i hopen
    simp [hopen]
  · rename_i hopen
    simp [hopen, closeAndErase_not_connected]

theorem recvMsgCallback_of_answer {input : List ReadResult} {s : HttpConnection}
    (hanswer : answerTo env server input s = some answer) :
    ∃ s', recvMsgCallback env server input s = .returned s' ∧
      WriteQueue.accepted s'.conn =
        WriteQueue.accepted s.conn ++ (responseHead env server answer ++ content env answer) ∧
      (s'.conn.status = .Connected ↔
        s.conn.status = .Connected ∧ StaysOpen answer.response answer.entry) := by
  rcases hparsed : parseRequest s.conn.readBuffer with e | ⟨_ | _, request⟩
  · simp [answerTo, hparsed] at hanswer
  · simp only [answerTo, hparsed, Option.some.injEq] at hanswer
    subst hanswer
    have hsent := accepted_sendResponse env server
      ⟨{ HttpResponse.init with statusCode := CODE_400 }, none, keepAliveEntry s⟩
      (s := setReadBuffer s request.buffer) rfl
    simp only [recvMsgCallback, hparsed]
    refine ⟨_, rfl, (accepted_forceClose _).trans hsent, ?_⟩
    refine iff_of_false (closeAndErase_not_connected _) fun hopen => ?_
    exact absurd hopen.2.1 (by decide)
  · rw [recvMsgCallback_of_request env server input hparsed]
    simp only [answerTo, hparsed] at hanswer
    obtain ⟨reply, hreply, rfl⟩ := Option.map_eq_some_iff.mp hanswer
    have hopened := opened_conn server request s
    rw [hreply]
    generalize opened server request s = o at hopened ⊢
    have hconn : (reply.prepare o.2).conn = (setReadBuffer s reply.readBuffer).conn := by
      simp only [Reply.prepare, setReadBuffer, hopened]
    have hsent := accepted_sendResponse env server
      ⟨reply.response, reply.contentWriter, keepAliveEntry o.2⟩ (s := reply.prepare o.2) rfl
    have hstatus := (sendResponse_untouched env server reply.response reply.contentWriter
      (reply.prepare o.2)).status
    refine ⟨_, rfl, (accepted_countRequest _ _).trans ?_, ?_⟩
    · refine hsent.trans ?_
      rw [hconn]
      rfl
    · rw [countRequest_connected_iff]
      change (sendResponse env server reply.response reply.contentWriter
        (reply.prepare o.2)).conn.status = .Connected ∧ _ ↔ _
      rw [hstatus, hconn]
      rfl

end Sending

section Run

/-- Every response after which the connection is kept open is sent as a head and what follows it,
and the head says how much that is. -/
def ResponsesDelimited (env : Environment) (server : Server) (s : HttpConnection) :
    ConnStep → Prop
  | .event revents result input =>
      ∀ entry answer s', callbackEntry revents result s = some entry →
        answerTo env server input entry = some answer →
        recvMsgCallback env server input entry = .returned s' → s'.conn.status = .Connected →
          WriteQueue.accepted s'.conn = WriteQueue.accepted entry.conn ++
            (responseHead env server answer ++ content env answer) ∧
          SelfDelimiting env server answer
  | .forceClose | .connectDestroyed => True

/-- The answers on an open connection that do not close it are announced. -/
def ResponsesAnnounced (env : Environment) (server : Server) (s : HttpConnection) :
    ConnStep → Prop
  | .event revents result input =>
      ∀ entry answer, callbackEntry revents result s = some entry →
        answerTo env server input entry = some answer → entry.conn.status = .Connected →
        StaysOpen answer.response answer.entry → Announced env answer
  | .forceClose | .connectDestroyed => True

variable {env : Environment} {server : Server}

theorem responsesDelimited_iff (henv : VisitsAll env) (s : HttpConnection) (t : ConnStep) :
    ResponsesDelimited env server s t ↔ ResponsesAnnounced env server s t := by
  cases t with
  | event revents result input =>
      constructor
      · intro h entry answer hentry hanswer hconnected hopen
        obtain ⟨s', hreturn, -, hstatus⟩ := recvMsgCallback_of_answer hanswer
        have hkept := hstatus.mpr ⟨hconnected, hopen⟩
        exact (selfDelimiting_iff henv).mp (h entry answer s' hentry hanswer hreturn hkept).2
      · intro h entry answer s' hentry hanswer hreturn hkept
        obtain ⟨s'', hreturn', hsent, hstatus⟩ := recvMsgCallback_of_answer hanswer
        obtain rfl : s'' = s' := by simpa [hreturn] using hreturn'.symm
        obtain ⟨hconnected, hopen⟩ := hstatus.mp hkept
        exact ⟨hsent, (selfDelimiting_iff henv).mpr
          (h entry answer hentry hanswer hconnected hopen)⟩
  | forceClose => exact Iff.rfl
  | connectDestroyed => exact Iff.rfl

/-- In every run of a connection the responses that keep it open are self-delimiting exactly when
they are announced. -/
theorem responsesDelimited_run_iff (server : Server) (steps : List (Environment × ConnStep))
    (henv : ∀ t ∈ steps, VisitsAll t.1) :
    AllSteps (stepIn server) (fun s t => ResponsesDelimited t.1 server s t.2) accepted steps ↔
      AllSteps (stepIn server) (fun s t => ResponsesAnnounced t.1 server s t.2) accepted steps := by
  generalize accepted = s
  induction steps generalizing s with
  | nil => exact Iff.rfl
  | cons t steps ih =>
      have hhead : ResponsesDelimited t.1 server s t.2 ↔ ResponsesAnnounced t.1 server s t.2 :=
        responsesDelimited_iff (henv t List.mem_cons_self) s t.2
      have htail := ih fun u hu => henv u (List.mem_cons_of_mem t hu)
      exact and_congr hhead (forall_congr' fun s' => forall_congr' fun _ => htail s')

theorem plainEnvironment_visitsAll : VisitsAll plainEnvironment := fun _ => .refl _

def helloEvent : ConnStep := .event pollIn (.ok (ascii "GET /hello HTTP/1.1\r\n\r\n")) []

theorem responsesDelimited_helloServer :
    (∀ t ∈ [(plainEnvironment, helloEvent)], VisitsAll t.1) ∧
      AllSteps (stepIn helloServer) (fun s t => ResponsesDelimited t.1 helloServer s t.2) accepted
        [(plainEnvironment, helloEvent)] := by
  have henv : ∀ t ∈ [(plainEnvironment, helloEvent)], VisitsAll t.1 := by
    intro t ht
    rw [List.mem_singleton.mp ht]
    exact plainEnvironment_visitsAll
  refine ⟨henv, (responsesDelimited_run_iff helloServer _ henv).mpr ⟨?_, fun _ _ => trivial⟩⟩
  intro entry answer hentry hanswer _ _
  obtain rfl := Option.some.inj hentry
  obtain rfl := Option.some.inj hanswer
  exact .inl (by decide)

def silentServer : Server :=
  { helloServer with getRoutes := [(ascii "/hello", fun _ => .done HttpResponse.init)] }

theorem not_responsesDelimited :
    ¬AllSteps (stepIn silentServer) (fun s t => ResponsesDelimited t.1 silentServer s t.2) accepted
      [(plainEnvironment, helloEvent)] := by
  rintro ⟨h, -⟩
  have hannounced := (responsesDelimited_iff plainEnvironment_visitsAll _ _).mp h _ _ rfl rfl rfl
    (by decide)
  rcases hannounced with hbody | ⟨-, value, hfind, -⟩
  · exact hbody rfl
  · have hnone : (HttpResponse.init.headers).find CONTENT_LENGTH = none := rfl
    exact absurd (hnone.symm.trans hfind) (by simp)

end Run

end Cooper.ResponseFraming

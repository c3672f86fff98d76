import Cooper.HttpServer
import Mathlib.Tactic.Common

namespace Cooper.HttpReply

open Cooper.Http
open Cooper.HttpServer
open Cooper.MsgBuffer
open Cooper.Multipart
open Cooper.TcpConnectionImpl
open Cooper.WhileLoop

/-- The response to a request, what is recorded before it is sent, and what the handler leaves in
the receive buffer. -/
structure Reply where
  response : HttpResponse
  contentWriter : Option HttpContentWriter
  events : List HttpEvent
  readBuffer : Bytes

def statusReply (statusCode : HttpStatus) (readBuffer : Bytes) : Reply where
  response := { HttpResponse.init with statusCode }
  contentWriter := none
  events := []
  readBuffer

def fileReply (env : Environment) (server : Server) (path readBuffer : Bytes) :
    List MountPointEntry → Option Reply
  | [] => none
  | entry :: baseDirs =>
      match mountedFile env entry path with
      | none => fileReply env server path readBuffer baseDirs
      | some file =>
          if server.fileAuthCallback.any (fun auth => !auth file) then
            some (statusReply CODE_403 readBuffer)
          else
            let headers := (env.iterationOrder entry.headers).foldl
              (fun headers kv => Headers.set headers kv.1 kv.2) HttpResponse.init.headers
            some {
              response := { HttpResponse.init with headers }
              contentWriter := some { file, contentType := Utilities.findContentType file }
              events := [.serveFile file]
              readBuffer }

def handlerReply (fuel : Nat) :
    HandlerProg → MultipartFormDataParser → List ReadResult → Bytes → Option Reply
  | .done response, _, _, readBuffer =>
      some { response, contentWriter := none, events := [], readBuffer }
  | .parseMultiPartFormData registered next, parser, input, readBuffer =>
      match iterate (parseStep registered) (fuel + 1) (parseEntry parser readBuffer input) with
      | none => none
      | some (result, l) =>
          (handlerReply fuel (next result l.calls) l.parser l.input l.buffer).map fun reply =>
            { reply with events := .parseMultiPartFormData result l.calls :: reply.events }

def routeReply (env : Environment) (input : List ReadResult) (routes : List (Bytes × HttpHandler))
    (request : HttpRequest) : Option Reply :=
  match findRoute routes request.path with
  | none => some (statusReply CODE_404 request.buffer)
  | some handler =>
      (handlerReply env.fuel (handler request.toRequestData) request.multipartFormDataParser input
        request.buffer).map fun reply =>
          { reply with events := .handler request.toRequestData :: reply.events }

def requestReply (env : Environment) (server : Server) (input : List ReadResult)
    (request : HttpRequest) : Option Reply :=
  if request.method = ascii "GET" then
    match fileReply env server request.path request.buffer server.baseDirs with
    | some reply => some reply
    | none => routeReply env input server.getRoutes request
  else if request.method = ascii "POST" then routeReply env input server.postRoutes request
  else some (statusReply CODE_405 request.buffer)

def Reply.prepare (reply : Reply) (s : HttpConnection) : HttpConnection :=
  { setReadBuffer s reply.readBuffer with events := s.events ++ reply.events }

def Reply.send (env : Environment) (server : Server) (reply : Reply) (s : HttpConnection) :
    HttpResponse × HttpConnection :=
  (reply.response, sendResponse env server reply.response reply.contentWriter (reply.prepare s))

variable {env : Environment} {server : Server}

theorem prepare_statusReply (statusCode : HttpStatus) (s : HttpConnection) :
    (statusReply statusCode s.conn.readBuffer).prepare s = s := by
  simp [Reply.prepare, statusReply, setReadBuffer]

theorem handleMountPoints_eq (path : Bytes) (s : HttpConnection)
    (baseDirs : List MountPointEntry) :
    handleMountPoints env server path s baseDirs =
      (fileReply env server path s.conn.readBuffer baseDirs).map
        fun reply => reply.send env server s := by
  induction baseDirs with
  | nil => rfl
  | cons entry baseDirs ih =>
      rw [handleMountPoints, fileReply]
      cases mountedFile env entry path with
      | none => exact ih
      | some file =>
          rcases Bool.eq_false_or_eq_true (server.fileAuthCallback.any fun auth => !auth file)
            with hauth | hauth
          · simp only [hauth, if_true, Option.map_some, Reply.send, prepare_statusReply]
            rfl
          · simp only [hauth, Bool.false_eq_true, if_false]
            rfl

theorem runHandler_eq (fuel : Nat) (prog : HandlerProg) (parser : MultipartFormDataParser)
    (input : List ReadResult) (s : HttpConnection) :
    runHandler fuel prog parser input s =
      (handlerReply fuel prog parser input s.conn.readBuffer).map
        fun reply => (reply.response, reply.prepare s) := by
  induction prog generalizing parser input s with
  | done response => simp [runHandler, handlerReply, Reply.prepare, setReadBuffer]
  | parseMultiPartFormData registered next ih =>
      rw [runHandler, handlerReply]
      rcases iterate (parseStep registered) (fuel + 1)
        (parseEntry parser s.conn.readBuffer input) with _ | ⟨result, l⟩
      · rfl
      · simp only [ih, Option.map_map]
        simp [Function.comp_def, Reply.prepare, setReadBuffer, record]

theorem handlerReply_contentWriter {fuel : Nat} {prog : HandlerProg}
    {parser : MultipartFormDataParser} {input : List ReadResult} {readBuffer : Bytes}
    {reply : Reply} (hreply : handlerReply fuel prog parser input readBuffer = some reply) :
    reply.contentWriter = none := by
  induction prog generalizing parser input readBuffer reply with
  | done response =>
      obtain rfl := Option.some.inj hreply
      rfl
  | parseMultiPartFormData registered next ih =>
      rw [handlerReply] at hreply
      split at hreply
      · simp at hreply
      · obtain ⟨reply', hreply', rfl⟩ := Option.map_eq_some_iff.mp hreply
        have hwriter : reply'.contentWriter = none := ih _ _ hreply'
        exact hwriter

theorem handleRoute_eq (input : List ReadResult) (routes : List (Bytes × HttpHandler))
    {request : HttpRequest} {s : HttpConnection} (hbuffer : request.buffer = s.conn.readBuffer) :
    handleRoute env server input routes request s =
      (routeReply env input routes request).map fun reply => reply.send env server s := by
  rw [handleRoute, routeReply, hbuffer]
  cases findRoute routes request.path with
  | none =>
      simp only [Option.map_some, Reply.send, prepare_statusReply]
      rfl
  | some handler =>
      simp only [runHandler_eq, Option.map_map]
      apply Option.map_congr
      intro reply hreply
      have hwriter := handlerReply_contentWriter hreply
      simp [Reply.send, Reply.prepare, hwriter, setReadBuffer, record]

theorem handle_eq (env : Environment) (server : Server) (input : List ReadResult)
    (request : HttpRequest) (s : HttpConnection) (hbuffer : request.buffer = s.conn.readBuffer) :
    (match handleFileRequest env server request s with
      | some answer => some answer
      | none => handleRequest env server input request s) =
    (requestReply env server input request).map fun reply => reply.send env server s := by
  rw [handleFileRequest, handleRequest, requestReply]
  rcases eq_or_ne request.method (ascii "GET") with hget | hget
  · simp only [hget, ne_eq, not_true_eq_false, if_false, if_true]
    rw [handleMountPoints_eq, handleRoute_eq input server.getRoutes hbuffer, hbuffer]
    cases fileReply env server request.path s.conn.readBuffer server.baseDirs with
    | none => rfl
    | some reply => rfl
  · simp only [hget, ne_eq, not_false_eq_true, if_false, if_true]
    split
    · exact handleRoute_eq input server.postRoutes hbuffer
    · rw [Option.map_some, Reply.send, hbuffer, prepare_statusReply]
      rfl

section Sending

/-- Sending leaves these fields of a connection alone. -/
structure Untouched (c c' : Connection) : Prop where
  status : c'.status = c.status
  reading : c'.reading = c.reading
  readBuffer : c'.readBuffer = c.readBuffer
  closeOnEmpty : c'.closeOnEmpty = c.closeOnEmpty

theorem Untouched.refl (c : Connection) : Untouched c c := ⟨rfl, rfl, rfl, rfl⟩

theorem Untouched.trans {c c' c'' : Connection} (h : Untouched c c') (h' : Untouched c' c'') :
    Untouched c c'' where
  status := h'.status.trans h.status
  reading := h'.reading.trans h.reading
  readBuffer := h'.readBuffer.trans h.readBuffer
  closeOnEmpty := h'.closeOnEmpty.trans h.closeOnEmpty

variable (kernel : Kernel) (c : Connection)

theorem writeInLoop_untouched (data : Bytes) : Untouched c (writeInLoop kernel c data).2 := by
  rw [writeInLoop]
  split <;> exact ⟨rfl, rfl, rfl, rfl⟩

theorem queueInList_untouched (remaining : Bytes) : Untouched c (queueInList c remaining) := by
  rw [queueInList]
  split
  · rw [checkHighWaterMark]
    split
    · split <;> exact ⟨rfl, rfl, rfl, rfl⟩
    · exact ⟨rfl, rfl, rfl, rfl⟩
  · exact .refl c

theorem sendInLoop_untouched (data : Bytes) : Untouched c (sendInLoop kernel c data) := by
  rw [sendInLoop]
  split
  · exact .refl c
  · split
    · have hwrite := writeInLoop_untouched kernel c data
      rcases hresult : writeInLoop kernel c data with ⟨e | n, c'⟩
      · rw [hresult] at hwrite
        simp only
        split
        · exact hwrite
        · exact hwrite.trans (queueInList_untouched c' data)
      · rw [hresult] at hwrite
        exact hwrite.trans (queueInList_untouched c' _)
    · exact queueInList_untouched c data

theorem log_untouched (event : ConnEvent) : Untouched c (log c event) := ⟨rfl, rfl, rfl, rfl⟩

theorem send_untouched (inLoopThread : Bool) (data : Bytes) :
    Untouched c (send kernel inLoopThread c data) := by
  rw [send]
  split
  · exact (log_untouched c _).trans (sendInLoop_untouched kernel _ data)
  · exact ⟨rfl, rfl, rfl, rfl⟩

theorem sendfileInLoop_untouched (content : Bytes) (offset fileBytesToSend : Nat) :
    Untouched c (sendfileInLoop kernel c content offset fileBytesToSend).1 := by
  rw [sendfileInLoop]
  split
  · split <;> exact ⟨rfl, rfl, rfl, rfl⟩
  · split <;> exact ⟨rfl, rfl, rfl, rfl⟩

theorem sendFileInLoop_of_file {content : Bytes} {offset fileBytesToSend : Nat}
    {rest : List BufferNode}
    (hlist : c.writeBufferList = .file content offset fileBytesToSend :: rest) :
    sendFileInLoop kernel c =
      some { (sendfileInLoop kernel c content offset fileBytesToSend).1 with
        writeBufferList :=
          (sendfileInLoop kernel c content offset fileBytesToSend).2 :: rest } := by
  simp only [sendFileInLoop, hlist]

/-- The assertions behind `sendFile` hold: what is sent first is the node just pushed. -/
theorem exists_sendFile (inLoopThread : Bool) (content : Bytes) (offset length : Nat) :
    ∃ c', sendFile kernel inLoopThread c content offset length = some c' ∧ Untouched c c' := by
  rw [sendFile]
  split
  · rw [pushFile]
    split
    · rename_i hsingle
      have hnil : (log c (.call (.sendFile content offset length))).writeBufferList = [] := by
        simpa using hsingle
      rw [sendFileInLoop_of_file kernel _ (by rw [hnil]; rfl)]
      have hfile := sendfileInLoop_untouched kernel
        { log c (.call (.sendFile content offset length)) with
          writeBufferList := [.file content offset length] } content offset length
      rw [hnil]
      exact ⟨_, rfl, hfile.status, hfile.reading, hfile.readBuffer, hfile.closeOnEmpty⟩
    · exact ⟨_, rfl, rfl, rfl, rfl, rfl⟩
  · exact ⟨_, rfl, rfl, rfl, rfl, rfl⟩

theorem write_untouched (env : Environment) (writer : HttpContentWriter) (size : Nat) :
    Untouched c (writer.write env size c) := by
  rw [HttpContentWriter.write]
  split
  · exact .refl c
  · rw [sendFileName]
    split
    · exact .refl c
    · rename_i content _
      obtain ⟨c', hsend, huntouched⟩ := exists_sendFile env.kernel c true content 0 size
      rw [hsend]
      exact huntouched

theorem sendResponse_untouched (env : Environment) (server : Server) (response : HttpResponse)
    (contentWriter : Option HttpContentWriter) (s : HttpConnection) :
    Untouched s.conn (sendResponse env server response contentWriter s).conn := by
  cases contentWriter with
  | none => exact send_untouched env.kernel s.conn true _
  | some writer =>
      exact (send_untouched env.kernel s.conn true _).trans (write_untouched _ env writer _)

end Sending

section Answer

/-- The connection stays open after a response when its entry is `entry` by then. -/
def StaysOpen (response : HttpResponse) (entry : Int × Int) : Prop :=
  response.statusCode.code = CODE_200.code ∧ entry.1 + 1 < entry.2

instance (response : HttpResponse) (entry : Int × Int) : Decidable (StaysOpen response entry) := by
  unfold StaysOpen
  infer_instance

theorem forceClose_forceClose (c : Connection) : forceClose (forceClose c) = forceClose c := by
  rw [forceClose, if_neg]
  rw [forceClose]
  split
  · simp [handleClose, disableAll, log]
  · assumption

theorem countRequest_eq (response : HttpResponse) (s : HttpConnection) :
    countRequest response s =
      if StaysOpen response (keepAliveEntry s) then
        { s with keepAliveRequest := some ((keepAliveEntry s).1 + 1, (keepAliveEntry s).2) }
      else closeAndErase s := by
  rw [countRequest]
  rcases eq_or_ne response.statusCode.code CODE_200.code with hcode | hcode
  · rcases Int.lt_or_le ((keepAliveEntry s).1 + 1) (keepAliveEntry s).2 with hlt | hge
    · rw [if_pos (show StaysOpen response _ from ⟨hcode, hlt⟩)]
      simp [hcode, Int.not_le.mpr hlt]
    · rw [if_neg (show ¬StaysOpen response _ from fun hopen => absurd hopen.2 (by omega))]
      simp [hcode, hge, closeAndErase]
  · rw [if_neg (show ¬StaysOpen response _ from fun hopen => hcode hopen.1)]
    simp [hcode, closeAndErase, keepAliveEntry, forceClose_forceClose]

def opened (server : Server) (request : HttpRequest) (s : HttpConnection) :
    HttpRequest × HttpConnection :=
  openKeepAlive server request
    (record (setReadBuffer s request.buffer) (.request request.toRequestData))

theorem opened_cases (server : Server) (request : HttpRequest) (s : HttpConnection) :
    ∃ headers entry, opened server request s =
      ({ request with headers },
        { record (setReadBuffer s request.buffer) (.request request.toRequestData) with
          keepAliveRequest := some entry }) := by
  rw [opened, openKeepAlive]
  split
  · rename_i entry hentry
    exact ⟨request.headers, entry, by rw [← hentry]⟩
  · exact ⟨_, _, rfl⟩

@[simp] theorem opened_conn (server : Server) (request : HttpRequest) (s : HttpConnection) :
    (opened server request s).2.conn = (setReadBuffer s request.buffer).conn := by
  obtain ⟨headers, entry, hopened⟩ := opened_cases server request s
  rw [hopened]
  rfl

theorem recvMsgCallback_of_request (env : Environment) (server : Server)
    (input : List ReadResult) {s : HttpConnection} {request : HttpRequest}
    (hparsed : parseRequest s.conn.readBuffer = .ok (true, request)) :
    recvMsgCallback env server input s =
      match requestReply env server input (opened server request s).1 with
      | none => .spinning
      | some reply => .returned (countRequest reply.response
          (reply.send env server (opened server request s).2).2) := by
  obtain ⟨headers, entry, hopened⟩ := opened_cases server request s
  have hhandle := handle_eq env server input (opened server request s).1
    (opened server request s).2 (by rw [hopened]; rfl)
  simp only [recvMsgCallback, hparsed]
  rw [← opened]
  generalize opened server request s = o at hhandle ⊢
  cases hreply : requestReply env server input o.1 with
  | none =>
      rw [hreply, Option.map_none] at hhandle
      cases hfile : handleFileRequest env server o.1 o.2 with
      | none =>
          rw [hfile] at hhandle
          simp only [hhandle]
      | some answer => simp [hfile] at hhandle
  | some reply =>
      rw [hreply, Option.map_some] at hhandle
      cases hfile : handleFileRequest env server o.1 o.2 with
      | none =>
          rw [hfile] at hhandle
          simp only [hhandle]
          rfl
      | some answer =>
          simp only [hfile, Option.some.injEq] at hhandle
          simp only [hhandle]
          rfl

@[simp] theorem closeAndErase_readBuffer (s : HttpConnection) :
    (closeAndErase s).conn.readBuffer = s.conn.readBuffer := by
  simp only [closeAndErase, forceClose]
  split <;> rfl

@[simp] theorem countRequest_events (response : HttpResponse) (s : HttpConnection) :
    (countRequest response s).events = s.events := by
  rw [countRequest_eq]
  split <;> rfl

@[simp] theorem countRequest_readBuffer (response : HttpResponse) (s : HttpConnection) :
    (countRequest response s).conn.readBuffer = s.conn.readBuffer := by
  rw [countRequest_eq]
  split
  · rfl
  · exact closeAndErase_readBuffer s

@[simp] theorem send_events (env : Environment) (server : Server) (reply : Reply)
    (s : HttpConnection) : (reply.send env server s).2.events =
      s.events ++ reply.events ++ [.response reply.response.statusCode.code] := rfl

@[simp] theorem send_readBuffer (env : Environment) (server : Server) (reply : Reply)
    (s : HttpConnection) : (reply.send env server s).2.conn.readBuffer = reply.readBuffer :=
  (sendResponse_untouched env server reply.response reply.contentWriter (reply.prepare s)).readBuffer

theorem exists_reply_of_returned {env : Environment} {server : Server} {input : List ReadResult}
    {s s' : HttpConnection} {request : HttpRequest}
    (hparsed : parseRequest s.conn.readBuffer = .ok (true, request))
    (hreturn : recvMsgCallback env server input s = .returned s') :
    ∃ reply, requestReply env server input (opened server request s).1 = some reply ∧
      s' = countRequest reply.response (reply.send env server (opened server request s).2).2 := by
  rw [recvMsgCallback_of_request env server input hparsed] at hreturn
  cases hreply : requestReply env server input (opened server request s).1 with
  | none => simp [hreply] at hreturn
  | some reply =>
      simp only [hreply, CallbackResult.returned.injEq] at hreturn
      exact ⟨reply, rfl, hreturn.symm⟩

theorem events_of_returned {env : Environment} {server : Server} {input : List ReadResult}
    {s s' : HttpConnection} {request : HttpRequest}
    (hparsed : parseRequest s.conn.readBuffer = .ok (true, request))
    (hreturn : recvMsgCallback env server input s = .returned s') :
    ∃ reply, requestReply env server input (opened server request s).1 = some reply ∧
      s'.events = s.events ++ .request request.toRequestData ::
        (reply.events ++ [.response reply.response.statusCode.code]) ∧
      s'.conn.readBuffer = reply.readBuffer := by
  obtain ⟨reply, hreply, rfl⟩ := exists_reply_of_returned hparsed hreturn
  refine ⟨reply, hreply, ?_, by simp⟩
  obtain ⟨headers, entry, hopened⟩ := opened_cases server request s
  rw [countRequest_events, send_events, hopened]
  simp [record, setReadBuffer]

theorem closeAndErase_not_connected (s : HttpConnection) :
    (closeAndErase s).conn.status ≠ .Connected := by
  simp only [closeAndErase, forceClose]
  split
  · simp [handleClose, disableAll, log]
  · rename_i hstatus
    exact fun hconnected => hstatus (.inl hconnected)

theorem closeAndErase_closed {s : HttpConnection} (hconnected : s.conn.status = .Connected) :
    (closeAndErase s).conn.status = .Disconnected ∧ (closeAndErase s).conn.reading = false ∧
      (closeAndErase s).conn.writing = false := by
  simp only [closeAndErase, forceClose, hconnected, true_or, if_true]
  exact ⟨rfl, rfl, rfl⟩

theorem recvMsgCallback_of_failed (env : Environment) (server : Server) (input : List ReadResult)
    (s : HttpConnection) (hconnected : s.conn.status = .Connected) {request : HttpRequest}
    (hparsed : parseRequest s.conn.readBuffer = .ok (false, request)) :
    ∃ s', recvMsgCallback env server input s = .returned s' ∧
      s'.events = s.events ++ [.response CODE_400.code] ∧ s'.conn.status = .Disconnected ∧
      s'.conn.reading = false ∧ s'.conn.writing = false := by
  have hstatus := (sendResponse_untouched env server
    { HttpResponse.init with statusCode := CODE_400 } none
    (setReadBuffer s request.buffer)).status
  have hclosed := closeAndErase_closed (hstatus.trans hconnected)
  simp only [recvMsgCallback, hparsed]
  exact ⟨_, rfl, rfl, hclosed⟩

/-- A response as it is handed to `sendResponse`, with the connection's entry by then. -/
structure Answer where
  response : HttpResponse
  contentWriter : Option HttpContentWriter
  entry : Int × Int

/-- The answer to the bytes in the receive buffer. There is none when a handler does not return or
the number in a header throws. -/
def answerTo (env : Environment) (server : Server) (input : List ReadResult) (s : HttpConnection) :
    Option Answer :=
  match parseRequest s.conn.readBuffer with
  | .error _ => none
  | .ok (false, _) => some {
      response := { HttpResponse.init with statusCode := CODE_400 }
      contentWriter := none
      entry := keepAliveEntry s }
  | .ok (true, request) =>
      (requestReply env server input (opened server request s).1).map fun reply => {
        response := reply.response
        contentWriter := reply.contentWriter
        entry := keepAliveEntry (opened server request s).2 }

end Answer

section Handled

/-- The requests that the server has got as far as handling. -/
def handledRequests (events : List HttpEvent) : List RequestData :=
  events.filterMap fun
    | .request data => some data
    | _ => none

@[simp] theorem handledRequests_append (events events' : List HttpEvent) :
    handledRequests (events ++ events') = handledRequests events ++ handledRequests events' :=
  List.filterMap_append

theorem handledRequests_handlerReply {fuel : Nat} {prog : HandlerProg}
    {parser : MultipartFormDataParser} {input : List ReadResult} {readBuffer : Bytes}
    {reply : Reply} (hreply : handlerReply fuel prog parser input readBuffer = some reply) :
    handledRequests reply.events = [] := by
  induction prog generalizing parser input readBuffer reply with
  | done response =>
      obtain rfl := Option.some.inj hreply
      rfl
  | parseMultiPartFormData registered next ih =>
      rw [handlerReply] at hreply
      split at hreply
      · simp at hreply
      · obtain ⟨reply', hreply', rfl⟩ := Option.map_eq_some_iff.mp hreply
        have hnone : handledRequests reply'.events = [] := ih _ _ hreply'
        exact hnone

theorem handledRequests_fileReply {env : Environment} {server : Server} {path readBuffer : Bytes}
    {baseDirs : List MountPointEntry} {reply : Reply}
    (hreply : fileReply env server path readBuffer baseDirs = some reply) :
    handledRequests reply.events = [] := by
  induction baseDirs with
  | nil => simp [fileReply] at hreply
  | cons entry baseDirs ih =>
      rw [fileReply] at hreply
      split at hreply
      · exact ih hreply
      · split at hreply
        · obtain rfl := Option.some.inj hreply
          rfl
        · obtain rfl := Option.some.inj hreply
          rfl

theorem handledRequests_routeReply {env : Environment} {input : List ReadResult}
    {routes : List (Bytes × HttpHandler)} {request : HttpRequest} {reply : Reply}
    (hreply : routeReply env input routes request = some reply) :
    handledRequests reply.events = [] := by
  rw [routeReply] at hreply
  split at hreply
  · obtain rfl := Option.some.inj hreply
    rfl
  · obtain ⟨reply', hreply', rfl⟩ := Option.map_eq_some_iff.mp hreply
    have hnone : handledRequests reply'.events = [] := handledRequests_handlerReply hreply'
    exact hnone

theorem handledRequests_requestReply {env : Environment} {server : Server}
    {input : List ReadResult} {request : HttpRequest} {reply : Reply}
    (hreply : requestReply env server input request = some reply) :
    handledRequests reply.events = [] := by
  rw [requestReply] at hreply
  split at hreply
  · split at hreply
    · rename_i hfile
      obtain rfl := Option.some.inj hreply
      exact handledRequests_fileReply hfile
    · exact handledRequests_routeReply hreply
  · split at hreply
    · exact handledRequests_routeReply hreply
    · obtain rfl := Option.some.inj hreply
      rfl

theorem handledRequests_of_returned {env : Environment} {server : Server}
    {input : List ReadResult} {s s' : HttpConnection} {request : HttpRequest}
    (hparsed : parseRequest s.conn.readBuffer = .ok (true, request))
    (hreturn : recvMsgCallback env server input s = .returned s') :
    handledRequests s'.events = handledRequests s.events ++ [request.toRequestData] := by
  obtain ⟨reply, hreply, hevents, -⟩ := events_of_returned hparsed hreturn
  have hnone := handledRequests_requestReply hreply
  rw [hevents, handledRequests_append]
  simp only [handledRequests, List.filterMap_cons, List.filterMap_append, List.filterMap_nil]
    at hnone ⊢
  rw [hnone]
  rfl

end Handled

end Cooper.HttpReply

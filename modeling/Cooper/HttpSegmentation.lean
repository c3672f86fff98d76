import Cooper.HttpEncoding
import Cooper.HttpLoop

namespace Cooper.HttpSegmentation

open Cooper.Http
open Cooper.HttpEncoding
open Cooper.HttpLoop
open Cooper.HttpReply
open Cooper.HttpServer
open Cooper.LineBlock
open Cooper.MsgBuffer
open Cooper.Multipart
open Cooper.TcpConnectionImpl
open Cooper.Utilities
open Cooper.WhileLoop

/-- An open connection that waits for the first byte of a request. -/
structure Waiting (s : HttpConnection) : Prop where
  connected : s.conn.status = .Connected
  reading : s.conn.reading = true
  empty : s.conn.readBuffer = []

theorem accepted_waiting : Waiting accepted := ⟨rfl, rfl, rfl⟩

section Segments

def observed (s : HttpConnection) : List HttpEvent × ConnStatus × Bytes :=
  (s.events, s.conn.status, s.conn.socket.written)

/-- Arriving in these chunks has the same effect as arriving in one. -/
def SameAsWhole (env : Environment) (server : Server) (input : List ReadResult)
    (s : HttpConnection) (chunks : List Bytes) : Prop :=
  (deliver env server input s chunks).map observed =
    (deliver env server input s [chunks.flatten]).map observed

variable {env : Environment} {server : Server} {input : List ReadResult} {s : HttpConnection}
  {wire : WireRequest}

theorem handleEvent_partial (env : Environment) (server : Server) (input : List ReadResult)
    (hs : Waiting s) {chunk : Bytes} (hchunk : chunk ≠ [])
    (hstart : chunk <+: wire.encode) (hlength : chunk.length < wire.encode.length) :
    ∃ s', handleEvent env server pollIn (.ok chunk) input s = some s' ∧
      s'.events = s.events ++ [.response CODE_400.code] ∧ s'.conn.reading = false ∧
      s'.conn.writing = false := by
  obtain ⟨request, hparsed⟩ := parseRequest_partial wire hstart hlength
  have hbuffer : (received s chunk).conn.readBuffer = chunk := by
    rw [received, hs.empty, List.nil_append]
  rw [← hbuffer] at hparsed
  obtain ⟨s', hreturn, hevents, -, hreading, hwriting⟩ := recvMsgCallback_of_failed env server
    input (received s chunk) hs.connected hparsed
  rw [handleEvent_pollIn hs.reading hchunk, hreturn]
  exact ⟨s', rfl, hevents, hreading, hwriting⟩

theorem handleEvent_whole (hs : Waiting s) {s' : HttpConnection}
    (hhandled : handleEvent env server pollIn (.ok wire.encode) input s = some s') :
    ∃ events, s'.events = s.events ++ .request wire.data :: events := by
  have hencode : wire.encode ≠ [] := by
    simp [WireRequest.encode, WireRequest.head, WireRequest.line]
  have hparsed := parseRequest_whole wire [] fun _ => rfl
  have hbuffer : (received s wire.encode).conn.readBuffer = wire.encode := by
    rw [received, hs.empty, List.nil_append]
  rw [List.append_nil, ← hbuffer] at hparsed
  rw [handleEvent_pollIn hs.reading hencode] at hhandled
  split at hhandled
  · rename_i hreturn
    obtain rfl := Option.some.inj hhandled
    obtain ⟨reply, -, hevents, -⟩ := events_of_returned hparsed hreturn
    exact ⟨_, hevents⟩
  · simp at hhandled
  · simp at hhandled

/-- A request has the effect of its bytes in one chunk only when they arrive in one chunk. -/
theorem sameAsWhole_iff (env : Environment) (server : Server) (input : List ReadResult)
    {s : HttpConnection} (hs : Waiting s) (wire : WireRequest) {chunks : List Bytes}
    (hbytes : chunks.flatten = wire.encode) (hnonempty : ∀ chunk ∈ chunks, chunk ≠ []) :
    SameAsWhole env server input s chunks ↔ chunks.length = 1 := by
  constructor
  · intro hsame
    rcases chunks with _ | ⟨first, _ | ⟨second, rest⟩⟩
    · simp [WireRequest.encode, WireRequest.head, WireRequest.line] at hbytes
    · rfl
    · have hsecond := List.length_pos_iff.mpr (hnonempty second (by simp))
      have hstart : first <+: wire.encode := by
        rw [← hbytes, List.flatten_cons]
        exact List.prefix_append first _
      have hlength : first.length < wire.encode.length := by
        rw [← hbytes, List.flatten_cons, List.flatten_cons, List.length_append, List.length_append]
        omega
      obtain ⟨s', hfirst, hevents, hreading, hwriting⟩ := handleEvent_partial env server
        input hs (hnonempty first List.mem_cons_self) hstart hlength
      have hcut : deliver env server input s (first :: second :: rest) = some s' := by
        rw [deliver, List.foldlM_cons, hfirst]
        exact deliver_closed hreading hwriting (second :: rest)
      rw [SameAsWhole, hcut, hbytes, Option.map_some, eq_comm, Option.map_eq_some_iff] at hsame
      obtain ⟨whole, hwhole, hobserved⟩ := hsame
      rw [deliver, List.foldlM_cons] at hwhole
      obtain ⟨next, hnext, hlast⟩ := Option.bind_eq_some_iff.mp hwhole
      obtain rfl := Option.some.inj hlast
      obtain ⟨events, hrequest⟩ := handleEvent_whole hs hnext
      have hsame : next.events = s'.events := congrArg Prod.fst hobserved
      rw [hrequest, hevents, List.append_cancel_left_eq] at hsame
      exact absurd (List.cons.inj hsame).1 (by simp)
  · intro hone
    obtain ⟨chunk, rfl⟩ := List.length_eq_one_iff.mp hone
    simp [SameAsWhole]

def plainEnvironment : Environment where
  kernel _ len := .done ⟨len, Nat.lt_succ_self len⟩
  isFile _ := false
  getFileSize _ := 0
  openFile _ := none
  iterationOrder := id
  fuel := 0

def helloServer : Server where
  keepAliveTimeout := 60
  maxKeepAliveRequests := 1000
  getRoutes := [(ascii "/hello", fun _ =>
    .done { HttpResponse.init with body := ascii "Hello, world" })]
  postRoutes := []
  baseDirs := []
  fileAuthCallback := none

def helloRequest (fields : List HeaderField) (body : Bytes)
    (hmultipart : ∀ contentType ∈ (headerTable [] fields).find CONTENT_TYPE,
      ¬ascii "multipart/form-data" <+: contentType)
    (hlength : ∀ value ∈ (headerTable [] fields).find CONTENT_LENGTH, IsLength value body.length)
    (hnone : (headerTable [] fields).find CONTENT_LENGTH = none → body = [])
    (hbody : body.length < 2 ^ 64) : WireRequest where
  method := ascii "GET"
  path := ascii "/hello"
  version := ascii "HTTP/1.1"
  fields
  body
  method_mem := by decide
  path_nonempty := by decide
  path_text := by decide
  version_mem := by decide
  not_multipart := hmultipart
  content_length := hlength
  no_content_length := hnone
  body_lt := hbody

def bareRequest : WireRequest :=
  helloRequest [] [] (by decide) (by decide) (by decide) (by decide)

def bareChunks : List Bytes := [ascii "GET /hello HTTP/1.1\r\n\r", ascii "\n"]

theorem sameAsWhole_iff_bareRequest :
    (SameAsWhole plainEnvironment helloServer [] accepted [bareRequest.encode] ↔
        [bareRequest.encode].length = 1) ∧
      (SameAsWhole plainEnvironment helloServer [] accepted bareChunks ↔
        bareChunks.length = 1) :=
  ⟨sameAsWhole_iff plainEnvironment helloServer [] accepted_waiting bareRequest (by decide)
      (by decide),
    sameAsWhole_iff plainEnvironment helloServer [] accepted_waiting bareRequest (by decide)
      (by decide)⟩

theorem not_sameAsWhole_bareRequest :
    ¬SameAsWhole plainEnvironment helloServer [] accepted bareChunks := by
  unfold SameAsWhole
  decide

end Segments

section Pipelining

/-- The callback returns, and it has handled these requests, once each and in this order. -/
def HandlesAll (env : Environment) (server : Server) (input : List ReadResult)
    (s : HttpConnection) (requests : List WireRequest) : Prop :=
  ∃ s', recvMsgCallback env server input s = .returned s' ∧
    handledRequests s'.events = handledRequests s.events ++ requests.map WireRequest.data

theorem iterate_parseStep_empty (registered : List Bytes) (fuel : Nat) (input : List ReadResult) :
    iterate (parseStep registered) (fuel + 1) (parseEntry .init [] input) =
      some (false, parseEntry .init [] input) := rfl

theorem exists_handlerReply (fuel : Nat) (prog : HandlerProg) (input : List ReadResult) :
    ∃ reply, handlerReply fuel prog .init input [] = some reply := by
  induction prog with
  | done response => exact ⟨_, rfl⟩
  | parseMultiPartFormData registered next ih =>
      obtain ⟨reply, hreply⟩ := ih false []
      rw [handlerReply, iterate_parseStep_empty]
      exact ⟨_, congrArg (Option.map _) hreply⟩

theorem exists_requestReply (env : Environment) (server : Server) (input : List ReadResult)
    (request : HttpRequest) (hbuffer : request.buffer = [])
    (hparser : request.multipartFormDataParser = .init) :
    ∃ reply, requestReply env server input request = some reply := by
  have hroute : ∀ routes, ∃ reply, routeReply env input routes request = some reply := by
    intro routes
    rw [routeReply, hparser, hbuffer]
    cases findRoute routes request.path with
    | none => exact ⟨_, rfl⟩
    | some handler =>
        obtain ⟨reply, hreply⟩ := exists_handlerReply env.fuel (handler request.toRequestData) input
        exact ⟨_, congrArg (Option.map _) hreply⟩
  rw [requestReply]
  split
  · split
    · exact ⟨_, rfl⟩
    · exact hroute _
  · split
    · exact hroute _
    · exact ⟨_, rfl⟩

variable {env : Environment} {server : Server} {input : List ReadResult} {s : HttpConnection}

theorem handlesAll_single {wire : WireRequest} (hbuffer : s.conn.readBuffer = wire.encode) :
    HandlesAll env server input s [wire] := by
  have hparsed := parseRequest_whole wire [] fun _ => rfl
  rw [List.append_nil, ← hbuffer] at hparsed
  obtain ⟨headers, entry, hopened⟩ := opened_cases server
    { HttpRequest.init [] with toRequestData := wire.data } s
  obtain ⟨reply, hreply⟩ := exists_requestReply env server input
    (opened server { HttpRequest.init [] with toRequestData := wire.data } s).1
    (by rw [hopened]; rfl) (by rw [hopened]; rfl)
  have hreturn := recvMsgCallback_of_request env server input hparsed
  rw [hreply] at hreturn
  exact ⟨_, hreturn, handledRequests_of_returned hparsed hreturn⟩

theorem parseRequest_nil : parseRequest [] = .ok (false, HttpRequest.init []) := by decide

/-- Whatever follows the first request in the buffer is not handled. -/
theorem handlesAll_iff (env : Environment) (server : Server) (input : List ReadResult)
    {s : HttpConnection} (hconnected : s.conn.status = .Connected) (requests : List WireRequest)
    (hlength : ∀ wire ∈ requests, (headerTable [] wire.fields).find CONTENT_LENGTH ≠ none)
    (hbuffer : s.conn.readBuffer = (requests.map WireRequest.encode).flatten) :
    HandlesAll env server input s requests ↔ requests.length ≤ 1 := by
  rcases requests with _ | ⟨wire, rest⟩
  · have hparsed : parseRequest s.conn.readBuffer = .ok (false, HttpRequest.init []) := by
      rw [hbuffer]
      exact parseRequest_nil
    obtain ⟨s', hreturn, hevents, -⟩ := recvMsgCallback_of_failed env server input s
      hconnected hparsed
    refine iff_of_true ⟨s', hreturn, ?_⟩ (by simp)
    rw [hevents, handledRequests_append]
    rfl
  · rw [List.map_cons, List.flatten_cons] at hbuffer
    rcases rest with _ | ⟨second, rest⟩
    · refine iff_of_true (handlesAll_single ?_) (by simp)
      simpa using hbuffer
    · refine iff_of_false ?_ (by simp)
      rintro ⟨s', hreturn, hhandled⟩
      have hparsed := parseRequest_whole wire ((second :: rest).map WireRequest.encode).flatten
        fun hnone => absurd hnone (hlength wire List.mem_cons_self)
      rw [← hbuffer] at hparsed
      rw [handledRequests_of_returned hparsed hreturn, List.append_cancel_left_eq] at hhandled
      have hcount := congrArg List.length hhandled
      simp at hcount

def contentLengthZero : HeaderField where
  name := CONTENT_LENGTH
  lead := ascii " "
  value := ascii "0"
  trail := []
  name_colon := by decide
  name_cr := by decide
  lead_blank := by decide
  value_cr := by decide
  value_solid := .inr (solid_of_forall (by decide) (by decide))
  trail_blank := Blank.nil

def sizedRequest : WireRequest :=
  helloRequest [contentLengthZero] [] (by decide) (by decide) (by decide) (by decide)

theorem sizedRequest_length :
    (headerTable [] sizedRequest.fields).find CONTENT_LENGTH ≠ none := by decide

theorem handlesAll_iff_sizedRequest :
    (HandlesAll plainEnvironment helloServer [] (setReadBuffer accepted sizedRequest.encode)
        [sizedRequest] ↔ [sizedRequest].length ≤ 1) ∧
      (HandlesAll plainEnvironment helloServer []
          (setReadBuffer accepted (sizedRequest.encode ++ sizedRequest.encode))
          [sizedRequest, sizedRequest] ↔ [sizedRequest, sizedRequest].length ≤ 1) :=
  ⟨handlesAll_iff plainEnvironment helloServer [] rfl [sizedRequest]
      (by simp [sizedRequest_length]) (by simp [setReadBuffer]),
    handlesAll_iff plainEnvironment helloServer [] rfl [sizedRequest, sizedRequest]
      (by simp [sizedRequest_length]) (by simp [setReadBuffer])⟩

theorem not_handlesAll_sizedRequests :
    ¬HandlesAll plainEnvironment helloServer []
      (setReadBuffer accepted (sizedRequest.encode ++ sizedRequest.encode))
      [sizedRequest, sizedRequest] := by
  rintro ⟨s', hreturn, hhandled⟩
  have hfirst : ∃ s', recvMsgCallback plainEnvironment helloServer []
      (setReadBuffer accepted (sizedRequest.encode ++ sizedRequest.encode)) = .returned s' ∧
      handledRequests s'.events = [sizedRequest.data] := ⟨_, rfl, by decide⟩
  obtain ⟨s'', hreturn', hevents⟩ := hfirst
  obtain rfl := CallbackResult.returned.inj (hreturn.symm.trans hreturn')
  rw [hevents] at hhandled
  exact absurd hhandled (by decide)

end Pipelining

end Cooper.HttpSegmentation

import Cooper.HttpSegmentation
import Cooper.MultipartDecoding

namespace Cooper.HttpBoundary

open Cooper.Http
open Cooper.HttpEncoding
open Cooper.HttpLoop
open Cooper.HttpReply
open Cooper.HttpSegmentation
open Cooper.HttpServer
open Cooper.LineBlock
open Cooper.MsgBuffer
open Cooper.Multipart
open Cooper.MultipartDecoding
open Cooper.TcpConnectionImpl
open Cooper.Utilities
open Cooper.WhileLoop

section Parser

def Forward (s s' : LoopState) : Prop := stream s' <:+ stream s

theorem Forward.refl (s : LoopState) : Forward s s := List.suffix_refl _

theorem Forward.trans {s s' s'' : LoopState} (h : Forward s s') (h' : Forward s' s'') :
    Forward s s'' := List.IsSuffix.trans h' h

theorem Forward.of_suffix {s s' : LoopState} (hinput : s'.input = s.input)
    (hbuffer : s'.buffer <:+ s.buffer) : Forward s s' := by
  obtain ⟨front, hfront⟩ := hbuffer
  refine ⟨front, ?_⟩
  rw [stream, stream, hinput, ← hfront, List.append_assoc]

theorem parsePartHeaders_suffix (fuel : Nat) (file : MultipartFormData) (buffer : Bytes) :
    (parsePartHeaders fuel file buffer).2.2 <:+ buffer := by
  fun_induction parsePartHeaders fuel file buffer with
  | case1 => exact List.suffix_refl _
  | case2 => exact List.suffix_refl _
  | case3 fuel file buffer hfind =>
      rw [retrieve_eq]
      exact List.drop_suffix _ _
  | case4 => exact List.suffix_refl _
  | case5 fuel file buffer crlf hpos hfind next hnext ih =>
      rw [retrieve_eq] at ih ⊢
      exact ih.trans (List.drop_suffix _ _)

theorem readMore_forward (s : LoopState) : Forward s (readMore s).2 := by
  have hread : Forward s (readFd s).2 := by
    rw [readFd]
    split
    · exact .refl s
    · rename_i chunk input hinput
      refine ⟨[], ?_⟩
      simp [stream, hinput, inputData]
    · rename_i e input hinput
      refine ⟨[], ?_⟩
      simp [stream, hinput, inputData]
  rcases hresult : readFd s with ⟨⟨_ | _ | _ | code⟩ | chunk, s'⟩ <;>
    · rw [hresult] at hread
      rw [readMore, hresult]
      exact hread

/-- What an iteration does: it goes forward, and when it returns true it has emptied the buffer. -/
def StepTakes (s : LoopState) : LoopState ⊕ Bool × LoopState → Prop
  | .inl s' => Forward s s'
  | .inr (result, s') => Forward s s' ∧ (result = true → s'.buffer = [])

variable (registered : List Bytes)

theorem parseSwitch_takes (s : LoopState) : StepTakes s (parseSwitch registered s) := by
  rw [parseSwitch]
  split
  · rw [parseState0]
    split
    · exact .refl s
    · split
      · exact ⟨.refl s, by simp⟩
      · exact .of_suffix rfl (by rw [retrieveUntil_eq]; exact List.drop_suffix _ _)
  · exact .refl s
  · have hsuffix := parsePartHeaders_suffix s.buffer.length s.parser.file s.buffer
    rw [parseState2]
    split
    · exact .refl s
    · split
      · rename_i hparsed
        rw [hparsed] at hsuffix
        exact ⟨.of_suffix rfl hsuffix, by simp⟩
      · rename_i hparsed
        rw [hparsed] at hsuffix
        exact .of_suffix (by simp) (by simpa using hsuffix)
  · rw [parseState3]
    split
    · exact .refl s
    · split
      · refine .of_suffix (by simp) ?_
        simpa using List.drop_suffix _ s.buffer
      · simp only
        split
        · refine .of_suffix (by simp [waitForMore]) ?_
          simpa [waitForMore] using List.drop_suffix _ s.buffer
        · exact .refl s
  · rw [parseState4]
    split
    · exact .refl s
    · split
      · exact .of_suffix rfl (by rw [retrieve_eq]; exact List.drop_suffix _ _)
      · split
        · exact ⟨.of_suffix rfl List.nil_suffix, fun _ => rfl⟩
        · exact ⟨.refl s, by simp⟩

theorem parseStep_takes (s : LoopState) : StepTakes s (parseStep registered s) := by
  have hread := readMore_forward s
  rw [parseStep]
  split
  · split
    · rename_i s' hresult
      rw [hresult] at hread
      exact ⟨hread, by simp⟩
    · rename_i s' hresult
      rw [hresult] at hread
      exact hread
    · rename_i s' hresult
      rw [hresult] at hread
      have hswitch := parseSwitch_takes registered s'
      revert hswitch
      cases parseSwitch registered s' with
      | inl next => exact hread.trans
      | inr r => exact fun hswitch => ⟨hread.trans hswitch.1, hswitch.2⟩
  · exact parseSwitch_takes registered s

variable {registered} in
theorem iterate_takes {fuel : Nat} {s s' : LoopState} {result : Bool}
    (hreturn : iterate (parseStep registered) fuel s = some (result, s')) :
    Forward s s' ∧ (result = true → s'.buffer = []) := by
  refine of_iterate (Forward s) (fun r => Forward s r.2 ∧ (r.1 = true → r.2.buffer = []))
    ?_ ?_ (.refl s) hreturn
  · intro t t' ht hnext
    have hstep := parseStep_takes registered t
    rw [hnext] at hstep
    exact ht.trans hstep
  · intro t r ht hnext
    have hstep := parseStep_takes registered t
    rw [hnext] at hstep
    exact ⟨ht.trans hstep.1, hstep.2⟩

end Parser

section Reply

def isParse : HttpEvent → Bool
  | .parseMultiPartFormData _ _ => true
  | _ => false

def NoParse (events : List HttpEvent) : Prop := ∀ event ∈ events, isParse event = false

instance (events : List HttpEvent) : Decidable (NoParse events) :=
  List.decidableBAll _ events

def EndsParsed (events : List HttpEvent) : Prop :=
  ∃ front calls, events = front ++ [.parseMultiPartFormData true calls]

/-- What a reply has done to the bytes behind the header block when the socket answers with
`input`. -/
structure Leaves (events : List HttpEvent) (rest : Bytes) (input : List ReadResult)
    (readBuffer : Bytes) : Prop where
  forward : ∃ unread, readBuffer ++ unread <:+ rest ++ inputData input
  untouched : NoParse events → readBuffer = rest
  emptied : EndsParsed events → readBuffer = []

variable {rest readBuffer : Bytes} {input : List ReadResult} {events : List HttpEvent}

theorem Leaves.same (hevents : NoParse events) : Leaves events rest input rest where
  forward := ⟨inputData input, List.suffix_refl _⟩
  untouched _ := rfl
  emptied := by
    rintro ⟨front, calls, rfl⟩
    exact absurd (hevents _ (List.mem_append_right front (List.mem_singleton_self _)))
      (by simp [isParse])

theorem Leaves.cons (h : Leaves events rest input readBuffer) {event : HttpEvent}
    (hevent : isParse event = false) : Leaves (event :: events) rest input readBuffer where
  forward := h.forward
  untouched hnone := h.untouched fun event hmem => hnone event (List.mem_cons_of_mem _ hmem)
  emptied := by
    rintro ⟨front, calls, hends⟩
    rcases front with _ | ⟨first, front⟩
    · rw [(List.cons.inj hends).1] at hevent
      exact absurd hevent (by simp [isParse])
    · exact h.emptied ⟨front, calls, (List.cons.inj hends).2⟩

theorem Leaves.parse {registered : List Bytes} {fuel : Nat} {parser : MultipartFormDataParser}
    {result : Bool} {l : LoopState}
    (hreturn : iterate (parseStep registered) fuel (parseEntry parser rest input) =
      some (result, l)) (h : Leaves events l.buffer l.input readBuffer) :
    Leaves (.parseMultiPartFormData result l.calls :: events) rest input readBuffer where
  forward := by
    obtain ⟨unread, hunread⟩ := h.forward
    exact ⟨unread, hunread.trans (iterate_takes hreturn).1⟩
  untouched hnone := absurd (hnone _ List.mem_cons_self) (by simp [isParse])
  emptied := by
    rintro ⟨front, calls, hends⟩
    rcases front with _ | ⟨first, front⟩
    · obtain ⟨hevent, rfl⟩ := List.cons.inj hends
      obtain ⟨rfl, -⟩ := HttpEvent.parseMultiPartFormData.inj hevent
      rw [h.untouched (by simp [NoParse])]
      exact (iterate_takes hreturn).2 rfl
    · exact h.emptied ⟨front, calls, (List.cons.inj hends).2⟩

theorem handlerReply_leaves {fuel : Nat} {prog : HandlerProg} {parser : MultipartFormDataParser}
    {reply : Reply} (hreply : handlerReply fuel prog parser input rest = some reply) :
    Leaves reply.events rest input reply.readBuffer := by
  induction prog generalizing parser input rest reply with
  | done response =>
      obtain rfl := Option.some.inj hreply
      exact .same (by simp [NoParse])
  | parseMultiPartFormData registered next ih =>
      rw [handlerReply] at hreply
      split at hreply
      · simp at hreply
      · rename_i result l hreturn
        obtain ⟨reply', hreply', rfl⟩ := Option.map_eq_some_iff.mp hreply
        exact .parse hreturn (ih _ _ hreply')

theorem routeReply_leaves {env : Environment} {routes : List (Bytes × HttpHandler)}
    {request : HttpRequest} {reply : Reply}
    (hreply : routeReply env input routes request = some reply) :
    Leaves reply.events request.buffer input reply.readBuffer := by
  rw [routeReply] at hreply
  split at hreply
  · obtain rfl := Option.some.inj hreply
    exact .same (by simp [NoParse, statusReply])
  · obtain ⟨reply', hreply', rfl⟩ := Option.map_eq_some_iff.mp hreply
    exact (handlerReply_leaves hreply').cons rfl

theorem fileReply_leaves {env : Environment} {server : Server} {path : Bytes}
    {baseDirs : List MountPointEntry} {reply : Reply}
    (hreply : fileReply env server path rest baseDirs = some reply) :
    Leaves reply.events rest input reply.readBuffer := by
  induction baseDirs with
  | nil => simp [fileReply] at hreply
  | cons entry baseDirs ih =>
      rw [fileReply] at hreply
      split at hreply
      · exact ih hreply
      · split at hreply
        · obtain rfl := Option.some.inj hreply
          exact .same (by simp [NoParse, statusReply])
        · obtain rfl := Option.some.inj hreply
          exact .same (by simp [NoParse, isParse])

theorem requestReply_leaves {env : Environment} {server : Server} {request : HttpRequest}
    {reply : Reply} (hreply : requestReply env server input request = some reply) :
    Leaves reply.events request.buffer input reply.readBuffer := by
  rw [requestReply] at hreply
  split at hreply
  · split at hreply
    · rename_i hfile
      obtain rfl := Option.some.inj hreply
      exact fileReply_leaves hfile
    · exact routeReply_leaves hreply
  · split at hreply
    · exact routeReply_leaves hreply
    · obtain rfl := Option.some.inj hreply
      exact .same (by simp [NoParse, statusReply])

end Reply

section Body

def RequestHead (head : Bytes) : Prop :=
  ∃ line lines, ¬CRLF <:+: line ∧ (∀ line ∈ lines, HeaderLine line) ∧
    head = line ++ (CRLF ++ headerBlock lines)

def IsMultipart (data : RequestData) : Prop :=
  ∃ contentType ∈ data.headers.find CONTENT_TYPE, ascii "multipart/form-data" <+: contentType

def contentLength (data : RequestData) : Bytes := (data.headers.find CONTENT_LENGTH).getD []

/-- How much of what follows the header block is taken as the body, in the three body modes. -/
inductive BodyTaken (data : RequestData) (rest readBuffer : Bytes) : Prop
  | multipart (hmultipart : IsMultipart data) (hbody : data.body = []) (hrest : readBuffer = rest)
  | everything (hplain : ¬IsMultipart data) (hlength : contentLength data = [])
      (hbody : data.body = rest) (hrest : readBuffer = [])
  | length (hplain : ¬IsMultipart data) (hlength : stoul (contentLength data) = .ok data.body.length)
      (hrest : rest = data.body ++ readBuffer)

theorem sameKey_iff {s t : Bytes} : sameKey s t = true ↔ s.map tolower = t.map tolower ∧ ci s t := by
  rw [sameKey, decide_eq_true_eq]

theorem find_set {headers : Headers} {key key' : Bytes} (value : Bytes)
    (hne : key.map tolower ≠ key'.map tolower) :
    (headers.set key' value).find key = headers.find key := by
  induction headers with
  | nil =>
      have hother : sameKey key key' = false := by
        rw [Bool.eq_false_iff, ne_eq, sameKey_iff]
        exact fun hsame => hne hsame.1
      simp [Headers.set, Headers.find, hother]
  | cons entry headers ih =>
      rw [Headers.set]
      split
      · rename_i hentry
        have hother : sameKey key entry.1 = false := by
          rw [Bool.eq_false_iff, ne_eq, sameKey_iff]
          exact fun hsame => hne (hsame.1.trans (sameKey_iff.mp hentry).1.symm)
        simp [Headers.find, hother]
      · simp only [Headers.find, List.find?_cons] at ih ⊢
        split
        · rfl
        · exact ih

theorem find_set_self {headers : Headers} {key : Bytes} (value : Bytes)
    (hkey : sameKey key key = true) : (headers.set key value).find key = some value := by
  induction headers with
  | nil => simp [Headers.set, Headers.find, hkey]
  | cons entry headers ih =>
      rw [Headers.set]
      split
      · rename_i hentry
        simp [Headers.find, hentry]
      · rename_i hentry
        simp only [Headers.find, List.find?_cons, hentry] at ih ⊢
        exact ih

theorem find_at_self (headers : Headers) (key : Bytes) (hkey : sameKey key key = true) :
    (headers.at key).2.find key = some (headers.at key).1 := by
  rw [Headers.at]
  split
  · assumption
  · exact find_set_self [] hkey

theorem find_at {headers : Headers} {key key' : Bytes}
    (hne : key.map tolower ≠ key'.map tolower) :
    (headers.at key').2.find key = headers.find key := by
  rw [Headers.at]
  split
  · rfl
  · exact find_set [] hne

theorem isMultipartFormData_iff (request : HttpRequest) :
    isMultipartFormData request = true ↔ IsMultipart request.toRequestData := by
  rw [isMultipartFormData, IsMultipart]
  cases request.headers.find CONTENT_TYPE with
  | none => simp
  | some contentType => simp

theorem contentLength_of_at {headers : Headers} {data : RequestData}
    (hheaders : data.headers = (headers.at CONTENT_LENGTH).2) :
    contentLength data = (headers.at CONTENT_LENGTH).1 := by
  rw [contentLength, hheaders, find_at_self headers CONTENT_LENGTH (by decide)]
  rfl

theorem isMultipartFormData_of_at {request : HttpRequest} {data : RequestData}
    (hheaders : data.headers = (request.headers.at CONTENT_LENGTH).2)
    (hmultipart : IsMultipart data) : isMultipartFormData request = true := by
  obtain ⟨contentType, hfind, hstart⟩ := hmultipart
  have hother : (request.headers.at CONTENT_LENGTH).2.find CONTENT_TYPE =
      request.headers.find CONTENT_TYPE := find_at (by decide)
  rw [hheaders, hother] at hfind
  exact (isMultipartFormData_iff request).mpr ⟨contentType, hfind, hstart⟩

theorem parseBody_taken (request : HttpRequest) {request' : HttpRequest} (hbody : request.body = [])
    (hparsed : parseBody request = .ok (true, request')) :
    BodyTaken request'.toRequestData request.buffer request'.buffer := by
  rw [parseBody] at hparsed
  split at hparsed
  · rename_i hmultipart
    obtain ⟨contentType, hfind, hstart⟩ := (isMultipartFormData_iff request).mp hmultipart
    simp only at hparsed
    split at hparsed
    · simp at hparsed
    · simp only [Except.ok.injEq, Prod.mk.injEq, true_and] at hparsed
      obtain rfl := hparsed
      refine .multipart ⟨contentType, ?_, hstart⟩ hbody rfl
      rw [Option.mem_def] at hfind ⊢
      have hsame := find_at_self request.headers CONTENT_TYPE (by decide)
      have hvalue : (request.headers.at CONTENT_TYPE).1 = contentType := by
        simp [Headers.at, hfind]
      rw [← hvalue]
      exact hsame
  · rename_i hplain
    have hplain' : ∀ data : RequestData,
        data.headers = (request.headers.at CONTENT_LENGTH).2 → ¬IsMultipart data :=
      fun data hheaders hmultipart => hplain (isMultipartFormData_of_at hheaders hmultipart)
    simp only at hparsed
    split at hparsed
    · rename_i hempty
      simp only [Except.ok.injEq, Prod.mk.injEq, true_and] at hparsed
      obtain rfl := hparsed
      exact .everything (hplain' _ rfl) ((contentLength_of_at rfl).trans hempty) rfl rfl
    · cases hstoul : stoul (request.headers.at CONTENT_LENGTH).1 with
      | error e => simp [hstoul, bind, Except.bind] at hparsed
      | ok len =>
          simp only [hstoul, bind, Except.bind] at hparsed
          split at hparsed
          · simp [pure, Except.pure] at hparsed
          · rename_i hle
            simp only [pure, Except.pure, read_eq, Except.ok.injEq, Prod.mk.injEq, true_and]
              at hparsed
            obtain rfl := hparsed
            have hlen : (request.buffer.take len).length = len := by
              rw [List.length_take]
              exact Nat.min_eq_left (Nat.not_lt.mp hle)
            refine .length (hplain' _ rfl) ?_ (List.take_append_drop len request.buffer).symm
            rw [contentLength_of_at rfl, hstoul, hlen]

theorem parseRequestStartingLine_head {buffer : Bytes} {request : HttpRequest}
    (hparsed : parseRequestStartingLine (HttpRequest.init buffer) = (true, request)) :
    request.body = [] ∧ ∃ line, ¬CRLF <:+: line ∧ buffer = line ++ (CRLF ++ request.buffer) := by
  rw [parseRequestStartingLine] at hparsed
  split at hparsed
  · simp at hparsed
  · rename_i crlf hfind
    obtain ⟨hline, -, hsplit⟩ := eq_line_of_find_CRLF hfind
    simp only [readUntil_eq, retrieve_eq, Prod.mk.injEq] at hparsed
    obtain ⟨-, rfl⟩ := hparsed
    refine ⟨rfl, _, hline, ?_⟩
    rw [List.drop_drop]
    exact hsplit

theorem exists_head_of_parseRequest {buffer : Bytes} {request : HttpRequest}
    (hparsed : parseRequest buffer = .ok (true, request)) :
    ∃ head rest, buffer = head ++ rest ∧ RequestHead head ∧
      BodyTaken request.toRequestData rest request.buffer := by
  rw [parseRequest] at hparsed
  split at hparsed
  · simp at hparsed
  · rename_i first hfirst
    obtain ⟨hbody, line, hline, hbuffer⟩ := parseRequestStartingLine_head hfirst
    split at hparsed
    · simp at hparsed
    · rename_i second hsecond
      obtain ⟨headers, rest, hread, rfl⟩ := parseHeadersLoop_eq_true_iff.mp hsecond
      obtain ⟨lines, hlines, -, hblock⟩ := exists_lines_of_readLines hread
      refine ⟨line ++ (CRLF ++ headerBlock lines), rest, ?_, ⟨line, lines, hline, hlines, rfl⟩, ?_⟩
      · rw [hbuffer, hblock]
        simp
      · exact parseBody_taken { first with headers, buffer := rest } hbody hparsed

end Body

section Callback

/-- After a request the connection stays open for, its request line and header block have gone from
the receive buffer, then the bytes of its body mode, and then only what the calls of
`parseMultiPartFormData` have taken. -/
theorem bodyTaken_of_open {env : Environment} {server : Server} {input : List ReadResult}
    {s s' : HttpConnection} (hreturn : recvMsgCallback env server input s = .returned s')
    (hopen : s'.conn.status = .Connected) :
    ∃ head rest data readBuffer events code,
      s.conn.readBuffer = head ++ rest ∧ RequestHead head ∧ BodyTaken data rest readBuffer ∧
      s'.events = s.events ++ .request data :: (events ++ [.response code]) ∧
      Leaves events readBuffer input s'.conn.readBuffer := by
  rcases hparsed : parseRequest s.conn.readBuffer with e | ⟨_ | _, request⟩
  · simp [recvMsgCallback, hparsed] at hreturn
  · simp only [recvMsgCallback, hparsed, CallbackResult.returned.injEq] at hreturn
    rw [← hreturn] at hopen
    exact absurd hopen (closeAndErase_not_connected _)
  · obtain ⟨head, rest, hbuffer, hhead, hbody⟩ := exists_head_of_parseRequest hparsed
    obtain ⟨reply, hreply, hevents, hleft⟩ := events_of_returned hparsed hreturn
    obtain ⟨headers, entry, hopened⟩ := opened_cases server request s
    have hleaves := requestReply_leaves hreply
    rw [← hleft] at hleaves
    rw [hopened] at hleaves
    exact ⟨head, rest, request.toRequestData, request.buffer, reply.events, _, hbuffer, hhead,
      hbody, hevents, hleaves⟩

def fiveBytes : Bytes :=
  ascii "GET /hello HTTP/1.1\r\nContent-Length: 5\r\n\r\nhelloGET /"

theorem bodyTaken_of_open_fiveBytes :
    ∃ s', recvMsgCallback plainEnvironment helloServer [] (setReadBuffer accepted fiveBytes) =
        .returned s' ∧ s'.conn.readBuffer = ascii "GET /" ∧
      ∃ head rest data readBuffer events code,
        fiveBytes = head ++ rest ∧ RequestHead head ∧ BodyTaken data rest readBuffer ∧
        s'.events = [] ++ .request data :: (events ++ [.response code]) ∧
        Leaves events readBuffer [] s'.conn.readBuffer := by
  have hopen : ∃ s', recvMsgCallback plainEnvironment helloServer [] (setReadBuffer accepted
      fiveBytes) = .returned s' ∧ s'.conn.readBuffer = ascii "GET /" ∧
        s'.conn.status = .Connected := ⟨_, rfl, by decide, by decide⟩
  obtain ⟨s', hreturn, hrest, hconnected⟩ := hopen
  exact ⟨s', hreturn, hrest, bodyTaken_of_open hreturn hconnected⟩

def openBuffer : CallbackResult → Option Bytes
  | .returned s => if s.conn.status = .Connected then some s.conn.readBuffer else none
  | .spinning => none
  | .threw _ => none

/-- When the connection is still open, `rest` is what the receive buffer holds. -/
def LeavesRest (env : Environment) (server : Server) (input : List ReadResult)
    (buffer rest : Bytes) : Prop :=
  ∀ readBuffer ∈ openBuffer (recvMsgCallback env server input (setReadBuffer accepted buffer)),
    readBuffer = rest

def uploadServer (handler : HttpHandler) : Server where
  keepAliveTimeout := 60
  maxKeepAliveRequests := 1000
  getRoutes := []
  postRoutes := [(ascii "/upload", handler)]
  baseDirs := []
  fileAuthCallback := none

def quietHandler : HttpHandler := fun _ => .done HttpResponse.init

def parsingHandler : HttpHandler := fun _ =>
  .parseMultiPartFormData [] fun _ _ => .done HttpResponse.init

def uploadHead : Bytes :=
  ascii "POST /upload HTTP/1.1\r\nContent-Type: multipart/form-data; boundary=x\r\n\r\n"

def uploadBody : Bytes :=
  ascii "--x\r\nContent-Disposition: form-data; name=\"a\"\r\n\r\n1\r\n--x--"

/-- A request without a body takes what follows it, a handler that does not parse leaves the body
behind, a parse that succeeds takes what follows the body, and a parse without a boundary takes what
follows a request of its own length. -/
theorem not_leavesRest_bareRequest :
    ¬LeavesRest plainEnvironment helloServer [] (bareRequest.encode ++ bareRequest.encode)
        bareRequest.encode ∧
      ¬LeavesRest plainEnvironment (uploadServer quietHandler) [] (uploadHead ++ uploadBody) [] ∧
      ¬LeavesRest { plainEnvironment with fuel := 9 } (uploadServer parsingHandler) []
        (uploadHead ++ uploadBody ++ bareRequest.encode) bareRequest.encode ∧
      ¬LeavesRest { plainEnvironment with fuel := 9 } (uploadServer parsingHandler)
        [.error .EPIPE]
        (ascii "POST /upload HTTP/1.1\r\nContent-Length: 0\r\n\r\n" ++ CRLF) CRLF := by
  unfold LeavesRest
  decide +kernel

end Callback

end Cooper.HttpBoundary

import Cooper.Http

/-!
`HttpServer`: what `recvMsgCallback` does with a connection whose receive buffer has grown. A user's
handler is a program over the one operation it has on the connection, `parseMultiPartFormData`.
-/

namespace Cooper.HttpServer

open Cooper.Http
open Cooper.MsgBuffer
open Cooper.Multipart
open Cooper.TcpConnectionImpl
open Cooper.Utilities
open Cooper.WhileLoop

structure HttpStatus where
  code : Int
  description : Bytes
  deriving DecidableEq

def CODE_200 : HttpStatus := ⟨200, ascii "OK"⟩

def CODE_400 : HttpStatus := ⟨400, ascii "Bad Request"⟩

def CODE_403 : HttpStatus := ⟨403, ascii "Forbidden"⟩

def CODE_404 : HttpStatus := ⟨404, ascii "Not Found"⟩

def CODE_405 : HttpStatus := ⟨405, ascii "Method Not Allowed"⟩

def SERVER : Bytes := ascii "Server"

def SERVER_VALUE : Bytes := ascii "cooper/1.0"

/-- The members of `HttpResponse` that a handler can set. `contentWriter_` is passed beside it. -/
structure HttpResponse where
  version : Bytes
  statusCode : HttpStatus
  headers : Headers
  body : Bytes
  deriving DecidableEq

def HttpResponse.init : HttpResponse where
  version := ascii "HTTP/1.1"
  statusCode := CODE_200
  headers := []
  body := []

structure HttpContentWriter where
  file : Bytes
  contentType : Bytes
  deriving DecidableEq

/-- What a handler does with the request's data: it calls `parseMultiPartFormData` with callbacks
registered under some names, going on from the result and the calls of the callbacks, and leaves a
response. -/
inductive HandlerProg
  | done (response : HttpResponse)
  | parseMultiPartFormData (registered : List Bytes) (next : Bool → List PartCall → HandlerProg)

abbrev HttpHandler := RequestData → HandlerProg

structure MountPointEntry where
  mountPoint : Bytes
  baseDir : Bytes
  headers : Headers
  deriving DecidableEq

structure Server where
  keepAliveTimeout : Nat
  maxKeepAliveRequests : Int
  getRoutes : List (Bytes × HttpHandler)
  postRoutes : List (Bytes × HttpHandler)
  baseDirs : List MountPointEntry
  fileAuthCallback : Option (Bytes → Bool)

/-- What the server finds outside: the kernel, the file system, the iteration order of an
`unordered_map`, and the number of further iterations after which a multipart parser is given up as
not returning. -/
structure Environment where
  kernel : Kernel
  isFile : Bytes → Bool
  getFileSize : Bytes → Nat
  openFile : Bytes → Option Bytes
  iterationOrder : Headers → List (Bytes × Bytes)
  fuel : Nat

inductive HttpEvent
  /-- A request has been parsed. -/
  | request (data : RequestData)
  | handler (data : RequestData)
  | parseMultiPartFormData (result : Bool) (calls : List PartCall)
  | serveFile (path : Bytes)
  | response (statusCode : Int)
  deriving DecidableEq

/-- A connection of the server with its entry in `keepAliveRequests`. -/
structure HttpConnection where
  conn : Connection
  keepAliveRequest : Option (Int × Int)
  events : List HttpEvent

def record (s : HttpConnection) (event : HttpEvent) : HttpConnection :=
  { s with events := s.events ++ [event] }

def setReadBuffer (s : HttpConnection) (readBuffer : Bytes) : HttpConnection :=
  { s with conn := { s.conn with readBuffer } }

/-- `keepAliveRequests[conn]`, which comes into being as `(0, 0)`. -/
def keepAliveEntry (s : HttpConnection) : Int × Int := s.keepAliveRequest.getD (0, 0)

/-- `conn->forceClose(); keepAliveRequests.erase(conn);` -/
def closeAndErase (s : HttpConnection) : HttpConnection :=
  { s with conn := forceClose s.conn, keepAliveRequest := none }

def to_string (n : Int) : Bytes := ascii (toString n)

/-- `sendFile(file, offset, length)` with a length that is not zero. A file that cannot be opened is
not sent; the assertions behind the call hold. -/
def sendFileName (env : Environment) (c : Connection) (file : Bytes) (offset length : Nat) :
    Connection :=
  match env.openFile file with
  | none => c
  | some content => (sendFile env.kernel true c content offset length).getD c

def HttpContentWriter.write (env : Environment) (writer : HttpContentWriter) (size : Nat)
    (c : Connection) : Connection :=
  if writer.file = [] ∨ size = 0 then c else sendFileName env c writer.file 0 size

/-- The headers of a response once `sendResponse` has added its own. `max` is the second component
of the connection's entry. -/
def responseHeaders (env : Environment) (server : Server) (response : HttpResponse)
    (contentWriter : Option HttpContentWriter) (max : Int) : Headers :=
  let headers := response.headers.set SERVER SERVER_VALUE
  let headers :=
    if max = 0 then
      headers.set CONNECTION
        (ascii "timeout=" ++ to_string server.keepAliveTimeout ++ ascii ", max=" ++ to_string max)
    else headers
  let headers :=
    if response.body ≠ [] then headers.set CONTENT_LENGTH (to_string response.body.length)
    else headers
  match contentWriter with
  | none => headers
  | some writer =>
      let size := env.getFileSize writer.file
      let headers := headers.set CONTENT_TYPE writer.contentType
      if size > 0 then headers.set CONTENT_LENGTH (to_string size) else headers

def responseText (env : Environment) (server : Server) (response : HttpResponse)
    (contentWriter : Option HttpContentWriter) (max : Int) : Bytes :=
  let headers := env.iterationOrder (responseHeaders env server response contentWriter max)
  response.version ++ ascii " " ++ to_string response.statusCode.code ++ ascii " " ++
    response.statusCode.description ++ CRLF ++
    headers.flatMap (fun header => header.1 ++ ascii ": " ++ header.2 ++ CRLF) ++ CRLF ++
    if contentWriter = none then response.body else []

def sendResponse (env : Environment) (server : Server) (response : HttpResponse)
    (contentWriter : Option HttpContentWriter) (s : HttpConnection) : HttpConnection :=
  let entry := keepAliveEntry s
  let res := responseText env server response contentWriter entry.2
  let conn := send env.kernel true s.conn res
  let conn := match contentWriter with
    | none => conn
    | some writer => writer.write env (env.getFileSize writer.file) conn
  record { s with conn, keepAliveRequest := some entry } (.response response.statusCode.code)

/-- The file below a mount point that a request path names, when there is one. -/
def mountedFile (env : Environment) (entry : MountPointEntry) (path : Bytes) : Option Bytes :=
  if entry.mountPoint <+: path then
    let subPath := ascii "/" ++ path.drop entry.mountPoint.length
    if isValidPath subPath then
      let path := entry.baseDir ++ subPath
      let path := if path.getLast? = some 47 then path ++ ascii "index.html" else path
      if env.isFile path then some path else none
    else none
  else none

/-- The loop of `handleFileRequest` over the mount points; `none` when it returns false. -/
def handleMountPoints (env : Environment) (server : Server) (path : Bytes)
    (s : HttpConnection) : List MountPointEntry → Option (HttpResponse × HttpConnection)
  | [] => none
  | entry :: baseDirs =>
      match mountedFile env entry path with
      | none => handleMountPoints env server path s baseDirs
      | some file =>
          if server.fileAuthCallback.any (fun auth => !auth file) then
            let response := { HttpResponse.init with statusCode := CODE_403 }
            some (response, sendResponse env server response none s)
          else
            let headers := (env.iterationOrder entry.headers).foldl
              (fun headers kv => Headers.set headers kv.1 kv.2) HttpResponse.init.headers
            let response := { HttpResponse.init with headers }
            some (response, sendResponse env server response
              (some { file, contentType := findContentType file }) (record s (.serveFile file)))

def handleFileRequest (env : Environment) (server : Server) (request : HttpRequest)
    (s : HttpConnection) : Option (HttpResponse × HttpConnection) :=
  if request.method ≠ ascii "GET" then none
  else handleMountPoints env server request.path s server.baseDirs

/-- Run a handler. The parser reads the socket when it lacks data; `input` is what the socket
answers. The result is `none` when a call of the parser does not return. -/
def runHandler (fuel : Nat) :
    HandlerProg → MultipartFormDataParser → List ReadResult → HttpConnection →
      Option (HttpResponse × HttpConnection)
  | .done response, _, _, s => some (response, s)
  | .parseMultiPartFormData registered next, parser, input, s =>
      match iterate (parseStep registered) (fuel + 1)
        (parseEntry parser s.conn.readBuffer input) with
      | none => none
      | some (result, l) =>
          runHandler fuel (next result l.calls) l.parser l.input
            (record (setReadBuffer s l.buffer) (.parseMultiPartFormData result l.calls))

def findRoute (routes : List (Bytes × HttpHandler)) (path : Bytes) : Option HttpHandler :=
  (routes.find? fun route => route.1 = path).map Prod.snd

def handleRoute (env : Environment) (server : Server) (input : List ReadResult)
    (routes : List (Bytes × HttpHandler)) (request : HttpRequest) (s : HttpConnection) :
    Option (HttpResponse × HttpConnection) :=
  match findRoute routes request.path with
  | none =>
      let response := { HttpResponse.init with statusCode := CODE_404 }
      some (response, sendResponse env server response none s)
  | some handler =>
      (runHandler env.fuel (handler request.toRequestData) request.multipartFormDataParser input
        (record s (.handler request.toRequestData))).map fun (response, s) =>
          (response, sendResponse env server response none s)

def handleRequest (env : Environment) (server : Server) (input : List ReadResult)
    (request : HttpRequest) (s : HttpConnection) : Option (HttpResponse × HttpConnection) :=
  if request.method = ascii "GET" then handleRoute env server input server.getRoutes request s
  else if request.method = ascii "POST" then
    handleRoute env server input server.postRoutes request s
  else
    let response := { HttpResponse.init with statusCode := CODE_405 }
    some (response, sendResponse env server response none s)

/-- Give a connection without an entry one. The version is one of the two here, so that
`operator[]` puts a missing `Connection` header into the table. -/
def openKeepAlive (server : Server) (request : HttpRequest) (s : HttpConnection) :
    HttpRequest × HttpConnection :=
  match s.keepAliveRequest with
  | some _ => (request, s)
  | none =>
      let (connection, headers) := request.headers.at CONNECTION
      let keepAlive :=
        (request.version = ascii "HTTP/1.0" ∧ connection = CONNECTION_KEEP_ALIVE) ∨
          (request.version = ascii "HTTP/1.1" ∧ connection ≠ CONNECTION_CLOSE)
      let second := if keepAlive then server.maxKeepAliveRequests else 0
      ({ request with headers }, { s with keepAliveRequest := some (0, second) })

/-- The end of `recvMsgCallback`. -/
def countRequest (response : HttpResponse) (s : HttpConnection) : HttpConnection :=
  let s := if response.statusCode.code ≠ CODE_200.code then closeAndErase s else s
  let (first, second) := keepAliveEntry s
  let s := { s with keepAliveRequest := some (first + 1, second) }
  if first + 1 ≥ second then closeAndErase s else s

/-- The callback returns, never returns, or leaves by an exception that ends the event loop. -/
inductive CallbackResult
  | returned (s : HttpConnection)
  | spinning
  | threw (e : StoulError)

def recvMsgCallback (env : Environment) (server : Server) (input : List ReadResult)
    (s : HttpConnection) : CallbackResult :=
  match parseRequest s.conn.readBuffer with
  | .error e => .threw e
  | .ok (false, request) =>
      let response := { HttpResponse.init with statusCode := CODE_400 }
      .returned (closeAndErase
        (sendResponse env server response none (setReadBuffer s request.buffer)))
  | .ok (true, request) =>
      let s := record (setReadBuffer s request.buffer) (.request request.toRequestData)
      let (request, s) := openKeepAlive server request s
      match handleFileRequest env server request s with
      | some (response, s) => .returned (countRequest response s)
      | none =>
          match handleRequest env server input request s with
          | none => .spinning
          | some (response, s) => .returned (countRequest response s)

end Cooper.HttpServer

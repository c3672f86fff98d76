import Cooper.OpenSSLProvider
import Cooper.StepRun

/-!
The loop thread on one connection of a `TcpServer`, plain or with a TLS provider. A step runs the
code up to the next callback of the user and leaves what is behind it on a stack. In a callback the
user may call the connection again, and other threads may call it between any two steps.
-/

namespace Cooper.ConnectionThread

open Cooper.MsgBuffer
open Cooper.OpenSSLProvider (OpenSSL Provider)
open Cooper.TcpConnectionImpl

/-- The bits of `revents_` that `handleEventSafely` looks at. -/
structure Revents where
  POLLHUP : Bool
  POLLIN : Bool
  POLLNVAL : Bool
  POLLERR : Bool
  POLLPRI : Bool
  POLLRDHUP : Bool
  POLLOUT : Bool
  deriving DecidableEq

/-- What threads ask of a connection. The idle kick-off is a `forceClose`. -/
inductive Request
  | call (call : SendCall)
  | shutdown
  | forceClose
  deriving DecidableEq

inductive Functor
  | request (request : Request)
  | connectDestroyed
  deriving DecidableEq

/-- A function that the loop thread is about to run, or the rest of one that it has begun: of
`handleClose` and `connectDestroyed` behind `connectionCallback_` (`closeCallback`, `remove`), of
`sendInLoop`, the stream loop and the file loop behind a write that failed (`sendFailed`,
`streamFailed`, `fileFailed`), of the stream loop behind `streamCallback_` (`fetched`), of
`writeCallback` behind `writeCompleteCallback_` (`completed`) and of `processHandshake` behind
`handshakeCallback_`. `unlock` is the end of a lock on `sendNumMutex_`; `decrement` and `startFile`
are the parts of a functor. -/
inductive Frame
  | user
  | closeEvent
  | readCallback (result : ReadResult)
  | writeCallback
  | closeCallback
  | remove
  | sendInLoop (msg : Bytes)
  | sendFailed (e : Errno) (msg : Bytes)
  | checkBufferedData
  | unlock
  | decrement
  | startFile
  | sendFileInLoop
  | fetched
  | streamFailed (e : Errno)
  | fileLoop
  | fileFailed (e : Errno)
  | completed
  | checkCloseOnEmpty
  | recvData
  | processHandshake (inRecvData : Bool)
  | handshakeFinished (inRecvData : Bool)
  | processApplicationData
  deriving DecidableEq

/-- `conn` has the fields that every connection has; its socket is used without a provider only. The
loop thread may hold `sendNumMutex_` (`locked`) and be that of the server's `loop_`. `funcs` are the
functors of this connection in its loop, and `closing` counts those of `handleCloseInLoop` in the
server's. `erased` are the answers of `connSet_.erase`, and `destroyed` counts the executions of
`connectDestroyed`. -/
structure LoopThread (σ : Type*) where
  conn : Connection
  tlsProvider : Option (Provider σ)
  locked : Bool
  stack : List Frame
  funcs : List Functor
  inServerLoop : Bool
  inConnSet : Bool
  closing : Nat
  erased : List Nat
  destroyed : Nat
  removed : Bool

variable {σ : Type*} (kernel : Kernel) (S : OpenSSL σ)

def push (frames : List Frame) (s : LoopThread σ) : LoopThread σ :=
  { s with stack := frames ++ s.stack }

def enableWriting (s : LoopThread σ) : LoopThread σ :=
  { s with conn := TcpConnectionImpl.enableWriting s.conn }

def closeWrite (s : LoopThread σ) : LoopThread σ :=
  match s.tlsProvider with
  | none => { s with conn := TcpConnectionImpl.closeWrite s.conn }
  | some p => { s with tlsProvider := some { p with socket.writeClosed := true } }

section Closing

def handleClose (s : LoopThread σ) : LoopThread σ :=
  push [.user, .closeCallback] { s with
    conn := log (disableAll { s.conn with status := .Disconnected })
      (.connectionCallback .Disconnected) }

def forceClose (s : LoopThread σ) : LoopThread σ :=
  if s.conn.status = .Connected ∨ s.conn.status = .Disconnecting then
    handleClose { s with conn.status := .Disconnecting }
  else s

/-- `sslErrorCallback_` comes behind the callbacks of `forceClose`. -/
def onSslError (s : LoopThread σ) : LoopThread σ := forceClose (push [.user] s)

def reports (p p' : Provider σ) : Bool := p'.processedSslError && !p.processedSslError

/-- A function of the provider has made `p'` of `p`, and `handleSSLError` came last. -/
def handleSSLError (p p' : Provider σ) (s : LoopThread σ) : LoopThread σ :=
  let s := { s with tlsProvider := some p' }
  if reports p p' then onSslError s else s

def shutdown (s : LoopThread σ) : LoopThread σ :=
  if s.conn.status = .Connected then
    if (s.tlsProvider.any fun p => readableBytes p.writeBuffer ≠ 0) ∨
        s.conn.writeBufferList.length ≠ 0 then
      { s with conn.closeOnEmpty := true }
    else
      let s := { s with
        tlsProvider := s.tlsProvider.map (OpenSSLProvider.close kernel S)
        conn.status := .Disconnecting }
      if s.conn.writing = false then closeWrite s else s
  else s

def handleCloseInLoop (s : LoopThread σ) : LoopThread σ :=
  { s with
    erased := s.erased ++ [s.inConnSet.toNat]
    inConnSet := false
    funcs := s.funcs ++ [.connectDestroyed] }

/-- `closeCallback_`, which is `TcpServer::connectionClosed`. -/
def closeCallback (s : LoopThread σ) : LoopThread σ :=
  let s := { s with conn := log s.conn .closeCallback }
  if s.inServerLoop then handleCloseInLoop s else { s with closing := s.closing + 1 }

def connectDestroyed (s : LoopThread σ) : LoopThread σ :=
  let s := { s with destroyed := s.destroyed + 1 }
  if s.conn.status = .Connected then
    push [.user, .remove] { s with
      conn := log (disableAll { s.conn with status := .Disconnected })
        (.connectionCallback .Disconnected) }
  else { s with removed := true }

end Closing

section Output

/-- The second component tells whether the provider has invoked `errorCallback_`, which is left to
the caller. -/
def writeInLoop (s : LoopThread σ) (buffer : Bytes) : Except Errno Nat × Bool × LoopThread σ :=
  match s.tlsProvider with
  | none =>
      let (answer, conn) := TcpConnectionImpl.writeInLoop kernel s.conn buffer
      (answer, false, { s with conn })
  | some p =>
      match OpenSSLProvider.sendData kernel S p buffer with
      | (.done n, p') => (.ok n, false, { s with tlsProvider := some p' })
      | (.error e, p') => (.error e, reports p p', { s with tlsProvider := some p' })

def exceedsMark (highWaterMarkLen : Option Nat) (len : Nat) : Bool :=
  highWaterMarkLen.any fun mark => len > mark

def checkBufferedData (s : LoopThread σ) : LoopThread σ :=
  match s.tlsProvider with
  | none => s
  | some p =>
      let buffered := readableBytes p.writeBuffer
      if exceedsMark s.conn.highWaterMarkLen buffered then
        push [.user] { s with conn := log s.conn (.highWaterMarkCallback buffered) }
      else s

def queueInList (s : LoopThread σ) (remaining : Bytes) : LoopThread σ :=
  if remaining.length > 0 ∧ s.conn.status = .Connected then
    let s := { s with conn := TcpConnectionImpl.queueInList s.conn remaining }
    let s := if s.tlsProvider.isSome then push [.checkBufferedData] s else s
    if exceedsMark s.conn.highWaterMarkLen (backReadableBytes s.conn.writeBufferList) then
      push [.user] s
    else s
  else s

def sendFailed (e : Errno) (msg : Bytes) (s : LoopThread σ) : LoopThread σ :=
  if e ≠ .EAGAIN then s else queueInList s msg

def sendInLoop (s : LoopThread σ) (msg : Bytes) : LoopThread σ :=
  if s.conn.status ≠ .Connected then s
  else if s.conn.writing = false ∧ s.conn.writeBufferList = [] then
    match writeInLoop kernel S s msg with
    | (.ok sendLen, _, s) => queueInList s (msg.drop sendLen)
    | (.error e, reported, s) =>
        if reported then onSslError (push [.sendFailed e msg] s) else sendFailed e msg s
  else queueInList s msg

def endStream : List BufferNode → List BufferNode
  | .stream _ chunks :: rest => .stream 0 chunks :: rest
  | list => list

def streamFailed (e : Errno) (s : LoopThread σ) : LoopThread σ :=
  if e ≠ .EAGAIN then { s with conn.writeBufferList := endStream s.conn.writeBufferList }
  else enableWriting s

def fetch (fileBytesToSend : Nat) (s : LoopThread σ) : LoopThread σ :=
  if fileBytesToSend = 0 then enableWriting s else push [.user, .fetched] s

def writeFileBuffer (fileBytesToSend : Nat) (s : LoopThread σ) : LoopThread σ :=
  match writeInLoop kernel S s s.conn.fileBuffer with
  | (.ok nWritten, _, s) =>
      if nWritten < s.conn.fileBuffer.length then
        enableWriting { s with conn.fileBuffer := s.conn.fileBuffer.drop nWritten }
      else fetch fileBytesToSend { s with conn.fileBuffer := [] }
  | (.error e, reported, s) =>
      if reported then onSslError (push [.streamFailed e] s) else streamFailed e s

/-- `streamCallback_` has put the first of its chunks into `fileBufferPtr_`. -/
def fetched (s : LoopThread σ) : LoopThread σ :=
  match s.conn.writeBufferList with
  | .stream _ [] :: rest => enableWriting { s with conn.writeBufferList := .stream 0 [] :: rest }
  | .stream fileBytesToSend (chunk :: chunks) :: rest =>
      if chunk = [] then
        enableWriting { s with conn.writeBufferList := .stream 0 chunks :: rest }
      else
        writeFileBuffer kernel S fileBytesToSend { s with
          conn.fileBuffer := chunk
          conn.writeBufferList := .stream fileBytesToSend chunks :: rest }
  | _ => s

def fileFailed (e : Errno) (s : LoopThread σ) : LoopThread σ :=
  if e ≠ .EAGAIN then s else enableWriting s

def fileLoop (s : LoopThread σ) : LoopThread σ :=
  match s.conn.writeBufferList with
  | .file content offset fileBytesToSend :: rest =>
      if fileBytesToSend = 0 then enableWriting s
      else
        let chunk := (content.drop offset).take (min s.conn.fileBuffer.length fileBytesToSend)
        if chunk = [] then s
        else
          let s := { s with conn.fileBuffer := chunk ++ s.conn.fileBuffer.drop chunk.length }
          match writeInLoop kernel S s chunk with
          | (.ok nSend, _, s) =>
              let node := .file content (offset + nSend) (fileBytesToSend - nSend)
              let s := { s with conn.writeBufferList := node :: rest }
              if nSend < chunk.length then enableWriting s else push [.fileLoop] s
          | (.error e, reported, s) =>
              if reported then onSslError (push [.fileFailed e] s) else fileFailed e s
  | _ => s

def sendFileInLoop (s : LoopThread σ) : Option (LoopThread σ) :=
  match s.conn.writeBufferList with
  | .file content offset fileBytesToSend :: rest =>
      if s.tlsProvider.isSome then
        some (push [.fileLoop] { s with conn.fileBuffer := Tls.growFileBuffer s.conn.fileBuffer })
      else
        let (conn, node) := sendfileInLoop kernel s.conn content offset fileBytesToSend
        some { s with conn := { conn with writeBufferList := node :: rest } }
  | .stream fileBytesToSend _ :: _ =>
      if s.conn.fileBuffer = [] then some (fetch fileBytesToSend s)
      else some (writeFileBuffer kernel S fileBytesToSend s)
  | _ => none

end Output

section Calls

def fileNode : SendCall → Option BufferNode
  | .send _ => none
  | .sendFile content offset length => some (.file content offset length)
  | .sendStream chunks => some (.stream 1 chunks)

def pushNode (node : BufferNode) (s : LoopThread σ) : LoopThread σ :=
  { s with conn.writeBufferList := s.conn.writeBufferList ++ [node] }

/-- A call with `sendNum_` at 0, from its lock of the mutex on. -/
def callInLoop (s : LoopThread σ) : SendCall → LoopThread σ
  | .send msg => push [.sendInLoop msg, .unlock] { s with locked := true }
  | call =>
      let s := (fileNode call).elim s (pushNode · s)
      if s.conn.writeBufferList.length = 1 then
        push [.sendFileInLoop, .unlock] { s with locked := true }
      else s

def queueCall (s : LoopThread σ) (call : SendCall) : LoopThread σ :=
  { s with
    conn.sendNum := s.conn.sendNum + 1
    funcs := s.funcs ++ [.request (.call call)] }

/-- A request made on the loop thread. The result is `none` when it waits for a mutex that it holds
itself. -/
def requestInLoop (s : LoopThread σ) : Request → Option (LoopThread σ)
  | .call call =>
      if s.locked then none
      else
        let s := { s with conn := log s.conn (.call call) }
        some (if s.conn.sendNum = 0 then callInLoop s call else queueCall s call)
  | .shutdown => some (shutdown kernel S s)
  | .forceClose => some (forceClose s)

/-- A request of another thread. While the loop thread holds the mutex, a call is not made. -/
def requestElsewhere (s : LoopThread σ) : Request → LoopThread σ
  | .call call =>
      if s.locked then s else queueCall { s with conn := log s.conn (.call call) } call
  | request => { s with funcs := s.funcs ++ [.request request] }

def runFunctor (s : LoopThread σ) : Functor → LoopThread σ
  | .request (.call (.send msg)) => push [.sendInLoop msg, .decrement] s
  | .request (.call call) =>
      push [.decrement, .startFile] ((fileNode call).elim s (pushNode · s))
  | .request .shutdown => shutdown kernel S s
  | .request .forceClose => forceClose s
  | .connectDestroyed => connectDestroyed s

end Calls

section Events

def writeMsg (s : LoopThread σ) (msgBuffer : Bytes) (rest : List BufferNode) : LoopThread σ :=
  match writeInLoop kernel S s msgBuffer with
  | (.ok n, _, s) =>
      push [.checkCloseOnEmpty] { s with
        conn.writeBufferList := .msg (retrieve msgBuffer n) :: rest }
  | (.error e, reported, s) =>
      let s := if e ≠ .EAGAIN then s else push [.checkCloseOnEmpty] s
      if reported then onSslError s else s

def writeNext (afterFile : Bool) (s : LoopThread σ) (rest : List BufferNode) :
    Option (LoopThread σ) :=
  let s := { s with conn.writeBufferList := rest }
  match rest with
  | [] =>
      some (push [.user, .completed, .checkCloseOnEmpty] { s with
        conn := log (disableWriting s.conn) .writeCompleteCallback })
  | .msg msgBuffer :: rest' =>
      if afterFile then some (writeMsg kernel S s msgBuffer rest') else none
  | _ :: _ => some (push [.sendFileInLoop, .checkCloseOnEmpty] s)

def writeList (s : LoopThread σ) : Option (LoopThread σ) :=
  match s.conn.writeBufferList with
  | [] => none
  | .msg msgBuffer :: rest =>
      if readableBytes msgBuffer = 0 then writeNext kernel S false s rest
      else some (writeMsg kernel S s msgBuffer rest)
  | .file _ _ fileBytesToSend :: rest | .stream fileBytesToSend _ :: rest =>
      if fileBytesToSend = 0 then writeNext kernel S true s rest
      else some (push [.sendFileInLoop, .checkCloseOnEmpty] s)

def writeCallback (s : LoopThread σ) : Option (LoopThread σ) :=
  if s.conn.writing then
    match s.tlsProvider with
    | none => writeList kernel S s
    | some p =>
        match OpenSSLProvider.sendBufferedData kernel p with
        | (false, p') => some (enableWriting { s with tlsProvider := some p' })
        | (true, p') => writeList kernel S { s with tlsProvider := some p' }
  else some s

def completed (s : LoopThread σ) : LoopThread σ :=
  if s.conn.status = .Disconnecting then closeWrite s else s

def checkCloseOnEmpty (s : LoopThread σ) : LoopThread σ :=
  if s.conn.closeOnEmpty ∧ (s.conn.writeBufferList = [] ∨
      s.tlsProvider.all fun p => readableBytes p.writeBuffer = 0) then
    shutdown kernel S s
  else s

def readCallback (s : LoopThread σ) : ReadResult → LoopThread σ
  | .ok [] => handleClose s
  | .ok chunk =>
      push [if s.tlsProvider.isSome then .recvData else .user] { s with
        conn.readBuffer := append s.conn.readBuffer chunk
        conn.bytesReceived := s.conn.bytesReceived + chunk.length }
  | .error e =>
      if e = .EPIPE ∨ e = .ECONNRESET ∨ e = .EAGAIN then s else handleClose s

/-- `recvData(&readBuffer_)`. `BIO_write` takes all bytes or none, so that the loop has one pass. -/
def recvData (p : Provider σ) (s : LoopThread σ) : LoopThread σ :=
  match S.BIO_write p.ssl s.conn.readBuffer with
  | none => handleSSLError p (OpenSSLProvider.handleSSLError kernel p) s
  | some ssl =>
      push [if S.SSL_is_init_finished ssl then .processApplicationData else .processHandshake true]
        { s with
          tlsProvider := some { p with ssl }
          conn.readBuffer := retrieve s.conn.readBuffer (readableBytes s.conn.readBuffer) }

def processHandshake (inRecvData : Bool) (p : Provider σ) (s : LoopThread σ) : LoopThread σ :=
  match OpenSSLProvider.processHandshake kernel S p with
  | (.handshakeCallback, p') =>
      push [.user, .handshakeFinished inRecvData] { s with
        tlsProvider := some p'
        conn := log s.conn (.connectionCallback s.conn.status) }
  | (.shutdown, p') =>
      let s := shutdown kernel S { s with tlsProvider := some p' }
      s.tlsProvider.elim s fun p =>
        handleSSLError p (OpenSSLProvider.handleSSLError kernel p) s
  | (.done, p') => handleSSLError p p' s

def handshakeFinished (inRecvData : Bool) (p : Provider σ) (s : LoopThread σ) : LoopThread σ :=
  push (if inRecvData then [.processApplicationData] else []) { s with
    tlsProvider := some (OpenSSLProvider.sendTLSData kernel p) }

def processApplicationData (p : Provider σ) (s : LoopThread σ) : LoopThread σ :=
  match OpenSSLProvider.readApplicationData kernel S p with
  | (.messageCallback, p') =>
      push [.user, .processApplicationData] { s with tlsProvider := some p' }
  | (.shutdown, p') => shutdown kernel S { s with tlsProvider := some p' }
  | (.done, p') => handleSSLError p p' s

/-- `Channel::handleEvent`. A `readv()` answers `result`; `handleError` only logs. -/
def handleEvent (revents : Revents) (result : ReadResult) (s : LoopThread σ) : LoopThread σ :=
  if s.conn.reading = false ∧ s.conn.writing = false then s
  else
    push ((if revents.POLLHUP && !revents.POLLIN then [.closeEvent] else []) ++
      (if revents.POLLIN || revents.POLLPRI || revents.POLLRDHUP then [.readCallback result]
        else []) ++
      if revents.POLLOUT then [.writeCallback] else []) s

end Events

section Machine

/-- Run the frame that has just been taken from the stack. A failed assertion has no result. -/
def exec (s : LoopThread σ) : Frame → Option (LoopThread σ)
  | .user => some s
  | .closeEvent => some (handleClose s)
  | .readCallback result => some (readCallback s result)
  | .writeCallback => writeCallback kernel S s
  | .closeCallback => some (closeCallback s)
  | .remove => some { s with removed := true }
  | .sendInLoop msg => some (sendInLoop kernel S s msg)
  | .sendFailed e msg => some (sendFailed e msg s)
  | .checkBufferedData => some (checkBufferedData s)
  | .unlock => some { s with locked := false }
  | .decrement => some { s with conn.sendNum := s.conn.sendNum - 1 }
  | .startFile =>
      if s.conn.writeBufferList.length = 1 then some (push [.sendFileInLoop] s) else some s
  | .sendFileInLoop => sendFileInLoop kernel S s
  | .fetched => some (fetched kernel S s)
  | .streamFailed e => some (streamFailed e s)
  | .fileLoop => some (fileLoop kernel S s)
  | .fileFailed e => some (fileFailed e s)
  | .completed => some (completed s)
  | .checkCloseOnEmpty => some (checkCloseOnEmpty kernel S s)
  | .recvData => some (s.tlsProvider.elim s (recvData kernel S · s))
  | .processHandshake inRecvData =>
      some (s.tlsProvider.elim s (processHandshake kernel S inRecvData · s))
  | .handshakeFinished inRecvData =>
      some (s.tlsProvider.elim s (handshakeFinished kernel inRecvData · s))
  | .processApplicationData => some (s.tlsProvider.elim s (processApplicationData kernel S · s))

/-- An idle loop thread dispatches an event or runs a functor, and else it goes on (`resume`), where
a callback of the user returns. Callbacks make requests `inLoop`. -/
inductive Event
  | handleEvent (revents : Revents) (result : ReadResult)
  | functor
  | resume
  | inLoop (request : Request)
  | elsewhere (request : Request)
  | serverLoop
  deriving DecidableEq

def Event.writable : Event :=
  .handleEvent ⟨false, false, false, false, false, false, true⟩ (.ok [])

def inUser (s : LoopThread σ) : Bool := s.stack.head?.all (· = .user)

/-- What a thread is not ready for changes nothing. -/
def step (s : LoopThread σ) : Event → Option (LoopThread σ)
  | .handleEvent revents result =>
      if s.stack = [] then some (handleEvent revents result s) else some s
  | .functor =>
      match s.stack, s.funcs with
      | [], functor :: funcs => some (runFunctor kernel S { s with funcs } functor)
      | _, _ => some s
  | .resume =>
      match s.stack with
      | [] => some s
      | frame :: stack => exec kernel S { s with stack } frame
  | .inLoop request => if inUser s then requestInLoop kernel S s request else some s
  | .elsewhere request => some (requestElsewhere s request)
  | .serverLoop =>
      if s.closing = 0 then some s
      else some (handleCloseInLoop { s with closing := s.closing - 1 })

def established (highWaterMarkLen : Option Nat) (inServerLoop : Bool) (ssl : Option σ) :
    LoopThread σ where
  conn :=
    match ssl with
    | none => TcpConnectionImpl.established highWaterMarkLen
    | some _ => { TcpConnectionImpl.established highWaterMarkLen with trace := [] }
  tlsProvider := ssl.map OpenSSLProvider.newTLSProvider
  locked := false
  stack := if ssl.isSome then [.processHandshake false] else [.user]
  funcs := []
  inServerLoop
  inConnSet := true
  closing := 0
  erased := []
  destroyed := 0
  removed := false

def unusedSSL : OpenSSL Unit where
  BIO_write _ _ := none
  SSL_is_init_finished _ := false
  SSL_do_handshake _ := (.failed, [], ())
  SSL_read _ := (.failed, [], ())
  SSL_write _ _ := (.error .EAGAIN, [], ())
  SSL_shutdown _ := ([], ())

end Machine

end Cooper.ConnectionThread

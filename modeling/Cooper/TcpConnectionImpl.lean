import Cooper.MsgBuffer

namespace Cooper.TcpConnectionImpl

open Cooper.MsgBuffer

inductive ConnStatus
  | Disconnected
  | Connecting
  | Connected
  | Disconnecting
  deriving DecidableEq

/-- The values of `errno` that the code tells apart. `EWOULDBLOCK` is `EAGAIN`. -/
inductive Errno
  | EAGAIN
  | EPIPE
  | ECONNRESET
  | other (code : Nat)
  deriving DecidableEq

/-- Answer to a `write()` or `sendfile()` of `len` bytes: it transfers at most `len` bytes. -/
inductive IoResult (len : Nat)
  | done (n : Fin (len + 1))
  | error (e : Errno)

/-- The kernel's choice for every output call on the socket, given how many calls came before and
how many bytes the call offers. -/
abbrev Kernel := (calls len : Nat) → IoResult len

structure Socket where
  calls : Nat
  written : Bytes
  writeClosed : Bool

/-- `write()`. After `closeWrite` the peer's kernel no longer takes part and the answer is
`EPIPE`. -/
def Socket.write (kernel : Kernel) (socket : Socket) (data : Bytes) :
    Except Errno Nat × Socket :=
  if socket.writeClosed then (.error .EPIPE, socket)
  else
    match kernel socket.calls data.length with
    | .done n =>
        (.ok n, { socket with
          calls := socket.calls + 1
          written := socket.written ++ data.take n })
    | .error e => (.error e, { socket with calls := socket.calls + 1 })

/-- `sendfile()` offers what the file holds from `offset` on, `count` bytes at most. -/
def Socket.sendfile (kernel : Kernel) (socket : Socket) (content : Bytes) (offset count : Nat) :
    Except Errno Nat × Socket :=
  socket.write kernel ((content.drop offset).take count)

/-- `BufferNode`. A node is a file node when it has a descriptor or a stream callback, else it has
a `msgBuffer_`. The descriptor is given by the content of the file, the stream callback by the
chunks it puts into the buffer in its next calls; it answers 0 when there are no more. -/
inductive BufferNode
  | msg (msgBuffer : Bytes)
  | file (content : Bytes) (offset fileBytesToSend : Nat)
  | stream (fileBytesToSend : Nat) (chunks : List Bytes)
  deriving DecidableEq

def BufferNode.isFile : BufferNode → Bool
  | .msg _ => false
  | .file _ _ _ => true
  | .stream _ _ => true

/-- The calls that hand a payload to the connection. `sendFile` is the overload on an open
descriptor, which the overloads on a file name end in. -/
inductive SendCall
  | send (msg : Bytes)
  | sendFile (content : Bytes) (offset length : Nat)
  | sendStream (chunks : List Bytes)
  deriving DecidableEq

/-- What a user of the connection sees: the calls made on it and the callbacks it invokes. -/
inductive ConnEvent
  | call (call : SendCall)
  | writeCompleteCallback
  | highWaterMarkCallback (len : Nat)
  | connectionCallback (status : ConnStatus)
  | closeCallback
  deriving DecidableEq

structure Connection where
  status : ConnStatus
  /-- `ioChannelPtr_` has `kReadEvent` enabled. -/
  reading : Bool
  /-- `ioChannelPtr_` has `kWriteEvent` enabled. -/
  writing : Bool
  socket : Socket
  readBuffer : Bytes
  writeBufferList : List BufferNode
  /-- `*fileBufferPtr_`, empty before it is allocated. -/
  fileBuffer : Bytes
  closeOnEmpty : Bool
  sendNum : Nat
  /-- The functors of this connection that wait in the loop's `funcs_`. -/
  funcs : List SendCall
  bytesSent : Nat
  bytesReceived : Nat
  /-- `highWaterMarkLen_`, when a callback is set. -/
  highWaterMarkLen : Option Nat
  trace : List ConnEvent

def log (c : Connection) (event : ConnEvent) : Connection :=
  { c with trace := c.trace ++ [event] }

def enableWriting (c : Connection) : Connection := { c with writing := true }

def disableWriting (c : Connection) : Connection := { c with writing := false }

def disableAll (c : Connection) : Connection := { c with reading := false, writing := false }

def closeWrite (c : Connection) : Connection :=
  { c with socket := { c.socket with writeClosed := true } }

/-- `writeRaw`, which is also `writeInLoop` without a TLS provider. -/
def writeInLoop (kernel : Kernel) (c : Connection) (buffer : Bytes) :
    Except Errno Nat × Connection :=
  match c.socket.write kernel buffer with
  | (.ok n, socket) => (.ok n, { c with socket, bytesSent := c.bytesSent + n })
  | (.error e, socket) => (.error e, { c with socket })

/-- Append to `writeBufferList_.back()`, behind a new node when the list is empty or ends in a
file node. -/
def appendMsg (data : Bytes) : List BufferNode → List BufferNode
  | [] => [.msg data]
  | [.msg msgBuffer] => [.msg (append msgBuffer data)]
  | node :: rest => node :: appendMsg data rest

theorem appendMsg_ne_nil (data : Bytes) (list : List BufferNode) : appendMsg data list ≠ [] := by
  fun_cases appendMsg data list <;> simp

theorem exists_mem_appendMsg (data : Bytes) (list : List BufferNode) :
    ∃ msgBuffer, .msg (msgBuffer ++ data) ∈ appendMsg data list := by
  fun_induction appendMsg data list with
  | case1 => exact ⟨[], List.mem_singleton_self _⟩
  | case2 msgBuffer => exact ⟨msgBuffer, List.mem_singleton_self _⟩
  | case3 node rest _ ih =>
      obtain ⟨msgBuffer, hmem⟩ := ih
      exact ⟨msgBuffer, List.mem_cons_of_mem _ hmem⟩

def backReadableBytes (list : List BufferNode) : Nat :=
  match list.getLast? with
  | some (.msg msgBuffer) => readableBytes msgBuffer
  | _ => 0

def checkHighWaterMark (c : Connection) : Connection :=
  match c.highWaterMarkLen with
  | some len =>
      if backReadableBytes c.writeBufferList > len then
        log c (.highWaterMarkCallback (backReadableBytes c.writeBufferList))
      else c
  | none => c

/-- The part of `sendInLoop` after the direct write: `remaining` is what it left over. -/
def queueInList (c : Connection) (remaining : Bytes) : Connection :=
  if remaining.length > 0 ∧ c.status = .Connected then
    checkHighWaterMark
      (enableWriting { c with writeBufferList := appendMsg remaining c.writeBufferList })
  else c

def sendInLoop (kernel : Kernel) (c : Connection) (buffer : Bytes) : Connection :=
  if c.status ≠ .Connected then c
  else if c.writing = false ∧ c.writeBufferList = [] then
    match writeInLoop kernel c buffer with
    | (.ok sendLen, c) => queueInList c (buffer.drop sendLen)
    | (.error e, c) => if e ≠ .EAGAIN then c else queueInList c buffer
  else queueInList c buffer

/-- One `writeInLoop(fileBufferPtr_)` in the stream loop. `inl` is its `continue`; `inr` leaves the
loop with the node's `fileBytesToSend_`. -/
def writeFileBuffer (kernel : Kernel) (c : Connection) (fileBytesToSend : Nat) :
    Connection ⊕ Connection × Nat :=
  match writeInLoop kernel c c.fileBuffer with
  | (.ok nWritten, c) =>
      if nWritten < c.fileBuffer.length then
        .inr (enableWriting { c with fileBuffer := c.fileBuffer.drop nWritten }, fileBytesToSend)
      else .inl { c with fileBuffer := [] }
  | (.error e, c) =>
      if e ≠ .EAGAIN then .inr (c, 0)
      else .inr (enableWriting c, fileBytesToSend)

/-- The stream loop at its head, with `fileBufferPtr_` empty and the stream not ended: every pass
fetches a chunk and writes it. -/
def streamLoop (kernel : Kernel) (fileBytesToSend : Nat) :
    List Bytes → Connection → Connection × BufferNode
  | [], c => (enableWriting c, .stream 0 [])
  | chunk :: chunks, c =>
      if chunk = [] then (enableWriting c, .stream 0 chunks)
      else
        match writeFileBuffer kernel { c with fileBuffer := chunk } fileBytesToSend with
        | .inl c => streamLoop kernel fileBytesToSend chunks c
        | .inr (c, toSend) => (c, .stream toSend chunks)

/-- `sendFileInLoop` on a stream node. The first pass of its loop differs from the others when
`fileBufferPtr_` still holds the leftover of the last call. -/
def sendStreamInLoop (kernel : Kernel) (c : Connection) (fileBytesToSend : Nat)
    (chunks : List Bytes) : Connection × BufferNode :=
  if c.fileBuffer = [] then
    if fileBytesToSend = 0 then (enableWriting c, .stream 0 chunks)
    else streamLoop kernel fileBytesToSend chunks c
  else
    match writeFileBuffer kernel c fileBytesToSend with
    | .inl c =>
        if fileBytesToSend = 0 then (enableWriting c, .stream 0 chunks)
        else streamLoop kernel fileBytesToSend chunks c
    | .inr (c, toSend) => (c, .stream toSend chunks)

/-- `sendFileInLoop` on a node with a descriptor: one kernel `sendfile()`. -/
def sendfileInLoop (kernel : Kernel) (c : Connection) (content : Bytes)
    (offset fileBytesToSend : Nat) : Connection × BufferNode :=
  match c.socket.sendfile kernel content offset fileBytesToSend with
  | (.error e, socket) =>
      let c := { c with socket }
      (if e ≠ .EAGAIN then disableWriting c else c, .file content offset fileBytesToSend)
  | (.ok bytesSent, socket) =>
      let c := { c with socket }
      if bytesSent < fileBytesToSend ∧ bytesSent = 0 then
        (c, .file content offset fileBytesToSend)
      else
        (enableWriting c, .file content (offset + bytesSent) (fileBytesToSend - bytesSent))

/-- `sendFileInLoop(writeBufferList_.front())`, the only way it is called. -/
def sendFileInLoop (kernel : Kernel) (c : Connection) : Option Connection :=
  match c.writeBufferList with
  | .file content offset fileBytesToSend :: rest =>
      let (c, node) := sendfileInLoop kernel c content offset fileBytesToSend
      some { c with writeBufferList := node :: rest }
  | .stream fileBytesToSend chunks :: rest =>
      let (c, node) := sendStreamInLoop kernel c fileBytesToSend chunks
      some { c with writeBufferList := node :: rest }
  | _ => none

/-- `send()`, all overloads: `inLoopThread` tells whether the loop thread calls it. -/
def send (kernel : Kernel) (inLoopThread : Bool) (c : Connection) (msg : Bytes) : Connection :=
  let c := log c (.call (.send msg))
  if inLoopThread ∧ c.sendNum = 0 then sendInLoop kernel c msg
  else { c with sendNum := c.sendNum + 1, funcs := c.funcs ++ [.send msg] }

def pushFile (kernel : Kernel) (c : Connection) (node : BufferNode) : Option Connection :=
  let c := { c with writeBufferList := c.writeBufferList ++ [node] }
  if c.writeBufferList.length = 1 then sendFileInLoop kernel c else some c

def sendFile (kernel : Kernel) (inLoopThread : Bool) (c : Connection) (content : Bytes)
    (offset length : Nat) : Option Connection :=
  let c := log c (.call (.sendFile content offset length))
  if inLoopThread ∧ c.sendNum = 0 then pushFile kernel c (.file content offset length)
  else some { c with
    sendNum := c.sendNum + 1
    funcs := c.funcs ++ [.sendFile content offset length] }

/-- `sendStream()` with a non-empty callback. `fileBytesToSend_` is 1 until the stream ends. -/
def sendStream (kernel : Kernel) (inLoopThread : Bool) (c : Connection) (chunks : List Bytes) :
    Option Connection :=
  let c := log c (.call (.sendStream chunks))
  if inLoopThread ∧ c.sendNum = 0 then pushFile kernel c (.stream 1 chunks)
  else some { c with sendNum := c.sendNum + 1, funcs := c.funcs ++ [.sendStream chunks] }

def runCall (kernel : Kernel) (inLoopThread : Bool) (c : Connection) : SendCall → Option Connection
  | .send msg => some (send kernel inLoopThread c msg)
  | .sendFile content offset length => sendFile kernel inLoopThread c content offset length
  | .sendStream chunks => sendStream kernel inLoopThread c chunks

def runFunctor (kernel : Kernel) (c : Connection) : SendCall → Option Connection
  | .send msg =>
      let c := sendInLoop kernel c msg
      some { c with sendNum := c.sendNum - 1 }
  | .sendFile content offset length =>
      pushFile kernel { c with sendNum := c.sendNum - 1 } (.file content offset length)
  | .sendStream chunks =>
      pushFile kernel { c with sendNum := c.sendNum - 1 } (.stream 1 chunks)

def shutdown (c : Connection) : Connection :=
  if c.status = .Connected then
    if c.writeBufferList.length ≠ 0 then { c with closeOnEmpty := true }
    else
      let c := { c with status := .Disconnecting }
      if c.writing = false then closeWrite c else c
  else c

def handleClose (c : Connection) : Connection :=
  let c := disableAll { c with status := .Disconnected }
  log (log c (.connectionCallback .Disconnected)) .closeCallback

def forceClose (c : Connection) : Connection :=
  if c.status = .Connected ∨ c.status = .Disconnecting then
    handleClose { c with status := .Disconnecting }
  else c

/-- The list has become empty in `writeCallback`; `calls` are the calls that
`writeCompleteCallback_` makes on the connection. -/
def finishWriting (kernel : Kernel) (calls : List SendCall) (c : Connection) :
    Option Connection :=
  let c := log (disableWriting c) .writeCompleteCallback
  (calls.foldlM (runCall kernel true) c).map fun c =>
    if c.status = .Disconnecting then closeWrite c else c

def checkCloseOnEmpty (c : Connection) : Connection :=
  if c.closeOnEmpty then shutdown c else c

/-- `writeCallback` sends from a node that is not a file, the first of the list. An error other
than `EAGAIN` returns at once. -/
def writeMsg (kernel : Kernel) (c : Connection) (msgBuffer : Bytes) (rest : List BufferNode) :
    Connection :=
  match writeInLoop kernel c msgBuffer with
  | (.ok n, c) => checkCloseOnEmpty { c with writeBufferList := .msg (retrieve msgBuffer n) :: rest }
  | (.error e, c) => if e ≠ .EAGAIN then c else checkCloseOnEmpty c

def writeNext (kernel : Kernel) (calls : List SendCall) (afterFile : Bool) (c : Connection)
    (rest : List BufferNode) : Option Connection :=
  let c := { c with writeBufferList := rest }
  match rest with
  | [] => (finishWriting kernel calls c).map checkCloseOnEmpty
  | .msg msgBuffer :: rest' =>
      if afterFile then some (writeMsg kernel c msgBuffer rest') else none
  | _ :: _ => (sendFileInLoop kernel c).map checkCloseOnEmpty

/-- `calls` are the calls that `writeCompleteCallback_` makes, in case it is invoked. -/
def writeCallback (kernel : Kernel) (calls : List SendCall) (c : Connection) :
    Option Connection :=
  if c.writing then
    match c.writeBufferList with
    | [] => none
    | .msg msgBuffer :: rest =>
        if readableBytes msgBuffer = 0 then writeNext kernel calls false c rest
        else some (writeMsg kernel c msgBuffer rest)
    | .file _ _ fileBytesToSend :: rest | .stream fileBytesToSend _ :: rest =>
        if fileBytesToSend = 0 then writeNext kernel calls true c rest
        else (sendFileInLoop kernel c).map checkCloseOnEmpty
  else some c

/-- What `readv()` answers: an error, or the bytes it read, none at the end of file. -/
abbrev ReadResult := Except Errno Bytes

/-- `readCallback` up to `recvMsgCallback_`, which is called when the second component is true. -/
def readCallback (c : Connection) : ReadResult → Connection × Bool
  | .ok [] => (handleClose c, false)
  | .ok chunk =>
      ({ c with
        readBuffer := append c.readBuffer chunk
        bytesReceived := c.bytesReceived + chunk.length }, true)
  | .error e =>
      if e = .EPIPE ∨ e = .ECONNRESET ∨ e = .EAGAIN then (c, false) else (handleClose c, false)

def established (highWaterMarkLen : Option Nat) : Connection where
  status := .Connected
  reading := true
  writing := false
  socket := { calls := 0, written := [], writeClosed := false }
  readBuffer := []
  writeBufferList := []
  fileBuffer := []
  closeOnEmpty := false
  sendNum := 0
  funcs := []
  bytesSent := 0
  bytesReceived := 0
  highWaterMarkLen
  trace := [.connectionCallback .Connected]

def connectDestroyed (c : Connection) : Connection :=
  if c.status = .Connected then
    log (disableAll { c with status := .Disconnected }) (.connectionCallback .Disconnected)
  else c

/-- A relation between connections that a write keeps, and that sees neither `fileBufferPtr_` nor
the interest in writing: the whole stream loop keeps it. -/
structure StreamKept (kernel : Kernel) (R : Connection → Connection → Prop) : Prop where
  trans : ∀ c c' c'', R c c' → R c' c'' → R c c''
  written : ∀ c data, R c (writeInLoop kernel c data).2
  stored : ∀ c writing fileBuffer, R c { c with writing, fileBuffer }

namespace StreamKept

variable {kernel : Kernel} {R : Connection → Connection → Prop}

theorem writeFileBuffer (h : StreamKept kernel R) (c : Connection) (fileBytesToSend : Nat) :
    match writeFileBuffer kernel c fileBytesToSend with
    | .inl c' => R c c'
    | .inr (c', _) => R c c' := by
  have hwritten := h.written c c.fileBuffer
  rw [TcpConnectionImpl.writeFileBuffer]
  rcases hresult : writeInLoop kernel c c.fileBuffer with ⟨e | n, c'⟩
  · rw [hresult] at hwritten
    rcases eq_or_ne e .EAGAIN with he | he
    · simp only [he, ne_eq, not_true_eq_false, if_false]
      exact h.trans c c' _ hwritten (h.stored c' true c'.fileBuffer)
    · simp only [he, ne_eq, not_false_eq_true, if_true]
      exact hwritten
  · rw [hresult] at hwritten
    rcases Nat.lt_or_ge n c'.fileBuffer.length with hlt | hge
    · simp only [hlt, if_true]
      exact h.trans c c' _ hwritten (h.stored c' true (c'.fileBuffer.drop n))
    · simp only [Nat.not_lt.mpr hge, if_false]
      exact h.trans c c' _ hwritten (h.stored c' c'.writing [])

theorem streamLoop (h : StreamKept kernel R) (fileBytesToSend : Nat) (chunks : List Bytes)
    (c : Connection) : R c (streamLoop kernel fileBytesToSend chunks c).1 := by
  induction chunks generalizing c with
  | nil => exact h.stored c true c.fileBuffer
  | cons chunk chunks ih =>
      rw [TcpConnectionImpl.streamLoop]
      split
      · exact h.stored c true c.fileBuffer
      · have hfetch := h.stored c c.writing chunk
        have hwrite := h.writeFileBuffer { c with fileBuffer := chunk } fileBytesToSend
        rcases hresult : TcpConnectionImpl.writeFileBuffer kernel { c with fileBuffer := chunk }
          fileBytesToSend with c' | ⟨c', toSend⟩
        · rw [hresult] at hwrite
          exact h.trans c c' _ (h.trans c _ c' hfetch hwrite) (ih c')
        · rw [hresult] at hwrite
          exact h.trans c _ c' hfetch hwrite

theorem sendStreamInLoop (h : StreamKept kernel R) (c : Connection) (fileBytesToSend : Nat)
    (chunks : List Bytes) : R c (sendStreamInLoop kernel c fileBytesToSend chunks).1 := by
  have hloop : ∀ c', R c' (if fileBytesToSend = 0 then
      (enableWriting c', BufferNode.stream 0 chunks)
      else TcpConnectionImpl.streamLoop kernel fileBytesToSend chunks c').1 := by
    intro c'
    split
    · exact h.stored c' true c'.fileBuffer
    · exact h.streamLoop fileBytesToSend chunks c'
  rw [TcpConnectionImpl.sendStreamInLoop]
  split
  · exact hloop c
  · have hwrite := h.writeFileBuffer c fileBytesToSend
    rcases hresult : TcpConnectionImpl.writeFileBuffer kernel c fileBytesToSend
      with c' | ⟨c', toSend⟩
    · rw [hresult] at hwrite
      exact h.trans c c' _ hwrite (hloop c')
    · rw [hresult] at hwrite
      exact hwrite

end StreamKept

end Cooper.TcpConnectionImpl

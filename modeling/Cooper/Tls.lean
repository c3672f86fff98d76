import Cooper.TcpConnectionImpl

/-!
`TcpConnectionImpl` of a connection with a TLS provider. The functions are those of the plain
connection where `tlsProviderPtr_` is set: `writeInLoop` hands the bytes to the provider, and a file
goes through `fileBufferPtr_`.
-/

namespace Cooper.Tls

open Cooper.MsgBuffer
open Cooper.TcpConnectionImpl

/-- The functions of the class `TLSProvider` that sending uses. `sendData` accepts some first bytes
of what it is given, or it fails. -/
structure TLSProvider (π : Type*) where
  sendData : π → (data : Bytes) → IoResult data.length × π
  /-- Whether nothing is left in `writeBuffer_`. -/
  sendBufferedData : π → Bool × π
  getBufferedData : π → Bytes
  close : π → π

/-- Whose bytes `*fileBufferPtr_` holds, which the source does not keep: what is left of a stream's
chunk, what the last file has left, or bytes of both once a stream has been started from the latter.
-/
inductive FileBufferUse
  | stream
  | file
  | mixed
  deriving DecidableEq

structure TlsConnection (π : Type*) where
  /-- The fields that a plain connection has, too. Its socket is written to by the provider only. -/
  conn : Connection
  provider : π
  /-- What `sendData` has accepted. -/
  plaintext : Bytes
  fileBufferUse : FileBufferUse

def kMaxSendFileBufferSize : Nat := 16 * 1024

variable {π : Type*} (P : TLSProvider π)

def writeInLoop (t : TlsConnection π) (buffer : Bytes) : Except Errno Nat × TlsConnection π :=
  match P.sendData t.provider buffer with
  | (.done n, provider) => (.ok n, { t with provider, plaintext := t.plaintext ++ buffer.take n })
  | (.error e, provider) => (.error e, { t with provider })

/-- The second check is for what the provider has buffered. -/
def checkHighWaterMark (t : TlsConnection π) : TlsConnection π :=
  let t := { t with conn := TcpConnectionImpl.checkHighWaterMark t.conn }
  let buffered := readableBytes (P.getBufferedData t.provider)
  match t.conn.highWaterMarkLen with
  | some len =>
      if buffered > len then { t with conn := log t.conn (.highWaterMarkCallback buffered) } else t
  | none => t

def queueInList (t : TlsConnection π) (remaining : Bytes) : TlsConnection π :=
  if remaining.length > 0 ∧ t.conn.status = .Connected then
    checkHighWaterMark P { t with
      conn := enableWriting { t.conn with
        writeBufferList := appendMsg remaining t.conn.writeBufferList } }
  else t

def sendInLoop (t : TlsConnection π) (buffer : Bytes) : TlsConnection π :=
  if t.conn.status ≠ .Connected then t
  else if t.conn.writing = false ∧ t.conn.writeBufferList = [] then
    match writeInLoop P t buffer with
    | (.ok sendLen, t) => queueInList P t (buffer.drop sendLen)
    | (.error e, t) => if e ≠ .EAGAIN then t else queueInList P t buffer
  else queueInList P t buffer

def writeFileBuffer (t : TlsConnection π) (fileBytesToSend : Nat) :
    TlsConnection π ⊕ TlsConnection π × Nat :=
  match writeInLoop P t t.conn.fileBuffer with
  | (.ok nWritten, t) =>
      if nWritten < t.conn.fileBuffer.length then
        .inr ({ t with
          conn := enableWriting { t.conn with fileBuffer := t.conn.fileBuffer.drop nWritten } },
          fileBytesToSend)
      else .inl { t with conn.fileBuffer := [] }
  | (.error e, t) =>
      if e ≠ .EAGAIN then .inr (t, 0)
      else .inr ({ t with conn := enableWriting t.conn }, fileBytesToSend)

def streamLoop (fileBytesToSend : Nat) :
    List Bytes → TlsConnection π → TlsConnection π × BufferNode
  | [], t => ({ t with conn := enableWriting t.conn }, .stream 0 [])
  | chunk :: chunks, t =>
      if chunk = [] then ({ t with conn := enableWriting t.conn }, .stream 0 chunks)
      else
        match writeFileBuffer P { t with conn.fileBuffer := chunk } fileBytesToSend with
        | .inl t => streamLoop fileBytesToSend chunks t
        | .inr (t, toSend) => (t, .stream toSend chunks)

def sendStreamInLoop (t : TlsConnection π) (fileBytesToSend : Nat) (chunks : List Bytes) :
    TlsConnection π × BufferNode :=
  if t.conn.fileBuffer = [] then
    if fileBytesToSend = 0 then ({ t with conn := enableWriting t.conn }, .stream 0 chunks)
    else streamLoop P fileBytesToSend chunks t
  else
    match writeFileBuffer P t fileBytesToSend with
    | .inl t =>
        if fileBytesToSend = 0 then ({ t with conn := enableWriting t.conn }, .stream 0 chunks)
        else streamLoop P fileBytesToSend chunks t
    | .inr (t, toSend) => (t, .stream toSend chunks)

/-- What `read()` puts into `fileBufferPtr_`, nothing at the end of the file. -/
def readChunk (t : TlsConnection π) (content : Bytes) (offset fileBytesToSend : Nat) : Bytes :=
  (content.drop offset).take (min t.conn.fileBuffer.length fileBytesToSend)

/-- The loop for a file, after `lseek()`. -/
def fileLoop (content : Bytes) (offset fileBytesToSend : Nat) (t : TlsConnection π) :
    TlsConnection π × BufferNode :=
  if fileBytesToSend = 0 then
    ({ t with conn := enableWriting t.conn }, .file content offset fileBytesToSend)
  else
    let chunk := readChunk t content offset fileBytesToSend
    if chunk = [] then (t, .file content offset fileBytesToSend)
    else
      let t := { t with conn.fileBuffer := chunk ++ t.conn.fileBuffer.drop chunk.length }
      match writeInLoop P t chunk with
      | (.ok nSend, t) =>
          if nSend < chunk.length then
            ({ t with conn := enableWriting t.conn },
              .file content (offset + nSend) (fileBytesToSend - nSend))
          else fileLoop content (offset + nSend) (fileBytesToSend - nSend) t
      | (.error e, t) =>
          if e ≠ .EAGAIN then (t, .file content offset fileBytesToSend)
          else ({ t with conn := enableWriting t.conn }, .file content offset fileBytesToSend)
  termination_by fileBytesToSend
  decreasing_by
    have hpos := List.length_pos_iff.mpr ‹¬_›
    omega

/-- `fileBufferPtr_->resize(kMaxSendFileBufferSize)` unless it has that size. -/
def growFileBuffer (fileBuffer : Bytes) : Bytes :=
  fileBuffer ++ List.replicate (kMaxSendFileBufferSize - fileBuffer.length) 0

def sendFileInLoop (t : TlsConnection π) : Option (TlsConnection π) :=
  match t.conn.writeBufferList with
  | .file content offset fileBytesToSend :: rest =>
      let fileBufferUse := if t.fileBufferUse = .mixed then .mixed else .file
      let (t, node) := fileLoop P content offset fileBytesToSend
        { t with conn.fileBuffer := growFileBuffer t.conn.fileBuffer, fileBufferUse }
      some { t with conn.writeBufferList := node :: rest }
  | .stream fileBytesToSend chunks :: rest =>
      let fileBufferUse := if t.fileBufferUse = .stream then .stream else .mixed
      let (t, node) := sendStreamInLoop P { t with fileBufferUse } fileBytesToSend chunks
      some { t with conn.writeBufferList := node :: rest }
  | _ => none

/-- `sendNum_` and `funcs_` for a call that has to wait. -/
def queueCall (t : TlsConnection π) (call : SendCall) : TlsConnection π :=
  { t with conn.sendNum := t.conn.sendNum + 1, conn.funcs := t.conn.funcs ++ [call] }

def pushFile (t : TlsConnection π) (node : BufferNode) : Option (TlsConnection π) :=
  let t := { t with conn.writeBufferList := t.conn.writeBufferList ++ [node] }
  if t.conn.writeBufferList.length = 1 then sendFileInLoop P t else some t

def send (inLoopThread : Bool) (t : TlsConnection π) (msg : Bytes) : TlsConnection π :=
  let t := { t with conn := log t.conn (.call (.send msg)) }
  if inLoopThread ∧ t.conn.sendNum = 0 then sendInLoop P t msg else queueCall t (.send msg)

def sendFile (inLoopThread : Bool) (t : TlsConnection π) (content : Bytes) (offset length : Nat) :
    Option (TlsConnection π) :=
  let t := { t with conn := log t.conn (.call (.sendFile content offset length)) }
  if inLoopThread ∧ t.conn.sendNum = 0 then pushFile P t (.file content offset length)
  else some (queueCall t (.sendFile content offset length))

def sendStream (inLoopThread : Bool) (t : TlsConnection π) (chunks : List Bytes) :
    Option (TlsConnection π) :=
  let t := { t with conn := log t.conn (.call (.sendStream chunks)) }
  if inLoopThread ∧ t.conn.sendNum = 0 then pushFile P t (.stream 1 chunks)
  else some (queueCall t (.sendStream chunks))

def runCall (inLoopThread : Bool) (t : TlsConnection π) : SendCall → Option (TlsConnection π)
  | .send msg => some (send P inLoopThread t msg)
  | .sendFile content offset length => sendFile P inLoopThread t content offset length
  | .sendStream chunks => sendStream P inLoopThread t chunks

def runFunctor (t : TlsConnection π) : Option (TlsConnection π) :=
  match t.conn.funcs with
  | [] => some t
  | .send msg :: funcs =>
      let t := sendInLoop P { t with conn.funcs := funcs } msg
      some { t with conn.sendNum := t.conn.sendNum - 1 }
  | .sendFile content offset length :: funcs =>
      pushFile P { t with conn.funcs := funcs, conn.sendNum := t.conn.sendNum - 1 }
        (.file content offset length)
  | .sendStream chunks :: funcs =>
      pushFile P { t with conn.funcs := funcs, conn.sendNum := t.conn.sendNum - 1 }
        (.stream 1 chunks)

def shutdown (t : TlsConnection π) : TlsConnection π :=
  if t.conn.status = .Connected then
    if readableBytes (P.getBufferedData t.provider) ≠ 0 ∨ t.conn.writeBufferList.length ≠ 0 then
      { t with conn.closeOnEmpty := true }
    else
      let t := { t with provider := P.close t.provider, conn.status := .Disconnecting }
      if t.conn.writing = false then { t with conn := closeWrite t.conn } else t
  else t

def checkCloseOnEmpty (t : TlsConnection π) : TlsConnection π :=
  if t.conn.closeOnEmpty ∧
      (t.conn.writeBufferList = [] ∨ readableBytes (P.getBufferedData t.provider) = 0) then
    shutdown P t
  else t

def finishWriting (calls : List SendCall) (t : TlsConnection π) : Option (TlsConnection π) :=
  let t := { t with conn := log (disableWriting t.conn) .writeCompleteCallback }
  (calls.foldlM (runCall P true) t).map fun t =>
    if t.conn.status = .Disconnecting then { t with conn := closeWrite t.conn } else t

def writeMsg (t : TlsConnection π) (msgBuffer : Bytes) (rest : List BufferNode) : TlsConnection π :=
  match writeInLoop P t msgBuffer with
  | (.ok n, t) =>
      checkCloseOnEmpty P { t with
        conn.writeBufferList := .msg (retrieve msgBuffer n) :: rest }
  | (.error e, t) => if e ≠ .EAGAIN then t else checkCloseOnEmpty P t

def writeNext (calls : List SendCall) (afterFile : Bool) (t : TlsConnection π)
    (rest : List BufferNode) : Option (TlsConnection π) :=
  let t := { t with conn.writeBufferList := rest }
  match rest with
  | [] => (finishWriting P calls t).map (checkCloseOnEmpty P)
  | .msg msgBuffer :: rest' => if afterFile then some (writeMsg P t msgBuffer rest') else none
  | _ :: _ => (sendFileInLoop P t).map (checkCloseOnEmpty P)

/-- `writeCallback` once `sendBufferedData` has answered true. -/
def writeList (calls : List SendCall) (t : TlsConnection π) : Option (TlsConnection π) :=
  match t.conn.writeBufferList with
  | [] => none
  | .msg msgBuffer :: rest =>
      if readableBytes msgBuffer = 0 then writeNext P calls false t rest
      else some (writeMsg P t msgBuffer rest)
  | .file _ _ fileBytesToSend :: rest | .stream fileBytesToSend _ :: rest =>
      if fileBytesToSend = 0 then writeNext P calls true t rest
      else (sendFileInLoop P t).map (checkCloseOnEmpty P)

/-- `calls` are the calls that `writeCompleteCallback_` makes, in case it is invoked. -/
def writeCallback (calls : List SendCall) (t : TlsConnection π) : Option (TlsConnection π) :=
  if t.conn.writing then
    match P.sendBufferedData t.provider with
    | (false, provider) => some { t with provider, conn := enableWriting t.conn }
    | (true, provider) => writeList P calls { t with provider }
  else some t

end Cooper.Tls

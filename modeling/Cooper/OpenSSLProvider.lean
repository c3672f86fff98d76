import Cooper.Tls

/-!
`OpenSSLProvider` on top of a connection's socket. OpenSSL itself is a parameter: its functions on
the `SSL` object and what they put into `wbio_`. Where the provider calls back into the connection,
its function is cut in two.
-/

namespace Cooper.OpenSSLProvider

open Cooper.MsgBuffer
open Cooper.TcpConnectionImpl

/-- What comes of `SSL_do_handshake`. When it returns 1, the checks of the policy follow. -/
inductive HandshakeResult
  | finished
  | noApplicationProtocol
  | invalidCertificate
  | wantReadOrWrite
  | failed
  deriving DecidableEq

/-- What comes of `SSL_read`, which puts the `data` into `recvBuffer_`. -/
inductive ReadResult
  | data
  | closedByPeer
  | noData
  | failed
  deriving DecidableEq

/-- The functions of OpenSSL on the state `σ` of `ssl_` and `rbio_`. The bytes in an answer are
those that the function puts into `wbio_`. -/
structure OpenSSL (σ : Type*) where
  /-- A memory BIO takes all bytes unless it fails. -/
  BIO_write : σ → Bytes → Option σ
  SSL_is_init_finished : σ → Bool
  SSL_do_handshake : σ → HandshakeResult × Bytes × σ
  SSL_read : σ → ReadResult × Bytes × σ
  SSL_write : σ → Bytes → Except Errno Unit × Bytes × σ
  SSL_shutdown : σ → Bytes × σ

/-- The fields of the provider, the connection's socket, which `writeCallback_` writes to, and all
bytes that have been put into `wbio_` so far. -/
structure Provider (σ : Type*) where
  ssl : σ
  wbio : Bytes
  writeBuffer : Bytes
  processedHandshakeError : Bool
  processedSslError : Bool
  socket : Socket
  produced : Bytes

variable {σ : Type*} (kernel : Kernel) (S : OpenSSL σ)

def newTLSProvider (ssl : σ) : Provider σ where
  ssl
  wbio := []
  writeBuffer := []
  processedHandshakeError := false
  processedSslError := false
  socket := { calls := 0, written := [], writeClosed := false }
  produced := []

/-- A function of OpenSSL has put `records` into `wbio_`. -/
def produce (p : Provider σ) (answer : Bytes × σ) : Provider σ :=
  { p with
    ssl := answer.2
    wbio := p.wbio ++ answer.1
    produced := p.produced ++ answer.1 }

/-- What the socket does not take of the bytes in `wbio_` is put into `writeBuffer_`. -/
def sendTLSData (p : Provider σ) : Provider σ :=
  if p.wbio = [] then p
  else
    match p.socket.write kernel p.wbio with
    | (.ok n, socket) =>
        { p with socket, writeBuffer := append p.writeBuffer (p.wbio.drop n), wbio := [] }
    | (.error _, socket) =>
        { p with socket, writeBuffer := append p.writeBuffer p.wbio, wbio := [] }

/-- `errorCallback_` is invoked the first time. -/
def handleSSLError (p : Provider σ) : Provider σ :=
  { sendTLSData kernel p with processedSslError := true }

def maxSend : Nat := 64 * 1024

def encrypt (p : Provider σ) (data : Bytes) : Except Errno Unit × Provider σ :=
  let answer := S.SSL_write p.ssl (data.take maxSend)
  (answer.1, produce p answer.2)

def limit (data : Bytes) : Fin (data.length + 1) := ⟨min data.length maxSend, by omega⟩

def sendData (p : Provider σ) (data : Bytes) : IoResult data.length × Provider σ :=
  if readableBytes p.writeBuffer ≠ 0 then (.error .EAGAIN, p)
  else
    match encrypt S p data with
    | (.error e, p) =>
        if data.length ≠ 0 then (.error e, handleSSLError kernel p)
        else (.done (limit data), sendTLSData kernel p)
    | (.ok (), p) => (.done (limit data), sendTLSData kernel p)

def sendBufferedData (p : Provider σ) : Bool × Provider σ :=
  if readableBytes p.writeBuffer = 0 then (true, p)
  else
    match p.socket.write kernel p.writeBuffer with
    | (.error _, socket) => (false, { p with socket })
    | (.ok n, socket) =>
        if n ≠ readableBytes p.writeBuffer then
          (false, { p with socket, writeBuffer := retrieve p.writeBuffer n })
        else (true, { p with socket, writeBuffer := [] })

def close (p : Provider σ) : Provider σ :=
  if S.SSL_is_init_finished p.ssl then sendTLSData kernel (produce p (S.SSL_shutdown p.ssl)) else p

/-- What is left to do of `processHandshake`: to invoke `handshakeCallback_` and to send, to call
`conn_->shutdown()` and to report the error, or nothing. -/
inductive HandshakeRest
  | handshakeCallback
  | shutdown
  | done
  deriving DecidableEq

def processHandshake (p : Provider σ) : HandshakeRest × Provider σ :=
  let answer := S.SSL_do_handshake p.ssl
  let p := produce p answer.2
  match answer.1 with
  | .finished => (.handshakeCallback, p)
  | .noApplicationProtocol => (.done, handleSSLError kernel p)
  | .invalidCertificate => (.done, handleSSLError kernel (produce p (S.SSL_shutdown p.ssl)))
  | .wantReadOrWrite => (.done, sendTLSData kernel p)
  | .failed =>
      if p.processedHandshakeError then (.done, p)
      else (.shutdown, { p with processedHandshakeError := true })

/-- What is left to do of a pass of the loop in `processApplicationData`: to invoke
`messageCallback_`, to call `conn_->shutdown()`, or nothing. -/
inductive ReadRest
  | messageCallback
  | shutdown
  | done
  deriving DecidableEq

def readApplicationData (p : Provider σ) : ReadRest × Provider σ :=
  let answer := S.SSL_read p.ssl
  let p := produce p answer.2
  match answer.1 with
  | .data => (.messageCallback, p)
  | .closedByPeer => (.shutdown, p)
  | .noData => (.done, p)
  | .failed => (.done, handleSSLError kernel p)

/-- `recvData` up to the handshake or the reading. -/
def bioWrite (p : Provider σ) (data : Bytes) : Provider σ :=
  match S.BIO_write p.ssl data with
  | some ssl => { p with ssl }
  | none => handleSSLError kernel p

def tlsProvider : Tls.TLSProvider (Provider σ) where
  sendData := sendData kernel S
  sendBufferedData := sendBufferedData kernel
  getBufferedData := Provider.writeBuffer
  close := close kernel S

end Cooper.OpenSSLProvider

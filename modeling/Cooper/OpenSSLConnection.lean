import Cooper.OpenSSLProvider

namespace Cooper.OpenSSLConnection

open Cooper.MsgBuffer
open Cooper.TcpConnectionImpl (Kernel SendCall)
open Cooper.Tls
open Cooper.OpenSSLProvider

variable {σ : Type*} (kernel : Kernel) (S : OpenSSL σ)

def established (highWaterMarkLen : Option Nat) (ssl : σ) : TlsConnection (Provider σ) where
  conn := { TcpConnectionImpl.established highWaterMarkLen with trace := [] }
  provider := newTLSProvider ssl
  plaintext := []
  fileBufferUse := .stream

def runCalls (t : TlsConnection (Provider σ)) (calls : List SendCall) :
    Option (TlsConnection (Provider σ)) :=
  calls.foldlM (runCall (tlsProvider kernel S) true) t

/-- `handshakeCallback_` of the provider up to the calls of `connectionCallback_`. -/
def onHandshakeFinished (t : TlsConnection (Provider σ)) : TlsConnection (Provider σ) :=
  { t with conn := TcpConnectionImpl.log t.conn (.connectionCallback t.conn.status) }

/-- `connectionCallback_` makes the `calls`, in case it is invoked. -/
def processHandshake (calls : List SendCall) (t : TlsConnection (Provider σ)) :
    Option (Bool × TlsConnection (Provider σ)) :=
  match OpenSSLProvider.processHandshake kernel S t.provider with
  | (.handshakeCallback, provider) =>
      (runCalls kernel S (onHandshakeFinished { t with provider }) calls).map fun t =>
        (true, { t with provider := sendTLSData kernel t.provider })
  | (.shutdown, provider) =>
      let t := shutdown (tlsProvider kernel S) { t with provider }
      some (false, { t with provider := handleSSLError kernel t.provider })
  | (.done, provider) => some (false, { t with provider })

def startEncryption (calls : List SendCall) (t : TlsConnection (Provider σ)) :
    Option (TlsConnection (Provider σ)) :=
  (processHandshake kernel S calls t).map Prod.snd

/-- In every invocation `recvMsgCallback_` makes the next list of calls; there are as many lists as
invocations. -/
def processApplicationData : List (List SendCall) → TlsConnection (Provider σ) →
    Option (TlsConnection (Provider σ))
  | messages, t =>
      match readApplicationData kernel S t.provider with
      | (.messageCallback, provider) =>
          match messages with
          | [] => none
          | calls :: messages =>
              (runCalls kernel S { t with provider } calls).bind
                (processApplicationData messages)
      | (.shutdown, provider) => some (shutdown (tlsProvider kernel S) { t with provider })
      | (.done, provider) => some { t with provider }

/-- `recvData(&readBuffer_)`. `BIO_write` takes all bytes or none, so that the loop has one pass. -/
def recvData (calls : List SendCall) (messages : List (List SendCall))
    (t : TlsConnection (Provider σ)) : Option (TlsConnection (Provider σ)) :=
  match S.BIO_write t.provider.ssl t.conn.readBuffer with
  | none => some { t with provider := handleSSLError kernel t.provider }
  | some ssl =>
      let t := { t with
        provider.ssl := ssl
        conn.readBuffer := retrieve t.conn.readBuffer (readableBytes t.conn.readBuffer) }
      if S.SSL_is_init_finished ssl then processApplicationData kernel S messages t
      else
        (processHandshake kernel S calls t).bind fun (handshakeDone, t) =>
          if handshakeDone then processApplicationData kernel S messages t else some t

def readCallback (result : TcpConnectionImpl.ReadResult) (calls : List SendCall)
    (messages : List (List SendCall)) (t : TlsConnection (Provider σ)) :
    Option (TlsConnection (Provider σ)) :=
  match TcpConnectionImpl.readCallback t.conn result with
  | (conn, true) => recvData kernel S calls messages { t with conn }
  | (conn, false) => some { t with conn }

end Cooper.OpenSSLConnection

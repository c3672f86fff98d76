import Cooper.OpenSSLProvider
import Cooper.SessionManager
import Cooper.VerifySslName

/-!
`processHandshake` with what OpenSSL answers when `SSL_do_handshake` has returned: the peer's
certificate is checked against the policy, and the client's session is put into `sessionManager`.
-/

namespace Cooper.Handshake

open Cooper.MsgBuffer
open Cooper.SessionManager (Cache Loop Session SessionData sessionTimeout toKey)
open Cooper.TimerQueue (TimerId)
open Cooper.VerifySslName (verifySslName)

structure TLSPolicy where
  hostname : Bytes
  alpnProtocols : List Bytes
  validate : Bool
  allowBrokenChain : Bool
deriving DecidableEq, Repr

inductive GeneralName where
  | dns (name : Bytes)
  | other
deriving DecidableEq, Repr

/-- `commonName` is missing when there is no subject name or no common name in it, and `altNames`
when the certificate does not have the extension. -/
structure X509 where
  commonName : Option Bytes
  altNames : Option (List GeneralName)
deriving DecidableEq, Repr

def BUFSIZ : Nat := 8192

/-- `X509_NAME_get_text_by_NID` leaves room for a byte that ends the string. -/
def verifyCommonName (cert : X509) (hostname : Bytes) : Bool :=
  match cert.commonName with
  | none => false
  | some name => verifySslName (name.take (BUFSIZ - 1)) hostname

def altNamesLoop (hostname : Bytes) : List GeneralName → Bool
  | [] => false
  | .other :: altNames => altNamesLoop hostname altNames
  | .dns name :: altNames =>
      if verifySslName name hostname then true else altNamesLoop hostname altNames

def verifyAltName (cert : X509) (hostname : Bytes) : Bool :=
  match cert.altNames with
  | none => false
  | some altNames => altNamesLoop hostname altNames

def X509_V_OK : Int := 0

def X509_V_ERR_CERT_NOT_YET_VALID : Int := 9

def X509_V_ERR_CERT_HAS_EXPIRED : Int := 10

/-- `result` is what `SSL_get_verify_result` answers. -/
def validatePeerCertificate (result : Int) (cert : X509) (hostname : Bytes)
    (allowBrokenChain isServer : Bool) : Bool :=
  if isServer && !(verifyCommonName cert hostname || verifyAltName cert hostname) then false
  else if result = X509_V_ERR_CERT_NOT_YET_VALID ∨ result = X509_V_ERR_CERT_HAS_EXPIRED then false
  else if result ≠ X509_V_OK ∧ allowBrokenChain = false then false
  else true

/-- What comes of `SSL_do_handshake`: it returns 1, or `SSL_get_error` tells what is the matter. -/
inductive Outcome where
  | one
  | wantRead
  | wantWrite
  | error
deriving DecidableEq, Repr

/-- What OpenSSL answers on `ssl_` when `SSL_do_handshake` has returned. -/
structure SSL where
  outcome : Outcome
  servername : Option Bytes
  alpnSelected : Option Bytes
  session : Session
  resumable : Bool
  reused : Bool
  peerCertificate : Option X509
  verifyResult : Int
deriving DecidableEq, Repr

inductive SSLError where
  | kSSLHandshakeError
  | kSSLInvalidCertificate
  | kSSLProtocolError
deriving DecidableEq, Repr

/-- What `processHandshake` calls. -/
inductive Call where
  | handshakeCallback
  | sendTLSData
  | SSL_shutdown
  | handleSSLError (error : SSLError)
  | shutdown
deriving DecidableEq, Repr

/-- `sessionManager` with its books, and the number of timers that all event loops have created. -/
structure SessionStore where
  manager : SessionManager
  booked : SessionManager.Booked manager
  timersCreated : Nat
  created : ∀ data ∈ booked.cache.values, data.timerId ≤ timersCreated

namespace SessionStore

def init : SessionStore where
  manager := SessionManager.init
  booked := SessionManager.init_booked
  timersCreated := 0
  created := by
    intro data hmem
    contradiction

def contents (s : SessionStore) : List SessionData := s.manager.sessions.map Prod.snd

/-- Both sections of `SessionManager::store`, with no section of another thread between them. -/
def stored (s : SessionStore) (hostname ipPort : Bytes) (session : Session) (loop : Loop) :
    Option SessionManager :=
  (SessionManager.store s.manager hostname ipPort session loop (s.timersCreated + 1)).bind
    SessionManager.removeExcessSession

theorem stored_spec (s : SessionStore) (hostname ipPort : Bytes) (session : Session) (loop : Loop) :
    ∃ m, s.stored hostname ipPort session loop = some m ∧ ∃ h : SessionManager.Booked m,
      h.cache = Cache.removeExcess
        (s.booked.cache.put ⟨session, toKey hostname ipPort, s.timersCreated + 1, loop⟩) := by
  obtain ⟨m, hstore, hbooked, hcache⟩ :=
    s.booked.store hostname ipPort session loop (s.timersCreated + 1)
  obtain ⟨m', hremove, hbooked', hcache'⟩ := hbooked.removeExcessSession
  refine ⟨m', ?_, hbooked', ?_⟩
  · rw [stored, hstore]
    exact hremove
  · rw [hcache', hcache]

theorem isSome_stored (s : SessionStore) (hostname ipPort : Bytes) (session : Session)
    (loop : Loop) : (s.stored hostname ipPort session loop).isSome := by
  obtain ⟨m, hstored, -⟩ := s.stored_spec hostname ipPort session loop
  rw [hstored]
  rfl

theorem stored_get (s : SessionStore) (hostname ipPort : Bytes) (session : Session)
    (loop : Loop) :
    ∃ h : SessionManager.Booked ((s.stored hostname ipPort session loop).get
        (s.isSome_stored hostname ipPort session loop)),
      h.cache = Cache.removeExcess
        (s.booked.cache.put ⟨session, toKey hostname ipPort, s.timersCreated + 1, loop⟩) := by
  obtain ⟨m, hstored, hbooked, hcache⟩ := s.stored_spec hostname ipPort session loop
  have hget : (s.stored hostname ipPort session loop).get
      (s.isSome_stored hostname ipPort session loop) = m := by
    simp only [hstored, Option.get_some]
  rw [hget]
  exact ⟨hbooked, hcache⟩

def store (s : SessionStore) (hostname ipPort : Bytes) (session : Session) (loop : Loop) :
    SessionStore where
  manager := (s.stored hostname ipPort session loop).get
    (s.isSome_stored hostname ipPort session loop)
  booked := (s.stored_get hostname ipPort session loop).1
  timersCreated := s.timersCreated + 1
  created := by
    obtain ⟨hbooked, hcache⟩ := s.stored_get hostname ipPort session loop
    intro data hmem
    rw [hcache] at hmem
    rcases List.mem_cons.mp (Cache.mem_of_mem_removeExcess hmem) with rfl | hmem
    · exact le_refl _
    · exact (s.created data (List.mem_of_mem_filter hmem)).trans (Nat.le_succ _)

theorem store_contents (s : SessionStore) (hostname ipPort : Bytes) (session : Session)
    (loop : Loop) : ∃ rest, (s.store hostname ipPort session loop).contents =
      ⟨session, toKey hostname ipPort, s.timersCreated + 1, loop⟩ :: rest := by
  obtain ⟨hbooked, hcache⟩ := s.stored_get hostname ipPort session loop
  change ∃ rest, hbooked.cache.values = _ :: rest
  rw [hcache, Cache.removeExcess]
  split <;> rename_i hsize
  · exact ⟨_, rfl⟩
  · change ∃ rest, List.dropLast (_ :: (s.booked.cache.remove _).values) = _ :: rest
    rw [List.dropLast_cons_of_ne_nil]
    · exact ⟨_, rfl⟩
    · rintro hnil
      apply hsize
      change (_ :: (s.booked.cache.remove _).values).length < _
      rw [hnil, List.length_singleton]
      decide

theorem get_store (s : SessionStore) (hostname ipPort : Bytes) (session : Session) (loop : Loop) :
    SessionManager.get (s.store hostname ipPort session loop).manager hostname ipPort =
      some (some session) := by
  obtain ⟨rest, hrest⟩ := s.store_contents hostname ipPort session loop
  rw [(s.store hostname ipPort session loop).booked.get]
  have hfind : (s.store hostname ipPort session loop).booked.cache.find (toKey hostname ipPort) =
      some ⟨session, toKey hostname ipPort, s.timersCreated + 1, loop⟩ := by
    rw [IndexedList.KeyedList.find_eq_some_iff]
    change _ ∈ (s.store hostname ipPort session loop).contents ∧ _
    rw [hrest]
    exact ⟨List.mem_cons_self, rfl⟩
  rw [hfind]
  rfl

theorem store_contents_ne (s : SessionStore) (hostname ipPort : Bytes) (session : Session)
    (loop : Loop) : (s.store hostname ipPort session loop).contents ≠ s.contents := by
  intro heq
  obtain ⟨rest, hrest⟩ := s.store_contents hostname ipPort session loop
  have hmem : (⟨session, toKey hostname ipPort, s.timersCreated + 1, loop⟩ : SessionData) ∈
      s.booked.cache.values := by
    change _ ∈ s.contents
    rw [← heq, hrest]
    exact List.mem_cons_self
  exact absurd (s.created _ hmem) (Nat.not_succ_le_self _)

end SessionStore

/-- The provider in `processHandshake`. `isServer` is that of its context and `ipPort` the address
of the connection's peer. `calls` are those of the function so far. -/
structure Provider where
  policy : TLSPolicy
  isServer : Bool
  ipPort : Bytes
  loop : Loop
  sniName : Bytes
  applicationProtocol : Bytes
  peerCertificate : Option X509
  processedHandshakeError : Bool
  sessionManager : SessionStore
  calls : List Call

namespace Provider

def call (p : Provider) (c : Call) : Provider := { p with calls := p.calls ++ [c] }

def setSniName (p : Provider) (name : Bytes) : Provider := { p with sniName := name }

def setApplicationProtocol (p : Provider) (protocol : Bytes) : Provider :=
  { p with applicationProtocol := protocol }

def finishServer (p : Provider) (ssl : SSL) : Provider :=
  let p := ssl.servername.elim p p.setSniName
  ssl.alpnSelected.elim p p.setApplicationProtocol

def storeSession (p : Provider) (ssl : SSL) : Provider :=
  if ssl.resumable then
    if ssl.reused then p
    else
      { p with
        sessionManager := p.sessionManager.store p.sniName p.ipPort ssl.session p.loop }
  else p

/-- What a client does next. `false` when the server has chosen none of its protocols. -/
def finishClient (p : Provider) (ssl : SSL) : Bool × Provider :=
  let p := p.setSniName p.policy.hostname
  if p.policy.alpnProtocols.length > 0 then
    match ssl.alpnSelected with
    | none => (false, p.call (.handleSSLError .kSSLHandshakeError))
    | some alpn => (true, (p.setApplicationProtocol alpn).storeSession ssl)
  else (true, p.storeSession ssl)

def finish (p : Provider) (ssl : SSL) : Bool × Provider :=
  if p.isServer then (true, p.finishServer ssl) else p.finishClient ssl

def refuse (p : Provider) : Bool × Provider :=
  (false, (p.call .SSL_shutdown).call (.handleSSLError .kSSLInvalidCertificate))

def checkCertificate (p : Provider) (ssl : SSL) : Bool × Provider :=
  match ssl.peerCertificate with
  | some cert =>
      let p := { p with peerCertificate := some cert }
      if p.policy.validate && !validatePeerCertificate ssl.verifyResult cert p.policy.hostname
          p.policy.allowBrokenChain p.isServer then p.refuse
      else (true, p)
  | none => if p.policy.validate then p.refuse else (true, p)

/-- What follows when `SSL_do_handshake` has returned 1. -/
def complete (p : Provider) (ssl : SSL) : Bool × Provider :=
  let finished := p.finish ssl
  if finished.1 then
    let checked := finished.2.checkCertificate ssl
    if checked.1 then (true, (checked.2.call .handshakeCallback).call .sendTLSData)
    else checked
  else finished

def processHandshake (p : Provider) (ssl : SSL) : Bool × Provider :=
  let p := { p with calls := [] }
  match ssl.outcome with
  | .one => p.complete ssl
  | .wantRead => (false, p.call .sendTLSData)
  | .wantWrite => (false, p.call .sendTLSData)
  | .error =>
      if p.processedHandshakeError then (false, p)
      else
        let p := { p with processedHandshakeError := true }
        (false, (p.call .shutdown).call (.handleSSLError .kSSLHandshakeError))

section Client

variable (p : Provider) (ssl : SSL)

/-- The server has chosen none of the client's protocols. -/
def AlpnMissing : Prop := p.policy.alpnProtocols ≠ [] ∧ ssl.alpnSelected = none

def CertificateRefused : Prop :=
  p.policy.validate = true ∧ ∀ cert, ssl.peerCertificate = some cert →
    validatePeerCertificate ssl.verifyResult cert p.policy.hostname p.policy.allowBrokenChain
      p.isServer = false

def NewSession : Prop := ssl.resumable = true ∧ ssl.reused = false

instance : Decidable (NewSession ssl) := inferInstanceAs (Decidable (_ ∧ _))

instance : Decidable (p.AlpnMissing ssl) := inferInstanceAs (Decidable (_ ∧ _))

theorem checkCertificate_spec :
    (p.CertificateRefused ssl ∧ p.checkCertificate ssl =
      { p with peerCertificate := ssl.peerCertificate.or p.peerCertificate }.refuse) ∨
    (¬ p.CertificateRefused ssl ∧ p.checkCertificate ssl =
      (true, { p with peerCertificate := ssl.peerCertificate.or p.peerCertificate })) := by
  rw [checkCertificate, CertificateRefused]
  rcases hcert : ssl.peerCertificate with _ | cert
  · rcases hvalidate : p.policy.validate with _ | _
    · right
      simp
    · left
      simp
  · rcases hvalidate : p.policy.validate with _ | _
    · right
      simp [hvalidate]
    · rcases hvalid : validatePeerCertificate ssl.verifyResult cert p.policy.hostname
        p.policy.allowBrokenChain p.isServer with _ | _
      · left
        simp [hvalidate, hvalid]
      · right
        simp [hvalidate, hvalid]

theorem storeSession_eq : p.storeSession ssl =
    { p with
      sessionManager :=
        if NewSession ssl then p.sessionManager.store p.sniName p.ipPort ssl.session p.loop
        else p.sessionManager } := by
  rcases hresumable : ssl.resumable with _ | _
  · simp [storeSession, NewSession, hresumable]
  · rcases hreused : ssl.reused with _ | _
    · simp [storeSession, NewSession, hresumable, hreused]
    · simp [storeSession, NewSession, hresumable, hreused]

theorem finishClient_spec :
    (p.AlpnMissing ssl ∧ p.finishClient ssl =
      (false, (p.setSniName p.policy.hostname).call (.handleSSLError .kSSLHandshakeError))) ∨
    (¬ p.AlpnMissing ssl ∧ ∃ q, p.finishClient ssl = (true, q) ∧ ∃ protocol, q = { p with
      sniName := p.policy.hostname
      applicationProtocol := protocol
      sessionManager :=
        if NewSession ssl then
          p.sessionManager.store p.policy.hostname p.ipPort ssl.session p.loop
        else p.sessionManager }) := by
  rw [finishClient, AlpnMissing]
  rcases hprotocols : p.policy.alpnProtocols with _ | ⟨first, rest⟩
  · right
    refine ⟨fun h => h.1 rfl, (p.setSniName p.policy.hostname).storeSession ssl, ?_, ?_⟩
    · simp [setSniName, hprotocols]
    · exact ⟨p.applicationProtocol, storeSession_eq _ ssl⟩
  · rcases halpn : ssl.alpnSelected with _ | alpn
    · left
      simp [setSniName, hprotocols]
    · right
      refine ⟨by simp, ((p.setSniName p.policy.hostname).setApplicationProtocol alpn).storeSession
        ssl, ?_, alpn, storeSession_eq _ ssl⟩
      simp [setSniName, hprotocols, setApplicationProtocol]

theorem complete_client (hclient : p.isServer = false) :
    ((p.complete ssl).1 = true ↔ ¬ p.AlpnMissing ssl ∧ ¬ p.CertificateRefused ssl) ∧
    (.handshakeCallback ∈ (p.complete ssl).2.calls ↔
      .handshakeCallback ∈ p.calls ∨ (p.complete ssl).1 = true) ∧
    (p.complete ssl).2.sessionManager =
      if ¬ p.AlpnMissing ssl ∧ NewSession ssl then
        p.sessionManager.store p.policy.hostname p.ipPort ssl.session p.loop
      else p.sessionManager := by
  have hfinished : p.finish ssl = p.finishClient ssl := if_neg (Bool.not_eq_true _ ▸ hclient)
  simp only [complete, hfinished]
  rcases p.finishClient_spec ssl with
    ⟨halpn, hfinish⟩ | ⟨halpn, q, hfinish, protocol, hq⟩
  · rw [hfinish]
    simp [halpn, call, setSniName]
  · rw [hfinish]
    rcases q.checkCertificate_spec ssl with ⟨hcertificate, hcheck⟩ | ⟨hcertificate, hcheck⟩
    · have hrefused : p.CertificateRefused ssl := by
        rw [hq] at hcertificate
        exact hcertificate
      simp only [if_true, hcheck]
      subst hq
      simp [halpn, hrefused, refuse, call]
    · have hpassed : ¬ p.CertificateRefused ssl := by
        rw [hq] at hcertificate
        exact hcertificate
      simp only [if_true, hcheck]
      subst hq
      simp [halpn, hpassed, call]

theorem processHandshake_client (hclient : p.isServer = false) :
    ((p.processHandshake ssl).1 = true ↔
      ssl.outcome = .one ∧ ¬ p.AlpnMissing ssl ∧ ¬ p.CertificateRefused ssl) ∧
    (.handshakeCallback ∈ (p.processHandshake ssl).2.calls ↔ (p.processHandshake ssl).1 = true) ∧
    (p.processHandshake ssl).2.sessionManager =
      if ssl.outcome = .one ∧ ¬ p.AlpnMissing ssl ∧ NewSession ssl then
        p.sessionManager.store p.policy.hostname p.ipPort ssl.session p.loop
      else p.sessionManager := by
  rcases houtcome : ssl.outcome with _ | _ | _ | _
  · obtain ⟨hreturn, hcalls, hstore⟩ := complete_client { p with calls := [] } ssl hclient
    simp only [processHandshake, houtcome, true_and]
    refine ⟨hreturn, hcalls.trans ?_, hstore⟩
    simp
  · simp [processHandshake, houtcome, call]
  · simp [processHandshake, houtcome, call]
  · rcases herror : p.processedHandshakeError with _ | _
    · simp [processHandshake, houtcome, herror, call]
    · simp [processHandshake, houtcome, herror]

def Completes : Prop := .handshakeCallback ∈ (p.processHandshake ssl).2.calls

instance : Decidable (p.Completes ssl) := inferInstanceAs (Decidable (_ ∈ _))

theorem completes_iff (hclient : p.isServer = false) :
    p.Completes ssl ↔
      ssl.outcome = .one ∧ ¬ p.AlpnMissing ssl ∧ ¬ p.CertificateRefused ssl := by
  obtain ⟨hreturn, hcalls, -⟩ := p.processHandshake_client ssl hclient
  exact hcalls.trans hreturn

end Client

end Provider

section Refinement

open Cooper.OpenSSLProvider (HandshakeRest HandshakeResult OpenSSL handleSSLError produce
  sendTLSData)
open Cooper.TcpConnectionImpl (Kernel)

def Provider.result (p : Provider) (ssl : SSL) : HandshakeResult :=
  let p := { p with calls := [] }
  match ssl.outcome with
  | .one =>
      if (p.finish ssl).1 = false then .noApplicationProtocol
      else if ((p.finish ssl).2.checkCertificate ssl).1 = false then .invalidCertificate
      else .finished
  | .wantRead => .wantReadOrWrite
  | .wantWrite => .wantReadOrWrite
  | .error => .failed

variable {σ : Type*} (kernel : Kernel) (S : OpenSSL σ)

/-- The calls are made, up to the first that goes back into the connection. -/
def perform (p : Cooper.OpenSSLProvider.Provider σ) :
    List Call → HandshakeRest × Cooper.OpenSSLProvider.Provider σ
  | [] => (.done, p)
  | .handshakeCallback :: _ => (.handshakeCallback, p)
  | .shutdown :: _ => (.shutdown, p)
  | .sendTLSData :: calls => perform (sendTLSData kernel p) calls
  | .SSL_shutdown :: calls => perform (produce p (S.SSL_shutdown p.ssl)) calls
  | .handleSSLError _ :: calls => perform (handleSSLError kernel p) calls

def withError (p : Cooper.OpenSSLProvider.Provider σ) (processed : Bool) :
    Cooper.OpenSSLProvider.Provider σ :=
  { p with processedHandshakeError := processed }

theorem withError_self {p : Cooper.OpenSSLProvider.Provider σ} {processed : Bool}
    (h : p.processedHandshakeError = processed) : withError p processed = p := by
  subst h
  rfl

theorem Provider.finish_calls (p : Provider) (ssl : SSL) :
    (p.finish ssl).2.processedHandshakeError = p.processedHandshakeError ∧
      (p.finish ssl).2.calls = p.calls ++
        if (p.finish ssl).1 then [] else [.handleSSLError .kSSLHandshakeError] := by
  rcases hserver : p.isServer with _ | _
  · have hfinish : p.finish ssl = p.finishClient ssl := if_neg (Bool.not_eq_true _ ▸ hserver)
    rw [hfinish]
    rcases p.finishClient_spec ssl with ⟨-, hmissing⟩ | ⟨-, q, hchosen, protocol, rfl⟩
    · rw [hmissing]
      exact ⟨rfl, rfl⟩
    · rw [hchosen]
      exact ⟨rfl, (List.append_nil p.calls).symm⟩
  · have hfinish : p.finish ssl = (true, p.finishServer ssl) := if_pos hserver
    rw [hfinish, finishServer]
    rcases ssl.servername with _ | name
    · rcases ssl.alpnSelected with _ | alpn
      · exact ⟨rfl, (List.append_nil p.calls).symm⟩
      · exact ⟨rfl, (List.append_nil p.calls).symm⟩
    · rcases ssl.alpnSelected with _ | alpn
      · exact ⟨rfl, (List.append_nil p.calls).symm⟩
      · exact ⟨rfl, (List.append_nil p.calls).symm⟩

theorem Provider.checkCertificate_calls (p : Provider) (ssl : SSL) :
    (p.checkCertificate ssl).2.processedHandshakeError = p.processedHandshakeError ∧
      (p.checkCertificate ssl).2.calls = p.calls ++
        if (p.checkCertificate ssl).1 then []
        else [.SSL_shutdown, .handleSSLError .kSSLInvalidCertificate] := by
  rcases p.checkCertificate_spec ssl with ⟨-, hrefused⟩ | ⟨-, hpassed⟩
  · rw [hrefused]
    exact ⟨rfl, List.append_assoc p.calls [.SSL_shutdown] _⟩
  · rw [hpassed]
    exact ⟨rfl, (List.append_nil p.calls).symm⟩

theorem Provider.complete_calls (p : Provider) (ssl : SSL) :
    (p.complete ssl).2.processedHandshakeError = p.processedHandshakeError ∧
      (p.complete ssl).2.calls = p.calls ++
        if (p.finish ssl).1 = false then [.handleSSLError .kSSLHandshakeError]
        else if ((p.finish ssl).2.checkCertificate ssl).1 = false then
          [.SSL_shutdown, .handleSSLError .kSSLInvalidCertificate]
        else [.handshakeCallback, .sendTLSData] := by
  obtain ⟨hfinish, hcalls⟩ := p.finish_calls ssl
  obtain ⟨hcheck, hcalls'⟩ := (p.finish ssl).2.checkCertificate_calls ssl
  rw [complete]
  rcases hfinished : (p.finish ssl).1 with _ | _
  · simp only [hfinished, Bool.false_eq_true, if_false] at hcalls ⊢
    exact ⟨hfinish, hcalls⟩
  · rw [hfinished, if_pos rfl, List.append_nil] at hcalls
    rw [hcalls] at hcalls'
    rcases hchecked : ((p.finish ssl).2.checkCertificate ssl).1 with _ | _
    · simp only [hchecked, Bool.false_eq_true, if_false] at hcalls' ⊢
      exact ⟨hcheck.trans hfinish, hcalls'⟩
    · simp only [hchecked, if_true, List.append_nil] at hcalls' ⊢
      refine ⟨hcheck.trans hfinish, ?_⟩
      simp [call, hcalls']

theorem processHandshake_performs (p : Provider) (ssl : SSL)
    (q : Cooper.OpenSSLProvider.Provider σ)
    (hresult : (S.SSL_do_handshake q.ssl).1 = p.result ssl)
    (herror : q.processedHandshakeError = p.processedHandshakeError) :
    Cooper.OpenSSLProvider.processHandshake kernel S q =
      perform kernel S (withError (produce q (S.SSL_do_handshake q.ssl).2)
        (p.processHandshake ssl).2.processedHandshakeError) (p.processHandshake ssl).2.calls := by
  have hprocessed : (produce q (S.SSL_do_handshake q.ssl).2).processedHandshakeError =
      p.processedHandshakeError := herror
  have hkept := withError_self hprocessed
  rw [Cooper.OpenSSLProvider.processHandshake, hresult, Provider.result, Provider.processHandshake]
  rcases ssl.outcome with _ | _ | _ | _
  · obtain ⟨hsame, hcalls⟩ := Provider.complete_calls { p with calls := [] } ssl
    simp only [hsame, hcalls, hkept, List.nil_append]
    generalize Provider.finish { p with calls := [] } ssl = finished
    rcases finished.1 with _ | _
    · rfl
    · rcases (finished.2.checkCertificate ssl).1 with _ | _
      · rfl
      · rfl
  · simp only [Provider.call, hkept]
    rfl
  · simp only [Provider.call, hkept]
    rfl
  · simp only [hprocessed]
    split
    · simp only [hkept]
      rfl
    · rfl

end Refinement

section HostName

/-- The common name or one of the alternative names is accepted for the host. -/
def Names (cert : X509) (hostname : Bytes) : Prop :=
  (∃ name, cert.commonName = some name ∧ verifySslName name hostname = true) ∨
    ∃ altNames, cert.altNames = some altNames ∧
      ∃ name, .dns name ∈ altNames ∧ verifySslName name hostname = true

/-- The dates of the certificate are wrong, or the chain is and the policy does not let it pass. -/
def ChainRefused (result : Int) (allowBrokenChain : Bool) : Prop :=
  result = X509_V_ERR_CERT_NOT_YET_VALID ∨ result = X509_V_ERR_CERT_HAS_EXPIRED ∨
    result ≠ X509_V_OK ∧ allowBrokenChain = false

theorem altNamesLoop_eq_true_iff (hostname : Bytes) (altNames : List GeneralName) :
    altNamesLoop hostname altNames = true ↔
      ∃ name, .dns name ∈ altNames ∧ verifySslName name hostname = true := by
  induction altNames with
  | nil => simp [altNamesLoop]
  | cons first altNames ih =>
      cases first with
      | other => simp [altNamesLoop, ih]
      | dns name =>
          rw [altNamesLoop]
          split <;> rename_i hgood
          · exact iff_of_true rfl ⟨name, List.mem_cons_self, hgood⟩
          · rw [ih]
            constructor
            · rintro ⟨other, hmem, hother⟩
              exact ⟨other, List.mem_cons_of_mem _ hmem, hother⟩
            · rintro ⟨other, hmem, hother⟩
              rcases List.mem_cons.mp hmem with heq | hmem
              · obtain rfl := GeneralName.dns.inj heq
                exact absurd hother hgood
              · exact ⟨other, hmem, hother⟩

theorem validatePeerCertificate_eq_true_iff (result : Int) (cert : X509) (hostname : Bytes)
    (allowBrokenChain isServer : Bool) :
    validatePeerCertificate result cert hostname allowBrokenChain isServer = true ↔
      (isServer = true → verifyCommonName cert hostname = true ∨
        verifyAltName cert hostname = true) ∧ ¬ ChainRefused result allowBrokenChain := by
  rw [validatePeerCertificate, ChainRefused]
  split_ifs with hnames hdate hchain
  · simp_all
  · tauto
  · tauto
  · simp only [Bool.and_eq_true, Bool.not_eq_true', Bool.or_eq_false_iff] at hnames
    simp only [true_iff]
    refine ⟨fun hserver => ?_, by tauto⟩
    by_contra hnone
    simp_all

/-- A server, which is not the side that connects to a host name, does check the names. -/
theorem names_of_validatePeerCertificate {result : Int} {cert : X509} {hostname : Bytes}
    {allowBrokenChain : Bool}
    (hcommon : ∀ name, cert.commonName = some name → name.length < BUFSIZ)
    (h : validatePeerCertificate result cert hostname allowBrokenChain true = true) :
    Names cert hostname := by
  obtain ⟨hnames, -⟩ := (validatePeerCertificate_eq_true_iff _ _ _ _ _).mp h
  rcases hnames rfl with hname | hname
  · left
    rw [verifyCommonName] at hname
    split at hname
    · contradiction
    · rename_i name heq
      have hlength := hcommon name heq
      rw [List.take_of_length_le (Nat.le_sub_one_of_lt hlength)] at hname
      exact ⟨name, heq, hname⟩
  · right
    rw [verifyAltName] at hname
    split at hname
    · contradiction
    · rename_i altNames heq
      exact ⟨altNames, heq, (altNamesLoop_eq_true_iff hostname altNames).mp hname⟩

variable (p : Provider) (ssl : SSL)

/-- The handshake is completed only if the peer's certificate names the host. -/
def ChecksHostname : Prop :=
  p.Completes ssl → ∃ cert, ssl.peerCertificate = some cert ∧ Names cert p.policy.hostname

theorem certificateRefused_iff (hclient : p.isServer = false)
    (hvalidate : p.policy.validate = true) :
    p.CertificateRefused ssl ↔
      ssl.peerCertificate = none ∨ ChainRefused ssl.verifyResult p.policy.allowBrokenChain := by
  have hvalid : ∀ cert, validatePeerCertificate ssl.verifyResult cert p.policy.hostname
      p.policy.allowBrokenChain p.isServer = false ↔
        ChainRefused ssl.verifyResult p.policy.allowBrokenChain := by
    intro cert
    rw [← Bool.not_eq_true, validatePeerCertificate_eq_true_iff, hclient]
    simp
  simp only [Provider.CertificateRefused, hvalidate, hvalid, true_and]
  rcases ssl.peerCertificate with _ | cert
  · simp
  · simp

/-- A client that validates checks the host name exactly when the certificate names it anyway or the
handshake fails for another reason. -/
theorem checksHostname_iff (hclient : p.isServer = false) (hvalidate : p.policy.validate = true) :
    ChecksHostname p ssl ↔
      (∃ cert, ssl.peerCertificate = some cert ∧ Names cert p.policy.hostname) ∨
        ssl.outcome ≠ .one ∨ p.AlpnMissing ssl ∨ ssl.peerCertificate = none ∨
        ChainRefused ssl.verifyResult p.policy.allowBrokenChain := by
  rw [ChecksHostname, p.completes_iff ssl hclient, certificateRefused_iff p ssl hclient hvalidate]
  constructor
  · intro h
    by_contra hnone
    simp only [not_or, ne_eq, not_not] at hnone
    obtain ⟨hnames, hone, halpn, hcert, hchain⟩ := hnone
    exact hnames (h ⟨hone, halpn, not_or.mpr ⟨hcert, hchain⟩⟩)
  · rintro (hnames | hone | halpn | hrefused) ⟨hone', halpn', hpassed⟩
    · exact hnames
    · exact absurd hone' hone
    · exact absurd halpn halpn'
    · exact absurd hrefused hpassed

def client (hostname : Bytes) (allowBrokenChain : Bool) : Provider where
  policy := ⟨hostname, [], true, allowBrokenChain⟩
  isServer := false
  ipPort := ascii "1.2.3.4:443"
  loop := 0
  sniName := []
  applicationProtocol := []
  peerCertificate := none
  processedHandshakeError := false
  sessionManager := SessionStore.init
  calls := []

def shown (cert : Option X509) (verifyResult : Int) : SSL where
  outcome := .one
  servername := none
  alpnSelected := none
  session := 7
  resumable := true
  reused := false
  peerCertificate := cert
  verifyResult := verifyResult

def mallory : X509 := ⟨some (ascii "mallory.org"), some [.dns (ascii "*.mallory.org")]⟩

theorem not_checksHostname :
    ¬ ∀ p ssl, p.isServer = false → p.policy.validate = true → p.policy.hostname ≠ [] →
      ChecksHostname p ssl := by
  intro h
  obtain ⟨cert, hcert, hnames⟩ := h (client (ascii "cooper.org") false)
    (shown (some mallory) X509_V_OK) rfl rfl (by decide) (by decide)
  obtain rfl := Option.some.inj hcert
  rcases hnames with ⟨name, hname, hgood⟩ | ⟨altNames, hnames, name, hmem, hgood⟩
  · obtain rfl := Option.some.inj hname
    revert hgood
    decide
  · obtain rfl := Option.some.inj hnames
    obtain rfl := GeneralName.dns.inj (List.mem_singleton.mp hmem)
    revert hgood
    decide

theorem checksHostname_cooper :
    ChecksHostname (client (ascii "cooper.org") true)
      (shown (some ⟨some (ascii "*.org"), none⟩) X509_V_OK) :=
  (checksHostname_iff (client (ascii "cooper.org") true)
    (shown (some ⟨some (ascii "*.org"), none⟩) X509_V_OK) rfl rfl).mpr
      (Or.inl ⟨_, rfl, Or.inl ⟨ascii "*.org", rfl, by decide⟩⟩)

end HostName

section Sessions

variable (p : Provider) (ssl : SSL)

/-- A handshake that fails leaves the sessions as they are. -/
def KeepsSessions : Prop :=
  (p.processHandshake ssl).1 = false →
    (p.processHandshake ssl).2.sessionManager.contents = p.sessionManager.contents

/-- A client that fails keeps its sessions, unless it has a new session and fails for the
certificate. -/
theorem keepsSessions_iff (hclient : p.isServer = false) :
    KeepsSessions p ssl ↔
      ¬ (ssl.outcome = .one ∧ ¬ p.AlpnMissing ssl ∧ Provider.NewSession ssl ∧
        p.CertificateRefused ssl) := by
  obtain ⟨hreturn, -, hstore⟩ := p.processHandshake_client ssl hclient
  rw [KeepsSessions, ← Bool.not_eq_true, hreturn, hstore]
  constructor
  · rintro h ⟨hone, halpn, hnew, hrefused⟩
    have hsame := h fun hpassed => hpassed.2.2 hrefused
    rw [if_pos ⟨hone, halpn, hnew⟩] at hsame
    exact SessionStore.store_contents_ne _ _ _ _ _ hsame
  · intro h hfailed
    split <;> rename_i hstored
    · obtain ⟨hone, halpn, hnew⟩ := hstored
      refine absurd ⟨hone, halpn, ?_⟩ hfailed
      exact fun hrefused => h ⟨hone, halpn, hnew, hrefused⟩
    · rfl

theorem get_of_refused (hclient : p.isServer = false) (hone : ssl.outcome = .one)
    (halpn : ¬ p.AlpnMissing ssl) (hnew : Provider.NewSession ssl)
    (hrefused : p.CertificateRefused ssl) :
    (p.processHandshake ssl).1 = false ∧
      SessionManager.get (p.processHandshake ssl).2.sessionManager.manager p.policy.hostname
        p.ipPort = some (some ssl.session) := by
  obtain ⟨hreturn, -, hstore⟩ := p.processHandshake_client ssl hclient
  rw [hstore, if_pos ⟨hone, halpn, hnew⟩, SessionStore.get_store]
  refine ⟨?_, rfl⟩
  rw [← Bool.not_eq_true, hreturn]
  rintro ⟨-, -, hpassed⟩
  exact hpassed hrefused

theorem not_keepsSessions :
    ¬ ∀ p ssl, p.isServer = false → KeepsSessions p ssl := by
  intro h
  have hsame := h (client (ascii "cooper.org") false) (shown none X509_V_OK) rfl rfl
  revert hsame
  decide

theorem keepsSessions_resumed :
    KeepsSessions (client (ascii "cooper.org") false)
      { shown none X509_V_OK with reused := true } :=
  (keepsSessions_iff (client (ascii "cooper.org") false)
    { shown none X509_V_OK with reused := true } rfl).mpr (by simp [Provider.NewSession])

end Sessions

end Cooper.Handshake

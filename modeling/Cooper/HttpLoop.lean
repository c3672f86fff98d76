import Cooper.HttpReply

namespace Cooper.HttpLoop

open Cooper.HttpReply
open Cooper.HttpServer
open Cooper.MsgBuffer
open Cooper.TcpConnectionImpl

/-- The bits of `revents_` that have an effect on a connection. -/
structure Revents where
  POLLHUP : Bool
  POLLIN : Bool
  POLLPRI : Bool
  POLLRDHUP : Bool
  POLLOUT : Bool
  deriving DecidableEq

/-- `readCallback` with `recvMsgCallback` behind it. -/
def readEvent (env : Environment) (server : Server) (result : ReadResult)
    (input : List ReadResult) (s : HttpConnection) : CallbackResult :=
  match readCallback s.conn result with
  | (conn, true) => recvMsgCallback env server input { s with conn }
  | (conn, false) => .returned { s with conn }

/-- `Channel::handleEvent`. A first `readv()` answers `result`, and `input` is what the reads of a
multipart parser answer. The result is `none` when the loop does not go on. -/
def handleEvent (env : Environment) (server : Server) (revents : Revents) (result : ReadResult)
    (input : List ReadResult) (s : HttpConnection) : Option HttpConnection :=
  if s.conn.reading = false ∧ s.conn.writing = false then some s
  else
    let s := if revents.POLLHUP && !revents.POLLIN then { s with conn := handleClose s.conn } else s
    let afterRead :=
      if revents.POLLIN || revents.POLLPRI || revents.POLLRDHUP then
        readEvent env server result input s
      else .returned s
    match afterRead with
    | .returned s =>
        if revents.POLLOUT then
          (writeCallback env.kernel [] s.conn).map fun conn => { s with conn }
        else some s
    | .spinning => none
    | .threw _ => none

/-- What happens to a connection: an event, a `forceClose` by the idle kick-off or by
`TcpServer::stop`, or the functor that `handleCloseInLoop` queues. -/
inductive ConnStep
  | event (revents : Revents) (result : ReadResult) (input : List ReadResult)
  | forceClose
  | connectDestroyed
  deriving DecidableEq

def step (env : Environment) (server : Server) (s : HttpConnection) :
    ConnStep → Option HttpConnection
  | .event revents result input => handleEvent env server revents result input s
  | .forceClose => some { s with conn := forceClose s.conn }
  | .connectDestroyed => some { s with conn := connectDestroyed s.conn }

def accepted : HttpConnection where
  conn := established none
  keepAliveRequest := none
  events := []

def pollIn : Revents where
  POLLHUP := false
  POLLIN := true
  POLLPRI := false
  POLLRDHUP := false
  POLLOUT := false

def deliver (env : Environment) (server : Server) (input : List ReadResult) (s : HttpConnection)
    (chunks : List Bytes) : Option HttpConnection :=
  chunks.foldlM (fun s chunk => handleEvent env server pollIn (.ok chunk) input s) s

def stepIn (server : Server) (s : HttpConnection) (t : Environment × ConnStep) :
    Option HttpConnection :=
  step t.1 server s t.2

def hangUp (revents : Revents) (s : HttpConnection) : HttpConnection :=
  if revents.POLLHUP && !revents.POLLIN then { s with conn := handleClose s.conn } else s

/-- The connection on which an event invokes `recvMsgCallback`, when it does. -/
def callbackEntry (revents : Revents) (result : ReadResult) (s : HttpConnection) :
    Option HttpConnection :=
  if s.conn.reading = false ∧ s.conn.writing = false then none
  else if revents.POLLIN || revents.POLLPRI || revents.POLLRDHUP then
    match readCallback (hangUp revents s).conn result with
    | (conn, true) => some { hangUp revents s with conn }
    | (_, false) => none
  else none

variable {env : Environment} {server : Server} {input : List ReadResult} {s : HttpConnection}

def readPart (env : Environment) (server : Server) (revents : Revents) (result : ReadResult)
    (input : List ReadResult) (s : HttpConnection) : CallbackResult :=
  if revents.POLLIN || revents.POLLPRI || revents.POLLRDHUP then
    readEvent env server result input (hangUp revents s)
  else .returned (hangUp revents s)

theorem handleEvent_cases {revents : Revents} {result : ReadResult} {s' : HttpConnection}
    (hevent : handleEvent env server revents result input s = some s') :
    (s.conn.reading = false ∧ s.conn.writing = false) ∧ s' = s ∨
      ¬(s.conn.reading = false ∧ s.conn.writing = false) ∧
        ∃ read, readPart env server revents result input s = .returned read ∧
          (s' = read ∨ ∃ conn, writeCallback env.kernel [] read.conn = some conn ∧
            s' = { read with conn }) := by
  rw [handleEvent] at hevent
  split at hevent
  · rename_i hdead
    exact .inl ⟨hdead, (Option.some.inj hevent).symm⟩
  · rename_i hlive
    rw [← hangUp] at hevent
    simp only at hevent
    rw [← readPart] at hevent
    rcases hread : readPart env server revents result input s with read | _ | e
    · rw [hread] at hevent
      refine .inr ⟨hlive, read, rfl, ?_⟩
      simp only at hevent
      split at hevent
      · obtain ⟨conn, hconn, hs'⟩ := Option.map_eq_some_iff.mp hevent
        exact .inr ⟨conn, hconn, hs'.symm⟩
      · exact .inl (Option.some.inj hevent).symm
    · simp [hread] at hevent
    · simp [hread] at hevent

theorem readPart_of_entry {revents : Revents} {result : ReadResult} {entry : HttpConnection}
    (hentry : callbackEntry revents result s = some entry) :
    readPart env server revents result input s = recvMsgCallback env server input entry := by
  rw [callbackEntry] at hentry
  split at hentry
  · simp at hentry
  · split at hentry
    · rename_i hreads
      rw [readPart, if_pos hreads, readEvent]
      rcases hcallback : readCallback (hangUp revents s).conn result with ⟨conn, _ | _⟩
      · simp [hcallback] at hentry
      · simp only [hcallback, Option.some.injEq] at hentry
        rw [← hentry]
    · simp at hentry

def received (s : HttpConnection) (chunk : Bytes) : HttpConnection :=
  { s with conn := { s.conn with
    readBuffer := s.conn.readBuffer ++ chunk
    bytesReceived := s.conn.bytesReceived + chunk.length } }

theorem handleEvent_pollIn (hreading : s.conn.reading = true) {chunk : Bytes}
    (hchunk : chunk ≠ []) :
    handleEvent env server pollIn (.ok chunk) input s =
      match recvMsgCallback env server input (received s chunk) with
      | .returned s => some s
      | .spinning => none
      | .threw _ => none := by
  have hread : readCallback s.conn (.ok chunk) = ((received s chunk).conn, true) := by
    obtain ⟨c, rest, rfl⟩ := List.exists_cons_of_ne_nil hchunk
    rfl
  rw [handleEvent, if_neg (by simp [hreading])]
  simp only [pollIn, Bool.and_false, Bool.false_eq_true, if_false, if_true, Bool.or_false,
    Bool.not_true, readEvent, hread]
  rfl

theorem deliver_closed (hreading : s.conn.reading = false) (hwriting : s.conn.writing = false)
    (chunks : List Bytes) : deliver env server input s chunks = some s := by
  induction chunks with
  | nil => rfl
  | cons chunk chunks ih =>
      rw [deliver, List.foldlM_cons, handleEvent, if_pos ⟨hreading, hwriting⟩]
      exact ih

end Cooper.HttpLoop

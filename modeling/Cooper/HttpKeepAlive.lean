import Cooper.HttpDelivery
import Mathlib.Logic.Function.Basic

namespace Cooper.HttpKeepAlive

open Cooper.Http
open Cooper.HttpDelivery
open Cooper.HttpLoop
open Cooper.HttpReply
open Cooper.HttpSegmentation
open Cooper.HttpServer
open Cooper.HttpServing
open Cooper.MsgBuffer
open Cooper.StepRun
open Cooper.TcpConnectionImpl

/-- No key of `keepAliveRequests` is a closed connection, as far as this connection goes. -/
def Released (s : HttpConnection) : Prop :=
  s.keepAliveRequest ≠ none → s.conn.status ≠ .Disconnected

/-- The read meets the end of file or an error that the code does not excuse. -/
def ReadCloses (result : ReadResult) : Prop :=
  result = .ok [] ∨ ∃ e, result = .error e ∧ e ≠ .EPIPE ∧ e ≠ .ECONNRESET ∧ e ≠ .EAGAIN

def ClosedByPeer (revents : Revents) (result : ReadResult) : Prop :=
  (revents.POLLHUP && !revents.POLLIN) = true ∨
    (revents.POLLIN || revents.POLLPRI || revents.POLLRDHUP) = true ∧ ReadCloses result

/-- A step that leaves no entry behind: what closes the connection finds no entry, and a request
that is read after the peer has hung up is not followed by another. -/
def Releases (env : Environment) (server : Server) (s : HttpConnection) : ConnStep → Prop
  | .event revents result input =>
      match callbackEntry revents result s with
      | none =>
          s.conn.reading = true ∨ s.conn.writing = true → ClosedByPeer revents result →
            s.keepAliveRequest = none
      | some entry =>
          entry.conn.status = .Disconnected → ∀ answer,
            answerTo env server input entry = some answer →
              ¬StaysOpen answer.response answer.entry
  | .forceClose | .connectDestroyed => s.conn.status = .Connected → s.keepAliveRequest = none

section Connection

variable {env : Environment} {server : Server} {input : List ReadResult} {s s' : HttpConnection}

theorem countRequest_released_iff (response : HttpResponse) (s : HttpConnection) :
    Released (countRequest response s) ↔
      (s.conn.status = .Disconnected → ¬StaysOpen response (keepAliveEntry s)) := by
  rw [countRequest_eq]
  by_cases hopen : StaysOpen response (keepAliveEntry s)
  · simp [hopen, Released]
  · simp [hopen, Released, closeAndErase]

theorem recvMsgCallback_released_iff
    (hreturn : recvMsgCallback env server input s = .returned s') :
    Released s' ↔ (s.conn.status = .Disconnected → ∀ answer,
      answerTo env server input s = some answer → ¬StaysOpen answer.response answer.entry) := by
  rcases hparsed : parseRequest s.conn.readBuffer with e | ⟨_ | _, request⟩
  · simp [recvMsgCallback, hparsed] at hreturn
  · have hnot : ¬StaysOpen { HttpResponse.init with statusCode := CODE_400 } (keepAliveEntry s) :=
      fun hopen => absurd hopen.1 (by decide)
    simp only [recvMsgCallback, hparsed, CallbackResult.returned.injEq] at hreturn
    rw [← hreturn]
    refine iff_of_true (fun hentry => absurd rfl hentry) fun _ answer hanswer => ?_
    simp only [answerTo, hparsed, Option.some.injEq] at hanswer
    rw [← hanswer]
    exact hnot
  · obtain ⟨reply, hreply, rfl⟩ := exists_reply_of_returned hparsed hreturn
    simp only [answerTo, hparsed, hreply, Option.map_some, Option.some.injEq, forall_eq']
    have hsent := (sendResponse_untouched env server reply.response reply.contentWriter
      (reply.prepare (opened server request s).2)).status
    have hopened := opened_conn server request s
    have hconn : (reply.send env server (opened server request s).2).2.conn.status =
        s.conn.status := by
      refine hsent.trans ?_
      simp only [Reply.prepare, setReadBuffer, hopened]
    have hcount := countRequest_released_iff reply.response
      (reply.send env server (opened server request s).2).2
    rw [hconn] at hcount
    exact hcount

theorem hangUp_status (revents : Revents) (s : HttpConnection) :
    (hangUp revents s).conn.status =
      if revents.POLLHUP && !revents.POLLIN then .Disconnected else s.conn.status := by
  rw [hangUp]
  split <;> rfl

theorem readCallback_cases {c c' : Connection} {result : ReadResult}
    (hread : readCallback c result = (c', false)) :
    ReadCloses result ∧ c'.status = .Disconnected ∨ ¬ReadCloses result ∧ c' = c := by
  rcases result with e | _ | ⟨byte, chunk⟩
  · rw [readCallback] at hread
    split at hread
    · rename_i hsoft
      refine .inr ⟨?_, (Prod.mk.inj hread).1.symm⟩
      rintro (hnil | ⟨e', he, hpipe, hreset, hagain⟩)
      · simp at hnil
      · obtain rfl := Except.error.inj he
        rcases hsoft with rfl | rfl | rfl
        · exact hpipe rfl
        · exact hreset rfl
        · exact hagain rfl
    · rename_i hhard
      refine .inl ⟨.inr ⟨e, rfl, ?_⟩, (Prod.mk.inj hread).1 ▸ rfl⟩
      simpa [not_or] using hhard
  · exact .inl ⟨.inl rfl, (Prod.mk.inj hread).1 ▸ rfl⟩
  · simp [readCallback] at hread

theorem readPart_of_no_entry {revents : Revents} {result : ReadResult}
    (hlive : ¬(s.conn.reading = false ∧ s.conn.writing = false))
    (hentry : callbackEntry revents result s = none)
    (hread : readPart env server revents result input s = .returned s') :
    s'.keepAliveRequest = s.keepAliveRequest ∧
      (ClosedByPeer revents result → s'.conn.status = .Disconnected) ∧
      (¬ClosedByPeer revents result → s'.conn.status = s.conn.status) := by
  have hkeep : (hangUp revents s).keepAliveRequest = s.keepAliveRequest := by
    rw [hangUp]
    split <;> rfl
  have hstatus := hangUp_status revents s
  rw [callbackEntry, if_neg hlive] at hentry
  rw [readPart] at hread
  by_cases hreads : (revents.POLLIN || revents.POLLPRI || revents.POLLRDHUP) = true
  · rw [if_pos hreads] at hread hentry
    rw [readEvent] at hread
    rcases hcallback : readCallback (hangUp revents s).conn result with ⟨conn, _ | _⟩
    · simp only [hcallback, CallbackResult.returned.injEq] at hread
      rw [← hread]
      rcases readCallback_cases hcallback with ⟨hcloses, hclosed⟩ | ⟨hopen, rfl⟩
      · exact ⟨hkeep, fun _ => hclosed, fun hpeer => absurd (.inr ⟨hreads, hcloses⟩) hpeer⟩
      · refine ⟨hkeep, fun hpeer => ?_, fun hpeer => ?_⟩
        · rcases hpeer with hhup | ⟨-, hcloses⟩
          · exact hstatus.trans (if_pos hhup)
          · exact absurd hcloses hopen
        · exact hstatus.trans (if_neg fun hhup => hpeer (.inl hhup))
    · simp [hcallback] at hentry
  · rw [if_neg hreads] at hread
    obtain rfl := CallbackResult.returned.inj hread
    refine ⟨hkeep, fun hpeer => ?_, fun hpeer => ?_⟩
    · rcases hpeer with hhup | ⟨hpeer, -⟩
      · exact hstatus.trans (if_pos hhup)
      · exact absurd hpeer hreads
    · exact hstatus.trans (if_neg fun hhup => hpeer (.inl hhup))

theorem closed_released_iff (hr : Released s) (hkeep : s'.keepAliveRequest = s.keepAliveRequest)
    (hclosed : s.conn.status = .Connected → s'.conn.status = .Disconnected)
    (hsame : s.conn.status ≠ .Connected → s'.conn.status = s.conn.status) :
    Released s' ↔ (s.conn.status = .Connected → s.keepAliveRequest = none) := by
  by_cases hconnected : s.conn.status = .Connected
  · simp [Released, hkeep, hclosed hconnected, hconnected]
  · refine iff_of_true ?_ fun hconnected' => absurd hconnected' hconnected
    rw [Released, hkeep, hsame hconnected]
    exact hr

theorem step_released_iff {t : ConnStep} (hs : Serving s.conn) (hr : Released s)
    (hstep : step env server s t = some s') : Released s' ↔ Releases env server s t := by
  cases t with
  | event revents result input =>
      rcases handleEvent_cases hstep with ⟨hdead, rfl⟩ | ⟨hlive, read, hread, hwrite⟩
      · refine iff_of_true hr ?_
        simp [Releases, callbackEntry, hdead.1, hdead.2]
      · have hwritten : Released s' ↔ Released read := by
          rcases hwrite with rfl | ⟨conn, hwritten, rfl⟩
          · exact Iff.rfl
          · have hstatus := (writeCallback_serving (readPart_serving hs hread) hwritten).2
            simp only [Released, hstatus]
        rw [hwritten]
        cases hentry : callbackEntry revents result s with
        | some entry =>
            rw [readPart_of_entry hentry] at hread
            simp only [Releases, hentry]
            exact recvMsgCallback_released_iff hread
        | none =>
            have hlives : s.conn.reading = true ∨ s.conn.writing = true := by
              simpa [or_iff_not_imp_left] using hlive
            obtain ⟨hkeep, hclosed, hopen⟩ := readPart_of_no_entry hlive hentry hread
            simp only [Releases, hentry]
            by_cases hpeer : ClosedByPeer revents result
            · simp [Released, hkeep, hclosed hpeer, hpeer, hlives]
            · refine iff_of_true ?_ fun _ hpeer' => absurd hpeer' hpeer
              rw [Released, hkeep, hopen hpeer]
              exact hr
  | forceClose =>
      obtain rfl := Option.some.inj hstep
      refine closed_released_iff hr rfl (fun hconnected => ?_) fun hnot => ?_
      · rw [forceClose, if_pos (.inl hconnected)]
        rfl
      · rcases hs.status with hconnected | hclosed
        · exact absurd hconnected hnot
        · simp [forceClose, hclosed]
  | connectDestroyed =>
      obtain rfl := Option.some.inj hstep
      refine closed_released_iff hr rfl (fun hconnected => ?_) fun hnot => ?_
      · rw [connectDestroyed, if_pos hconnected]
        rfl
      · simp [connectDestroyed, hnot]

end Connection

section Loop

variable {ι : Type*}

abbrev IoLoop (ι : Type*) := ι → Option HttpConnection

inductive LoopStep (ι : Type*)
  | accept (id : ι)
  | conn (id : ι) (env : Environment) (t : ConnStep)

def loopStep [DecidableEq ι] (server : Server) (loop : IoLoop ι) :
    LoopStep ι → Option (IoLoop ι)
  | .accept id =>
      match loop id with
      | none => some (Function.update loop id (some accepted))
      | some _ => none
  | .conn id env t =>
      match loop id with
      | none => none
      | some s => (step env server s t).map fun s' => Function.update loop id (some s')

/-- Every key of `keepAliveRequests` is a connection that is not closed. -/
def NoneRetained (loop : IoLoop ι) : Prop := ∀ id s, loop id = some s → Released s

def LoopReleases (server : Server) (loop : IoLoop ι) : LoopStep ι → Prop
  | .accept _ => True
  | .conn id env t => ∀ s, loop id = some s → Releases env server s t

theorem loopStep_forall [DecidableEq ι] {server : Server} {P : HttpConnection → Prop}
    {loop loop' : IoLoop ι} {t : LoopStep ι} (hloop : ∀ id s, loop id = some s → P s)
    (haccepted : P accepted)
    (hconn : ∀ id env u s s', t = .conn id env u → loop id = some s → P s →
      step env server s u = some s' → P s')
    (hstep : loopStep server loop t = some loop') : ∀ id s, loop' id = some s → P s := by
  have hupdate : ∀ id new, P new →
      ∀ other s, Function.update loop id (some new) other = some s → P s := by
    intro id new hnew other s hs
    rcases eq_or_ne other id with rfl | hother
    · rw [Function.update_self] at hs
      exact Option.some.inj hs ▸ hnew
    · rw [Function.update_of_ne hother] at hs
      exact hloop other s hs
  cases t with
  | accept id =>
      rw [loopStep] at hstep
      split at hstep
      · obtain rfl := Option.some.inj hstep
        exact hupdate id accepted haccepted
      · simp at hstep
  | conn id env u =>
      rw [loopStep] at hstep
      split at hstep
      · simp at hstep
      · rename_i s hs
        obtain ⟨s', hs', rfl⟩ := Option.map_eq_some_iff.mp hstep
        exact hupdate id s' (hconn id env u s s' rfl hs (hloop id s hs) hs')

/-- In every run of a loop whose steps release what they close, no closed connection is retained. -/
theorem noneRetained_of_releases [DecidableEq ι] (server : Server) (steps : List (LoopStep ι))
    (hall : AllSteps (loopStep server) (LoopReleases server) (fun _ => none) steps)
    {loop : IoLoop ι} (hrun : runSteps (loopStep server) (fun _ => none) steps = some loop) :
    NoneRetained loop := by
  have hinv : ∀ id s, loop id = some s → Serving s.conn ∧ Released s := by
    refine hall.invariant (fun loop => ∀ id s, loop id = some s → Serving s.conn ∧ Released s)
      ?_ (by simp) hrun
    intro loop t loop' hloop hreleases hstep
    refine loopStep_forall hloop ⟨accepted_serving, fun hentry => absurd rfl hentry⟩ ?_ hstep
    rintro id env u s s' rfl hs ⟨hserving, hreleased⟩ hs'
    exact ⟨step_serving s u s' hserving hs',
      (step_released_iff hserving hreleased hs').mpr (hreleases s hs)⟩
  exact fun id s hs => (hinv id s hs).2

def helloSteps : List (LoopStep Nat) :=
  [.accept 0,
    .conn 0 plainEnvironment (.event pollIn (.ok (ascii "GET /hello HTTP/1.1\r\n\r\n")) []),
    .accept 1,
    .conn 1 plainEnvironment (.event pollIn
      (.ok (ascii "GET /hello HTTP/1.1\r\nConnection: close\r\n\r\n")) []),
    .accept 2,
    .conn 2 plainEnvironment (.event pollIn (.ok []) [])]

theorem noneRetained_helloSteps :
    ∃ loop, runSteps (loopStep helloServer) (fun _ => none) helloSteps = some loop ∧
      NoneRetained loop ∧
      [0, 1, 2].map (fun id => (loop id).map fun s => s.conn.status) =
        [some .Connected, some .Disconnected, some .Disconnected] := by
  refine ⟨_, rfl, noneRetained_of_releases helloServer helloSteps ?_ rfl, rfl⟩
  have hreads : ∀ (loop : IoLoop Nat) id request, loop id = some accepted → request ≠ [] →
      LoopReleases helloServer loop
        (.conn id plainEnvironment (.event pollIn (.ok request) [])) := by
    rintro loop id (_ | ⟨byte, chunk⟩) hloop hrequest s hs
    · exact absurd rfl hrequest
    · obtain rfl := Option.some.inj (hloop.symm.trans hs)
      exact fun hclosed => ConnStatus.noConfusion hclosed
  have hleaves : ∀ (loop : IoLoop Nat) id, loop id = some accepted →
      LoopReleases helloServer loop
        (.conn id plainEnvironment (.event pollIn (.ok []) [])) := by
    intro loop id hloop s hs
    obtain rfl := Option.some.inj (hloop.symm.trans hs)
    exact fun _ _ => rfl
  refine (allSteps_cons_of_some rfl).mpr ⟨trivial, ?_⟩
  refine (allSteps_cons_of_some rfl).mpr ⟨hreads _ 0 _ rfl (by decide), ?_⟩
  refine (allSteps_cons_of_some rfl).mpr ⟨trivial, ?_⟩
  refine (allSteps_cons_of_some rfl).mpr ⟨hreads _ 1 _ rfl (by decide), ?_⟩
  refine (allSteps_cons_of_some rfl).mpr ⟨trivial, ?_⟩
  exact (allSteps_cons_of_some rfl).mpr ⟨hleaves _ 2 rfl, trivial⟩

def closingSteps : List (LoopStep Nat) :=
  helloSteps ++ [.conn 0 plainEnvironment (.event pollIn (.ok []) [])]

theorem retained_closingSteps :
    ∃ loop, runSteps (loopStep helloServer) (fun _ => none) closingSteps = some loop ∧
      ¬NoneRetained loop := by
  refine ⟨_, rfl, fun hnone => ?_⟩
  exact absurd (hnone 0 _ rfl) (by unfold Released; decide)

end Loop

end Cooper.HttpKeepAlive

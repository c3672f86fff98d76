import Cooper.Connector

namespace Cooper.TcpClient

open Cooper.StepRun
open Cooper.Connector (Fd Errno Revents Handler)

section Model

/-- A client, and what its attempts have come to. -/
structure Client where
  connector : Connector.State
  connection : Option Fd
  retry : Bool
  connect : Bool
  pending : Bool
  written : Bool
  deriving DecidableEq

def Client.init : Client where
  connector := .init false false
  connection := none
  retry := false
  connect := true
  pending := false
  written := false

inductive Action
  | connect (savedErrno : Errno)
  | disconnect
  | enableRetry
  | event (revents : Revents)
  | handler (err : Nat) (selfConnect : Bool)
  | removeConnection
  deriving DecidableEq

def newConnection (s : Client) (sockfd : Fd) : Client := { s with connection := some sockfd }

def removeConnection (s : Client) : Client :=
  let s := { s with connection := none }
  if s.retry && s.connect then { s with connector := Connector.restart s.connector } else s

/-- `connect` sets the callbacks first. `disconnect` shuts a connection down, whose end is a
`removeConnection` to come. -/
def step (s : Client) : Action → Option Client
  | .connect savedErrno =>
      let connector := { s.connector with errorCallback := true }
      (Connector.step connector (.start savedErrno)).map fun connector =>
        { s with connector, connect := true, pending := savedErrno.progresses }
  | .disconnect => some { s with connect := false }
  | .enableRetry => some { s with retry := true }
  | .event revents =>
      (Connector.step s.connector (.event revents)).map fun connector => { s with connector }
  | .handler err selfConnect =>
      (Connector.step s.connector (.handler err selfConnect)).map fun connector =>
        let written := s.pending && s.connector.dispatch.head? == some .handleWrite
        let s' := { s with connector, pending := false, written := s.written || written }
        (connector.handed.drop s.connector.handed.length).foldl newConnection s'
  | .removeConnection => if s.connection = none then none else some (removeConnection s)

/-- `connect` is called while no attempt is pending and no connection is open. -/
def Allowed (s : Client) : Action → Prop
  | .connect _ => s.pending = false ∧ s.connection = none
  | _ => True

/-- The assertions that `connect` comes to, in `startInLoop` and in `connecting`. -/
def Asserted (s : Client) : Action → Prop
  | .connect savedErrno =>
      s.connector.status = .Disconnected ∧
        (savedErrno.progresses = true → s.connector.channel = none)
  | _ => True

end Model

section Kept

variable {s s' : Client} {t : Action}

structure Kept (s : Client) : Prop where
  retry : s.connector.retry = false
  dispatched : Connector.Dispatched s.connector
  pending : s.pending = true →
    s.written = false ∧ s.connector.status = .Connecting ∧ s.connector.channel ≠ none
  idle : s.pending = false →
    s.connector.channel = none ∧ (s.connector.status = .Disconnected ↔ s.written = false)

theorem newConnections_eq (fds : List Fd) (s : Client) :
    ∃ connection, fds.foldl newConnection s = { s with connection } := by
  induction fds generalizing s with
  | nil => exact ⟨s.connection, rfl⟩
  | cons fd fds ih => exact ih (newConnection s fd)

theorem kept_of_attempt {e : Errno} {connector : Connector.State} (hs : Kept s)
    (hstatus : s.connector.status = .Disconnected)
    (h : Connector.Attempt { s.connector with errorCallback := true, connect := true } e connector)
    (hdispatched : Connector.Dispatched connector) :
    Kept { s with connector, connect := true, pending := e.progresses } := by
  have hpending : s.pending = false := by
    by_contra hne
    have hconnecting := (hs.pending (Bool.not_eq_false _ ▸ hne)).2.1
    exact nomatch hconnecting.symm.trans hstatus
  obtain ⟨hchannel, hiff⟩ := hs.idle hpending
  have hwritten := hiff.mp hstatus
  cases h with
  | connecting hprogresses =>
      refine ⟨hs.retry, hdispatched, fun _ => ⟨hwritten, rfl, Option.some_ne_none _⟩, ?_⟩
      rw [hprogresses]
      exact nofun
  | retried _ hretry => exact absurd (hs.retry.symm.trans hretry) (by decide)
  | abandoned hrefused =>
      have hprogresses : e.progresses = false := by
        cases e <;> first | rfl | contradiction
      refine ⟨hs.retry, hdispatched, ?_, fun _ => ⟨hchannel, iff_of_true hstatus hwritten⟩⟩
      rw [hprogresses]
      exact nofun
  | failed hprogresses =>
      refine ⟨hs.retry, hdispatched, ?_, fun _ => ⟨hchannel, iff_of_true hstatus hwritten⟩⟩
      rw [hprogresses]
      exact nofun

theorem pending_iff_of_handler (hs : Kept s) (hdispatch : s.connector.dispatch ≠ []) :
    s.pending = true ↔ s.connector.status = .Connecting := by
  constructor
  · exact fun hpending => (hs.pending hpending).2.1
  · intro hstatus
    by_contra hpending
    exact hs.dispatched.channel hstatus hdispatch (hs.idle (Bool.not_eq_true _ ▸ hpending)).1

theorem kept_of_ended {handler : Handler} {connector : Connector.State} {connection : Option Fd}
    (hs : Kept s) (hpending : s.pending = true) (hhead : s.connector.dispatch.head? = some handler)
    (hdispatched : Connector.Dispatched connector) (hretry : connector.retry = s.connector.retry)
    (hchannel : connector.channel = none)
    (hstatus : connector.status = .Disconnected ↔ handler = .handleError) :
    Kept { s with
      connector
      connection
      pending := false
      written := s.written ||
        (s.pending && s.connector.dispatch.head? == some .handleWrite) } := by
  refine ⟨hretry.trans hs.retry, hdispatched, nofun, fun _ => ⟨hchannel, hstatus.trans ?_⟩⟩
  rw [(hs.pending hpending).1, hpending, hhead]
  cases handler with
  | handleError => exact iff_of_true rfl rfl
  | handleWrite => exact iff_of_false nofun nofun

theorem kept_of_handler {err : Nat} {selfConnect : Bool} {connector : Connector.State}
    (hs : Kept s) (h : Connector.step s.connector (.handler err selfConnect) = some connector)
    (connection : Option Fd) :
    Kept { s with
      connector
      connection
      pending := false
      written := s.written ||
        (s.pending && s.connector.dispatch.head? == some .handleWrite) } := by
  have hdispatched := Connector.step_dispatched hs.dispatched h
  have hwrite (hstatus : s.connector.status = .Connecting) (hdispatch : s.connector.dispatch ≠ [])
      (hfails : ¬ Connector.Fails s.connector (.handler err selfConnect)) :
      s.connector.dispatch.head? = some .handleWrite := by
    cases hhandlers : s.connector.dispatch with
    | nil => exact absurd hhandlers hdispatch
    | cons handler rest =>
        cases handler with
        | handleWrite => rfl
        | handleError => exact absurd ⟨hstatus, .inl (by rw [hhandlers]; rfl)⟩ hfails
  cases Connector.move_of_step h with
  | attempt hstarts => exact nomatch hstarts
  | idle hstatus =>
      have hpending : s.pending = false := by
        by_contra hne
        exact hstatus (hs.pending (Bool.not_eq_false _ ▸ hne)).2.1
      obtain ⟨hchannel, hiff⟩ := hs.idle hpending
      refine ⟨hs.retry, hdispatched, nofun, fun _ => ⟨hchannel, hiff.trans ?_⟩⟩
      simp [hpending]
  | handed hstatus hdispatch hfails | dropped hstatus hdispatch hfails =>
      apply kept_of_ended hs ((pending_iff_of_handler hs hdispatch).mpr hstatus)
        (hwrite hstatus hdispatch hfails) hdispatched rfl rfl
      exact iff_of_false nofun nofun
  | failed hfails hdispatch hstatus =>
      have hne : s.connector.dispatch ≠ [] := by simp [hdispatch]
      apply kept_of_ended hs ((pending_iff_of_handler hs hne).mpr hfails.1)
        (by rw [hdispatch]; rfl) hdispatched rfl rfl
      simp only [hs.retry, Bool.false_eq_true, or_false] at hstatus
      constructor
      · intro hdisconnected
        by_contra hhandler
        rw [if_neg hhandler] at hstatus
        exact nomatch hstatus.symm.trans hdisconnected
      · intro hhandler
        exact hstatus.trans (if_pos hhandler)
  | stop heffect => exact heffect.elim
  | plain _ _ _ hhandler => exact absurd rfl (hhandler err selfConnect)

theorem step_kept (hs : Kept s) (h : step s t = some s') : Kept s' := by
  cases t with
  | connect savedErrno =>
      obtain ⟨connector, hconnector, rfl⟩ := Option.map_eq_some_iff.mp h
      obtain ⟨hstatus, hattempt⟩ := Connector.attempt_of_start hconnector
      have hdispatched : Connector.Dispatched { s.connector with errorCallback := true } :=
        ⟨hs.dispatched.channel, hs.dispatched.order⟩
      exact kept_of_attempt hs hstatus hattempt
        (Connector.step_dispatched hdispatched hconnector)
  | disconnect | enableRetry =>
      obtain rfl := Option.some.inj h
      exact ⟨hs.retry, hs.dispatched, hs.pending, hs.idle⟩
  | event revents =>
      obtain ⟨connector, hconnector, rfl⟩ := Option.map_eq_some_iff.mp h
      have hdispatched := Connector.step_dispatched hs.dispatched hconnector
      obtain rfl := Connector.step_event hconnector
      exact ⟨hs.retry, hdispatched, hs.pending, hs.idle⟩
  | handler err selfConnect =>
      obtain ⟨connector, hconnector, rfl⟩ := Option.map_eq_some_iff.mp h
      obtain ⟨connection, heq⟩ := newConnections_eq
        (connector.handed.drop s.connector.handed.length) { s with
          connector
          pending := false
          written := s.written ||
            (s.pending && s.connector.dispatch.head? == some .handleWrite) }
      change Kept (List.foldl _ _ _)
      rw [heq]
      exact kept_of_handler hs hconnector connection
  | removeConnection =>
      obtain ⟨-, h⟩ := Option.ite_none_left_eq_some.mp h
      obtain rfl := Option.some.inj h
      simp only [removeConnection, Connector.restart]
      split
      · exact ⟨hs.retry, hs.dispatched, hs.pending, hs.idle⟩
      · exact ⟨hs.retry, hs.dispatched, hs.pending, hs.idle⟩

theorem asserted_iff (hs : Kept s) :
    (Allowed s t → Asserted s t) ↔ (Allowed s t → (∃ e, t = .connect e) → s.written = false) := by
  apply imp_congr_right
  intro hallowed
  cases t with
  | connect savedErrno =>
      obtain ⟨hchannel, hiff⟩ := hs.idle hallowed.1
      constructor
      · exact fun hasserted _ => hiff.mp hasserted.1
      · exact fun hwritten => ⟨hiff.mpr (hwritten ⟨savedErrno, rfl⟩), fun _ => hchannel⟩
  | disconnect | enableRetry | event | handler | removeConnection =>
      exact iff_of_true trivial nofun

/-- In a run the assertions hold if and only if `connect` is never called after a write event has
ended an attempt, with a connection or without. -/
theorem asserted_run_iff (ts : List Action) :
    AllSteps step (fun s t => Allowed s t → Asserted s t) Client.init ts ↔
      AllSteps step (fun s t => Allowed s t → (∃ e, t = .connect e) → s.written = false)
        Client.init ts := by
  apply allSteps_iff Kept (fun _ _ _ => step_kept) fun _ _ => asserted_iff
  refine ⟨rfl, Connector.dispatched_init false false, nofun, fun _ => ?_⟩
  exact ⟨rfl, iff_of_true rfl rfl⟩

/-- The connection is established and closed by the peer, and the client connects again. -/
theorem not_asserted_reconnect :
    ¬ ∀ ts, AllSteps step (fun s t => Allowed s t → Asserted s t) Client.init ts := by
  intro h
  let revents : Revents := ⟨false, false, false, false, true⟩
  let ts : List Action :=
    [.connect .EINPROGRESS, .event revents, .handler 0 false, .removeConnection]
  have hlast := AllSteps.drop (h (ts ++ [.connect .EINPROGRESS])) rfl
  exact absurd (hlast.1 ⟨rfl, rfl⟩).1 (by decide)

end Kept

end Cooper.TcpClient

import Cooper.StepRun
import Mathlib.Data.List.Count

namespace Cooper.Connector

open Cooper.StepRun

/-- The number of a socket; sockets are counted in the order of `socket()`. -/
abbrev Fd := Nat

inductive Status
  | Disconnected
  | Connecting
  | Connected
  deriving DecidableEq

/-- `savedErrno`, of which `success` is the 0. -/
inductive Errno
  | success
  | EINPROGRESS
  | EINTR
  | EISCONN
  | EAGAIN
  | EADDRINUSE
  | EADDRNOTAVAIL
  | ECONNREFUSED
  | ENETUNREACH
  | EACCES
  | EPERM
  | EAFNOSUPPORT
  | EALREADY
  | EBADF
  | EFAULT
  | ENOTSOCK
  | other (code : Nat)
  deriving DecidableEq

/-- The callbacks of the channel. The close callback is `handleError` too. -/
inductive Handler
  | handleError
  | handleWrite
  deriving DecidableEq

/-- What `start` and `stop` queue from other threads. -/
inductive Functor
  | startInLoop
  | removeAndResetChannel
  deriving DecidableEq

/-- The bits of `revents_` that have an effect on the channel. -/
structure Revents where
  POLLHUP : Bool
  POLLIN : Bool
  POLLNVAL : Bool
  POLLERR : Bool
  POLLOUT : Bool
  deriving DecidableEq

def kInitRetryDelayMs : Nat := 500

def kMaxRetryDelayMs : Nat := 30 * 1000

/-- A connector and what its loop holds for it. `channel` is the descriptor of `*channelPtr_`, and
`fd` is none for -1. `starting` and `stopping` count the threads inside `start` and `stop`, `timers`
are the delays of pending `runAfter` calls, and `dispatch` the callbacks that an event has still to
make. `closed` and `handed` are the calls of `close()` and of `newConnectionCallback_`. -/
structure State where
  retry : Bool
  errorCallback : Bool
  connect : Bool
  status : Status
  channel : Option Fd
  socketHanded : Bool
  fd : Option Fd
  retryInterval : Nat
  starting : Nat
  stopping : Nat
  funcs : List Functor
  timers : List Nat
  dispatch : List Handler
  inCallback : Bool
  sockets : Nat
  closed : List Fd
  handed : List Fd
  errors : Nat
  retries : Nat
  destroyed : Bool
  deriving DecidableEq

def State.init (retry errorCallback : Bool) : State where
  retry
  errorCallback
  connect := false
  status := .Disconnected
  channel := none
  socketHanded := false
  fd := none
  retryInterval := kInitRetryDelayMs
  starting := 0
  stopping := 0
  funcs := []
  timers := []
  dispatch := []
  inCallback := false
  sockets := 0
  closed := []
  handed := []
  errors := 0
  retries := 0
  destroyed := false

def close (fd : Option Fd) (s : State) : State := { s with closed := s.closed ++ fd.toList }

def reportError (s : State) : State :=
  if s.errorCallback then { s with errors := s.errors + 1, inCallback := true } else s

/-- `restart` has an empty body. -/
def restart (s : State) : State := s

def removeAndResetChannel (s : State) : Option Fd × State := (s.channel, { s with channel := none })

def retry (sockfd : Option Fd) (s : State) : Option State :=
  if s.retry then
    let s := close sockfd { s with status := .Disconnected }
    some (if s.connect then
      { s with
        timers := s.timers ++ [s.retryInterval]
        retries := s.retries + 1
        retryInterval := min (s.retryInterval * 2) kMaxRetryDelayMs }
    else s)
  else none

def connecting (sockfd : Fd) (s : State) : Option State :=
  if s.channel = none then some { s with status := .Connecting, channel := some sockfd } else none

def connect (savedErrno : Errno) (s : State) : Option State :=
  let sockfd := s.sockets
  let s := { s with socketHanded := false, fd := some sockfd, sockets := s.sockets + 1 }
  match savedErrno with
  | .success | .EINPROGRESS | .EINTR | .EISCONN => connecting sockfd s
  | .EAGAIN | .EADDRINUSE | .EADDRNOTAVAIL | .ECONNREFUSED | .ENETUNREACH =>
      if s.retry then retry (some sockfd) s else some s
  | .EACCES | .EPERM | .EAFNOSUPPORT | .EALREADY | .EBADF | .EFAULT | .ENOTSOCK =>
      some (reportError (close (some sockfd) { s with socketHanded := true }))
  | .other _ => some (reportError (close (some sockfd) { s with socketHanded := true }))

def startInLoop (savedErrno : Errno) (s : State) : Option State :=
  if s.status = .Disconnected then
    if s.connect then connect savedErrno s else some s
  else none

def failWrite (sockfd : Option Fd) (s : State) : Option State :=
  (if s.retry then retry sockfd s else some (close sockfd { s with socketHanded := true })).map
    reportError

/-- `err` is what `getSocketError` answers, `selfConnect` what `isSelfConnect` does. -/
def handleWrite (err : Nat) (selfConnect : Bool) (s : State) : Option State :=
  let s := { s with socketHanded := true }
  if s.status = .Connecting then
    let (sockfd, s) := removeAndResetChannel s
    if err ≠ 0 then failWrite sockfd s
    else if selfConnect then failWrite sockfd s
    else
      let s := { s with status := .Connected }
      if s.connect then
        some { s with handed := s.handed ++ sockfd.toList, inCallback := true }
      else some (close sockfd { s with socketHanded := true })
  else if s.status = .Disconnected then some s
  else none

def handleError (s : State) : Option State :=
  let s := { s with socketHanded := true }
  if s.status = .Connecting then
    let (sockfd, s) := removeAndResetChannel { s with status := .Disconnected }
    (if s.retry then retry sockfd s else some (close sockfd s)).map reportError
  else some s

def callbacks (revents : Revents) : List Handler :=
  (if revents.POLLHUP && !revents.POLLIN then [.handleError] else []) ++
    (if revents.POLLNVAL || revents.POLLERR then [.handleError] else []) ++
    if revents.POLLOUT then [.handleWrite] else []

def runHandler (err : Nat) (selfConnect : Bool) (s : State) : Handler → Option State
  | .handleError => handleError s
  | .handleWrite => handleWrite err selfConnect s

/-- On other threads `start` and `stop` come in two steps: the store to the flag, and `queueInLoop`.
The destructor runs when nothing in the loop refers to the connector any more. -/
inductive Action
  | start (savedErrno : Errno)
  | stop
  | startElsewhere
  | queueStart
  | stopElsewhere
  | queueStop
  | event (revents : Revents)
  | handler (err : Nat) (selfConnect : Bool)
  | functor (savedErrno : Errno)
  | timer (i : Nat) (savedErrno : Errno)
  | destroy
  deriving DecidableEq

/-- Code that may call the connector runs on the loop thread: outside its events, or in a callback
of the user. -/
def State.callable (s : State) : Bool := s.dispatch.isEmpty || s.inCallback

/-- There is no result where an assertion fails, or where the step is not possible. -/
def step (s : State) (action : Action) : Option State :=
  if s.destroyed then none
  else
    match action with
    | .start savedErrno =>
        if s.callable then startInLoop savedErrno { s with connect := true } else none
    | .stop =>
        if s.callable then some (removeAndResetChannel { s with status := .Disconnected }).2
        else none
    | .startElsewhere => some { s with connect := true, starting := s.starting + 1 }
    | .queueStart =>
        if s.starting = 0 then none
        else some { s with starting := s.starting - 1, funcs := s.funcs ++ [.startInLoop] }
    | .stopElsewhere => some { s with status := .Disconnected, stopping := s.stopping + 1 }
    | .queueStop =>
        if s.stopping = 0 then none
        else
          some { s with
            stopping := s.stopping - 1
            funcs := s.funcs ++ [.removeAndResetChannel] }
    | .event revents =>
        if s.dispatch = [] ∧ s.channel ≠ none then
          some { s with dispatch := callbacks revents, inCallback := false }
        else none
    | .handler err selfConnect =>
        match s.dispatch with
        | [] => none
        | handler :: rest =>
            runHandler err selfConnect { s with dispatch := rest, inCallback := false } handler
    | .functor savedErrno =>
        match s.dispatch, s.funcs with
        | [], .startInLoop :: rest => startInLoop savedErrno { s with funcs := rest }
        | [], .removeAndResetChannel :: rest =>
            some (removeAndResetChannel { s with funcs := rest }).2
        | _, _ => none
    | .timer i savedErrno =>
        if s.dispatch = [] ∧ i < s.timers.length then
          startInLoop savedErrno { s with timers := s.timers.eraseIdx i }
        else none
    | .destroy =>
        if s.channel = none ∧ s.dispatch = [] ∧ s.funcs = [] ∧ s.starting = 0 ∧ s.stopping = 0 then
          let s := { s with timers := [], destroyed := true }
          some (if s.socketHanded = false then close s.fd s else s)
        else none

section Attempts

variable {s s' : State} {e : Errno}

def Errno.progresses : Errno → Bool
  | .success | .EINPROGRESS | .EINTR | .EISCONN => true
  | _ => false

def Errno.refused : Errno → Bool
  | .EAGAIN | .EADDRINUSE | .EADDRNOTAVAIL | .ECONNREFUSED | .ENETUNREACH => true
  | _ => false

def withSocket (s : State) : State :=
  { s with socketHanded := false, fd := some s.sockets, sockets := s.sockets + 1 }

theorem connect_of_progresses (he : e.progresses = true) :
    connect e s = connecting s.sockets (withSocket s) := by
  cases e <;> first | rfl | contradiction

theorem connect_of_refused (he : e.refused = true) :
    connect e s =
      if s.retry then retry (some s.sockets) (withSocket s) else some (withSocket s) := by
  cases e <;> first | rfl | contradiction

theorem connect_of_failed (hprogresses : e.progresses = false) (hrefused : e.refused = false) :
    connect e s =
      some (reportError (close (some s.sockets) { withSocket s with socketHanded := true })) := by
  cases e <;> first | rfl | contradiction

theorem retry_of_connect (hretry : s.retry = true) (hconnect : s.connect = true)
    (sockfd : Option Fd) :
    retry sockfd s = some (close sockfd { s with
      status := .Disconnected
      timers := s.timers ++ [s.retryInterval]
      retries := s.retries + 1
      retryInterval := min (s.retryInterval * 2) kMaxRetryDelayMs }) := by
  simp [retry, hretry, hconnect, close]

theorem retry_of_not_connect (hretry : s.retry = true) (hconnect : s.connect = false)
    (sockfd : Option Fd) :
    retry sockfd s = some (close sockfd { s with status := .Disconnected }) := by
  simp [retry, hretry, hconnect, close]

/-- Everything that an attempt can come to in `connect` itself, when `connect_` is true. -/
inductive Attempt (s : State) (e : Errno) : State → Prop
  | connecting (hprogresses : e.progresses = true) (hchannel : s.channel = none) :
      Attempt s e { withSocket s with status := .Connecting, channel := some s.sockets }
  | retried (hrefused : e.refused = true) (hretry : s.retry = true) :
      Attempt s e (close (some s.sockets) { withSocket s with
        status := .Disconnected
        timers := s.timers ++ [s.retryInterval]
        retries := s.retries + 1
        retryInterval := min (s.retryInterval * 2) kMaxRetryDelayMs })
  | abandoned (hrefused : e.refused = true) (hretry : s.retry = false) :
      Attempt s e (withSocket s)
  | failed (hprogresses : e.progresses = false) (hrefused : e.refused = false) :
      Attempt s e (reportError (close (some s.sockets) { withSocket s with socketHanded := true }))

theorem attempt_of_connect (hconnect : s.connect = true) (h : connect e s = some s') :
    Attempt s e s' := by
  by_cases hprogresses : e.progresses = true
  · rw [connect_of_progresses hprogresses, connecting] at h
    obtain ⟨hchannel, h⟩ := Option.ite_none_right_eq_some.mp h
    obtain rfl := Option.some.inj h
    exact .connecting hprogresses hchannel
  · rw [Bool.not_eq_true] at hprogresses
    by_cases hrefused : e.refused = true
    · rw [connect_of_refused hrefused] at h
      split at h
      · rename_i hretry
        obtain rfl := Option.some.inj
          ((retry_of_connect (s := withSocket s) hretry hconnect (some s.sockets)).symm.trans h)
        exact .retried hrefused hretry
      · rename_i hretry
        obtain rfl := Option.some.inj h
        exact .abandoned hrefused (Bool.not_eq_true _ ▸ hretry)
    · rw [Bool.not_eq_true] at hrefused
      rw [connect_of_failed hprogresses hrefused] at h
      obtain rfl := Option.some.inj h
      exact .failed hprogresses hrefused

def startsAttempt (s : State) : Action → Option Errno
  | .start savedErrno =>
      if s.callable ∧ s.status = .Disconnected then some savedErrno else none
  | .functor savedErrno =>
      if s.dispatch = [] ∧ s.funcs.head? = some .startInLoop ∧ s.status = .Disconnected ∧
        s.connect then some savedErrno
      else none
  | .timer i savedErrno =>
      if s.dispatch = [] ∧ i < s.timers.length ∧ s.status = .Disconnected ∧ s.connect then
        some savedErrno
      else none
  | _ => none

def TakesEffect (s : State) : Action → Prop
  | .stop => s.destroyed = false ∧ s.callable = true
  | .functor _ =>
      s.destroyed = false ∧ s.dispatch = [] ∧ s.funcs.head? = some .removeAndResetChannel
  | _ => False

end Attempts

section Moves

/-- What the loop has to do for the connector, and what has been reported. -/
structure Agenda where
  connect : Bool
  retryInterval : Nat
  starting : Nat
  stopping : Nat
  funcs : List Functor
  timers : List Nat
  dispatch : List Handler
  inCallback : Bool
  errors : Nat
  retries : Nat

def State.withAgenda (s : State) (a : Agenda) : State :=
  { s with
    connect := a.connect
    retryInterval := a.retryInterval
    starting := a.starting
    stopping := a.stopping
    funcs := a.funcs
    timers := a.timers
    dispatch := a.dispatch
    inCallback := a.inCallback
    errors := a.errors
    retries := a.retries }

def State.agenda (s : State) : Agenda where
  connect := s.connect
  retryInterval := s.retryInterval
  starting := s.starting
  stopping := s.stopping
  funcs := s.funcs
  timers := s.timers
  dispatch := s.dispatch
  inCallback := s.inCallback
  errors := s.errors
  retries := s.retries

def Agenda.StartPending (a : Agenda) : Prop :=
  a.timers ≠ [] ∨ Functor.startInLoop ∈ a.funcs ∨ a.starting ≠ 0

theorem Agenda.StartPending.imp {a b : Agenda} (h : a.StartPending)
    (htimers : b.timers = [] → a.timers = [])
    (hfuncs : Functor.startInLoop ∈ a.funcs → Functor.startInLoop ∈ b.funcs)
    (hstarting : b.starting = 0 → a.starting = 0) : b.StartPending :=
  Or.imp (mt htimers) (Or.imp hfuncs (mt hstarting)) h

/-- `connect_` stays true and is true with a pending start, the callbacks are made in their order,
an event comes to a channel, and nothing is reported. -/
structure Agenda.Follows (a : Agenda) (s : State) : Prop where
  connect : s.connect = true → a.connect = true
  pending : a.StartPending → a.connect = true ∨ s.agenda.StartPending
  dispatch : a.dispatch <:+ s.dispatch ∨
    s.channel ≠ none ∧ ∃ revents, a.dispatch = callbacks revents
  errors : a.errors = s.errors
  retries : a.retries = s.retries

variable {s s' : State} {t : Action}

def State.withoutChannel (s : State) (status : Status) : State :=
  { s with socketHanded := true, status, channel := none }

def Fails (s : State) : Action → Prop
  | .handler err selfConnect =>
      s.status = .Connecting ∧
        (s.dispatch.head? = some .handleError ∨
          s.dispatch.head? = some .handleWrite ∧ (err ≠ 0 ∨ selfConnect = true))
  | _ => False

inductive Move (s : State) : Action → State → Prop
  | attempt {t : Action} {e : Errno} {a : Agenda} {s' : State}
      (hstarts : startsAttempt s t = some e) (hfollows : a.Follows s) (hconnect : a.connect = true)
      (hattempt : Attempt (s.withAgenda a) e s') : Move s t s'
  | idle {err : Nat} {selfConnect : Bool} {a : Agenda} (hstatus : s.status ≠ .Connecting)
      (hfollows : a.Follows s) :
      Move s (.handler err selfConnect) { s.withAgenda a with socketHanded := true }
  | handed {err : Nat} {selfConnect : Bool} {a : Agenda} (hstatus : s.status = .Connecting)
      (hdispatch : s.dispatch ≠ []) (hfails : ¬ Fails s (.handler err selfConnect))
      (hfollows : a.Follows s) (hconnect : s.connect = true) :
      Move s (.handler err selfConnect)
        { (s.withAgenda a).withoutChannel .Connected with handed := s.handed ++ s.channel.toList }
  | dropped {err : Nat} {selfConnect : Bool} {a : Agenda} (hstatus : s.status = .Connecting)
      (hdispatch : s.dispatch ≠ []) (hfails : ¬ Fails s (.handler err selfConnect))
      (hfollows : a.Follows s) (hconnect : s.connect = false) :
      Move s (.handler err selfConnect)
        (close s.channel ((s.withAgenda a).withoutChannel .Connected))
  | failed {err : Nat} {selfConnect : Bool} {handler : Handler} {a : Agenda} {status : Status}
      (hfails : Fails s (.handler err selfConnect)) (hdispatch : s.dispatch = handler :: a.dispatch)
      (hstatus : status =
        if handler = .handleError ∨ s.retry = true then .Disconnected else .Connecting)
      (hconnect : a.connect = s.connect)
      (hpending : a.StartPending → s.connect = true ∨ s.agenda.StartPending)
      (herrors : a.errors = s.errors + if s.errorCallback then 1 else 0)
      (hretries : a.retries = s.retries + if s.retry ∧ s.connect then 1 else 0) :
      Move s (.handler err selfConnect) (close s.channel ((s.withAgenda a).withoutChannel status))
  | stop {t : Action} {a : Agenda} {status : Status} (heffect : TakesEffect s t)
      (hfollows : a.Follows s) (hdispatch : a.dispatch = s.dispatch)
      (hstatus : status = .Disconnected ∨ s.dispatch = [] ∧ status = s.status) :
      Move s t { s.withAgenda a with status, channel := none }
  | plain {t : Action} {a : Agenda} {status : Status} (hfollows : a.Follows s)
      (hstarts : startsAttempt s t = none) (heffect : ¬ TakesEffect s t)
      (hhandler : ∀ err selfConnect, t ≠ .handler err selfConnect)
      (hstatus : status = s.status ∨ status = .Disconnected) :
      Move s t { s.withAgenda a with status }
  | destroy (hchannel : s.channel = none) :
      Move s .destroy
        (if s.socketHanded = false then close s.fd { s with timers := [], destroyed := true }
          else { s with timers := [], destroyed := true })

/-- A step that makes an attempt is `connect` in a state where only the agenda has changed. -/
theorem step_of_startsAttempt {e : Errno} (hdestroyed : s.destroyed = false)
    (hstarts : startsAttempt s t = some e) :
    ∃ a : Agenda, a.Follows s ∧ a.connect = true ∧ step s t = connect e (s.withAgenda a) := by
  cases t with
  | start savedErrno =>
      simp only [startsAttempt, Option.ite_none_right_eq_some, Option.some.injEq] at hstarts
      obtain ⟨⟨hcallable, hstatus⟩, rfl⟩ := hstarts
      refine ⟨{ s.agenda with connect := true },
        ⟨fun _ => rfl, fun _ => .inl rfl, .inl List.suffix_rfl, rfl, rfl⟩, rfl, ?_⟩
      simp [step, hdestroyed, hcallable, startInLoop, hstatus, State.agenda, State.withAgenda]
  | functor savedErrno =>
      simp only [startsAttempt, Option.ite_none_right_eq_some, Option.some.injEq] at hstarts
      obtain ⟨⟨hdispatch, hfuncs, hstatus, hconnect⟩, rfl⟩ := hstarts
      obtain ⟨rest, hrest⟩ := List.head?_eq_some_iff.mp hfuncs
      refine ⟨{ s.agenda with funcs := rest },
        ⟨fun h => h, fun _ => .inl hconnect, .inl List.suffix_rfl, rfl, rfl⟩, hconnect, ?_⟩
      simp [step, hdestroyed, hdispatch, hrest, startInLoop, hstatus, hconnect, State.agenda,
        State.withAgenda]
  | timer i savedErrno =>
      simp only [startsAttempt, Option.ite_none_right_eq_some, Option.some.injEq] at hstarts
      obtain ⟨⟨hdispatch, hi, hstatus, hconnect⟩, rfl⟩ := hstarts
      refine ⟨{ s.agenda with timers := s.timers.eraseIdx i },
        ⟨fun h => h, fun _ => .inl hconnect, .inl List.suffix_rfl, rfl, rfl⟩,
        hconnect, ?_⟩
      simp [step, hdestroyed, hdispatch, hi, startInLoop, hstatus, hconnect, State.agenda,
        State.withAgenda]
  | stop | startElsewhere | queueStart | stopElsewhere | queueStop | event | handler | destroy =>
      simp [startsAttempt] at hstarts

theorem reportError_eq (s : State) : reportError s = s.withAgenda { s.agenda with
    errors := s.errors + if s.errorCallback then 1 else 0
    inCallback := s.errorCallback || s.inCallback } := by
  obtain ⟨_, _ | _⟩ := s <;> rfl

theorem failWrite_eq (hhanded : s.socketHanded = true) (sockfd : Option Fd) :
    ∃ (a : Agenda) (status : Status), a.connect = s.connect ∧
      (a.StartPending → s.connect = true ∨ s.agenda.StartPending) ∧
      a.dispatch = s.dispatch ∧ status = (if s.retry then .Disconnected else s.status) ∧
      a.errors = s.errors + (if s.errorCallback then 1 else 0) ∧
      a.retries = s.retries + (if s.retry ∧ s.connect then 1 else 0) ∧
      failWrite sockfd s = some (close sockfd { s.withAgenda a with status }) := by
  let a : Agenda := { s.agenda with
    errors := s.errors + if s.errorCallback then 1 else 0
    inCallback := s.errorCallback || s.inCallback }
  by_cases hretry : s.retry = true
  · by_cases hconnect : s.connect = true
    · refine ⟨{ a with
        timers := s.timers ++ [s.retryInterval]
        retries := s.retries + 1
        retryInterval := min (s.retryInterval * 2) kMaxRetryDelayMs }, .Disconnected, rfl,
        fun _ => .inl hconnect, rfl, (if_pos hretry).symm, rfl, by simp [hretry, hconnect], ?_⟩
      simp only [failWrite, if_pos hretry, retry_of_connect hretry hconnect, Option.map_some,
        reportError_eq]
      rfl
    · rw [Bool.not_eq_true] at hconnect
      refine ⟨a, .Disconnected, rfl, .inr, rfl, (if_pos hretry).symm, rfl,
        by simp [a, hconnect, State.agenda], ?_⟩
      simp only [failWrite, if_pos hretry, retry_of_not_connect hretry hconnect, Option.map_some,
        reportError_eq]
      rfl
  · refine ⟨a, s.status, rfl, .inr, rfl, (if_neg hretry).symm, rfl,
      by simp [a, hretry, State.agenda], ?_⟩
    have hsame : { s with socketHanded := true } = s := by rw [← hhanded]
    simp only [failWrite, if_neg hretry, Option.map_some, reportError_eq, hsame]
    rfl

theorem move_failed {err : Nat} {selfConnect : Bool} {handler : Handler} {rest : List Handler}
    (status : Status) (hdispatch : s.dispatch = handler :: rest)
    (hfails : Fails s (.handler err selfConnect))
    (hstatus : status = if handler = .handleError then .Disconnected else .Connecting)
    (h : failWrite s.channel
      ({ s with dispatch := rest, inCallback := false }.withoutChannel status) = some s') :
    Move s (.handler err selfConnect) s' := by
  obtain ⟨a, status', hconnect, hpending, hrest, hafter, herrors, hretries, heq⟩ := failWrite_eq
    (s := { s with dispatch := rest, inCallback := false }.withoutChannel status) rfl s.channel
  obtain rfl := Option.some.inj (heq.symm.trans h)
  have hrest : a.dispatch = rest := hrest
  refine .failed (a := a) hfails (hrest ▸ hdispatch) ?_ hconnect hpending herrors hretries
  rw [hafter, ite_or]
  change (if s.retry = true then _ else status) = _
  split <;> simp [hstatus]

theorem move_of_handler {err : Nat} {selfConnect : Bool} {handler : Handler} {rest : List Handler}
    (hdispatch : s.dispatch = handler :: rest)
    (h : runHandler err selfConnect { s with dispatch := rest, inCallback := false } handler =
      some s') : Move s (.handler err selfConnect) s' := by
  let a : Agenda := { s.agenda with dispatch := rest, inCallback := false }
  have hsuffix : rest <:+ s.dispatch ∨ s.channel ≠ none ∧ ∃ revents, rest = callbacks revents :=
    .inl (hdispatch ▸ List.suffix_cons handler rest)
  have hfollows : a.Follows s := ⟨fun h => h, .inr, hsuffix, rfl, rfl⟩
  have hidle (hstatus : s.status ≠ .Connecting)
      (h' : { s.withAgenda a with socketHanded := true } = s') :
      Move s (.handler err selfConnect) s' := h' ▸ .idle hstatus hfollows
  cases handler with
  | handleError =>
      simp only [runHandler, handleError] at h
      split at h
      · rename_i hstatus
        apply move_failed .Disconnected hdispatch
        · exact ⟨hstatus, .inl (by rw [hdispatch]; rfl)⟩
        · rfl
        · exact h
      · rename_i hstatus
        exact hidle hstatus (Option.some.inj h)
  | handleWrite =>
      simp only [runHandler, handleWrite] at h
      split at h
      · rename_i hstatus
        have hhead : s.dispatch.head? = some .handleWrite := by rw [hdispatch]; rfl
        split at h
        · rename_i herr
          exact move_failed s.status hdispatch ⟨hstatus, .inr ⟨hhead, .inl herr⟩⟩ hstatus h
        · rename_i herr
          split at h
          · rename_i hself
            exact move_failed s.status hdispatch ⟨hstatus, .inr ⟨hhead, .inr hself⟩⟩
              hstatus h
          · rename_i hself
            have hfails : ¬ Fails s (.handler err selfConnect) := by
              simp [Fails, hhead, hself, not_not.mp herr]
            have hne : s.dispatch ≠ [] := by simp [hdispatch]
            split at h
            · rename_i hconnect
              obtain rfl := Option.some.inj h
              exact .handed (a := { a with inCallback := true }) hstatus hne hfails
                ⟨fun h => h, .inr, hsuffix, rfl, rfl⟩ hconnect
            · rename_i hconnect
              obtain rfl := Option.some.inj h
              exact .dropped hstatus hne hfails hfollows (Bool.not_eq_true _ ▸ hconnect)
      · rename_i hstatus
        obtain ⟨-, h⟩ := Option.ite_none_right_eq_some.mp h
        exact hidle hstatus (Option.some.inj h)

theorem startInLoop_of_not_connect {e : Errno} (h : startInLoop e s = some s')
    (hnone : s.status = .Disconnected → s.connect = false) : s' = s := by
  rw [startInLoop] at h
  obtain ⟨hstatus, h⟩ := Option.ite_none_right_eq_some.mp h
  rw [if_neg (by simp [hnone hstatus])] at h
  exact (Option.some.inj h).symm

theorem Agenda.Follows.of_taken {funcs : List Functor} {timers : List Nat}
    (hfuncs : funcs ⊆ s.funcs) (htimers : s.timers = [] → timers = []) :
    Agenda.Follows { s.agenda with funcs, timers } s where
  connect := fun h => h
  pending := fun h => .inr (h.imp htimers (fun hmem => hfuncs hmem) fun h => h)
  dispatch := .inl List.suffix_rfl
  errors := rfl
  retries := rfl

theorem move_of_functor {e : Errno} (hstarts : startsAttempt s (.functor e) = none)
    (h : step s (.functor e) = some s') : Move s (.functor e) s' := by
  simp only [step] at h
  obtain ⟨hdestroyed, h⟩ := Option.ite_none_left_eq_some.mp h
  rw [Bool.not_eq_true] at hdestroyed
  have hfollows {functor : Functor} {rest : List Functor} (hfuncs : s.funcs = functor :: rest) :
      Agenda.Follows { s.agenda with funcs := rest } s := by
    apply Agenda.Follows.of_taken _ fun h => h
    rw [hfuncs]
    exact List.subset_cons_self functor rest
  split at h
  · rename_i rest hdispatch hfuncs
    have heffect : ¬ TakesEffect s (.functor e) := by simp [TakesEffect, hfuncs]
    have hnone : s.status = .Disconnected → s.connect = false := by
      simpa [startsAttempt, hdispatch, hfuncs] using hstarts
    obtain rfl := startInLoop_of_not_connect h hnone
    exact .plain (a := { s.agenda with funcs := rest }) (hfollows hfuncs) hstarts heffect
      (by simp) (.inl rfl)
  · rename_i rest hdispatch hfuncs
    obtain rfl := Option.some.inj h
    have heffect : TakesEffect s (.functor e) :=
      ⟨hdestroyed, hdispatch, by rw [hfuncs]; rfl⟩
    exact .stop (a := { s.agenda with funcs := rest }) heffect (hfollows hfuncs)
      rfl (.inr ⟨hdispatch, rfl⟩)
  · contradiction

theorem move_of_timer {e : Errno} {i : Nat} (hstarts : startsAttempt s (.timer i e) = none)
    (h : step s (.timer i e) = some s') : Move s (.timer i e) s' := by
  simp only [step] at h
  obtain ⟨-, h⟩ := Option.ite_none_left_eq_some.mp h
  obtain ⟨⟨hdispatch, hi⟩, h⟩ := Option.ite_none_right_eq_some.mp h
  have hnone : s.status = .Disconnected → s.connect = false := by
    simpa [startsAttempt, hdispatch, hi] using hstarts
  obtain rfl := startInLoop_of_not_connect h hnone
  refine .plain (a := { s.agenda with timers := s.timers.eraseIdx i })
    (Agenda.Follows.of_taken (fun _ h => h) ?_) hstarts (fun h => h) (by simp) (.inl rfl)
  intro htimers
  simp [htimers] at hi

theorem move_of_step (h : step s t = some s') : Move s t s' := by
  have hstep := h
  simp only [step] at h
  obtain ⟨hdestroyed, h⟩ := Option.ite_none_left_eq_some.mp h
  rw [Bool.not_eq_true] at hdestroyed
  cases hstarts : startsAttempt s t with
  | some e =>
      obtain ⟨a, hfollows, hconnect, heq⟩ := step_of_startsAttempt hdestroyed hstarts
      exact .attempt hstarts hfollows hconnect (attempt_of_connect hconnect (heq ▸ hstep))
  | none =>
      cases t with
      | start savedErrno =>
          obtain ⟨hcallable, h⟩ := Option.ite_none_right_eq_some.mp h
          obtain ⟨hstatus, -⟩ := Option.ite_none_right_eq_some.mp h
          have hstatus : s.status = .Disconnected := hstatus
          simp [startsAttempt, hcallable, hstatus] at hstarts
      | stop =>
          obtain ⟨hcallable, h⟩ := Option.ite_none_right_eq_some.mp h
          obtain rfl := Option.some.inj h
          exact .stop (a := s.agenda) ⟨hdestroyed, hcallable⟩
            ⟨fun h => h, .inr, .inl List.suffix_rfl, rfl, rfl⟩ rfl (.inl rfl)
      | startElsewhere =>
          obtain rfl := Option.some.inj h
          refine .plain (a := { s.agenda with connect := true, starting := s.starting + 1 })
            ⟨fun _ => rfl, fun _ => .inl rfl, .inl List.suffix_rfl, rfl, rfl⟩ hstarts
            (fun h => h) (by simp) (.inl rfl)
      | queueStart =>
          obtain ⟨hstarting, h⟩ := Option.ite_none_left_eq_some.mp h
          obtain rfl := Option.some.inj h
          refine .plain (a := { s.agenda with
            starting := s.starting - 1
            funcs := s.funcs ++ [.startInLoop] })
            ⟨fun h => h, fun _ => .inr (.inr (.inr hstarting)), .inl List.suffix_rfl, rfl, rfl⟩
            hstarts (fun h => h) (by simp) (.inl rfl)
      | stopElsewhere =>
          obtain rfl := Option.some.inj h
          refine .plain (a := { s.agenda with stopping := s.stopping + 1 })
            ⟨fun h => h, .inr, .inl List.suffix_rfl, rfl, rfl⟩ hstarts
            (fun h => h) (by simp) (.inr rfl)
      | queueStop =>
          obtain ⟨-, h⟩ := Option.ite_none_left_eq_some.mp h
          obtain rfl := Option.some.inj h
          refine .plain (a := { s.agenda with
            stopping := s.stopping - 1
            funcs := s.funcs ++ [.removeAndResetChannel] })
            ⟨fun h => h, fun h => .inr (h.imp (fun h => h) ?_ fun h => h),
              .inl List.suffix_rfl, rfl, rfl⟩ hstarts (fun h => h) (by simp) (.inl rfl)
          intro hfuncs
          simpa [State.agenda] using hfuncs
      | event revents =>
          obtain ⟨⟨-, hchannel⟩, h⟩ := Option.ite_none_right_eq_some.mp h
          obtain rfl := Option.some.inj h
          refine .plain (a := { s.agenda with dispatch := callbacks revents, inCallback := false })
            ⟨fun h => h, .inr, .inr ⟨hchannel, revents, rfl⟩, rfl, rfl⟩ hstarts
            (fun h => h) (by simp) (.inl rfl)
      | handler err selfConnect =>
          cases hdispatch : s.dispatch with
          | nil => simp [hdispatch] at h
          | cons handler rest =>
              simp only [hdispatch] at h
              exact move_of_handler hdispatch h
      | functor savedErrno => exact move_of_functor hstarts hstep
      | timer i savedErrno => exact move_of_timer hstarts hstep
      | destroy =>
          obtain ⟨⟨hchannel, -⟩, h⟩ := Option.ite_none_right_eq_some.mp h
          obtain rfl := Option.some.inj h
          exact .destroy hchannel

theorem connect_of_attempt {e : Errno} (h : Attempt s e s') : s'.connect = s.connect := by
  cases h with
  | connecting | retried | abandoned => rfl
  | failed =>
      rw [reportError_eq]
      rfl

theorem step_of_takesEffect (heffect : TakesEffect s t) :
    ∃ status funcs, step s t = some { s with status, funcs, channel := none } ∧
      (Functor.startInLoop ∈ funcs ↔ Functor.startInLoop ∈ s.funcs) ∧
      s.destroyed = false ∧ (status = .Disconnected ∨ s.dispatch = []) := by
  cases t with
  | stop =>
      refine ⟨.Disconnected, s.funcs, ?_, Iff.rfl, heffect.1, .inl rfl⟩
      simp [step, heffect.1, heffect.2, removeAndResetChannel]
  | functor savedErrno =>
      obtain ⟨hdestroyed, hdispatch, hhead⟩ := heffect
      obtain ⟨rest, hrest⟩ := List.head?_eq_some_iff.mp hhead
      refine ⟨s.status, rest, ?_, by simp [hrest], hdestroyed, .inr hdispatch⟩
      simp [step, hdestroyed, hdispatch, hrest, removeAndResetChannel]
  | start | startElsewhere | queueStart | stopElsewhere | queueStop | event | handler | timer
  | destroy => exact heffect.elim

theorem step_handler {handler : Handler} {rest : List Handler} (hdestroyed : s.destroyed = false)
    (hdispatch : s.dispatch = handler :: rest) (err : Nat) (selfConnect : Bool) :
    step s (.handler err selfConnect) =
      runHandler err selfConnect { s with dispatch := rest, inCallback := false } handler := by
  simp [step, hdestroyed, hdispatch]

theorem step_of_fails (hdestroyed : s.destroyed = false) (hfails : Fails s t) :
    ∃ s', step s t = some s' := by
  cases t with
  | handler err selfConnect =>
      obtain ⟨hstatus, hhead | ⟨hhead, hfails⟩⟩ := hfails
      all_goals
        obtain ⟨rest, hdispatch⟩ := List.head?_eq_some_iff.mp hhead
        rw [step_handler hdestroyed hdispatch]
      · obtain ⟨a, status, -, -, -, -, -, -, heq⟩ := failWrite_eq
          (s := { s with dispatch := rest, inCallback := false }.withoutChannel .Disconnected) rfl
          s.channel
        rw [runHandler, handleError, if_pos (by exact hstatus)]
        exact ⟨_, heq⟩
      · obtain ⟨a, status, -, -, -, -, -, -, heq⟩ := failWrite_eq
          (s := { s with dispatch := rest, inCallback := false }.withoutChannel s.status) rfl
          s.channel
        rw [runHandler, handleWrite, if_pos (by exact hstatus)]
        obtain herr | hself := hfails
        · exact ⟨_, (if_pos herr).trans heq⟩
        · by_cases herr : err ≠ 0
          · exact ⟨_, (if_pos herr).trans heq⟩
          · exact ⟨_, (if_neg herr).trans ((if_pos hself).trans heq)⟩
  | start | stop | startElsewhere | queueStart | stopElsewhere | queueStop | event | functor | timer
  | destroy => exact hfails.elim

theorem attempt_of_start {e : Errno} (h : step s (.start e) = some s') :
    s.status = .Disconnected ∧ Attempt { s with connect := true } e s' := by
  simp only [step] at h
  obtain ⟨-, h⟩ := Option.ite_none_left_eq_some.mp h
  obtain ⟨-, h⟩ := Option.ite_none_right_eq_some.mp h
  obtain ⟨hstatus, h⟩ := Option.ite_none_right_eq_some.mp h
  exact ⟨hstatus, attempt_of_connect rfl h⟩

theorem step_event {revents : Revents} (h : step s (.event revents) = some s') :
    s' = { s with dispatch := callbacks revents, inCallback := false } := by
  simp only [step] at h
  obtain ⟨-, h⟩ := Option.ite_none_left_eq_some.mp h
  obtain ⟨-, h⟩ := Option.ite_none_right_eq_some.mp h
  exact (Option.some.inj h).symm

theorem destroyed_of_step (h : step s t = some s') : s.destroyed = false := by
  simp only [step] at h
  exact Bool.not_eq_true _ ▸ (Option.ite_none_left_eq_some.mp h).1

theorem status_of_startsAttempt {e : Errno} (h : startsAttempt s t = some e) :
    s.status = .Disconnected := by
  cases t with
  | start | functor | timer => simp_all [startsAttempt]
  | stop | startElsewhere | queueStart | stopElsewhere | queueStop | event | handler | destroy =>
      simp [startsAttempt] at h

end Moves

section Dispatch

variable {s s' : State} {t : Action}

/-- An event is that of the attempt's channel, and `handleWrite` comes last. -/
structure Dispatched (s : State) : Prop where
  channel : s.status = .Connecting → s.dispatch ≠ [] → s.channel ≠ none
  order : s.dispatch.Pairwise fun handler _ => handler = .handleError

theorem callbacks_order (revents : Revents) :
    (callbacks revents).Pairwise fun handler _ => handler = .handleError := by
  obtain ⟨_ | _, _ | _, _ | _, _ | _, _ | _⟩ := revents <;> simp [callbacks]

theorem Agenda.Follows.order {a : Agenda} (h : a.Follows s) (hs : Dispatched s) :
    a.dispatch.Pairwise fun handler _ => handler = .handleError := by
  obtain hsuffix | ⟨-, revents, hrevents⟩ := h.dispatch
  · exact hs.order.sublist hsuffix.sublist
  · rw [hrevents]
    exact callbacks_order revents

theorem Agenda.Follows.channel {a : Agenda} (h : a.Follows s) (hs : Dispatched s)
    (hstatus : s.status = .Connecting) (hdispatch : a.dispatch ≠ []) : s.channel ≠ none := by
  obtain hsuffix | ⟨hchannel, -⟩ := h.dispatch
  · apply hs.channel hstatus
    intro hnil
    rw [hnil, List.suffix_nil] at hsuffix
    exact hdispatch hsuffix
  · exact hchannel

theorem dispatched_of_attempt {e : Errno} {a : Agenda} (hs : Dispatched s)
    (hstatus : s.status = .Disconnected) (hfollows : a.Follows s)
    (h : Attempt (s.withAgenda a) e s') : Dispatched s' := by
  have horder := hfollows.order hs
  have hkept : s.status ≠ .Connecting := by
    rw [hstatus]
    exact nofun
  cases h with
  | connecting => exact ⟨fun _ _ => Option.some_ne_none _, horder⟩
  | retried => exact ⟨nofun, horder⟩
  | abandoned => exact ⟨fun h => absurd h hkept, horder⟩
  | failed =>
      rw [reportError_eq]
      exact ⟨fun h => absurd h hkept, horder⟩

theorem step_dispatched (hs : Dispatched s) (h : step s t = some s') : Dispatched s' := by
  cases move_of_step h with
  | attempt hstarts hfollows _ hattempt =>
      exact dispatched_of_attempt hs (status_of_startsAttempt hstarts) hfollows hattempt
  | idle hstatus hfollows => exact ⟨fun h => absurd h hstatus, hfollows.order hs⟩
  | handed _ _ _ hfollows | dropped _ _ _ hfollows => exact ⟨nofun, hfollows.order hs⟩
  | failed _ hdispatch hstatus =>
      have horder := hs.order
      rw [hdispatch, List.pairwise_cons] at horder
      refine ⟨fun hconnecting hne => ?_, horder.2⟩
      -- Only `handleWrite` leaves the status, and it comes last.
      obtain ⟨handler, hmem⟩ := List.exists_mem_of_ne_nil _ hne
      rw [if_pos (.inl (horder.1 handler hmem))] at hstatus
      exact nomatch hstatus.symm.trans hconnecting
  | stop _ hfollows hdispatch hstatus =>
      refine ⟨fun hconnecting hne => ?_, hfollows.order hs⟩
      obtain rfl | ⟨hnil, -⟩ := hstatus
      · exact nomatch hconnecting
      · exact absurd (hdispatch.trans hnil) hne
  | plain hfollows _ _ _ hstatus =>
      refine ⟨fun hconnecting hne => ?_, hfollows.order hs⟩
      obtain rfl | rfl := hstatus
      · exact hfollows.channel hs hconnecting hne
      · exact nomatch hconnecting
  | destroy =>
      split
      · exact ⟨hs.channel, hs.order⟩
      · exact ⟨hs.channel, hs.order⟩

theorem dispatched_init (retry errorCallback : Bool) :
    Dispatched (State.init retry errorCallback) :=
  ⟨nofun, List.Pairwise.nil⟩

end Dispatch

end Cooper.Connector

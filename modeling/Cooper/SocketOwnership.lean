import Cooper.Connector

namespace Cooper.Connector

open Cooper.StepRun

def State.uses (s : State) (fd : Fd) : Nat := s.closed.count fd + s.handed.count fd

def State.fdOpen (s : State) : Bool := s.fd.any (s.uses · = 0)

def OwnedOnce (s : State) : Prop :=
  ∀ fd < s.sockets, s.uses fd ≤ 1 ∧ (s.destroyed = true → s.uses fd = 1)

/-- `connect` does not overwrite an open `fd_`, no callback comes to one whose attempt has been
stopped, and a connector that has still to close `fd_` has not closed it. -/
def Careful (s : State) : Action → Prop
  | .handler _ _ => s.status = .Connecting ∨ s.fdOpen = false
  | .destroy => s.socketHanded = true ∨ s.fd = none ∨ s.fdOpen = true
  | t => startsAttempt s t = none ∨ s.fdOpen = false

instance (s : State) (t : Action) : Decidable (Careful s t) := by
  cases t <;> exact inferInstanceAs (Decidable (_ ∨ _))

section Owned

variable {s s' : State} {t : Action}

structure Owned (s : State) : Prop where
  once : ∀ fd < s.sockets, s.uses fd = 1 ∨
    s.uses fd = 0 ∧ s.fd = some fd ∧ s.socketHanded = false ∧ s.destroyed = false
  fresh : ∀ fd, s.sockets ≤ fd → s.uses fd = 0
  fd : ∀ fd, s.fd = some fd → fd < s.sockets
  channel : ∀ fd, s.channel = some fd → fd < s.sockets ∧ s.uses fd = 0

theorem ownedOnce_of_owned (hs : Owned s) : OwnedOnce s := by
  intro fd hfd
  obtain h | ⟨h, -, -, hdestroyed⟩ := hs.once fd hfd
  · exact ⟨Nat.le_of_eq h, fun _ => h⟩
  · refine ⟨by omega, fun hafter => ?_⟩
    rw [hdestroyed] at hafter
    contradiction

theorem uses_close (fd fd' : Fd) (s : State) :
    (close (some fd) s).uses fd' = s.uses fd' + if fd = fd' then 1 else 0 := by
  simp only [State.uses, close, Option.toList_some, List.count_append, List.count_singleton,
    beq_iff_eq]
  omega

theorem close_none (s : State) : close none s = s := by
  rw [close, Option.toList_none, List.append_nil]

theorem uses_of_not_open (hs : Owned s) (hopen : s.fdOpen = false) :
    (∀ fd < s.sockets, s.uses fd = 1) ∧ s.channel = none := by
  have hused : ∀ fd < s.sockets, s.uses fd = 1 := by
    intro fd hfd
    obtain h | ⟨h, heq, -⟩ := hs.once fd hfd
    · exact h
    · simp [State.fdOpen, heq, h] at hopen
  refine ⟨hused, ?_⟩
  cases hchannel : s.channel with
  | none => rfl
  | some fd =>
      obtain ⟨hfd, hzero⟩ := hs.channel fd hchannel
      exact absurd (hused fd hfd) (by omega)

theorem owned_of_uses (hused : ∀ fd < s.sockets, s.uses fd = 1)
    (hfresh : ∀ fd, s.sockets ≤ fd → s.uses fd = 0) (hfd : ∀ fd, s.fd = some fd → fd < s.sockets)
    (hchannel : s.channel = none) : Owned s where
  once := fun fd hfd => .inl (hused fd hfd)
  fresh := hfresh
  fd := hfd
  channel := by simp [hchannel]

theorem owned_of_attempt {e : Errno} {a : Agenda} (hs : Owned s) (hdestroyed : s.destroyed = false)
    (hopen : s.fdOpen = false) (h : Attempt (s.withAgenda a) e s') : Owned s' := by
  obtain ⟨hused, hchannel⟩ := uses_of_not_open hs hopen
  have hnew : s.uses s.sockets = 0 := hs.fresh s.sockets (Nat.le_refl _)
  have hbeyond : ∀ fd, s.sockets + 1 ≤ fd → s.uses fd = 0 :=
    fun fd hfd => hs.fresh fd (Nat.le_of_succ_le hfd)
  have honce : ∀ fd < s.sockets + 1, s.uses fd = 1 ∨
      s.uses fd = 0 ∧ some s.sockets = some fd ∧ false = false ∧ s.destroyed = false := by
    intro fd hfd
    obtain hlt | rfl := Nat.lt_succ_iff_lt_or_eq.mp hfd
    · exact .inl (hused fd hlt)
    · exact .inr ⟨hnew, rfl, rfl, hdestroyed⟩
  have hclosed : ∀ fd < s.sockets + 1, (close (some s.sockets) s).uses fd = 1 := by
    intro fd hfd
    rw [uses_close]
    obtain hlt | rfl := Nat.lt_succ_iff_lt_or_eq.mp hfd
    · rw [hused fd hlt, if_neg (Nat.ne_of_gt hlt)]
    · rw [hnew, if_pos rfl]
  have hunclosed : ∀ fd, s.sockets + 1 ≤ fd → (close (some s.sockets) s).uses fd = 0 := by
    intro fd hfd
    rw [uses_close, hbeyond fd hfd, if_neg (Nat.ne_of_lt hfd)]
  have hnewest : ∀ fd, some s.sockets = some fd → fd < s.sockets + 1 := by
    intro fd hfd
    obtain rfl := Option.some.inj hfd
    exact Nat.lt_succ_self s.sockets
  cases h with
  | connecting =>
      refine ⟨honce, hbeyond, hnewest, ?_⟩
      intro fd hfd
      obtain rfl := Option.some.inj hfd
      exact ⟨Nat.lt_succ_self _, hnew⟩
  | retried => exact owned_of_uses hclosed hunclosed hnewest hchannel
  | abandoned =>
      refine ⟨honce, hbeyond, hnewest, ?_⟩
      intro fd hfd
      exact absurd (hchannel.symm.trans hfd) (Option.some_ne_none fd).symm
  | failed =>
      rw [reportError_eq]
      exact owned_of_uses hclosed hunclosed hnewest hchannel

theorem fd_of_channel {fd : Fd} (hs : Owned s) (hchannel : s.channel = some fd) :
    s.fd = some fd ∧ s.uses fd = 0 := by
  obtain ⟨hlt, hzero⟩ := hs.channel fd hchannel
  obtain h | ⟨-, h, -⟩ := hs.once fd hlt
  · omega
  · exact ⟨h, hzero⟩

theorem owned_of_open {fd : Fd} (hs : Owned s) (hfd : s.fd = some fd ∧ s.uses fd = 0)
    (hsockets : s'.sockets = s.sockets) (hsame : s'.fd = s.fd)
    (huses : ∀ fd', s'.uses fd' = s.uses fd' + if fd = fd' then 1 else 0)
    (hnone : s'.channel = none) : Owned s' := by
  obtain ⟨hfd, hzero⟩ := hfd
  have hlt := hs.fd fd hfd
  apply owned_of_uses _ _ (by rw [hsame, hsockets]; exact hs.fd) hnone
  · intro fd' hfd'
    rw [hsockets] at hfd'
    rw [huses]
    obtain h | ⟨h, heq, -⟩ := hs.once fd' hfd'
    · have hne : fd ≠ fd' := by
        rintro rfl
        omega
      rw [h, if_neg hne]
    · obtain rfl := Option.some.inj (hfd.symm.trans heq)
      rw [h, if_pos rfl]
  · intro fd' hfd'
    rw [hsockets] at hfd'
    rw [huses, hs.fresh fd' hfd', if_neg (Nat.ne_of_lt (Nat.lt_of_lt_of_le hlt hfd'))]

theorem Careful.not_open {e : Errno} (h : Careful s t) (hstarts : startsAttempt s t = some e) :
    s.fdOpen = false := by
  cases t with
  | start | functor | timer =>
      refine h.resolve_left ?_
      rw [hstarts]
      exact Option.some_ne_none e
  | stop | startElsewhere | queueStart | stopElsewhere | queueStop | event | handler | destroy =>
      simp [startsAttempt] at hstarts

theorem owned_of_destroy (hs : Owned s) (hchannel : s.channel = none)
    (hcareful : s.socketHanded = true ∨ s.fd = none ∨ s.fdOpen = true) (timers : List Nat) :
    Owned (if s.socketHanded = false then close s.fd { s with timers, destroyed := true }
      else { s with timers, destroyed := true }) := by
  split
  · rename_i hhanded
    rw [hhanded] at hcareful
    cases hfd : s.fd with
    | none =>
        have hused : ∀ fd < s.sockets, s.uses fd = 1 := by
          intro fd hlt
          obtain h | ⟨-, h, -⟩ := hs.once fd hlt
          · exact h
          · exact absurd (hfd.symm.trans h) (Option.some_ne_none fd).symm
        rw [close_none]
        exact owned_of_uses hused hs.fresh nofun hchannel
    | some fd =>
        have hzero : s.uses fd = 0 := by simpa [hfd, State.fdOpen] using hcareful
        exact owned_of_open hs ⟨hfd, hzero⟩ rfl hfd.symm (fun fd' => uses_close fd fd' s) hchannel
  · rename_i hhanded
    have hused : ∀ fd < s.sockets, s.uses fd = 1 := by
      intro fd hfd
      obtain h | ⟨-, -, h, -⟩ := hs.once fd hfd
      · exact h
      · exact absurd h hhanded
    exact owned_of_uses hused hs.fresh hs.fd hchannel

theorem step_owned (hdispatched : Dispatched s) (hs : Owned s) (hcareful : Careful s t)
    (h : step s t = some s') : Owned s' := by
  have hdestroyed := destroyed_of_step h
  cases move_of_step h with
  | attempt hstarts _ _ hattempt =>
      exact owned_of_attempt hs hdestroyed (hcareful.not_open hstarts) hattempt
  | idle hstatus =>
      obtain ⟨hused, hchannel⟩ := uses_of_not_open hs (hcareful.resolve_left hstatus)
      exact owned_of_uses hused hs.fresh hs.fd hchannel
  | handed hstatus hdispatch =>
      obtain ⟨fd, hchannel⟩ :=
        Option.ne_none_iff_exists'.mp (hdispatched.channel hstatus hdispatch)
      have huses : ∀ fd', State.uses { s with handed := s.handed ++ s.channel.toList } fd' =
          s.uses fd' + if fd = fd' then 1 else 0 := by
        intro fd'
        simp only [State.uses, hchannel, Option.toList_some, List.count_append,
          List.count_singleton, beq_iff_eq]
        omega
      exact owned_of_open hs (fd_of_channel hs hchannel) rfl rfl huses rfl
  | dropped hstatus hdispatch =>
      obtain ⟨fd, hchannel⟩ :=
        Option.ne_none_iff_exists'.mp (hdispatched.channel hstatus hdispatch)
      rw [hchannel]
      exact owned_of_open hs (fd_of_channel hs hchannel) rfl rfl (fun fd' => uses_close fd fd' s)
        rfl
  | failed hfails hdispatch =>
      obtain ⟨fd, hchannel⟩ :=
        Option.ne_none_iff_exists'.mp (hdispatched.channel hfails.1 (by simp [hdispatch]))
      rw [hchannel]
      exact owned_of_open hs (fd_of_channel hs hchannel) rfl rfl (fun fd' => uses_close fd fd' s)
        rfl
  | stop => exact ⟨hs.once, hs.fresh, hs.fd, nofun⟩
  | plain => exact ⟨hs.once, hs.fresh, hs.fd, hs.channel⟩
  | destroy hchannel => exact owned_of_destroy hs hchannel hcareful []

theorem owned_init (retry errorCallback : Bool) : Owned (State.init retry errorCallback) := by
  apply owned_of_uses
  · exact fun fd hfd => absurd hfd (Nat.not_lt_zero fd)
  · exact fun _ _ => rfl
  · exact nofun
  · rfl

/-- In every run whose steps all meet the condition, each socket is handed over or closed, once, by
the time the connector is destroyed. -/
theorem ownedOnce_of_careful {retry errorCallback : Bool} {ts : List Action}
    (hcareful : AllSteps step Careful (State.init retry errorCallback) ts)
    (hrun : runSteps step (State.init retry errorCallback) ts = some s) : OwnedOnce s := by
  apply ownedOnce_of_owned
  refine (hcareful.invariant (fun s => Dispatched s ∧ Owned s) ?_ ?_ hrun).2
  · intro s t s' hs hcareful h
    exact ⟨step_dispatched hs.1 h, step_owned hs.1 hs.2 hcareful h⟩
  · exact ⟨dispatched_init retry errorCallback, owned_init retry errorCallback⟩

theorem ownedOnce_stopped :
    OwnedOnce ((runSteps step (State.init true true) [.start .ECONNREFUSED, .timer 0 .EINPROGRESS,
      .stop, .destroy]).get (by decide)) :=
  ownedOnce_of_careful (by decide) (Option.some_get _).symm

/-- The network is unreachable: `retry` closes the socket, and so does `~Connector`. -/
theorem not_ownedOnce_retry :
    ¬ ∀ ts s, runSteps step (State.init true true) ts = some s → OwnedOnce s := by
  intro h
  have hclosed := h [.start .ENETUNREACH, .destroy] _ rfl 0 (by decide)
  exact absurd hclosed.1 (by decide)

end Owned

end Cooper.Connector

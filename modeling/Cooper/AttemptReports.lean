import Cooper.Connector

namespace Cooper.Connector

open Cooper.StepRun

section Property

def Ends (s s' : State) (fd : Fd) : Prop :=
  (s.channel = some fd ∨ fd = s.sockets ∧ s'.sockets = s.sockets + 1) ∧ s'.channel ≠ some fd

/-- `newConnectionCallback_` has been invoked once, `errorCallback_` is, or a retry is scheduled. -/
def Reported (s s' : State) (fd : Fd) : Prop :=
  s'.handed.count fd = 1 ∨ s.errors < s'.errors ∨ s.retries < s'.retries

def Stops (s : State) (t : Action) : Prop := TakesEffect s t ∧ (t = .stop ∨ s.status ≠ .Connecting)

def Reports (s : State) (t : Action) : Prop :=
  ∀ s', step s t = some s' →
    s'.handed.Nodup ∧ (¬ Stops s t → ∀ fd, Ends s s' fd → Reported s s' fd)

def Abandons (s : State) (t : Action) : Prop :=
  ∃ e, startsAttempt s t = some e ∧
    (e.refused = true ∧ s.retry = false ∨
      e.progresses = false ∧ e.refused = false ∧ s.errorCallback = false)

/-- The attempt ends without a callback: in `connect`, in a handler, or by a `stop` that has been
called before it. -/
def Silent (s : State) (t : Action) : Prop :=
  s.destroyed = false ∧
    (Abandons s t ∨ Fails s t ∧ s.retry = false ∧ s.errorCallback = false ∨
      TakesEffect s t ∧ ¬ Stops s t ∧ s.channel ≠ none)

instance (s s' : State) (fd : Fd) : Decidable (Reported s s' fd) :=
  inferInstanceAs (Decidable (_ ∨ _))

end Property

section Attempting

variable {s s' : State} {t : Action}

structure Attempting (s : State) : Prop where
  connect : s.channel ≠ none → s.connect = true
  channel : ∀ fd, s.channel = some fd → fd < s.sockets ∧ fd ∉ s.handed
  handed : ∀ fd ∈ s.handed, fd < s.sockets
  nodup : s.handed.Nodup

theorem attempting_of_channel_none (hs : Attempting s) (hchannel : s'.channel = none)
    (hsockets : s.sockets ≤ s'.sockets) (hhanded : s'.handed = s.handed) : Attempting s' where
  connect := fun h => absurd hchannel h
  channel := by simp [hchannel]
  handed := by
    rw [hhanded]
    exact fun fd hfd => Nat.lt_of_lt_of_le (hs.handed fd hfd) hsockets
  nodup := by
    rw [hhanded]
    exact hs.nodup

theorem attempting_of_channel (hs : Attempting s) (hconnect : s.connect = true → s'.connect = true)
    (hchannel : s'.channel = s.channel) (hsockets : s.sockets ≤ s'.sockets)
    (hhanded : s'.handed = s.handed) : Attempting s' := by
  refine ⟨?_, ?_, ?_, ?_⟩
  · rw [hchannel]
    exact fun h => hconnect (hs.connect h)
  · rw [hchannel, hhanded]
    exact fun fd hfd => (hs.channel fd hfd).imp_left (Nat.lt_of_lt_of_le · hsockets)
  · rw [hhanded]
    exact fun fd hfd => Nat.lt_of_lt_of_le (hs.handed fd hfd) hsockets
  · rw [hhanded]
    exact hs.nodup

theorem attempting_of_attempt {e : Errno} {a : Agenda} (hs : Attempting s)
    (hconnect : a.connect = true) (h : Attempt (s.withAgenda a) e s') : Attempting s' := by
  have hafter : s'.connect = true := (connect_of_attempt h).trans hconnect
  cases h with
  | connecting =>
      refine ⟨fun _ => hconnect, ?_, ?_, hs.nodup⟩
      · intro fd hfd
        obtain rfl := Option.some.inj hfd
        exact ⟨Nat.lt_succ_self _, fun hmem => Nat.lt_irrefl _ (hs.handed _ hmem)⟩
      · exact fun fd hfd => Nat.lt_succ_of_lt (hs.handed fd hfd)
  | retried | abandoned =>
      exact attempting_of_channel hs (fun _ => hafter) rfl (Nat.le_succ s.sockets) rfl
  | failed =>
      rw [reportError_eq] at hafter ⊢
      exact attempting_of_channel hs (fun _ => hafter) rfl (Nat.le_succ s.sockets) rfl

theorem step_attempting (hs : Attempting s) (h : step s t = some s') : Attempting s' := by
  cases move_of_step h with
  | attempt _ _ hconnect hattempt => exact attempting_of_attempt hs hconnect hattempt
  | idle _ hfollows | plain hfollows =>
      exact attempting_of_channel hs hfollows.connect rfl (Nat.le_refl _) rfl
  | handed =>
      refine ⟨fun h => absurd rfl h, nofun, ?_, ?_⟩
      · intro fd hfd
        obtain hmem | hmem := List.mem_append.mp hfd
        · exact hs.handed fd hmem
        · exact (hs.channel fd (Option.mem_toList.mp hmem)).1
      · cases hchannel : s.channel with
        | none => simpa using hs.nodup
        | some fd =>
            simp only [Option.toList_some, List.nodup_append, List.nodup_cons, List.not_mem_nil]
            refine ⟨hs.nodup, by simp, ?_⟩
            rintro fd' hmem fd'' hfd rfl
            obtain rfl := List.mem_singleton.mp hfd
            exact (hs.channel _ hchannel).2 hmem
  | dropped | failed | stop => exact attempting_of_channel_none hs rfl (Nat.le_refl _) rfl
  | destroy hchannel =>
      split
      · exact attempting_of_channel_none hs hchannel (Nat.le_refl _) rfl
      · exact attempting_of_channel_none hs hchannel (Nat.le_refl _) rfl

end Attempting

section Result

variable {s s' : State} {t : Action}

theorem not_reported (hhanded : s'.handed = s.handed) {fd : Fd} (hfd : fd ∉ s.handed)
    (herrors : s'.errors = s.errors) (hretries : s'.retries = s.retries) :
    ¬ Reported s s' fd := by
  simp [Reported, hhanded, List.count_eq_zero_of_not_mem hfd, herrors, hretries]

theorem not_ends (hchannel : s'.channel = s.channel) (hsockets : s'.sockets = s.sockets) (fd : Fd) :
    ¬ Ends s s' fd := by
  rintro ⟨h | ⟨-, h⟩, hne⟩
  · exact hne (hchannel.trans h)
  · omega

theorem ends_new (hs : Attempting s) (hchannel : s'.channel = s.channel)
    (hsockets : s'.sockets = s.sockets + 1) : Ends s s' s.sockets := by
  refine ⟨.inr ⟨rfl, hsockets⟩, ?_⟩
  rw [hchannel]
  intro h
  exact Nat.lt_irrefl _ (hs.channel _ h).1

theorem sockets_not_handed (hs : Attempting s) : s.sockets ∉ s.handed :=
  fun hmem => Nat.lt_irrefl _ (hs.handed _ hmem)

theorem not_of_startsAttempt {e : Errno} (h : startsAttempt s t = some e) :
    ¬ Fails s t ∧ ¬ TakesEffect s t := by
  cases t with
  | start | timer => exact ⟨fun h => h, fun h => h⟩
  | functor =>
      refine ⟨fun h => h, fun heffect => ?_⟩
      simp [startsAttempt, heffect.2.2] at h
  | stop | startElsewhere | queueStart | stopElsewhere | queueStop | event | handler | destroy =>
      simp [startsAttempt] at h

theorem silent_iff_of_startsAttempt {e : Errno} (hdestroyed : s.destroyed = false)
    (hstarts : startsAttempt s t = some e) :
    Silent s t ↔ e.refused = true ∧ s.retry = false ∨
      e.progresses = false ∧ e.refused = false ∧ s.errorCallback = false := by
  obtain ⟨hfails, heffect⟩ := not_of_startsAttempt hstarts
  simp [Silent, Abandons, hdestroyed, hstarts, hfails, heffect]

theorem silent_iff_of_fails (hdestroyed : s.destroyed = false) (hfails : Fails s t) :
    Silent s t ↔ s.retry = false ∧ s.errorCallback = false := by
  cases t with
  | handler => simp [Silent, Abandons, startsAttempt, hdestroyed, hfails, TakesEffect]
  | start | stop | startElsewhere | queueStart | stopElsewhere | queueStop | event | functor | timer
  | destroy => exact hfails.elim

theorem silent_iff_of_takesEffect (hdestroyed : s.destroyed = false) (heffect : TakesEffect s t) :
    Silent s t ↔ ¬ Stops s t ∧ s.channel ≠ none := by
  have hfails : ¬ Fails s t := by
    intro hfails
    cases t with
    | handler => exact heffect
    | _ => exact hfails
  have habandons : ¬ Abandons s t := by
    rintro ⟨e, hstarts, -⟩
    exact (not_of_startsAttempt hstarts).2 heffect
  simp [Silent, hdestroyed, habandons, hfails, heffect]

theorem reports_of_attempt {e : Errno} {a : Agenda} (hs : Attempting s)
    (hfollows : a.Follows s) (h : Attempt (s.withAgenda a) e s') :
    (∀ fd, Ends s s' fd → Reported s s' fd) ↔
      ¬ (e.refused = true ∧ s.retry = false ∨
        e.progresses = false ∧ e.refused = false ∧ s.errorCallback = false) := by
  cases h with
  | connecting hprogresses hchannel =>
      apply iff_of_true
      · rintro fd ⟨h | ⟨rfl, -⟩, hne⟩
        · exact absurd (hchannel.symm.trans h) (Option.some_ne_none fd).symm
        · exact absurd rfl hne
      · cases e <;> simp_all [Errno.progresses, Errno.refused]
  | retried hrefused hretry =>
      have hretry : s.retry = true := hretry
      apply iff_of_true
      · refine fun fd _ => .inr (.inr ?_)
        change s.retries < a.retries + 1
        rw [hfollows.retries]
        exact Nat.lt_succ_self s.retries
      · simp [hrefused, hretry]
  | abandoned hrefused hretry =>
      apply iff_of_false
      · intro h
        refine not_reported ?_ (sockets_not_handed hs) ?_ ?_ (h _ (ends_new hs rfl rfl))
        · rfl
        · exact hfollows.errors
        · exact hfollows.retries
      · exact not_not.mpr (.inl ⟨hrefused, hretry⟩)
  | failed hprogresses hrefused =>
      rw [reportError_eq]
      cases hcallback : s.errorCallback with
      | true =>
          apply iff_of_true
          · refine fun fd _ => .inr (.inl ?_)
            change s.errors < a.errors + if s.errorCallback then 1 else 0
            rw [hfollows.errors, hcallback]
            exact Nat.lt_succ_self s.errors
          · simp [hrefused]
      | false =>
          apply iff_of_false
          · intro h
            refine not_reported ?_ (sockets_not_handed hs) ?_ ?_ (h _ (ends_new hs rfl rfl))
            · rfl
            · change a.errors + (if s.errorCallback then 1 else 0) = s.errors
              rw [hfollows.errors, hcallback]
              rfl
            · exact hfollows.retries
          · exact not_not.mpr (.inr ⟨hprogresses, hrefused, rfl⟩)

theorem reports_of_failed (hs : Attempting s) {fd : Fd} (hchannel : s.channel = some fd)
    (hafter : s'.channel = none) (hhanded : s'.handed = s.handed)
    (herrors : s'.errors = s.errors + if s.errorCallback then 1 else 0)
    (hretries : s'.retries = s.retries + if s.retry ∧ s.connect then 1 else 0) :
    (∀ fd, Ends s s' fd → Reported s s' fd) ↔ ¬ (s.retry = false ∧ s.errorCallback = false) := by
  have hconnect := hs.connect (by simp [hchannel])
  have hends : Ends s s' fd := ⟨.inl hchannel, by simp [hafter]⟩
  cases hcallback : s.errorCallback with
  | true =>
      rw [hcallback] at herrors
      exact iff_of_true (fun _ _ => .inr (.inl (by simp [herrors]))) (by simp)
  | false =>
      rw [hcallback] at herrors
      cases hretry : s.retry with
      | true =>
          refine iff_of_true (fun _ _ => .inr (.inr ?_)) (by simp)
          simp [hretries, hretry, hconnect]
      | false =>
          refine iff_of_false (fun h => ?_) (by simp)
          refine not_reported hhanded (hs.channel fd hchannel).2 herrors ?_ (h fd hends)
          simp [hretries, hretry]

theorem reports_of_stop (hs : Attempting s) (hafter : s'.channel = none)
    (hsockets : s'.sockets = s.sockets) (hhanded : s'.handed = s.handed)
    (herrors : s'.errors = s.errors) (hretries : s'.retries = s.retries) :
    (∀ fd, Ends s s' fd → Reported s s' fd) ↔ ¬ s.channel ≠ none := by
  rw [not_not]
  constructor
  · intro h
    by_contra hne
    obtain ⟨fd, hchannel⟩ := Option.ne_none_iff_exists'.mp hne
    apply not_reported hhanded (hs.channel fd hchannel).2 herrors hretries
    exact h fd ⟨.inl hchannel, by simp [hafter]⟩
  · intro hchannel fd hends
    exact absurd hends (not_ends (hafter.trans hchannel.symm) hsockets fd)

theorem reports_of_step (hdispatched : Dispatched s) (hs : Attempting s) (h : step s t = some s') :
    (¬ Stops s t → ∀ fd, Ends s s' fd → Reported s s' fd) ↔ ¬ Silent s t := by
  have hdestroyed := destroyed_of_step h
  cases move_of_step h with
  | attempt hstarts hfollows _ hattempt =>
      have hstops : ¬ Stops s t := fun hstops => (not_of_startsAttempt hstarts).2 hstops.1
      rw [silent_iff_of_startsAttempt hdestroyed hstarts, forall_prop_of_true hstops]
      exact reports_of_attempt hs hfollows hattempt
  | idle hstatus =>
      refine iff_of_true (fun _ fd hends => absurd hends (not_ends rfl rfl fd)) ?_
      simp [Silent, Abandons, startsAttempt, Fails, TakesEffect, hstatus]
  | handed hstatus hdispatch hfails =>
      refine iff_of_true ?_ ?_
      · rintro - fd ⟨hchannel | ⟨-, hsockets⟩, -⟩
        · refine .inl ?_
          change (s.handed ++ s.channel.toList).count fd = 1
          simp [hchannel, List.count_eq_zero_of_not_mem (hs.channel fd hchannel).2]
        · exact absurd hsockets (Nat.ne_of_lt (Nat.lt_succ_self _))
      · simp [Silent, Abandons, startsAttempt, hfails, TakesEffect]
  | dropped hstatus hdispatch _ _ hconnect =>
      have hafter := hs.connect (hdispatched.channel hstatus hdispatch)
      exact absurd (hafter.symm.trans hconnect) (by decide)
  | failed hfails hdispatch _ _ _ herrors hretries =>
      obtain ⟨fd, hchannel⟩ :=
        Option.ne_none_iff_exists'.mp (hdispatched.channel hfails.1 (by simp [hdispatch]))
      rw [forall_prop_of_true fun hstops => hstops.1, silent_iff_of_fails hdestroyed hfails]
      apply reports_of_failed hs hchannel
      · rfl
      · rfl
      · exact herrors
      · exact hretries
  | stop heffect hfollows _ hstatus =>
      rw [silent_iff_of_takesEffect hdestroyed heffect, not_and]
      apply imp_congr_right
      intro hstops
      apply reports_of_stop hs
      · rfl
      · rfl
      · rfl
      · exact hfollows.errors
      · exact hfollows.retries
  | plain hfollows hstarts heffect hhandler hstatus =>
      refine iff_of_true (fun _ fd hends => absurd hends (not_ends rfl rfl fd)) ?_
      have hfails : ¬ Fails s t := by
        intro hfails
        cases t with
        | handler err selfConnect => exact hhandler err selfConnect rfl
        | _ => exact hfails
      simp [Silent, Abandons, hstarts, hfails, heffect]
  | destroy hchannel =>
      refine iff_of_true (fun _ fd hends => ?_) ?_
      · refine absurd hends (not_ends ?_ ?_ fd)
        · split <;> rfl
        · split <;> rfl
      · simp [Silent, Abandons, startsAttempt, Fails, TakesEffect]

theorem step_of_silent (h : Silent s t) : ∃ s', step s t = some s' := by
  obtain ⟨hdestroyed, ⟨e, hstarts, hends⟩ | ⟨hfails, -⟩ | ⟨heffect, -⟩⟩ := h
  · obtain ⟨a, -, -, heq⟩ := step_of_startsAttempt hdestroyed hstarts
    obtain ⟨hrefused, hretry⟩ | ⟨hprogresses, hrefused, -⟩ := hends
    · have hretry : (s.withAgenda a).retry = false := hretry
      rw [connect_of_refused hrefused, hretry] at heq
      exact ⟨_, heq⟩
    · rw [connect_of_failed hprogresses hrefused] at heq
      exact ⟨_, heq⟩
  · exact step_of_fails hdestroyed hfails
  · obtain ⟨status, funcs, hstep, -⟩ := step_of_takesEffect heffect
    exact ⟨_, hstep⟩

theorem reports_iff (hs : Dispatched s ∧ Attempting s) : Reports s t ↔ ¬ Silent s t := by
  constructor
  · intro hreports hsilent
    obtain ⟨s', hs'⟩ := step_of_silent hsilent
    exact (reports_of_step hs.1 hs.2 hs').mp (hreports s' hs').2 hsilent
  · intro hsilent s' hs'
    exact ⟨(step_attempting hs.2 hs').nodup, (reports_of_step hs.1 hs.2 hs').mpr hsilent⟩

theorem reports_run_iff (retry errorCallback : Bool) (ts : List Action) :
    AllSteps step Reports (State.init retry errorCallback) ts ↔
      AllSteps step (fun s t => ¬ Silent s t) (State.init retry errorCallback) ts := by
  apply allSteps_iff (fun s => Dispatched s ∧ Attempting s) _ fun _ _ => reports_iff
  · refine ⟨dispatched_init retry errorCallback, ?_, nofun, nofun, List.Pairwise.nil⟩
    exact fun h => absurd rfl h
  · exact fun s t s' hs h => ⟨step_dispatched hs.1 h, step_attempting hs.2 h⟩

/-- Without `retry_`, a refused connection is not reported to anybody. -/
theorem not_reports_refused : ¬ ∀ ts, AllSteps step Reports (State.init false true) ts := by
  intro h
  have hreports := (h [.start .ECONNREFUSED]).1 _ rfl
  have hreported := hreports.2 (fun hstops => hstops.1) 0 ⟨.inr ⟨rfl, rfl⟩, by decide⟩
  revert hreported
  decide

end Result

end Cooper.Connector

import Cooper.Connector

namespace Cooper.Connector

open Cooper.StepRun

section Final

variable {s s' : State} {t : Action}

def Action.starts : Action → Bool
  | .start _ | .startElsewhere => true
  | _ => false

/-- Until `start` is called again, `connect` is not executed and no connection is handed over. -/
def Final (s : State) : Prop :=
  ∀ ts s', (∀ t ∈ ts, t.starts = false) → runSteps step s ts = some s' →
    s'.sockets = s.sockets ∧ s'.handed = s.handed

def StopIsFinal (s : State) (t : Action) : Prop :=
  TakesEffect s t → ∀ s', step s t = some s' → Final s'

/-- No attempt goes on, and none is going to be made. -/
structure Quiet (s : State) : Prop where
  timers : s.timers = []
  funcs : Functor.startInLoop ∉ s.funcs
  starting : s.starting = 0
  channel : s.channel = none
  status : s.status = .Disconnected ∨ s.dispatch = []

theorem runHandler_of_disconnected (err : Nat) (selfConnect : Bool) (handler : Handler)
    (hstatus : s.status = .Disconnected) :
    runHandler err selfConnect s handler = some { s with socketHanded := true } := by
  cases handler <;> simp [runHandler, handleError, handleWrite, hstatus]

theorem step_quiet (hs : Quiet s) (ht : t.starts = false) (h : step s t = some s') :
    Quiet s' ∧ s'.sockets = s.sockets ∧ s'.handed = s.handed := by
  obtain ⟨htimers, hfuncs, hstarting, hchannel, hstatus⟩ := hs
  simp only [step] at h
  obtain ⟨-, h⟩ := Option.ite_none_left_eq_some.mp h
  cases t with
  | start | startElsewhere => contradiction
  | stop =>
      obtain ⟨-, h⟩ := Option.ite_none_right_eq_some.mp h
      obtain rfl := Option.some.inj h
      exact ⟨⟨htimers, hfuncs, hstarting, rfl, .inl rfl⟩, rfl, rfl⟩
  | queueStart => simp [hstarting] at h
  | stopElsewhere =>
      obtain rfl := Option.some.inj h
      exact ⟨⟨htimers, hfuncs, hstarting, hchannel, .inl rfl⟩, rfl, rfl⟩
  | queueStop =>
      obtain ⟨-, h⟩ := Option.ite_none_left_eq_some.mp h
      obtain rfl := Option.some.inj h
      exact ⟨⟨htimers, by simpa using hfuncs, hstarting, hchannel, hstatus⟩, rfl, rfl⟩
  | event revents => simp [hchannel] at h
  | handler err selfConnect =>
      cases hdispatch : s.dispatch with
      | nil => simp [hdispatch] at h
      | cons handler rest =>
          simp only [hdispatch] at h
          have hdisconnected : s.status = .Disconnected :=
            hstatus.resolve_right (by simp [hdispatch])
          have heq := runHandler_of_disconnected err selfConnect handler
            (s := { s with dispatch := rest, inCallback := false }) hdisconnected
          obtain rfl := Option.some.inj (heq.symm.trans h)
          exact ⟨⟨htimers, hfuncs, hstarting, hchannel, .inl hdisconnected⟩, rfl, rfl⟩
  | functor savedErrno =>
      dsimp only at h
      split at h
      · rename_i hqueue
        simp [hqueue] at hfuncs
      · rename_i rest hdispatch hqueue
        obtain rfl := Option.some.inj h
        have hrest : Functor.startInLoop ∉ rest := by simpa [hqueue] using hfuncs
        exact ⟨⟨htimers, hrest, hstarting, rfl, .inr hdispatch⟩, rfl, rfl⟩
      · contradiction
  | timer i savedErrno => simp [htimers] at h
  | destroy =>
      obtain ⟨-, h⟩ := Option.ite_none_right_eq_some.mp h
      obtain rfl := Option.some.inj h
      split
      · exact ⟨⟨rfl, hfuncs, hstarting, hchannel, hstatus⟩, rfl, rfl⟩
      · exact ⟨⟨rfl, hfuncs, hstarting, hchannel, hstatus⟩, rfl, rfl⟩

theorem final_of_quiet (hs : Quiet s) : Final s := by
  intro ts
  induction ts generalizing s with
  | nil =>
      rintro s' - hrun
      obtain rfl := Option.some.inj hrun
      exact ⟨rfl, rfl⟩
  | cons t ts ih =>
      intro s' hstarts hrun
      rw [runSteps_cons] at hrun
      obtain ⟨next, hnext, hrest⟩ := Option.bind_eq_some_iff.mp hrun
      obtain ⟨hquiet, hsockets, hhanded⟩ := step_quiet hs (hstarts t List.mem_cons_self) hnext
      have hlater := ih hquiet s' (fun t ht => hstarts t (List.mem_cons_of_mem _ ht)) hrest
      exact ⟨hlater.1.trans hsockets, hlater.2.trans hhanded⟩

theorem not_final_of_step (ht : t.starts = false) (h : step s t = some s')
    (hsockets : s'.sockets = s.sockets) (hhanded : s'.handed = s.handed) (hs' : ¬ Final s') :
    ¬ Final s := by
  intro hfinal
  apply hs'
  intro ts last hstarts hrun
  rw [hsockets, hhanded]
  apply hfinal (t :: ts) last (by simpa [ht] using hstarts)
  rw [runSteps_cons, h]
  exact hrun

theorem not_final_of_socket (ht : t.starts = false) (h : step s t = some s')
    (hsockets : s'.sockets ≠ s.sockets) : ¬ Final s := by
  intro hfinal
  refine hsockets (hfinal [t] s' (by simpa using ht) ?_).1
  rw [runSteps_cons, h]
  rfl

theorem not_final_of_startsAttempt (hdestroyed : s.destroyed = false) (ht : t.starts = false)
    (hstarts : startsAttempt s t = some .EACCES) : ¬ Final s := by
  obtain ⟨a, -, -, heq⟩ := step_of_startsAttempt hdestroyed hstarts
  rw [connect_of_failed rfl rfl, reportError_eq] at heq
  apply not_final_of_socket ht heq
  exact Nat.succ_ne_self s.sockets

structure Ready (s : State) : Prop where
  destroyed : s.destroyed = false
  dispatch : s.dispatch = []
  status : s.status = .Disconnected
  connect : s.connect = true

theorem not_final_of_timers (hs : Ready s) (htimers : s.timers ≠ []) : ¬ Final s := by
  apply not_final_of_startsAttempt (t := .timer 0 .EACCES) hs.destroyed rfl
  simp [startsAttempt, hs.dispatch, hs.status, hs.connect, List.length_pos_iff.mpr htimers]

theorem not_final_of_startInLoop (hs : Ready s) (hfuncs : Functor.startInLoop ∈ s.funcs) :
    ¬ Final s := by
  induction hqueue : s.funcs generalizing s with
  | nil => simp [hqueue] at hfuncs
  | cons functor rest ih =>
      cases functor with
      | startInLoop =>
          apply not_final_of_startsAttempt (t := .functor .EACCES) hs.destroyed rfl
          simp [startsAttempt, hs.dispatch, hs.status, hs.connect, hqueue]
      | removeAndResetChannel =>
          have hstep : step s (.functor .EACCES) =
              some { s with funcs := rest, channel := none } := by
            simp [step, hs.destroyed, hs.dispatch, hqueue, removeAndResetChannel]
          apply not_final_of_step rfl hstep rfl rfl
          refine ih ⟨hs.destroyed, hs.dispatch, hs.status, hs.connect⟩ ?_ rfl
          simpa [hqueue] using hfuncs

theorem not_final_of_pending (hs : Ready s) (hpending : s.agenda.StartPending) : ¬ Final s := by
  obtain htimers | hfuncs | hstarting := hpending
  · exact not_final_of_timers hs htimers
  · exact not_final_of_startInLoop hs hfuncs
  · have hstarting : s.starting ≠ 0 := hstarting
    have hstep : step s .queueStart =
        some { s with starting := s.starting - 1, funcs := s.funcs ++ [.startInLoop] } := by
      simp [step, hs.destroyed, hstarting]
    apply not_final_of_step rfl hstep rfl rfl
    refine not_final_of_startInLoop ⟨hs.destroyed, hs.dispatch, hs.status, hs.connect⟩ ?_
    simp

theorem not_final_of_disconnected (hdestroyed : s.destroyed = false)
    (hstatus : s.status = .Disconnected) (hconnect : s.connect = true)
    (hpending : s.agenda.StartPending) : ¬ Final s := by
  induction hdispatch : s.dispatch generalizing s with
  | nil => exact not_final_of_pending ⟨hdestroyed, hdispatch, hstatus, hconnect⟩ hpending
  | cons handler rest ih =>
      have hstep : step s (.handler 0 false) =
          some { s with dispatch := rest, inCallback := false, socketHanded := true } := by
        simp [step, hdestroyed, hdispatch, runHandler_of_disconnected, hstatus]
      apply not_final_of_step rfl hstep rfl rfl
      exact ih hdestroyed hstatus hconnect hpending rfl

def Asked (s : State) : Prop := s.agenda.StartPending → s.connect = true

theorem step_asked (hs : Asked s) (h : step s t = some s') : Asked s' := by
  have hkept {a : Agenda} (hfollows : a.Follows s) (hpending : a.StartPending) :
      a.connect = true := by
    obtain hconnect | hbefore := hfollows.pending hpending
    · exact hconnect
    · exact hfollows.connect (hs hbefore)
  cases move_of_step h with
  | attempt _ _ hconnect hattempt =>
      intro _
      rw [connect_of_attempt hattempt]
      exact hconnect
  | idle _ hfollows | handed _ _ _ hfollows | dropped _ _ _ hfollows | stop _ hfollows
  | plain hfollows => exact hkept hfollows
  | failed _ _ _ hconnect hpending =>
      intro hafter
      refine hconnect.trans ?_
      obtain hconnect | hbefore := hpending hafter
      · exact hconnect
      · exact hs hbefore
  | destroy =>
      have hkept : Asked { s with timers := [], destroyed := true } := by
        intro hafter
        exact hs (hafter.imp (fun _ => rfl) (fun h => h) fun h => h)
      split
      · exact hkept
      · exact hkept

end Final

section Result

variable {s s' : State} {t : Action}

theorem stopIsFinal_iff (hs : Asked s) :
    StopIsFinal s t ↔ (TakesEffect s t → ¬ s.agenda.StartPending) := by
  apply imp_congr_right
  intro heffect
  obtain ⟨status, funcs, hstep, hfuncs, hdestroyed, hstatus⟩ := step_of_takesEffect heffect
  constructor
  · intro hfinal hpending
    have hconnect := hs hpending
    have hafter : Agenda.StartPending { s.agenda with funcs } :=
      hpending.imp (fun h => h) hfuncs.mpr fun h => h
    refine absurd (hfinal _ hstep) ?_
    obtain rfl | hdispatch := hstatus
    · exact not_final_of_disconnected hdestroyed rfl hconnect hafter
    · -- `stop` on the loop thread brings the status back.
      have hstop : step { s with status, funcs, channel := none } .stop =
          some { s with status := .Disconnected, funcs, channel := none } := by
        simp [step, hdestroyed, State.callable, hdispatch, removeAndResetChannel]
      apply not_final_of_step rfl hstop rfl rfl
      exact not_final_of_disconnected hdestroyed rfl hconnect hafter
  · intro hpending s' hs'
    obtain rfl := Option.some.inj (hstep.symm.trans hs')
    simp only [Agenda.StartPending, not_or, not_not] at hpending
    exact final_of_quiet ⟨hpending.1, mt hfuncs.mp hpending.2.1, hpending.2.2, rfl, hstatus⟩

/-- `stop` is final in a run if and only if no start is pending where it takes effect: no timer of
`retry`, no `startInLoop` in the loop's queue, no call of `start` under way. -/
theorem stopIsFinal_run_iff (errorCallback : Bool) (ts : List Action) :
    AllSteps step StopIsFinal (State.init true errorCallback) ts ↔
      AllSteps step (fun s t => TakesEffect s t → ¬ s.agenda.StartPending)
        (State.init true errorCallback) ts := by
  apply allSteps_iff Asked (fun _ _ _ => step_asked) fun _ _ => stopIsFinal_iff
  rintro (h | h | h)
  · exact absurd rfl h
  · exact absurd h List.not_mem_nil
  · exact absurd rfl h

/-- The network is unreachable, `stop` comes before the retry, and the retry connects. -/
theorem not_stopIsFinal_retry :
    ¬ ∀ ts, AllSteps step StopIsFinal (State.init true true) ts := by
  intro h
  have hstop := (h [.start .ENETUNREACH, .stop]).2 _ rfl
  have hfinal := hstop.1 ⟨rfl, rfl⟩ _ rfl
  have hsame := hfinal [.timer 0 .EINPROGRESS] _ (by simp [Action.starts]) rfl
  exact absurd hsame.1 (by decide)

end Result

end Cooper.Connector

import Cooper.StepRun

namespace Cooper.Progress

open Cooper.StepRun

variable {σ τ : Type*} {step : σ → τ → Option σ} {allowed : τ → Prop} {P Q : σ → Prop} {s s' : σ}

/-- Allowed steps lead from `s` to a state with `P`. -/
def Leads (step : σ → τ → Option σ) (allowed : τ → Prop) (s : σ) (P : σ → Prop) : Prop :=
  ∃ ts, (∀ t ∈ ts, allowed t) ∧ ∃ s', runSteps step s ts = some s' ∧ P s'

theorem Leads.here (h : P s) : Leads step allowed s P :=
  ⟨[], fun _ ht => absurd ht List.not_mem_nil, s, rfl, h⟩

theorem Leads.next {t : τ} (ht : allowed t) (hstep : step s t = some s')
    (h : Leads step allowed s' P) : Leads step allowed s P := by
  obtain ⟨ts, hts, s'', hrun, hP⟩ := h
  refine ⟨t :: ts, ?_, s'', ?_, hP⟩
  · intro u hu
    rcases List.mem_cons.mp hu with rfl | hu
    · exact ht
    · exact hts u hu
  · rw [runSteps_cons, hstep, Option.bind_some, hrun]

theorem Leads.trans (h : Leads step allowed s P) (hP : ∀ s', P s' → Leads step allowed s' Q) :
    Leads step allowed s Q := by
  obtain ⟨ts, hts, s', hrun, hs'⟩ := h
  obtain ⟨us, hus, s'', hrun', hs''⟩ := hP s' hs'
  refine ⟨ts ++ us, ?_, s'', ?_, hs''⟩
  · intro t ht
    rcases List.mem_append.mp ht with ht | ht
    · exact hts t ht
    · exact hus t ht
  · rw [runSteps_append, hrun, Option.bind_some, hrun']

theorem Leads.mono (h : Leads step allowed s P) (hP : ∀ s', P s' → Q s') :
    Leads step allowed s Q :=
  h.trans fun s' hs' => .here (hP s' hs')

theorem Leads.allow {allowed' : τ → Prop} (h : Leads step allowed s P)
    (hallowed : ∀ t, allowed t → allowed' t) : Leads step allowed' s P := by
  obtain ⟨ts, hts, hrun⟩ := h
  exact ⟨ts, fun t ht => hallowed t (hts t ht), hrun⟩

/-- What allowed steps keep holds where they lead to. -/
theorem Leads.keep (Inv : σ → Prop)
    (hstep : ∀ s t s', Inv s → allowed t → step s t = some s' → Inv s') (hs : Inv s)
    (h : Leads step allowed s P) : Leads step allowed s fun s' => Inv s' ∧ P s' := by
  obtain ⟨ts, hts, s', hrun, hP⟩ := h
  have hall : AllSteps step (fun _ t => allowed t) s ts :=
    allSteps_of_forall (fun t ht _ => hts t ht) s
  exact ⟨ts, hts, s', hrun, hall.invariant Inv hstep hs hrun, hP⟩

theorem Leads.lift {ρ υ : Type*} (step' : ρ → υ → Option ρ) (allowed' : υ → Prop)
    (R : σ → ρ → Prop)
    (hR : ∀ s r t s', R s r → allowed t → step s t = some s' →
      ∃ u r', allowed' u ∧ step' r u = some r' ∧ R s' r')
    (h : Leads step allowed s P) {r : ρ} (hr : R s r) :
    Leads step' allowed' r fun r' => ∃ s', R s' r' ∧ P s' := by
  obtain ⟨ts, hts, s', hrun, hP⟩ := h
  induction ts generalizing s r with
  | nil =>
      obtain rfl := Option.some.inj hrun
      exact .here ⟨s, hr, hP⟩
  | cons t ts ih =>
      rw [runSteps_cons] at hrun
      obtain ⟨mid, hmid, hrest⟩ := Option.bind_eq_some_iff.mp hrun
      obtain ⟨u, r', hu, hstep, hr'⟩ := hR s r t mid hr (hts t List.mem_cons_self) hmid
      exact .next hu hstep (ih hr' (fun t ht => hts t (List.mem_cons_of_mem _ ht)) hrest)

/-- An invariant under which `P` does not hold, and which allowed steps keep. -/
theorem not_leads (Inv : σ → Prop)
    (hstep : ∀ s t s', Inv s → allowed t → step s t = some s' → Inv s')
    (hP : ∀ s, Inv s → ¬P s) (hs : Inv s) : ¬Leads step allowed s P := by
  rintro ⟨ts, hts, s', hrun, hs'⟩
  have hall : AllSteps step (fun _ t => allowed t) s ts :=
    allSteps_of_forall (fun t ht _ => hts t ht) s
  exact hP s' (hall.invariant Inv hstep hs hrun) hs'

end Cooper.Progress

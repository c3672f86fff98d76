import Mathlib.Tactic.Common

namespace Cooper.StepRun

variable {σ τ : Type*} (step : σ → τ → Option σ)

/-- Every step of the run from `s` meets `P`. The run ends early where a step has no result. -/
def AllSteps (P : σ → τ → Prop) : σ → List τ → Prop
  | _, [] => True
  | s, t :: ts => P s t ∧ ∀ s', step s t = some s' → AllSteps P s' ts

def runSteps (s : σ) (ts : List τ) : Option σ := ts.foldlM step s

theorem runSteps_cons (s : σ) (t : τ) (ts : List τ) :
    runSteps step s (t :: ts) = (step s t).bind fun s' => runSteps step s' ts := by
  rw [runSteps, List.foldlM_cons]
  rfl

theorem runSteps_append (s : σ) (ts us : List τ) :
    runSteps step s (ts ++ us) = (runSteps step s ts).bind fun s' => runSteps step s' us := by
  rw [runSteps, List.foldlM_append]
  rfl

variable {step}

theorem allSteps_cons_of_some {P : σ → τ → Prop} {s s' : σ} {t : τ} {ts : List τ}
    (h : step s t = some s') :
    AllSteps step P s (t :: ts) ↔ P s t ∧ AllSteps step P s' ts := by
  simp only [AllSteps, h, Option.some.injEq, forall_eq']

theorem allSteps_cons_of_none {P : σ → τ → Prop} {s : σ} {t : τ} {ts : List τ}
    (h : step s t = none) : AllSteps step P s (t :: ts) ↔ P s t := by
  simp [AllSteps, h]

instance decidableAllSteps {P : σ → τ → Prop} [∀ s t, Decidable (P s t)] :
    (s : σ) → (ts : List τ) → Decidable (AllSteps step P s ts)
  | _, [] => isTrue trivial
  | s, t :: ts =>
      match h : step s t with
      | none => decidable_of_iff _ (allSteps_cons_of_none h).symm
      | some s' =>
          have := decidableAllSteps (P := P) s' ts
          decidable_of_iff _ (allSteps_cons_of_some h).symm

theorem AllSteps.drop {P : σ → τ → Prop} {s s' : σ} {ts us : List τ}
    (hall : AllSteps step P s (ts ++ us)) (hrun : runSteps step s ts = some s') :
    AllSteps step P s' us := by
  induction ts generalizing s with
  | nil =>
      obtain rfl := Option.some.inj hrun
      exact hall
  | cons t ts ih =>
      rw [runSteps_cons] at hrun
      obtain ⟨next, hnext, hrest⟩ := Option.bind_eq_some_iff.mp hrun
      exact ih (hall.2 next hnext) hrest

theorem allSteps_of_forall {P : σ → τ → Prop} {ts : List τ} (h : ∀ t ∈ ts, ∀ s, P s t) (s : σ) :
    AllSteps step P s ts := by
  induction ts generalizing s with
  | nil => trivial
  | cons t ts ih =>
      refine ⟨h t List.mem_cons_self s, fun s' _ => ih ?_ s'⟩
      exact fun t' hmem => h t' (List.mem_cons_of_mem t hmem)

theorem AllSteps.and {P Q : σ → τ → Prop} {s : σ} {ts : List τ} (h : AllSteps step P s ts)
    (h' : AllSteps step Q s ts) : AllSteps step (fun s t => P s t ∧ Q s t) s ts := by
  induction ts generalizing s with
  | nil => trivial
  | cons t ts ih =>
      refine ⟨⟨h.1, h'.1⟩, fun s' hs' => ?_⟩
      exact ih (h.2 s' hs') (h'.2 s' hs')

/-- A property of steps that an invariant makes weaker than another, when steps that meet the other
keep the invariant. -/
theorem AllSteps.imp {P Q : σ → τ → Prop} (Inv : σ → Prop)
    (hstep : ∀ s t s', Inv s → P s t → step s t = some s' → Inv s')
    (himp : ∀ s t, Inv s → P s t → Q s t) {s : σ} (hs : Inv s) {ts : List τ}
    (hall : AllSteps step P s ts) : AllSteps step Q s ts := by
  induction ts generalizing s with
  | nil => trivial
  | cons t ts ih =>
      obtain ⟨hp, hrest⟩ := hall
      exact ⟨himp s t hs hp, fun s' hs' => ih (hstep s t s' hs hp hs') (hrest s' hs')⟩

/-- Two properties of steps that agree where an invariant holds agree on runs, when steps that meet
one of them keep the invariant. -/
theorem allSteps_iff_of_kept {P Q : σ → τ → Prop} (Inv : σ → Prop)
    (hstep : ∀ s t s', Inv s → P s t → step s t = some s' → Inv s')
    (hiff : ∀ s t, Inv s → (P s t ↔ Q s t)) {s : σ} (hs : Inv s) (ts : List τ) :
    AllSteps step P s ts ↔ AllSteps step Q s ts := by
  constructor
  · exact AllSteps.imp Inv hstep (fun s t hs => (hiff s t hs).mp) hs
  · apply AllSteps.imp Inv _ (fun s t hs => (hiff s t hs).mpr) hs
    exact fun s t s' hs hq => hstep s t s' hs ((hiff s t hs).mpr hq)

theorem allSteps_iff {P Q : σ → τ → Prop} (Inv : σ → Prop)
    (hstep : ∀ s t s', Inv s → step s t = some s' → Inv s')
    (hiff : ∀ s t, Inv s → (P s t ↔ Q s t)) {s : σ} (hs : Inv s) (ts : List τ) :
    AllSteps step P s ts ↔ AllSteps step Q s ts :=
  allSteps_iff_of_kept Inv (fun s t s' h _ => hstep s t s' h) hiff hs ts

theorem AllSteps.invariant {P : σ → τ → Prop} (Inv : σ → Prop)
    (hstep : ∀ s t s', Inv s → P s t → step s t = some s' → Inv s') {s s' : σ} (hs : Inv s)
    {ts : List τ} (hall : AllSteps step P s ts) (hrun : runSteps step s ts = some s') : Inv s' := by
  induction ts generalizing s with
  | nil =>
      obtain rfl := Option.some.inj hrun
      exact hs
  | cons t ts ih =>
      rw [runSteps_cons] at hrun
      obtain ⟨next, hnext, hrest⟩ := Option.bind_eq_some_iff.mp hrun
      exact ih (hstep s t next hs hall.1 hnext) (hall.2 next hnext) hrest

theorem runSteps_invariant (Inv : σ → Prop) (hstep : ∀ s t s', Inv s → step s t = some s' → Inv s')
    {s s' : σ} (hs : Inv s) {ts : List τ} (hrun : runSteps step s ts = some s') : Inv s' := by
  have hall : AllSteps step (fun _ _ => True) s ts := allSteps_of_forall (fun _ _ _ => trivial) s
  exact hall.invariant Inv (fun s t s' hs _ => hstep s t s' hs) hs hrun

end Cooper.StepRun

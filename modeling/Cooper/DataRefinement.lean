import Cooper.StepRun

namespace Cooper.DataRefinement

open Cooper.StepRun

variable {σ ρ τ ο : Type*}

/-- Run a partial machine and collect its answers. -/
def run (step : σ → τ → Option (σ × ο)) (s : σ) : List τ → Option (σ × List ο)
  | [] => some (s, [])
  | t :: ts => (step s t).bind fun next =>
      (run step next.1 ts).map fun rest => (rest.1, next.2 :: rest.2)

def specRun (spec : ρ → τ → ρ × ο) (r : ρ) : List τ → ρ × List ο
  | [] => (r, [])
  | t :: ts =>
      let rest := specRun spec (spec r t).1 ts
      (rest.1, (spec r t).2 :: rest.2)

def next (step : σ → τ → Option (σ × ο)) (s : σ) (t : τ) : Option σ := (step s t).map Prod.fst

/-- Steps that meet the precondition `P` keep the relation `R` and answer like `spec`. -/
def Refines (step : σ → τ → Option (σ × ο)) (spec : ρ → τ → ρ × ο) (P : σ → τ → Prop)
    (R : σ → ρ → Prop) : Prop :=
  ∀ s r t, R s r → P s t → ∃ s', step s t = some (s', (spec r t).2) ∧ R s' (spec r t).1

theorem Refines.run {step : σ → τ → Option (σ × ο)} {spec : ρ → τ → ρ × ο} {P : σ → τ → Prop}
    {R : σ → ρ → Prop} (h : Refines step spec P R) {s : σ} {r : ρ} (hR : R s r) {ts : List τ}
    (hall : AllSteps (next step) P s ts) :
    ∃ s', run step s ts = some (s', (specRun spec r ts).2) ∧ R s' (specRun spec r ts).1 := by
  induction ts generalizing s r with
  | nil => exact ⟨s, rfl, hR⟩
  | cons t ts ih =>
      obtain ⟨hp, hrest⟩ := hall
      obtain ⟨s₁, hstep, hR₁⟩ := h s r t hR hp
      obtain ⟨s', hrun, hR'⟩ := ih hR₁ (hrest s₁ (by rw [next, hstep, Option.map_some]))
      refine ⟨s', ?_, hR'⟩
      rw [DataRefinement.run, hstep, Option.bind_some, hrun]
      rfl

end Cooper.DataRefinement

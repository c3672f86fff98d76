import Mathlib.Init
import Mathlib.Tactic.TypeStar

/-!
Meaning of a `while (true)` loop whose body is a function on the loop state: one iteration either
continues with a new state or leaves the loop with a result.
-/

namespace Cooper.WhileLoop

variable {σ ρ : Type*}

/-- Run at most `fuel` iterations. The result is `none` when the loop is still running then. -/
def iterate (step : σ → σ ⊕ ρ) : Nat → σ → Option ρ
  | 0, _ => none
  | fuel + 1, s =>
      match step s with
      | .inl s' => iterate step fuel s'
      | .inr r => some r

/-- The loop started in `s` returns `r` after finitely many iterations. -/
def Returns (step : σ → σ ⊕ ρ) (s : σ) (r : ρ) : Prop :=
  ∃ fuel, iterate step fuel s = some r

/-- The loop started in `s` performs finitely many iterations. -/
def Terminates (step : σ → σ ⊕ ρ) (s : σ) : Prop :=
  ∃ r, Returns step s r

variable {step : σ → σ ⊕ ρ} {s s' : σ} {r r' : ρ}

theorem iterate_add {n : Nat} (h : iterate step n s = some r) (k : Nat) :
    iterate step (n + k) s = some r := by
  induction n generalizing s with
  | zero => simp [iterate] at h
  | succ n ih =>
      rw [Nat.succ_add]
      simp only [iterate] at h ⊢
      split at h
      · exact ih h
      · exact h

theorem Returns.unique (h : Returns step s r) (h' : Returns step s r') : r = r' := by
  obtain ⟨n, hn⟩ := h
  obtain ⟨k, hk⟩ := h'
  have hleft := iterate_add hn k
  have hright := iterate_add hk n
  rw [Nat.add_comm k n, hleft] at hright
  exact Option.some.inj hright

theorem returns_inl_iff (h : step s = .inl s') : Returns step s r ↔ Returns step s' r := by
  constructor
  · rintro ⟨fuel, hfuel⟩
    cases fuel with
    | zero => simp [iterate] at hfuel
    | succ fuel => exact ⟨fuel, by simpa [iterate, h] using hfuel⟩
  · rintro ⟨fuel, hfuel⟩
    exact ⟨fuel + 1, by simpa [iterate, h] using hfuel⟩

theorem returns_inr_iff (h : step s = .inr r') : Returns step s r ↔ r = r' := by
  constructor
  · rintro ⟨fuel, hfuel⟩
    cases fuel with
    | zero => simp [iterate] at hfuel
    | succ fuel => simpa [iterate, h, eq_comm] using hfuel
  · rintro rfl
    exact ⟨1, by simp [iterate, h]⟩

/-- Partial correctness: what a returning iteration establishes from an invariant holds of the
result. -/
theorem of_iterate (I : σ → Prop) (Q : ρ → Prop)
    (hstep : ∀ s s', I s → step s = .inl s' → I s')
    (hreturn : ∀ s r, I s → step s = .inr r → Q r) (hs : I s) {n : Nat}
    (h : iterate step n s = some r) : Q r := by
  induction n generalizing s with
  | zero => simp [iterate] at h
  | succ n ih =>
      rw [iterate] at h
      split at h
      · rename_i s' hnext
        exact ih (hstep s s' hs hnext) h
      · rename_i r' hnext
        obtain rfl := Option.some.inj h
        exact hreturn s r' hs hnext

/-- A loop that can always continue inside an invariant never returns. -/
theorem not_terminates_of_invariant (I : σ → Prop)
    (hstep : ∀ s, I s → ∃ s', step s = .inl s' ∧ I s') (hs : I s) :
    ¬ Terminates step s := by
  rintro ⟨r, fuel, hfuel⟩
  induction fuel generalizing s with
  | zero => simp [iterate] at hfuel
  | succ fuel ih =>
      obtain ⟨s', hnext, hs'⟩ := hstep s hs
      exact ih hs' (by simpa [iterate, hnext] using hfuel)

/-- Total correctness: a loop whose iterations keep an invariant and decrease a variant returns,
and the result satisfies whatever a returning iteration establishes. -/
theorem exists_returns_of_variant (I : σ → Prop) (Q : ρ → Prop) (μ : σ → Nat)
    (hstep : ∀ s s', I s → step s = .inl s' → I s' ∧ μ s' < μ s)
    (hreturn : ∀ s r, I s → step s = .inr r → Q r) (hs : I s) :
    ∃ r, Returns step s r ∧ Q r := by
  induction hμ : μ s using Nat.strongRecOn generalizing s with
  | ind m ih =>
      subst hμ
      cases hnext : step s with
      | inl s' =>
          obtain ⟨hs', hlt⟩ := hstep s s' hs hnext
          obtain ⟨r, hr, hQ⟩ := ih (μ s') hlt hs' rfl
          exact ⟨r, (returns_inl_iff hnext).mpr hr, hQ⟩
      | inr r => exact ⟨r, (returns_inr_iff hnext).mpr rfl, hreturn s r hs hnext⟩

/-- The loop goes on from one state to another by iterations that start in states with `P`. -/
inductive LeadsTo (step : σ → σ ⊕ ρ) (P : σ → Prop) : σ → σ → Prop
  | refl (s : σ) : LeadsTo step P s s
  | next {s s' t : σ} (hs : P s) (h : step s = .inl s') (ht : LeadsTo step P s' t) :
      LeadsTo step P s t

/-- A loop that continues inside an invariant, and decreases a variant as long as `Q` is not
reached, reaches `Q`. -/
theorem exists_leadsTo_of_variant (I P Q : σ → Prop) (μ : σ → Nat) (hI : ∀ s, I s → P s)
    (hstep : ∀ s, I s → ∃ s', step s = .inl s' ∧ (Q s' ∨ I s' ∧ μ s' < μ s)) (hs : I s) :
    ∃ t, LeadsTo step P s t ∧ Q t := by
  induction hμ : μ s using Nat.strongRecOn generalizing s with
  | ind m ih =>
      subst hμ
      obtain ⟨s', hnext, hdone | ⟨hs', hlt⟩⟩ := hstep s hs
      · exact ⟨s', .next (hI s hs) hnext (.refl s'), hdone⟩
      · obtain ⟨t, ht, hQ⟩ := ih (μ s') hlt hs' rfl
        exact ⟨t, .next (hI s hs) hnext ht, hQ⟩

end Cooper.WhileLoop

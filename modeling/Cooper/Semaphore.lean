import Cooper.StepRun
import Mathlib.Algebra.BigOperators.Group.Finset.Basic
import Mathlib.Algebra.Order.BigOperators.Group.Finset
import Mathlib.Data.Fintype.Basic
import Mathlib.Data.Fintype.Option
import Mathlib.Data.Nat.ModEq

namespace Cooper.Semaphore

open Cooper.StepRun

section Model

/-- Where a thread is: in `post` before the lock, the addition and the notification, and in `wait`
before the lock, the test and the `m_cond.wait` that follows when `m_count` is 0. -/
inductive Pc
  | outside
  | post (n : Nat)
  | add (n : Nat)
  | notify (n : Nat)
  | unlockPost
  | wait
  | countTest
  | condWait
  | asleep
  | decrement
  | unlockWait
  deriving DecidableEq

def Pc.holds : Pc → Bool
  | .add _ | .notify _ | .unlockPost | .countTest | .condWait | .decrement | .unlockWait => true
  | _ => false

inductive Effect
  | post (n : Nat)
  | wait
  deriving DecidableEq

structure Monitor (θ : Type*) where
  count : Nat
  mutex : Option θ
  cond : List θ
  pc : θ → Pc
  effects : List (θ × Effect)

/-- `notify_one` wakes a thread that waits, if there is one, and `m_cond.wait` may return without.
-/
inductive Action (θ : Type*)
  | post (t : θ) (n : Nat)
  | wait (t : θ)
  | advance (t : θ)
  | notifyOne (t : θ) (woken : Option θ)
  | wake (t : θ)

/-- The numbers of `size_t`. -/
abbrev sizes : Nat := 2 ^ 64

variable {θ : Type*} [DecidableEq θ]

def Monitor.put (s : Monitor θ) (t : θ) (pc : Pc) : Monitor θ :=
  { s with pc := Function.update s.pc t pc }

def advance (s : Monitor θ) (t : θ) : Option (Monitor θ) :=
  match s.pc t with
  | .outside => none
  | .post n => if s.mutex = none then some { s.put t (.add n) with mutex := some t } else none
  | .add n =>
      some { s.put t (.notify n) with
        count := (s.count + n) % sizes
        effects := s.effects ++ [(t, .post n)] }
  | .notify n => if n = 1 then none else some { s.put t .unlockPost with cond := [] }
  | .unlockPost => some { s.put t .outside with mutex := none }
  | .wait => if s.mutex = none then some { s.put t .countTest with mutex := some t } else none
  | .countTest => some (s.put t (if s.count = 0 then .condWait else .decrement))
  | .condWait => some { s.put t .asleep with mutex := none, cond := s.cond ++ [t] }
  | .asleep =>
      if t ∉ s.cond ∧ s.mutex = none then some { s.put t .countTest with mutex := some t }
      else none
  | .decrement =>
      some { s.put t .unlockWait with count := s.count - 1, effects := s.effects ++ [(t, .wait)] }
  | .unlockWait => some { s.put t .outside with mutex := none }

def step (s : Monitor θ) : Action θ → Option (Monitor θ)
  | .post t n => if s.pc t = .outside then some (s.put t (.post n)) else none
  | .wait t => if s.pc t = .outside then some (s.put t .wait) else none
  | .advance t => advance s t
  | .notifyOne t woken =>
      if s.pc t = .notify 1 then
        match woken with
        | some u =>
            if u ∈ s.cond then some { s.put t .unlockPost with cond := s.cond.erase u } else none
        | none => if s.cond = [] then some (s.put t .unlockPost) else none
      else none
  | .wake t => if t ∈ s.cond then some { s with cond := s.cond.erase t } else none

def Monitor.init (θ : Type*) (count : Nat) : Monitor θ where
  count
  mutex := none
  cond := []
  pc := fun _ => .outside
  effects := []

end Model

section Spec

/-- What a semaphore is for: a number that `post` raises, and that `wait` lowers where it is not
zero. -/
def counterStep (count : Nat) : Effect → Option Nat
  | .post n => some ((count + n) % sizes)
  | .wait => if count = 0 then none else some (count - 1)

def posted : Effect → Nat
  | .post n => n
  | .wait => 0

theorem counterStep_books {count count' : Nat} {effects : List Effect}
    (h : runSteps counterStep count effects = some count') :
    count' + effects.count .wait ≡ count + (effects.map posted).sum [MOD sizes] := by
  induction effects generalizing count with
  | nil =>
      obtain rfl := Option.some.inj h
      rfl
  | cons effect effects ih =>
      rw [runSteps_cons] at h
      obtain ⟨next, hnext, hrest⟩ := Option.bind_eq_some_iff.mp h
      have hbooks := ih hrest
      cases effect with
      | post n =>
          obtain rfl := Option.some.inj hnext
          simp only [List.count_cons, List.map_cons, List.sum_cons, posted]
          calc count' + (effects.count .wait + 0)
              ≡ (count + n) % sizes + (effects.map posted).sum [MOD sizes] := hbooks
            _ ≡ count + n + (effects.map posted).sum [MOD sizes] :=
                (Nat.mod_modEq _ _).add_right _
            _ = count + (n + (effects.map posted).sum) := by omega
      | wait =>
          obtain ⟨hpos, hnext⟩ := Option.ite_none_left_eq_some.mp hnext
          obtain rfl := Option.some.inj hnext
          simp only [List.count_cons, List.map_cons, List.sum_cons, posted]
          calc count' + (effects.count .wait + 1)
              = count' + effects.count .wait + 1 := by omega
            _ ≡ count - 1 + (effects.map posted).sum + 1 [MOD sizes] := hbooks.add_right 1
            _ = count + (0 + (effects.map posted).sum) := by omega

end Spec

section Kept

variable {θ : Type*} [DecidableEq θ] {s s' : Monitor θ} {t u : θ}

structure Kept (s : Monitor θ) : Prop where
  mutex : ∀ t, (s.pc t).holds ↔ s.mutex = some t
  cond : ∀ t ∈ s.cond, s.pc t = .asleep
  nodup : s.cond.Nodup
  condWait : ∀ t, s.pc t = .condWait → s.count = 0
  decrement : ∀ t, s.pc t = .decrement → s.count ≠ 0

omit [DecidableEq θ] in
theorem init_kept (count : Nat) : Kept (.init θ count) where
  mutex := by simp [Monitor.init, Pc.holds]
  cond := nofun
  nodup := List.nodup_nil
  condWait := nofun
  decrement := nofun

theorem advance_kept (h : Kept s) (hstep : advance s t = some s') : Kept s' := by
  obtain ⟨hmutex, hcond, hnodup, hcondWait, hdecrement⟩ := h
  have ht := hmutex t
  unfold advance at hstep
  split at hstep <;> rename_i hpc <;> rw [hpc] at ht
  all_goals
    simp only [Option.ite_none_right_eq_some, Option.ite_none_left_eq_some, Option.some.injEq,
      reduceCtorEq] at hstep
  case h_2 | h_4 | h_6 | h_9 =>
      obtain ⟨hguard, rfl⟩ := hstep
      unfold Monitor.put
      constructor <;> grind [Function.update_apply, Pc.holds]
  case h_7 =>
      obtain rfl := hstep
      unfold Monitor.put
      split <;> constructor <;> grind [Function.update_apply, Pc.holds]
  case h_3 | h_5 | h_8 | h_10 | h_11 =>
      obtain rfl := hstep
      unfold Monitor.put
      constructor <;> grind [Function.update_apply, Pc.holds]

theorem step_kept (h : Kept s) {a : Action θ} (hstep : step s a = some s') : Kept s' := by
  have hadvance := h
  obtain ⟨hmutex, hcond, hnodup, hcondWait, hdecrement⟩ := h
  cases a with
  | advance t => exact advance_kept hadvance hstep
  | post t n | wait t =>
      obtain ⟨hpc, hs'⟩ := Option.ite_none_right_eq_some.mp hstep
      obtain rfl := Option.some.inj hs'
      unfold Monitor.put
      constructor <;> grind [Function.update_apply, Pc.holds]
  | notifyOne t woken =>
      obtain ⟨hpc, hs'⟩ := Option.ite_none_right_eq_some.mp hstep
      cases woken with
      | some u =>
          obtain ⟨hu, hs'⟩ := Option.ite_none_right_eq_some.mp hs'
          obtain rfl := Option.some.inj hs'
          unfold Monitor.put
          constructor <;> grind [Function.update_apply, Pc.holds]
      | none =>
          obtain ⟨hcond', hs'⟩ := Option.ite_none_right_eq_some.mp hs'
          obtain rfl := Option.some.inj hs'
          unfold Monitor.put
          constructor <;> grind [Function.update_apply, Pc.holds]
  | wake t =>
      obtain ⟨hmem, hs'⟩ := Option.ite_none_right_eq_some.mp hstep
      obtain rfl := Option.some.inj hs'
      constructor <;> grind [Function.update_apply, Pc.holds]

end Kept

section Calls

variable {θ : Type*} [DecidableEq θ] {s s' : Monitor θ} {t : θ}

def call (t : θ) : Action θ → Option Effect
  | .post u n => if u = t then some (.post n) else none
  | .wait u => if u = t then some .wait else none
  | .advance _ | .notifyOne _ _ | .wake _ => none

def calls (as : List (Action θ)) (t : θ) : List Effect := as.filterMap (call t)

def performed (s : Monitor θ) (t : θ) : List Effect :=
  s.effects.filterMap fun effect => if effect.1 = t then some effect.2 else none

/-- What the call that a thread is in has still to do to the counter. -/
def Pc.left : Pc → List Effect
  | .post n | .add n => [.post n]
  | .wait | .countTest | .condWait | .asleep | .decrement => [.wait]
  | .outside | .notify _ | .unlockPost | .unlockWait => []

theorem performed_eq (hpc : ∀ u ≠ t, s'.pc u = s.pc u) (effects : List Effect)
    (heffects : s'.effects = s.effects ++ effects.map fun effect => (t, effect))
    (hleft : effects ++ (s'.pc t).left = (s.pc t).left) (u : θ) :
    performed s' u ++ (s'.pc u).left = performed s u ++ (s.pc u).left := by
  rcases eq_or_ne u t with rfl | hne
  · rw [← hleft, ← List.append_assoc, performed, heffects, List.filterMap_append,
      List.filterMap_map]
    simp [performed]
  · have hother : (effects.map fun effect => (t, effect)).filterMap
        (fun effect => if effect.1 = u then some effect.2 else none) = [] := by
      simp [List.filterMap_map, hne.symm]
    rw [hpc u hne, performed, heffects, List.filterMap_append, hother, List.append_nil]
    rfl

theorem advance_performed (hstep : advance s t = some s') (u : θ) :
    performed s' u ++ (s'.pc u).left = performed s u ++ (s.pc u).left := by
  have hoff : ∀ p, ∀ u ≠ t, Function.update s.pc t p u = s.pc u :=
    fun p u hu => Function.update_of_ne hu p s.pc
  unfold advance at hstep
  split at hstep <;> rename_i hpc
  all_goals
    simp only [Option.ite_none_right_eq_some, Option.ite_none_left_eq_some, Option.some.injEq,
      reduceCtorEq] at hstep
  case h_3 n =>
      obtain rfl := hstep
      refine performed_eq (hoff _) [.post n] rfl ?_ u
      simp [Monitor.put, hpc, Pc.left]
  case h_10 =>
      obtain rfl := hstep
      refine performed_eq (hoff _) [.wait] rfl ?_ u
      simp [Monitor.put, hpc, Pc.left]
  case h_2 | h_4 | h_6 | h_9 =>
      obtain ⟨-, rfl⟩ := hstep
      refine performed_eq (hoff _) [] (by simp [Monitor.put]) ?_ u
      simp [Monitor.put, hpc, Pc.left]
  case h_7 =>
      obtain rfl := hstep
      refine performed_eq (hoff _) [] (by simp [Monitor.put]) ?_ u
      by_cases hzero : s.count = 0 <;> simp [Monitor.put, hpc, hzero, Pc.left]
  case h_5 | h_8 | h_11 =>
      obtain rfl := hstep
      refine performed_eq (hoff _) [] (by simp [Monitor.put]) ?_ u
      simp [Monitor.put, hpc, Pc.left]

theorem step_performed {a : Action θ} (hstep : step s a = some s') (u : θ) :
    performed s' u ++ (s'.pc u).left = performed s u ++ (s.pc u).left ++ (call u a).toList := by
  cases a with
  | advance t => simpa [call] using advance_performed hstep u
  | post t n | wait t =>
      obtain ⟨hpc, hs'⟩ := Option.ite_none_right_eq_some.mp hstep
      obtain rfl := Option.some.inj hs'
      rcases eq_or_ne t u with rfl | hne
      · simp [Monitor.put, performed, call, hpc, Pc.left]
      · simp [Monitor.put, performed, call, hne, hne.symm]
  | notifyOne t woken =>
      obtain ⟨hpc, hs'⟩ := Option.ite_none_right_eq_some.mp hstep
      rw [call, Option.toList_none, List.append_nil]
      cases woken with
      | some v | none =>
          obtain ⟨-, hs'⟩ := Option.ite_none_right_eq_some.mp hs'
          obtain rfl := Option.some.inj hs'
          refine performed_eq (t := t) (fun v hv => Function.update_of_ne hv _ _) []
            (by simp [Monitor.put]) ?_ u
          simp [Monitor.put, hpc, Pc.left]
  | wake t =>
      obtain ⟨-, hs'⟩ := Option.ite_none_right_eq_some.mp hstep
      obtain rfl := Option.some.inj hs'
      simp [performed, call]

theorem runSteps_performed {as : List (Action θ)} (hrun : runSteps step s as = some s') (u : θ) :
    performed s' u ++ (s'.pc u).left = performed s u ++ (s.pc u).left ++ calls as u := by
  induction as generalizing s with
  | nil =>
      obtain rfl := Option.some.inj hrun
      simp [calls]
  | cons a as ih =>
      rw [runSteps_cons] at hrun
      obtain ⟨mid, hmid, hrest⟩ := Option.bind_eq_some_iff.mp hrun
      have hcalls : calls (a :: as) u = (call u a).toList ++ calls as u := by
        cases hcall : call u a <;> simp [calls, hcall]
      rw [ih hrest, step_performed hmid, hcalls, List.append_assoc]

end Calls

section Refines

variable {θ : Type*} [DecidableEq θ] {s s' : Monitor θ} {count : Nat} {as : List (Action θ)}

def Monitor.history (s : Monitor θ) : List Effect := s.effects.map Prod.snd

def Counts (count : Nat) (s : Monitor θ) : Prop :=
  runSteps counterStep count s.history = some s.count

omit [DecidableEq θ] in
theorem Counts.effect (h : Counts count s) (effect : Effect)
    (hhistory : s'.history = s.history ++ [effect])
    (hnext : counterStep s.count effect = some s'.count) : Counts count s' := by
  rw [Counts, hhistory, runSteps_append, h, Option.bind_some, runSteps_cons, hnext]
  rfl

theorem step_counts (hkept : Kept s) (h : Counts count s) {a : Action θ}
    (hstep : step s a = some s') : Counts count s' := by
  cases a with
  | advance t =>
      replace hstep : advance s t = some s' := hstep
      unfold advance at hstep
      split at hstep <;> rename_i hpc
      all_goals
        simp only [Option.ite_none_right_eq_some, Option.ite_none_left_eq_some, Option.some.injEq,
          reduceCtorEq] at hstep
      case h_3 n =>
          obtain rfl := hstep
          exact h.effect (.post n) (by simp [Monitor.history]) rfl
      case h_10 =>
          obtain rfl := hstep
          exact h.effect .wait (by simp [Monitor.history]) (if_neg (hkept.decrement t hpc))
      case h_2 | h_4 | h_6 | h_9 =>
          obtain ⟨-, rfl⟩ := hstep
          exact h
      case h_5 | h_7 | h_8 | h_11 =>
          obtain rfl := hstep
          exact h
  | post t n | wait t | wake t =>
      obtain ⟨-, hs'⟩ := Option.ite_none_right_eq_some.mp hstep
      obtain rfl := Option.some.inj hs'
      exact h
  | notifyOne t woken =>
      obtain ⟨-, hs'⟩ := Option.ite_none_right_eq_some.mp hstep
      cases woken with
      | some u | none =>
          obtain ⟨-, hs'⟩ := Option.ite_none_right_eq_some.mp hs'
          obtain rfl := Option.some.inj hs'
          exact h

theorem runSteps_counts (hrun : runSteps step (.init θ count) as = some s) :
    Kept s ∧ Counts count s := by
  refine runSteps_invariant (fun s => Kept s ∧ Counts count s) ?_ ⟨init_kept count, rfl⟩ hrun
  exact fun s a s' h hstep => ⟨step_kept h.1 hstep, step_counts h.1 h.2 hstep⟩

theorem performed_append_left (hrun : runSteps step (.init θ count) as = some s) (t : θ) :
    performed s t ++ (s.pc t).left = calls as t := by
  rw [runSteps_performed hrun]
  rfl

/-- In every run, what the threads do to the counter is what they could do to a number: `wait` goes
on only when it takes one of what was there or has been posted. Each thread does what it calls. -/
theorem runSteps_counter (hrun : runSteps step (.init θ count) as = some s) :
    runSteps counterStep count s.history = some s.count ∧
      s.count + s.history.count .wait ≡ count + (s.history.map posted).sum [MOD sizes] ∧
      ∀ t, performed s t ++ (s.pc t).left = calls as t := by
  have hcounts := (runSteps_counts hrun).2
  exact ⟨hcounts, counterStep_books hcounts, performed_append_left hrun⟩

def posting : List (Action Unit) :=
  [.post () 1, .advance (), .advance (), .notifyOne () none, .advance (), .wait (), .advance (),
    .advance (), .advance (), .advance ()]

theorem runSteps_counter_sample :
    ∃ s, runSteps step (.init Unit 0) posting = some s ∧
      s.count + s.history.count .wait ≡ (s.history.map posted).sum [MOD sizes] ∧
      s.history = [.post 1, .wait] ∧ performed s () = calls posting () := by
  obtain ⟨s, hs, hstate⟩ := Option.map_eq_some_iff.mp
    (by decide : (runSteps step (.init Unit 0) posting).map (fun s => (s.history, s.pc ())) =
      some ([.post 1, .wait], .outside))
  obtain ⟨hhistory, hpc⟩ := Prod.mk.inj hstate
  obtain ⟨-, hbooks, hcalls⟩ := runSteps_counter hs
  rw [Nat.zero_add] at hbooks
  have hdone := hcalls ()
  rw [hpc, Pc.left, List.append_nil] at hdone
  exact ⟨s, hs, hbooks, hhistory, hdone⟩

end Refines

section Awake

variable {θ : Type*} [DecidableEq θ] {s s' : Monitor θ} {t u : θ}

/-- 1 for a thread that will look at the counter before it sleeps, or that will wake one that
does. -/
def credit (s : Monitor θ) (t : θ) : Nat :=
  match s.pc t with
  | .notify n => if n = 1 then 1 else 0
  | .countTest | .decrement => 1
  | .asleep => if t ∈ s.cond then 0 else 1
  | _ => 0

theorem credit_le (hpc : s'.pc u = s.pc u) (hcond : u ∈ s'.cond → u ∈ s.cond) :
    credit s u ≤ credit s' u := by
  unfold credit
  rw [hpc]
  split
  case h_4 =>
      split
      · exact Nat.zero_le _
      · rename_i hnot
        rw [if_neg fun hmem => hnot (hcond hmem)]
  all_goals exact Nat.le_refl _

variable [Fintype θ]

theorem sum_credit (s s' : Monitor θ) (t : θ) (hoff : ∀ u ≠ t, credit s u ≤ credit s' u) :
    ∑ u, credit s u + credit s' t ≤ ∑ u, credit s' u + credit s t := by
  rw [← Finset.sum_erase_add _ _ (Finset.mem_univ t),
    ← Finset.sum_erase_add (a := t) Finset.univ (credit s') (Finset.mem_univ t)]
  have hle : ∑ u ∈ Finset.univ.erase t, credit s u ≤ ∑ u ∈ Finset.univ.erase t, credit s' u :=
    Finset.sum_le_sum fun u hu => hoff u (Finset.ne_of_mem_erase hu)
  omega

/-- While a thread sleeps, all of them are about to be woken, or there is somebody awake for all
that there is to be taken. -/
def Awake (s : Monitor θ) : Prop :=
  s.cond = [] ∨ (∃ t n, s.pc t = .notify n ∧ n ≠ 1) ∨ s.count ≤ ∑ t, credit s t

theorem Awake.move (h : Awake s) (hpc : ∀ u ≠ t, s'.pc u = s.pc u)
    (hcond : ∀ u ∈ s'.cond, u ∈ s.cond) (hnotify : ∀ n, s.pc t = .notify n → n = 1)
    (hcount : s'.count + credit s t ≤ s.count + credit s' t) : Awake s' := by
  rcases h with h | ⟨u, n, hu, hn⟩ | h
  · refine .inl (List.eq_nil_iff_forall_not_mem.mpr fun u hu => ?_)
    have hmem := hcond u hu
    rw [h] at hmem
    cases hmem
  · have hne : u ≠ t := by
      rintro rfl
      exact hn (hnotify n hu)
    exact .inr (.inl ⟨u, n, (hpc u hne).trans hu, hn⟩)
  · have hsum := sum_credit s s' t fun u hu => credit_le (hpc u hu) (hcond u)
    exact .inr (.inr (by omega))

theorem advance_awake (hkept : Kept s) (h : Awake s) (hstep : advance s t = some s') :
    Awake s' := by
  have hoff : ∀ p, ∀ u ≠ t, Function.update s.pc t p u = s.pc u :=
    fun p u hu => Function.update_of_ne hu p s.pc
  unfold advance at hstep
  split at hstep <;> rename_i hpc
  all_goals
    simp only [Option.ite_none_right_eq_some, Option.ite_none_left_eq_some, Option.some.injEq,
      reduceCtorEq] at hstep
  case h_3 n =>
      obtain rfl := hstep
      rcases eq_or_ne n 1 with rfl | hn
      · refine h.move (hoff _) (fun _ hu => hu) (by simp [hpc]) ?_
        simp only [credit, hpc, Monitor.put, Function.update_self]
        have := Nat.mod_le (s.count + 1) sizes
        simp
        omega
      · exact .inr (.inl ⟨t, n, Function.update_self .., hn⟩)
  case h_4 n =>
      obtain ⟨-, rfl⟩ := hstep
      exact .inl rfl
  case h_8 =>
      obtain rfl := hstep
      exact .inr (.inr ((hkept.condWait t hpc).trans_le (Nat.zero_le _)))
  case h_7 =>
      obtain rfl := hstep
      by_cases hzero : s.count = 0
      · exact .inr (.inr (hzero.trans_le (Nat.zero_le _)))
      · refine h.move (hoff _) (fun _ hu => hu) (by simp [hpc]) ?_
        simp [credit, hpc, Monitor.put, hzero]
  case h_9 =>
      obtain ⟨⟨hwoken, -⟩, rfl⟩ := hstep
      refine h.move (hoff _) (fun _ hu => hu) (by simp [hpc]) ?_
      simp [credit, hpc, Monitor.put, hwoken]
  case h_10 =>
      obtain rfl := hstep
      have hpos := hkept.decrement t hpc
      refine h.move (hoff _) (fun _ hu => hu) (by simp [hpc]) ?_
      simp [credit, hpc, Monitor.put]
      omega
  case h_2 | h_6 =>
      obtain ⟨-, rfl⟩ := hstep
      refine h.move (hoff _) (fun _ hu => hu) (by simp [hpc]) ?_
      simp [credit, hpc, Monitor.put]
  case h_5 | h_11 =>
      obtain rfl := hstep
      refine h.move (hoff _) (fun _ hu => hu) (by simp [hpc]) ?_
      simp [credit, hpc, Monitor.put]

theorem step_awake (hkept : Kept s) (h : Awake s) {a : Action θ} (hstep : step s a = some s') :
    Awake s' := by
  cases a with
  | advance t => exact advance_awake hkept h hstep
  | post t n | wait t =>
      obtain ⟨hpc, hs'⟩ := Option.ite_none_right_eq_some.mp hstep
      obtain rfl := Option.some.inj hs'
      refine h.move (fun u hu => Function.update_of_ne hu _ _) (fun _ hu => hu) (by simp [hpc]) ?_
      simp [credit, hpc, Monitor.put]
  | notifyOne t woken =>
      obtain ⟨hpc, hs'⟩ := Option.ite_none_right_eq_some.mp hstep
      cases woken with
      | none =>
          obtain ⟨hcond, hs'⟩ := Option.ite_none_right_eq_some.mp hs'
          obtain rfl := Option.some.inj hs'
          exact .inl hcond
      | some u =>
          obtain ⟨hu, hs'⟩ := Option.ite_none_right_eq_some.mp hs'
          obtain rfl := Option.some.inj hs'
          rcases h with h | ⟨v, n, hv, hn⟩ | h
          · rw [h] at hu
            cases hu
          · have hne : v ≠ t := by
              rintro rfl
              rw [hpc, Pc.notify.injEq] at hv
              exact hn hv.symm
            exact .inr (.inl ⟨v, n, (Function.update_of_ne hne _ _).trans hv, hn⟩)
          · -- The thread that is woken has the credit that `t` gives up.
            set woken : Monitor θ := { s with cond := s.cond.erase u } with hwoken
            have hasleep := hkept.cond u hu
            have hsum := sum_credit s woken u fun v _ => credit_le rfl List.mem_of_mem_erase
            have hsum' := sum_credit woken { s.put t .unlockPost with cond := s.cond.erase u } t
              fun v hv => credit_le (Function.update_of_ne hv _ _) fun h => h
            have hu' : credit s u = 0 := by simp [credit, hasleep, hu]
            have hwoken' : credit woken u = 1 := by
              simp [credit, hwoken, hasleep, hkept.nodup.not_mem_erase]
            have ht : credit woken t = 1 := by simp [credit, hwoken, hpc]
            refine .inr (.inr ?_)
            change s.count ≤ _
            omega
  | wake t =>
      obtain ⟨hmem, hs'⟩ := Option.ite_none_right_eq_some.mp hstep
      obtain rfl := Option.some.inj hs'
      have hpc := hkept.cond t hmem
      refine h.move (t := t) (fun _ _ => rfl) (fun _ hu => List.mem_of_mem_erase hu)
        (by simp [hpc]) ?_
      simp [credit, hpc, hmem]

/-- No thread can go on with the call that it is in. -/
def Stopped (s : Monitor θ) : Prop :=
  ∀ t, advance s t = none ∧ ∀ woken, step s (.notifyOne t woken) = none

omit [Fintype θ] in
theorem Stopped.mutex (h : Stopped s) (hkept : Kept s) : s.mutex = none := by
  cases hmutex : s.mutex with
  | none => rfl
  | some t =>
      exfalso
      have hholds := (hkept.mutex t).mpr hmutex
      obtain ⟨hadvance, hnotify⟩ := h t
      unfold advance at hadvance
      split at hadvance <;> rename_i hpc <;> rw [hpc] at hholds
      case h_4 n =>
          obtain rfl : n = 1 := by simpa using hadvance
          cases hcond : s.cond with
          | nil => simpa [step, hpc, hcond] using hnotify none
          | cons u cond => simpa [step, hpc, hcond] using hnotify (some u)
      all_goals simp [Pc.holds] at hholds hadvance

omit [Fintype θ] in
theorem Stopped.asleep (h : Stopped s) (hkept : Kept s) (hpc : s.pc t ≠ .outside) :
    s.pc t = .asleep ∧ t ∈ s.cond := by
  have hmutex := h.mutex hkept
  have hholds : (s.pc t).holds = false := by
    rw [Bool.eq_false_iff, Ne, hkept.mutex t, hmutex]
    nofun
  have hadvance := (h t).1
  unfold advance at hadvance
  split at hadvance <;> rename_i hpc' <;> rw [hpc'] at hholds
  case h_1 => exact absurd hpc' hpc
  case h_9 =>
      refine ⟨hpc', ?_⟩
      simpa [hmutex] using hadvance
  all_goals simp [Pc.holds, hmutex] at hholds hadvance

variable {count : Nat} {as : List (Action θ)}

/-- When no thread can go on, all calls of `post` have returned, and a call of `wait` has not only
if the counter is zero. The counter is what is left of what was there and of all that was posted,
when each call of `wait` that has returned has taken one. -/
theorem runSteps_stopped (hrun : runSteps step (.init θ count) as = some s)
    (hstopped : Stopped s) :
    (∀ t, s.pc t = .outside ∧ performed s t = calls as t ∨
      s.pc t = .asleep ∧ s.count = 0 ∧ performed s t ++ [.wait] = calls as t) ∧
      runSteps counterStep count s.history = some s.count := by
  obtain ⟨hkept, hcounts⟩ := runSteps_counts hrun
  have hawake : Awake s := by
    refine (runSteps_invariant (fun s => Kept s ∧ Awake s) ?_ ⟨init_kept count, .inl rfl⟩ hrun).2
    exact fun s a s' h hstep => ⟨step_kept h.1 hstep, step_awake h.1 h.2 hstep⟩
  refine ⟨fun t => ?_, hcounts⟩
  have hcalls := performed_append_left hrun t
  rcases eq_or_ne (s.pc t) .outside with ht | ht
  · rw [ht, Pc.left, List.append_nil] at hcalls
    exact .inl ⟨ht, hcalls⟩
  obtain ⟨hasleep, hcond⟩ := hstopped.asleep hkept ht
  rw [hasleep, Pc.left] at hcalls
  refine .inr ⟨hasleep, ?_, hcalls⟩
  rcases hawake with hnil | ⟨u, n, hu, -⟩ | hcount
  · rw [hnil] at hcond
    cases hcond
  · have hne : s.pc u ≠ .outside := by
      rw [hu]
      nofun
    rw [(hstopped.asleep hkept hne).1] at hu
    cases hu
  · have hsum : ∑ u, credit s u = 0 := by
      refine Finset.sum_eq_zero fun u _ => ?_
      rcases eq_or_ne (s.pc u) .outside with hu | hu
      · simp [credit, hu]
      · obtain ⟨hasleep, hmem⟩ := hstopped.asleep hkept hu
        simp [credit, hasleep, hmem]
    omega

def waiting : List (Action (Option Bool)) :=
  let first := some false
  let second := some true
  [.wait first, .advance first, .advance first, .advance first, .wait second, .advance second,
    .advance second, .advance second, .post none 1, .advance none, .advance none,
    .notifyOne none (some first), .advance none, .advance first, .advance first, .advance first,
    .advance first]

theorem runSteps_stopped_sample :
    ∃ s, runSteps step (.init (Option Bool) 0) waiting = some s ∧
      s.history = [.post 1, .wait] ∧ performed s none = [.post 1] ∧
      performed s (some false) = [.wait] ∧ s.pc (some true) = .asleep ∧ s.count = 0 := by
  obtain ⟨s, hs, hstate⟩ := Option.map_eq_some_iff.mp
    (by decide : (runSteps step (.init (Option Bool) 0) waiting).map
        (fun s => (s.history, s.cond, s.pc (some false), s.pc (some true), s.pc none)) =
      some ([.post 1, .wait], [some true], .outside, .asleep, .outside))
  simp only [Prod.mk.injEq] at hstate
  obtain ⟨hhistory, hcond, hpc₀, hpc₁, hpc₂⟩ := hstate
  have hstopped : Stopped s := by
    intro t
    rcases t with _ | _ | _
    · simp [advance, step, hpc₂]
    · simp [advance, step, hpc₀]
    · simp [advance, step, hpc₁, hcond]
  obtain ⟨hall, -⟩ := runSteps_stopped hs hstopped
  have hdone : ∀ t, s.pc t = .outside → performed s t = calls waiting t := by
    intro t ht
    rcases hall t with ⟨-, h⟩ | ⟨hasleep, -⟩
    · exact h
    · rw [ht] at hasleep
      cases hasleep
  have hcount : s.count = 0 := by
    rcases hall (some true) with ⟨houtside, -⟩ | ⟨-, hcount, -⟩
    · rw [hpc₁] at houtside
      cases houtside
    · exact hcount
  exact ⟨s, hs, hhistory, hdone none hpc₂, hdone (some false) hpc₀, hpc₁, hcount⟩

end Awake

end Cooper.Semaphore

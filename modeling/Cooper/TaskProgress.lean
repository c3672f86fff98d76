import Cooper.Progress
import Cooper.ThreadPool
import Mathlib

namespace Cooper.TaskProgress

open Cooper.Progress
open Cooper.StepRun
open Cooper.ThreadPool

variable {θ α : Type*} [DecidableEq θ] {s s' : Pool θ α} {t u : θ} {threads : List θ}

section Working

def ofWorker : Pc α → Bool
  | .loopTest | .lock | .predicate | .wait | .asleep | .emptyTest | .front | .pop _ | .unlock _
  | .run _ => true
  | _ => false

def ofCaller : Pc α → Bool
  | .outside | .push _ | .notifyOne | .unlockGuard => true
  | _ => false

/-- Nobody has stopped the pool, and while there are tasks not all of its workers sleep. -/
structure Working (s : Pool θ α) : Prop where
  threads : s.threads ≠ []
  stop : s.stop = false
  worker : ∀ t ∈ s.threads, ofWorker (s.pc t)
  caller : ∀ t ∉ s.threads, ofCaller (s.pc t)
  taskCond : ∀ t ∈ s.taskCond, s.pc t = .asleep
  nodup : s.taskCond.Nodup
  empty : ∀ t, s.pc t = .wait → s.taskQueue = []
  awake : s.taskQueue = [] ∨ (∃ t ∈ s.threads, t ∉ s.taskCond) ∨ ∃ t, s.pc t = .notifyOne

theorem init_working (α : Type*) (hthreads : threads ≠ []) :
    Working (Pool.init α threads) where
  threads := hthreads
  stop := rfl
  worker := fun t ht => by
    have hmem : t ∈ threads := ht
    simp [Pool.init, hmem, ofWorker]
  caller := fun t ht => by
    have hmem : t ∉ threads := ht
    simp [Pool.init, hmem, ofCaller]
  taskCond := nofun
  nodup := List.nodup_nil
  empty := fun _ _ => rfl
  awake := .inl rfl

theorem Working.moved (h : Working s) {pc : Pc α} (hthreads : s'.threads = s.threads)
    (hstop : s'.stop = s.stop) (hpc : s'.pc = Function.update s.pc t pc)
    (hworker : ofWorker (s.pc t) → ofWorker pc) (hcaller : ofCaller (s.pc t) → ofCaller pc)
    (htaskCond : ∀ u ∈ s'.taskCond, s'.pc u = .asleep) (hnodup : s'.taskCond.Nodup)
    (hempty : ∀ u, s'.pc u = .wait → s'.taskQueue = [])
    (hawake : s'.taskQueue = [] ∨ (∃ u ∈ s.threads, u ∉ s'.taskCond) ∨ ∃ u, s'.pc u = .notifyOne) :
    Working s' where
  threads := hthreads ▸ h.threads
  stop := hstop.trans h.stop
  worker := by
    intro u hu
    rw [hthreads] at hu
    rw [hpc]
    rcases eq_or_ne u t with rfl | hne
    · rw [Function.update_self]
      exact hworker (h.worker u hu)
    · rw [Function.update_of_ne hne]
      exact h.worker u hu
  caller := by
    intro u hu
    rw [hthreads] at hu
    rw [hpc]
    rcases eq_or_ne u t with rfl | hne
    · rw [Function.update_self]
      exact hcaller (h.caller u hu)
    · rw [Function.update_of_ne hne]
      exact h.caller u hu
  taskCond := htaskCond
  nodup := hnodup
  empty := hempty
  awake := hthreads ▸ hawake

theorem Working.kept (h : Working s) {pc : Pc α} (hthreads : s'.threads = s.threads)
    (hstop : s'.stop = s.stop) (hpc : s'.pc = Function.update s.pc t pc)
    (hcond : s'.taskCond = s.taskCond) (hqueue : s'.taskQueue = s.taskQueue)
    (hworker : ofWorker (s.pc t) → ofWorker pc) (hcaller : ofCaller (s.pc t) → ofCaller pc)
    (ht : t ∉ s.taskCond) (hnotify : s.pc t ≠ .notifyOne)
    (hwait : pc = .wait → s.taskQueue = []) : Working s' := by
  refine h.moved hthreads hstop hpc hworker hcaller ?_ (hcond ▸ h.nodup) ?_ ?_
  · intro u hu
    rw [hcond] at hu
    have hne : u ≠ t := fun heq => ht (heq ▸ hu)
    rw [hpc, Function.update_of_ne hne]
    exact h.taskCond u hu
  · intro u hu
    rw [hpc] at hu
    rw [hqueue]
    rcases eq_or_ne u t with rfl | hne
    · rw [Function.update_self] at hu
      exact hwait hu
    · rw [Function.update_of_ne hne] at hu
      exact h.empty u hu
  · rw [hqueue, hcond]
    refine h.awake.imp_right (Or.imp_right fun ⟨u, hu⟩ => ⟨u, ?_⟩)
    have hne : u ≠ t := fun heq => hnotify (heq ▸ hu)
    rw [hpc, Function.update_of_ne hne]
    exact hu

omit [DecidableEq θ] in
theorem Working.not_asleep (h : Working s) (hpc : s.pc t ≠ .asleep) : t ∉ s.taskCond :=
  fun hmem => hpc (h.taskCond t hmem)

omit [DecidableEq θ] in
theorem not_waiting (hkept : Kept s) (hholds : (s.pc t).holds = true) (hne : u ≠ t) :
    s.pc u ≠ .wait := by
  intro hwait
  have hmutex := (hkept.exclusive t).mp hholds
  have hmutex' := (hkept.exclusive u).mp (by rw [hwait]; rfl)
  exact hne (Option.some.inj (hmutex'.symm.trans hmutex))

theorem Working.queued (h : Working s) (hkept : Kept s) {pc : Pc α}
    (hthreads : s'.threads = s.threads) (hstop : s'.stop = s.stop)
    (hpc : s'.pc = Function.update s.pc t pc) (hcond : s'.taskCond = s.taskCond)
    (hworker : ofWorker (s.pc t) → ofWorker pc) (hcaller : ofCaller (s.pc t) → ofCaller pc)
    (hholds : (s.pc t).holds = true) (ht : t ∉ s.taskCond) (hwait : pc ≠ .wait)
    (hawake : t ∈ s.threads ∨ pc = .notifyOne) : Working s' := by
  refine h.moved hthreads hstop hpc hworker hcaller ?_ (hcond ▸ h.nodup) ?_ (.inr ?_)
  · intro u hu
    rw [hcond] at hu
    have hne : u ≠ t := fun heq => ht (heq ▸ hu)
    rw [hpc, Function.update_of_ne hne]
    exact h.taskCond u hu
  · intro u hu
    rw [hpc] at hu
    rcases eq_or_ne u t with rfl | hne
    · rw [Function.update_self] at hu
      exact absurd hu hwait
    · rw [Function.update_of_ne hne] at hu
      exact absurd hu (not_waiting hkept hholds hne)
  · refine hawake.imp (fun hmem => ⟨t, hmem, hcond ▸ ht⟩) fun hnotify => ⟨t, ?_⟩
    rw [hpc, Function.update_self, hnotify]

theorem advance_working (hkept : Kept s) (h : Working s) (hstep : advance s t = some s') :
    Working s' := by
  have hnot {pc : Pc α} (hpc : s.pc t = pc) (hne : pc ≠ .asleep) : t ∉ s.taskCond :=
    h.not_asleep (by rw [hpc]; exact hne)
  have hplace : ofWorker (s.pc t) = true ∨ ofCaller (s.pc t) = true := by
    by_cases ht : t ∈ s.threads
    · exact .inl (h.worker t ht)
    · exact .inr (h.caller t ht)
  unfold advance at hstep
  cases hpc : s.pc t with
  | outside | exited | notifyOne =>
      rw [hpc] at hstep
      cases hstep
  | storeStop | notifyAll | join =>
      -- Only a thread that calls `stop` is there.
      rw [hpc] at hplace
      rcases hplace with hplace | hplace <;> cases hplace
  | loopTest =>
      rw [hpc] at hstep
      obtain rfl := Option.some.inj hstep
      rw [h.stop]
      exact h.kept rfl rfl rfl rfl rfl (fun _ => rfl) (by rw [hpc]; nofun) (hnot hpc nofun)
        (by rw [hpc]; nofun) nofun
  | lock =>
      rw [hpc] at hstep
      obtain ⟨-, hstep⟩ := Option.ite_none_right_eq_some.mp hstep
      obtain rfl := Option.some.inj hstep
      exact h.kept rfl rfl rfl rfl rfl (fun _ => rfl) (by rw [hpc]; nofun) (hnot hpc nofun)
        (by rw [hpc]; nofun) nofun
  | predicate =>
      rw [hpc] at hstep
      obtain rfl := Option.some.inj hstep
      refine h.kept rfl rfl rfl rfl rfl (fun _ => ?_) (by rw [hpc]; nofun) (hnot hpc nofun)
        (by rw [hpc]; nofun) ?_
      · split <;> rfl
      · intro hwait
        split at hwait
        · rename_i hempty
          rw [Bool.and_eq_true, List.isEmpty_iff] at hempty
          exact hempty.2
        · cases hwait
  | wait =>
      rw [hpc] at hstep
      obtain rfl := Option.some.inj hstep
      have hqueue : s.taskQueue = [] := h.empty t hpc
      have ht := hnot hpc nofun
      refine h.moved rfl rfl rfl (fun _ => rfl) (by rw [hpc]; nofun) ?_ ?_ (fun _ _ => hqueue)
        (.inl hqueue)
      · intro u hu
        rcases List.mem_append.mp hu with hu | hu
        · have hne : u ≠ t := fun heq => ht (heq ▸ hu)
          exact (Function.update_of_ne hne ..).trans (h.taskCond u hu)
        · rw [List.mem_singleton.mp hu]
          exact Function.update_self ..
      · exact List.nodup_append_comm.mp (List.nodup_cons.mpr ⟨ht, h.nodup⟩)
  | asleep =>
      rw [hpc] at hstep
      obtain ⟨⟨ht, -⟩, hstep⟩ := Option.ite_none_right_eq_some.mp hstep
      obtain rfl := Option.some.inj hstep
      exact h.kept rfl rfl rfl rfl rfl (fun _ => rfl) (by rw [hpc]; nofun) ht (by rw [hpc]; nofun)
        nofun
  | emptyTest =>
      rw [hpc] at hstep
      obtain rfl := Option.some.inj hstep
      refine h.kept rfl rfl rfl rfl rfl (fun _ => ?_) (by rw [hpc]; nofun) (hnot hpc nofun)
        (by rw [hpc]; nofun) ?_
      · split <;> rfl
      · split <;> nofun
  | front =>
      rw [hpc] at hstep
      obtain ⟨r, -, rfl⟩ := Option.map_eq_some_iff.mp hstep
      exact h.kept rfl rfl rfl rfl rfl (fun _ => rfl) (by rw [hpc]; nofun) (hnot hpc nofun)
        (by rw [hpc]; nofun) nofun
  | pop r =>
      rw [hpc] at hstep
      obtain rfl := Option.some.inj hstep
      refine h.queued hkept rfl rfl rfl rfl (fun _ => rfl) (by rw [hpc]; nofun) (by rw [hpc]; rfl)
        (hnot hpc nofun) nofun (.inl ?_)
      by_contra hmem
      have hcaller := h.caller t hmem
      rw [hpc] at hcaller
      cases hcaller
  | unlock r =>
      rw [hpc] at hstep
      obtain rfl := Option.some.inj hstep
      cases r with
      | none | some r =>
          exact h.kept rfl rfl rfl rfl rfl (fun _ => rfl) (by rw [hpc]; nofun) (hnot hpc nofun)
            (by rw [hpc]; nofun) nofun
  | run r =>
      rw [hpc] at hstep
      obtain rfl := Option.some.inj hstep
      exact h.kept rfl rfl rfl rfl rfl (fun _ => rfl) (by rw [hpc]; nofun) (hnot hpc nofun)
        (by rw [hpc]; nofun) nofun
  | push task =>
      rw [hpc] at hstep
      obtain rfl := Option.some.inj hstep
      exact h.queued hkept rfl rfl rfl rfl (by rw [hpc]; nofun) (fun _ => rfl) (by rw [hpc]; rfl)
        (hnot hpc nofun) nofun (.inr rfl)
  | unlockGuard =>
      rw [hpc] at hstep
      obtain rfl := Option.some.inj hstep
      exact h.kept rfl rfl rfl rfl rfl (by rw [hpc]; nofun) (fun _ => rfl) (hnot hpc nofun)
        (by rw [hpc]; nofun) nofun

theorem step_working (hkept : Kept s) (h : Working s) {a : Action θ α} (hstop : ∀ t, a ≠ .stop t)
    (hstep : step s a = some s') : Working s' := by
  cases a with
  | stop t => exact absurd rfl (hstop t)
  | advance t => exact advance_working hkept h hstep
  | addTask t task =>
      obtain ⟨⟨hpc, hmutex⟩, hs'⟩ := Option.ite_none_right_eq_some.mp hstep
      obtain rfl := Option.some.inj hs'
      have houtside : s.pc t = .outside := by
        split at hpc
        · assumption
        · cases hpc
      exact h.kept rfl rfl rfl rfl rfl (by rw [houtside]; nofun) (fun _ => rfl)
        (h.not_asleep (by rw [houtside]; nofun)) (by rw [houtside]; nofun) nofun
  | notifyOne t woken =>
      obtain ⟨hpc, hs'⟩ := Option.ite_none_right_eq_some.mp hstep
      have hnotify : s.pc t = .notifyOne := by
        split at hpc
        · assumption
        · cases hpc
      have ht : t ∉ s.taskCond := h.not_asleep (by rw [hnotify]; nofun)
      have hasleep : ∀ u ∈ s.taskCond, Function.update s.pc t .unlockGuard u = .asleep := by
        intro u hu
        have hne : u ≠ t := fun heq => ht (heq ▸ hu)
        rw [Function.update_of_ne hne]
        exact h.taskCond u hu
      have hempty : ∀ u, Function.update s.pc t .unlockGuard u = .wait → s.taskQueue = [] := by
        intro u hu
        rcases eq_or_ne u t with rfl | hne
        · rw [Function.update_self] at hu
          cases hu
        · rw [Function.update_of_ne hne] at hu
          exact h.empty u hu
      cases woken with
      | some u =>
          obtain ⟨hu, hs'⟩ := Option.ite_none_right_eq_some.mp hs'
          obtain rfl := Option.some.inj hs'
          have hmem : u ∈ s.threads := by
            by_contra hnot
            have hcall := h.caller u hnot
            rw [h.taskCond u hu] at hcall
            cases hcall
          exact h.moved rfl rfl rfl (by rw [hnotify]; nofun) (fun _ => rfl)
            (fun v hv => hasleep v (List.mem_of_mem_erase hv)) (h.nodup.erase u) hempty
            (.inr (.inl ⟨u, hmem, h.nodup.not_mem_erase⟩))
      | none =>
          obtain ⟨hnil, hs'⟩ := Option.ite_none_right_eq_some.mp hs'
          obtain rfl := Option.some.inj hs'
          obtain ⟨u, hu⟩ := List.exists_mem_of_ne_nil _ h.threads
          have hnot : u ∉ s.taskCond := by
            rw [hnil]
            exact List.not_mem_nil
          exact h.moved rfl rfl rfl (by rw [hnotify]; nofun) (fun _ => rfl) hasleep h.nodup hempty
            (.inr (.inl ⟨u, hu, hnot⟩))
  | wake t =>
      obtain ⟨hmem, hs'⟩ := Option.ite_none_right_eq_some.mp hstep
      obtain rfl := Option.some.inj hs'
      have hsame : s.pc = Function.update s.pc t (s.pc t) := (Function.update_eq_self t s.pc).symm
      refine h.moved rfl rfl hsame id id (fun u hu => h.taskCond u (List.mem_of_mem_erase hu))
        (h.nodup.erase t) h.empty (h.awake.imp_right (Or.imp_left ?_))
      rintro ⟨u, hu, hnot⟩
      exact ⟨u, hu, fun hin => hnot (List.mem_of_mem_erase hin)⟩

end Working

section Taking

/-- What a thread does by itself. -/
def Onward : Action θ α → Prop
  | .advance _ | .notifyOne _ _ => True
  | _ => False

theorem leads_advance {P : Pool θ α → Prop} (hstep : advance s t = some s')
    (h : Leads step Onward s' P) : Leads step Onward s P :=
  .next (t := .advance t) trivial hstep h

def Unlocks (s : Pool θ α) : Prop :=
  Leads step Onward s fun s' => s'.taskMutex = none ∧ s.added <+: s'.added

theorem unlocks_unlock {r : Option α} (hpc : s.pc t = .unlock r) : Unlocks s := by
  cases r with
  | none | some r =>
      refine leads_advance (t := t) (by simp only [advance, hpc]; rfl) (.here ⟨rfl, ?_⟩)
      exact List.prefix_rfl

theorem unlocks_pop {r : α} (hpc : s.pc t = .pop r) : Unlocks s := by
  refine leads_advance (t := t) (by simp only [advance, hpc]; rfl) ?_
  exact unlocks_unlock (t := t) (r := some r) (Function.update_self ..)

theorem unlocks_front (hkept : Kept s) (hpc : s.pc t = .front) : Unlocks s := by
  obtain ⟨r, rest, hqueue⟩ := List.exists_cons_of_ne_nil (hkept.front t hpc)
  refine leads_advance (t := t) (by simp only [advance, hpc, hqueue]; rfl) ?_
  exact unlocks_pop (t := t) (r := r) (Function.update_self ..)

theorem unlocks_emptyTest (hkept : Kept s) (hpc : s.pc t = .emptyTest) : Unlocks s := by
  have hstep : advance s t =
      some (s.put t (if s.taskQueue.isEmpty then .unlock none else .front)) := by
    simp only [advance, hpc]
  have hkept' : Kept (s.put t (if s.taskQueue.isEmpty then .unlock none else .front)) :=
    step_kept (a := .advance t) hkept hstep
  refine leads_advance hstep ?_
  split at hkept' <;> rename_i hempty
  · rw [if_pos hempty]
    exact unlocks_unlock (t := t) (Function.update_self ..)
  · rw [if_neg hempty]
    exact unlocks_front hkept' (t := t) (Function.update_self ..)

theorem unlocks_predicate (hkept : Kept s) (hpc : s.pc t = .predicate) : Unlocks s := by
  have hstep : advance s t =
      some (s.put t (if !s.stop && s.taskQueue.isEmpty then .wait else .emptyTest)) := by
    simp only [advance, hpc]
  have hkept' : Kept (s.put t (if !s.stop && s.taskQueue.isEmpty then .wait else .emptyTest)) :=
    step_kept (a := .advance t) hkept hstep
  refine leads_advance hstep ?_
  split at hkept' <;> rename_i hempty
  · rw [if_pos hempty]
    refine leads_advance (t := t) (by simp only [advance, Pool.put, Function.update_self]; rfl) ?_
    exact .here ⟨rfl, List.prefix_rfl⟩
  · rw [if_neg hempty]
    exact unlocks_emptyTest hkept' (t := t) (Function.update_self ..)

theorem unlocks_unlockGuard (hpc : s.pc t = .unlockGuard) : Unlocks s := by
  refine leads_advance (t := t) (by simp only [advance, hpc]; rfl) (.here ⟨rfl, ?_⟩)
  exact List.prefix_rfl

theorem unlocks_notifyOne (hpc : s.pc t = .notifyOne) : Unlocks s := by
  cases hcond : s.taskCond with
  | nil =>
      refine .next (t := .notifyOne t none) trivial (by simp [step, hpc, hcond]; rfl) ?_
      exact unlocks_unlockGuard (t := t) (Function.update_self ..)
  | cons u taskCond =>
      refine .next (t := .notifyOne t (some u)) trivial (by simp [step, hpc, hcond]; rfl) ?_
      exact unlocks_unlockGuard (t := t) (Function.update_self ..)

theorem unlocks_push {task : α} (hpc : s.pc t = .push task) : Unlocks s := by
  refine leads_advance (t := t) (by simp only [advance, hpc]; rfl) ?_
  refine (unlocks_notifyOne (t := t) (Function.update_self ..)).mono fun s' hs' => ?_
  exact ⟨hs'.1, (List.prefix_append _ _).trans hs'.2⟩

theorem unlocks (hkept : Kept s) : Unlocks s := by
  cases hmutex : s.taskMutex with
  | none => exact .here ⟨hmutex, List.prefix_rfl⟩
  | some t =>
      have hholds := (hkept.exclusive t).mpr hmutex
      cases hpc : s.pc t with
      | predicate => exact unlocks_predicate hkept hpc
      | emptyTest => exact unlocks_emptyTest hkept hpc
      | front => exact unlocks_front hkept hpc
      | pop r => exact unlocks_pop hpc
      | «unlock» r => exact unlocks_unlock hpc
      | push task => exact unlocks_push hpc
      | notifyOne => exact unlocks_notifyOne hpc
      | unlockGuard => exact unlocks_unlockGuard hpc
      | wait =>
          refine leads_advance (t := t) (by simp only [advance, hpc]; rfl) ?_
          exact .here ⟨rfl, List.prefix_rfl⟩
      | _ =>
          rw [hpc] at hholds
          cases hholds

theorem leads_take {r : α} {rest : List α} (hpc : s.pc t = .predicate)
    (hqueue : s.taskQueue = r :: rest) :
    Leads step Onward s fun s' => s'.taskMutex = none ∧ s'.taskQueue = rest ∧
      s'.added = s.added := by
  refine leads_advance (t := t) (by simp only [advance, hpc, hqueue]; rfl) ?_
  simp only [List.isEmpty_cons, Bool.and_false, Bool.false_eq_true, if_false]
  refine leads_advance (t := t)
    (by simp only [advance, Pool.put, Function.update_self, hqueue]; rfl) ?_
  simp only [List.isEmpty_cons, Bool.false_eq_true, if_false]
  refine leads_advance (t := t) (by simp only [advance, Pool.put, Function.update_self]; rfl) ?_
  refine leads_advance (t := t) (by simp only [advance, Pool.put, Function.update_self]; rfl) ?_
  refine leads_advance (t := t) (by simp only [advance, Pool.put, Function.update_self]; rfl) ?_
  exact .here ⟨rfl, by simp only [List.tail_cons], rfl⟩

theorem leads_lock (h : Working s) (hkept : Kept s) (hmutex : s.taskMutex = none)
    (ht : t ∈ s.threads) (hawake : t ∉ s.taskCond) :
    Leads step Onward s fun s' => s'.pc t = .predicate ∧ s'.taskQueue = s.taskQueue ∧
      s'.added = s.added := by
  have hlock : ∀ s' : Pool θ α, s'.pc t = .lock → s'.taskMutex = none →
      s'.taskQueue = s.taskQueue → s'.added = s.added →
      Leads step Onward s' fun s' => s'.pc t = .predicate ∧ s'.taskQueue = s.taskQueue ∧
        s'.added = s.added := by
    intro s' hpc hmutex hqueue hadded
    refine leads_advance (t := t) (by simp only [advance, hpc, hmutex, if_true]; rfl) ?_
    exact .here ⟨Function.update_self .., hqueue, hadded⟩
  have hloopTest : ∀ s' : Pool θ α, s'.pc t = .loopTest → s'.stop = false →
      s'.taskMutex = none → s'.taskQueue = s.taskQueue → s'.added = s.added →
      Leads step Onward s' fun s' => s'.pc t = .predicate ∧ s'.taskQueue = s.taskQueue ∧
        s'.added = s.added := by
    intro s' hpc hstop hmutex hqueue hadded
    refine leads_advance (t := t) (by simp only [advance, hpc, hstop]; rfl) ?_
    exact hlock _ (Function.update_self ..) hmutex hqueue hadded
  have hholds : (s.pc t).holds = false := by
    rw [Bool.eq_false_iff, Ne, hkept.exclusive t, hmutex]
    rintro ⟨⟩
  have hworker := h.worker t ht
  cases hpc : s.pc t with
  | «lock» => exact hlock s hpc hmutex rfl rfl
  | loopTest => exact hloopTest s hpc h.stop hmutex rfl rfl
  | run r =>
      refine leads_advance (t := t) (by simp only [advance, hpc]; rfl) ?_
      exact hloopTest _ (Function.update_self ..) h.stop hmutex rfl rfl
  | asleep =>
      refine leads_advance (t := t)
        (by simp only [advance, hpc, hmutex, hawake, not_false_eq_true, and_self, if_true]; rfl) ?_
      exact .here ⟨Function.update_self .., rfl, rfl⟩
  | _ =>
      rw [hpc] at hholds hworker
      simp [Pc.holds, ofWorker] at hholds hworker

omit [DecidableEq θ] in
theorem Onward.ne_stop {a : Action θ α} (h : Onward a) (t : θ) : a ≠ .stop t := by
  rintro rfl
  cases h

/-- What keeps while the threads go on. -/
theorem Onward.keeps {a : Action θ α} (ha : Onward a) (h : Kept s ∧ Working s)
    (hstep : step s a = some s') : Kept s' ∧ Working s' :=
  ⟨step_kept h.1 hstep, step_working h.1 h.2 ha.ne_stop hstep⟩

/-- All tasks are taken, by induction on how many there are. -/
theorem leads_empty (n : Nat) (h : Kept s ∧ Working s) (hmutex : s.taskMutex = none)
    (hqueue : s.taskQueue.length = n) :
    Leads step Onward s fun s' => s'.taskQueue = [] ∧ s'.added = s.added := by
  induction n generalizing s with
  | zero => exact .here ⟨List.length_eq_zero_iff.mp hqueue, rfl⟩
  | succ n ih =>
      obtain ⟨r, rest, hcons⟩ := List.exists_cons_of_length_eq_add_one hqueue
      have hawake : ∃ t ∈ s.threads, t ∉ s.taskCond := by
        rcases h.2.awake with hnil | hawake | ⟨t, ht⟩
        · rw [hnil] at hcons
          cases hcons
        · exact hawake
        · have hholds := (h.1.exclusive t).mp (by rw [ht]; rfl)
          rw [hmutex] at hholds
          cases hholds
      obtain ⟨t, ht, hcond⟩ := hawake
      refine ((leads_lock h.2 h.1 hmutex ht hcond).keep (fun s => Kept s ∧ Working s)
        (fun _ _ _ h ha hstep => ha.keeps h hstep) h).trans fun s₁ hs₁ => ?_
      obtain ⟨h₁, hpc, hqueue₁, hadded₁⟩ := hs₁
      refine ((leads_take hpc (hqueue₁.trans hcons)).keep (fun s => Kept s ∧ Working s)
        (fun _ _ _ h ha hstep => ha.keeps h hstep) h₁).trans fun s₂ hs₂ => ?_
      obtain ⟨h₂, hmutex₂, hqueue₂, hadded₂⟩ := hs₂
      have hlength : s₂.taskQueue.length = n := by
        rw [hcons, List.length_cons] at hqueue
        rw [hqueue₂]
        omega
      refine (ih h₂ hmutex₂ hlength).mono fun s' hs' => ?_
      exact ⟨hs'.1, hs'.2.trans (hadded₂.trans hadded₁)⟩

end Taking

section Runs

variable {as : List (Action θ α)}

theorem runSteps_working (hthreads : threads ≠ []) (hstop : ∀ a ∈ as, ∀ t, a ≠ .stop t)
    (hrun : runSteps step (Pool.init α threads) as = some s) : Kept s ∧ Working s := by
  have hall : AllSteps step (fun _ a => ∀ t, a ≠ .stop t) (Pool.init α threads) as :=
    allSteps_of_forall (fun a ha _ => hstop a ha) _
  refine hall.invariant (fun s => Kept s ∧ Working s) ?_
    ⟨kept_init α threads, init_working α hthreads⟩ hrun
  exact fun s a s' h ha hstep => ⟨step_kept h.1 hstep, step_working h.1 h.2 ha hstep⟩

/-- While nobody stops the pool, from every state that comes up its threads lead on by themselves to
one in which all tasks that have been added have been taken, in the order in which they were. -/
theorem leads_taken (hthreads : threads ≠ []) (hstop : ∀ a ∈ as, ∀ t, a ≠ .stop t)
    (hrun : runSteps step (Pool.init α threads) as = some s) :
    Leads step Onward s fun s' =>
      s'.taken.map Prod.snd = s'.added ∧ s.added <+: s'.added := by
  have h := runSteps_working hthreads hstop hrun
  refine ((unlocks h.1).keep (fun s => Kept s ∧ Working s)
    (fun _ _ _ h ha hstep => ha.keeps h hstep) h).trans fun s₁ hs₁ => ?_
  obtain ⟨h₁, hmutex, hprefix⟩ := hs₁
  refine ((leads_empty _ h₁ hmutex rfl).keep (fun s => Kept s ∧ Working s)
    (fun _ _ _ h ha hstep => ha.keeps h hstep) h₁).mono fun s' hs' => ?_
  obtain ⟨h', hempty, hadded⟩ := hs'
  refine ⟨?_, hadded ▸ hprefix⟩
  rw [h'.1.books, hempty, List.append_nil]

def adding : List (ThreadPool.Action Bool Unit) :=
  [.advance true, .advance true, .advance true, .advance true, .addTask false ()]

theorem leads_taken_sample :
    ∃ s, runSteps step (Pool.init Unit [true]) adding = some s ∧ s.pc true = .asleep ∧
      Leads step Onward s fun s' => s'.taken.map Prod.snd = s'.added ∧ s.added <+: s'.added := by
  obtain ⟨s, hs, hpc⟩ := Option.map_eq_some_iff.mp
    (by decide : (runSteps step (Pool.init Unit [true]) adding).map (·.pc true) = some .asleep)
  exact ⟨s, hs, hpc, leads_taken (by decide) (by simp [adding]) hs⟩

end Runs

end Cooper.TaskProgress

import Cooper.StepRun
import Mathlib.Data.Fintype.Basic

namespace Cooper.ThreadPool

open Cooper.StepRun

section Model

/-- Where a thread is: in `func` before `while (!stop_)`, before the predicate and before the wait
that comes when it is true, in `addTask` behind its lock, or in a `stop` that has found `stop_`
false. -/
inductive Pc (α : Type*)
  | outside
  | loopTest
  | lock
  | predicate
  | wait
  | asleep
  | emptyTest
  | front
  | pop (r : α)
  | unlock (r : Option α)
  | run (r : α)
  | exited
  | push (task : α)
  | notifyOne
  | unlockGuard
  | storeStop
  | notifyAll
  | join
  deriving DecidableEq

def Pc.holds {α : Type*} : Pc α → Bool
  | .predicate | .wait | .emptyTest | .front | .pop _ | .unlock _ => true
  | .push _ | .notifyOne | .unlockGuard => true
  | _ => false

/-- `taskCond` are the threads that wait in `taskCond_`. The books tell the tasks that have been
added, those that have been taken, by which worker, and whether `notify_all` has been called. -/
structure Pool (θ α : Type*) where
  threads : List θ
  taskQueue : List α
  taskMutex : Option θ
  taskCond : List θ
  stop : Bool
  pc : θ → Pc α
  added : List α
  taken : List (θ × α)
  notified : Bool

/-- A call of `addTask` comes with its lock, and one of `stop` with its test of `stop_`.
`notify_one` wakes one thread that waits, if there is one, and `wait` may `wake` without a
notification. -/
inductive Action (θ α : Type*)
  | addTask (t : θ) (task : α)
  | stop (t : θ)
  | advance (t : θ)
  | notifyOne (t : θ) (woken : Option θ)
  | wake (t : θ)

variable {θ α : Type*} [DecidableEq θ]

def Pool.put (s : Pool θ α) (t : θ) (pc : Pc α) : Pool θ α :=
  { s with pc := Function.update s.pc t pc }

def advance (s : Pool θ α) (t : θ) : Option (Pool θ α) :=
  match s.pc t with
  | .outside => none
  | .loopTest => some (s.put t (if s.stop then .exited else .lock))
  | .lock =>
      if s.taskMutex = none then some { s.put t .predicate with taskMutex := some t } else none
  | .predicate => some (s.put t (if !s.stop && s.taskQueue.isEmpty then .wait else .emptyTest))
  | .wait => some { s.put t .asleep with taskMutex := none, taskCond := s.taskCond ++ [t] }
  | .asleep =>
      if t ∉ s.taskCond ∧ s.taskMutex = none then
        some { s.put t .predicate with taskMutex := some t }
      else none
  | .emptyTest => some (s.put t (if s.taskQueue.isEmpty then .unlock none else .front))
  | .front => s.taskQueue.head?.map fun r => s.put t (.pop r)
  | .pop r =>
      some { s.put t (.unlock (some r)) with
        taskQueue := s.taskQueue.tail
        taken := s.taken ++ [(t, r)] }
  | .unlock r =>
      some { s.put t (match r with | some r => .run r | none => .loopTest) with taskMutex := none }
  | .run _ => some (s.put t .loopTest)
  | .exited => none
  | .push task =>
      some { s.put t .notifyOne with
        taskQueue := s.taskQueue ++ [task]
        added := s.added ++ [task] }
  | .notifyOne => none
  | .unlockGuard => some { s.put t .outside with taskMutex := none }
  | .storeStop => some { s.put t .notifyAll with stop := true }
  | .notifyAll => some { s.put t .join with taskCond := [], notified := true }
  | .join => if s.threads.all (s.pc · matches .exited) then some (s.put t .outside) else none

def step (s : Pool θ α) : Action θ α → Option (Pool θ α)
  | .addTask t task =>
      if s.pc t matches .outside ∧ s.taskMutex = none then
        some { s.put t (.push task) with taskMutex := some t }
      else none
  | .stop t =>
      if s.pc t matches .outside then some (if s.stop then s else s.put t .storeStop) else none
  | .advance t => advance s t
  | .notifyOne t woken =>
      if s.pc t matches .notifyOne then
        match woken with
        | some u =>
            if u ∈ s.taskCond then
              some { s.put t .unlockGuard with taskCond := s.taskCond.erase u }
            else none
        | none => if s.taskCond = [] then some (s.put t .unlockGuard) else none
      else none
  | .wake t =>
      if t ∈ s.taskCond then some { s with taskCond := s.taskCond.erase t } else none

def Pool.init (α : Type*) (threads : List θ) : Pool θ α where
  threads
  taskQueue := []
  taskMutex := none
  taskCond := []
  stop := false
  pc := fun t => if t ∈ threads then .loopTest else .outside
  added := []
  taken := []
  notified := false

end Model

section Moves

variable {θ α : Type*} [DecidableEq θ] {s s' : Pool θ α} {t : θ} {p : Pc α}

def Locks (s s' : Pool θ α) (t : θ) (p : Pc α) : Prop :=
  (s'.taskMutex = s.taskMutex ∧ p.holds = (s.pc t).holds) ∨
  (s.taskMutex = none ∧ s'.taskMutex = some t ∧ p.holds = true) ∨
  ((s.pc t).holds = true ∧ s'.taskMutex = none ∧ p.holds = false)

def Queues (s s' : Pool θ α) (t : θ) (p : Pc α) : Prop :=
  (s'.taskQueue = s.taskQueue ∧ s'.added = s.added ∧ s'.taken = s.taken ∧
    (p = .front → s.taskQueue ≠ []) ∧ ∀ r, p = .pop r → s.taskQueue.head? = some r) ∨
  (∃ task, s.pc t = .push task ∧ p = .notifyOne ∧ s'.taskQueue = s.taskQueue ++ [task] ∧
    s'.added = s.added ++ [task] ∧ s'.taken = s.taken) ∨
  (∃ r, s.pc t = .pop r ∧ p = .unlock (some r) ∧ s'.taskQueue = s.taskQueue.tail ∧
    s'.added = s.added ∧ s'.taken = s.taken ++ [(t, r)])

/-- Everything that a step of a thread which brings it to `p` can do. -/
structure Move (s s' : Pool θ α) (t : θ) (p : Pc α) : Prop where
  pc : s'.pc = Function.update s.pc t p
  locks : Locks s s' t p
  queues : Queues s s' t p
  stop : s'.stop = s.stop ∨ s'.stop = true
  notifyAll : p = .notifyAll → s'.stop = true
  wait : p = .wait → s.stop = false
  notified : s'.notified = s.notified ∨ s.pc t = .notifyAll ∧ s'.taskCond = []
  taskCond : ∀ u ∈ s'.taskCond, u ∈ s.taskCond ∨ s.pc t = .wait

theorem move_put (hholds : p.holds = (s.pc t).holds) (hfront : p = .front → s.taskQueue ≠ [])
    (hpop : ∀ r, p = .pop r → s.taskQueue.head? = some r) (hnotifyAll : p ≠ .notifyAll)
    (hwait : p = .wait → s.stop = false) : Move s (s.put t p) t p where
  pc := rfl
  locks := .inl ⟨rfl, hholds⟩
  queues := .inl ⟨rfl, rfl, rfl, hfront, hpop⟩
  stop := .inl rfl
  notifyAll := fun h => absurd h hnotifyAll
  wait := hwait
  notified := .inl rfl
  taskCond := fun _ hu => .inl hu

theorem move_lock (hmutex : s.taskMutex = none) (hp : p.holds = true) (hfront : p ≠ .front)
    (hpop : ∀ r, p ≠ .pop r) (hwait : p ≠ .wait) :
    Move s { s.put t p with taskMutex := some t } t p where
  pc := rfl
  locks := .inr (.inl ⟨hmutex, rfl, hp⟩)
  queues := .inl ⟨rfl, rfl, rfl, fun h => absurd h hfront, fun r h => absurd h (hpop r)⟩
  stop := .inl rfl
  notifyAll := by
    rintro rfl
    contradiction
  wait := fun h => absurd h hwait
  notified := .inl rfl
  taskCond := fun _ hu => .inl hu

theorem move_unlock (hholds : (s.pc t).holds = true) (hp : p.holds = false)
    (hnotifyAll : p ≠ .notifyAll) (hwait : p ≠ .wait) :
    Move s { s.put t p with taskMutex := none } t p where
  pc := rfl
  locks := .inr (.inr ⟨hholds, rfl, hp⟩)
  queues := by
    refine .inl ⟨rfl, rfl, rfl, ?_, ?_⟩
    · rintro rfl
      contradiction
    · rintro r rfl
      contradiction
  stop := .inl rfl
  notifyAll := fun h => absurd h hnotifyAll
  wait := fun h => absurd h hwait
  notified := .inl rfl
  taskCond := fun _ hu => .inl hu

theorem move_of_advance (h : advance s t = some s') : ∃ p, Move s s' t p := by
  cases hpc : s.pc t with
  | outside | exited | notifyOne => simp [advance, hpc] at h
  | loopTest =>
      simp only [advance, hpc, Option.some.injEq] at h
      subst h
      refine ⟨_, move_put ?_ ?_ ?_ ?_ ?_⟩ <;> split <;> simp [Pc.holds, hpc]
  | lock =>
      simp only [advance, hpc, Option.ite_none_right_eq_some, Option.some.injEq] at h
      obtain ⟨hmutex, rfl⟩ := h
      exact ⟨_, move_lock hmutex rfl (by simp) (by simp) (by simp)⟩
  | predicate =>
      simp only [advance, hpc, Option.some.injEq] at h
      subst h
      refine ⟨_, move_put ?_ ?_ ?_ ?_ ?_⟩ <;> split <;> simp_all [Pc.holds]
  | wait =>
      simp only [advance, hpc, Option.some.injEq] at h
      subst h
      refine ⟨.asleep, rfl, .inr (.inr ⟨by rw [hpc]; rfl, rfl, rfl⟩), ?_, .inl rfl, ?_, ?_,
        .inl rfl, fun _ _ => .inr hpc⟩
      · exact .inl ⟨rfl, rfl, rfl, by simp, by simp⟩
      · simp
      · simp
  | asleep =>
      simp only [advance, hpc, Option.ite_none_right_eq_some, Option.some.injEq] at h
      obtain ⟨⟨-, hmutex⟩, rfl⟩ := h
      exact ⟨_, move_lock hmutex rfl (by simp) (by simp) (by simp)⟩
  | emptyTest =>
      simp only [advance, hpc, Option.some.injEq] at h
      subst h
      refine ⟨_, move_put ?_ ?_ ?_ ?_ ?_⟩ <;> split <;> simp_all [Pc.holds]
  | front =>
      simp only [advance, hpc, Option.map_eq_some_iff] at h
      obtain ⟨r, hr, rfl⟩ := h
      exact ⟨_, move_put (by simp [Pc.holds, hpc]) (by simp) (by simp [hr]) (by simp) (by simp)⟩
  | pop r =>
      simp only [advance, hpc, Option.some.injEq] at h
      subst h
      exact ⟨_, rfl, .inl ⟨rfl, by simp [Pc.holds, hpc]⟩,
        .inr (.inr ⟨r, hpc, rfl, rfl, rfl, rfl⟩), .inl rfl, by simp, by simp, .inl rfl,
        fun _ hu => .inl hu⟩
  | unlock r =>
      cases r with
      | none | some r =>
          simp only [advance, hpc, Option.some.injEq] at h
          subst h
          exact ⟨_, move_unlock (by rw [hpc]; rfl) rfl (by simp) (by simp)⟩
  | run r =>
      simp only [advance, hpc, Option.some.injEq] at h
      subst h
      exact ⟨_, move_put (by simp [Pc.holds, hpc]) (by simp) (by simp) (by simp) (by simp)⟩
  | push task =>
      simp only [advance, hpc, Option.some.injEq] at h
      subst h
      exact ⟨_, rfl, .inl ⟨rfl, by simp [Pc.holds, hpc]⟩,
        .inr (.inl ⟨task, hpc, rfl, rfl, rfl, rfl⟩), .inl rfl, by simp, by simp, .inl rfl,
        fun _ hu => .inl hu⟩
  | unlockGuard =>
      simp only [advance, hpc, Option.some.injEq] at h
      subst h
      exact ⟨_, move_unlock (by rw [hpc]; rfl) rfl (by simp) (by simp)⟩
  | storeStop =>
      simp only [advance, hpc, Option.some.injEq] at h
      subst h
      exact ⟨.notifyAll, rfl, .inl ⟨rfl, by simp [Pc.holds, hpc]⟩,
        .inl ⟨rfl, rfl, rfl, by simp, by simp⟩, .inr rfl, fun _ => rfl, by simp, .inl rfl,
        fun _ hu => .inl hu⟩
  | notifyAll =>
      simp only [advance, hpc, Option.some.injEq] at h
      subst h
      exact ⟨.join, rfl, .inl ⟨rfl, by simp [Pc.holds, hpc]⟩,
        .inl ⟨rfl, rfl, rfl, by simp, by simp⟩, .inl rfl, by simp, by simp, .inr ⟨hpc, rfl⟩,
        fun _ hu => nomatch hu⟩
  | join =>
      simp only [advance, hpc, Option.ite_none_right_eq_some, Option.some.injEq] at h
      obtain ⟨-, rfl⟩ := h
      exact ⟨_, move_put (by simp [Pc.holds, hpc]) (by simp) (by simp) (by simp) (by simp)⟩

theorem step_cases {a : Action θ α} (h : step s a = some s') :
    (∃ taskCond, (∀ u ∈ taskCond, u ∈ s.taskCond) ∧ s' = { s with taskCond }) ∨
      ∃ t p, Move s s' t p ∧ (s.pc t = .notifyAll → a = .advance t) := by
  cases a with
  | addTask t task =>
      simp only [step, Option.ite_none_right_eq_some, Option.some.injEq] at h
      obtain ⟨⟨hpc, hmutex⟩, rfl⟩ := h
      refine .inr ⟨t, _, move_lock hmutex rfl (by simp) (by simp) (by simp), ?_⟩
      intro hnotifyAll
      simp [hnotifyAll] at hpc
  | stop t =>
      simp only [step, Option.ite_none_right_eq_some, Option.some.injEq] at h
      obtain ⟨hpc, rfl⟩ := h
      split at hpc
      · rename_i houtside
        by_cases hstop : s.stop = true
        · rw [if_pos hstop]
          exact .inl ⟨s.taskCond, fun _ hu => hu, rfl⟩
        · rw [if_neg hstop]
          refine .inr ⟨t, _, move_put (by simp [Pc.holds, houtside]) (by simp) (by simp) (by simp)
            (by simp), ?_⟩
          simp [houtside]
      · contradiction
  | advance t =>
      obtain ⟨p, hmove⟩ := move_of_advance h
      exact .inr ⟨t, p, hmove, fun _ => rfl⟩
  | notifyOne t woken =>
      simp only [step, Option.ite_none_right_eq_some] at h
      obtain ⟨hpc, h⟩ := h
      split at hpc
      · rename_i hnotifyOne
        have hmove : ∀ taskCond : List θ, (∀ u ∈ taskCond, u ∈ s.taskCond) →
            Move s { s.put t .unlockGuard with taskCond } t .unlockGuard := by
          intro taskCond htaskCond
          exact ⟨rfl, .inl ⟨rfl, by simp [Pc.holds, hnotifyOne]⟩,
            .inl ⟨rfl, rfl, rfl, by simp, by simp⟩, .inl rfl, by simp, by simp, .inl rfl,
            fun u hu => .inl (htaskCond u hu)⟩
        refine .inr ⟨t, .unlockGuard, ?_, by simp [hnotifyOne]⟩
        cases woken with
        | none =>
            simp only [Option.ite_none_right_eq_some, Option.some.injEq] at h
            obtain ⟨-, rfl⟩ := h
            exact hmove s.taskCond fun _ hu => hu
        | some u =>
            simp only [Option.ite_none_right_eq_some, Option.some.injEq] at h
            obtain ⟨-, rfl⟩ := h
            exact hmove _ fun _ hu => List.mem_of_mem_erase hu
      · contradiction
  | wake t =>
      simp only [step, Option.ite_none_right_eq_some, Option.some.injEq] at h
      obtain ⟨-, rfl⟩ := h
      exact .inl ⟨_, fun _ hu => List.mem_of_mem_erase hu, rfl⟩

end Moves

section Safety

variable {θ α : Type*} [DecidableEq θ] {s s' : Pool θ α} {t : θ} {p : Pc α}

structure Kept (s : Pool θ α) : Prop where
  exclusive : ∀ t, (s.pc t).holds = true ↔ s.taskMutex = some t
  front : ∀ t, s.pc t = .front → s.taskQueue ≠ []
  pop : ∀ t r, s.pc t = .pop r → s.taskQueue.head? = some r
  books : s.added = s.taken.map Prod.snd ++ s.taskQueue
  stopping : ∀ t, s.pc t = .notifyAll → s.stop = true
  stopped : s.notified = true → s.stop = true

theorem kept_init (α : Type*) (threads : List θ) : Kept (Pool.init α threads) := by
  have hpc : ∀ t, (Pool.init α threads).pc t = .loopTest ∨ (Pool.init α threads).pc t = .outside :=
    fun t => ite_eq_or_eq _ _ _
  refine ⟨fun t => ?_, fun t => ?_, fun t r => ?_, rfl, fun t => ?_, fun h => nomatch h⟩
  · rcases hpc t with h | h <;> rw [h] <;> simp [Pc.holds, Pool.init]
  · rcases hpc t with h | h <;> simp [h]
  · rcases hpc t with h | h <;> simp [h]
  · rcases hpc t with h | h <;> simp [h]

theorem Move.exclusive (hs : Kept s) (hmove : Move s s' t p) (u : θ) :
    (s'.pc u).holds = true ↔ s'.taskMutex = some u := by
  have hself := hs.exclusive t
  have hother := hs.exclusive u
  rw [hmove.pc]
  rcases eq_or_ne u t with rfl | hne
  · rw [Function.update_self]
    rcases hmove.locks with ⟨hmutex, hp⟩ | ⟨-, hmutex, hp⟩ | ⟨-, hmutex, hp⟩
    · rw [hmutex, hp, hother]
    · simp [hmutex, hp]
    · simp [hmutex, hp]
  · rw [Function.update_of_ne hne, hother]
    rcases hmove.locks with ⟨hmutex, -⟩ | ⟨hmutex, hmutex', -⟩ | ⟨hholds, hmutex', -⟩
    · rw [hmutex]
    · simp [hmutex, hmutex', hne.symm]
    · simp [hself.mp hholds, hmutex', hne.symm]

/-- The queue that a thread finds when it holds the mutex is the one that it has left. -/
theorem Move.queue_of_other (hs : Kept s) (hmove : Move s s' t p) {u : θ} (hu : u ≠ t)
    (hholds : (s.pc u).holds = true) : s'.taskQueue = s.taskQueue := by
  have hfree : (s.pc t).holds ≠ true := by
    intro ht
    have hmutex := ((hs.exclusive u).mp hholds).symm.trans ((hs.exclusive t).mp ht)
    exact hu (Option.some.inj hmutex)
  rcases hmove.queues with ⟨hqueue, -⟩ | ⟨task, hpush, -⟩ | ⟨r, hpop, -⟩
  · exact hqueue
  · exact absurd (by rw [hpush]; rfl) hfree
  · exact absurd (by rw [hpop]; rfl) hfree

theorem Move.kept (hs : Kept s) (hmove : Move s s' t p) : Kept s' where
  exclusive := hmove.exclusive hs
  front := by
    intro u hu
    rw [hmove.pc] at hu
    rcases eq_or_ne u t with rfl | hne
    · rw [Function.update_self] at hu
      rcases hmove.queues with ⟨hqueue, -, -, hfront, -⟩ | ⟨task, -, hp, -⟩ | ⟨r, -, hp, -⟩
      · rw [hqueue]
        exact hfront hu
      · simp [hp] at hu
      · simp [hp] at hu
    · rw [Function.update_of_ne hne] at hu
      rw [hmove.queue_of_other hs hne (by rw [hu]; rfl)]
      exact hs.front u hu
  pop := by
    intro u r hu
    rw [hmove.pc] at hu
    rcases eq_or_ne u t with rfl | hne
    · rw [Function.update_self] at hu
      rcases hmove.queues with ⟨hqueue, -, -, -, hpop⟩ | ⟨task, -, hp, -⟩ | ⟨r, -, hp, -⟩
      · rw [hqueue]
        exact hpop r hu
      · simp [hp] at hu
      · simp [hp] at hu
    · rw [Function.update_of_ne hne] at hu
      rw [hmove.queue_of_other hs hne (by rw [hu]; rfl)]
      exact hs.pop u r hu
  books := by
    rcases hmove.queues with ⟨hqueue, hadded, htaken, -⟩ | ⟨task, -, -, hqueue, hadded, htaken⟩ |
      ⟨r, hpc, -, hqueue, hadded, htaken⟩
    · rw [hqueue, hadded, htaken, hs.books]
    · rw [hqueue, hadded, htaken, hs.books, List.append_assoc]
    · have hhead := hs.pop t r hpc
      obtain ⟨rest, hrest⟩ := List.head?_eq_some_iff.mp hhead
      rw [hqueue, hadded, htaken, hs.books, hrest]
      simp
  stopping := by
    intro u hu
    rw [hmove.pc] at hu
    rcases eq_or_ne u t with rfl | hne
    · rw [Function.update_self] at hu
      exact hmove.notifyAll hu
    · rw [Function.update_of_ne hne] at hu
      rcases hmove.stop with hstop | hstop
      · rw [hstop]
        exact hs.stopping u hu
      · exact hstop
  stopped := by
    intro hnotified
    rcases hmove.stop with hstop | hstop
    · rw [hstop]
      rcases hmove.notified with h | ⟨hpc, -⟩
      · exact hs.stopped (h ▸ hnotified)
      · exact hs.stopping t hpc
    · exact hstop

theorem step_kept (hs : Kept s) {a : Action θ α} (h : step s a = some s') : Kept s' := by
  rcases step_cases h with ⟨taskCond, -, rfl⟩ | ⟨t, p, hmove, -⟩
  · exact ⟨hs.exclusive, hs.front, hs.pop, hs.books, hs.stopping, hs.stopped⟩
  · exact hmove.kept hs

/-- `notify_all` has been called, and a worker sleeps. -/
def Stranded (s : Pool θ α) : Prop :=
  s.stop = true ∧ s.notified = true ∧ ∃ t ∈ s.taskCond, s.pc t = .asleep

/-- The tasks that have been taken are the first that were added, each of them once. -/
def TakenOnce (s : Pool θ α) : Prop := s.taken.map Prod.snd <+: s.added

/-- `notify_all` comes while no worker stands between the test of its predicate and its sleep. -/
def NotifiesAwake (s : Pool θ α) : Action θ α → Prop
  | .advance t => s.pc t = .notifyAll → ∀ u, s.pc u ≠ .wait
  | _ => True

instance [Fintype θ] [DecidableEq α] (s : Pool θ α) :
    (a : Action θ α) → Decidable (NotifiesAwake s a)
  | .advance t => inferInstanceAs (Decidable (s.pc t = .notifyAll → ∀ u, s.pc u ≠ .wait))
  | .addTask _ _ | .stop _ | .notifyOne _ _ | .wake _ => isTrue trivial

/-- No worker sleeps, or will, once `notify_all` has been called. -/
def Awake (s : Pool θ α) : Prop := s.notified = true → s.taskCond = [] ∧ ∀ t, s.pc t ≠ .wait

theorem step_awake (hs : Kept s) (hawake : Awake s) {a : Action θ α} (hnotifies : NotifiesAwake s a)
    (h : step s a = some s') : Awake s' := by
  intro hnotified
  rcases step_cases h with ⟨taskCond, hsub, rfl⟩ | ⟨t, p, hmove, hthread⟩
  · obtain ⟨hnone, hwait⟩ := hawake hnotified
    exact ⟨List.eq_nil_iff_forall_not_mem.mpr fun u hu => by simpa [hnone] using hsub u hu, hwait⟩
  · have hboth : s'.taskCond = [] ∧ s.stop = true ∧ ∀ u, s.pc u ≠ .wait := by
      rcases hmove.notified with hsame | ⟨hpc, hnone⟩
      · rw [hsame] at hnotified
        obtain ⟨hnone, hwait⟩ := hawake hnotified
        refine ⟨List.eq_nil_iff_forall_not_mem.mpr fun u hu => ?_, hs.stopped hnotified, hwait⟩
        rcases hmove.taskCond u hu with hmem | hpc
        · simp [hnone] at hmem
        · exact hwait t hpc
      · obtain rfl := hthread hpc
        exact ⟨hnone, hs.stopping t hpc, hnotifies hpc⟩
    obtain ⟨hnone, hstop, hwait⟩ := hboth
    refine ⟨hnone, fun u hu => ?_⟩
    rw [hmove.pc] at hu
    rcases eq_or_ne u t with rfl | hne
    · rw [Function.update_self] at hu
      rw [hmove.wait hu] at hstop
      contradiction
    · rw [Function.update_of_ne hne] at hu
      exact hwait u hu

theorem takenOnce {threads : List θ} {as : List (Action θ α)}
    (hrun : runSteps step (Pool.init α threads) as = some s) : TakenOnce s := by
  have hkept :=
    runSteps_invariant Kept (fun _ _ _ hs h => step_kept hs h) (kept_init α threads) hrun
  exact ⟨s.taskQueue, hkept.books.symm⟩

/-- In every run in which `notify_all` comes while no worker is about to sleep, no worker sleeps
after it, and each task is taken at most once. -/
theorem not_stranded_of_notifiesAwake {threads : List θ} {as : List (Action θ α)}
    (hall : AllSteps step NotifiesAwake (Pool.init α threads) as)
    (hrun : runSteps step (Pool.init α threads) as = some s) : ¬Stranded s ∧ TakenOnce s := by
  have hinv := hall.invariant (fun s => Kept s ∧ Awake s)
    (fun s a s' hs hnotifies h => ⟨step_kept hs.1 h, step_awake hs.1 hs.2 hnotifies h⟩)
    ⟨kept_init α threads, fun h => nomatch h⟩ hrun
  refine ⟨?_, s.taskQueue, hinv.1.books.symm⟩
  rintro ⟨-, hnotified, t, ht, -⟩
  rw [(hinv.2 hnotified).1] at ht
  contradiction

/-- A worker that is about to sleep when `notify_all` comes is stranded by its next step. -/
theorem exists_stranded (hs : Kept s) {u : θ} (hpc : s.pc t = .notifyAll) (hu : s.pc u = .wait) :
    ∃ s', runSteps step s [.advance t, .advance u] = some s' ∧ Stranded s' := by
  have hne : u ≠ t := by
    rintro rfl
    rw [hu] at hpc
    contradiction
  let s₁ : Pool θ α := { s.put t .join with taskCond := [], notified := true }
  have hfirst : step s (.advance t) = some s₁ := by
    rw [step, advance, hpc]
  have hu₁ : s₁.pc u = .wait := (Function.update_of_ne hne _ _).trans hu
  have hsecond : step s₁ (.advance u) =
      some { s₁.put u .asleep with taskMutex := none, taskCond := s₁.taskCond ++ [u] } := by
    rw [step, advance, hu₁]
  refine ⟨{ s₁.put u .asleep with taskMutex := none, taskCond := s₁.taskCond ++ [u] }, ?_, ?_⟩
  · rw [runSteps_cons, hfirst, Option.bind_some, runSteps_cons, hsecond]
    rfl
  · exact ⟨hs.stopping t hpc, rfl, u, List.mem_append_right _ (List.mem_singleton_self u),
      Function.update_self _ _ _⟩

/-- A worker sleeps when `stop` is called. -/
def stopAsleep : List (Action (Fin 2) Unit) :=
  [.advance 0, .advance 0, .advance 0, .advance 0, .stop 1, .advance 1, .advance 1, .advance 0]

theorem not_stranded_stopAsleep :
    ∃ s, runSteps step (Pool.init Unit [0]) stopAsleep = some s ∧ ¬Stranded s ∧ TakenOnce s :=
  ⟨_, rfl, @not_stranded_of_notifiesAwake _ _ _ _ [0] stopAsleep (by decide) rfl⟩

def stopBeforeSleep : List (Action (Fin 2) Unit) :=
  [.advance 0, .advance 0, .advance 0, .stop 1, .advance 1, .advance 1, .advance 0]

theorem stranded_stopBeforeSleep : ¬ ∀ (threads : List (Fin 2)) (as : List (Action (Fin 2) Unit)) s,
    runSteps step (Pool.init Unit threads) as = some s → ¬Stranded s ∧ TakenOnce s := by
  intro h
  exact (h [0] stopBeforeSleep _ rfl).1 ⟨rfl, rfl, 0, by decide, rfl⟩

end Safety

end Cooper.ThreadPool

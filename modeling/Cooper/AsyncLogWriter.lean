import Cooper.LockFreeQueue
import Mathlib.Data.Fintype.Basic

/-!
`AsyncLogWriter` as threads that write, its own thread, calls of `flushAll` and the destructor
interleave. `dequeue` takes a step for each of its loads and stores; any thread may be in it.
-/

namespace Cooper.AsyncLogWriter

open Cooper.StepRun Cooper.LockFreeQueue

section Model

/-- A message and its number in the order of the exchanges, or the string that a move has left. -/
abbrev LogMessage (α : Type*) := Option (α × Nat)

inductive Pc (α : Type*)
  | outside
  /-- `enqueue`, before the store to `next_` -/
  | store (number : Nat)
  /-- `write`, before `sem_.post()` -/
  | post
  /-- `flushAll`, in `dequeue` -/
  | loadTail
  | loadNext (tail : Addr)
  | moveData (tail next : Addr)
  | deleteData (tail next : Addr) (msg : LogMessage α)
  | storeTail (tail next : Addr) (msg : LogMessage α)
  | deleteTail (tail : Addr) (msg : LogMessage α)
  | fwrite (msg : LogMessage α)
  /-- `run` -/
  | whileTest
  | wait
  | exited
  /-- `~AsyncLogWriter`, behind the store to `exitFlag_` -/
  | postExit
  | join
  deriving DecidableEq

structure Writer (θ α : Type*) where
  queue : MpscQueue θ (LogMessage α)
  /-- `thread_` -/
  thread : θ
  exitFlag : Bool
  sem : Nat
  pc : θ → Pc α
  /-- the thread that is in the destructor -/
  destructor : Option θ
  destroyed : Bool
  /-- the messages of the exchanges, and how many came before the destructor -/
  entered : List α
  promised : Nat
  /-- what has been moved out of nodes, and what has been written -/
  taken : List (LogMessage α)
  output : List (LogMessage α)

inductive Action (θ α : Type*)
  /-- A thread calls `write` and exchanges `head_`; `new` has returned `node`. -/
  | write (t : θ) (msg : α) (node : Addr)
  | flushAll (t : θ)
  /-- A thread calls the destructor and sets `exitFlag_`. -/
  | destroy (t : θ)
  /-- A thread goes on with what it is in. -/
  | advance (t : θ)

variable {θ α : Type*} [DecidableEq θ]

def Pc.isLocal : Pc α → Bool
  | .deleteTail _ _ | .fwrite _ => true
  | _ => false

def Writer.put (s : Writer θ α) (t : θ) (pc : Pc α) : Writer θ α :=
  { s with pc := Function.update s.pc t pc }

def Writer.putNode (s : Writer θ α) (a : Addr) (n : Option (BufferNode (LogMessage α))) :
    Writer θ α :=
  { s with queue := { s.queue with nodes := Function.update s.queue.nodes a n } }

def leaveFlush (s : Writer θ α) (t : θ) : Writer θ α :=
  if t = s.thread then s.put t .whileTest
  else { s.put t .outside with destroyed := s.destroyed || s.destructor == some t }

/-- An access to a node or a message that has been deleted has no result. -/
def advance (s : Writer θ α) (t : θ) : Option (Writer θ α) :=
  match s.pc t with
  | .outside => none
  | .store _ => (s.queue.step (.store t)).map fun (queue, _) => { s.put t .post with queue }
  | .post => some { s.put t .outside with sem := s.sem + 1 }
  | .loadTail => some (s.put t (.loadNext s.queue.tail))
  | .loadNext tail =>
      (s.queue.nodes tail).map fun n =>
        match n.next with
        | none => leaveFlush s t
        | some next => s.put t (.moveData tail next)
  | .moveData tail next =>
      match s.queue.nodes next with
      | some ⟨some msg, nextNext⟩ =>
          let s := { s with taken := s.taken ++ [msg] }
          some ((s.put t (.deleteData tail next msg)).putNode next (some ⟨some none, nextNext⟩))
      | _ => none
  | .deleteData tail next msg =>
      match s.queue.nodes next with
      | some ⟨some _, nextNext⟩ =>
          some ((s.put t (.storeTail tail next msg)).putNode next (some ⟨none, nextNext⟩))
      | _ => none
  | .storeTail tail next msg =>
      some { s.put t (.deleteTail tail msg) with queue := { s.queue with tail := next } }
  | .deleteTail tail msg =>
      if (s.queue.nodes tail).isSome then some ((s.put t (.fwrite msg)).putNode tail none) else none
  | .fwrite msg => some { s.put t .loadTail with output := s.output ++ [msg] }
  | .whileTest => some (s.put t (if s.exitFlag then .exited else .wait))
  | .wait => if s.sem = 0 then none else some { s.put t .loadTail with sem := s.sem - 1 }
  | .exited => none
  | .postExit => some { s.put t .join with sem := s.sem + 1 }
  | .join => if s.pc s.thread matches .exited then some (s.put t .loadTail) else none

def step (s : Writer θ α) : Action θ α → Option (Writer θ α)
  | .write t msg node =>
      if s.pc t matches .outside ∧ s.destroyed = false ∧ (s.queue.nodes node).isNone then
        (s.queue.step (.exchange t (some (msg, s.entered.length)) node)).map fun (queue, _) =>
          { s.put t (.store s.entered.length) with queue, entered := s.entered ++ [msg] }
      else none
  | .flushAll t =>
      if s.pc t matches .outside ∧ s.destroyed = false then some (s.put t .loadTail) else none
  | .destroy t =>
      if s.pc t matches .outside ∧ s.destroyed = false ∧ s.destructor = none then
        some { s.put t .postExit with
          exitFlag := true
          destructor := some t
          promised := s.entered.length }
      else none
  | .advance t => if s.destroyed && !(s.pc t).isLocal then none else advance s t

def Writer.init (α : Type*) (thread : θ) (node : Addr) : Writer θ α where
  queue := .init θ (LogMessage α) node
  thread
  exitFlag := false
  sem := 0
  pc := fun t => if t = thread then .whileTest else .outside
  destructor := none
  destroyed := false
  entered := []
  promised := 0
  taken := []
  output := []

end Model

section Property

variable {θ α : Type*}

def Pc.takes : Pc α → Bool
  | .moveData _ _ | .deleteData _ _ _ | .storeTail _ _ _ => true
  | _ => false

def Pc.msg : Pc α → Option (LogMessage α)
  | .deleteData _ _ msg | .storeTail _ _ msg | .deleteTail _ msg | .fwrite msg => some msg
  | _ => none

def Pc.number : Pc α → Option Nat
  | .store number => some number
  | _ => none

/-- What a step reads or deletes has not been deleted, and a message that it moves has not been
moved before. -/
def Sound (s : Writer θ α) : Action θ α → Prop
  | .advance t =>
      match s.pc t with
      | .loadNext tail | .deleteTail tail _ => (s.queue.nodes tail).isSome
      | .moveData _ next => ∃ m nextNext, s.queue.nodes next = some ⟨some (some m), nextNext⟩
      | .deleteData _ next _ => ∃ msg nextNext, s.queue.nodes next = some ⟨some msg, nextNext⟩
      | _ => True
  | _ => True

/-- No message is written twice, and when the destructor is done each one that has been entered
before it has been written, or a thread has it to write. -/
structure WrittenOnce (s : Writer θ α) : Prop where
  nodup : s.output.Nodup
  entered : ∀ msg ∈ s.output, ∃ m ∈ s.entered.zipIdx, msg = some m
  promised : s.destroyed = true → ∀ m ∈ s.entered.zipIdx, m.2 < s.promised →
    some m ∈ s.output ∨ ∃ t, (s.pc t).msg = some (some m)

def Pc.loaded : Pc α → Option Addr
  | .loadNext tail => some tail
  | _ => none

/-- The node is the tail still, and no other thread is on its way from a node that it has found to
the store of `tail_`. Where the destructor finds none, no `write` of before it has still to store
`next_`. -/
def LoadsAlone (s : Writer θ α) (t : θ) (tail : Addr) : Prop :=
  (s.queue.tail = tail ∧ ∀ u, (s.pc u).takes = false) ∧
    (s.destructor = some t → (s.queue.nodes tail).any (·.next.isNone) →
      ∀ u, (s.pc u).number.all (s.promised ≤ ·))

def Exclusive (s : Writer θ α) : Action θ α → Prop
  | .advance t => ∀ tail ∈ (s.pc t).loaded, LoadsAlone s t tail
  | _ => True

instance [DecidableEq θ] [Fintype θ] (s : Writer θ α) (t : θ) (tail : Addr) :
    Decidable (LoadsAlone s t tail) :=
  inferInstanceAs (Decidable (_ ∧ _))

instance [DecidableEq θ] [Fintype θ] (s : Writer θ α) (a : Action θ α) :
    Decidable (Exclusive s a) :=
  match a with
  | .advance t => inferInstanceAs (Decidable (∀ tail ∈ (s.pc t).loaded, LoadsAlone s t tail))
  | .write _ _ _ | .flushAll _ | .destroy _ => isTrue trivial

end Property

section Memory

variable {θ α : Type*} {queue : MpscQueue θ (LogMessage α)} {pc : θ → Pc α}
  {t : θ} {front : Addr} {l : List (Entry θ (LogMessage α) × Addr)}

def Pc.moved : Pc α → Bool
  | .deleteData _ _ _ | .storeTail _ _ _ => true
  | _ => false

def Pc.old : Pc α → Option Addr
  | .deleteData tail _ _ | .storeTail tail _ _ | .deleteTail tail _ => some tail
  | _ => none

def Pc.quiet (p : Pc α) : Prop :=
  p.takes = false ∧ p.moved = false ∧ p.old = none ∧ p.number = none

def Old (queue : MpscQueue θ (LogMessage α)) (front : Addr)
    (l : List (Entry θ (LogMessage α) × Addr)) (a : Addr) : Prop :=
  (queue.nodes a).isSome ∧ a ∉ front :: l.map Prod.snd

theorem Old.update {front' a b : Addr} {l' : List (Entry θ (LogMessage α) × Addr)}
    (h : (queue.nodes a).isSome) (hnot : a ∉ front' :: l'.map Prod.snd) (hne : a ≠ b)
    (n : Option (BufferNode (LogMessage α))) :
    Old { queue with nodes := Function.update queue.nodes b n } front' l' a := by
  refine ⟨?_, hnot⟩
  change (Function.update queue.nodes b n a).isSome = true
  rw [Function.update_of_ne hne]
  exact h

/-- What a thread in `dequeue` relies on. -/
def Phase (queue : MpscQueue θ (LogMessage α)) (front : Addr)
    (l : List (Entry θ (LogMessage α) × Addr)) : Pc α → Prop
  | .moveData tail next => tail = front ∧ ∃ e rest, l = (e, next) :: rest ∧ e.storing = none
  | .deleteData tail next _ =>
      next = front ∧ (∃ msg nextNext, queue.nodes next = some ⟨some msg, nextNext⟩) ∧
        Old queue front l tail
  | .storeTail tail next _ => next = front ∧ Old queue front l tail
  | .deleteTail tail _ => Old queue front l tail
  | _ => True

def Apart (p p' : Pc α) : Prop :=
  (p.takes = true → p'.takes = false) ∧ ∀ a, p.old = some a → p'.old ≠ some a

/-- The queue lists `l` behind the node `front`, to which `tail_` is going to be set. -/
structure Memory (queue : MpscQueue θ (LogMessage α)) (pc : θ → Pc α) (front : Addr)
    (l : List (Entry θ (LogMessage α) × Addr)) : Prop where
  lists : MpscQueue.Lists { queue with tail := front } l
  apart : ∀ t u, t ≠ u → Apart (pc t) (pc u)
  tail : (∀ t, (pc t).moved = false) → queue.tail = front
  phase : ∀ t, Phase queue front l (pc t)
  storing : ∀ t, (queue.storing t).isSome = (pc t).number.isSome

theorem Apart.symm {p p' : Pc α} (h : Apart p p') : Apart p' p := by
  refine ⟨fun htakes => ?_, fun a ha hb => h.2 a hb ha⟩
  by_contra hne
  rw [h.1 (Bool.not_eq_false _ ▸ hne)] at htakes
  contradiction

theorem Apart.of_less {p p' q : Pc α} (h : Apart p q) (htakes : p'.takes = true → p.takes = true)
    (hold : ∀ a, p'.old = some a → p.old = some a) : Apart p' q :=
  ⟨fun h' => h.1 (htakes h'), fun a ha => h.2 a (hold a ha)⟩

theorem Phase.old {p : Pc α} (h : Phase queue front l p) {a : Addr} (ha : p.old = some a) :
    Old queue front l a := by
  cases p with
  | deleteData => exact Option.some.inj ha ▸ h.2.2
  | storeTail => exact Option.some.inj ha ▸ h.2
  | deleteTail => exact Option.some.inj ha ▸ h
  | _ => contradiction

theorem phase_of_old {p : Pc α} (htakes : p.takes = false)
    (hold : ∀ a, p.old = some a → Old queue front l a) : Phase queue front l p := by
  cases p with
  | moveData | deleteData | storeTail => contradiction
  | deleteTail => exact hold _ rfl
  | _ => trivial

theorem phase_of_quiet {p : Pc α} (h : p.quiet) : Phase queue front l p :=
  phase_of_old h.1 fun _ ha => nomatch h.2.2.1.symm.trans ha

theorem Phase.mono {queue' : MpscQueue θ (LogMessage α)}
    {l' : List (Entry θ (LogMessage α) × Addr)} {p : Pc α} (h : Phase queue front l p)
    (hold : ∀ a, p.old = some a → Old queue front l a → Old queue' front l' a)
    (hfront : ∀ msg next, queue.nodes front = some ⟨some msg, next⟩ →
      ∃ next', queue'.nodes front = some ⟨some msg, next'⟩)
    (hl : ∀ e next rest, l = (e, next) :: rest → e.storing = none →
      ∃ e' rest', l' = (e', next) :: rest' ∧ e'.storing = none) : Phase queue' front l' p := by
  cases p with
  | moveData tail next =>
      obtain ⟨rfl, e, rest, hlist, he⟩ := h
      exact ⟨rfl, hl e next rest hlist he⟩
  | deleteData tail next data =>
      obtain ⟨rfl, ⟨msg, nextNext, hnode⟩, htail⟩ := h
      obtain ⟨next', hnode'⟩ := hfront msg nextNext hnode
      exact ⟨rfl, ⟨msg, next', hnode'⟩, hold tail rfl htail⟩
  | storeTail tail next data => exact ⟨h.1, hold tail rfl h.2⟩
  | deleteTail tail data => exact hold tail rfl h
  | _ => trivial

theorem apart_of_quiet {p q : Pc α} (h : p.quiet) : Apart p q :=
  ⟨fun htakes => (nomatch h.1.symm.trans htakes), fun _ ha => nomatch h.2.2.1.symm.trans ha⟩

theorem moved_of_not_takes {p : Pc α} (h : p.takes = false) : p.moved = false := by
  cases p with
  | deleteData | storeTail => contradiction
  | _ => rfl

variable [DecidableEq θ]

theorem apart_update (h : ∀ t u, t ≠ u → Apart (pc t) (pc u)) {p : Pc α}
    (hp : ∀ u, u ≠ t → Apart p (pc u)) (u v : θ) (hne : u ≠ v) :
    Apart (Function.update pc t p u) (Function.update pc t p v) := by
  rcases eq_or_ne u t with rfl | hu
  · rw [Function.update_self, Function.update_of_ne hne.symm]
    exact hp v hne.symm
  · rw [Function.update_of_ne hu]
    rcases eq_or_ne v t with rfl | hv
    · rw [Function.update_self]
      exact (hp u hu).symm
    · rw [Function.update_of_ne hv]
      exact h u v hne

theorem moved_of_update {p : Pc α} (ht : (pc t).moved = false)
    (h : ∀ u, (Function.update pc t p u).moved = false) (u : θ) : (pc u).moved = false := by
  rcases eq_or_ne u t with rfl | hne
  · exact ht
  · have hu := h u
    rwa [Function.update_of_ne hne] at hu

theorem Memory.put_quiet (h : Memory queue pc front l) {p : Pc α} (ht : (pc t).quiet)
    (hp : p.quiet) : Memory queue (Function.update pc t p) front l where
  lists := h.lists
  apart := apart_update h.apart fun _ _ => apart_of_quiet hp
  tail := fun hmoved => h.tail (moved_of_update ht.2.1 hmoved)
  phase := (Function.forall_update_iff pc fun _ => Phase queue front l).mpr
    ⟨phase_of_quiet hp, fun u _ => h.phase u⟩
  storing := (Function.forall_update_iff pc
    fun u q => (queue.storing u).isSome = q.number.isSome).mpr
    ⟨(h.storing t).trans (by rw [ht.2.2.2, hp.2.2.2]), fun u _ => h.storing u⟩

theorem Memory.take (h : Memory queue pc front l) (ht : (pc t).quiet)
    (hnone : ∀ u, (pc u).takes = false) {msg : Option (LogMessage α)} {next : Addr}
    (hnext : queue.nodes queue.tail = some ⟨msg, some next⟩) :
    Memory queue (Function.update pc t (.moveData queue.tail next)) front l := by
  have hfront : queue.tail = front := h.tail fun u => moved_of_not_takes (hnone u)
  obtain ⟨e, rest, hlist, he⟩ := h.lists.front (hfront ▸ hnext)
  constructor
  · exact h.lists
  · exact apart_update h.apart fun u _ => ⟨fun _ => hnone u, nofun⟩
  · exact fun _ => hfront
  · rw [Function.forall_update_iff pc fun _ => Phase queue front l]
    exact ⟨⟨hfront, e, rest, hlist, he⟩, fun u _ => h.phase u⟩
  · rw [Function.forall_update_iff pc fun u q => (queue.storing u).isSome = q.number.isSome]
    exact ⟨(h.storing t).trans (by rw [ht.2.2.2]; rfl), fun u _ => h.storing u⟩

theorem Memory.move (h : Memory queue pc front l) {tail next : Addr}
    (hpc : pc t = .moveData tail next) :
    ∃ e rest nextNext, l = (e, next) :: rest ∧ queue.nodes next = some ⟨some e.item, nextNext⟩ ∧
      ∀ msg, Memory { queue with
        nodes := Function.update queue.nodes next (some ⟨some none, nextNext⟩) }
        (Function.update pc t (.deleteData tail next msg)) next rest := by
  have hphase := h.phase t
  rw [hpc] at hphase
  obtain ⟨rfl, e, rest, rfl, he⟩ := hphase
  obtain ⟨htail, ⟨nextNext, hnext⟩, hrest⟩ := h.lists.advance he
  have hothers : ∀ u, u ≠ t → (pc u).takes = false := by
    intro u hne
    apply (h.apart t u hne.symm).1
    rw [hpc]
    rfl
  have hold : ∀ a, Old queue tail ((e, next) :: rest) a →
      Old { queue with nodes := Function.update queue.nodes next (some ⟨some none, nextNext⟩) }
        next rest a := by
    intro a ha
    have hnot := ha.2
    rw [List.map_cons, List.mem_cons, not_or] at hnot
    exact .update ha.1 hnot.2 (fun heq => hnot.2 (heq ▸ List.mem_cons_self)) _
  refine ⟨e, rest, nextNext, rfl, hnext, fun msg => ⟨?_, ?_, ?_, ?_, ?_⟩⟩
  · exact hrest.update_tail hnext (some none)
  · refine apart_update h.apart fun u hne => ⟨fun _ => hothers u hne, fun a ha hu => ?_⟩
    obtain rfl := Option.some.inj ha
    exact ((h.phase u).old hu).2 List.mem_cons_self
  · intro hmoved
    have := hmoved t
    rw [Function.update_self] at this
    contradiction
  · rw [Function.forall_update_iff pc fun _ => Phase _ next rest]
    refine ⟨⟨rfl, ⟨none, nextNext, Function.update_self _ _ _⟩, ?_⟩, fun u hne => ?_⟩
    · obtain ⟨n, hn⟩ := h.lists.chain.alive tail List.mem_cons_self
      exact .update (Option.isSome_of_eq_some hn) htail
        (fun heq => htail (heq ▸ List.mem_cons_self)) _
    · exact phase_of_old (hothers u hne) fun a ha => hold a ((h.phase u).old ha)
  · rw [Function.forall_update_iff pc fun u q => (queue.storing u).isSome = q.number.isSome]
    exact ⟨(h.storing t).trans (by rw [hpc]; rfl), fun u _ => h.storing u⟩

theorem Memory.deleteData (h : Memory queue pc front l) {tail next : Addr} {msg : LogMessage α}
    (hpc : pc t = .deleteData tail next msg) :
    ∃ data nextNext, queue.nodes next = some ⟨some data, nextNext⟩ ∧
      Memory { queue with nodes := Function.update queue.nodes next (some ⟨none, nextNext⟩) }
        (Function.update pc t (.storeTail tail next msg)) front l := by
  have hphase := h.phase t
  rw [hpc] at hphase
  obtain ⟨rfl, ⟨data, nextNext, hnext⟩, hold⟩ := hphase
  have hothers : ∀ u, u ≠ t → (pc u).takes = false := by
    intro u hne
    apply (h.apart t u hne.symm).1
    rw [hpc]
    rfl
  have hkept : ∀ a, Old queue next l a → Old { queue with
      nodes := Function.update queue.nodes next (some ⟨none, nextNext⟩) } next l a :=
    fun a ha => .update ha.1 ha.2 (fun heq => ha.2 (heq ▸ List.mem_cons_self)) _
  refine ⟨data, nextNext, hnext, ?_, ?_, ?_, ?_, ?_⟩
  · exact h.lists.update_tail hnext none
  · refine apart_update h.apart fun u hne => (h.apart t u hne.symm).of_less ?_ ?_
    · exact fun _ => by rw [hpc]; rfl
    · exact fun a ha => by rw [hpc]; exact ha
  · intro hmoved
    have hself := hmoved t
    rw [Function.update_self] at hself
    contradiction
  · rw [Function.forall_update_iff pc fun _ => Phase _ next l]
    refine ⟨⟨rfl, hkept tail hold⟩, fun u hne => ?_⟩
    exact phase_of_old (hothers u hne) fun a ha => hkept a ((h.phase u).old ha)
  · rw [Function.forall_update_iff pc fun u q => (queue.storing u).isSome = q.number.isSome]
    exact ⟨(h.storing t).trans (by rw [hpc]; rfl), fun u _ => h.storing u⟩

theorem Memory.storeTail (h : Memory queue pc front l) {tail next : Addr} {msg : LogMessage α}
    (hpc : pc t = .storeTail tail next msg) :
    Memory { queue with tail := next } (Function.update pc t (.deleteTail tail msg)) front l := by
  have hphase := h.phase t
  rw [hpc] at hphase
  obtain ⟨rfl, hold⟩ := hphase
  constructor
  · exact h.lists
  · refine apart_update h.apart fun u hne => (h.apart t u hne.symm).of_less nofun ?_
    exact fun a ha => by rw [hpc]; exact ha
  · exact fun _ => rfl
  · rw [Function.forall_update_iff pc fun _ => Phase _ next l]
    refine ⟨hold, fun u hne => (h.phase u).mono (fun _ _ ha => ha) ?_ ?_⟩
    · exact fun _ next hnext => ⟨next, hnext⟩
    · exact fun e next rest hlist he => ⟨e, rest, hlist, he⟩
  · rw [Function.forall_update_iff pc fun u q => (queue.storing u).isSome = q.number.isSome]
    exact ⟨(h.storing t).trans (by rw [hpc]; rfl), fun u _ => h.storing u⟩

theorem Memory.deleteTail (h : Memory queue pc front l) {tail : Addr} {msg : LogMessage α}
    (hpc : pc t = .deleteTail tail msg) :
    (queue.nodes tail).isSome ∧
      Memory { queue with nodes := Function.update queue.nodes tail none }
        (Function.update pc t (.fwrite msg)) front l := by
  have hphase := h.phase t
  rw [hpc] at hphase
  refine ⟨hphase.1, ?_, ?_, ?_, ?_, ?_⟩
  · exact h.lists.update hphase.2 none
  · exact apart_update h.apart fun u hne => (h.apart t u hne.symm).of_less nofun nofun
  · exact fun hmoved => h.tail (moved_of_update (by rw [hpc]; rfl) hmoved)
  · rw [Function.forall_update_iff pc fun _ => Phase _ front l]
    refine ⟨trivial, fun u hne => (h.phase u).mono ?_ ?_ ?_⟩
    · intro a ha hold
      apply Old.update hold.1 hold.2
      rintro rfl
      exact (h.apart t u hne.symm).2 a (by rw [hpc]; rfl) ha
    · intro data next hnext
      have hne : front ≠ tail := by
        rintro rfl
        exact hphase.2 List.mem_cons_self
      exact ⟨next, (Function.update_of_ne hne _ _).trans hnext⟩
    · exact fun e next rest hlist he => ⟨e, rest, hlist, he⟩
  · rw [Function.forall_update_iff pc fun u q => (queue.storing u).isSome = q.number.isSome]
    exact ⟨(h.storing t).trans (by rw [hpc]; rfl), fun u _ => h.storing u⟩

theorem Memory.exchange (h : Memory queue pc front l) (ht : (pc t).quiet) {node : Addr}
    (hnode : queue.nodes node = none) (msg : LogMessage α) (number : Nat) :
    Memory { queue with
      nodes := Function.update queue.nodes node (some ⟨some msg, none⟩)
      head := node
      storing := Function.update queue.storing t (some (queue.head, node)) }
      (Function.update pc t (.store number)) front (l ++ [(⟨msg, some t⟩, node)]) := by
  have hidle : queue.storing t = none := by
    have := h.storing t
    rw [ht.2.2.2] at this
    exact Option.not_isSome_iff_eq_none.mp (by simp [this])
  have hfront : front ≠ node := by
    rintro rfl
    obtain ⟨n, hn⟩ := h.lists.chain.alive front List.mem_cons_self
    exact nomatch hn.symm.trans hnode
  constructor
  · exact h.lists.exchange ⟨hidle, hnode⟩
  · exact apart_update h.apart fun u _ => ⟨nofun, nofun⟩
  · exact fun hmoved => h.tail (moved_of_update ht.2.1 hmoved)
  · rw [Function.forall_update_iff pc fun _ => Phase _ front _]
    refine ⟨trivial, fun u hne => (h.phase u).mono ?_ ?_ ?_⟩
    · intro a _ hold
      have hne : a ≠ node := by
        rintro rfl
        exact nomatch hnode ▸ hold.1
      refine .update hold.1 ?_ hne _
      simpa [hne] using hold.2
    · intro data next hnext
      exact ⟨next, (Function.update_of_ne hfront _ _).trans hnext⟩
    · exact fun e next rest hlist he => ⟨e, rest ++ [_], by rw [hlist]; rfl, he⟩
  · intro u
    rcases eq_or_ne u t with rfl | hne
    · simp [Pc.number]
    · simpa [Function.update_of_ne hne] using h.storing u

theorem Memory.store (h : Memory queue pc front l) {number : Nat} (hpc : pc t = .store number) :
    ∃ queue', queue.step (.store t) = some (queue', .done) ∧
      Memory queue' (Function.update pc t .post) front (l.map fun p => (p.1.store t, p.2)) := by
  have hstoring : (queue.storing t).isSome := by
    rw [h.storing t, hpc]
    rfl
  obtain ⟨⟨prevhead, node⟩, hw⟩ := Option.isSome_iff_exists.mp hstoring
  obtain ⟨hmem, n, hn, hlists⟩ := h.lists.store hw
  refine ⟨_, MpscQueue.step_store hw hn, hlists, ?_, ?_, ?_, ?_⟩
  · exact apart_update h.apart fun u _ => ⟨nofun, nofun⟩
  · exact fun hmoved => h.tail (moved_of_update (by rw [hpc]; rfl) hmoved)
  · rw [Function.forall_update_iff pc fun _ => Phase _ front _]
    refine ⟨trivial, fun u hne => (h.phase u).mono ?_ ?_ ?_⟩
    · intro a _ hold
      refine .update hold.1 ?_ (fun heq => hold.2 (heq ▸ hmem)) _
      rw [List.map_map]
      exact hold.2
    · intro data next hnext
      rcases eq_or_ne front prevhead with rfl | hne
      · obtain rfl := Option.some.inj (hn.symm.trans hnext)
        exact ⟨some node, Function.update_self _ _ _⟩
      · exact ⟨next, (Function.update_of_ne hne _ _).trans hnext⟩
    · intro e next rest hlist he
      refine ⟨e.store t, rest.map fun p => (p.1.store t, p.2), by rw [hlist]; rfl, ?_⟩
      rw [MpscQueue.store_of_ne (by simp [he]), he]
  · intro u
    rcases eq_or_ne u t with rfl | hne
    · simp [Pc.number]
    · simpa [Function.update_of_ne hne] using h.storing u

theorem memory_init (thread : θ) (node : Addr) :
    Memory (.init θ (LogMessage α) node) (Writer.init α thread node).pc node [] := by
  obtain ⟨l, hnil, hlists⟩ :=
    MpscQueue.represents_iff.mp (MpscQueue.init_represents (ι := θ) (α := LogMessage α) node)
  obtain rfl := List.map_eq_nil_iff.mp hnil
  have hquiet : ∀ t, ((Writer.init α thread node).pc t).quiet := by
    intro t
    simp only [Writer.init]
    split
    · exact ⟨rfl, rfl, rfl, rfl⟩
    · exact ⟨rfl, rfl, rfl, rfl⟩
  refine ⟨hlists, fun t u _ => apart_of_quiet (hquiet t), fun _ => rfl, ?_, ?_⟩
  · exact fun t => phase_of_quiet (hquiet t)
  · intro t
    rw [(hquiet t).2.2.2]
    rfl

end Memory

section Books

variable {θ α : Type*} {s s' : Writer θ α} {t : θ}
  {l : List (Entry θ (LogMessage α) × Addr)}

/-- Each message that has been entered is taken or in the queue, and what is taken has been written
or is with one thread. -/
structure Books (s : Writer θ α) (l : List (Entry θ (LogMessage α) × Addr)) : Prop where
  items : s.taken ++ l.map (·.1.item) = s.entered.zipIdx.map some
  number : ∀ p ∈ l, ∀ t, p.1.storing = some t →
    ∃ m, p.1.item = some m ∧ (s.pc t).number = some m.2
  single : ∀ t u msg, (s.pc t).msg = some msg → (s.pc u).msg = some msg → t = u
  held : ∀ t msg, (s.pc t).msg = some msg → msg ∈ s.taken ∧ msg ∉ s.output
  output : ∀ msg ∈ s.output, msg ∈ s.taken
  nodup : s.output.Nodup
  taken : ∀ msg ∈ s.taken, msg ∈ s.output ∨ ∃ t, (s.pc t).msg = some msg
  promised : s.destroyed = true → ∀ m ∈ s.entered.zipIdx, m.2 < s.promised → some m ∈ s.taken

theorem Books.of_msgs {l' : List (Entry θ (LogMessage α) × Addr)} (h : Books s l)
    (hmsg : ∀ u, (s'.pc u).msg = (s.pc u).msg) (htaken : s'.taken = s.taken)
    (houtput : s'.output = s.output)
    (hitems : s.taken ++ l'.map (·.1.item) = s'.entered.zipIdx.map some)
    (hnumber : ∀ p ∈ l', ∀ t, p.1.storing = some t →
      ∃ m, p.1.item = some m ∧ (s'.pc t).number = some m.2)
    (hpromised : s'.destroyed = true →
      ∀ m ∈ s'.entered.zipIdx, m.2 < s'.promised → some m ∈ s.taken) : Books s' l' := by
  constructor
  · rw [htaken]
    exact hitems
  · exact hnumber
  · simpa only [hmsg] using h.single
  · simpa only [hmsg, htaken, houtput] using h.held
  · simpa only [htaken, houtput] using h.output
  · rw [houtput]
    exact h.nodup
  · simpa only [hmsg, htaken, houtput] using h.taken
  · rw [htaken]
    exact hpromised

theorem Books.congr (h : Books s l) (hmsg : ∀ u, (s'.pc u).msg = (s.pc u).msg)
    (hnumber : ∀ u, (s'.pc u).number = (s.pc u).number) (htaken : s'.taken = s.taken)
    (hentered : s'.entered = s.entered) (houtput : s'.output = s.output)
    (hpromised : s'.destroyed = true →
      ∀ m ∈ s.entered.zipIdx, m.2 < s'.promised → some m ∈ s.taken) : Books s' l := by
  apply h.of_msgs hmsg htaken houtput
  · rw [hentered]
    exact h.items
  · simpa only [hnumber] using h.number
  · rw [hentered]
    exact hpromised

variable [DecidableEq θ]

theorem update_congr {β : Type*} (f : Pc α → β) {pc : θ → Pc α} {p : Pc α} (h : f p = f (pc t))
    (u : θ) : f (Function.update pc t p u) = f (pc u) := by
  rcases eq_or_ne u t with rfl | hne
  · rw [Function.update_self, h]
  · rw [Function.update_of_ne hne]

theorem msg_update {pc : θ → Pc α} {p : Pc α} {u : θ} {msg : LogMessage α} :
    (Function.update pc t p u).msg = some msg ↔
      u = t ∧ p.msg = some msg ∨ u ≠ t ∧ (pc u).msg = some msg := by
  rcases eq_or_ne u t with rfl | hne
  · simp
  · simp [hne]

theorem Books.put (h : Books s l) {p : Pc α} (hmsg : p.msg = (s.pc t).msg)
    (hnumber : p.number = (s.pc t).number) : Books (s.put t p) l :=
  h.congr (update_congr Pc.msg hmsg) (update_congr Pc.number hnumber) rfl rfl rfl h.promised

omit [DecidableEq θ] in
theorem Books.items_nodup (h : Books s l) : (s.taken ++ l.map (·.1.item)).Nodup := by
  rw [h.items]
  apply List.Nodup.map (Option.some_injective _)
  apply List.Nodup.of_map Prod.snd
  rw [List.zipIdx_map_snd]
  exact List.nodup_range'

theorem Books.exchange (h : Books s l) (hmsg : (s.pc t).msg = none)
    (hnumber : (s.pc t).number = none) (hdestroyed : s.destroyed = false) (msg : α) (node : Addr)
    (queue : MpscQueue θ (LogMessage α)) :
    Books { s.put t (.store s.entered.length) with queue, entered := s.entered ++ [msg] }
      (l ++ [(⟨some (msg, s.entered.length), some t⟩, node)]) := by
  refine h.of_msgs (update_congr Pc.msg (by rw [hmsg]; rfl)) rfl rfl ?_ ?_ ?_
  · change s.taken ++ _ = (s.entered ++ [msg]).zipIdx.map some
    rw [List.map_append, ← List.append_assoc, h.items, List.zipIdx_append, List.map_append,
      Nat.zero_add]
    rfl
  · intro p hp u hu
    change ∃ m, _ ∧ (Function.update s.pc t _ u).number = _
    rcases List.mem_append.mp hp with hp | hp
    · obtain ⟨m, hm, hpc⟩ := h.number p hp u hu
      refine ⟨m, hm, ?_⟩
      rw [Function.update_of_ne, hpc]
      rintro rfl
      exact nomatch hnumber.symm.trans hpc
    · obtain rfl := List.mem_singleton.mp hp
      obtain rfl := Option.some.inj hu
      exact ⟨_, rfl, by rw [Function.update_self]; rfl⟩
  · exact fun hafter => nomatch hdestroyed.symm.trans hafter

theorem Books.store (h : Books s l) {number : Nat} (hpc : s.pc t = .store number)
    (queue : MpscQueue θ (LogMessage α)) :
    Books { s.put t .post with queue } (l.map fun p => (p.1.store t, p.2)) := by
  refine h.of_msgs (update_congr Pc.msg (by rw [hpc]; rfl)) rfl rfl ?_ ?_ ?_
  · change s.taken ++ _ = s.entered.zipIdx.map some
    rw [← h.items, List.map_map]
    congr 1
    apply List.map_congr_left
    intro p _
    exact MpscQueue.store_item p.1 t
  · intro p hp u hu
    change ∃ m, _ ∧ (Function.update s.pc t _ u).number = _
    obtain ⟨q, hq, rfl⟩ := List.mem_map.mp hp
    have hne : q.1.storing ≠ some t := by
      intro heq
      rw [MpscQueue.store_of_eq heq] at hu
      cases hu
    rw [MpscQueue.store_of_ne hne] at hu ⊢
    rw [Function.update_of_ne]
    · exact h.number q hq u hu
    · rintro rfl
      exact hne hu
  · exact h.promised

theorem Books.take {e : Entry θ (LogMessage α)} {next tail : Addr}
    {rest : List (Entry θ (LogMessage α) × Addr)} (h : Books s ((e, next) :: rest))
    (hmsg : (s.pc t).msg = none) (hnumber : (s.pc t).number = none)
    (queue : MpscQueue θ (LogMessage α)) :
    Books { s.put t (.deleteData tail next e.item) with queue, taken := s.taken ++ [e.item] }
      rest := by
  have hfresh : e.item ∉ s.taken := by
    have hnodup := h.items_nodup
    rw [List.map_cons, List.nodup_append] at hnodup
    exact fun hmem => hnodup.2.2 _ hmem _ List.mem_cons_self rfl
  constructor
  · change (s.taken ++ [e.item]) ++ _ = _
    rw [List.append_assoc]
    exact h.items
  · intro p hp u hu
    obtain ⟨m, hm, hpc⟩ := h.number p (List.mem_cons_of_mem _ hp) u hu
    refine ⟨m, hm, (update_congr Pc.number ?_ u).trans hpc⟩
    exact hnumber.symm
  · intro u v m hu hv
    rcases msg_update.mp hu with ⟨rfl, hitem⟩ | ⟨-, hu'⟩
    · obtain rfl := Option.some.inj hitem
      rcases msg_update.mp hv with ⟨rfl, -⟩ | ⟨-, hv'⟩
      · rfl
      · exact absurd (h.held v _ hv').1 hfresh
    · rcases msg_update.mp hv with ⟨rfl, hitem⟩ | ⟨-, hv'⟩
      · obtain rfl := Option.some.inj hitem
        exact absurd (h.held u _ hu').1 hfresh
      · exact h.single u v m hu' hv'
  · intro u m hu
    rcases msg_update.mp hu with ⟨-, hitem⟩ | ⟨-, hu'⟩
    · obtain rfl := Option.some.inj hitem
      exact ⟨List.mem_append_right _ List.mem_cons_self, fun hmem => hfresh (h.output _ hmem)⟩
    · exact (h.held u m hu').imp_left (List.mem_append_left _)
  · exact fun m hm => List.mem_append_left _ (h.output m hm)
  · exact h.nodup
  · intro m hm
    rcases List.mem_append.mp hm with hm | hm
    · refine (h.taken m hm).imp_right (Exists.imp fun u hu => msg_update.mpr (.inr ⟨?_, hu⟩))
      rintro rfl
      exact nomatch hmsg.symm.trans hu
    · obtain rfl := List.mem_singleton.mp hm
      exact .inr ⟨t, msg_update.mpr (.inl ⟨rfl, rfl⟩)⟩
  · exact fun hafter m hm hlt => List.mem_append_left _ (h.promised hafter m hm hlt)

theorem Books.write {msg : LogMessage α} (h : Books s l) (hpc : s.pc t = .fwrite msg) :
    Books { s.put t .loadTail with output := s.output ++ [msg] } l := by
  have hheld : (s.pc t).msg = some msg := by
    rw [hpc]
    rfl
  have hlater {u : θ} {m : LogMessage α} (hu : (Function.update s.pc t .loadTail u).msg = some m) :
      u ≠ t ∧ (s.pc u).msg = some m :=
    (msg_update.mp hu).resolve_left fun hself => nomatch hself.2
  constructor
  · exact h.items
  · intro p hp u hu
    obtain ⟨m, hm, hnumber⟩ := h.number p hp u hu
    exact ⟨m, hm, (update_congr Pc.number (by rw [hpc]; rfl) u).trans hnumber⟩
  · exact fun u v m hu hv => h.single u v m (hlater hu).2 (hlater hv).2
  · intro u m hu
    obtain ⟨hne, hu'⟩ := hlater hu
    obtain ⟨htaken, hout⟩ := h.held u m hu'
    refine ⟨htaken, fun hmem => ?_⟩
    rcases List.mem_append.mp hmem with hmem | hmem
    · exact hout hmem
    · obtain rfl := List.mem_singleton.mp hmem
      exact hne (h.single u t m hu' hheld)
  · intro m hm
    rcases List.mem_append.mp hm with hm | hm
    · exact h.output m hm
    · obtain rfl := List.mem_singleton.mp hm
      exact (h.held t m hheld).1
  · refine List.nodup_append.mpr ⟨h.nodup, List.nodup_singleton msg, ?_⟩
    rintro m hm m' hm' rfl
    obtain rfl := List.mem_singleton.mp hm'
    exact (h.held t m hheld).2 hm
  · intro m hm
    rcases h.taken m hm with hm | ⟨u, hu⟩
    · exact .inl (List.mem_append_left _ hm)
    · rcases eq_or_ne u t with rfl | hne
      · obtain rfl := Option.some.inj (hheld.symm.trans hu)
        exact .inl (List.mem_append_right _ List.mem_cons_self)
      · exact .inr ⟨u, msg_update.mpr (.inr ⟨hne, hu⟩)⟩
  · exact h.promised

omit [DecidableEq θ] in
/-- Where the first message of the queue has come after the destructor, those of before have been
taken. -/
theorem Books.taken_of_late (h : Books s l)
    (hlate : ∀ p ∈ l.head?, ∃ m, p.1.item = some m ∧ s.promised ≤ m.2) (m : α × Nat)
    (hm : m ∈ s.entered.zipIdx) (hlt : m.2 < s.promised) : some m ∈ s.taken := by
  have hitems := h.items
  cases l with
  | nil =>
      rw [List.map_nil, List.append_nil] at hitems
      rw [hitems]
      exact List.mem_map_of_mem hm
  | cons p l =>
      obtain ⟨first, hfirst, hle⟩ := hlate p rfl
      have hnumber : first.2 = s.taken.length := by
        have hindex := congrArg (·[s.taken.length]?) hitems
        simp only [List.map_cons, List.getElem?_append_right (Nat.le_refl _), Nat.sub_self,
          List.getElem?_cons_zero, List.getElem?_map, List.getElem?_zipIdx, hfirst] at hindex
        obtain ⟨m', hm', heq⟩ := Option.map_eq_some_iff.mp hindex.symm
        obtain ⟨x, -, rfl⟩ := Option.map_eq_some_iff.mp hm'
        rw [← Option.some.inj heq, Nat.zero_add]
      have hindex := congrArg (·[m.2]?) hitems
      simp only [List.getElem?_append_left (show m.2 < s.taken.length by omega),
        List.getElem?_map, List.getElem?_zipIdx, List.mem_zipIdx_iff_getElem?.mp hm] at hindex
      apply List.mem_of_getElem? (i := m.2)
      rw [hindex]
      simp

end Books

section Result

variable {θ α : Type*} [DecidableEq θ] {s s' : Writer θ α} {t : θ} {a : Action θ α}

def Kept (s : Writer θ α) : Prop := ∃ front l, Memory s.queue s.pc front l ∧ Books s l

def Pc.plain (p : Pc α) : Prop := p.quiet ∧ p.msg = none

def Pc.waits : Pc α → Bool
  | .outside | .post | .loadTail | .loadNext _ | .whileTest | .wait | .exited | .postExit
  | .join => true
  | _ => false

theorem plain_of_waits {p : Pc α} (h : p.waits = true) : p.plain := by
  cases p with
  | store | moveData | deleteData | storeTail | deleteTail | fwrite => contradiction
  | _ => exact ⟨⟨rfl, rfl, rfl, rfl⟩, rfl⟩

theorem kept_of_promised {p : Pc α} (hs : Kept s) (ht : (s.pc t).plain) (hp : p.plain)
    (hqueue : s'.queue = s.queue) (hpc : s'.pc = Function.update s.pc t p)
    (hsame : s'.taken = s.taken ∧ s'.entered = s.entered ∧ s'.output = s.output)
    (hpromised : s'.destroyed = true →
      ∀ m ∈ s.entered.zipIdx, m.2 < s'.promised → some m ∈ s.taken) : Kept s' := by
  obtain ⟨front, l, hmemory, hbooks⟩ := hs
  refine ⟨front, l, ?_, hbooks.congr ?_ ?_ hsame.1 hsame.2.1 hsame.2.2 hpromised⟩
  · rw [hqueue, hpc]
    exact hmemory.put_quiet ht.1 hp.1
  · rw [hpc]
    exact update_congr Pc.msg (hp.2.trans ht.2.symm)
  · rw [hpc]
    exact update_congr Pc.number (hp.1.2.2.2.trans ht.1.2.2.2.symm)

omit [DecidableEq θ] in
theorem promised_of_kept (hs : Kept s) (hdestroyed : s.destroyed = true) (m : α × Nat)
    (hm : m ∈ s.entered.zipIdx) (hlt : m.2 < s.promised) : some m ∈ s.taken := by
  obtain ⟨front, l, -, hbooks⟩ := hs
  exact hbooks.promised hdestroyed m hm hlt

theorem kept_of_plain {p : Pc α} (hs : Kept s) (ht : (s.pc t).plain) (hp : p.plain)
    (hqueue : s'.queue = s.queue) (hpc : s'.pc = Function.update s.pc t p)
    (hsame : s'.taken = s.taken ∧ s'.entered = s.entered ∧ s'.output = s.output)
    (hdestroyed : s'.destroyed = s.destroyed) (hpromised : s'.promised = s.promised) : Kept s' := by
  refine kept_of_promised hs ht hp hqueue hpc hsame ?_
  rw [hdestroyed, hpromised]
  exact promised_of_kept hs

omit [DecidableEq θ] in
theorem promised_of_alone (hs : Kept s) {tail : Addr} (halone : LoadsAlone s t tail)
    (hdestructor : s.destructor = some t) {n : BufferNode (LogMessage α)}
    (hn : s.queue.nodes tail = some n) (hnext : n.next = none) (m : α × Nat)
    (hm : m ∈ s.entered.zipIdx) (hlt : m.2 < s.promised) : some m ∈ s.taken := by
  obtain ⟨front, l, hmemory, hbooks⟩ := hs
  obtain ⟨⟨htail, htakes⟩, hlate⟩ := halone
  obtain rfl : tail = front :=
    htail.symm.trans (hmemory.tail fun u => moved_of_not_takes (htakes u))
  apply hbooks.taken_of_late _ m hm hlt
  intro p hp
  obtain ⟨rest, rfl⟩ := List.head?_eq_some_iff.mp hp
  cases hstoring : p.1.storing with
  | none =>
      obtain ⟨d, hd⟩ := (MpscQueue.linked_of_none hstoring).mp hmemory.lists.chain.1
      obtain rfl := Option.some.inj (hn.symm.trans hd)
      exact nomatch hnext
  | some u =>
      obtain ⟨first, hfirst, hnumber⟩ := hbooks.number p List.mem_cons_self u hstoring
      refine ⟨first, hfirst, ?_⟩
      have hall := hlate hdestructor (by simp [hn, hnext]) u
      simpa [hnumber] using hall

theorem kept_of_leaveFlush (hs : Kept s) {tail : Addr} (hpc : s.pc t = .loadNext tail)
    (halone : LoadsAlone s t tail) {n : BufferNode (LogMessage α)}
    (hn : s.queue.nodes tail = some n) (hnext : n.next = none) : Kept (leaveFlush s t) := by
  have hplain : (s.pc t).plain := by
    rw [hpc]
    exact plain_of_waits rfl
  rw [leaveFlush]
  split
  · exact kept_of_plain hs hplain (plain_of_waits rfl) rfl rfl ⟨rfl, rfl, rfl⟩ rfl rfl
  · refine kept_of_promised hs hplain (plain_of_waits rfl) rfl rfl ⟨rfl, rfl, rfl⟩ ?_
    intro hdestroyed
    rcases Bool.or_eq_true_iff.mp hdestroyed with hdestroyed | hdestructor
    · exact promised_of_kept hs hdestroyed
    · exact promised_of_alone hs halone (beq_iff_eq.mp hdestructor) hn hnext

theorem kept_of_found (hs : Kept s) {tail next : Addr} (hpc : s.pc t = .loadNext tail)
    (halone : LoadsAlone s t tail) {msg : Option (LogMessage α)}
    (hn : s.queue.nodes tail = some ⟨msg, some next⟩) : Kept (s.put t (.moveData tail next)) := by
  obtain ⟨front, l, hmemory, hbooks⟩ := hs
  obtain ⟨⟨rfl, htakes⟩, -⟩ := halone
  refine ⟨front, l, hmemory.take ?_ htakes hn, hbooks.put ?_ ?_⟩
  · rw [hpc]
    exact ⟨rfl, rfl, rfl, rfl⟩
  · rw [hpc]
    rfl
  · rw [hpc]
    rfl

theorem advance_kept (hs : Kept s) (hexclusive : Exclusive s (.advance t))
    (h : advance s t = some s') : Kept s' := by
  have hplain {p : Pc α} (hpc : s.pc t = p) (hp : p.waits = true) : (s.pc t).plain :=
    hpc ▸ plain_of_waits hp
  cases hpc : s.pc t with
  | outside | exited => simp [advance, hpc] at h
  | store number =>
      obtain ⟨front, l, hmemory, hbooks⟩ := hs
      obtain ⟨queue, hstep, hmemory'⟩ := hmemory.store hpc
      simp only [advance, hpc, hstep, Option.map_some, Option.some.injEq] at h
      subst h
      exact ⟨front, _, hmemory', hbooks.store hpc queue⟩
  | post | loadTail | postExit =>
      simp only [advance, hpc, Option.some.injEq] at h
      subst h
      exact kept_of_plain hs (hplain hpc rfl) (plain_of_waits rfl) rfl rfl ⟨rfl, rfl, rfl⟩
        rfl rfl
  | whileTest =>
      simp only [advance, hpc, Option.some.injEq] at h
      subst h
      refine kept_of_plain hs (hplain hpc rfl) ?_ rfl rfl ⟨rfl, rfl, rfl⟩
        rfl rfl
      split
      · exact plain_of_waits rfl
      · exact plain_of_waits rfl
  | wait =>
      simp only [advance, hpc, Option.ite_none_left_eq_some, Option.some.injEq] at h
      obtain ⟨-, rfl⟩ := h
      exact kept_of_plain hs (hplain hpc rfl) (plain_of_waits rfl) rfl rfl ⟨rfl, rfl, rfl⟩
        rfl rfl
  | join =>
      simp only [advance, hpc, Option.ite_none_right_eq_some, Option.some.injEq] at h
      obtain ⟨-, rfl⟩ := h
      exact kept_of_plain hs (hplain hpc rfl) (plain_of_waits rfl) rfl rfl ⟨rfl, rfl, rfl⟩
        rfl rfl
  | loadNext tail =>
      have halone := hexclusive tail (by rw [hpc]; rfl)
      simp only [advance, hpc, Option.map_eq_some_iff] at h
      obtain ⟨⟨msg, next⟩, hn, rfl⟩ := h
      cases next with
      | none => exact kept_of_leaveFlush hs hpc halone hn rfl
      | some next => exact kept_of_found hs hpc halone hn
  | moveData tail next =>
      obtain ⟨front, l, hmemory, hbooks⟩ := hs
      obtain ⟨e, rest, nextNext, rfl, hnext, hmemory'⟩ := hmemory.move hpc
      simp only [advance, hpc, hnext, Option.some.injEq] at h
      subst h
      exact ⟨next, rest, hmemory' e.item,
        hbooks.take (by rw [hpc]; rfl) (by rw [hpc]; rfl) _⟩
  | deleteData tail next msg =>
      obtain ⟨front, l, hmemory, hbooks⟩ := hs
      obtain ⟨data, nextNext, hnext, hmemory'⟩ := hmemory.deleteData hpc
      simp only [advance, hpc, hnext, Option.some.injEq] at h
      subst h
      exact ⟨front, l, hmemory', hbooks.congr (update_congr Pc.msg (by rw [hpc]; rfl))
        (update_congr Pc.number (by rw [hpc]; rfl)) rfl rfl rfl hbooks.promised⟩
  | storeTail tail next msg =>
      obtain ⟨front, l, hmemory, hbooks⟩ := hs
      simp only [advance, hpc, Option.some.injEq] at h
      subst h
      exact ⟨front, l, hmemory.storeTail hpc, hbooks.congr (update_congr Pc.msg (by rw [hpc]; rfl))
        (update_congr Pc.number (by rw [hpc]; rfl)) rfl rfl rfl hbooks.promised⟩
  | deleteTail tail msg =>
      obtain ⟨front, l, hmemory, hbooks⟩ := hs
      simp only [advance, hpc, Option.ite_none_right_eq_some, Option.some.injEq] at h
      obtain ⟨-, rfl⟩ := h
      exact ⟨front, l, (hmemory.deleteTail hpc).2,
        hbooks.congr (update_congr Pc.msg (by rw [hpc]; rfl))
          (update_congr Pc.number (by rw [hpc]; rfl)) rfl rfl rfl hbooks.promised⟩
  | fwrite msg =>
      obtain ⟨front, l, hmemory, hbooks⟩ := hs
      simp only [advance, hpc, Option.some.injEq] at h
      subst h
      refine ⟨front, l, hmemory.put_quiet ?_ ⟨rfl, rfl, rfl, rfl⟩, hbooks.write hpc⟩
      rw [hpc]
      exact ⟨rfl, rfl, rfl, rfl⟩

theorem step_kept (hs : Kept s) (hexclusive : Exclusive s a) (h : step s a = some s') :
    Kept s' := by
  have hplain {t : θ} (hpc : s.pc t = .outside) : (s.pc t).plain :=
    hpc ▸ plain_of_waits rfl
  cases a with
  | write t msg node =>
      simp only [step, Option.ite_none_right_eq_some] at h
      obtain ⟨⟨houtside, hdestroyed, hnode⟩, h⟩ := h
      split at houtside
      · rename_i hpc
        obtain ⟨front, l, hmemory, hbooks⟩ := hs
        obtain rfl := Option.some.inj h
        have hfree : s.queue.nodes node = none := Option.isNone_iff_eq_none.mp hnode
        exact ⟨front, _, hmemory.exchange (hplain hpc).1 hfree _ _,
          hbooks.exchange (hplain hpc).2 (hplain hpc).1.2.2.2 hdestroyed msg node _⟩
      · contradiction
  | flushAll t =>
      simp only [step, Option.ite_none_right_eq_some, Option.some.injEq] at h
      obtain ⟨⟨houtside, -⟩, rfl⟩ := h
      split at houtside
      · rename_i hpc
        exact kept_of_plain hs (hplain hpc) (plain_of_waits rfl) rfl rfl ⟨rfl, rfl, rfl⟩
          rfl rfl
      · contradiction
  | destroy t =>
      simp only [step, Option.ite_none_right_eq_some, Option.some.injEq] at h
      obtain ⟨⟨houtside, hdestroyed, -⟩, rfl⟩ := h
      split at houtside
      · rename_i hpc
        refine kept_of_promised hs (hplain hpc) (plain_of_waits rfl) rfl rfl
          ⟨rfl, rfl, rfl⟩ ?_
        exact fun hafter => nomatch hdestroyed.symm.trans hafter
      · contradiction
  | advance t =>
      simp only [step, Option.ite_none_left_eq_some] at h
      exact advance_kept hs hexclusive h.2

omit [DecidableEq θ] in
theorem writtenOnce_of_kept (hs : Kept s) : WrittenOnce s := by
  obtain ⟨front, l, -, hbooks⟩ := hs
  refine ⟨hbooks.nodup, fun msg hmsg => ?_, fun hdestroyed m hm hlt => ?_⟩
  · have hmem : msg ∈ s.entered.zipIdx.map some := by
      rw [← hbooks.items]
      exact List.mem_append_left _ (hbooks.output msg hmsg)
    obtain ⟨m, hm, rfl⟩ := List.mem_map.mp hmem
    exact ⟨m, hm, rfl⟩
  · exact hbooks.taken _ (hbooks.promised hdestroyed m hm hlt)

theorem sound_of_exclusive (hs : Kept s) (hexclusive : Exclusive s a) : Sound s a := by
  obtain ⟨front, l, hmemory, hbooks⟩ := hs
  cases a with
  | write | flushAll | destroy => trivial
  | advance t =>
      simp only [Sound]
      cases hpc : s.pc t with
      | loadNext tail =>
          obtain ⟨htail, htakes⟩ := (hexclusive tail (by rw [hpc]; rfl)).1
          have hfront := hmemory.tail fun u => moved_of_not_takes (htakes u)
          obtain ⟨n, hn⟩ := hmemory.lists.chain.alive front List.mem_cons_self
          exact Option.isSome_of_eq_some ((htail.symm.trans hfront) ▸ hn)
      | moveData tail next =>
          obtain ⟨e, rest, nextNext, rfl, hnext, -⟩ := hmemory.move hpc
          have hitem : e.item ∈ s.entered.zipIdx.map some := by
            rw [← hbooks.items]
            exact List.mem_append_right _ List.mem_cons_self
          obtain ⟨m, -, hm⟩ := List.mem_map.mp hitem
          exact ⟨m, nextNext, hm ▸ hnext⟩
      | deleteData tail next msg =>
          obtain ⟨data, nextNext, hnext, -⟩ := hmemory.deleteData hpc
          exact ⟨data, nextNext, hnext⟩
      | deleteTail tail msg => exact (hmemory.deleteTail hpc).1
      | outside | store | post | loadTail | storeTail | fwrite | whileTest | wait | exited
      | postExit | join => trivial

theorem kept_init (thread : θ) (node : Addr) : Kept (Writer.init α thread node) := by
  have hmsg : ∀ t, ((Writer.init α thread node).pc t).msg = none := by
    intro t
    simp only [Writer.init]
    split
    · rfl
    · rfl
  refine ⟨node, [], memory_init thread node, ?_⟩
  constructor
  · rfl
  · exact nofun
  · exact fun t u msg ht => nomatch (hmsg t).symm.trans ht
  · exact fun t msg ht => nomatch (hmsg t).symm.trans ht
  · exact nofun
  · exact List.nodup_nil
  · exact nofun
  · exact nofun

/-- In every run whose steps all meet the condition, nothing is consumed twice and each message is
written once. -/
theorem writtenOnce_of_exclusive {thread : θ} {node : Addr} {ts : List (Action θ α)}
    (hexclusive : AllSteps step Exclusive (Writer.init α thread node) ts)
    (hrun : runSteps step (Writer.init α thread node) ts = some s) :
    AllSteps step Sound (Writer.init α thread node) ts ∧ WrittenOnce s := by
  have hinit : Kept (Writer.init α thread node) := kept_init thread node
  have hstep : ∀ (s : Writer θ α) a s', Kept s → Exclusive s a → step s a = some s' → Kept s' :=
    fun _ _ _ => step_kept
  constructor
  · exact hexclusive.imp Kept hstep (fun _ _ => sound_of_exclusive) hinit
  · exact writtenOnce_of_kept (hexclusive.invariant Kept hstep hinit hrun)

def sample : List (Action (Fin 3) Nat) :=
  [.write 1 5 1, .advance 1, .advance 1, .advance 0, .advance 0, .advance 0, .advance 0, .advance 0,
    .advance 0, .advance 0, .flushAll 1, .advance 1, .advance 1, .advance 0, .advance 0, .destroy 2,
    .advance 2, .advance 0, .advance 0, .advance 0, .advance 2, .advance 2, .advance 2]

theorem writtenOnce_sample :
    AllSteps step Sound (Writer.init Nat 0 0) sample ∧
      WrittenOnce ((runSteps step (Writer.init Nat 0 0) sample).get (by decide)) :=
  writtenOnce_of_exclusive (by decide) (Option.some_get _).symm

/-- Thread 0 and a thread that logs an error both find the same node, and both take its message. -/
theorem not_sound_twoDrains :
    ¬ ∀ ts, AllSteps step Sound (Writer.init Nat (0 : Fin 3) 0) ts := by
  intro h
  let ts : List (Action (Fin 3) Nat) :=
    [.write 1 5 1, .advance 1, .advance 1, .flushAll 1, .advance 1, .advance 0, .advance 0,
      .advance 0, .advance 1, .advance 0, .advance 1]
  obtain ⟨⟨m, nextNext, hm⟩, -⟩ := AllSteps.drop (h (ts ++ [.advance 0])) rfl
  exact nomatch congrArg (Option.map BufferNode.dataPtr) hm

end Result

end Cooper.AsyncLogWriter

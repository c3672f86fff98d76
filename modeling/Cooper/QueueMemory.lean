import Cooper.LockFreeQueue

namespace Cooper.QueueMemory

open Cooper.DataRefinement
open Cooper.LockFreeQueue
open Cooper.LockFreeQueue.MpscQueue
open Cooper.StepRun

section Destructor

variable {ι α : Type*} [DecidableEq ι]

/-- `while (this->dequeue(output))`, with the items that come out. -/
def drain : Nat → MpscQueue ι α → Option (MpscQueue ι α × List α)
  | 0, _ => none
  | fuel + 1, s =>
      match s.step .dequeue with
      | some (s', .dequeue (some output)) =>
          (drain fuel s').map fun (s'', items) => (s'', output :: items)
      | some (s', .dequeue none) => some (s', [])
      | _ => none

/-- `~MpscQueue`. To delete a node that is not allocated has no result. -/
def destroy (fuel : Nat) (s : MpscQueue ι α) : Option (MpscQueue ι α × List α) :=
  (drain fuel s).bind fun (s', items) =>
    (s'.nodes s'.head).map fun _ =>
      ({ s' with nodes := Function.update s'.nodes s'.head none }, items)

end Destructor

section Nodes

variable {ι α : Type*} {s s' : MpscQueue ι α} {l : List (Entry ι α × Addr)}

/-- No other nodes are allocated, and the one in front of the list has no item. -/
structure Tight (s : MpscQueue ι α) (l : List (Entry ι α × Addr)) : Prop where
  lists : s.Lists l
  only : ∀ a n, s.nodes a = some n → a ∈ s.tail :: l.map Prod.snd
  tail : ∀ n, s.nodes s.tail = some n → n.dataPtr = none

def HoldsOnly (s : MpscQueue ι α) (q : List (Entry ι α)) : Prop :=
  ∃ l, l.map Prod.fst = q ∧ Tight s l

theorem init_holdsOnly (node : Addr) : HoldsOnly (MpscQueue.init ι α node) [] := by
  obtain ⟨l, hl, hlists⟩ := represents_iff.mp (init_represents (ι := ι) (α := α) node)
  obtain rfl := List.map_eq_nil_iff.mp hl
  refine ⟨[], rfl, hlists, ?_, ?_⟩
  · intro a n hn
    rcases eq_or_ne a node with rfl | hne
    · exact List.mem_cons_self
    · simp [MpscQueue.init, hne] at hn
  · intro n hn
    have heq : some ⟨none, none⟩ = some n := by simpa [MpscQueue.init] using hn
    rw [← Option.some.inj heq]

variable [DecidableEq ι]

theorem Tight.exchange (h : Tight s l) {producer : ι} {input : α} {node : Addr}
    (henabled : s.Enabled (.exchange producer input node)) :
    Tight { s with
      nodes := Function.update s.nodes node (some ⟨some input, none⟩)
      head := node
      storing := Function.update s.storing producer (some (s.head, node)) }
      (l ++ [(⟨input, some producer⟩, node)]) := by
  have htail : s.tail ≠ node := by
    rintro rfl
    obtain ⟨n, hn⟩ := h.lists.chain.alive s.tail List.mem_cons_self
    rw [henabled.2] at hn
    cases hn
  refine ⟨h.lists.exchange henabled, ?_, ?_⟩
  · intro a n hn
    rcases eq_or_ne a node with rfl | hne
    · simp
    · have hmem := h.only a n ((Function.update_of_ne hne _ _).symm.trans hn)
      simp only [List.map_append, List.mem_cons, List.mem_append] at hmem ⊢
      exact hmem.imp_right .inl
  · exact fun n hn => h.tail n ((Function.update_of_ne htail _ _).symm.trans hn)

theorem Tight.store (h : Tight s l) {producer : ι} {prevhead node : Addr}
    (hw : s.storing producer = some (prevhead, node)) :
    ∃ n, s.nodes prevhead = some n ∧
      Tight { s with
        nodes := Function.update s.nodes prevhead (some { n with next := some node })
        storing := Function.update s.storing producer none }
        (l.map fun p => (p.1.store producer, p.2)) := by
  obtain ⟨hmem, n, hn, hlists⟩ := h.lists.store hw
  refine ⟨n, hn, hlists, ?_, ?_⟩
  · intro a n' hn'
    have hsnd : (l.map fun p => (p.1.store producer, p.2)).map Prod.snd = l.map Prod.snd := by
      rw [List.map_map]
      rfl
    rw [hsnd]
    rcases eq_or_ne a prevhead with rfl | hne
    · exact hmem
    · exact h.only a n' ((Function.update_of_ne hne _ _).symm.trans hn')
  · intro n' hn'
    rcases eq_or_ne s.tail prevhead with heq | hne
    · replace hn' : Function.update s.nodes prevhead (some { n with next := some node }) s.tail =
        some n' := hn'
      rw [heq, Function.update_self] at hn'
      obtain rfl := Option.some.inj hn'
      exact h.tail n (heq ▸ hn)
    · exact h.tail n' ((Function.update_of_ne hne _ _).symm.trans hn')

theorem Tight.dequeue {item : α} {next : Addr} (h : Tight s ((⟨item, none⟩, next) :: l)) :
    ∃ s', s.step .dequeue = some (s', .dequeue (some item)) ∧ s'.head = s.head ∧
      s'.storing = s.storing ∧ Tight s' l := by
  obtain ⟨dataPtr, htail⟩ := (linked_of_none rfl).mp h.lists.chain.1
  obtain ⟨hold, ⟨nextNext, hitem⟩, hrest⟩ := h.lists.advance rfl
  have hstep : s.step .dequeue = some ({ s with
      nodes := Function.update (Function.update s.nodes next (some ⟨none, nextNext⟩)) s.tail none
      tail := next }, .dequeue (some item)) := by
    simp only [step, htail, hitem]
  have hne : next ≠ s.tail := by
    rintro rfl
    exact hold List.mem_cons_self
  refine ⟨_, hstep, rfl, rfl, (hrest.update_tail hitem none).update hold none, ?_, ?_⟩
  · intro a n hn
    have ha : a ≠ s.tail := by
      rintro rfl
      simp at hn
    rcases eq_or_ne a next with rfl | hnext
    · exact List.mem_cons_self
    · have hmem := h.only a n
        ((Function.update_of_ne hnext _ _).symm.trans ((Function.update_of_ne ha _ _).symm.trans hn))
      exact (List.mem_cons.mp hmem).resolve_left ha
  · intro n hn
    dsimp only at hn
    rw [Function.update_of_ne hne, Function.update_self] at hn
    obtain rfl := Option.some.inj hn
    rfl

theorem Tight.dequeue_none (h : Tight s l)
    (hnone : l = [] ∨ ∃ e next rest producer, l = (e, next) :: rest ∧ e.storing = some producer) :
    s.step .dequeue = some (s, .dequeue none) := by
  rcases hnone with rfl | ⟨e, next, rest, producer, rfl, hproducer⟩
  · obtain ⟨dataPtr, htail⟩ := h.lists.chain
    simp only [step, htail]
  · obtain ⟨⟨dataPtr, htail⟩, -⟩ := (linked_of_some hproducer).mp h.lists.chain.1
    simp only [step, htail]

theorem step_holdsOnly : Refines (step (ι := ι) (α := α)) specStep Enabled HoldsOnly := by
  rintro s _ a ⟨l, rfl, h⟩ henabled
  cases a with
  | exchange producer input node =>
      exact ⟨_, rfl, _, List.map_append, h.exchange henabled⟩
  | store producer =>
      obtain ⟨⟨prevhead, node⟩, hw⟩ := Option.ne_none_iff_exists'.mp henabled
      obtain ⟨n, hn, hl⟩ := h.store hw
      refine ⟨_, step_store hw hn, _, ?_, hl⟩
      change _ = (l.map Prod.fst).map (·.store producer)
      rw [List.map_map, List.map_map]
      rfl
  | dequeue =>
      rcases l with _ | ⟨⟨⟨item, _ | producer⟩, next⟩, l⟩
      · exact ⟨s, h.dequeue_none (.inl rfl), [], rfl, h⟩
      · obtain ⟨s', hstep, -, -, hl⟩ := h.dequeue
        exact ⟨s', hstep, l, rfl, hl⟩
      · exact ⟨s, h.dequeue_none (.inr ⟨_, _, _, _, rfl, rfl⟩), _, rfl, h⟩
  | empty =>
      obtain ⟨s', hstep, -⟩ := empty_spec (represents_iff.mpr ⟨l, rfl, h.lists⟩)
      obtain ⟨answer, hanswer⟩ := specStep_empty (l.map Prod.fst)
      obtain ⟨n, -, heq⟩ := Option.map_eq_some_iff.mp hstep
      obtain rfl := (Prod.mk.inj heq).1
      refine ⟨s, hstep, l, ?_, h⟩
      rw [hanswer]

/-- The loop of the destructor stops at the end, or at the first entry that a producer has still to
store. -/
theorem drain_spec (h : Tight s l) :
    ∃ s' rest items, Tight s' rest ∧ s'.head = s.head ∧ s'.storing = s.storing ∧
      l.map (·.1.item) = items ++ rest.map (·.1.item) ∧
      (rest = [] ∨ ∃ e next rest' producer, rest = (e, next) :: rest' ∧
        e.storing = some producer) ∧
      ∀ fuel, l.length < fuel → drain fuel s = some (s', items) := by
  induction l generalizing s with
  | nil =>
      refine ⟨s, [], [], h, rfl, rfl, rfl, .inl rfl, fun fuel hfuel => ?_⟩
      obtain ⟨fuel, rfl⟩ := Nat.exists_eq_succ_of_ne_zero (Nat.ne_zero_of_lt hfuel)
      simp only [drain, h.dequeue_none (.inl rfl)]
  | cons p l ih =>
      obtain ⟨⟨item, _ | producer⟩, next⟩ := p
      · obtain ⟨s₁, hstep, hhead, hstoring, h₁⟩ := h.dequeue
        obtain ⟨s', rest, items, hs', hhead', hstoring', hitems, hrest, hdrain⟩ := ih h₁
        refine ⟨s', rest, item :: items, hs', hhead'.trans hhead, hstoring'.trans hstoring, ?_,
          hrest, fun fuel hfuel => ?_⟩
        · rw [List.map_cons, hitems]
          rfl
        · obtain ⟨fuel, rfl⟩ := Nat.exists_eq_succ_of_ne_zero (Nat.ne_zero_of_lt hfuel)
          simp only [drain, hstep, hdrain fuel (Nat.lt_of_succ_lt_succ hfuel), Option.map_some]
      · have hnone := h.dequeue_none (.inr ⟨_, _, _, _, rfl, rfl⟩)
        refine ⟨s, _, [], h, rfl, rfl, rfl, .inr ⟨_, _, _, _, rfl, rfl⟩, fun fuel hfuel => ?_⟩
        obtain ⟨fuel, rfl⟩ := Nat.exists_eq_succ_of_ne_zero (Nat.ne_zero_of_lt hfuel)
        simp only [drain, hnone]

omit [DecidableEq ι] in
theorem last_mem (a : Addr) (l : List (Entry ι α × Addr)) : last a l ∈ a :: l.map Prod.snd := by
  induction l generalizing a with
  | nil => exact List.mem_cons_self
  | cons p l ih => exact List.mem_cons_of_mem _ (ih p.2)

theorem destroy_spec (h : Tight s l) :
    ∃ s' items, (∀ fuel, l.length < fuel → destroy fuel s = some (s', items)) ∧
      items <+: l.map (·.1.item) ∧
      ((∀ producer, s.storing producer = none) →
        items = l.map (·.1.item) ∧ ∀ a, s'.nodes a = none) ∧
      ((∀ a, s'.nodes a = none) → ∀ producer, s.storing producer = none) := by
  obtain ⟨s₁, rest, items, h₁, hhead, hstoring, hitems, hrest, hdrain⟩ := drain_spec h
  have hmem : s₁.head ∈ s₁.tail :: rest.map Prod.snd := h₁.lists.last ▸ last_mem _ _
  obtain ⟨n, hn⟩ := h₁.lists.chain.alive s₁.head hmem
  refine ⟨{ s₁ with nodes := Function.update s₁.nodes s₁.head none }, items, fun fuel hfuel => ?_,
    ⟨_, hitems.symm⟩, fun hidle => ?_, fun hfreed producer => ?_⟩
  · simp only [destroy, hdrain fuel hfuel, Option.bind_some, hn, Option.map_some]
  · obtain rfl : rest = [] := by
      refine hrest.resolve_right ?_
      rintro ⟨e, next, rest', producer, rfl, hproducer⟩
      obtain ⟨-, hset⟩ := (linked_of_some hproducer).mp h₁.lists.chain.1
      rw [hstoring, hidle] at hset
      cases hset
    refine ⟨by simpa using hitems.symm, fun a => ?_⟩
    rcases eq_or_ne a s₁.head with rfl | hne
    · exact Function.update_self ..
    · refine (Function.update_of_ne hne _ _).trans ?_
      cases hnode : s₁.nodes a with
      | none => rfl
      | some n =>
          have ha := h₁.only a n hnode
          have hlast : s₁.tail = s₁.head := h₁.lists.last
          rw [List.map_nil, List.mem_singleton, hlast] at ha
          exact absurd ha hne
  · rw [← hstoring]
    cases hw : s₁.storing producer with
    | none => rfl
    | some w =>
        exfalso
        obtain ⟨p, hp, -⟩ := h₁.lists.storing producer w hw
        obtain ⟨q, rest', rfl⟩ := List.exists_cons_of_ne_nil (List.ne_nil_of_mem hp)
        have hne : s₁.tail ≠ s₁.head := by
          rw [← h₁.lists.last]
          rintro heq
          have hmem := last_mem q.2 rest'
          rw [show last q.2 rest' = s₁.tail from heq.symm] at hmem
          exact (List.nodup_cons.mp h₁.lists.nodup).1 hmem
        obtain ⟨n, hn⟩ := h₁.lists.chain.alive s₁.tail List.mem_cons_self
        have htail := (Function.update_of_ne hne _ _).symm.trans (hfreed s₁.tail)
        rw [hn] at htail
        cases htail

omit [DecidableEq ι] in
theorem Tight.allocated_iff (h : Tight s l) (a : Addr) :
    s.nodes a ≠ none ↔ a ∈ s.tail :: l.map Prod.snd := by
  constructor
  · intro hne
    obtain ⟨n, hn⟩ := Option.ne_none_iff_exists'.mp hne
    exact h.only a n hn
  · intro hmem
    obtain ⟨n, hn⟩ := h.lists.chain.alive a hmem
    rw [hn]
    nofun

end Nodes

section Runs

variable {ι α : Type*} [DecidableEq ι]

/-- In every run there is one node more than there are items that have entered and have not been
taken. The destructor ends, and no item that it deletes had been taken; it deletes all of the nodes
if and only if no producer is between its exchange and its store, and then all of the items. -/
theorem run_nodes (node : Addr) {ts : List (LockFreeQueue.Action ι α)}
    (hall : AllSteps (next MpscQueue.step) Enabled (MpscQueue.init ι α node) ts) :
    ∃ s answers, run MpscQueue.step (MpscQueue.init ι α node) ts = some (s, answers) ∧
      (∃ addrs : List Addr, addrs.Nodup ∧ (∀ a, s.nodes a ≠ none ↔ a ∈ addrs) ∧
        addrs.length + (taken answers).length = (entered ts).length + 1) ∧
      ∃ s' items, (∃ n, ∀ fuel, n < fuel → destroy fuel s = some (s', items)) ∧
        taken answers ++ items <+: entered ts ∧
        ((∀ a, s'.nodes a = none) ↔ ∀ producer, s.storing producer = none) ∧
        ((∀ producer, s.storing producer = none) → taken answers ++ items = entered ts) := by
  obtain ⟨s, hrun, l, hl, h⟩ := step_holdsOnly.run (init_holdsOnly node) hall
  have horder := specRun_order [] ts
  rw [List.map_nil, List.nil_append, ← hl, List.map_map] at horder
  refine ⟨s, _, hrun, ⟨_, h.lists.nodup, h.allocated_iff, ?_⟩, ?_⟩
  · rw [horder, List.length_append, List.length_cons, List.length_map, List.length_map]
    omega
  · obtain ⟨s', items, hdestroy, hprefix, hidle, hfreed⟩ := destroy_spec h
    refine ⟨s', items, ⟨_, hdestroy⟩, ?_, ⟨hfreed, fun h => (hidle h).2⟩, fun h => ?_⟩
    · rw [horder]
      exact (List.prefix_append_right_inj _).mpr hprefix
    · rw [horder, (hidle h).1]
      rfl

theorem run_nodes_sample :
    ∃ s answers, run MpscQueue.step (MpscQueue.init Bool Nat 0)
        [.exchange true 5 1, .exchange false 6 2, .store true, .dequeue, .store false] =
          some (s, answers) ∧
      ∃ addrs : List Addr, addrs.Nodup ∧ (∀ a, s.nodes a ≠ none ↔ a ∈ addrs) ∧
        addrs.length + (taken answers).length = 3 := by
  obtain ⟨s, answers, hrun, hnodes, -⟩ := @run_nodes Bool Nat _ 0
    [.exchange true 5 1, .exchange false 6 2, .store true, .dequeue, .store false] (by decide)
  exact ⟨s, answers, hrun, hnodes⟩

end Runs

end Cooper.QueueMemory

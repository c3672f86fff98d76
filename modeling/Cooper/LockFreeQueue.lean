import Cooper.DataRefinement
import Mathlib.Data.List.Nodup
import Mathlib.Logic.Function.Basic

/-!
`MpscQueue` over a memory of nodes, and the queue that it is for. `enqueue` takes two steps: the
exchange of `head_`, and the store to the node that was there before.
-/

namespace Cooper.LockFreeQueue

open Cooper.StepRun Cooper.DataRefinement

abbrev Addr := Nat

/-- `dataPtr` owns the item; there is none before it is set and after it is deleted. -/
structure BufferNode (α : Type*) where
  dataPtr : Option α
  next : Option Addr

/-- `nodes` are the nodes that are allocated. `storing` are `prevhead` and `node` of the producers
that have exchanged `head_` and still have to store `next_`. -/
structure MpscQueue (ι α : Type*) where
  nodes : Addr → Option (BufferNode α)
  head : Addr
  tail : Addr
  storing : ι → Option (Addr × Addr)

inductive Action (ι α : Type*) where
  /-- `node` is the address that `new` returns -/
  | exchange (producer : ι) (input : α) (node : Addr)
  | store (producer : ι)
  | dequeue
  | empty

inductive Answer (α : Type*) where
  | done
  | dequeue (output : Option α)
  | empty (answer : Bool)
deriving DecidableEq, Repr

variable {ι α : Type*}

namespace MpscQueue

def init (ι α : Type*) (node : Addr) : MpscQueue ι α where
  nodes := Function.update (fun _ => none) node (some ⟨none, none⟩)
  head := node
  tail := node
  storing := fun _ => none

/-- An access to a node that is not allocated, or to an item that is not there, has no result. -/
def step [DecidableEq ι] (s : MpscQueue ι α) : Action ι α → Option (MpscQueue ι α × Answer α)
  | .exchange producer input node =>
      some ({ s with
        nodes := Function.update s.nodes node (some ⟨some input, none⟩)
        head := node
        storing := Function.update s.storing producer (some (s.head, node)) }, .done)
  | .store producer =>
      match s.storing producer with
      | none => none
      | some (prevhead, node) =>
          (s.nodes prevhead).map fun n => ({ s with
            nodes := Function.update s.nodes prevhead (some { n with next := some node })
            storing := Function.update s.storing producer none }, .done)
  | .dequeue =>
      match s.nodes s.tail with
      | none => none
      | some ⟨_, none⟩ => some (s, .dequeue none)
      | some ⟨_, some next⟩ =>
          match s.nodes next with
          | none => none
          | some ⟨none, _⟩ => none
          | some ⟨some output, nextNext⟩ =>
              let nodes := Function.update s.nodes next (some ⟨none, nextNext⟩)
              some ({ s with
                nodes := Function.update nodes s.tail none
                tail := next }, .dequeue (some output))
  | .empty => (s.nodes s.tail).map fun n => (s, .empty n.next.isNone)

/-- A producer is in one call at a time, and `new` returns no address that is in use. -/
def Enabled (s : MpscQueue ι α) : Action ι α → Prop
  | .exchange producer _ node => s.storing producer = none ∧ s.nodes node = none
  | .store producer => s.storing producer ≠ none
  | .dequeue => True
  | .empty => True

instance (s : MpscQueue ι α) (a : Action ι α) : Decidable (s.Enabled a) :=
  match a with
  | .exchange _ _ _ => inferInstanceAs (Decidable (_ = none ∧ _ = none))
  | .store _ => inferInstanceAs (Decidable (_ ≠ none))
  | .dequeue | .empty => isTrue trivial

end MpscQueue

/-- An item on its way; `storing` is the producer whose store the item still waits for. -/
structure Entry (ι α : Type*) where
  item : α
  storing : Option ι
deriving DecidableEq, Repr

namespace Entry

def store [DecidableEq ι] (producer : ι) (e : Entry ι α) : Entry ι α :=
  if e.storing = some producer then { e with storing := none } else e

end Entry

/-- The queue that `MpscQueue` is: a list of items, in the order of the exchanges. -/
def specStep [DecidableEq ι] (q : List (Entry ι α)) :
    Action ι α → List (Entry ι α) × Answer α
  | .exchange producer input _ => (q ++ [⟨input, some producer⟩], .done)
  | .store producer => (q.map (·.store producer), .done)
  | .dequeue =>
      match q with
      | ⟨item, none⟩ :: rest => (rest, .dequeue (some item))
      | q => (q, .dequeue none)
  | .empty =>
      match q with
      | ⟨_, none⟩ :: _ => (q, .empty false)
      | q => (q, .empty true)

def entered (ts : List (Action ι α)) : List α :=
  ts.filterMap fun
    | .exchange _ input _ => some input
    | _ => none

def taken (answers : List (Answer α)) : List α :=
  answers.filterMap fun
    | .dequeue output => output
    | _ => none

namespace MpscQueue

/-- The link from `a` to the node `b` of an entry is set unless its producer still has to do that.
-/
def Linked (nodes : Addr → Option (BufferNode α)) (storing : ι → Option (Addr × Addr)) (a : Addr)
    (e : Entry ι α) (b : Addr) : Prop :=
  match e.storing with
  | none => ∃ dataPtr, nodes a = some ⟨dataPtr, some b⟩
  | some producer =>
      (∃ dataPtr, nodes a = some ⟨dataPtr, none⟩) ∧ storing producer = some (a, b)

def Chain (nodes : Addr → Option (BufferNode α)) (storing : ι → Option (Addr × Addr)) :
    Addr → List (Entry ι α × Addr) → Prop
  | a, [] => ∃ dataPtr, nodes a = some ⟨dataPtr, none⟩
  | a, (e, b) :: l =>
      Linked nodes storing a e b ∧ (∃ next, nodes b = some ⟨some e.item, next⟩) ∧
        Chain nodes storing b l

def last : Addr → List (Entry ι α × Addr) → Addr
  | a, [] => a
  | _, (_, b) :: l => last b l

section Chain

variable {nodes nodes' : Addr → Option (BufferNode α)} {storing storing' : ι → Option (Addr × Addr)}
  {a b : Addr} {e : Entry ι α} {l : List (Entry ι α × Addr)}

theorem linked_of_none (he : e.storing = none) :
    Linked nodes storing a e b ↔ ∃ dataPtr, nodes a = some ⟨dataPtr, some b⟩ := by
  rw [Linked, he]

theorem linked_of_some {producer : ι} (he : e.storing = some producer) :
    Linked nodes storing a e b ↔
      (∃ dataPtr, nodes a = some ⟨dataPtr, none⟩) ∧ storing producer = some (a, b) := by
  rw [Linked, he]

theorem Linked.alive (h : Linked nodes storing a e b) :
    ∃ dataPtr next, nodes a = some ⟨dataPtr, next⟩ := by
  cases he : e.storing with
  | none =>
      obtain ⟨dataPtr, ha⟩ := (linked_of_none he).mp h
      exact ⟨dataPtr, _, ha⟩
  | some producer =>
      obtain ⟨⟨dataPtr, ha⟩, -⟩ := (linked_of_some he).mp h
      exact ⟨dataPtr, _, ha⟩

theorem Linked.congr (h : Linked nodes storing a e b)
    (hnodes : ∀ dataPtr next, nodes a = some ⟨dataPtr, next⟩ →
      ∃ dataPtr', nodes' a = some ⟨dataPtr', next⟩)
    (hstoring : ∀ producer, e.storing = some producer → storing' producer = storing producer) :
    Linked nodes' storing' a e b := by
  cases he : e.storing with
  | none =>
      obtain ⟨dataPtr, ha⟩ := (linked_of_none he).mp h
      exact (linked_of_none he).mpr (hnodes dataPtr _ ha)
  | some producer =>
      obtain ⟨⟨dataPtr, ha⟩, hproducer⟩ := (linked_of_some he).mp h
      exact (linked_of_some he).mpr ⟨hnodes dataPtr _ ha, (hstoring producer he).trans hproducer⟩

theorem Chain.alive (h : Chain nodes storing a l) :
    ∀ b ∈ a :: l.map Prod.snd, ∃ n, nodes b = some n := by
  induction l generalizing a with
  | nil =>
      obtain ⟨dataPtr, ha⟩ := h
      intro b hb
      rw [List.mem_singleton.mp hb]
      exact ⟨_, ha⟩
  | cons p l ih =>
      obtain ⟨hlink, -, hrest⟩ := h
      intro c hc
      rcases List.mem_cons.mp hc with rfl | hc
      · obtain ⟨dataPtr, next, ha⟩ := hlink.alive
        exact ⟨_, ha⟩
      · exact ih hrest c hc

theorem Chain.storing_of_mem (h : Chain nodes storing a l) {p : Entry ι α × Addr} (hp : p ∈ l)
    {producer : ι} (hproducer : p.1.storing = some producer) :
    ∃ prevhead, storing producer = some (prevhead, p.2) ∧ prevhead ∈ a :: l.map Prod.snd := by
  induction l generalizing a with
  | nil => exact absurd hp List.not_mem_nil
  | cons q l ih =>
      obtain ⟨hlink, -, hrest⟩ := h
      rcases List.mem_cons.mp hp with rfl | hp
      · exact ⟨a, ((linked_of_some hproducer).mp hlink).2, List.mem_cons_self⟩
      · obtain ⟨prevhead, hstoring, hmem⟩ := ih hrest hp
        exact ⟨prevhead, hstoring, List.mem_cons_of_mem a hmem⟩

theorem Chain.congr (h : Chain nodes storing a l)
    (hfirst : ∀ dataPtr next, nodes a = some ⟨dataPtr, next⟩ →
      ∃ dataPtr', nodes' a = some ⟨dataPtr', next⟩)
    (hnodes : ∀ b ∈ l.map Prod.snd, nodes' b = nodes b)
    (hstoring : ∀ p ∈ l, ∀ producer, p.1.storing = some producer →
      storing' producer = storing producer) : Chain nodes' storing' a l := by
  induction l generalizing a with
  | nil =>
      obtain ⟨dataPtr, ha⟩ := h
      exact hfirst dataPtr none ha
  | cons p l ih =>
      obtain ⟨hlink, ⟨next, hitem⟩, hrest⟩ := h
      have hb : nodes' p.2 = nodes p.2 := hnodes p.2 List.mem_cons_self
      refine ⟨hlink.congr hfirst (hstoring p List.mem_cons_self), ⟨next, hb.trans hitem⟩, ?_⟩
      apply ih hrest
      · exact fun dataPtr next hnext => ⟨dataPtr, hb.trans hnext⟩
      · exact fun c hc => hnodes c (List.mem_cons_of_mem _ hc)
      · exact fun p hp => hstoring p (List.mem_cons_of_mem _ hp)

theorem Chain.concat (h : Chain nodes storing a l) {producer : ι} {item : α} {node : Addr}
    (hstoring : storing producer = some (last a l, node))
    (hnode : nodes node = some ⟨some item, none⟩) :
    Chain nodes storing a (l ++ [(⟨item, some producer⟩, node)]) := by
  induction l generalizing a with
  | nil => exact ⟨⟨h, hstoring⟩, ⟨none, hnode⟩, ⟨_, hnode⟩⟩
  | cons p l ih =>
      obtain ⟨hlink, hitem, hrest⟩ := h
      exact ⟨hlink, hitem, ih hrest hstoring⟩

theorem store_of_ne [DecidableEq ι] {producer : ι} (he : e.storing ≠ some producer) :
    e.store producer = e :=
  if_neg he

theorem store_of_eq [DecidableEq ι] {producer : ι} (he : e.storing = some producer) :
    e.store producer = { e with storing := none } :=
  if_pos he

theorem store_item [DecidableEq ι] (e : Entry ι α) (producer : ι) :
    (e.store producer).item = e.item := by
  rw [Entry.store]
  split <;> rfl

theorem Chain.prevhead_mem (h : Chain nodes storing a l) {producer : ι} {prevhead node : Addr}
    (hstoring : storing producer = some (prevhead, node)) {p : Entry ι α × Addr} (hp : p ∈ l)
    (hproducer : p.1.storing = some producer) : prevhead ∈ a :: l.map Prod.snd := by
  obtain ⟨c, hc, hmem⟩ := h.storing_of_mem hp hproducer
  obtain ⟨rfl, -⟩ := Prod.mk.inj (Option.some.inj (hstoring.symm.trans hc))
  exact hmem

theorem Chain.store_front [DecidableEq ι] {p : Entry ι α × Addr}
    (h : Chain nodes storing a (p :: l)) (hnodup : (a :: (p :: l).map Prod.snd).Nodup)
    {producer : ι} {n : BufferNode α} (hn : nodes a = some n)
    (he : p.1.storing = some producer) :
    Chain (Function.update nodes a (some { n with next := some p.2 }))
      (Function.update storing producer none) a
      ((p :: l).map fun p => (p.1.store producer, p.2)) := by
  obtain ⟨hlink, ⟨next, hitem⟩, hrest⟩ := h
  obtain ⟨⟨dataPtr, ha⟩, hstoring⟩ := (linked_of_some he).mp hlink
  obtain rfl := Option.some.inj (hn.symm.trans ha)
  rw [List.map_cons, List.nodup_cons] at hnodup
  have hlater : ∀ q ∈ l, q.1.storing ≠ some producer :=
    fun q hq heq => hnodup.1 (hrest.prevhead_mem hstoring hq heq)
  have hrestEq : l.map (fun p => (p.1.store producer, p.2)) = l := by
    conv_rhs => rw [← List.map_id l]
    apply List.map_congr_left
    intro q hq
    rw [store_of_ne (hlater q hq)]
    rfl
  have hnodes : ∀ c ∈ p.2 :: l.map Prod.snd,
      Function.update nodes a (some ⟨dataPtr, some p.2⟩) c = nodes c := by
    intro c hc
    apply Function.update_of_ne
    rintro rfl
    exact hnodup.1 hc
  rw [List.map_cons, hrestEq, store_of_eq he]
  refine ⟨(linked_of_none rfl).mpr ⟨dataPtr, Function.update_self _ _ _⟩,
    ⟨next, (hnodes p.2 List.mem_cons_self).trans hitem⟩, ?_⟩
  apply hrest.congr
  · exact fun d n hd => ⟨d, (hnodes p.2 List.mem_cons_self).trans hd⟩
  · exact fun c hc => hnodes c (List.mem_cons_of_mem _ hc)
  · intro q hq other hq'
    apply Function.update_of_ne
    rintro rfl
    exact hlater q hq hq'

theorem Chain.store [DecidableEq ι] (h : Chain nodes storing a l)
    (hnodup : (a :: l.map Prod.snd).Nodup) {producer : ι} {prevhead node : Addr} {n : BufferNode α}
    (hstoring : storing producer = some (prevhead, node)) (hn : nodes prevhead = some n)
    (hmem : ∃ p ∈ l, p.1.storing = some producer) :
    Chain (Function.update nodes prevhead (some { n with next := some node }))
      (Function.update storing producer none) a
      (l.map fun p => (p.1.store producer, p.2)) := by
  induction l generalizing a with
  | nil =>
      obtain ⟨p, hp, -⟩ := hmem
      exact absurd hp List.not_mem_nil
  | cons p l ih =>
      by_cases he : p.1.storing = some producer
      · obtain ⟨-, hproducer⟩ := (linked_of_some he).mp h.1
        obtain ⟨rfl, rfl⟩ := Prod.mk.inj (Option.some.inj (hstoring.symm.trans hproducer))
        exact h.store_front hnodup hn he
      · -- the link lies further back
        obtain ⟨hlink, ⟨next, hitem⟩, hrest⟩ := h
        rw [List.map_cons, List.nodup_cons] at hnodup
        obtain ⟨q, hq, hqproducer⟩ := hmem
        have hq' : q ∈ l := by
          rcases List.mem_cons.mp hq with rfl | hq
          · exact absurd hqproducer he
          · exact hq
        have hne : a ≠ prevhead := by
          rintro rfl
          exact hnodup.1 (hrest.prevhead_mem hstoring hq' hqproducer)
        rw [List.map_cons, store_of_ne he]
        refine ⟨?_, ?_, ih hrest hnodup.2 ⟨q, hq', hqproducer⟩⟩
        · apply hlink.congr
          · intro d next ha
            exact ⟨d, (Function.update_of_ne hne _ _).trans ha⟩
          · intro other hother
            apply Function.update_of_ne
            rintro rfl
            exact he hother
        · rcases eq_or_ne p.2 prevhead with heq | hne'
          · rw [heq] at hitem ⊢
            obtain rfl := Option.some.inj (hn.symm.trans hitem)
            exact ⟨_, Function.update_self _ _ _⟩
          · exact ⟨next, (Function.update_of_ne hne' _ _).trans hitem⟩

end Chain

/-- The memory holds the queue `q`. -/
def Represents (s : MpscQueue ι α) (q : List (Entry ι α)) : Prop :=
  ∃ l : List (Entry ι α × Addr), l.map Prod.fst = q ∧ Chain s.nodes s.storing s.tail l ∧
    (s.tail :: l.map Prod.snd).Nodup ∧ last s.tail l = s.head ∧
    ∀ producer w, s.storing producer = some w → ∃ p ∈ l, p.1.storing = some producer

theorem init_represents (node : Addr) : (init ι α node).Represents [] := by
  refine ⟨[], rfl, ⟨none, ?_⟩, List.nodup_singleton _, rfl, ?_⟩
  · simp [init]
  · intro producer w h
    cases h

theorem last_concat (a : Addr) (l : List (Entry ι α × Addr)) (p : Entry ι α × Addr) :
    last a (l ++ [p]) = p.2 := by
  induction l generalizing a with
  | nil => rfl
  | cons q l ih => exact ih q.2

theorem last_map (f : Entry ι α → Entry ι α) (a : Addr) (l : List (Entry ι α × Addr)) :
    last a (l.map fun p => (f p.1, p.2)) = last a l := by
  induction l generalizing a with
  | nil => rfl
  | cons q l ih => exact ih q.2

variable [DecidableEq ι]

/-- The nodes behind the tail are those of `l`, up to the head. -/
structure Lists (s : MpscQueue ι α) (l : List (Entry ι α × Addr)) : Prop where
  chain : Chain s.nodes s.storing s.tail l
  nodup : (s.tail :: l.map Prod.snd).Nodup
  last : last s.tail l = s.head
  storing : ∀ producer w, s.storing producer = some w → ∃ p ∈ l, p.1.storing = some producer

omit [DecidableEq ι] in
theorem represents_iff {s : MpscQueue ι α} {q : List (Entry ι α)} :
    s.Represents q ↔ ∃ l, l.map Prod.fst = q ∧ s.Lists l :=
  ⟨fun ⟨l, hq, hchain, hnodup, hlast, hstoring⟩ => ⟨l, hq, hchain, hnodup, hlast, hstoring⟩,
    fun ⟨l, hq, hl⟩ => ⟨l, hq, hl.chain, hl.nodup, hl.last, hl.storing⟩⟩

theorem Lists.exchange {s : MpscQueue ι α} {l : List (Entry ι α × Addr)} (h : s.Lists l)
    {producer : ι} {input : α} {node : Addr} (henabled : s.Enabled (.exchange producer input node)) :
    Lists { s with
      nodes := Function.update s.nodes node (some ⟨some input, none⟩)
      head := node
      storing := Function.update s.storing producer (some (s.head, node)) }
      (l ++ [(⟨input, some producer⟩, node)]) := by
  obtain ⟨hchain, hnodup, hlast, hstoring⟩ := h
  obtain ⟨hidle, hfree⟩ := henabled
  have hnew : node ∉ s.tail :: l.map Prod.snd := by
    intro hmem
    obtain ⟨n, hn⟩ := hchain.alive node hmem
    rw [hfree] at hn
    cases hn
  have hnodes : ∀ c ∈ s.tail :: l.map Prod.snd,
      Function.update s.nodes node (some ⟨some input, none⟩) c = s.nodes c := by
    intro c hc
    apply Function.update_of_ne
    rintro rfl
    exact hnew hc
  refine ⟨?_, ?_, last_concat _ _ _, ?_⟩
  · apply Chain.concat
    · apply hchain.congr
      · exact fun d n hd => ⟨d, (hnodes _ List.mem_cons_self).trans hd⟩
      · exact fun c hc => hnodes c (List.mem_cons_of_mem _ hc)
      · intro p hp other hother
        apply Function.update_of_ne
        rintro rfl
        obtain ⟨prevhead, hprevhead, -⟩ := hchain.storing_of_mem hp hother
        rw [hidle] at hprevhead
        cases hprevhead
    · rw [hlast]
      exact Function.update_self _ _ _
    · exact Function.update_self _ _ _
  · rw [List.map_append, ← List.cons_append]
    exact List.nodup_append.mpr ⟨hnodup, List.nodup_singleton _, by
      rintro c hc d hd rfl
      rw [List.mem_singleton.mp hd] at hc
      exact hnew hc⟩
  · intro other w hw
    rcases eq_or_ne other producer with rfl | hne
    · exact ⟨_, List.mem_append_right _ (List.mem_singleton_self _), rfl⟩
    · obtain ⟨p, hp, hpother⟩ := hstoring other w ((Function.update_of_ne hne _ _).symm.trans hw)
      exact ⟨p, List.mem_append_left _ hp, hpother⟩

theorem Lists.store {s : MpscQueue ι α} {l : List (Entry ι α × Addr)} (h : s.Lists l)
    {producer : ι} {prevhead node : Addr} (hw : s.storing producer = some (prevhead, node)) :
    prevhead ∈ s.tail :: l.map Prod.snd ∧ ∃ n, s.nodes prevhead = some n ∧
      Lists { s with
        nodes := Function.update s.nodes prevhead (some { n with next := some node })
        storing := Function.update s.storing producer none }
        (l.map fun p => (p.1.store producer, p.2)) := by
  obtain ⟨hchain, hnodup, hlast, hstoring⟩ := h
  obtain ⟨p, hp, hproducer⟩ := hstoring producer _ hw
  obtain ⟨c, hc, hmem⟩ := hchain.storing_of_mem hp hproducer
  obtain ⟨rfl, rfl⟩ := Prod.mk.inj (Option.some.inj (hw.symm.trans hc))
  obtain ⟨n, hn⟩ := hchain.alive prevhead hmem
  have hsnd : (l.map fun p => (p.1.store producer, p.2)).map Prod.snd = l.map Prod.snd := by
    rw [List.map_map]
    rfl
  refine ⟨hmem, n, hn, hchain.store hnodup hw hn ⟨p, hp, hproducer⟩, ?_, ?_, ?_⟩
  · rw [hsnd]
    exact hnodup
  · rw [last_map]
    exact hlast
  · intro other w hother
    have hne : other ≠ producer := by
      rintro rfl
      simp at hother
    obtain ⟨q, hq, hqother⟩ := hstoring other w ((Function.update_of_ne hne _ _).symm.trans hother)
    refine ⟨_, List.mem_map_of_mem hq, ?_⟩
    rw [store_of_ne]
    · exact hqother
    · intro heq
      exact hne (Option.some.inj (hqother.symm.trans heq))

omit [DecidableEq ι] in
theorem Lists.update {s : MpscQueue ι α} {l : List (Entry ι α × Addr)} (h : s.Lists l) {a : Addr}
    (ha : a ∉ s.tail :: l.map Prod.snd) (n : Option (BufferNode α)) :
    Lists { s with nodes := Function.update s.nodes a n } l := by
  have hnodes : ∀ c ∈ s.tail :: l.map Prod.snd, Function.update s.nodes a n c = s.nodes c := by
    intro c hc
    apply Function.update_of_ne
    rintro rfl
    exact ha hc
  refine ⟨h.chain.congr ?_ ?_ ?_, h.nodup, h.last, h.storing⟩
  · exact fun d next hd => ⟨d, (hnodes _ List.mem_cons_self).trans hd⟩
  · exact fun c hc => hnodes c (List.mem_cons_of_mem _ hc)
  · exact fun _ _ _ _ => rfl

omit [DecidableEq ι] in
theorem Lists.update_tail {s : MpscQueue ι α} {l : List (Entry ι α × Addr)} (h : s.Lists l)
    {dataPtr : Option α} {next : Option Addr} (htail : s.nodes s.tail = some ⟨dataPtr, next⟩)
    (dataPtr' : Option α) :
    Lists { s with nodes := Function.update s.nodes s.tail (some ⟨dataPtr', next⟩) } l := by
  refine ⟨h.chain.congr ?_ ?_ ?_, h.nodup, h.last, h.storing⟩
  · intro d next' hd
    obtain rfl := (BufferNode.mk.inj (Option.some.inj (htail.symm.trans hd))).2
    exact ⟨dataPtr', Function.update_self _ _ _⟩
  · intro c hc
    apply Function.update_of_ne
    rintro rfl
    exact (List.nodup_cons.mp h.nodup).1 hc
  · exact fun _ _ _ _ => rfl

omit [DecidableEq ι] in
theorem Lists.front {s : MpscQueue ι α} {l : List (Entry ι α × Addr)} (h : s.Lists l)
    {dataPtr : Option α} {next : Addr} (htail : s.nodes s.tail = some ⟨dataPtr, some next⟩) :
    ∃ e rest, l = (e, next) :: rest ∧ e.storing = none := by
  cases l with
  | nil =>
      obtain ⟨d, hd⟩ := h.chain
      cases hd.symm.trans htail
  | cons p l =>
      cases he : p.1.storing with
      | none =>
          obtain ⟨d, hd⟩ := (linked_of_none he).mp h.chain.1
          obtain ⟨-, hnext⟩ := BufferNode.mk.inj (Option.some.inj (hd.symm.trans htail))
          obtain rfl := Option.some.inj hnext
          exact ⟨p.1, l, rfl, he⟩
      | some producer =>
          obtain ⟨⟨d, hd⟩, -⟩ := (linked_of_some he).mp h.chain.1
          cases hd.symm.trans htail

omit [DecidableEq ι] in
theorem Lists.advance {s : MpscQueue ι α} {e : Entry ι α} {next : Addr}
    {rest : List (Entry ι α × Addr)} (h : s.Lists ((e, next) :: rest)) (he : e.storing = none) :
    s.tail ∉ next :: rest.map Prod.snd ∧ (∃ nextNext, s.nodes next = some ⟨some e.item, nextNext⟩) ∧
      Lists { s with tail := next } rest := by
  obtain ⟨⟨-, hitem, hrest⟩, hnodup, hlast, hstoring⟩ := h
  rw [List.map_cons, List.nodup_cons] at hnodup
  refine ⟨hnodup.1, hitem, hrest, hnodup.2, hlast, fun producer w hw => ?_⟩
  obtain ⟨p, hp, hproducer⟩ := hstoring producer w hw
  rcases List.mem_cons.mp hp with rfl | hp
  · cases he.symm.trans hproducer
  · exact ⟨p, hp, hproducer⟩

theorem exchange_spec {s : MpscQueue ι α} {q : List (Entry ι α)} (h : s.Represents q)
    {producer : ι} {input : α} {node : Addr} (henabled : s.Enabled (.exchange producer input node)) :
    ∃ s', s.step (.exchange producer input node) = some (s', .done) ∧
      s'.Represents (q ++ [⟨input, some producer⟩]) := by
  obtain ⟨l, rfl, hl⟩ := represents_iff.mp h
  exact ⟨_, rfl, represents_iff.mpr ⟨_, List.map_append, hl.exchange henabled⟩⟩

theorem step_store {s : MpscQueue ι α} {producer : ι} {prevhead node : Addr} {n : BufferNode α}
    (hw : s.storing producer = some (prevhead, node)) (hn : s.nodes prevhead = some n) :
    s.step (.store producer) = some ({ s with
      nodes := Function.update s.nodes prevhead (some { n with next := some node })
      storing := Function.update s.storing producer none }, .done) := by
  simp only [step, hw, hn, Option.map_some]

theorem store_spec {s : MpscQueue ι α} {q : List (Entry ι α)} (h : s.Represents q)
    {producer : ι} (henabled : s.Enabled (.store producer)) :
    ∃ s', s.step (.store producer) = some (s', .done) ∧
      s'.Represents (q.map (·.store producer)) := by
  obtain ⟨l, rfl, hl⟩ := represents_iff.mp h
  obtain ⟨⟨prevhead, node⟩, hw⟩ := Option.ne_none_iff_exists'.mp henabled
  obtain ⟨-, n, hn, hl'⟩ := hl.store hw
  refine ⟨_, step_store hw hn, represents_iff.mpr ⟨_, ?_, hl'⟩⟩
  rw [List.map_map, List.map_map]
  rfl

theorem dequeue_spec {s : MpscQueue ι α} {q : List (Entry ι α)} (h : s.Represents q) :
    ∃ s', s.step .dequeue = some (s', (specStep q .dequeue).2) ∧
      s'.Represents (specStep q .dequeue).1 := by
  obtain ⟨l, rfl, hl⟩ := represents_iff.mp h
  cases l with
  | nil =>
      obtain ⟨dataPtr, htail⟩ := hl.chain
      refine ⟨s, ?_, h⟩
      simp only [step, htail]
      rfl
  | cons p l =>
      obtain ⟨⟨item, storing⟩, b⟩ := p
      cases storing with
      | some producer =>
          obtain ⟨⟨dataPtr, htail⟩, -⟩ := (linked_of_some rfl).mp hl.chain.1
          refine ⟨s, ?_, h⟩
          simp only [step, htail]
          rfl
      | none =>
          obtain ⟨dataPtr, htail⟩ := (linked_of_none rfl).mp hl.chain.1
          obtain ⟨hold, ⟨next, hitem⟩, hrest⟩ := hl.advance rfl
          have hstep : s.step .dequeue = some ({ s with
              nodes := Function.update (Function.update s.nodes b (some ⟨none, next⟩)) s.tail none
              tail := b }, .dequeue (some item)) := by
            simp only [step, htail, hitem]
          exact ⟨_, hstep, represents_iff.mpr
            ⟨l, rfl, (hrest.update_tail hitem none).update hold none⟩⟩

theorem empty_spec {s : MpscQueue ι α} {q : List (Entry ι α)} (h : s.Represents q) :
    ∃ s', s.step .empty = some (s', (specStep q .empty).2) ∧
      s'.Represents (specStep q .empty).1 := by
  obtain ⟨l, rfl, hchain, hrest⟩ := h
  cases l with
  | nil =>
      obtain ⟨dataPtr, htail⟩ := hchain
      refine ⟨s, ?_, [], rfl, ⟨dataPtr, htail⟩, hrest⟩
      simp only [step, htail]
      rfl
  | cons p l =>
      obtain ⟨⟨item, storing⟩, b⟩ := p
      cases storing with
      | some producer =>
          obtain ⟨⟨dataPtr, htail⟩, -⟩ := (linked_of_some rfl).mp hchain.1
          refine ⟨s, ?_, _, rfl, hchain, hrest⟩
          simp only [step, htail]
          rfl
      | none =>
          obtain ⟨dataPtr, htail⟩ := (linked_of_none rfl).mp hchain.1
          refine ⟨s, ?_, _, rfl, hchain, hrest⟩
          simp only [step, htail]
          rfl

theorem step_refines :
    Refines (step (ι := ι) (α := α)) specStep Enabled Represents := by
  intro s q a h henabled
  cases a with
  | exchange producer input node => exact exchange_spec h henabled
  | store producer => exact store_spec h henabled
  | dequeue => exact dequeue_spec h
  | empty => exact empty_spec h

omit [DecidableEq ι] in
theorem Represents.prevhead_alive {s : MpscQueue ι α} {q : List (Entry ι α)} (h : s.Represents q)
    {producer : ι} {prevhead node : Addr} (hw : s.storing producer = some (prevhead, node)) :
    ∃ n, s.nodes prevhead = some n := by
  obtain ⟨l, -, hchain, -, -, hstoring⟩ := h
  obtain ⟨p, hp, hproducer⟩ := hstoring producer _ hw
  obtain ⟨c, hc, hmem⟩ := hchain.storing_of_mem hp hproducer
  obtain ⟨rfl, -⟩ := Prod.mk.inj (Option.some.inj (hw.symm.trans hc))
  exact hchain.alive prevhead hmem

/-- Where `dequeue` has no item to return, there is none or the tail is not linked yet. -/
theorem Represents.of_dequeue_none {s s' : MpscQueue ι α} {q : List (Entry ι α)}
    (h : s.Represents q) (hstep : s.step .dequeue = some (s', .dequeue none)) :
    q = [] ∨ ∃ producer node, s.storing producer = some (s.tail, node) := by
  obtain ⟨s'', hstep', -⟩ := dequeue_spec h
  obtain ⟨-, hanswer⟩ := Prod.mk.inj (Option.some.inj (hstep.symm.trans hstep'))
  obtain ⟨l, rfl, hchain, -⟩ := h
  cases l with
  | nil => exact Or.inl rfl
  | cons p l =>
      obtain ⟨⟨item, storing⟩, b⟩ := p
      cases storing with
      | none => cases hanswer
      | some producer =>
          exact Or.inr ⟨producer, b, ((linked_of_some rfl).mp hchain.1).2⟩

end MpscQueue

theorem map_item_store [DecidableEq ι] (producer : ι) (q : List (Entry ι α)) :
    (q.map (·.store producer)).map Entry.item = q.map Entry.item := by
  rw [List.map_map]
  apply List.map_congr_left
  intro e _
  rw [Function.comp_apply, Entry.store]
  split <;> rfl

theorem specStep_empty [DecidableEq ι] (q : List (Entry ι α)) :
    ∃ answer, specStep q .empty = (q, .empty answer) := by
  cases q with
  | nil => exact ⟨true, rfl⟩
  | cons e q =>
      obtain ⟨item, storing⟩ := e
      cases storing with
      | none => exact ⟨false, rfl⟩
      | some producer => exact ⟨true, rfl⟩

theorem specRun_order [DecidableEq ι] (q : List (Entry ι α)) (ts : List (Action ι α)) :
    q.map Entry.item ++ entered ts =
      taken (specRun specStep q ts).2 ++ (specRun specStep q ts).1.map Entry.item := by
  induction ts generalizing q with
  | nil => simp [entered, taken, specRun]
  | cons a ts ih =>
      have hrest := ih (specStep q a).1
      cases a with
      | exchange producer input node =>
          simp only [specStep, List.map_append, List.map_cons, List.map_nil] at hrest
          simpa [entered, taken, specRun, specStep] using hrest
      | store producer =>
          simp only [specStep, map_item_store] at hrest
          simpa [entered, taken, specRun, specStep] using hrest
      | dequeue =>
          cases q with
          | nil => simpa [entered, taken, specRun, specStep] using hrest
          | cons e q =>
              obtain ⟨item, storing⟩ := e
              cases storing with
              | none =>
                  simp only [specStep] at hrest
                  simpa [entered, taken, specRun, specStep] using hrest
              | some producer => simpa [entered, taken, specRun, specStep] using hrest
      | empty =>
          obtain ⟨answer, hanswer⟩ := specStep_empty q
          rw [hanswer] at hrest
          simpa [entered, taken, specRun, hanswer] using hrest

/-- Every run of `MpscQueue` goes through without an access to a deleted node and answers like the
queue that it is for: the items come out in the order of the exchanges, each once; `dequeue` returns
none only if all have come out or the node of the last one is not linked to the next; and the nodes
that producers still have to store to are allocated. -/
theorem run_mpscQueue [DecidableEq ι] (node : Addr) {ts : List (Action ι α)}
    (hall : AllSteps (next MpscQueue.step) MpscQueue.Enabled (MpscQueue.init ι α node) ts) :
    ∃ s answers, run MpscQueue.step (MpscQueue.init ι α node) ts = some (s, answers) ∧
      answers = (specRun specStep [] ts).2 ∧
      taken answers <+: entered ts ∧
      (∀ s', s.step .dequeue = some (s', .dequeue none) →
        taken answers = entered ts ∨ ∃ producer node, s.storing producer = some (s.tail, node)) ∧
      ∀ producer prevhead node, s.storing producer = some (prevhead, node) →
        ∃ n, s.nodes prevhead = some n := by
  obtain ⟨s, hrun, hrepresents⟩ :=
    MpscQueue.step_refines.run (MpscQueue.init_represents node) hall
  have horder := specRun_order [] ts
  rw [List.map_nil, List.nil_append] at horder
  refine ⟨s, _, hrun, rfl, ?_, ?_, ?_⟩
  · rw [horder]
    exact List.prefix_append _ _
  · intro s' hstep
    rcases hrepresents.of_dequeue_none hstep with hq | hstoring
    · rw [horder, hq]
      exact Or.inl (by simp)
    · exact Or.inr hstoring
  · exact fun producer prevhead node hw => hrepresents.prevhead_alive hw

def sample : List (Action Bool Nat) :=
  [.exchange true 5 1, .exchange false 6 2, .store false, .dequeue, .store true, .dequeue, .dequeue]

theorem run_mpscQueue_sample :
    ∃ s answers, run MpscQueue.step (MpscQueue.init Bool Nat 0) sample = some (s, answers) ∧
      taken answers = [5, 6] := by
  obtain ⟨s, answers, hrun, hanswers, -⟩ := @run_mpscQueue Bool Nat _ 0 sample (by decide)
  refine ⟨s, answers, hrun, ?_⟩
  rw [hanswers]
  decide

end Cooper.LockFreeQueue

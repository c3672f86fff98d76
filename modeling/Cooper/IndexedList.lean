import Mathlib.Data.List.Nodup
import Mathlib.Logic.Function.Basic

namespace Cooper.IndexedList

variable {ι κ α : Type*}

theorem filter_key_ne [DecidableEq κ] {key : α → κ} {before after : List α} {x : α}
    (hnodup : ((before ++ x :: after).map key).Nodup) :
    (before ++ x :: after).filter (key · ≠ key x) = before ++ after := by
  rw [List.map_append, List.map_cons, List.nodup_middle, List.nodup_cons,
    ← List.map_append] at hnodup
  have hrest : (before ++ after).filter (key · ≠ key x) = before ++ after := by
    rw [List.filter_eq_self]
    intro y hy
    apply decide_eq_true
    intro hkey
    exact hnodup.1 (List.mem_map.mpr ⟨y, hy, hkey⟩)
  rw [List.filter_append] at hrest ⊢
  rw [List.filter_cons_of_neg (by simp), hrest]

/-- Values with distinct keys, the newest first. -/
@[ext] structure KeyedList (key : α → κ) where
  values : List α
  nodup : (values.map key).Nodup

namespace KeyedList

variable {key : α → κ}

def empty : KeyedList key where
  values := []
  nodup := List.nodup_nil

def dropOldest (s : KeyedList key) : KeyedList key where
  values := s.values.dropLast
  nodup := (s.values.dropLast_sublist.map key).nodup s.nodup

variable [DecidableEq κ]

def find (s : KeyedList key) (k : κ) : Option α := s.values.find? (key · = k)

def remove (s : KeyedList key) (k : κ) : KeyedList key where
  values := s.values.filter (key · ≠ k)
  nodup := (List.filter_sublist.map key).nodup s.nodup

theorem not_mem_remove (s : KeyedList key) (k : κ) : k ∉ (s.remove k).values.map key := by
  intro hmem
  obtain ⟨x, hx, rfl⟩ := List.mem_map.mp hmem
  simpa using List.of_mem_filter hx

def put (s : KeyedList key) (x : α) : KeyedList key where
  values := x :: (s.remove (key x)).values
  nodup := by
    rw [List.map_cons, List.nodup_cons]
    exact ⟨s.not_mem_remove (key x), (s.remove (key x)).nodup⟩

theorem remove_eq_self {s : KeyedList key} {k : κ} (h : ∀ x ∈ s.values, key x ≠ k) :
    s.remove k = s := by
  apply KeyedList.ext
  apply List.filter_eq_self.mpr
  intro x hx
  exact decide_eq_true (h x hx)

theorem find_eq_some_iff {s : KeyedList key} {k : κ} {x : α} :
    s.find k = some x ↔ x ∈ s.values ∧ key x = k := by
  constructor
  · intro h
    exact ⟨List.mem_of_find?_eq_some h, by simpa using List.find?_some h⟩
  · rintro ⟨hx, rfl⟩
    rcases hfind : s.find (key x) with _ | y
    · simpa using List.find?_eq_none.mp hfind x hx
    · have hy := List.mem_of_find?_eq_some hfind
      have hkey : key y = key x := by simpa using List.find?_some hfind
      rw [List.inj_on_of_nodup_map s.nodup hy hx hkey]

theorem perm_of_find {s : KeyedList key} {k : κ} {x : α} (h : s.find k = some x) :
    s.values.Perm (x :: (s.remove k).values) := by
  obtain ⟨hx, rfl⟩ := find_eq_some_iff.mp h
  obtain ⟨before, after, hvalues⟩ := List.append_of_mem hx
  have hnodup := s.nodup
  change s.values.Perm (x :: s.values.filter (key · ≠ key x))
  rw [hvalues] at hnodup ⊢
  rw [filter_key_ne hnodup]
  exact List.perm_middle

omit [DecidableEq κ] in
theorem perm_of_getLast? {s : KeyedList key} {x : α} (h : s.values.getLast? = some x) :
    s.values.Perm (x :: s.dropOldest.values) := by
  obtain ⟨before, hvalues⟩ := List.getLast?_eq_some_iff.mp h
  change s.values.Perm (x :: s.values.dropLast)
  rw [hvalues, List.dropLast_concat]
  exact List.perm_append_singleton _ _

theorem remove_of_find {s : KeyedList key} {k : κ} (h : s.find k = none) : s.remove k = s := by
  apply remove_eq_self
  intro x hx
  simpa using List.find?_eq_none.mp h x hx

omit [DecidableEq κ] in
theorem dropOldest_of_getLast? {s : KeyedList key} (h : s.values.getLast? = none) :
    s.dropOldest = s := by
  apply KeyedList.ext
  change s.values.dropLast = s.values
  rw [List.getLast?_eq_none_iff.mp h]
  rfl

section Count

variable {β : Type*} [DecidableEq β] (f : α → β) (b : β)

theorem count_remove (s : KeyedList key) (k : κ) :
    ((s.remove k).values.map f).count b + (if (s.find k).map f = some b then 1 else 0) =
      (s.values.map f).count b := by
  rcases hfind : s.find k with _ | x
  · rw [remove_of_find hfind]
    simp
  · rw [((perm_of_find hfind).map f).count_eq b, List.map_cons, List.count_cons]
    simp

theorem count_put (s : KeyedList key) (x : α) :
    ((s.put x).values.map f).count b =
      ((s.remove (key x)).values.map f).count b + if f x = b then 1 else 0 := by
  rw [put, List.map_cons, List.count_cons]
  simp

omit [DecidableEq κ] in
theorem count_dropOldest (s : KeyedList key) :
    (s.dropOldest.values.map f).count b +
        (if s.values.getLast?.map f = some b then 1 else 0) = (s.values.map f).count b := by
  rw [dropOldest]
  rcases hlast : s.values.getLast? with _ | x
  · simp [List.getLast?_eq_none_iff.mp hlast]
  · obtain ⟨before, hvalues⟩ := List.getLast?_eq_some_iff.mp hlast
    simp [hvalues, List.count_append, List.count_singleton]

end Count

theorem length_put_le (s : KeyedList key) (x : α) :
    (s.put x).values.length ≤ s.values.length + 1 :=
  Nat.succ_le_succ (List.length_filter_le _ _)

end KeyedList

/-- The index and the list are in bijection: an entry of the index leads to a cell with its key, and
a cell is what its key's entry leads to. -/
structure Indexed (key : α → κ) (cells : List (ι × α)) (index : κ → Option ι) : Prop where
  nodup : (cells.map Prod.fst).Nodup
  points : ∀ k it, index k = some it → ∃ x, (it, x) ∈ cells ∧ key x = k
  indexed : ∀ it x, (it, x) ∈ cells → index (key x) = some it

variable {key : α → κ} {cells : List (ι × α)} {index : κ → Option ι}

theorem indexed_nil : Indexed key ([] : List (ι × α)) fun _ => none := by
  constructor
  · exact List.nodup_nil
  · intro k it h
    contradiction
  · intro it x hmem
    contradiction

theorem mem_of_lookup [DecidableEq ι] {it : ι} {x : α} (h : cells.lookup it = some x) :
    (it, x) ∈ cells := by
  obtain ⟨before, after, rfl, -⟩ := List.lookup_eq_some_iff.mp h
  exact List.mem_append_right _ List.mem_cons_self

namespace Indexed

theorem eq_of_mem (h : Indexed key cells index) {it : ι} {x y : α} (hx : (it, x) ∈ cells)
    (hy : (it, y) ∈ cells) : x = y := by
  have heq := List.inj_on_of_nodup_map h.nodup hx hy rfl
  exact congrArg Prod.snd heq

theorem eq_of_key (h : Indexed key cells index) {it it' : ι} {x y : α} (hx : (it, x) ∈ cells)
    (hy : (it', y) ∈ cells) (hkey : key x = key y) : (it, x) = (it', y) := by
  have hit : some it = some it' := by
    rw [← h.indexed it x hx, ← h.indexed it' y hy, hkey]
  obtain rfl := Option.some.inj hit
  rw [h.eq_of_mem hx hy]

def keyed (h : Indexed key cells index) : KeyedList key where
  values := cells.map Prod.snd
  nodup := by
    rw [List.map_map]
    apply List.Nodup.map_on _ (List.Nodup.of_map _ h.nodup)
    rintro ⟨it, x⟩ hx ⟨it', y⟩ hy hkey
    exact h.eq_of_key hx hy hkey

theorem key_ne_of_none (h : Indexed key cells index) {k : κ} (hk : index k = none) {it : ι} {x : α}
    (hx : (it, x) ∈ cells) : key x ≠ k := by
  rintro rfl
  rw [h.indexed it x hx] at hk
  contradiction

theorem cons [DecidableEq κ] (h : Indexed key cells index) {it : ι} {x : α}
    (hit : it ∉ cells.map Prod.fst) (hkey : index (key x) = none) :
    Indexed key ((it, x) :: cells) (Function.update index (key x) (some it)) := by
  constructor
  · rw [List.map_cons, List.nodup_cons]
    exact ⟨hit, h.nodup⟩
  · intro k other hk
    by_cases hx : k = key x
    · rw [hx, Function.update_self] at hk
      obtain rfl := Option.some.inj hk
      exact ⟨x, List.mem_cons_self, hx.symm⟩
    · rw [Function.update_of_ne hx] at hk
      obtain ⟨y, hy, hyk⟩ := h.points k other hk
      exact ⟨y, List.mem_cons_of_mem _ hy, hyk⟩
  · intro other y hy
    rcases List.mem_cons.mp hy with heq | hy
    · obtain ⟨rfl, rfl⟩ := Prod.mk.inj heq
      rw [Function.update_self]
    · rw [Function.update_of_ne (h.key_ne_of_none hkey hy)]
      exact h.indexed other y hy

variable [DecidableEq ι]

theorem lookup_of_mem (h : Indexed key cells index) {it : ι} {x : α} (hx : (it, x) ∈ cells) :
    cells.lookup it = some x := by
  rcases hlookup : cells.lookup it with _ | y
  · rw [List.lookup_eq_none_iff] at hlookup
    simpa using hlookup (it, x) hx
  · rw [h.eq_of_mem hx (mem_of_lookup hlookup)]

theorem lookup (h : Indexed key cells index) {k : κ} {it : ι} (hk : index k = some it) :
    ∃ x, cells.lookup it = some x ∧ (it, x) ∈ cells ∧ key x = k := by
  obtain ⟨x, hx, rfl⟩ := h.points k it hk
  exact ⟨x, h.lookup_of_mem hx, hx, rfl⟩

theorem erase [DecidableEq κ] (h : Indexed key cells index) {it : ι} {x : α}
    (hx : (it, x) ∈ cells) :
    Indexed key (cells.filter (·.1 ≠ it)) (Function.update index (key x) none) := by
  constructor
  · exact (List.filter_sublist.map Prod.fst).nodup h.nodup
  · intro k other hk
    have hkx : k ≠ key x := by
      rintro rfl
      rw [Function.update_self] at hk
      contradiction
    rw [Function.update_of_ne hkx] at hk
    obtain ⟨y, hy, rfl⟩ := h.points k other hk
    refine ⟨y, List.mem_filter.mpr ⟨hy, ?_⟩, rfl⟩
    simp only [ne_eq, decide_eq_true_eq]
    rintro rfl
    exact hkx (congrArg key (h.eq_of_mem hy hx))
  · intro other y hy
    obtain ⟨hy, hne⟩ := List.mem_filter.mp hy
    have hkey : key y ≠ key x := by
      intro hkey
      obtain rfl : other = it := congrArg Prod.fst (h.eq_of_key hy hx hkey)
      simp at hne
    rw [Function.update_of_ne hkey]
    exact h.indexed other y hy

theorem keyed_erase [DecidableEq κ] (h : Indexed key cells index) {it : ι} {x : α}
    (hx : (it, x) ∈ cells) : (h.erase hx).keyed = h.keyed.remove (key x) := by
  apply KeyedList.ext
  change (cells.filter (·.1 ≠ it)).map Prod.snd = (cells.map Prod.snd).filter (key · ≠ key x)
  rw [List.filter_map]
  congr 1
  apply List.filter_congr
  rintro ⟨other, y⟩ hy
  simp only [ne_eq, Function.comp_apply, decide_eq_decide]
  rw [not_iff_not]
  constructor
  · rintro rfl
    rw [h.eq_of_mem hy hx]
  · intro hkey
    exact congrArg Prod.fst (h.eq_of_key hy hx hkey)

theorem perm_cons_filter (h : Indexed key cells index) {it : ι} {x : α} (hx : (it, x) ∈ cells) :
    cells.Perm ((it, x) :: cells.filter (·.1 ≠ it)) := by
  obtain ⟨before, after, rfl⟩ := List.append_of_mem hx
  have hfilter := filter_key_ne h.nodup
  rw [hfilter]
  exact List.perm_middle

theorem find_keyed [DecidableEq κ] (h : Indexed key cells index) (k : κ) :
    h.keyed.find k = (index k).bind fun it => cells.lookup it := by
  rcases hk : index k with _ | it
  · apply List.find?_eq_none.mpr
    intro x hx
    obtain ⟨⟨it, x⟩, hmem, rfl⟩ := List.mem_map.mp hx
    simpa using h.key_ne_of_none hk hmem
  · obtain ⟨x, hlookup, hx, rfl⟩ := h.lookup hk
    rw [Option.bind_some, hlookup, KeyedList.find_eq_some_iff]
    exact ⟨List.mem_map.mpr ⟨(it, x), hx, rfl⟩, rfl⟩

theorem keyed_erase_last [DecidableEq κ] (h : Indexed key cells index) {it : ι} {x : α}
    (hx : cells.getLast? = some (it, x)) :
    (h.erase (List.mem_of_getLast? hx)).keyed = h.keyed.dropOldest := by
  apply KeyedList.ext
  obtain ⟨before, rfl⟩ := List.getLast?_eq_some_iff.mp hx
  change ((before ++ [(it, x)]).filter (·.1 ≠ it)).map Prod.snd =
    ((before ++ [(it, x)]).map Prod.snd).dropLast
  have hfilter := filter_key_ne h.nodup
  rw [hfilter, List.append_nil, List.map_append, List.map_singleton, List.dropLast_concat]

end Indexed

end Cooper.IndexedList

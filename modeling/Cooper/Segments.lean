import Cooper.Region
import Mathlib.Data.List.DropRight
import Mathlib.Tactic.Common

namespace Cooper.Segments

open Cooper.Region

variable {α : Type*} (p : α → Bool)

def strip (l : List α) : List α := (l.dropWhile p).rdropWhile p

/-- Where a list that begins at `pos` lies once it is stripped. -/
def extent (pos : Nat) (l : List α) : Nat × Nat :=
  (pos + (l.takeWhile p).length, pos + (l.takeWhile p).length + (strip p l).length)

/-- Lists that lie one behind the other from `pos` on, with one element between any two. -/
def place (pos : Nat) : List (List α) → List (Nat × List α)
  | [] => []
  | l :: ls => (pos, l) :: place (pos + l.length + 1) ls

/-- The extents of the lists of which stripping leaves something. -/
def extents (placed : List (Nat × List α)) : List (Nat × Nat) :=
  placed.filterMap fun l => if (strip p l.2).isEmpty then none else some (extent p l.1 l.2)

/-- Where a scan to the right from `first` and one to the left from `last` stop. -/
def scan (first last : Nat) (cells : List α) : Nat × Nat :=
  (first + ((cells.drop first).takeWhile p).length,
    last - ((cells.take last).reverse.takeWhile p).length)

variable {p} {first last pos : Nat} {cells l : List α}

theorem extents_append (p : α → Bool) (placed more : List (Nat × List α)) :
    extents p (placed ++ more) = extents p placed ++ extents p more :=
  List.filterMap_append

theorem strip_eq_nil_iff : strip p l = [] ↔ ∀ a ∈ l, p a = true := by
  rw [strip, List.rdropWhile_eq_nil_iff]
  constructor
  · intro h
    have hnil : l.dropWhile p = [] := by
      by_contra hne
      have hhead := h _ (List.head_mem hne)
      rw [List.head_dropWhile_not p hne] at hhead
      exact absurd hhead (by simp)
    exact List.dropWhile_eq_nil_iff.mp hnil
  · intro h a ha
    exact h a ((List.dropWhile_sublist p).subset ha)

theorem strip_subset (p : α → Bool) (l : List α) : strip p l ⊆ l := by
  intro a ha
  have hdrop : a ∈ l.dropWhile p :=
    (List.rdropWhile_prefix (p := p) (l := l.dropWhile p)).subset ha
  exact (List.dropWhile_sublist p).subset hdrop

theorem strip_append {lead : List α} (hlead : ∀ a ∈ lead, p a = true)
    (hhead : ∀ a, l.head? = some a → p a = false) (hlast : ∀ a, l.getLast? = some a → p a = false) :
    strip p (lead ++ l) = l := by
  have hdrop : l.dropWhile p = l := by
    cases l with
    | nil => rfl
    | cons a l => exact List.dropWhile_cons_of_neg (by simp [hhead a rfl])
  rw [strip, List.dropWhile_append_of_pos hlead, hdrop, List.rdropWhile_eq_self_iff]
  intro hne
  rw [hlast _ (List.getLast?_eq_some_getLast hne)]
  exact Bool.false_ne_true

theorem takeWhile_append_of_strip_ne_nil (h : strip p l ≠ []) (rest : List α) :
    (l ++ rest).takeWhile p = l.takeWhile p := by
  rw [List.takeWhile_append, if_neg]
  intro hlength
  have hall : l.takeWhile p = l := (List.takeWhile_prefix p).eq_of_length hlength
  exact h (strip_eq_nil_iff.mpr (List.takeWhile_eq_self_iff.mp hall))

theorem strip_reverse_ne_nil (h : strip p l ≠ []) : strip p l.reverse ≠ [] := by
  intro hreverse
  apply h
  rw [strip_eq_nil_iff] at hreverse ⊢
  intro a ha
  exact hreverse a (List.mem_reverse.mpr ha)

theorem length_strip (h : strip p l ≠ []) :
    (l.takeWhile p).length + (strip p l).length + (l.reverse.takeWhile p).length = l.length := by
  have hrest : strip p (l.dropWhile p).reverse ≠ [] := by
    apply strip_reverse_ne_nil
    intro hnil
    apply h
    rw [strip_eq_nil_iff] at hnil
    exact List.rdropWhile_eq_nil_iff.mpr hnil
  have hreverse : l.reverse.takeWhile p = (l.dropWhile p).reverse.takeWhile p := by
    rw [← takeWhile_append_of_strip_ne_nil hrest (l.takeWhile p).reverse, ← List.reverse_append,
      List.takeWhile_append_dropWhile]
  have hback : (strip p l).length + ((l.dropWhile p).reverse.takeWhile p).length =
      (l.dropWhile p).length := by
    have hparts := congrArg List.length
      (List.rdropWhile_append_rtakeWhile (p := p) (l := l.dropWhile p))
    rwa [List.length_append, List.rtakeWhile, List.length_reverse] at hparts
  rw [hreverse, Nat.add_assoc, hback, ← List.length_append, List.takeWhile_append_dropWhile]

theorem drop_length_takeWhile (p : α → Bool) (l : List α) :
    l.drop (l.takeWhile p).length = l.dropWhile p := by
  induction l with
  | nil => rfl
  | cons a l ih =>
      by_cases ha : p a
      · rw [List.takeWhile_cons_of_pos ha, List.dropWhile_cons_of_pos ha, List.length_cons,
          List.drop_succ_cons, ih]
      · rw [List.takeWhile_cons_of_neg ha, List.dropWhile_cons_of_neg ha]
        rfl

theorem length_strip_le (p : α → Bool) (l : List α) :
    (l.takeWhile p).length + (strip p l).length ≤ l.length := by
  have hback : (strip p l).length ≤ (l.dropWhile p).length :=
    (List.rdropWhile_prefix (p := p) (l := l.dropWhile p)).length_le
  have hparts := congrArg List.length (List.takeWhile_append_dropWhile (p := p) (l := l))
  rw [List.length_append] at hparts
  omega

section Delimiter

variable [DecidableEq α] {d : α}

theorem of_mem_splitOn {segment : List α} (h : segment ∈ l.splitOn d) :
    d ∉ segment ∧ segment ⊆ l := by
  induction l generalizing segment with
  | nil =>
      rw [List.splitOn_nil, List.mem_singleton] at h
      rw [h]
      exact ⟨List.not_mem_nil, List.Subset.refl _⟩
  | cons a l ih =>
      rw [List.splitOn_cons_eq_if_modifyHead] at h
      by_cases had : a = d
      · rw [if_pos (beq_iff_eq.mpr had)] at h
        rcases List.mem_cons.mp h with rfl | hmem
        · exact ⟨List.not_mem_nil, List.nil_subset _⟩
        · exact ⟨(ih hmem).1, List.subset_cons_of_subset a (ih hmem).2⟩
      · obtain ⟨first, segments, hsegments⟩ := List.exists_cons_of_ne_nil (List.splitOn_ne_nil d l)
        have hmem {segment' : List α} (hsegment : segment' ∈ first :: segments) :=
          ih (hsegments ▸ hsegment)
        rw [if_neg (by simpa using had), hsegments, List.modifyHead_cons] at h
        rcases List.mem_cons.mp h with rfl | hrest
        · obtain ⟨hfree, hsubset⟩ := hmem List.mem_cons_self
          refine ⟨?_, List.cons_subset_cons a hsubset⟩
          rw [List.mem_cons, not_or]
          exact ⟨Ne.symm had, hfree⟩
        · obtain ⟨hfree, hsubset⟩ := hmem (List.mem_cons_of_mem _ hrest)
          exact ⟨hfree, List.subset_cons_of_subset a hsubset⟩

end Delimiter

section Scans

theorem drop_eq_append (hle : first ≤ last) (hlast : last ≤ cells.length) :
    cells.drop first = region first last cells ++ cells.drop last := by
  have hwhole (n : Nat) : region n cells.length cells = cells.drop n := by
    rw [region, List.take_length]
  rw [← hwhole first, region_append hle hlast, hwhole last]

theorem take_eq_append (hle : first ≤ last) (cells : List α) :
    cells.take last = cells.take first ++ region first last cells := by
  have hzero (n : Nat) : region 0 n cells = cells.take n := List.drop_zero
  rw [← hzero last, region_append (Nat.zero_le first) hle, hzero first]

/-- A scan that runs past the other end of an empty segment never comes back. -/
theorem scan_of_strip_eq_nil (hle : first ≤ last) (hlast : last ≤ cells.length)
    (hnil : strip p (region first last cells) = []) :
    (scan p first last cells).2 ≤ (scan p first last cells).1 := by
  have hall := strip_eq_nil_iff.mp hnil
  have hall' : ∀ a ∈ (region first last cells).reverse, p a = true := by
    intro a ha
    exact hall a (List.mem_reverse.mp ha)
  have hlength : (region first last cells).length = last - first := length_region hlast
  rw [scan, drop_eq_append hle hlast, take_eq_append hle, List.takeWhile_append_of_pos hall,
    List.reverse_append, List.takeWhile_append_of_pos hall', List.length_append,
    List.length_append, List.length_reverse, hlength]
  simp only
  omega

theorem scan_of_strip_ne_nil (hle : first ≤ last) (hlast : last ≤ cells.length)
    (hne : strip p (region first last cells) ≠ []) :
    scan p first last cells = extent p first (region first last cells) := by
  have hlength : (region first last cells).length = last - first := length_region hlast
  have hparts := length_strip hne
  rw [scan, drop_eq_append hle hlast, take_eq_append hle, takeWhile_append_of_strip_ne_nil hne,
    List.reverse_append, takeWhile_append_of_strip_ne_nil (strip_reverse_ne_nil hne), extent]
  congr 1
  omega

theorem scan_lt_iff (hle : first ≤ last) (hlast : last ≤ cells.length) :
    (scan p first last cells).1 < (scan p first last cells).2 ↔
      strip p (region first last cells) ≠ [] := by
  constructor
  · intro hlt hnil
    exact absurd (scan_of_strip_eq_nil hle hlast hnil) (Nat.not_le.mpr hlt)
  · intro hne
    rw [scan_of_strip_ne_nil hle hlast hne, extent]
    exact Nat.lt_add_of_pos_right (List.length_pos_iff.mpr hne)

end Scans

section Texts

theorem region_extent (h : region pos (pos + l.length) cells = l) :
    region (extent p pos l).1 (extent p pos l).2 cells = strip p l := by
  have hle := length_strip_le p l
  rw [extent]
  simp only
  rw [region_add_left, region_of_le (show pos + (l.takeWhile p).length + (strip p l).length ≤
    pos + l.length by omega), h, Nat.add_assoc, Nat.add_sub_cancel_left, List.drop_take,
    Nat.add_sub_cancel_left, drop_length_takeWhile]
  exact (List.prefix_iff_eq_take.mp (List.rdropWhile_prefix (p := p) (l := l.dropWhile p))).symm

theorem map_region_extents {d : α} {ls : List (List α)} (h : cells.drop pos = [d].intercalate ls) :
    (extents p (place pos ls)).map (fun r => region r.1 r.2 cells) =
      (ls.map (strip p)).filter fun l => !l.isEmpty := by
  induction ls generalizing pos with
  | nil => rfl
  | cons l ls ih =>
      have hsplit : ∃ rest, cells.drop pos = l ++ rest ∧
          (ls ≠ [] → rest.drop 1 = [d].intercalate ls) := by
        cases ls with
        | nil =>
            refine ⟨[], ?_, fun hne => absurd rfl hne⟩
            rw [h, List.intercalate_singleton, List.append_nil]
        | cons l' ls =>
            refine ⟨d :: [d].intercalate (l' :: ls), ?_, fun _ => rfl⟩
            rw [h, List.intercalate_cons_cons, List.append_assoc]
            rfl
      obtain ⟨rest, hrest, hnext⟩ := hsplit
      have hhere : region pos (pos + l.length) cells = l := by
        rw [region, List.drop_take, Nat.add_sub_cancel_left, hrest, List.take_left]
      have hlater : (extents p (place (pos + l.length + 1) ls)).map (fun r => region r.1 r.2 cells) =
          (ls.map (strip p)).filter fun l => !l.isEmpty := by
        rcases eq_or_ne ls [] with rfl | hne
        · rfl
        · apply ih
          rw [← hnext hne, Nat.add_assoc, ← List.drop_drop, hrest, List.drop_length_add_append]
      rw [place, extents, List.filterMap_cons, List.map_cons, List.filter_cons]
      by_cases hnil : strip p l = []
      · simp only [hnil, List.isEmpty_nil, if_true, Bool.not_true, Bool.false_eq_true, if_false]
        exact hlater
      · have hempty : (strip p l).isEmpty = false := List.isEmpty_eq_false_iff.mpr hnil
        simp only [hempty, Bool.false_eq_true, if_false, Bool.not_false, if_true, List.map_cons,
          region_extent hhere]
        exact congrArg _ hlater

end Texts

end Cooper.Segments

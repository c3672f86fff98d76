import Mathlib.Data.List.TakeDrop
import Mathlib.Tactic.Common

namespace Cooper.Region

variable {α : Type*}

def region (first last : Nat) (cells : List α) : List α := (cells.take last).drop first

/-- Write `data` from `pos` on. There is no result when the array ends before. -/
def store (pos : Nat) (data cells : List α) : Option (List α) :=
  if pos + data.length ≤ cells.length then
    some (cells.take pos ++ (data ++ cells.drop (pos + data.length)))
  else none

def copy : (n first dest : Nat) → List α → Option (List α)
  | 0, _, _, cells => some cells
  | n + 1, first, dest, cells =>
      match cells[first]? with
      | some a =>
          if dest < cells.length then copy n (first + 1) (dest + 1) (cells.set dest a) else none
      | none => none

def reverse (first last : Nat) (cells : List α) : List α :=
  cells.take first ++ ((region first last cells).reverse ++ cells.drop last)

/-- The place that is copied to does not begin inside of what is copied. -/
def Apart (n first dest : Nat) : Prop := dest < first ∨ first + n ≤ dest

variable {first last pos dest n : Nat} {cells cells' data : List α}

theorem length_region (h : last ≤ cells.length) :
    (region first last cells).length = last - first := by
  rw [region, List.length_drop, List.length_take, Nat.min_eq_left h]

theorem getElem?_region (first last i : Nat) (cells : List α) :
    (region first last cells)[i]? = if first + i < last then cells[first + i]? else none := by
  rw [region, List.getElem?_drop, List.getElem?_take]

@[simp] theorem region_self (first : Nat) (cells : List α) : region first first cells = [] := by
  rw [region, List.drop_eq_nil_iff, List.length_take]
  exact Nat.min_le_left ..

theorem region_add_left (first last n : Nat) (cells : List α) :
    region (first + n) last cells = (region first last cells).drop n := by
  rw [region, region, List.drop_drop]

theorem region_of_le (hle : n ≤ last) (first : Nat) (cells : List α) :
    region first n cells = (region first last cells).take (n - first) := by
  apply List.ext_getElem?
  intro i
  rw [List.getElem?_take, getElem?_region, getElem?_region]
  by_cases hi : first + i < n
  · rw [if_pos hi, if_pos (by omega), if_pos (by omega)]
  · rw [if_neg hi, if_neg (by omega)]

theorem region_store (hfirst : first ≤ pos) (h : store pos data cells = some cells') :
    region first (pos + data.length) cells' = region first pos cells ++ data := by
  unfold store at h
  split at h
  · rename_i hfits
    obtain rfl := Option.some.inj h
    have hpos : (cells.take pos).length = pos := by rw [List.length_take]; omega
    rw [region, region, ← List.append_assoc, List.take_append_of_le_length (by simp [hpos]),
      List.take_of_length_le (by simp [hpos]), List.drop_append_of_le_length (by omega)]
  · exact absurd h (by simp)

theorem region_append {mid : Nat} (hfirst : first ≤ mid) (hmid : mid ≤ last) (cells : List α) :
    region first last cells = region first mid cells ++ region mid last cells := by
  obtain ⟨n, rfl⟩ := Nat.exists_eq_add_of_le hfirst
  rw [region_add_left, region_of_le hmid, Nat.add_sub_cancel_left, List.take_append_drop]

theorem length_store (h : store pos data cells = some cells') : cells'.length = cells.length := by
  unfold store at h
  split at h
  · obtain rfl := Option.some.inj h
    simp only [List.length_append, List.length_take, List.length_drop]
    omega
  · exact absurd h (by simp)

theorem store_of_le (h : pos + data.length ≤ cells.length) :
    ∃ cells', store pos data cells = some cells' :=
  ⟨_, if_pos h⟩

theorem take_store (h : store pos data cells = some cells') (hn : n ≤ data.length) :
    cells'.take (pos + n) = cells.take pos ++ data.take n := by
  obtain ⟨hfits, hcells⟩ := Option.ite_none_right_eq_some.mp h
  obtain rfl := Option.some.inj hcells
  have hpos : (cells.take pos).length = pos := by
    rw [List.length_take, Nat.min_eq_left (by omega)]
  have htake (more : List α) : (cells.take pos ++ more).take (pos + n) =
      cells.take pos ++ more.take n := by
    rw [List.take_append, List.take_of_length_le (by omega), hpos, Nat.add_sub_cancel_left]
  rw [htake, List.take_append_of_le_length hn]

theorem store_append (pos : Nat) (data more cells : List α) :
    ((store pos data cells).bind fun cells => store (pos + data.length) more cells) =
      store pos (data ++ more) cells := by
  unfold store
  rw [List.length_append, ← Nat.add_assoc]
  by_cases hfits : pos + data.length ≤ cells.length
  · have hlength : (cells.take pos ++ (data ++ cells.drop (pos + data.length))).length =
        cells.length := by
      simp only [List.length_append, List.length_take, List.length_drop]
      omega
    have hpos : (cells.take pos ++ data).length = pos + data.length := by
      rw [List.length_append, List.length_take, Nat.min_eq_left (by omega)]
    have htake : (cells.take pos ++ (data ++ cells.drop (pos + data.length))).take
        (pos + data.length) = cells.take pos ++ data := by
      rw [← List.append_assoc]
      exact List.take_left' hpos
    have hdrop : (cells.take pos ++ (data ++ cells.drop (pos + data.length))).drop
        (pos + data.length + more.length) = cells.drop (pos + data.length + more.length) := by
      rw [← List.append_assoc, ← List.drop_drop, List.drop_left' hpos, List.drop_drop]
    rw [if_pos hfits, Option.bind_some, hlength, htake, hdrop]
    simp only [List.append_assoc]
  · rw [if_neg hfits, if_neg (by omega), Option.bind_none]

theorem store_reverse {more : List α} (h : store pos (data ++ more) cells = some cells') :
    store pos (data.reverse ++ more) cells = some (reverse pos (pos + data.length) cells') := by
  unfold store at h ⊢
  obtain ⟨hfits, hcells⟩ := Option.ite_none_right_eq_some.mp h
  obtain rfl := Option.some.inj hcells
  rw [List.length_append] at hfits
  have hpos : (cells.take pos).length = pos := by
    rw [List.length_take, Nat.min_eq_left (by omega)]
  have hlength : (cells.take pos ++ data).length = pos + data.length := by
    rw [List.length_append, hpos]
  have hassoc : cells.take pos ++ (data ++ more ++ cells.drop (pos + (data ++ more).length)) =
      cells.take pos ++ data ++ (more ++ cells.drop (pos + (data ++ more).length)) := by
    simp only [List.append_assoc]
  rw [List.length_append, List.length_reverse, ← List.length_append, if_pos (by simpa using hfits),
    hassoc, reverse, region, List.take_left' hlength, List.drop_left' hlength, List.drop_left' hpos,
    List.append_assoc data.reverse, List.append_assoc (cells.take pos) data, List.take_left' hpos]

theorem region_store_behind (hpos : pos + data.length ≤ first)
    (h : store pos data cells = some cells') (last : Nat) :
    region first last cells' = region first last cells := by
  unfold store at h
  split at h
  · obtain rfl := Option.some.inj h
    apply List.ext_getElem?
    intro i
    have hskip : pos + data.length + (first + i - pos - data.length) = first + i := by omega
    rw [getElem?_region, getElem?_region, List.getElem?_append_right (by simp; omega),
      List.getElem?_append_right (by simp; omega), List.getElem?_drop, List.length_take,
      Nat.min_eq_left (by omega), hskip]
  · exact absurd h (by simp)

theorem copy_succ_eq_some_iff : copy (n + 1) first dest cells = some cells' ↔
    ∃ a, cells[first]? = some a ∧ dest < cells.length ∧
      copy n (first + 1) (dest + 1) (cells.set dest a) = some cells' := by
  rw [copy]
  cases cells[first]? with
  | none => simp
  | some a => simp

theorem room_of_copy (h : copy n first dest cells = some cells') :
    n = 0 ∨ dest + n ≤ cells.length := by
  induction n generalizing first dest cells with
  | zero => exact .inl rfl
  | succ n ih =>
      obtain ⟨a, -, hdest, hnext⟩ := copy_succ_eq_some_iff.mp h
      have hrest := ih hnext
      rw [List.length_set] at hrest
      omega

theorem length_copy (h : copy n first dest cells = some cells') : cells'.length = cells.length := by
  induction n generalizing first dest cells with
  | zero =>
      obtain rfl := Option.some.inj h
      rfl
  | succ n ih =>
      obtain ⟨a, -, -, hnext⟩ := copy_succ_eq_some_iff.mp h
      exact (ih hnext).trans List.length_set

theorem getElem?_copy_front (h : copy n first dest cells = some cells') {i : Nat} (hi : i < dest) :
    cells'[i]? = cells[i]? := by
  induction n generalizing first dest cells with
  | zero =>
      obtain rfl := Option.some.inj h
      rfl
  | succ n ih =>
      obtain ⟨a, -, -, hnext⟩ := copy_succ_eq_some_iff.mp h
      rw [ih hnext (Nat.lt_succ_of_lt hi), List.getElem?_set_ne (by omega)]

theorem getElem?_copy_dest (h : copy (n + 1) first dest cells = some cells') :
    cells'[dest]? = cells[first]? := by
  obtain ⟨a, hget, hdest, hnext⟩ := copy_succ_eq_some_iff.mp h
  rw [getElem?_copy_front hnext (Nat.lt_succ_self dest), List.getElem?_set_self hdest, hget]

theorem exists_copy (hfits : first + n ≤ cells.length) (hroom : dest + n ≤ cells.length) :
    ∃ cells', copy n first dest cells = some cells' ∧ cells'.length = cells.length := by
  induction n generalizing first dest cells with
  | zero => exact ⟨cells, rfl, rfl⟩
  | succ n ih =>
      have hget : cells[first]? = some cells[first] := List.getElem?_eq_getElem (by omega)
      have hlength : (cells.set dest cells[first]).length = cells.length := List.length_set
      obtain ⟨cells', hnext, -⟩ := @ih (first + 1) (dest + 1) (cells.set dest cells[first])
        (by omega) (by omega)
      have hcopy := copy_succ_eq_some_iff.mpr ⟨_, hget, by omega, hnext⟩
      exact ⟨cells', hcopy, length_copy hcopy⟩

theorem getElem?_copy_apart (hdest : Apart n first dest) (h : copy n first dest cells = some cells')
    {i : Nat} (hi : i < n) : cells'[dest + i]? = cells[first + i]? := by
  rw [Apart] at hdest
  induction n generalizing first dest cells i with
  | zero => exact absurd hi (Nat.not_lt_zero i)
  | succ n ih =>
      cases i with
      | zero => exact getElem?_copy_dest h
      | succ i =>
          obtain ⟨a, -, -, hnext⟩ := copy_succ_eq_some_iff.mp h
          have hcopied := ih (by omega) hnext (Nat.lt_of_succ_lt_succ hi)
          rw [List.getElem?_set_ne (by omega), Nat.add_right_comm dest,
            Nat.add_right_comm first] at hcopied
          exact hcopied

theorem region_copy (hdest : Apart n first dest) (hfits : first + n ≤ cells.length)
    (hroom : dest + n ≤ cells.length) :
    ∃ cells', copy n first dest cells = some cells' ∧ cells'.length = cells.length ∧
      region dest (dest + n) cells' = region first (first + n) cells := by
  obtain ⟨cells', hcopy, hlength⟩ := exists_copy hfits hroom
  refine ⟨cells', hcopy, hlength, List.ext_getElem? fun i => ?_⟩
  rw [getElem?_region, getElem?_region]
  by_cases hi : i < n
  · rw [if_pos (by omega), if_pos (by omega), getElem?_copy_apart hdest hcopy hi]
  · rw [if_neg (by omega), if_neg (by omega)]

/-- Copying forwards to a place inside of what is copied repeats the elements in front of that
place. -/
theorem getElem?_copy_repeats (hdest : first < dest) (h : copy n first dest cells = some cells')
    {i : Nat} (hi : i < n) : cells'[dest + i]? = cells[first + i % (dest - first)]? := by
  induction n generalizing first dest cells i with
  | zero => exact absurd hi (Nat.not_lt_zero i)
  | succ n ih =>
      cases i with
      | zero =>
          rw [Nat.zero_mod]
          exact getElem?_copy_dest h
      | succ i =>
          obtain ⟨a, hget, hroom, hnext⟩ := copy_succ_eq_some_iff.mp h
          have hcopied := ih (Nat.add_lt_add_right hdest 1) hnext (Nat.lt_of_succ_lt_succ hi)
          have hlt := Nat.mod_lt i (show 0 < dest - first by omega)
          have hmod : (i + 1) % (dest - first) = (i % (dest - first) + 1) % (dest - first) := by
            rw [Nat.mod_add_mod]
          rw [Nat.add_sub_add_right, Nat.add_right_comm dest] at hcopied
          refine hcopied.trans ?_
          rw [hmod]
          rcases Nat.lt_or_ge (i % (dest - first) + 1) (dest - first) with hmore | hlast
          · rw [List.getElem?_set_ne (by omega), Nat.mod_eq_of_lt hmore, Nat.add_assoc,
              Nat.add_comm 1]
          · -- The period ends here: the element read is the first one, which lies at `dest` now.
            have hwhole : i % (dest - first) + 1 = dest - first := by omega
            have hplace : first + 1 + i % (dest - first) = dest := by omega
            rw [hwhole, Nat.mod_self, hplace, List.getElem?_set_self hroom, Nat.add_zero, hget]

end Cooper.Region

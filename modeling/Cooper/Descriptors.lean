import Mathlib.Data.List.Basic
import Mathlib.Logic.Function.Basic

namespace Cooper.Descriptors

variable {α : Type*} {t t' : List (Option α)} {fd fd' : Nat} {a b : α}

def holder (t : List (Option α)) (fd : Nat) : Option α := t[fd]?.join

def Free (t : List (Option α)) (fd : Nat) : Prop := t[fd]? = some none

def take (t : List (Option α)) (fd : Nat) (a : α) : List (Option α) := t.set fd (some a)

def close (t : List (Option α)) (fd : Nat) : List (Option α) := t.set fd none

def lowest (t : List (Option α)) : Option Nat := t.findIdx? Option.isNone

theorem lowest_free (h : lowest t = some fd) : Free t fd := by
  obtain ⟨hlt, hnone, -⟩ := List.findIdx?_eq_some_iff_getElem.mp h
  rw [Free, List.getElem?_eq_getElem hlt, Option.isNone_iff_eq_none.mp hnone]

theorem lowest_eq_none_iff : lowest t = none ↔ ∀ fd, ¬Free t fd := by
  rw [lowest, List.findIdx?_eq_none_iff]
  constructor
  · intro h fd hfree
    have := h none (List.mem_of_getElem? hfree)
    cases this
  · intro h place hmem
    obtain ⟨fd, hlt, rfl⟩ := List.mem_iff_getElem.mp hmem
    cases hplace : t[fd] with
    | none => exact absurd (List.getElem?_eq_some_iff.mpr ⟨hlt, hplace⟩) (h fd)
    | some a => rfl

theorem Free.lowest (h : Free t fd) : ∃ fd', lowest t = some fd' := by
  cases hlowest : Descriptors.lowest t with
  | none => exact absurd h (lowest_eq_none_iff.mp hlowest fd)
  | some fd' => exact ⟨fd', rfl⟩

instance (t : List (Option α)) : Decidable (∃ fd, Free t fd) :=
  decidable_of_iff ((lowest t).isSome) (by
    rw [Option.isSome_iff_exists]
    exact ⟨fun ⟨fd, h⟩ => ⟨fd, lowest_free h⟩, fun ⟨_, h⟩ => h.lowest⟩)

theorem Free.holder (h : Free t fd) : holder t fd = none := by
  rw [Descriptors.holder, show t[fd]? = some none from h]
  rfl

theorem holder_eq_some_iff : holder t fd = some a ↔ t[fd]? = some (some a) := by
  rw [holder, Option.join_eq_some_iff]

theorem Free.lt (h : Free t fd) : fd < t.length := (List.getElem?_eq_some_iff.mp h).1

theorem lt_of_holder (h : holder t fd = some a) : fd < t.length :=
  (List.getElem?_eq_some_iff.mp (holder_eq_some_iff.mp h)).1

theorem holder_take (h : fd < t.length) (fd' : Nat) :
    holder (take t fd a) fd' = if fd' = fd then some a else holder t fd' := by
  rw [holder, holder, take, List.getElem?_set]
  grind

theorem holder_close (t : List (Option α)) (fd fd' : Nat) :
    holder (close t fd) fd' = if fd' = fd then none else holder t fd' := by
  rw [holder, holder, close, List.getElem?_set]
  grind

theorem free_close (h : fd < t.length) (fd' : Nat) :
    Free (close t fd) fd' ↔ fd' = fd ∨ Free t fd' := by
  rw [Free, Free, close, List.getElem?_set]
  grind

theorem take_close (h : holder t fd = some a) : take (close t fd) fd a = t := by
  have hplace := holder_eq_some_iff.mp h
  rw [take, close, List.set_set]
  exact List.ext_getElem? fun i => by grind

theorem lowest_close (h : holder t fd = some a) (hfull : lowest t = none) :
    lowest (close t fd) = some fd := by
  obtain ⟨fd', hfd'⟩ := ((free_close (lt_of_holder h) fd).mpr (.inl rfl)).lowest
  rcases (free_close (lt_of_holder h) fd').mp (lowest_free hfd') with rfl | hfree
  · exact hfd'
  · exact absurd hfree (lowest_eq_none_iff.mp hfull fd')

section Owns

variable [DecidableEq α] {ours : α → Prop} {o : α → Option Nat}

/-- Of the holders that are `ours`, each has the one descriptor that `o` tells. -/
def Owns (ours : α → Prop) (t : List (Option α)) (o : α → Option Nat) : Prop :=
  ∀ a, ours a → ∀ fd, holder t fd = some a ↔ o a = some fd

theorem Owns.take (h : Owns ours t o) (hfree : Free t fd) (ha : o a = none) :
    Owns ours (take t fd a) (Function.update o a (some fd)) := by
  intro b hb fd'
  have hfd := h b hb fd
  rw [hfree.holder] at hfd
  have hfd' := h b hb fd'
  rw [holder_take hfree.lt, Function.update_apply]
  grind

omit [DecidableEq α] in
theorem Owns.take_other (h : Owns ours t o) (hfree : Free t fd) (ha : ¬ours a) :
    Owns ours (Descriptors.take t fd a) o := by
  intro b hb fd'
  have hne : a ≠ b := by
    rintro rfl
    exact ha hb
  have hfd := h b hb fd
  rw [hfree.holder] at hfd
  have hfd' := h b hb fd'
  rw [holder_take hfree.lt]
  grind

theorem Owns.close (h : Owns ours t o) (ha : ours a) (hfd : o a = some fd) :
    Owns ours (close t fd) (Function.update o a none) := by
  intro b hb fd'
  have hfda := (h a ha fd).mpr hfd
  have hfdb := h b hb fd
  have hfd' := h b hb fd'
  rw [holder_close, Function.update_apply]
  grind

omit [DecidableEq α] in
theorem Owns.close_other (h : Owns ours t o) (hholder : holder t fd = some a) (ha : ¬ours a) :
    Owns ours (Descriptors.close t fd) o := by
  intro b hb fd'
  have hne : a ≠ b := by
    rintro rfl
    exact ha hb
  have hfdb := h b hb fd
  have hfd' := h b hb fd'
  rw [holder_close]
  grind

theorem Owns.give (h : Owns ours t o) (ha : ours a) (hfd : o a = some fd) (hb : ¬ours b) :
    Owns ours (Descriptors.take t fd b) (Function.update o a none) := by
  intro c hc fd'
  have hne : b ≠ c := by
    rintro rfl
    exact hb hc
  have hfda := (h a ha fd).mpr hfd
  have hfdc := h c hc fd
  have hfd' := h c hc fd'
  rw [holder_take (lt_of_holder hfda), Function.update_apply]
  grind

end Owns

end Cooper.Descriptors

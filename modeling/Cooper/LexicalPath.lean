import Mathlib.Data.List.Basic
import Mathlib.Data.List.TakeWhile
import Mathlib.Tactic.Common

namespace Cooper.LexicalPath

variable {α : Type*} [DecidableEq α]

def names (sep : α) (path : List α) : List (List α) := path.splitOn sep

def Ordinary (dot : α) (name : List α) : Prop := name ≠ [] ∧ name ≠ [dot] ∧ name ≠ [dot, dot]

instance (dot : α) : DecidablePred (Ordinary dot) := fun name => by
  unfold Ordinary
  infer_instance

/-- Follow a name. `dirs` are the directories below the starting point, innermost first; the result
is `none` when the name leads above it. -/
def enter (dot : α) (dirs : List (List α)) (name : List α) : Option (List (List α)) :=
  if name = [dot, dot] then
    match dirs with
    | [] => none
    | _ :: dirs => some dirs
  else if Ordinary dot name then some (name :: dirs)
  else some dirs

def resolve (dot : α) (dirs names : List (List α)) : Option (List (List α)) :=
  names.foldlM (enter dot) dirs

/-- The resolution of the path never goes above its starting point. -/
def StaysBelow (sep dot : α) (path : List α) : Prop :=
  (resolve dot [] (names sep path)).isSome

def ups (dot : α) (names : List (List α)) : Nat := names.countP (· = [dot, dot])

def downs (dot : α) (names : List (List α)) : Nat := names.countP (fun name => Ordinary dot name)

section Resolve

variable {dot : α}

theorem enter_up_nil : enter dot [] [dot, dot] = none := if_pos rfl

theorem enter_up_cons (dir : List α) (dirs : List (List α)) :
    enter dot (dir :: dirs) [dot, dot] = some dirs := if_pos rfl

theorem enter_down {name : List α} (hname : Ordinary dot name) (dirs : List (List α)) :
    enter dot dirs name = some (name :: dirs) := by
  unfold enter
  rw [if_neg hname.2.2, if_pos hname]

theorem enter_stay {name : List α} (hup : name ≠ [dot, dot]) (hname : ¬Ordinary dot name)
    (dirs : List (List α)) : enter dot dirs name = some dirs := by
  unfold enter
  rw [if_neg hup, if_neg hname]

theorem enter_nil (dirs : List (List α)) : enter dot dirs [] = some dirs :=
  enter_stay (by simp) (fun h => h.1 rfl) dirs

theorem resolve_cons (dirs : List (List α)) (name : List α) (names : List (List α)) :
    resolve dot dirs (name :: names) =
      (enter dot dirs name).bind fun dirs => resolve dot dirs names := by
  rw [resolve, List.foldlM_cons]
  rfl

theorem resolve_append (dirs before behind : List (List α)) :
    resolve dot dirs (before ++ behind) =
      (resolve dot dirs before).bind fun dirs => resolve dot dirs behind := by
  rw [resolve, List.foldlM_append]
  rfl

@[simp] theorem resolve_nil_cons (dirs names : List (List α)) :
    resolve dot dirs ([] :: names) = resolve dot dirs names := by
  rw [resolve_cons, enter_nil]
  rfl

theorem forall_prefix_cons_iff {β : Type*} {p : List β → Prop} (hempty : p []) {name : β}
    {names : List β} : (∀ front, front <+: name :: names → p front) ↔
      ∀ front, front <+: names → p (name :: front) := by
  constructor
  · intro hall front hfront
    exact hall (name :: front) (List.cons_prefix_cons.mpr ⟨rfl, hfront⟩)
  · intro hall front hfront
    cases front with
    | nil => exact hempty
    | cons name' front =>
        obtain ⟨rfl, hrest⟩ := List.cons_prefix_cons.mp hfront
        exact hall front hrest

theorem resolve_isSome_iff (dirs names : List (List α)) :
    (resolve dot dirs names).isSome ↔
      ∀ front, front <+: names → ups dot front ≤ dirs.length + downs dot front := by
  induction names generalizing dirs with
  | nil =>
      refine iff_of_true rfl fun front hfront => ?_
      rw [List.prefix_nil.mp hfront]
      exact Nat.zero_le _
  | cons name names ih =>
      have hempty : ups dot [] ≤ dirs.length + downs dot [] := Nat.zero_le _
      rw [forall_prefix_cons_iff hempty, resolve_cons]
      rcases eq_or_ne name [dot, dot] with rfl | hup
      · have hups : ∀ front, ups dot ([dot, dot] :: front) = ups dot front + 1 := by
          simp [ups]
        have hdowns : ∀ front, downs dot ([dot, dot] :: front) = downs dot front := by
          simp [downs, Ordinary]
        cases dirs with
        | nil =>
            refine iff_of_false (by simp [enter_up_nil]) fun hall => ?_
            have hfirst := hall [] List.nil_prefix
            rw [hups, hdowns] at hfirst
            exact absurd hfirst (by simp [downs])
        | cons dir dirs =>
            rw [enter_up_cons, Option.bind_some, ih]
            refine forall_congr' fun front => imp_congr_right fun _ => ?_
            rw [hups, hdowns, List.length_cons]
            omega
      · have hups : ∀ front, ups dot (name :: front) = ups dot front := by
          simp [ups, hup]
        by_cases hdown : Ordinary dot name
        · have hdowns : ∀ front, downs dot (name :: front) = downs dot front + 1 := by
            simp [downs, hdown]
          rw [enter_down hdown, Option.bind_some, ih]
          refine forall_congr' fun front => imp_congr_right fun _ => ?_
          rw [hups, hdowns, List.length_cons]
          omega
        · have hdowns : ∀ front, downs dot (name :: front) = downs dot front := by
            simp [downs, hdown]
          rw [enter_stay hup hdown, Option.bind_some, ih]
          refine forall_congr' fun front => imp_congr_right fun _ => ?_
          rw [hups, hdowns]

end Resolve

section Names

variable {sep dot : α}

theorem names_sep_cons (path : List α) : names sep (sep :: path) = [] :: names sep path := by
  rw [names, List.splitOn_cons_eq_if_modifyHead, if_pos (by simp)]
  rfl

theorem names_append_sep (before behind : List α) :
    names sep (before ++ sep :: behind) = names sep before ++ names sep behind :=
  List.splitOn_append_cons_self before behind

theorem names_of_notMem {path : List α} (hfree : sep ∉ path) : names sep path = [path] :=
  List.splitOn_eq_singleton hfree

theorem resolve_dropWhile (sep : α) (dirs : List (List α)) (path : List α) :
    resolve dot dirs (names sep (path.dropWhile (· = sep))) = resolve dot dirs (names sep path) := by
  induction path with
  | nil => rfl
  | cons c path ih =>
      rcases eq_or_ne c sep with rfl | hc
      · rw [List.dropWhile_cons_of_pos (by simp), ih, names_sep_cons, resolve_nil_cons]
      · rw [List.dropWhile_cons_of_neg (by simpa using hc)]

theorem resolve_takeWhile (dirs : List (List α)) (path : List α) :
    resolve dot dirs (names sep path) =
      (enter dot dirs (path.takeWhile (· ≠ sep))).bind fun dirs =>
        resolve dot dirs (names sep (path.dropWhile (· ≠ sep))) := by
  have hfree : sep ∉ path.takeWhile (· ≠ sep) := fun hmem => by
    simpa using List.mem_takeWhile_imp hmem
  have hstop := List.head?_dropWhile_not (fun c => decide (c ≠ sep)) path
  have hsplit : path.takeWhile (· ≠ sep) ++ path.dropWhile (· ≠ sep) = path :=
    List.takeWhile_append_dropWhile
  revert hfree hstop hsplit
  generalize path.takeWhile (· ≠ sep) = name
  generalize path.dropWhile (· ≠ sep) = rest
  intro hfree hstop hsplit
  rw [← hsplit]
  cases rest with
  | nil =>
      rw [List.append_nil, names_of_notMem hfree, resolve_cons]
      simp [names, resolve, enter_nil]
  | cons c rest =>
      obtain rfl : c = sep := by simpa using hstop
      rw [names_append_sep, names_of_notMem hfree, List.singleton_append, resolve_cons,
        names_sep_cons]
      simp

theorem enter_of_ne_up {name : List α} (hup : name ≠ [dot, dot]) (dirs : List (List α)) :
    ∃ dirs', enter dot dirs name = some dirs' := by
  by_cases hdown : Ordinary dot name
  · exact ⟨_, enter_down hdown dirs⟩
  · exact ⟨_, enter_stay hup hdown dirs⟩

theorem StaysBelow.append_name {path name : List α} (hpath : StaysBelow sep dot (path ++ [sep]))
    (hfree : sep ∉ name) (hup : name ≠ [dot, dot]) : StaysBelow sep dot (path ++ sep :: name) := by
  have hbefore : (resolve dot [] (names sep path)).isSome := by
    rw [StaysBelow, names_append_sep, resolve_append, Option.isSome_bind,
      Option.any_eq_true_iff_get] at hpath
    exact hpath.choose
  obtain ⟨dirs, hdirs⟩ := Option.isSome_iff_exists.mp hbefore
  obtain ⟨dirs', hdirs'⟩ := enter_of_ne_up hup dirs
  rw [StaysBelow, names_append_sep, names_of_notMem hfree, resolve_append, hdirs,
    Option.bind_some, resolve_cons, hdirs']
  rfl

end Names

end Cooper.LexicalPath

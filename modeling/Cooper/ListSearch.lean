import Mathlib.Data.List.Infix

namespace Cooper.ListSearch

theorem exists_tail_of_isPrefix {α : Type*} {front rest hay : List α} (hstart : hay <+: front ++ rest)
    (hlength : front.length ≤ hay.length) : ∃ tail, hay = front ++ tail ∧ tail <+: rest := by
  obtain ⟨tail, rfl⟩ := List.prefix_of_prefix_length_le (List.prefix_append front rest) hstart hlength
  exact ⟨tail, rfl, (List.prefix_append_right_inj front).mp hstart⟩

variable {α : Type*} [DecidableEq α]

def search (needle : List α) : List α → Option Nat
  | [] => if needle = [] then some 0 else none
  | a :: hay =>
      if needle <+: a :: hay then some 0
      else (search needle hay).map (· + 1)

theorem search_eq_some_iff {needle hay : List α} {i : Nat} :
    search needle hay = some i ↔
      i ≤ hay.length ∧ needle <+: hay.drop i ∧ ∀ j < i, ¬ needle <+: hay.drop j := by
  induction hay generalizing i with
  | nil =>
      simp only [search, List.drop_nil, List.prefix_nil, List.length_nil, Nat.le_zero_eq]
      split <;> rename_i hneedle
      · simp only [Option.some.injEq, hneedle, not_true_eq_false]
        constructor
        · rintro rfl
          exact ⟨rfl, trivial, by simp⟩
        · rintro ⟨rfl, -, -⟩
          rfl
      · simp [hneedle]
  | cons a hay ih =>
      simp only [search]
      split <;> rename_i hstart
      · constructor
        · intro h
          obtain rfl : 0 = i := by simpa using h
          exact ⟨by simp, hstart, by simp⟩
        · rintro ⟨-, -, hfirst⟩
          cases i with
          | zero => rfl
          | succ i => exact absurd hstart (hfirst 0 (by omega))
      · simp only [Option.map_eq_some_iff, ih]
        constructor
        · rintro ⟨k, ⟨hk, hat, hfirst⟩, rfl⟩
          refine ⟨by simpa using hk, hat, ?_⟩
          intro j hj
          cases j with
          | zero => exact hstart
          | succ j => exact hfirst j (by omega)
        · rintro ⟨hi, hat, hfirst⟩
          cases i with
          | zero => exact absurd hat hstart
          | succ i =>
              exact ⟨i, ⟨by simpa using hi, hat, fun j hj => hfirst (j + 1) (by omega)⟩, rfl⟩

theorem search_eq_none_iff {needle hay : List α} :
    search needle hay = none ↔ ¬ needle <:+: hay := by
  induction hay with
  | nil =>
      simp only [search, List.infix_nil]
      split <;> simp_all
  | cons a hay ih =>
      simp only [search, List.infix_cons_iff, not_or]
      split <;> simp_all

theorem eq_append_of_search {needle hay : List α} {i : Nat}
    (h : search needle hay = some i) :
    hay = hay.take i ++ needle ++ hay.drop (i + needle.length) := by
  obtain ⟨hi, ⟨rest, hrest⟩, -⟩ := search_eq_some_iff.mp h
  rw [List.append_assoc, ← List.drop_drop, ← hrest, List.drop_left, hrest, List.take_append_drop]

theorem add_length_le_of_search {needle hay : List α} {i : Nat}
    (h : search needle hay = some i) : i + needle.length ≤ hay.length := by
  obtain ⟨hi, hat, -⟩ := search_eq_some_iff.mp h
  have := hat.length_le
  rw [List.length_drop] at this
  omega

omit [DecidableEq α] in
theorem isPrefix_drop_append_iff {needle hay tail : List α} {j : Nat}
    (h : j + needle.length ≤ hay.length) :
    needle <+: (hay ++ tail).drop j ↔ needle <+: hay.drop j := by
  rw [List.drop_append_of_le_length (by omega)]
  constructor
  · intro hp
    exact List.prefix_of_prefix_length_le hp (List.prefix_append _ _)
      (by rw [List.length_drop]; omega)
  · intro hp
    exact hp.trans (List.prefix_append _ _)

theorem search_append_right {needle hay : List α} {i : Nat}
    (h : search needle hay = some i) (tail : List α) :
    search needle (hay ++ tail) = some i := by
  have hlen := add_length_le_of_search h
  obtain ⟨hi, hat, hfirst⟩ := search_eq_some_iff.mp h
  refine search_eq_some_iff.mpr ⟨by rw [List.length_append]; omega, ?_, ?_⟩
  · exact (isPrefix_drop_append_iff hlen).mpr hat
  · intro j hj
    rw [isPrefix_drop_append_iff (by omega)]
    exact hfirst j hj

theorem search_eq_map_search_drop {needle hay : List α} {n : Nat} (hn : n ≤ hay.length)
    (hno : ∀ j < n, ¬ needle <+: hay.drop j) :
    search needle hay = (search needle (hay.drop n)).map (· + n) := by
  induction n generalizing hay with
  | zero => simp
  | succ n ih =>
      cases hay with
      | nil => simp at hn
      | cons a hay =>
          rw [search, if_neg (by simpa using hno 0 (by omega)), List.drop_succ_cons,
            ih (by simpa using hn) fun j hj => hno (j + 1) (by omega)]
          cases search needle (hay.drop n) <;> simp; omega

/-- After an unsuccessful search all but the last `needle.length - 1` elements can be dropped:
whatever is appended, the first occurrence stays where it is. -/
theorem search_append_of_not_isInfix {needle hay : List α} {n : Nat}
    (hno : ¬ needle <:+: hay) (hn : n + needle.length ≤ hay.length + 1) (tail : List α) :
    search needle (hay ++ tail) = (search needle (hay.drop n ++ tail)).map (· + n) := by
  have hpos : 0 < needle.length := by
    rw [List.length_pos_iff]
    rintro rfl
    exact hno List.nil_infix
  have hlen : n ≤ (hay ++ tail).length := by
    rw [List.length_append]
    omega
  rw [search_eq_map_search_drop hlen, List.drop_append_of_le_length (by omega)]
  intro j hj
  rw [isPrefix_drop_append_iff (by omega)]
  intro hp
  exact hno (hp.isInfix.trans (List.drop_suffix j hay).isInfix)

section Guarded

variable {a : α} {s content : List α}

/-- A block whose first element does not occur again inside it cannot overlap itself, so behind a
content that is free of the block its first occurrence is at the end of the content. -/
theorem search_content_append (ha : a ∉ s) (hno : ¬ a :: s <:+: content) (rest : List α) :
    search (a :: s) (content ++ (a :: s) ++ rest) = some content.length := by
  refine search_eq_some_iff.mpr ⟨by simp, ?_, ?_⟩
  · rw [List.append_assoc, List.drop_left]
    exact List.prefix_append _ _
  · intro j hj hp
    by_cases hin : j + (a :: s).length ≤ content.length
    · rw [List.append_assoc, isPrefix_drop_append_iff hin] at hp
      exact hno (hp.isInfix.trans (List.drop_suffix j content).isInfix)
    · -- the occurrence reaches into the block: the block's first element is one of its tail
      have hlt : content.length - j < (a :: s).length := by omega
      have hget := hp.getElem hlt
      rw [List.getElem_drop] at hget
      have hidx : j + (content.length - j) = content.length := by omega
      simp only [hidx, List.append_assoc] at hget
      rw [List.getElem_append_right (le_refl _)] at hget
      simp only [Nat.sub_self, List.cons_append, List.getElem_cons_zero] at hget
      obtain ⟨k, hk⟩ : ∃ k, content.length - j = k + 1 := ⟨content.length - j - 1, by omega⟩
      simp only [hk, List.getElem_cons_succ] at hget
      exact ha (hget ▸ List.getElem_mem _)

theorem not_isInfix_of_isPrefix (ha : a ∉ s) (hno : ¬ a :: s <:+: content) {hay rest : List α}
    (hp : hay <+: content ++ (a :: s) ++ rest) (hlen : hay.length < content.length + (a :: s).length) :
    ¬ a :: s <:+: hay := by
  intro hin
  cases hfound : search (a :: s) hay with
  | none => exact search_eq_none_iff.mp hfound hin
  | some i =>
      obtain ⟨tail, htail⟩ := hp
      have hfull := search_append_right hfound tail
      rw [htail, search_content_append ha hno] at hfull
      have := add_length_le_of_search hfound
      simp only [Option.some.injEq] at hfull
      omega

end Guarded

end Cooper.ListSearch

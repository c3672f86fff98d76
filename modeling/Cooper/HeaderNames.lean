import Cooper.Http
import Mathlib.Data.Set.Basic

namespace Cooper.HeaderNames

open Cooper.Http
open Cooper.MsgBuffer
open Cooper.Utilities

def hash (stdHash : Bytes → UInt64) (str : Bytes) : UInt64 := stdHash (str.map tolower)

/-- `headers_.find(key)`: the entries carry their hash codes, and `ci` is asked after those. -/
def lookup (stdHash : Bytes → UInt64) (headers : Headers) (key : Bytes) : Option (Bytes × Bytes) :=
  List.find? (fun entry => hash stdHash key = hash stdHash entry.1 ∧ ci key entry.1) headers

def getHeaderValue (stdHash : Bytes → UInt64) (headers : Headers) (key : Bytes) : Bytes :=
  match lookup stdHash headers key with
  | none => []
  | some iter => iter.2

def Apart (s t : Bytes) : Prop :=
  s.length = t.length ∧ ∀ pair ∈ s.zip t, tolower pair.1 ≠ tolower pair.2

/-- What `ci` really says: somewhere the names have the same character, or the first is shorter. -/
theorem ci_iff {s t : Bytes} :
    ci s t = true ↔ (∃ pair ∈ s.zip t, tolower pair.1 = tolower pair.2) ∨ s.length < t.length := by
  induction s generalizing t with
  | nil =>
      cases t with
      | nil => simp [ci]
      | cons b t => simp [ci]
  | cons a s ih =>
      cases t with
      | nil => simp [ci]
      | cons b t =>
          rw [ci]
          split
          · rename_i hab
            simp [hab]
          · rename_i hab
            rw [ih]
            simp [hab]

theorem Apart.of_ci {s t : Bytes} (hst : ci s t = false) (hts : ci t s = false) : Apart s t := by
  rw [Bool.eq_false_iff, ne_eq, ci_iff, not_or] at hst hts
  refine ⟨by omega, fun pair hpair heq => hst.1 ⟨pair, hpair, heq⟩⟩

theorem Apart.ci_eq_false {s t : Bytes} (h : Apart s t) : ci s t = false := by
  rw [Bool.eq_false_iff, ne_eq, ci_iff]
  rintro (⟨pair, hpair, heq⟩ | hlt)
  · exact h.2 pair hpair heq
  · exact absurd h.1 hlt.ne

theorem ci_of_map_eq {s t : Bytes} (hs : s ≠ []) (h : s.map tolower = t.map tolower) :
    ci s t = true := by
  cases s with
  | nil => exact absurd rfl hs
  | cons a s =>
      cases t with
      | nil => simp at h
      | cons b t =>
          rw [List.map_cons, List.map_cons, List.cons.injEq] at h
          rw [ci, if_pos h.1]

theorem hash_eq_of_map_eq (stdHash : Bytes → UInt64) {s t : Bytes}
    (h : s.map tolower = t.map tolower) : hash stdHash s = hash stdHash t :=
  congrArg stdHash h

theorem ci_of_lookup {stdHash : Bytes → UInt64} {headers : Headers} {key : Bytes}
    {entry : Bytes × Bytes} (h : lookup stdHash headers key = some entry) :
    entry ∈ headers ∧ ci key entry.1 = true := by
  refine ⟨List.mem_of_find?_eq_some h, ?_⟩
  have hfound := List.find?_some h
  rw [decide_eq_true_eq] at hfound
  exact hfound.2

/-- Where the hash codes tell the names of the table from the key, `ci` decides nothing: the lookup
is the one of `Headers.find`. -/
theorem lookup_of_separates {stdHash : Bytes → UInt64} {headers : Headers} {key : Bytes}
    (hseparates : ∀ entry ∈ headers, hash stdHash key = hash stdHash entry.1 →
      key.map tolower = entry.1.map tolower) :
    (lookup stdHash headers key).map Prod.snd = headers.find key := by
  rw [lookup, Headers.find]
  congr 1
  induction headers with
  | nil => rfl
  | cons entry headers ih =>
      have hhead : decide (hash stdHash key = hash stdHash entry.1 ∧ ci key entry.1 = true) =
          sameKey key entry.1 := by
        rw [sameKey, decide_eq_decide]
        constructor
        · rintro ⟨hhash, hci⟩
          exact ⟨hseparates entry List.mem_cons_self hhash, hci⟩
        · rintro ⟨hmap, hci⟩
          exact ⟨hash_eq_of_map_eq stdHash hmap, hci⟩
      rw [List.find?_cons, List.find?_cons, hhead]
      rw [ih fun entry hentry => hseparates entry (List.mem_cons_of_mem _ hentry)]

/-- On the names of a set, `ci` is the equality of names up to case, `hash` agrees with it, and no
lookup answers the entry of another name, whatever the standard library's hash is. -/
structure ComparesNames (names : Set Bytes) : Prop where
  refl : ∀ s ∈ names, ci s s = true
  symm : ∀ s ∈ names, ∀ t ∈ names, ci s t = true → ci t s = true
  trans : ∀ s ∈ names, ∀ t ∈ names, ∀ u ∈ names, ci s t = true → ci t u = true → ci s u = true
  ci_iff_map : ∀ s ∈ names, ∀ t ∈ names, ci s t = true ↔ s.map tolower = t.map tolower
  hash_eq : ∀ (stdHash : Bytes → UInt64), ∀ s ∈ names, ∀ t ∈ names, ci s t = true →
    hash stdHash s = hash stdHash t
  lookup_same : ∀ (stdHash : Bytes → UInt64) (headers : Headers) (key : Bytes)
    (entry : Bytes × Bytes), key ∈ names → (∀ entry ∈ headers, entry.1 ∈ names) →
    lookup stdHash headers key = some entry → key.map tolower = entry.1.map tolower

theorem ComparesNames.of_ci_iff {names : Set Bytes}
    (h : ∀ s ∈ names, ∀ t ∈ names, ci s t = true ↔ s.map tolower = t.map tolower) :
    ComparesNames names where
  refl := fun s hs => (h s hs s hs).mpr rfl
  symm := fun s hs t ht hst => (h t ht s hs).mpr ((h s hs t ht).mp hst).symm
  trans := fun s hs t ht u hu hst htu =>
    (h s hs u hu).mpr (((h s hs t ht).mp hst).trans ((h t ht u hu).mp htu))
  ci_iff_map := h
  hash_eq := fun stdHash s hs t ht hst => hash_eq_of_map_eq stdHash ((h s hs t ht).mp hst)
  lookup_same := fun stdHash headers key entry hkey hnames hlookup => by
    obtain ⟨hentry, hci⟩ := ci_of_lookup hlookup
    exact (h key hkey entry.1 (hnames entry hentry)).mp hci

/-- The functors compare the names of a set exactly when the empty name is not among them and any
two that differ in more than case are apart at every position. -/
theorem comparesNames_iff (names : Set Bytes) :
    ComparesNames names ↔
      [] ∉ names ∧
        ∀ s ∈ names, ∀ t ∈ names, s.map tolower ≠ t.map tolower → Apart s t := by
  constructor
  · intro h
    constructor
    · intro hempty
      exact absurd (h.refl [] hempty) (by decide)
    · intro s hs t ht hne
      apply Apart.of_ci
      · rw [Bool.eq_false_iff, ne_eq, h.ci_iff_map s hs t ht]
        exact hne
      · rw [Bool.eq_false_iff, ne_eq, h.ci_iff_map t ht s hs]
        exact hne.symm
  · rintro ⟨hempty, hapart⟩
    apply ComparesNames.of_ci_iff
    intro s hs t ht
    constructor
    · intro hci
      by_contra hne
      rw [(hapart s hs t ht hne).ci_eq_false] at hci
      exact Bool.false_ne_true hci
    · intro hmap
      apply ci_of_map_eq _ hmap
      rintro rfl
      exact hempty hs

/-- `Accept` and `Age` begin alike, and a hash that is constant leaves it at that. -/
theorem not_comparesNames_univ :
    ¬ComparesNames Set.univ ∧
      lookup (fun _ => 0) [(ascii "Age", ascii "10")] (ascii "Accept") =
        some (ascii "Age", ascii "10") := by
  constructor
  · intro h
    exact absurd ((h.ci_iff_map (ascii "Accept") trivial (ascii "Age") trivial).mp (by decide))
      (by decide)
  · decide

end Cooper.HeaderNames

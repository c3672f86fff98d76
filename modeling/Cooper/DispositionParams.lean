import Cooper.MultipartEncoding
import Mathlib.Data.List.Nodup
import Mathlib.Data.List.Perm.Basic

namespace Cooper.DispositionParams

open Cooper.MsgBuffer
open Cooper.MultipartEncoding
open Cooper.Splitting (not_mem_of_mem_split split_joined subset_of_mem_split)
open Cooper.Utilities

/-- A key that is a token, and a value that can stand between double quotes on a header line. -/
structure DispositionParam where
  key : Bytes
  value : Bytes
  key_nonempty : key ≠ []
  key_token : ∀ c ∈ key, isSpaceOrTab c = false ∧ c ≠ 34 ∧ c ≠ 59 ∧ c ≠ 61 ∧ c ≠ 13 ∧ c ≠ 10
  value_quote : 34 ∉ value
  value_cr : 13 ∉ value
  value_lf : 10 ∉ value

def DispositionParam.text (p : DispositionParam) : Bytes := param p.key p.value

def DispositionParam.entry (p : DispositionParam) : Bytes × Bytes := (p.key, p.value)

def writeParams (ps : List DispositionParam) : Bytes :=
  List.intercalate (ascii "; ") (ps.map DispositionParam.text)

def RoundTrips (ps : List DispositionParam) : Prop :=
  (parseDispositionParams (writeParams ps)).Perm (ps.map DispositionParam.entry)

section Params

theorem eraseDups_of_nodup {l : List Bytes} (hl : l.Nodup) : l.eraseDups = l := by
  induction l with
  | nil => rfl
  | cons a l ih =>
      obtain ⟨ha, hl⟩ := List.nodup_cons.mp hl
      have hfilter : l.filter (fun b => !b == a) = l := by
        rw [List.filter_eq_self]
        intro b hb
        have hne : b ≠ a := by
          rintro rfl
          exact ha hb
        simpa using hne
      rw [List.eraseDups_cons, hfilter, ih hl]

theorem keyVal_value (pieces : List Bytes) :
    (keyVal pieces).2 = [] ∨ (keyVal pieces).2 ∈ pieces := by
  have hfold : ∀ (pieces : List Bytes) (acc : Bytes × Bytes),
      (pieces.foldl (fun acc piece => if acc.1 = [] then (piece, acc.2) else (acc.1, piece))
        acc).2 = acc.2 ∨
      (pieces.foldl (fun acc piece => if acc.1 = [] then (piece, acc.2) else (acc.1, piece))
        acc).2 ∈ pieces := by
    intro pieces
    induction pieces with
    | nil => exact fun _ => .inl rfl
    | cons piece pieces ih =>
        intro acc
        rw [List.foldl_cons]
        split
        · rcases ih (piece, acc.2) with hval | hmem
          · exact .inl hval
          · exact .inr (List.mem_cons_of_mem _ hmem)
        · rcases ih (acc.1, piece) with hpiece | hmem
          · rw [hpiece]
            exact .inr List.mem_cons_self
          · exact .inr (List.mem_cons_of_mem _ hmem)
  exact hfold pieces ([], [])

theorem trimDoubleQuotesCopy_subset (s : Bytes) : trimDoubleQuotesCopy s ⊆ s := by
  rw [trimDoubleQuotesCopy]
  split
  · exact fun c hc => List.mem_of_mem_drop (List.mem_of_mem_take hc)
  · exact List.Subset.refl s

theorem value_free {s key value : Bytes} (hentry : (key, value) ∈ parseDispositionParams s) :
    59 ∉ value ∧ 61 ∉ value := by
  rw [parseDispositionParams, List.mem_filterMap] at hentry
  obtain ⟨kv, hkv, hparsed⟩ := hentry
  have hpiece := List.mem_eraseDups.mp hkv
  simp only at hparsed
  split at hparsed
  · have hvalue : trimDoubleQuotesCopy (keyVal (split kv 61)).2 = value :=
      congrArg Prod.snd (Option.some.inj hparsed)
    have hsubset : value ⊆ (keyVal (split kv 61)).2 := by
      rw [← hvalue]
      exact trimDoubleQuotesCopy_subset _
    rcases keyVal_value (split kv 61) with hnil | hmem
    · rw [hnil] at hsubset
      have hempty := List.subset_nil.mp hsubset
      simp [hempty]
    · constructor
      · exact fun hc => not_mem_of_mem_split hpiece (subset_of_mem_split hmem (hsubset hc))
      · exact fun hc => not_mem_of_mem_split hmem (hsubset hc)
  · simp at hparsed

theorem DispositionParam.solid_key (p : DispositionParam) : Solid p.key where
  head := by
    obtain ⟨c, rest, hkey⟩ := List.exists_cons_of_ne_nil p.key_nonempty
    exact ⟨c, rest, hkey, (p.key_token c (by rw [hkey]; exact List.mem_cons_self)).1⟩
  last := ⟨p.key.dropLast, p.key.getLast p.key_nonempty,
    (List.dropLast_append_getLast p.key_nonempty).symm,
    (p.key_token _ (List.getLast_mem p.key_nonempty)).1⟩

theorem DispositionParam.not_mem_key (p : DispositionParam) :
    34 ∉ p.key ∧ 59 ∉ p.key ∧ 61 ∉ p.key :=
  ⟨fun hc => (p.key_token 34 hc).2.1 rfl, fun hc => (p.key_token 59 hc).2.2.1 rfl,
    fun hc => (p.key_token 61 hc).2.2.2.1 rfl⟩

theorem DispositionParam.key_of_text (p : DispositionParam) :
    p.text.takeWhile (· ≠ 61) = p.key := by
  have hkey : ∀ c ∈ p.key, decide (c ≠ 61) = true := by
    intro c hc
    exact decide_eq_true (p.key_token c hc).2.2.2.1
  rw [DispositionParam.text, param, List.takeWhile_append_of_pos hkey]
  simp

theorem nodup_text {ps : List DispositionParam} (hps : (ps.map DispositionParam.key).Nodup) :
    (ps.map DispositionParam.text).Nodup := by
  have hkeys : ps.map DispositionParam.key =
      (ps.map DispositionParam.text).map fun text => text.takeWhile (· ≠ 61) := by
    rw [List.map_map]
    exact List.map_congr_left fun p _ => p.key_of_text.symm
  rw [hkeys] at hps
  exact List.Nodup.of_map _ hps

theorem DispositionParam.trim_key (p : DispositionParam) : trimDoubleQuotesCopy p.key = p.key := by
  rw [trimDoubleQuotesCopy, if_neg]
  rintro ⟨-, hhead, -⟩
  exact p.not_mem_key.1 (List.mem_of_mem_head? hhead)

theorem parse_text (p : DispositionParam) (hvalue : 61 ∉ p.value) :
    (if (keyVal (split p.text 61)).1 ≠ [] then
      some (trimDoubleQuotesCopy (keyVal (split p.text 61)).1,
        trimDoubleQuotesCopy (keyVal (split p.text 61)).2)
      else none) = some p.entry := by
  rw [DispositionParam.text, keyVal_param p.solid_key p.not_mem_key.2.2 hvalue]
  simp only
  rw [if_pos p.key_nonempty, p.trim_key, trimDoubleQuotesCopy_quoted]
  rfl

theorem parseDispositionParams_write {ps : List DispositionParam}
    (hps : (ps.map DispositionParam.key).Nodup)
    (hfree : ∀ p ∈ ps, 59 ∉ p.value ∧ 61 ∉ p.value) :
    parseDispositionParams (writeParams ps) = ps.map DispositionParam.entry := by
  have hcores : ∀ core ∈ ps.map DispositionParam.text, Solid core ∧ 59 ∉ core := by
    intro core hcore
    obtain ⟨p, hp, rfl⟩ := List.mem_map.mp hcore
    exact ⟨param_solid p.solid_key p.value,
      not_mem_param p.not_mem_key.2.1 (by decide) (by decide) (hfree p hp).1⟩
  have hjoin : ascii "; " = [59, 32] := by decide
  rw [parseDispositionParams, writeParams, hjoin, split_joined hcores (by decide),
    eraseDups_of_nodup (nodup_text hps), List.filterMap_map, ← List.filterMap_eq_map]
  apply List.filterMap_congr
  intro p hp
  exact parse_text p (hfree p hp).2

/-- The parameters of a disposition come back exactly when no value holds a semicolon or an equality
sign. -/
theorem roundTrips_iff (ps : List DispositionParam)
    (hps : (ps.map DispositionParam.key).Nodup) :
    RoundTrips ps ↔ ∀ p ∈ ps, 59 ∉ p.value ∧ 61 ∉ p.value := by
  constructor
  · intro hround p hp
    have hentry : p.entry ∈ parseDispositionParams (writeParams ps) :=
      hround.mem_iff.mpr (List.mem_map_of_mem hp)
    exact value_free hentry
  · intro hfree
    rw [RoundTrips, parseDispositionParams_write hps hfree]

def nameParam : DispositionParam where
  key := ascii "name"
  value := ascii "upload"
  key_nonempty := by decide
  key_token := by decide
  value_quote := by decide
  value_cr := by decide
  value_lf := by decide

def plainFilenameParam : DispositionParam where
  key := ascii "filename"
  value := ascii "my notes.txt"
  key_nonempty := by decide
  key_token := by decide
  value_quote := by decide
  value_cr := by decide
  value_lf := by decide

def filenameParam : DispositionParam where
  key := ascii "filename"
  value := ascii "a;b.txt"
  key_nonempty := by decide
  key_token := by decide
  value_quote := by decide
  value_cr := by decide
  value_lf := by decide

theorem roundTrips_nameParam :
    ([nameParam, plainFilenameParam].map DispositionParam.key).Nodup ∧
      RoundTrips [nameParam, plainFilenameParam] :=
  ⟨by decide, (roundTrips_iff [nameParam, plainFilenameParam] (by decide)).mpr (by decide)⟩

theorem not_roundTrips_filenameParam :
    ([nameParam, filenameParam].map DispositionParam.key).Nodup ∧
      ¬RoundTrips [nameParam, filenameParam] := by
  constructor
  · decide
  · intro hround
    have hentry : filenameParam.entry ∈
        parseDispositionParams (writeParams [nameParam, filenameParam]) :=
      hround.mem_iff.mpr (List.mem_map_of_mem (by simp))
    exact (value_free hentry).1 (by decide)

end Params

end Cooper.DispositionParams

import Cooper.Segments
import Cooper.Utilities

namespace Cooper.Splitting

open Cooper.MsgBuffer
open Cooper.Region
open Cooper.Segments
open Cooper.Utilities (Blank Solid isSpaceOrTab)

section Functions

variable (s : Bytes)

/-- The first loop of `trim` on the range `s = [b, e)`. There is no result when a byte outside of
the range is read. -/
def trimLeft (left : Nat) : Option Nat :=
  if left < s.length then
    s[left]?.bind fun c => if isSpaceOrTab c then trimLeft (left + 1) else some left
  else some left
termination_by s.length - left

/-- The second loop. It is not told where the range ends. -/
def trimRight : (right : Nat) → Option Nat
  | 0 => some 0
  | right + 1 => s[right]?.bind fun c => if isSpaceOrTab c then trimRight right else some (right + 1)

def trim (left right : Nat) : Option (Nat × Nat) :=
  (trimLeft s left).bind fun left => (trimRight s right).map fun right => (left, right)

/-- `fn(&b[r.first], &b[r.second])`, unless nothing is left. -/
def callFn (r : Nat × Nat) : List (Nat × Nat) := if r.1 < r.2 then [r] else []

def splitLoop (d : UInt8) (i beg : Nat) : Option (List (Nat × Nat)) :=
  if i < s.length then
    s[i]?.bind fun c =>
      if c = d then
        (trim s beg i).bind fun r => (splitLoop d (i + 1) (i + 1)).map fun calls => callFn r ++ calls
      else splitLoop d (i + 1) beg
  else if i ≠ 0 then (trim s beg i).map callFn
  else some []
termination_by s.length - i

/-- The calls of `fn`. No caller has a null `e`, which stands for a string that ends with a NUL. -/
def split (d : UInt8) : Option (List (Nat × Nat)) := splitLoop s d 0 0

end Functions

section Reads

variable {s : Bytes}

theorem of_drop_eq_cons {c : UInt8} {rest : Bytes} {i : Nat} (h : s.drop i = c :: rest) :
    i < s.length ∧ s[i]? = some c ∧ s.drop (i + 1) = rest := by
  have hget : s[i]? = some c := by
    rw [← List.head?_drop, h, List.head?_cons]
  refine ⟨(List.getElem?_eq_some_iff.mp hget).1, hget, ?_⟩
  rw [← List.drop_drop, h, List.drop_one, List.tail_cons]

theorem trimLeft_eq {rest : Bytes} {left : Nat} (hrest : s.drop left = rest) :
    trimLeft s left = some (left + (rest.takeWhile isSpaceOrTab).length) := by
  induction rest generalizing left with
  | nil =>
      rw [trimLeft, if_neg (Nat.not_lt.mpr (List.drop_eq_nil_iff.mp hrest))]
      rfl
  | cons c rest ih =>
      obtain ⟨hlt, hget, hnext⟩ := of_drop_eq_cons hrest
      rw [trimLeft, if_pos hlt, hget, Option.bind_some]
      by_cases hc : isSpaceOrTab c
      · rw [if_pos hc, ih hnext, List.takeWhile_cons_of_pos hc, List.length_cons, Nat.add_assoc,
          Nat.add_comm 1]
      · rw [if_neg hc, List.takeWhile_cons_of_neg hc]
        rfl

theorem trimRight_eq {right : Nat} (hright : right ≤ s.length) :
    trimRight s right =
      some (right - ((s.take right).reverse.takeWhile isSpaceOrTab).length) := by
  induction right with
  | zero => rfl
  | succ right ih =>
      have hget : s[right]? = some s[right] := List.getElem?_eq_getElem hright
      rw [trimRight, hget, Option.bind_some, List.take_succ_eq_append_getElem hright,
        List.reverse_append, List.reverse_singleton, List.singleton_append]
      by_cases hc : isSpaceOrTab s[right]
      · rw [if_pos hc, ih (Nat.le_of_succ_le hright), List.takeWhile_cons_of_pos hc, List.length_cons,
          Nat.add_sub_add_right]
      · rw [if_neg hc, List.takeWhile_cons_of_neg hc]
        rfl

theorem trim_eq {left right : Nat} (hright : right ≤ s.length) :
    trim s left right = some (scan isSpaceOrTab left right s) := by
  rw [trim, trimLeft_eq rfl, trimRight_eq hright]
  rfl

theorem callFn_scan {beg i : Nat} (hle : beg ≤ i) (hi : i ≤ s.length) :
    callFn (scan isSpaceOrTab beg i s) = extents isSpaceOrTab [(beg, region beg i s)] := by
  rw [callFn, extents, List.filterMap_cons, List.filterMap_nil]
  by_cases hnil : strip isSpaceOrTab (region beg i s) = []
  · have hle := scan_of_strip_eq_nil hle hi hnil
    simp [hnil, Nat.not_lt.mpr hle]
  · have hempty : (strip isSpaceOrTab (region beg i s)).isEmpty = false :=
      List.isEmpty_eq_false_iff.mpr hnil
    rw [if_pos ((scan_lt_iff hle hi).mpr hnil), scan_of_strip_ne_nil hle hi hnil]
    simp [hempty]

end Reads

section Loop

variable {s : Bytes} {d : UInt8}

theorem splitLoop_eq {rest : Bytes} {i beg : Nat} (hrest : s.drop i = rest) (hi : i ≤ s.length)
    (hbeg : beg ≤ i) (hfree : d ∉ region beg i s) :
    splitLoop s d i beg =
      some (extents isSpaceOrTab (place beg ((region beg i s ++ rest).splitOn d))) := by
  induction rest generalizing i beg with
  | nil =>
      have hend : s.length ≤ i := List.drop_eq_nil_iff.mp hrest
      have hplace : place beg ((region beg i s ++ []).splitOn d) = [(beg, region beg i s)] := by
        rw [List.append_nil, List.splitOn_eq_singleton hfree]
        rfl
      rw [splitLoop, if_neg (Nat.not_lt.mpr hend), hplace, ← callFn_scan hbeg hi]
      split
      · rw [trim_eq hi]
        rfl
      · -- The range is empty, and `trim` would find nothing in it.
        rename_i hzero
        obtain rfl : i = 0 := Decidable.not_not.mp hzero
        obtain rfl : beg = 0 := Nat.le_zero.mp hbeg
        rfl
  | cons c rest ih =>
      obtain ⟨hlt, hget, hnext⟩ := of_drop_eq_cons hrest
      rw [splitLoop, if_pos hlt, hget, Option.bind_some]
      by_cases hc : c = d
      · obtain rfl := hc
        have hlater := @ih (i + 1) (i + 1) hnext hlt le_rfl (by simp)
        have hplace : place beg ((region beg i s ++ c :: rest).splitOn c) =
            (beg, region beg i s) :: place (i + 1) (rest.splitOn c) := by
          rw [List.splitOn_append_cons_self_of_not_mem hfree, place, length_region hi,
            Nat.add_sub_of_le hbeg]
        rw [region_self, List.nil_append] at hlater
        rw [if_pos rfl, trim_eq hi, Option.bind_some, hlater, Option.map_some, callFn_scan hbeg hi,
          hplace, ← extents_append, List.singleton_append]
      · have hstep : region beg (i + 1) s = region beg i s ++ [c] := by
          rw [region, List.take_add_one, hget, List.drop_append_of_le_length]
          · rfl
          · rw [List.length_take, Nat.min_eq_left hi]
            exact hbeg
        have hfree' : d ∉ region beg (i + 1) s := by
          rw [hstep, List.mem_append, List.mem_singleton]
          rintro (hd | rfl)
          · exact hfree hd
          · exact hc rfl
        rw [if_neg hc, ih hnext hlt (Nat.le_succ_of_le hbeg) hfree', hstep, List.append_assoc,
          List.singleton_append]

theorem map_splitLoop {rest : Bytes} {i beg : Nat} (hrest : s.drop i = rest) (hi : i ≤ s.length) :
    (splitLoop s d i beg).map (fun calls => calls.map fun r => region r.1 r.2 s) =
      some (Utilities.splitLoop s d rest i beg) := by
  have hcall (beg i : Nat) : (callFn (scan isSpaceOrTab beg i s)).map (fun r => region r.1 r.2 s) =
      Utilities.splitPiece s beg i := by
    rw [Utilities.splitPiece, Utilities.trim, callFn, scan]
    simp only
    split
    · rw [List.map_singleton, region, List.drop_take]
    · rfl
  induction rest generalizing i beg with
  | nil =>
      rw [splitLoop, if_neg (Nat.not_lt.mpr (List.drop_eq_nil_iff.mp hrest)), Utilities.splitLoop]
      split
      · rw [trim_eq hi, Option.map_some, Option.map_some, hcall]
      · rfl
  | cons c rest ih =>
      obtain ⟨hlt, hget, hnext⟩ := of_drop_eq_cons hrest
      rw [splitLoop, if_pos hlt, hget, Option.bind_some, Utilities.splitLoop]
      split
      · obtain ⟨calls, hcalls, hlater⟩ := Option.map_eq_some_iff.mp (@ih (i + 1) (i + 1) hnext hlt)
        rw [trim_eq hi, Option.bind_some, hcalls, Option.map_some, Option.map_some, List.map_append,
          hcall, hlater]
      · exact ih hnext hlt

end Loop

section Range

variable (s : Bytes) (d : UInt8)

theorem split_eq : split s d = some (extents isSpaceOrTab (place 0 (s.splitOn d))) := by
  have hloop := @splitLoop_eq s d s 0 0 rfl (Nat.zero_le _) le_rfl (by simp)
  rwa [region_self, List.nil_append] at hloop

theorem map_region_split :
    (extents isSpaceOrTab (place 0 (s.splitOn d))).map (fun r => region r.1 r.2 s) =
      ((s.splitOn d).map (strip isSpaceOrTab)).filter fun segment => !segment.isEmpty :=
  map_region_extents (List.intercalate_splitOn d).symm

/-- `split` reads no byte outside of the range. It calls `fn` on the segments between the delimiters
in their order, where they lie without the blanks and tabs at their ends, and leaves out those of
which nothing is left. -/
theorem split_segments :
    ∃ calls, split s d = some calls ∧
      calls = extents isSpaceOrTab (place 0 (s.splitOn d)) ∧
      calls.map (fun r => region r.1 r.2 s) =
        ((s.splitOn d).map (strip isSpaceOrTab)).filter fun segment => !segment.isEmpty :=
  ⟨_, split_eq s d, rfl, map_region_split s d⟩

theorem strings_split :
    Utilities.split s d =
      ((s.splitOn d).map (strip isSpaceOrTab)).filter fun segment => !segment.isEmpty := by
  have hloop := @map_splitLoop s d s 0 0 rfl (Nat.zero_le _)
  rw [← split, split_eq, Option.map_some, map_region_split] at hloop
  exact (Option.some.inj hloop).symm

theorem trimCopy_eq : Utilities.trimCopy s = strip isSpaceOrTab s := by
  have hwhole : region 0 s.length s = s := by rw [region, List.take_length, List.drop_zero]
  have htrim : Utilities.trim s 0 s.length = scan isSpaceOrTab 0 s.length s := rfl
  rw [Utilities.trimCopy, htrim]
  by_cases hnil : strip isSpaceOrTab s = []
  · have hle := scan_of_strip_eq_nil (Nat.zero_le _) le_rfl (hwhole.symm ▸ hnil)
    rw [Nat.sub_eq_zero_of_le hle, List.take_zero, hnil]
  · have hscan := scan_of_strip_ne_nil (Nat.zero_le _) le_rfl (hwhole.symm ▸ hnil)
    rw [hscan, hwhole, ← List.drop_take]
    exact region_extent ((congrArg (region 0 · s) (Nat.zero_add _)).trans hwhole)

end Range

section Strings

variable {s : Bytes} {d : UInt8}

theorem not_mem_of_mem_split {piece : Bytes} (h : piece ∈ Utilities.split s d) : d ∉ piece := by
  rw [strings_split] at h
  obtain ⟨segment, hsegment, rfl⟩ := List.mem_map.mp (List.mem_of_mem_filter h)
  exact fun hd => (of_mem_splitOn hsegment).1 (strip_subset _ _ hd)

theorem subset_of_mem_split {piece : Bytes} (h : piece ∈ Utilities.split s d) : piece ⊆ s := by
  rw [strings_split] at h
  obtain ⟨segment, hsegment, rfl⟩ := List.mem_map.mp (List.mem_of_mem_filter h)
  exact List.Subset.trans (strip_subset _ _) (of_mem_splitOn hsegment).2

theorem split_padded {padded : List (Bytes × Bytes)}
    (hpadded : ∀ r ∈ padded, Blank r.1 ∧ Solid r.2 ∧ d ∉ r.1 ++ r.2) :
    Utilities.split ([d].intercalate (padded.map fun r => r.1 ++ r.2)) d = padded.map Prod.snd := by
  rcases eq_or_ne padded [] with rfl | hne
  · rfl
  · have hfree : ∀ segment ∈ padded.map (fun r => r.1 ++ r.2), d ∉ segment := by
      intro segment hsegment
      obtain ⟨r, hr, rfl⟩ := List.mem_map.mp hsegment
      exact (hpadded r hr).2.2
    have hstrip : ∀ r ∈ padded, strip isSpaceOrTab (r.1 ++ r.2) = r.2 := by
      intro r hr
      obtain ⟨hlead, hcore, -⟩ := hpadded r hr
      apply strip_append hlead
      · obtain ⟨c, rest, hfirst, hc⟩ := hcore.head
        rw [hfirst]
        intro a ha
        rwa [← Option.some.inj ha]
      · obtain ⟨front, c, hlast, hc⟩ := hcore.last
        rw [hlast, List.getLast?_concat]
        intro a ha
        rwa [← Option.some.inj ha]
    have hmap : padded.map (strip isSpaceOrTab ∘ fun r => r.1 ++ r.2) = padded.map Prod.snd :=
      List.map_congr_left hstrip
    rw [strings_split, List.splitOn_intercalate d hfree (by simpa using hne), List.map_map, hmap]
    apply List.filter_eq_self.mpr
    intro core hcore
    obtain ⟨r, hr, rfl⟩ := List.mem_map.mp hcore
    obtain ⟨c, rest, hfirst, -⟩ := (hpadded r hr).2.1.head
    rw [hfirst]
    rfl

theorem split_one {core : Bytes} (hcore : Solid core) (hd : d ∉ core) :
    Utilities.split core d = [core] := by
  have hpadded := @split_padded d [([], core)] (by simp [Blank.nil, hcore, hd])
  simpa using hpadded

theorem split_two {first lead second : Bytes} (hfirst : Solid first) (hd : d ∉ first)
    (hlead : Blank lead) (hsecond : Solid second) (hd' : d ∉ lead ++ second) :
    Utilities.split (first ++ d :: (lead ++ second)) d = [first, second] := by
  have hpadded := @split_padded d [([], first), (lead, second)]
    (by simpa [Blank.nil, hfirst, hd, hlead, hsecond] using hd')
  simpa using hpadded

theorem split_three {first second third : Bytes} (hfirst : Solid first)
    (hd : d ∉ first) (hsecond : Solid second) (hd' : d ∉ second) (hthird : Solid third)
    (hd'' : d ∉ third) :
    Utilities.split (first ++ d :: (second ++ d :: third)) d = [first, second, third] := by
  have hpadded := @split_padded d [([], first), ([], second), ([], third)]
    (by simp [Blank.nil, hfirst, hd, hsecond, hd', hthird, hd''])
  simpa using hpadded

theorem split_joined {cores : List Bytes} (hcores : ∀ core ∈ cores, Solid core ∧ d ∉ core)
    (hd : d ≠ 32) : Utilities.split (List.intercalate [d, 32] cores) d = cores := by
  have hjoin (core : Bytes) (cores : List Bytes) : List.intercalate [d, 32] (core :: cores) =
      List.intercalate [d] (core :: cores.map fun core => 32 :: core) := by
    induction cores generalizing core with
    | nil => rw [List.map_nil, List.intercalate_singleton, List.intercalate_singleton]
    | cons next cores ih =>
        rw [List.map_cons, List.intercalate_cons_cons, List.intercalate_cons_cons,
          List.intercalate_cons_cons_left, ← ih next]
        simp
  have hblank : Blank [32] := by decide
  cases cores with
  | nil => rfl
  | cons core cores =>
      have hpadded : ∀ r ∈ ([], core) :: cores.map (fun core => ([32], core)),
          Blank r.1 ∧ Solid r.2 ∧ d ∉ r.1 ++ r.2 := by
        intro r hr
        rcases List.mem_cons.mp hr with rfl | hmem
        · exact ⟨Blank.nil, hcores core List.mem_cons_self⟩
        · obtain ⟨core', hcore', rfl⟩ := List.mem_map.mp hmem
          obtain ⟨hsolid, hfree⟩ := hcores core' (List.mem_cons_of_mem _ hcore')
          refine ⟨hblank, hsolid, ?_⟩
          simpa [hd] using hfree
      have hsplit := split_padded hpadded
      rw [hjoin]
      simpa [Function.comp_def] using hsplit

end Strings

end Cooper.Splitting

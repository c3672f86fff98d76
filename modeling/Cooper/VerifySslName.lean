import Cooper.Utilities

namespace Cooper.VerifySslName

open Cooper.MsgBuffer

/-- The loop that goes over the first labels up to the `*`, from their beginning or from their
end. -/
def labelLoop : (certName hostname : Bytes) → Bool
  | c :: certName, h :: hostname =>
      if c = 42 then true else if h ≠ c then false else labelLoop certName hostname
  | _, _ => true

/-- The loop of the leading wildcard, from the ends on. It must come to the `*`, which is not part
of `certName` here. -/
def suffixLoop : (certName hostname : Bytes) → Bool
  | [], _ => true
  | _ :: _, [] => false
  | c :: certName, h :: hostname => if h ≠ c then false else suffixLoop certName hostname

/-- `idxOf` is the size of the string where `find` is `npos`. -/
def verifySslName (certName hostname : Bytes) : Bool :=
  if 42 ∉ certName then certName = hostname
  else
    let firstDot := certName.idxOf 46
    let hostFirstDot := hostname.idxOf 46
    let pos := if 46 ∈ certName then firstDot + 1 else certName.length
    let hostPos := if 46 ∈ hostname then hostFirstDot + 1 else hostname.length
    if certName.take firstDot = [42] then certName.drop pos = hostname.drop hostPos
    else if certName[0]? = some 42 then suffixLoop (certName.drop 1).reverse hostname.reverse
    else if firstDot ≠ 0 ∧ certName[firstDot - 1]? = some 42 then
      if certName.drop pos ≠ hostname.drop hostPos then false
      else labelLoop (certName.take firstDot) (hostname.take hostFirstDot)
    else
      if certName.drop pos ≠ hostname.drop hostPos then false
      else if labelLoop (certName.take firstDot) (hostname.take hostFirstDot) = false then false
      else labelLoop (certName.take firstDot).reverse (hostname.take hostFirstDot).reverse

def label (name : Bytes) : Bytes := name.takeWhile (· ≠ 46)

def parent (name : Bytes) : Bytes := (name.dropWhile (· ≠ 46)).drop 1

def beforeStar (certName : Bytes) : Bytes := certName.takeWhile (· ≠ 42)

def afterStar (certName : Bytes) : Bytes := (certName.dropWhile (· ≠ 42)).drop 1

/-- The `*` of the name is its only one, and it is in the left-most label. -/
def OneWildcard (certName : Bytes) : Prop := certName.count 42 = 1 ∧ 46 ∉ beforeStar certName

/-- `hostname` is `certName` with a string without a dot in place of the `*`. -/
def Substitutes (certName hostname : Bytes) : Prop :=
  ∃ x, 46 ∉ x ∧ hostname = beforeStar certName ++ x ++ afterStar certName

instance (certName : Bytes) : Decidable (OneWildcard certName) :=
  inferInstanceAs (Decidable (_ ∧ _))

theorem labelLoop_eq_true_iff {before : Bytes} (hbefore : 42 ∉ before) (after host : Bytes) :
    labelLoop (before ++ 42 :: after) host = true ↔ host <+: before ∨ before <+: host := by
  induction before generalizing host with
  | nil =>
      cases host with
      | nil => simp [labelLoop]
      | cons h host => simp [labelLoop]
  | cons c before ih =>
      simp only [List.mem_cons, not_or] at hbefore
      cases host with
      | nil => simp [labelLoop]
      | cons h host =>
          rw [List.cons_append, labelLoop, if_neg (Ne.symm hbefore.1)]
          split <;> rename_i hc
          · simp [List.cons_prefix_cons, hc, Ne.symm hc]
          · obtain rfl := not_not.mp hc
            simp [List.cons_prefix_cons, ih hbefore.2]

theorem suffixLoop_eq_true_iff (certName hostname : Bytes) :
    suffixLoop certName hostname = true ↔ certName <+: hostname := by
  induction certName generalizing hostname with
  | nil => simp [suffixLoop]
  | cons c certName ih =>
      cases hostname with
      | nil => simp [suffixLoop]
      | cons h hostname =>
          rw [suffixLoop]
          split <;> rename_i hc
          · simp [List.cons_prefix_cons, Ne.symm hc]
          · obtain rfl := not_not.mp hc
            simp [List.cons_prefix_cons, ih]

theorem take_idxOf (c : UInt8) (name : Bytes) :
    name.take (name.idxOf c) = name.takeWhile (· ≠ c) := by
  induction name with
  | nil => rfl
  | cons d name ih =>
      by_cases hd : d = c
      · simp [hd]
      · simp [List.idxOf_cons_ne _ hd, hd, ih]

theorem drop_idxOf (c : UInt8) (name : Bytes) :
    name.drop (name.idxOf c) = name.dropWhile (· ≠ c) := by
  apply List.append_cancel_left
  rw [List.takeWhile_append_dropWhile, ← take_idxOf, List.take_append_drop]

theorem take_firstDot (name : Bytes) : name.take (name.idxOf 46) = label name := take_idxOf 46 name

theorem drop_pos (name : Bytes) :
    name.drop (if 46 ∈ name then name.idxOf 46 + 1 else name.length) = parent name := by
  rw [parent, ← drop_idxOf, List.drop_drop]
  split <;> rename_i hdot
  · rfl
  · rw [List.idxOf_eq_length hdot, List.drop_length, List.drop_eq_nil_of_le (by omega)]

theorem label_append_parent (name : Bytes) :
    name = label name ++ if 46 ∈ name then 46 :: parent name else [] := by
  induction name with
  | nil => rfl
  | cons c name ih =>
      by_cases hc : c = 46
      · simp [label, parent, hc]
      · simp only [label, parent, ne_eq, List.takeWhile_cons, hc, not_false_eq_true, decide_true,
          if_true, List.dropWhile_cons, List.mem_cons, Ne.symm hc, false_or, List.cons_append,
          List.cons.injEq, true_and]
        exact ih

theorem not_mem_label (name : Bytes) : 46 ∉ label name := by
  intro hdot
  simpa using List.mem_takeWhile_imp hdot

theorem forall_ne_of_not_mem {c : UInt8} {s : Bytes} (hs : c ∉ s) :
    ∀ d ∈ s, decide (d ≠ c) = true := by
  intro d hd
  simp only [ne_eq, decide_eq_true_eq]
  rintro rfl
  exact hs hd

section Star

variable {before after : Bytes}

theorem beforeStar_append (hbefore : 42 ∉ before) :
    beforeStar (before ++ 42 :: after) = before := by
  rw [beforeStar, List.takeWhile_append_of_pos (forall_ne_of_not_mem hbefore)]
  simp

theorem afterStar_append (hbefore : 42 ∉ before) : afterStar (before ++ 42 :: after) = after := by
  rw [afterStar, List.dropWhile_append_of_pos (forall_ne_of_not_mem hbefore)]
  simp

theorem label_append (hbefore : 46 ∉ before) (rest : Bytes) :
    label (before ++ rest) = before ++ label rest :=
  List.takeWhile_append_of_pos (forall_ne_of_not_mem hbefore)

theorem parent_append (hbefore : 46 ∉ before) (rest : Bytes) :
    parent (before ++ rest) = parent rest := by
  rw [parent, List.dropWhile_append_of_pos (forall_ne_of_not_mem hbefore), parent]

theorem label_star (after : Bytes) : label (42 :: after) = 42 :: label after :=
  @label_append [42] (by decide) after

theorem parent_star (after : Bytes) : parent (42 :: after) = parent after :=
  @parent_append [42] (by decide) after

theorem not_mem_label_of_not_mem {c : UInt8} {name : Bytes} (hname : c ∉ name) : c ∉ label name :=
  fun hc => hname ((List.takeWhile_sublist _).mem hc)

theorem label_eq_star_iff (hdot : 46 ∉ before) :
    label (before ++ 42 :: after) = [42] ↔ before = [] ∧ label after = [] := by
  rw [label_append hdot, label_star]
  cases before with
  | nil => simp
  | cons c before => simp

theorem getElem?_zero_iff (hbefore : 42 ∉ before) :
    (before ++ 42 :: after)[0]? = some 42 ↔ before = [] := by
  cases before with
  | nil => simp
  | cons c before =>
      simp only [List.mem_cons, not_or] at hbefore
      simp [Ne.symm hbefore.1]

theorem label_last_iff (hdot : 46 ∉ before) (hafter : 42 ∉ after) :
    ((before ++ 42 :: after).idxOf 46 ≠ 0 ∧
      (before ++ 42 :: after)[(before ++ 42 :: after).idxOf 46 - 1]? = some 42) ↔
      label after = [] := by
  have hlabel : label (before ++ 42 :: after) = before ++ 42 :: label after := by
    rw [label_append hdot, label_star]
  have hlength : (before ++ 42 :: after).idxOf 46 = (label (before ++ 42 :: after)).length := by
    rw [← take_firstDot, List.length_take, Nat.min_eq_left List.idxOf_le_length]
  have hpos : (before ++ 42 :: after).idxOf 46 ≠ 0 := by
    rw [hlength, hlabel]
    simp
  have hlast : (before ++ 42 :: after)[(before ++ 42 :: after).idxOf 46 - 1]? =
      (label (before ++ 42 :: after)).getLast? := by
    rw [List.getLast?_eq_getElem?, ← hlength, ← take_firstDot, List.getElem?_take_of_lt]
    omega
  rw [hlast, hlabel]
  simp only [hpos, ne_eq, not_false_eq_true, true_and]
  constructor
  · intro h
    by_contra hne
    rw [List.getLast?_append_of_ne_nil _ (by simp), List.getLast?_cons_of_ne_nil hne] at h
    exact not_mem_label_of_not_mem hafter (List.mem_of_getLast? h)
  · intro h
    simp [h]

theorem verifySslName_leading (hafter : label after ≠ []) (hostname : Bytes) :
    verifySslName (42 :: after) hostname = true ↔ after <:+ hostname := by
  have hbare : ¬ (42 :: after).take ((42 :: after).idxOf 46) = [42] := by
    rw [take_firstDot]
    intro h
    exact hafter ((@label_eq_star_iff [] after (by simp)).mp h).2
  simp only [verifySslName, List.mem_cons, true_or, not_true_eq_false, if_false, hbare,
    List.getElem?_cons_zero, if_true, List.drop_succ_cons, List.drop_zero]
  rw [suffixLoop_eq_true_iff, List.reverse_prefix]

/-- What it compares otherwise: the labels of the host name behind the first, and the first label
as far as both names reach. -/
theorem verifySslName_label (hbefore : 42 ∉ before) (hdot : 46 ∉ before) (hafter : 42 ∉ after)
    (hlabel : before = [] → label after = []) (hostname : Bytes) :
    verifySslName (before ++ 42 :: after) hostname = true ↔
      parent after = parent hostname ∧
      (label hostname <+: before ∨ before <+: label hostname) ∧
      (label hostname <:+ label after ∨ label after <:+ label hostname) := by
  have hback : labelLoop (label (before ++ 42 :: after)).reverse (label hostname).reverse = true ↔
      label hostname <:+ label after ∨ label after <:+ label hostname := by
    have hreverse : (label (before ++ 42 :: after)).reverse =
        (label after).reverse ++ 42 :: before.reverse := by
      rw [label_append hdot, label_star]
      simp
    rw [hreverse, labelLoop_eq_true_iff (by simpa using not_mem_label_of_not_mem hafter),
      List.reverse_prefix, List.reverse_prefix]
  have hfront : labelLoop (label (before ++ 42 :: after)) (label hostname) = true ↔
      label hostname <+: before ∨ before <+: label hostname := by
    rw [label_append hdot, label_star, labelLoop_eq_true_iff hbefore]
  simp only [verifySslName, drop_pos, take_firstDot, parent_append hdot, parent_star]
  rw [if_neg (by simp)]
  split <;> rename_i hbare
  · -- the `*` is the whole label
    obtain ⟨rfl, hnil⟩ := (label_eq_star_iff hdot).mp hbare
    simp [hnil]
  · have hne : before ≠ [] := fun h => hbare ((label_eq_star_iff hdot).mpr ⟨h, hlabel h⟩)
    rw [if_neg (mt (getElem?_zero_iff hbefore).mp hne)]
    split <;> rename_i htrailing
    · have hnil := (label_last_iff hdot hafter).mp htrailing
      by_cases hparent : parent after = parent hostname
      · simp [hparent, hfront, hnil]
      · simp [hparent]
    · by_cases hparent : parent after = parent hostname
      · simp only [hparent, ne_eq, not_true_eq_false, if_false, true_and, ← hfront, ← hback]
        split <;> rename_i h
        · simp [h]
        · simp [h]
      · simp [hparent]

theorem substitutes_append (hbefore : 42 ∉ before) (hostname : Bytes) :
    Substitutes (before ++ 42 :: after) hostname ↔
      ∃ x, 46 ∉ x ∧ hostname = before ++ x ++ after := by
  rw [Substitutes, beforeStar_append hbefore, afterStar_append hbefore]

theorem substitutes_iff_label (hbefore : 42 ∉ before) (hdot : 46 ∉ before) (hostname : Bytes) :
    Substitutes (before ++ 42 :: after) hostname ↔
      parent after = parent hostname ∧ (46 ∈ after ↔ 46 ∈ hostname) ∧
      ∃ x, label hostname = before ++ x ++ label after := by
  rw [substitutes_append hbefore]
  constructor
  · rintro ⟨x, hx, rfl⟩
    have hfront : 46 ∉ before ++ x := by
      rw [List.mem_append]
      exact not_or.mpr ⟨hdot, hx⟩
    refine ⟨(parent_append hfront after).symm, ?_, x, label_append hfront after⟩
    rw [List.mem_append, or_iff_right hfront]
  · rintro ⟨hparent, hdots, x, hx⟩
    refine ⟨x, ?_, ?_⟩
    · intro h
      apply not_mem_label hostname
      rw [hx]
      simp [h]
    · rw [label_append_parent hostname, hx, ← hparent, List.append_assoc]
      congr 1
      conv_rhs => rw [label_append_parent after]
      simp only [hdots]

end Star

/-- Two strings that agree with the beginning and with the end of a third one, as far as they reach,
lie in it side by side when there is room for both. -/
theorem exists_between_iff (front host back : Bytes) :
    (∃ x, host = front ++ x ++ back) ↔
      (host <+: front ∨ front <+: host) ∧ (host <:+ back ∨ back <:+ host) ∧
        front.length + back.length ≤ host.length := by
  constructor
  · rintro ⟨x, rfl⟩
    refine ⟨Or.inr ?_, Or.inr (List.suffix_append _ _), ?_⟩
    · rw [List.append_assoc]
      exact List.prefix_append _ _
    · simp only [List.length_append]
      omega
  · rintro ⟨hfront, hback, hlength⟩
    have hprefix : front <+: host := by
      rcases hfront with h | h
      · rw [h.eq_of_length_le (by omega)]
      · exact h
    have hsuffix : back <:+ host := by
      rcases hback with h | h
      · rw [h.eq_of_length_le (by omega)]
      · exact h
    obtain ⟨rest, rfl⟩ := hprefix
    rw [List.length_append] at hlength
    obtain ⟨x, rfl⟩ := List.suffix_of_suffix_length_le hsuffix (List.suffix_append front rest)
      (by omega)
    exact ⟨x, by rw [List.append_assoc]⟩

/-- The `*` begins a longer label, and the host name ends like the name but has more dots. -/
def SpansLabels (certName hostname : Bytes) : Prop :=
  afterStar certName <:+ hostname ∧ certName.count 46 < hostname.count 46

/-- The names agree behind their first dots, and in their first labels as far as both reach; but the
label of the host name has no room for both sides of the `*`, or one of the names has no dot. -/
def LacksRoom (certName hostname : Bytes) : Prop :=
  parent certName = parent hostname ∧
    (label hostname <+: beforeStar certName ∨ beforeStar certName <+: label hostname) ∧
    (label hostname <:+ label (afterStar certName) ∨ label (afterStar certName) <:+ label hostname) ∧
    ((label hostname).length < (beforeStar certName).length + (label (afterStar certName)).length ∨
      ¬ (46 ∈ certName ↔ 46 ∈ hostname))

/-- The host names on which a match with a wildcard name is not a substitution. -/
def Mismatched (certName hostname : Bytes) : Prop :=
  if beforeStar certName = [] ∧ label (afterStar certName) ≠ [] then SpansLabels certName hostname
  else LacksRoom certName hostname

instance (certName hostname : Bytes) : Decidable (SpansLabels certName hostname) :=
  inferInstanceAs (Decidable (_ ∧ _))

instance (certName hostname : Bytes) : Decidable (LacksRoom certName hostname) :=
  inferInstanceAs (Decidable (_ ∧ _ ∧ _ ∧ _))

instance (certName hostname : Bytes) : Decidable (Mismatched certName hostname) :=
  inferInstanceAs (Decidable (ite _ _ _))

theorem substitutes_of_leading {after : Bytes} (hafter : label after ≠ []) (hostname : Bytes) :
    (verifySslName (42 :: after) hostname = true → Substitutes (42 :: after) hostname) ↔
      ¬ SpansLabels (42 :: after) hostname := by
  have hstar := @substitutes_append [] after (by simp) hostname
  have hbehind : afterStar (42 :: after) = after :=
    @afterStar_append [] after (by simp)
  rw [List.nil_append] at hstar
  rw [verifySslName_leading hafter, hstar, SpansLabels, hbehind]
  constructor
  · rintro h ⟨hsuffix, hdots⟩
    obtain ⟨x, hx, rfl⟩ := h hsuffix
    rw [List.nil_append, List.count_append, List.count_eq_zero_of_not_mem hx,
      List.count_cons_of_ne (by decide)] at hdots
    omega
  · rintro h ⟨x, rfl⟩
    refine ⟨x, ?_, rfl⟩
    intro hx
    have hpos := List.count_pos_iff.mpr hx
    apply h
    refine ⟨List.suffix_append _ _, ?_⟩
    rw [List.count_append, List.count_cons_of_ne (by decide)]
    omega

theorem substitutes_of_label {before after : Bytes} (hbefore : 42 ∉ before) (hdot : 46 ∉ before)
    (hafter : 42 ∉ after) (hlabel : before = [] → label after = []) (hostname : Bytes) :
    (verifySslName (before ++ 42 :: after) hostname = true →
        Substitutes (before ++ 42 :: after) hostname) ↔
      ¬ LacksRoom (before ++ 42 :: after) hostname := by
  have hdots : 46 ∈ before ++ 42 :: after ↔ 46 ∈ after := by
    simp [hdot]
  rw [verifySslName_label hbefore hdot hafter hlabel, substitutes_iff_label hbefore hdot,
    exists_between_iff, LacksRoom, beforeStar_append hbefore, afterStar_append hbefore,
    parent_append hdot, parent_star, hdots]
  constructor
  · rintro h ⟨hparent, hfront, hback, hroom⟩
    obtain ⟨-, hiff, -, -, hlength⟩ := h ⟨hparent, hfront, hback⟩
    rcases hroom with hroom | hroom
    · omega
    · exact hroom hiff
  · rintro h ⟨hparent, hfront, hback⟩
    by_contra hno
    apply h
    refine ⟨hparent, hfront, hback, ?_⟩
    by_contra hroom
    simp only [not_or, Nat.not_lt, not_not] at hroom
    exact hno ⟨hparent, hroom.2, hfront, hback, hroom.1⟩

theorem OneWildcard.exists_parts {certName : Bytes} (h : OneWildcard certName) :
    ∃ before after, certName = before ++ 42 :: after ∧ 42 ∉ before ∧ 42 ∉ after ∧
      46 ∉ before := by
  obtain ⟨hcount, hdot⟩ := h
  have hstar : 42 ∈ certName := List.count_pos_iff.mp (by omega)
  obtain ⟨before, after, rfl, hbefore⟩ := List.eq_append_cons_of_mem hstar
  rw [beforeStar_append hbefore] at hdot
  rw [List.count_append, List.count_eq_zero_of_not_mem hbefore, List.count_cons_self] at hcount
  exact ⟨before, after, rfl, hbefore, List.count_eq_zero.mp (by omega), hdot⟩

theorem verifySslName_substitutes_iff {certName : Bytes} (h : OneWildcard certName)
    (hostname : Bytes) :
    (verifySslName certName hostname = true → Substitutes certName hostname) ↔
      ¬ Mismatched certName hostname := by
  obtain ⟨before, after, rfl, hbefore, hafter, hdot⟩ := h.exists_parts
  rw [Mismatched, beforeStar_append hbefore, afterStar_append hbefore]
  split <;> rename_i hleading
  · obtain ⟨rfl, hlabel⟩ := hleading
    exact substitutes_of_leading hlabel hostname
  · apply substitutes_of_label hbefore hdot hafter
    intro hnil
    by_contra hlabel
    exact hleading ⟨hnil, hlabel⟩

theorem verifySslName_substitutes_foo :
    verifySslName (ascii "a*b.foo.com") (ascii "axb.foo.com") = true ∧
      Substitutes (ascii "a*b.foo.com") (ascii "axb.foo.com") :=
  ⟨by decide, (verifySslName_substitutes_iff (by decide) _).mpr (by decide) (by decide)⟩

/-- A leading wildcard reaches over a dot of the host name. -/
theorem verifySslName_not_substitutes :
    ¬ ∀ certName hostname, OneWildcard certName → verifySslName certName hostname = true →
      Substitutes certName hostname := by
  intro h
  obtain ⟨x, hx, heq⟩ := h (ascii "*foo.com") (ascii "a.bfoo.com") (by decide) (by decide)
  have hsplit : ascii "a.b" ++ ascii "foo.com" = x ++ ascii "foo.com" := heq
  obtain rfl := List.append_cancel_right hsplit
  exact hx (by decide)

theorem verifySslName_of_substitutes {certName hostname : Bytes} (h : OneWildcard certName)
    (hsubstitutes : Substitutes certName hostname) : verifySslName certName hostname = true := by
  obtain ⟨before, after, rfl, hbefore, hafter, hdot⟩ := h.exists_parts
  by_cases hleading : before = [] ∧ label after ≠ []
  · obtain ⟨rfl, hlabel⟩ := hleading
    obtain ⟨x, -, rfl⟩ := (substitutes_append hbefore hostname).mp hsubstitutes
    exact (verifySslName_leading hlabel _).mpr (List.suffix_append _ _)
  · have hlabel : before = [] → label after = [] := by
      intro hnil
      by_contra hne
      exact hleading ⟨hnil, hne⟩
    obtain ⟨hparent, -, hsides⟩ := (substitutes_iff_label hbefore hdot hostname).mp hsubstitutes
    obtain ⟨hfront, hback, -⟩ := (exists_between_iff _ _ _).mp hsides
    exact (verifySslName_label hbefore hdot hafter hlabel hostname).mpr ⟨hparent, hfront, hback⟩

theorem verifySslName_complete (certName : Bytes) :
    (OneWildcard certName → ∀ s, 46 ∉ s →
        verifySslName certName (beforeStar certName ++ s ++ afterStar certName) = true) ∧
      (42 ∉ certName → ∀ hostname,
        verifySslName certName hostname = true ↔ hostname = certName) := by
  constructor
  · intro h s hs
    exact verifySslName_of_substitutes h ⟨s, hs, rfl⟩
  · intro hplain hostname
    rw [verifySslName, if_pos hplain, decide_eq_true_eq, eq_comm]

theorem verifySslName_complete_foo :
    verifySslName (ascii "a*b.foo.com") (beforeStar (ascii "a*b.foo.com") ++ ascii "web-1" ++
        afterStar (ascii "a*b.foo.com")) = true ∧
      (verifySslName (ascii "foo.com") (ascii "bfoo.com") = true ↔
        ascii "bfoo.com" = ascii "foo.com") :=
  ⟨(verifySslName_complete (ascii "a*b.foo.com")).1 (by decide) (ascii "web-1") (by decide),
    (verifySslName_complete (ascii "foo.com")).2 (by decide) (ascii "bfoo.com")⟩

/-- Both sides of the `*` may also be the same characters of the host name. -/
example : verifySslName (ascii "ab*bc.com") (ascii "abc.com") = true ∧
    Mismatched (ascii "ab*bc.com") (ascii "abc.com") := by decide

example : verifySslName (ascii "*") (ascii "foo.") = true ∧
    Mismatched (ascii "*") (ascii "foo.") := by decide

end Cooper.VerifySslName

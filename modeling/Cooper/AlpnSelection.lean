import Cooper.LengthDelimited
import Cooper.MsgBuffer

namespace Cooper.AlpnSelection

open Cooper.LengthDelimited
open Cooper.MsgBuffer

def alpnList (protocols : List Bytes) : Bytes := encode UInt8.ofNat protocols

inductive Scan where
  | notFound
  | invalid
  | selected (out outlen : Nat)
deriving DecidableEq, Repr

/-- The inner loop. `cur` is the place in the list at which what is left of it begins. -/
def scan (protocol : Bytes) : (cur : Nat) → Bytes → Scan
  | _, [] => .notFound
  | cur, len :: rest =>
      if rest.length < len.toNat then .invalid
      else if protocol.length = len.toNat ∧ rest.take len.toNat = protocol then
        .selected (cur + 1) len.toNat
      else scan protocol (cur + 1) rest

/-- Where in the list the chosen protocol is and how long it is. `none` is
`SSL_TLSEXT_ERR_NOACK`. -/
def serverSelectProtocol (input : Bytes) : (protocols : List Bytes) → Option (Nat × Nat)
  | [] => none
  | protocol :: protocols =>
      match scan protocol 0 input with
      | .notFound => serverSelectProtocol input protocols
      | .invalid => none
      | .selected out outlen => some (out, outlen)

abbrev Overrun (s : Bytes) (i : Nat) : Prop := Overruns UInt8.toNat s i

abbrev At (s : Bytes) (i : Nat) (protocol : Bytes) : Prop := WordAt UInt8.toNat s i protocol

/-- The protocol is somewhere behind a byte that tells its length, and no byte before that one tells
more than there is. -/
def Seen (s protocol : Bytes) : Prop := ∃ i, At s i protocol ∧ ∀ j < i, ¬ Overrun s j

theorem scan_spec (protocol : Bytes) (cur : Nat) (s : Bytes) :
    match scan protocol cur s with
    | .notFound => (∀ i, ¬ Overrun s i) ∧ ∀ i, ¬ At s i protocol
    | .invalid => ∃ i, Overrun s i ∧ ∀ j < i, ¬ At s j protocol
    | .selected out outlen => ∃ i, At s i protocol ∧ (∀ j < i, ¬ Overrun s j) ∧
        (∀ j < i, ¬ At s j protocol) ∧ out = cur + i + 1 ∧ outlen = protocol.length := by
  induction s generalizing cur with
  | nil => exact ⟨fun i => not_overruns_nil, fun i => not_wordAt_nil⟩
  | cons len rest ih =>
      rw [scan]
      have hat : At (len :: rest) 0 protocol ↔
          protocol.length = len.toNat ∧ rest.take len.toNat = protocol := by
        rw [At, wordAt_zero]
        refine and_congr_right fun hlength => ?_
        rw [← hlength, List.prefix_iff_eq_take]
        exact eq_comm
      split_ifs with hover hmatch
      · exact ⟨0, overruns_zero.mpr hover, fun j hj => absurd hj (Nat.not_lt_zero j)⟩
      · refine ⟨0, hat.mpr hmatch, ?_, ?_, rfl, hmatch.1.symm⟩
        · exact fun j hj => absurd hj (Nat.not_lt_zero j)
        · exact fun j hj => absurd hj (Nat.not_lt_zero j)
      · -- The byte is gone over, and with it nothing of the name behind it.
        have hfits : ¬ Overrun (len :: rest) 0 := overruns_zero.not.mpr hover
        have hother : ¬ At (len :: rest) 0 protocol := hat.not.mpr hmatch
        specialize ih (cur + 1)
        rcases hscan : scan protocol (cur + 1) rest with _ | _ | ⟨out, outlen⟩
        · rw [hscan] at ih
          constructor
          · rintro (_ | i)
            · exact hfits
            · exact ih.1 i
          · rintro (_ | i)
            · exact hother
            · exact ih.2 i
        · rw [hscan] at ih
          obtain ⟨i, hoverrun, hnone⟩ := ih
          exact ⟨i + 1, hoverrun, Nat.forall_lt_succ_left.mpr ⟨hother, hnone⟩⟩
        · rw [hscan] at ih
          obtain ⟨i, hword, hbefore, hnone, hout, hlen⟩ := ih
          refine ⟨i + 1, hword, ?_, ?_, ?_, hlen⟩
          · exact Nat.forall_lt_succ_left.mpr ⟨hfits, hbefore⟩
          · exact Nat.forall_lt_succ_left.mpr ⟨hother, hnone⟩
          · omega

structure FirstSeen (s protocol : Bytes) (i : Nat) : Prop where
  place : At s i protocol
  fits : ∀ j < i, ¬ Overrun s j
  first : ∀ j < i, ¬ At s j protocol

theorem FirstSeen.unique {s protocol : Bytes} {i j : Nat} (hi : FirstSeen s protocol i)
    (hj : FirstSeen s protocol j) : i = j := by
  apply Nat.le_antisymm
  · exact Nat.not_lt.mp fun hlt => hi.first j hlt hj.place
  · exact Nat.not_lt.mp fun hlt => hj.first i hlt hi.place

theorem scan_cases (s protocol : Bytes) :
    (∃ i, FirstSeen s protocol i ∧ scan protocol 0 s = .selected (i + 1) protocol.length) ∨
    (¬ Seen s protocol ∧ (∃ i, Overrun s i) ∧ scan protocol 0 s = .invalid) ∨
    (¬ Seen s protocol ∧ (∀ i, ¬ Overrun s i) ∧ scan protocol 0 s = .notFound) := by
  have hspec := scan_spec protocol 0 s
  rcases hscan : scan protocol 0 s with _ | _ | ⟨out, outlen⟩
  · rw [hscan] at hspec
    right
    right
    refine ⟨?_, hspec.1, rfl⟩
    rintro ⟨i, hplace, -⟩
    exact hspec.2 i hplace
  · rw [hscan] at hspec
    obtain ⟨i, hoverrun, hnone⟩ := hspec
    right
    left
    refine ⟨?_, ⟨i, hoverrun⟩, rfl⟩
    rintro ⟨j, hplace, hfits⟩
    rcases Nat.lt_trichotomy i j with hlt | rfl | hlt
    · exact hfits i hlt hoverrun
    · exact hplace.not_overruns hoverrun
    · exact hnone j hlt hplace
  · rw [hscan] at hspec
    obtain ⟨i, hplace, hfits, hfirst, rfl, rfl⟩ := hspec
    left
    refine ⟨i, ⟨hplace, hfits, hfirst⟩, ?_⟩
    rw [Nat.zero_add]

/-- The first protocol that is seen. When a byte overruns the list, only the first one is looked
for. -/
def Chosen (s : Bytes) (protocols : List Bytes) (protocol : Bytes) : Prop :=
  ∃ before after, protocols = before ++ protocol :: after ∧ Seen s protocol ∧
    (∀ other ∈ before, ¬ Seen s other) ∧ ((∃ i, Overrun s i) → before = [])

theorem chosen_cons {s : Bytes} {first : Bytes} {protocols : List Bytes} {protocol : Bytes} :
    Chosen s (first :: protocols) protocol ↔
      Seen s first ∧ protocol = first ∨
      ¬ Seen s first ∧ (∀ i, ¬ Overrun s i) ∧ Chosen s protocols protocol := by
  constructor
  · rintro ⟨before, after, heq, hseen, hbefore, hoverrun⟩
    cases before with
    | nil =>
        obtain ⟨rfl, rfl⟩ := List.cons.inj heq
        exact Or.inl ⟨hseen, rfl⟩
    | cons other before =>
        obtain ⟨rfl, rfl⟩ := List.cons.inj heq
        right
        refine ⟨hbefore first List.mem_cons_self, ?_, before, after, rfl, hseen, ?_, ?_⟩
        · exact fun i hi => List.cons_ne_nil _ _ (hoverrun ⟨i, hi⟩)
        · exact fun other hmem => hbefore other (List.mem_cons_of_mem _ hmem)
        · exact fun hi => absurd (hoverrun hi) (List.cons_ne_nil _ _)
  · rintro (⟨hseen, rfl⟩ | ⟨hfirst, hfits, before, after, rfl, hseen, hbefore, -⟩)
    · exact ⟨[], protocols, rfl, hseen, by simp, fun _ => rfl⟩
    · refine ⟨first :: before, after, rfl, hseen, ?_, ?_⟩
      · intro other hmem
        rcases List.mem_cons.mp hmem with rfl | hmem
        · exact hfirst
        · exact hbefore other hmem
      · rintro ⟨i, hi⟩
        exact absurd hi (hfits i)

theorem serverSelectProtocol_eq_some_iff {s : Bytes} {protocols : List Bytes}
    {out outlen : Nat} :
    serverSelectProtocol s protocols = some (out, outlen) ↔
      ∃ protocol i, Chosen s protocols protocol ∧ FirstSeen s protocol i ∧
        out = i + 1 ∧ outlen = protocol.length := by
  induction protocols with
  | nil =>
      constructor
      · intro h
        contradiction
      · rintro ⟨protocol, i, ⟨before, after, heq, -⟩, -⟩
        simp at heq
  | cons first protocols ih =>
      rw [serverSelectProtocol]
      simp only [chosen_cons]
      rcases scan_cases s first with ⟨i, hfirst, hscan⟩ | ⟨hnot, ⟨i, hi⟩, hscan⟩ |
        ⟨hnot, hfits, hscan⟩
      · have hseen : Seen s first := ⟨i, hfirst.place, hfirst.fits⟩
        rw [hscan]
        constructor
        · intro h
          obtain ⟨rfl, rfl⟩ := Prod.mk.inj (Option.some.inj h)
          exact ⟨first, i, Or.inl ⟨hseen, rfl⟩, hfirst, rfl, rfl⟩
        · rintro ⟨protocol, j, ⟨-, rfl⟩ | ⟨hnot, -⟩, hj, rfl, rfl⟩
          · rw [hfirst.unique hj]
          · exact absurd hseen hnot
      · rw [hscan]
        constructor
        · intro h
          contradiction
        · rintro ⟨protocol, j, ⟨hseen, -⟩ | ⟨-, hfits, -⟩, -⟩
          · exact absurd hseen hnot
          · exact absurd hi (hfits i)
      · rw [hscan]
        change serverSelectProtocol s protocols = some (out, outlen) ↔ _
        simp only [ih, hnot, false_and, not_false_eq_true, hfits, implies_true, true_and,
          false_or]

theorem exists_firstSeen {s protocol : Bytes} (h : Seen s protocol) :
    ∃ i, FirstSeen s protocol i := by
  rcases scan_cases s protocol with ⟨i, hfirst, -⟩ | ⟨hnot, -⟩ | ⟨hnot, -⟩
  · exact ⟨i, hfirst⟩
  · exact absurd h hnot
  · exact absurd h hnot

theorem Chosen.unique {s : Bytes} {protocols : List Bytes} {p q : Bytes}
    (hp : Chosen s protocols p) (hq : Chosen s protocols q) : p = q := by
  induction protocols with
  | nil =>
      obtain ⟨before, after, heq, -⟩ := hp
      simp at heq
  | cons first protocols ih =>
      rcases chosen_cons.mp hp with ⟨hseen, rfl⟩ | ⟨hnot, -, hp⟩
      · rcases chosen_cons.mp hq with ⟨-, rfl⟩ | ⟨hnot, -⟩
        · rfl
        · exact absurd hseen hnot
      · rcases chosen_cons.mp hq with ⟨hseen, rfl⟩ | ⟨-, -, hq⟩
        · exact absurd hseen hnot
        · exact ih hp hq

def selected (s : Bytes) (protocols : List Bytes) : Option Bytes :=
  (serverSelectProtocol s protocols).map fun (out, outlen) => (s.drop out).take outlen

theorem selected_eq_some_iff {s : Bytes} {protocols : List Bytes} {protocol : Bytes} :
    selected s protocols = some protocol ↔ Chosen s protocols protocol := by
  constructor
  · intro h
    obtain ⟨⟨out, outlen⟩, hselect, hbytes⟩ := Option.map_eq_some_iff.mp h
    obtain ⟨p, i, hchosen, hfirst, rfl, rfl⟩ := serverSelectProtocol_eq_some_iff.mp hselect
    have hp : p = protocol := by
      rw [← hbytes]
      exact hfirst.place.take_drop.symm
    exact hp ▸ hchosen
  · intro hchosen
    have hseen : Seen s protocol := by
      obtain ⟨before, after, -, hseen, -⟩ := hchosen
      exact hseen
    obtain ⟨i, hfirst⟩ := exists_firstSeen hseen
    rw [selected, serverSelectProtocol_eq_some_iff.mpr ⟨protocol, i, hchosen, hfirst, rfl, rfl⟩]
    exact congrArg some hfirst.place.take_drop

theorem selected_eq_none_iff {s : Bytes} {protocols : List Bytes} :
    selected s protocols = none ↔ ∀ protocol, ¬ Chosen s protocols protocol := by
  rw [Option.eq_none_iff_forall_ne_some]
  simp only [ne_eq, selected_eq_some_iff]

/-- What a server must choose: the first of its protocols that the client has listed. -/
def preferred (listed protocols : List Bytes) : Option Bytes := protocols.find? (· ∈ listed)

def ValidNames (listed : List Bytes) : Prop := ∀ name ∈ listed, 1 ≤ name.length ∧ name.length ≤ 255

instance (listed : List Bytes) : Decidable (ValidNames listed) :=
  inferInstanceAs (Decidable (∀ _ ∈ listed, _))

def Negotiates (listed protocols : List Bytes) : Prop :=
  selected (alpnList listed) protocols = preferred listed protocols

instance (listed protocols : List Bytes) : Decidable (Negotiates listed protocols) :=
  inferInstanceAs (Decidable (_ = _))

/-- No protocol before the first listed one is seen; when a byte overruns the list, the listed one
is seen and is the first of all. When none is listed none is seen, unless a byte overruns the list
and another one comes first. -/
structure Unmistaken (listed protocols : List Bytes) : Prop where
  first : ∀ before protocol after, protocols = before ++ protocol :: after → protocol ∈ listed →
    (∀ other ∈ before, other ∉ listed) → (∀ other ∈ before, ¬ Seen (alpnList listed) other) ∧
      ((∃ i, Overrun (alpnList listed) i) → before = [] ∧ Seen (alpnList listed) protocol)
  none : (∀ protocol ∈ protocols, protocol ∉ listed) → ∀ protocol ∈ protocols,
    Seen (alpnList listed) protocol →
      (∃ i, Overrun (alpnList listed) i) ∧ protocols.head? ≠ some protocol

theorem seen_of_mem {listed : List Bytes} (hvalid : ValidNames listed)
    (hfits : ∀ i, ¬ Overrun (alpnList listed) i) {protocol : Bytes} (hmem : protocol ∈ listed) :
    Seen (alpnList listed) protocol := by
  obtain ⟨before, after, rfl⟩ := List.append_of_mem hmem
  have hsize : (UInt8.ofNat protocol.length).toNat = protocol.length := by
    have hlength := (hvalid protocol hmem).2
    exact UInt8.toNat_ofNat_of_lt' (show protocol.length < 256 by omega)
  exact ⟨_, wordAt_encode hsize, fun j _ => hfits j⟩

theorem preferred_eq_some_iff {listed protocols : List Bytes} {protocol : Bytes} :
    preferred listed protocols = some protocol ↔
      protocol ∈ listed ∧ ∃ before after, protocols = before ++ protocol :: after ∧
        ∀ other ∈ before, other ∉ listed := by
  rw [preferred, List.find?_eq_some_iff_append]
  simp

theorem takeWhile_of_not_mem {before after : List Bytes} {protocol : Bytes}
    (h : protocol ∉ before) : (before ++ protocol :: after).takeWhile (· ≠ protocol) = before := by
  rw [List.takeWhile_append_of_pos]
  · simp
  · intro other hmem
    apply decide_eq_true
    rintro rfl
    exact h hmem

theorem exists_first_seen {s : Bytes} {protocols : List Bytes} {protocol : Bytes}
    (hmem : protocol ∈ protocols) (hseen : Seen s protocol) :
    ∃ before first after, protocols = before ++ first :: after ∧ Seen s first ∧
      ∀ other ∈ before, ¬ Seen s other := by
  induction protocols with
  | nil => contradiction
  | cons first protocols ih =>
      by_cases hfirst : Seen s first
      · exact ⟨[], first, protocols, rfl, hfirst, by simp⟩
      · have hrest : protocol ∈ protocols := by
          rcases List.mem_cons.mp hmem with rfl | hrest
          · exact absurd hseen hfirst
          · exact hrest
        obtain ⟨before, next, after, rfl, hnext, hbefore⟩ := ih hrest
        refine ⟨first :: before, next, after, rfl, hnext, ?_⟩
        intro other hother
        rcases List.mem_cons.mp hother with rfl | hother
        · exact hfirst
        · exact hbefore other hother

theorem not_chosen_iff {s : Bytes} {protocols : List Bytes} :
    (∀ protocol, ¬ Chosen s protocols protocol) ↔ ∀ protocol ∈ protocols, Seen s protocol →
      (∃ i, Overrun s i) ∧ protocols.head? ≠ some protocol := by
  constructor
  · intro hnone protocol hmem hseen
    constructor
    · by_contra hfits
      obtain ⟨before, first, after, heq, hfirst, hbefore⟩ := exists_first_seen hmem hseen
      exact hnone first ⟨before, after, heq, hfirst, hbefore, fun h => absurd h hfits⟩
    · intro hhead
      obtain ⟨rest, rfl⟩ := List.head?_eq_some_iff.mp hhead
      exact hnone protocol (chosen_cons.mpr (Or.inl ⟨hseen, rfl⟩))
  · rintro h protocol ⟨before, after, rfl, hseen, -, hfirst⟩
    obtain ⟨hoverrun, hhead⟩ := h protocol (by simp) hseen
    rw [hfirst hoverrun] at hhead
    exact hhead rfl

theorem negotiates_iff {listed : List Bytes} (hvalid : ValidNames listed)
    (protocols : List Bytes) : Negotiates listed protocols ↔ Unmistaken listed protocols := by
  rw [Negotiates]
  rcases hpreferred : preferred listed protocols with _ | protocol
  · have hnone : ∀ protocol ∈ protocols, protocol ∉ listed := by
      simpa [preferred] using hpreferred
    rw [selected_eq_none_iff, not_chosen_iff]
    constructor
    · intro h
      refine ⟨?_, fun _ => h⟩
      rintro before protocol after rfl hmem -
      exact absurd hmem (hnone protocol (by simp))
    · intro h
      exact h.none hnone
  · obtain ⟨hmem, before, after, heq, hbefore⟩ := preferred_eq_some_iff.mp hpreferred
    rw [selected_eq_some_iff]
    constructor
    · rintro ⟨before', after', heq', hseen, hbefore', hfirst⟩
      have hsame : before' = before := by
        rw [← takeWhile_of_not_mem fun h => hbefore' protocol h hseen, ← heq', heq]
        exact takeWhile_of_not_mem fun h => hbefore protocol h hmem
      subst hsame
      constructor
      · intro before₂ protocol₂ after₂ heq₂ hmem₂ hbefore₂
        have hpreferred₂ := preferred_eq_some_iff.mpr ⟨hmem₂, before₂, after₂, heq₂, hbefore₂⟩
        obtain rfl := Option.some.inj (hpreferred.symm.trans hpreferred₂)
        have hsame : before' = before₂ := by
          rw [← takeWhile_of_not_mem fun h => hbefore' protocol h hseen, ← heq', heq₂]
          exact takeWhile_of_not_mem fun h => hbefore₂ protocol h hmem
        subst hsame
        exact ⟨hbefore', fun hover => ⟨hfirst hover, hseen⟩⟩
      · intro hnone
        exact absurd hmem (hnone protocol (by simp [heq]))
    · intro h
      obtain ⟨hnot, hfirst⟩ := h.first before protocol after heq hmem hbefore
      refine ⟨before, after, heq, ?_, hnot, fun hover => (hfirst hover).1⟩
      by_cases hover : ∃ i, Overrun (alpnList listed) i
      · exact (hfirst hover).2
      · exact seen_of_mem hvalid (fun i hi => hover ⟨i, hi⟩) hmem

/-- What is chosen is a whole entry of the list. -/
def SelectsEntry (s : Bytes) (protocols : List Bytes) : Prop :=
  ∀ out outlen, serverSelectProtocol s protocols = some (out, outlen) →
    ∃ i word, Start UInt8.toNat s i ∧ At s i word ∧ out = i + 1 ∧ outlen = word.length

/-- Where the protocol that is chosen stands at another place, it stands before in an entry. -/
def EntryFirst (s : Bytes) (protocols : List Bytes) : Prop :=
  ∀ protocol, Chosen s protocols protocol → ∀ i, At s i protocol → ¬ Start UInt8.toNat s i →
    ∃ j < i, Start UInt8.toNat s j ∧ At s j protocol

theorem selectsEntry_iff (s : Bytes) (protocols : List Bytes) :
    SelectsEntry s protocols ↔ EntryFirst s protocols := by
  constructor
  · rintro h protocol hchosen i hplace hinside
    have hseen : Seen s protocol := by
      obtain ⟨before, after, -, hseen, -⟩ := hchosen
      exact hseen
    obtain ⟨j, hfirst⟩ := exists_firstSeen hseen
    obtain ⟨j', word, hstart, -, hout, -⟩ := h (j + 1) protocol.length
      (serverSelectProtocol_eq_some_iff.mpr ⟨protocol, j, hchosen, hfirst, rfl, rfl⟩)
    obtain rfl : j = j' := Nat.succ_injective hout
    refine ⟨j, ?_, hstart, hfirst.place⟩
    rcases Nat.lt_trichotomy j i with hlt | rfl | hlt
    · exact hlt
    · exact absurd hstart hinside
    · exact absurd hplace (hfirst.first i hlt)
  · intro h out outlen hselect
    obtain ⟨protocol, i, hchosen, hfirst, rfl, rfl⟩ := serverSelectProtocol_eq_some_iff.mp hselect
    refine ⟨i, protocol, ?_, hfirst.place, rfl, rfl⟩
    by_contra hinside
    obtain ⟨j, hlt, -, hplace⟩ := h protocol hchosen i hfirst.place hinside
    exact hfirst.first j hlt hplace

/-- When the negotiation does what it must, for the lists of clients and for all strings. -/
theorem serverSelectProtocol_correct_iff (listed protocols : List Bytes) (s : Bytes) :
    (ValidNames listed → (Negotiates listed protocols ↔ Unmistaken listed protocols)) ∧
      (SelectsEntry s protocols ↔ EntryFirst s protocols) :=
  ⟨fun hvalid => negotiates_iff hvalid protocols, selectsEntry_iff s protocols⟩

theorem serverSelectProtocol_correct_h2 :
    Unmistaken [ascii "h2", ascii "spdy/3", ascii "http/1.1"] [ascii "h2", ascii "http/1.1"] :=
  ((serverSelectProtocol_correct_iff [ascii "h2", ascii "spdy/3", ascii "http/1.1"]
    [ascii "h2", ascii "http/1.1"] []).1 (by decide)).mp (by decide)

theorem not_negotiates : ¬ ∀ listed protocols, ValidNames listed → Negotiates listed protocols := by
  intro h
  have hselected := h [ascii "h2", ascii "http/1.1"] [ascii "http/1.1"] (by decide)
  revert hselected
  decide

theorem not_selectsEntry : ¬ ∀ s protocols, SelectsEntry s protocols := by
  intro h
  obtain ⟨i, word, hstart, -, hout, -⟩ := h [3, 1, 97, 98] [[97]] 2 1 (by decide)
  obtain rfl : i = 1 := by omega
  generalize hplace : 1 = place at hstart
  cases hstart with
  | zero => contradiction
  | next hbefore hword =>
      rename_i j name
      obtain ⟨rfl, hempty⟩ : j = 0 ∧ name.length = 0 := by omega
      obtain ⟨hlength, -⟩ := wordAt_zero.mp hword
      rw [hempty] at hlength
      contradiction

theorem not_serverSelectProtocol_correct :
    (¬ ∀ listed protocols, ValidNames listed → Negotiates listed protocols) ∧
      ¬ ∀ s protocols, SelectsEntry s protocols := ⟨not_negotiates, not_selectsEntry⟩

end Cooper.AlpnSelection

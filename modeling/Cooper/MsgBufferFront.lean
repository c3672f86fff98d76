import Cooper.MsgBufferCalls

namespace Cooper.MsgBufferFront

open Cooper.ByteOrder
open Cooper.MsgBuffer (Bytes)
open Cooper.MsgBufferCalls
open Cooper.MsgBufferQueue
open Cooper.MsgBufferVector
open Cooper.Region
open Cooper.StepRun

/-- The call of `std::copy` in `addInFront`, if it is made, is a valid one, and then the readable
bytes are the new ones followed by the old. -/
structure Prepends (b : MsgBuffer) (data : Bytes) : Prop where
  copies : b.head < data.length → data.length ≤ writableBytes b →
    Apart (readableBytes b) b.head (b.head + data.length)
  readable_eq : ∃ b', addInFront b data = some b' ∧ readable b' = data ++ readable b

variable {b : MsgBuffer}

theorem moveBack_apart (h : Valid b) {data : Bytes} (hroom : data.length ≤ writableBytes b)
    (hapart : Apart (readableBytes b) b.head (b.head + data.length)) :
    ∃ b', moveBack b data = some b' ∧ readable b' = data ++ readable b := by
  obtain ⟨hfits, hdest⟩ := moveBack_fits h hroom
  obtain ⟨moved, b', hcopy, hcall, -, hreadable⟩ := moveBack_spec h hroom
  obtain ⟨moved', hcopy', -, hregion⟩ := region_copy hapart hfits hdest
  obtain rfl := Option.some.inj (hcopy.symm.trans hcopy')
  refine ⟨b', hcall, ?_⟩
  rw [hreadable, hregion]
  rfl

theorem prepends_iff_of_valid (h : Valid b) (data : Bytes) :
    Prepends b data ↔ data.length ≤ b.head ∨ writableBytes b < data.length ∨
      readableBytes b ≤ data.length := by
  constructor
  · intro hprepends
    by_contra hinside
    rw [not_or, not_or, Nat.not_le, Nat.not_lt, Nat.not_le] at hinside
    obtain ⟨hhead, hroom, hmore⟩ := hinside
    have hapart := hprepends.copies hhead hroom
    rw [Apart] at hapart
    omega
  · rintro (hhead | hfull | hless)
    · obtain ⟨b', hcall, -, hreadable, -⟩ := headRoom_spec h hhead
      exact ⟨fun hlong => absurd hhead (Nat.not_le.mpr hlong), b', hcall, hreadable⟩
    · refine ⟨fun _ hroom => absurd hroom (Nat.not_le.mpr hfull), ?_⟩
      rcases Nat.lt_or_ge b.head data.length with hlong | hhead
      · obtain ⟨b', hcall, -, hreadable⟩ := reallocate_spec h data
        refine ⟨b', ?_, hreadable⟩
        rw [addInFront, if_neg (Nat.not_le.mpr hlong), if_neg (Nat.not_le.mpr hfull), hcall]
      · obtain ⟨b', hcall, -, hreadable, -⟩ := headRoom_spec h hhead
        exact ⟨b', hcall, hreadable⟩
    · have hapart : Apart (readableBytes b) b.head (b.head + data.length) :=
        .inr (Nat.add_le_add_left hless _)
      refine ⟨fun _ _ => hapart, ?_⟩
      by_cases hhead : data.length ≤ b.head
      · obtain ⟨b', hcall, -, hreadable, -⟩ := headRoom_spec h hhead
        exact ⟨b', hcall, hreadable⟩
      · rw [addInFront, if_neg hhead]
        split
        · rename_i hroom
          exact moveBack_apart h hroom hapart
        · obtain ⟨b', hcall, -, hreadable⟩ := reallocate_spec h data
          exact ⟨b', hcall, hreadable⟩

/-- Made element by element, the copy repeats the first of the readable bytes, as many as there are
new ones. -/
theorem moveBack_repeats (h : Valid b) {data : Bytes} (hpos : 0 < data.length)
    (hroom : data.length ≤ writableBytes b) :
    ∃ b' moved, moveBack b data = some b' ∧ readable b' = data ++ moved ∧
      ∀ i < readableBytes b, moved[i]? = (readable b)[i % data.length]? := by
  obtain ⟨moved, b', hcopy, hcall, -, hreadable⟩ := moveBack_spec h hroom
  have hplace : b.head < b.head + data.length := by omega
  refine ⟨b', _, hcall, hreadable, ?_⟩
  intro i hi
  have hlt : i % data.length < readableBytes b := (Nat.mod_le i _).trans_lt hi
  rw [readable, peekBytes, getElem?_region, getElem?_region, if_pos (by omega), if_pos (by omega),
    getElem?_copy_repeats hplace hcopy hi, Nat.add_sub_cancel_left]

section Runs

variable {ι ε : Type*} [DecidableEq ι]

/-- In every state of buffers with a capacity of at least eight, putting bytes in front is exact
unless the readable bytes have to be moved by less than their number. -/
theorem prepends_iff (host : Endian) (cap : ι → Nat) (hcap : ∀ i, kBufferOffset ≤ cap i)
    (calls : List (Call ι ε)) (s : ι → MsgBuffer)
    (hrun : runSteps (step host) (fun i => newMsgBuffer (cap i)) calls = some s) (i : ι)
    (data : Bytes) :
    Prepends (s i) data ↔ data.length ≤ (s i).head ∨ writableBytes (s i) < data.length ∨
      readableBytes (s i) ≤ data.length :=
  prepends_iff_of_valid (valid_of_run hcap hrun i) data

def twelve : Bytes := [1, 2, 3, 4, 5, 6, 7, 8, 9, 10, 11, 12]

def nine : Bytes := [21, 22, 23, 24, 25, 26, 27, 28, 29]

def appendTwelve : List (Call Unit Unit) := [.buffer (.append () twelve)]

theorem prepends_iff_twelve :
    ∃ s, runSteps (step .little) (fun _ => newMsgBuffer 32) appendTwelve = some s ∧
      (Prepends (s ()) nine ↔ nine.length ≤ (s ()).head ∨ writableBytes (s ()) < nine.length ∨
        readableBytes (s ()) ≤ nine.length) := by
  obtain ⟨s, hs⟩ := Option.isSome_iff_exists.mp
    (by decide : (runSteps (step .little) (fun _ => newMsgBuffer 32) appendTwelve).isSome = true)
  exact ⟨s, hs, prepends_iff .little (fun _ => 32) (fun _ => by decide) appendTwelve s hs () nine⟩

/-- The head has room for eight bytes and there are twenty bytes of room behind, so that the twelve
readable bytes are moved by nine. The last three become the first three. -/
theorem not_prepends_twelve :
    ∃ s, runSteps (step .little) (fun _ => newMsgBuffer 32) appendTwelve = some s ∧
      ¬Prepends (s ()) nine ∧ readable (s ()) = twelve ∧
      (addInFront (s ()) nine).map readable =
        some (nine ++ [1, 2, 3, 4, 5, 6, 7, 8, 9, 1, 2, 3]) := by
  obtain ⟨s, hs⟩ := Option.isSome_iff_exists.mp
    (by decide : (runSteps (step .little) (fun _ => newMsgBuffer 32) appendTwelve).isSome = true)
  have hend : (runSteps (step .little) (fun _ => newMsgBuffer 32) appendTwelve).map
      (fun s => (readable (s ()), (addInFront (s ()) nine).map readable)) =
        some (twelve, some (nine ++ [1, 2, 3, 4, 5, 6, 7, 8, 9, 1, 2, 3])) := by decide
  rw [hs, Option.map_some, Option.some.injEq, Prod.mk.injEq] at hend
  obtain ⟨hreadable, hmoved⟩ := hend
  refine ⟨s, hs, ?_, hreadable, hmoved⟩
  intro hprepends
  obtain ⟨b', hcall, hexact⟩ := hprepends.readable_eq
  rw [hcall, Option.map_some, hexact, hreadable] at hmoved
  exact absurd (List.append_cancel_left (Option.some.inj hmoved)) (by decide)

end Runs

end Cooper.MsgBufferFront

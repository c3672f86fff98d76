import Cooper.DataRefinement
import Cooper.MsgBufferVector

namespace Cooper.MsgBufferQueue

open Cooper.DataRefinement
open Cooper.MsgBuffer (Bytes)
open Cooper.MsgBufferVector
open Cooper.Region
open Cooper.StepRun

/-- The indices are in order and inside the vector, and the vector stays long enough for an empty
region. -/
structure Valid (b : MsgBuffer) : Prop where
  head_le_tail : b.head ≤ b.tail
  tail_le : b.tail ≤ b.buffer.length
  offset_le_initCap : kBufferOffset ≤ b.initCap
  offset_le : kBufferOffset ≤ b.buffer.length

variable {b b' : MsgBuffer}

section Layout

theorem readable_eq (h : Valid b) : readable b = region b.head b.tail b.buffer := by
  have := h.head_le_tail
  rw [readable, peekBytes, readableBytes, Nat.add_sub_of_le this]

theorem length_readable (h : Valid b) : (readable b).length = readableBytes b := by
  rw [readable_eq h, length_region h.tail_le, readableBytes]

theorem peekBytes_eq (h : Valid b) {len : Nat} (hlen : len ≤ readableBytes b) :
    peekBytes b len = (readable b).take len := by
  have hle : b.head + len ≤ b.tail := by
    have := h.head_le_tail
    rw [readableBytes] at hlen
    omega
  rw [readable_eq h, peekBytes, region_of_le hle, Nat.add_sub_cancel_left]

theorem valid_newMsgBuffer {len : Nat} (hlen : kBufferOffset ≤ len) : Valid (newMsgBuffer len) where
  head_le_tail := le_rfl
  tail_le := by simp [newMsgBuffer]
  offset_le_initCap := hlen
  offset_le := by simp [newMsgBuffer]

theorem readable_newMsgBuffer (len : Nat) : readable (newMsgBuffer len) = [] := by
  rw [readable, readableBytes, newMsgBuffer, Nat.sub_self, peekBytes]
  exact region_self ..

theorem writableBytes_newMsgBuffer (len : Nat) : writableBytes (newMsgBuffer len) = len := by
  simp [writableBytes, newMsgBuffer]

end Layout

section Append

theorem put_spec (h : Valid b) {data : Bytes} (hfits : data.length ≤ writableBytes b) :
    ∃ b', put b data = some b' ∧ Valid b' ∧ readable b' = readable b ++ data ∧
      writableBytes b' = writableBytes b - data.length := by
  have htail := h.tail_le
  have hhead := h.head_le_tail
  have hroom : b.tail + data.length ≤ b.buffer.length := by
    rw [writableBytes] at hfits
    omega
  obtain ⟨buffer, hstore⟩ := store_of_le hroom
  have hlength := length_store hstore
  have hvalid : Valid { b with buffer, tail := b.tail + data.length } :=
    ⟨by simp only; omega, by simp only; omega, h.offset_le_initCap, hlength ▸ h.offset_le⟩
  refine ⟨{ b with buffer, tail := b.tail + data.length }, ?_, hvalid, ?_, ?_⟩
  · rw [put, write, hstore, Option.map_some, Option.map_some]
  · rw [readable_eq hvalid, readable_eq h]
    exact region_store hhead hstore
  · rw [writableBytes, writableBytes, hlength, Nat.sub_sub]

theorem compact_spec (h : Valid b) {len : Nat} (hfull : ¬writableBytes b ≥ len)
    (hroom : b.head + writableBytes b ≥ len + kBufferOffset) :
    ∃ b', compact b = some b' ∧ Valid b' ∧ readable b' = readable b ∧ len ≤ writableBytes b' := by
  have htail := h.tail_le
  have hhead := h.head_le_tail
  rw [writableBytes] at hfull hroom
  have hdest : kBufferOffset < b.head := by omega
  have hfits : b.head + readableBytes b ≤ b.buffer.length := by
    rw [readableBytes]
    omega
  obtain ⟨buffer, hcopy, hlength, hregion⟩ := region_copy (.inl hdest) hfits (by omega)
  have hvalid : Valid { b with
      head := kBufferOffset
      buffer
      tail := kBufferOffset + readableBytes b } :=
    ⟨by simp only; omega, by simp only [hlength, readableBytes]; omega, h.offset_le_initCap,
      hlength ▸ h.offset_le⟩
  refine ⟨_, by rw [compact, hcopy, Option.map_some], hvalid, ?_, ?_⟩
  · rw [readable_eq hvalid, hregion]
    rfl
  · rw [writableBytes]
    simp only [hlength, readableBytes]
    omega

theorem grow_spec (h : Valid b) (len : Nat) :
    ∃ b', grow b len = some b' ∧ Valid b' ∧ readable b' = readable b ∧ len ≤ writableBytes b' := by
  have hlength := length_readable h
  have hgrow : ∀ newLen, kBufferOffset + readableBytes b + len ≤ newLen →
      ∃ b', put (newMsgBuffer newLen) (readable b) = some b' ∧ Valid b' ∧
        readable b' = readable b ∧ len ≤ writableBytes b' := by
    intro newLen hnewLen
    have hwritable := writableBytes_newMsgBuffer newLen
    have hoffset : kBufferOffset ≤ newLen := by omega
    have hfits : (readable b).length ≤ writableBytes (newMsgBuffer newLen) := by omega
    obtain ⟨b', hput, hvalid, hreadable, hleft⟩ := put_spec (valid_newMsgBuffer hoffset) hfits
    refine ⟨b', hput, hvalid, ?_, by omega⟩
    rw [hreadable, readable_newMsgBuffer, List.nil_append]
  unfold grow
  apply hgrow
  split
  · omega
  · exact le_rfl

theorem ensureWritableBytes_spec (h : Valid b) (len : Nat) :
    ∃ b', ensureWritableBytes b len = some b' ∧ Valid b' ∧ readable b' = readable b ∧
      len ≤ writableBytes b' := by
  unfold ensureWritableBytes
  split
  · rename_i hroom
    exact ⟨b, rfl, h, rfl, hroom⟩
  · rename_i hfull
    split
    · rename_i hroom
      exact compact_spec h hfull hroom
    · exact grow_spec h len

theorem ensureWritableBytes_newMsgBuffer {len newLen : Nat} (h : len ≤ newLen) :
    ensureWritableBytes (newMsgBuffer newLen) len = some (newMsgBuffer newLen) :=
  if_pos ((writableBytes_newMsgBuffer newLen).symm ▸ h)

theorem append_spec (h : Valid b) (data : Bytes) :
    ∃ b', append b data = some b' ∧ Valid b' ∧ readable b' = MsgBuffer.append (readable b) data := by
  obtain ⟨b₁, hensure, hvalid₁, hreadable₁, hroom⟩ := ensureWritableBytes_spec h data.length
  obtain ⟨b', hput, hvalid', hreadable', -⟩ := put_spec hvalid₁ hroom
  refine ⟨b', ?_, hvalid', by rw [hreadable', hreadable₁, MsgBuffer.append_eq]⟩
  rw [append, hensure, Option.bind_some, hput]

theorem appendBuffer_spec (h : Valid b) {buf : MsgBuffer} (hbuf : Valid buf) :
    ∃ b', appendBuffer b buf = some b' ∧ Valid b' ∧
      readable b' = MsgBuffer.append (readable b) (readable buf) := by
  have hcall := append_spec h (readable buf)
  rwa [append, length_readable hbuf] at hcall

theorem appendSelf_spec (h : Valid b) :
    ∃ b', appendSelf b = some b' ∧ Valid b' ∧
      readable b' = MsgBuffer.append (readable b) (readable b) := by
  obtain ⟨b₁, hensure, hvalid₁, hreadable₁, hroom⟩ := ensureWritableBytes_spec h (readableBytes b)
  have hfits : (readable b₁).length ≤ writableBytes b₁ := by
    rw [hreadable₁, length_readable h]
    exact hroom
  obtain ⟨b', hput, hvalid', hreadable', -⟩ := put_spec hvalid₁ hfits
  refine ⟨b', ?_, hvalid', by rw [hreadable', hreadable₁, MsgBuffer.append_eq]⟩
  rw [appendSelf, hensure, Option.bind_some, hput]

theorem hasWritten_eq_put (data : Bytes) (hfits : data.length ≤ writableBytes b) :
    ((write b data).bind fun b => hasWritten b data.length) = put b data := by
  unfold put
  cases hwrite : write b data with
  | none => rfl
  | some b' =>
      obtain ⟨buffer, hstore, rfl⟩ := Option.map_eq_some_iff.mp hwrite
      refine if_pos ?_
      rw [writableBytes, length_store hstore]
      exact hfits

end Append

section Retrieve

theorem retrieveAll_spec (h : Valid b) : Valid (retrieveAll b) ∧ readable (retrieveAll b) = [] := by
  have hlong : kBufferOffset ≤ (retrieveAll b).buffer.length := by
    have hinitCap := h.offset_le_initCap
    have hoffset := h.offset_le
    rw [retrieveAll]
    simp only
    split
    · rw [List.length_take]
      omega
    · exact hoffset
  refine ⟨⟨le_rfl, hlong, h.offset_le_initCap, hlong⟩, ?_⟩
  rw [readable, readableBytes, retrieveAll, Nat.sub_self, peekBytes]
  exact region_self ..

theorem retrieve_spec (h : Valid b) (len : Nat) :
    Valid (retrieve b len) ∧ readable (retrieve b len) = MsgBuffer.retrieve (readable b) len := by
  have hlength := length_readable h
  rw [MsgBuffer.retrieve_eq]
  unfold retrieve
  split
  · rename_i hall
    obtain ⟨hvalid, hempty⟩ := retrieveAll_spec h
    exact ⟨hvalid, by rw [hempty, List.drop_eq_nil_iff.mpr (by omega)]⟩
  · rename_i hpart
    have hvalid : Valid { b with head := b.head + len } := by
      refine ⟨?_, h.tail_le, h.offset_le_initCap, h.offset_le⟩
      rw [readableBytes] at hpart
      simp only
      omega
    exact ⟨hvalid, by rw [readable_eq hvalid, readable_eq h, region_add_left]⟩

theorem unwrite_spec (h : Valid b) {offset : Nat} (hoffset : offset ≤ readableBytes b) :
    ∃ b', unwrite b offset = some b' ∧ Valid b' ∧
      readable b' = (readable b).take ((readable b).length - offset) := by
  have htail := h.tail_le
  have hhead := h.head_le_tail
  have hvalid : Valid { b with tail := b.tail - offset } := by
    rw [readableBytes] at hoffset
    exact ⟨by simp only; omega, by simp only; omega, h.offset_le_initCap, h.offset_le⟩
  refine ⟨_, if_pos hoffset, hvalid, ?_⟩
  rw [length_readable h, readable_eq hvalid, readable_eq h, region_of_le (Nat.sub_le b.tail offset),
    readableBytes, Nat.sub_right_comm]

theorem read_spec (h : Valid b) (len : Nat) :
    Valid (MsgBufferVector.read b len).1 ∧
      readable (MsgBufferVector.read b len).1 = (MsgBuffer.read (readable b) len).2 ∧
      (MsgBufferVector.read b len).2 = (MsgBuffer.read (readable b) len).1 := by
  have hlength := length_readable h
  unfold MsgBufferVector.read MsgBuffer.read
  simp only [MsgBuffer.readableBytes_eq, hlength]
  split
  · exact ⟨(retrieve_spec h _).1, (retrieve_spec h _).2, peekBytes_eq h le_rfl⟩
  · exact ⟨(retrieve_spec h _).1, (retrieve_spec h _).2, peekBytes_eq h (by omega)⟩

end Retrieve

section ReadFd

/-- The second vector takes what the first has no room for, and is appended. -/
theorem readFd_spec {ε : Type*} (h : Valid b) {data : Bytes} (hroom : data.length ≤ room b) :
    ∃ b', readFd b (.ok data : Except ε Bytes) = some b' ∧ Valid b' ∧
      readable b' = MsgBuffer.append (readable b) data := by
  have hfirst : (data.take (writableBytes b)).length ≤ writableBytes b := List.length_take_le ..
  obtain ⟨b₁, hput, hvalid₁, hreadable₁, -⟩ := put_spec h hfirst
  obtain ⟨b₀, hwrite, hb₁⟩ := Option.map_eq_some_iff.mp hput
  rw [readFd, if_neg (not_lt.mpr hroom)]
  simp only [hwrite, Option.bind_some]
  by_cases hall : data.length ≤ writableBytes b
  · rw [List.take_of_length_le hall] at hb₁ hreadable₁
    rw [if_pos hall, hb₁]
    exact ⟨b₁, rfl, hvalid₁, hreadable₁⟩
  · have hfull : { b₀ with tail := b₀.buffer.length } = b₁ := by
      obtain ⟨buffer, hstore, rfl⟩ := Option.map_eq_some_iff.mp hwrite
      have htail := h.tail_le
      have hlength := length_store hstore
      rw [← hb₁, List.length_take, Nat.min_eq_left (not_le.mp hall).le, writableBytes, hlength,
        Nat.add_sub_of_le htail]
    obtain ⟨b', happend, hvalid', hreadable'⟩ := append_spec hvalid₁ (data.drop (writableBytes b))
    refine ⟨b', ?_, hvalid', ?_⟩
    · rw [if_neg hall, hfull, happend]
    · rw [hreadable', hreadable₁, MsgBuffer.append_eq, MsgBuffer.append_eq, List.append_assoc,
        List.take_append_drop]

end ReadFd

section Buffers

variable {ι ε : Type*} [DecidableEq ι]

def queueStep (q : ι → Bytes) : BufferOp ι ε → (ι → Bytes) × Bytes
  | .append i data | .hasWritten i data | .readFd i (.ok data) =>
      (Function.update q i (MsgBuffer.append (q i) data), [])
  | .appendLiteral i chars =>
      (Function.update q i (MsgBuffer.append (q i) (chars.take (chars.length - 1))), [])
  | .appendBuffer i j => (Function.update q i (MsgBuffer.append (q i) (q j)), [])
  | .ensureWritableBytes _ _ | .readFd _ (.error _) => (q, [])
  | .unwrite i offset => (Function.update q i ((q i).take ((q i).length - offset)), [])
  | .retrieve i len => (Function.update q i (MsgBuffer.retrieve (q i) len), [])
  | .retrieveUntil i stop => (Function.update q i (MsgBuffer.retrieveUntil (q i) stop), [])
  | .retrieveAll i => (Function.update q i (MsgBuffer.retrieveAll (q i)), [])
  | .read i len => (Function.update q i (MsgBuffer.read (q i) len).2, (MsgBuffer.read (q i) len).1)
  | .readUntil i stop =>
      (Function.update q i (MsgBuffer.readUntil (q i) stop).2, (MsgBuffer.readUntil (q i) stop).1)
  | .swap i j => (q ∘ Equiv.swap i j, [])

def Holds (s : ι → MsgBuffer) (q : ι → Bytes) : Prop := ∀ i, Valid (s i) ∧ readable (s i) = q i

variable {s : ι → MsgBuffer} {q : ι → Bytes}

theorem Holds.update (h : Holds s q) {i : ι} {b : MsgBuffer} {bytes : Bytes} (hvalid : Valid b)
    (hreadable : readable b = bytes) : Holds (Function.update s i b) (Function.update q i bytes) := by
  intro k
  by_cases hk : k = i
  · subst hk
    rw [Function.update_self, Function.update_self]
    exact ⟨hvalid, hreadable⟩
  · rw [Function.update_of_ne hk, Function.update_of_ne hk]
    exact h k

theorem Holds.call (h : Holds s q) {i : ι} {result : Option MsgBuffer} {bytes : Bytes}
    (hcall : ∃ b', result = some b' ∧ Valid b' ∧ readable b' = bytes) :
    ∃ s', MsgBufferVector.update s i result = some (s', []) ∧
      Holds s' (Function.update q i bytes) := by
  obtain ⟨b', rfl, hvalid, hreadable⟩ := hcall
  exact ⟨Function.update s i b', rfl, h.update hvalid hreadable⟩

theorem refines_step :
    Refines (fun (s : ι → MsgBuffer) (op : BufferOp ι ε) => step s op) queueStep Asserted Holds := by
  intro s q op h hasserted
  cases op with
  | append i data => exact h.call ((h i).2 ▸ append_spec (h i).1 data)
  | appendLiteral i chars =>
      apply h.call
      rw [appendLiteral, if_pos (show isLiteral chars from hasserted), ← (h i).2]
      exact append_spec (h i).1 _
  | appendBuffer i j =>
      apply h.call
      rw [← (h i).2, ← (h j).2]
      split
      · rename_i hself
        subst hself
        exact appendSelf_spec (h i).1
      · exact appendBuffer_spec (h i).1 (h j).1
  | ensureWritableBytes i len =>
      obtain ⟨b', hcall, hvalid, hreadable, -⟩ := ensureWritableBytes_spec (h i).1 len
      obtain ⟨s', hstep, hholds⟩ := h.call ⟨b', hcall, hvalid, hreadable.trans (h i).2⟩
      rw [Function.update_eq_self] at hholds
      exact ⟨s', hstep, hholds⟩
  | hasWritten i data =>
      obtain ⟨b', hput, hvalid, hreadable, -⟩ := put_spec (h i).1 hasserted
      apply h.call
      rw [hasWritten_eq_put data hasserted]
      exact ⟨b', hput, hvalid, by rw [hreadable, (h i).2, MsgBuffer.append_eq]⟩
  | unwrite i offset => exact h.call ((h i).2 ▸ unwrite_spec (h i).1 hasserted)
  | retrieve i len =>
      obtain ⟨hvalid, hreadable⟩ := retrieve_spec (h i).1 len
      exact h.call ⟨_, rfl, hvalid, (h i).2 ▸ hreadable⟩
  | retrieveUntil i stop =>
      obtain ⟨hvalid, hreadable⟩ := retrieve_spec (h i).1 stop
      exact h.call ⟨_, if_pos hasserted, hvalid, (h i).2 ▸ hreadable⟩
  | retrieveAll i =>
      obtain ⟨hvalid, hreadable⟩ := retrieveAll_spec (h i).1
      exact h.call ⟨_, rfl, hvalid, hreadable⟩
  | read i len =>
      obtain ⟨hvalid, hreadable, hret⟩ := read_spec (h i).1 len
      rw [(h i).2] at hreadable hret
      refine ⟨_, ?_, h.update hvalid hreadable⟩
      change updateRead s i (some (MsgBufferVector.read (s i) len)) = _
      rw [updateRead, Option.map_some, hret]
      rfl
  | readUntil i stop =>
      have hstop : stop ≤ readableBytes (s i) := hasserted
      obtain ⟨hvalid, hreadable⟩ := retrieve_spec (h i).1 stop
      rw [(h i).2] at hreadable
      refine ⟨_, ?_, h.update hvalid hreadable⟩
      change updateRead s i (readUntil (s i) stop) = _
      rw [readUntil, if_pos hstop, updateRead, Option.map_some, peekBytes_eq (h i).1 hstop, (h i).2]
      rfl
  | swap i j => exact ⟨_, rfl, fun k => h (Equiv.swap i j k)⟩
  | readFd i answer =>
      cases answer with
      | error e =>
          obtain ⟨s', hstep, hholds⟩ := h.call ⟨s i, rfl, (h i).1, (h i).2⟩
          rw [Function.update_eq_self] at hholds
          exact ⟨s', hstep, hholds⟩
      | ok data => exact h.call ((h i).2 ▸ readFd_spec (h i).1 hasserted)

/-- In every sequence of calls on new buffers, each call within its precondition, the readable
regions are the byte queues, the strings that are read are those of the queues, and
`ensureWritableBytes` makes room behind the same bytes. -/
theorem readable_run (cap : ι → Nat) (hcap : ∀ i, kBufferOffset ≤ cap i) (ops : List (BufferOp ι ε))
    (h : AllSteps (next step) Asserted (fun i => newMsgBuffer (cap i)) ops) :
    ∃ s, run step (fun i => newMsgBuffer (cap i)) ops =
        some (s, (specRun queueStep (fun _ => []) ops).2) ∧
      ∀ i, readable (s i) = (specRun queueStep (fun _ => []) ops).1 i ∧
        ∀ len, ∃ b, ensureWritableBytes (s i) len = some b ∧ len ≤ writableBytes b ∧
          readable b = readable (s i) := by
  have hnew : Holds (fun i => newMsgBuffer (cap i)) fun _ => [] :=
    fun i => ⟨valid_newMsgBuffer (hcap i), readable_newMsgBuffer (cap i)⟩
  obtain ⟨s, hrun, hholds⟩ := refines_step.run hnew h
  refine ⟨s, hrun, fun i => ⟨(hholds i).2, fun len => ?_⟩⟩
  obtain ⟨b, hensure, -, hreadable, hroom⟩ := ensureWritableBytes_spec (hholds i).1 len
  exact ⟨b, hensure, hroom, hreadable⟩

def fillAndDouble : List (BufferOp Unit Unit) :=
  [.hasWritten () [1, 2, 3, 4, 5, 6, 7, 8], .read () 5, .appendBuffer () (), .read () 4]

theorem readable_run_fillAndDouble :
    AllSteps (next step) Asserted (fun _ => newMsgBuffer 8) fillAndDouble ∧
    ∃ s, run step (fun _ => newMsgBuffer 8) fillAndDouble =
        some (s, (specRun queueStep (fun _ => []) fillAndDouble).2) ∧
      ∀ i, readable (s i) = (specRun queueStep (fun _ => []) fillAndDouble).1 i ∧
        ∀ len, ∃ b, ensureWritableBytes (s i) len = some b ∧ len ≤ writableBytes b ∧
          readable b = readable (s i) := by
  have hasserted : AllSteps (next step) Asserted (fun _ => newMsgBuffer 8) fillAndDouble :=
    ⟨show 8 ≤ 8 from le_rfl, fun _ _ => ⟨trivial, fun _ _ => ⟨trivial, fun _ _ =>
      ⟨trivial, fun _ _ => trivial⟩⟩⟩⟩
  exact ⟨hasserted, readable_run (fun _ => 8) (fun _ => le_rfl) fillAndDouble hasserted⟩

example : (run step (fun _ => newMsgBuffer 8) fillAndDouble).map Prod.snd =
    some [[], [1, 2, 3, 4, 5], [], [6, 7, 8, 6]] := by decide

end Buffers

end Cooper.MsgBufferQueue

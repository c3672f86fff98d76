import Cooper.MsgBufferCalls

namespace Cooper.MsgBufferIndices

open Cooper.ByteOrder
open Cooper.MsgBuffer (Bytes)
open Cooper.MsgBufferCalls
open Cooper.MsgBufferQueue (hasWritten_eq_put)
open Cooper.MsgBufferVector
open Cooper.Region
open Cooper.StepRun

def sizeLimit : Nat := 18446744073709551616

def addressable : Nat := 4611686018427387904

def sizeT (n : Nat) : Nat := n % sizeLimit

/-- A call returns, or an exception of the allocator leaves it. It is stuck where an assertion fails
or memory outside of a vector is touched. -/
inductive Outcome (α : Type*)
  | done (a : α)
  | thrown (a : α)
  | stuck

namespace Outcome

variable {α β : Type*}

def ofOption : Option α → Outcome α
  | some a => .done a
  | none => .stuck

def bind (o : Outcome α) (f : α → Outcome α) : Outcome α :=
  match o with
  | .done a => f a
  | .thrown a => .thrown a
  | .stuck => .stuck

def map (f : α → β) : Outcome α → Outcome β
  | .done a => .done (f a)
  | .thrown a => .thrown (f a)
  | .stuck => .stuck

def state : Outcome α → Option α
  | .done a | .thrown a => some a
  | .stuck => none

/-- The call is not stuck, and `P` holds afterwards. -/
def Leaves (P : α → Prop) : Outcome α → Prop
  | .done a | .thrown a => P a
  | .stuck => False

end Outcome

section Functions

variable (memory : Nat)

/-- The constructor, where `memory` is what the allocator gives at most. -/
def construct (len : Nat) : Option MsgBuffer :=
  if sizeT (len + kBufferOffset) ≤ memory then
    some {
      head := kBufferOffset
      initCap := len
      buffer := List.replicate (sizeT (len + kBufferOffset)) 0
      tail := kBufferOffset }
  else none

def newLength (b : MsgBuffer) (len : Nat) : Nat :=
  if sizeT (b.buffer.length * 2) > sizeT (kBufferOffset + readableBytes b + len) then
    sizeT (b.buffer.length * 2)
  else sizeT (kBufferOffset + readableBytes b + len)

def grow (b : MsgBuffer) (len : Nat) : Outcome MsgBuffer :=
  match construct memory (newLength b len) with
  | none => .thrown b
  | some newbuffer => .ofOption (put newbuffer (readable b))

def ensureWritableBytes (b : MsgBuffer) (len : Nat) : Outcome MsgBuffer :=
  if writableBytes b ≥ len then .done b
  else if sizeT (b.head + writableBytes b) ≥ sizeT (len + kBufferOffset) then .ofOption (compact b)
  else grow memory b len

def append (b : MsgBuffer) (data : Bytes) : Outcome MsgBuffer :=
  (ensureWritableBytes memory b data.length).bind fun b => .ofOption (put b data)

def appendLiteral (b : MsgBuffer) (chars : Bytes) : Outcome MsgBuffer :=
  if isLiteral chars then append memory b (chars.take (chars.length - 1)) else .stuck

def appendBuffer (b buf : MsgBuffer) : Outcome MsgBuffer :=
  (ensureWritableBytes memory b (readableBytes buf)).bind fun b => .ofOption (put b (readable buf))

def appendSelf (b : MsgBuffer) : Outcome MsgBuffer :=
  (ensureWritableBytes memory b (readableBytes b)).bind fun b => .ofOption (put b (readable b))

def readFd {ε : Type*} (b : MsgBuffer) : Except ε Bytes → Outcome MsgBuffer
  | .error _ => .done b
  | .ok data =>
      if data.length > room b then .stuck
      else
        let writable := writableBytes b
        (Outcome.ofOption (write b (data.take writable))).bind fun b =>
          if data.length ≤ writable then .done { b with tail := b.tail + data.length }
          else append memory { b with tail := b.buffer.length } (data.drop writable)

def reallocate (b : MsgBuffer) (data : Bytes) : Outcome MsgBuffer :=
  let newLen :=
    if sizeT (data.length + readableBytes b) < b.initCap then b.initCap
    else sizeT (data.length + readableBytes b)
  match construct memory newLen with
  | none => .thrown b
  | some newBuf => .ofOption ((put newBuf data).bind fun newBuf => put newBuf (readable b))

def addInFront (b : MsgBuffer) (data : Bytes) : Outcome MsgBuffer :=
  if b.head ≥ data.length then .ofOption (fillHead b data)
  else if data.length ≤ writableBytes b then .ofOption (moveBack b data)
  else reallocate memory b data

end Functions

section Calls

variable {ι ε : Type*} [DecidableEq ι] (memory : Nat) (host : Endian)

def step (s : ι → MsgBuffer) : Call ι ε → Outcome (ι → MsgBuffer)
  | .buffer (.append i data) => (append memory (s i) data).map (Function.update s i)
  | .buffer (.appendLiteral i chars) => (appendLiteral memory (s i) chars).map (Function.update s i)
  | .buffer (.appendBuffer i j) =>
      (if i = j then appendSelf memory (s i) else appendBuffer memory (s i) (s j)).map
        (Function.update s i)
  | .buffer (.ensureWritableBytes i len) =>
      (ensureWritableBytes memory (s i) len).map (Function.update s i)
  | .buffer (.readFd i answer) => (readFd memory (s i) answer).map (Function.update s i)
  | .buffer op => .ofOption ((MsgBufferVector.step s op).map Prod.fst)
  | .addInFront i data => (addInFront memory (s i) data).map (Function.update s i)
  | .appendInt i v => (append memory (s i) (wireBytes host v)).map (Function.update s i)
  | .addInFrontInt i v => (addInFront memory (s i) (wireBytes host v)).map (Function.update s i)
  | .readInt i width =>
      .ofOption ((readInt host (s i) width).map fun r => Function.update s i r.1)

def next (s : ι → MsgBuffer) (call : Call ι ε) : Option (ι → MsgBuffer) :=
  (step memory host s call).state

/-- What the source asserts, and that lengths are those of blocks in memory or of type `size_t`. -/
def Asserted (s : ι → MsgBuffer) (call : Call ι ε) : Prop :=
  MsgBufferCalls.Asserted s call ∧
    match call with
    | .buffer (.append _ data) | .addInFront _ data => data.length ≤ addressable
    | .buffer (.appendLiteral _ chars) => chars.length ≤ addressable
    | .buffer (.ensureWritableBytes _ len) => len < sizeLimit
    | _ => True

end Calls

/-- `head_ <= tail_ <= buffer_.size()`. -/
def Ordered (b : MsgBuffer) : Prop := b.head ≤ b.tail ∧ b.tail ≤ b.buffer.length

/-- The call touches no memory outside of the vectors, and afterwards all indices are in order. -/
def Keeps {ι ε : Type*} [DecidableEq ι] (memory : Nat) (host : Endian) (s : ι → MsgBuffer)
    (call : Call ι ε) : Prop :=
  (step memory host s call).Leaves fun s' => ∀ i, Ordered (s' i)

/-- No sum that `ensureWritableBytes` makes of the length ends up below the region it is made for.
-/
def Representable (b : MsgBuffer) (len : Nat) : Prop :=
  if sizeLimit ≤ len + kBufferOffset ∧ len + kBufferOffset - sizeLimit ≤ b.head + writableBytes b then
    kBufferOffset + readableBytes b ≤ b.buffer.length
  else
    kBufferOffset + readableBytes b + len < sizeLimit - kBufferOffset ∨
      sizeLimit ≤ kBufferOffset + readableBytes b + len

/-- A buffer that is drained was built for at least eight bytes, and no length that is asked for
makes `size_t` wrap. -/
def Careful {ι ε : Type*} (s : ι → MsgBuffer) : Call ι ε → Prop
  | .buffer (.ensureWritableBytes i len) => Representable (s i) len
  | call => ∀ taken, takes s call = some taken →
      readableBytes (s taken.1) ≤ taken.2 → kBufferOffset ≤ (s taken.1).initCap

namespace Outcome

variable {α β : Type*} {P Q : α → Prop} {o : Outcome α}

theorem leaves_ofOption_iff {x : Option α} : (ofOption x).Leaves P ↔ ∃ a, x = some a ∧ P a := by
  cases x with
  | none => exact ⟨False.elim, fun ⟨a, ha, _⟩ => absurd ha (by simp)⟩
  | some a => exact ⟨fun h => ⟨a, rfl, h⟩, fun ⟨_, ha, h⟩ => Option.some.inj ha ▸ h⟩

theorem leaves_map_iff {f : α → β} {P : β → Prop} :
    (o.map f).Leaves P ↔ o.Leaves fun a => P (f a) := by
  cases o <;> exact Iff.rfl

theorem Leaves.bind {f : α → Outcome α} (h : o.Leaves P)
    (hf : ∀ a, o = .done a → (f a).Leaves P) : (o.bind f).Leaves P := by
  cases o with
  | done a => exact hf a rfl
  | thrown a => exact h
  | stuck => exact h

theorem Leaves.imp (h : o.Leaves P) (hPQ : ∀ a, P a → Q a) : o.Leaves Q := by
  cases o with
  | done a | thrown a => exact hPQ a h
  | stuck => exact h

theorem Leaves.of_state (h : o.Leaves P) {a : α} (ha : o.state = some a) : P a := by
  cases o with
  | done a' | thrown a' => exact Option.some.inj ha ▸ h
  | stuck => exact absurd h False.elim

end Outcome

/-- What the indices keep to as long as the calls are careful: the vector has the size that it was
built with. -/
structure Sized (memory : Nat) (b : MsgBuffer) : Prop where
  head_le_tail : b.head ≤ b.tail
  tail_le : b.tail ≤ b.buffer.length
  length_eq : b.buffer.length = b.initCap + kBufferOffset
  length_le : b.buffer.length ≤ memory

section Sizes

variable {memory : Nat} {b b' : MsgBuffer}

theorem Sized.ordered (h : Sized memory b) : Ordered b := ⟨h.head_le_tail, h.tail_le⟩

theorem Sized.readableBytes_le (h : Sized memory b) : readableBytes b ≤ b.buffer.length := by
  have htail := h.tail_le
  rw [readableBytes]
  omega

theorem Sized.length_readable (h : Sized memory b) : (readable b).length = readableBytes b := by
  have hhead := h.head_le_tail
  have htail := h.tail_le
  rw [readable, peekBytes, readableBytes, Nat.add_sub_of_le hhead, length_region htail]

theorem sizeT_of_lt {n : Nat} (h : n < sizeLimit) : sizeT n = n := Nat.mod_eq_of_lt h

theorem sized_of_construct {len : Nat} (hlen : len + kBufferOffset < sizeLimit)
    (h : construct memory len = some b) :
    Sized memory b ∧ writableBytes b = len ∧ b.tail = kBufferOffset ∧ b.head = kBufferOffset := by
  rw [construct, sizeT_of_lt hlen] at h
  obtain ⟨hmemory, hb⟩ := Option.ite_none_right_eq_some.mp h
  obtain rfl := Option.some.inj hb
  refine ⟨⟨le_rfl, ?_, ?_, ?_⟩, ?_, rfl, rfl⟩
  · rw [List.length_replicate]
    exact Nat.le_add_left _ _
  · exact List.length_replicate
  · rw [List.length_replicate]
    exact hmemory
  · rw [writableBytes, List.length_replicate, Nat.add_sub_cancel]

theorem length_lt_of_construct {len : Nat} (hlt : len < sizeLimit)
    (hlen : sizeLimit ≤ len + kBufferOffset) (h : construct memory len = some b) :
    b.buffer.length < kBufferOffset ∧ b.tail = kBufferOffset := by
  obtain ⟨-, hb⟩ := Option.ite_none_right_eq_some.mp h
  obtain rfl := Option.some.inj hb
  refine ⟨?_, rfl⟩
  simp only [List.length_replicate, sizeT, sizeLimit, kBufferOffset] at *
  omega

theorem put_sized (h : Sized memory b) {data : Bytes} (hfits : data.length ≤ writableBytes b) :
    ∃ b', put b data = some b' ∧ Sized memory b' ∧
      writableBytes b' = writableBytes b - data.length := by
  have hhead := h.head_le_tail
  have htail := h.tail_le
  rw [writableBytes] at hfits
  obtain ⟨buffer, hstore⟩ := store_of_le (show b.tail + data.length ≤ b.buffer.length by omega)
  have hlength := length_store hstore
  refine ⟨{ b with buffer, tail := b.tail + data.length }, ?_, ⟨?_, ?_, ?_, ?_⟩, ?_⟩
  · rw [put, write, hstore, Option.map_some, Option.map_some]
  · exact hhead.trans (Nat.le_add_right _ _)
  · simp only
    omega
  · exact hlength.trans h.length_eq
  · exact hlength.le.trans h.length_le
  · rw [writableBytes, writableBytes, hlength, Nat.sub_sub]

theorem put_eq_none {data : Bytes} (h : b.buffer.length < b.tail + data.length) :
    put b data = none := by
  rw [put, write, store, if_neg (Nat.not_le.mpr h)]
  rfl

end Sizes

section Room

variable {memory : Nat} {b : MsgBuffer} {len : Nat}

/-- Neither sum that a new buffer is built with wraps, or the doubled size is taken. -/
theorem newLength_spec (hmemory : memory ≤ addressable) (h : Sized memory b)
    (hrep : kBufferOffset + readableBytes b + len < sizeLimit - kBufferOffset ∨
      sizeLimit ≤ kBufferOffset + readableBytes b + len) (hlen : len < sizeLimit) :
    newLength b len + kBufferOffset < sizeLimit ∧ readableBytes b ≤ newLength b len ∧
      (len ≤ addressable → readableBytes b + len ≤ newLength b len) := by
  have hread := h.readableBytes_le
  have hsize := h.length_eq
  have hle := h.length_le
  rw [newLength]
  split <;> simp only [sizeT, sizeLimit, addressable, kBufferOffset] at * <;> omega

theorem grow_leaves (hmemory : memory ≤ addressable) (h : Sized memory b)
    (hrep : kBufferOffset + readableBytes b + len < sizeLimit - kBufferOffset ∨
      sizeLimit ≤ kBufferOffset + readableBytes b + len) (hlen : len < sizeLimit) :
    (grow memory b len).Leaves (Sized memory) ∧
      ∀ b', grow memory b len = .done b' →
        readableBytes b' = readableBytes b ∧ (len ≤ addressable → len ≤ writableBytes b') := by
  obtain ⟨hnew, hread, hroom⟩ := newLength_spec hmemory h hrep hlen
  rw [grow]
  split
  · exact ⟨h, fun b' hb' => absurd hb' (by simp)⟩
  · rename_i newbuffer hconstruct
    obtain ⟨hsized, hwritable, htail, hhead⟩ := sized_of_construct hnew hconstruct
    have hlength := h.length_readable
    obtain ⟨b', hput, hsized', hwritable'⟩ :=
      put_sized hsized (show (readable b).length ≤ writableBytes newbuffer by omega)
    have hbounds : b'.head = newbuffer.head ∧ b'.tail = newbuffer.tail + (readable b).length := by
      rw [put, write, Option.map_map] at hput
      obtain ⟨buffer, -, rfl⟩ := Option.map_eq_some_iff.mp hput
      exact ⟨rfl, rfl⟩
    rw [hput]
    refine ⟨hsized', ?_⟩
    intro b'' hb''
    obtain rfl := Outcome.done.inj hb''
    refine ⟨?_, fun hle => ?_⟩
    · rw [readableBytes, hbounds.1, hbounds.2]
      omega
    · have := hroom hle
      omega

theorem compact_sized (h : Sized memory b)
    (hroom : kBufferOffset + readableBytes b ≤ b.buffer.length) :
    ∃ b', compact b = some b' ∧ Sized memory b' ∧ readableBytes b' = readableBytes b ∧
      writableBytes b' = b.buffer.length - (kBufferOffset + readableBytes b) := by
  have hhead := h.head_le_tail
  have htail := h.tail_le
  obtain ⟨buffer, hcopy, hlength⟩ := exists_copy
    (show b.head + readableBytes b ≤ b.buffer.length by rw [readableBytes]; omega) hroom
  refine ⟨_, by rw [compact, hcopy, Option.map_some], ⟨?_, ?_, ?_, ?_⟩, ?_, ?_⟩
  · exact Nat.le_add_right _ _
  · exact hroom.trans_eq hlength.symm
  · exact hlength.trans h.length_eq
  · exact hlength.le.trans h.length_le
  · exact Nat.add_sub_cancel_left _ _
  · rw [writableBytes, hlength]

theorem offset_add_le (h : Sized memory b) (hlen : len < sizeLimit)
    (hrep : Representable b len)
    (hroom : sizeT (b.head + writableBytes b) ≥ sizeT (len + kBufferOffset)) :
    kBufferOffset + readableBytes b ≤ b.buffer.length := by
  have hhead := h.head_le_tail
  have htail := h.tail_le
  have hle := h.length_le
  rw [Representable] at hrep
  split at hrep
  · exact hrep
  · rename_i hwrap
    simp only [sizeT, sizeLimit, kBufferOffset, writableBytes, readableBytes] at *
    omega

theorem sum_of_full (hmemory : memory ≤ addressable) (h : Sized memory b) (hlen : len < sizeLimit)
    (hrep : Representable b len)
    (hfull : ¬sizeT (b.head + writableBytes b) ≥ sizeT (len + kBufferOffset)) :
    kBufferOffset + readableBytes b + len < sizeLimit - kBufferOffset ∨
      sizeLimit ≤ kBufferOffset + readableBytes b + len := by
  have hhead := h.head_le_tail
  have htail := h.tail_le
  have hle := h.length_le
  rw [Representable] at hrep
  split at hrep
  · rename_i hwrap
    apply absurd _ hfull
    simp only [sizeT, sizeLimit, addressable, kBufferOffset, writableBytes, readableBytes] at *
    omega
  · exact hrep

theorem ensureWritableBytes_leaves (hmemory : memory ≤ addressable) (h : Sized memory b)
    (hlen : len < sizeLimit) (hrep : Representable b len) :
    (ensureWritableBytes memory b len).Leaves (Sized memory) ∧
      ∀ b', ensureWritableBytes memory b len = .done b' →
        readableBytes b' = readableBytes b ∧ (len ≤ addressable → len ≤ writableBytes b') := by
  rw [ensureWritableBytes]
  split
  · rename_i hroom
    refine ⟨h, ?_⟩
    intro b' hb'
    obtain rfl := Outcome.done.inj hb'
    exact ⟨rfl, fun _ => hroom⟩
  · rename_i hless
    split
    · rename_i hroom
      obtain ⟨b', hcompact, hsized, hread, hwritable⟩ :=
        compact_sized h (offset_add_le h hlen hrep hroom)
      rw [hcompact]
      refine ⟨hsized, ?_⟩
      intro b'' hb''
      obtain rfl := Outcome.done.inj hb''
      refine ⟨hread, fun hle => ?_⟩
      have hhead := h.head_le_tail
      have htail := h.tail_le
      have hmax := h.length_le
      simp only [sizeT, sizeLimit, addressable, kBufferOffset, writableBytes, readableBytes] at *
      omega
    · rename_i hfull
      exact grow_leaves hmemory h (sum_of_full hmemory h hlen hrep hfull) hlen

theorem representable_of_le (hmemory : memory ≤ addressable) (h : Sized memory b)
    (hlen : len ≤ addressable) : Representable b len := by
  have hread := h.readableBytes_le
  have hle := h.length_le
  rw [Representable, if_neg]
  · left
    simp only [sizeLimit, addressable, kBufferOffset] at *
    omega
  · simp only [sizeLimit, addressable, kBufferOffset] at *
    omega

theorem ensureWritableBytes_stuck (hmemory : memory ≤ addressable) (h : Sized memory b)
    (hlen : len < sizeLimit) (hrep : ¬Representable b len) :
    ensureWritableBytes memory b len = .stuck := by
  have hhead := h.head_le_tail
  have htail := h.tail_le
  have hsize := h.length_eq
  have hle := h.length_le
  have hlength := h.length_readable
  rw [Representable] at hrep
  split at hrep
  · rename_i hwrap
    rw [ensureWritableBytes, if_neg, if_pos]
    · cases hcopy : copy (readableBytes b) b.head kBufferOffset b.buffer with
      | none => rw [compact, hcopy]; rfl
      | some buffer =>
          have hroom := room_of_copy hcopy
          omega
    · simp only [sizeT, sizeLimit, addressable, kBufferOffset, writableBytes, readableBytes] at *
      omega
    · simp only [sizeLimit, addressable, kBufferOffset, writableBytes, readableBytes] at *
      omega
  · rename_i hwrap
    have hnew : newLength b len = kBufferOffset + readableBytes b + len := by
      rw [newLength, if_neg, sizeT_of_lt]
      · omega
      · simp only [sizeT, sizeLimit, addressable, kBufferOffset, readableBytes] at *
        omega
    rw [ensureWritableBytes, if_neg, if_neg]
    · rw [grow]
      split
      · rename_i hnone
        rw [construct, if_pos] at hnone
        · exact absurd hnone (by simp)
        · simp only [sizeT, sizeLimit, addressable, kBufferOffset] at *
          omega
      · rename_i newbuffer hconstruct
        obtain ⟨hshort, htail'⟩ := length_lt_of_construct (by omega) (by omega) hconstruct
        rw [put_eq_none (by omega)]
        rfl
    · simp only [sizeT, sizeLimit, addressable, kBufferOffset, writableBytes, readableBytes] at *
      omega
    · simp only [sizeLimit, addressable, kBufferOffset, writableBytes, readableBytes] at *
      omega

end Room

section Careful

variable {memory : Nat} {b : MsgBuffer} {data : Bytes}

theorem append_leaves (hmemory : memory ≤ addressable) (h : Sized memory b)
    (hdata : data.length ≤ addressable) : (append memory b data).Leaves (Sized memory) := by
  have hlen : data.length < sizeLimit := hdata.trans_lt (by decide)
  obtain ⟨hleaves, hdone⟩ :=
    ensureWritableBytes_leaves hmemory h hlen (representable_of_le hmemory h hdata)
  apply hleaves.bind
  intro b₁ hb₁
  rw [hb₁] at hleaves
  obtain ⟨b', hput, hsized, -⟩ := put_sized hleaves ((hdone b₁ hb₁).2 hdata)
  exact Outcome.leaves_ofOption_iff.mpr ⟨b', hput, hsized⟩

theorem appendBuffer_leaves (hmemory : memory ≤ addressable) (h : Sized memory b) {buf : MsgBuffer}
    (hbuf : Sized memory buf) : (appendBuffer memory b buf).Leaves (Sized memory) := by
  have hlength := hbuf.length_readable
  have happend := append_leaves hmemory h
    (hlength.le.trans (hbuf.readableBytes_le.trans (hbuf.length_le.trans hmemory)))
  rwa [append, hlength] at happend

theorem appendSelf_leaves (hmemory : memory ≤ addressable) (h : Sized memory b) :
    (appendSelf memory b).Leaves (Sized memory) := by
  have hread := h.readableBytes_le.trans (h.length_le.trans hmemory)
  have hlen : readableBytes b < sizeLimit := hread.trans_lt (by decide)
  obtain ⟨hleaves, hdone⟩ :=
    ensureWritableBytes_leaves hmemory h hlen (representable_of_le hmemory h hread)
  apply hleaves.bind
  intro b₁ hb₁
  rw [hb₁] at hleaves
  obtain ⟨hsame, hroom⟩ := hdone b₁ hb₁
  have hfits : (readable b₁).length ≤ writableBytes b₁ := by
    rw [hleaves.length_readable, hsame]
    exact hroom hread
  obtain ⟨b', hput, hsized, -⟩ := put_sized hleaves hfits
  exact Outcome.leaves_ofOption_iff.mpr ⟨b', hput, hsized⟩

theorem room_le (b : MsgBuffer) : room b ≤ addressable := by
  have hiov : iovLen (writableBytes b) < 2147483648 := by
    rw [iovLen]
    split <;> omega
  rw [room, addressable]
  split
  · rw [extBufferSize]
    omega
  · omega

theorem readFd_leaves {ε : Type*} (hmemory : memory ≤ addressable) (h : Sized memory b)
    {answer : Except ε Bytes} (hroom : ∀ data, answer = .ok data → data.length ≤ room b) :
    (readFd memory b answer).Leaves (Sized memory) := by
  cases answer with
  | error e => exact h
  | ok data =>
      have hdata := hroom data rfl
      have hhead := h.head_le_tail
      have htail := h.tail_le
      rw [readFd, if_neg (Nat.not_lt.mpr hdata)]
      obtain ⟨buffer, hstore⟩ := store_of_le
        (show b.tail + (data.take (writableBytes b)).length ≤ b.buffer.length by
          rw [List.length_take, writableBytes]
          omega)
      have hlength := length_store hstore
      simp only [write, hstore, Option.map_some, Outcome.ofOption, Outcome.bind]
      split
      · rename_i hfits
        rw [writableBytes] at hfits
        refine ⟨hhead.trans (Nat.le_add_right _ _), ?_, hlength.trans h.length_eq,
          hlength.le.trans h.length_le⟩
        simp only
        omega
      · have hfull : Sized memory { b with buffer, tail := buffer.length } :=
          ⟨hhead.trans (htail.trans hlength.ge), le_rfl, hlength.trans h.length_eq,
            hlength.le.trans h.length_le⟩
        apply append_leaves hmemory hfull
        rw [List.length_drop]
        exact (Nat.sub_le _ _).trans (hdata.trans (room_le b))

theorem fillHead_sized (h : Sized memory b) (hroom : data.length ≤ b.head) :
    ∃ b', fillHead b data = some b' ∧ Sized memory b' := by
  have hhead := h.head_le_tail
  have htail := h.tail_le
  obtain ⟨buffer, hstore⟩ := store_of_le
    (show b.head - data.length + data.length ≤ b.buffer.length by omega)
  have hlength := length_store hstore
  refine ⟨{ b with head := b.head - data.length, buffer }, ?_, ⟨?_, htail.trans hlength.ge,
    hlength.trans h.length_eq, hlength.le.trans h.length_le⟩⟩
  · rw [fillHead, hstore, Option.map_some]
  · exact (Nat.sub_le _ _).trans hhead

theorem moveBack_sized (h : Sized memory b) (hroom : data.length ≤ writableBytes b) :
    ∃ b', moveBack b data = some b' ∧ Sized memory b' := by
  have hhead := h.head_le_tail
  have htail := h.tail_le
  rw [writableBytes] at hroom
  obtain ⟨moved, hcopy, hmoved⟩ := exists_copy
    (show b.head + readableBytes b ≤ b.buffer.length by rw [readableBytes]; omega)
    (show b.head + data.length + readableBytes b ≤ b.buffer.length by rw [readableBytes]; omega)
  obtain ⟨buffer, hstore⟩ := store_of_le (show b.head + data.length ≤ moved.length by omega)
  have hlength := (length_store hstore).trans hmoved
  refine ⟨{ b with buffer, tail := b.tail + data.length }, ?_,
    ⟨hhead.trans (Nat.le_add_right _ _), ?_, hlength.trans h.length_eq,
      hlength.le.trans h.length_le⟩⟩
  · rw [moveBack, hcopy, Option.bind_some, hstore, Option.map_some]
  · simp only
    omega

theorem reallocate_leaves (hmemory : memory ≤ addressable) (h : Sized memory b)
    (hdata : data.length ≤ addressable) : (reallocate memory b data).Leaves (Sized memory) := by
  have hread := h.readableBytes_le.trans (h.length_le.trans hmemory)
  have hsum : sizeT (data.length + readableBytes b) = data.length + readableBytes b := by
    apply sizeT_of_lt
    simp only [sizeLimit, addressable] at *
    omega
  have hnew : ∀ newLen, newLen + kBufferOffset < sizeLimit → data.length + readableBytes b ≤ newLen →
      Outcome.Leaves (Sized memory) (match construct memory newLen with
        | none => .thrown b
        | some newBuf => .ofOption ((put newBuf data).bind fun newBuf => put newBuf (readable b))) := by
    intro newLen hlt hle
    split
    · exact h
    · rename_i newBuf hconstruct
      obtain ⟨hsized, hwritable, -⟩ := sized_of_construct hlt hconstruct
      obtain ⟨b₁, hput, hsized₁, hwritable₁⟩ :=
        put_sized hsized (show data.length ≤ writableBytes newBuf by omega)
      have hlength := h.length_readable
      obtain ⟨b', hput', hsized', -⟩ :=
        put_sized hsized₁ (show (readable b).length ≤ writableBytes b₁ by omega)
      rw [hput, Option.bind_some, hput']
      exact hsized'
  have hcap := h.length_eq
  have hsize := h.length_le
  rw [reallocate, hsum]
  apply hnew
  · split <;> simp only [sizeLimit, addressable, kBufferOffset] at * <;> omega
  · split <;> omega

theorem addInFront_leaves (hmemory : memory ≤ addressable) (h : Sized memory b)
    (hdata : data.length ≤ addressable) : (addInFront memory b data).Leaves (Sized memory) := by
  rw [addInFront]
  split
  · rename_i hroom
    exact Outcome.leaves_ofOption_iff.mpr (fillHead_sized h hroom)
  · split
    · rename_i hroom
      exact Outcome.leaves_ofOption_iff.mpr (moveBack_sized h hroom)
    · exact reallocate_leaves hmemory h hdata

theorem retrieve_sized (h : Sized memory b) {len : Nat}
    (hcareful : readableBytes b ≤ len → kBufferOffset ≤ b.initCap) :
    Sized memory (retrieve b len) := by
  have hhead := h.head_le_tail
  have hlength := h.length_eq
  rw [retrieve]
  split
  · rename_i hall
    have hcap := hcareful hall
    rw [retrieveAll, if_neg (by omega)]
    exact ⟨le_rfl, by simp only; omega, h.length_eq, h.length_le⟩
  · rename_i hless
    refine ⟨?_, h.tail_le, h.length_eq, h.length_le⟩
    rw [readableBytes] at hless
    simp only
    omega

theorem not_ordered_retrieveAll (h : Sized memory b) (hcap : b.initCap < kBufferOffset) :
    ¬Ordered (retrieveAll b) := by
  have hlength := h.length_eq
  rw [retrieveAll, if_pos (by omega)]
  rintro ⟨-, htail⟩
  simp only [List.length_take] at htail
  omega

theorem ordered_retrieve_iff (h : Sized memory b) (len : Nat) :
    Ordered (retrieve b len) ↔ (readableBytes b ≤ len → kBufferOffset ≤ b.initCap) := by
  constructor
  · intro hordered hall
    by_contra hcap
    rw [retrieve, if_pos hall] at hordered
    exact not_ordered_retrieveAll h (Nat.not_le.mp hcap) hordered
  · intro hcareful
    exact (retrieve_sized h hcareful).ordered

theorem length_wireBytes_le (host : Endian) (v : IntValue) :
    (wireBytes host v).length ≤ addressable := by
  rw [length_wireBytes]
  cases v <;> simp [IntValue.width, IntWidth.bytes, addressable]

end Careful

section Steps

variable {ι ε : Type*} [DecidableEq ι] {memory : Nat} {host : Endian} {s : ι → MsgBuffer}

theorem leaves_update {P : MsgBuffer → Prop} (h : ∀ i, P (s i)) {i : ι} {o : Outcome MsgBuffer}
    (ho : o.Leaves P) : (o.map (Function.update s i)).Leaves fun s' => ∀ j, P (s' j) := by
  apply Outcome.leaves_map_iff.mpr
  apply ho.imp
  intro b hb j
  rw [Function.update_apply]
  split
  · exact hb
  · exact h j

theorem step_of_takes {call : Call ι ε} {taken : ι × Nat} (htakes : takes s call = some taken)
    (hasserted : MsgBufferCalls.Asserted s call) :
    step memory host s call =
      .done (Function.update s taken.1 (retrieve (s taken.1) taken.2)) := by
  have hstep : step memory host s call = .ofOption (MsgBufferCalls.step host s call) := by
    cases call with
    | buffer op => cases op <;> first | rfl | exact absurd htakes (by simp [takes])
    | readInt i width => rfl
    | _ => exact absurd htakes (by simp [takes])
  rw [hstep, MsgBufferCalls.step_of_takes htakes hasserted]
  rfl

omit [DecidableEq ι] in
theorem careful_iff_of_takes {call : Call ι ε} {taken : ι × Nat}
    (htakes : takes s call = some taken) :
    Careful s call ↔ (readableBytes (s taken.1) ≤ taken.2 → kBufferOffset ≤ (s taken.1).initCap) := by
  have hcareful : Careful s call ↔ ∀ taken, takes s call = some taken →
      readableBytes (s taken.1) ≤ taken.2 → kBufferOffset ≤ (s taken.1).initCap := by
    cases call with
    | buffer op => cases op <;> first | rfl | exact absurd htakes (by simp [takes])
    | _ => rfl
  rw [hcareful, htakes]
  exact ⟨fun h => h taken rfl, fun h _ htaken => Option.some.inj htaken ▸ h⟩

theorem step_sized (hmemory : memory ≤ addressable) (h : ∀ i, Sized memory (s i)) {call : Call ι ε}
    (hasserted : Asserted s call) (hcareful : Careful s call) :
    (step memory host s call).Leaves fun s' => ∀ i, Sized memory (s' i) := by
  cases htakes : takes s call with
  | some taken =>
      rw [step_of_takes htakes hasserted.1]
      exact leaves_update h (o := .done _)
        (retrieve_sized (h taken.1) ((careful_iff_of_takes htakes).mp hcareful))
  | none =>
      obtain ⟨hasserted, hlen⟩ := hasserted
      cases call with
      | buffer op =>
          cases op with
          | append i data => exact leaves_update h (append_leaves hmemory (h i) hlen)
          | appendLiteral i chars =>
              have hdata : (chars.take (chars.length - 1)).length ≤ addressable :=
                (List.length_take_le' _ _).trans hlen
              have hliteral : isLiteral chars := hasserted
              apply leaves_update h
              rw [appendLiteral, if_pos hliteral]
              exact append_leaves hmemory (h i) hdata
          | appendBuffer i j =>
              apply leaves_update h
              split
              · exact appendSelf_leaves hmemory (h i)
              · exact appendBuffer_leaves hmemory (h i) (h j)
          | ensureWritableBytes i len =>
              exact leaves_update h (ensureWritableBytes_leaves hmemory (h i) hlen hcareful).1
          | hasWritten i data =>
              obtain ⟨b', hput, hsized, -⟩ := put_sized (h i) hasserted
              change (Outcome.ofOption ((update s i _).map Prod.fst)).Leaves _
              rw [hasWritten_eq_put data hasserted, hput]
              exact leaves_update h (o := .done b') hsized
          | unwrite i offset =>
              have hoffset : readableBytes (s i) ≥ offset := hasserted
              change (Outcome.ofOption ((update s i (unwrite (s i) offset)).map Prod.fst)).Leaves _
              rw [unwrite, if_pos hoffset]
              apply leaves_update h (o := .done _)
              refine ⟨?_, (Nat.sub_le _ _).trans (h i).tail_le, (h i).length_eq, (h i).length_le⟩
              have hhead := (h i).head_le_tail
              rw [readableBytes] at hoffset
              simp only
              omega
          | swap i j => exact fun k => h (Equiv.swap i j k)
          | readFd i answer =>
              apply leaves_update h
              apply readFd_leaves hmemory (h i)
              rintro data rfl
              exact hasserted
          | _ => exact absurd htakes (by simp [takes])
      | addInFront i data => exact leaves_update h (addInFront_leaves hmemory (h i) hlen)
      | appendInt i v =>
          exact leaves_update h (append_leaves hmemory (h i) (length_wireBytes_le host v))
      | addInFrontInt i v =>
          exact leaves_update h (addInFront_leaves hmemory (h i) (length_wireBytes_le host v))
      | readInt i width => exact absurd htakes (by simp [takes])

theorem careful_of_keeps (hmemory : memory ≤ addressable) (h : ∀ i, Sized memory (s i))
    {call : Call ι ε} (hasserted : Asserted s call) (hkeeps : Keeps memory host s call) :
    Careful s call := by
  cases htakes : takes s call with
  | some taken =>
      rw [Keeps, step_of_takes htakes hasserted.1] at hkeeps
      have hordered := hkeeps taken.1
      rw [Function.update_self] at hordered
      exact (careful_iff_of_takes htakes).mpr ((ordered_retrieve_iff (h taken.1) taken.2).mp hordered)
  | none =>
      have hnone : ∀ taken, takes s call = some taken →
          readableBytes (s taken.1) ≤ taken.2 → kBufferOffset ≤ (s taken.1).initCap := by
        intro taken htaken
        exact absurd (htakes.symm.trans htaken) (by simp)
      cases call with
      | buffer op =>
          cases op with
          | ensureWritableBytes i len =>
              by_contra hrep
              rw [Keeps, step, ensureWritableBytes_stuck hmemory (h i) hasserted.2 hrep] at hkeeps
              exact hkeeps
          | _ => exact hnone
      | _ => exact hnone

theorem next_sized (hmemory : memory ≤ addressable) {call : Call ι ε} {s' : ι → MsgBuffer}
    (h : ∀ i, Sized memory (s i)) (hasserted : Asserted s call) (hcareful : Careful s call)
    (hnext : next memory host s call = some s') : ∀ i, Sized memory (s' i) :=
  (step_sized hmemory h hasserted hcareful).of_state hnext

theorem keeps_of_careful (hmemory : memory ≤ addressable) (h : ∀ i, Sized memory (s i))
    {call : Call ι ε} (hasserted : Asserted s call) (hcareful : Careful s call) :
    Keeps memory host s call :=
  (step_sized hmemory h hasserted hcareful).imp fun _ hsized i => (hsized i).ordered

theorem ordered_construct_iff {len : Nat} {b : MsgBuffer} (hlen : len < sizeLimit)
    (h : construct memory len = some b) : Ordered b ↔ len + kBufferOffset < sizeLimit := by
  constructor
  · rintro ⟨-, htail⟩
    by_contra hwrap
    obtain ⟨hshort, hoffset⟩ := length_lt_of_construct hlen (Nat.not_lt.mp hwrap) h
    omega
  · intro hsum
    exact (sized_of_construct hsum h).1.ordered

/-- In every sequence of calls on new buffers of any lengths, each call within its precondition, the
indices stay in order and no memory outside of the vectors is touched if and only if no length is
among the last eight, what is drained was built for at least eight bytes, and `ensureWritableBytes`
is not given a length that makes its sums wrap. -/
theorem keeps_run_iff (hmemory : memory ≤ addressable) (cap : ι → Nat)
    (hcap : ∀ i, cap i < sizeLimit) (hnew : ∀ i, construct memory (cap i) = some (s i))
    (calls : List (Call ι ε)) (hasserted : AllSteps (next memory host) Asserted s calls) :
    (∀ i, Ordered (s i)) ∧ AllSteps (next memory host) (Keeps memory host) s calls ↔
      (∀ i, cap i + kBufferOffset < sizeLimit) ∧ AllSteps (next memory host) Careful s calls := by
  have hordered : (∀ i, Ordered (s i)) ↔ ∀ i, cap i + kBufferOffset < sizeLimit :=
    forall_congr' fun i => ordered_construct_iff (hcap i) (hnew i)
  rw [hordered]
  apply and_congr_right
  intro hsum
  have hsized : ∀ i, Sized memory (s i) := fun i => (sized_of_construct (hsum i) (hnew i)).1
  constructor
  · intro hkeeps
    refine AllSteps.imp (fun s => ∀ i, Sized memory (s i)) ?_ ?_ hsized (hasserted.and hkeeps)
    · intro s call s' h hboth
      exact next_sized hmemory h hboth.1 (careful_of_keeps hmemory h hboth.1 hboth.2)
    · intro s call h hboth
      exact careful_of_keeps hmemory h hboth.1 hboth.2
  · intro hcareful
    refine AllSteps.imp (fun s => ∀ i, Sized memory (s i)) ?_ ?_ hsized (hasserted.and hcareful)
    · intro s call s' h hboth
      exact next_sized hmemory h hboth.1 hboth.2
    · intro s call h hboth
      exact keeps_of_careful hmemory h hboth.1 hboth.2

def growAndDrain : List (Call Unit Unit) :=
  [.buffer (.append () [1, 2, 3, 4]), .buffer (.retrieve () 4),
    .buffer (.ensureWritableBytes () 18446744073709551615)]

theorem keeps_run_iff_growAndDrain :
    (∀ _ : Unit, Ordered (newMsgBuffer 3)) ∧
        AllSteps (next 4096 .little) (Keeps 4096 .little) (fun _ => newMsgBuffer 3) growAndDrain ↔
      (∀ _ : Unit, 3 + kBufferOffset < sizeLimit) ∧
        AllSteps (next 4096 .little) Careful (fun _ => newMsgBuffer 3) growAndDrain :=
  keeps_run_iff (by decide) (fun _ => 3) (fun _ => by decide) (fun _ => by decide) growAndDrain
    ⟨⟨trivial, by decide⟩, fun _ _ => ⟨⟨trivial, trivial⟩, fun _ _ =>
      ⟨⟨trivial, by decide⟩, fun _ _ => trivial⟩⟩⟩

/-- Emptied, a new buffer for no bytes has no vector left, and eight as its indices. -/
theorem not_keeps_retrieveAll :
    construct 4096 0 = some (newMsgBuffer 0) ∧
    AllSteps (next 4096 .little) Asserted (fun _ : Unit => newMsgBuffer 0)
      ([.buffer (.retrieveAll ())] : List (Call Unit Unit)) ∧
    ¬AllSteps (next 4096 .little) (Keeps 4096 .little) (fun _ : Unit => newMsgBuffer 0)
      ([.buffer (.retrieveAll ())] : List (Call Unit Unit)) ∧
    (retrieveAll (newMsgBuffer 0)).buffer.length = 0 ∧ (retrieveAll (newMsgBuffer 0)).tail = 8 := by
  refine ⟨by decide, ⟨⟨trivial, trivial⟩, fun _ _ => trivial⟩, ?_, by decide, rfl⟩
  rintro ⟨hkeeps, -⟩
  exact absurd (hkeeps ()).2 (by decide)

end Steps

end Cooper.MsgBufferIndices

import Cooper.ByteOrder
import Cooper.MsgBufferQueue

namespace Cooper.MsgBufferCalls

open Cooper.ByteOrder
open Cooper.MsgBuffer (Bytes)
open Cooper.MsgBufferQueue
open Cooper.MsgBufferVector
open Cooper.Region
open Cooper.StepRun

section Integers

variable (host : Endian)

def htons (s : UInt16) : UInt16 := UInt16.ofNat (toNetwork host 2 s.toNat)

def htonl (i : UInt32) : UInt32 := UInt32.ofNat (toNetwork host 4 i.toNat)

def ntohs (s : UInt16) : UInt16 := htons host s

def ntohl (i : UInt32) : UInt32 := htonl host i

/-- `sig` is the first byte of an `int` that is one. -/
def hton64 (n : UInt64) : UInt64 :=
  if (toMemory host 4 1).head? = some 0 then n
  else UInt64.ofNat (ofMemory host (toMemory host 8 n.toNat).reverse)

def ntoh64 (n : UInt64) : UInt64 := hton64 host n

inductive IntWidth
  | int8
  | int16
  | int32
  | int64
  deriving DecidableEq

def IntWidth.bytes : IntWidth → Nat
  | .int8 => 1
  | .int16 => 2
  | .int32 => 4
  | .int64 => 8

inductive IntValue
  | int8 (b : UInt8)
  | int16 (s : UInt16)
  | int32 (i : UInt32)
  | int64 (l : UInt64)
  deriving DecidableEq

def IntValue.width : IntValue → IntWidth
  | .int8 _ => .int8
  | .int16 _ => .int16
  | .int32 _ => .int32
  | .int64 _ => .int64

/-- The bytes of the variable that `appendInt8` and its like hand to `append`. -/
def wireBytes : IntValue → Bytes
  | .int8 b => toMemory host 1 b.toNat
  | .int16 s => toMemory host 2 (htons host s).toNat
  | .int32 i => toMemory host 4 (htonl host i).toNat
  | .int64 l => toMemory host 8 (hton64 host l).toNat

end Integers

section Functions

variable (host : Endian)

def fillHead (b : MsgBuffer) (data : Bytes) : Option MsgBuffer :=
  (store (b.head - data.length) data b.buffer).map fun buffer => { b with
    head := b.head - data.length
    buffer }

/-- `addInFront` where only the room behind the readable bytes is large enough. -/
def moveBack (b : MsgBuffer) (data : Bytes) : Option MsgBuffer :=
  (copy (readableBytes b) b.head (b.head + data.length) b.buffer).bind fun buffer =>
    (store b.head data buffer).map fun buffer => { b with
      buffer
      tail := b.tail + data.length }

def reallocate (b : MsgBuffer) (data : Bytes) : Option MsgBuffer :=
  let newLen :=
    if data.length + readableBytes b < b.initCap then b.initCap
    else data.length + readableBytes b
  (append (newMsgBuffer newLen) data).bind fun newBuf => appendBuffer newBuf b

def addInFront (b : MsgBuffer) (data : Bytes) : Option MsgBuffer :=
  if b.head ≥ data.length then fillHead b data
  else if data.length ≤ writableBytes b then moveBack b data
  else reallocate b data

def appendInt8 (b : MsgBuffer) (v : UInt8) : Option MsgBuffer := append b (wireBytes host (.int8 v))

def appendInt16 (b : MsgBuffer) (s : UInt16) : Option MsgBuffer :=
  append b (wireBytes host (.int16 s))

def appendInt32 (b : MsgBuffer) (i : UInt32) : Option MsgBuffer :=
  append b (wireBytes host (.int32 i))

def appendInt64 (b : MsgBuffer) (l : UInt64) : Option MsgBuffer :=
  append b (wireBytes host (.int64 l))

def addInFrontInt8 (b : MsgBuffer) (v : UInt8) : Option MsgBuffer :=
  addInFront b (wireBytes host (.int8 v))

def addInFrontInt16 (b : MsgBuffer) (s : UInt16) : Option MsgBuffer :=
  addInFront b (wireBytes host (.int16 s))

def addInFrontInt32 (b : MsgBuffer) (i : UInt32) : Option MsgBuffer :=
  addInFront b (wireBytes host (.int32 i))

def addInFrontInt64 (b : MsgBuffer) (l : UInt64) : Option MsgBuffer :=
  addInFront b (wireBytes host (.int64 l))

/-- The number that the `width` bytes from `peek()` on hold, behind the assertion that they are
readable. -/
def peekNat (b : MsgBuffer) (width : Nat) : Option Nat :=
  if readableBytes b ≥ width then some (ofMemory host (peekBytes b width)) else none

def peekInt8 (b : MsgBuffer) : Option UInt8 := (peekNat host b 1).map UInt8.ofNat

def peekInt16 (b : MsgBuffer) : Option UInt16 :=
  (peekNat host b 2).map fun rs => ntohs host (UInt16.ofNat rs)

def peekInt32 (b : MsgBuffer) : Option UInt32 :=
  (peekNat host b 4).map fun rl => ntohl host (UInt32.ofNat rl)

def peekInt64 (b : MsgBuffer) : Option UInt64 :=
  (peekNat host b 8).map fun rll => ntoh64 host (UInt64.ofNat rll)

def readInt8 (b : MsgBuffer) : Option (MsgBuffer × UInt8) :=
  (peekInt8 host b).map fun ret => (retrieve b 1, ret)

def readInt16 (b : MsgBuffer) : Option (MsgBuffer × UInt16) :=
  (peekInt16 host b).map fun ret => (retrieve b 2, ret)

def readInt32 (b : MsgBuffer) : Option (MsgBuffer × UInt32) :=
  (peekInt32 host b).map fun ret => (retrieve b 4, ret)

def readInt64 (b : MsgBuffer) : Option (MsgBuffer × UInt64) :=
  (peekInt64 host b).map fun ret => (retrieve b 8, ret)

def appendInt (b : MsgBuffer) : IntValue → Option MsgBuffer
  | .int8 v => appendInt8 host b v
  | .int16 s => appendInt16 host b s
  | .int32 i => appendInt32 host b i
  | .int64 l => appendInt64 host b l

def addInFrontInt (b : MsgBuffer) : IntValue → Option MsgBuffer
  | .int8 v => addInFrontInt8 host b v
  | .int16 s => addInFrontInt16 host b s
  | .int32 i => addInFrontInt32 host b i
  | .int64 l => addInFrontInt64 host b l

def readInt (b : MsgBuffer) : IntWidth → Option (MsgBuffer × IntValue)
  | .int8 => (readInt8 host b).map fun r => (r.1, .int8 r.2)
  | .int16 => (readInt16 host b).map fun r => (r.1, .int16 r.2)
  | .int32 => (readInt32 host b).map fun r => (r.1, .int32 r.2)
  | .int64 => (readInt64 host b).map fun r => (r.1, .int64 r.2)

end Functions

section Calls

variable {ι ε : Type*} [DecidableEq ι]

/-- A call on one of the buffers that a program has, of any of their functions. -/
inductive Call (ι ε : Type*)
  | buffer (op : BufferOp ι ε)
  | addInFront (i : ι) (data : Bytes)
  | appendInt (i : ι) (v : IntValue)
  | addInFrontInt (i : ι) (v : IntValue)
  | readInt (i : ι) (width : IntWidth)

def step (host : Endian) (s : ι → MsgBuffer) : Call ι ε → Option (ι → MsgBuffer)
  | .buffer op => (MsgBufferVector.step s op).map Prod.fst
  | .addInFront i data => (addInFront (s i) data).map (Function.update s i)
  | .appendInt i v => (appendInt host (s i) v).map (Function.update s i)
  | .addInFrontInt i v => (addInFrontInt host (s i) v).map (Function.update s i)
  | .readInt i width => (readInt host (s i) width).map fun r => Function.update s i r.1

def Asserted (s : ι → MsgBuffer) : Call ι ε → Prop
  | .buffer op => MsgBufferVector.Asserted s op
  | .addInFront _ _ | .appendInt _ _ | .addInFrontInt _ _ => True
  | .readInt i width => width.bytes ≤ readableBytes (s i)

def takes (s : ι → MsgBuffer) : Call ι ε → Option (ι × Nat)
  | .buffer (.retrieve i len) | .buffer (.retrieveUntil i len) | .buffer (.read i len)
  | .buffer (.readUntil i len) => some (i, len)
  | .buffer (.retrieveAll i) => some (i, readableBytes (s i))
  | .readInt i width => some (i, width.bytes)
  | _ => none

end Calls

section AddInFront

variable {b : MsgBuffer}

theorem headRoom_spec (h : Valid b) {data : Bytes} (hroom : data.length ≤ b.head) :
    ∃ b', addInFront b data = some b' ∧ Valid b' ∧ readable b' = data ++ readable b ∧
      b'.head = b.head - data.length ∧ b'.tail = b.tail := by
  have hhead := h.head_le_tail
  have htail := h.tail_le
  have hback : b.head - data.length + data.length = b.head := Nat.sub_add_cancel hroom
  obtain ⟨buffer, hstore⟩ := store_of_le (show b.head - data.length + data.length ≤
    b.buffer.length by omega)
  have hlength := length_store hstore
  have hvalid : Valid { b with head := b.head - data.length, buffer } :=
    ⟨by simp only; omega, hlength ▸ h.tail_le, h.offset_le_initCap, hlength ▸ h.offset_le⟩
  refine ⟨_, by rw [addInFront, if_pos hroom, fillHead, hstore, Option.map_some], hvalid, ?_, rfl, rfl⟩
  have hfront := region_store le_rfl hstore
  rw [hback, region_self, List.nil_append] at hfront
  rw [readable_eq hvalid, readable_eq h]
  simp only
  rw [region_append (Nat.sub_le _ _) hhead, hfront,
    region_store_behind (Nat.le_of_eq hback) hstore]

theorem moveBack_fits (h : Valid b) {data : Bytes} (hroom : data.length ≤ writableBytes b) :
    b.head + readableBytes b ≤ b.buffer.length ∧
      b.head + data.length + readableBytes b ≤ b.buffer.length := by
  have hhead := h.head_le_tail
  have htail := h.tail_le
  rw [writableBytes] at hroom
  rw [readableBytes]
  omega

theorem moveBack_spec (h : Valid b) {data : Bytes} (hroom : data.length ≤ writableBytes b) :
    ∃ moved b', copy (readableBytes b) b.head (b.head + data.length) b.buffer = some moved ∧
      moveBack b data = some b' ∧ Valid b' ∧ readable b' = data ++
        region (b.head + data.length) (b.head + data.length + readableBytes b) moved := by
  have hhead := h.head_le_tail
  obtain ⟨hfits, hdest⟩ := moveBack_fits h hroom
  have hlast : b.head + data.length + readableBytes b = b.tail + data.length := by
    rw [readableBytes]
    omega
  obtain ⟨moved, hcopy, hmoved⟩ := exists_copy hfits hdest
  obtain ⟨buffer, hstore⟩ := store_of_le (show b.head + data.length ≤ moved.length by omega)
  have hlength : buffer.length = b.buffer.length := (length_store hstore).trans hmoved
  have hvalid : Valid { b with buffer, tail := b.tail + data.length } :=
    ⟨by simp only; omega, by simp only; omega, h.offset_le_initCap, hlength ▸ h.offset_le⟩
  refine ⟨moved, _, hcopy, by rw [moveBack, hcopy, Option.bind_some, hstore, Option.map_some],
    hvalid, ?_⟩
  have hfront := region_store le_rfl hstore
  rw [region_self, List.nil_append] at hfront
  rw [readable_eq hvalid, hlast]
  simp only
  rw [region_append (Nat.le_add_right b.head data.length) (by omega), hfront,
    region_store_behind le_rfl hstore]

theorem reallocate_spec (h : Valid b) (data : Bytes) :
    ∃ b', reallocate b data = some b' ∧ Valid b' ∧ readable b' = data ++ readable b := by
  have hnew : ∀ newLen, b.initCap ≤ newLen →
      ∃ b', ((append (newMsgBuffer newLen) data).bind fun newBuf => appendBuffer newBuf b) =
        some b' ∧ Valid b' ∧ readable b' = data ++ readable b := by
    intro newLen hnewLen
    have hvalid := valid_newMsgBuffer (h.offset_le_initCap.trans hnewLen)
    obtain ⟨newBuf, happend, hnewBuf, hdata⟩ := append_spec hvalid data
    obtain ⟨b', hbuffer, hvalid', hreadable⟩ := appendBuffer_spec hnewBuf h
    refine ⟨b', by rw [happend, Option.bind_some, hbuffer], hvalid', ?_⟩
    rw [hreadable, hdata, readable_newMsgBuffer, MsgBuffer.append_eq, MsgBuffer.append_eq,
      List.nil_append]
  rw [reallocate]
  apply hnew
  split
  · exact le_rfl
  · rename_i hmore
    exact Nat.not_lt.mp hmore

theorem addInFront_valid (h : Valid b) (data : Bytes) :
    ∃ b', addInFront b data = some b' ∧ Valid b' := by
  by_cases hhead : data.length ≤ b.head
  · obtain ⟨b', hcall, hvalid, -⟩ := headRoom_spec h hhead
    exact ⟨b', hcall, hvalid⟩
  · rw [addInFront, if_neg hhead]
    split
    · rename_i hroom
      obtain ⟨-, b', -, hcall, hvalid, -⟩ := moveBack_spec h hroom
      exact ⟨b', hcall, hvalid⟩
    · obtain ⟨b', hcall, hvalid, -⟩ := reallocate_spec h data
      exact ⟨b', hcall, hvalid⟩

end AddInFront

section Integers

variable {host : Endian} {b b' : MsgBuffer}

theorem appendInt_eq (host : Endian) (b : MsgBuffer) (v : IntValue) :
    appendInt host b v = append b (wireBytes host v) := by
  cases v <;> rfl

theorem length_wireBytes (host : Endian) (v : IntValue) :
    (wireBytes host v).length = v.width.bytes := by
  cases v <;> exact length_toMemory _ _ _

theorem addInFrontInt_eq (host : Endian) (b : MsgBuffer) (v : IntValue) :
    addInFrontInt host b v = addInFront b (wireBytes host v) := by
  cases v <;> rfl

def valueOf (host : Endian) : IntWidth → Nat → IntValue
  | .int8, n => .int8 (UInt8.ofNat n)
  | .int16, n => .int16 (ntohs host (UInt16.ofNat n))
  | .int32, n => .int32 (ntohl host (UInt32.ofNat n))
  | .int64, n => .int64 (ntoh64 host (UInt64.ofNat n))

theorem readInt_eq (host : Endian) (b : MsgBuffer) (width : IntWidth) :
    readInt host b width =
      if readableBytes b ≥ width.bytes then
        some (retrieve b width.bytes,
          valueOf host width (ofMemory host (peekBytes b width.bytes)))
      else none := by
  have hif : ∀ {α β : Type} (p : Prop) [Decidable p] (f : α → β) (x : α),
      (if p then some x else none).map f = if p then some (f x) else none := by
    intro α β p _ f x
    split <;> rfl
  cases width <;>
    simp only [readInt, readInt8, readInt16, readInt32, readInt64, peekInt8, peekInt16, peekInt32,
      peekInt64, peekNat, hif] <;> rfl

end Integers

section Steps

variable {ι ε : Type*} [DecidableEq ι] {host : Endian} {s s' : ι → MsgBuffer}

theorem asserted_of_step {op : BufferOp ι ε} {result : (ι → MsgBuffer) × Bytes}
    (hstep : MsgBufferVector.step s op = some result) : MsgBufferVector.Asserted s op := by
  cases op with
  | appendLiteral i chars =>
      rw [MsgBufferVector.step, update, appendLiteral] at hstep
      obtain ⟨b, hcall, -⟩ := Option.map_eq_some_iff.mp hstep
      exact (Option.ite_none_right_eq_some.mp hcall).1
  | hasWritten i data =>
      rw [MsgBufferVector.step, update] at hstep
      obtain ⟨b, hcall, -⟩ := Option.map_eq_some_iff.mp hstep
      obtain ⟨b₁, hwrite, hwritten⟩ := Option.bind_eq_some_iff.mp hcall
      obtain ⟨buffer, hstore, rfl⟩ := Option.map_eq_some_iff.mp hwrite
      rw [hasWritten, writableBytes] at hwritten
      simp only [length_store hstore] at hwritten
      exact (Option.ite_none_right_eq_some.mp hwritten).1
  | unwrite i offset =>
      rw [MsgBufferVector.step, update, unwrite] at hstep
      obtain ⟨b, hcall, -⟩ := Option.map_eq_some_iff.mp hstep
      exact (Option.ite_none_right_eq_some.mp hcall).1
  | retrieveUntil i stop =>
      rw [MsgBufferVector.step, update, MsgBufferVector.retrieveUntil] at hstep
      obtain ⟨b, hcall, -⟩ := Option.map_eq_some_iff.mp hstep
      exact (Option.ite_none_right_eq_some.mp hcall).1
  | readUntil i stop =>
      rw [MsgBufferVector.step, updateRead, MsgBufferVector.readUntil] at hstep
      obtain ⟨b, hcall, -⟩ := Option.map_eq_some_iff.mp hstep
      exact (Option.ite_none_right_eq_some.mp hcall).1
  | readFd i answer =>
      cases answer with
      | error e => trivial
      | ok data =>
          rw [MsgBufferVector.step, update, readFd] at hstep
          obtain ⟨b, hcall, -⟩ := Option.map_eq_some_iff.mp hstep
          exact Nat.not_lt.mp (Option.ite_none_left_eq_some.mp hcall).1
  | append i data => trivial
  | appendBuffer i j => trivial
  | ensureWritableBytes i len => trivial
  | retrieve i len => trivial
  | retrieveAll i => trivial
  | read i len => trivial
  | swap i j => trivial

theorem read_eq (b : MsgBuffer) (len : Nat) : (MsgBufferVector.read b len).1 = retrieve b len := by
  rw [MsgBufferVector.read]
  simp only
  split
  · rename_i hmore
    rw [retrieve, retrieve, if_pos le_rfl, if_pos hmore.le]
  · rfl

theorem step_of_takes {call : Call ι ε} {taken : ι × Nat} (htakes : takes s call = some taken)
    (hasserted : Asserted s call) :
    step host s call = some (Function.update s taken.1 (retrieve (s taken.1) taken.2)) := by
  cases call with
  | buffer op =>
      cases op with
      | retrieve i len =>
          obtain rfl := Option.some.inj htakes
          rfl
      | retrieveUntil i stop =>
          obtain rfl := Option.some.inj htakes
          have hstop : stop ≤ readableBytes (s i) := hasserted
          rw [step, MsgBufferVector.step, retrieveUntil, if_pos hstop]
          rfl
      | retrieveAll i =>
          obtain rfl := Option.some.inj htakes
          rw [retrieve, if_pos le_rfl]
          rfl
      | read i len =>
          obtain rfl := Option.some.inj htakes
          rw [← read_eq]
          rfl
      | readUntil i stop =>
          obtain rfl := Option.some.inj htakes
          have hstop : stop ≤ readableBytes (s i) := hasserted
          rw [step, MsgBufferVector.step, readUntil, if_pos hstop]
          rfl
      | _ => exact absurd htakes (by simp [takes])
  | readInt i width =>
      obtain rfl := Option.some.inj htakes
      have hwidth : readableBytes (s i) ≥ width.bytes := hasserted
      rw [step, readInt_eq, if_pos hwidth]
      rfl
  | _ => exact absurd htakes (by simp [takes])

theorem update_valid (h : ∀ i, Valid (s i)) {i : ι} {b : MsgBuffer} (hb : Valid b) (j : ι) :
    Valid (Function.update s i b j) := by
  rw [Function.update_apply]
  split
  · exact hb
  · exact h j

theorem step_valid {call : Call ι ε} (h : ∀ i, Valid (s i)) (hstep : step host s call = some s') :
    ∀ i, Valid (s' i) := by
  cases call with
  | buffer op =>
      obtain ⟨result, hop, rfl⟩ := Option.map_eq_some_iff.mp hstep
      obtain ⟨next, hnext, hholds⟩ := refines_step s (fun i => readable (s i)) op
        (fun i => ⟨h i, rfl⟩) (asserted_of_step hop)
      obtain rfl := Option.some.inj (hop.symm.trans hnext)
      exact fun i => (hholds i).1
  | addInFront i data =>
      obtain ⟨b, hcall, rfl⟩ := Option.map_eq_some_iff.mp hstep
      obtain ⟨b', hcall', hvalid⟩ := addInFront_valid (h i) data
      obtain rfl := Option.some.inj (hcall.symm.trans hcall')
      exact update_valid h hvalid
  | appendInt i v =>
      obtain ⟨b, hcall, rfl⟩ := Option.map_eq_some_iff.mp hstep
      obtain ⟨b', hcall', hvalid, -⟩ := append_spec (h i) (wireBytes host v)
      rw [appendInt_eq] at hcall
      obtain rfl := Option.some.inj (hcall.symm.trans hcall')
      exact update_valid h hvalid
  | addInFrontInt i v =>
      obtain ⟨b, hcall, rfl⟩ := Option.map_eq_some_iff.mp hstep
      obtain ⟨b', hcall', hvalid⟩ := addInFront_valid (h i) (wireBytes host v)
      rw [addInFrontInt_eq] at hcall
      obtain rfl := Option.some.inj (hcall.symm.trans hcall')
      exact update_valid h hvalid
  | readInt i width =>
      obtain ⟨r, hcall, rfl⟩ := Option.map_eq_some_iff.mp hstep
      rw [readInt_eq] at hcall
      split at hcall
      · obtain rfl := Option.some.inj hcall
        exact update_valid h (retrieve_spec (h i) _).1
      · contradiction

theorem exists_step {call : Call ι ε} (h : ∀ i, Valid (s i)) (hasserted : Asserted s call) :
    ∃ s', step host s call = some s' := by
  cases call with
  | buffer op =>
      obtain ⟨next, hnext, -⟩ := refines_step s (fun i => readable (s i)) op
        (fun i => ⟨h i, rfl⟩) hasserted
      exact ⟨next, congrArg (Option.map Prod.fst) hnext⟩
  | addInFront i data =>
      obtain ⟨b, hcall, -⟩ := addInFront_valid (h i) data
      exact ⟨_, by rw [step, hcall, Option.map_some]⟩
  | appendInt i v =>
      obtain ⟨b, hcall, -⟩ := append_spec (h i) (wireBytes host v)
      exact ⟨_, by rw [step, appendInt_eq, hcall, Option.map_some]⟩
  | addInFrontInt i v =>
      obtain ⟨b, hcall, -⟩ := addInFront_valid (h i) (wireBytes host v)
      exact ⟨_, by rw [step, addInFrontInt_eq, hcall, Option.map_some]⟩
  | readInt i width => exact ⟨_, step_of_takes rfl hasserted⟩

theorem asserted_of_call {call : Call ι ε} (hstep : step host s call = some s') :
    Asserted s call := by
  cases call with
  | buffer op =>
      obtain ⟨result, hop, -⟩ := Option.map_eq_some_iff.mp hstep
      exact asserted_of_step hop
  | readInt i width =>
      obtain ⟨r, hcall, -⟩ := Option.map_eq_some_iff.mp hstep
      rw [readInt_eq] at hcall
      exact (Option.ite_none_right_eq_some.mp hcall).1
  | addInFront i data => trivial
  | appendInt i v => trivial
  | addInFrontInt i v => trivial

theorem valid_of_run {cap : ι → Nat} (hcap : ∀ i, kBufferOffset ≤ cap i)
    {calls : List (Call ι ε)}
    (hrun : runSteps (step host) (fun i => newMsgBuffer (cap i)) calls = some s) (i : ι) :
    Valid (s i) :=
  runSteps_invariant (fun s => ∀ i, Valid (s i)) (fun _ _ _ => step_valid)
    (fun i => valid_newMsgBuffer (hcap i)) hrun i

end Steps

end Cooper.MsgBufferCalls

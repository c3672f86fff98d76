import Cooper.IntegerFormat
import Cooper.MsgBufferVector
import Cooper.StepRun
import Mathlib.Algebra.Group.Int.Defs

namespace Cooper.Logging

open Cooper.IntegerFormat
open Cooper.MsgBuffer
open Cooper.MsgBufferVector (isLiteral)
open Cooper.Region
open Cooper.StepRun

inductive IntegerType
  | short
  | unsignedShort
  | int
  | unsignedInt
  | long
  | unsignedLong
  | longLong
  | unsignedLongLong
  deriving DecidableEq

namespace IntegerType

def bits : IntegerType → Nat
  | .short | .unsignedShort => 16
  | .int | .unsignedInt => 32
  | .long | .unsignedLong | .longLong | .unsignedLongLong => 64

def isSigned : IntegerType → Bool
  | .short | .int | .long | .longLong => true
  | .unsignedShort | .unsignedInt | .unsignedLong | .unsignedLongLong => false

def min (t : IntegerType) : Int := if t.isSigned then -2 ^ (t.bits - 1) else 0

def max (t : IntegerType) : Int := if t.isSigned then 2 ^ (t.bits - 1) - 1 else 2 ^ t.bits - 1

def digits10 : IntegerType → Nat
  | .short | .unsignedShort => 4
  | .int | .unsignedInt => 9
  | .long | .longLong => 18
  | .unsignedLong | .unsignedLongLong => 19

abbrev Value (t : IntegerType) := { v : Int // t.min ≤ v ∧ v ≤ t.max }

end IntegerType

def kSmallBuffer : Nat := 4000

structure FixedBuffer where
  data : Bytes
  /-- `cur_ - data_` -/
  cur : Nat

namespace FixedBuffer

def avail (b : FixedBuffer) : Int := (b.data.length : Int) - b.cur

/-- The comparison is one of `size_t`. -/
def append (b : FixedBuffer) (buf : Bytes) : Option (FixedBuffer × Bool) :=
  if b.avail % 18446744073709551616 > buf.length then
    (store b.cur buf b.data).map fun data => ({ data, cur := b.cur + buf.length }, true)
  else some (b, false)

def add (b : FixedBuffer) (len : Nat) : FixedBuffer := { b with cur := b.cur + len }

def reset (b : FixedBuffer) : FixedBuffer := { b with cur := 0 }

end FixedBuffer

structure LogStream where
  buffer : FixedBuffer
  exBuffer : Bytes

def newLogStream (data : Bytes) : LogStream := { buffer := { data, cur := 0 }, exBuffer := [] }

/-- `exBuffer_.append(buffer_.data(), buffer_.length())` -/
def spill (s : LogStream) : LogStream :=
  { s with exBuffer := s.exBuffer ++ s.buffer.data.take s.buffer.cur }

/-- There is no result when memory outside of `buffer_` is written to. -/
def append (s : LogStream) (data : Bytes) : Option LogStream :=
  if s.exBuffer.isEmpty then
    (s.buffer.append data).map fun r =>
      if r.2 then { s with buffer := r.1 }
      else { spill s with exBuffer := (spill s).exBuffer ++ data }
  else some { s with exBuffer := s.exBuffer ++ data }

def bufferData (s : LogStream) : Bytes := if s.exBuffer.isEmpty then s.buffer.data else s.exBuffer

def bufferLength (s : LogStream) : Nat :=
  if s.exBuffer.isEmpty then s.buffer.cur else s.exBuffer.length

def resetBuffer (s : LogStream) : LogStream := { buffer := s.buffer.reset, exBuffer := [] }

def resize (n : Nat) (str : Bytes) : Bytes := str.take n ++ List.replicate (n - str.length) 0

/-- The operators that write text of at most `kMaxNumericSize` bytes in place. `write` returns how
many it has written. -/
def format (s : LogStream) (kMaxNumericSize : Nat) (write : Bytes → Nat → Option (Bytes × Nat)) :
    Option LogStream :=
  if s.exBuffer.isEmpty ∧ s.buffer.avail ≥ kMaxNumericSize then
    (write s.buffer.data s.buffer.cur).map fun r =>
      { s with buffer := FixedBuffer.add { s.buffer with data := r.1 } r.2 }
  else
    let s := if s.exBuffer.isEmpty then spill s else s
    let oldLen := s.exBuffer.length
    (write (resize (oldLen + kMaxNumericSize) s.exBuffer) oldLen).map fun r =>
      { s with exBuffer := resize (oldLen + r.2) r.1 }

def formatInteger (s : LogStream) (t : IntegerType) (v : Int) : Option LogStream :=
  format s (t.digits10 + 4) fun cells buf => convert cells buf v

def formatPointer (s : LogStream) (p : UInt64) : Option LogStream :=
  format s (64 / 4 + 4) fun cells buf =>
    (store buf [48] cells).bind fun cells => (store (buf + 1) [120] cells).bind fun cells =>
      (convertHex cells (buf + 2) p).map fun r => (r.1, r.2 + 2)

/-- The type that `operator<<` hands a `short` on with. -/
def passedAs : IntegerType → IntegerType
  | .short => .int
  | .unsignedShort => .unsignedInt
  | t => t

def strlen (str : Bytes) : Nat := (str.takeWhile (· ≠ 0)).length

/-- What `operator<<` is given: for an array of characters its bytes, for a pointer to characters
the bytes from there on, among them a NUL. -/
inductive Insertion
  | bool (v : Bool)
  | integer (t : IntegerType) (v : t.Value)
  | pointer (p : UInt64)
  | char (v : UInt8)
  | literal (buf : Bytes) (h : isLiteral buf)
  | nullptr
  | cString (str : Bytes) (h : 0 ∈ str)
  | string (v : Bytes)

def insert (s : LogStream) : Insertion → Option LogStream
  | .bool v => append s (ascii (if v then "1" else "0"))
  | .integer t v => formatInteger s (passedAs t) v
  | .pointer p => formatPointer s p
  | .char v => append s [v]
  | .literal buf _ => append s (buf.take (buf.length - 1))
  | .nullptr => append s (ascii "(null)")
  | .cString str _ => append s (str.take (strlen str))
  | .string v => append s v

inductive Call
  | insert (x : Insertion)
  | resetBuffer

def step (s : LogStream) : Call → Option LogStream
  | .insert x => insert s x
  | .resetBuffer => some (resetBuffer s)

/-- What an insertion stands for in the log. -/
def rendering : Insertion → Bytes
  | .bool v => ascii (if v then "1" else "0")
  | .integer _ v => decimalText v
  | .pointer p => ascii "0x" ++ hexText p
  | .char v => [v]
  | .literal buf _ => buf.takeWhile (· ≠ 0)
  | .nullptr => ascii "(null)"
  | .cString str _ => str.takeWhile (· ≠ 0)
  | .string v => v

def textAfter (text : Bytes) : List Call → Bytes
  | [] => text
  | .insert x :: calls => textAfter (text ++ rendering x) calls
  | .resetBuffer :: calls => textAfter [] calls

def text (s : LogStream) : Bytes := (bufferData s).take (bufferLength s)

structure Roomy (s : LogStream) : Prop where
  length_data : s.buffer.data.length = kSmallBuffer
  cur_lt : s.buffer.cur < kSmallBuffer

section Texts

variable {s : LogStream}

theorem text_of_empty (h : s.exBuffer = []) : text s = s.buffer.data.take s.buffer.cur := by
  rw [text, bufferData, bufferLength, h]
  rfl

theorem text_of_spilled (h : s.exBuffer ≠ []) : text s = s.exBuffer := by
  rw [text, bufferData, bufferLength, if_neg (by simpa using h), if_neg (by simpa using h),
    List.take_length]

theorem length_text (h : Roomy s) : (text s).length = bufferLength s := by
  by_cases hempty : s.exBuffer = []
  · rw [text_of_empty hempty, bufferLength, hempty, List.length_take, h.length_data,
      Nat.min_eq_left h.cur_lt.le]
    rfl
  · rw [text_of_spilled hempty, bufferLength, if_neg (by simpa using hempty)]

theorem exBuffer_spill (h : s.exBuffer = []) : (spill s).exBuffer = text s := by
  rw [text_of_empty h, spill, h]
  rfl

theorem avail_eq (h : Roomy s) : s.buffer.avail = (kSmallBuffer - s.buffer.cur : Nat) := by
  have hcur := h.cur_lt
  rw [FixedBuffer.avail, h.length_data]
  omega

theorem text_store {data : Bytes} {cells : Bytes} {len : Nat} (h : Roomy s)
    (hempty : s.exBuffer = []) (hlen : len < kSmallBuffer - s.buffer.cur) (hle : len ≤ data.length)
    (hstore : store s.buffer.cur data s.buffer.data = some cells) :
    Roomy { s with buffer := { data := cells, cur := s.buffer.cur + len } } ∧
      text { s with buffer := { data := cells, cur := s.buffer.cur + len } } =
        text s ++ data.take len := by
  have hcur := h.cur_lt
  refine ⟨⟨(length_store hstore).trans h.length_data, by simp only; omega⟩, ?_⟩
  rw [text_of_empty hempty, ← take_store hstore hle]
  exact text_of_empty hempty

end Texts

section Insertions

variable {s : LogStream}

theorem append_spec (h : Roomy s) (data : Bytes) :
    ∃ s', append s data = some s' ∧ Roomy s' ∧ text s' = text s ++ data := by
  have hcur := h.cur_lt
  rw [append]
  split
  · rename_i hno
    have hempty : s.exBuffer = [] := List.isEmpty_iff.mp hno
    rw [FixedBuffer.append, avail_eq h]
    split
    · rename_i hroom
      have hlen : data.length < kSmallBuffer - s.buffer.cur := by
        rw [kSmallBuffer] at *
        omega
      obtain ⟨cells, hstore⟩ := store_of_le
        (show s.buffer.cur + data.length ≤ s.buffer.data.length by rw [h.length_data]; omega)
      obtain ⟨hroomy, htext⟩ := text_store h hempty hlen le_rfl hstore
      rw [hstore]
      exact ⟨_, rfl, hroomy, htext.trans (by rw [List.take_length])⟩
    · rename_i hfull
      have hlen : data ≠ [] := by
        rintro rfl
        rw [kSmallBuffer] at *
        simp only [List.length_nil] at hfull
        omega
      refine ⟨_, rfl, ⟨h.length_data, hcur⟩, ?_⟩
      rw [← exBuffer_spill hempty]
      apply text_of_spilled
      exact List.append_ne_nil_of_right_ne_nil _ hlen
  · rename_i hspilled
    have hne : s.exBuffer ≠ [] := fun hempty => hspilled (List.isEmpty_iff.mpr hempty)
    refine ⟨_, rfl, ⟨h.length_data, hcur⟩, ?_⟩
    rw [text_of_spilled hne]
    apply text_of_spilled
    exact List.append_ne_nil_of_left_ne_nil hne _

theorem resize_of_le {n : Nat} {str : Bytes} (h : n ≤ str.length) : resize n str = str.take n := by
  rw [resize, Nat.sub_eq_zero_of_le h, List.replicate_zero, List.append_nil]

theorem resize_grown (n : Nat) (str : Bytes) :
    resize (str.length + n) str = str ++ List.replicate n 0 := by
  rw [resize, List.take_of_length_le (Nat.le_add_right _ _), Nat.add_sub_cancel_left]

theorem format_spec (h : Roomy s) {kMaxNumericSize : Nat} {added : Bytes}
    {write : Bytes → Nat → Option (Bytes × Nat)} (hne : added ≠ [])
    (hsize : added.length < kMaxNumericSize)
    (hwrite : ∀ cells buf, write cells buf =
      (store buf (added ++ [0]) cells).map fun cells => (cells, added.length)) :
    ∃ s', format s kMaxNumericSize write = some s' ∧ Roomy s' ∧ text s' = text s ++ added := by
  have hcur := h.cur_lt
  have hlength : (added ++ [0]).length = added.length + 1 := List.length_append
  have htake : (added ++ [0]).take added.length = added := List.take_left' rfl
  rw [format]
  split
  · rename_i hroom
    obtain ⟨hno, havail⟩ := hroom
    have hempty : s.exBuffer = [] := List.isEmpty_iff.mp hno
    rw [avail_eq h] at havail
    have hfits : s.buffer.cur + (added ++ [0]).length ≤ s.buffer.data.length := by
      rw [h.length_data]
      omega
    obtain ⟨cells, hstore⟩ := store_of_le hfits
    obtain ⟨hroomy, htext⟩ := text_store h hempty
      (show added.length < kSmallBuffer - s.buffer.cur by omega) (by omega) hstore
    rw [hwrite, hstore]
    exact ⟨_, rfl, hroomy, htext.trans (by rw [htake])⟩
  · rename_i hfull
    have hspill : (if s.exBuffer.isEmpty then spill s else s).exBuffer = text s := by
      split
      · rename_i hno
        exact exBuffer_spill (List.isEmpty_iff.mp hno)
      · rename_i hspilled
        exact (text_of_spilled fun hempty => hspilled (List.isEmpty_iff.mpr hempty)).symm
    have hbuffer : (if s.exBuffer.isEmpty then spill s else s).buffer = s.buffer := by
      split <;> rfl
    obtain ⟨cells, hstore⟩ := store_of_le
      (show (text s).length + (added ++ [0]).length ≤
        (text s ++ List.replicate kMaxNumericSize 0).length by
          rw [hlength, List.length_append, List.length_replicate]
          omega)
    have hcells := length_store hstore
    rw [List.length_append, List.length_replicate] at hcells
    simp only [hspill, hbuffer]
    rw [resize_grown, hwrite, hstore]
    have htext : resize ((text s).length + added.length) cells = text s ++ added := by
      rw [resize_of_le (by omega), take_store hstore (by omega), htake, List.take_left' rfl]
    refine ⟨_, rfl, ⟨?_, ?_⟩, ?_⟩
    · exact h.length_data
    · exact hcur
    · simp only [htext]
      apply text_of_spilled
      exact List.append_ne_nil_of_right_ne_nil _ hne

theorem natAbs_lt (t : IntegerType) (v : t.Value) : v.1.natAbs < 10 ^ (t.digits10 + 1) := by
  have hmin := v.2.1
  have hmax := v.2.2
  have hrange : -((10 ^ (t.digits10 + 1) : Nat) : Int) < t.min ∧
      t.max < (10 ^ (t.digits10 + 1) : Nat) := by
    cases t <;> decide
  generalize 10 ^ (t.digits10 + 1) = bound at *
  omega

theorem length_decimalText_lt (t : IntegerType) (v : t.Value) :
    (decimalText v).length < (passedAs t).digits10 + 4 := by
  have hlength := length_decimalText_le (Nat.succ_pos _) (natAbs_lt t v)
  have hpassed : t.digits10 ≤ (passedAs t).digits10 := by
    cases t <;> decide
  omega

theorem formatPointer_eq (cells : Bytes) (buf : Nat) (p : UInt64) :
    ((store buf [48] cells).bind fun cells => (store (buf + 1) [120] cells).bind fun cells =>
      (convertHex cells (buf + 2) p).map fun r => (r.1, r.2 + 2)) =
      (store buf (ascii "0x" ++ hexText p ++ [0]) cells).map fun cells =>
        (cells, (ascii "0x" ++ hexText p).length) := by
  have htext : ascii "0x" ++ hexText p ++ [0] = [48] ++ ([120] ++ (hexText p ++ [0])) := rfl
  rw [htext, ← store_append, Option.map_bind]
  apply congrArg
  funext cells
  rw [Function.comp_apply, ← store_append, Option.map_bind]
  apply congrArg
  funext cells
  rw [convertHex_eq, Option.map_map, List.length_append, Nat.add_comm (ascii "0x").length]
  rfl

theorem insert_spec (h : Roomy s) (x : Insertion) :
    ∃ s', insert s x = some s' ∧ Roomy s' ∧ text s' = text s ++ rendering x := by
  cases x with
  | bool v => exact append_spec h _
  | integer t v =>
      exact format_spec h (decimalText_ne_nil v) (length_decimalText_lt t v)
        fun cells buf => convert_eq cells buf v
  | pointer p =>
      refine format_spec h ?_ ?_ fun cells buf => formatPointer_eq cells buf p
      · exact List.append_ne_nil_of_left_ne_nil (by decide) _
      · have hlength := length_hexText_le p
        rw [List.length_append]
        change 2 + (hexText p).length < 64 / 4 + 4
        omega
  | char v => exact append_spec h [v]
  | literal buf hliteral =>
      have htake : buf.take (buf.length - 1) = buf.takeWhile (· ≠ 0) := by
        rw [← hliteral]
        exact (List.prefix_iff_eq_take.mp (List.takeWhile_prefix _)).symm
      obtain ⟨s', happend, hroomy, htext⟩ := append_spec h (buf.take (buf.length - 1))
      exact ⟨s', happend, hroomy, htext.trans (congrArg (text s ++ ·) htake)⟩
  | nullptr => exact append_spec h _
  | cString str hstr =>
      have htake : str.take (strlen str) = str.takeWhile (· ≠ 0) :=
        (List.prefix_iff_eq_take.mp (List.takeWhile_prefix _)).symm
      obtain ⟨s', happend, hroomy, htext⟩ := append_spec h (str.take (strlen str))
      exact ⟨s', happend, hroomy, htext.trans (congrArg (text s ++ ·) htake)⟩
  | string v => exact append_spec h v

end Insertions

section Runs

variable {s : LogStream}

theorem resetBuffer_spec (h : Roomy s) : Roomy (resetBuffer s) ∧ text (resetBuffer s) = [] :=
  ⟨⟨h.length_data, Nat.succ_pos _⟩, text_of_empty rfl⟩

theorem run_spec (h : Roomy s) (calls : List Call) :
    ∃ s', runSteps step s calls = some s' ∧ Roomy s' ∧ text s' = textAfter (text s) calls := by
  induction calls generalizing s with
  | nil => exact ⟨s, rfl, h, rfl⟩
  | cons call calls ih =>
      rw [runSteps_cons]
      cases call with
      | insert x =>
          obtain ⟨s₁, hinsert, hroomy, htext⟩ := insert_spec h x
          obtain ⟨s', hrun, hroomy', htext'⟩ := ih hroomy
          refine ⟨s', ?_, hroomy', ?_⟩
          · rw [step, hinsert, Option.bind_some, hrun]
          · rw [htext', htext, textAfter]
      | resetBuffer =>
          obtain ⟨hroomy, htext⟩ := resetBuffer_spec h
          obtain ⟨s', hrun, hroomy', htext'⟩ := ih hroomy
          refine ⟨s', ?_, hroomy', ?_⟩
          · rw [step, Option.bind_some, hrun]
          · rw [htext', htext, textAfter]

theorem textAfter_append (prior : Bytes) (calls more : List Call) :
    textAfter prior (calls ++ more) = textAfter (textAfter prior calls) more := by
  induction calls generalizing prior with
  | nil => rfl
  | cons call calls ih =>
      cases call with
      | insert x => exact ih _
      | resetBuffer => exact ih []

theorem textAfter_inserts (prior : Bytes) (xs : List Insertion) :
    textAfter prior (xs.map Call.insert) = prior ++ xs.flatMap rendering := by
  induction xs generalizing prior with
  | nil => exact (List.append_nil prior).symm
  | cons x xs ih => rw [List.map_cons, textAfter, ih, List.flatMap_cons, List.append_assoc]

/-- Whatever is inserted into a new stream or one that has just been reset, nothing is written
outside of its buffer, and what is read from it is the text of the insertions. -/
theorem text_run (data : Bytes) (hdata : data.length = kSmallBuffer) (calls : List Call)
    (hreset : calls = [] ∨ calls.getLast? = some .resetBuffer) (xs : List Insertion) :
    ∃ s, runSteps step (newLogStream data) (calls ++ xs.map Call.insert) = some s ∧
      bufferLength s = (xs.flatMap rendering).length ∧
      (bufferData s).take (bufferLength s) = xs.flatMap rendering := by
  obtain ⟨s, hrun, hroomy, htext⟩ :=
    run_spec (s := newLogStream data) ⟨hdata, Nat.succ_pos _⟩ (calls ++ xs.map Call.insert)
  have hempty : textAfter (text (newLogStream data)) calls = [] := by
    rcases hreset with rfl | hlast
    · exact text_of_empty rfl
    · obtain ⟨before, rfl⟩ := List.getLast?_eq_some_iff.mp hlast
      rw [textAfter_append]
      rfl
  rw [textAfter_append, hempty, textAfter_inserts, List.nil_append] at htext
  refine ⟨s, hrun, ?_, htext⟩
  rw [← length_text hroomy, htext]

def least : Insertion := .integer .longLong ⟨-9223372036854775808, by decide⟩

theorem text_run_spilled :
    ∃ s, runSteps step (newLogStream (List.replicate kSmallBuffer 0))
        ([.insert least, .resetBuffer] ++
          [.string (List.replicate 3990 97), least, .pointer 48879].map Call.insert) = some s ∧
      bufferLength s = ([.string (List.replicate 3990 97), least, .pointer 48879].flatMap
        rendering).length ∧
      (bufferData s).take (bufferLength s) =
        [.string (List.replicate 3990 97), least, .pointer 48879].flatMap rendering :=
  text_run _ List.length_replicate [.insert least, .resetBuffer] (.inr rfl) _

example : [least, .bool true, .pointer 48879].flatMap rendering =
    ascii "-922337203685477580810xBEEF" := by decide

end Runs

end Cooper.Logging

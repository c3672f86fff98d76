import Cooper.MsgBuffer
import Cooper.Region
import Mathlib.Logic.Equiv.Basic
import Mathlib.Logic.Function.Basic

/-!
`MsgBuffer` as it lies in memory: a vector and the indices of its readable region. A function has no
result where an assertion of the source fails, or where memory outside of the vector is touched.
Sizes are taken to fit in `size_t`, together with their sums.
-/

namespace Cooper.MsgBufferVector

open Cooper.MsgBuffer (Bytes)
open Cooper.Region

structure MsgBuffer where
  head : Nat
  initCap : Nat
  buffer : Bytes
  tail : Nat
  deriving DecidableEq

def kBufferOffset : Nat := 8

def newMsgBuffer (len : Nat) : MsgBuffer where
  head := kBufferOffset
  initCap := len
  buffer := List.replicate (len + kBufferOffset) 0
  tail := kBufferOffset

def readableBytes (b : MsgBuffer) : Nat := b.tail - b.head

def writableBytes (b : MsgBuffer) : Nat := b.buffer.length - b.tail

def peekBytes (b : MsgBuffer) (len : Nat) : Bytes := region b.head (b.head + len) b.buffer

def readable (b : MsgBuffer) : Bytes := peekBytes b (readableBytes b)

def write (b : MsgBuffer) (data : Bytes) : Option MsgBuffer :=
  (store b.tail data b.buffer).map fun buffer => { b with buffer }

/-- The end of `append`: `memcpy` to `beginWrite()`, and `tail_ += len`. -/
def put (b : MsgBuffer) (data : Bytes) : Option MsgBuffer :=
  (write b data).map fun b => { b with tail := b.tail + data.length }

/-- `ensureWritableBytes` moves the readable bytes to the front. -/
def compact (b : MsgBuffer) : Option MsgBuffer :=
  (copy (readableBytes b) b.head kBufferOffset b.buffer).map fun buffer => { b with
    head := kBufferOffset
    buffer
    tail := kBufferOffset + readableBytes b }

/-- `ensureWritableBytes` swaps with a new buffer, whose `append(*this)` finds enough room. -/
def grow (b : MsgBuffer) (len : Nat) : Option MsgBuffer :=
  let newLen :=
    if b.buffer.length * 2 > kBufferOffset + readableBytes b + len then b.buffer.length * 2
    else kBufferOffset + readableBytes b + len
  put (newMsgBuffer newLen) (readable b)

def ensureWritableBytes (b : MsgBuffer) (len : Nat) : Option MsgBuffer :=
  if writableBytes b ≥ len then some b
  else if b.head + writableBytes b ≥ len + kBufferOffset then compact b
  else grow b len

def append (b : MsgBuffer) (data : Bytes) : Option MsgBuffer :=
  (ensureWritableBytes b data.length).bind fun b => put b data

/-- `strnlen(buf, N) == N - 1` for an array of `N` characters. -/
def isLiteral (chars : Bytes) : Prop := (chars.takeWhile (· ≠ 0)).length = chars.length - 1

instance (chars : Bytes) : Decidable (isLiteral chars) := inferInstanceAs (Decidable (_ = _))

def appendLiteral (b : MsgBuffer) (chars : Bytes) : Option MsgBuffer :=
  if isLiteral chars then append b (chars.take (chars.length - 1)) else none

def appendBuffer (b buf : MsgBuffer) : Option MsgBuffer :=
  (ensureWritableBytes b (readableBytes buf)).bind fun b => put b (readable buf)

/-- `append(*this)`, which looks for the bytes where `ensureWritableBytes` has left them. -/
def appendSelf (b : MsgBuffer) : Option MsgBuffer :=
  (ensureWritableBytes b (readableBytes b)).bind fun b => put b (readable b)

def hasWritten (b : MsgBuffer) (len : Nat) : Option MsgBuffer :=
  if len ≤ writableBytes b then some { b with tail := b.tail + len } else none

def unwrite (b : MsgBuffer) (offset : Nat) : Option MsgBuffer :=
  if readableBytes b ≥ offset then some { b with tail := b.tail - offset } else none

def retrieveAll (b : MsgBuffer) : MsgBuffer :=
  { b with
    buffer := if b.buffer.length > b.initCap * 2 then b.buffer.take b.initCap else b.buffer
    head := kBufferOffset
    tail := kBufferOffset }

def retrieve (b : MsgBuffer) (len : Nat) : MsgBuffer :=
  if len ≥ readableBytes b then retrieveAll b else { b with head := b.head + len }

def retrieveUntil (b : MsgBuffer) (stop : Nat) : Option MsgBuffer :=
  if stop ≤ readableBytes b then some (retrieve b stop) else none

def read (b : MsgBuffer) (len : Nat) : MsgBuffer × Bytes :=
  let len := if len > readableBytes b then readableBytes b else len
  (retrieve b len, peekBytes b len)

def readUntil (b : MsgBuffer) (stop : Nat) : Option (MsgBuffer × Bytes) :=
  if stop ≤ readableBytes b then some (retrieve b stop, peekBytes b stop) else none

def extBufferSize : Nat := 8192

/-- `static_cast<int>(writable)`, with 32 bits, as an `iov_len`. A negative one is more than `readv`
accepts. -/
def iovLen (writable : Nat) : Nat :=
  if writable % 4294967296 < 2147483648 then writable % 4294967296 else 0

def room (b : MsgBuffer) : Nat :=
  iovLen (writableBytes b) + if writableBytes b < extBufferSize then extBufferSize else 0

/-- `readv` answers an error, or it puts the bytes that it has read into the first vector and then
into the second. -/
def readFd {ε : Type*} (b : MsgBuffer) : Except ε Bytes → Option MsgBuffer
  | .error _ => some b
  | .ok data =>
      if data.length > room b then none
      else
        let writable := writableBytes b
        (write b (data.take writable)).bind fun b =>
          if data.length ≤ writable then some { b with tail := b.tail + data.length }
          else append { b with tail := b.buffer.length } (data.drop writable)

section Buffers

variable {ι ε : Type*} [DecidableEq ι]

/-- A call on one of the buffers that a program has. -/
inductive BufferOp (ι ε : Type*)
  | append (i : ι) (data : Bytes)
  | appendLiteral (i : ι) (chars : Bytes)
  | appendBuffer (i j : ι)
  | ensureWritableBytes (i : ι) (len : Nat)
  /-- `hasWritten` of bytes that have been placed at `beginWrite()`. -/
  | hasWritten (i : ι) (data : Bytes)
  | unwrite (i : ι) (offset : Nat)
  | retrieve (i : ι) (len : Nat)
  | retrieveUntil (i : ι) (stop : Nat)
  | retrieveAll (i : ι)
  | read (i : ι) (len : Nat)
  | readUntil (i : ι) (stop : Nat)
  | swap (i j : ι)
  | readFd (i : ι) (answer : Except ε Bytes)

def update (s : ι → MsgBuffer) (i : ι) (result : Option MsgBuffer) :
    Option ((ι → MsgBuffer) × Bytes) :=
  result.map fun b => (Function.update s i b, [])

def updateRead (s : ι → MsgBuffer) (i : ι) (result : Option (MsgBuffer × Bytes)) :
    Option ((ι → MsgBuffer) × Bytes) :=
  result.map fun returned => (Function.update s i returned.1, returned.2)

def step (s : ι → MsgBuffer) : BufferOp ι ε → Option ((ι → MsgBuffer) × Bytes)
  | .append i data => update s i (append (s i) data)
  | .appendLiteral i chars => update s i (appendLiteral (s i) chars)
  | .appendBuffer i j =>
      update s i (if i = j then appendSelf (s i) else appendBuffer (s i) (s j))
  | .ensureWritableBytes i len => update s i (ensureWritableBytes (s i) len)
  | .hasWritten i data => update s i ((write (s i) data).bind fun b => hasWritten b data.length)
  | .unwrite i offset => update s i (unwrite (s i) offset)
  | .retrieve i len => update s i (some (retrieve (s i) len))
  | .retrieveUntil i stop => update s i (retrieveUntil (s i) stop)
  | .retrieveAll i => update s i (some (retrieveAll (s i)))
  | .read i len => updateRead s i (some (read (s i) len))
  | .readUntil i stop => updateRead s i (readUntil (s i) stop)
  | .swap i j => some (s ∘ Equiv.swap i j, [])
  | .readFd i answer => update s i (readFd (s i) answer)

/-- What the source asserts, and what `readv` keeps to. -/
def Asserted (s : ι → MsgBuffer) : BufferOp ι ε → Prop
  | .appendLiteral _ chars => isLiteral chars
  | .hasWritten i data => data.length ≤ writableBytes (s i)
  | .unwrite i offset => offset ≤ readableBytes (s i)
  | .retrieveUntil i stop | .readUntil i stop => stop ≤ readableBytes (s i)
  | .readFd i (.ok data) => data.length ≤ room (s i)
  | _ => True

end Buffers

end Cooper.MsgBufferVector

import Cooper.TcpConnectionImpl
import Mathlib.Data.Nat.Digits.Defs
import Mathlib.Tactic.Common

namespace Cooper.AppTcpServer

open Cooper.ListSearch
open Cooper.MsgBuffer
open Cooper.TcpConnectionImpl

abbrev ProtocolType := Nat

def PONG_TYPE : ProtocolType := 200

inductive ModeType
  | BUSINESS_MODE
  | MEDIA_MODE
  deriving DecidableEq

def uint32 (memory : Bytes) : Nat :=
  Nat.ofDigits 256 ((memory.take 4).map UInt8.toNat)

def uint32Bytes (n : Nat) : Bytes :=
  [n, n / 256, n / 65536, n / 16777216].map fun digit => digit.toUInt8

/-- What `sendJson` hands to `send`, for the text that `dump()` gives. A text whose size is negative
as an `int` has no frame. -/
def sendJson (str : Bytes) : Option Bytes :=
  let size := (str.length : Int).bmod (2 ^ 32)
  if 0 ≤ size then some (uint32Bytes size.toNat ++ str.take size.toNat) else none

/-- The bytes that lie behind the readable region of the buffer and behind the terminating zero of
a `std::string`. The code reads them when there are fewer than four bytes in front. -/
structure Memory where
  behindBuffer : Bytes
  behindString : Bytes

structure Server where
  mode : ModeType
  pingPong : Bool
  /-- `json::parse(str)["type"].get<ProtocolType>()`, or an exception of the json library. -/
  parseType : Bytes → Option ProtocolType
  businessHandlers : List ProtocolType
  mediaHandlers : List ProtocolType

/-- What a callback does with the payload of a frame. -/
inductive Outcome
  | threw
  | resetKickoffEntry
  | handler (type : ProtocolType)
  | noHandler (type : ProtocolType)
  deriving DecidableEq

inductive FrameEvent
  /-- The length word is read while `readable` bytes are readable. -/
  | packSize (readable : Nat)
  | frame (payload : Bytes) (outcome : Outcome)
  deriving DecidableEq

def dispatch (pingPong : Bool) (handlers : List ProtocolType) : Option ProtocolType → Outcome
  | none => .threw
  | some type =>
      if type = PONG_TYPE ∧ pingPong then .resetKickoffEntry
      else if type ∈ handlers then .handler type
      else .noHandler type

/-- The text that `recvBusinessMsgCallback` and `recvMediaMsgCallback` share. -/
def recvFrameCallback (outcome : Bytes → Outcome) (behindBuffer : Bytes) (buffer : Bytes) :
    Bytes × List FrameEvent :=
  let packSize := uint32 (buffer ++ behindBuffer)
  if readableBytes buffer < packSize then (buffer, [.packSize (readableBytes buffer)])
  else
    let (str, buffer') := read (retrieve buffer 4) packSize
    (buffer', [.packSize (readableBytes buffer), .frame str (outcome str)])

/-- An exception of the json library leaves the callback. -/
def throws (events : List FrameEvent) : Bool :=
  events.any fun
    | .packSize _ => false
    | .frame _ outcome => outcome = .threw

def businessOutcome (server : Server) (str : Bytes) : Outcome :=
  dispatch server.pingPong server.businessHandlers (server.parseType str)

def mediaOutcome (server : Server) (memory : Memory) (str : Bytes) : Outcome :=
  dispatch server.pingPong server.mediaHandlers (some (uint32 (str ++ 0 :: memory.behindString)))

def recvBusinessMsgCallback (server : Server) (memory : Memory) : Bytes → Bytes × List FrameEvent :=
  recvFrameCallback (businessOutcome server) memory.behindBuffer

def recvMediaMsgCallback (server : Server) (memory : Memory) : Bytes → Bytes × List FrameEvent :=
  recvFrameCallback (mediaOutcome server memory) memory.behindBuffer

def recvMsgCallback (server : Server) (memory : Memory) : Bytes → Bytes × List FrameEvent :=
  match server.mode with
  | .BUSINESS_MODE => recvBusinessMsgCallback server memory
  | .MEDIA_MODE => recvMediaMsgCallback server memory

def outcome (server : Server) (memory : Memory) : Bytes → Outcome :=
  match server.mode with
  | .BUSINESS_MODE => businessOutcome server
  | .MEDIA_MODE => mediaOutcome server memory

/-- In business mode the json library accepts the payload and finds a type in it. -/
def Readable (server : Server) (payload : Bytes) : Prop :=
  server.mode = .BUSINESS_MODE → server.parseType payload ≠ none

/-- A payload whose length fits the length word. -/
structure Frame where
  payload : Bytes
  size_lt : payload.length < 2 ^ 32

def Frame.encode (frame : Frame) : Bytes :=
  uint32Bytes frame.payload.length ++ frame.payload

def encode (frames : List Frame) : Bytes :=
  (frames.map Frame.encode).flatten

def HoldsFrame (buffer : Bytes) : Prop :=
  4 ≤ buffer.length ∧ 4 + uint32 buffer ≤ buffer.length

instance (buffer : Bytes) : Decidable (HoldsFrame buffer) := by
  unfold HoldsFrame
  infer_instance

theorem recvMsgCallback_eq (server : Server) (memory : Memory) :
    recvMsgCallback server memory =
      recvFrameCallback (outcome server memory) memory.behindBuffer := by
  unfold recvMsgCallback outcome
  split <;> rfl

theorem dispatch_eq_threw_iff {pingPong : Bool} {handlers : List ProtocolType}
    {type : Option ProtocolType} : dispatch pingPong handlers type = .threw ↔ type = none := by
  cases type with
  | none => simp [dispatch]
  | some type =>
      rw [dispatch]
      split_ifs <;> simp

theorem outcome_eq_threw_iff {server : Server} {memory : Memory} {payload : Bytes} :
    outcome server memory payload = .threw ↔ ¬Readable server payload := by
  rw [outcome, Readable]
  cases server.mode with
  | BUSINESS_MODE => simp [businessOutcome, dispatch_eq_threw_iff]
  | MEDIA_MODE => simp [mediaOutcome, dispatch_eq_threw_iff]

theorem uint32_uint32Bytes {n : Nat} (hn : n < 2 ^ 32) (rest : Bytes) :
    uint32 (uint32Bytes n ++ rest) = n := by
  simp [uint32, uint32Bytes, Nat.ofDigits]
  omega

@[simp] theorem uint32Bytes_length (n : Nat) : (uint32Bytes n).length = 4 := rfl

@[simp] theorem Frame.encode_length (frame : Frame) :
    frame.encode.length = frame.payload.length + 4 := by
  simp [Frame.encode, Nat.add_comm]

theorem sendJson_eq {str : Bytes} (hsize : str.length < 2 ^ 31) :
    sendJson str = some (uint32Bytes str.length ++ str) := by
  have hmod : (str.length : Int).bmod (2 ^ 32) = str.length := by
    rw [Int.bmod_def]
    split <;> omega
  unfold sendJson
  simp only [hmod]
  rw [if_pos (Int.natCast_nonneg _), Int.toNat_natCast, List.take_length]

theorem uint32_append {buffer : Bytes} (hbuffer : 4 ≤ buffer.length) (rest : Bytes) :
    uint32 (buffer ++ rest) = uint32 buffer := by
  rw [uint32, uint32, List.take_append_of_le_length hbuffer]

theorem uint32_of_isPrefix {buffer rest : Bytes} {frame : Frame}
    (hstart : buffer <+: frame.encode ++ rest) (hbuffer : 4 ≤ buffer.length) :
    uint32 buffer = frame.payload.length := by
  obtain ⟨tail, htail⟩ := hstart
  rw [← uint32_append hbuffer tail, htail, Frame.encode, List.append_assoc,
    uint32_uint32Bytes frame.size_lt]

theorem holdsFrame_iff {buffer rest : Bytes} {frame : Frame}
    (hstart : buffer <+: frame.encode ++ rest) :
    HoldsFrame buffer ↔ frame.payload.length + 4 ≤ buffer.length := by
  constructor
  · rintro ⟨hword, hframe⟩
    rw [uint32_of_isPrefix hstart hword] at hframe
    omega
  · intro hlength
    have hword : 4 ≤ buffer.length := by omega
    refine ⟨hword, ?_⟩
    rw [uint32_of_isPrefix hstart hword]
    omega

section RecvFrameCallback

variable {outcome : Bytes → Outcome} {behindBuffer buffer rest : Bytes} {frame : Frame}

theorem recvFrameCallback_of_lt (hless : buffer.length < uint32 (buffer ++ behindBuffer)) :
    recvFrameCallback outcome behindBuffer buffer = (buffer, [.packSize buffer.length]) := by
  unfold recvFrameCallback
  exact if_pos hless

theorem recvFrameCallback_of_le (hle : uint32 (buffer ++ behindBuffer) ≤ buffer.length) :
    recvFrameCallback outcome behindBuffer buffer =
      ((buffer.drop 4).drop (uint32 (buffer ++ behindBuffer)), [.packSize buffer.length,
        .frame ((buffer.drop 4).take (uint32 (buffer ++ behindBuffer)))
          (outcome ((buffer.drop 4).take (uint32 (buffer ++ behindBuffer))))]) := by
  simp [recvFrameCallback, hle]

theorem recvFrameCallback_encode (frame : Frame) (tail : Bytes) :
    recvFrameCallback outcome behindBuffer (frame.encode ++ tail) = (tail,
      [.packSize (frame.encode ++ tail).length, .frame frame.payload (outcome frame.payload)]) := by
  have hword : uint32 (frame.encode ++ tail ++ behindBuffer) = frame.payload.length := by
    rw [Frame.encode, List.append_assoc, List.append_assoc, uint32_uint32Bytes frame.size_lt]
  have hdrop : (frame.encode ++ tail).drop 4 = frame.payload ++ tail := by
    rw [Frame.encode, List.append_assoc]
    exact List.drop_left' (uint32Bytes_length _)
  rw [recvFrameCallback_of_le, hword, hdrop, List.take_left, List.drop_left]
  rw [hword, List.length_append, Frame.encode_length]
  omega

theorem recvFrameCallback_short (hle : uint32 (buffer ++ behindBuffer) ≤ buffer.length)
    (hshort : buffer.length < uint32 (buffer ++ behindBuffer) + 4) :
    recvFrameCallback outcome behindBuffer buffer =
      ([], [.packSize buffer.length, .frame (buffer.drop 4) (outcome (buffer.drop 4))]) := by
  have hrest : (buffer.drop 4).length ≤ uint32 (buffer ++ behindBuffer) := by
    rw [List.length_drop]
    omega
  rw [recvFrameCallback_of_le hle, List.take_of_length_le hrest, List.drop_of_length_le hrest]

end RecvFrameCallback

@[simp] theorem encode_cons (frame : Frame) (frames : List Frame) :
    encode (frame :: frames) = frame.encode ++ encode frames := rfl

@[simp] theorem encode_append (frames frames' : List Frame) :
    encode (frames ++ frames') = encode frames ++ encode frames' := by
  simp [encode]

theorem exists_cons_of_encode {buffer rest : Bytes} {frames : List Frame}
    (hstream : buffer ++ rest = encode frames) (hbuffer : buffer ≠ []) :
    ∃ frame frames', frames = frame :: frames' ∧ buffer <+: frame.encode ++ encode frames' := by
  cases frames with
  | nil => simp_all [encode]
  | cons frame frames' => exact ⟨frame, frames', rfl, rest, hstream⟩

/-- Everything the callback does with a prefix of the stream: it takes the first frame when that
is whole, else it waits or empties the buffer, as the word it reads tells. -/
theorem recvFrameCallback_cases (outcome : Bytes → Outcome) (behindBuffer : Bytes)
    {buffer rest : Bytes} {frame : Frame} (hstart : buffer <+: frame.encode ++ rest) :
    (∃ tail, buffer = frame.encode ++ tail ∧ frame.payload.length + 4 ≤ buffer.length ∧
      recvFrameCallback outcome behindBuffer buffer =
        (tail, [.packSize buffer.length, .frame frame.payload (outcome frame.payload)])) ∨
    (buffer.length < frame.payload.length + 4 ∧ buffer.length < uint32 (buffer ++ behindBuffer) ∧
      recvFrameCallback outcome behindBuffer buffer = (buffer, [.packSize buffer.length])) ∨
    (buffer.length < frame.payload.length + 4 ∧ uint32 (buffer ++ behindBuffer) ≤ buffer.length ∧
      recvFrameCallback outcome behindBuffer buffer =
        ([], [.packSize buffer.length, .frame (buffer.drop 4) (outcome (buffer.drop 4))])) := by
  by_cases hwhole : frame.payload.length + 4 ≤ buffer.length
  · obtain ⟨tail, rfl, -⟩ := exists_tail_of_isPrefix hstart (by rwa [Frame.encode_length])
    exact .inl ⟨tail, rfl, hwhole, recvFrameCallback_encode frame tail⟩
  · by_cases hless : buffer.length < uint32 (buffer ++ behindBuffer)
    · exact .inr (.inl ⟨by omega, hless, recvFrameCallback_of_lt hless⟩)
    · refine .inr (.inr ⟨by omega, by omega, recvFrameCallback_short (by omega) ?_⟩)
      by_cases hword : 4 ≤ buffer.length
      · rw [uint32_append hword, uint32_of_isPrefix hstart hword]
        omega
      · omega

end Cooper.AppTcpServer

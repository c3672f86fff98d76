import Cooper.AppTcpServer

namespace Cooper.MediaFrames

open Cooper.AppTcpServer
open Cooper.MsgBuffer

/-- A frame that `recvMediaMsgCallback` goes on with: the string, the length that is passed on
beside it, and the type. -/
structure MediaFrame where
  str : Bytes
  packSize : Nat
  type : ProtocolType
  deriving DecidableEq

def mediaFrame (memory : Memory) (buffer : Bytes) : Option MediaFrame :=
  let packSize := uint32 (buffer ++ memory.behindBuffer)
  if readableBytes buffer < packSize then none
  else
    let str := (read (retrieve buffer 4) packSize).1
    some { str, packSize, type := uint32 (str ++ 0 :: memory.behindString) }

/-- The length is that of the string, and the type lies inside the string. -/
structure MediaFrame.Valid (frame : MediaFrame) : Prop where
  length_eq : frame.packSize = frame.str.length
  type_inside : 4 ≤ frame.str.length

variable {server : Server} {memory : Memory} {buffer : Bytes}

theorem recvMediaMsgCallback_events (server : Server) (memory : Memory) (buffer : Bytes) :
    (recvMediaMsgCallback server memory buffer).2 =
      .packSize buffer.length :: (mediaFrame memory buffer).toList.map fun frame =>
        .frame frame.str (dispatch server.pingPong server.mediaHandlers (some frame.type)) := by
  rw [recvMediaMsgCallback, recvFrameCallback, mediaFrame]
  split
  · rfl
  · rfl

theorem MediaFrame.Valid.type_eq {frame : MediaFrame} (h : frame.Valid)
    (hframe : mediaFrame memory buffer = some frame) : frame.type = uint32 frame.str := by
  rw [mediaFrame] at hframe
  split at hframe
  · simp at hframe
  · obtain rfl := Option.some.inj hframe
    exact uint32_append h.type_inside _

theorem mediaFrame_of_le (hle : uint32 (buffer ++ memory.behindBuffer) ≤ buffer.length) :
    ∃ type, mediaFrame memory buffer = some {
      str := (buffer.drop 4).take (uint32 (buffer ++ memory.behindBuffer))
      packSize := uint32 (buffer ++ memory.behindBuffer)
      type } := by
  rw [mediaFrame]
  simp only
  rw [if_neg (by rw [readableBytes_eq]; omega), read_eq, retrieve_eq]
  exact ⟨_, rfl⟩

theorem valid_of_room (hroom : 4 ≤ uint32 (buffer ++ memory.behindBuffer) ∧
      uint32 (buffer ++ memory.behindBuffer) + 4 ≤ buffer.length) {frame : MediaFrame}
    (hframe : mediaFrame memory buffer = some frame) : frame.Valid := by
  have hlength : ((buffer.drop 4).take (uint32 (buffer ++ memory.behindBuffer))).length =
      uint32 (buffer ++ memory.behindBuffer) := by
    rw [List.length_take, List.length_drop]
    omega
  have hle : uint32 (buffer ++ memory.behindBuffer) ≤ buffer.length := by omega
  obtain ⟨type, htaken⟩ := mediaFrame_of_le hle
  obtain rfl := Option.some.inj (htaken.symm.trans hframe)
  exact ⟨hlength.symm, hroom.1.trans_eq hlength.symm⟩

/-- A media handler gets a valid frame exactly when the callback waits, or the length word counts at
least the type and the buffer holds that many bytes behind the word. -/
theorem mediaFrame_valid_iff (memory : Memory) (buffer : Bytes) :
    (∀ frame, mediaFrame memory buffer = some frame → frame.Valid) ↔
      buffer.length < uint32 (buffer ++ memory.behindBuffer) ∨
        (4 ≤ uint32 (buffer ++ memory.behindBuffer) ∧
          uint32 (buffer ++ memory.behindBuffer) + 4 ≤ buffer.length) := by
  constructor
  · intro h
    rcases Nat.lt_or_ge buffer.length (uint32 (buffer ++ memory.behindBuffer)) with hless | hle
    · exact Or.inl hless
    · obtain ⟨type, hframe⟩ := mediaFrame_of_le hle
      obtain ⟨hsize, htype⟩ := h _ hframe
      simp only [List.length_take, List.length_drop] at hsize htype
      exact Or.inr (by omega)
  · rintro (hless | hroom) frame hframe
    · have hnone : mediaFrame memory buffer = none := if_pos hless
      rw [hnone] at hframe
      contradiction
    · exact valid_of_room hroom hframe

theorem mediaFrame_encode {frame : Frame} (htype : 4 ≤ frame.payload.length) (tail : Bytes) :
    ∀ taken, mediaFrame memory (frame.encode ++ tail) = some taken → taken.Valid := by
  have hword : uint32 (frame.encode ++ tail ++ memory.behindBuffer) = frame.payload.length := by
    rw [Frame.encode, List.append_assoc, List.append_assoc, uint32_uint32Bytes frame.size_lt]
  intro taken htaken
  apply valid_of_room _ htaken
  rw [hword, List.length_append, Frame.encode_length]
  omega

/-- The length word announces eight bytes of which four have come; and a frame of two bytes. -/
theorem not_mediaFrame_valid :
    ¬(∀ memory buffer frame, mediaFrame memory buffer = some frame → frame.Valid) ∧
      mediaFrame ⟨[], []⟩ [8, 0, 0, 0, 1, 0, 0, 0] = some ⟨[1, 0, 0, 0], 8, 1⟩ ∧
      mediaFrame ⟨[], [7]⟩ [2, 0, 0, 0, 1, 1] = some ⟨[1, 1], 2, 257 + 7 * 16777216⟩ := by
  refine ⟨?_, by decide, by decide⟩
  intro h
  have hvalid := h ⟨[], []⟩ [8, 0, 0, 0, 1, 0, 0, 0] _ rfl
  exact absurd hvalid.length_eq (by decide)

end Cooper.MediaFrames

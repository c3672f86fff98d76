import Cooper.WriteInterest

namespace Cooper.QueueFrame

open Cooper.MsgBuffer
open Cooper.TcpConnectionImpl
open Cooper.WriteInterest

theorem ite_frame {α β : Type*} {p q : Prop} [Decidable p] [Decidable q] (f : α → β) {a b : β}
    {a' b' : α} (hpq : p ↔ q) (ha : a = f a') (hb : b = f b') :
    (if p then a else b) = f (if q then a' else b') := by
  by_cases h : p
  · rw [if_pos h, if_pos (hpq.mp h), ha]
  · rw [if_neg h, if_neg (mt hpq.mpr h), hb]

def withQueue (sendNum : Nat) (funcs : List SendCall) (c : Connection) : Connection :=
  { c with sendNum, funcs }

variable (kernel : Kernel) (n : Nat) (fs : List SendCall) (c : Connection)

theorem checkHighWaterMark_withQueue :
    checkHighWaterMark (withQueue n fs c) = withQueue n fs (checkHighWaterMark c) := by
  unfold checkHighWaterMark
  rw [show (withQueue n fs c).highWaterMarkLen = c.highWaterMarkLen from rfl]
  cases c.highWaterMarkLen with
  | none => rfl
  | some len => exact ite_frame (withQueue n fs) Iff.rfl rfl rfl

theorem queueInList_withQueue (data : Bytes) :
    queueInList (withQueue n fs c) data = withQueue n fs (queueInList c data) :=
  ite_frame (withQueue n fs) Iff.rfl (checkHighWaterMark_withQueue n fs
    (enableWriting { c with writeBufferList := appendMsg data c.writeBufferList })) rfl

theorem writeInLoop_withQueue (buffer : Bytes) :
    writeInLoop kernel (withQueue n fs c) buffer =
      (writeInLoop kernel c buffer).map id (withQueue n fs) := by
  unfold writeInLoop
  rw [show (withQueue n fs c).socket = c.socket from rfl]
  rcases c.socket.write kernel buffer with ⟨_ | _, socket⟩ <;> rfl

theorem sendInLoop_withQueue (buffer : Bytes) :
    sendInLoop kernel (withQueue n fs c) buffer = withQueue n fs (sendInLoop kernel c buffer) := by
  refine ite_frame (withQueue n fs) Iff.rfl rfl (ite_frame (withQueue n fs) Iff.rfl ?_ ?_)
  · rw [writeInLoop_withQueue]
    rcases writeInLoop kernel c buffer with ⟨e | sendLen, c'⟩
    · exact ite_frame (withQueue n fs) Iff.rfl rfl (queueInList_withQueue n fs c' buffer)
    · exact queueInList_withQueue n fs c' _
  · exact queueInList_withQueue n fs c buffer

theorem writeFileBuffer_withQueue (fileBytesToSend : Nat) :
    writeFileBuffer kernel (withQueue n fs c) fileBytesToSend =
      (writeFileBuffer kernel c fileBytesToSend).map (withQueue n fs)
        (Prod.map (withQueue n fs) id) := by
  unfold writeFileBuffer
  rw [writeInLoop_withQueue, show (withQueue n fs c).fileBuffer = c.fileBuffer from rfl]
  rcases writeInLoop kernel c c.fileBuffer with ⟨e | nWritten, c'⟩
  · exact ite_frame (Sum.map (withQueue n fs) (Prod.map (withQueue n fs) id)) Iff.rfl rfl rfl
  · exact ite_frame (Sum.map (withQueue n fs) (Prod.map (withQueue n fs) id)) Iff.rfl rfl rfl

theorem streamLoop_withQueue (fileBytesToSend : Nat) (chunks : List Bytes) :
    streamLoop kernel fileBytesToSend chunks (withQueue n fs c) =
      (streamLoop kernel fileBytesToSend chunks c).map (withQueue n fs) id := by
  induction chunks generalizing c with
  | nil => rfl
  | cons chunk chunks ih =>
      rw [streamLoop, streamLoop]
      refine ite_frame (Prod.map (withQueue n fs) id) Iff.rfl rfl ?_
      have hfetch := writeFileBuffer_withQueue kernel n fs { c with fileBuffer := chunk }
        fileBytesToSend
      rw [withQueue] at hfetch
      rw [withQueue, hfetch]
      rcases writeFileBuffer kernel { c with fileBuffer := chunk } fileBytesToSend with
        c' | ⟨c', toSend⟩
      · exact ih c'
      · rfl

theorem sendStreamInLoop_withQueue (fileBytesToSend : Nat) (chunks : List Bytes) :
    sendStreamInLoop kernel (withQueue n fs c) fileBytesToSend chunks =
      (sendStreamInLoop kernel c fileBytesToSend chunks).map (withQueue n fs) id := by
  have hloop : ∀ c', (if fileBytesToSend = 0 then
        (enableWriting (withQueue n fs c'), BufferNode.stream 0 chunks)
      else streamLoop kernel fileBytesToSend chunks (withQueue n fs c')) =
      Prod.map (withQueue n fs) id (if fileBytesToSend = 0 then
        (enableWriting c', BufferNode.stream 0 chunks)
      else streamLoop kernel fileBytesToSend chunks c') := fun c' =>
    ite_frame _ Iff.rfl rfl (streamLoop_withQueue kernel n fs c' fileBytesToSend chunks)
  refine ite_frame (Prod.map (withQueue n fs) id) Iff.rfl (hloop c) ?_
  rw [writeFileBuffer_withQueue]
  rcases writeFileBuffer kernel c fileBytesToSend with c' | ⟨c', toSend⟩
  · exact hloop c'
  · rfl

theorem sendfileInLoop_withQueue (content : Bytes) (offset fileBytesToSend : Nat) :
    sendfileInLoop kernel (withQueue n fs c) content offset fileBytesToSend =
      (sendfileInLoop kernel c content offset fileBytesToSend).map (withQueue n fs) id := by
  unfold sendfileInLoop
  rw [show (withQueue n fs c).socket = c.socket from rfl]
  rcases c.socket.sendfile kernel content offset fileBytesToSend with ⟨e | bytesSent, socket⟩
  · exact congrArg (fun c => (c, BufferNode.file content offset fileBytesToSend))
      (ite_frame (withQueue n fs) Iff.rfl rfl rfl)
  · exact ite_frame (Prod.map (withQueue n fs) id) Iff.rfl rfl rfl

theorem sendFileInLoop_withQueue :
    sendFileInLoop kernel (withQueue n fs c) = (sendFileInLoop kernel c).map (withQueue n fs) := by
  unfold sendFileInLoop
  rw [show (withQueue n fs c).writeBufferList = c.writeBufferList from rfl]
  rcases c.writeBufferList with _ | ⟨_ | ⟨content, offset, toSend⟩ | ⟨toSend, chunks⟩, rest⟩
  · rfl
  · rfl
  · simp only [sendfileInLoop_withQueue]
    rfl
  · simp only [sendStreamInLoop_withQueue]
    rfl

theorem pushFile_withQueue (node : BufferNode) :
    pushFile kernel (withQueue n fs c) node = (pushFile kernel c node).map (withQueue n fs) :=
  ite_frame (Option.map (withQueue n fs)) Iff.rfl (sendFileInLoop_withQueue kernel n fs
    { c with writeBufferList := c.writeBufferList ++ [node] }) rfl

theorem checkCloseOnEmpty_withQueue :
    checkCloseOnEmpty (withQueue n fs c) = withQueue n fs (checkCloseOnEmpty c) := by
  refine ite_frame (withQueue n fs) Iff.rfl ?_ rfl
  refine ite_frame (withQueue n fs) Iff.rfl ?_ rfl
  refine ite_frame (withQueue n fs) Iff.rfl rfl ?_
  exact ite_frame (withQueue n fs) Iff.rfl rfl rfl

theorem writeMsg_withQueue (msgBuffer : Bytes) (rest : List BufferNode) :
    writeMsg kernel (withQueue n fs c) msgBuffer rest =
      withQueue n fs (writeMsg kernel c msgBuffer rest) := by
  unfold writeMsg
  rw [writeInLoop_withQueue]
  rcases writeInLoop kernel c msgBuffer with ⟨e | sent, c'⟩
  · exact ite_frame (withQueue n fs) Iff.rfl rfl (checkCloseOnEmpty_withQueue n fs c')
  · exact checkCloseOnEmpty_withQueue n fs { c' with writeBufferList := _ }

theorem finishWriting_withQueue :
    finishWriting kernel [] (withQueue n fs c) =
      (finishWriting kernel [] c).map (withQueue n fs) :=
  congrArg some (ite_frame (withQueue n fs) Iff.rfl rfl rfl)

theorem map_checkCloseOnEmpty_withQueue {result result' : Option Connection}
    (h : result = result'.map (withQueue n fs)) :
    result.map checkCloseOnEmpty = (result'.map checkCloseOnEmpty).map (withQueue n fs) := by
  rw [h]
  cases result' with
  | none => rfl
  | some c => exact congrArg some (checkCloseOnEmpty_withQueue n fs c)

theorem writeNext_withQueue (afterFile : Bool) (rest : List BufferNode) :
    writeNext kernel [] afterFile (withQueue n fs c) rest =
      (writeNext kernel [] afterFile c rest).map (withQueue n fs) := by
  have hfile := map_checkCloseOnEmpty_withQueue n fs
    (sendFileInLoop_withQueue kernel n fs { c with writeBufferList := rest })
  rcases rest with _ | ⟨msgBuffer | _ | _, rest⟩
  · exact map_checkCloseOnEmpty_withQueue n fs
      (finishWriting_withQueue kernel n fs { c with writeBufferList := [] })
  · exact ite_frame (Option.map (withQueue n fs)) Iff.rfl (congrArg some (writeMsg_withQueue kernel n
      fs { c with writeBufferList := .msg msgBuffer :: rest } msgBuffer rest)) rfl
  · exact hfile
  · exact hfile

theorem writeCallback_withQueue :
    writeCallback kernel [] (withQueue n fs c) =
      (writeCallback kernel [] c).map (withQueue n fs) := by
  have hfile := map_checkCloseOnEmpty_withQueue n fs (sendFileInLoop_withQueue kernel n fs c)
  refine ite_frame (Option.map (withQueue n fs)) Iff.rfl ?_ rfl
  rw [show (withQueue n fs c).writeBufferList = c.writeBufferList from rfl]
  rcases c.writeBufferList with _ | ⟨msgBuffer | ⟨content, offset, toSend⟩ | ⟨toSend, chunks⟩, rest⟩
  · rfl
  · exact ite_frame (Option.map (withQueue n fs)) Iff.rfl (writeNext_withQueue ..)
      (congrArg some (writeMsg_withQueue ..))
  · exact ite_frame (Option.map (withQueue n fs)) Iff.rfl (writeNext_withQueue ..) hfile
  · exact ite_frame (Option.map (withQueue n fs)) Iff.rfl (writeNext_withQueue ..) hfile

theorem completing_withQueue :
    completing (withQueue n fs c) = (completing c).map (withQueue n fs) := by
  unfold completing
  rw [show (withQueue n fs c).writeBufferList = c.writeBufferList from rfl]
  rcases c.writeBufferList with _ | ⟨node, _ | ⟨_, _⟩⟩
  · rfl
  · exact ite_frame (Option.map (withQueue n fs)) Iff.rfl rfl rfl
  · rfl

end Cooper.QueueFrame

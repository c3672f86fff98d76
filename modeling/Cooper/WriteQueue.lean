import Cooper.TcpConnectionImpl
import Mathlib.Data.List.Chain
import Mathlib.Tactic.Common

/-!
The write queue of a plain connection: what has been written to the socket, followed by what
`writeBufferList_` and `fileBufferPtr_` still hold, is what the calls have handed over.
-/

namespace Cooper.WriteQueue

open Cooper.MsgBuffer
open Cooper.TcpConnectionImpl

/-- What a stream callback still delivers: its chunks up to the first call that answers 0. -/
def streamContent (chunks : List Bytes) : Bytes :=
  (chunks.takeWhile fun chunk => chunk ≠ []).flatten

/-- The bytes that a node has not sent, apart from the chunk in `fileBufferPtr_`. -/
def nodePending : BufferNode → Bytes
  | .msg msgBuffer => msgBuffer
  | .file content offset fileBytesToSend => (content.drop offset).take fileBytesToSend
  | .stream fileBytesToSend chunks =>
      if fileBytesToSend = 0 then [] else streamContent chunks

/-- The chunk that the first node has fetched and not written completely. -/
def leftover (c : Connection) : Bytes :=
  match c.writeBufferList with
  | .stream _ _ :: _ => c.fileBuffer
  | _ => []

/-- The bytes that `writeBufferList_` still has to send, in order. -/
def pending (c : Connection) : Bytes :=
  leftover c ++ (c.writeBufferList.map nodePending).flatten

def payload : SendCall → Bytes
  | .send msg => msg
  | .sendFile content offset length => (content.drop offset).take length
  | .sendStream chunks => streamContent chunks

def eventPayload : ConnEvent → Bytes
  | .call call => payload call
  | _ => []

def accepted (c : Connection) : Bytes :=
  (c.trace.map eventPayload).flatten

/-- Every output call transfers some prefix or fails with `EAGAIN`. -/
def OnlyEAGAIN (kernel : Kernel) : Prop :=
  ∀ calls len e, kernel calls len = .error e → e = .EAGAIN

/-- What the loop thread does with a connection that is only sent to: a call, or `writeCallback`
with the calls that `writeCompleteCallback_` makes in case it is invoked. -/
inductive LoopOp
  | call (call : SendCall)
  | writeCallback (calls : List SendCall)
  deriving DecidableEq

def step (kernel : Kernel) (c : Connection) : LoopOp → Option Connection
  | .call call => runCall kernel true c call
  | .writeCallback calls => writeCallback kernel calls c

def run (kernel : Kernel) (c : Connection) (ops : List LoopOp) : Option Connection :=
  ops.foldlM (step kernel) c

/-- `writeCallback` finds that all has been written and calls `writeCompleteCallback_`. -/
def completes (c : Connection) : Bool :=
  c.writing &&
    match c.writeBufferList with
    | [.msg msgBuffer] => readableBytes msgBuffer = 0
    | [.file _ _ fileBytesToSend] | [.stream fileBytesToSend _] => fileBytesToSend = 0
    | _ => false

def callsOf (c : Connection) : LoopOp → List SendCall
  | .call call => [call]
  | .writeCallback calls => if completes c then calls else []

/-- The calls that are made in a run, in their order. -/
def callsMade (kernel : Kernel) (c : Connection) : List LoopOp → List SendCall
  | [] => []
  | op :: ops => callsOf c op ++ ((step kernel c op).map (callsMade kernel · ops)).getD []

/-- Adjacent nodes are not both in memory. -/
def Alternating (list : List BufferNode) : Prop :=
  list.IsChain fun a b => a.isFile ∨ b.isFile

/-- The states that sending alone can reach. -/
structure Sending (c : Connection) : Prop where
  connected : c.status = .Connected
  writable : c.socket.writeClosed = false
  notClosing : c.closeOnEmpty = false
  direct : c.sendNum = 0
  nonempty : c.writing = true → c.writeBufferList ≠ []
  alternating : Alternating c.writeBufferList
  leftoverAtFront : c.fileBuffer ≠ [] →
    ∃ toSend chunks rest, c.writeBufferList = .stream toSend chunks :: rest ∧ toSend ≠ 0

theorem pending_eq {c : Connection} (h : c.fileBuffer ≠ [] →
    ∃ toSend chunks rest, c.writeBufferList = .stream toSend chunks :: rest ∧ toSend ≠ 0) :
    pending c = c.fileBuffer ++ (c.writeBufferList.map nodePending).flatten := by
  by_cases hempty : c.fileBuffer = []
  · simp only [pending, leftover, hempty]
    split <;> rfl
  · obtain ⟨toSend, chunks, rest, hlist, -⟩ := h hempty
    simp [pending, leftover, hlist]

def output (c : Connection) : Bytes :=
  c.socket.written ++ (c.fileBuffer ++ (c.writeBufferList.map nodePending).flatten)

section Write

variable {kernel : Kernel} {c : Connection}

theorem write_cases (hk : OnlyEAGAIN kernel) {socket : Socket} (hopen : socket.writeClosed = false)
    (data : Bytes) :
    (∃ n ≤ data.length, ∃ socket', socket.write kernel data = (.ok n, socket') ∧
      socket'.written = socket.written ++ data.take n ∧ socket'.writeClosed = false) ∨
    (∃ socket', socket.write kernel data = (.error .EAGAIN, socket') ∧
      socket'.written = socket.written ∧ socket'.writeClosed = false) := by
  simp only [Socket.write, hopen, Bool.false_eq_true, if_false]
  cases hanswer : kernel socket.calls data.length with
  | done n => exact .inl ⟨n, by omega, _, rfl, rfl, rfl⟩
  | error e =>
      obtain rfl := hk _ _ _ hanswer
      exact .inr ⟨_, rfl, rfl, rfl⟩

theorem writeInLoop_cases (hk : OnlyEAGAIN kernel) (hopen : c.socket.writeClosed = false)
    (data : Bytes) :
    (∃ n ≤ data.length, ∃ socket bytesSent,
      writeInLoop kernel c data = (.ok n, { c with socket, bytesSent }) ∧
      socket.written = c.socket.written ++ data.take n ∧ socket.writeClosed = false) ∨
    (∃ socket, writeInLoop kernel c data = (.error .EAGAIN, { c with socket }) ∧
      socket.written = c.socket.written ∧ socket.writeClosed = false) := by
  rcases write_cases hk hopen data with
    ⟨n, hn, socket, hw, hwritten, hstill⟩ | ⟨socket, hw, hwritten, hstill⟩
  · exact .inl ⟨n, hn, socket, _, by rw [writeInLoop, hw], hwritten, hstill⟩
  · exact .inr ⟨socket, by rw [writeInLoop, hw], hwritten, hstill⟩

end Write

section Append

theorem appendMsg_pending (data : Bytes) (list : List BufferNode) :
    ((appendMsg data list).map nodePending).flatten = (list.map nodePending).flatten ++ data := by
  fun_induction appendMsg data list with
  | case1 => simp [nodePending]
  | case2 msgBuffer => simp [nodePending]
  | case3 node rest _ ih => simp [ih]

theorem appendMsg_cons_of_isFile {node : BufferNode} (hnode : node.isFile) (data : Bytes)
    (rest : List BufferNode) : appendMsg data (node :: rest) = node :: appendMsg data rest := by
  cases node with
  | msg => simp [BufferNode.isFile] at hnode
  | file | stream => cases rest <;> simp [appendMsg]

theorem appendMsg_head (data : Bytes) (node next : BufferNode) (rest : List BufferNode) :
    appendMsg data (node :: next :: rest) = node :: appendMsg data (next :: rest) := by
  rw [appendMsg]
  simp

theorem appendMsg_alternating (data : Bytes) {list : List BufferNode} (h : Alternating list) :
    Alternating (appendMsg data list) := by
  induction list with
  | nil => simp [appendMsg, Alternating]
  | cons node rest ih =>
      cases rest with
      | nil => cases node <;> simp [appendMsg, Alternating, BufferNode.isFile]
      | cons next rest =>
          rw [appendMsg_head]
          obtain ⟨hpair, htail⟩ := List.isChain_cons_cons.mp h
          have htail' := ih htail
          cases rest with
          | nil =>
              cases next with
              | msg => simpa [appendMsg, Alternating, BufferNode.isFile] using hpair
              | file | stream => simp [appendMsg, Alternating, BufferNode.isFile]
          | cons third rest =>
              rw [appendMsg_head] at htail' ⊢
              exact List.isChain_cons_cons.mpr ⟨hpair, htail'⟩

end Append

/-- `c'` has put `out` behind the output of `c`, for calls whose payloads are `acc`. -/
structure Progress (c : Connection) (out acc : Bytes) (c' : Connection) : Prop where
  sending : Sending c'
  output_eq : output c' = output c ++ out
  accepted_eq : accepted c' = accepted c ++ acc

theorem Progress.refl {c : Connection} (h : Sending c) : Progress c [] [] c :=
  ⟨h, by simp, by simp⟩

theorem Progress.trans {c c' c'' : Connection} {out acc out' acc' : Bytes}
    (h : Progress c out acc c') (h' : Progress c' out' acc' c'') :
    Progress c (out ++ out') (acc ++ acc') c'' where
  sending := h'.sending
  output_eq := by rw [h'.output_eq, h.output_eq, List.append_assoc]
  accepted_eq := by rw [h'.accepted_eq, h.accepted_eq, List.append_assoc]

section SendInLoop

variable {kernel : Kernel} {c : Connection}

theorem Sending.log (h : Sending c) (event : ConnEvent) :
    Progress c [] (eventPayload event) (log c event) where
  sending := ⟨h.1, h.2, h.3, h.4, h.5, h.6, h.7⟩
  output_eq := by simp [output, TcpConnectionImpl.log]
  accepted_eq := by simp [accepted, TcpConnectionImpl.log]

theorem checkHighWaterMark_progress (h : Sending c) :
    Progress c [] [] (checkHighWaterMark c) := by
  unfold checkHighWaterMark
  split
  · split
    · simpa [eventPayload] using h.log (.highWaterMarkCallback _)
    · exact .refl h
  · exact .refl h

theorem queueInList_progress (h : Sending c) (data : Bytes) :
    Progress c data [] (queueInList c data) := by
  unfold queueInList
  split
  · have hqueued : Progress c data [] (enableWriting
        { c with writeBufferList := appendMsg data c.writeBufferList }) := by
      refine ⟨⟨h.1, h.2, h.3, h.4, ?_, ?_, ?_⟩, ?_, ?_⟩
      · exact fun _ => appendMsg_ne_nil _ _
      · exact appendMsg_alternating data h.alternating
      · intro hleft
        obtain ⟨toSend, chunks, rest, hlist, hpos⟩ := h.leftoverAtFront hleft
        refine ⟨toSend, chunks, appendMsg data rest, ?_, hpos⟩
        simp only [enableWriting, hlist]
        exact appendMsg_cons_of_isFile rfl data rest
      · simp [output, enableWriting, appendMsg_pending]
      · simp [accepted, enableWriting]
    simpa using hqueued.trans (checkHighWaterMark_progress hqueued.sending)
  · rename_i hdata
    have hnil : data = [] := by
      by_contra hne
      exact hdata ⟨List.length_pos_iff.mpr hne, h.connected⟩
    exact hnil ▸ .refl h

theorem sendInLoop_progress (hk : OnlyEAGAIN kernel) (h : Sending c) (data : Bytes) :
    Progress c data [] (sendInLoop kernel c data) := by
  unfold sendInLoop
  rw [if_neg (not_not.mpr h.connected)]
  split
  · rename_i hdirect
    have hfile : c.fileBuffer = [] := by
      by_contra hne
      obtain ⟨_, _, _, hlist, -⟩ := h.leftoverAtFront hne
      simp [hdirect.2] at hlist
    rcases writeInLoop_cases hk h.writable data with
      ⟨n, hn, socket, bytesSent, hw, hwritten, hopen⟩ | ⟨socket, hw, hwritten, hopen⟩
    · have hsent : Progress c (data.take n) [] { c with socket, bytesSent } := by
        refine ⟨⟨h.1, hopen, h.3, h.4, h.5, h.6, h.7⟩, ?_, by simp [accepted]⟩
        simp [output, hwritten, hfile, hdirect.2]
      rw [hw]
      simpa using hsent.trans (queueInList_progress hsent.sending (data.drop n))
    · have hsent : Progress c [] [] { c with socket } := by
        refine ⟨⟨h.1, hopen, h.3, h.4, h.5, h.6, h.7⟩, ?_, by simp [accepted]⟩
        simp [output, hwritten]
      rw [hw]
      simpa using hsent.trans (queueInList_progress hsent.sending data)
  · exact queueInList_progress h data

end SendInLoop

section SendFileInLoop

variable {kernel : Kernel} {c : Connection}

theorem streamContent_cons {chunk : Bytes} (hchunk : chunk ≠ []) (chunks : List Bytes) :
    streamContent (chunk :: chunks) = chunk ++ streamContent chunks := by
  simp [streamContent, hchunk]

theorem writeFileBuffer_cases (c : Connection) (hk : OnlyEAGAIN kernel)
    (hopen : c.socket.writeClosed = false) (hbuffer : c.fileBuffer ≠ []) (toSend : Nat) :
    (∃ socket bytesSent,
      writeFileBuffer kernel c toSend = .inl { c with socket, bytesSent, fileBuffer := [] } ∧
      socket.written = c.socket.written ++ c.fileBuffer ∧ socket.writeClosed = false) ∨
    (∃ socket bytesSent fileBuffer,
      writeFileBuffer kernel c toSend =
        .inr ({ c with socket, bytesSent, fileBuffer, writing := true }, toSend) ∧
      fileBuffer ≠ [] ∧ socket.written ++ fileBuffer = c.socket.written ++ c.fileBuffer ∧
      socket.writeClosed = false) := by
  unfold writeFileBuffer
  rcases writeInLoop_cases hk hopen c.fileBuffer with
    ⟨n, hn, socket, bytesSent, hw, hwritten, hstill⟩ | ⟨socket, hw, hwritten, hstill⟩
  · rw [hw]
    by_cases hpart : n < c.fileBuffer.length
    · refine .inr ⟨socket, bytesSent, c.fileBuffer.drop n, ?_, ?_, ?_, hstill⟩
      · simp [hpart, enableWriting]
      · simpa using hpart
      · simp [hwritten]
    · refine .inl ⟨socket, bytesSent, by simp [hpart], ?_, hstill⟩
      rw [hwritten, List.take_of_length_le (by omega)]
  · rw [hw]
    exact .inr ⟨socket, c.bytesSent, c.fileBuffer, by simp [enableWriting], hbuffer,
      by rw [hwritten], hstill⟩

def StreamSent (c : Connection) (content : Bytes) (result : Connection × BufferNode) : Prop :=
  ∃ socket bytesSent fileBuffer toSend chunks,
    result = ({ c with socket, bytesSent, fileBuffer, writing := true }, .stream toSend chunks) ∧
    (fileBuffer ≠ [] → toSend ≠ 0) ∧ socket.writeClosed = false ∧
    socket.written ++ (fileBuffer ++ nodePending (.stream toSend chunks)) =
      c.socket.written ++ content

theorem streamLoop_sent (c : Connection) (hk : OnlyEAGAIN kernel) {toSend : Nat}
    (hpos : toSend ≠ 0) (chunks : List Bytes) (hopen : c.socket.writeClosed = false)
    (hbuffer : c.fileBuffer = []) :
    StreamSent c (streamContent chunks) (streamLoop kernel toSend chunks c) := by
  induction chunks generalizing c with
  | nil =>
      exact ⟨c.socket, c.bytesSent, c.fileBuffer, 0, [], rfl, by simp [hbuffer], hopen,
        by simp [nodePending, streamContent, hbuffer]⟩
  | cons chunk chunks ih =>
      rw [streamLoop]
      by_cases hchunk : chunk = []
      · rw [if_pos hchunk]
        exact ⟨c.socket, c.bytesSent, c.fileBuffer, 0, chunks, rfl, by simp [hbuffer], hopen,
          by simp [nodePending, streamContent, hbuffer, hchunk]⟩
      · rw [if_neg hchunk, streamContent_cons hchunk]
        rcases writeFileBuffer_cases { c with fileBuffer := chunk } hk hopen hchunk toSend
          with
          ⟨socket, bytesSent, hw, hwritten, hstill⟩ |
          ⟨socket, bytesSent, fileBuffer, hw, hne, hwritten, hstill⟩
        · rw [hw]
          obtain ⟨socket', bytesSent', fileBuffer', toSend', chunks', hloop, hleft, hopen', hout⟩ :=
            ih { c with socket, bytesSent, fileBuffer := [] } hstill rfl
          refine ⟨socket', bytesSent', fileBuffer', toSend', chunks', hloop, hleft, hopen', ?_⟩
          rw [hout, hwritten, List.append_assoc]
        · rw [hw]
          refine ⟨socket, bytesSent, fileBuffer, toSend, chunks, rfl, fun _ => hpos, hstill, ?_⟩
          rw [← List.append_assoc, hwritten]
          simp [nodePending, hpos]

theorem sendStreamInLoop_sent (hk : OnlyEAGAIN kernel) (hopen : c.socket.writeClosed = false)
    {toSend : Nat} (hleft : c.fileBuffer ≠ [] → toSend ≠ 0) (chunks : List Bytes) :
    StreamSent c (c.fileBuffer ++ nodePending (.stream toSend chunks))
      (sendStreamInLoop kernel c toSend chunks) := by
  unfold sendStreamInLoop
  by_cases hbuffer : c.fileBuffer = []
  · rw [if_pos hbuffer]
    by_cases hzero : toSend = 0
    · rw [if_pos hzero]
      exact ⟨c.socket, c.bytesSent, c.fileBuffer, 0, chunks, rfl, by simp [hbuffer], hopen,
        by rw [hzero]⟩
    · rw [if_neg hzero]
      simpa [hbuffer, nodePending, hzero] using streamLoop_sent c hk hzero chunks hopen hbuffer
  · have hpos := hleft hbuffer
    rw [if_neg hbuffer]
    rcases writeFileBuffer_cases c hk hopen hbuffer toSend with
      ⟨socket, bytesSent, hw, hwritten, hstill⟩ |
      ⟨socket, bytesSent, fileBuffer, hw, hne, hwritten, hstill⟩
    · rw [hw]
      obtain ⟨socket', bytesSent', fileBuffer', toSend', chunks', hloop, hleft', hopen', hout⟩ :=
        streamLoop_sent { c with socket, bytesSent, fileBuffer := [] } hk hpos chunks
          hstill rfl
      simp only [if_neg hpos]
      refine ⟨socket', bytesSent', fileBuffer', toSend', chunks', hloop, hleft', hopen', ?_⟩
      rw [hout, hwritten, List.append_assoc]
      simp [nodePending, hpos]
    · rw [hw]
      refine ⟨socket, bytesSent, fileBuffer, toSend, chunks, rfl, fun _ => hpos, hstill, ?_⟩
      rw [← List.append_assoc, hwritten, List.append_assoc]

theorem sendfileInLoop_sent (c : Connection) (hk : OnlyEAGAIN kernel)
    (hopen : c.socket.writeClosed = false) (content : Bytes) (offset toSend : Nat) :
    ∃ socket writing offset' toSend',
      sendfileInLoop kernel c content offset toSend =
        ({ c with socket, writing }, .file content offset' toSend') ∧
      socket.writeClosed = false ∧
      socket.written ++ nodePending (.file content offset' toSend') =
        c.socket.written ++ nodePending (.file content offset toSend) := by
  unfold sendfileInLoop Socket.sendfile
  rcases write_cases hk hopen ((content.drop offset).take toSend) with
    ⟨n, hn, socket, hw, hwritten, hstill⟩ | ⟨socket, hw, hwritten, hstill⟩
  · rw [hw]
    by_cases hzero : n < toSend ∧ n = 0
    · refine ⟨socket, c.writing, offset, toSend, by simp only [if_pos hzero], hstill, ?_⟩
      simp [hwritten, hzero.2]
    · refine ⟨socket, true, offset + n, toSend - n,
        by simp only [if_neg hzero, enableWriting], hstill, ?_⟩
      rw [List.length_take] at hn
      have hrest : (content.drop (offset + n)).take (toSend - n) =
          ((content.drop offset).take toSend).drop n := by
        rw [List.drop_take, List.drop_drop]
      simp only [nodePending, hwritten, hrest, List.append_assoc, List.take_append_drop]
  · rw [hw]
    exact ⟨socket, c.writing, offset, toSend, by simp, hstill, by rw [hwritten]⟩

theorem Alternating.replaceFront {node node' : BufferNode} {rest : List BufferNode}
    (h : Alternating (node :: rest)) (hnode : node.isFile → node'.isFile) :
    Alternating (node' :: rest) := by
  cases rest with
  | nil => exact List.isChain_singleton _
  | cons next rest =>
      obtain ⟨hpair, htail⟩ := List.isChain_cons_cons.mp h
      exact List.isChain_cons_cons.mpr ⟨hpair.imp_left hnode, htail⟩

theorem sendFileInLoop_progress (hk : OnlyEAGAIN kernel) (h : Sending c) {node : BufferNode}
    {rest : List BufferNode} (hlist : c.writeBufferList = node :: rest) (hfile : node.isFile) :
    ∃ c', sendFileInLoop kernel c = some c' ∧ Progress c [] [] c' := by
  have halt := h.alternating
  rw [hlist] at halt
  cases node with
  | msg msgBuffer => simp [BufferNode.isFile] at hfile
  | file content offset toSend =>
      have hbuffer : c.fileBuffer = [] := by
        by_contra hne
        obtain ⟨_, _, _, hstream, -⟩ := h.leftoverAtFront hne
        simp [hlist] at hstream
      obtain ⟨socket, writing, offset', toSend', hsent, hopen, hout⟩ :=
        sendfileInLoop_sent c hk h.writable content offset toSend
      refine ⟨{ c with
        socket, writing, writeBufferList := .file content offset' toSend' :: rest }, ?_, ?_, ?_,
        by simp [accepted]⟩
      · simp only [sendFileInLoop, hlist, hsent]
      · exact ⟨h.1, hopen, h.3, h.4, by simp, halt.replaceFront fun _ => rfl,
          fun hne => absurd hbuffer hne⟩
      · simp only [output, hlist, hbuffer, List.map_cons, List.flatten_cons, List.nil_append,
          List.append_nil, ← List.append_assoc, hout]
  | stream toSend chunks =>
      have hleft : c.fileBuffer ≠ [] → toSend ≠ 0 := by
        intro hne
        obtain ⟨toSend', _, _, hstream, hpos⟩ := h.leftoverAtFront hne
        simp only [hlist, List.cons.injEq, BufferNode.stream.injEq] at hstream
        rw [hstream.1.1]
        exact hpos
      obtain ⟨socket, bytesSent, fileBuffer, toSend', chunks', hsent, hleft', hopen, hout⟩ :=
        sendStreamInLoop_sent hk h.writable hleft chunks
      refine ⟨{ c with
        socket, bytesSent, fileBuffer, writing := true,
        writeBufferList := .stream toSend' chunks' :: rest }, ?_, ?_, ?_, by simp [accepted]⟩
      · simp only [sendFileInLoop, hlist, hsent]
      · exact ⟨h.1, hopen, h.3, h.4, by simp, halt.replaceFront fun _ => rfl,
          fun hne => ⟨toSend', chunks', rest, rfl, hleft' hne⟩⟩
      · simp only [output, hlist, List.map_cons, List.flatten_cons, List.append_nil]
        rw [← List.append_assoc fileBuffer, ← List.append_assoc, hout]
        simp [List.append_assoc]

end SendFileInLoop

section Calls

variable {kernel : Kernel} {c : Connection}

theorem Alternating.append {list : List BufferNode} (h : Alternating list) {node : BufferNode}
    (hnode : node.isFile) : Alternating (list ++ [node]) := by
  refine List.isChain_append.mpr ⟨h, List.isChain_singleton _, ?_⟩
  intro a ha b hb
  rw [List.head?_cons, Option.mem_some_iff] at hb
  exact .inr (hb ▸ hnode)

theorem push_progress (h : Sending c) {node : BufferNode} (hnode : node.isFile) :
    Progress c (nodePending node) [] { c with writeBufferList := c.writeBufferList ++ [node] } := by
  refine ⟨⟨h.1, h.2, h.3, h.4, by simp, h.alternating.append hnode, ?_⟩, by simp [output],
    by simp [accepted]⟩
  intro hne
  obtain ⟨toSend, chunks, rest, hlist, hpos⟩ := h.leftoverAtFront hne
  exact ⟨toSend, chunks, rest ++ [node], by simp [hlist], hpos⟩

theorem pushFile_progress (hk : OnlyEAGAIN kernel) (h : Sending c) (node : BufferNode)
    (hnode : node.isFile) :
    ∃ c', pushFile kernel c node = some c' ∧ Progress c (nodePending node) [] c' := by
  have hpushed := push_progress h hnode
  unfold pushFile
  simp only
  split
  · rename_i hone
    have hlist : c.writeBufferList ++ [node] = [node] := by
      rw [List.length_append, List.length_singleton, Nat.add_eq_right, List.length_eq_zero_iff]
        at hone
      rw [hone, List.nil_append]
    obtain ⟨c', hsent, hprogress⟩ := sendFileInLoop_progress hk hpushed.sending hlist hnode
    exact ⟨c', hsent, by simpa using hpushed.trans hprogress⟩
  · exact ⟨_, rfl, hpushed⟩

theorem runCall_progress (hk : OnlyEAGAIN kernel) (h : Sending c) (call : SendCall) :
    ∃ c', runCall kernel true c call = some c' ∧ Progress c (payload call) (payload call) c' := by
  have hlog := h.log (.call call)
  have hdirect : True ∧ (log c (.call call)).sendNum = 0 := ⟨trivial, h.direct⟩
  cases call with
  | send msg =>
      refine ⟨_, rfl, ?_⟩
      have hsent := hlog.trans (sendInLoop_progress hk hlog.sending msg)
      rw [List.nil_append, List.append_nil] at hsent
      change Progress c msg msg (send kernel true c msg)
      rw [send, if_pos (by simpa using hdirect)]
      exact hsent
  | sendFile content offset length =>
      obtain ⟨c', hpush, hprogress⟩ :=
        pushFile_progress hk hlog.sending (.file content offset length) rfl
      refine ⟨c', ?_, by simpa [payload, nodePending, eventPayload] using hlog.trans hprogress⟩
      rw [runCall, sendFile, if_pos (by simpa using hdirect), hpush]
  | sendStream chunks =>
      obtain ⟨c', hpush, hprogress⟩ :=
        pushFile_progress hk hlog.sending (.stream 1 chunks) rfl
      refine ⟨c', ?_, by simpa [payload, nodePending, eventPayload] using hlog.trans hprogress⟩
      rw [runCall, sendStream, if_pos (by simpa using hdirect), hpush]

theorem foldlM_runCall_progress (hk : OnlyEAGAIN kernel) (calls : List SendCall)
    (h : Sending c) :
    ∃ c', calls.foldlM (runCall kernel true) c = some c' ∧
      Progress c (calls.map payload).flatten (calls.map payload).flatten c' := by
  induction calls generalizing c with
  | nil => exact ⟨c, rfl, .refl h⟩
  | cons call calls ih =>
      obtain ⟨c₁, hcall, hprogress₁⟩ := runCall_progress hk h call
      obtain ⟨c₂, hcalls, hprogress₂⟩ := ih hprogress₁.sending
      refine ⟨c₂, ?_, hprogress₁.trans hprogress₂⟩
      rw [List.foldlM_cons, hcall]
      exact hcalls

end Calls

section WriteCallback

variable {kernel : Kernel} {c : Connection}

/-- A loop operation that keeps the books, with the payloads of the calls that it makes. -/
def Advances (c : Connection) (added : Bytes) (result : Option Connection) : Prop :=
  ∃ c', result = some c' ∧ Progress c added added c'

theorem checkCloseOnEmpty_eq (h : Sending c) : checkCloseOnEmpty c = c := by
  simp [checkCloseOnEmpty, h.notClosing]

theorem Advances.map_checkCloseOnEmpty {added : Bytes} {result : Option Connection}
    (h : Advances c added result) : Advances c added (result.map checkCloseOnEmpty) := by
  obtain ⟨c', rfl, hprogress⟩ := h
  exact ⟨c', by simp [checkCloseOnEmpty_eq hprogress.sending], hprogress⟩

theorem sendFileInLoop_advances (hk : OnlyEAGAIN kernel) (h : Sending c) {node : BufferNode}
    {rest : List BufferNode} (hlist : c.writeBufferList = node :: rest) (hfile : node.isFile) :
    Advances c [] (sendFileInLoop kernel c) := by
  obtain ⟨c', hsent, hprogress⟩ := sendFileInLoop_progress hk h hlist hfile
  exact ⟨c', hsent, hprogress⟩

theorem Advances.of_progress {c' : Connection} {added : Bytes} {result : Option Connection}
    (hprogress : Progress c [] [] c') (h : Advances c' added result) :
    Advances c added result := by
  obtain ⟨c'', hresult, hadvance⟩ := h
  exact ⟨c'', hresult, hprogress.trans hadvance⟩

theorem finishWriting_advances (c : Connection) (hk : OnlyEAGAIN kernel)
    (h : Sending (disableWriting c)) (calls : List SendCall) :
    Advances (disableWriting c) (calls.map payload).flatten (finishWriting kernel calls c) := by
  have hlog := h.log .writeCompleteCallback
  obtain ⟨c', hcalls, hprogress⟩ := foldlM_runCall_progress hk calls hlog.sending
  refine ⟨c', ?_, by simpa [eventPayload] using hlog.trans hprogress⟩
  rw [finishWriting]
  simp only [hcalls, Option.map_some, hprogress.sending.connected]
  rfl

theorem writeMsg_progress (hk : OnlyEAGAIN kernel) (h : Sending c) {msgBuffer : Bytes}
    {rest : List BufferNode} (hlist : c.writeBufferList = .msg msgBuffer :: rest) :
    Progress c [] [] (writeMsg kernel c msgBuffer rest) := by
  have hbuffer : c.fileBuffer = [] := by
    by_contra hne
    obtain ⟨_, _, _, hstream, -⟩ := h.leftoverAtFront hne
    simp [hlist] at hstream
  have halt := h.alternating
  rw [hlist] at halt
  unfold writeMsg
  rcases writeInLoop_cases hk h.writable msgBuffer with
    ⟨n, hn, socket, bytesSent, hw, hwritten, hopen⟩ | ⟨socket, hw, hwritten, hopen⟩
  · have hsent : Progress c [] [] { c with
        socket, bytesSent, writeBufferList := .msg (retrieve msgBuffer n) :: rest } := by
      refine ⟨⟨h.1, hopen, h.3, h.4, by simp, halt.replaceFront fun hfile => ?_,
        fun hne => absurd hbuffer hne⟩, ?_, by simp [accepted]⟩
      · simp [BufferNode.isFile] at hfile
      · simp only [output, hlist, hbuffer, hwritten, List.map_cons, List.flatten_cons, nodePending,
          retrieve_eq, List.nil_append, List.append_nil, List.append_assoc]
        rw [← List.append_assoc (List.take n msgBuffer), List.take_append_drop]
    simp only [hw, checkCloseOnEmpty_eq hsent.sending]
    exact hsent
  · have hsent : Progress c [] [] { c with socket } := by
      refine ⟨⟨h.1, hopen, h.3, h.4, h.5, h.6, h.7⟩, by simp [output, hwritten], by simp [accepted]⟩
    simp only [hw, checkCloseOnEmpty_eq hsent.sending]
    exact hsent

theorem writeMsg_advances (hk : OnlyEAGAIN kernel) (h : Sending c) {msgBuffer : Bytes}
    {rest : List BufferNode} (hlist : c.writeBufferList = .msg msgBuffer :: rest) :
    Advances c [] (some (writeMsg kernel c msgBuffer rest)) :=
  ⟨_, rfl, writeMsg_progress hk h hlist⟩

theorem pop_progress (h : Sending c) {node : BufferNode} {rest : List BufferNode}
    (hlist : c.writeBufferList = node :: rest) (hdone : nodePending node = [])
    (hbuffer : c.fileBuffer = []) (writing : Bool) (hwriting : writing = true → rest ≠ []) :
    Progress c [] [] { c with writeBufferList := rest, writing } := by
  have halt := h.alternating
  rw [hlist] at halt
  refine ⟨⟨h.1, h.2, h.3, h.4, hwriting, halt.tail, fun hne => absurd hbuffer hne⟩, ?_,
    by simp [accepted]⟩
  simp [output, hlist, hdone]

theorem writeNext_advances (hk : OnlyEAGAIN kernel) (h : Sending c) (calls : List SendCall)
    {node : BufferNode} {rest : List BufferNode} (hlist : c.writeBufferList = node :: rest)
    (hdone : nodePending node = []) (hbuffer : c.fileBuffer = []) :
    Advances c (if rest = [] then (calls.map payload).flatten else [])
      (writeNext kernel calls node.isFile c rest) := by
  have halt := h.alternating
  rw [hlist] at halt
  cases rest with
  | nil =>
      have hpop := pop_progress h hlist hdone hbuffer false (by simp)
      exact ((finishWriting_advances { c with writeBufferList := [] } hk hpop.sending
        calls).map_checkCloseOnEmpty).of_progress hpop
  | cons next rest =>
      have hpop := pop_progress h hlist hdone hbuffer c.writing (by simp)
      cases next with
      | msg msgBuffer =>
          have hnode : node.isFile = true := by
            simpa [BufferNode.isFile] using (List.isChain_cons_cons.mp halt).1
          rw [writeNext, hnode]
          exact (writeMsg_advances hk hpop.sending rfl).of_progress hpop
      | file | stream =>
          exact ((sendFileInLoop_advances hk hpop.sending rfl rfl).map_checkCloseOnEmpty).of_progress
            hpop

theorem writeCallback_advances (hk : OnlyEAGAIN kernel) (h : Sending c) (calls : List SendCall) :
    Advances c ((callsOf c (.writeCallback calls)).map payload).flatten
      (writeCallback kernel calls c) := by
  have hfile : ∀ {node rest}, c.writeBufferList = node :: rest → node.isFile →
      Advances c [] ((sendFileInLoop kernel c).map checkCloseOnEmpty) := fun hlist hnode =>
    (sendFileInLoop_advances hk h hlist hnode).map_checkCloseOnEmpty
  have hbuffer : c.fileBuffer ≠ [] →
      ∃ toSend chunks rest, c.writeBufferList = .stream toSend chunks :: rest ∧ toSend ≠ 0 :=
    h.leftoverAtFront
  unfold writeCallback
  split
  · rename_i hwriting
    cases hlist : c.writeBufferList with
    | nil => exact absurd hlist (h.nonempty hwriting)
    | cons node rest =>
        have hnext := writeNext_advances hk h calls hlist
        -- The callback is invoked when the node is done and is the last one.
        have hcalls : ∀ {done : Prop} [Decidable done], completes c = decide (rest = [] ∧ done) →
            ((callsOf c (.writeCallback calls)).map payload).flatten =
              if done then (if rest = [] then (calls.map payload).flatten else []) else [] := by
          intro done _ hcompletes
          rw [callsOf, hcompletes]
          by_cases hdone : done <;> by_cases hrest : rest = [] <;> simp [hdone, hrest]
        rw [hlist] at hbuffer
        cases node with
        | msg msgBuffer =>
            rw [@hcalls (readableBytes msgBuffer = 0) _ (by
              cases rest <;> simp [completes, hwriting, hlist])]
            simp only
            split
            · rename_i hempty
              refine hnext ?_ ?_
              · simpa [nodePending] using hempty
              · by_contra hne
                simpa using hbuffer hne
            · exact writeMsg_advances hk h hlist
        | file content offset toSend =>
            rw [@hcalls (toSend = 0) _ (by
              cases rest <;> simp [completes, hwriting, hlist])]
            simp only
            split
            · rename_i hzero
              refine hnext ?_ ?_
              · simp [nodePending, hzero]
              · by_contra hne
                simpa using hbuffer hne
            · exact hfile hlist rfl
        | stream toSend chunks =>
            rw [@hcalls (toSend = 0) _ (by
              cases rest <;> simp [completes, hwriting, hlist])]
            simp only
            split
            · rename_i hzero
              refine hnext ?_ ?_
              · simp [nodePending, hzero]
              · by_contra hne
                obtain ⟨_, _, _, hstream, hpos⟩ := hbuffer hne
                simp_all
            · exact hfile hlist rfl
  · rename_i hquiet
    have hnone : callsOf c (.writeCallback calls) = [] := by simp [callsOf, completes, hquiet]
    rw [hnone]
    exact ⟨c, rfl, .refl h⟩

end WriteCallback

section Run

variable {kernel : Kernel}

theorem step_advances (hk : OnlyEAGAIN kernel) {c : Connection} (h : Sending c) (op : LoopOp) :
    Advances c ((callsOf c op).map payload).flatten (step kernel c op) := by
  cases op with
  | call call =>
      obtain ⟨c', hcall, hprogress⟩ := runCall_progress hk h call
      exact ⟨c', hcall, by simpa [callsOf] using hprogress⟩
  | writeCallback calls => exact writeCallback_advances hk h calls

theorem run_advances (hk : OnlyEAGAIN kernel) {c : Connection} (h : Sending c)
    (ops : List LoopOp) :
    Advances c ((callsMade kernel c ops).map payload).flatten (run kernel c ops) := by
  induction ops generalizing c with
  | nil => exact ⟨c, rfl, .refl h⟩
  | cons op ops ih =>
      obtain ⟨c₁, hstep, hprogress₁⟩ := step_advances hk h op
      obtain ⟨c₂, hrun, hprogress₂⟩ := ih hprogress₁.sending
      refine ⟨c₂, ?_, ?_⟩
      · rw [run, List.foldlM_cons, hstep]
        exact hrun
      · rw [callsMade, hstep, Option.map_some, Option.getD_some, List.map_append,
          List.flatten_append]
        exact hprogress₁.trans hprogress₂

theorem established_sending (highWaterMarkLen : Option Nat) :
    Sending (established highWaterMarkLen) := by
  refine ⟨rfl, rfl, rfl, rfl, ?_, List.isChain_nil, ?_⟩ <;> simp [established]

theorem Progress.books {highWaterMarkLen : Option Nat} {payloads : Bytes} {c : Connection}
    (h : Progress (established highWaterMarkLen) payloads payloads c) :
    c.socket.written ++ pending c = accepted c := by
  rw [pending_eq h.sending.leftoverAtFront, ← output, h.output_eq, h.accepted_eq]
  simp [output, accepted, established, eventPayload]

/-- However the kernel splits the output, what is on the socket and what is pending are together
the payloads of the calls, in call order. -/
theorem written_append_pending (hk : OnlyEAGAIN kernel) (highWaterMarkLen : Option Nat)
    (ops : List LoopOp) :
    ∃ c, run kernel (established highWaterMarkLen) ops = some c ∧
      accepted c =
        ((callsMade kernel (established highWaterMarkLen) ops).map payload).flatten ∧
      c.socket.written ++ pending c = accepted c ∧
      (c.writeBufferList = [] → c.socket.written = accepted c) := by
  obtain ⟨c, hrun, hprogress⟩ := run_advances hk (established_sending highWaterMarkLen) ops
  have hbooks := hprogress.books
  refine ⟨c, hrun, hprogress.accepted_eq, hbooks, ?_⟩
  intro hempty
  simpa [pending, leftover, hempty] using hbooks

def halvingKernel : Kernel := fun calls len =>
  if calls % 2 = 0 then .done ⟨len / 2, by omega⟩ else .error .EAGAIN

def mixedOps : List LoopOp :=
  [.call (.send [1, 2, 3, 4]), .call (.sendFile [5, 6, 7, 8] 1 2), .writeCallback [],
    .call (.sendStream [[9], []]), .writeCallback [], .writeCallback [.send [10]]]

theorem written_append_pending_halvingKernel :
    OnlyEAGAIN halvingKernel ∧
    ∃ c, run halvingKernel (established (some 1)) mixedOps = some c ∧
      accepted c = ((callsMade halvingKernel (established (some 1)) mixedOps).map payload).flatten ∧
      c.socket.written ++ pending c = accepted c ∧
      (c.writeBufferList = [] → c.socket.written = accepted c) := by
  have hk : OnlyEAGAIN halvingKernel := by
    intro calls len e he
    unfold halvingKernel at he
    split at he <;> simp_all
  exact ⟨hk, written_append_pending hk (some 1) mixedOps⟩

end Run

end Cooper.WriteQueue

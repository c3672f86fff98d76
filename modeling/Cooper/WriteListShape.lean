import Cooper.ThreadOutcome
import Cooper.WriteQueue

namespace Cooper.WriteListShape

open Cooper.ConnectionThread
open Cooper.MsgBuffer
open Cooper.OpenSSLProvider (OpenSSL Provider)
open Cooper.StepRun
open Cooper.TcpConnectionImpl (BufferNode Connection Errno Kernel ReadResult SendCall appendMsg
  appendMsg_ne_nil)
open Cooper.ThreadOutcome
open Cooper.WriteQueue (Alternating appendMsg_alternating appendMsg_cons_of_isFile)

section Lists

def FrontFile (list : List BufferNode) : Prop := ∃ node rest, list = node :: rest ∧ node.isFile

def LastFile (list : List BufferNode) : Prop := ∃ rest node, list = rest ++ [node] ∧ node.isFile

structure Grows (list list' : List BufferNode) : Prop where
  alternating : Alternating list → Alternating list'
  nonempty : list ≠ [] → list' ≠ []
  front : FrontFile list → FrontFile list'

variable {list list' list'' : List BufferNode}

theorem FrontFile.ne_nil (h : FrontFile list) : list ≠ [] := by
  obtain ⟨node, rest, rfl, -⟩ := h
  exact List.cons_ne_nil node rest

theorem Grows.refl (list : List BufferNode) : Grows list list := ⟨id, id, id⟩

theorem Grows.trans (h : Grows list list') (h' : Grows list' list'') : Grows list list'' where
  alternating := h'.alternating ∘ h.alternating
  nonempty := h'.nonempty ∘ h.nonempty
  front := h'.front ∘ h.front

theorem grows_appendMsg (data : Bytes) (list : List BufferNode) :
    Grows list (appendMsg data list) where
  alternating := appendMsg_alternating data
  nonempty _ := appendMsg_ne_nil data list
  front := by
    rintro ⟨node, rest, rfl, hnode⟩
    exact ⟨node, appendMsg data rest, appendMsg_cons_of_isFile hnode data rest, hnode⟩

theorem grows_append {node : BufferNode} (hnode : node.isFile) (list : List BufferNode) :
    Grows list (list ++ [node]) where
  alternating h := h.append hnode
  nonempty _ := List.append_ne_nil_of_right_ne_nil list (List.cons_ne_nil node [])
  front := by
    rintro ⟨front, rest, rfl, hfront⟩
    exact ⟨front, rest ++ [node], rfl, hfront⟩

theorem grows_replaceFront {node node' : BufferNode} {rest : List BufferNode}
    (hlist : list = node :: rest) (hnode : node.isFile = node'.isFile) :
    Grows list (node' :: rest) where
  alternating h := by
    rw [hlist] at h
    exact h.replaceFront fun hfile => hnode ▸ hfile
  nonempty _ := List.cons_ne_nil node' rest
  front := by
    rintro ⟨front, rest', heq, hfront⟩
    obtain ⟨rfl, rfl⟩ := List.cons.inj (hlist.symm.trans heq)
    exact ⟨node', _, rfl, hnode ▸ hfront⟩

theorem grows_endStream (list : List BufferNode) : Grows list (endStream list) := by
  unfold endStream
  split
  · exact grows_replaceFront rfl rfl
  · exact .refl list

end Lists

/-- What a frame expects of the list for as long as it is on the stack. The two that take it up are
at the bottom and have a clause of their own. -/
def Fits (list : List BufferNode) : Frame → Prop
  | .writeCallback | .startFile => False
  | .sendFileInLoop | .fetched | .streamFailed _ | .fileLoop | .fileFailed _ => FrontFile list
  | _ => True

theorem Fits.mono {list list' : List BufferNode} (h : Grows list list') {frame : Frame}
    (hfits : Fits list frame) : Fits list' frame := by
  cases frame with
  | sendFileInLoop | fetched | streamFailed | fileLoop | fileFailed => exact h.front hfits
  | _ => exact hfits

structure Keeps {σ : Type*} (s s' : LoopThread σ) : Prop where
  list : Grows s.conn.writeBufferList s'.conn.writeBufferList
  writing : s'.conn.writing = true → s.conn.writing = true ∨ s'.conn.writeBufferList ≠ []
  stack : ∃ frames, s'.stack = frames ++ s.stack ∧
    ∀ frame ∈ frames, Fits s'.conn.writeBufferList frame

section Keeps

variable {σ : Type*} {kernel : Kernel} {S : OpenSSL σ} {s s' s'' : LoopThread σ}

theorem Keeps.of_same (hlist : s'.conn.writeBufferList = s.conn.writeBufferList)
    (hwriting : s'.conn.writing = true → s.conn.writing = true) (hstack : s'.stack = s.stack) :
    Keeps s s' where
  list := by
    rw [hlist]
    exact .refl _
  writing h := Or.inl (hwriting h)
  stack := ⟨[], by rw [hstack, List.nil_append], fun _ h => absurd h List.not_mem_nil⟩

theorem Keeps.refl (s : LoopThread σ) : Keeps s s := .of_same rfl id rfl

theorem Keeps.trans (h : Keeps s s') (h' : Keeps s' s'') : Keeps s s'' where
  list := h.list.trans h'.list
  writing hwriting := by
    rcases h'.writing hwriting with hbefore | hne
    · exact (h.writing hbefore).imp_right h'.list.nonempty
    · exact Or.inr hne
  stack := by
    obtain ⟨frames, hstack, hfits⟩ := h.stack
    obtain ⟨frames', hstack', hfits'⟩ := h'.stack
    refine ⟨frames' ++ frames, ?_, ?_⟩
    · rw [hstack', hstack, List.append_assoc]
    · intro frame hframe
      rcases List.mem_append.mp hframe with hnew | hold
      · exact hfits' frame hnew
      · exact (hfits frame hold).mono h'.list

theorem keeps_push {frames : List Frame} {s : LoopThread σ}
    (hfits : ∀ frame ∈ frames, Fits s.conn.writeBufferList frame) : Keeps s (push frames s) :=
  ⟨.refl _, Or.inl, frames, rfl, hfits⟩

theorem Keeps.push (h : Keeps s s') (frames : List Frame)
    (hfits : ∀ frame ∈ frames, Fits s'.conn.writeBufferList frame) : Keeps s (push frames s') :=
  h.trans (keeps_push hfits)

theorem Keeps.ite {p : Prop} [Decidable p] (h : Keeps s s') (h' : Keeps s s'') :
    Keeps s (if p then s' else s'') := by
  split
  · exact h
  · exact h'

theorem fits_user (list : List BufferNode) : ∀ frame ∈ [Frame.user], Fits list frame := by
  intro frame hframe
  obtain rfl := List.mem_singleton.mp hframe
  trivial

theorem keeps_list {list : List BufferNode} (h : Grows s.conn.writeBufferList list) :
    Keeps s { s with conn.writeBufferList := list } :=
  ⟨h, Or.inl, [], rfl, fun _ h => absurd h List.not_mem_nil⟩

theorem keeps_enableWriting (h : s.conn.writeBufferList ≠ []) : Keeps s (enableWriting s) :=
  ⟨.refl _, fun _ => Or.inr h, [], rfl, fun _ h => absurd h List.not_mem_nil⟩

theorem keeps_handleClose (s : LoopThread σ) : Keeps s (handleClose s) := by
  apply Keeps.push
  · refine .of_same rfl ?_ rfl
    intro h
    cases h
  · simp [Fits]

theorem keeps_forceClose (s : LoopThread σ) : Keeps s (forceClose s) := by
  refine .ite ?_ (.refl s)
  refine Keeps.trans ?_ (keeps_handleClose _)
  exact .of_same rfl id rfl

theorem keeps_onSslError (s : LoopThread σ) : Keeps s (onSslError s) :=
  (keeps_push (fits_user _)).trans (keeps_forceClose _)

theorem keeps_handleSSLError (p p' : Provider σ) (s : LoopThread σ) :
    Keeps s (handleSSLError p p' s) := by
  have hset : Keeps s { s with tlsProvider := some p' } := .of_same rfl id rfl
  exact .ite (hset.trans (keeps_onSslError _)) hset

theorem keeps_closeWrite (s : LoopThread σ) : Keeps s (closeWrite s) := by
  unfold closeWrite
  split <;> exact .of_same rfl id rfl

theorem keeps_shutdown (s : LoopThread σ) : Keeps s (shutdown kernel S s) := by
  refine .ite (.ite (.of_same rfl id rfl) ?_) (.refl s)
  refine .ite (Keeps.trans ?_ (keeps_closeWrite _)) ?_
  · exact .of_same rfl id rfl
  · exact .of_same rfl id rfl

theorem keeps_of_write {buffer : Bytes} {ok : Nat → LoopThread σ → LoopThread σ}
    {failed reported : Errno → LoopThread σ → LoopThread σ}
    (hok : ∀ n s', s'.conn.writeBufferList = s.conn.writeBufferList → Keeps s' (ok n s'))
    (hfailed : ∀ e s', s'.conn.writeBufferList = s.conn.writeBufferList → Keeps s' (failed e s'))
    (hreported : ∀ e s', s'.conn.writeBufferList = s.conn.writeBufferList →
      Keeps s' (reported e s')) :
    Keeps s (match writeInLoop kernel S s buffer with
      | (.ok n, _, s) => ok n s
      | (.error e, report, s) =>
          if report then onSslError (reported e s) else failed e s) := by
  have hwrite : (writeInLoop kernel S s buffer).2.2.conn.writeBufferList =
        s.conn.writeBufferList ∧ Keeps s (writeInLoop kernel S s buffer).2.2 := by
    unfold writeInLoop TcpConnectionImpl.writeInLoop
    split
    · dsimp only
      split <;> exact ⟨rfl, .of_same rfl id rfl⟩
    · split <;> exact ⟨rfl, .of_same rfl id rfl⟩
  apply of_write
  · exact fun n => hwrite.2.trans (hok n _ hwrite.1)
  · exact fun e => hwrite.2.trans (hfailed e _ hwrite.1)
  · exact fun e => (hwrite.2.trans (hreported e _ hwrite.1)).trans (keeps_onSslError _)

theorem keeps_queueInList (s : LoopThread σ) (remaining : Bytes) :
    Keeps s (queueInList s remaining) := by
  have hconn : Keeps s { s with conn := TcpConnectionImpl.queueInList s.conn remaining } := by
    unfold TcpConnectionImpl.queueInList
    split
    · have hqueued : Keeps s { s with conn := TcpConnectionImpl.enableWriting { s.conn with
          writeBufferList := appendMsg remaining s.conn.writeBufferList } } :=
        ⟨grows_appendMsg remaining _, fun _ => Or.inr (appendMsg_ne_nil remaining _), [], rfl,
          fun _ h => absurd h List.not_mem_nil⟩
      unfold TcpConnectionImpl.checkHighWaterMark
      split
      · split
        · exact hqueued.trans (.of_same rfl id rfl)
        · exact hqueued
      · exact hqueued
    · exact .refl s
  unfold queueInList
  refine .ite ?_ (.refl s)
  have hprovider := Keeps.ite (p := s.tlsProvider.isSome)
    (hconn.push [.checkBufferedData] (by simp [Fits])) hconn
  exact .ite (hprovider.push [.user] (fits_user _)) hprovider

theorem keeps_sendFailed (e : Errno) (msg : Bytes) (s : LoopThread σ) :
    Keeps s (sendFailed e msg s) :=
  .ite (.refl s) (keeps_queueInList s msg)

theorem keeps_sendInLoop (s : LoopThread σ) (msg : Bytes) :
    Keeps s (sendInLoop kernel S s msg) := by
  refine .ite (.refl s) (.ite ?_ (keeps_queueInList s msg))
  refine keeps_of_write (fun _ s' _ => keeps_queueInList s' _)
    (fun e s' _ => keeps_sendFailed e msg s') ?_
  intro e s' _
  exact keeps_push (by simp [Fits])

theorem keeps_checkBufferedData (s : LoopThread σ) : Keeps s (checkBufferedData s) := by
  unfold checkBufferedData
  split
  · exact .refl s
  · refine .ite (.push ?_ [.user] (fits_user _)) (.refl s)
    exact .of_same rfl id rfl

section FrontFile

theorem keeps_streamFailed (e : Errno) (h : FrontFile s.conn.writeBufferList) :
    Keeps s (streamFailed e s) :=
  .ite (keeps_list (grows_endStream _)) (keeps_enableWriting h.ne_nil)

theorem keeps_fetch (fileBytesToSend : Nat) (h : FrontFile s.conn.writeBufferList) :
    Keeps s (fetch fileBytesToSend s) := by
  refine .ite (keeps_enableWriting h.ne_nil) (keeps_push ?_)
  simp [Fits, h]

theorem keeps_writeFileBuffer (fileBytesToSend : Nat) (h : FrontFile s.conn.writeBufferList) :
    Keeps s (writeFileBuffer kernel S fileBytesToSend s) := by
  refine keeps_of_write ?_ ?_ ?_
  · intro n s' hlist
    rw [← hlist] at h
    refine .ite ?_ ?_
    · refine Keeps.trans ?_ (keeps_enableWriting ?_)
      · exact .of_same rfl id rfl
      · exact h.ne_nil
    · refine Keeps.trans ?_ (keeps_fetch fileBytesToSend ?_)
      · exact .of_same rfl id rfl
      · exact h
  · intro e s' hlist
    rw [← hlist] at h
    exact keeps_streamFailed e h
  · intro e s' hlist
    rw [← hlist] at h
    refine keeps_push ?_
    simp [Fits, h]

theorem keeps_fetched (s : LoopThread σ) : Keeps s (fetched kernel S s) := by
  unfold fetched
  split
  · rename_i rest hlist
    refine Keeps.trans (keeps_list ?_) (keeps_enableWriting ?_)
    · exact grows_replaceFront hlist rfl
    · exact List.cons_ne_nil _ rest
  · rename_i toSend chunk chunks rest hlist
    refine .ite (Keeps.trans (keeps_list ?_) (keeps_enableWriting ?_)) ?_
    · exact grows_replaceFront hlist rfl
    · exact List.cons_ne_nil _ rest
    · refine Keeps.trans ?_ (keeps_writeFileBuffer toSend ?_)
      · refine ⟨?_, Or.inl, [], rfl, fun _ h => absurd h List.not_mem_nil⟩
        exact grows_replaceFront hlist rfl
      · exact ⟨_, rest, rfl, rfl⟩
  · exact .refl s

theorem keeps_fileFailed (e : Errno) (h : FrontFile s.conn.writeBufferList) :
    Keeps s (fileFailed e s) :=
  .ite (.refl s) (keeps_enableWriting h.ne_nil)

theorem keeps_fileLoop (s : LoopThread σ) : Keeps s (fileLoop kernel S s) := by
  unfold fileLoop
  split
  · rename_i content offset toSend rest hlist
    have hfront : FrontFile s.conn.writeBufferList := ⟨_, rest, hlist, rfl⟩
    refine .ite (keeps_enableWriting hfront.ne_nil) (.ite (.refl s) ?_)
    refine Keeps.trans ?_ (keeps_of_write ?_ ?_ ?_)
    · exact .of_same rfl id rfl
    · intro n s' hsame
      have hnode : Keeps s' { s' with
          conn.writeBufferList := .file content (offset + n) (toSend - n) :: rest } := by
        exact keeps_list (grows_replaceFront (hsame.trans hlist) rfl)
      refine .ite (hnode.trans (keeps_enableWriting ?_)) (hnode.push _ ?_)
      · exact List.cons_ne_nil _ rest
      · intro frame hframe
        obtain rfl := List.mem_singleton.mp hframe
        exact ⟨_, rest, rfl, rfl⟩
    · intro e s' hsame
      apply keeps_fileFailed
      rwa [hsame]
    · intro e s' hsame
      apply keeps_push
      intro frame hframe
      obtain rfl := List.mem_singleton.mp hframe
      rwa [Fits, hsame]
  · exact .refl s

theorem isFile_sendfileInLoop (kernel : Kernel) (c : Connection) (content : Bytes)
    (offset fileBytesToSend : Nat) :
    (TcpConnectionImpl.sendfileInLoop kernel c content offset fileBytesToSend).2.isFile = true := by
  unfold TcpConnectionImpl.sendfileInLoop
  split
  · rfl
  · dsimp only
    split <;> rfl

theorem keeps_sendFileInLoop (hsend : sendFileInLoop kernel S s = some s') : Keeps s s' := by
  unfold sendFileInLoop at hsend
  split at hsend
  · rename_i content offset toSend rest hlist
    split at hsend
    · obtain rfl := Option.some.inj hsend
      apply Keeps.push
      · exact .of_same rfl id rfl
      · intro frame hframe
        obtain rfl := List.mem_singleton.mp hframe
        exact ⟨_, rest, hlist, rfl⟩
    · obtain rfl := Option.some.inj hsend
      have hnode := isFile_sendfileInLoop kernel s.conn content offset toSend
      exact ⟨grows_replaceFront hlist hnode.symm, fun _ => Or.inr (List.cons_ne_nil _ rest), [],
        rfl, fun _ h => absurd h List.not_mem_nil⟩
  · rename_i toSend chunks rest hlist
    have hfront : FrontFile s.conn.writeBufferList := ⟨_, rest, hlist, rfl⟩
    split at hsend
    · obtain rfl := Option.some.inj hsend
      exact keeps_fetch toSend hfront
    · obtain rfl := Option.some.inj hsend
      exact keeps_writeFileBuffer toSend hfront
  · cases hsend

theorem exists_sendFileInLoop (h : FrontFile s.conn.writeBufferList) :
    ∃ s', sendFileInLoop kernel S s = some s' := by
  obtain ⟨node, rest, hlist, hnode⟩ := h
  unfold sendFileInLoop
  rw [hlist]
  cases node with
  | msg msgBuffer => cases hnode
  | file content offset toSend =>
      dsimp only
      split <;> exact ⟨_, rfl⟩
  | stream toSend chunks =>
      dsimp only
      split <;> exact ⟨_, rfl⟩

end FrontFile

theorem keeps_writeMsg {msgBuffer : Bytes} {rest : List BufferNode}
    (hlist : s.conn.writeBufferList = .msg msgBuffer :: rest) :
    Keeps s (writeMsg kernel S s msgBuffer rest) := by
  have hcheck : ∀ (e : Errno) (s : LoopThread σ),
      Keeps s (if e ≠ .EAGAIN then s else push [.checkCloseOnEmpty] s) :=
    fun e s => .ite (.refl s) (keeps_push (by simp [Fits]))
  refine keeps_of_write ?_ (fun e s' _ => hcheck e s') (fun e s' _ => hcheck e s')
  intro n s' hsame
  apply Keeps.push
  · exact keeps_list (grows_replaceFront (hsame.trans hlist) rfl)
  · simp [Fits]

theorem keeps_readCallback (result : ReadResult) : Keeps s (readCallback s result) := by
  rcases result with e | _ | ⟨byte, chunk⟩
  · exact .ite (.refl s) (keeps_handleClose s)
  · exact keeps_handleClose s
  · apply Keeps.push
    · exact .of_same rfl id rfl
    · intro frame hframe
      obtain rfl := List.mem_singleton.mp hframe
      split <;> trivial

theorem keeps_recvData (p : Provider σ) (s : LoopThread σ) : Keeps s (recvData kernel S p s) := by
  unfold recvData
  split
  · exact keeps_handleSSLError _ _ s
  · apply Keeps.push
    · exact .of_same rfl id rfl
    · intro frame hframe
      obtain rfl := List.mem_singleton.mp hframe
      split <;> trivial

theorem keeps_processHandshake (inRecvData : Bool) (p : Provider σ) (s : LoopThread σ) :
    Keeps s (processHandshake kernel S inRecvData p s) := by
  unfold processHandshake
  split
  · apply Keeps.push
    · exact .of_same rfl id rfl
    · simp [Fits]
  · rename_i p' _
    have hshutdown : Keeps s (shutdown kernel S { s with tlsProvider := some p' }) := by
      refine Keeps.trans ?_ (keeps_shutdown _)
      exact .of_same rfl id rfl
    dsimp only
    cases (shutdown kernel S { s with tlsProvider := some p' }).tlsProvider with
    | none => exact hshutdown
    | some q => exact hshutdown.trans (keeps_handleSSLError _ _ _)
  · exact keeps_handleSSLError _ _ s

theorem keeps_handshakeFinished (inRecvData : Bool) (p : Provider σ) (s : LoopThread σ) :
    Keeps s (handshakeFinished kernel inRecvData p s) := by
  apply Keeps.push
  · exact .of_same rfl id rfl
  · cases inRecvData <;> simp [Fits]

theorem keeps_processApplicationData (p : Provider σ) (s : LoopThread σ) :
    Keeps s (processApplicationData kernel S p s) := by
  unfold processApplicationData
  split
  · apply Keeps.push
    · exact .of_same rfl id rfl
    · simp [Fits]
  · refine Keeps.trans ?_ (keeps_shutdown _)
    exact .of_same rfl id rfl
  · exact keeps_handleSSLError _ _ s

theorem keeps_elim {f : Provider σ → LoopThread σ} (h : ∀ p, Keeps s (f p)) :
    Keeps s (s.tlsProvider.elim s f) := by
  cases s.tlsProvider with
  | none => exact .refl s
  | some p => exact h p

/-- Every frame but `writeCallback` and `startFile` leaves the nodes in the list. -/
theorem keeps_exec {frame : Frame} (hfits : Fits s.conn.writeBufferList frame)
    (hexec : exec kernel S s frame = some s') : Keeps s s' := by
  cases frame with
  | writeCallback | startFile => exact absurd hfits id
  | sendFileInLoop => exact keeps_sendFileInLoop hexec
  | user | unlock | decrement | remove =>
      obtain rfl := Option.some.inj hexec
      exact .of_same rfl id rfl
  | closeEvent =>
      obtain rfl := Option.some.inj hexec
      exact keeps_handleClose s
  | readCallback result =>
      obtain rfl := Option.some.inj hexec
      exact keeps_readCallback result
  | closeCallback =>
      obtain rfl := Option.some.inj hexec
      exact .ite (.of_same rfl id rfl) (.of_same rfl id rfl)
  | sendInLoop msg =>
      obtain rfl := Option.some.inj hexec
      exact keeps_sendInLoop s msg
  | sendFailed e msg =>
      obtain rfl := Option.some.inj hexec
      exact keeps_sendFailed e msg s
  | checkBufferedData =>
      obtain rfl := Option.some.inj hexec
      exact keeps_checkBufferedData s
  | fetched =>
      obtain rfl := Option.some.inj hexec
      exact keeps_fetched s
  | streamFailed e =>
      obtain rfl := Option.some.inj hexec
      exact keeps_streamFailed e hfits
  | fileLoop =>
      obtain rfl := Option.some.inj hexec
      exact keeps_fileLoop s
  | fileFailed e =>
      obtain rfl := Option.some.inj hexec
      exact keeps_fileFailed e hfits
  | completed =>
      obtain rfl := Option.some.inj hexec
      exact .ite (keeps_closeWrite s) (.refl s)
  | checkCloseOnEmpty =>
      obtain rfl := Option.some.inj hexec
      exact .ite (keeps_shutdown s) (.refl s)
  | recvData =>
      obtain rfl := Option.some.inj hexec
      exact keeps_elim fun p => keeps_recvData p s
  | processHandshake inRecvData =>
      obtain rfl := Option.some.inj hexec
      exact keeps_elim fun p => keeps_processHandshake inRecvData p s
  | handshakeFinished inRecvData =>
      obtain rfl := Option.some.inj hexec
      exact keeps_elim fun p => keeps_handshakeFinished inRecvData p s
  | processApplicationData =>
      obtain rfl := Option.some.inj hexec
      exact keeps_elim fun p => keeps_processApplicationData p s

theorem exists_exec {frame : Frame} (hfits : Fits s.conn.writeBufferList frame) :
    ∃ s', exec kernel S s frame = some s' := by
  cases frame with
  | writeCallback | startFile => exact absurd hfits id
  | sendFileInLoop => exact exists_sendFileInLoop hfits
  | _ => exact ⟨_, rfl⟩

theorem keeps_pushNode {node : BufferNode} (hnode : node.isFile) (s : LoopThread σ) :
    Keeps s (pushNode node s) :=
  keeps_list (grows_append hnode _)

theorem frontFile_of_length {list : List BufferNode} (hlast : LastFile list)
    (hlength : list.length = 1) : FrontFile list := by
  obtain ⟨rest, node, rfl, hnode⟩ := hlast
  rw [List.length_append, List.length_singleton] at hlength
  obtain rfl := List.length_eq_zero_iff.mp (by omega : rest.length = 0)
  exact ⟨node, [], rfl, hnode⟩

theorem keeps_callInLoop (s : LoopThread σ) (call : SendCall) : Keeps s (callInLoop s call) := by
  have hfile : ∀ node : BufferNode, node.isFile → Keeps s
      (if (pushNode node s).conn.writeBufferList.length = 1 then
        push [.sendFileInLoop, .unlock] { pushNode node s with locked := true }
      else pushNode node s) := by
    intro node hnode
    have hpushed := keeps_pushNode hnode s
    split
    · rename_i hlength
      have hlocked : Keeps s { pushNode node s with locked := true } :=
        hpushed.trans (.of_same rfl id rfl)
      apply hlocked.push
      simp only [List.forall_mem_cons]
      refine ⟨?_, trivial, fun _ h => absurd h List.not_mem_nil⟩
      exact frontFile_of_length ⟨s.conn.writeBufferList, node, rfl, hnode⟩ hlength
    · exact hpushed
  cases call with
  | send msg =>
      apply Keeps.push
      · exact .of_same rfl id rfl
      · simp [Fits]
  | sendFile content offset length => exact hfile _ rfl
  | sendStream chunks => exact hfile _ rfl

theorem keeps_requestInLoop {request : Request}
    (hrequest : requestInLoop kernel S s request = some s') : Keeps s s' := by
  cases requestInLoop_cases hrequest with
  | direct =>
      refine Keeps.trans ?_ (keeps_callInLoop _ _)
      exact .of_same rfl id rfl
  | queued => exact .of_same rfl id rfl
  | shutdown => exact keeps_shutdown s
  | forceClose => exact keeps_forceClose s

end Keeps

/-- No two nodes in memory are adjacent, and write events are enabled only while there is a node. -/
structure Shape (c : Connection) : Prop where
  alternating : Alternating c.writeBufferList
  nonempty : c.writing = true → c.writeBufferList ≠ []

/-- The frames on the stack. Those that take up the list are at its bottom. -/
inductive Stacked (list : List BufferNode) : List Frame → Prop
  | frames {frames} (hfits : ∀ frame ∈ frames, Fits list frame) : Stacked list frames
  | writeCallback {frames} (hfits : ∀ frame ∈ frames, Fits list frame) :
      Stacked list (frames ++ [.writeCallback])
  | decrement (hlast : LastFile list) : Stacked list [.decrement, .startFile]
  | startFile (hlast : LastFile list) : Stacked list [.startFile]

structure Shaped {σ : Type*} (s : LoopThread σ) : Prop where
  shape : Shape s.conn
  stack : Stacked s.conn.writeBufferList s.stack

section Shaped

variable {σ : Type*} {kernel : Kernel} {S : OpenSSL σ} {s s' : LoopThread σ}

theorem Shape.keeps (h : Shape s.conn) (hkeeps : Keeps s s') : Shape s'.conn where
  alternating := hkeeps.list.alternating h.alternating
  nonempty hwriting := by
    rcases hkeeps.writing hwriting with hbefore | hne
    · exact hkeeps.list.nonempty (h.nonempty hbefore)
    · exact hne

theorem forall_fits_append {list list' : List BufferNode} {frames frames' : List Frame}
    (hgrows : Grows list list') (hfits : ∀ frame ∈ frames, Fits list frame)
    (hfits' : ∀ frame ∈ frames', Fits list' frame) :
    ∀ frame ∈ frames' ++ frames, Fits list' frame := by
  intro frame hframe
  rcases List.mem_append.mp hframe with hnew | hold
  · exact hfits' frame hnew
  · exact (hfits frame hold).mono hgrows

theorem Shaped.keeps (h : Shaped s) (hkeeps : Keeps s s')
    (hdecrement : s.stack ≠ [.decrement, .startFile]) (hstart : s.stack ≠ [.startFile]) :
    Shaped s' := by
  refine ⟨h.shape.keeps hkeeps, ?_⟩
  obtain ⟨frames', hstack', hfits'⟩ := hkeeps.stack
  rw [hstack']
  have hstack := h.stack
  generalize s.stack = stack at hstack hdecrement hstart
  cases hstack with
  | frames hfits => exact .frames (forall_fits_append hkeeps.list hfits hfits')
  | writeCallback hfits =>
      rw [← List.append_assoc]
      exact .writeCallback (forall_fits_append hkeeps.list hfits hfits')
  | decrement => exact absurd rfl hdecrement
  | startFile => exact absurd rfl hstart

/-- What `writeCallback` makes of an idle thread. -/
def Lands (s s' : LoopThread σ) : Prop :=
  Shape s'.conn ∧ ∃ frames, s'.stack = frames ++ s.stack ∧
    ∀ frame ∈ frames, Fits s'.conn.writeBufferList frame

theorem Shape.lands (h : Shape s.conn) (hkeeps : Keeps s s') : Lands s s' :=
  ⟨h.keeps hkeeps, hkeeps.stack⟩

theorem Lands.shaped (h : Lands s s') (hidle : s.stack = []) : Shaped s' := by
  obtain ⟨hshape, frames, hstack, hfits⟩ := h
  refine ⟨hshape, ?_⟩
  rw [hstack, hidle, List.append_nil]
  exact .frames hfits

theorem writeNext_lands {afterFile : Bool} {node : BufferNode} {rest : List BufferNode}
    (h : Shape s.conn) (hlist : s.conn.writeBufferList = node :: rest)
    (hafter : afterFile = node.isFile) :
    ∃ s', writeNext kernel S afterFile s rest = some s' ∧ Lands s s' := by
  have halternating := h.alternating
  rw [hlist] at halternating
  have hpopped : ∀ next rest', rest = next :: rest' →
      Shape { s.conn with writeBufferList := rest } := by
    rintro next rest' rfl
    exact ⟨halternating.tail, fun _ => List.cons_ne_nil next rest'⟩
  unfold writeNext
  cases rest with
  | nil =>
      refine ⟨_, rfl, ⟨List.isChain_nil, ?_⟩, _, rfl, ?_⟩
      · intro hwriting
        cases hwriting
      · simp [Fits]
  | cons next rest =>
      have hshape := hpopped next rest rfl
      have hfile : ∀ node' : BufferNode, next = node' → node'.isFile →
          Lands s (push [.sendFileInLoop, .checkCloseOnEmpty]
            { s with conn.writeBufferList := next :: rest }) := by
        rintro node' rfl hnext
        refine ⟨hshape, _, rfl, ?_⟩
        simp only [List.forall_mem_cons]
        exact ⟨⟨next, rest, rfl, hnext⟩, trivial, fun _ h => absurd h List.not_mem_nil⟩
      cases next with
      | msg msgBuffer =>
          have hnode : node.isFile = true := by
            rcases (List.isChain_cons_cons.mp halternating).1 with hfirst | hsecond
            · exact hfirst
            · cases hsecond
          rw [hafter, hnode]
          refine ⟨_, rfl, ?_⟩
          have hkeeps : Keeps { s with conn.writeBufferList := .msg msgBuffer :: rest }
              (writeMsg kernel S { s with conn.writeBufferList := .msg msgBuffer :: rest }
                msgBuffer rest) := keeps_writeMsg rfl
          exact ⟨Shape.keeps (s := { s with conn.writeBufferList := _ }) hshape hkeeps,
            hkeeps.stack⟩
      | file content offset toSend => exact ⟨_, rfl, hfile _ rfl rfl⟩
      | stream toSend chunks => exact ⟨_, rfl, hfile _ rfl rfl⟩

theorem writeList_lands (h : Shape s.conn) (hwriting : s.conn.writing = true) :
    ∃ s', writeList kernel S s = some s' ∧ Lands s s' := by
  have hnonempty := h.nonempty hwriting
  have hfile : FrontFile s.conn.writeBufferList →
      Lands s (push [.sendFileInLoop, .checkCloseOnEmpty] s) := by
    intro hfront
    refine ⟨h, _, rfl, ?_⟩
    simp only [List.forall_mem_cons]
    exact ⟨hfront, trivial, fun _ h => absurd h List.not_mem_nil⟩
  unfold writeList
  split
  · rename_i hlist
    exact absurd hlist hnonempty
  · rename_i msgBuffer rest hlist
    split
    · exact writeNext_lands h hlist rfl
    · exact ⟨_, rfl, h.lands (keeps_writeMsg hlist)⟩
  all_goals
    rename_i hlist
    split
    · exact writeNext_lands h hlist rfl
    · exact ⟨_, rfl, hfile ⟨_, _, hlist, rfl⟩⟩

/-- With a list of that shape `writeCallback` does not fail an assertion. -/
theorem writeCallback_lands (h : Shape s.conn) :
    ∃ s', writeCallback kernel S s = some s' ∧ Lands s s' := by
  unfold writeCallback
  split
  · rename_i hwriting
    split
    · exact writeList_lands h hwriting
    · rename_i p _
      split
      · rename_i p' _
        have hset : Keeps s { s with tlsProvider := some p' } := .of_same rfl id rfl
        exact ⟨_, rfl, h.lands (hset.trans (keeps_enableWriting (h.nonempty hwriting)))⟩
      · rename_i p' _
        exact writeList_lands (s := { s with tlsProvider := some p' }) h hwriting
  · exact ⟨s, rfl, h.lands (.refl s)⟩

theorem shaped_handleEvent (h : Shaped s) (hidle : s.stack = []) (revents : Revents)
    (result : ReadResult) : Shaped (handleEvent revents result s) := by
  unfold handleEvent
  split
  · exact h
  · refine ⟨h.shape, ?_⟩
    change Stacked s.conn.writeBufferList (_ ++ s.stack)
    rw [hidle, List.append_nil]
    have hfits : ∀ frame ∈
        (if revents.POLLHUP && !revents.POLLIN then [Frame.closeEvent] else []) ++
          if revents.POLLIN || revents.POLLPRI || revents.POLLRDHUP then
            [Frame.readCallback result]
          else [], Fits s.conn.writeBufferList frame := by
      intro frame hframe
      rcases List.mem_append.mp hframe with hclose | hread
      · split at hclose
        · obtain rfl := List.mem_singleton.mp hclose
          trivial
        · cases hclose
      · split at hread
        · obtain rfl := List.mem_singleton.mp hread
          trivial
        · cases hread
    cases revents.POLLOUT with
    | true =>
        rw [if_pos rfl]
        exact .writeCallback hfits
    | false =>
        rw [if_neg Bool.false_ne_true, List.append_nil]
        exact .frames hfits

theorem shaped_runFunctor (h : Shaped s) (hidle : s.stack = []) (functor : Functor) :
    Shaped (runFunctor kernel S s functor) := by
  have hkeeps : ∀ {s'}, Keeps s s' → Shaped s' := fun hkeeps =>
    h.keeps hkeeps (by simp [hidle]) (by simp [hidle])
  have hfile : ∀ node : BufferNode, node.isFile →
      Shaped (push [.decrement, .startFile] (pushNode node s)) := by
    intro node hnode
    have hpushed := h.shape.keeps (keeps_pushNode hnode s)
    refine ⟨hpushed, ?_⟩
    change Stacked _ ([.decrement, .startFile] ++ s.stack)
    rw [hidle]
    exact .decrement ⟨s.conn.writeBufferList, node, rfl, hnode⟩
  rcases functor with (call | _ | _) | _
  · cases call with
    | send msg =>
        apply hkeeps
        apply keeps_push
        simp [Fits]
    | sendFile content offset length => exact hfile _ rfl
    | sendStream chunks => exact hfile _ rfl
  · exact hkeeps (keeps_shutdown s)
  · exact hkeeps (keeps_forceClose s)
  · apply hkeeps
    refine .ite (.push ?_ _ ?_) (.of_same rfl id rfl)
    · refine .of_same rfl ?_ rfl
      intro h
      cases h
    · simp [Fits]

theorem shaped_startFile (hshape : Shape s.conn) (hidle : s.stack = [])
    (hlast : LastFile s.conn.writeBufferList) :
    ∃ s', exec kernel S s .startFile = some s' ∧ Shaped s' := by
  simp only [exec]
  split
  · rename_i hlength
    refine ⟨_, rfl, hshape, ?_⟩
    change Stacked _ ([.sendFileInLoop] ++ s.stack)
    rw [hidle]
    apply Stacked.frames
    intro frame hframe
    obtain rfl := List.mem_singleton.mp hframe
    exact frontFile_of_length hlast hlength
  · refine ⟨s, rfl, hshape, ?_⟩
    rw [hidle]
    exact .frames fun _ h => absurd h List.not_mem_nil

theorem shaped_exec (h : Shaped s) {frame : Frame} {stack : List Frame}
    (hstack : s.stack = frame :: stack) :
    ∃ s', exec kernel S { s with stack } frame = some s' ∧ Shaped s' := by
  have hstacked := h.stack
  have hshape := h.shape
  have hgoes : Fits s.conn.writeBufferList frame → Stacked s.conn.writeBufferList stack →
      .startFile ∉ stack → ∃ s', exec kernel S { s with stack } frame = some s' ∧ Shaped s' := by
    intro hfits hrest hstart
    obtain ⟨s', hexec⟩ := @exists_exec σ kernel S { s with stack } frame hfits
    have hbefore : Shaped { s with stack } := ⟨hshape, hrest⟩
    refine ⟨s', hexec, hbefore.keeps (keeps_exec hfits hexec) ?_ ?_⟩
    · rintro rfl
      exact hstart (List.mem_cons_of_mem _ List.mem_cons_self)
    · rintro rfl
      exact hstart List.mem_cons_self
  rw [hstack] at hstacked
  generalize hall : frame :: stack = all at hstacked
  cases hstacked with
  | frames hfits =>
      subst hall
      obtain ⟨hframe, hrest⟩ := List.forall_mem_cons.mp hfits
      exact hgoes hframe (.frames hrest) fun hmem => hrest _ hmem
  | @writeCallback frames hfits =>
      cases frames with
      | nil =>
          obtain ⟨rfl, rfl⟩ := List.cons.inj hall
          obtain ⟨s', hwrite, hlands⟩ :=
            @writeCallback_lands σ kernel S { s with stack := [] } hshape
          exact ⟨s', hwrite, hlands.shaped rfl⟩
      | cons first frames =>
          obtain ⟨rfl, rfl⟩ := List.cons.inj hall
          obtain ⟨hframe, hrest⟩ := List.forall_mem_cons.mp hfits
          refine hgoes hframe (.writeCallback hrest) ?_
          intro hmem
          rcases List.mem_append.mp hmem with hin | hlast
          · exact hrest _ hin
          · cases List.mem_singleton.mp hlast
  | decrement hlast =>
      obtain ⟨rfl, rfl⟩ := List.cons.inj hall
      exact ⟨_, rfl, ⟨hshape.alternating, hshape.nonempty⟩, .startFile hlast⟩
  | startFile hlast =>
      obtain ⟨rfl, rfl⟩ := List.cons.inj hall
      exact shaped_startFile (s := { s with stack := [] }) hshape rfl hlast

theorem Shaped.of_same (h : Shaped s) (hconn : s'.conn = s.conn) (hstack : s'.stack = s.stack) :
    Shaped s' := by
  refine ⟨?_, ?_⟩
  · rw [hconn]
    exact h.shape
  · rw [hconn, hstack]
    exact h.stack

theorem shaped_requestElsewhere (h : Shaped s) (request : Request) :
    Shaped (requestElsewhere s request) := by
  cases request with
  | call call =>
      simp only [requestElsewhere]
      split
      · exact h
      · exact ⟨⟨h.shape.alternating, h.shape.nonempty⟩, h.stack⟩
  | shutdown | forceClose => exact h.of_same rfl rfl

/-- A step has no result only when a call waits for the mutex that its thread holds. -/
def WaitsForItself (s : LoopThread σ) (event : Event) : Prop :=
  s.locked = true ∧ ∃ call, event = .inLoop (.call call)

theorem shaped_step (h : Shaped s) (event : Event) :
    (∃ s', step kernel S s event = some s' ∧ Shaped s') ∨
      step kernel S s event = none ∧ WaitsForItself s event := by
  cases event with
  | handleEvent revents result =>
      refine Or.inl ?_
      simp only [step]
      split
      · rename_i hidle
        exact ⟨_, rfl, shaped_handleEvent h hidle revents result⟩
      · exact ⟨s, rfl, h⟩
  | functor =>
      refine Or.inl ?_
      simp only [step]
      split
      · rename_i functor funcs hidle _
        exact ⟨_, rfl, shaped_runFunctor (s := { s with funcs }) (h.of_same rfl rfl) hidle functor⟩
      · exact ⟨s, rfl, h⟩
  | resume =>
      refine Or.inl ?_
      simp only [step]
      split
      · exact ⟨s, rfl, h⟩
      · rename_i frame stack hstack
        exact shaped_exec h hstack
  | elsewhere request => exact Or.inl ⟨_, rfl, shaped_requestElsewhere h request⟩
  | serverLoop =>
      refine Or.inl ?_
      simp only [step]
      split
      · exact ⟨s, rfl, h⟩
      · exact ⟨_, rfl, h.of_same rfl rfl⟩
  | inLoop request =>
      simp only [step]
      split
      · rename_i huser
        cases hrequest : requestInLoop kernel S s request with
        | some s' =>
            refine Or.inl ⟨s', rfl, h.keeps (keeps_requestInLoop hrequest) ?_ ?_⟩
            · intro hstack
              rw [inUser, hstack] at huser
              cases huser
            · intro hstack
              rw [inUser, hstack] at huser
              cases huser
        | none =>
            cases request with
            | call call =>
                refine Or.inr ⟨rfl, ?_, call, rfl⟩
                by_contra hlocked
                rw [requestInLoop, if_neg hlocked] at hrequest
                cases hrequest
            | shutdown | forceClose => cases hrequest
      · exact Or.inl ⟨s, rfl, h⟩

theorem shaped_established (highWaterMarkLen : Option Nat) (inServerLoop : Bool)
    (ssl : Option σ) : Shaped (established highWaterMarkLen inServerLoop ssl) := by
  refine ⟨⟨?_, ?_⟩, ?_⟩
  · cases ssl <;> exact List.isChain_nil
  · intro hwriting
    cases ssl <;> cases hwriting
  · apply Stacked.frames
    intro frame hframe
    cases ssl <;> obtain rfl := List.mem_singleton.mp hframe <;> trivial

variable (kernel S)

/-- In every state of every run the list has that shape, and the next step fails no assertion. -/
theorem shape_run (highWaterMarkLen : Option Nat) (inServerLoop : Bool) (ssl : Option σ)
    {events : List Event}
    (hrun : runSteps (step kernel S) (established highWaterMarkLen inServerLoop ssl) events =
      some s) :
    Alternating s.conn.writeBufferList ∧
      (s.conn.writing = true → s.conn.writeBufferList ≠ []) ∧
      ∀ event, step kernel S s event = none → WaitsForItself s event := by
  have hshaped : Shaped s := by
    refine runSteps_invariant Shaped ?_ (shaped_established highWaterMarkLen inServerLoop ssl) hrun
    intro s event s' h hstep
    rcases @shaped_step σ kernel S s h event with ⟨next, hnext, hshaped⟩ | ⟨hnone, -⟩
    · rw [hstep] at hnext
      obtain rfl := Option.some.inj hnext
      exact hshaped
    · rw [hstep] at hnone
      cases hnone
  refine ⟨hshaped.shape.alternating, hshaped.shape.nonempty, ?_⟩
  intro event hnone
  rcases @shaped_step σ kernel S s hshaped event with ⟨next, hnext, -⟩ | ⟨-, hwaits⟩
  · rw [hnone] at hnext
    cases hnext
  · exact hwaits

end Shaped

/-- A kernel that takes a byte at a time. -/
def takesOne : Kernel := fun _ len => .done ⟨min 1 len, Nat.lt_succ_of_le (Nat.min_le_right 1 len)⟩

def sendBetween : List Event :=
  [.inLoop (.call (.send [1, 2])), .resume, .resume, .inLoop (.call (.sendFile [3, 4] 0 2)),
    .inLoop (.call (.send [5])), .resume, .resume, .resume, .writable, .resume, .resume, .writable,
    .resume, .resume]

theorem shape_run_sendBetween :
    ∃ s, runSteps (step takesOne unusedSSL) (established none true none) sendBetween = some s ∧
      Alternating s.conn.writeBufferList ∧
      (s.conn.writing = true → s.conn.writeBufferList ≠ []) ∧
      ∀ event, step takesOne unusedSSL s event = none → WaitsForItself s event := by
  obtain ⟨s, hrun⟩ := Option.isSome_iff_exists.mp
    (by decide : (runSteps (step takesOne unusedSSL) (established none true none)
      sendBetween).isSome = true)
  exact ⟨s, hrun, shape_run takesOne unusedSSL none true none hrun⟩

end Cooper.WriteListShape

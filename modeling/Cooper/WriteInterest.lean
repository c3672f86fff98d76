import Cooper.StepRun
import Cooper.WriteQueue

namespace Cooper.WriteInterest

open Cooper.MsgBuffer
open Cooper.StepRun
open Cooper.TcpConnectionImpl
open Cooper.WriteQueue

/-- What is pending will be sent. -/
def Scheduled (c : Connection) : Prop := c.writeBufferList ≠ [] → c.writing = true

/-- The first `sendfile()` for a file transfers something; `length` is positive by an assertion of
`sendFile`. -/
def FileStarts (kernel : Kernel) (c : Connection) (content : Bytes) (offset length : Nat) : Prop :=
  ∃ n, (c.socket.sendfile kernel content offset length).1 = .ok n ∧ (0 < n ∨ length = 0)

def CallStarts (kernel : Kernel) (c : Connection) : SendCall → Prop
  | .sendFile content offset length =>
      c.writeBufferList = [] → FileStarts kernel c content offset length
  | _ => True

def AfterCall (kernel : Kernel) (c : Connection) (call : SendCall) : Prop :=
  ∀ c', runCall kernel true c call = some c' → Scheduled c'

def nodeDone : BufferNode → Prop
  | .msg msgBuffer => readableBytes msgBuffer = 0
  | .file _ _ fileBytesToSend | .stream fileBytesToSend _ => fileBytesToSend = 0

instance : DecidablePred nodeDone := fun node => by
  cases node <;> exact inferInstanceAs (Decidable (_ = 0))

/-- The connection on which `writeCallback` invokes `writeCompleteCallback_`. -/
def completing (c : Connection) : Option Connection :=
  match c.writeBufferList with
  | [node] =>
      if c.writing = true ∧ nodeDone node then
        some (log (disableWriting { c with writeBufferList := [] }) .writeCompleteCallback)
      else none
  | _ => none

/-- Whatever is pending when the operation returns is scheduled, and so it is when one of the calls
of `writeCompleteCallback_` returns. -/
def StaysScheduled (kernel : Kernel) (c : Connection) : LoopOp → Prop
  | .call call => AfterCall kernel c call
  | .writeCallback calls =>
      (∀ c', writeCallback kernel calls c = some c' → Scheduled c') ∧
        ∀ c', completing c = some c' → AllSteps (runCall kernel true) (AfterCall kernel) c' calls

def FilesStart (kernel : Kernel) (c : Connection) : LoopOp → Prop
  | .call call => CallStarts kernel c call
  | .writeCallback calls =>
      ∀ c', completing c = some c' → AllSteps (runCall kernel true) (CallStarts kernel) c' calls

section SendInLoop

variable {kernel : Kernel} {c : Connection}

theorem scheduled_checkHighWaterMark (h : Scheduled c) : Scheduled (checkHighWaterMark c) := by
  unfold checkHighWaterMark
  split
  · split
    · exact h
    · exact h
  · exact h

theorem scheduled_queueInList (h : Scheduled c) (data : Bytes) : Scheduled (queueInList c data) := by
  unfold queueInList
  split
  · exact scheduled_checkHighWaterMark fun _ => rfl
  · exact h

theorem scheduled_sendInLoop (hk : OnlyEAGAIN kernel) (hopen : c.socket.writeClosed = false)
    (h : Scheduled c) (data : Bytes) : Scheduled (sendInLoop kernel c data) := by
  unfold sendInLoop
  split
  · exact h
  · split
    · rcases writeInLoop_cases hk hopen data with
        ⟨n, -, socket, bytesSent, hw, -, -⟩ | ⟨socket, hw, -, -⟩
      · rw [hw]
        exact scheduled_queueInList (c := { c with socket, bytesSent }) h _
      · rw [hw]
        exact scheduled_queueInList (c := { c with socket }) h _
    · exact scheduled_queueInList h data

end SendInLoop

section SendFileInLoop

variable {kernel : Kernel} {c c' : Connection}

theorem sendfileInLoop_writing (c : Connection) (hk : OnlyEAGAIN kernel)
    (hopen : c.socket.writeClosed = false) (content : Bytes) (offset toSend : Nat) :
    (sendfileInLoop kernel c content offset toSend).1.writing = true ↔
      c.writing = true ∨ FileStarts kernel c content offset toSend := by
  unfold sendfileInLoop FileStarts Socket.sendfile
  rcases write_cases hk hopen ((content.drop offset).take toSend) with
    ⟨n, hn, socket, hw, -, -⟩ | ⟨socket, hw, -, -⟩
  · rw [List.length_take] at hn
    rw [hw]
    by_cases hstall : n < toSend ∧ n = 0
    · simp only [if_pos hstall]
      refine (or_iff_left ?_).symm
      rintro ⟨n', hanswer, hpos⟩
      obtain rfl := Except.ok.inj hanswer
      omega
    · simp only [if_neg hstall]
      exact iff_of_true rfl (.inr ⟨n, rfl, by omega⟩)
  · rw [hw]
    refine (or_iff_left ?_).symm
    rintro ⟨n', hanswer, -⟩
    simp at hanswer

def NodeStarts (kernel : Kernel) (c : Connection) : BufferNode → Prop
  | .file content offset fileBytesToSend => FileStarts kernel c content offset fileBytesToSend
  | _ => True

theorem sendFileInLoop_writing (hk : OnlyEAGAIN kernel) (h : Sending c) {node : BufferNode}
    {rest : List BufferNode} (hlist : c.writeBufferList = node :: rest)
    (hsent : sendFileInLoop kernel c = some c') :
    c'.writeBufferList ≠ [] ∧ (c'.writing = true ↔ c.writing = true ∨ NodeStarts kernel c node) := by
  unfold sendFileInLoop at hsent
  rw [hlist] at hsent
  cases node with
  | msg msgBuffer => exact absurd hsent (by simp)
  | file content offset toSend =>
      obtain rfl := Option.some.inj hsent
      exact ⟨List.cons_ne_nil _ _, sendfileInLoop_writing c hk h.writable content offset toSend⟩
  | stream toSend chunks =>
      have hleft : c.fileBuffer ≠ [] → toSend ≠ 0 := by
        intro hne
        obtain ⟨toSend', _, _, hstream, hpos⟩ := h.leftoverAtFront hne
        simp only [hlist, List.cons.injEq, BufferNode.stream.injEq] at hstream
        rw [hstream.1.1]
        exact hpos
      obtain ⟨socket, bytesSent, fileBuffer, toSend', chunks', hstream, -⟩ :=
        sendStreamInLoop_sent hk h.writable hleft chunks
      simp only [hstream] at hsent
      obtain rfl := Option.some.inj hsent
      exact ⟨List.cons_ne_nil _ _, iff_of_true rfl (.inr trivial)⟩

theorem pushFile_scheduled (hk : OnlyEAGAIN kernel) (h : Sending c) (hsched : Scheduled c)
    {node : BufferNode} (hnode : node.isFile) (hpush : pushFile kernel c node = some c') :
    Scheduled c' ↔ (c.writeBufferList = [] → NodeStarts kernel c node) := by
  unfold pushFile at hpush
  simp only [List.length_append, List.length_singleton] at hpush
  by_cases hempty : c.writeBufferList = []
  · have hidle : c.writing ≠ true := fun hwriting => h.nonempty hwriting hempty
    have hpushed : Sending { c with writeBufferList := [node] } :=
      ⟨h.1, h.2, h.3, h.4, by simp, List.isChain_singleton _, fun hne => by
        obtain ⟨_, _, _, hlist, -⟩ := h.leftoverAtFront hne
        simp [hempty] at hlist⟩
    rw [if_pos (by simp [hempty]), hempty, List.nil_append] at hpush
    obtain ⟨hne, hwriting⟩ := sendFileInLoop_writing hk hpushed rfl hpush
    have hstarts : c'.writing = true ↔ NodeStarts kernel c node := by
      refine hwriting.trans ((or_iff_right hidle).trans ?_)
      cases node <;> rfl
    constructor
    · intro hafter _
      exact hstarts.mp (hafter hne)
    · intro hfirst _
      exact hstarts.mpr (hfirst hempty)
  · rw [if_neg (by simpa using hempty)] at hpush
    obtain rfl := Option.some.inj hpush
    exact iff_of_true (fun _ => hsched hempty) fun hnil => absurd hnil hempty

end SendFileInLoop

section Calls

variable {kernel : Kernel} {c c' : Connection}

theorem afterCall_iff (hk : OnlyEAGAIN kernel) (h : Sending c) (hsched : Scheduled c)
    (call : SendCall) : AfterCall kernel c call ↔ CallStarts kernel c call := by
  have hlog : Sending (log c (.call call)) := (h.log _).sending
  have hdirect : true = true ∧ (log c (.call call)).sendNum = 0 := ⟨rfl, h.direct⟩
  cases call with
  | send msg =>
      refine iff_of_true ?_ trivial
      intro c' hcall
      obtain rfl := Option.some.inj hcall
      rw [send, if_pos hdirect]
      exact scheduled_sendInLoop hk hlog.writable hsched msg
  | sendFile content offset length =>
      obtain ⟨c', hpush, -⟩ := pushFile_progress hk hlog (.file content offset length) rfl
      have hcall : runCall kernel true c (.sendFile content offset length) = some c' := by
        rw [runCall, sendFile, if_pos hdirect, hpush]
      have hiff := pushFile_scheduled hk hlog hsched rfl hpush
      constructor
      · intro hafter
        exact hiff.mp (hafter c' hcall)
      · intro hstarts c'' hcall'
        obtain rfl := Option.some.inj (hcall.symm.trans hcall')
        exact hiff.mpr hstarts
  | sendStream chunks =>
      refine iff_of_true ?_ trivial
      intro c' hcall
      rw [runCall, sendStream, if_pos hdirect] at hcall
      exact (pushFile_scheduled hk hlog hsched rfl hcall).mpr fun _ => trivial

theorem sending_runCall (hk : OnlyEAGAIN kernel) (h : Sending c) (call : SendCall)
    (hcall : runCall kernel true c call = some c') : Sending c' := by
  obtain ⟨c'', hcall', hprogress⟩ := runCall_progress hk h call
  obtain rfl := Option.some.inj (hcall'.symm.trans hcall)
  exact hprogress.sending

end Calls

section WriteCallback

variable {kernel : Kernel} {c c' : Connection}

theorem writeMsg_writing (hk : OnlyEAGAIN kernel) (h : Sending c) (msgBuffer : Bytes)
    (rest : List BufferNode) : (writeMsg kernel c msgBuffer rest).writing = c.writing := by
  unfold writeMsg
  rcases writeInLoop_cases hk h.writable msgBuffer with
    ⟨n, -, socket, bytesSent, hw, -, -⟩ | ⟨socket, hw, -, -⟩
  · simp [hw, checkCloseOnEmpty, h.notClosing]
  · simp [hw, checkCloseOnEmpty, h.notClosing]

/-- `writeCallback` has sent what it could and has left write events enabled. -/
def Continues (c : Connection) (result : Option Connection) : Prop :=
  ∃ c', result = some c' ∧ Progress c [] [] c' ∧ c'.writing = true

theorem Continues.of_progress {result : Option Connection} (hprogress : Progress c [] [] c')
    (h : Continues c' result) : Continues c result := by
  obtain ⟨c'', hresult, hnext, hwriting⟩ := h
  exact ⟨c'', hresult, hprogress.trans hnext, hwriting⟩

theorem writeMsg_continues (hk : OnlyEAGAIN kernel) (h : Sending c) (hwriting : c.writing = true)
    {msgBuffer : Bytes} {rest : List BufferNode}
    (hlist : c.writeBufferList = .msg msgBuffer :: rest) :
    Continues c (some (writeMsg kernel c msgBuffer rest)) :=
  ⟨_, rfl, writeMsg_progress hk h hlist, (writeMsg_writing hk h msgBuffer rest).trans hwriting⟩

theorem sendFileInLoop_continues (hk : OnlyEAGAIN kernel) (h : Sending c)
    (hwriting : c.writing = true) {node : BufferNode} {rest : List BufferNode}
    (hlist : c.writeBufferList = node :: rest) (hfile : node.isFile) :
    Continues c ((sendFileInLoop kernel c).map checkCloseOnEmpty) := by
  obtain ⟨c', hsent, hprogress⟩ := sendFileInLoop_progress hk h hlist hfile
  refine ⟨c', ?_, hprogress, (sendFileInLoop_writing hk h hlist hsent).2.mpr (.inl hwriting)⟩
  rw [hsent, Option.map_some, checkCloseOnEmpty_eq hprogress.sending]

theorem pending_of_nodeDone (h : Sending c) {node : BufferNode} {rest : List BufferNode}
    (hlist : c.writeBufferList = node :: rest) (hdone : nodeDone node) :
    nodePending node = [] ∧ c.fileBuffer = [] := by
  constructor
  · cases node with
    | msg msgBuffer => exact List.length_eq_zero_iff.mp hdone
    | file content offset toSend => rw [nodePending, show toSend = 0 from hdone, List.take_zero]
    | stream toSend chunks => rw [nodePending, if_pos (show toSend = 0 from hdone)]
  · by_contra hne
    obtain ⟨toSend, chunks, _, hstream, hpos⟩ := h.leftoverAtFront hne
    obtain rfl := (List.cons.inj (hlist.symm.trans hstream)).1
    exact hpos hdone

theorem completing_of_single {node : BufferNode} (hlist : c.writeBufferList = [node])
    (hwriting : c.writing = true) (hdone : nodeDone node) :
    completing c =
      some (log (disableWriting { c with writeBufferList := [] }) .writeCompleteCallback) := by
  unfold completing
  rw [hlist]
  exact if_pos ⟨hwriting, hdone⟩

theorem writeNext_continues (hk : OnlyEAGAIN kernel) (h : Sending c) (hwriting : c.writing = true)
    {node : BufferNode} {rest : List BufferNode} (hlist : c.writeBufferList = node :: rest)
    (hdone : nodeDone node) (hrest : rest ≠ []) (calls : List SendCall) :
    Continues c (writeNext kernel calls node.isFile c rest) := by
  obtain ⟨hnode, hbuffer⟩ := pending_of_nodeDone h hlist hdone
  have hpop := pop_progress h hlist hnode hbuffer c.writing fun _ => hrest
  have halt := h.alternating
  rw [hlist] at halt
  cases rest with
  | nil => exact absurd rfl hrest
  | cons next rest =>
      cases next with
      | msg msgBuffer =>
          have hfile : node.isFile = true := by
            simpa [BufferNode.isFile] using (List.isChain_cons_cons.mp halt).1
          rw [writeNext, hfile]
          exact (writeMsg_continues hk hpop.sending hwriting rfl).of_progress hpop
      | file | stream =>
          exact (sendFileInLoop_continues hk hpop.sending hwriting rfl rfl).of_progress hpop

theorem writeCallback_of_not_completing (hk : OnlyEAGAIN kernel) (h : Sending c)
    (hcompleting : completing c = none) (calls : List SendCall) :
    ∃ c', writeCallback kernel calls c = some c' ∧ Progress c [] [] c' ∧
      (Scheduled c → Scheduled c') := by
  by_cases hwriting : c.writing = true
  · have hmore : ∀ {node rest}, c.writeBufferList = node :: rest → nodeDone node → rest ≠ [] := by
      rintro node _ hlist hdone rfl
      rw [completing_of_single hlist hwriting hdone] at hcompleting
      exact absurd hcompleting (by simp)
    suffices hcontinues : Continues c (writeCallback kernel calls c) by
      obtain ⟨c', hresult, hprogress, hwriting'⟩ := hcontinues
      exact ⟨c', hresult, hprogress, fun _ _ => hwriting'⟩
    unfold writeCallback
    rw [if_pos hwriting]
    cases hlist : c.writeBufferList with
    | nil => exact absurd hlist (h.nonempty hwriting)
    | cons node rest =>
        cases node with
        | msg msgBuffer =>
            simp only
            split
            · rename_i hdone
              exact writeNext_continues hk h hwriting hlist hdone (hmore hlist hdone) calls
            · exact writeMsg_continues hk h hwriting hlist
        | file | stream =>
            simp only
            split
            · rename_i hdone
              exact writeNext_continues hk h hwriting hlist hdone (hmore hlist hdone) calls
            · exact sendFileInLoop_continues hk h hwriting hlist rfl
  · refine ⟨c, ?_, .refl h, fun hsched => hsched⟩
    rw [writeCallback, if_neg hwriting]

theorem completing_spec {c₀ : Connection} (hcompleting : completing c = some c₀) :
    ∃ node, c.writeBufferList = [node] ∧ c.writing = true ∧ nodeDone node ∧
      c₀ = log (disableWriting { c with writeBufferList := [] }) .writeCompleteCallback := by
  unfold completing at hcompleting
  split at hcompleting
  · rename_i node hlist
    obtain ⟨⟨hwriting, hdone⟩, heq⟩ := Option.ite_none_right_eq_some.mp hcompleting
    exact ⟨node, hlist, hwriting, hdone, (Option.some.inj heq).symm⟩
  · contradiction

theorem writeCallback_of_completing {c₀ : Connection} (hcompleting : completing c = some c₀)
    (calls : List SendCall) :
    writeCallback kernel calls c =
      ((calls.foldlM (runCall kernel true) c₀).map fun c =>
        if c.status = .Disconnecting then closeWrite c else c).map checkCloseOnEmpty := by
  obtain ⟨node, hlist, hwriting, hdone, rfl⟩ := completing_spec hcompleting
  unfold writeCallback
  rw [if_pos hwriting, hlist]
  cases node with
  | msg | file | stream => exact if_pos hdone

theorem completing_progress (h : Sending c) {c₀ : Connection}
    (hcompleting : completing c = some c₀) : Progress c [] [] c₀ ∧ c₀.writeBufferList = [] := by
  obtain ⟨node, hlist, -, hdone, rfl⟩ := completing_spec hcompleting
  obtain ⟨hnode, hbuffer⟩ := pending_of_nodeDone h hlist hdone
  have hpop := pop_progress h hlist hnode hbuffer false (by simp)
  exact ⟨hpop.trans (hpop.sending.log .writeCompleteCallback), rfl⟩

end WriteCallback

section Run

variable {kernel : Kernel} {c c' : Connection}

/-- What holds between the operations of a run in which whatever is pending is scheduled. -/
def Served (c : Connection) : Prop := Sending c ∧ Scheduled c

theorem served_completing (h : Sending c) {c₀ : Connection} (hcompleting : completing c = some c₀) :
    Served c₀ := by
  obtain ⟨hprogress, hempty⟩ := completing_progress h hcompleting
  exact ⟨hprogress.sending, fun hne => absurd hempty hne⟩

theorem Served.runCall (hk : OnlyEAGAIN kernel) (call : SendCall) (h : Served c)
    (hafter : AfterCall kernel c call) (hcall : runCall kernel true c call = some c') : Served c' :=
  ⟨sending_runCall hk h.1 call hcall, hafter c' hcall⟩

theorem calls_iff (hk : OnlyEAGAIN kernel) (h : Served c) (calls : List SendCall) :
    AllSteps (runCall kernel true) (AfterCall kernel) c calls ↔
      AllSteps (runCall kernel true) (CallStarts kernel) c calls :=
  allSteps_iff_of_kept Served (fun _ call _ h hafter hcall => h.runCall hk call hafter hcall)
    (fun _ call h => afterCall_iff hk h.1 h.2 call) h calls

theorem staysScheduled_iff (hk : OnlyEAGAIN kernel) (h : Served c) (op : LoopOp) :
    StaysScheduled kernel c op ↔ FilesStart kernel c op := by
  cases op with
  | call call => exact afterCall_iff hk h.1 h.2 call
  | writeCallback calls =>
      constructor
      · rintro ⟨-, hcalls⟩ c₀ hcompleting
        exact (calls_iff hk (served_completing h.1 hcompleting) calls).mp (hcalls c₀ hcompleting)
      · intro hstart
        have hcalls : ∀ c₀, completing c = some c₀ →
            AllSteps (runCall kernel true) (AfterCall kernel) c₀ calls := fun c₀ hcompleting =>
          (calls_iff hk (served_completing h.1 hcompleting) calls).mpr (hstart c₀ hcompleting)
        refine ⟨fun c' hcallback => ?_, hcalls⟩
        cases hcompleting : completing c with
        | none =>
            obtain ⟨c'', hcallback', -, hkept⟩ :=
              writeCallback_of_not_completing hk h.1 hcompleting calls
            obtain rfl := Option.some.inj (hcallback'.symm.trans hcallback)
            exact hkept h.2
        | some c₀ =>
            have hserved : Served c₀ := served_completing h.1 hcompleting
            obtain ⟨c₁, hfold, hprogress⟩ := foldlM_runCall_progress hk calls hserved.1
            have hlast : Served c₁ := (hcalls c₀ hcompleting).invariant Served
              (fun _ call _ h hafter hcall => h.runCall hk call hafter hcall) hserved hfold
            rw [writeCallback_of_completing hcompleting, hfold, Option.map_some, Option.map_some,
              hprogress.sending.connected, if_neg (by decide),
              checkCloseOnEmpty_eq hprogress.sending] at hcallback
            obtain rfl := Option.some.inj hcallback
            exact hlast.2

theorem StaysScheduled.served (hk : OnlyEAGAIN kernel) (h : Served c) {op : LoopOp}
    (hop : StaysScheduled kernel c op) (hstep : step kernel c op = some c') : Served c' := by
  obtain ⟨c'', hstep', hprogress⟩ := step_advances hk h.1 op
  obtain rfl := Option.some.inj (hstep'.symm.trans hstep)
  refine ⟨hprogress.sending, ?_⟩
  cases op with
  | call call => exact hop _ hstep
  | writeCallback calls => exact hop.1 _ hstep

/-- Whatever is pending is scheduled after all operations of a run, if and only if all files that
are sent while nothing is pending start at once. -/
theorem staysScheduled_run_iff (hk : OnlyEAGAIN kernel) (highWaterMarkLen : Option Nat)
    (ops : List LoopOp) :
    AllSteps (step kernel) (StaysScheduled kernel) (established highWaterMarkLen) ops ↔
      AllSteps (step kernel) (FilesStart kernel) (established highWaterMarkLen) ops :=
  allSteps_iff_of_kept Served (fun _ _ _ h hop hstep => hop.served hk h hstep)
    (fun _ op h => staysScheduled_iff hk h op)
    ⟨established_sending highWaterMarkLen, fun hne => absurd rfl hne⟩ ops

def fullKernel : Kernel := fun _ _ => .error .EAGAIN

theorem onlyEAGAIN_fullKernel : OnlyEAGAIN fullKernel := by
  rintro calls len e ⟨⟩
  rfl

theorem staysScheduled_run_iff_fullKernel :
    OnlyEAGAIN fullKernel ∧
    (AllSteps (step fullKernel) (StaysScheduled fullKernel) (established none)
        [.call (.send [1]), .call (.sendFile [2, 3] 0 2), .writeCallback []] ↔
      AllSteps (step fullKernel) (FilesStart fullKernel) (established none)
        [.call (.send [1]), .call (.sendFile [2, 3] 0 2), .writeCallback []]) :=
  ⟨onlyEAGAIN_fullKernel, staysScheduled_run_iff onlyEAGAIN_fullKernel none _⟩

/-- A file of two bytes is sent while the socket buffer is full. -/
theorem not_staysScheduled_fullKernel :
    ¬AllSteps (step fullKernel) (StaysScheduled fullKernel) (established none)
      [.call (.sendFile [2, 3] 0 2)] := by
  rintro ⟨hafter, -⟩
  exact absurd (hafter _ rfl (List.cons_ne_nil _ _)) (by decide)

end Run

end Cooper.WriteInterest

import Cooper.WriteInterest
import Mathlib

namespace Cooper.WriteDrain

open Cooper.MsgBuffer
open Cooper.TcpConnectionImpl
open Cooper.WriteQueue
open Cooper.WriteInterest

/-- From call `n` on, the socket takes something of whatever it is offered. -/
def Accepts (kernel : Kernel) (n : Nat) : Prop :=
  ∀ calls, n ≤ calls → ∀ len, 0 < len →
    ∃ m : Fin (len + 1), kernel calls len = .done m ∧ 0 < m.val

/-- The file still holds what is to be sent of it. -/
def Whole : BufferNode → Prop
  | .file content offset fileBytesToSend => fileBytesToSend ≤ content.length - offset
  | _ => True

instance : DecidablePred Whole
  | .file _ _ _ => inferInstanceAs (Decidable (_ ≤ _))
  | .msg _ | .stream _ _ => isTrue trivial

/-- The write events that a node needs beyond those for its bytes: one pops it, and one finds the
end of a stream. -/
def weight : BufferNode → Nat
  | .msg _ | .file _ _ _ => 1
  | .stream fileBytesToSend _ => if fileBytesToSend = 0 then 1 else 2

/-- A bound on the write events that it takes to send and pop everything. -/
def toDo (c : Connection) : Nat :=
  (pending c).length + (c.writeBufferList.map weight).sum

structure Later (c c' : Connection) : Prop where
  calls : c.socket.calls ≤ c'.socket.calls
  written : c.socket.written.length ≤ c'.socket.written.length

theorem Later.refl (c : Connection) : Later c c := ⟨Nat.le_refl _, Nat.le_refl _⟩

theorem Later.trans {c c' c'' : Connection} (h : Later c c') (h' : Later c' c'') : Later c c'' :=
  ⟨h.calls.trans h'.calls, h.written.trans h'.written⟩

theorem Accepts.mono {kernel : Kernel} {n m : Nat} (h : Accepts kernel n) (hle : n ≤ m) :
    Accepts kernel m := fun calls hcalls => h calls (hle.trans hcalls)

section Write

variable {kernel : Kernel} {c : Connection}

theorem write_later (kernel : Kernel) (socket : Socket) (data : Bytes) :
    socket.calls ≤ (socket.write kernel data).2.calls ∧
      socket.written.length ≤ (socket.write kernel data).2.written.length := by
  unfold Socket.write
  split
  · exact ⟨Nat.le_refl _, Nat.le_refl _⟩
  · split
    · exact ⟨Nat.le_succ _, by simp⟩
    · exact ⟨Nat.le_succ _, Nat.le_refl _⟩

theorem writeInLoop_later (kernel : Kernel) (c : Connection) (data : Bytes) :
    Later c (writeInLoop kernel c data).2 := by
  have hlater := write_later kernel c.socket data
  unfold writeInLoop
  split
  · rename_i hw
    rw [hw] at hlater
    exact ⟨hlater.1, hlater.2⟩
  · rename_i hw
    rw [hw] at hlater
    exact ⟨hlater.1, hlater.2⟩

theorem streamKept_later (kernel : Kernel) : StreamKept kernel Later where
  trans _ _ _ h h' := h.trans h'
  written := writeInLoop_later kernel
  stored _ _ _ := ⟨Nat.le_refl _, Nat.le_refl _⟩

theorem write_accepts {socket : Socket} (haccepts : Accepts kernel socket.calls)
    (hopen : socket.writeClosed = false) {data : Bytes} (hdata : data ≠ []) :
    ∃ n socket', socket.write kernel data = (.ok n, socket') ∧ 0 < n ∧
      socket.written.length < socket'.written.length := by
  obtain ⟨m, hanswer, hpos⟩ :=
    haccepts socket.calls (Nat.le_refl _) data.length (List.length_pos_of_ne_nil hdata)
  have hm := m.isLt
  refine ⟨m, { socket with
    calls := socket.calls + 1
    written := socket.written ++ data.take m }, ?_, hpos, ?_⟩
  · simp only [Socket.write, hopen, Bool.false_eq_true, if_false, hanswer]
  · simp only [List.length_append, List.length_take]
    omega

theorem writeInLoop_accepts (haccepts : Accepts kernel c.socket.calls)
    (hopen : c.socket.writeClosed = false) {data : Bytes} (hdata : data ≠ []) :
    c.socket.written.length < (writeInLoop kernel c data).2.socket.written.length := by
  obtain ⟨n, socket, hw, -, hlonger⟩ := write_accepts haccepts hopen hdata
  rw [writeInLoop, hw]
  exact hlonger

end Write

section Front

variable {kernel : Kernel} {c c' : Connection} {node : BufferNode} {rest : List BufferNode}

structure FrontSent (kernel : Kernel) (c : Connection) (node : BufferNode)
    (rest : List BufferNode) (c' : Connection) : Prop where
  progress : Progress c [] [] c'
  later : Later c c'
  writing : c.writing = true → c'.writing = true
  front : ∃ node', c'.writeBufferList = node' :: rest ∧ (Whole node' ↔ Whole node) ∧
    weight node' ≤ weight node ∧
      (Accepts kernel c.socket.calls → Whole node → ¬nodeDone node →
        c.socket.written.length < c'.socket.written.length ∨ weight node' < weight node)

theorem sent_msg (hk : OnlyEAGAIN kernel) (h : Sending c) {msgBuffer : Bytes}
    (hlist : c.writeBufferList = .msg msgBuffer :: rest) :
    FrontSent kernel c (.msg msgBuffer) rest (writeMsg kernel c msgBuffer rest) := by
  have hsocket : (writeMsg kernel c msgBuffer rest).socket =
      (writeInLoop kernel c msgBuffer).2.socket ∧
      ∃ left, (writeMsg kernel c msgBuffer rest).writeBufferList = .msg left :: rest := by
    rcases writeInLoop_cases hk h.writable msgBuffer with
      ⟨n, -, socket, bytesSent, hw, -, -⟩ | ⟨socket, hw, -, -⟩
    · simp [writeMsg, hw, checkCloseOnEmpty, h.notClosing]
    · simp [writeMsg, hw, checkCloseOnEmpty, h.notClosing, hlist]
  obtain ⟨hsocket, left, hleft⟩ := hsocket
  have hlater := writeInLoop_later kernel c msgBuffer
  refine ⟨writeMsg_progress hk h hlist, ⟨?_, ?_⟩, fun hwriting => ?_, .msg left, hleft, Iff.rfl,
    Nat.le_refl _, fun haccepts _ hdone => .inl ?_⟩
  · rw [hsocket]
    exact hlater.calls
  · rw [hsocket]
    exact hlater.written
  · rw [writeMsg_writing hk h, hwriting]
  · rw [hsocket]
    exact writeInLoop_accepts haccepts h.writable fun hnil => hdone (by rw [hnil]; rfl)

theorem sent_file (hk : OnlyEAGAIN kernel) (h : Sending c) {content : Bytes} {offset toSend : Nat}
    (hlist : c.writeBufferList = .file content offset toSend :: rest) :
    ∃ c', (sendFileInLoop kernel c).map checkCloseOnEmpty = some c' ∧
      FrontSent kernel c (.file content offset toSend) rest c' := by
  obtain ⟨c', hsent, hprogress⟩ := sendFileInLoop_progress hk h hlist rfl
  have hwriting := (sendFileInLoop_writing hk h hlist hsent).2
  refine ⟨c', by rw [hsent, Option.map_some, checkCloseOnEmpty_eq hprogress.sending], hprogress, ?_,
    fun h => hwriting.mpr (.inl h), ?_⟩
  all_goals
    simp only [sendFileInLoop, hlist, Option.some.injEq] at hsent
    subst hsent
    unfold sendfileInLoop Socket.sendfile
  · have hlater := write_later kernel c.socket ((content.drop offset).take toSend)
    split
    · rename_i hw
      rw [hw] at hlater
      split <;> exact ⟨hlater.1, hlater.2⟩
    · rename_i hw
      rw [hw] at hlater
      split <;> exact ⟨hlater.1, hlater.2⟩
  · have hdata : Whole (.file content offset toSend) → ¬nodeDone (.file content offset toSend) →
        (content.drop offset).take toSend ≠ [] := by
      intro hwhole hdone
      refine List.ne_nil_of_length_pos ?_
      simp only [Whole] at hwhole
      have hpos : 0 < toSend := Nat.pos_of_ne_zero hdone
      rw [List.length_take, List.length_drop]
      omega
    have haccepted := fun (haccepts : Accepts kernel c.socket.calls) hwhole hdone =>
      write_accepts haccepts h.writable (hdata hwhole hdone)
    rcases write_cases hk h.writable ((content.drop offset).take toSend) with
      ⟨n, hn, socket, hw, -, -⟩ | ⟨socket, hw, -, -⟩
    · rw [List.length_take, List.length_drop] at hn
      rw [hw] at haccepted ⊢
      by_cases hstall : n < toSend ∧ n = 0
      · refine ⟨.file content offset toSend, by simp only [if_pos hstall], Iff.rfl, Nat.le_refl _,
          fun haccepts hwhole hdone => ?_⟩
        obtain ⟨n', socket', heq, hpos, -⟩ := haccepted haccepts hwhole hdone
        cases heq
        omega
      · refine ⟨.file content (offset + n) (toSend - n), by simp only [if_neg hstall], ?_,
          Nat.le_refl _, fun haccepts hwhole hdone => .inl ?_⟩
        · simp only [Whole]
          omega
        · obtain ⟨n', socket', heq, -, hlonger⟩ := haccepted haccepts hwhole hdone
          cases heq
          simp only [if_neg hstall]
          exact hlonger
    · rw [hw] at haccepted ⊢
      refine ⟨.file content offset toSend, rfl, Iff.rfl, Nat.le_refl _,
        fun haccepts hwhole hdone => ?_⟩
      obtain ⟨n', socket', heq, -, -⟩ := haccepted haccepts hwhole hdone
      cases heq

theorem writeFileBuffer_accepts (haccepts : Accepts kernel c.socket.calls)
    (hopen : c.socket.writeClosed = false) (hbuffer : c.fileBuffer ≠ []) (toSend : Nat) :
    match writeFileBuffer kernel c toSend with
    | .inl c' => c.socket.written.length < c'.socket.written.length
    | .inr (c', _) => c.socket.written.length < c'.socket.written.length := by
  have hlonger := writeInLoop_accepts haccepts hopen hbuffer
  rw [writeFileBuffer]
  rcases hw : writeInLoop kernel c c.fileBuffer with ⟨e | n, c₁⟩
  · rw [hw] at hlonger
    rcases eq_or_ne e .EAGAIN with he | he
    · simp only [he, ne_eq, not_true_eq_false, if_false]
      exact hlonger
    · simp only [he, ne_eq, not_false_eq_true, if_true]
      exact hlonger
  · rw [hw] at hlonger
    rcases Nat.lt_or_ge n c₁.fileBuffer.length with hlt | hge
    · simp only [hlt, if_true]
      exact hlonger
    · simp only [Nat.not_lt.mpr hge, if_false]
      exact hlonger

theorem streamLoop_accepts (haccepts : Accepts kernel c.socket.calls)
    (hopen : c.socket.writeClosed = false) (toSend : Nat) (chunks : List Bytes) :
    c.socket.written.length < (streamLoop kernel toSend chunks c).1.socket.written.length ∨
      ∃ chunks', (streamLoop kernel toSend chunks c).2 = .stream 0 chunks' := by
  cases chunks with
  | nil => exact .inr ⟨[], rfl⟩
  | cons chunk chunks =>
      rw [streamLoop]
      by_cases hchunk : chunk = []
      · rw [if_pos hchunk]
        exact .inr ⟨chunks, rfl⟩
      · rw [if_neg hchunk]
        have hlonger := writeFileBuffer_accepts (c := { c with fileBuffer := chunk }) haccepts
          hopen hchunk toSend
        refine .inl ?_
        rcases hw : writeFileBuffer kernel { c with fileBuffer := chunk } toSend
          with c₁ | ⟨c₁, toSend₁⟩
        · rw [hw] at hlonger
          have hlater := (streamKept_later kernel).streamLoop toSend chunks c₁
          exact Nat.lt_of_lt_of_le hlonger hlater.written
        · rw [hw] at hlonger
          exact hlonger

theorem sendStreamInLoop_accepts
    (haccepts : Accepts kernel c.socket.calls) (hopen : c.socket.writeClosed = false) {toSend : Nat}
    (htoSend : toSend ≠ 0) (chunks : List Bytes) :
    c.socket.written.length < (sendStreamInLoop kernel c toSend chunks).1.socket.written.length ∨
      ∃ chunks', (sendStreamInLoop kernel c toSend chunks).2 = .stream 0 chunks' := by
  unfold sendStreamInLoop
  by_cases hbuffer : c.fileBuffer = []
  · rw [if_pos hbuffer, if_neg htoSend]
    exact streamLoop_accepts haccepts hopen toSend chunks
  · rw [if_neg hbuffer]
    have hlonger := writeFileBuffer_accepts haccepts hopen hbuffer toSend
    refine .inl ?_
    rcases hw : writeFileBuffer kernel c toSend with c₁ | ⟨c₁, toSend₁⟩
    · rw [hw] at hlonger
      simp only [if_neg htoSend]
      have hlater := (streamKept_later kernel).streamLoop toSend chunks c₁
      exact Nat.lt_of_lt_of_le hlonger hlater.written
    · rw [hw] at hlonger
      exact hlonger

theorem sent_stream (hk : OnlyEAGAIN kernel) (h : Sending c) {toSend : Nat} {chunks : List Bytes}
    (hlist : c.writeBufferList = .stream toSend chunks :: rest) :
    ∃ c', (sendFileInLoop kernel c).map checkCloseOnEmpty = some c' ∧
      FrontSent kernel c (.stream toSend chunks) rest c' := by
  obtain ⟨c', hsent, hprogress⟩ := sendFileInLoop_progress hk h hlist rfl
  have hwriting := (sendFileInLoop_writing hk h hlist hsent).2
  have hleft : c.fileBuffer ≠ [] → toSend ≠ 0 := by
    intro hne
    obtain ⟨toSend', _, _, hstream, hpos⟩ := h.leftoverAtFront hne
    simp only [hlist, List.cons.injEq, BufferNode.stream.injEq] at hstream
    rw [hstream.1.1]
    exact hpos
  obtain ⟨socket, bytesSent, fileBuffer, toSend', chunks', hstream, -⟩ :=
    sendStreamInLoop_sent hk h.writable hleft chunks
  have hlater := (streamKept_later kernel).sendStreamInLoop c toSend chunks
  have haccepted := fun (haccepts : Accepts kernel c.socket.calls) (htoSend : toSend ≠ 0) =>
    sendStreamInLoop_accepts haccepts h.writable htoSend chunks
  refine ⟨c', by rw [hsent, Option.map_some, checkCloseOnEmpty_eq hprogress.sending], hprogress, ?_,
    fun h => hwriting.mpr (.inl h), ?_⟩
  all_goals
    simp only [sendFileInLoop, hlist, Option.some.injEq, hstream] at hsent
    subst hsent
    rw [hstream] at hlater haccepted
  · exact ⟨hlater.calls, hlater.written⟩
  · refine ⟨.stream toSend' chunks', rfl, Iff.rfl, ?_, fun haccepts _ hdone => ?_⟩
    · by_cases htoSend : toSend = 0
      · have hbuffer : c.fileBuffer = [] := not_not.mp fun hne => hleft hne htoSend
        simp only [sendStreamInLoop, if_pos hbuffer, if_pos htoSend, Prod.mk.injEq,
          BufferNode.stream.injEq] at hstream
        rw [weight, weight, if_pos hstream.2.1.symm]
        split <;> omega
      · rw [weight, weight, if_neg htoSend]
        split <;> omega
    · rcases haccepted haccepts hdone with hlonger | ⟨chunks'', heq⟩
      · exact .inl hlonger
      · cases heq
        refine .inr ?_
        rw [weight, weight, if_pos rfl, if_neg (show toSend ≠ 0 from hdone)]
        omega

def writeFront (kernel : Kernel) (c : Connection) : BufferNode → List BufferNode → Option Connection
  | .msg msgBuffer, rest => some (writeMsg kernel c msgBuffer rest)
  | .file _ _ _, _ | .stream _ _, _ => (sendFileInLoop kernel c).map checkCloseOnEmpty

theorem sent_front (hk : OnlyEAGAIN kernel) (h : Sending c)
    (hlist : c.writeBufferList = node :: rest) :
    ∃ c', writeFront kernel c node rest = some c' ∧ FrontSent kernel c node rest c' := by
  cases node with
  | msg msgBuffer => exact ⟨_, rfl, sent_msg hk h hlist⟩
  | file content offset toSend => exact sent_file hk h hlist
  | stream toSend chunks => exact sent_stream hk h hlist

theorem length_pending (h : Sending c) (hprogress : Progress c [] [] c') :
    c'.socket.written.length + (pending c').length =
      c.socket.written.length + (pending c).length := by
  have heq := congrArg List.length hprogress.output_eq
  rw [List.append_nil, output, output, ← pending_eq h.leftoverAtFront,
    ← pending_eq hprogress.sending.leftoverAtFront, List.length_append, List.length_append] at heq
  exact heq

theorem FrontSent.toDo_le (hsent : FrontSent kernel c node rest c') (h : Sending c)
    (hlist : c.writeBufferList = node :: rest) : toDo c' ≤ toDo c := by
  obtain ⟨node', hlist', -, hweight, -⟩ := hsent.front
  have hpending := length_pending h hsent.progress
  have hwritten := hsent.later.written
  simp only [toDo, hlist, hlist', List.map_cons, List.sum_cons]
  omega

theorem FrontSent.toDo_lt (hsent : FrontSent kernel c node rest c') (h : Sending c)
    (hlist : c.writeBufferList = node :: rest) (haccepts : Accepts kernel c.socket.calls)
    (hwhole : Whole node) (hdone : ¬nodeDone node) : toDo c' < toDo c := by
  obtain ⟨node', hlist', -, hweight, hstrict⟩ := hsent.front
  have hpending := length_pending h hsent.progress
  have hwritten := hsent.later.written
  simp only [toDo, hlist, hlist', List.map_cons, List.sum_cons]
  rcases hstrict haccepts hwhole hdone with hlonger | hlighter <;> omega

theorem FrontSent.whole_iff (hsent : FrontSent kernel c node rest c') :
    (∀ node' ∈ c'.writeBufferList, Whole node') ↔ ∀ node' ∈ node :: rest, Whole node' := by
  obtain ⟨node', hlist', hwhole, -⟩ := hsent.front
  rw [hlist', List.forall_mem_cons, List.forall_mem_cons, hwhole]

end Front

section WriteCallback

variable {kernel : Kernel} {c c' : Connection} {node next : BufferNode} {rest : List BufferNode}

theorem whole_of_done (hdone : nodeDone node) : Whole node := by
  cases node with
  | file content offset toSend =>
      rw [Whole, show toSend = 0 from hdone]
      exact Nat.zero_le _
  | msg | stream => trivial

theorem weight_pos (node : BufferNode) : 0 < weight node := by
  cases node with
  | msg | file => exact Nat.one_pos
  | stream toSend chunks =>
      rw [weight]
      split <;> omega

theorem writeCallback_of_not_done (hwriting : c.writing = true)
    (hlist : c.writeBufferList = node :: rest) (hdone : ¬nodeDone node) (calls : List SendCall) :
    writeCallback kernel calls c = writeFront kernel c node rest := by
  rw [writeCallback, if_pos hwriting, hlist]
  cases node with
  | msg | file | stream => exact if_neg hdone

theorem writeCallback_of_done (h : Sending c) (hwriting : c.writing = true)
    (hlist : c.writeBufferList = node :: next :: rest) (hdone : nodeDone node)
    (calls : List SendCall) :
    writeCallback kernel calls c =
      writeFront kernel { c with writeBufferList := next :: rest } next rest := by
  have halt := h.alternating
  rw [hlist] at halt
  have hpair := (List.isChain_cons_cons.mp halt).1
  rw [writeCallback, if_pos hwriting, hlist]
  cases node with
  | msg | file | stream =>
      refine (if_pos hdone).trans ?_
      cases next <;> simp_all [writeNext, writeFront, BufferNode.isFile]

/-- What a write event comes to: the end of the list, or something less to do. -/
theorem writeCallback_spec (hk : OnlyEAGAIN kernel) (h : Sending c) (hwriting : c.writing = true) :
    ∃ c', writeCallback kernel [] c = some c' ∧ Progress c [] [] c' ∧ Later c c' ∧
      (c'.writeBufferList = [] ∧ c'.writing = false ∧ (∀ node ∈ c.writeBufferList, Whole node) ∨
        c'.writing = true ∧
          ((∀ node ∈ c'.writeBufferList, Whole node) ↔ ∀ node ∈ c.writeBufferList, Whole node) ∧
          (Accepts kernel c.socket.calls → (∀ node ∈ c.writeBufferList, Whole node) →
            toDo c' < toDo c)) := by
  obtain ⟨node, rest, hlist⟩ := List.exists_cons_of_ne_nil (h.nonempty hwriting)
  by_cases hdone : nodeDone node
  · cases rest with
    | nil =>
        have hcompleting := completing_of_single hlist hwriting hdone
        obtain ⟨hprogress, hempty⟩ := completing_progress h hcompleting
        refine ⟨_, ?_, hprogress, ⟨Nat.le_refl _, Nat.le_refl _⟩, .inl ⟨hempty, rfl, ?_⟩⟩
        · rw [writeCallback_of_completing hcompleting, List.foldlM_nil]
          simp only [Option.pure_def, Option.map_some, hprogress.sending.connected]
          rw [if_neg (by decide), checkCloseOnEmpty_eq hprogress.sending]
        · rw [hlist]
          exact fun node' hmem => (List.mem_singleton.mp hmem) ▸ whole_of_done hdone
    | cons next rest =>
        obtain ⟨hnode, hbuffer⟩ := pending_of_nodeDone h hlist hdone
        have hpop := pop_progress h hlist hnode hbuffer c.writing fun _ => List.cons_ne_nil _ _
        obtain ⟨c', hwrite, hsent⟩ := sent_front hk hpop.sending (show _ = next :: rest from rfl)
        refine ⟨c', ?_, by simpa using hpop.trans hsent.progress,
          ⟨hsent.later.calls, hsent.later.written⟩, .inr ⟨hsent.writing hwriting, ?_, ?_⟩⟩
        · rw [writeCallback_of_done h hwriting hlist hdone]
          exact hwrite
        · rw [hsent.whole_iff, hlist, List.forall_mem_cons (a := node)]
          exact (and_iff_right (whole_of_done hdone)).symm
        · intro _ _
          have hle := hsent.toDo_le hpop.sending rfl
          have hpending := length_pending h hpop
          have hpos := weight_pos node
          refine Nat.lt_of_le_of_lt hle ?_
          simp only [toDo, hlist, List.map_cons, List.sum_cons] at hpending ⊢
          omega
  · obtain ⟨c', hwrite, hsent⟩ := sent_front hk h hlist
    refine ⟨c', ?_, hsent.progress, hsent.later, .inr ⟨hsent.writing hwriting, ?_, ?_⟩⟩
    · rw [writeCallback_of_not_done hwriting hlist hdone]
      exact hwrite
    · rw [hsent.whole_iff, hlist]
    · intro haccepts hwhole
      rw [hlist] at hwhole
      exact hsent.toDo_lt h hlist haccepts (List.forall_mem_cons.mp hwhole).1 hdone

end WriteCallback

section Run

variable {kernel : Kernel} {c c' : Connection}

abbrev writeEvents (n : Nat) : List LoopOp := List.replicate n (.writeCallback [])

theorem run_writeEvents_succ (n : Nat) :
    run kernel c (writeEvents (n + 1)) =
      (writeCallback kernel [] c).bind fun c' => run kernel c' (writeEvents n) := by
  rw [run, writeEvents, List.replicate_succ, List.foldlM_cons]
  rfl

theorem toDo_le (c : Connection) :
    toDo c ≤ (pending c).length + 2 * c.writeBufferList.length := by
  have hweight : ∀ list : List BufferNode, (list.map weight).sum ≤ 2 * list.length := by
    intro list
    induction list with
    | nil => exact Nat.le_refl _
    | cons node list ih =>
        have hnode : weight node ≤ 2 := by
          cases node with
          | msg | file => exact Nat.le_succ 1
          | stream toSend chunks =>
              rw [weight]
              split <;> omega
        simp only [List.map_cons, List.sum_cons, List.length_cons]
        omega
  exact Nat.add_le_add_left (hweight _) _

theorem run_drains (hk : OnlyEAGAIN kernel) (h : Sending c) (hscheduled : Scheduled c)
    (haccepts : Accepts kernel c.socket.calls) (hwhole : ∀ node ∈ c.writeBufferList, Whole node) :
    ∃ n ≤ toDo c, ∃ c', run kernel c (writeEvents n) = some c' ∧ Progress c [] [] c' ∧
      c'.writeBufferList = [] := by
  induction hn : toDo c using Nat.strong_induction_on generalizing c with
  | _ k ih =>
      subst hn
      by_cases hempty : c.writeBufferList = []
      · exact ⟨0, Nat.zero_le _, c, rfl, .refl h, hempty⟩
      · obtain ⟨c₁, hwrite, hprogress, hlater, hend | ⟨hwriting, hiff, hless⟩⟩ :=
          writeCallback_spec hk h (hscheduled hempty)
        · refine ⟨1, ?_, c₁, ?_, hprogress, hend.1⟩
          · obtain ⟨node, rest, hlist⟩ := List.exists_cons_of_ne_nil hempty
            have hpos := weight_pos node
            simp only [toDo, hlist, List.map_cons, List.sum_cons]
            omega
          · rw [run_writeEvents_succ, hwrite]
            rfl
        · have hless := hless haccepts hwhole
          obtain ⟨n, hn, c', hrun, hprogress', hempty'⟩ := ih (toDo c₁) hless hprogress.sending
            (fun _ => hwriting) (haccepts.mono hlater.calls) (hiff.mpr hwhole) rfl
          refine ⟨n + 1, by omega, c', ?_, by simpa using hprogress.trans hprogress', hempty'⟩
          rw [run_writeEvents_succ, hwrite]
          exact hrun

structure Stuck (c : Connection) : Prop where
  sending : Sending c
  nonempty : c.writeBufferList ≠ []
  stuck : c.writing = true → ¬∀ node ∈ c.writeBufferList, Whole node

theorem Stuck.writeCallback (hk : OnlyEAGAIN kernel) (h : Stuck c)
    (hwrite : writeCallback kernel [] c = some c') : Stuck c' := by
  by_cases hwriting : c.writing = true
  · obtain ⟨c₁, hwrite₁, hprogress, -, hend | ⟨-, hiff, -⟩⟩ :=
      writeCallback_spec hk h.sending hwriting
    · exact absurd hend.2.2 (h.stuck hwriting)
    · obtain rfl := Option.some.inj (hwrite₁.symm.trans hwrite)
      have hshort := (not_congr hiff).mpr (h.stuck hwriting)
      refine ⟨hprogress.sending, fun hempty => hshort ?_, fun _ => hshort⟩
      rw [hempty]
      exact fun node hmem => absurd hmem List.not_mem_nil
  · rw [TcpConnectionImpl.writeCallback, if_neg hwriting] at hwrite
    obtain rfl := Option.some.inj hwrite
    exact h

theorem Stuck.run (hk : OnlyEAGAIN kernel) (h : Stuck c) {n : Nat}
    (hrun : run kernel c (writeEvents n) = some c') : c'.writeBufferList ≠ [] := by
  induction n generalizing c with
  | zero =>
      obtain rfl := Option.some.inj hrun
      exact h.nonempty
  | succ n ih =>
      rw [run_writeEvents_succ] at hrun
      obtain ⟨c₁, hwrite, hrest⟩ := Option.bind_eq_some_iff.mp hrun
      exact ih (h.writeCallback hk hwrite) hrest

/-- Once the socket takes something of whatever it is offered, write events send and pop all that is
pending if write events are enabled for it and each file is as long as was said; there are no more
of them than bytes and twice the nodes. In any other case the list never becomes empty. -/
theorem run_drained (hk : OnlyEAGAIN kernel) (highWaterMarkLen : Option Nat) (ops : List LoopOp)
    (hrun : run kernel (established highWaterMarkLen) ops = some c)
    (haccepts : Accepts kernel c.socket.calls) :
    (Scheduled c ∧ (∀ node ∈ c.writeBufferList, Whole node) →
        ∃ n ≤ (pending c).length + 2 * c.writeBufferList.length,
          ∃ c', run kernel c (writeEvents n) = some c' ∧ c'.writeBufferList = [] ∧
            c'.writing = false ∧ c'.socket.written = accepted c) ∧
      (¬(Scheduled c ∧ ∀ node ∈ c.writeBufferList, Whole node) →
        ∀ n c', run kernel c (writeEvents n) = some c' → c'.writeBufferList ≠ []) := by
  have hadvances := run_advances hk (established_sending highWaterMarkLen) ops
  rw [hrun] at hadvances
  obtain ⟨c₁, heq, hprogress⟩ := hadvances
  obtain rfl := Option.some.inj heq
  have hbooks := hprogress.books
  constructor
  · rintro ⟨hscheduled, hwhole⟩
    obtain ⟨n, hn, c', hevents, hdrain, hempty⟩ :=
      run_drains hk hprogress.sending hscheduled haccepts hwhole
    refine ⟨n, hn.trans (toDo_le c), c', hevents, hempty, ?_, ?_⟩
    · exact Bool.eq_false_iff.mpr fun h => hdrain.sending.nonempty h hempty
    · have hend : pending c' = [] := by simp [pending, leftover, hempty]
      have hout := hdrain.output_eq
      rw [List.append_nil, output, output, ← pending_eq hdrain.sending.leftoverAtFront,
        ← pending_eq hprogress.sending.leftoverAtFront, hend, List.append_nil] at hout
      rw [hout]
      exact hbooks
  · intro hnot n c' hevents
    by_cases hempty : c.writeBufferList = []
    · refine absurd ⟨fun hne => absurd hempty hne, ?_⟩ hnot
      rw [hempty]
      exact fun node hmem => absurd hmem List.not_mem_nil
    · refine Stuck.run hk ⟨hprogress.sending, hempty, fun hwriting hwhole => ?_⟩ hevents
      exact hnot ⟨fun _ => hwriting, hwhole⟩

def slowKernel : Kernel := fun calls len =>
  if calls < 2 then .error .EAGAIN else .done ⟨len - (len - 1), by omega⟩

theorem onlyEAGAIN_slowKernel : OnlyEAGAIN slowKernel := by
  intro calls len e he
  unfold slowKernel at he
  split at he <;> simp_all

theorem accepts_slowKernel : Accepts slowKernel 2 := by
  intro calls hcalls len hlen
  refine ⟨⟨len - (len - 1), by omega⟩, if_neg (Nat.not_lt.mpr hcalls), ?_⟩
  simp only
  omega

/-- The second file has lost its last byte. -/
theorem run_drained_slowKernel :
    (∃ c, run slowKernel (established none) [.call (.send [1]), .writeCallback [],
        .call (.sendFile [2, 3, 4] 1 2)] = some c ∧
      ∃ n ≤ 7, ∃ c', run slowKernel c (writeEvents n) = some c' ∧ c'.writeBufferList = [] ∧
        c'.writing = false ∧ c'.socket.written = [1, 3, 4]) ∧
    ∃ c, run slowKernel (established none) [.call (.send [1]), .writeCallback [],
        .call (.sendFile [2, 3] 1 2)] = some c ∧
      ∀ n c', run slowKernel c (writeEvents n) = some c' → c'.writeBufferList ≠ [] := by
  constructor
  · refine ⟨_, rfl, ?_⟩
    exact (run_drained onlyEAGAIN_slowKernel none [.call (.send [1]), .writeCallback [],
      .call (.sendFile [2, 3, 4] 1 2)] rfl accepts_slowKernel).1 ⟨fun _ => rfl, by decide⟩
  · refine ⟨_, rfl, ?_⟩
    refine (run_drained onlyEAGAIN_slowKernel none [.call (.send [1]), .writeCallback [],
      .call (.sendFile [2, 3] 1 2)] rfl accepts_slowKernel).2 ?_
    rintro ⟨-, hwhole⟩
    have hshort := hwhole (.file [2, 3] 1 2) (by decide)
    exact absurd hshort (by decide)

end Run

end Cooper.WriteDrain

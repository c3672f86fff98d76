import Cooper.QueueFrame

/-!
Calls from several threads on one connection. A call is atomic under `sendNumMutex_`; the functors
that the loop thread runs are not, and calls of other threads come between their steps.
-/

namespace Cooper.SendOrder

open Cooper.MsgBuffer
open Cooper.QueueFrame
open Cooper.TcpConnectionImpl
open Cooper.WriteInterest
open Cooper.WriteQueue

/-- What the loop thread is doing with the connection. -/
inductive LoopState
  | idle
  | sent
  | pushed
  | counted
  | completing
  deriving DecidableEq

/-- A callback of the user runs, or may run, on the loop thread. -/
def LoopState.inCallback (loop : LoopState) : Bool := loop ∉ [pushed, counted]

/-- `taken` are the calls as they took `sendNumMutex_`, and `entered` those whose payloads have been
handed to `write()` or put into `writeBufferList_`. -/
structure System where
  conn : Connection
  loop : LoopState
  taken : List SendCall
  entered : List SendCall

inductive Action
  | call (inLoopThread : Bool) (call : SendCall)
  | dequeue
  | writeCallback
  | resume
  deriving DecidableEq

def beginFunctor (kernel : Kernel) (c : Connection) : SendCall → Connection × LoopState
  | .send msg => (sendInLoop kernel c msg, .sent)
  | .sendFile content offset length =>
      ({ c with writeBufferList := c.writeBufferList ++ [.file content offset length] }, .pushed)
  | .sendStream chunks =>
      ({ c with writeBufferList := c.writeBufferList ++ [.stream 1 chunks] }, .pushed)

/-- An action that the loop thread is not ready for changes nothing. -/
def act (kernel : Kernel) (s : System) : Action → Option System
  | .call inLoopThread call =>
      if inLoopThread && !s.loop.inCallback then some s
      else
        (runCall kernel inLoopThread s.conn call).map fun conn => { s with
          conn
          taken := s.taken ++ [call]
          entered := if inLoopThread ∧ s.conn.sendNum = 0 then s.entered ++ [call] else s.entered }
  | .dequeue =>
      match s.loop, s.conn.funcs with
      | .idle, call :: rest =>
          let (conn, loop) := beginFunctor kernel { s.conn with funcs := rest } call
          some { s with conn, loop, entered := s.entered ++ [call] }
      | _, _ => some s
  | .writeCallback =>
      if s.loop = .idle then
        match completing s.conn with
        | some conn => some { s with conn, loop := .completing }
        | none => (writeCallback kernel [] s.conn).map fun conn => { s with conn }
      else some s
  | .resume =>
      match s.loop with
      | .idle => some s
      | .sent => some { s with conn.sendNum := s.conn.sendNum - 1, loop := .idle }
      | .pushed => some { s with conn.sendNum := s.conn.sendNum - 1, loop := .counted }
      | .counted =>
          (if s.conn.writeBufferList.length = 1 then sendFileInLoop kernel s.conn
            else some s.conn).map fun conn => { s with conn, loop := .idle }
      | .completing =>
          let conn := if s.conn.status = .Disconnecting then closeWrite s.conn else s.conn
          some { s with conn := checkCloseOnEmpty conn, loop := .idle }

def runActions (kernel : Kernel) (s : System) (actions : List Action) : Option System :=
  actions.foldlM (act kernel) s

def opened (highWaterMarkLen : Option Nat) : System where
  conn := established highWaterMarkLen
  loop := .idle
  taken := []
  entered := []

theorem runActions_functor (kernel : Kernel) {s : System} {call : SendCall}
    {rest : List SendCall} (hidle : s.loop = .idle) (hfuncs : s.conn.funcs = call :: rest) :
    (runActions kernel s [.dequeue, .resume, .resume]).map System.conn =
      runFunctor kernel { s.conn with funcs := rest } call := by
  cases call with
  | send msg => simp [runActions, act, hidle, hfuncs, beginFunctor, runFunctor]
  | sendFile | sendStream =>
      simp [runActions, act, hidle, hfuncs, beginFunctor, runFunctor, pushFile,
        Function.comp_def]

section Queue

variable {kernel : Kernel} {c c' : Connection}

theorem sendNum_of_frame (h : c' = withQueue c.sendNum c.funcs c') :
    c'.sendNum = c.sendNum ∧ c'.funcs = c.funcs := by
  rw [h]
  exact ⟨rfl, rfl⟩

theorem sendNum_of_map_frame {result : Option Connection}
    (h : result = result.map (withQueue c.sendNum c.funcs)) (hresult : result = some c') :
    c'.sendNum = c.sendNum ∧ c'.funcs = c.funcs := by
  rw [hresult, Option.map_some] at h
  exact sendNum_of_frame (Option.some.inj h)

theorem runCall_of_queued {inLoopThread : Bool} (hqueued : ¬(inLoopThread = true ∧ c.sendNum = 0))
    (call : SendCall) :
    runCall kernel inLoopThread c call =
      some { log c (.call call) with
        sendNum := c.sendNum + 1
        funcs := c.funcs ++ [call] } := by
  cases call with
  | send msg => exact congrArg some (if_neg hqueued)
  | sendFile | sendStream => exact if_neg hqueued

theorem runCall_withQueue (c : Connection) (fs : List SendCall) (call : SendCall) :
    runCall kernel true (withQueue 0 fs c) call =
      (runCall kernel true (withQueue 0 [] c) call).map (withQueue 0 fs) := by
  cases call with
  | send msg =>
      exact congrArg some (sendInLoop_withQueue kernel 0 fs
        (withQueue 0 [] (log c (.call (.send msg)))) msg)
  | sendFile content offset length =>
      exact pushFile_withQueue kernel 0 fs
        (withQueue 0 [] (log c (.call (.sendFile content offset length)))) _
  | sendStream chunks =>
      exact pushFile_withQueue kernel 0 fs
        (withQueue 0 [] (log c (.call (.sendStream chunks)))) _

theorem runCall_of_direct (hdirect : c.sendNum = 0) (call : SendCall) :
    runCall kernel true c call =
      (runCall kernel true (withQueue 0 [] c) call).map (withQueue 0 c.funcs) := by
  rw [← runCall_withQueue]
  congr
  rw [withQueue, ← hdirect]

/-- `sendNum_` counts the functors that wait, and the one that runs until it has decremented it. -/
structure Ordered (s : System) : Prop where
  sendNum : s.conn.sendNum =
    s.conn.funcs.length + if s.loop = .sent ∨ s.loop = .pushed then 1 else 0
  order : s.entered ++ s.conn.funcs = s.taken

theorem ordered_opened (highWaterMarkLen : Option Nat) : Ordered (opened highWaterMarkLen) :=
  ⟨rfl, rfl⟩

variable {s s' : System}

theorem Ordered.call (h : Ordered s) {inLoopThread : Bool} {call : SendCall}
    (hact : act kernel s (.call inLoopThread call) = some s') : Ordered s' := by
  have hcount := h.sendNum
  simp only [act] at hact
  split at hact
  · obtain rfl := Option.some.inj hact
    exact h
  · obtain ⟨conn, hcall, rfl⟩ := Option.map_eq_some_iff.mp hact
    by_cases hdirect : inLoopThread = true ∧ s.conn.sendNum = 0
    · have hfuncs : s.conn.funcs = [] := List.length_eq_zero_iff.mp (by omega)
      rw [hdirect.1, runCall_of_direct hdirect.2] at hcall
      obtain ⟨conn, -, rfl⟩ := Option.map_eq_some_iff.mp hcall
      constructor
      · exact hdirect.2.symm.trans hcount
      · have horder := h.order
        rw [hfuncs, List.append_nil] at horder
        simp only [withQueue, hfuncs, if_pos hdirect, List.append_nil, horder]
    · rw [runCall_of_queued hdirect] at hcall
      obtain rfl := Option.some.inj hcall
      constructor
      · simp only [List.length_append, List.length_singleton, hcount]
        omega
      · simp only [if_neg hdirect, ← h.order, List.append_assoc]

theorem beginFunctor_sendNum (kernel : Kernel) (c : Connection) (call : SendCall) :
    (beginFunctor kernel c call).1.sendNum = c.sendNum ∧
      (beginFunctor kernel c call).1.funcs = c.funcs ∧
      ((beginFunctor kernel c call).2 = .sent ∨ (beginFunctor kernel c call).2 = .pushed) := by
  cases call with
  | send msg =>
      obtain ⟨hsendNum, hfuncs⟩ :=
        sendNum_of_frame (c := c) (sendInLoop_withQueue kernel c.sendNum c.funcs c msg)
      exact ⟨hsendNum, hfuncs, .inl rfl⟩
  | sendFile | sendStream => exact ⟨rfl, rfl, .inr rfl⟩

theorem Ordered.dequeue (h : Ordered s) (hact : act kernel s .dequeue = some s') :
    Ordered s' := by
  simp only [act] at hact
  split at hact
  · rename_i call rest hidle hfuncs
    obtain rfl := Option.some.inj hact
    obtain ⟨hsendNum, hrest, hloop⟩ :=
      beginFunctor_sendNum kernel { s.conn with funcs := rest } call
    have hcount := h.sendNum
    have horder := h.order
    rw [hidle, hfuncs, if_neg (by decide), List.length_cons] at hcount
    rw [hfuncs] at horder
    constructor
    · refine hsendNum.trans (hcount.trans ?_)
      exact (congrArg₂ (· + ·) (congrArg List.length hrest) (if_pos hloop)).symm
    · refine Eq.trans ?_ horder
      exact (congrArg (s.entered ++ [call] ++ ·) hrest).trans (List.append_assoc ..)
  · obtain rfl := Option.some.inj hact
    exact h

theorem Ordered.sends (h : Ordered s) {loop : LoopState}
    (hloop : (loop = .sent ∨ loop = .pushed) ↔ (s.loop = .sent ∨ s.loop = .pushed))
    (hsame : c'.sendNum = s.conn.sendNum ∧ c'.funcs = s.conn.funcs) :
    Ordered { s with conn := c', loop } := by
  constructor
  · simp only [hsame, hloop]
    exact h.sendNum
  · simp only [hsame]
    exact h.order

theorem Ordered.writeCallback (h : Ordered s) (hact : act kernel s .writeCallback = some s') :
    Ordered s' := by
  simp only [act] at hact
  split at hact
  · rename_i hidle
    split at hact
    · rename_i conn hcompleting
      obtain rfl := Option.some.inj hact
      exact h.sends (by simp [hidle]) (sendNum_of_map_frame
        (completing_withQueue s.conn.sendNum s.conn.funcs s.conn) hcompleting)
    · obtain ⟨conn, hcallback, rfl⟩ := Option.map_eq_some_iff.mp hact
      exact h.sends Iff.rfl (sendNum_of_map_frame
        (writeCallback_withQueue kernel s.conn.sendNum s.conn.funcs s.conn) hcallback)
  · obtain rfl := Option.some.inj hact
    exact h

theorem Ordered.resume (h : Ordered s) (hact : act kernel s .resume = some s') : Ordered s' := by
  have hcount := h.sendNum
  simp only [act] at hact
  split at hact
  · obtain rfl := Option.some.inj hact
    exact h
  · rename_i hloop
    obtain rfl := Option.some.inj hact
    rw [hloop, if_pos (.inl rfl)] at hcount
    exact ⟨by simp [hcount], h.order⟩
  · rename_i hloop
    obtain rfl := Option.some.inj hact
    rw [hloop, if_pos (.inr rfl)] at hcount
    exact ⟨by simp [hcount], h.order⟩
  · rename_i hloop
    obtain ⟨conn, hsent, rfl⟩ := Option.map_eq_some_iff.mp hact
    refine h.sends (by simp [hloop]) (sendNum_of_map_frame ?_ hsent)
    exact ite_frame (Option.map _) Iff.rfl (sendFileInLoop_withQueue ..) rfl
  · rename_i hloop
    obtain rfl := Option.some.inj hact
    refine h.sends (by simp [hloop]) (sendNum_of_frame ?_)
    refine Eq.trans ?_ (checkCloseOnEmpty_withQueue ..)
    exact congrArg checkCloseOnEmpty (ite_frame (withQueue _ _) Iff.rfl rfl rfl)

theorem Ordered.act (h : Ordered s) (action : Action) (hact : act kernel s action = some s') :
    Ordered s' := by
  cases action with
  | call => exact h.call hact
  | dequeue => exact h.dequeue hact
  | writeCallback => exact h.writeCallback hact
  | resume => exact h.resume hact

end Queue

section Output

variable {kernel : Kernel} {s : System}

/-- What is on the socket and what is pending are together the payloads that have entered, and the
payloads of all calls have been accepted. -/
structure Booked (s : System) : Prop where
  sending : Sending (withQueue 0 [] s.conn)
  output_eq : output s.conn = (s.entered.map payload).flatten
  accepted_eq : accepted s.conn = (s.taken.map payload).flatten
  pushed : s.loop = .pushed ∨ s.loop = .counted →
    ∃ list node, s.conn.writeBufferList = list ++ [node] ∧ node.isFile

theorem sending_withQueue {c : Connection} (h : Sending c) (fs : List SendCall) :
    Sending (withQueue 0 fs c) := ⟨h.1, h.2, h.3, rfl, h.5, h.6, h.7⟩

theorem flatten_payload_concat (entered : List SendCall) (call : SendCall) :
    ((entered ++ [call]).map payload).flatten = (entered.map payload).flatten ++ payload call := by
  simp

theorem Booked.of_progress (h : Booked s) {c : Connection} {out acc : Bytes}
    (hprogress : Progress (withQueue 0 [] s.conn) out acc c) (n : Nat) (fs : List SendCall)
    {loop : LoopState} {taken entered : List SendCall}
    (htaken : (taken.map payload).flatten = (s.taken.map payload).flatten ++ acc)
    (hentered : (entered.map payload).flatten = (s.entered.map payload).flatten ++ out)
    (hpushed : loop = .pushed ∨ loop = .counted →
      ∃ list node, c.writeBufferList = list ++ [node] ∧ node.isFile) :
    Booked { conn := withQueue n fs c, loop, taken, entered } where
  sending := sending_withQueue hprogress.sending []
  output_eq := by
    rw [hentered, ← h.output_eq]
    exact hprogress.output_eq
  accepted_eq := by
    rw [htaken, ← h.accepted_eq]
    exact hprogress.accepted_eq
  pushed := hpushed

theorem Booked.of_still (h : Booked s) {c : Connection}
    (hprogress : Progress (withQueue 0 [] s.conn) [] [] c) (n : Nat) (fs : List SendCall)
    {loop : LoopState} (hpushed : loop = .pushed ∨ loop = .counted →
      ∃ list node, c.writeBufferList = list ++ [node] ∧ node.isFile) :
    Booked { s with conn := withQueue n fs c, loop } :=
  h.of_progress hprogress n fs (List.append_nil _).symm (List.append_nil _).symm hpushed

theorem booked_opened (highWaterMarkLen : Option Nat) : Booked (opened highWaterMarkLen) where
  sending := established_sending highWaterMarkLen
  output_eq := rfl
  accepted_eq := rfl
  pushed := by simp [opened]

theorem Booked.call (hk : OnlyEAGAIN kernel) (h : Booked s) (inLoopThread : Bool)
    (call : SendCall) : ∃ s', act kernel s (.call inLoopThread call) = some s' ∧ Booked s' := by
  by_cases hready : inLoopThread && !s.loop.inCallback
  · exact ⟨s, if_pos hready, h⟩
  · by_cases hdirect : inLoopThread = true ∧ s.conn.sendNum = 0
    · obtain ⟨c, hcall, hprogress⟩ := runCall_progress hk h.sending call
      have hresult : runCall kernel inLoopThread s.conn call =
          some (withQueue 0 s.conn.funcs c) := by
        rw [hdirect.1, runCall_of_direct hdirect.2, hcall, Option.map_some]
      refine ⟨_, (if_neg hready).trans (congrArg _ hresult), ?_⟩
      refine h.of_progress hprogress 0 s.conn.funcs (flatten_payload_concat ..) ?_ ?_
      · rw [if_pos hdirect, flatten_payload_concat]
      · intro hloop
        rw [hdirect.1] at hready
        rcases hloop with hloop | hloop <;> simp [hloop, LoopState.inCallback] at hready
    · refine ⟨_, (if_neg hready).trans (congrArg _ (runCall_of_queued hdirect call)), ?_⟩
      refine h.of_progress (h.sending.log (.call call)) (s.conn.sendNum + 1)
        (s.conn.funcs ++ [call]) (flatten_payload_concat ..) ?_ h.pushed
      rw [if_neg hdirect, List.append_nil]

theorem Booked.dequeue (hk : OnlyEAGAIN kernel) (h : Booked s) :
    ∃ s', act kernel s .dequeue = some s' ∧ Booked s' := by
  unfold act
  simp only
  split
  · rename_i call rest hidle hfuncs
    refine ⟨_, rfl, ?_⟩
    cases call with
    | send msg =>
        have hsent : sendInLoop kernel { s.conn with funcs := rest } msg =
            withQueue s.conn.sendNum rest (sendInLoop kernel (withQueue 0 [] s.conn) msg) :=
          sendInLoop_withQueue kernel s.conn.sendNum rest (withQueue 0 [] s.conn) msg
        simp only [beginFunctor, hsent]
        exact h.of_progress (sendInLoop_progress hk h.sending msg) s.conn.sendNum rest
          (List.append_nil _).symm (flatten_payload_concat ..) (by simp)
    | sendFile content offset length =>
        have hfile : (BufferNode.file content offset length).isFile := rfl
        exact h.of_progress (push_progress h.sending hfile) s.conn.sendNum rest
          (List.append_nil _).symm (flatten_payload_concat ..) fun _ => ⟨_, _, rfl, hfile⟩
    | sendStream chunks =>
        have hfile : (BufferNode.stream 1 chunks).isFile := rfl
        exact h.of_progress (push_progress h.sending hfile) s.conn.sendNum rest
          (List.append_nil _).symm (flatten_payload_concat ..) fun _ => ⟨_, _, rfl, hfile⟩
  · exact ⟨s, rfl, h⟩

theorem Booked.writeCallback (hk : OnlyEAGAIN kernel) (h : Booked s) :
    ∃ s', act kernel s .writeCallback = some s' ∧ Booked s' := by
  by_cases hidle : s.loop = .idle
  · have hframe := completing_withQueue 0 [] s.conn
    cases hcompleting : completing s.conn with
    | some c =>
        rw [hcompleting, Option.map_some] at hframe
        obtain ⟨hprogress, -⟩ := completing_progress h.sending hframe
        refine ⟨{ s with conn := c, loop := .completing }, ?_, ?_⟩
        · simp only [act, if_pos hidle, hcompleting]
        · exact h.of_still hprogress c.sendNum c.funcs (by simp)
    | none =>
        rw [hcompleting, Option.map_none] at hframe
        obtain ⟨c, hcallback, hprogress, -⟩ := writeCallback_of_not_completing hk h.sending hframe []
        have hresult := writeCallback_withQueue kernel s.conn.sendNum s.conn.funcs
          (withQueue 0 [] s.conn)
        rw [hcallback, Option.map_some] at hresult
        refine ⟨{ s with conn := withQueue s.conn.sendNum s.conn.funcs c }, ?_, ?_⟩
        · simp only [act, if_pos hidle, hcompleting]
          exact congrArg _ hresult
        · exact h.of_still hprogress s.conn.sendNum s.conn.funcs (by simp [hidle])
  · exact ⟨s, if_neg hidle, h⟩

theorem Booked.resume (hk : OnlyEAGAIN kernel) (h : Booked s) :
    ∃ s', act kernel s .resume = some s' ∧ Booked s' := by
  have hstay := Progress.refl h.sending
  cases hloop : s.loop with
  | idle => exact ⟨s, by rw [act, hloop], h⟩
  | sent =>
      refine ⟨_, by rw [act, hloop], ?_⟩
      exact h.of_still hstay (s.conn.sendNum - 1) s.conn.funcs (by simp)
  | pushed =>
      refine ⟨_, by rw [act, hloop], ?_⟩
      exact h.of_still hstay (s.conn.sendNum - 1) s.conn.funcs fun _ => h.pushed (.inl hloop)
  | counted =>
      obtain ⟨list, node, hlist, hnode⟩ := h.pushed (.inr hloop)
      by_cases hone : s.conn.writeBufferList.length = 1
      · have hsingle : list = [] := by
          rw [hlist, List.length_append, List.length_singleton] at hone
          exact List.length_eq_zero_iff.mp (by omega)
        rw [hsingle, List.nil_append] at hlist
        obtain ⟨c, hsent, hprogress⟩ := sendFileInLoop_progress hk h.sending hlist hnode
        have hresult := sendFileInLoop_withQueue kernel s.conn.sendNum s.conn.funcs
          (withQueue 0 [] s.conn)
        rw [hsent, Option.map_some] at hresult
        refine ⟨{ s with conn := withQueue s.conn.sendNum s.conn.funcs c, loop := .idle }, ?_, ?_⟩
        · simp only [act, hloop, if_pos hone]
          exact congrArg _ hresult
        · exact h.of_still hprogress s.conn.sendNum s.conn.funcs (by simp)
      · refine ⟨{ s with loop := .idle }, ?_, ?_⟩
        · simp only [act, hloop, if_neg hone, Option.map_some]
        · exact h.of_still hstay s.conn.sendNum s.conn.funcs (by simp)
  | completing =>
      have hconnected : ¬s.conn.status = .Disconnecting := by
        rw [show s.conn.status = .Connected from h.sending.connected]
        decide
      have hopen : checkCloseOnEmpty s.conn = s.conn :=
        if_neg (by rw [show s.conn.closeOnEmpty = false from h.sending.notClosing]; decide)
      refine ⟨{ s with loop := .idle }, ?_, ?_⟩
      · simp only [act, hloop, if_neg hconnected, hopen]
      · exact h.of_still hstay s.conn.sendNum s.conn.funcs (by simp)

theorem Booked.act (hk : OnlyEAGAIN kernel) (h : Booked s) (action : Action) :
    ∃ s', act kernel s action = some s' ∧ Booked s' := by
  cases action with
  | call inLoopThread call => exact h.call hk inLoopThread call
  | dequeue => exact h.dequeue hk
  | writeCallback => exact h.writeCallback hk
  | resume => exact h.resume hk

end Output

section Run

variable {kernel : Kernel}

theorem Ordered.runActions {s s' : System} (h : Ordered s) (actions : List Action)
    (hrun : runActions kernel s actions = some s') : Ordered s' := by
  induction actions generalizing s with
  | nil =>
      obtain rfl := Option.some.inj hrun
      exact h
  | cons action actions ih =>
      rw [SendOrder.runActions, List.foldlM_cons] at hrun
      obtain ⟨next, hact, hrest⟩ := Option.bind_eq_some_iff.mp hrun
      exact ih (h.act action hact) hrest

theorem Booked.runActions (hk : OnlyEAGAIN kernel) {s : System} (h : Booked s)
    (actions : List Action) : ∃ s', runActions kernel s actions = some s' ∧ Booked s' := by
  induction actions generalizing s with
  | nil => exact ⟨s, rfl, h⟩
  | cons action actions ih =>
      obtain ⟨next, hact, hnext⟩ := h.act hk action
      obtain ⟨s', hrest, hlast⟩ := ih hnext
      refine ⟨s', ?_, hlast⟩
      rw [SendOrder.runActions, List.foldlM_cons, hact]
      exact hrest

/-- However the threads' calls interleave, their payloads enter the output in the order in which the
calls took the mutex: the calls whose payloads have entered are the first ones, and the others wait
in the loop. -/
theorem entered_append_funcs (kernel : Kernel) (highWaterMarkLen : Option Nat)
    (actions : List Action) :
    (∀ s, runActions kernel (opened highWaterMarkLen) actions = some s →
      s.entered ++ s.conn.funcs = s.taken) ∧
    (OnlyEAGAIN kernel → ∃ s, runActions kernel (opened highWaterMarkLen) actions = some s ∧
      s.conn.socket.written ++ pending s.conn = (s.entered.map payload).flatten) := by
  constructor
  · intro s hrun
    exact ((ordered_opened highWaterMarkLen).runActions actions hrun).order
  · intro hk
    obtain ⟨s, hrun, h⟩ := (booked_opened highWaterMarkLen).runActions hk actions
    refine ⟨s, hrun, ?_⟩
    rw [← h.output_eq, pending_eq (c := s.conn) h.sending.leftoverAtFront]
    rfl

/-- A call of the loop thread waits behind one of another thread. -/
example :
    ∃ s, runActions halvingKernel (opened none) [.call false (.send [1, 2]), .call true (.send [3]),
        .dequeue, .call false (.send [4]), .resume, .dequeue, .resume] = some s ∧
      s.taken = [.send [1, 2], .send [3], .send [4]] ∧ s.entered = [.send [1, 2], .send [3]] :=
  ⟨_, rfl, rfl, rfl⟩

end Run

end Cooper.SendOrder

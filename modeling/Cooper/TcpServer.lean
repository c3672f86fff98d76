import Cooper.StepRun
import Cooper.TcpConnectionImpl
import Mathlib.Data.Finset.Erase
import Mathlib.Data.Finset.Insert
import Mathlib.Logic.Function.Basic

/-!
`TcpServer` with its connections over several loops: which connections it keeps in `connSet_`, and
who else keeps them. A loop has plain pointers to the channels of its connections, in the poller and
in `activeChannels_`.
-/

namespace Cooper.TcpServer

open Cooper.StepRun
open Cooper.TcpConnectionImpl (ConnStatus)

section Model

/-- The connections are numbered as `newConnection` makes them. -/
abbrev ConnId := Nat

/-- `events` tells whether `events_` is other than `kNoneEvent`. The poller may have the channel
from an `update` on, and has it no longer after `remove`. -/
structure Connection (ι : Type*) where
  loop : ι
  status : ConnStatus
  events : Bool
  added : Bool
  removed : Bool
  deriving DecidableEq

/-- Functors in the queue of a loop. Each has a copy of the `TcpConnectionPtr`. -/
inductive Functor
  | connectEstablished (c : ConnId)
  | connectDestroyed (c : ConnId)
  | handleCloseInLoop (c : ConnId)
  | forceClose (c : ConnId)
  | shutdown (c : ConnId)
  | send (c : ConnId)
  deriving DecidableEq

def Functor.conn : Functor → ConnId
  | .connectEstablished c | .connectDestroyed c | .handleCloseInLoop c | .forceClose c
  | .shutdown c | .send c => c

/-- What the loop thread is in, where users' code may run: a `handleEvent`, a `connectionCallback_`
with `closeCallback_` or `remove` to come, or another callback in a functor. Each has a
`TcpConnectionPtr`. -/
inductive Frame
  | handleEvent (c : ConnId)
  | handleClose (c : ConnId)
  | connectDestroyed (c : ConnId)
  | functor (c : ConnId)
  deriving DecidableEq

def Frame.conn : Frame → ConnId
  | .handleEvent c | .handleClose c | .connectDestroyed c | .functor c => c

/-- `active` is what is left of `activeChannels_`, `handling` between `poll` and `doRunInLoopFuncs`.
-/
structure Loop where
  funcs : List Functor
  active : List ConnId
  handling : Bool
  stack : List Frame

structure Server (ι : Type*) where
  loop : ι
  ioLoops : List ι
  nextLoopIdx : Nat
  connSet : Finset ConnId
  conns : List (Connection ι)
  loops : ι → Loop
  held : ConnId → Nat

/-- What users call of a connection, and whether something is `left` to be written: it puts off
`shutdown`, and the call that sends it enables writing. -/
inductive Request
  | forceClose
  | shutdown (left : Bool)
  | send (left : Bool)
  deriving DecidableEq

def Request.functor (c : ConnId) : Request → Functor
  | .forceClose => .forceClose c
  | .shutdown _ => .shutdown c
  | .send _ => .send c

inductive Action (ι : Type*)
  | accept
  | poll (loop : ι) (active : List ConnId)
  | handleEvent (loop : ι)
  | close (loop : ι)
  | return (loop : ι)
  | handled (loop : ι)
  | run (loop : ι) (left : Bool)
  | request (thread : Option ι) (request : Request) (c : ConnId)
  | copy (thread : Option ι) (c : ConnId)
  | drop (c : ConnId)

variable {ι : Type*} [DecidableEq ι]

namespace Server

def init (loop : ι) (ioLoops : List ι) : Server ι where
  loop
  ioLoops
  nextLoopIdx := 0
  connSet := ∅
  conns := []
  loops := fun _ => ⟨[], [], false, []⟩
  held := fun _ => 0

def setLoop (s : Server ι) (ℓ : ι) (loop : Loop) : Server ι :=
  { s with loops := Function.update s.loops ℓ loop }

def queueInLoop (s : Server ι) (ℓ : ι) (f : Functor) : Server ι :=
  s.setLoop ℓ { s.loops ℓ with funcs := (s.loops ℓ).funcs ++ [f] }

def push (s : Server ι) (ℓ : ι) (frame : Frame) : Server ι :=
  s.setLoop ℓ { s.loops ℓ with stack := frame :: (s.loops ℓ).stack }

def setConn (s : Server ι) (c : ConnId) (conn : Connection ι) : Server ι :=
  { s with conns := s.conns.set c conn }

def handleClose (s : Server ι) (ℓ : ι) (c : ConnId) (conn : Connection ι) : Server ι :=
  (s.setConn c { conn with status := .Disconnected, events := false, added := true }).push ℓ
    (.handleClose c)

def forceClose (s : Server ι) (ℓ : ι) (c : ConnId) (conn : Connection ι) : Server ι :=
  if conn.status = .Connected ∨ conn.status = .Disconnecting then s.handleClose ℓ c conn else s

def shutdown (s : Server ι) (c : ConnId) (conn : Connection ι) (left : Bool) : Server ι :=
  if conn.status = .Connected ∧ left = false then
    s.setConn c { conn with status := .Disconnecting }
  else s

/-- `sendFileInLoop` does not look at the status. -/
def send (s : Server ι) (ℓ : ι) (c : ConnId) (conn : Connection ι) (left : Bool) :
    Server ι :=
  (if left then s.setConn c { conn with events := true, added := true } else s).push ℓ
    (.functor c)

def requestInLoop (s : Server ι) (ℓ : ι) (c : ConnId) (conn : Connection ι) :
    Request → Server ι
  | .forceClose => s.forceClose ℓ c conn
  | .shutdown left => s.shutdown c conn left
  | .send left => s.send ℓ c conn left

def connectEstablished (s : Server ι) (ℓ : ι) (c : ConnId) (conn : Connection ι) :
    Server ι :=
  (s.setConn c { conn with status := .Connected, events := true, added := true }).push ℓ
    (.functor c)

def remove (s : Server ι) (c : ConnId) (conn : Connection ι) : Server ι :=
  s.setConn c { conn with added := false, removed := true }

def connectDestroyed (s : Server ι) (ℓ : ι) (c : ConnId) (conn : Connection ι) : Server ι :=
  if conn.status = .Connected then
    (s.setConn c { conn with status := .Disconnected, events := false, added := true }).push ℓ
      (.connectDestroyed c)
  else s.remove c conn

def handleCloseInLoop (s : Server ι) (c : ConnId) (conn : Connection ι) : Server ι :=
  { s with connSet := s.connSet.erase c }.queueInLoop conn.loop (.connectDestroyed c)

def connectionClosed (s : Server ι) (ℓ : ι) (c : ConnId) (conn : Connection ι) : Server ι :=
  if ℓ = s.loop then s.handleCloseInLoop c conn
  else s.queueInLoop s.loop (.handleCloseInLoop c)

def newConnection (s : Server ι) : Option (Server ι) :=
  s.ioLoops[s.nextLoopIdx]?.map fun ioLoop =>
    let c := s.conns.length
    let conn : Connection ι := ⟨ioLoop, .Connecting, false, false, false⟩
    let s := { s with
      nextLoopIdx := if s.nextLoopIdx + 1 ≥ s.ioLoops.length then 0 else s.nextLoopIdx + 1
      conns := s.conns ++ [conn]
      connSet := insert c s.connSet }
    if ioLoop = s.loop then s.connectEstablished ioLoop c conn
    else s.queueInLoop ioLoop (.connectEstablished c)

def runFunctor (s : Server ι) (ℓ : ι) (conn : Connection ι) (left : Bool) :
    Functor → Server ι
  | .connectEstablished c => s.connectEstablished ℓ c conn
  | .connectDestroyed c => s.connectDestroyed ℓ c conn
  | .handleCloseInLoop c => s.handleCloseInLoop c conn
  | .forceClose c => s.forceClose ℓ c conn
  | .shutdown c => s.shutdown c conn left
  | .send c => s.send ℓ c conn left

def returnFrame (s : Server ι) (ℓ : ι) (conn : Connection ι) : Frame → Server ι
  | .handleEvent _ | .functor _ => s
  | .handleClose c => s.connectionClosed ℓ c conn
  | .connectDestroyed c => s.remove c conn

/-- Users' code of the thread has a pointer to the connection: one is kept, or it is that of a
callback. -/
def Has (s : Server ι) (thread : Option ι) (c : ConnId) : Prop :=
  0 < s.held c ∨ ∃ ℓ ∈ thread, c ∈ (s.loops ℓ).stack.map Frame.conn

instance (s : Server ι) (thread : Option ι) (c : ConnId) : Decidable (s.Has thread c) :=
  inferInstanceAs (Decidable (_ ∨ ∃ ℓ ∈ thread, _))

/-- `stop` and the timing wheels call `forceClose` too, on loop threads. -/
def MayRequest (s : Server ι) (thread : Option ι) (request : Request) (c : ConnId) : Prop :=
  s.Has thread c ∨ request = .forceClose ∧ thread.isSome ∧ c ∈ s.connSet

instance (s : Server ι) (thread : Option ι) (request : Request) (c : ConnId) :
    Decidable (s.MayRequest thread request c) :=
  inferInstanceAs (Decidable (_ ∨ _))

def step (s : Server ι) : Action ι → Option (Server ι)
  | .accept =>
      if (s.loops s.loop).handling ∧ (s.loops s.loop).stack = [] then s.newConnection else none
  | .poll ℓ active =>
      if (s.loops ℓ).handling = false ∧ (s.loops ℓ).stack = [] ∧
          (∀ c ∈ active, s.conns[c]?.any fun conn => conn.loop = ℓ ∧ conn.added) then
        some (s.setLoop ℓ { s.loops ℓ with active, handling := true })
      else none
  | .handleEvent ℓ =>
      match (s.loops ℓ).active, (s.loops ℓ).stack with
      | c :: active, [] => s.conns[c]?.map fun conn =>
          let s := s.setLoop ℓ { s.loops ℓ with active }
          if conn.events then s.push ℓ (.handleEvent c) else s
      | _, _ => none
  | .close ℓ =>
      match (s.loops ℓ).stack with
      | .handleEvent c :: _ => s.conns[c]?.map fun conn => s.handleClose ℓ c conn
      | _ => none
  | .return ℓ =>
      match (s.loops ℓ).stack with
      | frame :: stack => s.conns[frame.conn]?.map fun conn =>
          (s.setLoop ℓ { s.loops ℓ with stack }).returnFrame ℓ conn frame
      | [] => none
  | .handled ℓ =>
      if (s.loops ℓ).handling ∧ (s.loops ℓ).active = [] ∧ (s.loops ℓ).stack = [] then
        some (s.setLoop ℓ { s.loops ℓ with handling := false })
      else none
  | .run ℓ left =>
      match (s.loops ℓ).funcs with
      | f :: funcs =>
          if (s.loops ℓ).handling = false ∧ (s.loops ℓ).stack = [] then
            s.conns[f.conn]?.map fun conn =>
              (s.setLoop ℓ { s.loops ℓ with funcs }).runFunctor ℓ conn left f
          else none
      | [] => none
  | .request thread request c =>
      if s.MayRequest thread request c then
        s.conns[c]?.map fun conn =>
          if thread = some conn.loop then s.requestInLoop conn.loop c conn request
          else s.queueInLoop conn.loop (request.functor c)
      else none
  | .copy thread c =>
      if s.Has thread c then some { s with held := Function.update s.held c (s.held c + 1) }
      else none
  | .drop c =>
      if 0 < s.held c then some { s with held := Function.update s.held c (s.held c - 1) }
      else none

/-- The `TcpConnectionPtr`s to the connection: while there is one, it is not freed. -/
def Alive (s : Server ι) (c : ConnId) : Prop :=
  c ∈ s.connSet ∨ 0 < s.held c ∨
    ∃ ℓ, (∃ f ∈ (s.loops ℓ).funcs, f.conn = c) ∨ ∃ f ∈ (s.loops ℓ).stack, f.conn = c

end Server

end Model

section View

variable {ι : Type*} [DecidableEq ι]

/-- What there is of one connection. -/
@[ext]
structure View (ι : Type*) where
  conn : Option (Connection ι)
  inSet : Bool
  funcs : ι → List Functor
  stack : ι → List Frame
  active : ι → Bool
  handling : ι → Bool
  held : Nat

def view (s : Server ι) (c : ConnId) : View ι where
  conn := s.conns[c]?
  inSet := c ∈ s.connSet
  funcs ℓ := (s.loops ℓ).funcs.filter (·.conn = c)
  stack ℓ := (s.loops ℓ).stack.filter (·.conn = c)
  active ℓ := c ∈ (s.loops ℓ).active
  handling ℓ := (s.loops ℓ).handling
  held := s.held c

namespace View

def queueInLoop (v : View ι) (ℓ : ι) (f : Functor) : View ι :=
  { v with funcs := Function.update v.funcs ℓ (v.funcs ℓ ++ [f]) }

def push (v : View ι) (ℓ : ι) (frame : Frame) : View ι :=
  { v with stack := Function.update v.stack ℓ (frame :: v.stack ℓ) }

end View

variable {s : Server ι} {c : ConnId} {ℓ : ι} {conn : Connection ι}

theorem view_setLoop (s : Server ι) (ℓ : ι) (loop : Loop) (c : ConnId) :
    view (s.setLoop ℓ loop) c = { view s c with
      funcs := Function.update (view s c).funcs ℓ (loop.funcs.filter (·.conn = c))
      stack := Function.update (view s c).stack ℓ (loop.stack.filter (·.conn = c))
      active := Function.update (view s c).active ℓ (c ∈ loop.active)
      handling := Function.update (view s c).handling ℓ loop.handling } := by
  ext1
  case conn | inSet | held => rfl
  all_goals
    funext ℓ'
    rcases eq_or_ne ℓ' ℓ with rfl | hne
    · simp [view, Server.setLoop]
    · simp [view, Server.setLoop, hne]

theorem view_queueInLoop (s : Server ι) (ℓ : ι) (f : Functor) (c : ConnId) :
    view (s.queueInLoop ℓ f) c =
      if f.conn = c then (view s c).queueInLoop ℓ f else view s c := by
  rw [Server.queueInLoop, view_setLoop]
  split <;> rename_i hf
  · ext1 <;> simp [view, View.queueInLoop, hf]
  · ext1 <;> simp [view, hf]

theorem view_push (s : Server ι) (ℓ : ι) (frame : Frame) (c : ConnId) :
    view (s.push ℓ frame) c = if frame.conn = c then (view s c).push ℓ frame else view s c := by
  rw [Server.push, view_setLoop]
  split <;> rename_i hf
  · ext1 <;> simp [view, View.push, hf]
  · ext1 <;> simp [view, hf]

theorem view_queueInLoop_self {f : Functor} (hf : f.conn = c) :
    view (s.queueInLoop ℓ f) c = (view s c).queueInLoop ℓ f := by
  rw [view_queueInLoop, if_pos hf]

theorem view_queueInLoop_ne {f : Functor} (hf : f.conn ≠ c) :
    view (s.queueInLoop ℓ f) c = view s c := by
  rw [view_queueInLoop, if_neg hf]

theorem view_push_self {frame : Frame} (hframe : frame.conn = c) :
    view (s.push ℓ frame) c = (view s c).push ℓ frame := by
  rw [view_push, if_pos hframe]

theorem view_push_ne {frame : Frame} (hframe : frame.conn ≠ c) :
    view (s.push ℓ frame) c = view s c := by
  rw [view_push, if_neg hframe]

omit [DecidableEq ι] in
theorem view_setConn (hc : c < s.conns.length) (conn : Connection ι) (c' : ConnId) :
    view (s.setConn c conn) c' =
      if c = c' then { view s c' with conn := some conn } else view s c' := by
  split <;> rename_i hcc
  · subst hcc
    ext1
    case conn => simp [view, Server.setConn, hc]
    all_goals rfl
  · ext1
    case conn => simp [view, Server.setConn, hcc]
    all_goals rfl

omit [DecidableEq ι] in
theorem view_setConn_self (hc : c < s.conns.length) :
    view (s.setConn c conn) c = { view s c with conn := some conn } := by
  rw [view_setConn hc, if_pos rfl]

omit [DecidableEq ι] in
theorem view_setConn_ne (hc : c < s.conns.length) {c' : ConnId} (hne : c' ≠ c) :
    view (s.setConn c conn) c' = view s c' := by
  rw [view_setConn hc, if_neg (Ne.symm hne)]

end View

section Sound

variable {ι : Type*} [DecidableEq ι] {base ℓ : ι} {c : ConnId} {v : View ι} {conn : Connection ι}

/-- A connection is in `connSet_` until its close is handled, and then the functor with
`connectDestroyed` has it, until its channel is removed. -/
structure Sound (base : ι) (c : ConnId) (v : View ι) (conn : Connection ι) : Prop where
  known : v.conn = some conn
  active : ∀ ℓ, v.active ℓ = true →
    conn.loop = ℓ ∧ conn.added = true ∧ v.handling ℓ = true
  established : ∀ ℓ, .connectEstablished c ∈ v.funcs ℓ →
    conn.loop = ℓ ∧ conn.status = .Connecting
  once : ∀ ℓ, (v.funcs ℓ).count (.connectEstablished c) ≤ 1
  connecting : conn.status = .Connecting → .connectEstablished c ∈ v.funcs conn.loop
  fresh : conn.status = .Connecting → conn.added = false ∧ v.held = 0 ∧
    ∀ ℓ, v.stack ℓ = [] ∧ .send c ∉ v.funcs ℓ
  destroyed : ∀ ℓ, .connectDestroyed c ∈ v.funcs ℓ → conn.loop = ℓ ∧ v.inSet = false
  closing : ∀ ℓ, .handleCloseInLoop c ∈ v.funcs ℓ → ℓ = base ∧ conn.status = .Disconnected
  others : ∀ ℓ f, f ∈ v.funcs ℓ → conn.loop = ℓ ∨ f = .handleCloseInLoop c
  frames : ∀ ℓ frame, frame ∈ v.stack ℓ → conn.loop = ℓ ∧ frame ≠ .connectDestroyed c
  events : ∀ ℓ, .handleEvent c ∈ v.stack ℓ → conn.added = true ∧ v.handling ℓ = true
  closes : ∀ ℓ, .handleClose c ∈ v.stack ℓ → conn.status = .Disconnected
  opened : v.inSet = true → conn.removed = false ∧ (conn.status = .Disconnected →
    .handleClose c ∈ v.stack conn.loop ∨ .handleCloseInLoop c ∈ v.funcs base)
  closed : v.inSet = false → conn.status = .Disconnected ∧
    (conn.removed = true ∨ .connectDestroyed c ∈ v.funcs conn.loop)
  added : conn.added = true → conn.removed = false

theorem View.mem_queueInLoop {f g : Functor} {ℓ' : ι} :
    g ∈ (v.queueInLoop ℓ f).funcs ℓ' ↔ ℓ' = ℓ ∧ g = f ∨ g ∈ v.funcs ℓ' := by
  rw [View.queueInLoop]
  rcases eq_or_ne ℓ' ℓ with rfl | hne
  · simp only [Function.update_self, List.mem_append, List.mem_singleton, true_and]
    exact or_comm
  · simp only [Function.update_of_ne hne, hne, false_and, false_or]

theorem View.count_queueInLoop {f g : Functor} (hne : g ≠ f) (ℓ' : ι) :
    ((v.queueInLoop ℓ f).funcs ℓ').count g = (v.funcs ℓ').count g := by
  rw [View.queueInLoop]
  rcases eq_or_ne ℓ' ℓ with rfl | hother
  · simp only [Function.update_self, List.count_append]
    rw [List.count_singleton, if_neg (by simpa using Ne.symm hne), Nat.add_zero]
  · simp only [Function.update_of_ne hother]

theorem View.mem_push {frame frame' : Frame} {ℓ' : ι} :
    frame' ∈ (v.push ℓ frame).stack ℓ' ↔ ℓ' = ℓ ∧ frame' = frame ∨ frame' ∈ v.stack ℓ' := by
  rw [View.push]
  rcases eq_or_ne ℓ' ℓ with rfl | hne
  · simp only [Function.update_self, List.mem_cons, true_and]
  · simp only [Function.update_of_ne hne, hne, false_and, false_or]

section Front

variable {α : Type*} {xs : ι → List α} {x y : α} {rest : List α} {ℓ' : ι}

theorem mem_of_mem_rest (hxs : xs ℓ = x :: rest) (h : y ∈ Function.update xs ℓ rest ℓ') :
    y ∈ xs ℓ' := by
  rcases eq_or_ne ℓ' ℓ with rfl | hne
  · rw [Function.update_self] at h
    rw [hxs]
    exact List.mem_cons_of_mem x h
  · rw [Function.update_of_ne hne] at h
    exact h

theorem mem_rest_of_ne (hxs : xs ℓ = x :: rest) (hy : y ≠ x) (h : y ∈ xs ℓ') :
    y ∈ Function.update xs ℓ rest ℓ' := by
  rcases eq_or_ne ℓ' ℓ with rfl | hne
  · rw [Function.update_self]
    rw [hxs] at h
    exact (List.mem_cons.mp h).resolve_left hy
  · rw [Function.update_of_ne hne]
    exact h

theorem count_rest_le [BEq α] (hxs : xs ℓ = x :: rest) (y : α) (ℓ' : ι) :
    (Function.update xs ℓ rest ℓ').count y ≤ (xs ℓ').count y := by
  rcases eq_or_ne ℓ' ℓ with rfl | hne
  · rw [Function.update_self, hxs]
    exact List.count_le_count_cons
  · rw [Function.update_of_ne hne]

end Front

theorem Sound.handleClose (h : Sound base c v conn) (hremoved : conn.removed = false)
    (hstatus : conn.status ≠ .Connecting) :
    Sound base c
      (View.push { v with
        conn := some { conn with status := .Disconnected, events := false, added := true } }
        conn.loop (.handleClose c))
      { conn with status := .Disconnected, events := false, added := true } :=
  { h with
    known := rfl
    active := fun ℓ hactive => ⟨(h.active ℓ hactive).1, rfl, (h.active ℓ hactive).2.2⟩
    established := fun ℓ hmem => absurd (h.established ℓ hmem).2 hstatus
    connecting := nofun
    fresh := nofun
    closing := fun ℓ hmem => ⟨(h.closing ℓ hmem).1, rfl⟩
    frames := by
      intro ℓ frame hmem
      rcases View.mem_push.mp hmem with ⟨rfl, rfl⟩ | hmem
      · exact ⟨rfl, nofun⟩
      · exact h.frames ℓ frame hmem
    events := by
      intro ℓ hmem
      rcases View.mem_push.mp hmem with ⟨-, hframe⟩ | hmem
      · cases hframe
      · exact ⟨rfl, (h.events ℓ hmem).2⟩
    closes := fun _ _ => rfl
    opened := fun _ => ⟨hremoved, fun _ => .inl (View.mem_push.mpr (.inl ⟨rfl, rfl⟩))⟩
    closed := fun hset => ⟨rfl, (h.closed hset).2⟩
    added := fun _ => hremoved }

omit [DecidableEq ι] in
theorem Sound.shutdown (h : Sound base c v conn) (hstatus : conn.status = .Connected) :
    Sound base c { v with conn := some { conn with status := .Disconnecting } }
      { conn with status := .Disconnecting } :=
  { h with
    known := rfl
    established := fun ℓ hmem => nomatch hstatus.symm.trans (h.established ℓ hmem).2
    connecting := nofun
    fresh := nofun
    closing := fun ℓ hmem => nomatch hstatus.symm.trans (h.closing ℓ hmem).2
    closes := fun ℓ hmem => nomatch hstatus.symm.trans (h.closes ℓ hmem)
    opened := fun hset => ⟨(h.opened hset).1, nofun⟩
    closed := fun hset => nomatch hstatus.symm.trans (h.closed hset).1 }

omit [DecidableEq ι] in
theorem Sound.update (h : Sound base c v conn) (hremoved : conn.removed = false)
    (hstatus : conn.status ≠ .Connecting) :
    Sound base c { v with conn := some { conn with events := true, added := true } }
      { conn with events := true, added := true } :=
  { h with
    known := rfl
    active := fun ℓ hactive => ⟨(h.active ℓ hactive).1, rfl, (h.active ℓ hactive).2.2⟩
    fresh := fun hconnecting => absurd hconnecting hstatus
    events := fun ℓ hmem => ⟨rfl, (h.events ℓ hmem).2⟩
    added := fun _ => hremoved }

theorem Sound.push (h : Sound base c v conn) (hstatus : conn.status ≠ .Connecting) :
    Sound base c (v.push conn.loop (.functor c)) conn :=
  have hold {ℓ : ι} {frame : Frame} (hmem : frame ∈ (v.push conn.loop (.functor c)).stack ℓ)
      (hne : frame ≠ .functor c) : frame ∈ v.stack ℓ :=
    (View.mem_push.mp hmem).resolve_left fun hnew => hne hnew.2
  { h with
    fresh := fun hconnecting => absurd hconnecting hstatus
    frames := by
      intro ℓ frame hmem
      rcases View.mem_push.mp hmem with ⟨rfl, rfl⟩ | hmem
      · exact ⟨rfl, nofun⟩
      · exact h.frames ℓ frame hmem
    events := fun ℓ hmem => h.events ℓ (hold hmem nofun)
    closes := fun ℓ hmem => h.closes ℓ (hold hmem nofun)
    opened := fun hset => ⟨(h.opened hset).1, fun hdisconnected =>
      ((h.opened hset).2 hdisconnected).imp_left fun hmem => View.mem_push.mpr (.inr hmem)⟩ }

theorem Sound.queued (h : Sound base c v conn) {f : Functor} {ℓ : ι}
    (hestablished : f ≠ .connectEstablished c)
    (hsend : f = .send c → conn.status ≠ .Connecting)
    (hdestroyed : f = .connectDestroyed c → conn.loop = ℓ ∧ v.inSet = false)
    (hclosing : f = .handleCloseInLoop c → ℓ = base ∧ conn.status = .Disconnected)
    (hloop : conn.loop = ℓ ∨ f = .handleCloseInLoop c) :
    Sound base c (v.queueInLoop ℓ f) conn :=
  { h with
    established := by
      intro ℓ' hmem
      rcases View.mem_queueInLoop.mp hmem with ⟨-, heq⟩ | hmem
      · exact absurd heq.symm hestablished
      · exact h.established ℓ' hmem
    once := fun ℓ' => (View.count_queueInLoop (Ne.symm hestablished) ℓ').trans_le (h.once ℓ')
    connecting := fun hconnecting => View.mem_queueInLoop.mpr (.inr (h.connecting hconnecting))
    fresh := by
      intro hconnecting
      obtain ⟨hadded, hheld, hrest⟩ := h.fresh hconnecting
      refine ⟨hadded, hheld, fun ℓ' => ⟨(hrest ℓ').1, fun hmem => ?_⟩⟩
      rcases View.mem_queueInLoop.mp hmem with ⟨-, heq⟩ | hmem
      · exact hsend heq.symm hconnecting
      · exact (hrest ℓ').2 hmem
    destroyed := by
      intro ℓ' hmem
      rcases View.mem_queueInLoop.mp hmem with ⟨rfl, heq⟩ | hmem
      · exact hdestroyed heq.symm
      · exact h.destroyed ℓ' hmem
    closing := by
      intro ℓ' hmem
      rcases View.mem_queueInLoop.mp hmem with ⟨rfl, heq⟩ | hmem
      · exact hclosing heq.symm
      · exact h.closing ℓ' hmem
    others := by
      intro ℓ' g hmem
      rcases View.mem_queueInLoop.mp hmem with ⟨rfl, rfl⟩ | hmem
      · exact hloop
      · exact h.others ℓ' g hmem
    opened := fun hset => ⟨(h.opened hset).1, fun hdisconnected =>
      ((h.opened hset).2 hdisconnected).imp_right fun hmem => View.mem_queueInLoop.mpr (.inr hmem)⟩
    closed := fun hset => ⟨(h.closed hset).1,
      (h.closed hset).2.imp_right fun hmem => View.mem_queueInLoop.mpr (.inr hmem)⟩ }

theorem Sound.queueInLoop (h : Sound base c v conn) {f : Functor}
    (hf : f = .forceClose c ∨ f = .shutdown c ∨ f = .send c)
    (hstatus : f = .send c → conn.status ≠ .Connecting) :
    Sound base c (v.queueInLoop conn.loop f) conn := by
  refine h.queued ?_ hstatus ?_ ?_ (.inl rfl)
  · rcases hf with rfl | rfl | rfl <;> nofun
  · rcases hf with rfl | rfl | rfl <;> nofun
  · rcases hf with rfl | rfl | rfl <;> nofun

theorem Sound.connectionClosed (h : Sound base c v conn) (hstatus : conn.status = .Disconnected) :
    Sound base c (v.queueInLoop base (.handleCloseInLoop c)) conn :=
  h.queued nofun nofun nofun (fun _ => ⟨rfl, hstatus⟩) (.inr rfl)

/-- The connection leaves `connSet_`, and `connectDestroyed` is queued for it. Less may be left of
the functors and of the callbacks. -/
theorem Sound.leaves (h : Sound base c v conn) (hstatus : conn.status = .Disconnected)
    {funcs : ι → List Functor} {stack : ι → List Frame}
    (hfuncs : ∀ ℓ f, f ∈ funcs ℓ → f ∈ v.funcs ℓ)
    (hstack : ∀ ℓ frame, frame ∈ stack ℓ → frame ∈ v.stack ℓ) :
    Sound base c
      (View.queueInLoop { v with funcs, stack, inSet := false } conn.loop (.connectDestroyed c))
      conn :=
  have hnone (ℓ : ι) : Functor.connectEstablished c ∉ funcs ℓ := fun hmem =>
    nomatch hstatus.symm.trans (h.established ℓ (hfuncs ℓ _ hmem)).2
  have hne : Functor.connectEstablished c ≠ .connectDestroyed c := nofun
  { h with
    established := by
      intro ℓ hmem
      rcases View.mem_queueInLoop.mp hmem with ⟨-, heq⟩ | hmem
      · cases heq
      · exact absurd hmem (hnone ℓ)
    once := by
      intro ℓ
      rw [View.count_queueInLoop hne, List.count_eq_zero.mpr (hnone ℓ)]
      exact Nat.zero_le 1
    connecting := fun hconnecting => nomatch hstatus.symm.trans hconnecting
    fresh := fun hconnecting => nomatch hstatus.symm.trans hconnecting
    destroyed := by
      intro ℓ hmem
      rcases View.mem_queueInLoop.mp hmem with ⟨rfl, -⟩ | hmem
      · exact ⟨rfl, rfl⟩
      · exact ⟨(h.destroyed ℓ (hfuncs ℓ _ hmem)).1, rfl⟩
    closing := by
      intro ℓ hmem
      rcases View.mem_queueInLoop.mp hmem with ⟨-, heq⟩ | hmem
      · cases heq
      · exact h.closing ℓ (hfuncs ℓ _ hmem)
    others := by
      intro ℓ f hmem
      rcases View.mem_queueInLoop.mp hmem with ⟨rfl, -⟩ | hmem
      · exact .inl rfl
      · exact h.others ℓ f (hfuncs ℓ f hmem)
    frames := fun ℓ frame hmem => h.frames ℓ frame (hstack ℓ frame hmem)
    events := fun ℓ hmem => h.events ℓ (hstack ℓ _ hmem)
    closes := fun ℓ hmem => h.closes ℓ (hstack ℓ _ hmem)
    opened := nofun
    closed := fun _ => ⟨hstatus, .inr (View.mem_queueInLoop.mpr (.inl ⟨rfl, rfl⟩))⟩ }

theorem Sound.popped (h : Sound base c v conn) {f : Functor} {rest : List Functor}
    (hfuncs : v.funcs ℓ = f :: rest) (hestablished : f ≠ .connectEstablished c)
    (hdestroyed : f = .connectDestroyed c → conn.removed = true)
    (hclosing : f = .handleCloseInLoop c → v.inSet = false) :
    Sound base c { v with funcs := Function.update v.funcs ℓ rest } conn :=
  { h with
    established := fun ℓ' hmem => h.established ℓ' (mem_of_mem_rest hfuncs hmem)
    once := fun ℓ' => (count_rest_le hfuncs _ ℓ').trans (h.once ℓ')
    connecting := fun hconnecting =>
      mem_rest_of_ne hfuncs (Ne.symm hestablished) (h.connecting hconnecting)
    fresh := by
      intro hconnecting
      obtain ⟨hadded, hheld, hrest⟩ := h.fresh hconnecting
      exact ⟨hadded, hheld, fun ℓ' => ⟨(hrest ℓ').1, fun hmem =>
        (hrest ℓ').2 (mem_of_mem_rest hfuncs hmem)⟩⟩
    destroyed := fun ℓ' hmem => h.destroyed ℓ' (mem_of_mem_rest hfuncs hmem)
    closing := fun ℓ' hmem => h.closing ℓ' (mem_of_mem_rest hfuncs hmem)
    others := fun ℓ' g hmem => h.others ℓ' g (mem_of_mem_rest hfuncs hmem)
    opened := by
      intro hset
      refine ⟨(h.opened hset).1, fun hdisconnected => ?_⟩
      refine ((h.opened hset).2 hdisconnected).imp_right (mem_rest_of_ne hfuncs ?_)
      rintro rfl
      exact nomatch hset.symm.trans (hclosing rfl)
    closed := by
      intro hset
      refine ⟨(h.closed hset).1, ?_⟩
      rcases (h.closed hset).2 with hremoved | hmem
      · exact .inl hremoved
      · by_cases hf : f = .connectDestroyed c
        · exact .inl (hdestroyed hf)
        · exact .inr (mem_rest_of_ne hfuncs (Ne.symm hf) hmem) }

theorem Sound.popRequest (h : Sound base c v conn) {f : Functor} {rest : List Functor}
    (hf : f = .forceClose c ∨ f = .shutdown c ∨ f = .send c) (hfuncs : v.funcs ℓ = f :: rest) :
    Sound base c { v with funcs := Function.update v.funcs ℓ rest } conn := by
  refine h.popped hfuncs ?_ ?_ ?_
  · rcases hf with rfl | rfl | rfl <;> nofun
  · rcases hf with rfl | rfl | rfl <;> nofun
  · rcases hf with rfl | rfl | rfl <;> nofun

theorem Sound.connectEstablished (h : Sound base c v conn) {rest : List Functor}
    (hfuncs : v.funcs ℓ = .connectEstablished c :: rest) :
    Sound base c (View.push { v with
        conn := some { conn with status := .Connected, events := true, added := true }
        funcs := Function.update v.funcs ℓ rest } ℓ (.functor c))
      { conn with status := .Connected, events := true, added := true } := by
  have hrest : Functor.connectEstablished c ∉ rest := by
    intro hin
    have honce := h.once ℓ
    rw [hfuncs, List.count_cons_self] at honce
    have := List.count_pos_iff.mpr hin
    omega
  obtain ⟨hloop, hstatus⟩ := h.established ℓ (hfuncs ▸ List.mem_cons_self)
  obtain ⟨-, -, hfresh⟩ := h.fresh hstatus
  have hempty {ℓ' : ι} {frame : Frame} (hmem : frame ∈ v.stack ℓ') : False := by
    rw [(hfresh ℓ').1] at hmem
    exact List.not_mem_nil hmem
  have hset : v.inSet = true := by
    by_contra hset
    exact nomatch hstatus.symm.trans (h.closed (Bool.not_eq_true _ ▸ hset)).1
  exact { h with
    known := rfl
    active := fun ℓ' hactive => ⟨(h.active ℓ' hactive).1, rfl, (h.active ℓ' hactive).2.2⟩
    established := by
      intro ℓ' hmem
      have hloop' := (h.established ℓ' (mem_of_mem_rest hfuncs hmem)).1
      obtain rfl := hloop.symm.trans hloop'
      exact absurd ((Function.update_self ℓ rest v.funcs).subst hmem) hrest
    once := fun ℓ' => (count_rest_le hfuncs _ ℓ').trans (h.once ℓ')
    connecting := nofun
    fresh := nofun
    destroyed := fun ℓ' hmem => h.destroyed ℓ' (mem_of_mem_rest hfuncs hmem)
    closing := fun ℓ' hmem =>
      nomatch hstatus.symm.trans (h.closing ℓ' (mem_of_mem_rest hfuncs hmem)).2
    others := fun ℓ' g hmem => h.others ℓ' g (mem_of_mem_rest hfuncs hmem)
    frames := by
      intro ℓ' frame hmem
      rcases View.mem_push.mp hmem with ⟨rfl, rfl⟩ | hmem
      · exact ⟨hloop, nofun⟩
      · exact (hempty hmem).elim
    events := by
      intro ℓ' hmem
      rcases View.mem_push.mp hmem with ⟨-, hframe⟩ | hmem
      · cases hframe
      · exact (hempty hmem).elim
    closes := by
      intro ℓ' hmem
      rcases View.mem_push.mp hmem with ⟨-, hframe⟩ | hmem
      · cases hframe
      · exact (hempty hmem).elim
    opened := fun hset => ⟨(h.opened hset).1, nofun⟩
    closed := fun hset => nomatch hstatus.symm.trans (h.closed hset).1
    added := fun _ => (h.opened hset).1 }

omit [DecidableEq ι] in
theorem Sound.removed (h : Sound base c v conn) (hset : v.inSet = false)
    (hhandling : v.handling conn.loop = false) :
    Sound base c { v with conn := some { conn with added := false, removed := true } }
      { conn with added := false, removed := true } := by
  have hstatus := (h.closed hset).1
  have hidle {ℓ' : ι} (hloop : conn.loop = ℓ') (hhandles : v.handling ℓ' = true) : False := by
    subst hloop
    exact nomatch hhandling.symm.trans hhandles
  exact { h with
    known := rfl
    active := fun ℓ' hactive =>
      (hidle (h.active ℓ' hactive).1 (h.active ℓ' hactive).2.2).elim
    fresh := fun hconnecting => nomatch hstatus.symm.trans hconnecting
    events := fun ℓ' hmem => (hidle (h.frames ℓ' _ hmem).1 (h.events ℓ' hmem).2).elim
    opened := fun hset' => nomatch hset.symm.trans hset'
    closed := fun _ => ⟨hstatus, .inl rfl⟩
    added := nofun }

theorem Sound.remove (h : Sound base c v conn) {rest : List Functor}
    (hfuncs : v.funcs ℓ = .connectDestroyed c :: rest) (hhandling : v.handling ℓ = false) :
    Sound base c { v with
        conn := some { conn with added := false, removed := true }
        funcs := Function.update v.funcs ℓ rest }
      { conn with added := false, removed := true } := by
  obtain ⟨rfl, hset⟩ := h.destroyed ℓ (hfuncs ▸ List.mem_cons_self)
  exact (h.removed hset hhandling).popped hfuncs nofun (fun _ => rfl) nofun

theorem Sound.popHandleCloseInLoop (h : Sound base c v conn) {rest : List Functor}
    (hfuncs : v.funcs ℓ = .handleCloseInLoop c :: rest) :
    Sound base c (View.queueInLoop
      { v with funcs := Function.update v.funcs ℓ rest, inSet := false } conn.loop
      (.connectDestroyed c)) conn := by
  obtain ⟨-, hstatus⟩ := h.closing ℓ (hfuncs ▸ List.mem_cons_self)
  exact h.leaves hstatus (fun _ _ hmem => mem_of_mem_rest hfuncs hmem) fun _ _ hmem => hmem

theorem Sound.polled (h : Sound base c v conn) {polled : Bool}
    (hpolled : polled = true → conn.loop = ℓ ∧ conn.added = true) :
    Sound base c { v with
      active := Function.update v.active ℓ polled
      handling := Function.update v.handling ℓ true } conn :=
  have hhandling {ℓ' : ι} (hbefore : v.handling ℓ' = true) :
      Function.update v.handling ℓ true ℓ' = true := by
    rcases eq_or_ne ℓ' ℓ with rfl | hne
    · exact Function.update_self ..
    · exact (Function.update_of_ne hne ..).trans hbefore
  { h with
    active := by
      intro ℓ' (hactive : Function.update v.active ℓ polled ℓ' = true)
      rcases eq_or_ne ℓ' ℓ with rfl | hne
      · rw [Function.update_self] at hactive
        exact ⟨(hpolled hactive).1, (hpolled hactive).2, Function.update_self ..⟩
      · rw [Function.update_of_ne hne] at hactive
        obtain ⟨hloop, hadded, hbefore⟩ := h.active ℓ' hactive
        exact ⟨hloop, hadded, hhandling hbefore⟩
    events := fun ℓ' hmem => ⟨(h.events ℓ' hmem).1, hhandling (h.events ℓ' hmem).2⟩ }

theorem Sound.handled (h : Sound base c v conn) (hactive : v.active ℓ = false)
    (hstack : v.stack ℓ = []) :
    Sound base c { v with handling := Function.update v.handling ℓ false } conn :=
  { h with
    active := by
      intro ℓ' hpolled
      have hne : ℓ' ≠ ℓ := by
        rintro rfl
        exact nomatch hactive.symm.trans hpolled
      obtain ⟨hloop, hadded, hhandling⟩ := h.active ℓ' hpolled
      exact ⟨hloop, hadded, (Function.update_of_ne hne ..).trans hhandling⟩
    events := by
      intro ℓ' hmem
      have hne : ℓ' ≠ ℓ := by
        rintro rfl
        have hnil : Frame.handleEvent c ∈ v.stack ℓ' := hmem
        rw [hstack] at hnil
        cases hnil
      exact ⟨(h.events ℓ' hmem).1, (Function.update_of_ne hne ..).trans (h.events ℓ' hmem).2⟩ }

theorem Sound.handleEvent (h : Sound base c v conn) (hloop : conn.loop = ℓ)
    (hadded : conn.added = true) (hhandling : v.handling ℓ = true) :
    Sound base c (v.push ℓ (.handleEvent c)) conn :=
  { h with
    fresh := fun hconnecting => nomatch hadded.symm.trans (h.fresh hconnecting).1
    frames := by
      intro ℓ' frame hmem
      rcases View.mem_push.mp hmem with ⟨rfl, rfl⟩ | hmem
      · exact ⟨hloop, nofun⟩
      · exact h.frames ℓ' frame hmem
    events := by
      intro ℓ' hmem
      rcases View.mem_push.mp hmem with ⟨rfl, -⟩ | hmem
      · exact ⟨hadded, hhandling⟩
      · exact h.events ℓ' hmem
    closes := by
      intro ℓ' hmem
      rcases View.mem_push.mp hmem with ⟨-, hframe⟩ | hmem
      · cases hframe
      · exact h.closes ℓ' hmem
    opened := fun hset => ⟨(h.opened hset).1, fun hdisconnected =>
      ((h.opened hset).2 hdisconnected).imp_left fun hmem => View.mem_push.mpr (.inr hmem)⟩ }

theorem Sound.popFrame (h : Sound base c v conn) {frame : Frame} {rest : List Frame}
    (hframe : frame = .handleClose c → .handleCloseInLoop c ∈ v.funcs base)
    (hstack : v.stack ℓ = frame :: rest) :
    Sound base c { v with stack := Function.update v.stack ℓ rest } conn :=
  { h with
    fresh := by
      intro hconnecting
      have hempty := ((h.fresh hconnecting).2.2 ℓ).1
      rw [hstack] at hempty
      cases hempty
    frames := fun ℓ' g hmem => h.frames ℓ' g (mem_of_mem_rest hstack hmem)
    events := fun ℓ' hmem => h.events ℓ' (mem_of_mem_rest hstack hmem)
    closes := fun ℓ' hmem => h.closes ℓ' (mem_of_mem_rest hstack hmem)
    opened := by
      intro hset
      refine ⟨(h.opened hset).1, fun hdisconnected => ?_⟩
      rcases (h.opened hset).2 hdisconnected with hmem | hmem
      · by_cases hclose : frame = .handleClose c
        · exact .inr (hframe hclose)
        · exact .inl (mem_rest_of_ne hstack (Ne.symm hclose) hmem)
      · exact .inr hmem }

theorem Sound.popHandleClose (h : Sound base c v conn) {rest : List Frame}
    (hstack : v.stack ℓ = .handleClose c :: rest) :
    Sound base c (View.queueInLoop { v with stack := Function.update v.stack ℓ rest } base
        (.handleCloseInLoop c)) conn ∧
      Sound base c (View.queueInLoop
        { v with stack := Function.update v.stack ℓ rest, inSet := false } conn.loop
        (.connectDestroyed c)) conn := by
  have hstatus := h.closes ℓ (hstack ▸ List.mem_cons_self)
  constructor
  · exact (h.connectionClosed hstatus).popFrame
      (fun _ => View.mem_queueInLoop.mpr (.inl ⟨rfl, rfl⟩)) hstack
  · exact h.leaves hstatus (fun _ _ hmem => hmem) fun _ _ hmem => mem_of_mem_rest hstack hmem

end Sound

section Kept

variable {ι : Type*} [DecidableEq ι] {s s' : Server ι} {c : ConnId} {conn : Connection ι} {ℓ : ι}

structure Unknown (v : View ι) : Prop where
  held : v.held = 0
  inSet : v.inSet = false
  funcs : ∀ ℓ, v.funcs ℓ = []
  stack : ∀ ℓ, v.stack ℓ = []
  active : ∀ ℓ, v.active ℓ = false

def Good (base : ι) (c : ConnId) (v : View ι) : Prop :=
  match v.conn with
  | some conn => Sound base c v conn
  | none => Unknown v

def Kept (s : Server ι) : Prop := ∀ c, Good s.loop c (view s c)

omit [DecidableEq ι] in
theorem good_of_sound {base : ι} {v : View ι} (conn : Connection ι)
    (h : Sound base c v conn) : Good base c v := by
  rw [Good, h.known]
  exact h

omit [DecidableEq ι] in
theorem Kept.sound (h : Kept s) (hconn : s.conns[c]? = some conn) :
    Sound s.loop c (view s c) conn := by
  have hgood := h c
  rw [Good, show (view s c).conn = some conn from hconn] at hgood
  exact hgood

omit [DecidableEq ι] in
theorem Kept.of_view {v : View ι} (h : Kept s) (hloop : s'.loop = s.loop)
    (hother : ∀ c', c' ≠ c → view s' c' = view s c') (hview : view s' c = v)
    (hsound : Sound s.loop c v conn) : Kept s' := by
  intro c'
  rw [hloop]
  rcases eq_or_ne c' c with rfl | hne
  · rw [hview]
    exact good_of_sound _ hsound
  · rw [hother c' hne]
    exact h c'

omit [DecidableEq ι] in
theorem lt_of_conn (hconn : s.conns[c]? = some conn) : c < s.conns.length :=
  (List.getElem?_eq_some_iff.mp hconn).1

omit [DecidableEq ι] in
theorem Kept.removed_of_status (h : Kept s) (hconn : s.conns[c]? = some conn)
    (hstatus : conn.status ≠ .Disconnected) : conn.removed = false := by
  have hsound := h.sound hconn
  cases hset : (view s c).inSet with
  | true => exact (hsound.opened hset).1
  | false => exact absurd (hsound.closed hset).1 hstatus

theorem handleClose_kept (h : Kept s) (hconn : s.conns[c]? = some conn)
    (hremoved : conn.removed = false) (hstatus : conn.status ≠ .Connecting) :
    Kept (s.handleClose conn.loop c conn) := by
  have hc := lt_of_conn hconn
  have hsound := (h.sound hconn).handleClose hremoved hstatus
  refine h.of_view (c := c) rfl (fun c' hne => ?_) ?_ hsound
  · exact (view_push_ne (Ne.symm hne)).trans (view_setConn_ne hc hne)
  · exact (view_push_self (c := c) rfl).trans (congrArg (View.push · _ _) (view_setConn_self hc))

theorem forceClose_kept (h : Kept s) (hconn : s.conns[c]? = some conn) :
    Kept (s.forceClose conn.loop c conn) := by
  rw [Server.forceClose]
  split <;> rename_i hstatus
  · refine handleClose_kept h hconn (h.removed_of_status hconn ?_) ?_
    · rcases hstatus with hstatus | hstatus <;> rw [hstatus] <;> decide
    · rcases hstatus with hstatus | hstatus <;> rw [hstatus] <;> decide
  · exact h

omit [DecidableEq ι] in
theorem shutdown_kept (h : Kept s) (hconn : s.conns[c]? = some conn) {left : Bool} :
    Kept (s.shutdown c conn left) := by
  have hc := lt_of_conn hconn
  rw [Server.shutdown]
  split <;> rename_i hstatus
  · have hsound := (h.sound hconn).shutdown hstatus.1
    exact h.of_view (c := c) rfl (fun c' hne => view_setConn_ne hc hne) (view_setConn_self hc)
      hsound
  · exact h

theorem push_kept (h : Kept s) (hconn : s.conns[c]? = some conn)
    (hstatus : conn.status ≠ .Connecting) :
    Kept (s.push conn.loop (.functor c)) := by
  exact h.of_view (c := c) rfl (fun c' hne => view_push_ne (Ne.symm hne)) (view_push_self (c := c) rfl)
    ((h.sound hconn).push hstatus)

theorem send_kept (h : Kept s) (hconn : s.conns[c]? = some conn) {left : Bool}
    (hstatus : conn.status ≠ .Connecting) (hleft : left = true → conn.removed = false) :
    Kept (s.send conn.loop c conn left) := by
  have hc := lt_of_conn hconn
  cases left with
  | false => exact push_kept h hconn hstatus
  | true =>
      have hset : Kept (s.setConn c { conn with events := true, added := true }) := by
        exact h.of_view (c := c) rfl (fun c' hne => view_setConn_ne hc hne)
          (view_setConn_self hc) ((h.sound hconn).update (hleft rfl) hstatus)
      have hget : (s.setConn c { conn with events := true, added := true }).conns[c]? =
          some { conn with events := true, added := true } := by
        simp [Server.setConn, hc]
      have hpushed := push_kept hset hget hstatus
      rw [Server.send, if_pos rfl]
      exact hpushed

theorem requestInLoop_kept (h : Kept s) (hconn : s.conns[c]? = some conn) {request : Request}
    (hstatus : request ≠ .forceClose → conn.status ≠ .Connecting)
    (hleft : request = .send true → conn.removed = false) :
    Kept (s.requestInLoop conn.loop c conn request) := by
  cases request with
  | forceClose => exact forceClose_kept h hconn
  | shutdown left => exact shutdown_kept h hconn
  | send left => exact send_kept h hconn (hstatus nofun) fun hw => hleft (congrArg Request.send hw)

theorem queueRequest_kept (h : Kept s) (hconn : s.conns[c]? = some conn) {request : Request}
    (hstatus : request ≠ .forceClose → conn.status ≠ .Connecting) :
    Kept (s.queueInLoop conn.loop (request.functor c)) := by
  have hf : (request.functor c).conn = c := by cases request <;> rfl
  have hsound := (h.sound hconn).queueInLoop (f := request.functor c)
    (by cases request <;> simp [Request.functor])
    (by cases request <;> simp_all [Request.functor])
  refine h.of_view (c := c) rfl (fun c' hne => ?_) ?_ hsound
  · refine view_queueInLoop_ne ?_
    rw [hf]
    exact Ne.symm hne
  · rw [view_queueInLoop_self hf]

theorem view_popFunctor {f : Functor} {rest : List Functor}
    (hfuncs : (s.loops ℓ).funcs = f :: rest) (c : ConnId) :
    ∃ rest', view (s.setLoop ℓ { s.loops ℓ with funcs := rest }) c =
        { view s c with funcs := Function.update (view s c).funcs ℓ rest' } ∧
      (view s c).funcs ℓ = if f.conn = c then f :: rest' else rest' := by
  refine ⟨rest.filter (·.conn = c), ?_, ?_⟩
  · rw [view_setLoop]
    ext1 <;> simp [view]
  · simp only [view, hfuncs, List.filter_cons, decide_eq_true_eq]

theorem view_popFunctor_ne {f : Functor} {rest : List Functor}
    (hfuncs : (s.loops ℓ).funcs = f :: rest) (hne : f.conn ≠ c) :
    view (s.setLoop ℓ { s.loops ℓ with funcs := rest }) c = view s c := by
  obtain ⟨rest', hview, hrest⟩ := view_popFunctor hfuncs c
  rw [if_neg hne] at hrest
  rw [hview, ← hrest, Function.update_eq_self]

theorem view_popFrame {frame : Frame} {rest : List Frame}
    (hstack : (s.loops ℓ).stack = frame :: rest) (c : ConnId) :
    ∃ rest', view (s.setLoop ℓ { s.loops ℓ with stack := rest }) c =
        { view s c with stack := Function.update (view s c).stack ℓ rest' } ∧
      (view s c).stack ℓ = if frame.conn = c then frame :: rest' else rest' := by
  refine ⟨rest.filter (·.conn = c), ?_, ?_⟩
  · rw [view_setLoop]
    ext1 <;> simp [view]
  · simp only [view, hstack, List.filter_cons, decide_eq_true_eq]

theorem view_popFrame_ne {frame : Frame} {rest : List Frame}
    (hstack : (s.loops ℓ).stack = frame :: rest) (hne : frame.conn ≠ c) :
    view (s.setLoop ℓ { s.loops ℓ with stack := rest }) c = view s c := by
  obtain ⟨rest', hview, hrest⟩ := view_popFrame hstack c
  rw [if_neg hne] at hrest
  rw [hview, ← hrest, Function.update_eq_self]

theorem view_handleCloseInLoop_self :
    view (s.handleCloseInLoop c conn) c =
      View.queueInLoop { view s c with inSet := false } conn.loop (.connectDestroyed c) := by
  refine (view_queueInLoop_self (c := c) rfl).trans (congrArg (View.queueInLoop · _ _) ?_)
  ext1 <;> simp [view]

theorem view_handleCloseInLoop_ne {c' : ConnId} (hne : c' ≠ c) :
    view (s.handleCloseInLoop c conn) c' = view s c' := by
  refine (view_queueInLoop_ne (Ne.symm hne)).trans ?_
  ext1 <;> simp [view, hne]

theorem connectEstablished_kept (h : Kept s) {rest : List Functor}
    (hfuncs : (s.loops ℓ).funcs = .connectEstablished c :: rest)
    (hconn : s.conns[c]? = some conn) :
    Kept ((s.setLoop ℓ { s.loops ℓ with funcs := rest }).connectEstablished ℓ c conn) := by
  have hc : c < (s.setLoop ℓ { s.loops ℓ with funcs := rest }).conns.length := lt_of_conn hconn
  obtain ⟨rest', hview, hrest⟩ := view_popFunctor hfuncs c
  replace hrest := hrest.trans (if_pos rfl)
  have hsound := (h.sound hconn).connectEstablished hrest
  refine h.of_view (c := c) rfl (fun c' hne => ?_) ?_ hsound
  · exact (view_push_ne (Ne.symm hne)).trans ((view_setConn_ne hc hne).trans
      (view_popFunctor_ne hfuncs (Ne.symm hne)))
  · refine (view_push_self (c := c) rfl).trans (congrArg (View.push · _ _) ?_)
    rw [view_setConn_self hc, hview]

theorem connectDestroyed_kept (h : Kept s) {rest : List Functor}
    (hfuncs : (s.loops ℓ).funcs = .connectDestroyed c :: rest)
    (hhandling : (s.loops ℓ).handling = false) (hconn : s.conns[c]? = some conn) :
    Kept ((s.setLoop ℓ { s.loops ℓ with funcs := rest }).connectDestroyed ℓ c conn) := by
  have hc : c < (s.setLoop ℓ { s.loops ℓ with funcs := rest }).conns.length := lt_of_conn hconn
  obtain ⟨rest', hview, hrest⟩ := view_popFunctor hfuncs c
  replace hrest := hrest.trans (if_pos rfl)
  have hdestroyed := (h.sound hconn).destroyed ℓ (hrest ▸ List.mem_cons_self)
  have hstatus := ((h.sound hconn).closed hdestroyed.2).1
  have hsound := (h.sound hconn).remove hrest hhandling
  rw [Server.connectDestroyed, if_neg (by rw [hstatus]; decide)]
  refine h.of_view (c := c) rfl (fun c' hne => ?_) ?_ hsound
  · exact (view_setConn_ne hc hne).trans (view_popFunctor_ne hfuncs (Ne.symm hne))
  · exact (view_setConn_self hc).trans (by rw [hview])

theorem handleCloseInLoop_kept (h : Kept s) {rest : List Functor}
    (hfuncs : (s.loops ℓ).funcs = .handleCloseInLoop c :: rest)
    (hconn : s.conns[c]? = some conn) :
    Kept ((s.setLoop ℓ { s.loops ℓ with funcs := rest }).handleCloseInLoop c conn) := by
  obtain ⟨rest', hview, hrest⟩ := view_popFunctor hfuncs c
  replace hrest := hrest.trans (if_pos rfl)
  have hsound := (h.sound hconn).popHandleCloseInLoop hrest
  refine h.of_view (c := c) rfl (fun c' hne => ?_) ?_ hsound
  · exact (view_handleCloseInLoop_ne hne).trans (view_popFunctor_ne hfuncs (Ne.symm hne))
  · rw [view_handleCloseInLoop_self, hview]

theorem popRequest_kept (h : Kept s) {f : Functor} {rest : List Functor}
    (hfuncs : (s.loops ℓ).funcs = f :: rest) (hconn : s.conns[f.conn]? = some conn)
    (hf : f = .forceClose f.conn ∨ f = .shutdown f.conn ∨ f = .send f.conn) :
    Kept (s.setLoop ℓ { s.loops ℓ with funcs := rest }) := by
  obtain ⟨rest', hview, hrest⟩ := view_popFunctor hfuncs f.conn
  rw [if_pos rfl] at hrest
  exact h.of_view (c := f.conn) rfl (fun c' hne => view_popFunctor_ne hfuncs (Ne.symm hne)) hview
    ((h.sound hconn).popRequest hf hrest)

theorem connectionClosed_kept (h : Kept s) {rest : List Frame}
    (hstack : (s.loops ℓ).stack = .handleClose c :: rest) (hconn : s.conns[c]? = some conn) :
    Kept ((s.setLoop ℓ { s.loops ℓ with stack := rest }).connectionClosed ℓ c conn) := by
  obtain ⟨rest', hview, hrest⟩ := view_popFrame hstack c
  replace hrest := hrest.trans (if_pos rfl)
  obtain ⟨hqueued, hdirect⟩ := (h.sound hconn).popHandleClose hrest
  have hother : ∀ c', c' ≠ c → view (s.setLoop ℓ { s.loops ℓ with stack := rest }) c' = view s c' :=
    fun c' hne => view_popFrame_ne hstack (Ne.symm hne)
  rw [Server.connectionClosed]
  split
  · refine h.of_view (c := c) rfl (fun c' hne => ?_) ?_ hdirect
    · exact (view_handleCloseInLoop_ne hne).trans (hother c' hne)
    · rw [view_handleCloseInLoop_self, hview]
  · refine h.of_view (c := c) rfl (fun c' hne => ?_) ?_ hqueued
    · exact (view_queueInLoop_ne (Ne.symm hne)).trans (hother c' hne)
    · exact (view_queueInLoop_self (c := c) rfl).trans (congrArg (View.queueInLoop · _ _) hview)

omit [DecidableEq ι] in
theorem Unknown.not_mem {v : View ι} (h : Unknown v) {f : Functor} {ℓ : ι} : f ∉ v.funcs ℓ := by
  rw [h.funcs ℓ]
  exact List.not_mem_nil

theorem Unknown.connecting {base : ι} {v : View ι} (h : Unknown v)
    (hconn : conn.status = .Connecting) (hadded : conn.added = false)
    (hremoved : conn.removed = false) :
    Sound base c (View.queueInLoop { v with conn := some conn, inSet := true } conn.loop
      (.connectEstablished c)) conn :=
  have hnew {f : Functor} {ℓ : ι} (hmem : f ∈ (View.queueInLoop
      { v with conn := some conn, inSet := true } conn.loop (.connectEstablished c)).funcs ℓ) :
      ℓ = conn.loop ∧ f = .connectEstablished c :=
    (View.mem_queueInLoop.mp hmem).resolve_right h.not_mem
  have hstack {frame : Frame} {ℓ : ι} (hmem : frame ∈ v.stack ℓ) : False := by
    rw [h.stack ℓ] at hmem
    exact List.not_mem_nil hmem
  { known := rfl
    active := fun ℓ hactive => nomatch (h.active ℓ).symm.trans hactive
    established := fun ℓ hmem => ⟨(hnew hmem).1.symm, hconn⟩
    once := by
      intro ℓ
      rw [View.queueInLoop]
      rcases eq_or_ne ℓ conn.loop with rfl | hne
      · simp [h.funcs]
      · simp [Function.update_of_ne hne, h.funcs]
    connecting := fun _ => View.mem_queueInLoop.mpr (.inl ⟨rfl, rfl⟩)
    fresh := fun _ => ⟨hadded, h.held, fun ℓ => ⟨h.stack ℓ, fun hmem => nomatch (hnew hmem).2⟩⟩
    destroyed := fun ℓ hmem => nomatch (hnew hmem).2
    closing := fun ℓ hmem => nomatch (hnew hmem).2
    others := fun ℓ f hmem => .inl (hnew hmem).1.symm
    frames := fun ℓ frame hmem => (hstack hmem).elim
    events := fun ℓ hmem => (hstack hmem).elim
    closes := fun ℓ hmem => (hstack hmem).elim
    opened := fun _ => ⟨hremoved, fun hstatus => nomatch hconn.symm.trans hstatus⟩
    closed := nofun
    added := fun _ => hremoved }

theorem Unknown.established {base : ι} {v : View ι} (h : Unknown v)
    (hconn : conn.status = .Connected) (hremoved : conn.removed = false) :
    Sound base c (View.push { v with conn := some conn, inSet := true } conn.loop (.functor c))
      conn :=
  have hnew {frame : Frame} {ℓ : ι} (hmem : frame ∈ (View.push
      { v with conn := some conn, inSet := true } conn.loop (.functor c)).stack ℓ) :
      ℓ = conn.loop ∧ frame = .functor c := by
    refine (View.mem_push.mp hmem).resolve_right fun hold => ?_
    have hempty : frame ∈ v.stack ℓ := hold
    rw [h.stack ℓ] at hempty
    exact List.not_mem_nil hempty
  { known := rfl
    active := fun ℓ hactive => nomatch (h.active ℓ).symm.trans hactive
    established := fun ℓ hmem => absurd hmem h.not_mem
    once := fun ℓ => (List.count_eq_zero.mpr h.not_mem).trans_le (Nat.zero_le 1)
    connecting := fun hconnecting => nomatch hconn.symm.trans hconnecting
    fresh := fun hconnecting => nomatch hconn.symm.trans hconnecting
    destroyed := fun ℓ hmem => absurd hmem h.not_mem
    closing := fun ℓ hmem => absurd hmem h.not_mem
    others := fun ℓ f hmem => absurd hmem h.not_mem
    frames := fun ℓ frame hmem => ⟨(hnew hmem).1.symm, fun heq => nomatch heq.symm.trans (hnew hmem).2⟩
    events := fun ℓ hmem => nomatch (hnew hmem).2
    closes := fun ℓ hmem => nomatch (hnew hmem).2
    opened := fun _ => ⟨hremoved, fun hstatus => nomatch hconn.symm.trans hstatus⟩
    closed := nofun
    added := fun _ => hremoved }

theorem newConnection_kept (h : Kept s) (hstep : s.newConnection = some s') : Kept s' := by
  obtain ⟨ioLoop, -, rfl⟩ := Option.map_eq_some_iff.mp hstep
  have hunknown : Unknown (view s s.conns.length) := by
    have hgood := h s.conns.length
    rw [Good, show (view s s.conns.length).conn = none from List.getElem?_eq_none (Nat.le_refl _)]
      at hgood
    exact hgood
  simp only
  generalize hnew : (⟨ioLoop, .Connecting, false, false, false⟩ : Connection ι) = conn
  have hother : ∀ next c', c' ≠ s.conns.length → view { s with
      nextLoopIdx := next
      conns := s.conns ++ [conn]
      connSet := insert s.conns.length s.connSet } c' = view s c' := by
    intro next c' hne
    ext1
    case conn =>
      rcases Nat.lt_or_gt_of_ne hne with hlt | hgt
      · exact List.getElem?_append_left hlt
      · simp only [view]
        rw [List.getElem?_eq_none (by simp; omega), List.getElem?_eq_none (by omega)]
    case inSet => simp [view, hne]
    all_goals rfl
  have hself : ∀ next, view { s with
      nextLoopIdx := next
      conns := s.conns ++ [conn]
      connSet := insert s.conns.length s.connSet } s.conns.length =
        { view s s.conns.length with conn := some conn, inSet := true } := by
    intro next
    ext1
    case conn => simp [view]
    case inSet => simp [view]
    all_goals rfl
  split
  · have hc : s.conns.length < (s.conns ++ [conn]).length := by simp
    refine h.of_view (c := s.conns.length) rfl (fun c' hne => ?_) ?_
      (hunknown.established
        (show { conn with status := .Connected, events := true, added := true }.status = .Connected
          from rfl) (by rw [← hnew]))
    · exact (view_push_ne (Ne.symm hne)).trans ((view_setConn_ne hc hne).trans (hother _ c' hne))
    · subst hnew
      refine (view_push_self (c := s.conns.length) rfl).trans (congrArg (View.push · _ _) ?_)
      rw [view_setConn_self hc, hself]
  · refine h.of_view (c := s.conns.length) rfl (fun c' hne => ?_) ?_
      (hunknown.connecting (show conn.status = .Connecting by rw [← hnew]) (by rw [← hnew])
        (by rw [← hnew]))
    · exact (view_queueInLoop_ne (Ne.symm hne)).trans (hother _ c' hne)
    · subst hnew
      exact (view_queueInLoop_self (c := s.conns.length) rfl).trans
        (congrArg (View.queueInLoop · _ _) (hself _))

/-- A step that writes does so before the channel is removed. -/
def Careful (s : Server ι) : Action ι → Prop
  | .run ℓ true => ∀ c conn, (s.loops ℓ).funcs.head? = some (.send c) → s.conns[c]? = some conn →
      conn.removed = false
  | .request (some ℓ) (.send true) c => ∀ conn, s.conns[c]? = some conn → conn.loop = ℓ →
      conn.removed = false
  | _ => True

theorem poll_kept (h : Kept s) {active : List ConnId}
    (hstep : s.step (.poll ℓ active) = some s') : Kept s' := by
  simp only [Server.step, Option.ite_none_right_eq_some, Option.some.injEq] at hstep
  obtain ⟨⟨hhandling, hstack, hactive⟩, rfl⟩ := hstep
  intro c
  have hview : view (s.setLoop ℓ { s.loops ℓ with active, handling := true }) c = { view s c with
      active := Function.update (view s c).active ℓ (c ∈ active)
      handling := Function.update (view s c).handling ℓ true } := by
    rw [view_setLoop]
    ext1 <;> simp [view]
  have hgood := h c
  change Good s.loop c _
  rw [hview]
  cases hconn : s.conns[c]? with
  | none =>
      rw [Good, show (view s c).conn = none from hconn] at hgood ⊢
      have hmem : c ∉ active := by
        intro hmem
        have := hactive c hmem
        rw [hconn] at this
        cases this
      refine ⟨hgood.held, hgood.inSet, hgood.funcs, hgood.stack, fun ℓ' => ?_⟩
      simp [Function.update_apply, hmem, hgood.active]
  | some conn =>
      have hsound := h.sound hconn
      have hmem : c ∈ active → conn.loop = ℓ ∧ conn.added = true := by
        intro hmem
        have := hactive c hmem
        rw [hconn] at this
        simpa using this
      exact good_of_sound conn (hsound.polled fun hpolled => hmem (decide_eq_true_iff.mp hpolled))

theorem handled_kept (h : Kept s) (hstep : s.step (.handled ℓ) = some s') : Kept s' := by
  simp only [Server.step, Option.ite_none_right_eq_some, Option.some.injEq] at hstep
  obtain ⟨⟨hhandling, hactive, hstack⟩, rfl⟩ := hstep
  intro c
  have hview : view (s.setLoop ℓ { s.loops ℓ with handling := false }) c = { view s c with
      handling := Function.update (view s c).handling ℓ false } := by
    rw [view_setLoop]
    ext1 <;> simp [view]
  have hactive' : (view s c).active ℓ = false := by simp [view, hactive]
  have hstack' : (view s c).stack ℓ = [] := by simp [view, hstack]
  have hgood := h c
  change Good s.loop c _
  rw [hview]
  cases hconn : s.conns[c]? with
  | none =>
      rw [Good, show (view s c).conn = none from hconn] at hgood ⊢
      exact ⟨hgood.held, hgood.inSet, hgood.funcs, hgood.stack, hgood.active⟩
  | some conn =>
      exact good_of_sound conn ((h.sound hconn).handled hactive' hstack')

theorem handleEvent_kept (h : Kept s) (hstep : s.step (.handleEvent ℓ) = some s') : Kept s' := by
  simp only [Server.step] at hstep
  split at hstep
  · rename_i c₀ active hactive hstack
    obtain ⟨conn₀, hconn₀, rfl⟩ := Option.map_eq_some_iff.mp hstep
    have hpop : Kept (s.setLoop ℓ { s.loops ℓ with active }) := by
      intro c
      have hview : view (s.setLoop ℓ { s.loops ℓ with active }) c = { view s c with
          active := Function.update (view s c).active ℓ (c ∈ active) } := by
        rw [view_setLoop]
        ext1 <;> simp [view]
      have hfewer : ∀ ℓ', Function.update (view s c).active ℓ (c ∈ active : Bool) ℓ' = true →
          (view s c).active ℓ' = true := by
        intro ℓ' hpolled
        rcases eq_or_ne ℓ' ℓ with rfl | hne
        · rw [Function.update_self, decide_eq_true_iff] at hpolled
          simp [view, hactive, hpolled]
        · rw [Function.update_of_ne hne] at hpolled
          exact hpolled
      have hgood := h c
      change Good s.loop c _
      rw [hview]
      cases hconn : s.conns[c]? with
      | none =>
          rw [Good, show (view s c).conn = none from hconn] at hgood ⊢
          refine ⟨hgood.held, hgood.inSet, hgood.funcs, hgood.stack, fun ℓ' => ?_⟩
          by_contra hpolled
          exact nomatch (hgood.active ℓ').symm.trans (hfewer ℓ' (Bool.not_eq_false _ ▸ hpolled))
      | some conn =>
          have hsound := h.sound hconn
          exact good_of_sound conn
            { hsound with active := fun ℓ' hpolled => hsound.active ℓ' (hfewer ℓ' hpolled) }
    split
    · have hactive' := (h.sound hconn₀).active ℓ (by simp [view, hactive])
      have hsound : Sound s.loop c₀ (view (s.setLoop ℓ { s.loops ℓ with active }) c₀) conn₀ :=
        hpop.sound hconn₀
      have hhandling : (view (s.setLoop ℓ { s.loops ℓ with active }) c₀).handling ℓ = true := by
        rw [view_setLoop]
        simpa [view] using hactive'.2.2
      refine hpop.of_view (c := c₀) rfl (fun c' hne => view_push_ne (Ne.symm hne))
        (view_push_self (c := c₀) rfl) (?_ : Sound s.loop c₀ _ conn₀)
      generalize view (s.setLoop ℓ { s.loops ℓ with active }) c₀ = v at hsound hhandling
      exact hsound.handleEvent hactive'.1 hactive'.2.1 hhandling
    · exact hpop
  · cases hstep

theorem close_kept (h : Kept s) (hstep : s.step (.close ℓ) = some s') : Kept s' := by
  simp only [Server.step] at hstep
  split at hstep
  · rename_i c stack hstack
    obtain ⟨conn, hconn, rfl⟩ := Option.map_eq_some_iff.mp hstep
    have hsound := h.sound hconn
    have hmem : .handleEvent c ∈ (view s c).stack ℓ := by simp [view, hstack, Frame.conn]
    obtain rfl := (hsound.frames ℓ _ hmem).1
    have hadded := (hsound.events _ hmem).1
    refine handleClose_kept h hconn (hsound.added hadded) fun hstatus => ?_
    rw [(hsound.fresh hstatus).1] at hadded
    cases hadded
  · cases hstep

theorem return_kept (h : Kept s) (hstep : s.step (.return ℓ) = some s') : Kept s' := by
  simp only [Server.step] at hstep
  split at hstep
  · rename_i frame stack hstack
    obtain ⟨conn, hconn, rfl⟩ := Option.map_eq_some_iff.mp hstep
    have hpop : frame ≠ .handleClose frame.conn →
        Kept (s.setLoop ℓ { s.loops ℓ with stack }) := by
      intro hne
      obtain ⟨rest', hview, hrest⟩ := view_popFrame hstack frame.conn
      rw [if_pos rfl] at hrest
      exact h.of_view (c := frame.conn) rfl (fun c' hne => view_popFrame_ne hstack (Ne.symm hne))
        hview ((h.sound hconn).popFrame (absurd · hne) hrest)
    cases frame with
    | handleEvent c => exact hpop nofun
    | functor c => exact hpop nofun
    | handleClose c => exact connectionClosed_kept h hstack hconn
    | connectDestroyed c =>
        have hmem : .connectDestroyed c ∈ (view s c).stack ℓ := by simp [view, hstack, Frame.conn]
        exact absurd rfl ((h.sound hconn).frames ℓ _ hmem).2
  · cases hstep

theorem run_kept (h : Kept s) {left : Bool} (hcareful : Careful s (.run ℓ left))
    (hstep : s.step (.run ℓ left) = some s') : Kept s' := by
  simp only [Server.step] at hstep
  split at hstep
  · rename_i f rest hfuncs
    simp only [Option.ite_none_right_eq_some] at hstep
    obtain ⟨⟨hhandling, hstack⟩, hstep⟩ := hstep
    obtain ⟨conn, hconn, rfl⟩ := Option.map_eq_some_iff.mp hstep
    have hmem : f ∈ (view s f.conn).funcs ℓ := by simp [view, hfuncs]
    have hothers := (h.sound hconn).others ℓ f hmem
    cases f with
    | connectEstablished c => exact connectEstablished_kept h hfuncs hconn
    | connectDestroyed c => exact connectDestroyed_kept h hfuncs hhandling hconn
    | handleCloseInLoop c => exact handleCloseInLoop_kept h hfuncs hconn
    | forceClose c =>
        obtain rfl := hothers.resolve_right nofun
        exact forceClose_kept (popRequest_kept h hfuncs hconn (.inl rfl)) hconn
    | shutdown c =>
        obtain rfl := hothers.resolve_right nofun
        exact shutdown_kept (popRequest_kept h hfuncs hconn (.inr (.inl rfl))) hconn
    | send c =>
        obtain rfl := hothers.resolve_right nofun
        refine send_kept (popRequest_kept h hfuncs hconn (.inr (.inr rfl))) hconn ?_ fun hleft => ?_
        · exact fun hstatus => (((h.sound hconn).fresh hstatus).2.2 _).2 hmem
        subst hleft
        exact hcareful c conn (by rw [hfuncs]; rfl) hconn
  · cases hstep

omit [DecidableEq ι] in
theorem Kept.known_of_has (h : Kept s) {thread : Option ι} (hhas : s.Has thread c) :
    ∃ conn, s.conns[c]? = some conn ∧ conn.status ≠ .Connecting := by
  have hempty : ¬((view s c).held = 0 ∧ ∀ ℓ, (view s c).stack ℓ = []) := by
    rintro ⟨hheld, hstack⟩
    rcases hhas with hpos | ⟨ℓ, -, hmem⟩
    · exact absurd hheld (Nat.ne_of_gt hpos)
    · obtain ⟨frame, hframe, rfl⟩ := List.mem_map.mp hmem
      have hin : frame ∈ (view s frame.conn).stack ℓ := by simp [view, hframe]
      rw [hstack ℓ] at hin
      cases hin
  cases hconn : s.conns[c]? with
  | none =>
      have hgood := h c
      rw [Good, show (view s c).conn = none from hconn] at hgood
      exact absurd ⟨hgood.held, hgood.stack⟩ hempty
  | some conn =>
      refine ⟨conn, rfl, fun hstatus => hempty ?_⟩
      obtain ⟨-, hheld, hstack⟩ := (h.sound hconn).fresh hstatus
      exact ⟨hheld, fun ℓ => (hstack ℓ).1⟩

theorem request_kept (h : Kept s) {thread : Option ι} {request : Request}
    (hcareful : Careful s (.request thread request c))
    (hstep : s.step (.request thread request c) = some s') : Kept s' := by
  simp only [Server.step, Option.ite_none_right_eq_some] at hstep
  obtain ⟨hmay, hstep⟩ := hstep
  obtain ⟨conn, hconn, rfl⟩ := Option.map_eq_some_iff.mp hstep
  have hstatus : request ≠ .forceClose → conn.status ≠ .Connecting := by
    intro hne
    obtain ⟨conn', hconn', hstatus⟩ :=
      h.known_of_has (hmay.resolve_right fun hforce => hne hforce.1)
    obtain rfl := Option.some.inj (hconn.symm.trans hconn')
    exact hstatus
  split <;> rename_i hthread
  · subst hthread
    refine requestInLoop_kept h hconn hstatus fun hleft => ?_
    subst hleft
    exact hcareful conn hconn rfl
  · exact queueRequest_kept h hconn hstatus

omit [DecidableEq ι] in
theorem held_kept (h : Kept s) {thread : Option ι} (hhas : s.Has thread c) (n : Nat) :
    Kept { s with held := Function.update s.held c n } := by
  obtain ⟨conn, hconn, hstatus⟩ := h.known_of_has hhas
  have hsound : Sound s.loop c { view s c with held := n } conn :=
    { h.sound hconn with fresh := fun hconnecting => absurd hconnecting hstatus }
  refine h.of_view (c := c) rfl (fun c' hne => ?_) ?_ hsound
  · ext1 <;> simp [view, hne]
  · ext1 <;> simp [view]

theorem step_kept (h : Kept s) {a : Action ι} (hcareful : Careful s a)
    (hstep : s.step a = some s') : Kept s' := by
  cases a with
  | accept =>
      simp only [Server.step, Option.ite_none_right_eq_some] at hstep
      exact newConnection_kept h hstep.2
  | poll ℓ active => exact poll_kept h hstep
  | handleEvent ℓ => exact handleEvent_kept h hstep
  | close ℓ => exact close_kept h hstep
  | «return» ℓ => exact return_kept h hstep
  | handled ℓ => exact handled_kept h hstep
  | run ℓ left => exact run_kept h hcareful hstep
  | request thread request c => exact request_kept h hcareful hstep
  | copy thread c =>
      simp only [Server.step, Option.ite_none_right_eq_some, Option.some.injEq] at hstep
      obtain ⟨hhas, rfl⟩ := hstep
      exact held_kept h hhas _
  | drop c =>
      simp only [Server.step, Option.ite_none_right_eq_some, Option.some.injEq] at hstep
      obtain ⟨hheld, rfl⟩ := hstep
      exact held_kept h (show s.Has none c from .inl hheld) _

omit [DecidableEq ι] in
theorem init_kept (loop : ι) (ioLoops : List ι) : Kept (.init loop ioLoops) := by
  intro c
  exact ⟨rfl, rfl, fun _ => rfl, fun _ => rfl, fun _ => rfl⟩

theorem runSteps_kept (loop : ι) (ioLoops : List ι) {as : List (Action ι)}
    (hcareful : AllSteps Server.step Careful (.init loop ioLoops) as)
    (hrun : runSteps Server.step (.init loop ioLoops) as = some s) : Kept s :=
  hcareful.invariant Kept (fun _ _ _ h hc hstep => step_kept h hc hstep) (init_kept loop ioLoops)
    hrun

omit [DecidableEq ι] in
/-- Until its channel is removed the connection is kept by the server or by a functor. -/
theorem Kept.alive (h : Kept s) (hconn : s.conns[c]? = some conn)
    (hremoved : conn.removed = false) : s.Alive c := by
  have hsound := h.sound hconn
  cases hset : (view s c).inSet with
  | true => exact .inl (of_decide_eq_true hset)
  | false =>
      obtain ⟨-, hpending⟩ := hsound.closed hset
      have hmem := hpending.resolve_left (by rw [hremoved]; decide)
      refine .inr (.inr ⟨conn.loop, .inl ⟨_, (List.mem_filter.mp hmem).1, rfl⟩⟩)

/-- A pointer to a channel that the poller has, or that is left in `activeChannels_`, is one to the
channel of a connection that is not freed, in runs in which nothing writes after `remove`. -/
theorem runSteps_channels_alive (loop : ι) (ioLoops : List ι) {as : List (Action ι)}
    (hcareful : AllSteps Server.step Careful (.init loop ioLoops) as)
    (hrun : runSteps Server.step (.init loop ioLoops) as = some s) :
    (∀ ℓ, ∀ c ∈ (s.loops ℓ).active, s.Alive c) ∧
      ∀ c conn, s.conns[c]? = some conn → conn.added = true → s.Alive c := by
  have hkept := runSteps_kept loop ioLoops hcareful hrun
  have hadded : ∀ c conn, s.conns[c]? = some conn → conn.added = true → s.Alive c :=
    fun c conn hconn hadded => hkept.alive hconn ((hkept.sound hconn).added hadded)
  refine ⟨fun ℓ c hmem => ?_, hadded⟩
  have hactive : (view s c).active ℓ = true := decide_eq_true hmem
  cases hconn : s.conns[c]? with
  | none =>
      have hgood := hkept c
      rw [Good, show (view s c).conn = none from hconn] at hgood
      rw [hgood.active ℓ] at hactive
      cases hactive
  | some conn => exact hadded c conn hconn ((hkept.sound hconn).active ℓ hactive).2.1

/-- When no loop has anything to do for a connection, it is in `connSet_` if and only if it is open;
a closed one is in no poller, and is freed when the users have given up their pointers. -/
theorem runSteps_connSet (loop : ι) (ioLoops : List ι) {as : List (Action ι)}
    (hcareful : AllSteps Server.step Careful (.init loop ioLoops) as)
    (hrun : runSteps Server.step (.init loop ioLoops) as = some s)
    (hconn : s.conns[c]? = some conn)
    (hfuncs : ∀ ℓ, ∀ f ∈ (s.loops ℓ).funcs, f.conn ≠ c)
    (hstack : ∀ ℓ, ∀ frame ∈ (s.loops ℓ).stack, frame.conn ≠ c) :
    (c ∈ s.connSet ↔ conn.status = .Connected ∨ conn.status = .Disconnecting) ∧
      (c ∉ s.connSet → conn.added = false ∧ (s.Alive c ↔ 0 < s.held c)) := by
  have hsound := (runSteps_kept loop ioLoops hcareful hrun).sound hconn
  have hfuncs' : ∀ ℓ, (view s c).funcs ℓ = [] := by
    intro ℓ
    refine List.filter_eq_nil_iff.mpr fun f hf => ?_
    simpa using hfuncs ℓ f hf
  have hstack' : ∀ ℓ, (view s c).stack ℓ = [] := by
    intro ℓ
    refine List.filter_eq_nil_iff.mpr fun frame hframe => ?_
    simpa using hstack ℓ frame hframe
  have hclosed : c ∉ s.connSet → conn.status = .Disconnected ∧ conn.removed = true := by
    intro hset
    obtain ⟨hstatus, hremoved⟩ := hsound.closed (decide_eq_false hset)
    rw [hfuncs'] at hremoved
    exact ⟨hstatus, hremoved.resolve_right List.not_mem_nil⟩
  have hopen : c ∈ s.connSet → conn.status ≠ .Disconnected := by
    intro hset hstatus
    have hpending := (hsound.opened (decide_eq_true hset)).2 hstatus
    rw [hfuncs', hstack'] at hpending
    rcases hpending with hmem | hmem <;> cases hmem
  have hestablished : conn.status ≠ .Connecting := by
    intro hstatus
    have hmem := hsound.connecting hstatus
    rw [hfuncs'] at hmem
    cases hmem
  refine ⟨⟨fun hset => ?_, fun hstatus => ?_⟩, fun hset => ⟨?_, ?_⟩⟩
  · have hne := hopen hset
    cases hstatus : conn.status with
    | Disconnected => exact absurd hstatus hne
    | Connecting => exact absurd hstatus hestablished
    | Connected => exact .inl rfl
    | Disconnecting => exact .inr rfl
  · by_contra hset
    rw [(hclosed hset).1] at hstatus
    rcases hstatus with hstatus | hstatus <;> cases hstatus
  · by_contra hadded
    have hremoved := hsound.added (Bool.not_eq_false _ ▸ hadded)
    rw [(hclosed hset).2] at hremoved
    cases hremoved
  · constructor
    · rintro (hmem | hheld | ⟨ℓ, ⟨f, hf, hfc⟩ | ⟨frame, hframe, hfc⟩⟩)
      · exact absurd hmem hset
      · exact hheld
      · exact absurd hfc (hfuncs ℓ f hf)
      · exact absurd hfc (hstack ℓ frame hframe)
    · exact fun hheld => .inr (.inl hheld)

def sample : List (Action Bool) :=
  [.poll true [], .accept, .run false false, .return false, .poll false [0]]

theorem runSteps_channels_alive_sample :
    ∃ s, runSteps Server.step (.init true [false]) sample = some s ∧
      (s.loops false).active = [0] ∧ s.Alive 0 := by
  obtain ⟨s, hs, hactive⟩ := Option.map_eq_some_iff.mp
    (by decide : (runSteps Server.step (.init true [false]) sample).map
      (fun s => (s.loops false).active) = some [0])
  have hcareful : AllSteps Server.step Careful (.init true [false]) sample :=
    allSteps_of_forall (by simp [sample, Careful]) _
  refine ⟨s, hs, hactive, (runSteps_channels_alive true [false] hcareful hs).1 false 0 ?_⟩
  rw [hactive]
  exact List.mem_cons_self

def closing : List (Action Bool) :=
  sample ++ [.handleEvent false, .close false, .return false, .return false, .handled false,
    .handled true, .run true false, .run false false]

theorem runSteps_connSet_sample :
    ∃ s, runSteps Server.step (.init true [false]) closing = some s ∧ ¬s.Alive 0 := by
  obtain ⟨s, hs, hstate⟩ := Option.map_eq_some_iff.mp
    (by decide : (runSteps Server.step (.init true [false]) closing).map
      (fun s => (s.conns[0]?, s.connSet, s.held 0,
        decide (∀ ℓ, (s.loops ℓ).funcs = [] ∧ (s.loops ℓ).stack = []))) =
          some (some ⟨false, .Disconnected, false, false, true⟩, ∅, 0, true))
  simp only [Prod.mk.injEq, decide_eq_true_eq] at hstate
  obtain ⟨hconn, hset, hheld, hdone⟩ := hstate
  have hcareful : AllSteps Server.step Careful (.init true [false]) closing :=
    allSteps_of_forall (by simp [sample, closing, Careful]) _
  have hfreed := (runSteps_connSet true [false] hcareful hs hconn
    (fun ℓ => by simp [(hdone ℓ).1]) (fun ℓ => by simp [(hdone ℓ).2])).2 (by simp [hset])
  refine ⟨s, hs, fun halive => ?_⟩
  have := hfreed.2.mp halive
  omega

def sendingFile : List (Action Bool) :=
  sample ++ [.handleEvent false, .copy (some false) 0, .close false, .return false, .return false,
    .handled false, .handled true, .run true false, .run false false,
    .request none (.send true) 0, .run false true, .return false, .poll false [0], .drop 0]

theorem not_alive_of_write :
    ∃ s, runSteps Server.step (.init true [false]) sendingFile = some s ∧
      (s.loops false).active = [0] ∧ ¬s.Alive 0 := by
  obtain ⟨s, hs, hstate⟩ := Option.map_eq_some_iff.mp
    (by decide : (runSteps Server.step (.init true [false]) sendingFile).map
      (fun s => (s.connSet, s.held 0, (s.loops false).active,
        decide (∀ ℓ, (s.loops ℓ).funcs = [] ∧ (s.loops ℓ).stack = []))) =
          some (∅, 0, [0], true))
  simp only [Prod.mk.injEq, decide_eq_true_eq] at hstate
  obtain ⟨hset, hheld, hactive, hdone⟩ := hstate
  refine ⟨s, hs, hactive, ?_⟩
  rintro (hmem | hpos | ⟨ℓ, ⟨f, hf, -⟩ | ⟨frame, hframe, -⟩⟩)
  · simp [hset] at hmem
  · omega
  · simp [(hdone ℓ).1] at hf
  · simp [(hdone ℓ).2] at hframe

end Kept

end Cooper.TcpServer

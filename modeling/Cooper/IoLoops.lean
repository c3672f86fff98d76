import Cooper.RoundRobin
import Cooper.TcpServer

namespace Cooper.IoLoops

open Cooper.RoundRobin
open Cooper.StepRun
open Cooper.TcpServer

variable {ι : Type*} {s s' : Server ι} {c : ConnId} {ℓ : ι} {conn : Connection ι}

def assigned (s : Server ι) : List ι := s.conns.map Connection.loop

structure SameLoops (s s' : Server ι) : Prop where
  ioLoops : s'.ioLoops = s.ioLoops
  next : s'.nextLoopIdx = s.nextLoopIdx
  assigned : assigned s' = assigned s

theorem SameLoops.refl (s : Server ι) : SameLoops s s := ⟨rfl, rfl, rfl⟩

theorem SameLoops.trans {s'' : Server ι} (h : SameLoops s s') (h' : SameLoops s' s'') :
    SameLoops s s'' :=
  ⟨h'.ioLoops.trans h.ioLoops, h'.next.trans h.next, h'.assigned.trans h.assigned⟩

theorem setConn_sameLoops (hconn : s.conns[c]? = some conn) {conn' : Connection ι}
    (hloop : conn'.loop = conn.loop) : SameLoops s (s.setConn c conn') := by
  refine ⟨rfl, rfl, ?_⟩
  obtain ⟨hc, hget⟩ := List.getElem?_eq_some_iff.mp hconn
  rw [assigned, Server.setConn, List.map_set, hloop, ← hget]
  refine List.ext_getElem (by simp [assigned]) fun k hk hk' => ?_
  rw [List.getElem_set]
  split <;> rename_i heq
  · subst heq
    simp [assigned]
  · rfl

variable [DecidableEq ι]

theorem setLoop_sameLoops (s : Server ι) (ℓ : ι) (loop : Loop) : SameLoops s (s.setLoop ℓ loop) :=
  ⟨rfl, rfl, rfl⟩

theorem queueInLoop_sameLoops (s : Server ι) (ℓ : ι) (f : Functor) :
    SameLoops s (s.queueInLoop ℓ f) := setLoop_sameLoops s ℓ _

theorem push_sameLoops (s : Server ι) (ℓ : ι) (frame : Frame) : SameLoops s (s.push ℓ frame) :=
  setLoop_sameLoops s ℓ _

theorem setConn_push_sameLoops (hconn : s.conns[c]? = some conn) {conn' : Connection ι}
    (hloop : conn'.loop = conn.loop) (ℓ : ι) (frame : Frame) :
    SameLoops s ((s.setConn c conn').push ℓ frame) :=
  (setConn_sameLoops hconn hloop).trans (push_sameLoops _ ℓ frame)

theorem handleClose_sameLoops (hconn : s.conns[c]? = some conn) (ℓ : ι) :
    SameLoops s (s.handleClose ℓ c conn) := by
  exact setConn_push_sameLoops hconn (by rfl) ℓ _

theorem forceClose_sameLoops (hconn : s.conns[c]? = some conn) (ℓ : ι) :
    SameLoops s (s.forceClose ℓ c conn) := by
  rw [Server.forceClose]
  split
  · exact handleClose_sameLoops hconn ℓ
  · exact .refl s

omit [DecidableEq ι] in
theorem shutdown_sameLoops (hconn : s.conns[c]? = some conn) (left : Bool) :
    SameLoops s (s.shutdown c conn left) := by
  rw [Server.shutdown]
  split
  · exact setConn_sameLoops hconn rfl
  · exact .refl s

theorem send_sameLoops (hconn : s.conns[c]? = some conn) (ℓ : ι) (left : Bool) :
    SameLoops s (s.send ℓ c conn left) := by
  cases left with
  | false => exact push_sameLoops s ℓ _
  | true => exact setConn_push_sameLoops hconn (by rfl) ℓ _

theorem requestInLoop_sameLoops (hconn : s.conns[c]? = some conn) (ℓ : ι) (request : Request) :
    SameLoops s (s.requestInLoop ℓ c conn request) := by
  cases request with
  | forceClose => exact forceClose_sameLoops hconn ℓ
  | shutdown left => exact shutdown_sameLoops hconn left
  | send left => exact send_sameLoops hconn ℓ left

theorem connectEstablished_sameLoops (hconn : s.conns[c]? = some conn) (ℓ : ι) :
    SameLoops s (s.connectEstablished ℓ c conn) := by
  exact setConn_push_sameLoops hconn (by rfl) ℓ _

theorem connectDestroyed_sameLoops (hconn : s.conns[c]? = some conn) (ℓ : ι) :
    SameLoops s (s.connectDestroyed ℓ c conn) := by
  rw [Server.connectDestroyed]
  split
  · exact setConn_push_sameLoops hconn (by rfl) ℓ _
  · exact setConn_sameLoops hconn rfl

theorem handleCloseInLoop_sameLoops (s : Server ι) (c : ConnId) (conn : Connection ι) :
    SameLoops s (s.handleCloseInLoop c conn) :=
  ⟨rfl, rfl, rfl⟩

theorem connectionClosed_sameLoops (s : Server ι) (ℓ : ι) (c : ConnId) (conn : Connection ι) :
    SameLoops s (s.connectionClosed ℓ c conn) := by
  rw [Server.connectionClosed]
  split
  · exact handleCloseInLoop_sameLoops s c conn
  · exact queueInLoop_sameLoops s s.loop _

theorem runFunctor_sameLoops {f : Functor} (hconn : s.conns[f.conn]? = some conn) (ℓ : ι)
    (left : Bool) : SameLoops s (s.runFunctor ℓ conn left f) := by
  cases f with
  | connectEstablished c => exact connectEstablished_sameLoops hconn ℓ
  | connectDestroyed c => exact connectDestroyed_sameLoops hconn ℓ
  | handleCloseInLoop c => exact handleCloseInLoop_sameLoops s c conn
  | forceClose c => exact forceClose_sameLoops hconn ℓ
  | shutdown c => exact shutdown_sameLoops hconn left
  | send c => exact send_sameLoops hconn ℓ left

theorem returnFrame_sameLoops {frame : Frame} (hconn : s.conns[frame.conn]? = some conn) (ℓ : ι) :
    SameLoops s (s.returnFrame ℓ conn frame) := by
  cases frame with
  | handleEvent c | functor c => exact .refl s
  | handleClose c => exact connectionClosed_sameLoops s ℓ c conn
  | connectDestroyed c => exact setConn_sameLoops hconn rfl

theorem newConnection_assigned (h : s.newConnection = some s') :
    ∃ ioLoop, s.ioLoops[s.nextLoopIdx]? = some ioLoop ∧ s'.ioLoops = s.ioLoops ∧
      s'.nextLoopIdx = next s.ioLoops.length s.nextLoopIdx ∧
      assigned s' = assigned s ++ [ioLoop] := by
  obtain ⟨ioLoop, hioLoop, rfl⟩ := Option.map_eq_some_iff.mp h
  refine ⟨ioLoop, hioLoop, ?_⟩
  dsimp only
  set added : Server ι := { s with
    nextLoopIdx := next s.ioLoops.length s.nextLoopIdx
    conns := s.conns ++ [⟨ioLoop, .Connecting, false, false, false⟩]
    connSet := insert s.conns.length s.connSet } with hadded
  have hassigned : assigned added = assigned s ++ [ioLoop] := by simp [assigned, hadded]
  suffices hsame : SameLoops added (if ioLoop = s.loop then
      added.connectEstablished ioLoop s.conns.length ⟨ioLoop, .Connecting, false, false, false⟩
      else added.queueInLoop ioLoop (.connectEstablished s.conns.length)) by
    exact ⟨hsame.ioLoops, hsame.next, hsame.assigned.trans hassigned⟩
  split
  · exact connectEstablished_sameLoops (by simp [hadded]) ioLoop
  · exact queueInLoop_sameLoops added ioLoop _

theorem step_sameLoops {a : Action ι} (hne : a ≠ .accept) (hstep : s.step a = some s') :
    SameLoops s s' := by
  cases a with
  | accept => exact absurd rfl hne
  | poll ℓ active =>
      obtain ⟨-, hs'⟩ := Option.ite_none_right_eq_some.mp hstep
      obtain rfl := Option.some.inj hs'
      exact setLoop_sameLoops s ℓ _
  | handleEvent ℓ =>
      simp only [Server.step] at hstep
      split at hstep
      · obtain ⟨conn, -, rfl⟩ := Option.map_eq_some_iff.mp hstep
        split
        · exact (setLoop_sameLoops s ℓ _).trans (push_sameLoops _ ℓ _)
        · exact setLoop_sameLoops s ℓ _
      · cases hstep
  | close ℓ =>
      simp only [Server.step] at hstep
      split at hstep
      · obtain ⟨conn, hconn, rfl⟩ := Option.map_eq_some_iff.mp hstep
        exact handleClose_sameLoops hconn ℓ
      · cases hstep
  | «return» ℓ =>
      simp only [Server.step] at hstep
      split at hstep
      · obtain ⟨conn, hconn, rfl⟩ := Option.map_eq_some_iff.mp hstep
        refine (setLoop_sameLoops s ℓ _).trans (returnFrame_sameLoops ?_ ℓ)
        exact hconn
      · cases hstep
  | handled ℓ =>
      obtain ⟨-, hs'⟩ := Option.ite_none_right_eq_some.mp hstep
      obtain rfl := Option.some.inj hs'
      exact setLoop_sameLoops s ℓ _
  | run ℓ left =>
      simp only [Server.step] at hstep
      split at hstep
      · obtain ⟨-, hmap⟩ := Option.ite_none_right_eq_some.mp hstep
        obtain ⟨conn, hconn, rfl⟩ := Option.map_eq_some_iff.mp hmap
        refine (setLoop_sameLoops s ℓ _).trans (runFunctor_sameLoops ?_ ℓ left)
        exact hconn
      · cases hstep
  | request thread request c =>
      obtain ⟨-, hmap⟩ := Option.ite_none_right_eq_some.mp hstep
      obtain ⟨conn, hconn, rfl⟩ := Option.map_eq_some_iff.mp hmap
      split
      · exact requestInLoop_sameLoops hconn conn.loop request
      · exact queueInLoop_sameLoops s conn.loop _
  | copy thread c =>
      obtain ⟨-, hs'⟩ := Option.ite_none_right_eq_some.mp hstep
      obtain rfl := Option.some.inj hs'
      exact ⟨rfl, rfl, rfl⟩
  | drop c =>
      obtain ⟨-, hs'⟩ := Option.ite_none_right_eq_some.mp hstep
      obtain rfl := Option.some.inj hs'
      exact ⟨rfl, rfl, rfl⟩

/-- The index is that of the next turn, and the connections so far have had theirs. -/
structure InTurns (given : List ι) (s : Server ι) : Prop where
  ioLoops : s.ioLoops = given
  next : s.nextLoopIdx = (assigned s).length % given.length
  turns : Turns given (assigned s)

omit [DecidableEq ι] in
theorem init_inTurns (loop : ι) (ioLoops : List ι) : InTurns ioLoops (Server.init loop ioLoops) :=
  ⟨rfl, (Nat.zero_mod _).symm, turns_nil ioLoops⟩

theorem step_inTurns {ioLoops : List ι} {a : Action ι} (h : InTurns ioLoops s)
    (hstep : s.step a = some s') : InTurns ioLoops s' := by
  by_cases ha : a = .accept
  · subst ha
    obtain ⟨-, hnew⟩ := Option.ite_none_right_eq_some.mp hstep
    obtain ⟨ioLoop, hget, hioLoops, hnext, hassigned⟩ := newConnection_assigned hnew
    rw [h.ioLoops, h.next] at hget
    have hpos : 0 < ioLoops.length :=
      (Nat.zero_le _).trans_lt (List.getElem?_eq_some_iff.mp hget).1
    refine ⟨hioLoops.trans h.ioLoops, ?_, ?_⟩
    · rw [hnext, h.ioLoops, h.next, next_mod hpos, hassigned, List.length_append,
        List.length_singleton]
    · rw [hassigned]
      exact h.turns.concat hget
  · obtain ⟨hioLoops, hnext, hassigned⟩ := step_sameLoops ha hstep
    refine ⟨hioLoops.trans h.ioLoops, ?_, ?_⟩
    · rw [hnext, hassigned, h.next]
    · rw [hassigned]
      exact h.turns

/-- Of the connections that were made, each loop has had the same number, but for one more on the
first loops when the number of the loops does not divide theirs. -/
theorem runSteps_assigned (loop : ι) {ioLoops : List ι} (hnodup : ioLoops.Nodup)
    {as : List (Action ι)} (hrun : runSteps Server.step (.init loop ioLoops) as = some s) :
    (∀ k conn, s.conns[k]? = some conn → ioLoops[k % ioLoops.length]? = some conn.loop) ∧
      ∀ j, (hj : j < ioLoops.length) → s.conns.countP (fun conn => conn.loop = ioLoops[j]) =
        s.conns.length / ioLoops.length +
          if j < s.conns.length % ioLoops.length then 1 else 0 := by
  have h := runSteps_invariant (InTurns ioLoops) (fun s a s' h hstep => step_inTurns h hstep)
    (init_inTurns loop ioLoops) hrun
  constructor
  · intro k conn hconn
    exact h.turns k conn.loop (by rw [assigned, List.getElem?_map, hconn]; rfl)
  · intro j hj
    have hcount := h.turns.count hnodup hj
    rw [assigned, List.count, List.countP_map, List.length_map] at hcount
    rw [← hcount]
    refine List.countP_congr fun conn _ => ?_
    simp

theorem runSteps_assigned_sample :
    ∃ s, runSteps Server.step (.init 0 [1, 2])
        [.poll 0 [], .accept, .run 1 false, .accept, .accept] = some s ∧
      s.conns.countP (fun conn => conn.loop = 1) = 2 := by
  obtain ⟨s, hs, hlength⟩ := Option.map_eq_some_iff.mp
    (by decide : (runSteps Server.step (.init 0 [1, 2])
        [.poll 0 [], .accept, .run 1 false, .accept, .accept]).map
      (fun s => s.conns.length) = some 3)
  have hcount := (runSteps_assigned 0 (by decide : [1, 2].Nodup) hs).2 0 (by decide)
  rw [hlength] at hcount
  exact ⟨s, hs, hcount⟩

end Cooper.IoLoops

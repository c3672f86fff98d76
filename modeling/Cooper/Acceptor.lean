import Cooper.Descriptors
import Cooper.Progress

/-!
`Acceptor` in a process whose threads open and close descriptors of their own between its system
calls. `idleFd_` is there to be given up when no descriptor is left for a connection.
-/

namespace Cooper.Acceptor

open Cooper.Descriptors
open Cooper.Progress
open Cooper.StepRun

section Model

inductive Holder
  | idle
  | listening
  /-- a connection that `accept` returned to the acceptor -/
  | accepted
  /-- a connection that was given to `newConnectionCallback_` -/
  | given
  | other
  deriving DecidableEq

/-- Where the acceptor is: outside of its functions (`loop`), or before the system call that is
next in the constructor, in `readCallback` or in the destructor. -/
inductive Phase
  | openIdle
  | createSocket
  | loop
  | newConnection (fd : Nat)
  | closeIdle
  | acceptIdle
  | closeAccepted
  | reopenIdle
  | destroy
  | closeSocket
  | gone
  deriving DecidableEq

/-- A descriptor that is −1 is `none`. Of the connections that were taken off the backlog, some were
given to `newConnectionCallback_` and some were dropped. -/
structure Listener where
  fds : List (Option Holder)
  idleFd : Option Nat
  sock : Option Nat
  callback : Bool
  phase : Phase
  backlog : Nat
  taken : Nat
  given : Nat
  dropped : Nat

inductive Action
  /-- The acceptor makes its next system call, which may fail for reasons of its own. -/
  | acceptor (fails : Bool)
  | destroy
  /-- Another thread opens a descriptor. -/
  | open
  /-- Another thread closes one of its own. -/
  | close (fd : Nat)
  /-- A connection comes to the backlog. -/
  | arrive
  /-- One is given up by the peer. -/
  | leave
  deriving DecidableEq

namespace Listener

def init (fds : List (Option Holder)) (callback : Bool) (backlog : Nat) : Listener where
  fds
  idleFd := none
  sock := none
  callback
  phase := .openIdle
  backlog
  taken := 0
  given := 0
  dropped := 0

/-- `::close`, which does nothing to −1 -/
def closeFd (s : Listener) : Option Nat → Listener
  | none => s
  | some fd => { s with fds := close s.fds fd }

def openIdle (s : Listener) (fails : Bool) : Listener :=
  match fails, lowest s.fds with
  | false, some fd => { s with fds := take s.fds fd .idle, idleFd := some fd }
  | _, _ => { s with idleFd := none }

/-- `sock_.accept`, with the descriptor that it returns. A descriptor is looked for before a
connection. -/
def accept (s : Listener) (fails : Bool) : Listener × Option Nat :=
  match fails, lowest s.fds, s.backlog with
  | false, some fd, backlog + 1 =>
      ({ s with fds := take s.fds fd .accepted, backlog, taken := s.taken + 1 }, some fd)
  | _, _, _ => (s, none)

/-- The next step of the acceptor. With `fails` in `loop`, `errno` is not `EMFILE` behind the line
that logs the failure. -/
def acceptor (s : Listener) (fails : Bool) : Option Listener :=
  match s.phase with
  | .openIdle => some { s.openIdle fails with phase := .createSocket }
  | .createSocket =>
      match fails, lowest s.fds with
      | false, some fd => some { s with
          fds := take s.fds fd .listening
          sock := some fd
          phase := .loop }
      | _, _ => none
  | .loop =>
      match fails, lowest s.fds with
      | false, none => some { s with phase := .closeIdle }
      | _, _ =>
          match s.accept fails with
          | (s', some fd) => some { s' with phase := .newConnection fd }
          | (s', none) => some s'
  | .newConnection fd =>
      if s.callback then
        some { s with fds := take s.fds fd .given, given := s.given + 1, phase := .loop }
      else some { s.closeFd (some fd) with dropped := s.dropped + 1, phase := .loop }
  | .closeIdle => some { s.closeFd s.idleFd with phase := .acceptIdle }
  | .acceptIdle =>
      match s.accept fails with
      | (s', fd) => some { s' with idleFd := fd, phase := .closeAccepted }
  | .closeAccepted => some { s.closeFd s.idleFd with
      dropped := if s.idleFd.isSome then s.dropped + 1 else s.dropped
      phase := .reopenIdle }
  | .reopenIdle => some { s.openIdle fails with phase := .loop }
  | .destroy => some { s.closeFd s.idleFd with phase := .closeSocket }
  | .closeSocket => some { s.closeFd s.sock with phase := .gone }
  | .gone => none

def step (s : Listener) : Action → Option Listener
  | .acceptor fails => s.acceptor fails
  | .destroy => if s.phase = .loop then some { s with phase := .destroy } else none
  | .open => (lowest s.fds).map fun fd => { s with fds := take s.fds fd .other }
  | .close fd =>
      if holder s.fds fd = some .given ∨ holder s.fds fd = some .other then
        some (s.closeFd (some fd))
      else none
  | .arrive => some { s with backlog := s.backlog + 1 }
  | .leave => if 0 < s.backlog then some { s with backlog := s.backlog - 1 } else none

def closing (s : Listener) : Option Nat :=
  match s.phase with
  | .newConnection fd => if s.callback then none else some fd
  | .closeIdle | .closeAccepted | .destroy => s.idleFd
  | .closeSocket => s.sock
  | _ => none

end Listener

end Model

section Kept

variable {s s' : Listener} {fd : Nat}

def Holder.Ours (h : Holder) : Prop := h = .idle ∨ h = .listening ∨ h = .accepted

def owned (s : Listener) : Holder → Option Nat
  | .idle =>
      match s.phase with
      | .createSocket | .loop | .newConnection _ | .closeIdle | .destroy => s.idleFd
      | _ => none
  | .listening => if s.phase = .gone then none else s.sock
  | .accepted =>
      match s.phase with
      | .newConnection fd => some fd
      | .closeAccepted => s.idleFd
      | _ => none
  | .given | .other => none

def pending (s : Listener) : Nat := if (owned s .accepted).isSome then 1 else 0

structure Kept (s : Listener) : Prop where
  owns : Owns Holder.Ours s.fds (owned s)
  sock : s.phase = .openIdle ∨ s.phase = .createSocket → s.sock = none
  taken : s.taken = s.given + s.dropped + pending s

theorem init_kept {fds : List (Option Holder)} (hothers : ∀ fd h, holder fds fd = some h → ¬h.Ours)
    (callback : Bool) (backlog : Nat) : Kept (.init fds callback backlog) := by
  refine ⟨fun h hours fd => ?_, fun _ => rfl, rfl⟩
  constructor
  · exact fun hholder => absurd hours (hothers fd h hholder)
  · intro howned
    rcases hours with rfl | rfl | rfl <;> cases howned

theorem Kept.take (h : Kept s) {a : Holder} (hfree : Free s.fds fd) (ha : owned s a = none)
    (hfds : s'.fds = take s.fds fd a) (howned : owned s' = Function.update (owned s) a (some fd))
    (hsock : s'.phase = .openIdle ∨ s'.phase = .createSocket → s'.sock = none)
    (htaken : s'.taken = s'.given + s'.dropped + pending s') : Kept s' := by
  refine ⟨?_, hsock, htaken⟩
  rw [hfds, howned]
  exact h.owns.take hfree ha

theorem Kept.closeFd (h : Kept s) {a : Holder} (hours : a.Ours)
    (hfds : s'.fds = (s.closeFd (owned s a)).fds)
    (howned : owned s' = Function.update (owned s) a none)
    (hsock : s'.phase = .openIdle ∨ s'.phase = .createSocket → s'.sock = none)
    (htaken : s'.taken = s'.given + s'.dropped + pending s') : Kept s' := by
  refine ⟨?_, hsock, htaken⟩
  rw [hfds, howned]
  cases ha : owned s a with
  | none =>
      rw [Function.update_eq_self_iff.mpr ha.symm]
      exact h.owns
  | some fd => exact h.owns.close hours ha

theorem Kept.same (h : Kept s) (hfds : s'.fds = s.fds) (howned : owned s' = owned s)
    (hsock : s'.phase = .openIdle ∨ s'.phase = .createSocket → s'.sock = none)
    (htaken : s'.taken = s'.given + s'.dropped + pending s') : Kept s' := by
  refine ⟨?_, hsock, htaken⟩
  rw [hfds, howned]
  exact h.owns

theorem openIdle_cases (s : Listener) (fails : Bool) :
    s.openIdle fails = { s with idleFd := none } ∨
      ∃ fd, Free s.fds fd ∧ s.openIdle fails =
        { s with fds := Descriptors.take s.fds fd .idle, idleFd := some fd } := by
  unfold Listener.openIdle
  split
  · rename_i fd hlowest
    exact .inr ⟨fd, lowest_free hlowest, rfl⟩
  · exact .inl rfl

theorem accept_cases (s : Listener) (fails : Bool) :
    s.accept fails = (s, none) ∨ ∃ fd, Free s.fds fd ∧ 0 < s.backlog ∧ s.accept fails =
      ({ s with
        fds := Descriptors.take s.fds fd .accepted
        backlog := s.backlog - 1
        taken := s.taken + 1 }, some fd) := by
  unfold Listener.accept
  split
  · rename_i fd backlog hlowest hbacklog
    refine .inr ⟨fd, lowest_free hlowest, by omega, ?_⟩
    rw [hbacklog]
    rfl
  · exact .inl rfl

theorem acceptor_kept (h : Kept s) {fails : Bool} (hstep : s.acceptor fails = some s') :
    Kept s' := by
  have htaken := h.taken
  unfold Listener.acceptor at hstep
  split at hstep
  case h_1 hphase =>
      obtain rfl := Option.some.inj hstep
      have hnone : s.sock = none := h.sock (.inl hphase)
      have hidle : owned s .idle = none := by simp [owned, hphase]
      rcases openIdle_cases s fails with heq | ⟨fd, hfree, heq⟩
      · rw [heq]
        refine h.same rfl ?_ (fun _ => hnone) (by simpa [pending, owned, hphase] using htaken)
        funext k
        cases k <;> simp [owned, hphase]
      · rw [heq]
        refine h.take hfree hidle rfl ?_ (fun _ => hnone)
          (by simpa [pending, owned, hphase] using htaken)
        funext k
        cases k <;> simp [owned, hphase]
  case h_2 hphase =>
      have hnone : s.sock = none := h.sock (.inr hphase)
      split at hstep
      · rename_i fd hlowest
        obtain rfl := Option.some.inj hstep
        refine h.take (lowest_free hlowest) ?_ rfl ?_ nofun
          (by simpa [pending, owned, hphase] using htaken)
        · simp [owned, hnone]
        · funext k
          cases k <;> simp [owned, hphase]
      · cases hstep
  case h_3 hphase =>
      split at hstep
      · obtain rfl := Option.some.inj hstep
        refine h.same rfl ?_ nofun (by simpa [pending, owned, hphase] using htaken)
        funext k
        cases k <;> simp [owned, hphase]
      · rename_i fails _ _ _
        rcases accept_cases s fails with heq | ⟨fd, hfree, -, heq⟩
        · rw [heq] at hstep
          obtain rfl := Option.some.inj hstep
          exact h
        · rw [heq] at hstep
          obtain rfl := Option.some.inj hstep
          refine h.take hfree (a := .accepted) (by simp [owned, hphase]) rfl ?_ nofun ?_
          · funext k
            cases k <;> simp [owned, hphase]
          · simp only [pending, owned, hphase, Option.isSome_some, if_true] at htaken ⊢
            simp at htaken
            omega
  case h_4 fd hphase =>
      have hfd : owned s .accepted = some fd := by simp [owned, hphase]
      split at hstep
      · obtain rfl := Option.some.inj hstep
        refine ⟨?_, nofun, ?_⟩
        · have howned := h.owns.give (b := .given) (.inr (.inr rfl)) hfd (by simp [Holder.Ours])
          convert howned using 1
          funext k
          cases k <;> simp [owned, hphase]
        · simp [pending, owned, hphase] at htaken ⊢
          omega
      · obtain rfl := Option.some.inj hstep
        refine h.closeFd (a := .accepted) (.inr (.inr rfl)) (by rw [hfd]) ?_ nofun ?_
        · funext k
          cases k <;> simp [owned, hphase, Listener.closeFd]
        · simp [pending, owned, hphase, Listener.closeFd] at htaken ⊢
          omega
  case h_5 hphase =>
      obtain rfl := Option.some.inj hstep
      refine h.closeFd (a := .idle) (.inl rfl) (by simp [owned, hphase]) ?_ nofun ?_
      · funext k
        cases k <;> cases hidle : s.idleFd <;> simp [owned, hphase, Listener.closeFd]
      · cases hidle : s.idleFd <;> simpa [pending, owned, hphase, Listener.closeFd] using htaken
  case h_6 hphase =>
      rcases accept_cases s fails with heq | ⟨fd, hfree, -, heq⟩
      · rw [heq] at hstep
        obtain rfl := Option.some.inj hstep
        refine h.same rfl ?_ nofun (by simpa [pending, owned, hphase] using htaken)
        funext k
        cases k <;> simp [owned, hphase]
      · rw [heq] at hstep
        obtain rfl := Option.some.inj hstep
        refine h.take hfree (a := .accepted) (by simp [owned, hphase]) rfl ?_ nofun ?_
        · funext k
          cases k <;> simp [owned, hphase]
        · simp [pending, owned, hphase] at htaken ⊢
          omega
  case h_7 hphase =>
      obtain rfl := Option.some.inj hstep
      refine h.closeFd (a := .accepted) (.inr (.inr rfl)) (by simp [owned, hphase]) ?_ nofun ?_
      · funext k
        cases k <;> cases hidle : s.idleFd <;> simp [owned, hphase, Listener.closeFd]
      · cases hidle : s.idleFd <;> simp [pending, owned, hphase, hidle, Listener.closeFd] at htaken ⊢
        all_goals omega
  case h_8 hphase =>
      rcases openIdle_cases s fails with heq | ⟨fd, hfree, heq⟩
      · rw [heq] at hstep
        obtain rfl := Option.some.inj hstep
        refine h.same rfl ?_ nofun (by simpa [pending, owned, hphase] using htaken)
        funext k
        cases k <;> simp [owned, hphase]
      · rw [heq] at hstep
        obtain rfl := Option.some.inj hstep
        refine h.take hfree (a := .idle) (by simp [owned, hphase]) rfl ?_ nofun
          (by simpa [pending, owned, hphase] using htaken)
        funext k
        cases k <;> simp [owned, hphase]
  case h_9 hphase =>
      obtain rfl := Option.some.inj hstep
      refine h.closeFd (a := .idle) (.inl rfl) (by simp [owned, hphase]) ?_ nofun ?_
      · funext k
        cases k <;> cases hidle : s.idleFd <;> simp [owned, hphase, Listener.closeFd]
      · cases hidle : s.idleFd <;> simpa [pending, owned, hphase, Listener.closeFd] using htaken
  case h_10 hphase =>
      obtain rfl := Option.some.inj hstep
      refine h.closeFd (a := .listening) (.inr (.inl rfl)) (by simp [owned, hphase]) ?_ nofun ?_
      · funext k
        cases k <;> cases hsock : s.sock <;> simp [owned, hphase]
      · cases hsock : s.sock <;> simpa [pending, owned, hphase, Listener.closeFd] using htaken
  case h_11 => cases hstep

theorem step_kept (h : Kept s) {a : Action} (hstep : s.step a = some s') : Kept s' := by
  cases a with
  | acceptor fails => exact acceptor_kept h hstep
  | destroy =>
      obtain ⟨hphase, hs'⟩ := Option.ite_none_right_eq_some.mp hstep
      obtain rfl := Option.some.inj hs'
      refine h.same rfl ?_ nofun (by simpa [pending, owned, hphase] using h.taken)
      funext k
      cases k <;> simp [owned, hphase]
  | «open» =>
      obtain ⟨fd, hlowest, rfl⟩ := Option.map_eq_some_iff.mp hstep
      exact ⟨h.owns.take_other (lowest_free hlowest) (by simp [Holder.Ours]), h.sock, h.taken⟩
  | close fd =>
      obtain ⟨hholder, hs'⟩ := Option.ite_none_right_eq_some.mp hstep
      obtain rfl := Option.some.inj hs'
      refine ⟨?_, h.sock, h.taken⟩
      rcases hholder with hholder | hholder
      · exact h.owns.close_other hholder (by simp [Holder.Ours])
      · exact h.owns.close_other hholder (by simp [Holder.Ours])
  | arrive =>
      obtain rfl := Option.some.inj hstep
      exact ⟨h.owns, h.sock, h.taken⟩
  | leave =>
      obtain ⟨-, hs'⟩ := Option.ite_none_right_eq_some.mp hstep
      obtain rfl := Option.some.inj hs'
      exact ⟨h.owns, h.sock, h.taken⟩

theorem closing_owned {fd : Nat} (h : s.closing = some fd) :
    ∃ k : Holder, k.Ours ∧ owned s k = some fd := by
  unfold Listener.closing at h
  split at h
  case h_1 fd' hphase =>
      obtain ⟨-, hfd⟩ := Option.ite_none_left_eq_some.mp h
      exact ⟨.accepted, .inr (.inr rfl), by simp only [owned, hphase, hfd]⟩
  case h_2 hphase => exact ⟨.idle, .inl rfl, by simp only [owned, hphase, h]⟩
  case h_3 hphase => exact ⟨.accepted, .inr (.inr rfl), by simp only [owned, hphase, h]⟩
  case h_4 hphase => exact ⟨.idle, .inl rfl, by simp only [owned, hphase, h]⟩
  case h_5 hphase => exact ⟨.listening, .inr (.inl rfl), by simp [owned, hphase, h]⟩
  case h_6 => cases h

variable {fds : List (Option Holder)} {callback : Bool} {backlog : Nat} {as : List Action}

theorem runSteps_kept (hothers : ∀ fd h, holder fds fd = some h → ¬h.Ours)
    (hrun : runSteps Listener.step (.init fds callback backlog) as = some s) : Kept s :=
  runSteps_invariant Kept (fun _ _ _ h hstep => step_kept h hstep)
    (init_kept hothers callback backlog) hrun

/-- Whatever other threads open and close in between, the acceptor closes only descriptors of its
own; outside of its functions it has none but `idleFd_` and that of `sock_`, and it leaves none
behind. Each connection that it took was given to `newConnectionCallback_`, or dropped. -/
theorem runSteps_owns (hothers : ∀ fd h, holder fds fd = some h → ¬h.Ours)
    (hrun : runSteps Listener.step (.init fds callback backlog) as = some s) :
    (∀ fd, s.closing = some fd → ∃ h : Holder, h.Ours ∧ holder s.fds fd = some h) ∧
      (s.phase = .loop → (∀ fd, holder s.fds fd = some .idle ↔ s.idleFd = some fd) ∧
        (∀ fd, holder s.fds fd = some .listening ↔ s.sock = some fd) ∧
        (∀ fd, holder s.fds fd ≠ some .accepted) ∧ s.taken = s.given + s.dropped) ∧
      (s.phase = .gone → ∀ fd h, holder s.fds fd = some h → ¬h.Ours) := by
  have h := runSteps_kept hothers hrun
  refine ⟨fun fd hclosing => ?_, fun hphase => ⟨fun fd => ?_, fun fd => ?_, fun fd hfd => ?_, ?_⟩,
    fun hphase fd k hholder hours => ?_⟩
  · obtain ⟨k, hours, hfd⟩ := closing_owned hclosing
    exact ⟨k, hours, (h.owns k hours fd).mpr hfd⟩
  · simpa [owned, hphase] using h.owns .idle (.inl rfl) fd
  · simpa [owned, hphase] using h.owns .listening (.inr (.inl rfl)) fd
  · have howned := (h.owns .accepted (.inr (.inr rfl)) fd).mp hfd
    simp [owned, hphase] at howned
  · simpa [pending, owned, hphase] using h.taken
  · have howned := (h.owns k hours fd).mp hholder
    rcases hours with rfl | rfl | rfl <;> simp [owned, hphase] at howned

def sampleFds : List (Option Holder) := [some .other, none, none]

theorem sampleFds_others (fd : Nat) (h : Holder) (hholder : holder sampleFds fd = some h) :
    ¬h.Ours := by
  have hmem := List.mem_of_getElem? (holder_eq_some_iff.mp hholder)
  have hh : h = .other := by simpa [sampleFds] using hmem
  simp [hh, Holder.Ours]

theorem runSteps_owns_sample :
    ∃ s, runSteps Listener.step (.init sampleFds true 1)
        [.acceptor false, .acceptor false, .acceptor false] = some s ∧
      s.closing = some 1 ∧ ∃ h : Holder, h.Ours ∧ holder s.fds 1 = some h := by
  obtain ⟨s, hs, hclosing⟩ := Option.map_eq_some_iff.mp
    (by decide : (runSteps Listener.step (.init sampleFds true 1)
        [.acceptor false, .acceptor false, .acceptor false]).map Listener.closing = some (some 1))
  exact ⟨s, hs, hclosing, (runSteps_owns sampleFds_others hs).1 1 hclosing⟩

end Kept

section Dropping

variable {s s' : Listener} {fd : Nat}

def Own (a : Action) : Prop := ∃ fails, a = .acceptor fails

/-- The acceptor's next system call does not fail for reasons of its own. -/
def Unfailing (a : Action) : Prop := a = .acceptor false

theorem Unfailing.own {a : Action} (h : Unfailing a) : Own a := ⟨false, h⟩

/-- With no descriptor left, the one of `idleFd_` is given up for a connection, which is closed at
once, and is opened again. -/
theorem leads_drop (h : Kept s) (hphase : s.phase = .loop) (hfull : lowest s.fds = none)
    (hidle : s.idleFd = some fd) (hbacklog : 0 < s.backlog) :
    Leads Listener.step Unfailing s fun s' => s' = { s with
      backlog := s.backlog - 1
      taken := s.taken + 1
      dropped := s.dropped + 1 } := by
  obtain ⟨fds, idleFd, sock, callback, phase, backlog, taken, given, dropped⟩ := s
  dsimp only at hphase hfull hidle hbacklog
  subst hphase hidle
  obtain ⟨backlog, rfl⟩ := Nat.exists_eq_succ_of_ne_zero (Nat.ne_of_gt hbacklog)
  have hholder : holder fds fd = some .idle :=
    (h.owns .idle (.inl rfl) fd).mpr (by simp [owned])
  have hlowest := lowest_close hholder hfull
  have hagain : ∀ k : Holder, close (take (close fds fd) fd k) fd = close fds fd := by
    intro k
    simp only [take, close, List.set_set]
  refine .next rfl (by simp only [Listener.step, Listener.acceptor, hfull]; rfl) ?_
  refine .next rfl (by simp only [Listener.step, Listener.acceptor, Listener.closeFd]; rfl) ?_
  refine .next rfl
    (by simp only [Listener.step, Listener.acceptor, Listener.accept, hlowest]; rfl) ?_
  refine .next rfl (by simp only [Listener.step, Listener.acceptor, Listener.closeFd]; rfl) ?_
  refine .next rfl
    (by simp only [Listener.step, Listener.acceptor, Listener.openIdle, hagain, hlowest]; rfl) ?_
  refine .here ?_
  simp [take_close hholder]

theorem leads_newConnection (hphase : s.phase = .loop) (hfree : Free s.fds fd)
    (hbacklog : 0 < s.backlog) :
    Leads Listener.step Unfailing s fun s' => s'.phase = .loop ∧ s'.backlog < s.backlog := by
  obtain ⟨fd', hlowest⟩ := hfree.lowest
  obtain ⟨backlog, hbacklog'⟩ := Nat.exists_eq_succ_of_ne_zero (Nat.ne_of_gt hbacklog)
  refine .next rfl
    (by simp only [Listener.step, Listener.acceptor, hphase, Listener.accept, hlowest, hbacklog']; rfl) ?_
  cases s.callback with
  | true =>
      refine .next rfl
        (by simp only [Listener.step, Listener.acceptor, if_true]; rfl) (.here ?_)
      exact ⟨rfl, by dsimp only; omega⟩
  | false =>
      refine .next rfl
        (by simp only [Listener.step, Listener.acceptor]; rfl) (.here ?_)
      exact ⟨rfl, by dsimp only [Listener.closeFd]; omega⟩

structure Stuck (b : Nat) (s : Listener) : Prop where
  full : lowest s.fds = none
  idleFd : s.idleFd = none
  phase : s.phase = .loop ∨ s.phase = .closeIdle ∨ s.phase = .acceptIdle ∨
    s.phase = .closeAccepted ∨ s.phase = .reopenIdle
  backlog : b ≤ s.backlog

theorem acceptor_stuck {b : Nat} (h : Stuck b s) {fails : Bool}
    (hstep : s.acceptor fails = some s') : Stuck b s' := by
  obtain ⟨hfull, hidle, hphase, hbacklog⟩ := h
  have haccept : s.accept fails = (s, none) := by
    rcases accept_cases s fails with heq | ⟨fd, hfree, -⟩
    · exact heq
    · exact absurd hfree (lowest_eq_none_iff.mp hfull fd)
  have hopen : s.openIdle fails = { s with idleFd := none } := by
    rcases openIdle_cases s fails with heq | ⟨fd, hfree, -⟩
    · exact heq
    · exact absurd hfree (lowest_eq_none_iff.mp hfull fd)
  rcases hphase with hphase | hphase | hphase | hphase | hphase
  all_goals
    simp only [Listener.acceptor, hphase, hfull, haccept, hopen, hidle, Listener.closeFd] at hstep
  case inl =>
      split at hstep <;> obtain rfl := Option.some.inj hstep
      · exact ⟨hfull, rfl, .inr (.inl rfl), hbacklog⟩
      · exact ⟨hfull, hidle, .inl hphase, hbacklog⟩
  all_goals
    obtain rfl := Option.some.inj hstep
    exact ⟨hfull, by simp, by simp, hbacklog⟩

variable {fds : List (Option Holder)} {callback : Bool} {backlog : Nat} {as : List Action}

theorem leads_less (hkept : Kept s) (hphase : s.phase = .loop) (hbacklog : 0 < s.backlog)
    (hroom : (∃ fd, Free s.fds fd) ∨ s.idleFd ≠ none) :
    Leads Listener.step Unfailing s (fun s' => s'.phase = .loop ∧ s'.backlog < s.backlog) := by
  cases hlowest : lowest s.fds with
  | some fd => exact leads_newConnection hphase (lowest_free hlowest) hbacklog
  | none =>
      have hidle := hroom.resolve_left (not_exists.mpr (lowest_eq_none_iff.mp hlowest))
      obtain ⟨fd, hfd⟩ := Option.ne_none_iff_exists'.mp hidle
      refine (leads_drop hkept hphase hlowest hfd hbacklog).mono fun s' hs' => ?_
      subst hs'
      exact ⟨hphase, by dsimp only; omega⟩

/-- When no other thread has a turn, connections that wait are taken off the backlog if and only if
a descriptor is left or `idleFd_` is there to be given up: then in the run in which no call fails,
and else in none. -/
theorem leads_backlog_iff (hothers : ∀ fd h, holder fds fd = some h → ¬h.Ours)
    (hrun : runSteps Listener.step (.init fds callback backlog) as = some s)
    (hphase : s.phase = .loop) (hbacklog : 0 < s.backlog) :
    (Leads Listener.step Unfailing s (fun s' => s'.phase = .loop ∧ s'.backlog < s.backlog) ↔
        (∃ fd, Free s.fds fd) ∨ s.idleFd ≠ none) ∧
      (Leads Listener.step Own s (fun s' => s'.phase = .loop ∧ s'.backlog < s.backlog) ↔
        (∃ fd, Free s.fds fd) ∨ s.idleFd ≠ none) := by
  have hkept := runSteps_kept hothers hrun
  have honly : Leads Listener.step Own s (fun s' => s'.phase = .loop ∧ s'.backlog < s.backlog) →
      (∃ fd, Free s.fds fd) ∨ s.idleFd ≠ none := by
    intro hleads
    by_contra hnot
    obtain ⟨hfree, hidle⟩ := not_or.mp hnot
    have hstuck : Stuck s.backlog s :=
      ⟨lowest_eq_none_iff.mpr (not_exists.mp hfree), not_not.mp hidle, .inl hphase, Nat.le_refl _⟩
    refine not_leads (Stuck s.backlog) ?_ ?_ hstuck hleads
    · rintro s₁ _ s₂ h ⟨fails, rfl⟩ hstep
      exact acceptor_stuck h hstep
    · exact fun s' h hless => absurd hless.2 (Nat.not_lt.mpr h.backlog)
  have htakes := leads_less hkept hphase hbacklog
  refine ⟨⟨fun hleads => honly (hleads.allow fun _ => Unfailing.own), htakes⟩, honly, ?_⟩
  exact fun hroom => (htakes hroom).allow fun _ => Unfailing.own

theorem leads_backlog_iff_sample :
    ∃ s, runSteps Listener.step (.init sampleFds true 1) [.acceptor false, .acceptor false] =
        some s ∧
      Leads Listener.step Unfailing s fun s' => s'.phase = .loop ∧ s'.backlog < s.backlog := by
  obtain ⟨s, hs, hstate⟩ := Option.map_eq_some_iff.mp
    (by decide : (runSteps Listener.step (.init sampleFds true 1)
        [.acceptor false, .acceptor false]).map (fun s => (s.phase, s.backlog, s.idleFd)) =
          some (.loop, 1, some 1))
  simp only [Prod.mk.injEq] at hstate
  obtain ⟨hphase, hbacklog, hidle⟩ := hstate
  refine ⟨s, hs, (leads_backlog_iff sampleFds_others hs hphase (by omega)).1.mpr (.inr ?_)⟩
  rw [hidle]
  nofun

end Dropping

section IdleFd

variable {s s' : Listener}

/-- `/dev/null` can be opened when the acceptor opens it: in the constructor a descriptor is left,
and no other thread takes the one that `readCallback` has given up. -/
def Careful (s : Listener) : Action → Prop
  | .acceptor fails =>
      (s.phase = .openIdle → fails = false ∧ ∃ fd, Free s.fds fd) ∧
        (s.phase = .reopenIdle → fails = false)
  | .open => s.phase ≠ .acceptIdle ∧ s.phase ≠ .closeAccepted ∧ s.phase ≠ .reopenIdle
  | _ => True

instance (s : Listener) : (a : Action) → Decidable (Careful s a)
  | .acceptor fails =>
      inferInstanceAs (Decidable ((s.phase = .openIdle → fails = false ∧ ∃ fd, Free s.fds fd) ∧
        (s.phase = .reopenIdle → fails = false)))
  | .open =>
      inferInstanceAs (Decidable (s.phase ≠ .acceptIdle ∧ s.phase ≠ .closeAccepted ∧ _))
  | .destroy | .close _ | .arrive | .leave => isTrue trivial

def Reserved (s : Listener) : Prop :=
  match s.phase with
  | .openIdle | .closeSocket | .gone => True
  | .acceptIdle | .reopenIdle => ∃ fd, Free s.fds fd
  | .closeAccepted => s.idleFd ≠ none ∨ ∃ fd, Free s.fds fd
  | _ => s.idleFd ≠ none

theorem Reserved.of_free (h : Reserved s) (hphase : s'.phase = s.phase)
    (hidle : s'.idleFd = s.idleFd) (hfree : ∀ fd, Free s.fds fd → Free s'.fds fd) :
    Reserved s' := by
  have hexists : (∃ fd, Free s.fds fd) → ∃ fd, Free s'.fds fd :=
    fun ⟨fd, h⟩ => ⟨fd, hfree fd h⟩
  unfold Reserved at h ⊢
  rw [hphase, hidle]
  cases hs : s.phase <;> simp only [hs] at h ⊢
  case acceptIdle | reopenIdle => exact hexists h
  case closeAccepted => exact h.imp_right hexists
  all_goals exact h

theorem openIdle_of_free {fd : Nat} (hfree : Free s.fds fd) : (s.openIdle false).idleFd ≠ none := by
  obtain ⟨fd', hlowest⟩ := hfree.lowest
  simp [Listener.openIdle, hlowest]

theorem acceptor_reserved (h : Kept s) (hs : Reserved s) {fails : Bool}
    (hcareful : Careful s (.acceptor fails)) (hstep : s.acceptor fails = some s') :
    Reserved s' := by
  unfold Listener.acceptor at hstep
  unfold Reserved at hs
  split at hstep
  case h_1 hphase =>
      obtain rfl := Option.some.inj hstep
      obtain ⟨rfl, fd, hfree⟩ := hcareful.1 hphase
      exact openIdle_of_free hfree
  case h_2 hphase =>
      rw [hphase] at hs
      split at hstep
      · obtain rfl := Option.some.inj hstep
        exact hs
      · cases hstep
  case h_3 hphase =>
      rw [hphase] at hs
      split at hstep
      · obtain rfl := Option.some.inj hstep
        exact hs
      · rename_i fails _ _ _
        rcases accept_cases s fails with heq | ⟨fd, -, -, heq⟩
        · rw [heq] at hstep
          obtain rfl := Option.some.inj hstep
          simpa [Reserved, hphase] using hs
        · rw [heq] at hstep
          obtain rfl := Option.some.inj hstep
          exact hs
  case h_4 fd hphase =>
      rw [hphase] at hs
      split at hstep <;> obtain rfl := Option.some.inj hstep <;> exact hs
  case h_5 hphase =>
      rw [hphase] at hs
      obtain rfl := Option.some.inj hstep
      obtain ⟨fd, hfd⟩ := Option.ne_none_iff_exists'.mp hs
      have hholder := (h.owns .idle (.inl rfl) fd).mpr (by simp [owned, hphase, hfd])
      refine ⟨fd, ?_⟩
      rw [hfd]
      exact (free_close (lt_of_holder hholder) fd).mpr (.inl rfl)
  case h_6 hphase =>
      rw [hphase] at hs
      rcases accept_cases s fails with heq | ⟨fd, -, -, heq⟩
      · rw [heq] at hstep
        obtain rfl := Option.some.inj hstep
        exact .inr hs
      · rw [heq] at hstep
        obtain rfl := Option.some.inj hstep
        exact .inl (by simp)
  case h_7 hphase =>
      rw [hphase] at hs
      obtain rfl := Option.some.inj hstep
      cases hidle : s.idleFd with
      | none =>
          obtain ⟨fd, hfree⟩ := hs.resolve_left (not_not.mpr hidle)
          exact ⟨fd, hfree⟩
      | some fd =>
          have hholder := (h.owns .accepted (.inr (.inr rfl)) fd).mpr (by simp [owned, hphase, hidle])
          exact ⟨fd, (free_close (lt_of_holder hholder) fd).mpr (.inl rfl)⟩
  case h_8 hphase =>
      rw [hphase] at hs
      obtain rfl := Option.some.inj hstep
      obtain ⟨fd, hfree⟩ := hs
      rw [hcareful.2 hphase]
      exact openIdle_of_free hfree
  case h_9 hphase =>
      obtain rfl := Option.some.inj hstep
      trivial
  case h_10 hphase =>
      obtain rfl := Option.some.inj hstep
      trivial
  case h_11 => cases hstep

theorem step_reserved (h : Kept s) (hs : Reserved s) {a : Action} (hcareful : Careful s a)
    (hstep : s.step a = some s') : Reserved s' := by
  cases a with
  | acceptor fails => exact acceptor_reserved h hs hcareful hstep
  | destroy =>
      obtain ⟨hphase, hs'⟩ := Option.ite_none_right_eq_some.mp hstep
      obtain rfl := Option.some.inj hs'
      simpa [Reserved, hphase] using hs
  | «open» =>
      obtain ⟨fd, hlowest, rfl⟩ := Option.map_eq_some_iff.mp hstep
      obtain ⟨hacceptIdle, hcloseAccepted, hreopenIdle⟩ := hcareful
      unfold Reserved at hs ⊢
      split <;> rename_i hphase <;> simp_all
  | close fd =>
      obtain ⟨hholder, hs'⟩ := Option.ite_none_right_eq_some.mp hstep
      obtain rfl := Option.some.inj hs'
      have hlt : fd < s.fds.length := by
        rcases hholder with hholder | hholder <;> exact lt_of_holder hholder
      exact hs.of_free rfl rfl fun fd' h => (free_close hlt fd').mpr (.inr h)
  | arrive =>
      obtain rfl := Option.some.inj hstep
      exact hs
  | leave =>
      obtain ⟨-, hs'⟩ := Option.ite_none_right_eq_some.mp hstep
      obtain rfl := Option.some.inj hs'
      exact hs

variable {fds : List (Option Holder)} {callback : Bool} {backlog : Nat} {as : List Action}

/-- Where `/dev/null` can be opened each time, `idleFd_` is never lost, and so connections that wait
are always taken off the backlog. -/
theorem runSteps_idleFd (hothers : ∀ fd h, holder fds fd = some h → ¬h.Ours)
    (hcareful : AllSteps Listener.step Careful (.init fds callback backlog) as)
    (hrun : runSteps Listener.step (.init fds callback backlog) as = some s)
    (hphase : s.phase = .loop) :
    s.idleFd ≠ none ∧ (0 < s.backlog →
      Leads Listener.step Unfailing s fun s' => s'.phase = .loop ∧ s'.backlog < s.backlog) := by
  have hreserved : Kept s ∧ Reserved s := by
    refine hcareful.invariant (fun s => Kept s ∧ Reserved s) ?_
      ⟨init_kept hothers callback backlog, trivial⟩ hrun
    exact fun s a s' h hcareful hstep => ⟨step_kept h.1 hstep, step_reserved h.1 h.2 hcareful hstep⟩
  have hidle : s.idleFd ≠ none := by
    have hs := hreserved.2
    rwa [Reserved, hphase] at hs
  exact ⟨hidle, fun hbacklog => leads_less hreserved.1 hphase hbacklog (.inr hidle)⟩

def dropping : List Action :=
  [.acceptor false, .acceptor false, .acceptor false, .acceptor false, .acceptor false,
    .acceptor false, .acceptor false]

theorem runSteps_idleFd_sample :
    ∃ s, runSteps Listener.step (.init sampleFds true 2) dropping = some s ∧ s.dropped = 1 ∧
      s.idleFd ≠ none ∧
      Leads Listener.step Unfailing s fun s' => s'.phase = .loop ∧ s'.backlog < s.backlog := by
  obtain ⟨s, hs, hstate⟩ := Option.map_eq_some_iff.mp
    (by decide : (runSteps Listener.step (.init sampleFds true 2) dropping).map
        (fun s => (s.phase, s.backlog, s.dropped)) = some (.loop, 1, 1))
  simp only [Prod.mk.injEq] at hstate
  obtain ⟨hphase, hbacklog, hdropped⟩ := hstate
  have hcareful : AllSteps Listener.step Careful (.init sampleFds true 2) dropping := by decide
  obtain ⟨hidle, hleads⟩ := runSteps_idleFd sampleFds_others hcareful hs hphase
  exact ⟨s, hs, hdropped, hidle, hleads (by omega)⟩

/-- Another thread takes the descriptor that was given up, and `idleFd_` is −1 from then on. -/
theorem idleFd_lost :
    (runSteps Listener.step (.init sampleFds true 1)
        [.acceptor false, .acceptor false, .acceptor false, .acceptor false, .open,
          .acceptor false, .acceptor false, .acceptor false]).map
      (fun s => (s.phase, s.backlog, s.idleFd, lowest s.fds)) = some (.loop, 1, none, none) := by
  decide

end IdleFd

end Cooper.Acceptor

import Cooper.EpollPoller
import Mathlib

/-!
`EventLoop::loop` as it polls and handles events. The kernel reports registered descriptors that are
ready, as many as `events_` has room for, and the channels that they belong to are handled one after
the other. Callbacks may change the events of any channel, also of one that is still to be handled.
-/

namespace Cooper.ActiveChannels

open Cooper.EpollPoller
open Cooper.StepRun

section Model

def POLLIN : Events := 0x001

def POLLPRI : Events := 0x002

def POLLOUT : Events := 0x004

def POLLERR : Events := 0x008

def POLLHUP : Events := 0x010

def POLLNVAL : Events := 0x020

def POLLRDHUP : Events := 0x2000

def kInitEventListSize : Nat := 16

inductive Callback
  | closeCallback
  | errorCallback
  | readCallback
  | writeCallback
  deriving DecidableEq

/-- The callbacks that `handleEventSafely` makes of those that are set. No channel has an
`eventCallback_`. -/
def handleEventSafely (isSet : Callback → Bool) (revents : Events) : List Callback :=
  List.filter isSet
    ((if revents &&& POLLHUP ≠ 0 ∧ revents &&& POLLIN = 0 then [.closeCallback] else []) ++
      ((if revents &&& (POLLNVAL ||| POLLERR) ≠ 0 then [.errorCallback] else []) ++
        ((if revents &&& (POLLIN ||| POLLPRI ||| POLLRDHUP) ≠ 0 then [.readCallback] else []) ++
          if revents &&& POLLOUT ≠ 0 then [.writeCallback] else [])))

structure Loop (ι : Type*) where
  poller : Poller ι
  /-- `events_.size()` -/
  eventListSize : Nat
  revents : ι → Events
  /-- the end of `activeChannels_` that `handleEvent` has not been called on -/
  activeChannels : List ι
  /-- the callbacks that the event of `currentActiveChannel_` has still to make -/
  callbacks : List (ι × Callback)

def Loop.init (ι : Type*) : Loop ι where
  poller := .init ι
  eventListSize := kInitEventListSize
  revents := fun _ => 0
  activeChannels := []
  callbacks := []

inductive Action (ι : Type*)
  /-- `ready` are the conditions of the descriptors, `order` the channels that are reported. -/
  | poll (ready : ι → Events) (order : List ι)
  /-- `guard` says whether the object that the channel is tied to is still there, if it is tied. -/
  | handleEvent (guard : Bool)
  /-- The next callback, which makes operations on channels. -/
  | callback (ops : List (ι × ChannelOp))
  /-- `doRunInLoopFuncs` -/
  | functors (ops : List (ι × ChannelOp))

variable {ι : Type*} [DecidableEq ι] (fd : ι ↪ Nat) (isSet : ι → Callback → Bool)

def reported (poller : Poller ι) (ready : ι → Events) (c : ι) : Events :=
  match poller.interest (fd c) with
  | some events => ready c &&& (events ||| POLLERR ||| POLLHUP)
  | none => 0

def fillActiveChannels : List (ι × Events) → Loop ι → Option (Loop ι)
  | [], s => some s
  | (c, events) :: rest, s =>
      if s.poller.channels (fd c) = some c then
        fillActiveChannels rest { s with
          revents := Function.update s.revents c events
          activeChannels := s.activeChannels ++ [c] }
      else none

def poll (events : List (ι × Events)) (s : Loop ι) : Option (Loop ι) :=
  if 0 < events.length then
    (fillActiveChannels fd events s).map fun s =>
      if events.length = s.eventListSize then { s with eventListSize := s.eventListSize * 2 } else s
  else some s

def handleEvent (guard : Bool) (c : ι) (s : Loop ι) : Loop ι :=
  if (s.poller.channel c).events = kNoneEvent then s
  else if guard then
    { s with callbacks := (handleEventSafely (isSet c) (s.revents c)).map (c, ·) }
  else s

def runOps (ops : List (ι × ChannelOp)) (s : Loop ι) : Option (Loop ι) :=
  (runSteps (EpollPoller.step fd) s.poller ops).map fun poller => { s with poller }

/-- There is no result where an assertion fails, or where the step is not possible. -/
def step (s : Loop ι) : Action ι → Option (Loop ι)
  | .poll ready order =>
      if s.activeChannels = [] ∧ s.callbacks = [] ∧ order.Nodup ∧ order.length ≤ s.eventListSize ∧
          ∀ c ∈ order, reported fd s.poller ready c ≠ 0 then
        poll fd (order.map fun c => (c, reported fd s.poller ready c)) s
      else none
  | .handleEvent guard =>
      match s.callbacks, s.activeChannels with
      | [], c :: rest => some (handleEvent isSet guard c { s with activeChannels := rest })
      | _, _ => none
  | .callback ops =>
      match s.callbacks with
      | _ :: rest => runOps fd ops { s with callbacks := rest }
      | [] => none
  | .functors ops => if s.activeChannels = [] ∧ s.callbacks = [] then runOps fd ops s else none

end Model

section Poll

variable {ι : Type*} [DecidableEq ι] {fd : ι ↪ Nat} {s s' : Loop ι} {ready : ι → Events}
  {order : List ι} {c : ι}

theorem fillActiveChannels_eq (events : ι → Events) (order : List ι) :
    ∀ s : Loop ι, (∀ c ∈ order, s.poller.channels (fd c) = some c) →
      fillActiveChannels fd (order.map fun c => (c, events c)) s = some { s with
        revents := fun c => if c ∈ order then events c else s.revents c
        activeChannels := s.activeChannels ++ order } := by
  induction order with
  | nil =>
      intro s hmapped
      simp [fillActiveChannels]
  | cons c rest ih =>
      intro s hmapped
      obtain ⟨hc, hrest⟩ := List.forall_mem_cons.mp hmapped
      rw [List.map_cons, fillActiveChannels, if_pos hc]
      refine (ih { s with
        revents := Function.update s.revents c (events c)
        activeChannels := s.activeChannels ++ [c] } hrest).trans ?_
      rw [List.append_assoc]
      congr 2
      funext d
      simp only
      by_cases hd : d ∈ rest
      · rw [if_pos hd, if_pos (List.mem_cons_of_mem c hd)]
      · rw [if_neg hd]
        rcases eq_or_ne d c with rfl | hne
        · rw [Function.update_self, if_pos List.mem_cons_self]
        · rw [Function.update_of_ne hne, if_neg]
          exact fun hmem => (List.mem_cons.mp hmem).elim hne hd

omit [DecidableEq ι] in
theorem channels_of_reported (hs : s.poller.Consistent fd)
    (hreported : reported fd s.poller ready c ≠ 0) : s.poller.channels (fd c) = some c := by
  have hinterest := hs.interest c
  rw [reported] at hreported
  split at hreported
  · rename_i events hevents
    rw [hevents, Channel.registered] at hinterest
    split at hinterest
    · rename_i hadded
      rw [hs.channels c, Channel.mapped, hadded]
      rfl
    · cases hinterest
  · exact absurd rfl hreported

/-- The assertion of `fillActiveChannels` holds. -/
theorem poll_eq (hs : s.poller.Consistent fd)
    (hreported : ∀ c ∈ order, reported fd s.poller ready c ≠ 0) :
    poll fd (order.map fun c => (c, reported fd s.poller ready c)) s = some { s with
      revents := fun c => if c ∈ order then reported fd s.poller ready c else s.revents c
      activeChannels := s.activeChannels ++ order
      eventListSize :=
        if 0 < order.length ∧ order.length = s.eventListSize then s.eventListSize * 2
        else s.eventListSize } := by
  have hmapped : ∀ c ∈ order, s.poller.channels (fd c) = some c :=
    fun c hc => channels_of_reported hs (hreported c hc)
  rw [poll, List.length_map, fillActiveChannels_eq (reported fd s.poller ready) order s hmapped]
  by_cases hpos : 0 < order.length
  · rw [if_pos hpos, Option.map_some]
    by_cases hfull : order.length = s.eventListSize
    · simp only [hfull, if_true, and_true]
      rw [if_pos (hfull ▸ hpos)]
    · simp only [hfull, if_false, and_false]
  · have hnil : order = [] := List.eq_nil_of_length_eq_zero (by omega)
    subst hnil
    simp

end Poll

section Rounds

variable {ι : Type*} [DecidableEq ι] {fd : ι ↪ Nat} {isSet : ι → Callback → Bool}
  {s s' : Loop ι} {t : Action ι} {as bs : List (Action ι)} {ready : ι → Events} {order : List ι}
  {c : ι}

def Usual (events : Events) : Prop :=
  events ∈ [kNoneEvent, kReadEvent, kWriteEvent, kReadEvent ||| kWriteEvent]

instance (events : Events) : Decidable (Usual events) := inferInstanceAs (Decidable (_ ∈ _))

theorem usual_apply {events : Events} (h : Usual events) (op : ChannelOp) :
    Usual (op.apply events) := by
  simp only [Usual, List.mem_cons, List.not_mem_nil, or_false] at h
  rcases h with rfl | rfl | rfl | rfl <;> cases op <;> decide

/-- What holds between two steps. -/
structure Sound (fd : ι ↪ Nat) (s : Loop ι) : Prop where
  consistent : s.poller.Consistent fd
  usual : ∀ c, Usual (s.poller.channel c).events

omit [DecidableEq ι] in
theorem sound_init (fd : ι ↪ Nat) : Sound fd (.init ι) where
  consistent := consistent_init
  usual := fun _ => List.mem_cons_self

theorem usual_next {channel channel' : Channel} {op : ChannelOp} (h : Usual channel.events)
    (hnext : channel.next op = some channel') : Usual channel'.events := by
  by_cases hremove : op = .remove
  · subst hremove
    obtain ⟨-, hnext⟩ := Option.ite_none_right_eq_some.mp hnext
    obtain rfl := Option.some.inj hnext
    exact List.mem_cons_self
  · rw [Channel.next_of_ne_remove hremove] at hnext
    obtain rfl := Option.some.inj hnext
    exact usual_apply h op

theorem runOps_spec (hs : Sound fd s) {ops : List (ι × ChannelOp)}
    (h : runOps fd ops s = some s') : Sound fd s' ∧ ∃ poller, s' = { s with poller } := by
  obtain ⟨poller, hrun, rfl⟩ := Option.map_eq_some_iff.mp h
  have hkept := runSteps_invariant
    (fun poller => poller.Consistent fd ∧ ∀ c, Usual (poller.channel c).events) ?_
    ⟨hs.consistent, hs.usual⟩ hrun
  · exact ⟨⟨hkept.1, hkept.2⟩, poller, rfl⟩
  · rintro poller ⟨c, op⟩ poller' ⟨hconsistent, husual⟩ hstep
    refine ⟨step_consistent hconsistent hstep, fun d => ?_⟩
    rw [step_eq hconsistent] at hstep
    obtain ⟨channel, hnext, rfl⟩ := Option.map_eq_some_iff.mp hstep
    change Usual (Function.update poller.channel c channel d).events
    rcases eq_or_ne d c with rfl | hne
    · rw [Function.update_self]
      exact usual_next (husual d) hnext
    · rw [Function.update_of_ne hne]
      exact husual d

def Action.polls : Action ι → Bool
  | .poll _ _ => true
  | _ => false

omit [DecidableEq ι] in
theorem Action.polls_or (t : Action ι) :
    t.polls = false ∨ ∃ ready order, t = .poll ready order := by
  cases t with
  | poll ready order => exact .inr ⟨ready, order, rfl⟩
  | handleEvent guard => exact .inl rfl
  | callback ops => exact .inl rfl
  | functors ops => exact .inl rfl

theorem step_quiet (hs : Sound fd s) (hpolls : t.polls = false)
    (h : step fd isSet s t = some s') : Sound fd s' ∧ s'.eventListSize = s.eventListSize := by
  cases t with
  | poll ready order => cases hpolls
  | handleEvent guard =>
      simp only [step] at h
      split at h
      · obtain rfl := Option.some.inj h
        rw [handleEvent]
        split
        · exact ⟨⟨hs.consistent, hs.usual⟩, rfl⟩
        · split
          · exact ⟨⟨hs.consistent, hs.usual⟩, rfl⟩
          · exact ⟨⟨hs.consistent, hs.usual⟩, rfl⟩
      · cases h
  | callback ops =>
      simp only [step] at h
      split at h
      · rename_i call rest hcallbacks
        have hrest : Sound fd { s with callbacks := rest } := ⟨hs.consistent, hs.usual⟩
        obtain ⟨hs', poller, rfl⟩ := runOps_spec hrest h
        exact ⟨hs', rfl⟩
      · cases h
  | functors ops =>
      obtain ⟨-, h⟩ := Option.ite_none_right_eq_some.mp h
      obtain ⟨hs', poller, rfl⟩ := runOps_spec hs h
      exact ⟨hs', rfl⟩

theorem step_sound (hs : Sound fd s) (h : step fd isSet s t = some s') : Sound fd s' := by
  rcases t.polls_or with hpolls | ⟨ready, order, rfl⟩
  · exact (step_quiet hs hpolls h).1
  · obtain ⟨⟨-, -, -, -, hreported⟩, h⟩ := Option.ite_none_right_eq_some.mp h
    rw [poll_eq hs.consistent hreported] at h
    obtain rfl := Option.some.inj h
    exact ⟨hs.consistent, hs.usual⟩

theorem runSteps_sound (h : runSteps (step fd isSet) (.init ι) as = some s) :
    Sound fd s :=
  runSteps_invariant (Sound fd) (fun _ _ _ => step_sound) (sound_init fd) h

omit [DecidableEq ι] in
theorem reported_eq (hs : Sound fd s) (hreported : reported fd s.poller ready c ≠ 0) :
    reported fd s.poller ready c =
      ready c &&& ((s.poller.channel c).events ||| POLLERR ||| POLLHUP) := by
  have hinterest := hs.consistent.interest c
  rw [reported] at hreported ⊢
  split
  · rename_i events hevents
    rw [hevents, Channel.registered] at hinterest
    split at hinterest
    · rw [Option.some.inj hinterest]
    · cases hinterest
  · rename_i hnone
    rw [hnone] at hreported
    exact absurd rfl hreported

theorem readCallback_mem {isSet : Callback → Bool} {revents : Events}
    (h : .readCallback ∈ handleEventSafely isSet revents) :
    revents &&& (POLLIN ||| POLLPRI ||| POLLRDHUP) ≠ 0 := by
  have hmem := (List.mem_filter.mp h).1
  simpa only [List.mem_append, List.mem_ite_nil_right, List.mem_singleton, reduceCtorEq, and_false,
    false_or, or_false, and_true] using hmem

theorem writeCallback_mem {isSet : Callback → Bool} {revents : Events}
    (h : .writeCallback ∈ handleEventSafely isSet revents) : revents &&& POLLOUT ≠ 0 := by
  have hmem := (List.mem_filter.mp h).1
  simpa only [List.mem_append, List.mem_ite_nil_right, List.mem_singleton, reduceCtorEq, and_false,
    false_or, and_true] using hmem

omit [DecidableEq ι] in
theorem and_reported (hs : Sound fd s) (hreported : reported fd s.poller ready c ≠ 0)
    {bits : Events} (hbits : ((s.poller.channel c).events ||| POLLERR ||| POLLHUP) &&& bits = 0) :
    reported fd s.poller ready c &&& bits = 0 := by
  rw [reported_eq hs hreported, BitVec.and_assoc, hbits]
  exact BitVec.and_zero

omit [DecidableEq ι] in
theorem reading_of_readCallback (hs : Sound fd s) (hreported : reported fd s.poller ready c ≠ 0)
    {isSet : Callback → Bool}
    (h : .readCallback ∈ handleEventSafely isSet (reported fd s.poller ready c)) :
    (s.poller.channel c).events &&& kReadEvent ≠ 0 := by
  intro hnone
  refine readCallback_mem h (and_reported hs hreported ?_)
  have husual := hs.usual c
  simp only [Usual, List.mem_cons, List.not_mem_nil, or_false] at husual
  rcases husual with heq | heq | heq | heq <;> rw [heq] at hnone ⊢ <;> first | rfl | cases hnone

omit [DecidableEq ι] in
theorem writing_of_writeCallback (hs : Sound fd s) (hreported : reported fd s.poller ready c ≠ 0)
    {isSet : Callback → Bool}
    (h : .writeCallback ∈ handleEventSafely isSet (reported fd s.poller ready c)) :
    (s.poller.channel c).events &&& kWriteEvent ≠ 0 := by
  intro hnone
  refine writeCallback_mem h (and_reported hs hreported ?_)
  have husual := hs.usual c
  simp only [Usual, List.mem_cons, List.not_mem_nil, or_false] at husual
  rcases husual with heq | heq | heq | heq <;> rw [heq] at hnone ⊢ <;> first | rfl | cases hnone

def calls (isSet : ι → Callback → Bool) (revents : ι → Events) (c : ι) : List (ι × Callback) :=
  (handleEventSafely (isSet c) (revents c)).map (c, ·)

def due (isSet : ι → Callback → Bool) (s : Loop ι) : List (ι × Callback) :=
  s.callbacks ++ s.activeChannels.flatMap (calls isSet s.revents)

def makes (s : Loop ι) : Action ι → List (ι × Callback)
  | .callback _ => s.callbacks.head?.toList
  | _ => []

def made (fd : ι ↪ Nat) (isSet : ι → Callback → Bool) (s : Loop ι) :
    List (Action ι) → List (ι × Callback)
  | [] => []
  | t :: ts => makes s t ++ (step fd isSet s t).elim [] fun s' => made fd isSet s' ts

/-- The next channel has no events any more when its turn comes, or has lost the object that it is
tied to, though it has callbacks to make. -/
def Skips (isSet : ι → Callback → Bool) (s : Loop ι) : Action ι → Prop
  | .handleEvent guard => ∃ c, s.activeChannels.head? = some c ∧
      ((s.poller.channel c).events = kNoneEvent ∨ guard = false) ∧ calls isSet s.revents c ≠ []
  | _ => False

structure Round (isSet : ι → Callback → Bool) (s : Loop ι) (t : Action ι) (s' : Loop ι) : Prop where
  sublist : (makes s t ++ due isSet s').Sublist (due isSet s)
  eq_iff : makes s t ++ due isSet s' = due isSet s ↔ ¬Skips isSet s t

omit [DecidableEq ι] in
theorem round_of_eq (hdue : makes s t ++ due isSet s' = due isSet s) (hskips : ¬Skips isSet s t) :
    Round isSet s t s' where
  sublist := hdue ▸ List.Sublist.refl _
  eq_iff := iff_of_true hdue hskips

omit [DecidableEq ι] in
theorem handleEvent_round {guard : Bool} {rest : List ι} (hcallbacks : s.callbacks = [])
    (hactive : s.activeChannels = c :: rest) :
    Round isSet s (.handleEvent guard)
      (handleEvent isSet guard c { s with activeChannels := rest }) := by
  have hdue : due isSet s = calls isSet s.revents c ++ rest.flatMap (calls isSet s.revents) := by
    rw [due, hcallbacks, hactive, List.flatMap_cons, List.nil_append]
  have hskips : Skips isSet s (.handleEvent guard) ↔
      ((s.poller.channel c).events = kNoneEvent ∨ guard = false) ∧
        calls isSet s.revents c ≠ [] := by
    rw [Skips, hactive, List.head?_cons]
    simp only [Option.some.injEq, exists_eq_left']
  by_cases hnone : (s.poller.channel c).events = kNoneEvent ∨ guard = false
  · have hstill : handleEvent isSet guard c { s with activeChannels := rest } =
        { s with activeChannels := rest } := by
      rcases hnone with hnone | rfl
      · exact if_pos hnone
      · exact ite_self _
    have hdue' : makes s (.handleEvent guard) ++ due isSet { s with activeChannels := rest } =
        rest.flatMap (calls isSet s.revents) := by
      rw [due, hcallbacks]
      rfl
    rw [hstill]
    refine ⟨?_, ?_⟩
    · rw [hdue', hdue]
      exact List.sublist_append_right _ _
    · rw [hdue', hdue, hskips, List.self_eq_append_left]
      simp only [hnone, true_and, not_not]
  · obtain ⟨hlistens, hguard⟩ := not_or.mp hnone
    refine round_of_eq ?_ (fun h => hnone (hskips.mp h).1)
    rw [hdue, handleEvent, if_neg hlistens, if_pos (Bool.not_eq_false _ ▸ hguard)]
    rfl

theorem step_round (hs : Sound fd s) (hpolls : t.polls = false)
    (h : step fd isSet s t = some s') : Round isSet s t s' := by
  cases t with
  | poll ready order => cases hpolls
  | handleEvent guard =>
      simp only [step] at h
      split at h
      · rename_i c rest hcallbacks hactive
        obtain rfl := Option.some.inj h
        exact handleEvent_round hcallbacks hactive
      · cases h
  | callback ops =>
      simp only [step] at h
      split at h
      · rename_i call rest hcallbacks
        have hrest : Sound fd { s with callbacks := rest } := ⟨hs.consistent, hs.usual⟩
        obtain ⟨-, poller, rfl⟩ := runOps_spec hrest h
        refine round_of_eq ?_ id
        rw [makes, due, due, hcallbacks]
        rfl
      · cases h
  | functors ops =>
      obtain ⟨-, h⟩ := Option.ite_none_right_eq_some.mp h
      obtain ⟨-, poller, rfl⟩ := runOps_spec hs h
      exact round_of_eq rfl id

theorem runSteps_round (hpolls : ∀ t ∈ bs, t.polls = false) :
    ∀ {s : Loop ι}, Sound fd s → runSteps (step fd isSet) s bs = some s' →
      (made fd isSet s bs ++ due isSet s').Sublist (due isSet s) ∧
        (made fd isSet s bs ++ due isSet s' = due isSet s ↔
          AllSteps (step fd isSet) (fun s t => ¬Skips isSet s t) s bs) := by
  induction bs with
  | nil =>
      intro s hs hrun
      obtain rfl := Option.some.inj hrun
      exact ⟨List.Sublist.refl _, iff_of_true rfl trivial⟩
  | cons t bs ih =>
      intro s hs hrun
      obtain ⟨ht, hbs⟩ := List.forall_mem_cons.mp hpolls
      rw [runSteps_cons] at hrun
      obtain ⟨mid, hmid, hrest⟩ := Option.bind_eq_some_iff.mp hrun
      obtain ⟨hdue, hdueiff⟩ := step_round hs ht hmid
      obtain ⟨hdue', hdueiff'⟩ := ih hbs (step_sound hs hmid) hrest
      have hstill := (List.Sublist.refl (makes s t)).append hdue'
      rw [made, hmid, Option.elim_some, List.append_assoc, allSteps_cons_of_some hmid, ← hdueiff,
        ← hdueiff']
      refine ⟨hstill.trans hdue, ?_, ?_⟩
      · intro heq
        have hfirst : makes s t ++ due isSet mid = due isSet s := 
          hdue.eq_of_length_le (heq ▸ hstill.length_le)
        exact ⟨hfirst, List.append_cancel_left (heq.trans hfirst.symm)⟩
      · rintro ⟨hfirst, hlast⟩
        rw [hlast, hfirst]

theorem due_polled (hidle : s.activeChannels = [] ∧ s.callbacks = []) (order : List ι)
    (events : ι → Events) (eventListSize : Nat) :
    due isSet { s with
      revents := fun c => if c ∈ order then events c else s.revents c
      activeChannels := s.activeChannels ++ order
      eventListSize } = order.flatMap (calls isSet events) := by
  simp only [due, hidle.1, hidle.2, List.nil_append, List.flatMap_def]
  congr 1
  refine List.map_congr_left fun c hc => ?_
  rw [calls, calls, if_pos hc]

/-- In every run a poll has a result for whatever the kernel reports. Once all events of the poll
have been handled, their callbacks have been made in order, none twice, and none for a kind of event
that the channel did not listen to. All of them have been made exactly where no channel had lost all
of its events, or the object that it is tied to, before its turn. -/
theorem runSteps_made (hrun : runSteps (step fd isSet) (.init ι) as = some s)
    (hidle : s.activeChannels = [] ∧ s.callbacks = []) (hnodup : order.Nodup)
    (hlength : order.length ≤ s.eventListSize)
    (hreported : ∀ c ∈ order, reported fd s.poller ready c ≠ 0) :
    ∃ polled, step fd isSet s (.poll ready order) = some polled ∧
      ∀ bs s', (∀ t ∈ bs, t.polls = false) → runSteps (step fd isSet) polled bs = some s' →
        s'.activeChannels = [] → s'.callbacks = [] →
        (made fd isSet polled bs).Sublist
            (order.flatMap (calls isSet (reported fd s.poller ready))) ∧
          (made fd isSet polled bs = order.flatMap (calls isSet (reported fd s.poller ready)) ↔
            AllSteps (step fd isSet) (fun s t => ¬Skips isSet s t) polled bs) ∧
          ∀ c, ((c, .readCallback) ∈ made fd isSet polled bs →
              (s.poller.channel c).events &&& kReadEvent ≠ 0) ∧
            ((c, .writeCallback) ∈ made fd isSet polled bs →
              (s.poller.channel c).events &&& kWriteEvent ≠ 0) := by
  have hs := runSteps_sound hrun
  have hpoll := poll_eq hs.consistent hreported
  have hstep : step fd isSet s (.poll ready order) = some _ :=
    (if_pos ⟨hidle.1, hidle.2, hnodup, hlength, hreported⟩).trans hpoll
  refine ⟨_, hstep, ?_⟩
  intro bs s' hbs hrun' hactive hcallbacks
  obtain ⟨hdue, hdueiff⟩ := runSteps_round hbs (step_sound hs hstep) hrun'
  have hdone : due isSet s' = [] := by
    rw [due, hactive, hcallbacks]
    rfl
  rw [hdone, List.append_nil, due_polled hidle] at hdue hdueiff
  refine ⟨hdue, hdueiff, fun c => ?_⟩
  have hmem : ∀ call ∈ order.flatMap (calls isSet (reported fd s.poller ready)), call.1 = c →
      reported fd s.poller ready c ≠ 0 ∧
        call.2 ∈ handleEventSafely (isSet c) (reported fd s.poller ready c) := by
    rintro call hcall rfl
    obtain ⟨c, hc, hcall⟩ := List.mem_flatMap.mp hcall
    obtain ⟨callback, hcallback, rfl⟩ := List.mem_map.mp hcall
    exact ⟨hreported c hc, hcallback⟩
  constructor
  · intro hcall
    obtain ⟨hne, hcall⟩ := hmem _ (hdue.subset hcall) rfl
    exact reading_of_readCallback hs hne hcall
  · intro hcall
    obtain ⟨hne, hcall⟩ := hmem _ (hdue.subset hcall) rfl
    exact writing_of_writeCallback hs hne hcall

def sampleSet : Fin 2 → Callback → Bool := fun _ callback => callback ≠ .errorCallback

def sampleRun {ι : Type*} (reader both : ι) : List (Action ι) :=
  [.functors [(reader, .enableReading), (both, .enableReading), (both, .enableWriting)]]

theorem runSteps_made_sample :
    ∃ s polled,
      runSteps (step Fin.valEmbedding sampleSet) (.init (Fin 2)) (sampleRun 0 1) = some s ∧
      step Fin.valEmbedding sampleSet s (.poll (fun _ => POLLIN ||| POLLOUT) [0, 1]) = some polled ∧
      ∀ bs s', (∀ t ∈ bs, t.polls = false) →
        runSteps (step Fin.valEmbedding sampleSet) polled bs = some s' →
        s'.activeChannels = [] → s'.callbacks = [] →
        (made Fin.valEmbedding sampleSet polled bs).Sublist
          [(0, .readCallback), (1, .readCallback), (1, .writeCallback)] := by
  have hrun : runSteps (step Fin.valEmbedding sampleSet) (.init (Fin 2)) (sampleRun 0 1) = some _ :=
    rfl
  have hnodup : [(0 : Fin 2), 1].Nodup := by decide
  obtain ⟨polled, hstep, hmade⟩ := runSteps_made hrun ⟨rfl, rfl⟩ hnodup (by decide)
    (show ∀ c ∈ _, reported Fin.valEmbedding _ (fun _ => POLLIN ||| POLLOUT) c ≠ 0 by decide)
  refine ⟨_, polled, hrun, hstep, ?_⟩
  intro bs s' hbs hrun' hactive hcallbacks
  exact (hmade bs s' hbs hrun' hactive hcallbacks).1

end Rounds

section Reports

variable {ι : Type*} [DecidableEq ι] {fd : ι ↪ Nat} {isSet : ι → Callback → Bool} {R : Nat}
  {s s' : Loop ι} {t : Action ι} {as : List (Action ι)} {ready : ι → Events} {order : List ι}
  {c : ι}

/-- No more than `R` descriptors are registered at a poll, and the kernel leaves one that is ready
out of its report only where `events_` has no room for it. -/
def Reports (fd : ι ↪ Nat) (R : Nat) (s : Loop ι) : Action ι → Prop
  | .poll ready order =>
      (∀ l : List ι, l.Nodup → (∀ c ∈ l, s.poller.interest (fd c) ≠ none) → l.length ≤ R) ∧
        (order.length < s.eventListSize → ∀ c, reported fd s.poller ready c ≠ 0 → c ∈ order)
  | _ => True

def Misses (fd : ι ↪ Nat) (s : Loop ι) : Action ι → Prop
  | .poll ready order => ∃ c, reported fd s.poller ready c ≠ 0 ∧ c ∉ order
  | _ => False

open Classical in
noncomputable def missed (fd : ι ↪ Nat) (isSet : ι → Callback → Bool) (s : Loop ι) :
    List (Action ι) → Nat
  | [] => 0
  | t :: ts =>
      (if Misses fd s t then 1 else 0) +
        (step fd isSet s t).elim 0 fun s' => missed fd isSet s' ts

theorem eventListSize_poll (hs : Sound fd s) (h : step fd isSet s (.poll ready order) = some s') :
    s'.eventListSize =
      if 0 < order.length ∧ order.length = s.eventListSize then s.eventListSize * 2
      else s.eventListSize := by
  obtain ⟨⟨-, -, -, -, hreported⟩, h⟩ := Option.ite_none_right_eq_some.mp h
  rw [poll_eq hs.consistent hreported] at h
  obtain rfl := Option.some.inj h
  rfl

theorem eventListSize_le (hs : Sound fd s) (hreports : Reports fd R s t)
    (h : step fd isSet s t = some s') : s'.eventListSize ≤ max s.eventListSize (2 * R) := by
  rcases t.polls_or with hpolls | ⟨ready, order, rfl⟩
  · rw [(step_quiet hs hpolls h).2]
    exact le_max_left _ _
  · rw [eventListSize_poll hs h]
    obtain ⟨⟨-, -, hnodup, -, hreported⟩, -⟩ := Option.ite_none_right_eq_some.mp h
    have hle : order.length ≤ R := by
      refine hreports.1 order hnodup fun c hc hnone => hreported c hc ?_
      rw [reported, hnone]
    split <;> omega

theorem eventListSize_of_misses (hs : Sound fd s) (hpos : 0 < s.eventListSize)
    (hreports : Reports fd R s t) (hmisses : Misses fd s t) (h : step fd isSet s t = some s') :
    s'.eventListSize = s.eventListSize * 2 := by
  cases t with
  | poll ready order =>
      obtain ⟨c, hc, hmem⟩ := hmisses
      obtain ⟨⟨-, -, -, hlength, -⟩, -⟩ := Option.ite_none_right_eq_some.mp h
      have hroom : ¬order.length < s.eventListSize := fun hlt => hmem (hreports.2 hlt c hc)
      rw [eventListSize_poll hs h, if_pos]
      omega
  | handleEvent guard => exact hmisses.elim
  | callback ops => exact hmisses.elim
  | functors ops => exact hmisses.elim

theorem eventListSize_mono (hs : Sound fd s) (h : step fd isSet s t = some s') :
    s.eventListSize ≤ s'.eventListSize := by
  rcases t.polls_or with hpolls | ⟨ready, order, rfl⟩
  · exact (step_quiet hs hpolls h).2.ge
  · rw [eventListSize_poll hs h]
    split <;> omega

/-- The room in `events_` doubles with each poll that misses a descriptor, and it is bounded. -/
theorem runSteps_eventListSize :
    ∀ {s : Loop ι}, Sound fd s → 0 < s.eventListSize →
      AllSteps (step fd isSet) (Reports fd R) s as → runSteps (step fd isSet) s as = some s' →
      s.eventListSize * 2 ^ missed fd isSet s as ≤ s'.eventListSize ∧
        s'.eventListSize ≤ max s.eventListSize (2 * R) := by
  induction as with
  | nil =>
      intro s hs hpos hall hrun
      obtain rfl := Option.some.inj hrun
      rw [missed, Nat.pow_zero, Nat.mul_one]
      exact ⟨le_rfl, le_max_left _ _⟩
  | cons t as ih =>
      intro s hs hpos hall hrun
      rw [runSteps_cons] at hrun
      obtain ⟨mid, hmid, hrest⟩ := Option.bind_eq_some_iff.mp hrun
      obtain ⟨hreports, hall⟩ := (allSteps_cons_of_some hmid).mp hall
      have hmono := eventListSize_mono hs hmid
      obtain ⟨hlow, hhigh⟩ := ih (step_sound hs hmid) (hpos.trans_le hmono) hall hrest
      have hle := eventListSize_le hs hreports hmid
      refine ⟨le_trans ?_ hlow, by omega⟩
      rw [missed, hmid, Option.elim_some]
      by_cases hmisses : Misses fd s t
      · rw [if_pos hmisses, eventListSize_of_misses hs hpos hreports hmisses hmid,
          Nat.pow_add, Nat.pow_one, Nat.mul_assoc]
      · rw [if_neg hmisses, Nat.zero_add]
        exact Nat.mul_le_mul_right _ hmono

/-- In every run in which no more than `R` descriptors are registered at a poll, all but a
logarithmic number of polls report every descriptor that is ready, and `events_` has room for no
more than twice as many as are registered. -/
theorem runSteps_missed (hall : AllSteps (step fd isSet) (Reports fd R) (.init ι) as)
    (hrun : runSteps (step fd isSet) (.init ι) as = some s) :
    s.eventListSize ≤ max kInitEventListSize (2 * R) ∧
      missed fd isSet (.init ι) as ≤ Nat.log 2 (R / 8) := by
  have hpos : 0 < (Loop.init ι).eventListSize := Nat.zero_lt_succ 15
  obtain ⟨hlow, hhigh⟩ := runSteps_eventListSize (sound_init fd) hpos hall hrun
  change 16 * 2 ^ missed fd isSet (.init ι) as ≤ _ at hlow
  change s.eventListSize ≤ max 16 (2 * R) at hhigh
  refine ⟨hhigh, ?_⟩
  rcases Nat.eq_zero_or_pos (missed fd isSet (.init ι) as) with hzero | hsome
  · exact hzero ▸ Nat.zero_le _
  · have htwo : 2 ≤ 2 ^ missed fd isSet (.init ι) as := Nat.le_self_pow hsome.ne' 2
    have hpow : 2 ^ missed fd isSet (.init ι) as ≤ R / 8 := by omega
    exact Nat.le_log_of_pow_le Nat.one_lt_two hpow

theorem runSteps_missed_sample :
    ∃ s, runSteps (step Fin.valEmbedding sampleSet) (.init (Fin 2))
        (sampleRun 0 1 ++ [.poll (fun _ => POLLIN) [1, 0]]) = some s ∧
      s.eventListSize ≤ 16 ∧
      missed Fin.valEmbedding sampleSet (.init (Fin 2))
        (sampleRun 0 1 ++ [.poll (fun _ => POLLIN) [1, 0]]) ≤ 0 := by
  have hall : AllSteps (step Fin.valEmbedding sampleSet) (Reports Fin.valEmbedding 2)
      (.init (Fin 2)) (sampleRun 0 1 ++ [.poll (fun _ => POLLIN) [1, 0]]) := by
    refine ⟨trivial, fun s hs => ⟨⟨?_, ?_⟩, fun _ _ => trivial⟩⟩
    · intro l hnodup hregistered
      exact hnodup.length_le_card
    · intro _ c _
      have hmem : ∀ c : Fin 2, c ∈ [1, 0] := by decide
      exact hmem c
  have hrun : runSteps (step Fin.valEmbedding sampleSet) (.init (Fin 2))
      (sampleRun 0 1 ++ [.poll (fun _ => POLLIN) [1, 0]]) = some _ := rfl
  exact ⟨_, hrun, runSteps_missed hall hrun⟩

end Reports

end Cooper.ActiveChannels

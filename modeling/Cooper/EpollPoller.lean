import Cooper.StepRun
import Mathlib.Logic.Embedding.Basic

namespace Cooper.EpollPoller

open Cooper.StepRun

section Model

/-- The bits of `events_`. -/
abbrev Events := BitVec 32

def kNoneEvent : Events := 0

/-- `POLLIN | POLLPRI` -/
def kReadEvent : Events := 1 ||| 2

def kWriteEvent : Events := 4

inductive Index
  | kNew
  | kAdded
  | kDeleted
  deriving DecidableEq

structure Channel where
  events : Events
  index : Index

def Channel.new : Channel := ⟨kNoneEvent, .kNew⟩

inductive Operation
  | EPOLL_CTL_ADD
  | EPOLL_CTL_MOD
  | EPOLL_CTL_DEL
  deriving DecidableEq

/-- The file descriptors of an epoll instance, with the events that they are registered for. -/
abbrev InterestSet := Nat → Option Events

/-- `epoll_ctl(2)`. There is no result where it fails. -/
def epoll_ctl (interest : InterestSet) (operation : Operation) (fd : Nat) (events : Events) :
    Option InterestSet :=
  match operation, interest fd with
  | .EPOLL_CTL_ADD, none => some (Function.update interest fd (some events))
  | .EPOLL_CTL_MOD, some _ => some (Function.update interest fd (some events))
  | .EPOLL_CTL_DEL, some _ => some (Function.update interest fd none)
  | _, _ => none

structure Poller (ι : Type*) where
  channel : ι → Channel
  /-- the map `channels_` from file descriptors to channels -/
  channels : Nat → Option ι
  interest : InterestSet
  /-- the calls of `epoll_ctl` that have failed -/
  failed : List (Operation × Nat)

variable {ι : Type*} [DecidableEq ι]

def Poller.setChannel (s : Poller ι) (c : ι) (channel : Channel) : Poller ι :=
  { s with channel := Function.update s.channel c channel }

def Poller.setIndex (s : Poller ι) (c : ι) (index : Index) : Poller ι :=
  s.setChannel c { s.channel c with index }

def Poller.setEvents (s : Poller ι) (c : ι) (events : Events) : Poller ι :=
  s.setChannel c { s.channel c with events }

variable (fd : ι ↪ Nat)

def update (operation : Operation) (c : ι) (s : Poller ι) : Poller ι :=
  match epoll_ctl s.interest operation (fd c) (s.channel c).events with
  | some interest => { s with interest }
  | none => { s with failed := s.failed ++ [(operation, fd c)] }

def updateChannel (c : ι) (s : Poller ι) : Option (Poller ι) :=
  match (s.channel c).index with
  | .kNew =>
      if s.channels (fd c) = none then
        let s := { s with channels := Function.update s.channels (fd c) (some c) }
        some (update fd .EPOLL_CTL_ADD c (s.setIndex c .kAdded))
      else none
  | .kDeleted =>
      if s.channels (fd c) = some c then
        some (update fd .EPOLL_CTL_ADD c (s.setIndex c .kAdded))
      else none
  | .kAdded =>
      if s.channels (fd c) = some c then
        if (s.channel c).events = kNoneEvent then
          some ((update fd .EPOLL_CTL_DEL c s).setIndex c .kDeleted)
        else some (update fd .EPOLL_CTL_MOD c s)
      else none

def removeChannel (c : ι) (s : Poller ι) : Option (Poller ι) :=
  if s.channels (fd c) = some c then
    let s := { s with channels := Function.update s.channels (fd c) none }
    if (s.channel c).events = kNoneEvent then
      match (s.channel c).index with
      | .kNew => none
      | .kAdded => some ((update fd .EPOLL_CTL_DEL c s).setIndex c .kNew)
      | .kDeleted => some (s.setIndex c .kNew)
    else none
  else none

inductive ChannelOp
  | enableReading
  | enableWriting
  | disableReading
  | disableWriting
  | disableAll
  | remove
  deriving DecidableEq

def ChannelOp.apply : ChannelOp → Events → Events
  | .enableReading, events => events ||| kReadEvent
  | .enableWriting, events => events ||| kWriteEvent
  | .disableReading, events => events &&& ~~~kReadEvent
  | .disableWriting, events => events &&& ~~~kWriteEvent
  | .disableAll, _ => kNoneEvent
  | .remove, events => events

/-- An operation on a channel. There is no result where an assertion fails. -/
def step (s : Poller ι) : ι × ChannelOp → Option (Poller ι)
  | (c, .remove) => if (s.channel c).events = kNoneEvent then removeChannel fd c s else none
  | (c, op) => updateChannel fd c (s.setEvents c (op.apply (s.channel c).events))

def Poller.init (ι : Type*) : Poller ι where
  channel := fun _ => .new
  channels := fun _ => none
  interest := fun _ => none
  failed := []

end Model

section Refinement

/-- A channel on its own: what an operation makes of its events and of its index. -/
def Channel.next (channel : Channel) : ChannelOp → Option Channel
  | .remove =>
      if channel.events = kNoneEvent ∧ channel.index ≠ .kNew then some .new else none
  | op =>
      let events := op.apply channel.events
      some ⟨events, if channel.index = .kAdded ∧ events = kNoneEvent then .kDeleted else .kAdded⟩

def Channel.registered (channel : Channel) : Option Events :=
  if channel.index = .kAdded then some channel.events else none

def Channel.mapped {ι : Type*} (channel : Channel) (c : ι) : Option ι :=
  if channel.index = .kNew then none else some c

variable {ι : Type*} (fd : ι ↪ Nat)

/-- The maps say of each channel what its index does, and no call of `epoll_ctl` has failed. -/
structure Poller.Consistent (s : Poller ι) : Prop where
  channels : ∀ c, s.channels (fd c) = (s.channel c).mapped c
  interest : ∀ c, s.interest (fd c) = (s.channel c).registered
  idle : ∀ c, (s.channel c).index ≠ .kAdded → (s.channel c).events = kNoneEvent
  failed : s.failed = []

def Poller.put [DecidableEq ι] (s : Poller ι) (c : ι) (channel : Channel) : Poller ι where
  channel := Function.update s.channel c channel
  channels := Function.update s.channels (fd c) (channel.mapped c)
  interest := Function.update s.interest (fd c) channel.registered
  failed := s.failed

variable {fd} {s : Poller ι} {c : ι}

theorem consistent_init : (Poller.init ι).Consistent fd where
  channels := fun _ => rfl
  interest := fun _ => rfl
  idle := fun _ _ => rfl
  failed := rfl

variable [DecidableEq ι]

theorem update_comp {α : Type*} {values : Nat → Option α} {value : Option α}
    {channels : ι → Channel} {channel : Channel} {f : Channel → ι → Option α}
    (hvalues : ∀ c, values (fd c) = f (channels c) c) (hvalue : value = f channel c) (other : ι) :
    Function.update values (fd c) value (fd other) =
      f (Function.update channels c channel other) other := by
  rcases eq_or_ne other c with rfl | hother
  · rw [Function.update_self, Function.update_self, hvalue]
  · rw [Function.update_of_ne (fd.injective.ne hother), Function.update_of_ne hother, hvalues]

theorem Poller.Consistent.put (hs : s.Consistent fd) {channel : Channel}
    (hidle : channel.index ≠ .kAdded → channel.events = kNoneEvent) :
    (s.put fd c channel).Consistent fd where
  channels := update_comp (f := Channel.mapped) hs.channels rfl
  interest := update_comp (f := fun channel _ => channel.registered) hs.interest rfl
  idle := by
    intro other hother
    rcases eq_or_ne other c with rfl | hne
    · simp only [Poller.put, Function.update_self] at hother ⊢
      exact hidle hother
    · simp only [Poller.put, Function.update_of_ne hne] at hother ⊢
      exact hs.idle other hother
  failed := hs.failed

theorem Poller.ext_put {s' : Poller ι} {channel : Channel}
    (hchannel : s'.channel = Function.update s.channel c channel)
    (hchannels : s'.channels = Function.update s.channels (fd c) (channel.mapped c))
    (hinterest : s'.interest = Function.update s.interest (fd c) channel.registered)
    (hfailed : s'.failed = s.failed) : s' = s.put fd c channel := by
  obtain ⟨channel', channels', interest', failed'⟩ := s'
  simp only at hchannel hchannels hinterest hfailed
  rw [hchannel, hchannels, hinterest, hfailed]
  rfl

theorem updateChannel_eq (hs : s.Consistent fd) (events : Events) :
    updateChannel fd c (s.setEvents c events) =
      some (s.put fd c ⟨events,
        if (s.channel c).index = .kAdded ∧ events = kNoneEvent then .kDeleted else .kAdded⟩) := by
  have hchannels := hs.channels c
  have hinterest := hs.interest c
  rw [Channel.mapped] at hchannels
  rw [Channel.registered] at hinterest
  rcases hindex : (s.channel c).index with _ | _ | _
  · rw [hindex] at hchannels hinterest
    simp only [updateChannel, Poller.setEvents, Poller.setChannel, Poller.setIndex, update,
      Function.update_self, Function.update_idem, hindex, hchannels, hinterest, epoll_ctl,
      reduceCtorEq, if_true, if_false, false_and]
    exact congrArg some (Poller.ext_put rfl rfl rfl rfl)
  · rw [hindex] at hchannels hinterest
    simp only [updateChannel, Poller.setEvents, Poller.setChannel, Poller.setIndex, update,
      Function.update_self, Function.update_idem, hindex, hchannels, hinterest, epoll_ctl,
      reduceCtorEq, if_true, if_false, true_and]
    split
    · rename_i hnone
      apply congrArg some
      apply Poller.ext_put <;> simp [Channel.mapped, Channel.registered, hchannels]
    · apply congrArg some
      apply Poller.ext_put <;> simp [Channel.mapped, Channel.registered, hchannels]
  · rw [hindex] at hchannels hinterest
    simp only [updateChannel, Poller.setEvents, Poller.setChannel, Poller.setIndex, update,
      Function.update_self, Function.update_idem, hindex, hchannels, hinterest, epoll_ctl,
      reduceCtorEq, if_true, if_false, false_and]
    apply congrArg some
    apply Poller.ext_put <;> simp [Channel.mapped, Channel.registered, hchannels]

theorem removeChannel_eq (hs : s.Consistent fd) (hevents : (s.channel c).events = kNoneEvent) :
    removeChannel fd c s =
      if (s.channel c).index = .kNew then none else some (s.put fd c .new) := by
  have hchannels := hs.channels c
  have hinterest := hs.interest c
  rw [Channel.mapped] at hchannels
  rw [Channel.registered] at hinterest
  rcases hindex : (s.channel c).index with _ | _ | _
  · simp [removeChannel, hchannels, hindex]
  · rw [hindex] at hchannels hinterest
    simp only [removeChannel, hchannels, hevents, hindex, update, hinterest, epoll_ctl,
      reduceCtorEq, if_true, if_false]
    apply congrArg some
    apply Poller.ext_put <;> simp [Channel.new, Channel.mapped, Channel.registered, hevents,
      Poller.setIndex, Poller.setChannel]
  · rw [hindex] at hchannels hinterest
    simp only [removeChannel, hchannels, hevents, hindex, reduceCtorEq, if_true, if_false]
    apply congrArg some
    apply Poller.ext_put <;> simp [Channel.new, Channel.mapped, Channel.registered, hevents,
      hinterest, Poller.setIndex, Poller.setChannel]

theorem step_eq (hs : s.Consistent fd) (c : ι) (op : ChannelOp) :
    step fd s (c, op) = ((s.channel c).next op).map (s.put fd c) := by
  cases op with
  | remove =>
      rw [step, Channel.next]
      by_cases hevents : (s.channel c).events = kNoneEvent
      · rw [if_pos hevents, removeChannel_eq hs hevents]
        by_cases hindex : (s.channel c).index = .kNew
        · simp [hindex]
        · simp [hindex, hevents]
      · simp [hevents]
  | enableReading | enableWriting | disableReading | disableWriting | disableAll =>
      exact updateChannel_eq hs _

theorem Channel.idle_of_next {channel channel' : Channel} {op : ChannelOp}
    (hnext : channel.next op = some channel') (hindex : channel'.index ≠ .kAdded) :
    channel'.events = kNoneEvent := by
  cases op with
  | remove =>
      rw [Channel.next] at hnext
      split at hnext
      · obtain rfl := Option.some.inj hnext
        rfl
      · contradiction
  | enableReading | enableWriting | disableReading | disableWriting | disableAll =>
      obtain rfl := Option.some.inj hnext
      simp only at hindex
      split at hindex
      · rename_i hdeleted
        exact hdeleted.2
      · contradiction

theorem step_consistent {s' : Poller ι} (hs : s.Consistent fd) {t : ι × ChannelOp}
    (hstep : step fd s t = some s') : s'.Consistent fd := by
  obtain ⟨c, op⟩ := t
  rw [step_eq hs] at hstep
  obtain ⟨channel, hnext, rfl⟩ := Option.map_eq_some_iff.mp hstep
  exact hs.put (Channel.idle_of_next hnext)

end Refinement

section Registration

variable {ι : Type*} (fd : ι ↪ Nat)

/-- The channels with events are in the interest set, with these events, and no others are. -/
def Poller.Registered (s : Poller ι) : Prop :=
  ∀ c, s.interest (fd c) =
    if (s.channel c).events = kNoneEvent then none else some (s.channel c).events

variable [DecidableEq ι]

def Matched (s : Poller ι) (t : ι × ChannelOp) : Prop :=
  ∀ s', step fd s t = some s' → s'.Registered fd ∧ s'.failed = []

def ChannelOp.Disables : ChannelOp → Prop
  | .disableReading | .disableWriting | .disableAll => True
  | .enableReading | .enableWriting | .remove => False

def DisablesListening (s : Poller ι) : ι × ChannelOp → Prop
  | (c, op) => op.Disables → (s.channel c).events ≠ kNoneEvent

variable {fd} {s : Poller ι}

omit [DecidableEq ι] in
theorem Poller.Consistent.registered_iff (hs : s.Consistent fd) :
    s.Registered fd ↔
      ∀ c, (s.channel c).index = .kAdded → (s.channel c).events ≠ kNoneEvent := by
  refine forall_congr' fun c => ?_
  rw [hs.interest, Channel.registered]
  constructor
  · intro hregistered hadded hnone
    rw [if_pos hadded, if_pos hnone] at hregistered
    contradiction
  · intro hlistening
    by_cases hadded : (s.channel c).index = .kAdded
    · rw [if_pos hadded, if_neg (hlistening hadded)]
    · rw [if_neg hadded, if_pos (hs.idle c hadded)]

theorem ChannelOp.apply_ne_none {op : ChannelOp} (hop : ¬op.Disables) (hremove : op ≠ .remove)
    (events : Events) : op.apply events ≠ kNoneEvent := by
  cases op with
  | enableReading | enableWriting =>
      intro hnone
      exact absurd (BitVec.or_eq_zero_iff.mp hnone).2 (by decide)
  | disableReading | disableWriting | disableAll => exact absurd trivial hop
  | remove => exact absurd rfl hremove

theorem Channel.next_of_ne_remove {op : ChannelOp} (hop : op ≠ .remove) (channel : Channel) :
    channel.next op = some ⟨op.apply channel.events,
      if channel.index = .kAdded ∧ op.apply channel.events = kNoneEvent then .kDeleted
      else .kAdded⟩ := by
  cases op with
  | remove => exact absurd rfl hop
  | enableReading | enableWriting | disableReading | disableWriting | disableAll => rfl

theorem Channel.next_listening_iff {channel channel' : Channel} {op : ChannelOp}
    (hidle : channel.index ≠ .kAdded → channel.events = kNoneEvent)
    (hlistening : channel.index = .kAdded → channel.events ≠ kNoneEvent)
    (hnext : channel.next op = some channel') :
    (channel'.index = .kAdded → channel'.events ≠ kNoneEvent) ↔
      (op.Disables → channel.events ≠ kNoneEvent) := by
  have hadded : channel.index = .kAdded ↔ channel.events ≠ kNoneEvent :=
    ⟨hlistening, not_imp_comm.mp hidle⟩
  by_cases hremove : op = .remove
  · subst hremove
    rw [Channel.next] at hnext
    split at hnext
    · obtain rfl := Option.some.inj hnext
      exact ⟨fun _ hdisables => absurd hdisables id, fun _ hindex => nomatch hindex⟩
    · contradiction
  · rw [Channel.next_of_ne_remove hremove] at hnext
    obtain rfl := Option.some.inj hnext
    by_cases hdisables : op.Disables
    · rw [imp_iff_right hdisables, ← hadded]
      constructor
      · intro hlisten
        by_contra hindex
        have hnone : op.apply channel.events = kNoneEvent := by
          rw [hidle hindex]
          cases op with
          | disableReading | disableWriting | disableAll => rfl
          | enableReading | enableWriting | remove => exact absurd hdisables id
        exact hlisten (if_neg fun h => hindex h.1) hnone
      · intro hindex hlisten hnone
        simp only [if_pos (And.intro hindex hnone), reduceCtorEq] at hlisten
    · have hevents := ChannelOp.apply_ne_none hdisables hremove channel.events
      exact ⟨fun _ h => absurd h hdisables, fun _ _ => hevents⟩

theorem matched_iff (hs : s.Consistent fd) (hregistered : s.Registered fd) (t : ι × ChannelOp) :
    Matched fd s t ↔ DisablesListening s t := by
  obtain ⟨c, op⟩ := t
  have hlistening := hs.registered_iff.mp hregistered
  have hput : ∀ channel, (s.channel c).next op = some channel →
      ((s.put fd c channel).Registered fd ↔ (op.Disables → (s.channel c).events ≠ kNoneEvent)) := by
    intro channel hnext
    have hconsistent : (s.put fd c channel).Consistent fd := hs.put (Channel.idle_of_next hnext)
    rw [hconsistent.registered_iff, ← Channel.next_listening_iff (hs.idle c) (hlistening c) hnext]
    constructor
    · intro hall
      simpa [Poller.put] using hall c
    · intro hchannel other
      rcases eq_or_ne other c with rfl | hother
      · simpa [Poller.put] using hchannel
      · simpa [Poller.put, hother] using hlistening other
  constructor
  · intro hmatched hdisables
    have hremove : op ≠ .remove := by
      rintro rfl
      exact hdisables
    have hnext := Channel.next_of_ne_remove hremove (s.channel c)
    have hstep := step_eq hs c op
    rw [hnext] at hstep
    exact (hput _ hnext).mp (hmatched _ hstep).1 hdisables
  · intro hdisables s' hstep
    refine ⟨?_, (step_consistent hs hstep).failed⟩
    rw [step_eq hs] at hstep
    obtain ⟨channel, hnext, rfl⟩ := Option.map_eq_some_iff.mp hstep
    exact (hput channel hnext).mpr hdisables

/-- In every run the interest set is what the channels ask for, and each `epoll_ctl` is legal,
exactly when events are only taken from channels that have some. -/
theorem matched_run_iff (fd : ι ↪ Nat) (ts : List (ι × ChannelOp)) :
    AllSteps (step fd) (Matched fd) (Poller.init ι) ts ↔
      AllSteps (step fd) DisablesListening (Poller.init ι) ts := by
  refine allSteps_iff_of_kept (fun s => s.Consistent fd ∧ s.Registered fd) ?_ ?_
    ⟨consistent_init, fun _ => rfl⟩ ts
  · rintro s t s' ⟨hs, -⟩ hmatched hstep
    exact ⟨step_consistent hs hstep, (hmatched s' hstep).1⟩
  · rintro s t ⟨hs, hregistered⟩
    exact matched_iff hs hregistered t

/-- The calls of `epoll_ctl` are legal whatever the operations are. -/
theorem failed_eq_nil {ts : List (ι × ChannelOp)} {s : Poller ι}
    (hrun : runSteps (step fd) (Poller.init ι) ts = some s) : s.failed = [] :=
  (runSteps_invariant (fun s : Poller ι => s.Consistent fd) (fun _ _ _ h => step_consistent h)
    consistent_init hrun).failed

/-- `~Acceptor` on the channel of an acceptor that never listened. -/
theorem not_matched_run :
    ¬ ∀ (fd : Nat ↪ Nat) (ts : List (Nat × ChannelOp)),
      AllSteps (step fd) (Matched fd) (Poller.init Nat) ts := by
  intro h
  obtain ⟨hmatched, -⟩ := h (Function.Embedding.refl Nat) [(0, .disableAll), (0, .remove)]
  have hregistered := (hmatched _ rfl).1 0
  exact absurd hregistered (by decide)

end Registration

end Cooper.EpollPoller

import Cooper.PingPong

namespace Cooper.PingPongTiming

open Cooper.FloatRounding
open Cooper.PingPong
open Cooper.ServerWheel
open Cooper.StepRun
open Cooper.Wheel hiding step
open Cooper.WheelDeadline
open Cooper.WheelReinsertion

/-- The ticks of the PINGs that have no PONG. A PONG is for the oldest of them. -/
def outstanding : List Message → List Nat
  | [] => []
  | .PING tick :: messages => outstanding messages ++ [tick]
  | .PONG _ :: messages => (outstanding messages).tail

/-- No PONG has come when the timeout had passed since its PING. -/
def InTime (pingPongTimeout : Nat) : List Message → Prop
  | [] => True
  | .PING _ :: messages => InTime pingPongTimeout messages
  | .PONG tick :: messages =>
      (∀ ping ∈ (outstanding messages).head?, tick < ping + pingPongTimeout) ∧
        InTime pingPongTimeout messages

/-- Until now the client has met the timeout. What it has not answered yet, it may still answer. -/
def Responsive (pingPongTimeout now : Nat) (messages : List Message) : Prop :=
  InTime pingPongTimeout messages ∧ ∀ ping ∈ outstanding messages, now < ping + pingPongTimeout

/-- When a `KickoffEntry` closes the connection, the client has missed the timeout. -/
def KicksUnresponsive (s : Process) (a : Action) : Prop :=
  ∀ s' ∈ step s a, s.conn.kickedOff = false → s'.conn.kickedOff = true →
    ¬Responsive s.pingPongTimeout s'.wheel.ticksCounter s'.conn.messages

section Messages

variable {pingPongTimeout now now' : Nat} {messages : List Message}

theorem Responsive.mono (h : Responsive pingPongTimeout now' messages) (hle : now ≤ now') :
    Responsive pingPongTimeout now messages := by
  refine ⟨h.1, ?_⟩
  intro ping hping
  exact hle.trans_lt (h.2 ping hping)

theorem Responsive.of_ping {tick : Nat}
    (h : Responsive pingPongTimeout now (.PING tick :: messages)) :
    Responsive pingPongTimeout now messages := by
  refine ⟨h.1, ?_⟩
  intro ping hping
  exact h.2 ping (List.mem_append_left _ hping)

theorem Responsive.of_pong (h : Responsive pingPongTimeout now (.PONG now :: messages)) :
    Responsive pingPongTimeout now messages := by
  obtain ⟨⟨hhead, hintime⟩, htail⟩ := h
  refine ⟨hintime, ?_⟩
  intro ping hping
  rw [outstanding] at htail
  rcases hpings : outstanding messages with _ | ⟨oldest, pings⟩
  · rw [hpings] at hping
    contradiction
  · rw [hpings] at hping hhead htail
    rcases List.mem_cons.mp hping with rfl | hping
    · exact hhead ping rfl
    · exact htail ping hping

end Messages

/-- The wheel that is made for the interval has room for the timeout. -/
def Suited (pingPongInterval pingPongTimeout : Nat) : Prop :=
  pingPongInterval < 500 ∧ pingPongTimeout ≤ pingPongInterval + 1 ∨
    500 ≤ pingPongInterval ∧ pingPongTimeout < 100

/-- An entry that kicks off waits for the timeout, and not longer than until the next PING. -/
def WaitsLong (pingPongInterval pingPongTimeout : Nat) (clock : TimingWheel ServerEntry) : Prop :=
  ∀ kick ping, clock.ticksCounter + pingPongTimeout ≤ deadlineAt 1 clock pingPongTimeout kick ∧
    deadlineAt 1 clock pingPongTimeout kick ≤ deadlineAt 1 clock pingPongInterval ping

theorem waitsLong_of_suited {w : TimingWheel ServerEntry} {pingPongInterval pingPongTimeout : Nat}
    (hmade : MadeFor pingPongInterval w) (hinterval : 1 < pingPongInterval)
    (ht : 0 < w.ticksCounter) (hsuited : Suited pingPongInterval pingPongTimeout) :
    WaitsLong pingPongInterval pingPongTimeout w := by
  intro kick ping
  rcases hsuited with ⟨hshort, htimeout⟩ | ⟨hlong, htimeout⟩
  · rw [hmade.deadlineAt_of_short hinterval hshort Nat.one_pos,
      hmade.deadlineAt_of_short hinterval hshort Nat.one_pos, delayTicks_of_lt (by omega),
      delayTicks_of_lt (by omega)]
    omega
  · have hbuckets := hmade.bucketsNumPerWheel_of_long hlong
    have hticks : delayTicks pingPongTimeout = pingPongTimeout + 1 := delayTicks_of_lt (by omega)
    have hfirst : position w pingPongTimeout kick = (0, pingPongTimeout, .entry kick) := by
      rw [position, hticks, insertPosition_of_le (by omega)]
      rfl
    have hkick : deadlineAt 1 w pingPongTimeout kick = w.ticksCounter + pingPongTimeout + 1 := by
      rw [deadlineAt, hfirst, dropTick_of_lt Nat.one_pos]
      simp [remaining]
    have hping := hmade.hasRoom.le_deadlineAt_one ht
      (by
        rw [hbuckets]
        exact (lt_delayTicks (n := 200) (by decide) (by omega)).le) ping
    omega

/-- While the client is responsive, at most the `KickoffEntry` that the map has is live. It waits
for the timeout, and not longer than until the next PING. -/
def Prompt (pingPongTimeout now : Nat) (due : Set (Nat × ServerEntry)) (c : Connection) : Prop :=
  Responsive pingPongTimeout now c.messages →
    ∀ made d, .KickoffEntry made ∈ c.live → (d, .KickoffEntry made) ∈ due →
      c.kickoffEntries = some made ∧
        (∃ ping ∈ outstanding c.messages, ping + pingPongTimeout ≤ d) ∧
        ∀ next d', .PingPongEntry next ∈ c.live → (d', .PingPongEntry next) ∈ due → d ≤ d'

section Prompt

variable {pingPongTimeout now : Nat} {due due' : Set (Nat × ServerEntry)} {c c' : Connection}

theorem Prompt.mono (h : Prompt pingPongTimeout now due c) (hdue : due' ⊆ due)
    (hlive : ∀ entry ∈ c'.live, entry ∈ c.live) (hslot : c'.kickoffEntries = c.kickoffEntries)
    (hmessages : c'.messages = c.messages) : Prompt pingPongTimeout now due' c' := by
  intro hresponsive made d hmem hd
  rw [hmessages] at hresponsive ⊢
  rw [hslot]
  obtain ⟨hrecorded, hwaits, hnext⟩ := h hresponsive made d (hlive _ hmem) (hdue hd)
  refine ⟨hrecorded, hwaits, ?_⟩
  intro next d' hmem' hd'
  exact hnext next d' (hlive _ hmem') (hdue hd')

theorem Prompt.later (h : Prompt pingPongTimeout now due c) {now' : Nat} (hle : now ≤ now') :
    Prompt pingPongTimeout now' due c :=
  fun hresponsive => h (hresponsive.mono hle)

theorem prompt_of_none (hnone : Responsive pingPongTimeout now c.messages →
    ∀ made d, .KickoffEntry made ∈ c.live → (d, .KickoffEntry made) ∉ due) :
    Prompt pingPongTimeout now due c := by
  intro hresponsive made d hmem hd
  exact absurd hd (hnone hresponsive made d hmem)

theorem Prompt.pong (h : Prompt pingPongTimeout now due c) :
    Prompt pingPongTimeout now due
      { c.resetKickoffEntry with messages := .PONG now :: c.messages } := by
  apply prompt_of_none
  intro hresponsive made d hmem hd
  obtain ⟨hlive, hother⟩ := mem_reset_live.mp hmem
  rw [(h hresponsive.of_pong made d hlive hd).1] at hother
  exact hother rfl

theorem Prompt.handleClose (h : Prompt pingPongTimeout now due c)
    (hlive : ∀ entry ∈ c'.live, entry ∈ c.live) (hslot : c'.kickoffEntries = c.kickoffEntries)
    (hmessages : c'.messages = c.messages) (kickedOff : Bool) :
    Prompt pingPongTimeout now due { c'.handleClose with kickedOff := kickedOff } := by
  apply prompt_of_none
  intro (hresponsive : Responsive _ _ c'.messages) made d hmem hd
  obtain ⟨hmem, -, hother⟩ := mem_handleClose_live.mp hmem
  rw [hmessages] at hresponsive
  rw [hslot, (h hresponsive made d (hlive _ hmem) hd).1] at hother
  exact hother rfl

end Prompt

section Tick

variable {pingPongInterval pingPongTimeout : Nat} {clock : TimingWheel ServerEntry}
  {old : Set (Nat × ServerEntry)} {done : List ServerEntry} {r : Connection × Calls}

/-- What holds while a tick destroys entries, when the entries that kick off wait long enough. -/
structure Timed (pingPongTimeout : Nat) (clock : TimingWheel ServerEntry)
    (old : Set (Nat × ServerEntry)) (done : List ServerEntry) (r : Connection × Calls) : Prop where
  turned : Turned pingPongTimeout clock old done r
  prompt : Prompt pingPongTimeout clock.ticksCounter (old ∪ enteredAt 1 clock r.2) r.1
  kicked : r.1.kickedOff = true → ¬Responsive pingPongTimeout clock.ticksCounter r.1.messages

theorem deadline_of_new {fresh : Calls} (h : Turned pingPongTimeout clock old done r)
    {d : Nat} (entry : ServerEntry) (hnew : r.1.made ≤ entry.made)
    (hd : (d, entry) ∈ old ∪ enteredAt 1 clock (r.2 ++ fresh)) :
    ∃ delay, (delay, entry) ∈ fresh ∧ d = deadlineAt 1 clock delay entry := by
  rcases hd with hd | ⟨call, hcall, -, heq⟩
  · exact absurd (h.old _ hd) (Nat.not_lt.mpr hnew)
  · obtain ⟨hdeadline, rfl⟩ := Prod.mk.inj heq
    rcases List.mem_append.mp hcall with hcall | hcall
    · exact absurd (h.calls call hcall) (Nat.not_lt.mpr hnew)
    · exact ⟨call.1, hcall, hdeadline⟩

theorem Timed.no_kick (h : Timed pingPongTimeout clock old done r) {next : Nat}
    (hlive : .PingPongEntry next ∈ r.1.live)
    (hdue : (clock.ticksCounter, .PingPongEntry next) ∈ old)
    (hresponsive : Responsive pingPongTimeout clock.ticksCounter r.1.messages) (made : Nat) :
    .KickoffEntry made ∉ r.1.live := by
  intro hmem
  obtain ⟨d, hd⟩ := h.turned.books.inWheel _ hmem
  obtain ⟨-, ⟨ping, hping, hwaits⟩, hnext⟩ := h.prompt hresponsive made d hmem hd
  have hle := hnext next clock.ticksCounter hlive (Or.inl hdue)
  have hlt := hresponsive.2 ping hping
  omega

theorem Timed.ping (h : Timed pingPongTimeout clock old done r) (hinterval : 0 < pingPongInterval)
    (htimeout : 0 < pingPongTimeout) (hclock : 0 < clock.ticksCounter)
    (hwaits : WaitsLong pingPongInterval pingPongTimeout clock)
    {made : Nat} (hlive : .PingPongEntry made ∈ r.1.live) (hconnected : r.1.status = .Connected)
    (hdue : (clock.ticksCounter, .PingPongEntry made) ∈ old) :
    Timed pingPongTimeout clock old (.PingPongEntry made :: done)
      (makePingPongEntry pingPongInterval (makeKickoffEntry pingPongTimeout
        (sendPing clock.ticksCounter (r.1.reset (some (.PingPongEntry made))), r.2))) := by
  have hcalls : (makePingPongEntry pingPongInterval (makeKickoffEntry pingPongTimeout
      (sendPing clock.ticksCounter (r.1.reset (some (.PingPongEntry made))), r.2))).2 =
      r.2 ++ [(pingPongTimeout, .KickoffEntry r.1.made),
        (pingPongInterval, .PingPongEntry (r.1.made + 1))] := List.append_assoc ..
  refine ⟨h.turned.ping hinterval htimeout hclock hlive hconnected, ?_, ?_⟩
  · intro hresponsive kick d hmem hd
    have hnone := h.no_kick hlive hdue (Responsive.of_ping hresponsive)
    rw [hcalls] at hd
    -- Of the entries in question only the two new ones are live.
    have hkick : kick = r.1.made := by
      rcases List.mem_cons.mp hmem with heq | hmem
      · contradiction
      rcases List.mem_cons.mp hmem with heq | hmem
      · exact ServerEntry.KickoffEntry.inj heq
      · exact absurd (mem_reset_live.mp hmem).1 (hnone kick)
    subst hkick
    obtain ⟨delay, hdelay, rfl⟩ :=
      deadline_of_new h.turned (.KickoffEntry r.1.made) (Nat.le_refl _) hd
    have hdelay : delay = pingPongTimeout := by simpa using hdelay
    subst hdelay
    refine ⟨rfl, ⟨clock.ticksCounter, ?_, (hwaits _ (.PingPongEntry 0)).1⟩, ?_⟩
    · exact List.mem_append_right _ List.mem_cons_self
    · intro next d' hmem' hd'
      rw [hcalls] at hd'
      have hnext : next = r.1.made + 1 := by
        rcases List.mem_cons.mp hmem' with heq | hmem'
        · exact ServerEntry.PingPongEntry.inj heq
        rcases List.mem_cons.mp hmem' with heq | hmem'
        · contradiction
        · obtain ⟨hother, hne⟩ := mem_reset_live.mp hmem'
          have hslot := h.turned.books.recorded made hlive
          rw [h.turned.books.recorded next hother] at hslot
          rw [Option.some.inj hslot] at hne
          exact absurd rfl hne
      subst hnext
      obtain ⟨delay', hdelay', rfl⟩ :=
        deadline_of_new h.turned (.PingPongEntry (r.1.made + 1)) (Nat.le_succ _) hd'
      have hdelay' : delay' = pingPongInterval := by simpa using hdelay'
      subst hdelay'
      exact (hwaits _ _).2
  · intro hkicked hresponsive
    exact h.kicked hkicked hresponsive.of_ping

theorem destroy_timed (h : Timed pingPongTimeout clock old done r)
    (hinterval : 0 < pingPongInterval) (htimeout : 0 < pingPongTimeout)
    (hclock : 0 < clock.ticksCounter)
    (hwaits : WaitsLong pingPongInterval pingPongTimeout clock)
    {entry : ServerEntry} (hdue : (clock.ticksCounter, entry) ∈ old) :
    Timed pingPongTimeout clock old (entry :: done)
      (destroy pingPongInterval pingPongTimeout clock.ticksCounter r entry) := by
  have hturned := destroy_turned h.turned hinterval htimeout hclock hdue
  rcases destroy_cases pingPongInterval pingPongTimeout clock.ticksCounter r entry with
    ⟨hr, -⟩ | ⟨made, rfl, hlive, hconnected, hr⟩ | ⟨made, rfl, hlive, hopen, hr⟩
  · rw [hr] at hturned ⊢
    refine ⟨hturned, ?_, h.kicked⟩
    exact h.prompt.mono subset_rfl (fun e hmem => (mem_reset_live.mp hmem).1) rfl rfl
  · rw [hr]
    exact h.ping hinterval htimeout hclock hwaits hlive hconnected hdue
  · rw [hr] at hturned ⊢
    refine ⟨hturned, ?_, ?_⟩
    · exact h.prompt.handleClose (fun e hmem => (mem_reset_live.mp hmem).1) rfl rfl true
    · -- It has waited for the timeout.
      intro _ (hresponsive : Responsive _ _ r.1.messages)
      obtain ⟨-, ⟨ping, hping, hwaited⟩, -⟩ :=
        h.prompt hresponsive made clock.ticksCounter hlive (Or.inl hdue)
      have hlt := hresponsive.2 ping hping
      omega

theorem foldl_timed (hinterval : 0 < pingPongInterval) (htimeout : 0 < pingPongTimeout)
    (hclock : 0 < clock.ticksCounter)
    (hwaits : WaitsLong pingPongInterval pingPongTimeout clock)
    {order : List ServerEntry} (h : Timed pingPongTimeout clock old done r)
    (hdue : ∀ entry ∈ order, (clock.ticksCounter, entry) ∈ old) :
    ∃ done', Timed pingPongTimeout clock old done'
      (order.foldl (destroy pingPongInterval pingPongTimeout clock.ticksCounter) r) := by
  induction order generalizing r done with
  | nil => exact ⟨done, h⟩
  | cons entry order ih =>
      have hnext := destroy_timed h hinterval htimeout hclock hwaits
        (hdue entry List.mem_cons_self)
      exact ih hnext fun e he => hdue e (List.mem_cons_of_mem _ he)

end Tick

structure Timely (s : Process) : Prop where
  kept : Kept s
  prompt : Prompt s.pingPongTimeout s.wheel.ticksCounter s.pending s.conn
  kicked : s.conn.kickedOff = true →
    ¬Responsive s.pingPongTimeout s.wheel.ticksCounter s.conn.messages

section Steps

variable {s s' : Process}

theorem ticked_timely (h : Timely s) (hsuited : Suited s.pingPongInterval s.pingPongTimeout)
    {order : List ServerEntry} (horder : order.Perm (front s.wheel)) : Timely (ticked s order) := by
  have hpos := Nat.succ_pos s.wheel.ticksCounter
  have hstart : Timed s.pingPongTimeout (counted s.wheel) s.pending [] (s.conn, []) := by
    refine ⟨h.kept.start, ?_, ?_⟩
    · apply (h.prompt.later (Nat.le_succ _)).mono _ (fun e hmem => hmem) rfl rfl
      rintro p (hp | ⟨call, hcall, -⟩)
      · exact hp
      · contradiction
    · intro hkicked hresponsive
      exact h.kicked hkicked (hresponsive.mono (Nat.le_succ _))
  obtain ⟨done, htimed⟩ := foldl_timed (Nat.lt_of_succ_lt h.kept.interval) h.kept.timeout hpos
    (waitsLong_of_suited h.kept.wheel.counted h.kept.interval hpos hsuited) hstart
    fun entry hentry => (h.kept.due horder).mp hentry
  obtain ⟨hclock, hplaced, hpending⟩ := ticked_pending h.kept order
  refine ⟨ticked_kept h.kept horder, ?_, ?_⟩
  · rw [hclock.ticksCounter, hpending]
    apply htimed.prompt.mono _ (fun e hmem => hmem) rfl rfl
    exact Set.union_subset_union_left _ fun p hp => hp.1
  · rw [hclock.ticksCounter]
    exact htimed.kicked

theorem step_timely (h : Timely s) (hsuited : Suited s.pingPongInterval s.pingPongTimeout)
    {a : Action} (hstep : step s a = some s') : Timely s' := by
  have hkept := step_kept h.kept hstep
  rcases step_cases hstep with ⟨-, hstatus, rfl⟩ | ⟨-, -, rfl⟩ | ⟨-, -, rfl⟩ | ⟨-, -, rfl⟩ |
    ⟨order, -, horder, rfl⟩
  · obtain ⟨hclock, -, -⟩ := connected_pending h.kept
    obtain ⟨hlive, -⟩ := h.kept.books.connecting hstatus
    refine ⟨hkept, ?_, ?_⟩
    · apply prompt_of_none
      intro _ made d hmem _
      rcases List.mem_cons.mp hmem with heq | hmem
      · contradiction
      · change _ ∈ s.conn.live at hmem
        rw [hlive] at hmem
        contradiction
    · rw [hclock.ticksCounter]
      exact h.kicked
  · refine ⟨hkept, h.prompt.pong, ?_⟩
    intro hkicked hresponsive
    exact h.kicked hkicked hresponsive.of_pong
  · exact ⟨hkept, h.prompt.mono subset_rfl (fun e hmem => hmem) rfl rfl, h.kicked⟩
  · refine ⟨hkept, ?_, h.kicked⟩
    exact h.prompt.handleClose (fun e hmem => hmem) rfl rfl s.conn.kickedOff
  · exact ticked_timely h hsuited horder

end Steps

theorem allSteps_kicksUnresponsive {pingPongInterval pingPongTimeout : Nat}
    (hinterval : 1 < pingPongInterval) (htimeout : 0 < pingPongTimeout)
    (hsuited : Suited pingPongInterval pingPongTimeout) (actions : List Action) :
    AllSteps step KicksUnresponsive (init pingPongInterval pingPongTimeout hinterval) actions := by
  let Inv (s : Process) : Prop := Timely s ∧ s.pingPongInterval = pingPongInterval ∧
    s.pingPongTimeout = pingPongTimeout
  have hinv : ∀ s a s', Inv s → step s a = some s' → Inv s' := by
    rintro s a s' ⟨htimely, rfl, rfl⟩ hstep
    exact ⟨step_timely htimely hsuited hstep, step_parameters hstep⟩
  have hinit : Inv (init pingPongInterval pingPongTimeout hinterval) := by
    refine ⟨⟨init_kept hinterval htimeout, ?_, ?_⟩, rfl, rfl⟩
    · apply prompt_of_none
      intro _ made d hmem
      contradiction
    · intro hkicked
      contradiction
  have htrue : AllSteps step (fun _ _ => True) (init pingPongInterval pingPongTimeout hinterval)
      actions := allSteps_of_forall (fun _ _ _ => trivial) _
  apply htrue.imp Inv (fun s a s' hs _ => hinv s a s' hs) _ hinit
  intro s a hs _ s' hstep _ hkicked
  have hafter := hinv s a s' hs hstep
  rw [hs.2.2, ← hafter.2.2]
  exact hafter.1.kicked hkicked

section Silence

variable {pingPongInterval pingPongTimeout tick : Nat} {r : Connection × Calls}

theorem destroy_messages (entry : ServerEntry) :
    let r' := destroy pingPongInterval pingPongTimeout tick r entry
    r'.1.messages = r.1.messages ∨ r'.1.messages = .PING tick :: r.1.messages := by
  rcases destroy_cases pingPongInterval pingPongTimeout tick r entry with
    ⟨hr, -⟩ | ⟨made, rfl, -, -, hr⟩ | ⟨made, rfl, -, -, hr⟩
  · rw [hr]
    exact Or.inl rfl
  · rw [hr]
    exact Or.inr rfl
  · rw [hr]
    exact Or.inl rfl

theorem foldl_messages (order : List ServerEntry) {since : Nat} (hsince : since ≤ tick)
    (hintime : InTime pingPongTimeout r.1.messages)
    (hpings : ∀ ping ∈ outstanding r.1.messages, since ≤ ping) :
    let r' := order.foldl (destroy pingPongInterval pingPongTimeout tick) r
    InTime pingPongTimeout r'.1.messages ∧ ∀ ping ∈ outstanding r'.1.messages, since ≤ ping := by
  induction order generalizing r with
  | nil => exact ⟨hintime, hpings⟩
  | cons entry order ih =>
      apply ih
      · rcases destroy_messages (r := r) entry with hmessages | hmessages
        · rw [hmessages]
          exact hintime
        · rw [hmessages]
          exact hintime
      · rcases destroy_messages (r := r) entry with hmessages | hmessages
        · rw [hmessages]
          exact hpings
        · rw [hmessages]
          intro ping hping
          rcases List.mem_append.mp hping with hping | hping
          · exact hpings ping hping
          · rw [List.mem_singleton.mp hping]
            exact hsince

theorem foldl_kickedOff (order : List ServerEntry) (hkicked : r.1.kickedOff = true) :
    (order.foldl (destroy pingPongInterval pingPongTimeout tick) r).1.kickedOff = true := by
  induction order generalizing r with
  | nil => exact hkicked
  | cons entry order ih =>
      apply ih
      rcases destroy_cases pingPongInterval pingPongTimeout tick r entry with
        ⟨hr, -⟩ | ⟨made, rfl, -, -, hr⟩ | ⟨made, rfl, -, -, hr⟩
      · rw [hr]
        exact hkicked
      · rw [hr]
        exact hkicked
      · rw [hr]

theorem foldl_kick (order : List ServerEntry) (hconnected : r.1.status = .Connected) :
    let r' := order.foldl (destroy pingPongInterval pingPongTimeout tick) r
    r'.1.kickedOff = true ∨ r'.1.status = .Connected ∧
      ∀ made, .KickoffEntry made ∈ r.1.live →
        .KickoffEntry made ∈ r'.1.live ∧ .KickoffEntry made ∉ order := by
  induction order generalizing r with
  | nil => exact Or.inr ⟨hconnected, fun made hmem => ⟨hmem, List.not_mem_nil⟩⟩
  | cons entry order ih =>
      rw [List.foldl_cons]
      rcases destroy_cases pingPongInterval pingPongTimeout tick r entry with
        ⟨hr, hquiet⟩ | ⟨made, rfl, -, -, hr⟩ | ⟨made, rfl, -, -, hr⟩
      · have hgone : entry ∉ r.1.live := fun hmem => hquiet hmem hconnected
        rw [reset_of_notMem hgone] at hr
        rw [hr]
        apply (ih hconnected).imp_right
        rintro ⟨hstill, hkicks⟩
        refine ⟨hstill, ?_⟩
        intro made hmem
        obtain ⟨hlive, hnot⟩ := hkicks made hmem
        refine ⟨hlive, ?_⟩
        intro hmem'
        rcases List.mem_cons.mp hmem' with rfl | hmem'
        · exact hgone hmem
        · exact hnot hmem'
      · have hstatus : (makePingPongEntry pingPongInterval (makeKickoffEntry pingPongTimeout
            (sendPing tick (r.1.reset (some (.PingPongEntry made))), r.2))).1.status = .Connected :=
          hconnected
        rw [hr]
        apply (ih hstatus).imp_right
        rintro ⟨hstill, hkicks⟩
        refine ⟨hstill, ?_⟩
        intro kick hmem
        have hreset : .KickoffEntry kick ∈ (r.1.reset (some (.PingPongEntry made))).live := by
          apply mem_reset_live.mpr ⟨hmem, _⟩
          simp
        obtain ⟨hlive, hnot⟩ :=
          hkicks kick (List.mem_cons_of_mem _ (List.mem_cons_of_mem _ hreset))
        refine ⟨hlive, ?_⟩
        intro hmem'
        rcases List.mem_cons.mp hmem' with heq | hmem'
        · contradiction
        · exact hnot hmem'
      · left
        apply foldl_kickedOff
        rw [hr]

end Silence

/-- A `KickoffEntry` will go off before the timeout has passed since the PING at `since`, after
which the client has been silent. -/
structure Doomed (since : Nat) (s : Process) : Prop where
  kept : Kept s
  connected : s.conn.status = .Connected
  notYet : s.conn.kickedOff = false
  inTime : InTime s.pingPongTimeout s.conn.messages
  since_le : since ≤ s.wheel.ticksCounter
  pings : ∀ ping ∈ outstanding s.conn.messages, since ≤ ping
  kick : ∃ made d, ServerEntry.KickoffEntry made ∈ s.conn.live ∧
    (d, ServerEntry.KickoffEntry made) ∈ s.pending ∧ d < since + s.pingPongTimeout

theorem Doomed.ticked {since : Nat} {s : Process} (h : Doomed since s) {order : List ServerEntry}
    (horder : order.Perm (front s.wheel))
    (hnotYet : (ticked s order).conn.kickedOff = false) : Doomed since (ticked s order) := by
  obtain ⟨made, d, hlive, hd, hsoon⟩ := h.kick
  obtain ⟨hclock, -, hpending⟩ := ticked_pending h.kept order
  have hnow : (PingPong.ticked s order).wheel.ticksCounter = s.wheel.ticksCounter + 1 :=
    hclock.ticksCounter
  have hsince := Nat.le_succ_of_le h.since_le
  obtain ⟨hintime, hpings⟩ := @foldl_messages s.pingPongInterval s.pingPongTimeout _
    (s.conn, []) order since hsince h.inTime h.pings
  obtain ⟨hconnected, hkicks⟩ := (@foldl_kick s.pingPongInterval s.pingPongTimeout
    (s.wheel.ticksCounter + 1) (s.conn, []) order h.connected).resolve_left
    (Bool.eq_false_iff.mp hnotYet)
  obtain ⟨hstill, hnot⟩ := hkicks made hlive
  refine ⟨ticked_kept h.kept horder, hconnected, hnotYet, hintime, hnow ▸ hsince, hpings, made, d,
    hstill, ?_, hsoon⟩
  rw [hpending]
  refine Or.inl ⟨hd, ?_⟩
  rintro (rfl : d = _)
  exact hnot ((h.kept.due horder).mpr hd)

theorem Doomed.kicks {since : Nat} {s : Process} (h : Doomed since s) :
    ∃ actions, ¬AllSteps step KicksUnresponsive s actions := by
  induction hleft : since + s.pingPongTimeout - s.wheel.ticksCounter generalizing s with
  | zero =>
      obtain ⟨made, d, -, hd, hsoon⟩ := h.kick
      have hlater : s.wheel.ticksCounter < d := lt_of_mem_pendingAt h.kept.placed hd
      omega
  | succ left ih =>
      obtain ⟨made, d, hlive, hd, hsoon⟩ := h.kick
      have hlater : s.wheel.ticksCounter < d := lt_of_mem_pendingAt h.kept.placed hd
      have hstep : step s (.tick (front s.wheel)) = some (PingPong.ticked s (front s.wheel)) :=
        if_pos (List.Perm.refl _)
      have hnow : (PingPong.ticked s (front s.wheel)).wheel.ticksCounter =
          s.wheel.ticksCounter + 1 := (ticked_pending h.kept (front s.wheel)).1.ticksCounter
      rcases hkicked : (PingPong.ticked s (front s.wheel)).conn.kickedOff with _ | _
      · have hparameters := (step_parameters hstep).2
        obtain ⟨actions, hactions⟩ := ih (h.ticked (List.Perm.refl _) hkicked) (by omega)
        refine ⟨.tick (front s.wheel) :: actions, ?_⟩
        rintro ⟨-, hrest⟩
        exact hactions (hrest _ hstep)
      · obtain ⟨hintime, hpings⟩ := @foldl_messages s.pingPongInterval s.pingPongTimeout _
          (s.conn, []) (front s.wheel) since (Nat.le_succ_of_le h.since_le) h.inTime h.pings
        refine ⟨[.tick (front s.wheel)], ?_⟩
        rintro ⟨hunresponsive, -⟩
        apply hunresponsive _ hstep h.notYet hkicked
        refine ⟨hintime, ?_⟩
        intro ping hping
        have hle := hpings ping hping
        rw [hnow]
        omega

theorem doomed_of_pinged {pingPongInterval pingPongTimeout : Nat} {clock : TimingWheel ServerEntry}
    {s : Process} (h : Pinged pingPongInterval pingPongTimeout clock s)
    (hsoon : deadlineAt 1 clock pingPongTimeout (.KickoffEntry 1) <
      clock.ticksCounter + pingPongTimeout) : Doomed clock.ticksCounter s := by
  refine ⟨h.kept, congrArg Connection.status h.conn, congrArg Connection.kickedOff h.conn, ?_,
    h.ticksCounter.ge, ?_, 1, deadlineAt 1 clock pingPongTimeout (.KickoffEntry 1), ?_, ?_, ?_⟩
  · rw [h.conn]
    trivial
  · rw [h.conn]
    intro ping hping
    exact (List.mem_singleton.mp hping).ge
  · rw [h.conn]
    exact List.mem_cons_of_mem _ List.mem_cons_self
  · rw [h.pending]
    exact Or.inl rfl
  · rw [h.timeout]
    exact hsoon

/-- What rounding adds to a timeout is less than what a tick that rotates all wheels takes away. -/
theorem deadlineAt_lt_of_rotatedLater {clock : TimingWheel ServerEntry} {pingPongTimeout : Nat}
    (hbuckets : clock.bucketsNumPerWheel = 100) (ht : 0 < clock.ticksCounter)
    (hdvd : clock.bucketsNumPerWheel ^ clock.wheelsNum ∣ clock.ticksCounter) {kick : ServerEntry}
    (hlater : RotatedLater clock pingPongTimeout kick) :
    deadlineAt 1 clock pingPongTimeout kick < clock.ticksCounter + pingPongTimeout := by
  rcases Nat.lt_or_ge pingPongTimeout (2 ^ 24) with hexact | hrounded
  · have hearly := deadlineAt_one_add_le ht hlater
    rw [hbuckets, delayTicks_of_lt hexact] at hearly
    omega
  · have hratio := deadlineAt_one_ratio ht hdvd hlater
    have hfloat := two_pow_mul_roundToEven_le (p := 24) (by decide) pingPongTimeout
    have hticks := two_pow_mul_roundToEven_le (p := 24) (by decide) (toFloat pingPongTimeout + 1)
    rw [hbuckets] at hratio
    rw [← toFloat] at hfloat
    rw [← toFloat, ← delayTicks] at hticks
    omega

/-- With all other parameters there is a tick in which the entry for the timeout is entered for a
tick that is too early. -/
theorem exists_soon {pingPongInterval pingPongTimeout : Nat} (hinterval : 1 < pingPongInterval)
    (hunsuited : ¬Suited pingPongInterval pingPongTimeout) :
    ∃ idle, ∀ clock : TimingWheel ServerEntry, MadeFor pingPongInterval clock →
      clock.ticksCounter = idle + delayTicks pingPongInterval →
      deadlineAt 1 clock pingPongTimeout (.KickoffEntry 1) <
        clock.ticksCounter + pingPongTimeout := by
  rw [Suited] at hunsuited
  by_cases hshort : pingPongInterval < 500
  · refine ⟨0, ?_⟩
    intro clock hmade _
    rw [hmade.deadlineAt_of_short hinterval hshort Nat.one_pos]
    omega
  · have hlong := Nat.le_of_not_lt hshort
    have htimeout : 100 ≤ pingPongTimeout := by omega
    refine ⟨2 * 100 ^ wheelsFor pingPongInterval - delayTicks pingPongInterval, ?_⟩
    intro clock hmade hnow
    have hbuckets := hmade.bucketsNumPerWheel_of_long hlong
    have hroom := delayTicks_le_wheelsFor hlong
    have hsize := Nat.one_le_pow (wheelsFor pingPongInterval) 100 (by decide)
    have hticks := delayTicks_pos pingPongInterval
    -- All wheels are rotated in this tick.
    have hdvd : clock.bucketsNumPerWheel ^ clock.wheelsNum ∣ clock.ticksCounter := by
      refine ⟨2, ?_⟩
      rw [hbuckets, hmade.wheelsNum, hnow, Nat.mul_comm]
      omega
    have hfar : clock.bucketsNumPerWheel < delayTicks pingPongTimeout := by
      rw [hbuckets]
      exact lt_delayTicks (by decide) htimeout
    apply deadlineAt_lt_of_rotatedLater hbuckets (by omega) hdvd
    exact rotatedLater_of_dvd (hmade.two_le_wheelsNum hlong) hfar hdvd _

/-- `KickoffEntry` leaves a responsive client alone exactly when the timeout is at most one tick
longer than the interval, or when the interval is so long that the wheel has 100 buckets and the
timeout fits these. -/
theorem kicksUnresponsive_iff {pingPongInterval pingPongTimeout : Nat}
    (hinterval : 1 < pingPongInterval) (htimeout : 0 < pingPongTimeout) :
    (∀ actions,
        AllSteps step KicksUnresponsive (init pingPongInterval pingPongTimeout hinterval) actions) ↔
      pingPongInterval < 500 ∧ pingPongTimeout ≤ pingPongInterval + 1 ∨
        500 ≤ pingPongInterval ∧ pingPongTimeout < 100 := by
  constructor
  · intro hall
    by_contra hunsuited
    obtain ⟨idle, hidle⟩ := exists_soon hinterval hunsuited
    obtain ⟨s, clock, hrun, hnow, hpinged⟩ := run_firstPing hinterval htimeout idle
    obtain ⟨actions, hactions⟩ := (doomed_of_pinged hpinged (hidle clock hpinged.made hnow)).kicks
    exact hactions ((hall (firstPing pingPongInterval idle ++ actions)).drop hrun)
  · exact allSteps_kicksUnresponsive hinterval htimeout

theorem kicksUnresponsive_iff_default :
    (∀ actions, AllSteps step KicksUnresponsive (init 10 3 (by decide)) actions) ↔
      10 < 500 ∧ 3 ≤ 10 + 1 ∨ 500 ≤ 10 ∧ 3 < 100 :=
  kicksUnresponsive_iff (by decide) (by decide)

section Overwritten

theorem deadlineAt_of_not_dvd {clock : TimingWheel ServerEntry} (hmade : MadeFor 500 clock)
    (hodd : ¬100 ∣ clock.ticksCounter) {delay : Nat} (hdelay : delay < 10000) (id : ServerEntry) :
    deadlineAt 1 clock delay id = clock.ticksCounter + delay + 1 := by
  have hbuckets : clock.bucketsNumPerWheel = 100 := hmade.bucketsNumPerWheel
  have hwheels : clock.wheelsNum = 2 := hmade.wheelsNum
  have hticks : delayTicks delay = delay + 1 := delayTicks_of_lt (by omega)
  rw [deadlineAt_one_of_not_rotatedLater]
  · rw [position_deadline, hticks]
    · rfl
    · rw [hbuckets, hwheels, hticks]
      exact hdelay
  · rintro ⟨hpos, hdvd⟩
    apply hodd
    rw [hbuckets] at hdvd
    exact (dvd_pow_self 100 hpos.ne').trans hdvd

theorem exists_pong {s : Process} (h : Kept s) (hopen : s.conn.isOpen = true) :
    ∃ s', step s .pong = some s' ∧ Kept s' ∧ s'.wheel = s.wheel ∧
      s'.pingPongTimeout = s.pingPongTimeout ∧ s'.conn =
        { s.conn.resetKickoffEntry with
          messages := .PONG s.wheel.ticksCounter :: s.conn.messages } := by
  let s' : Process := { s with conn :=
    { s.conn.resetKickoffEntry with
      messages := .PONG s.wheel.ticksCounter :: s.conn.messages } }
  have hstep : step s .pong = some s' := if_pos hopen
  exact ⟨s', hstep, step_kept h hstep, rfl, rfl, rfl⟩

theorem run_secondPing :
    ∃ s, runSteps step (init 500 600 (by decide)) (firstPing 500 0 ++
        (List.replicate 500 (.tick []) ++ [.tick [.PingPongEntry 2]])) = some s ∧
      Kept s ∧ s.pingPongTimeout = 600 ∧ s.wheel.ticksCounter = 1002 ∧
      s.conn =
        { status := .Connected
          live := [.PingPongEntry 4, .KickoffEntry 3, .KickoffEntry 1]
          pingPongEntries := some 4
          kickoffEntries := some 3
          made := 5
          messages := [.PING 1002, .PING 501]
          kickedOff := false } ∧
      ∀ p, p ∈ s.pending ↔ p = (1102, .KickoffEntry 1) ∨ p = (1603, .KickoffEntry 3) ∨
        p = (1503, .PingPongEntry 4) := by
  obtain ⟨s, clock, hrun, hfirst, h⟩ := @run_firstPing 500 600 (by decide) (by decide) 0
  have hnow : clock.ticksCounter = 501 := by rw [hfirst, delayTicks_of_lt (by decide)]
  have hodd : ¬100 ∣ clock.ticksCounter := by
    rw [hnow]
    decide
  have hpending : s.pending = { (1102, .KickoffEntry 1), (1002, .PingPongEntry 2) } := by
    rw [h.pending, deadlineAt_of_not_dvd h.made hodd (by decide),
      deadlineAt_of_not_dvd h.made hodd (by decide), hnow]
  obtain ⟨clock', s', hsent⟩ := @exists_pingSent s h.kept 500 2
    (by rw [h.conn]; exact List.mem_cons_self) (by rw [h.conn])
    (by
      rw [hpending, h.ticksCounter, hnow]
      rintro p (rfl | rfl) <;> decide)
    (by
      intro entry
      rw [hpending, h.ticksCounter, hnow]
      constructor
      · rintro (heq | heq)
        · exact absurd (congrArg Prod.fst heq) (show 1002 ≠ 1102 by decide)
        · exact congrArg Prod.snd heq
      · rintro rfl
        exact Or.inr rfl)
  have hclock : clock'.ticksCounter = 1002 := by rw [hsent.sentAt, h.ticksCounter, hnow]
  have hmade : MadeFor 500 clock' := h.interval ▸ hsent.madeFor
  have hodd' : ¬100 ∣ clock'.ticksCounter := by
    rw [hclock]
    decide
  refine ⟨s', ?_, hsent.kept, hsent.timeout.trans h.timeout,
    hsent.ticksCounter.trans hclock, ?_, ?_⟩
  · rw [runSteps_append, hrun]
    exact hsent.run
  · rw [hsent.conn, h.conn, hclock, hnow]
    rfl
  · intro p
    rw [hsent.pending, hpending, h.conn, h.interval, h.timeout,
      deadlineAt_of_not_dvd hmade hodd' (by decide), deadlineAt_of_not_dvd hmade hodd' (by decide),
      hclock]
    constructor
    · rintro (⟨rfl | rfl, hne⟩ | rfl | rfl)
      · exact Or.inl rfl
      · exact absurd rfl hne
      · exact Or.inr (Or.inl rfl)
      · exact Or.inr (Or.inr rfl)
    · rintro (rfl | rfl | rfl)
      · exact Or.inl ⟨Or.inl rfl, show 1102 ≠ 1002 by decide⟩
      · exact Or.inr (Or.inl rfl)
      · exact Or.inr (Or.inr rfl)

def overwritten : List Action :=
  firstPing 500 0 ++ (List.replicate 500 (.tick []) ++ [.tick [.PingPongEntry 2]]) ++
    .pong :: .pong :: List.replicate 99 (.tick [])

/-- The first entry then closes the connection, although both PINGs have been answered in time. -/
theorem run_overwritten :
    ∃ s s', runSteps step (init 500 600 (by decide)) overwritten = some s ∧
      s.pingPongTimeout = 600 ∧ s.conn.kickedOff = false ∧
      step s (.tick [.KickoffEntry 1]) = some s' ∧ s'.conn.kickedOff = true ∧
      s'.wheel.ticksCounter = 1102 ∧
      s'.conn.messages = [.PONG 1002, .PONG 1002, .PING 1002, .PING 501] := by
  obtain ⟨s, hrun, hkept, htimeout, hnow, hconn, hpending⟩ := run_secondPing
  have hopen : s.conn.isOpen = true := by
    rw [hconn]
    rfl
  obtain ⟨s₁, hpong, hkept₁, hwheel₁, htimeout₁, hconn₁⟩ := exists_pong hkept hopen
  obtain ⟨s₂, hpong', hkept₂, hwheel₂, htimeout₂, hconn₂⟩ :=
    exists_pong hkept₁ (by rw [hconn₁]; exact hopen)
  rw [hconn₁, hwheel₁, hnow, hconn] at hconn₂
  have hwheel : s₂.wheel = s.wheel := hwheel₂.trans hwheel₁
  have hpending₂ : s₂.pending = s.pending := by
    rw [Process.pending, hwheel]
    rfl
  obtain ⟨s₃, h₃⟩ := exists_waited hkept₂ 99 (by
    rw [hpending₂, hwheel, hnow]
    intro p hp
    rcases (hpending p).mp hp with rfl | rfl | rfl <;> decide)
  have hnow₃ : s₃.wheel.ticksCounter = 1101 := by rw [h₃.ticksCounter, hwheel, hnow]
  have hconn₃ := h₃.conn.trans hconn₂
  have horder : [.KickoffEntry 1].Perm (front s₃.wheel) := by
    apply perm_front_singleton h₃.kept
    intro entry
    rw [h₃.pending, hpending₂, hnow₃, hpending]
    constructor
    · rintro (heq | heq | heq)
      · exact congrArg Prod.snd heq
      · exact absurd (congrArg Prod.fst heq) (show 1102 ≠ 1603 by decide)
      · exact absurd (congrArg Prod.fst heq) (show 1102 ≠ 1503 by decide)
    · rintro rfl
      exact Or.inl rfl
  refine ⟨s₃, ticked s₃ [.KickoffEntry 1], ?_, ?_, ?_, if_pos horder, ?_, ?_, ?_⟩
  · rw [overwritten, runSteps_append, hrun, Option.bind_some, runSteps_cons, hpong,
      Option.bind_some, runSteps_cons, hpong', Option.bind_some, h₃.run]
  · rw [h₃.timeout, htimeout₂, htimeout₁, htimeout]
  · rw [hconn₃]
    rfl
  · change (destroy s₃.pingPongInterval s₃.pingPongTimeout (s₃.wheel.ticksCounter + 1)
      (s₃.conn, []) (.KickoffEntry 1)).1.kickedOff = true
    rw [hconn₃]
    rfl
  · rw [(ticked_pending h₃.kept _).1.ticksCounter]
    exact congrArg (· + 1) hnow₃
  · change (destroy s₃.pingPongInterval s₃.pingPongTimeout (s₃.wheel.ticksCounter + 1)
      (s₃.conn, []) (.KickoffEntry 1)).1.messages = _
    rw [hconn₃]
    rfl

theorem not_kicksUnresponsive : ¬ ∀ (pingPongInterval pingPongTimeout : Nat)
    (hinterval : 1 < pingPongInterval), 0 < pingPongTimeout → ∀ actions, AllSteps step
      KicksUnresponsive (init pingPongInterval pingPongTimeout hinterval) actions := by
  intro h
  have hall := h 500 600 (by decide) (by decide) (overwritten ++ [.tick [.KickoffEntry 1]])
  obtain ⟨s, s', hrun, htimeout, hopen, hstep, hkicked, hnow, hmessages⟩ := run_overwritten
  apply (hall.drop hrun).1 s' hstep hopen hkicked
  rw [htimeout, hnow, hmessages]
  refine ⟨⟨?_, ?_, trivial⟩, ?_⟩
  · rintro ping (heq : some 1002 = some ping)
    rw [← Option.some.inj heq]
    decide
  · rintro ping (heq : some 501 = some ping)
    rw [← Option.some.inj heq]
    decide
  · intro ping (hping : ping ∈ ([] : List Nat))
    exact absurd hping List.not_mem_nil

end Overwritten

end Cooper.PingPongTiming

import Cooper.ServerWheel
import Cooper.StepRun
import Cooper.TcpConnectionImpl

namespace Cooper.PingPong

open Cooper.ServerWheel
open Cooper.StepRun
open Cooper.TcpConnectionImpl (ConnStatus)
open Cooper.Wheel
open Cooper.WheelDeadline
open Cooper.WheelReinsertion

/-- What an `EntryPtr` of the wheel points to, by the number of entries that were made before. -/
inductive ServerEntry
  | PingPongEntry (made : Nat)
  | KickoffEntry (made : Nat)
  deriving DecidableEq

def ServerEntry.made : ServerEntry → Nat
  | .PingPongEntry made => made
  | .KickoffEntry made => made

/-- What server and client tell each other, with the tick that was last. -/
inductive Message
  | PING (tick : Nat)
  | PONG (tick : Nat)
  deriving DecidableEq

/-- What the server keeps for a connection: the slots of its maps, and in `live` the entries that
exist and have not been reset. `messages` are the PINGs that have been sent and the PONGs that have
been processed, the last one first, and `kickedOff` says whether a `KickoffEntry` has closed the
connection. -/
structure Connection where
  status : ConnStatus
  live : List ServerEntry
  pingPongEntries : Option Nat
  kickoffEntries : Option Nat
  made : Nat
  messages : List Message
  kickedOff : Bool

def Connection.isOpen (c : Connection) : Bool :=
  c.status = .Connected || c.status = .Disconnecting

/-- `reset` of the entry that a weak pointer gives, if any. An entry that has been destroyed is not
in `live`. -/
def Connection.reset (c : Connection) (entry : Option ServerEntry) : Connection :=
  { c with live := c.live.filter fun e => entry ≠ some e }

def Connection.resetPingPongEntry (c : Connection) : Connection :=
  { c.reset (c.pingPongEntries.map .PingPongEntry) with pingPongEntries := none }

def Connection.resetKickoffEntry (c : Connection) : Connection :=
  { c.reset (c.kickoffEntries.map .KickoffEntry) with kickoffEntries := none }

/-- The connection callback comes with `disconnected`. -/
def Connection.handleClose (c : Connection) : Connection :=
  { c with status := .Disconnected }.resetPingPongEntry.resetKickoffEntry

def Connection.forceClose (c : Connection) : Connection :=
  if c.isOpen then c.handleClose else c

abbrev Calls := List (Nat × ServerEntry)

/-- `make_shared`, `insertEntry` and the assignment of the slot. -/
def makePingPongEntry (pingPongInterval : Nat) (r : Connection × Calls) : Connection × Calls :=
  ({ r.1 with
      live := .PingPongEntry r.1.made :: r.1.live
      pingPongEntries := some r.1.made
      made := r.1.made + 1 },
    r.2 ++ [(pingPongInterval, .PingPongEntry r.1.made)])

def makeKickoffEntry (pingPongTimeout : Nat) (r : Connection × Calls) : Connection × Calls :=
  ({ r.1 with
      live := .KickoffEntry r.1.made :: r.1.live
      kickoffEntries := some r.1.made
      made := r.1.made + 1 },
    r.2 ++ [(pingPongTimeout, .KickoffEntry r.1.made)])

def sendPing (tick : Nat) (c : Connection) : Connection :=
  { c with messages := .PING tick :: c.messages }

/-- The destructor of an entry that the wheel holds the one reference to. -/
def destroy (pingPongInterval pingPongTimeout tick : Nat) (r : Connection × Calls)
    (entry : ServerEntry) : Connection × Calls :=
  let c := r.1.reset (some entry)
  if entry ∈ r.1.live then
    match entry with
    | .PingPongEntry _ =>
        if c.status = .Connected then
          makePingPongEntry pingPongInterval
            (makeKickoffEntry pingPongTimeout (sendPing tick c, r.2))
        else (c, r.2)
    | .KickoffEntry _ =>
        ({ c.forceClose with kickedOff := c.kickedOff || c.isOpen }, r.2)
  else (c, r.2)

structure Process where
  pingPongInterval : Nat
  pingPongTimeout : Nat
  wheel : TimingWheel ServerEntry
  conn : Connection

/-- `shutdown` is when the status becomes `Disconnecting`, and `close` any `handleClose` that is not
due to an entry. -/
inductive Action
  | connect
  | pong
  | shutdown
  | close
  /-- `order` is the one in which the entries of the bucket are destroyed. -/
  | tick (order : List ServerEntry)

def init (pingPongInterval pingPongTimeout : Nat) (h : 1 < pingPongInterval) : Process where
  pingPongInterval := pingPongInterval
  pingPongTimeout := pingPongTimeout
  wheel := construct pingPongInterval h
  conn :=
    { status := .Connecting
      live := []
      pingPongEntries := none
      kickoffEntries := none
      made := 0
      messages := []
      kickedOff := false }

def ticked (s : Process) (order : List ServerEntry) : Process :=
  let r := order.foldl
    (destroy s.pingPongInterval s.pingPongTimeout (s.wheel.ticksCounter + 1)) (s.conn, [])
  { s with
    wheel := tick s.wheel r.2
    conn := r.1 }

def step (s : Process) : Action → Option Process
  | .connect =>
      if s.conn.status = .Connecting then
        let r := makePingPongEntry s.pingPongInterval ({ s.conn with status := .Connected }, [])
        some { s with
          wheel := r.2.foldl (fun w call => insertEntry w call.1 call.2) s.wheel
          conn := r.1 }
      else none
  | .pong =>
      if s.conn.isOpen then
        some { s with conn :=
          { s.conn.resetKickoffEntry with
            messages := .PONG s.wheel.ticksCounter :: s.conn.messages } }
      else none
  | .shutdown =>
      if s.conn.status = .Connected then
        some { s with conn := { s.conn with status := .Disconnecting } }
      else none
  | .close =>
      if s.conn.isOpen then some { s with conn := s.conn.handleClose } else none
  | .tick order => if order.Perm (front s.wheel) then some (ticked s order) else none

def unanswered : List Message → List Nat
  | .PING tick :: messages => tick :: unanswered messages
  | _ => []

/-- No PING has waited for a PONG for so many ticks, and the one live `PingPongEntry` in the wheel
is the one that the map has. -/
def Watched (ticks : Nat) (s : Process) : Prop :=
  (∀ tick ∈ unanswered s.conn.messages, s.wheel.ticksCounter < tick + ticks) ∧
    ∃ recorded, s.conn.pingPongEntries = some recorded ∧
      ∀ made, (.PingPongEntry made ∈ s.conn.live ∧ held s.wheel (.PingPongEntry made) = true) ↔
        made = recorded

section Connections

variable {c : Connection} {entry e : ServerEntry}

@[simp] theorem mem_reset_live {entry : Option ServerEntry} :
    e ∈ (c.reset entry).live ↔ e ∈ c.live ∧ entry ≠ some e := by
  simp [Connection.reset]

theorem reset_of_notMem (h : entry ∉ c.live) : c.reset (some entry) = c := by
  have hlive : c.live.filter (fun e => some entry ≠ some e) = c.live := by
    apply List.filter_eq_self.mpr
    intro e he
    rw [decide_eq_true_eq]
    rintro heq
    rw [Option.some.inj heq] at h
    exact h he
  rw [Connection.reset, hlive]

theorem mem_handleClose_live :
    e ∈ c.handleClose.live ↔ e ∈ c.live ∧ c.pingPongEntries.map .PingPongEntry ≠ some e ∧
      c.kickoffEntries.map .KickoffEntry ≠ some e := by
  rw [← and_assoc]
  exact mem_reset_live.trans (and_congr_left' mem_reset_live)

theorem destroy_cases (pingPongInterval pingPongTimeout tick : Nat) (r : Connection × Calls)
    (entry : ServerEntry) :
    let r' := destroy pingPongInterval pingPongTimeout tick r entry
    r' = (r.1.reset (some entry), r.2) ∧ (entry ∈ r.1.live → r.1.status ≠ .Connected) ∨
      (∃ made, entry = .PingPongEntry made ∧ entry ∈ r.1.live ∧ r.1.status = .Connected ∧
        r' = makePingPongEntry pingPongInterval
          (makeKickoffEntry pingPongTimeout (sendPing tick (r.1.reset (some entry)), r.2))) ∨
      (∃ made, entry = .KickoffEntry made ∧ entry ∈ r.1.live ∧ r.1.isOpen = true ∧
        r' = ({ (r.1.reset (some entry)).handleClose with kickedOff := true }, r.2)) := by
  intro r'
  by_cases hlive : entry ∈ r.1.live
  · cases entry with
    | PingPongEntry made =>
        by_cases hconnected : r.1.status = .Connected
        · refine Or.inr (Or.inl ⟨made, rfl, hlive, hconnected, ?_⟩)
          exact (if_pos hlive).trans (if_pos hconnected)
        · refine Or.inl ⟨?_, fun _ => hconnected⟩
          exact (if_pos hlive).trans (if_neg hconnected)
    | KickoffEntry made =>
        have hkick : r' = ({ (r.1.reset (some (.KickoffEntry made))).forceClose with
            kickedOff := r.1.kickedOff || r.1.isOpen }, r.2) := if_pos hlive
        by_cases hopen : (r.1.reset (some (.KickoffEntry made))).isOpen = true
        · refine Or.inr (Or.inr ⟨made, rfl, hlive, hopen, ?_⟩)
          rw [hkick, Connection.forceClose, if_pos hopen, show r.1.isOpen = true from hopen,
            Bool.or_true]
        · refine Or.inl ⟨?_, ?_⟩
          · rw [hkick, Connection.forceClose, if_neg hopen,
              show r.1.isOpen = false from Bool.eq_false_of_not_eq_true hopen, Bool.or_false]
            rfl
          · intro _ hconnected
            apply hopen
            change (decide (r.1.status = .Connected) || _) = true
            rw [hconnected]
            rfl
  · exact Or.inl ⟨if_neg hlive, fun hmem => absurd hmem hlive⟩

end Connections

/-- What holds of a connection at all times, also while a tick destroys entries. `due` says when the
wheel drops which entries. -/
structure Books (pingPongTimeout : Nat) (due : Set (Nat × ServerEntry)) (c : Connection) :
    Prop where
  made_lt : ∀ entry ∈ c.live, entry.made < c.made
  inWheel : ∀ entry ∈ c.live, ∃ d, (d, entry) ∈ due
  connecting : c.status = .Connecting → c.live = [] ∧ c.messages = []
  recorded : ∀ made, .PingPongEntry made ∈ c.live → c.pingPongEntries = some made
  connected : c.status = .Connected → ∃ made, .PingPongEntry made ∈ c.live
  kicks : c.status = .Connected → ∀ tick ∈ unanswered c.messages, ∃ made d,
    ServerEntry.KickoffEntry made ∈ c.live ∧ (d, ServerEntry.KickoffEntry made) ∈ due ∧
      d ≤ tick + delayTicks pingPongTimeout

section Books

variable {pingPongTimeout : Nat} {due due' : Set (Nat × ServerEntry)} {c : Connection}

theorem Books.of_due (h : Books pingPongTimeout due c)
    (hdue : ∀ d, ∀ entry ∈ c.live, (d, entry) ∈ due → (d, entry) ∈ due') :
    Books pingPongTimeout due' c := by
  refine ⟨h.made_lt, ?_, h.connecting, h.recorded, h.connected, ?_⟩
  · intro entry hlive
    obtain ⟨d, hd⟩ := h.inWheel entry hlive
    exact ⟨d, hdue d entry hlive hd⟩
  · intro hconnected tick htick
    obtain ⟨made, d, hlive, hd, hle⟩ := h.kicks hconnected tick htick
    exact ⟨made, d, hlive, hdue d _ hlive hd, hle⟩

theorem Books.close (h : Books pingPongTimeout due c) {c' : Connection}
    (hlive : ∀ entry ∈ c'.live, entry ∈ c.live) (hmade : c'.made = c.made)
    (hconnecting : c'.status ≠ .Connecting) (hconnected : c'.status ≠ .Connected)
    (hrecorded : ∀ made, .PingPongEntry made ∈ c'.live → c'.pingPongEntries = some made) :
    Books pingPongTimeout due c' := by
  refine ⟨?_, ?_, fun h => absurd h hconnecting, hrecorded, fun h => absurd h hconnected,
    fun h => absurd h hconnected⟩
  · intro entry hmem
    rw [hmade]
    exact h.made_lt entry (hlive entry hmem)
  · intro entry hmem
    exact h.inWheel entry (hlive entry hmem)

theorem Books.handleClose (h : Books pingPongTimeout due c) {c' : Connection}
    (hlive : ∀ entry ∈ c'.live, entry ∈ c.live) (hmade : c'.made = c.made)
    (hslot : c'.pingPongEntries = c.pingPongEntries) (kickedOff : Bool) :
    Books pingPongTimeout due { c'.handleClose with kickedOff := kickedOff } := by
  apply h.close
  · intro entry hmem
    exact hlive entry (mem_handleClose_live.mp hmem).1
  · exact hmade
  · exact ConnStatus.noConfusion
  · exact ConnStatus.noConfusion
  · intro made hmem
    obtain ⟨hmem, hother, -⟩ := mem_handleClose_live.mp hmem
    rw [hslot, h.recorded made (hlive _ hmem)] at hother
    exact absurd rfl hother

theorem Books.reset (h : Books pingPongTimeout due c) {entry : ServerEntry}
    (hquiet : entry ∈ c.live → c.status ≠ .Connected) :
    Books pingPongTimeout due (c.reset (some entry)) := by
  by_cases hlive : entry ∈ c.live
  · apply h.close
    · intro e hmem
      exact (mem_reset_live.mp hmem).1
    · rfl
    · intro hconnecting
      rw [(h.connecting hconnecting).1] at hlive
      exact List.not_mem_nil hlive
    · exact hquiet hlive
    · intro made hmem
      exact h.recorded made (mem_reset_live.mp hmem).1
  · rw [reset_of_notMem hlive]
    exact h

theorem Books.pong (h : Books pingPongTimeout due c) (hopen : c.isOpen = true) (tick : Nat) :
    Books pingPongTimeout due
      { c.resetKickoffEntry with messages := .PONG tick :: c.messages } := by
  have hlive : ∀ entry ∈ c.resetKickoffEntry.live, entry ∈ c.live :=
    fun entry hmem => (mem_reset_live.mp hmem).1
  refine ⟨?_, ?_, ?_, ?_, ?_, ?_⟩
  · intro entry hmem
    exact h.made_lt entry (hlive entry hmem)
  · intro entry hmem
    exact h.inWheel entry (hlive entry hmem)
  · intro (hconnecting : c.status = .Connecting)
    rw [Connection.isOpen, hconnecting] at hopen
    contradiction
  · intro made hmem
    exact h.recorded made (hlive _ hmem)
  · intro hconnected
    obtain ⟨made, hmade⟩ := h.connected hconnected
    refine ⟨made, mem_reset_live.mpr ⟨hmade, ?_⟩⟩
    cases c.kickoffEntries <;> exact fun heq => by simp at heq
  · intro _ t ht
    contradiction

theorem Books.makePingPongEntry (pingPongInterval : Nat) (calls : Calls)
    (hmade : ∀ entry ∈ c.live, entry.made < c.made) (hdue : ∀ entry ∈ c.live, ∃ d, (d, entry) ∈ due)
    (hnone : ∀ made, .PingPongEntry made ∉ c.live) (hconnecting : c.status ≠ .Connecting)
    (hkicks : ∀ tick ∈ unanswered c.messages, ∃ made d, ServerEntry.KickoffEntry made ∈ c.live ∧
      (d, ServerEntry.KickoffEntry made) ∈ due ∧ d ≤ tick + delayTicks pingPongTimeout)
    {deadline : Nat} (hdeadline : (deadline, .PingPongEntry c.made) ∈ due) :
    Books pingPongTimeout due (PingPong.makePingPongEntry pingPongInterval (c, calls)).1 := by
  refine ⟨?_, ?_, fun h => absurd h hconnecting, ?_, fun _ => ⟨_, List.mem_cons_self⟩, ?_⟩
  · intro entry hmem
    change entry.made < c.made + 1
    rcases List.mem_cons.mp hmem with rfl | hmem
    · exact Nat.lt_succ_self _
    · exact Nat.lt_succ_of_lt (hmade entry hmem)
  · intro entry hmem
    rcases List.mem_cons.mp hmem with rfl | hmem
    · exact ⟨deadline, hdeadline⟩
    · exact hdue entry hmem
  · intro made hmem
    rcases List.mem_cons.mp hmem with heq | hmem
    · rw [ServerEntry.PingPongEntry.inj heq]
      rfl
    · exact absurd hmem (hnone made)
  · intro _ tick htick
    obtain ⟨made, d, hlive, hd⟩ := hkicks tick htick
    exact ⟨made, d, List.mem_cons_of_mem _ hlive, hd⟩

end Books

section Tick

variable {pingPongInterval pingPongTimeout : Nat} {clock : TimingWheel ServerEntry}
  {old : Set (Nat × ServerEntry)} {done : List ServerEntry} {r : Connection × Calls}

/-- What holds while a tick destroys entries. `old` are the entries that the wheel has held before,
and `done` those that have been destroyed. -/
structure Turned (pingPongTimeout : Nat) (clock : TimingWheel ServerEntry)
    (old : Set (Nat × ServerEntry)) (done : List ServerEntry) (r : Connection × Calls) : Prop where
  books : Books pingPongTimeout (old ∪ enteredAt 1 clock r.2) r.1
  old : ∀ p ∈ old, p.2.made < r.1.made
  calls : ∀ call ∈ r.2, call.2.made < r.1.made
  gone : ∀ entry ∈ done, entry.made < r.1.made ∧ entry ∉ r.1.live

theorem enteredAt_append {front back : Calls} {stage : Nat} :
    enteredAt stage clock (front ++ back) =
      enteredAt stage clock front ∪ enteredAt stage clock back := by
  ext p
  simp only [enteredAt, List.mem_append, or_and_right, exists_or, Set.mem_union, Set.mem_ofPred_eq]

theorem Turned.gone_reset (h : Turned pingPongTimeout clock old done r) {entry : ServerEntry}
    (hmade : entry.made < r.1.made) :
    ∀ e ∈ entry :: done, e.made < r.1.made ∧ e ∉ (r.1.reset (some entry)).live := by
  intro e he
  rcases List.mem_cons.mp he with rfl | he
  · exact ⟨hmade, fun hmem => (mem_reset_live.mp hmem).2 rfl⟩
  · obtain ⟨hlt, hgone⟩ := h.gone e he
    exact ⟨hlt, fun hmem => hgone (mem_reset_live.mp hmem).1⟩

theorem Turned.ping (h : Turned pingPongTimeout clock old done r) (hinterval : 0 < pingPongInterval)
    (htimeout : 0 < pingPongTimeout) (hclock : 0 < clock.ticksCounter) {made : Nat}
    (hlive : .PingPongEntry made ∈ r.1.live) (hconnected : r.1.status = .Connected) :
    Turned pingPongTimeout clock old (.PingPongEntry made :: done)
      (makePingPongEntry pingPongInterval (makeKickoffEntry pingPongTimeout
        (sendPing clock.ticksCounter (r.1.reset (some (.PingPongEntry made))), r.2))) := by
  have hold : old ∪ enteredAt 1 clock r.2 ⊆ old ∪ enteredAt 1 clock
      (r.2 ++ [(pingPongTimeout, .KickoffEntry r.1.made)] ++
        [(pingPongInterval, .PingPongEntry (r.1.made + 1))]) := by
    rw [List.append_assoc, enteredAt_append, ← Set.union_assoc]
    exact Set.subset_union_left
  have hnew : ∀ call ∈ [(pingPongTimeout, ServerEntry.KickoffEntry r.1.made),
      (pingPongInterval, .PingPongEntry (r.1.made + 1))], 0 < call.1 →
      (deadlineAt 1 clock call.1 call.2, call.2) ∈ old ∪ enteredAt 1 clock
        (r.2 ++ [(pingPongTimeout, .KickoffEntry r.1.made)] ++
          [(pingPongInterval, .PingPongEntry (r.1.made + 1))]) := by
    intro call hcall hdelay
    refine Or.inr ⟨call, ?_, hdelay, rfl⟩
    rw [List.append_assoc]
    exact List.mem_append_right _ hcall
  have hkick := hnew _ List.mem_cons_self htimeout
  refine ⟨?_, fun p hp => Nat.lt_succ_of_lt (Nat.lt_succ_of_lt (h.old p hp)), ?_, ?_⟩
  · apply Books.makePingPongEntry pingPongInterval _ _ _ _ _ _
      (hnew _ (List.mem_cons_of_mem _ List.mem_cons_self) hinterval)
    · intro entry hmem
      change entry.made < r.1.made + 1
      rcases List.mem_cons.mp hmem with rfl | hmem
      · exact Nat.lt_succ_self _
      · exact Nat.lt_succ_of_lt (h.books.made_lt entry (mem_reset_live.mp hmem).1)
    · intro entry hmem
      rcases List.mem_cons.mp hmem with rfl | hmem
      · exact ⟨_, hkick⟩
      · obtain ⟨d, hd⟩ := h.books.inWheel entry (mem_reset_live.mp hmem).1
        exact ⟨d, hold hd⟩
    · -- The map has had only the entry that is destroyed.
      intro other hmem
      rcases List.mem_cons.mp hmem with heq | hmem
      · contradiction
      · obtain ⟨hother, hne⟩ := mem_reset_live.mp hmem
        have hslot := (h.books.recorded made hlive).symm.trans (h.books.recorded other hother)
        exact hne (congrArg (some ∘ ServerEntry.PingPongEntry) (Option.some.inj hslot))
    · exact fun hconnecting => ConnStatus.noConfusion (hconnected.symm.trans hconnecting)
    · intro tick htick
      rcases List.mem_cons.mp htick with rfl | htick
      · exact ⟨_, _, List.mem_cons_self, hkick, deadlineAt_one_le hclock _⟩
      · obtain ⟨kick, d, hmem, hd, hle⟩ := h.books.kicks hconnected tick htick
        refine ⟨kick, d, List.mem_cons_of_mem _ (mem_reset_live.mpr ⟨hmem, ?_⟩), hold hd, hle⟩
        exact fun heq => ServerEntry.noConfusion (Option.some.inj heq)
  · intro call hcall
    change call.2.made < r.1.made + 1 + 1
    rcases List.mem_append.mp hcall with hcall | hcall
    · rcases List.mem_append.mp hcall with hcall | hcall
      · have hlt := h.calls call hcall
        omega
      · rw [List.mem_singleton.mp hcall]
        exact Nat.lt_succ_of_lt (Nat.lt_succ_self _)
    · rw [List.mem_singleton.mp hcall]
      exact Nat.lt_succ_self _
  · intro entry hentry
    change entry.made < r.1.made + 1 + 1 ∧ entry ∉ _ :: _ :: (r.1.reset _).live
    have hgone := h.gone_reset (h.books.made_lt _ hlive) entry hentry
    refine ⟨by omega, ?_⟩
    intro hmem
    rcases List.mem_cons.mp hmem with rfl | hmem
    · exact absurd (Nat.lt_of_succ_lt hgone.1) (Nat.lt_irrefl r.1.made)
    rcases List.mem_cons.mp hmem with rfl | hmem
    · exact absurd hgone.1 (Nat.lt_irrefl r.1.made)
    · exact hgone.2 hmem

theorem destroy_turned (h : Turned pingPongTimeout clock old done r)
    (hinterval : 0 < pingPongInterval) (htimeout : 0 < pingPongTimeout)
    (hclock : 0 < clock.ticksCounter) {d : Nat} {entry : ServerEntry} (hold : (d, entry) ∈ old) :
    Turned pingPongTimeout clock old (entry :: done)
      (destroy pingPongInterval pingPongTimeout clock.ticksCounter r entry) := by
  have hgone := h.gone_reset (h.old _ hold)
  rcases destroy_cases pingPongInterval pingPongTimeout clock.ticksCounter r entry with
    ⟨hr, hquiet⟩ | ⟨made, rfl, hlive, hconnected, hr⟩ | ⟨made, rfl, hlive, hopen, hr⟩
  · rw [hr]
    exact ⟨h.books.reset hquiet, h.old, h.calls, hgone⟩
  · rw [hr]
    exact h.ping hinterval htimeout hclock hlive hconnected
  · rw [hr]
    refine ⟨?_, h.old, h.calls, ?_⟩
    · exact h.books.handleClose (fun e hmem => (mem_reset_live.mp hmem).1) rfl rfl true
    · intro e he
      obtain ⟨hlt, hnot⟩ := hgone e he
      exact ⟨hlt, fun hmem => hnot (mem_handleClose_live.mp hmem).1⟩

theorem foldl_turned (hinterval : 0 < pingPongInterval) (htimeout : 0 < pingPongTimeout)
    (hclock : 0 < clock.ticksCounter) (order : List ServerEntry)
    (h : Turned pingPongTimeout clock old done r)
    (hold : ∀ entry ∈ order, ∃ d, (d, entry) ∈ old) :
    Turned pingPongTimeout clock old (order.reverse ++ done)
      (order.foldl (destroy pingPongInterval pingPongTimeout clock.ticksCounter) r) := by
  induction order generalizing r done with
  | nil => exact h
  | cons entry order ih =>
      obtain ⟨d, hd⟩ := hold entry List.mem_cons_self
      have hnext := destroy_turned h hinterval htimeout hclock hd
      have hrest := ih hnext fun e he => hold e (List.mem_cons_of_mem _ he)
      rw [List.reverse_cons, List.append_assoc]
      exact hrest

end Tick

def Process.pending (s : Process) : Set (Nat × ServerEntry) :=
  pendingAt s.wheel.wheelsNum s.wheel

structure Kept (s : Process) : Prop where
  interval : 1 < s.pingPongInterval
  timeout : 0 < s.pingPongTimeout
  wheel : MadeFor s.pingPongInterval s.wheel
  placed : Placed s.wheel
  made_lt : ∀ p ∈ s.pending, p.2.made < s.conn.made
  books : Books s.pingPongTimeout s.pending s.conn

theorem init_kept {pingPongInterval pingPongTimeout : Nat} (hinterval : 1 < pingPongInterval)
    (htimeout : 0 < pingPongTimeout) : Kept (init pingPongInterval pingPongTimeout hinterval) := by
  refine ⟨hinterval, htimeout, construct_madeFor hinterval, ?_, ?_, ?_⟩
  · exact (kept_create _ _ _ _).placed
  · rintro p ⟨i, k, e, hmem, -⟩
    contradiction
  · refine ⟨?_, ?_, fun _ => ⟨rfl, rfl⟩, ?_, ?_, ?_⟩
    · intro entry hmem
      contradiction
    · intro entry hmem
      contradiction
    · intro made hmem
      contradiction
    · intro hconnected
      contradiction
    · intro hconnected
      contradiction

section Steps

variable {s s' : Process}

theorem Kept.start (h : Kept s) :
    Turned s.pingPongTimeout (counted s.wheel) s.pending [] (s.conn, []) := by
  refine ⟨h.books.of_due fun d entry _ hd => Or.inl hd, h.made_lt, ?_, ?_⟩
  · intro call hcall
    contradiction
  · intro entry hentry
    contradiction

theorem Kept.due (h : Kept s) {order : List ServerEntry} (horder : order.Perm (front s.wheel))
    {entry : ServerEntry} :
    entry ∈ order ↔ (s.wheel.ticksCounter + 1, entry) ∈ s.pending :=
  horder.mem_iff.trans (mem_front_iff h.placed entry)

theorem Kept.turned (h : Kept s) {order : List ServerEntry} (horder : order.Perm (front s.wheel)) :
    Turned s.pingPongTimeout (counted s.wheel) s.pending order.reverse
      (order.foldl (destroy s.pingPongInterval s.pingPongTimeout (s.wheel.ticksCounter + 1))
        (s.conn, [])) := by
  have hturned := foldl_turned (Nat.lt_of_succ_lt h.interval) h.timeout
    (Nat.succ_pos s.wheel.ticksCounter) order h.start
    fun entry hentry => ⟨_, (h.due horder).mp hentry⟩
  rw [List.append_nil] at hturned
  exact hturned

theorem ticked_pending (h : Kept s) (order : List ServerEntry) :
    SameClock (counted s.wheel) (ticked s order).wheel ∧ Placed (ticked s order).wheel ∧
      (ticked s order).pending = { p ∈ s.pending | p.1 ≠ s.wheel.ticksCounter + 1 } ∪
        enteredAt 1 (counted s.wheel) (order.foldl (destroy s.pingPongInterval s.pingPongTimeout
          (s.wheel.ticksCounter + 1)) (s.conn, [])).2 := by
  obtain ⟨hclock, hplaced, -⟩ := tick_spec h.placed (order.foldl
    (destroy s.pingPongInterval s.pingPongTimeout (s.wheel.ticksCounter + 1)) (s.conn, [])).2
  exact ⟨hclock, hplaced, pendingAt_tick h.placed _⟩

theorem ticked_kept (h : Kept s) {order : List ServerEntry} (horder : order.Perm (front s.wheel)) :
    Kept (ticked s order) := by
  have hturned := h.turned horder
  obtain ⟨hclock, hplaced, hpending⟩ := ticked_pending h order
  refine ⟨h.interval, h.timeout, h.wheel.counted.sameClock hclock, hplaced, ?_, ?_⟩
  · rw [hpending]
    rintro p (⟨hp, -⟩ | ⟨call, hcall, -, rfl⟩)
    · exact hturned.old p hp
    · exact hturned.calls call hcall
  · apply hturned.books.of_due
    intro d entry hlive hd
    rw [hpending]
    apply hd.imp_left
    intro hd
    refine ⟨hd, ?_⟩
    rintro (rfl : d = _)
    exact (hturned.gone entry (List.mem_reverse.mpr ((h.due horder).mpr hd))).2 hlive

def connected (s : Process) : Process :=
  { s with
    wheel := insertEntry s.wheel s.pingPongInterval (.PingPongEntry s.conn.made)
    conn := (makePingPongEntry s.pingPongInterval ({ s.conn with status := .Connected }, [])).1 }

theorem connected_pending (h : Kept s) :
    SameClock s.wheel (connected s).wheel ∧ Placed (connected s).wheel ∧
      (connected s).pending = insert (s.wheel.ticksCounter + delayTicks s.pingPongInterval,
        .PingPongEntry s.conn.made) s.pending := by
  obtain ⟨hclock, hplaced, -, hpending⟩ := insertEntry_spec h.placed s.wheel.wheelsNum
    (Nat.lt_of_succ_lt h.interval) (.PingPongEntry s.conn.made)
  have hwheels : (connected s).wheel.wheelsNum = s.wheel.wheelsNum := hclock.wheelsNum
  rw [(h.wheel.deadlineAt_wheelsNum _).1] at hpending
  refine ⟨hclock, hplaced, ?_⟩
  rw [Process.pending, hwheels]
  exact hpending

theorem connected_kept (h : Kept s) (hstatus : s.conn.status = .Connecting) :
    Kept (connected s) := by
  obtain ⟨hclock, hplaced, hpending⟩ := connected_pending h
  obtain ⟨hlive, hmessages⟩ := h.books.connecting hstatus
  refine ⟨h.interval, h.timeout, h.wheel.sameClock hclock, hplaced, ?_, ?_⟩
  · rw [hpending]
    intro p hp
    change p.2.made < s.conn.made + 1
    rcases hp with rfl | hp
    · exact Nat.lt_succ_self _
    · exact Nat.lt_succ_of_lt (h.made_lt p hp)
  · rw [hpending]
    let c : Connection := { s.conn with status := .Connected }
    let p := (s.wheel.ticksCounter + delayTicks s.pingPongInterval,
      ServerEntry.PingPongEntry c.made)
    have hdeadline : p ∈ insert p s.pending := Set.mem_insert p s.pending
    apply Books.makePingPongEntry s.pingPongInterval [] _ _ _ _ _ hdeadline
    · exact h.books.made_lt
    · intro entry hmem
      obtain ⟨d, hd⟩ := h.books.inWheel entry hmem
      exact ⟨d, Set.mem_insert_of_mem _ hd⟩
    · intro made hmem
      rw [hlive] at hmem
      contradiction
    · exact ConnStatus.noConfusion
    · intro tick htick
      rw [hmessages] at htick
      contradiction

theorem step_cases {a : Action} (hstep : step s a = some s') :
    a = .connect ∧ s.conn.status = .Connecting ∧ s' = connected s ∨
      a = .pong ∧ s.conn.isOpen = true ∧ s' = { s with conn :=
        { s.conn.resetKickoffEntry with
          messages := .PONG s.wheel.ticksCounter :: s.conn.messages } } ∨
      a = .shutdown ∧ s.conn.status = .Connected ∧
        s' = { s with conn := { s.conn with status := .Disconnecting } } ∨
      a = .close ∧ s.conn.isOpen = true ∧ s' = { s with conn := s.conn.handleClose } ∨
      ∃ order, a = .tick order ∧ order.Perm (front s.wheel) ∧ s' = ticked s order := by
  cases a <;> rw [step] at hstep <;> split at hstep <;> rename_i hguard
  case connect.isTrue => exact Or.inl ⟨rfl, hguard, (Option.some.inj hstep).symm⟩
  case pong.isTrue => exact Or.inr (Or.inl ⟨rfl, hguard, (Option.some.inj hstep).symm⟩)
  case shutdown.isTrue =>
    exact Or.inr (Or.inr (Or.inl ⟨rfl, hguard, (Option.some.inj hstep).symm⟩))
  case close.isTrue =>
    exact Or.inr (Or.inr (Or.inr (Or.inl ⟨rfl, hguard, (Option.some.inj hstep).symm⟩)))
  case tick.isTrue order =>
    exact Or.inr (Or.inr (Or.inr (Or.inr ⟨order, rfl, hguard, (Option.some.inj hstep).symm⟩)))
  all_goals contradiction

theorem Kept.conn (h : Kept s) {c : Connection} (hbooks : Books s.pingPongTimeout s.pending c)
    (hmade : c.made = s.conn.made) : Kept { s with conn := c } := by
  refine ⟨h.interval, h.timeout, h.wheel, h.placed, ?_, hbooks⟩
  intro p hp
  change p.2.made < c.made
  rw [hmade]
  exact h.made_lt p hp

theorem step_kept (h : Kept s) {a : Action} (hstep : step s a = some s') : Kept s' := by
  rcases step_cases hstep with ⟨-, hstatus, rfl⟩ | ⟨-, hopen, rfl⟩ | ⟨-, -, rfl⟩ | ⟨-, -, rfl⟩ |
    ⟨order, -, horder, rfl⟩
  · exact connected_kept h hstatus
  · exact h.conn (h.books.pong hopen _) rfl
  · refine h.conn (h.books.close (fun entry hmem => hmem) rfl ?_ ?_ h.books.recorded) rfl
    · exact ConnStatus.noConfusion
    · exact ConnStatus.noConfusion
  · exact h.conn (h.books.handleClose (fun entry hmem => hmem) rfl rfl s.conn.kickedOff) rfl
  · exact ticked_kept h horder

theorem step_parameters {a : Action} (hstep : step s a = some s') :
    s'.pingPongInterval = s.pingPongInterval ∧ s'.pingPongTimeout = s.pingPongTimeout := by
  rcases step_cases hstep with ⟨-, -, rfl⟩ | ⟨-, -, rfl⟩ | ⟨-, -, rfl⟩ | ⟨-, -, rfl⟩ |
    ⟨order, -, -, rfl⟩ <;> exact ⟨rfl, rfl⟩

end Steps

section Waiting

variable {s s' : Process}

structure Waited (n : Nat) (s s' : Process) : Prop where
  run : runSteps step s (List.replicate n (.tick [])) = some s'
  kept : Kept s'
  conn : s'.conn = s.conn
  pending : s'.pending = s.pending
  ticksCounter : s'.wheel.ticksCounter = s.wheel.ticksCounter + n
  interval : s'.pingPongInterval = s.pingPongInterval
  timeout : s'.pingPongTimeout = s.pingPongTimeout

theorem waited_one (h : Kept s) (hquiet : ∀ p ∈ s.pending, s.wheel.ticksCounter + 1 < p.1) :
    Waited 1 s (ticked s []) := by
  have hfront : front s.wheel = [] := by
    apply List.eq_nil_iff_forall_not_mem.mpr
    intro entry hmem
    exact absurd (hquiet _ ((mem_front_iff h.placed entry).mp hmem)) (Nat.lt_irrefl _)
  have horder : [].Perm (front s.wheel) := by rw [hfront]
  obtain ⟨hclock, -, hpending⟩ := ticked_pending h []
  refine ⟨?_, ticked_kept h horder, rfl, ?_, hclock.ticksCounter, rfl, rfl⟩
  · change (step s (.tick [])).bind some = _
    rw [step, if_pos horder]
    rfl
  · rw [hpending]
    ext p
    constructor
    · rintro (hp | ⟨call, hcall, -⟩)
      · exact hp.1
      · contradiction
    · intro hp
      exact Or.inl ⟨hp, (hquiet p hp).ne'⟩

theorem exists_waited (h : Kept s) (n : Nat)
    (hquiet : ∀ p ∈ s.pending, s.wheel.ticksCounter + n < p.1) : ∃ s', Waited n s s' := by
  induction n with
  | zero => exact ⟨s, rfl, h, rfl, rfl, rfl, rfl, rfl⟩
  | succ n ih =>
      obtain ⟨s', hs'⟩ := ih fun p hp => Nat.lt_of_succ_lt (hquiet p hp)
      have hnext : Waited 1 s' (ticked s' []) := by
        apply waited_one hs'.kept
        intro p hp
        rw [hs'.ticksCounter, Nat.add_assoc]
        rw [hs'.pending] at hp
        exact hquiet p hp
      refine ⟨ticked s' [], ?_, hnext.kept, hnext.conn.trans hs'.conn,
        hnext.pending.trans hs'.pending, ?_, hs'.interval, hs'.timeout⟩
      · rw [List.replicate_succ', runSteps_append, hs'.run]
        exact hnext.run
      · rw [hnext.ticksCounter, hs'.ticksCounter, Nat.add_assoc]

theorem perm_front_singleton (h : Kept s) {entry : ServerEntry}
    (hdue : ∀ e, (s.wheel.ticksCounter + 1, e) ∈ s.pending ↔ e = entry) :
    [entry].Perm (front s.wheel) := by
  apply (List.perm_ext_iff_of_nodup (List.nodup_singleton _) (nodup_front h.placed)).mpr
  intro e
  rw [List.mem_singleton, mem_front_iff h.placed]
  exact (hdue e).symm

theorem ticked_ping (h : Kept s) {made : Nat} (hlive : .PingPongEntry made ∈ s.conn.live)
    (hconnected : s.conn.status = .Connected)
    (hdue : ∀ entry, (s.wheel.ticksCounter + 1, entry) ∈ s.pending ↔ entry = .PingPongEntry made) :
    step s (.tick [.PingPongEntry made]) = some (ticked s [.PingPongEntry made]) ∧
      (ticked s [.PingPongEntry made]).conn = (makePingPongEntry s.pingPongInterval
        (makeKickoffEntry s.pingPongTimeout (sendPing (s.wheel.ticksCounter + 1)
          (s.conn.reset (some (.PingPongEntry made))), []))).1 ∧
      (ticked s [.PingPongEntry made]).pending =
        { p ∈ s.pending | p.1 ≠ s.wheel.ticksCounter + 1 } ∪
          { (deadlineAt 1 (counted s.wheel) s.pingPongTimeout (.KickoffEntry s.conn.made),
              .KickoffEntry s.conn.made),
            (deadlineAt 1 (counted s.wheel) s.pingPongInterval (.PingPongEntry (s.conn.made + 1)),
              .PingPongEntry (s.conn.made + 1)) } := by
  have hdestroy : destroy s.pingPongInterval s.pingPongTimeout (s.wheel.ticksCounter + 1)
      (s.conn, []) (.PingPongEntry made) = makePingPongEntry s.pingPongInterval
        (makeKickoffEntry s.pingPongTimeout (sendPing (s.wheel.ticksCounter + 1)
          (s.conn.reset (some (.PingPongEntry made))), [])) :=
    (if_pos hlive).trans (if_pos hconnected)
  obtain ⟨-, -, hpending⟩ := ticked_pending h [.PingPongEntry made]
  refine ⟨if_pos (perm_front_singleton h hdue), congrArg Prod.fst hdestroy, ?_⟩
  rw [hpending, List.foldl_cons, hdestroy]
  congr 1
  ext p
  constructor
  · rintro ⟨call, hcall, -, rfl⟩
    rcases List.mem_cons.mp hcall with rfl | hcall
    · exact Or.inl rfl
    · rw [List.mem_singleton.mp hcall]
      exact Or.inr rfl
  · rintro (rfl | rfl)
    · exact ⟨_, List.mem_cons_self, h.timeout, rfl⟩
    · refine ⟨_, List.mem_cons_of_mem _ List.mem_cons_self, ?_, rfl⟩
      exact Nat.lt_of_succ_lt h.interval

structure PingSent (n made : Nat) (clock : TimingWheel ServerEntry) (s s' : Process) : Prop where
  run : runSteps step s (List.replicate n (.tick []) ++ [.tick [.PingPongEntry made]]) = some s'
  kept : Kept s'
  interval : s'.pingPongInterval = s.pingPongInterval
  timeout : s'.pingPongTimeout = s.pingPongTimeout
  madeFor : MadeFor s.pingPongInterval clock
  sentAt : clock.ticksCounter = s.wheel.ticksCounter + n + 1
  ticksCounter : s'.wheel.ticksCounter = clock.ticksCounter
  conn : s'.conn = (makePingPongEntry s.pingPongInterval (makeKickoffEntry s.pingPongTimeout
    (sendPing clock.ticksCounter (s.conn.reset (some (.PingPongEntry made))), []))).1
  pending : s'.pending = { p ∈ s.pending | p.1 ≠ clock.ticksCounter } ∪
    { (deadlineAt 1 clock s.pingPongTimeout (.KickoffEntry s.conn.made),
        .KickoffEntry s.conn.made),
      (deadlineAt 1 clock s.pingPongInterval (.PingPongEntry (s.conn.made + 1)),
        .PingPongEntry (s.conn.made + 1)) }

theorem exists_pingSent (h : Kept s) (n : Nat) {made : Nat}
    (hlive : .PingPongEntry made ∈ s.conn.live) (hconnected : s.conn.status = .Connected)
    (hquiet : ∀ p ∈ s.pending, s.wheel.ticksCounter + n < p.1)
    (hdue : ∀ entry,
      (s.wheel.ticksCounter + n + 1, entry) ∈ s.pending ↔ entry = .PingPongEntry made) :
    ∃ clock s', PingSent n made clock s s' := by
  obtain ⟨s₁, h₁⟩ := exists_waited h n hquiet
  obtain ⟨hping, hconn, hpending⟩ := @ticked_ping s₁ h₁.kept made (h₁.conn ▸ hlive)
    (h₁.conn ▸ hconnected) (by rw [h₁.ticksCounter, h₁.pending]; exact hdue)
  refine ⟨counted s₁.wheel, ticked s₁ [.PingPongEntry made], ?_, step_kept h₁.kept hping,
    h₁.interval, h₁.timeout, h₁.interval ▸ h₁.kept.wheel.counted, congrArg (· + 1) h₁.ticksCounter,
    (ticked_pending h₁.kept _).1.ticksCounter, ?_, ?_⟩
  · rw [runSteps_append, h₁.run, Option.bind_some, runSteps_cons, hping]
    rfl
  · rw [hconn, h₁.conn, h₁.interval, h₁.timeout]
    rfl
  · rw [hpending, h₁.pending, h₁.conn, h₁.interval, h₁.timeout]
    rfl

end Waiting

def firstPing (pingPongInterval idle : Nat) : List Action :=
  (List.replicate idle (.tick []) ++ [.connect]) ++
    (List.replicate (delayTicks pingPongInterval - 1) (.tick []) ++ [.tick [.PingPongEntry 0]])

structure Pinged (pingPongInterval pingPongTimeout : Nat) (clock : TimingWheel ServerEntry)
    (s : Process) : Prop where
  kept : Kept s
  interval : s.pingPongInterval = pingPongInterval
  timeout : s.pingPongTimeout = pingPongTimeout
  ticksCounter : s.wheel.ticksCounter = clock.ticksCounter
  made : MadeFor pingPongInterval clock
  conn : s.conn =
    { status := .Connected
      live := [.PingPongEntry 2, .KickoffEntry 1]
      pingPongEntries := some 2
      kickoffEntries := some 1
      made := 3
      messages := [.PING clock.ticksCounter]
      kickedOff := false }
  pending : s.pending =
    { (deadlineAt 1 clock pingPongTimeout (.KickoffEntry 1), .KickoffEntry 1),
      (deadlineAt 1 clock pingPongInterval (.PingPongEntry 2), .PingPongEntry 2) }

theorem run_connect {pingPongInterval pingPongTimeout : Nat} (hinterval : 1 < pingPongInterval)
    (htimeout : 0 < pingPongTimeout) (idle : Nat) :
    ∃ s, runSteps step (init pingPongInterval pingPongTimeout hinterval)
        (List.replicate idle (.tick []) ++ [.connect]) = some s ∧
      Kept s ∧ s.wheel.ticksCounter = idle ∧ s.pingPongInterval = pingPongInterval ∧
      s.pingPongTimeout = pingPongTimeout ∧
      s.conn =
        { status := .Connected
          live := [.PingPongEntry 0]
          pingPongEntries := some 0
          kickoffEntries := none
          made := 1
          messages := []
          kickedOff := false } ∧
      ∀ p, p ∈ s.pending ↔ p = (idle + delayTicks pingPongInterval, .PingPongEntry 0) := by
  have hinit := init_kept hinterval htimeout
  have hempty : (init pingPongInterval pingPongTimeout hinterval).pending = ∅ := by
    ext p
    constructor
    · rintro ⟨i, k, e, hmem, -⟩
      contradiction
    · intro hp
      contradiction
  obtain ⟨s, h⟩ := exists_waited hinit idle (by rw [hempty]; exact fun p hp => absurd hp id)
  have hidle : s.wheel.ticksCounter = idle := h.ticksCounter.trans (Nat.zero_add idle)
  have hconnecting : s.conn.status = .Connecting := congrArg Connection.status h.conn
  have hstep : step s .connect = some (connected s) := if_pos hconnecting
  obtain ⟨hclock, -, hpending⟩ := connected_pending h.kept
  refine ⟨connected s, ?_, step_kept h.kept hstep, hclock.ticksCounter.trans hidle, h.interval,
    h.timeout, ?_, ?_⟩
  · rw [runSteps_append, h.run, Option.bind_some, runSteps_cons, hstep]
    rfl
  · rw [connected, h.conn]
    rfl
  · intro p
    rw [hpending, h.pending, hempty, hidle, h.conn, h.interval]
    constructor
    · rintro (hp | hp)
      · exact hp
      · exact absurd hp id
    · exact Or.inl

theorem run_firstPing {pingPongInterval pingPongTimeout : Nat} (hinterval : 1 < pingPongInterval)
    (htimeout : 0 < pingPongTimeout) (idle : Nat) :
    ∃ s clock, runSteps step (init pingPongInterval pingPongTimeout hinterval)
        (firstPing pingPongInterval idle) = some s ∧
      clock.ticksCounter = idle + delayTicks pingPongInterval ∧
      Pinged pingPongInterval pingPongTimeout clock s := by
  obtain ⟨s, hrun, hkept, hidle, hinterval', htimeout', hconn, hpending⟩ :=
    run_connect hinterval htimeout idle
  have hticks : idle + (delayTicks pingPongInterval - 1) + 1 =
      idle + delayTicks pingPongInterval := by
    rw [Nat.add_assoc, Nat.sub_add_cancel (delayTicks_pos _)]
  obtain ⟨clock, s', hsent⟩ := @exists_pingSent s hkept (delayTicks pingPongInterval - 1) 0
    (by rw [hconn]; exact List.mem_cons_self) (by rw [hconn])
    (by
      intro p hp
      rw [(hpending p).mp hp, hidle, ← hticks]
      exact Nat.lt_succ_self _)
    (by
      intro entry
      rw [hpending, hidle, hticks]
      constructor
      · exact congrArg Prod.snd
      · rintro rfl
        rfl)
  have hclock : clock.ticksCounter = idle + delayTicks pingPongInterval := by
    rw [hsent.sentAt, hidle, hticks]
  refine ⟨s', clock, ?_, hclock, hsent.kept, hsent.interval.trans hinterval',
    hsent.timeout.trans htimeout', hsent.ticksCounter, hinterval' ▸ hsent.madeFor, ?_, ?_⟩
  · rw [firstPing, runSteps_append, hrun]
    exact hsent.run
  · rw [hsent.conn, hconn]
    rfl
  · rw [hsent.pending, hconn, hinterval', htimeout', hclock]
    ext p
    constructor
    · rintro (⟨hp, hne⟩ | hp)
      · rw [(hpending p).mp hp] at hne
        exact absurd rfl hne
      · exact hp
    · exact Or.inr

theorem watched_of_kept {s : Process} (h : Kept s) (hconnected : s.conn.status = .Connected) :
    Watched (delayTicks s.pingPongTimeout) s := by
  constructor
  · intro tick htick
    obtain ⟨made, d, -, hd, hle⟩ := h.books.kicks hconnected tick htick
    have hlater : s.wheel.ticksCounter < d := lt_of_mem_pendingAt h.placed hd
    exact hlater.trans_le hle
  · obtain ⟨recorded, hlive⟩ := h.books.connected hconnected
    refine ⟨recorded, h.books.recorded recorded hlive, fun made => ?_⟩
    constructor
    · rintro ⟨hmade, -⟩
      have hslot := h.books.recorded made hmade
      rw [h.books.recorded recorded hlive] at hslot
      exact (Option.some.inj hslot).symm
    · rintro rfl
      exact ⟨hlive, (held_iff h.placed _).mpr (h.books.inWheel _ hlive)⟩

/-- A connection on which a PING stays without a PONG is closed when the ticks of the timeout are
over, and there is always one entry that sends the next PING. -/
theorem run_watched {pingPongInterval pingPongTimeout : Nat} (hinterval : 1 < pingPongInterval)
    (htimeout : 0 < pingPongTimeout) {actions : List Action} {s : Process}
    (hrun : runSteps step (init pingPongInterval pingPongTimeout hinterval) actions = some s)
    (hconnected : s.conn.status = .Connected) : Watched (delayTicks pingPongTimeout) s := by
  let Inv (s : Process) : Prop := Kept s ∧ s.pingPongTimeout = pingPongTimeout
  have hinv : Inv s := by
    apply runSteps_invariant Inv _ ⟨init_kept hinterval htimeout, rfl⟩ hrun
    rintro s a s' ⟨hkept, hsame⟩ hstep
    exact ⟨step_kept hkept hstep, (step_parameters hstep).2.trans hsame⟩
  rw [← hinv.2]
  exact watched_of_kept hinv.1 hconnected

def answered : List Action :=
  [.tick [], .connect, .tick [], .tick [], .tick [.PingPongEntry 0], .pong, .tick [], .tick [],
    .tick [.KickoffEntry 1, .PingPongEntry 2]]

theorem run_watched_answered :
    ∃ s, runSteps step (init 2 3 (by decide)) answered = some s ∧
      s.conn.status = .Connected ∧ Watched (delayTicks 3) s :=
  ⟨_, rfl, rfl, @run_watched 2 3 (by decide) (by decide) answered _ rfl rfl⟩

/-- When the timeout is as long as the interval, nothing is due after the first PING until the ticks
of the timeout are over. -/
theorem exists_unanswered {timeout : Nat} (hlong : 500 ≤ timeout)
    (hodd : ¬100 ∣ delayTicks timeout) :
    ∃ actions s, runSteps step (init timeout timeout (by omega)) actions = some s ∧
      s.conn.status = .Connected ∧ delayTicks timeout ∈ unanswered s.conn.messages ∧
      s.wheel.ticksCounter = delayTicks timeout + (delayTicks timeout - 1) := by
  obtain ⟨s, clock, hrun, hnow, h⟩ :=
    @run_firstPing timeout timeout (by omega) (by omega) 0
  rw [Nat.zero_add] at hnow
  have hdeadline : ∀ id,
      deadlineAt 1 clock timeout id = clock.ticksCounter + delayTicks timeout := by
    intro id
    apply (h.made.deadlineAt_wheelsNum id).2
    rintro ⟨hpos, hdvd⟩
    apply hodd
    rw [h.made.bucketsNumPerWheel_of_long hlong, hnow] at hdvd
    exact (dvd_pow_self 100 hpos.ne').trans hdvd
  have hpos := delayTicks_pos timeout
  obtain ⟨s', hs'⟩ := exists_waited h.kept (delayTicks timeout - 1) (by
    rw [h.pending, h.ticksCounter]
    rintro p (rfl | rfl)
    · rw [hdeadline]
      omega
    · rw [hdeadline]
      omega)
  refine ⟨firstPing timeout 0 ++ List.replicate (delayTicks timeout - 1) (.tick []), s', ?_, ?_, ?_,
    ?_⟩
  · rw [runSteps_append, hrun]
    exact hs'.run
  · rw [hs'.conn, h.conn]
  · rw [hs'.conn, h.conn, hnow]
    exact List.mem_cons_self
  · rw [hs'.ticksCounter, h.ticksCounter, hnow]

/-- A timeout of 16777218 s is one second longer as a `float` with its extra tick. -/
theorem not_watched : ¬ ∀ (pingPongInterval pingPongTimeout : Nat)
    (hinterval : 1 < pingPongInterval), 0 < pingPongTimeout → ∀ actions s,
      runSteps step (init pingPongInterval pingPongTimeout hinterval) actions = some s →
        s.conn.status = .Connected → Watched (pingPongTimeout + 1) s := by
  intro h
  have hticks : delayTicks 16777218 = 16777220 := by decide
  obtain ⟨actions, s, hrun, hconnected, hping, hnow⟩ :=
    @exists_unanswered 16777218 (by omega) (by rw [hticks]; omega)
  have hwatched := (h 16777218 16777218 _ (by omega) actions s hrun hconnected).1 _ hping
  rw [hnow, hticks] at hwatched
  omega

end Cooper.PingPong

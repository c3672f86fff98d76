import Cooper.AppTcpServer

namespace Cooper.FrameSegmentation

open Cooper.MsgBuffer
open Cooper.TcpConnectionImpl
open Cooper.AppTcpServer

/-- A chunk that arrives, and the memory that the callback behind it sees. -/
abbrev Delivery := Bytes × Memory

structure Callback where
  before : Bytes
  after : Bytes
  events : List FrameEvent

def runCallbacks (server : Server) (buffer : Bytes) : List Delivery → List Callback
  | [] => []
  | (chunk, memory) :: deliveries =>
      let before := append buffer chunk
      let (after, events) := recvMsgCallback server memory before
      ⟨before, after, events⟩ :: runCallbacks server after deliveries

def framePayload : FrameEvent → Option Bytes
  | .packSize _ => none
  | .frame payload _ => some payload

def extracted (log : List Callback) : List Bytes :=
  log.flatMap fun callback => callback.events.filterMap framePayload

structure Callback.Safe (callback : Callback) : Prop where
  readable : ∀ readable, .packSize readable ∈ callback.events → 4 ≤ readable
  unchanged : ¬HoldsFrame callback.before → callback.after = callback.before

/-- The payloads taken out are the first of those sent, and every callback is safe. -/
def FrameSafe (payloads : List Bytes) (log : List Callback) : Prop :=
  extracted log <+: payloads ∧ ∀ callback ∈ log, callback.Safe

/-- Whenever the callback runs, at the front of the buffer is the whole length word, and then a
whole frame or fewer bytes than its payload is long. The lengths are those of the payloads and of
the chunks. -/
def CleanCut : (lengths : List Nat) → (pending : Nat) → (chunks : List Nat) → Prop
  | _, _, [] => True
  | [], _, _ :: _ => True
  | length :: lengths, pending, chunk :: chunks =>
      4 ≤ pending + chunk ∧
      if length + 4 ≤ pending + chunk then
        CleanCut lengths (pending + chunk - (length + 4)) chunks
      else pending + chunk < length ∧ CleanCut (length :: lengths) (pending + chunk) chunks

def chunkLengths (deliveries : List Delivery) : List Nat :=
  deliveries.map fun delivery => delivery.1.length

def payloadLengths (frames : List Frame) : List Nat :=
  frames.map fun frame => frame.payload.length

section Safety

variable {server : Server}

theorem frameSafe_cons_of_frame {callback : Callback} {payload : Bytes}
    (hevents : callback.events.filterMap framePayload = [payload]) (hsafe : callback.Safe)
    (payloads : List Bytes) (log : List Callback) :
    FrameSafe (payload :: payloads) (callback :: log) ↔ FrameSafe payloads log := by
  simp [FrameSafe, extracted, hevents, hsafe]

theorem safe_of_packSize {callback : Callback} {readable : Nat}
    (hevents : callback.events.filter (· matches .packSize _) = [.packSize readable])
    (hreadable : 4 ≤ readable) (hunchanged : ¬HoldsFrame callback.before →
      callback.after = callback.before) : callback.Safe where
  readable := by
    intro readable' hmem
    have : FrameEvent.packSize readable' ∈ [FrameEvent.packSize readable] :=
      hevents ▸ List.mem_filter.mpr ⟨hmem, rfl⟩
    simp_all
  unchanged := hunchanged

theorem frameSafe_cons_of_waiting {callback : Callback}
    (hevents : callback.events.filterMap framePayload = []) (hsafe : callback.Safe)
    (payloads : List Bytes) (log : List Callback) :
    FrameSafe payloads (callback :: log) ↔ FrameSafe payloads log := by
  simp [FrameSafe, extracted, hevents, hsafe]

theorem frameSafe_runCallbacks_iff (frames : List Frame) (deliveries : List Delivery)
    (hne : ∀ delivery ∈ deliveries, delivery.1 ≠ []) (buffer : Bytes)
    (hstream : buffer ++ (deliveries.map Prod.fst).flatten = encode frames) :
    FrameSafe (frames.map Frame.payload) (runCallbacks server buffer deliveries) ↔
      CleanCut (payloadLengths frames) buffer.length (chunkLengths deliveries) := by
  induction deliveries generalizing buffer frames with
  | nil => simp [runCallbacks, FrameSafe, extracted, chunkLengths, CleanCut]
  | cons delivery deliveries ih =>
      obtain ⟨chunk, memory⟩ := delivery
      have hchunk : chunk ≠ [] := hne _ List.mem_cons_self
      have hrest : ∀ delivery ∈ deliveries, delivery.1 ≠ [] := fun delivery hdelivery =>
        hne delivery (List.mem_cons_of_mem _ hdelivery)
      have hbefore : (buffer ++ chunk) ++ (deliveries.map Prod.fst).flatten = encode frames := by
        simpa using hstream
      obtain ⟨frame, frames, rfl, hstart⟩ := exists_cons_of_encode hbefore (by simp [hchunk])
      have hlength : buffer.length + chunk.length = (buffer ++ chunk).length := by simp
      simp only [runCallbacks, append_eq, recvMsgCallback_eq, payloadLengths, chunkLengths,
        List.map_cons, CleanCut, hlength]
      rcases recvFrameCallback_cases (outcome server memory) memory.behindBuffer hstart with
        ⟨tail, htail, hwhole, hcallback⟩ | ⟨hpart, hless, hcallback⟩ | ⟨hpart, hle, hcallback⟩
      · have hafter : tail ++ (deliveries.map Prod.fst).flatten = encode frames := by
          rw [htail, encode_cons, List.append_assoc] at hbefore
          exact List.append_cancel_left hbefore
        have hpending : (buffer ++ chunk).length - (frame.payload.length + 4) = tail.length := by
          simp [htail]
        have hholds := (holdsFrame_iff hstart).mpr hwhole
        rw [hcallback, frameSafe_cons_of_frame rfl (safe_of_packSize rfl (by omega)
          fun hnot => absurd hholds hnot), if_pos hwhole, hpending, and_iff_right (by omega)]
        exact ih frames hrest tail hafter
      · rw [hcallback, if_neg (by omega)]
        by_cases hword : 4 ≤ (buffer ++ chunk).length
        · rw [uint32_append hword, uint32_of_isPrefix hstart hword] at hless
          rw [and_iff_right hword, and_iff_right hless, frameSafe_cons_of_waiting rfl
            (safe_of_packSize rfl hword fun _ => rfl)]
          exact ih (frame :: frames) hrest (buffer ++ chunk) hbefore
        · -- The length word has been read before it arrived.
          refine iff_of_false ?_ fun hcut => hword hcut.1
          rintro ⟨-, hsafe⟩
          exact hword ((hsafe _ List.mem_cons_self).readable _ List.mem_cons_self)
      · -- What there is of the frame is taken for a frame.
        rw [hcallback, if_neg (by omega)]
        refine iff_of_false ?_ ?_
        · rintro ⟨-, hsafe⟩
          have hnot : ¬HoldsFrame (buffer ++ chunk) := by
            rw [holdsFrame_iff hstart]
            omega
          have hunchanged := (hsafe _ List.mem_cons_self).unchanged hnot
          simp [hchunk] at hunchanged
        · rintro ⟨hword, hless, -⟩
          rw [uint32_append hword, uint32_of_isPrefix hstart hword] at hle
          omega

/-- Frames that arrive in chunks are safe exactly when every cut is clean. -/
theorem frameSafe_iff_cleanCut (server : Server) (frames : List Frame)
    (deliveries : List Delivery) (hne : ∀ delivery ∈ deliveries, delivery.1 ≠ [])
    (hstream : (deliveries.map Prod.fst).flatten = encode frames) :
    FrameSafe (frames.map Frame.payload) (runCallbacks server [] deliveries) ↔
      CleanCut (payloadLengths frames) 0 (chunkLengths deliveries) :=
  frameSafe_runCallbacks_iff frames deliveries hne [] hstream

def noMemory : Memory where
  behindBuffer := []
  behindString := []

def login : Frame where
  payload := ascii "\x7b\"type\":1\x7d"
  size_lt := by decide

def logout : Frame where
  payload := ascii "\x7b\"type\":2\x7d"
  size_lt := by decide

def loginServer (mode : ModeType) : Server where
  mode
  pingPong := true
  parseType := fun str =>
    if str = login.payload then some 1 else if str = logout.payload then some 2 else none
  businessHandlers := [1, 2]
  mediaHandlers := []

theorem frameSafe_iff_cleanCut_login :
    FrameSafe [login.payload] (runCallbacks (loginServer .BUSINESS_MODE) []
        [(login.encode.take 6, noMemory), (login.encode.drop 6, noMemory)]) ↔
      CleanCut [10] 0 [6, 8] :=
  frameSafe_iff_cleanCut (loginServer .BUSINESS_MODE) [login]
    [(login.encode.take 6, noMemory), (login.encode.drop 6, noMemory)] (by decide) (by decide)

/-- Ten of the fourteen bytes of a frame arrive first: six payload bytes are taken for a frame. -/
theorem not_frameSafe_of_cutPayload :
    login.encode.take 10 ++ login.encode.drop 10 = encode [login] ∧
    ¬FrameSafe [login.payload] (runCallbacks (loginServer .BUSINESS_MODE) []
        [(login.encode.take 10, noMemory), (login.encode.drop 10, noMemory)]) ∧
    ¬FrameSafe [login.payload] (runCallbacks (loginServer .MEDIA_MODE) []
        [(login.encode.take 10, noMemory), (login.encode.drop 10, noMemory)]) := by
  refine ⟨by decide, ?_, ?_⟩
  · rintro ⟨hextracted, -⟩
    exact absurd hextracted (by decide)
  · rintro ⟨hextracted, -⟩
    exact absurd hextracted (by decide)

end Safety

/-- A connection, what its callbacks have done, and whether the loop turns: an exception that leaves
a callback ends it. -/
structure Reading where
  connection : Connection
  events : List FrameEvent
  looping : Bool

def Reading.start : Reading where
  connection := established none
  events := []
  looping := true

def receive (server : Server) (state : Reading) (delivery : Delivery) : Reading :=
  if state.looping then
    match readCallback state.connection (.ok delivery.1) with
    | (c, true) =>
        let (readBuffer, events) := recvMsgCallback server delivery.2 c.readBuffer
        ⟨{ c with readBuffer }, state.events ++ events, !throws events⟩
    | (c, false) => { state with connection := c }
  else state

def receiveAll (server : Server) (state : Reading) (deliveries : List Delivery) : Reading :=
  deliveries.foldl (receive server) state

/-- A payload is dispatched unless an exception ends its callback. -/
def dispatchedPayload : FrameEvent → Option Bytes
  | .packSize _ => none
  | .frame payload outcome => if outcome = .threw then none else some payload

def dispatched (events : List FrameEvent) : List Bytes :=
  events.filterMap dispatchedPayload

/-- The frames that have arrived whole are dispatched, and the buffer holds what lies behind. -/
def Drained (frames : List Frame) (received : Bytes) (state : Reading) : Prop :=
  ∃ whole rest, frames = whole ++ rest ∧ dispatched state.events = whole.map Frame.payload ∧
    received = encode whole ++ state.connection.readBuffer ∧
    ¬HoldsFrame state.connection.readBuffer

/-- Drained whenever a callback of a run returns to the loop, behind the bytes `received` before
it. -/
def DrainedRun (server : Server) (frames : List Frame) (received : Bytes) (state : Reading)
    (deliveries : List Delivery) : Prop :=
  ∀ k, (receiveAll server state (deliveries.take k)).looping = true →
    Drained frames (received ++ ((deliveries.take k).map Prod.fst).flatten)
      (receiveAll server state (deliveries.take k))

/-- The frames are dispatched as soon as they have arrived, and all of them at the end. -/
structure FrameProgress (server : Server) (frames : List Frame) (deliveries : List Delivery) :
    Prop where
  drained : DrainedRun server frames [] .start deliveries
  complete : dispatched (receiveAll server .start deliveries).events = frames.map Frame.payload

def NextWhole (frames : List Frame) (pending : Nat) : Prop :=
  ∃ frame ∈ frames.head?, frame.payload.length + 4 ≤ pending

/-- Every read completes one frame at most, and as long as it completes none, fewer bytes are
readable than the word at the front of the buffer says. -/
def DrainingCut : (frames : List Frame) → (pending : Nat) → (deliveries : List Delivery) → Prop
  | _, _, [] => True
  | [], _, _ :: _ => True
  | frame :: frames, pending, (chunk, memory) :: deliveries =>
      let readable := pending + chunk.length
      if frame.payload.length + 4 ≤ readable then
        ¬NextWhole frames (readable - (frame.payload.length + 4)) ∧
          DrainingCut frames (readable - (frame.payload.length + 4)) deliveries
      else
        readable < uint32 (frame.encode.take readable ++ memory.behindBuffer) ∧
          DrainingCut (frame :: frames) readable deliveries

section Progress

variable {server : Server}

theorem receive_eq (c : Connection) (events : List FrameEvent) {chunk : Bytes} (hchunk : chunk ≠ [])
    (memory : Memory) {after : Bytes} {events' : List FrameEvent}
    (hcallback : recvFrameCallback (outcome server memory) memory.behindBuffer
      (c.readBuffer ++ chunk) = (after, events')) :
    ∃ c', receive server ⟨c, events, true⟩ (chunk, memory) =
      ⟨c', events ++ events', !throws events'⟩ ∧ c'.readBuffer = after := by
  cases chunk with
  | nil => exact absurd rfl hchunk
  | cons byte chunk =>
      refine ⟨{ c with
        readBuffer := after
        bytesReceived := c.bytesReceived + (byte :: chunk).length }, ?_, rfl⟩
      simp only [receive, readCallback, append_eq, recvMsgCallback_eq, hcallback, if_true]

theorem receiveAll_of_ended {state : Reading} (hended : state.looping = false)
    (deliveries : List Delivery) : receiveAll server state deliveries = state := by
  induction deliveries with
  | nil => rfl
  | cons delivery deliveries ih =>
      have hreceive : receive server state delivery = state := by simp [receive, hended]
      rw [receiveAll, List.foldl_cons, hreceive]
      exact ih

theorem holdsFrame_iff_nextWhole {buffer rest : Bytes} {frames : List Frame}
    (hstream : buffer ++ rest = encode frames) :
    HoldsFrame buffer ↔ NextWhole frames buffer.length := by
  cases frames with
  | nil =>
      obtain ⟨rfl, rfl⟩ := List.append_eq_nil_iff.mp hstream
      simp [HoldsFrame, NextWhole]
  | cons frame frames =>
      rw [holdsFrame_iff ⟨rest, hstream⟩]
      simp [NextWhole]

theorem dispatched_append (events events' : List FrameEvent) :
    dispatched (events ++ events') = dispatched events ++ dispatched events' :=
  List.filterMap_append

theorem dispatched_frame {readable : Nat} {payload : Bytes} {outcome : Outcome}
    (hreturned : outcome ≠ .threw) :
    dispatched [.packSize readable, .frame payload outcome] = [payload] := by
  have hpayload : dispatchedPayload (.frame payload outcome) = some payload := if_neg hreturned
  rw [dispatched, List.filterMap_cons_none rfl, List.filterMap_cons_some hpayload,
    List.filterMap_nil]

theorem dispatched_threw {readable : Nat} {payload : Bytes} :
    dispatched [.packSize readable, .frame payload .threw] = [] := rfl

theorem throws_frame {readable : Nat} {payload : Bytes} {outcome : Outcome} :
    throws [.packSize readable, .frame payload outcome] = decide (outcome = .threw) := by
  simp [throws]

theorem take_encode {buffer rest : Bytes} {frame : Frame}
    (hstart : buffer <+: frame.encode ++ rest)
    (hpart : buffer.length < frame.payload.length + 4) :
    frame.encode.take buffer.length = buffer := by
  have hfront : (frame.encode ++ rest).take buffer.length = frame.encode.take buffer.length :=
    List.take_append_of_le_length (by rw [Frame.encode_length]; omega)
  rw [← hfront]
  exact (List.prefix_iff_eq_take.mp hstart).symm

theorem not_drained_of_short {state : Reading} {done frames : List Frame} {frame : Frame}
    {payload received : Bytes}
    (hdispatched : dispatched state.events = done.map Frame.payload ++ [payload])
    (hlength : received.length < frame.payload.length + 4) :
    ¬Drained (done ++ frame :: frames) (encode done ++ received) state := by
  rintro ⟨whole, rest, hsplit, hwhole, hreceived, -⟩
  have hcount : whole.length = (done ++ [frame]).length := by
    have := congrArg List.length (hdispatched.symm.trans hwhole)
    simpa using this.symm
  have hsplit' : (done ++ [frame]) ++ frames = whole ++ rest := by simpa using hsplit
  obtain ⟨rfl, -⟩ := List.append_inj hsplit' hcount.symm
  have := congrArg List.length hreceived
  simp [encode] at this
  omega

theorem drainedRun_nil {frames : List Frame} {received : Bytes} {state : Reading} :
    DrainedRun server frames received state [] ↔
      (state.looping = true → Drained frames received state) := by
  simp [DrainedRun, receiveAll]

theorem drainedRun_cons {frames : List Frame} {received : Bytes} {state : Reading}
    {delivery : Delivery} {deliveries : List Delivery} :
    DrainedRun server frames received state (delivery :: deliveries) ↔
      (state.looping = true → Drained frames received state) ∧
      DrainedRun server frames (received ++ delivery.1) (receive server state delivery)
        deliveries := by
  unfold DrainedRun
  rw [← Nat.and_forall_add_one]
  simp [receiveAll]

theorem DrainedRun.head {frames : List Frame} {received : Bytes} {state : Reading}
    {deliveries : List Delivery} (h : DrainedRun server frames received state deliveries)
    (hlooping : state.looping = true) : Drained frames received state := by
  simpa [receiveAll, hlooping] using h 0

/-- What has not been dispatched yet is in the buffer and in the chunks to come. -/
structure InStep (done frames : List Frame) (c : Connection) (events : List FrameEvent)
    (deliveries : List Delivery) : Prop where
  dispatched_eq : dispatched events = done.map Frame.payload
  boundary : ¬HoldsFrame c.readBuffer
  stream : c.readBuffer ++ (deliveries.map Prod.fst).flatten = encode frames

variable {done frames : List Frame} {c c' : Connection} {events events' : List FrameEvent}
  {deliveries : List Delivery} {chunk : Bytes} {memory : Memory}

theorem InStep.drained (h : InStep done frames c events deliveries) :
    Drained (done ++ frames) (encode done ++ c.readBuffer) ⟨c, events, true⟩ :=
  ⟨done, frames, rfl, h.dispatched_eq, rfl, h.boundary⟩

theorem InStep.frames_eq_nil (h : InStep done frames c events []) : frames = [] := by
  cases frames with
  | nil => rfl
  | cons frame frames =>
      refine absurd ((holdsFrame_iff_nextWhole h.stream).mpr ⟨frame, rfl, ?_⟩) h.boundary
      have hlength := congrArg List.length h.stream
      simp only [List.map_nil, List.flatten_nil, List.append_nil, encode_cons, List.length_append,
        Frame.encode_length] at hlength
      omega

/-- An exception leaves frames behind that are never dispatched. -/
theorem InStep.not_complete {frame : Frame}
    (h : InStep done (frame :: frames) c events deliveries) (hevents : dispatched events' = [])
    (deliveries' : List Delivery) :
    dispatched (receiveAll server ⟨c', events ++ events', false⟩ deliveries').events ≠
      (done ++ frame :: frames).map Frame.payload := by
  rw [receiveAll_of_ended rfl, dispatched_append, h.dispatched_eq, hevents]
  simp

theorem InStep.stream_cons (h : InStep done frames c events ((chunk, memory) :: deliveries)) :
    (c.readBuffer ++ chunk) ++ (deliveries.map Prod.fst).flatten = encode frames := by
  simpa using h.stream

theorem InStep.stream_frame {frame : Frame}
    (h : InStep done (frame :: frames) c events ((chunk, memory) :: deliveries))
    (hwhole : c.readBuffer ++ chunk = frame.encode ++ c'.readBuffer) :
    c'.readBuffer ++ (deliveries.map Prod.fst).flatten = encode frames := by
  have hbefore := h.stream_cons
  rw [hwhole, encode_cons, List.append_assoc] at hbefore
  exact List.append_cancel_left hbefore

theorem InStep.frame {frame : Frame}
    (h : InStep done (frame :: frames) c events ((chunk, memory) :: deliveries))
    (hwhole : c.readBuffer ++ chunk = frame.encode ++ c'.readBuffer)
    (hevents : dispatched events' = [frame.payload]) (hholds : ¬HoldsFrame c'.readBuffer) :
    InStep (done ++ [frame]) frames c' (events ++ events') deliveries where
  dispatched_eq := by
    rw [dispatched_append, h.dispatched_eq, hevents, List.map_append]
    rfl
  boundary := hholds
  stream := h.stream_frame hwhole

theorem InStep.wait (h : InStep done frames c events ((chunk, memory) :: deliveries))
    (hbuffer : c'.readBuffer = c.readBuffer ++ chunk) (hevents : dispatched events' = [])
    (hholds : ¬HoldsFrame c'.readBuffer) :
    InStep done frames c' (events ++ events') deliveries where
  dispatched_eq := by
    rw [dispatched_append, h.dispatched_eq, hevents, List.append_nil]
  boundary := hholds
  stream := by
    rw [hbuffer]
    exact h.stream_cons

theorem receiveAll_cons (state : Reading) (delivery : Delivery) (deliveries : List Delivery) :
    receiveAll server state (delivery :: deliveries) =
      receiveAll server (receive server state delivery) deliveries := rfl

theorem progress_iff (hne : ∀ delivery ∈ deliveries, delivery.1 ≠ [])
    (h : InStep done frames c events deliveries) :
    DrainedRun server (done ++ frames) (encode done ++ c.readBuffer) ⟨c, events, true⟩
        deliveries ∧
      dispatched (receiveAll server ⟨c, events, true⟩ deliveries).events =
        (done ++ frames).map Frame.payload ↔
      DrainingCut frames c.readBuffer.length deliveries ∧
        ∀ frame ∈ frames, Readable server frame.payload := by
  induction deliveries generalizing c events done frames with
  | nil =>
      obtain rfl := h.frames_eq_nil
      refine iff_of_true ⟨drainedRun_nil.mpr fun _ => h.drained, ?_⟩ ⟨trivial, by simp⟩
      simpa [receiveAll] using h.dispatched_eq
  | cons delivery deliveries ih =>
      obtain ⟨chunk, memory⟩ := delivery
      have hchunk : chunk ≠ [] := hne _ List.mem_cons_self
      have hrest : ∀ delivery ∈ deliveries, delivery.1 ≠ [] := fun delivery hdelivery =>
        hne delivery (List.mem_cons_of_mem _ hdelivery)
      obtain ⟨frame, frames, rfl, hstart⟩ := exists_cons_of_encode h.stream_cons (by simp [hchunk])
      have hlength : c.readBuffer.length + chunk.length = (c.readBuffer ++ chunk).length := by simp
      rw [drainedRun_cons, and_iff_right fun _ => h.drained, receiveAll_cons, List.append_assoc]
      simp only [DrainingCut, hlength]
      rcases recvFrameCallback_cases (outcome server memory) memory.behindBuffer hstart with
        ⟨tail, htail, hwhole, hcallback⟩ | ⟨hpart, hless, hcallback⟩ | ⟨hpart, hle, hcallback⟩
      · obtain ⟨c', hreceive, rfl⟩ := receive_eq c events hchunk memory hcallback
        have hpending : (c.readBuffer ++ chunk).length - (frame.payload.length + 4) =
            c'.readBuffer.length := by
          simp [htail]
        have hshift : encode done ++ (c.readBuffer ++ chunk) =
            encode (done ++ [frame]) ++ c'.readBuffer := by
          simp [htail, encode]
        rw [if_pos hwhole, hpending, ← holdsFrame_iff_nextWhole (h.stream_frame htail), hreceive,
          hshift, List.forall_mem_cons, throws_frame]
        by_cases hthrew : outcome server memory frame.payload = .threw
        · -- The exception ends the loop before the frame is dispatched.
          rw [hthrew]
          refine iff_of_false ?_ fun hcut => outcome_eq_threw_iff.mp hthrew hcut.2.1
          exact fun hprogress => h.not_complete dispatched_threw deliveries hprogress.2
        · have hreadable : Readable server frame.payload :=
            not_not.mp fun hnot => hthrew (outcome_eq_threw_iff.mpr hnot)
          rw [and_iff_right hreadable, decide_eq_false hthrew, Bool.not_false,
            List.append_cons done frame frames]
          by_cases hholds : HoldsFrame c'.readBuffer
          · refine iff_of_false ?_ fun hcut => hcut.1.1 hholds
            intro hprogress
            obtain ⟨-, -, -, -, -, hnot⟩ := hprogress.1.head rfl
            exact hnot hholds
          · rw [and_iff_right hholds]
            exact ih hrest (h.frame htail (dispatched_frame hthrew) hholds)
      · obtain ⟨c', hreceive, hbuffer⟩ := receive_eq c events hchunk memory hcallback
        have hholds : ¬HoldsFrame c'.readBuffer := by
          rw [hbuffer, holdsFrame_iff hstart]
          omega
        rw [if_neg (by omega), take_encode hstart hpart, and_iff_right hless, hreceive, ← hbuffer]
        exact ih hrest (h.wait hbuffer rfl hholds)
      · -- What there is of the frame is taken for a frame.
        obtain ⟨c', hreceive, -⟩ := receive_eq c events hchunk memory hcallback
        rw [if_neg (by omega), take_encode hstart hpart, hreceive, throws_frame]
        refine iff_of_false ?_ fun hcut => absurd hcut.1.1 (by omega)
        rintro ⟨hdrained, hcomplete⟩
        by_cases hthrew : outcome server memory ((c.readBuffer ++ chunk).drop 4) = .threw
        · rw [hthrew] at hcomplete
          exact h.not_complete dispatched_threw deliveries hcomplete
        · rw [decide_eq_false hthrew] at hdrained
          have hdispatched : dispatched (events ++ [.packSize (c.readBuffer ++ chunk).length,
              .frame ((c.readBuffer ++ chunk).drop 4)
                (outcome server memory ((c.readBuffer ++ chunk).drop 4))]) =
              done.map Frame.payload ++ [(c.readBuffer ++ chunk).drop 4] := by
            rw [dispatched_append, h.dispatched_eq, dispatched_frame hthrew]
          exact not_drained_of_short hdispatched hpart (hdrained.head rfl)

/-- Frames are dispatched as soon as they have arrived exactly when no read completes two of them,
no word read too early is small, and no payload makes the json library throw. -/
theorem frameProgress_iff_drainingCut (server : Server) (frames : List Frame)
    (deliveries : List Delivery) (hne : ∀ delivery ∈ deliveries, delivery.1 ≠ [])
    (hstream : (deliveries.map Prod.fst).flatten = encode frames) :
    FrameProgress server frames deliveries ↔
      DrainingCut frames 0 deliveries ∧ ∀ frame ∈ frames, Readable server frame.payload := by
  have hstart : InStep [] frames (established none) [] deliveries := ⟨rfl, by decide, hstream⟩
  have hrun : DrainedRun server frames [] .start deliveries ∧
      dispatched (receiveAll server .start deliveries).events = frames.map Frame.payload ↔
      DrainingCut frames 0 deliveries ∧ ∀ frame ∈ frames, Readable server frame.payload :=
    progress_iff hne hstart
  rw [← hrun]
  constructor
  · intro hprogress
    exact ⟨hprogress.drained, hprogress.complete⟩
  · rintro ⟨hdrained, hcomplete⟩
    exact ⟨hdrained, hcomplete⟩

/-- A payload without a type ends the loop before the login behind it arrives. -/
example : ¬FrameProgress (loginServer .BUSINESS_MODE) [⟨ascii "\x7b\x7d", by decide⟩, login]
    [(uint32Bytes 2 ++ ascii "\x7b\x7d", noMemory), (login.encode, noMemory)] := by
  intro hprogress
  exact absurd hprogress.complete (by decide)

theorem frameProgress_iff_drainingCut_oneByOne :
    FrameProgress (loginServer .BUSINESS_MODE) [login, logout]
        [(login.encode, noMemory), (logout.encode, noMemory)] ↔
      DrainingCut [login, logout] 0 [(login.encode, noMemory), (logout.encode, noMemory)] ∧
        ∀ frame ∈ [login, logout], Readable (loginServer .BUSINESS_MODE) frame.payload :=
  frameProgress_iff_drainingCut (loginServer .BUSINESS_MODE) [login, logout]
    [(login.encode, noMemory), (logout.encode, noMemory)] (by decide) (by decide)

/-- Two frames that arrive in one read: the second one stays in the buffer. -/
theorem not_frameProgress_of_coalesced :
    HoldsFrame (receiveAll (loginServer .BUSINESS_MODE) .start
      [(login.encode ++ logout.encode, noMemory)]).connection.readBuffer ∧
    ¬FrameProgress (loginServer .BUSINESS_MODE) [login, logout]
      [(login.encode ++ logout.encode, noMemory)] ∧
    ¬FrameProgress (loginServer .MEDIA_MODE) [login, logout]
      [(login.encode ++ logout.encode, noMemory)] := by
  have hbusiness : HoldsFrame (receiveAll (loginServer .BUSINESS_MODE) .start
      [(login.encode ++ logout.encode, noMemory)]).connection.readBuffer := by decide
  have hmedia : HoldsFrame (receiveAll (loginServer .MEDIA_MODE) .start
      [(login.encode ++ logout.encode, noMemory)]).connection.readBuffer := by decide
  refine ⟨hbusiness, ?_, ?_⟩
  · intro hprogress
    obtain ⟨-, -, -, -, -, hnot⟩ := hprogress.drained 1 (by decide)
    exact hnot hbusiness
  · intro hprogress
    obtain ⟨-, -, -, -, -, hnot⟩ := hprogress.drained 1 (by decide)
    exact hnot hmedia

end Progress

end Cooper.FrameSegmentation

import Cooper.FrameSegmentation
import Cooper.HttpLoop
import Cooper.StepRun

/-!
The event loop of an `AppTcpServer` in business mode. `json::parse` and `get` throw on what they do
not accept, and nothing between them and the loop catches their exceptions.
-/

namespace Cooper.AppServerLoop

open Cooper.AppTcpServer
open Cooper.FrameSegmentation
open Cooper.HttpLoop (Revents pollIn)
open Cooper.MsgBuffer
open Cooper.StepRun
open Cooper.TcpConnectionImpl

section Model

variable {ι : Type*}

abbrev IoLoop (ι : Type*) := ι → Option Connection

abbrev Handlers (ι : Type*) := ι → List FrameEvent → IoLoop ι → IoLoop ι

variable [DecidableEq ι]

/-- `readCallback` with `recvBusinessMsgCallback` behind it. There is no result when an exception
leaves it. -/
def readEvent (server : Server) (handlers : Handlers ι) (memory : Memory) (result : ReadResult)
    (id : ι) (c : Connection) (loop : IoLoop ι) : Option (IoLoop ι) :=
  match readCallback c result with
  | (c, true) =>
      let (readBuffer, events) := recvBusinessMsgCallback server memory c.readBuffer
      if throws events then none
      else some (handlers id events (Function.update loop id (some { c with readBuffer })))
  | (c, false) => some (Function.update loop id (some c))

def readPart (server : Server) (handlers : Handlers ι) (revents : Revents) (memory : Memory)
    (result : ReadResult) (id : ι) (c : Connection) (loop : IoLoop ι) : Option (IoLoop ι) :=
  let c := if revents.POLLHUP && !revents.POLLIN then handleClose c else c
  if revents.POLLIN || revents.POLLPRI || revents.POLLRDHUP then
    readEvent server handlers memory result id c loop
  else some (Function.update loop id (some c))

def writePart (kernel : Kernel) (id : ι) (loop : IoLoop ι) : Option (IoLoop ι) :=
  match loop id with
  | none => some loop
  | some c => (writeCallback kernel [] c).map fun c => Function.update loop id (some c)

/-- `Channel::handleEvent`. A `readv()` answers `result`. -/
def handleEvent (server : Server) (handlers : Handlers ι) (kernel : Kernel) (revents : Revents)
    (memory : Memory) (result : ReadResult) (id : ι) (c : Connection) (loop : IoLoop ι) :
    Option (IoLoop ι) :=
  if c.reading = false ∧ c.writing = false then some loop
  else
    (readPart server handlers revents memory result id c loop).bind fun loop =>
      if revents.POLLOUT then writePart kernel id loop else some loop

inductive LoopStep (ι : Type*)
  | accept (id : ι)
  | event (id : ι) (kernel : Kernel) (revents : Revents) (memory : Memory) (result : ReadResult)
  | forceClose (id : ι)
  | connectDestroyed (id : ι)

/-- A step of `EventLoop::loop`. There is no result when the loop ends, or where the step is not
possible. -/
def loopStep (server : Server) (handlers : Handlers ι) (loop : IoLoop ι) :
    LoopStep ι → Option (IoLoop ι)
  | .accept id =>
      match loop id with
      | none => some (Function.update loop id (some (established none)))
      | some _ => none
  | .event id kernel revents memory result =>
      (loop id).bind fun c => handleEvent server handlers kernel revents memory result id c loop
  | .forceClose id => (loop id).map fun c => Function.update loop id (some (forceClose c))
  | .connectDestroyed id =>
      (loop id).map fun c => Function.update loop id (some (connectDestroyed c))

end Model

section Containment

variable {ι : Type*} {server : Server} {memory : Memory}

/-- What the callback hands to `json::parse`, when it does: the bytes behind the length word, up to
the length that the word tells or to the end of the buffer. -/
def parsedText (memory : Memory) (buffer : Bytes) : Option Bytes :=
  let packSize := uint32 (buffer ++ memory.behindBuffer)
  if buffer.length < packSize then none else some ((buffer.drop 4).take packSize)

theorem throws_iff (buffer : Bytes) :
    throws (recvBusinessMsgCallback server memory buffer).2 = true ↔
      ∃ str ∈ parsedText memory buffer, server.parseType str = none := by
  have houtcome : ∀ str, businessOutcome server str = .threw ↔ server.parseType str = none :=
    fun _ => dispatch_eq_threw_iff
  rw [recvBusinessMsgCallback, parsedText]
  by_cases hless : buffer.length < uint32 (buffer ++ memory.behindBuffer)
  · rw [recvFrameCallback_of_lt hless]
    simp [hless, throws]
  · rw [recvFrameCallback_of_le (Nat.not_lt.mp hless)]
    simp [hless, throws, houtcome]

/-- The connection on which an event invokes the callback, when it does. -/
def callbackEntry (revents : Revents) (result : ReadResult) (c : Connection) : Option Connection :=
  if c.reading = false ∧ c.writing = false then none
  else if revents.POLLIN || revents.POLLPRI || revents.POLLRDHUP then
    match readCallback (if revents.POLLHUP && !revents.POLLIN then handleClose c else c) result with
    | (c, true) => some c
    | (_, false) => none
  else none

variable [DecidableEq ι]

/-- Nothing escapes from the callbacks that a step invokes. -/
def StepContained (server : Server) (handlers : Handlers ι) (loop : IoLoop ι) :
    LoopStep ι → Prop
  | .event id _ revents memory result =>
      ∀ c, loop id = some c → (c.reading = false ∧ c.writing = false) ∨
        ∃ loop', readPart server handlers revents memory result id c loop = some loop'
  | .accept _ | .forceClose _ | .connectDestroyed _ => True

/-- A text that an event hands to `json::parse` is accepted, and has a type. -/
def StepReadable (server : Server) (loop : IoLoop ι) : LoopStep ι → Prop
  | .event id _ revents memory result =>
      ∀ c, loop id = some c → ∀ entry ∈ callbackEntry revents result c,
        ∀ str ∈ parsedText memory entry.readBuffer, server.parseType str ≠ none
  | .accept _ | .forceClose _ | .connectDestroyed _ => True

theorem readPart_eq_none_iff {handlers : Handlers ι} {revents : Revents} {result : ReadResult}
    {id : ι} {c : Connection} {loop : IoLoop ι} (hlive : ¬(c.reading = false ∧ c.writing = false)) :
    readPart server handlers revents memory result id c loop = none ↔
      ∃ entry ∈ callbackEntry revents result c,
        throws (recvBusinessMsgCallback server memory entry.readBuffer).2 = true := by
  rw [readPart, callbackEntry, if_neg hlive]
  by_cases hreads : (revents.POLLIN || revents.POLLPRI || revents.POLLRDHUP) = true
  · simp only [hreads, if_true, readEvent]
    split <;> simp
  · simp [hreads]

theorem stepContained_iff (handlers : Handlers ι) (loop : IoLoop ι) (t : LoopStep ι) :
    StepContained server handlers loop t ↔ StepReadable server loop t := by
  cases t with
  | event id kernel revents memory result =>
      refine forall₂_congr fun c hc => ?_
      by_cases hdead : c.reading = false ∧ c.writing = false
      · simp [hdead, callbackEntry]
      · rw [or_iff_right hdead, ← Option.isSome_iff_exists, Option.isSome_iff_ne_none, ne_eq,
          readPart_eq_none_iff hdead]
        simp only [throws_iff, not_exists, not_and]
  | accept id => exact Iff.rfl
  | forceClose id => exact Iff.rfl
  | connectDestroyed id => exact Iff.rfl

/-- In a run of a loop with any number of connections nothing escapes from the callbacks exactly
when each text that is handed to `json::parse` is accepted and has a type. -/
theorem contained_run_iff (server : Server) (handlers : Handlers ι) (steps : List (LoopStep ι)) :
    AllSteps (loopStep server handlers) (StepContained server handlers) (fun _ => none) steps ↔
      AllSteps (loopStep server handlers) (StepReadable server) (fun _ => none) steps := by
  refine allSteps_iff (fun _ => True) (fun _ _ _ _ _ => trivial) ?_ trivial steps
  intro loop t _
  exact stepContained_iff handlers loop t

theorem loopStep_of_unreadable {handlers : Handlers ι} {loop : IoLoop ι} {id : ι} {kernel : Kernel}
    {revents : Revents} {result : ReadResult}
    (h : ¬StepReadable server loop (.event id kernel revents memory result)) :
    loopStep server handlers loop (.event id kernel revents memory result) = none := by
  rw [← stepContained_iff handlers, StepContained] at h
  simp only [not_forall, not_or, not_exists] at h
  obtain ⟨c, hc, hlive, hnone⟩ := h
  have hthrew : readPart server handlers revents memory result id c loop = none :=
    Option.eq_none_iff_forall_ne_some.mpr hnone
  rw [loopStep, hc, Option.bind_some, handleEvent, if_neg hlive, hthrew]
  rfl

def noJson : List (LoopStep Nat) :=
  [.accept 0, .event 0 (fun _ len => .done (Fin.last len)) pollIn noMemory
    (.ok ([1, 0, 0, 0] ++ ascii "x"))]

theorem not_contained_noJson : ¬ ∀ (server : Server) (handlers : Handlers Nat)
    (steps : List (LoopStep Nat)),
    AllSteps (loopStep server handlers) (StepContained server handlers) (fun _ => none) steps := by
  intro h
  obtain ⟨-, hrest⟩ := h (loginServer .BUSINESS_MODE) (fun _ _ loop => loop) noJson
  obtain ⟨hcontained, -⟩ := hrest _ rfl
  rcases hcontained (established none) rfl with ⟨hreading, -⟩ | ⟨loop', hloop'⟩
  · exact absurd hreading (by decide)
  · rw [(readPart_eq_none_iff (by decide)).mpr ⟨_, rfl, by decide⟩] at hloop'
    contradiction

end Containment

section CleanCuts

variable {server : Server}

theorem filterMap_framePayload (memory : Memory) (buffer : Bytes) :
    (recvBusinessMsgCallback server memory buffer).2.filterMap framePayload =
      (parsedText memory buffer).toList := by
  rw [recvBusinessMsgCallback, parsedText]
  by_cases hless : buffer.length < uint32 (buffer ++ memory.behindBuffer)
  · rw [recvFrameCallback_of_lt hless]
    simp [hless, framePayload]
  · rw [recvFrameCallback_of_le (Nat.not_lt.mp hless)]
    simp only [hless, if_false]
    rfl

theorem exists_of_mem_runCallbacks (hmode : server.mode = .BUSINESS_MODE) {buffer : Bytes}
    {deliveries : List Delivery} {callback : Callback}
    (hmem : callback ∈ runCallbacks server buffer deliveries) :
    ∃ memory, callback.events = (recvBusinessMsgCallback server memory callback.before).2 := by
  induction deliveries generalizing buffer with
  | nil => contradiction
  | cons delivery deliveries ih =>
      rw [runCallbacks] at hmem
      rcases List.mem_cons.mp hmem with rfl | hrest
      · refine ⟨delivery.2, ?_⟩
        simp only [hmode]
      · exact ih hrest

theorem not_throws_of_cleanCut (hmode : server.mode = .BUSINESS_MODE) {frames : List Frame}
    {deliveries : List Delivery} (hne : ∀ delivery ∈ deliveries, delivery.1 ≠ [])
    (hstream : (deliveries.map Prod.fst).flatten = encode frames)
    (hcut : CleanCut (payloadLengths frames) 0 (chunkLengths deliveries))
    (hreadable : ∀ frame ∈ frames, server.parseType frame.payload ≠ none) :
    ∀ callback ∈ runCallbacks server [] deliveries, throws callback.events = false := by
  obtain ⟨hextracted, -⟩ := (frameSafe_runCallbacks_iff frames deliveries hne [] hstream).mpr hcut
  intro callback hmem
  obtain ⟨memory, hevents⟩ := exists_of_mem_runCallbacks hmode hmem
  rw [Bool.eq_false_iff, hevents, ne_eq, throws_iff]
  rintro ⟨str, hstr, hnone⟩
  have hpayload : str ∈ extracted (runCallbacks server [] deliveries) := by
    refine List.mem_flatMap.mpr ⟨callback, hmem, ?_⟩
    rw [hevents, filterMap_framePayload, Option.mem_toList]
    exact hstr
  obtain ⟨frame, hframe, rfl⟩ := List.mem_map.mp (hextracted.subset hpayload)
  exact hreadable frame hframe hnone

/-- The cut in the login of a client ends the loop, although its one frame is readable. -/
example : throws (recvBusinessMsgCallback (loginServer .BUSINESS_MODE) noMemory
    (login.encode.take 10)).2 = true := by
  decide

end CleanCuts

end Cooper.AppServerLoop

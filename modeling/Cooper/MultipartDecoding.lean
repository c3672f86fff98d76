import Cooper.MultipartEncoding
import Mathlib.Data.List.Forall2

namespace Cooper.MultipartDecoding

open Cooper.LineBlock
open Cooper.ListSearch
open Cooper.MsgBuffer
open Cooper.TcpConnectionImpl (ReadResult)
open Cooper.WhileLoop
open Cooper.Multipart
open Cooper.MultipartEncoding

variable {boundary : Bytes}

def inputData : List ReadResult → Bytes
  | [] => []
  | .ok chunk :: input => chunk ++ inputData input
  | .error _ :: input => inputData input

def OnlyAgain (input : List ReadResult) : Prop := ∀ e, .error e ∈ input → e = .EAGAIN

def readEnds : (arrived : Nat) → List ReadResult → List Nat
  | arrived, [] => [arrived]
  | arrived, .ok chunk :: input => arrived :: readEnds (arrived + chunk.length) input
  | arrived, .error _ :: input => readEnds arrived input

/-- No read ends inside a header block, except before its third byte. The block of the first part
begins at `start`. -/
def CleanBlocks (ends : List Nat) : (start : Nat) → List (Part boundary) → Prop
  | _, [] => True
  | start, part :: parts =>
      (∀ arrived ∈ ends, start + 2 ≤ arrived →
        start + (headerBlock part.lines).length ≤ arrived) ∧
      CleanBlocks ends (start + (headerBlock part.lines).length + part.content.length +
        (crlfDashBoundary boundary).length + 2) parts

/-- The calls made for a part of which the parser has taken `content`: one for its name, then
pieces of the content. -/
def PartCalls (registered : List Bytes) (part : Part boundary) (content : Bytes)
    (calls : List PartCall) : Prop :=
  if part.name ∈ registered then
    ∃ pieces : List Bytes,
      calls = ⟨part.file, [], .FLAG_FILENAME⟩ ::
        pieces.map (fun piece => ⟨part.file, piece, .FLAG_CONTENT⟩) ∧
      pieces.flatten = content
  else calls = []

/-- The calls made for these parts, in their order. -/
def DecodedCalls (registered : List Bytes) (parts : List (Part boundary))
    (calls : List PartCall) : Prop :=
  ∃ groups : List (List PartCall),
    List.Forall₂ (fun part group => PartCalls registered part part.content group) parts groups ∧
    calls = groups.flatten

def Decodes (registered : List Bytes) (parts : List (Part boundary)) (s : LoopState) : Prop :=
  ∃ s', Returns (parseStep registered) s (true, s') ∧ DecodedCalls registered parts s'.calls

section Calls

variable {registered : List Bytes} (part : Part boundary) {content : Bytes}
  {calls : List PartCall}

def callFor (registered : List Bytes) (part : Part boundary) (data : Bytes) (flag : Flag) :
    List PartCall :=
  if part.name ∈ registered then [⟨part.file, data, flag⟩] else []

theorem writeCallback_eq (data : Bytes) (flag : Flag) {s : LoopState}
    (hfile : s.parser.file = part.file) :
    writeCallback registered data flag s =
      { s with calls := s.calls ++ callFor registered part data flag } := by
  unfold writeCallback callFor
  rw [hfile]
  change (if part.name ∈ registered then _ else _) = _
  split <;> simp

theorem partCalls_filename :
    PartCalls registered part [] (callFor registered part [] .FLAG_FILENAME) := by
  unfold PartCalls callFor
  split
  · exact ⟨[], rfl, rfl⟩
  · rfl

variable {part}

theorem PartCalls.append (h : PartCalls registered part content calls) (piece : Bytes) :
    PartCalls registered part (content ++ piece)
      (calls ++ callFor registered part piece .FLAG_CONTENT) := by
  unfold PartCalls callFor at *
  split at h
  · rename_i hname
    obtain ⟨pieces, rfl, rfl⟩ := h
    rw [if_pos hname, if_pos hname]
    exact ⟨pieces ++ [piece], by simp, by simp⟩
  · rename_i hname
    rw [if_neg hname, if_neg hname, h]
    rfl

theorem DecodedCalls.snoc {parts : List (Part boundary)} (h : DecodedCalls registered parts calls)
    {calls' : List PartCall} (h' : PartCalls registered part part.content calls') :
    DecodedCalls registered (parts ++ [part]) (calls ++ calls') := by
  obtain ⟨groups, hgroups, rfl⟩ := h
  refine ⟨groups ++ [calls'], ?_, by simp⟩
  exact List.rel_append hgroups (List.Forall₂.cons h' List.Forall₂.nil)

end Calls

section Blocks

theorem readEnds_add (arrived k : Nat) (input : List ReadResult) :
    readEnds (arrived + k) input = (readEnds arrived input).map (· + k) := by
  induction input generalizing arrived with
  | nil => rfl
  | cons result input ih =>
      cases result with
      | error e => exact ih arrived
      | ok chunk => rw [readEnds, readEnds, List.map_cons, Nat.add_right_comm, ih]

theorem le_of_mem_readEnds {arrived e : Nat} {input : List ReadResult}
    (he : e ∈ readEnds arrived input) : arrived ≤ e := by
  induction input generalizing arrived with
  | nil => exact (List.mem_singleton.mp he).ge
  | cons result input ih =>
      cases result with
      | error _ => exact ih he
      | ok chunk =>
          rcases List.mem_cons.mp he with rfl | he
          · exact le_refl _
          · exact le_trans (Nat.le_add_right _ _) (ih he)

theorem mem_readEnds_self (arrived : Nat) (input : List ReadResult) :
    arrived ∈ readEnds arrived input := by
  induction input with
  | nil => exact List.mem_singleton.mpr rfl
  | cons result input ih =>
      cases result with
      | error _ => exact ih
      | ok chunk => exact List.mem_cons_self

theorem cleanBlocks_map_add (ends : List Nat) (start k : Nat) (parts : List (Part boundary)) :
    CleanBlocks (ends.map (· + k)) (start + k) parts ↔ CleanBlocks ends start parts := by
  induction parts generalizing start with
  | nil => exact Iff.rfl
  | cons part parts ih =>
      simp only [CleanBlocks, List.forall_mem_map, Nat.add_right_comm _ k, Nat.add_le_add_iff_right]
      rw [ih]

theorem cleanBlocks_consume {arrived k : Nat} (hk : k ≤ arrived) (start : Nat)
    (input : List ReadResult) (parts : List (Part boundary)) :
    CleanBlocks (readEnds arrived input) (start + k) parts ↔
      CleanBlocks (readEnds (arrived - k) input) start parts := by
  obtain ⟨n, rfl⟩ : ∃ n, arrived = n + k := ⟨arrived - k, by omega⟩
  rw [readEnds_add, cleanBlocks_map_add, Nat.add_sub_cancel]

theorem cleanBlocks_cons_of_lt {arrived start : Nat} (h : arrived < start + 2) (ends : List Nat)
    (parts : List (Part boundary)) :
    CleanBlocks (arrived :: ends) start parts ↔ CleanBlocks ends start parts := by
  induction parts generalizing start with
  | nil => exact Iff.rfl
  | cons part parts ih =>
      have hfront : start + 2 ≤ arrived → start + (headerBlock part.lines).length ≤ arrived := by
        intro hle
        omega
      rw [CleanBlocks, CleanBlocks, List.forall_mem_cons, and_iff_right hfront, ih (by omega)]

theorem cleanBlocks_open {arrived : Nat} {part : Part boundary}
    (hwhole : (headerBlock part.lines).length ≤ arrived) (input : List ReadResult)
    (parts : List (Part boundary)) :
    CleanBlocks (readEnds arrived input) 0 (part :: parts) ↔
      CleanBlocks (readEnds (arrived - (headerBlock part.lines).length) input)
        (part.content.length + (crlfDashBoundary boundary).length + 2) parts := by
  have hends : ∀ e ∈ readEnds arrived input, 0 + 2 ≤ e →
      0 + (headerBlock part.lines).length ≤ e := by
    intro e he _
    have := le_of_mem_readEnds he
    omega
  rw [CleanBlocks, and_iff_right hends, ← cleanBlocks_consume hwhole]
  have hstart : 0 + (headerBlock part.lines).length + part.content.length +
      (crlfDashBoundary boundary).length + 2 = part.content.length +
      (crlfDashBoundary boundary).length + 2 + (headerBlock part.lines).length := by omega
  rw [hstart]

end Blocks

section Position

def stream (s : LoopState) : Bytes := s.buffer ++ inputData s.input

structure Receiving (boundary : Bytes) (s : LoopState) : Prop where
  dashBoundaryCrlf : s.parser.dashBoundaryCrlf = dash ++ boundary ++ CRLF
  crlfDashBoundary : s.parser.crlfDashBoundary = crlfDashBoundary boundary
  onlyAgain : OnlyAgain s.input

/-- Where the parser is in the body with these parts: the parts `todo` have their header blocks
still to come, the first of them at `start` from the front of the buffer. -/
inductive At (registered : List Bytes) (epilogue : Bytes) (parts : List (Part boundary)) :
    LoopState → (start : Nat) → (todo : List (Part boundary)) → Prop
  | opening {s : LoopState} (hstate : s.parser.state = .state0) (hcalls : s.calls = [])
      (hready : s.needToReadMore = false) (hne : parts ≠ [])
      (hstream : stream s = encodeBody epilogue parts)
      (hopening : (dash ++ boundary ++ CRLF).length ≤ s.buffer.length) :
      At registered epilogue parts s (dash ++ boundary ++ CRLF).length parts
  | fresh {s : LoopState} {done todo : List (Part boundary)} {part : Part boundary}
      (hstate : s.parser.state = .state1) (hready : s.needToReadMore = false)
      (hparts : parts = done ++ part :: todo) (hcalls : DecodedCalls registered done s.calls)
      (hstream : stream s = headerBlock part.lines ++ (part.content ++
        (crlfDashBoundary boundary ++ encodeRest epilogue todo))) :
      At registered epilogue parts s 0 (part :: todo)
  | header {s : LoopState} {done todo : List (Part boundary)} {part : Part boundary}
      (hstate : s.parser.state = .state2) (hfile : s.parser.file = ⟨[], [], []⟩)
      (hwaiting : s.needToReadMore = true → s.buffer.length < 2)
      (hparts : parts = done ++ part :: todo) (hcalls : DecodedCalls registered done s.calls)
      (hstream : stream s = headerBlock part.lines ++ (part.content ++
        (crlfDashBoundary boundary ++ encodeRest epilogue todo))) :
      At registered epilogue parts s 0 (part :: todo)
  | content {s : LoopState} {done todo : List (Part boundary)} {part : Part boundary}
      {taken rest : Bytes} {calls calls' : List PartCall}
      (hstate : s.parser.state = .state3) (hfile : s.parser.file = part.file)
      (hwaiting : s.needToReadMore = true →
        s.buffer.length < rest.length + (crlfDashBoundary boundary).length)
      (hparts : parts = done ++ part :: todo) (hcalls : DecodedCalls registered done calls)
      (hcalls' : PartCalls registered part taken calls') (htrace : s.calls = calls ++ calls')
      (hcontent : taken ++ rest = part.content)
      (hstream : stream s = rest ++ (crlfDashBoundary boundary ++ encodeRest epilogue todo)) :
      At registered epilogue parts s (rest.length + (crlfDashBoundary boundary).length + 2) todo
  | delimiter {s : LoopState} {done todo : List (Part boundary)}
      (hstate : s.parser.state = .state4)
      (hwaiting : s.needToReadMore = true → s.buffer.length < 2)
      (hparts : parts = done ++ todo) (hcalls : DecodedCalls registered done s.calls)
      (hstream : stream s = encodeRest epilogue todo) :
      At registered epilogue parts s 2 todo

/-- Every iteration makes this smaller. -/
def workLeft (s : LoopState) : Nat :=
  4 * ((stream s).length + s.input.length) +
    ((if s.parser.state = .state1 then 2 else 0) + if s.needToReadMore then 0 else 1)

variable {registered : List Bytes} {epilogue : Bytes} {parts : List (Part boundary)}

/-- What an iteration from `s` may come to. -/
def StepOK (registered : List Bytes) (epilogue : Bytes) (parts : List (Part boundary))
    (s : LoopState) (start : Nat) (todo : List (Part boundary)) :
    LoopState ⊕ Bool × LoopState → Prop
  | .inl s' => ∃ start' todo', Receiving boundary s' ∧ At registered epilogue parts s' start' todo' ∧
      (CleanBlocks (readEnds s.buffer.length s.input) start todo ↔
        CleanBlocks (readEnds s'.buffer.length s'.input) start' todo') ∧
      workLeft s' < workLeft s
  | .inr (true, s') => DecodedCalls registered parts s'.calls ∧
      CleanBlocks (readEnds s.buffer.length s.input) start todo
  | .inr (false, _) => ¬CleanBlocks (readEnds s.buffer.length s.input) start todo

theorem exists_tail_of_stream {s : LoopState} {front rest : Bytes}
    (hstream : stream s = front ++ rest) (hfront : front.length ≤ s.buffer.length) :
    ∃ tail, s.buffer = front ++ tail ∧ tail ++ inputData s.input = rest := by
  have hbuffer : s.buffer <+: front ++ rest := ⟨inputData s.input, hstream⟩
  obtain ⟨tail, htail, -⟩ := exists_tail_of_isPrefix hbuffer hfront
  refine ⟨tail, htail, ?_⟩
  rw [stream, htail, List.append_assoc] at hstream
  exact List.append_cancel_left hstream

theorem exists_tail_of_stream_append {s : LoopState} {front needle rest : Bytes}
    (hstream : stream s = front ++ (needle ++ rest))
    (hwhole : front.length + needle.length ≤ s.buffer.length) :
    ∃ tail, s.buffer = front ++ (needle ++ tail) ∧ tail ++ inputData s.input = rest := by
  rw [← List.append_assoc] at hstream
  rw [← List.length_append] at hwhole
  obtain ⟨tail, hbuffer, htail⟩ := exists_tail_of_stream hstream hwhole
  exact ⟨tail, by rw [hbuffer, List.append_assoc], htail⟩

theorem take_drop_of_stream {s : LoopState} {front rest : Bytes}
    (hstream : stream s = front ++ rest) (len : Nat) (hfront : len ≤ front.length)
    (hbuffer : len ≤ s.buffer.length) :
    s.buffer.take len = front.take len ∧
      s.buffer.drop len ++ inputData s.input = front.drop len ++ rest := by
  constructor
  · have htake := congrArg (List.take len) hstream
    rwa [stream, List.take_append_of_le_length hbuffer,
      List.take_append_of_le_length hfront] at htake
  · have hdrop := congrArg (List.drop len) hstream
    rwa [stream, List.drop_append_of_le_length hbuffer,
      List.drop_append_of_le_length hfront] at hdrop

theorem find_of_front {needle : Bytes} (hneedle : needle ≠ []) (tail : Bytes) :
    find (needle ++ tail) needle = some 0 := by
  rw [find_eq_search hneedle, search_eq_some_iff]
  exact ⟨Nat.zero_le _, List.prefix_append _ _, by simp⟩

variable {s : LoopState}

theorem parseState0_ok (hs : Receiving boundary s) (hstate : s.parser.state = .state0)
    (hcalls : s.calls = []) (hready : s.needToReadMore = false) (hne : parts ≠ [])
    (hstream : stream s = encodeBody epilogue parts)
    (hopening : (dash ++ boundary ++ CRLF).length ≤ s.buffer.length) :
    StepOK registered epilogue parts s (dash ++ boundary ++ CRLF).length parts (parseState0 s) := by
  obtain ⟨part, todo, rfl⟩ := List.exists_cons_of_ne_nil hne
  have hsplit : stream s = (dash ++ boundary ++ CRLF) ++ (headerBlock part.lines ++
      (part.content ++ (crlfDashBoundary boundary ++ encodeRest epilogue todo))) := by
    rw [hstream, encodeBody, encodeRest, List.append_assoc _ CRLF]
  obtain ⟨tail, hbuffer, htail⟩ := exists_tail_of_stream hsplit hopening
  have hdash : dash ++ boundary ++ CRLF ≠ [] := by simp [CRLF_eq]
  have hstep : parseState0 s = .inl { s with
      buffer := tail, parser := { s.parser with state := .state1 } } := by
    rw [parseState0, hs.dashBoundaryCrlf, if_neg (by rw [readableBytes_eq]; omega), hbuffer,
      find_of_front hdash]
    simp only [retrieveUntil_eq, Nat.zero_add, List.drop_left]
  rw [hstep]
  refine ⟨0, part :: todo, ⟨hs.1, hs.2, hs.3⟩,
    .fresh rfl hready rfl ⟨[], List.Forall₂.nil, hcalls⟩ htail, ?_, ?_⟩
  · have hconsume := cleanBlocks_consume hopening 0 s.input (part :: todo)
    rw [Nat.zero_add] at hconsume
    rw [hconsume, hbuffer, List.length_append, Nat.add_sub_cancel_left]
  · simp only [workLeft, stream, hbuffer, hstate, hready, List.length_append, CRLF_length]
    simp
    omega

theorem parseState1_ok (hs : Receiving boundary s) (hstate : s.parser.state = .state1)
    (hready : s.needToReadMore = false) {done todo : List (Part boundary)} {part : Part boundary}
    (hparts : parts = done ++ part :: todo) (hcalls : DecodedCalls registered done s.calls)
    (hstream : stream s = headerBlock part.lines ++ (part.content ++
      (crlfDashBoundary boundary ++ encodeRest epilogue todo))) :
    StepOK registered epilogue parts s 0 (part :: todo) (parseState1 s) := by
  refine ⟨0, part :: todo, ⟨hs.1, hs.2, hs.3⟩, .header rfl rfl ?_ hparts hcalls hstream, Iff.rfl, ?_⟩
  · intro hwait
    simp [hready] at hwait
  · simp [workLeft, stream, hstate]

theorem waitForMore_ok (hs : Receiving boundary s) (hready : s.needToReadMore = false)
    {start : Nat} {todo : List (Part boundary)}
    (hat : At registered epilogue parts (waitForMore s) start todo) :
    StepOK registered epilogue parts s start todo (.inl (waitForMore s)) := by
  refine ⟨start, todo, ⟨hs.1, hs.2, hs.3⟩, hat, Iff.rfl, ?_⟩
  simp only [workLeft, waitForMore, stream, hready, if_true]
  exact Nat.add_lt_add_left (Nat.add_lt_add_left Nat.zero_lt_one _) _

theorem parseState2_ok (hs : Receiving boundary s) (hstate : s.parser.state = .state2)
    (hfile : s.parser.file = ⟨[], [], []⟩) (hready : s.needToReadMore = false)
    {done todo : List (Part boundary)} {part : Part boundary}
    (hparts : parts = done ++ part :: todo) (hcalls : DecodedCalls registered done s.calls)
    (hstream : stream s = headerBlock part.lines ++ (part.content ++
      (crlfDashBoundary boundary ++ encodeRest epilogue todo))) :
    StepOK registered epilogue parts s 0 (part :: todo) (parseState2 registered s) := by
  unfold parseState2
  split
  · rename_i hshort
    exact waitForMore_ok hs hready (.header hstate hfile (fun _ => hshort) hparts hcalls hstream)
  · rename_i hlong
    rw [readableBytes_eq] at hlong
    by_cases hwhole : (headerBlock part.lines).length ≤ s.buffer.length
    · obtain ⟨tail, hbuffer, htail⟩ := exists_tail_of_stream hstream hwhole
      have hfuel : part.lines.length < s.buffer.length := by
        have := length_le_headerBlock part.lines
        omega
      have hparsed := parsePartHeaders_whole part.headerLine hfuel (foldlM_parsePartHeader part) tail
      rw [← hbuffer] at hparsed
      rw [hfile, hparsed]
      simp only
      rw [writeCallback_eq part _ _ rfl]
      refine ⟨part.content.length + (crlfDashBoundary boundary).length + 2, todo,
        ⟨hs.1, hs.2, hs.3⟩, ?_, ?_, ?_⟩
      · exact .content rfl rfl (by simp [hready]) hparts hcalls (partCalls_filename part) rfl
          (List.nil_append _) htail
      · rw [cleanBlocks_open hwhole, hbuffer, List.length_append, Nat.add_sub_cancel_left]
      · have := length_le_headerBlock part.lines
        simp [workLeft, stream, hbuffer, hstate, hready]
        omega
    · have hfailed := parsePartHeaders_partial part.headerLine s.buffer.length s.parser.file
        ⟨inputData s.input, hstream⟩ (by omega)
      obtain ⟨file, buffer, hparsed⟩ : ∃ file buffer,
          parsePartHeaders s.buffer.length s.parser.file s.buffer = (false, file, buffer) :=
        ⟨_, _, Prod.ext hfailed rfl⟩
      rw [hparsed]
      intro hclean
      have := hclean.1 s.buffer.length (mem_readEnds_self _ _) (by omega)
      omega

theorem crlfDashBoundary_eq (boundary : Bytes) :
    crlfDashBoundary boundary = 13 :: (10 :: (dash ++ boundary)) := by
  rw [crlfDashBoundary, CRLF_eq]
  rfl

theorem four_le_crlfDashBoundary (boundary : Bytes) :
    4 ≤ (crlfDashBoundary boundary).length := by
  have hdash : dash.length = 2 := by decide
  rw [crlfDashBoundary_eq, List.length_cons, List.length_cons, List.length_append, hdash]
  omega

theorem find_delimiter (hcr : 13 ∉ boundary) {content : Bytes}
    (hfree : ¬crlfDashBoundary boundary <:+: content) (rest : Bytes) :
    find (content ++ (crlfDashBoundary boundary ++ rest)) (crlfDashBoundary boundary) =
      some content.length := by
  have hguard : 13 ∉ 10 :: (dash ++ boundary) := by
    simp [hcr, show 13 ∉ dash by decide]
  rw [crlfDashBoundary_eq] at hfree ⊢
  rw [find_eq_search (by simp), ← List.append_assoc]
  exact search_content_append hguard hfree rest

theorem find_delimiter_partial (hcr : 13 ∉ boundary) {content buffer rest : Bytes}
    (hfree : ¬crlfDashBoundary boundary <:+: content)
    (hstart : buffer <+: content ++ (crlfDashBoundary boundary ++ rest))
    (hlength : buffer.length < content.length + (crlfDashBoundary boundary).length) :
    find buffer (crlfDashBoundary boundary) = none := by
  have hguard : 13 ∉ 10 :: (dash ++ boundary) := by
    simp [hcr, show 13 ∉ dash by decide]
  rw [crlfDashBoundary_eq] at hfree hstart hlength ⊢
  rw [← List.append_assoc] at hstart
  rw [find_eq_search (by simp), search_eq_none_iff]
  exact not_isInfix_of_isPrefix hguard hfree hstart hlength

theorem parseState3_found (hcr : 13 ∉ boundary)
    (hdelimiter : s.parser.crlfDashBoundary = crlfDashBoundary boundary) {rest tail : Bytes}
    {calls : List PartCall}
    (hcalls : writeCallback registered rest .FLAG_CONTENT s = { s with calls })
    (hfree : ¬crlfDashBoundary boundary <:+: rest)
    (hbuffer : s.buffer = rest ++ (crlfDashBoundary boundary ++ tail)) :
    parseState3 registered s = .inl { s with
      calls
      buffer := tail
      parser := { s.parser with state := .state4 } } := by
  have hlong : (crlfDashBoundary boundary).length ≤ s.buffer.length := by
    rw [hbuffer, List.length_append, List.length_append]
    omega
  have hdrop : s.buffer.drop (rest.length + s.parser.crlfDashBoundary.length) = tail := by
    rw [hbuffer, ← List.append_assoc, hdelimiter]
    exact List.drop_left' List.length_append
  have htake : s.buffer.take rest.length = rest := by
    rw [hbuffer, List.take_left]
  have hfind : find s.buffer (crlfDashBoundary boundary) = some rest.length := by
    rw [hbuffer]
    exact find_delimiter hcr hfree tail
  unfold parseState3
  rw [hdelimiter, readableBytes_eq, if_neg (Nat.not_lt.mpr hlong), hfind]
  simp only [htake, retrieve_eq]
  rw [hcalls]
  simp only [hdrop]

/-- Only the content that cannot be part of the delimiter is passed on. -/
theorem parseState3_piece (hdelimiter : s.parser.crlfDashBoundary = crlfDashBoundary boundary)
    (hnone : find s.buffer (crlfDashBoundary boundary) = none) {len : Nat} (hpos : 0 < len)
    (hlen : s.buffer.length = len + (crlfDashBoundary boundary).length) {calls : List PartCall}
    (hcalls : writeCallback registered (s.buffer.take len) .FLAG_CONTENT s = { s with calls }) :
    parseState3 registered s = .inl (waitForMore { s with
      calls
      buffer := s.buffer.drop len }) := by
  unfold parseState3
  rw [hdelimiter, readableBytes_eq, if_neg (by omega), hnone]
  simp only [hlen, Nat.add_sub_cancel_right]
  rw [if_pos hpos, hcalls, retrieve_eq]

theorem parseState3_wait (hdelimiter : s.parser.crlfDashBoundary = crlfDashBoundary boundary)
    (hnone : find s.buffer (crlfDashBoundary boundary) = none)
    (hshort : s.buffer.length ≤ (crlfDashBoundary boundary).length) :
    parseState3 registered s = .inl (waitForMore s) := by
  unfold parseState3
  rw [hdelimiter, readableBytes_eq, hnone]
  simp only
  rw [if_neg (by omega : ¬s.buffer.length - (crlfDashBoundary boundary).length > 0), ite_self]

theorem parseState3_ok (hcr : 13 ∉ boundary) (hs : Receiving boundary s)
    (hstate : s.parser.state = .state3) (hready : s.needToReadMore = false)
    {done todo : List (Part boundary)} {part : Part boundary} {taken rest : Bytes}
    {calls calls' : List PartCall} (hfile : s.parser.file = part.file)
    (hparts : parts = done ++ part :: todo) (hcalls : DecodedCalls registered done calls)
    (hcalls' : PartCalls registered part taken calls') (htrace : s.calls = calls ++ calls')
    (hcontent : taken ++ rest = part.content)
    (hstream : stream s = rest ++ (crlfDashBoundary boundary ++ encodeRest epilogue todo)) :
    StepOK registered epilogue parts s (rest.length + (crlfDashBoundary boundary).length + 2) todo
      (parseState3 registered s) := by
  have hdelimiter := four_le_crlfDashBoundary boundary
  have hfree : ¬crlfDashBoundary boundary <:+: rest := by
    intro hin
    exact part.content_free (hin.trans (hcontent ▸ (List.suffix_append taken rest).isInfix))
  by_cases hwhole : rest.length + (crlfDashBoundary boundary).length ≤ s.buffer.length
  · -- The delimiter is there: the rest of the content is passed on.
    obtain ⟨tail, hbuffer, htail⟩ := exists_tail_of_stream_append hstream hwhole
    rw [parseState3_found hcr hs.crlfDashBoundary (writeCallback_eq part _ _ hfile) hfree hbuffer]
    refine ⟨2, todo, ⟨hs.1, hs.2, hs.3⟩, ?_, ?_, ?_⟩
    · refine .delimiter rfl (by simp [hready]) (hparts.trans (List.append_cons _ _ _)) ?_ htail
      have hpart := hcalls'.append rest
      rw [hcontent] at hpart
      simp only [htrace, List.append_assoc]
      exact hcalls.snoc hpart
    · have hconsume := cleanBlocks_consume hwhole 2 s.input todo
      rw [Nat.add_comm 2] at hconsume
      have hlength : s.buffer.length - (rest.length + (crlfDashBoundary boundary).length) =
          tail.length := by
        rw [hbuffer, List.length_append, List.length_append]
        omega
      rw [hconsume, hlength]
    · simp only [workLeft, stream, hbuffer, hstate, hready, List.length_append]
      simp
      omega
  · have hnone := find_delimiter_partial hcr hfree ⟨inputData s.input, hstream⟩ (by omega)
    rcases Nat.lt_or_ge (crlfDashBoundary boundary).length s.buffer.length with hpiece | hshort
    · obtain ⟨len, hlen⟩ := Nat.exists_eq_add_of_le' hpiece.le
      obtain ⟨htake, hdrop⟩ := take_drop_of_stream hstream len (by omega) (by omega)
      rw [parseState3_piece hs.crlfDashBoundary hnone (by omega) hlen
        (writeCallback_eq part _ _ hfile), htake]
      refine ⟨(rest.drop len).length + (crlfDashBoundary boundary).length + 2, todo,
        ⟨hs.1, hs.2, hs.3⟩, ?_, ?_, ?_⟩
      · refine .content hstate hfile (fun _ => ?_) hparts hcalls (hcalls'.append (rest.take len))
          (by simp [waitForMore, htrace]) ?_ hdrop
        · change (s.buffer.drop len).length < _
          rw [List.length_drop, List.length_drop]
          omega
        · rw [List.append_assoc, List.take_append_drop, hcontent]
      · have hstart : rest.length + (crlfDashBoundary boundary).length + 2 =
            (rest.drop len).length + (crlfDashBoundary boundary).length + 2 + len := by
          rw [List.length_drop]
          omega
        have hbuffer : (s.buffer.drop len).length = s.buffer.length - len := List.length_drop
        change _ ↔ CleanBlocks (readEnds (s.buffer.drop len).length s.input) _ _
        rw [hstart, cleanBlocks_consume (by omega), hbuffer]
      · simp only [workLeft, waitForMore, stream, hstate, hready, List.length_append,
          List.length_drop, reduceCtorEq, if_false, if_true, Bool.false_eq_true]
        omega
    · rw [parseState3_wait hs.crlfDashBoundary hnone hshort]
      refine waitForMore_ok hs hready (.content hstate hfile (fun _ => ?_) hparts hcalls hcalls'
        htrace hcontent hstream)
      exact Nat.not_le.mp hwhole

theorem parseState4_ok (hs : Receiving boundary s) (hstate : s.parser.state = .state4)
    (hready : s.needToReadMore = false) {done todo : List (Part boundary)}
    (hparts : parts = done ++ todo) (hcalls : DecodedCalls registered done s.calls)
    (hstream : stream s = encodeRest epilogue todo) :
    StepOK registered epilogue parts s 2 todo (parseState4 s) := by
  unfold parseState4
  split
  · rename_i hshort
    exact waitForMore_ok hs hready (.delimiter hstate (fun _ => hshort) hparts hcalls hstream)
  · rename_i hlong
    rw [readableBytes_eq] at hlong
    cases todo with
    | nil =>
        obtain ⟨tail, hbuffer, -⟩ := exists_tail_of_stream hstream (show 2 ≤ _ by omega)
        have hcrlf : find s.buffer CRLF ≠ some 0 := by
          rw [hbuffer, find_eq_search (by decide)]
          intro hfound
          obtain ⟨-, hstart, -⟩ := search_eq_some_iff.mp hfound
          rw [List.drop_zero, CRLF_eq] at hstart
          obtain ⟨rest, hrest⟩ := hstart
          have hhead : some (13 : UInt8) = some 45 := congrArg List.head? hrest
          exact absurd hhead (by decide)
        have hdash : find s.buffer dash = some 0 := by
          rw [hbuffer]
          exact find_of_front (by decide) tail
        rw [if_neg hcrlf, if_pos hdash]
        rw [List.append_nil] at hparts
        exact ⟨hparts ▸ hcalls, trivial⟩
    | cons part todo =>
        obtain ⟨tail, hbuffer, htail⟩ := exists_tail_of_stream hstream (show 2 ≤ _ by omega)
        have hcrlf : find s.buffer CRLF = some 0 := by
          rw [hbuffer]
          exact find_of_front (by decide) tail
        have hdrop : s.buffer.drop 2 = tail := by
          rw [hbuffer]
          exact List.drop_left' CRLF_length
        rw [if_pos hcrlf]
        simp only [retrieve_eq, hdrop]
        refine ⟨0, part :: todo, ⟨hs.1, hs.2, hs.3⟩, .fresh rfl hready hparts hcalls htail, ?_, ?_⟩
        · have hconsume := cleanBlocks_consume (show 2 ≤ s.buffer.length by omega) 0 s.input
            (part :: todo)
          rw [Nat.zero_add] at hconsume
          rw [hconsume, ← hdrop, List.length_drop]
        · simp only [workLeft, stream, hbuffer, hstate, hready, List.length_append, CRLF_length]
          simp
          omega

theorem parseSwitch_ok (hcr : 13 ∉ boundary) (hs : Receiving boundary s) {start : Nat}
    {todo : List (Part boundary)} (hat : At registered epilogue parts s start todo)
    (hready : s.needToReadMore = false) :
    StepOK registered epilogue parts s start todo (parseSwitch registered s) := by
  unfold parseSwitch
  cases hat with
  | opening hstate hcalls hready hne hstream hopening =>
      rw [hstate]
      exact parseState0_ok hs hstate hcalls hready hne hstream hopening
  | fresh hstate hready hparts hcalls hstream =>
      rw [hstate]
      exact parseState1_ok hs hstate hready hparts hcalls hstream
  | header hstate hfile _ hparts hcalls hstream =>
      rw [hstate]
      exact parseState2_ok hs hstate hfile hready hparts hcalls hstream
  | content hstate hfile _ hparts hcalls hcalls' htrace hcontent hstream =>
      rw [hstate]
      exact parseState3_ok hcr hs hstate hready hfile hparts hcalls hcalls' htrace hcontent hstream
  | delimiter hstate _ hparts hcalls hstream =>
      rw [hstate]
      exact parseState4_ok hs hstate hready hparts hcalls hstream

theorem At.received {start : Nat} {todo : List (Part boundary)}
    (hat : At registered epilogue parts s start todo) {s' : LoopState}
    (hparser : s'.parser = s.parser) (hcalls : s'.calls = s.calls)
    (hstream : stream s' = stream s) (hbuffer : s.buffer.length ≤ s'.buffer.length)
    (hflag : s'.needToReadMore = true →
      s.needToReadMore = true ∧ s'.buffer.length = s.buffer.length) :
    At registered epilogue parts s' start todo := by
  have hready : s.needToReadMore = false → s'.needToReadMore = false := by
    intro hready
    cases hflag' : s'.needToReadMore with
    | false => rfl
    | true => rw [(hflag hflag').1] at hready; exact hready
  cases hat with
  | opening hstate hcalls' hready' hne hstream' hopening =>
      exact .opening (hparser ▸ hstate) (hcalls ▸ hcalls') (hready hready') hne
        (hstream ▸ hstream') (hopening.trans hbuffer)
  | fresh hstate hready' hparts hcalls' hstream' =>
      exact .fresh (hparser ▸ hstate) (hready hready') hparts (hcalls ▸ hcalls')
        (hstream ▸ hstream')
  | header hstate hfile hwaiting hparts hcalls' hstream' =>
      refine .header (hparser ▸ hstate) (hparser ▸ hfile) (fun hwait => ?_) hparts
        (hcalls ▸ hcalls') (hstream ▸ hstream')
      rw [(hflag hwait).2]
      exact hwaiting (hflag hwait).1
  | content hstate hfile hwaiting hparts hcalls' hcalls'' htrace hcontent hstream' =>
      refine .content (hparser ▸ hstate) (hparser ▸ hfile) (fun hwait => ?_) hparts hcalls' hcalls''
        (hcalls ▸ htrace) hcontent (hstream ▸ hstream')
      rw [(hflag hwait).2]
      exact hwaiting (hflag hwait).1
  | delimiter hstate hwaiting hparts hcalls' hstream' =>
      refine .delimiter (hparser ▸ hstate) (fun hwait => ?_) hparts (hcalls ▸ hcalls')
        (hstream ▸ hstream')
      rw [(hflag hwait).2]
      exact hwaiting (hflag hwait).1

theorem At.waiting {start : Nat} {todo : List (Part boundary)}
    (hat : At registered epilogue parts s start todo) (hwait : s.needToReadMore = true) :
    s.buffer.length < start + 2 ∧ s.buffer.length < (stream s).length := by
  have hdash : dash.length = 2 := by decide
  cases hat with
  | opening hstate hcalls hready hne hstream hopening => simp [hready] at hwait
  | fresh hstate hready hparts hcalls hstream => simp [hready] at hwait
  | @header _ _ part hstate hfile hwaiting hparts hcalls hstream =>
      have hshort := hwaiting hwait
      have hblock := length_le_headerBlock part.lines
      rw [hstream, List.length_append]
      exact ⟨by omega, by omega⟩
  | content hstate hfile hwaiting hparts hcalls hcalls' htrace hcontent hstream =>
      have hshort := hwaiting hwait
      rw [hstream, List.length_append, List.length_append]
      exact ⟨by omega, by omega⟩
  | @delimiter _ todo hstate hwaiting hparts hcalls hstream =>
      have hshort := hwaiting hwait
      refine ⟨by omega, ?_⟩
      rw [hstream]
      cases todo with
      | nil =>
          rw [encodeRest, List.length_append, hdash]
          omega
      | cons part todo =>
          rw [encodeRest, List.length_append, CRLF_length]
          omega

theorem readMore_cases (hs : Receiving boundary s) {start : Nat} {todo : List (Part boundary)}
    (hat : At registered epilogue parts s start todo) (hwait : s.needToReadMore = true) :
    ∃ s', Receiving boundary s' ∧ At registered epilogue parts s' start todo ∧
      (CleanBlocks (readEnds s.buffer.length s.input) start todo ↔
        CleanBlocks (readEnds s'.buffer.length s'.input) start todo) ∧
      workLeft s' < workLeft s ∧
      (readMore s = (.again, s') ∨ readMore s = (.done, s') ∧ s'.needToReadMore = false) := by
  obtain ⟨hlt, hdata⟩ := hat.waiting hwait
  cases hinput : s.input with
  | nil => simp [stream, hinput, inputData] at hdata
  | cons result input =>
      have honly : OnlyAgain input := by
        intro e he
        exact hs.onlyAgain e (hinput ▸ List.mem_cons_of_mem _ he)
      cases result with
      | error e =>
          obtain rfl := hs.onlyAgain e (hinput ▸ List.mem_cons_self)
          have hstream : stream { s with input } = stream s := by
            simp [stream, hinput, inputData]
          refine ⟨{ s with input }, ⟨hs.1, hs.2, honly⟩,
            hat.received rfl rfl hstream (le_refl _) (fun hflag => ⟨hflag, rfl⟩), ?_, ?_, .inl ?_⟩
          · rw [readEnds]
          · simp only [workLeft, hstream, hinput, List.length_cons]
            omega
          · simp only [readMore, readFd, hinput]
      | ok chunk =>
          let s' : LoopState := { s with buffer := s.buffer ++ chunk, input, needToReadMore := false }
          have hstream : stream s' = stream s := by
            simp [s', stream, hinput, inputData]
          refine ⟨s', ⟨hs.1, hs.2, honly⟩,
            hat.received rfl rfl hstream (by simp [s']) (fun hflag => by simp [s'] at hflag),
            ?_, ?_, .inr ⟨?_, rfl⟩⟩
          · rw [readEnds, cleanBlocks_cons_of_lt hlt]
            simp only [s', List.length_append]
          · have hstate : s'.parser.state = s.parser.state := rfl
            have hflag : s'.needToReadMore = false := rfl
            have hlength : s'.input.length = input.length := rfl
            simp only [workLeft, hstream, hstate, hflag, hlength, hinput, hwait, List.length_cons]
            simp
            omega
          · simp only [s', readMore, readFd, hinput, append_eq]

theorem parseStep_ok (hcr : 13 ∉ boundary) (hs : Receiving boundary s) {start : Nat}
    {todo : List (Part boundary)} (hat : At registered epilogue parts s start todo) :
    StepOK registered epilogue parts s start todo (parseStep registered s) := by
  unfold parseStep
  cases hwait : s.needToReadMore with
  | false => exact parseSwitch_ok hcr hs hat hwait
  | true =>
      obtain ⟨s', hs', hat', hclean, hmeasure, hread | ⟨hread, hready⟩⟩ :=
        readMore_cases hs hat hwait
      · simp only [hread]
        exact ⟨start, todo, hs', hat', hclean, hmeasure⟩
      · simp only [hread]
        have hswitch := parseSwitch_ok hcr hs' hat' hready
        revert hswitch
        rcases parseSwitch registered s' with s'' | ⟨done, s''⟩
        · rintro ⟨start'', todo'', hs'', hat'', hclean'', hmeasure''⟩
          exact ⟨start'', todo'', hs'', hat'', hclean.trans hclean'', hmeasure''.trans hmeasure⟩
        · cases done with
          | true =>
              rintro ⟨hcalls, hclean''⟩
              exact ⟨hcalls, hclean.mpr hclean''⟩
          | false =>
              intro hclean'' hcleaned
              exact hclean'' (hclean.mp hcleaned)

end Position

section Decoding

theorem returns_of_at {registered : List Bytes} {epilogue : Bytes} {parts : List (Part boundary)}
    (hcr : 13 ∉ boundary) {s : LoopState} (hs : Receiving boundary s) {start : Nat}
    {todo : List (Part boundary)} (hat : At registered epilogue parts s start todo) :
    ∃ r, Returns (parseStep registered) s r ∧
      (r.1 = true ∧ DecodedCalls registered parts r.2.calls ∧
          CleanBlocks (readEnds s.buffer.length s.input) start todo ∨
        r.1 = false ∧ ¬CleanBlocks (readEnds s.buffer.length s.input) start todo) := by
  let I : LoopState → Prop := fun s' => ∃ start' todo', Receiving boundary s' ∧
    At registered epilogue parts s' start' todo' ∧
    (CleanBlocks (readEnds s.buffer.length s.input) start todo ↔
      CleanBlocks (readEnds s'.buffer.length s'.input) start' todo')
  have hstart : I s := ⟨start, todo, hs, hat, Iff.rfl⟩
  refine exists_returns_of_variant I _ workLeft ?_ ?_ hstart
  · rintro s₁ s₂ ⟨start₁, todo₁, hs₁, hat₁, hclean₁⟩ hstep
    have hok := parseStep_ok hcr hs₁ hat₁
    rw [hstep] at hok
    obtain ⟨start₂, todo₂, hs₂, hat₂, hclean₂, hmeasure⟩ := hok
    exact ⟨⟨start₂, todo₂, hs₂, hat₂, hclean₁.trans hclean₂⟩, hmeasure⟩
  · rintro s₁ ⟨done, s₂⟩ ⟨start₁, todo₁, hs₁, hat₁, hclean₁⟩ hstep
    have hok := parseStep_ok hcr hs₁ hat₁
    rw [hstep] at hok
    cases done with
    | true => exact .inl ⟨rfl, hok.1, hclean₁.mpr hok.2⟩
    | false => exact .inr ⟨rfl, fun hclean => hok (hclean₁.mp hclean)⟩

theorem not_terminates_of_short (registered : List Bytes) {s : LoopState}
    (hstate : s.parser.state = .state0) (hready : s.needToReadMore = false)
    (hshort : s.buffer.length < s.parser.dashBoundaryCrlf.length) :
    ¬Terminates (parseStep registered) s := by
  have hstep : parseStep registered s = .inl s := by
    rw [parseStep, hready]
    simp only [Bool.false_eq_true, if_false]
    rw [parseSwitch, hstate]
    exact if_pos hshort
  refine not_terminates_of_invariant (· = s) ?_ rfl
  rintro s' rfl
  exact ⟨s', hstep, rfl⟩

def boundaryParser (boundary : Bytes) : MultipartFormDataParser :=
  setBoundary .init boundary

/-- A body that arrives in pieces is decoded exactly when the opening line is in the buffer at the
beginning and no read ends inside a header block behind its second byte. -/
theorem decodes_iff (hcr : 13 ∉ boundary) (registered : List Bytes)
    {parts : List (Part boundary)} (hne : parts ≠ []) (epilogue buffer : Bytes)
    {input : List ReadResult} (honly : OnlyAgain input)
    (hbody : buffer ++ inputData input = encodeBody epilogue parts) :
    Decodes registered parts (parseEntry (boundaryParser boundary) buffer input) ↔
      (dash ++ boundary ++ CRLF).length ≤ buffer.length ∧
      CleanBlocks (readEnds buffer.length input) (dash ++ boundary ++ CRLF).length parts := by
  have hs : Receiving boundary (parseEntry (boundaryParser boundary) buffer input) :=
    ⟨rfl, rfl, honly⟩
  by_cases hopening : (dash ++ boundary ++ CRLF).length ≤ buffer.length
  · have hat : At registered epilogue parts (parseEntry (boundaryParser boundary) buffer input)
        (dash ++ boundary ++ CRLF).length parts :=
      .opening rfl rfl rfl hne hbody hopening
    obtain ⟨⟨done, s'⟩, hreturns, hresult⟩ := returns_of_at hcr hs hat
    rw [and_iff_right hopening]
    constructor
    · rintro ⟨s'', hreturns', -⟩
      have heq := hreturns.unique hreturns'
      rcases hresult with ⟨-, -, hclean⟩ | ⟨hfalse, -⟩
      · exact hclean
      · rw [heq] at hfalse
        exact absurd hfalse (by simp)
    · intro hclean
      rcases hresult with ⟨rfl, hcalls, -⟩ | ⟨-, hnot⟩
      · exact ⟨s', hreturns, hcalls⟩
      · exact absurd hclean hnot
  · refine iff_of_false ?_ fun hcut => hopening hcut.1
    rintro ⟨s', hreturns, -⟩
    exact not_terminates_of_short registered rfl rfl (Nat.lt_of_not_le hopening)
      ⟨_, hreturns⟩

def filePart : Part (ascii "xyz") where
  name := ascii "upload"
  filename := some (ascii "a.txt")
  contentType := some (ascii "text/plain")
  content := [65, 13, 10]
  name_text := ⟨by decide, by decide, by decide, by decide, by decide⟩
  filename_text := by
    rintro _ ⟨⟩
    exact ⟨by decide, by decide, by decide, by decide, by decide⟩
  contentType_line := by
    rintro _ ⟨⟩
    decide
  content_free := by decide

def fileBody : Bytes := encodeBody CRLF [filePart]

theorem decodes_iff_filePart :
    Decodes [ascii "upload"] [filePart] (parseEntry (boundaryParser (ascii "xyz"))
        (fileBody.take 8) [.ok ((fileBody.drop 8).take 100), .error .EAGAIN,
          .ok (fileBody.drop 108)]) ↔
      (dash ++ ascii "xyz" ++ CRLF).length ≤ (fileBody.take 8).length ∧
      CleanBlocks (readEnds (fileBody.take 8).length [.ok ((fileBody.drop 8).take 100),
        .error .EAGAIN, .ok (fileBody.drop 108)]) (dash ++ ascii "xyz" ++ CRLF).length
        [filePart] :=
  decodes_iff (by decide) [ascii "upload"] (by simp) CRLF (fileBody.take 8)
    (by intro e he; simp_all) (by decide)

/-- Two ways to miss the part: no byte of the body is in the buffer when `parse` is entered, and a
read ends inside the header block. -/
theorem not_decodes_filePart :
    ¬Decodes [ascii "upload"] [filePart]
        (parseEntry (boundaryParser (ascii "xyz")) [] [.ok fileBody]) ∧
    ¬Decodes [ascii "upload"] [filePart]
        (parseEntry (boundaryParser (ascii "xyz")) (fileBody.take 20) [.ok (fileBody.drop 20)]) := by
  constructor
  · rintro ⟨s', hreturns, -⟩
    exact not_terminates_of_short [ascii "upload"] rfl rfl (by decide) ⟨_, hreturns⟩
  · rintro ⟨s', hreturns, -⟩
    have hfalse : (iterate (parseStep [ascii "upload"]) 4
        (parseEntry (boundaryParser (ascii "xyz")) (fileBody.take 20)
          [.ok (fileBody.drop 20)])).map Prod.fst = some false := by decide
    obtain ⟨r, hr, hfst⟩ := Option.map_eq_some_iff.mp hfalse
    have heq := hreturns.unique ⟨4, hr⟩
    rw [← heq] at hfst
    exact absurd hfst (by simp)

end Decoding

end Cooper.MultipartDecoding

import Cooper.MultipartDecoding

namespace Cooper.ContentStreaming

open Cooper.ListSearch
open Cooper.MsgBuffer
open Cooper.Multipart
open Cooper.MultipartDecoding
open Cooper.MultipartEncoding
open Cooper.TcpConnectionImpl (ReadResult)
open Cooper.WhileLoop

section Model

def contentCalls (registered : List Bytes) (file : MultipartFormData) (pieces : List Bytes) :
    List PartCall :=
  if file.name ∈ registered then pieces.map fun piece => ⟨file, piece, .FLAG_CONTENT⟩ else []

variable (boundary : Bytes) (registered : List Bytes) (file : MultipartFormData)
  (content rest : Bytes)

structure Streaming (s : LoopState) : Prop where
  state : s.parser.state = .state3
  crlfDashBoundary : s.parser.crlfDashBoundary = crlfDashBoundary boundary
  file_eq : s.parser.file = file
  onlyAgain : OnlyAgain s.input
  split : ∃ pieces remaining, s.calls = contentCalls registered file pieces ∧
    pieces.flatten ++ remaining = content ∧
    stream s = remaining ++ (MultipartEncoding.crlfDashBoundary boundary ++ rest) ∧
    (s.needToReadMore = true → s.buffer.length <
      remaining.length + (MultipartEncoding.crlfDashBoundary boundary).length)

structure Streamed (s : LoopState) : Prop where
  state : s.parser.state = .state4
  calls : ∃ pieces, s.calls = contentCalls registered file pieces ∧ pieces.flatten = content
  behind : s.buffer ++ inputData s.input = rest

def readsLeft (s : LoopState) : Nat := 2 * s.input.length + if s.needToReadMore then 0 else 1

end Model

section Content

variable {boundary : Bytes} {registered : List Bytes} {file : MultipartFormData}
  {content rest : Bytes} {s : LoopState}

theorem writeCallback_content {pieces : List Bytes} (hfile : s.parser.file = file)
    (hcalls : s.calls = contentCalls registered file pieces) (piece : Bytes) :
    writeCallback registered piece .FLAG_CONTENT s =
      { s with calls := contentCalls registered file (pieces ++ [piece]) } := by
  rw [writeCallback, hfile]
  split
  · rename_i hname
    rw [hcalls, contentCalls, contentCalls, if_pos hname, if_pos hname, List.map_append]
    rfl
  · rename_i hname
    rw [contentCalls, if_neg hname] at hcalls ⊢
    rw [← hcalls]

theorem free_of_split {needle taken remaining : Bytes} (hfree : ¬needle <:+: content)
    (hsplit : taken ++ remaining = content) : ¬needle <:+: remaining := by
  intro hin
  apply hfree
  rw [← hsplit]
  exact hin.trans (List.suffix_append taken remaining).isInfix

theorem parseState3_streams (hcr : 13 ∉ boundary)
    (hfree : ¬crlfDashBoundary boundary <:+: content)
    (h : Streaming boundary registered file content rest s) :
    ∃ s', parseState3 registered s = .inl s' ∧
      (Streamed registered file content rest s' ∨
        Streaming boundary registered file content rest s' ∧ s'.needToReadMore = true ∧
          s'.input = s.input) := by
  obtain ⟨pieces, remaining, hcalls, hsplit, hstream, -⟩ := h.split
  have hdelimiter := free_of_split hfree hsplit
  rcases Nat.lt_or_ge s.buffer.length
    (remaining.length + (crlfDashBoundary boundary).length) with hpartial | hwhole
  · have hnone := find_delimiter_partial hcr hdelimiter ⟨inputData s.input, hstream⟩ hpartial
    rcases Nat.lt_or_ge (crlfDashBoundary boundary).length s.buffer.length with hpiece | hshort
    · -- a piece goes out, and as much as the delimiter is long is held back
      obtain ⟨len, hlen⟩ := Nat.exists_eq_add_of_le' hpiece.le
      obtain ⟨htake, hdrop⟩ := take_drop_of_stream hstream len (by omega) (by omega)
      rw [parseState3_piece h.crlfDashBoundary hnone (by omega) hlen
        (writeCallback_content h.file_eq hcalls _), htake]
      refine ⟨_, rfl, .inr ⟨⟨h.state, h.crlfDashBoundary, h.file_eq, h.onlyAgain,
        pieces ++ [remaining.take len], remaining.drop len, rfl, ?_, hdrop, fun _ => ?_⟩,
        rfl, rfl⟩⟩
      · rw [List.flatten_append, List.flatten_singleton, List.append_assoc,
          List.take_append_drop, hsplit]
      · change (s.buffer.drop len).length < (remaining.drop len).length + _
        rw [List.length_drop, List.length_drop]
        omega
    · rw [parseState3_wait h.crlfDashBoundary hnone hshort]
      exact ⟨_, rfl, .inr ⟨⟨h.state, h.crlfDashBoundary, h.file_eq, h.onlyAgain,
        pieces, remaining, hcalls, hsplit, hstream, fun _ => hpartial⟩, rfl, rfl⟩⟩
  · obtain ⟨tail, hbuffer, htail⟩ := exists_tail_of_stream_append hstream hwhole
    rw [parseState3_found hcr h.crlfDashBoundary (writeCallback_content h.file_eq hcalls _)
      hdelimiter hbuffer]
    refine ⟨_, rfl, .inl ⟨rfl, ⟨pieces ++ [remaining], rfl, ?_⟩, htail⟩⟩
    rw [List.flatten_append, List.flatten_singleton, hsplit]

theorem parseSwitch_streams (hcr : 13 ∉ boundary)
    (hfree : ¬crlfDashBoundary boundary <:+: content)
    (h : Streaming boundary registered file content rest s) (hready : s.needToReadMore = false) :
    ∃ s', parseSwitch registered s = .inl s' ∧
      (Streamed registered file content rest s' ∨
        Streaming boundary registered file content rest s' ∧ readsLeft s' < readsLeft s) := by
  obtain ⟨s', hstep, hcases⟩ := parseState3_streams hcr hfree h
  refine ⟨s', by rw [parseSwitch, h.state]; exact hstep, ?_⟩
  apply hcases.imp_right
  rintro ⟨hs', hwait, hinput⟩
  refine ⟨hs', ?_⟩
  simp [readsLeft, hwait, hinput, hready]

theorem parseStep_streams (hcr : 13 ∉ boundary)
    (hfree : ¬crlfDashBoundary boundary <:+: content)
    (h : Streaming boundary registered file content rest s) :
    ∃ s', parseStep registered s = .inl s' ∧
      (Streamed registered file content rest s' ∨
        Streaming boundary registered file content rest s' ∧ readsLeft s' < readsLeft s) := by
  rw [parseStep]
  split
  · rename_i hwait
    obtain ⟨pieces, remaining, hcalls, hsplit, hstream, hwaiting⟩ := h.split
    have hshort := hwaiting hwait
    rcases hinput : s.input with _ | ⟨result, input⟩
    · -- all bytes have arrived, so that the delimiter is in the buffer
      have hlength := congrArg List.length hstream
      simp only [stream, hinput, inputData, List.append_nil, List.length_append] at hlength
      omega
    · rcases result with e | chunk
      · obtain rfl : e = .EAGAIN := h.onlyAgain e (by rw [hinput]; exact List.mem_cons_self)
        refine ⟨{ s with input }, ?_, .inr ⟨⟨h.state, h.crlfDashBoundary, h.file_eq, ?_,
          pieces, remaining, hcalls, hsplit, ?_, hwaiting⟩, ?_⟩⟩
        · simp only [readMore, readFd, hinput]
        · intro e he
          exact h.onlyAgain e (by rw [hinput]; exact List.mem_cons_of_mem _ he)
        · rw [← hstream, stream, stream, hinput]
          rfl
        · simp [readsLeft, hinput]
      · have hread : Streaming boundary registered file content rest { s with
            buffer := append s.buffer chunk, input, needToReadMore := false } := by
          refine ⟨h.state, h.crlfDashBoundary, h.file_eq, ?_, pieces, remaining, hcalls, hsplit,
            ?_, fun hwait => by simp at hwait⟩
          · intro e he
            exact h.onlyAgain e (by rw [hinput]; exact List.mem_cons_of_mem _ he)
          · rw [← hstream, stream, stream, hinput, append_eq, List.append_assoc]
            rfl
        obtain ⟨s', hstep, hcases⟩ := parseSwitch_streams hcr hfree hread rfl
        refine ⟨s', by simpa only [readMore, readFd, hinput] using hstep, ?_⟩
        apply hcases.imp_right
        rintro ⟨hs', hless⟩
        refine ⟨hs', hless.trans ?_⟩
        simp only [readsLeft, hinput, hwait, Bool.false_eq_true, if_false, if_true,
          List.length_cons]
        omega
  · rename_i hready
    exact parseSwitch_streams hcr hfree h (by simpa using hready)

/-- From the beginning of a content, however it arrives, the parser reaches state 4 with exactly the
content passed on and with what follows the delimiter in front of it. -/
theorem content_streamed (hcr : 13 ∉ boundary) (hfree : ¬crlfDashBoundary boundary <:+: content)
    (registered : List Bytes) (parser : MultipartFormDataParser)
    (hstate : parser.state = .state3)
    (hdelimiter : parser.crlfDashBoundary = crlfDashBoundary boundary)
    (buffer : Bytes) (input : List ReadResult) (honly : OnlyAgain input)
    (harrives : buffer ++ inputData input = content ++ crlfDashBoundary boundary ++ rest) :
    ∃ s', LeadsTo (parseStep registered) (fun t => t.parser.state = .state3)
        (parseEntry parser buffer input) s' ∧
      Streamed registered parser.file content rest s' := by
  have hstart : Streaming boundary registered parser.file content rest
      (parseEntry parser buffer input) := by
    refine ⟨hstate, hdelimiter, rfl, honly, [], content, ?_, rfl, ?_, fun hwait => ?_⟩
    · rw [contentCalls]
      split <;> rfl
    · rw [← List.append_assoc]
      exact harrives
    · simp [parseEntry] at hwait
  exact exists_leadsTo_of_variant (Streaming boundary registered parser.file content rest) _
    (Streamed registered parser.file content rest) readsLeft (fun s hs => hs.state)
    (fun s hs => parseStep_streams hcr hfree hs) hstart

theorem content_streamed_cut :
    ∃ s', LeadsTo (parseStep [ascii "upload"]) (fun t => t.parser.state = .state3)
        (parseEntry { setBoundary .init (ascii "xyz") with
          state := .state3, file := ⟨ascii "upload", [], []⟩ }
          (ascii "A\r\n--x") [.ok (ascii "\r\n--x"), .error .EAGAIN, .ok (ascii "yz--")]) s' ∧
      Streamed [ascii "upload"] ⟨ascii "upload", [], []⟩ (ascii "A\r\n--x") (ascii "--") s' :=
  content_streamed (by decide) (by decide) [ascii "upload"] _ rfl rfl _ _
    (by intro e he; simp_all) (by decide)

end Content

end Cooper.ContentStreaming

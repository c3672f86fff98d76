import Cooper.MultipartDecoding

namespace Cooper.MultipartTermination

open Cooper.LineBlock
open Cooper.ListSearch
open Cooper.MsgBuffer
open Cooper.TcpConnectionImpl (ReadResult)
open Cooper.WhileLoop
open Cooper.Multipart
open Cooper.MultipartEncoding
open Cooper.MultipartDecoding

/-- What the body goes on with: a header block, the content of a part or what follows a
delimiter. -/
inductive Phase
  | header
  | content
  | delimiter

def Accepted (lines : List Bytes) : Prop :=
  (∀ line ∈ lines, HeaderLine line) ∧
    ∃ file, lines.foldlM parsePartHeader ⟨[], [], []⟩ = some file

/-- Bodies that end too early: after parts with accepted header blocks, inside of which no read
ends, they end before the third byte of a header block, without a delimiter behind a content or
before the third byte behind a delimiter. -/
inductive Truncated (delimiter : Bytes) : Phase → (body : Bytes) → (ends : List Nat) → Prop
  | headerShort {body : Bytes} {ends : List Nat} (h : body.length < 2) :
      Truncated delimiter .header body ends
  | header {body : Bytes} {ends : List Nat} {lines : List Bytes} (haccepted : Accepted lines)
      (hblock : headerBlock lines <+: body)
      (hends : ∀ arrived ∈ ends, 2 ≤ arrived → (headerBlock lines).length ≤ arrived)
      (hrest : Truncated delimiter .content (body.drop (headerBlock lines).length)
        (ends.map (· - (headerBlock lines).length))) :
      Truncated delimiter .header body ends
  | contentOpen {body : Bytes} {ends : List Nat} (h : search delimiter body = none) :
      Truncated delimiter .content body ends
  | content {body : Bytes} {ends : List Nat} {len : Nat} (h : search delimiter body = some len)
      (hrest : Truncated delimiter .delimiter (body.drop (len + delimiter.length))
        (ends.map (· - (len + delimiter.length)))) :
      Truncated delimiter .content body ends
  | delimiterShort {body : Bytes} {ends : List Nat} (h : body.length < 2) :
      Truncated delimiter .delimiter body ends
  | delimiter {body : Bytes} {ends : List Nat} (h : CRLF <+: body)
      (hrest : Truncated delimiter .header (body.drop 2) (ends.map (· - 2))) :
      Truncated delimiter .delimiter body ends

def Broken (input : List ReadResult) : Prop :=
  .error .EPIPE ∈ input ∨ .error .ECONNRESET ∈ input

section Truncated

variable {delimiter body : Bytes} {ends : List Nat}

theorem truncated_header_iff (hlength : 2 ≤ body.length) :
    Truncated delimiter .header body ends ↔ ∃ lines, Accepted lines ∧ headerBlock lines <+: body ∧
      (∀ arrived ∈ ends, 2 ≤ arrived → (headerBlock lines).length ≤ arrived) ∧
      Truncated delimiter .content (body.drop (headerBlock lines).length)
        (ends.map (· - (headerBlock lines).length)) := by
  constructor
  · rintro (h | ⟨haccepted, hblock, hends, hrest⟩)
    · omega
    · exact ⟨_, haccepted, hblock, hends, hrest⟩
  · rintro ⟨lines, haccepted, hblock, hends, hrest⟩
    exact .header haccepted hblock hends hrest

theorem truncated_content_iff {len : Nat} (hfound : search delimiter body = some len) :
    Truncated delimiter .content body ends ↔
      Truncated delimiter .delimiter (body.drop (len + delimiter.length))
        (ends.map (· - (len + delimiter.length))) := by
  constructor
  · intro h
    cases h with
    | contentOpen h => simp [hfound] at h
    | content h hrest =>
        obtain rfl := Option.some.inj (hfound.symm.trans h)
        exact hrest
  · intro hrest
    exact .content hfound hrest

theorem truncated_delimiter_iff (hlength : 2 ≤ body.length) :
    Truncated delimiter .delimiter body ends ↔ CRLF <+: body ∧
      Truncated delimiter .header (body.drop 2) (ends.map (· - 2)) := by
  constructor
  · rintro (_ | _ | _ | _ | h | ⟨hcrlf, hrest⟩)
    · omega
    · exact ⟨hcrlf, hrest⟩
  · rintro ⟨hcrlf, hrest⟩
    exact .delimiter hcrlf hrest

theorem truncated_cons_zero {phase : Phase} :
    Truncated delimiter phase body (0 :: ends) ↔ Truncated delimiter phase body ends := by
  constructor
  · intro h
    generalize hends' : 0 :: ends = ends' at h
    induction h generalizing ends with
    | headerShort h => exact .headerShort h
    | header haccepted hblock hends hrest ih =>
        subst hends'
        exact .header haccepted hblock (fun arrived harrived =>
          hends arrived (List.mem_cons_of_mem _ harrived)) (ih (by simp))
    | contentOpen h => exact .contentOpen h
    | content h hrest ih =>
        subst hends'
        exact .content h (ih (by simp))
    | delimiterShort h => exact .delimiterShort h
    | delimiter h hrest ih =>
        subst hends'
        exact .delimiter h (ih (by simp))
  · intro h
    induction h with
    | headerShort h => exact .headerShort h
    | header haccepted hblock hends hrest ih =>
        refine .header haccepted hblock ?_ (by simpa using ih)
        intro arrived harrived hle
        rcases List.mem_cons.mp harrived with rfl | harrived
        · omega
        · exact hends arrived harrived hle
    | contentOpen h => exact .contentOpen h
    | content h hrest ih => exact .content h (by simpa using ih)
    | delimiterShort h => exact .delimiterShort h
    | delimiter h hrest ih => exact .delimiter h (by simpa using ih)

/-- Reads that end so early that the parser cannot go on. -/
def Early (delimiter body : Bytes) (arrived : Nat) : Phase → Prop
  | .content => ∀ len, search delimiter body = some len → arrived ≤ len + delimiter.length
  | _ => arrived < 2

theorem truncated_cons_of_early {phase : Phase} {arrived : Nat}
    (hearly : Early delimiter body arrived phase) :
    Truncated delimiter phase body (arrived :: ends) ↔ Truncated delimiter phase body ends := by
  cases phase with
  | header =>
      change arrived < 2 at hearly
      by_cases hlength : 2 ≤ body.length
      · rw [truncated_header_iff hlength, truncated_header_iff hlength]
        refine exists_congr fun lines => ?_
        have hblock := length_le_headerBlock lines
        have hzero : arrived - (headerBlock lines).length = 0 := by omega
        rw [List.map_cons, hzero, truncated_cons_zero, List.forall_mem_cons,
          and_iff_right (fun hle => absurd hle (by omega))]
      · exact iff_of_true (.headerShort (by omega)) (.headerShort (by omega))
  | content =>
      cases hfound : search delimiter body with
      | none => exact iff_of_true (.contentOpen hfound) (.contentOpen hfound)
      | some len =>
          have hzero : arrived - (len + delimiter.length) = 0 := by
            have := hearly len hfound
            omega
          rw [truncated_content_iff hfound, truncated_content_iff hfound, List.map_cons, hzero,
            truncated_cons_zero]
  | delimiter =>
      change arrived < 2 at hearly
      by_cases hlength : 2 ≤ body.length
      · have hzero : arrived - 2 = 0 := by omega
        rw [truncated_delimiter_iff hlength, truncated_delimiter_iff hlength, List.map_cons, hzero,
          truncated_cons_zero]
      · exact iff_of_true (.delimiterShort (by omega)) (.delimiterShort (by omega))

theorem truncated_content_drop {buffer data : Bytes} {len : Nat}
    (hno : ¬delimiter <:+: buffer) (hlen : len + delimiter.length ≤ buffer.length) :
    Truncated delimiter .content (buffer ++ data) ends ↔
      Truncated delimiter .content (buffer.drop len ++ data) (ends.map (· - len)) := by
  have hsearch := search_append_of_not_isInfix hno (Nat.le_succ_of_le hlen) data
  cases hfound : search delimiter (buffer.drop len ++ data) with
  | none =>
      rw [hfound, Option.map_none] at hsearch
      exact iff_of_true (.contentOpen hsearch) (.contentOpen hfound)
  | some i =>
      rw [hfound, Option.map_some] at hsearch
      have hdrop : (buffer ++ data).drop (i + len + delimiter.length) =
          (buffer.drop len ++ data).drop (i + delimiter.length) := by
        rw [← List.drop_append_of_le_length (by omega), List.drop_drop]
        congr 1
        omega
      have hends : ends.map (· - (i + len + delimiter.length)) =
          (ends.map (· - len)).map (· - (i + delimiter.length)) := by
        rw [List.map_map]
        apply List.map_congr_left
        intro arrived _
        change arrived - _ = arrived - len - _
        omega
      rw [truncated_content_iff hsearch, truncated_content_iff hfound, hdrop, hends]

end Truncated

section Steps

variable {boundary : Bytes} {registered : List Bytes} {s : LoopState}

def phase : ParseState → Phase
  | .state3 => .content
  | .state4 => .delimiter
  | _ => .header

def Starving (boundary : Bytes) (s : LoopState) : Prop :=
  match s.parser.state with
  | .state2 | .state4 => s.buffer.length < 2
  | .state3 => ¬crlfDashBoundary boundary <:+: s.buffer
  | _ => False

structure Running (boundary : Bytes) (s : LoopState) : Prop where
  crlfDashBoundary : s.parser.crlfDashBoundary = crlfDashBoundary boundary
  started : s.parser.state ≠ .state0
  cleared : s.parser.state = .state2 → s.parser.file = ⟨[], [], []⟩
  waiting : s.needToReadMore = true → Starving boundary s

/-- What is still to come is cut short. -/
def Doomed (boundary : Bytes) (s : LoopState) : Prop :=
  ¬Broken s.input ∧ Truncated (crlfDashBoundary boundary) (phase s.parser.state) (stream s)
    (readEnds s.buffer.length s.input)

def StepOK (boundary : Bytes) (s : LoopState) : LoopState ⊕ Bool × LoopState → Prop
  | .inl s' => Running boundary s' ∧ (Doomed boundary s ↔ Doomed boundary s') ∧
      (¬Doomed boundary s → workLeft s' < workLeft s)
  | .inr _ => ¬Doomed boundary s

theorem readEnds_sub {arrived k : Nat} (hk : k ≤ arrived) (input : List ReadResult) :
    (readEnds arrived input).map (· - k) = readEnds (arrived - k) input := by
  obtain ⟨n, rfl⟩ : ∃ n, arrived = n + k := ⟨arrived - k, by omega⟩
  rw [readEnds_add, List.map_map, Nat.add_sub_cancel]
  have hid : ((· - k) ∘ fun n => n + k) = (id : Nat → Nat) := by
    funext n
    exact Nat.add_sub_cancel n k
  rw [hid, List.map_id]

theorem stream_drop {k : Nat} (hk : k ≤ s.buffer.length) :
    (stream s).drop k = s.buffer.drop k ++ inputData s.input := by
  rw [stream, List.drop_append_of_le_length hk]

theorem le_length_stream (s : LoopState) : s.buffer.length ≤ (stream s).length := by
  rw [stream, List.length_append]
  exact Nat.le_add_right _ _

theorem waitForMore_ok (hs : Running boundary s) (hready : s.needToReadMore = false)
    (hstarving : Starving boundary s) : StepOK boundary s (.inl (waitForMore s)) := by
  refine ⟨⟨hs.1, hs.2, hs.3, fun _ => hstarving⟩, Iff.rfl, fun _ => ?_⟩
  simp only [workLeft, waitForMore, stream, hready, if_true]
  exact Nat.add_lt_add_left (Nat.add_lt_add_left Nat.zero_lt_one _) _

theorem parseState1_ok (hs : Running boundary s) (hstate : s.parser.state = .state1)
    (hready : s.needToReadMore = false) : StepOK boundary s (parseState1 s) := by
  refine ⟨⟨hs.1, by simp, fun _ => rfl, ?_⟩, ?_, fun _ => ?_⟩
  · intro hwait
    simp [hready] at hwait
  · simp only [Doomed, hstate]
    exact Iff.rfl
  · simp [workLeft, stream, hstate]

theorem headerBlock_unique {fuel : Nat} {buffer rest : Bytes} {lines : List Bytes}
    {file : MultipartFormData} (hparsed : parsePartHeaders fuel ⟨[], [], []⟩ buffer =
      (true, file, rest)) (hfuel : lines.length < fuel) (haccepted : Accepted lines)
    (hblock : headerBlock lines <+: buffer) : buffer = headerBlock lines ++ rest := by
  obtain ⟨tail, rfl⟩ := hblock
  obtain ⟨file', hfile⟩ := haccepted.2
  have hwhole := parsePartHeaders_whole haccepted.1 hfuel hfile tail
  rw [hparsed] at hwhole
  simp only [Prod.mk.injEq, true_and] at hwhole
  rw [hwhole.2]

theorem isPrefix_buffer_of_readEnds (hlong : 2 ≤ s.buffer.length) {lines : List Bytes}
    (hblock : headerBlock lines <+: stream s)
    (hends : ∀ arrived ∈ readEnds s.buffer.length s.input, 2 ≤ arrived →
      (headerBlock lines).length ≤ arrived) :
    headerBlock lines <+: s.buffer ∧ lines.length < s.buffer.length := by
  have hle := hends s.buffer.length (mem_readEnds_self _ _) hlong
  have hlines := length_le_headerBlock lines
  exact ⟨List.prefix_of_prefix_length_le hblock ⟨inputData s.input, rfl⟩ hle, by omega⟩

theorem not_truncated_of_not_whole (hlong : 2 ≤ s.buffer.length) {file : MultipartFormData}
    {rest : Bytes}
    (hparsed : parsePartHeaders s.buffer.length ⟨[], [], []⟩ s.buffer = (false, file, rest)) :
    ¬Truncated (crlfDashBoundary boundary) .header (stream s)
      (readEnds s.buffer.length s.input) := by
  intro htruncated
  obtain ⟨lines, haccepted, hblock, hends, -⟩ :=
    (truncated_header_iff (hlong.trans (le_length_stream s))).mp htruncated
  obtain ⟨⟨tail, htail⟩, hfuel⟩ := isPrefix_buffer_of_readEnds hlong hblock hends
  obtain ⟨file', hfile⟩ := haccepted.2
  have hwhole := parsePartHeaders_whole haccepted.1 hfuel hfile tail
  rw [htail, hparsed] at hwhole
  simp at hwhole

variable (boundary) in
theorem truncated_header_iff_content (hlong : 2 ≤ s.buffer.length) {file : MultipartFormData}
    {lines : List Bytes} {rest : Bytes}
    (hparsed : parsePartHeaders s.buffer.length ⟨[], [], []⟩ s.buffer = (true, file, rest))
    (haccepted : Accepted lines) (hsplit : s.buffer = headerBlock lines ++ rest) :
    Truncated (crlfDashBoundary boundary) .header (stream s) (readEnds s.buffer.length s.input) ↔
      Truncated (crlfDashBoundary boundary) .content (rest ++ inputData s.input)
        (readEnds rest.length s.input) := by
  have hle : (headerBlock lines).length ≤ s.buffer.length := by
    rw [hsplit, List.length_append]
    exact Nat.le_add_right _ _
  have hdrop : s.buffer.drop (headerBlock lines).length = rest := by
    rw [hsplit, List.drop_left]
  have hcontent : (stream s).drop (headerBlock lines).length = rest ++ inputData s.input ∧
      (readEnds s.buffer.length s.input).map (· - (headerBlock lines).length) =
        readEnds rest.length s.input := by
    rw [stream_drop hle, hdrop, readEnds_sub hle, ← hdrop, List.length_drop]
    exact ⟨rfl, rfl⟩
  rw [truncated_header_iff (hlong.trans (le_length_stream s))]
  constructor
  · rintro ⟨lines', haccepted', hblock, hends, hrest⟩
    obtain ⟨hfront, hfuel⟩ := isPrefix_buffer_of_readEnds hlong hblock hends
    have hsame := headerBlock_unique hparsed hfuel haccepted' hfront
    have hlengths := congrArg List.length (hsplit.symm.trans hsame)
    simp only [List.length_append, Nat.add_right_cancel_iff] at hlengths
    rwa [← hlengths, hcontent.1, hcontent.2] at hrest
  · intro hrest
    refine ⟨lines, haccepted, ?_, ?_, ?_⟩
    · rw [stream, hsplit, List.append_assoc]
      exact List.prefix_append _ _
    · intro arrived harrived _
      exact hle.trans (le_of_mem_readEnds harrived)
    · rwa [hcontent.1, hcontent.2]

theorem parseState2_ok (hs : Running boundary s) (hstate : s.parser.state = .state2)
    (hready : s.needToReadMore = false) : StepOK boundary s (parseState2 registered s) := by
  unfold parseState2
  split
  · rename_i hshort
    refine waitForMore_ok hs hready ?_
    rw [Starving, hstate]
    exact hshort
  · rename_i hlong
    rw [readableBytes_eq, Nat.not_lt] at hlong
    rw [hs.cleared hstate]
    rcases hparsed : parsePartHeaders s.buffer.length ⟨[], [], []⟩ s.buffer with ⟨whole, file, rest⟩
    cases whole with
    | false =>
        rintro ⟨-, htruncated⟩
        rw [hstate] at htruncated
        exact not_truncated_of_not_whole hlong hparsed htruncated
    | true =>
        obtain ⟨lines, hlines, hfile, hsplit⟩ := exists_lines_of_parsePartHeaders hparsed
        have htruncated := truncated_header_iff_content boundary hlong hparsed
          ⟨hlines, file, hfile⟩ hsplit
        refine ⟨⟨by simpa using hs.1, by simp, by simp, by simp [hready]⟩, ?_, fun _ => ?_⟩
        · simp only [Doomed, hstate, parser_writeCallback, input_writeCallback, phase, stream,
            buffer_writeCallback]
          exact and_congr_right fun _ => htruncated
        · have hblock := length_le_headerBlock lines
          simp only [workLeft, stream, parser_writeCallback, input_writeCallback,
            buffer_writeCallback, needToReadMore_writeCallback, hready, hstate, hsplit,
            List.length_append]
          simp
          omega

theorem parseState3_ok (hs : Running boundary s) (hstate : s.parser.state = .state3)
    (hready : s.needToReadMore = false) : StepOK boundary s (parseState3 registered s) := by
  have hdelimiter := four_le_crlfDashBoundary boundary
  have hnonempty : crlfDashBoundary boundary ≠ [] := by
    intro hnil
    simp [hnil] at hdelimiter
  unfold parseState3
  rw [hs.crlfDashBoundary, readableBytes_eq]
  split
  · rename_i hshort
    refine waitForMore_ok hs hready ?_
    rw [Starving, hstate]
    intro hin
    have := hin.length_le
    omega
  · rename_i hlong
    rw [find_eq_search hnonempty]
    cases hfound : search (crlfDashBoundary boundary) s.buffer with
    | some len =>
        have hle := add_length_le_of_search hfound
        have hstream := search_append_right hfound (inputData s.input)
        refine ⟨⟨by simpa using hs.1, by simp, by simp, by simp [hready]⟩, ?_, fun _ => ?_⟩
        · simp only [Doomed, hstate, parser_writeCallback, input_writeCallback, phase, stream,
            buffer_writeCallback, retrieve_eq, hs.crlfDashBoundary]
          refine and_congr_right fun _ => ?_
          rw [truncated_content_iff hstream, readEnds_sub hle, List.length_drop,
            List.drop_append_of_le_length hle]
        · simp only [workLeft, stream, parser_writeCallback, input_writeCallback,
            buffer_writeCallback, needToReadMore_writeCallback, hready, hstate, retrieve_eq,
            List.length_append, List.length_drop, hs.crlfDashBoundary]
          simp
          omega
    | none =>
        have hno : ¬crlfDashBoundary boundary <:+: s.buffer := search_eq_none_iff.mp hfound
        simp only
        split
        · rename_i hpiece
          obtain ⟨len, hlen⟩ : ∃ len, s.buffer.length - (crlfDashBoundary boundary).length = len :=
            ⟨_, rfl⟩
          rw [hlen] at hpiece ⊢
          refine ⟨⟨by simpa [waitForMore] using hs.1, by simp [waitForMore, hstate],
            by simp [waitForMore, hstate], fun _ => ?_⟩, ?_, fun _ => ?_⟩
          · simp only [Starving, waitForMore, parser_writeCallback, hstate, buffer_writeCallback,
              retrieve_eq]
            intro hin
            exact hno (hin.trans (List.drop_suffix len s.buffer).isInfix)
          · simp only [Doomed, hstate, waitForMore, parser_writeCallback, input_writeCallback, phase,
              stream, buffer_writeCallback, retrieve_eq]
            refine and_congr_right fun _ => ?_
            have hkept : len + (crlfDashBoundary boundary).length ≤ s.buffer.length := by omega
            rw [truncated_content_drop hno hkept, readEnds_sub (by omega), List.length_drop]
          · simp only [workLeft, stream, waitForMore, parser_writeCallback, input_writeCallback,
              buffer_writeCallback, hready, hstate, retrieve_eq, List.length_append,
              List.length_drop, reduceCtorEq, if_false, if_true, Bool.false_eq_true]
            omega
        · refine waitForMore_ok hs hready ?_
          rw [Starving, hstate]
          exact hno

theorem parseState4_ok (hs : Running boundary s) (hstate : s.parser.state = .state4)
    (hready : s.needToReadMore = false) : StepOK boundary s (parseState4 s) := by
  unfold parseState4
  split
  · rename_i hshort
    refine waitForMore_ok hs hready ?_
    rw [Starving, hstate]
    exact hshort
  · rename_i hlong
    rw [readableBytes_eq, Nat.not_lt] at hlong
    have hlength : 2 ≤ (stream s).length := hlong.trans (le_length_stream s)
    have hcrlf : find s.buffer CRLF = some 0 ↔ CRLF <+: stream s := by
      rw [find_eq_search (by decide), search_eq_some_iff]
      have hfront : CRLF <+: (s.buffer ++ inputData s.input).drop 0 ↔ CRLF <+: s.buffer.drop 0 :=
        isPrefix_drop_append_iff (by simpa using hlong)
      simpa [stream] using hfront.symm
    have hinr : find s.buffer CRLF ≠ some 0 → ¬Doomed boundary s := by
      rintro hno ⟨-, htruncated⟩
      rw [hstate] at htruncated
      exact hno (hcrlf.mpr ((truncated_delimiter_iff hlength).mp htruncated).1)
    split
    · rename_i hfound
      refine ⟨⟨hs.1, by simp, by simp, by simp [hready]⟩, ?_, fun _ => ?_⟩
      · simp only [Doomed, hstate, phase, stream, retrieve_eq]
        refine and_congr_right fun _ => ?_
        change Truncated _ _ (stream s) _ ↔ _
        rw [truncated_delimiter_iff hlength, and_iff_right (hcrlf.mp hfound), readEnds_sub hlong,
          stream_drop hlong, List.length_drop]
      · simp only [workLeft, stream, hready, hstate, retrieve_eq, List.length_append,
          List.length_drop]
        simp
        omega
    · rename_i hno
      split
      · exact hinr hno
      · exact hinr hno

theorem parseSwitch_ok (hs : Running boundary s) (hready : s.needToReadMore = false) :
    StepOK boundary s (parseSwitch registered s) := by
  unfold parseSwitch
  cases hstate : s.parser.state with
  | state0 => exact absurd hstate hs.started
  | state1 => exact parseState1_ok hs hstate hready
  | state2 => exact parseState2_ok hs hstate hready
  | state3 => exact parseState3_ok hs hstate hready
  | state4 => exact parseState4_ok hs hstate hready

/-- A starving parser has read too little for the rest of the body to depend on it. -/
theorem early_of_starving (hs : Running boundary s) (hstarving : Starving boundary s) :
    Early (crlfDashBoundary boundary) (stream s) s.buffer.length (phase s.parser.state) := by
  unfold Starving at hstarving
  cases hstate : s.parser.state with
  | state0 => exact absurd hstate hs.started
  | state1 => simp [hstate] at hstarving
  | state2 =>
      rw [hstate] at hstarving
      exact hstarving
  | state4 =>
      rw [hstate] at hstarving
      exact hstarving
  | state3 =>
      rw [hstate] at hstarving
      intro len hfound
      by_contra hlt
      obtain ⟨-, hat, -⟩ := search_eq_some_iff.mp hfound
      rw [stream, isPrefix_drop_append_iff (by omega)] at hat
      exact hstarving (hat.isInfix.trans (List.drop_suffix len s.buffer).isInfix)

theorem doomed_of_starving (hs : Running boundary s) (hstarving : Starving boundary s)
    (hinput : s.input = []) : Doomed boundary s := by
  have hstream : stream s = s.buffer := by
    simp [stream, hinput, inputData]
  refine ⟨by simp [Broken, hinput], ?_⟩
  unfold Starving at hstarving
  rw [hstream]
  cases hstate : s.parser.state with
  | state0 => exact absurd hstate hs.started
  | state1 => simp [hstate] at hstarving
  | state2 => exact .headerShort (by simpa [hstate] using hstarving)
  | state4 => exact .delimiterShort (by simpa [hstate] using hstarving)
  | state3 =>
      refine .contentOpen (search_eq_none_iff.mpr ?_)
      simpa [hstate] using hstarving

theorem StepOK.of_read {s' : LoopState} (hdoomed : Doomed boundary s ↔ Doomed boundary s')
    (hwork : ¬Doomed boundary s → workLeft s' ≤ workLeft s) {result : LoopState ⊕ Bool × LoopState}
    (h : StepOK boundary s' result) : StepOK boundary s result := by
  cases result with
  | inl s'' =>
      obtain ⟨hs'', hdoomed', hless⟩ := h
      refine ⟨hs'', hdoomed.trans hdoomed', fun hnot => ?_⟩
      exact (hless (hdoomed.not.mp hnot)).trans_le (hwork hnot)
  | inr r => exact hdoomed.not.mpr h

theorem doomed_of_read {result : ReadResult} {input : List ReadResult} {buffer : Bytes}
    {needToReadMore : Bool} (hinput : s.input = result :: input)
    (hbroken : result ≠ .error .EPIPE ∧ result ≠ .error .ECONNRESET)
    (hstream : buffer ++ inputData input = stream s)
    (hends : Truncated (crlfDashBoundary boundary) (phase s.parser.state) (stream s)
        (readEnds s.buffer.length s.input) ↔
      Truncated (crlfDashBoundary boundary) (phase s.parser.state) (stream s)
        (readEnds buffer.length input)) :
    Doomed boundary s ↔ Doomed boundary { s with buffer, input, needToReadMore } := by
  have hbroken' : Broken s.input ↔ Broken input := by
    simp only [Broken, hinput, List.mem_cons]
    rw [or_iff_right (Ne.symm hbroken.1), or_iff_right (Ne.symm hbroken.2)]
  unfold Doomed
  rw [hbroken', hends]
  exact and_congr_right fun _ => by rw [← hstream]; exact Iff.rfl

theorem readMore_ok (hs : Running boundary s) (hwait : s.needToReadMore = true) :
    (∃ s', readMore s = (.done, s') ∧ Running boundary s' ∧ s'.needToReadMore = false ∧
      (Doomed boundary s ↔ Doomed boundary s') ∧
      (¬Doomed boundary s → workLeft s' ≤ workLeft s)) ∨
    (∃ s', readMore s = (.again, s') ∧ StepOK boundary s (.inl s')) ∨
    (∃ s', readMore s = (.failed, s') ∧ ¬Doomed boundary s) := by
  have hstarving := hs.waiting hwait
  cases hinput : s.input with
  | nil =>
      -- `readFd` answers 0, and nothing changes.
      refine .inl ⟨{ s with needToReadMore := false }, ?_, ⟨hs.1, hs.2, hs.3, by simp⟩, rfl,
        Iff.rfl, fun hnot => absurd (doomed_of_starving hs hstarving hinput) hnot⟩
      simp only [readMore, readFd, hinput]
  | cons result input =>
      cases result with
      | ok chunk =>
          have hstream : (s.buffer ++ chunk) ++ inputData input = stream s := by
            rw [stream, hinput, inputData, List.append_assoc]
          have hends : Truncated (crlfDashBoundary boundary) (phase s.parser.state) (stream s)
                (readEnds s.buffer.length s.input) ↔
              Truncated (crlfDashBoundary boundary) (phase s.parser.state) (stream s)
                (readEnds (s.buffer ++ chunk).length input) := by
            rw [hinput, readEnds, truncated_cons_of_early (early_of_starving hs hstarving),
              List.length_append]
          refine .inl ⟨{ s with buffer := s.buffer ++ chunk, input, needToReadMore := false }, ?_,
            ⟨hs.1, hs.2, hs.3, by simp⟩, rfl, doomed_of_read hinput (by simp) hstream hends,
            fun _ => ?_⟩
          · simp only [readMore, readFd, hinput, append_eq]
          · change 4 * (((s.buffer ++ chunk) ++ inputData input).length + input.length) + _ ≤ _
            simp only [workLeft, hstream, hinput, hwait, List.length_cons]
            simp
            omega
      | error e =>
          have hstream : s.buffer ++ inputData input = stream s := by
            rw [stream, hinput, inputData]
          have hends : readEnds s.buffer.length s.input = readEnds s.buffer.length input := by
            rw [hinput, readEnds]
          cases e with
          | EPIPE =>
              refine .inr (.inr ⟨{ s with input }, ?_, ?_⟩)
              · simp only [readMore, readFd, hinput]
              · exact fun hdoomed => hdoomed.1 (.inl (hinput ▸ List.mem_cons_self))
          | ECONNRESET =>
              refine .inr (.inr ⟨{ s with input }, ?_, ?_⟩)
              · simp only [readMore, readFd, hinput]
              · exact fun hdoomed => hdoomed.1 (.inr (hinput ▸ List.mem_cons_self))
          | EAGAIN =>
              refine .inr (.inl ⟨{ s with input }, ?_, ⟨hs.1, hs.2, hs.3, fun _ => hstarving⟩,
                doomed_of_read hinput (by simp) hstream (by rw [hends]), fun _ => ?_⟩)
              · simp only [readMore, readFd, hinput]
              · change 4 * ((s.buffer ++ inputData input).length + input.length) + _ < _
                simp only [workLeft, hstream, hinput, hwait, List.length_cons]
                omega
          | other code =>
              refine .inl ⟨{ s with input, needToReadMore := false }, ?_,
                ⟨hs.1, hs.2, hs.3, by simp⟩, rfl,
                doomed_of_read hinput (by simp) hstream (by rw [hends]), fun _ => ?_⟩
              · simp only [readMore, readFd, hinput]
              · change 4 * ((s.buffer ++ inputData input).length + input.length) + _ ≤ _
                simp only [workLeft, hstream, hinput, hwait, List.length_cons]
                simp
                omega

theorem parseStep_ok (registered : List Bytes) (hs : Running boundary s) :
    StepOK boundary s (parseStep registered s) := by
  unfold parseStep
  cases hwait : s.needToReadMore with
  | false => exact parseSwitch_ok hs hwait
  | true =>
      rw [if_pos rfl]
      rcases readMore_ok hs hwait with ⟨s', hread, hs', hready, hsame, hwork⟩ |
        ⟨s', hread, hagain⟩ | ⟨s', hread, hnot⟩
      · rw [hread]
        exact .of_read hsame hwork (parseSwitch_ok hs' hready)
      · rw [hread]
        exact hagain
      · rw [hread]
        exact hnot

theorem terminates_iff_not_doomed (registered : List Bytes) (hs : Running boundary s) :
    Terminates (parseStep registered) s ↔ ¬Doomed boundary s := by
  constructor
  · intro hterminates hdoomed
    let I : LoopState → Prop := fun s' => Running boundary s' ∧ Doomed boundary s'
    refine not_terminates_of_invariant I ?_ ⟨hs, hdoomed⟩ hterminates
    rintro s₁ ⟨hs₁, hdoomed₁⟩
    have hok := parseStep_ok registered hs₁
    cases hstep : parseStep registered s₁ with
    | inl s₂ =>
        rw [hstep] at hok
        exact ⟨s₂, rfl, hok.1, hok.2.1.mp hdoomed₁⟩
    | inr r =>
        rw [hstep] at hok
        exact absurd hdoomed₁ hok
  · intro hnot
    let I : LoopState → Prop := fun s' => Running boundary s' ∧ ¬Doomed boundary s'
    have hstart : I s := ⟨hs, hnot⟩
    obtain ⟨r, hreturns, -⟩ : ∃ r, Returns (parseStep registered) s r ∧ True := by
      refine exists_returns_of_variant I (fun _ => True) workLeft ?_ (fun _ _ _ _ => trivial) hstart
      rintro s₁ s₂ ⟨hs₁, hnot₁⟩ hstep
      have hok := parseStep_ok registered hs₁
      rw [hstep] at hok
      exact ⟨⟨hok.1, hok.2.1.not.mp hnot₁⟩, hok.2.2 hnot₁⟩
    exact ⟨r, hreturns⟩

end Steps

section Termination

variable {boundary : Bytes} {registered : List Bytes}

theorem parseState0_of_none {s : LoopState}
    (hlength : ¬readableBytes s.buffer < s.parser.dashBoundaryCrlf.length)
    (hfind : find s.buffer s.parser.dashBoundaryCrlf = none) : parseState0 s = .inr (false, s) := by
  rw [parseState0, if_neg hlength, hfind]

theorem parseState0_of_some {s : LoopState}
    (hlength : ¬readableBytes s.buffer < s.parser.dashBoundaryCrlf.length) {i : Nat}
    (hfind : find s.buffer s.parser.dashBoundaryCrlf = some i) :
    parseState0 s = .inl { s with
      buffer := s.buffer.drop (i + s.parser.dashBoundaryCrlf.length)
      parser := { s.parser with state := .state1 } } := by
  rw [parseState0, if_neg hlength, hfind]
  simp only [retrieveUntil_eq]

/-- A parser that finds the opening line gets as far as the first header block. -/
theorem terminates_iff_of_search (boundary : Bytes) (registered : List Bytes) {buffer : Bytes}
    (input : List ReadResult) {i : Nat}
    (hfound : search (dash ++ boundary ++ CRLF) buffer = some i) :
    Terminates (parseStep registered) (parseEntry (boundaryParser boundary) buffer input) ↔
      Broken input ∨ ¬Truncated (crlfDashBoundary boundary) .header
        ((buffer ++ inputData input).drop (i + (dash ++ boundary ++ CRLF).length))
        ((readEnds buffer.length input).map (· - (i + (dash ++ boundary ++ CRLF).length))) := by
  have hopening : dash ++ boundary ++ CRLF ≠ [] := by simp [CRLF_eq]
  have hle := add_length_le_of_search hfound
  have hnotshort : ¬readableBytes buffer < (dash ++ boundary ++ CRLF).length := by
    rw [readableBytes_eq]
    omega
  let s' : LoopState := { parseEntry (boundaryParser boundary) buffer input with
    buffer := buffer.drop (i + (dash ++ boundary ++ CRLF).length)
    parser := { boundaryParser boundary with state := .state1 } }
  have hstep : parseStep registered (parseEntry (boundaryParser boundary) buffer input) =
      .inl s' := parseState0_of_some hnotshort ((find_eq_search hopening buffer).trans hfound)
  have hs : Running boundary s' := ⟨rfl, by simp [s'], by simp [s'], by simp [s', parseEntry]⟩
  have hstream : stream s' = (buffer ++ inputData input).drop
      (i + (dash ++ boundary ++ CRLF).length) := by
    rw [List.drop_append_of_le_length hle]
    rfl
  have hends : readEnds s'.buffer.length s'.input = (readEnds buffer.length input).map
      (· - (i + (dash ++ boundary ++ CRLF).length)) := by
    rw [readEnds_sub hle, ← List.length_drop]
    rfl
  have hdoomed : Doomed boundary s' ↔ ¬Broken input ∧
      Truncated (crlfDashBoundary boundary) .header
        ((buffer ++ inputData input).drop (i + (dash ++ boundary ++ CRLF).length))
        ((readEnds buffer.length input).map
          (· - (i + (dash ++ boundary ++ CRLF).length))) := by
    rw [Doomed, hstream, hends]
    exact Iff.rfl
  have hreach : Terminates (parseStep registered)
        (parseEntry (boundaryParser boundary) buffer input) ↔
      Terminates (parseStep registered) s' := exists_congr fun r => returns_inl_iff hstep
  rw [hreach, terminates_iff_not_doomed registered hs, hdoomed, not_and_or, not_not]

/-- The loop of a fresh parser comes to an end exactly when the buffer is as long as the opening
line, and then the line is not in it, or a read fails for good, or the body behind the line is not
cut short. -/
theorem terminates_iff (boundary : Bytes) (registered : List Bytes) (buffer : Bytes)
    (input : List ReadResult) :
    Terminates (parseStep registered) (parseEntry (boundaryParser boundary) buffer input) ↔
      (dash ++ boundary ++ CRLF).length ≤ buffer.length ∧
      ∀ i, search (dash ++ boundary ++ CRLF) buffer = some i → Broken input ∨
        ¬Truncated (crlfDashBoundary boundary) .header
          ((buffer ++ inputData input).drop (i + (dash ++ boundary ++ CRLF).length))
          ((readEnds buffer.length input).map (· - (i + (dash ++ boundary ++ CRLF).length))) := by
  by_cases hlength : (dash ++ boundary ++ CRLF).length ≤ buffer.length
  · rw [and_iff_right hlength]
    cases hfound : search (dash ++ boundary ++ CRLF) buffer with
    | none =>
        have hopening : dash ++ boundary ++ CRLF ≠ [] := by simp [CRLF_eq]
        have hnotshort : ¬readableBytes buffer < (dash ++ boundary ++ CRLF).length := by
          rw [readableBytes_eq]
          omega
        have hstep : parseStep registered (parseEntry (boundaryParser boundary) buffer input) =
            .inr (false, parseEntry (boundaryParser boundary) buffer input) :=
          parseState0_of_none hnotshort ((find_eq_search hopening buffer).trans hfound)
        exact iff_of_true ⟨_, (returns_inr_iff hstep).mpr rfl⟩ (by simp)
    | some i =>
        rw [terminates_iff_of_search boundary registered input hfound]
        simp
  · refine iff_of_false ?_ fun hcut => hlength hcut.1
    exact not_terminates_of_short registered rfl rfl (Nat.lt_of_not_le hlength)

/-- Two ways to spin: the buffer is empty when `parse` is entered, whatever the socket delivers, and
the peer closes the connection behind the opening line. -/
theorem not_terminates_xyz :
    ¬Terminates (parseStep [ascii "upload"])
        (parseEntry (boundaryParser (ascii "xyz")) [] [.ok fileBody]) ∧
    ¬Terminates (parseStep [ascii "upload"])
        (parseEntry (boundaryParser (ascii "xyz")) (ascii "--xyz\r\n") []) := by
  constructor
  · exact not_terminates_of_short [ascii "upload"] rfl rfl (by decide)
  · let s' : LoopState :=
      parseEntry { boundaryParser (ascii "xyz") with state := .state1 } [] []
    have hstep : parseStep [ascii "upload"]
        (parseEntry (boundaryParser (ascii "xyz")) (ascii "--xyz\r\n") []) = .inl s' := by decide
    have hs : Running (ascii "xyz") s' := ⟨rfl, by decide, by decide, by simp [s', parseEntry]⟩
    have hdoomed : Doomed (ascii "xyz") s' := ⟨by simp [Broken, s', parseEntry],
      .headerShort (by decide)⟩
    rintro ⟨r, hreturns⟩
    exact (terminates_iff_not_doomed [ascii "upload"] hs).mp
      ⟨r, (returns_inl_iff hstep).mp hreturns⟩ hdoomed

end Termination

end Cooper.MultipartTermination

import Cooper.HttpBoundary
import Cooper.HttpKeepAlive

namespace Cooper.HttpContentLength

open Cooper.Http
open Cooper.HttpBoundary
open Cooper.HttpEncoding
open Cooper.HttpKeepAlive
open Cooper.HttpLoop
open Cooper.HttpSegmentation
open Cooper.HttpServer
open Cooper.LineBlock
open Cooper.MsgBuffer
open Cooper.StepRun
open Cooper.TcpConnectionImpl
open Cooper.Utilities

section Numerals

def unsigned : Bytes → Bytes
  | 45 :: s => s
  | 43 :: s => s
  | s => s

def leadingDigits (s : Bytes) : Bytes := (unsigned (s.dropWhile isspace)).takeWhile isDigit

/-- A text that begins with a number below `2 ^ 64`. -/
def Numeral (s : Bytes) : Prop :=
  leadingDigits s ≠ [] ∧ digitsValue (leadingDigits s) < 2 ^ 64

instance (s : Bytes) : Decidable (Numeral s) := inferInstanceAs (Decidable (_ ∧ _))

/-- The number that a text begins with; behind a minus sign it is negated modulo `2 ^ 64`. -/
def numeralValue (s : Bytes) : Nat :=
  if (s.dropWhile isspace).head? = some 45 then
    (2 ^ 64 - digitsValue (leadingDigits s)) % 2 ^ 64
  else digitsValue (leadingDigits s)

theorem stoul_eq (s : Bytes) :
    stoul s =
      if leadingDigits s = [] then .error .invalid_argument
      else if digitsValue (leadingDigits s) ≥ 2 ^ 64 then .error .out_of_range
      else .ok (numeralValue s) := by
  rw [stoul, numeralValue, leadingDigits]
  generalize s.dropWhile isspace = text
  fun_cases unsigned text with
  | case1 => rfl
  | case2 => rfl
  | case3 text hminus hplus =>
      have hhead : text.head? ≠ some 45 := by
        intro hhead
        obtain ⟨rest, rfl⟩ := List.head?_eq_some_iff.mp hhead
        exact hminus rest rfl
      rw [if_neg hhead]
      split
      rename_i negative rest hsign
      split at hsign
      · exact absurd rfl (hminus _)
      · exact absurd rfl (hplus _)
      · obtain ⟨rfl, rfl⟩ := Prod.mk.inj hsign
        rfl

theorem leadingDigits_of_digits {s : Bytes} (hs : ∀ c ∈ s, isDigit c) :
    leadingDigits s = s ∧ numeralValue s = digitsValue s := by
  cases s with
  | nil => exact ⟨rfl, rfl⟩
  | cons c rest =>
      obtain ⟨hspace, hminus, hplus⟩ := isDigit_spec (hs c List.mem_cons_self)
      have hdrop : (c :: rest).dropWhile isspace = c :: rest :=
        List.dropWhile_cons_of_neg (by simp [hspace])
      have hleading : leadingDigits (c :: rest) = c :: rest := by
        rw [leadingDigits, hdrop]
        have hunsigned : unsigned (c :: rest) = c :: rest := by
          unfold unsigned
          split
          · rename_i heq
            exact absurd (List.cons.inj heq).1 hminus
          · rename_i heq
            exact absurd (List.cons.inj heq).1 hplus
          · rfl
        rw [hunsigned]
        exact List.takeWhile_eq_self_iff.mpr hs
      refine ⟨hleading, ?_⟩
      rw [numeralValue, hdrop, hleading, if_neg (by simpa using hminus)]

theorem stoul_of_numeral {s : Bytes} (h : Numeral s) : stoul s = .ok (numeralValue s) := by
  rw [stoul_eq, if_neg h.1, if_neg (Nat.not_le.mpr h.2)]

theorem stoul_error_iff (s : Bytes) : (∃ e, stoul s = .error e) ↔ ¬Numeral s := by
  constructor
  · rintro ⟨e, herror⟩ hnumeral
    rw [stoul_of_numeral hnumeral] at herror
    contradiction
  · intro hnot
    rw [stoul_eq]
    by_cases hnone : leadingDigits s = []
    · exact ⟨_, if_pos hnone⟩
    · have hlarge : digitsValue (leadingDigits s) ≥ 2 ^ 64 :=
        Nat.not_lt.mp fun hsmall => hnot ⟨hnone, hsmall⟩
      exact ⟨_, by rw [if_neg hnone, if_pos hlarge]⟩

end Numerals

section Fields

/-- The value that header lines give to a field: that of the last line with the name, among the
lines that have a value. -/
def fieldValue (lines : List Bytes) (name : Bytes) : Option Bytes :=
  (((lines.filterMap fun line => (parseHeaderLine line).join).filter fun field =>
    name.map tolower = field.1.map tolower).getLast?).map Prod.snd

theorem sameKey_eq {s : Bytes} (hs : s ≠ []) (t : Bytes) :
    sameKey s t = decide (s.map tolower = t.map tolower) := by
  obtain ⟨a, s, rfl⟩ := List.exists_cons_of_ne_nil hs
  rw [sameKey, decide_eq_decide]
  constructor
  · exact And.left
  · intro hlower
    refine ⟨hlower, ?_⟩
    cases t with
    | nil => contradiction
    | cons b t =>
        rw [List.map_cons, List.map_cons, List.cons.injEq] at hlower
        rw [ci, if_pos hlower.1]

theorem find_set_same {headers : Headers} {name key : Bytes} (hname : name ≠ [])
    (hsame : name.map tolower = key.map tolower) (value : Bytes) :
    (headers.set key value).find name = some value := by
  have hkey : key ≠ [] := by
    rintro rfl
    exact hname (List.map_eq_nil_iff.mp hsame)
  have hfind : ∀ headers : Headers, headers.find name = headers.find key := by
    intro headers
    rw [Headers.find, Headers.find]
    congr 2
    funext entry
    rw [sameKey_eq hname, sameKey_eq hkey, hsame]
  rw [hfind]
  exact find_set_self value (by rw [sameKey_eq hkey]; simp)

theorem find_of_lines {name : Bytes} (hname : name ≠ []) {lines : List Bytes} {headers : Headers}
    (hlines : lines.foldlM addHeaderLine [] = some headers) :
    headers.find name = fieldValue lines name := by
  induction lines using List.reverseRecOn generalizing headers with
  | nil =>
      obtain rfl := Option.some.inj hlines
      rfl
  | append_singleton lines line ih =>
      rw [List.foldlM_append] at hlines
      obtain ⟨before, hbefore, hlast⟩ := Option.bind_eq_some_iff.mp hlines
      have hvalue := ih hbefore
      rw [List.foldlM_cons] at hlast
      obtain ⟨after, hafter, hdone⟩ := Option.bind_eq_some_iff.mp hlast
      obtain rfl := Option.some.inj hdone
      rw [fieldValue] at hvalue ⊢
      obtain ⟨field, hfield, rfl⟩ := Option.map_eq_some_iff.mp hafter
      rw [List.filterMap_append, List.filter_append]
      rcases field with _ | ⟨key, value⟩
      · simpa [hfield] using hvalue
      · by_cases hsame : name.map tolower = key.map tolower
        · simp [hfield, hsame, find_set_same hname hsame]
        · simpa [hfield, hsame, find_set value hsame] using hvalue

theorem parseHeaderLine_eq_none_iff (line : Bytes) : parseHeaderLine line = none ↔ 58 ∉ line := by
  have hcolon : (line.rdropWhile isSpaceOrTab).dropWhile (· ≠ 58) = [] ↔ 58 ∉ line := by
    rw [List.dropWhile_eq_nil_iff]
    constructor
    · intro hall hmem
      -- The blanks at the end of the line are no colons.
      have hsplit := List.rdropWhile_append_rtakeWhile (p := isSpaceOrTab) (l := line)
      rw [← hsplit] at hmem
      rcases List.mem_append.mp hmem with hmem | hmem
      · simpa using hall 58 hmem
      · exact absurd (List.mem_rtakeWhile_imp hmem) (by decide)
    · intro hnot c hc
      have hmem := (List.rdropWhile_prefix isSpaceOrTab line).subset hc
      rw [decide_eq_true_eq]
      rintro rfl
      exact hnot hmem
  rw [parseHeaderLine, ← hcolon]
  split <;> rename_i hrest
  · exact ⟨fun _ => hrest, fun _ => rfl⟩
  · rw [hrest]
    constructor
    · intro hnone
      simp only at hnone
      split at hnone <;> contradiction
    · intro hnil
      contradiction

theorem parseHeaderLine_value {line key value : Bytes}
    (hfield : parseHeaderLine line = some (some (key, value))) : value ≠ [] := by
  rw [parseHeaderLine] at hfield
  simp only at hfield
  split at hfield
  · contradiction
  · split at hfield
    · simp only [Option.some.injEq, Prod.mk.injEq] at hfield
      obtain ⟨-, rfl⟩ := hfield
      assumption
    · simp at hfield

theorem value_ne_nil {lines : List Bytes} {name value : Bytes}
    (hvalue : value ∈ fieldValue lines name) : value ≠ [] := by
  obtain ⟨⟨key, value⟩, hlast, rfl⟩ := Option.map_eq_some_iff.mp hvalue
  obtain ⟨line, -, hfield⟩ := List.mem_filterMap.mp
    (List.mem_of_mem_filter (List.mem_of_getLast? hlast))
  exact parseHeaderLine_value (Option.join_eq_some_iff.mp hfield)

theorem foldlM_isSome_iff (lines : List Bytes) (headers : Headers) :
    (∃ headers', lines.foldlM addHeaderLine headers = some headers') ↔
      ∀ line ∈ lines, 58 ∈ line := by
  induction lines generalizing headers with
  | nil => simp
  | cons line lines ih =>
      rw [List.foldlM_cons, List.forall_mem_cons]
      rcases hparsed : parseHeaderLine line with _ | field
      · have hcolon := (parseHeaderLine_eq_none_iff line).mp hparsed
        simp [addHeaderLine, hparsed, hcolon]
      · have hcolon : 58 ∈ line := by
          by_contra hnot
          rw [(parseHeaderLine_eq_none_iff line).mpr hnot] at hparsed
          contradiction
        simp only [addHeaderLine, hparsed, hcolon, true_and, Option.map_some]
        exact ih _

end Fields

section Requests

structure RequestLine (line : Bytes) : Prop where
  crlf : ¬CRLF <:+: line
  words : ∃ method path version, split line 32 = [method, path, version] ∧ method ∈ methods ∧
    (version = ascii "HTTP/1.1" ∨ version = ascii "HTTP/1.0")

structure FieldLine (line : Bytes) : Prop extends HeaderLine line where
  colon : 58 ∈ line

/-- A request line and a header block that announce a body whose length is no number. -/
def UnreadableLength (buffer : Bytes) : Prop :=
  ∃ line lines body, buffer = line ++ (CRLF ++ (headerBlock lines ++ body)) ∧ RequestLine line ∧
    (∀ line ∈ lines, FieldLine line) ∧
    (∀ contentType ∈ fieldValue lines CONTENT_TYPE, ¬ascii "multipart/form-data" <+: contentType) ∧
    ∃ value ∈ fieldValue lines CONTENT_LENGTH, ¬Numeral value

theorem parseRequestStartingLine_of_line {line : Bytes} (hline : RequestLine line) (rest : Bytes) :
    ∃ method path version,
      parseRequestStartingLine (HttpRequest.init (line ++ (CRLF ++ rest))) =
        (true, { HttpRequest.init rest with method, path, version }) := by
  obtain ⟨method, path, version, hwords, hmethod, hversion⟩ := hline.words
  exact ⟨method, path, version,
    parseRequestStartingLine_of_words hline.crlf hwords hmethod hversion rest⟩

theorem exists_line_of_parseRequestStartingLine {buffer : Bytes} {request : HttpRequest}
    (hparsed : parseRequestStartingLine (HttpRequest.init buffer) = (true, request)) :
    ∃ line, RequestLine line ∧ buffer = line ++ (CRLF ++ request.buffer) ∧
      request.headers = [] := by
  rw [parseRequestStartingLine] at hparsed
  split at hparsed
  · simp at hparsed
  · rename_i crlf hfind
    obtain ⟨hline, -, hsplit⟩ := eq_line_of_find_CRLF hfind
    simp only [readUntil_eq, retrieve_eq, Prod.mk.injEq, decide_eq_true_eq] at hparsed
    obtain ⟨⟨hlength, hmethod, hversion⟩, rfl⟩ := hparsed
    obtain ⟨method, path, version, hwords⟩ := List.length_eq_three.mp hlength
    rw [hwords] at hmethod hversion
    refine ⟨_, ⟨hline, method, path, version, hwords, hmethod, hversion⟩, ?_, rfl⟩
    rw [List.drop_drop]
    exact hsplit

theorem parseBody_error_iff (request : HttpRequest) :
    (∃ e, parseBody request = .error e) ↔
      (∀ contentType ∈ request.headers.find CONTENT_TYPE,
        ¬ascii "multipart/form-data" <+: contentType) ∧
      ∃ value ∈ request.headers.find CONTENT_LENGTH, value ≠ [] ∧ ¬Numeral value := by
  have hplain : isMultipartFormData request = false ↔
      ∀ contentType ∈ request.headers.find CONTENT_TYPE,
        ¬ascii "multipart/form-data" <+: contentType := by
    rw [Bool.eq_false_iff, ne_eq, isMultipartFormData_iff, IsMultipart]
    simp
  rw [← hplain, parseBody]
  rcases hmultipart : isMultipartFormData request with _ | _
  · rw [if_neg Bool.false_ne_true]
    rcases hfind : request.headers.find CONTENT_LENGTH with _ | value
    · simp [Headers.at, hfind]
    · by_cases hvalue : value = []
      · simp [Headers.at, hfind, hvalue]
      · simp only [Headers.at, hfind, Option.mem_some_iff, exists_eq_left', ne_eq,
          hvalue, not_false_eq_true, true_and, if_false, ← stoul_error_iff]
        rcases stoul value with e | len
        · simp [bind, Except.bind]
        · simp only [bind, Except.bind]
          split <;> simp [pure, Except.pure]
  · rw [if_pos rfl]
    simp only
    split <;> simp

theorem parseRequest_error_iff (buffer : Bytes) :
    (∃ e, parseRequest buffer = .error e) ↔ UnreadableLength buffer := by
  have hnames : CONTENT_TYPE ≠ [] ∧ CONTENT_LENGTH ≠ [] := by decide
  constructor
  · rintro ⟨e, herror⟩
    rw [parseRequest] at herror
    split at herror
    · contradiction
    · rename_i first hfirst
      obtain ⟨line, hline, rfl, hnone⟩ := exists_line_of_parseRequestStartingLine hfirst
      split at herror
      · contradiction
      · rename_i second hsecond
        obtain ⟨headers, body, hread, rfl⟩ := parseHeadersLoop_eq_true_iff.mp hsecond
        obtain ⟨lines, hlines, hfold, hblock⟩ := exists_lines_of_readLines hread
        rw [hnone] at hfold
        obtain ⟨hplain, value, hvalue, -, hnumeral⟩ := (parseBody_error_iff _).mp ⟨e, herror⟩
        rw [find_of_lines hnames.1 hfold] at hplain
        rw [find_of_lines hnames.2 hfold] at hvalue
        have hcolons := (foldlM_isSome_iff lines []).mp ⟨headers, hfold⟩
        refine ⟨line, lines, body, ?_, hline, ?_, hplain, value, hvalue, hnumeral⟩
        · rw [hblock]
        · exact fun line hmem => ⟨hlines line hmem, hcolons line hmem⟩
  · rintro ⟨line, lines, body, rfl, hline, hlines, hplain, value, hvalue, hnumeral⟩
    obtain ⟨headers, hfold⟩ :=
      (foldlM_isSome_iff lines []).mpr fun line hmem => (hlines line hmem).colon
    obtain ⟨method, path, version, hfirst⟩ :=
      parseRequestStartingLine_of_line hline (headerBlock lines ++ body)
    have hsecond : ∀ request : HttpRequest, request.headers = [] →
        request.buffer = headerBlock lines ++ body →
        parseHeaders request = (true, { request with headers, buffer := body }) := by
      intro request hempty hbuffer
      rw [← hempty] at hfold
      exact parseHeaders_of_lines request (fun line hmem => (hlines line hmem).toHeaderLine) hfold
        hbuffer
    rw [parseRequest, hfirst]
    simp only
    rw [hsecond _ rfl rfl]
    apply (parseBody_error_iff _).mpr
    rw [find_of_lines hnames.1 hfold, find_of_lines hnames.2 hfold]
    exact ⟨hplain, value, hvalue, value_ne_nil hvalue, hnumeral⟩

end Requests

section Strictness

variable {request : HttpRequest} {value : Bytes}

/-- `parseBody` accepts exactly the decimal numbers up to what is readable, and takes as many
bytes. -/
structure ReadsStrictly (request : HttpRequest) (value : Bytes) : Prop where
  accepts_iff : (∃ request', parseBody request = .ok (true, request')) ↔
    (∀ c ∈ value, isDigit c) ∧ digitsValue value < 2 ^ 64 ∧
      digitsValue value ≤ readableBytes request.buffer
  body_eq : ∀ request', parseBody request = .ok (true, request') →
    request'.body = request.buffer.take (digitsValue value)

theorem parseBody_of_length (hplain : isMultipartFormData request = false)
    (hvalue : request.headers.find CONTENT_LENGTH = some value) (hne : value ≠ []) :
    parseBody request = (stoul value).bind fun len =>
      if len > request.buffer.length then .ok (false, request)
      else .ok (true, { request with
        body := request.buffer.take len, buffer := request.buffer.drop len }) := by
  rw [parseBody, hplain, if_neg Bool.false_ne_true]
  simp only [Headers.at, hvalue, if_neg hne, bind, pure, read_eq, readableBytes_eq]
  rfl

theorem accepts_iff_numeral (hplain : isMultipartFormData request = false)
    (hvalue : request.headers.find CONTENT_LENGTH = some value) (hne : value ≠ []) :
    (∃ request', parseBody request = .ok (true, request')) ↔
      Numeral value ∧ numeralValue value ≤ request.buffer.length := by
  rw [parseBody_of_length hplain hvalue hne]
  by_cases hnumeral : Numeral value
  · rw [stoul_of_numeral hnumeral, Except.bind]
    by_cases hlarge : numeralValue value > request.buffer.length
    · simp [hnumeral, hlarge]
    · simp [hnumeral, hlarge, Nat.not_lt.mp hlarge]
  · obtain ⟨e, herror⟩ := (stoul_error_iff value).mpr hnumeral
    simp [herror, hnumeral, Except.bind]

/-- A `Content-Length` is read strictly when it is made of digits, when it begins with no number,
or when the number it begins with is more than there is to read. -/
theorem readsStrictly_iff (hplain : isMultipartFormData request = false)
    (hvalue : request.headers.find CONTENT_LENGTH = some value) (hne : value ≠ []) :
    ReadsStrictly request value ↔
      (∀ c ∈ value, isDigit c) ∨ ¬Numeral value ∨
        readableBytes request.buffer < numeralValue value := by
  have haccepts := accepts_iff_numeral hplain hvalue hne
  constructor
  · intro hstrict
    by_cases haccepted : ∃ request', parseBody request = .ok (true, request')
    · exact .inl (hstrict.accepts_iff.mp haccepted).1
    · rw [haccepts, not_and, Nat.not_le] at haccepted
      exact .inr (not_or_of_imp haccepted)
  · rintro (hdigits | hrest)
    · obtain ⟨hleading, hnumber⟩ := leadingDigits_of_digits hdigits
      have hnumeral : Numeral value ↔ digitsValue value < 2 ^ 64 := by
        rw [Numeral, hleading]
        exact and_iff_right hne
      refine ⟨?_, ?_⟩
      · rw [haccepts, hnumeral, hnumber]
        exact (and_iff_right hdigits).symm
      · intro request' hparsed
        have hsize := haccepts.mp ⟨request', hparsed⟩
        rw [parseBody_of_length hplain hvalue hne, stoul_of_numeral hsize.1, Except.bind,
          if_neg (Nat.not_lt.mpr hsize.2), hnumber] at hparsed
        simp only [Except.ok.injEq, Prod.mk.injEq, true_and] at hparsed
        rw [← hparsed]
    · have hrejected : ¬∃ request', parseBody request = .ok (true, request') := by
        rw [haccepts]
        rintro ⟨hnumeral, hsize⟩
        rcases hrest with hnot | hlarge
        · exact hnot hnumeral
        · exact absurd hsize (Nat.not_le.mpr hlarge)
      refine ⟨iff_of_false hrejected ?_, fun request' hparsed => absurd ⟨_, hparsed⟩ hrejected⟩
      rintro ⟨hdigits, hsmall, hsize⟩
      obtain ⟨hleading, hnumber⟩ := leadingDigits_of_digits hdigits
      refine hrejected (haccepts.mpr ⟨⟨?_, ?_⟩, ?_⟩)
      · rwa [hleading]
      · rwa [hleading]
      · rwa [hnumber]

def announcing (value : Bytes) : HttpRequest :=
  { HttpRequest.init (ascii "hello") with headers := [(CONTENT_LENGTH, value)] }

theorem readsStrictly_iff_three :
    ReadsStrictly (announcing (ascii "3")) (ascii "3") ↔
      (∀ c ∈ ascii "3", isDigit c) ∨ ¬Numeral (ascii "3") ∨
        readableBytes (ascii "hello") < numeralValue (ascii "3") :=
  @readsStrictly_iff (announcing (ascii "3")) (ascii "3") (by decide) (by decide) (by decide)

/-- A minus sign and 2 ^ 64 - 1, which wraps to one. -/
theorem not_readsStrictly_wrapped : ¬ ∀ (request : HttpRequest) (value : Bytes),
    isMultipartFormData request = false → request.headers.find CONTENT_LENGTH = some value →
      value ≠ [] → ReadsStrictly request value := by
  intro h
  have hstrict := h (announcing (ascii "-18446744073709551615")) (ascii "-18446744073709551615")
    (by decide) (by decide) (by decide)
  have haccepted := hstrict.accepts_iff.mp ⟨_, rfl⟩
  exact absurd haccepted.1 (by decide)

end Strictness

section Callback

variable {env : Environment} {server : Server} {input : List ReadResult} {s : HttpConnection}

/-- The 400 path of `recvMsgCallback`; `readBuffer` is what the parser has left. -/
def refuse (env : Environment) (server : Server) (s : HttpConnection) (readBuffer : Bytes) :
    HttpConnection :=
  closeAndErase (sendResponse env server { HttpResponse.init with statusCode := CODE_400 } none
    (setReadBuffer s readBuffer))

/-- The callback does not throw, and a request that it cannot parse is refused. -/
structure Contained (env : Environment) (server : Server) (input : List ReadResult)
    (s : HttpConnection) : Prop where
  returns : ∀ e, recvMsgCallback env server input s ≠ .threw e
  refuses : (∀ request, parseRequest s.conn.readBuffer ≠ .ok (true, request)) →
    ∃ readBuffer, recvMsgCallback env server input s = .returned (refuse env server s readBuffer)

theorem contained_iff (env : Environment) (server : Server) (input : List ReadResult)
    (s : HttpConnection) :
    Contained env server input s ↔ ¬UnreadableLength s.conn.readBuffer := by
  rw [← parseRequest_error_iff]
  constructor
  · rintro hcontained ⟨e, herror⟩
    apply hcontained.returns e
    simp only [recvMsgCallback, herror]
  · intro hok
    rcases hparsed : parseRequest s.conn.readBuffer with e | ⟨_ | _, request⟩
    · exact absurd ⟨e, hparsed⟩ hok
    · have hrefuse : recvMsgCallback env server input s =
          .returned (refuse env server s request.buffer) := by
        simp only [recvMsgCallback, hparsed]
        rfl
      refine ⟨fun e hthrew => ?_, fun _ => ⟨_, hrefuse⟩⟩
      rw [hrefuse] at hthrew
      contradiction
    · refine ⟨fun e hthrew => ?_, fun hnot => absurd hparsed (hnot request)⟩
      simp only [recvMsgCallback, hparsed] at hthrew
      split at hthrew
      · contradiction
      · split at hthrew <;> contradiction

end Callback

section Loop

variable {ι : Type*}

/-- When an event invokes the callback, nothing escapes from it. -/
def StepContained (env : Environment) (server : Server) (s : HttpConnection) : ConnStep → Prop
  | .event revents result input =>
      ∀ entry ∈ callbackEntry revents result s, Contained env server input entry
  | .forceClose | .connectDestroyed => True

/-- When an event invokes the callback, the buffer announces no length that is no number. -/
def StepReadable (s : HttpConnection) : ConnStep → Prop
  | .event revents result _ =>
      ∀ entry ∈ callbackEntry revents result s, ¬UnreadableLength entry.conn.readBuffer
  | .forceClose | .connectDestroyed => True

theorem stepContained_iff (env : Environment) (server : Server) (s : HttpConnection)
    (t : ConnStep) : StepContained env server s t ↔ StepReadable s t := by
  cases t with
  | event revents result input =>
      exact forall₂_congr fun entry _ => contained_iff env server input entry
  | forceClose => exact Iff.rfl
  | connectDestroyed => exact Iff.rfl

def LoopContained (server : Server) (loop : IoLoop ι) : LoopStep ι → Prop
  | .accept _ => True
  | .conn id env t => ∀ s, loop id = some s → StepContained env server s t

def LoopReadable (loop : IoLoop ι) : LoopStep ι → Prop
  | .accept _ => True
  | .conn id _ t => ∀ s, loop id = some s → StepReadable s t

/-- In a run of a loop with any number of connections nothing escapes from the callbacks, and what
cannot be parsed is refused, when no buffer begins with a length that is no number. -/
theorem loopContained_run_iff [DecidableEq ι] (server : Server) (steps : List (LoopStep ι)) :
    AllSteps (loopStep server) (LoopContained server) (fun _ => none) steps ↔
      AllSteps (loopStep server) LoopReadable (fun _ => none) steps := by
  refine allSteps_iff (fun _ => True) (fun _ _ _ _ _ => trivial) ?_ trivial steps
  intro loop t _
  cases t with
  | accept id => exact Iff.rfl
  | conn id env t => exact forall₂_congr fun s _ => stepContained_iff env server s t

theorem loopStep_of_unreadable [DecidableEq ι] {server : Server} {loop : IoLoop ι} {id : ι}
    {s entry : HttpConnection} (hs : loop id = some s) {env : Environment} {revents : Revents}
    {result : ReadResult} {input : List ReadResult}
    (hentry : callbackEntry revents result s = some entry)
    (hlength : UnreadableLength entry.conn.readBuffer) :
    loopStep server loop (.conn id env (.event revents result input)) = none := by
  obtain ⟨e, herror⟩ := (parseRequest_error_iff _).mpr hlength
  have hthrew : recvMsgCallback env server input entry = .threw e := by
    simp only [recvMsgCallback, herror]
  rw [loopStep, hs]
  simp only [step, Option.map_eq_none_iff]
  rcases hevent : handleEvent env server revents result input s with _ | s'
  · rfl
  · rcases handleEvent_cases hevent with ⟨hdead, -⟩ | ⟨-, read, hread, -⟩
    · rw [callbackEntry, if_pos hdead] at hentry
      contradiction
    · rw [readPart_of_entry hentry, hthrew] at hread
      contradiction

def wordLength : List (LoopStep Nat) :=
  [.accept 0, .conn 0 plainEnvironment
    (.event pollIn (.ok (ascii "GET / HTTP/1.1\r\nContent-Length: x\r\n\r\n")) [])]

theorem not_loopContained : ¬ ∀ (server : Server) (steps : List (LoopStep Nat)),
    AllSteps (loopStep server) (LoopContained server) (fun _ => none) steps := by
  intro h
  obtain ⟨-, hrest⟩ := h helloServer wordLength
  obtain ⟨hcontained, -⟩ := hrest _ rfl
  exact (hcontained accepted rfl _ rfl).returns .invalid_argument (by rfl)

end Loop

end Cooper.HttpContentLength

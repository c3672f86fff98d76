import Cooper.Http
import Cooper.LineBlock
import Cooper.Splitting

namespace Cooper.HttpEncoding

open Cooper.Http
open Cooper.LineBlock
open Cooper.ListSearch
open Cooper.MsgBuffer
open Cooper.Multipart
open Cooper.Splitting (split_three)
open Cooper.Utilities

/-- A header with the blanks that may surround its value. -/
structure HeaderField where
  name : Bytes
  lead : Bytes
  value : Bytes
  trail : Bytes
  name_colon : 58 ∉ name
  name_cr : 13 ∉ name
  lead_blank : Blank lead
  value_cr : 13 ∉ value
  value_solid : value = [] ∨ Solid value
  trail_blank : Blank trail

def HeaderField.line (field : HeaderField) : Bytes :=
  field.name ++ 58 :: (field.lead ++ (field.value ++ field.trail))

def headerTable (headers : Headers) (fields : List HeaderField) : Headers :=
  fields.foldl (fun headers field =>
    if field.value = [] then headers else headers.set field.name field.value) headers

structure IsLength (value : Bytes) (length : Nat) : Prop where
  nonempty : value ≠ []
  digits : ∀ c ∈ value, isDigit c
  length_eq : digitsValue value = length

instance (value : Bytes) (length : Nat) : Decidable (IsLength value length) :=
  decidable_of_iff (value ≠ [] ∧ (∀ c ∈ value, isDigit c) ∧ digitsValue value = length)
    ⟨fun ⟨h, h', h''⟩ => ⟨h, h', h''⟩, fun ⟨h, h', h''⟩ => ⟨h, h', h''⟩⟩

/-- A request whose body, when it has one, is as long as its `Content-Length` says. -/
structure WireRequest where
  method : Bytes
  path : Bytes
  version : Bytes
  fields : List HeaderField
  body : Bytes
  method_mem : method ∈ methods
  path_nonempty : path ≠ []
  path_text : ∀ c ∈ path, isSpaceOrTab c = false ∧ c ≠ 13
  version_mem : version ∈ [ascii "HTTP/1.1", ascii "HTTP/1.0"]
  not_multipart : ∀ contentType ∈ (headerTable [] fields).find CONTENT_TYPE,
    ¬ascii "multipart/form-data" <+: contentType
  content_length : ∀ value ∈ (headerTable [] fields).find CONTENT_LENGTH,
    IsLength value body.length
  no_content_length : (headerTable [] fields).find CONTENT_LENGTH = none → body = []
  body_lt : body.length < 2 ^ 64

def WireRequest.line (request : WireRequest) : Bytes :=
  request.method ++ 32 :: (request.path ++ 32 :: request.version)

def WireRequest.head (request : WireRequest) : Bytes :=
  request.line ++ (CRLF ++ headerBlock (request.fields.map HeaderField.line))

def WireRequest.encode (request : WireRequest) : Bytes := request.head ++ request.body

/-- What a handler sees of the request. Looking for a `Content-Length` leaves an empty one behind
when there is none. -/
def WireRequest.data (request : WireRequest) : RequestData where
  method := request.method
  path := request.path
  version := request.version
  headers := (Headers.at (headerTable [] request.fields) CONTENT_LENGTH).2
  body := request.body

section RequestLine

theorem solid_of_forall {s : Bytes} (hne : s ≠ []) (hs : ∀ c ∈ s, isSpaceOrTab c = false) :
    Solid s where
  head := by
    obtain ⟨c, rest, rfl⟩ := List.exists_cons_of_ne_nil hne
    exact ⟨c, rest, rfl, hs c List.mem_cons_self⟩
  last := ⟨s.dropLast, s.getLast hne, (List.dropLast_append_getLast hne).symm,
    hs _ (List.getLast_mem hne)⟩

structure IsWord (s : Bytes) : Prop where
  solid : Solid s
  blank : 32 ∉ s
  cr : 13 ∉ s

theorem isWord_of_forall {s : Bytes} (hne : s ≠ [])
    (hs : ∀ c ∈ s, isSpaceOrTab c = false ∧ c ≠ 13) : IsWord s where
  solid := solid_of_forall hne fun c hc => (hs c hc).1
  blank := by
    intro hc
    exact absurd (hs 32 hc).1 (by decide)
  cr := by
    intro hc
    exact (hs 13 hc).2 rfl

theorem isWord_method {method : Bytes} (hmethod : method ∈ methods) : IsWord method := by
  have hwords : ∀ method ∈ methods,
      method ≠ [] ∧ ∀ c ∈ method, isSpaceOrTab c = false ∧ c ≠ 13 := by decide
  obtain ⟨hne, htext⟩ := hwords method hmethod
  exact isWord_of_forall hne htext

theorem isWord_version {version : Bytes}
    (hversion : version ∈ [ascii "HTTP/1.1", ascii "HTTP/1.0"]) : IsWord version := by
  have hwords : ∀ version ∈ [ascii "HTTP/1.1", ascii "HTTP/1.0"],
      version ≠ [] ∧ ∀ c ∈ version, isSpaceOrTab c = false ∧ c ≠ 13 := by decide
  obtain ⟨hne, htext⟩ := hwords version hversion
  exact isWord_of_forall hne htext

theorem parseRequestStartingLine_of_words {line method path version : Bytes}
    (hline : ¬CRLF <:+: line) (hwords : split line 32 = [method, path, version])
    (hmethod : method ∈ methods)
    (hversion : version = ascii "HTTP/1.1" ∨ version = ascii "HTTP/1.0") (rest : Bytes) :
    parseRequestStartingLine (HttpRequest.init (line ++ (CRLF ++ rest))) =
      (true, { HttpRequest.init rest with method, path, version }) := by
  have hfind := find_CRLF_line line hline rest
  have hdrop : (line ++ (CRLF ++ rest)).drop line.length = CRLF ++ rest := List.drop_left
  simp only [parseRequestStartingLine, HttpRequest.init, findCRLF, hfind, readUntil_eq, retrieve_eq,
    List.take_left, hdrop, List.drop_left' CRLF_length, hwords]
  simp [hmethod, hversion]

theorem split_words {method path version : Bytes} (hmethod : IsWord method) (hpath : IsWord path)
    (hversion : IsWord version) :
    split (method ++ 32 :: (path ++ 32 :: version)) 32 = [method, path, version] :=
  split_three hmethod.solid hmethod.blank hpath.solid hpath.blank hversion.solid hversion.blank

theorem not_isInfix_words {method path version : Bytes} (hmethod : IsWord method)
    (hpath : IsWord path) (hversion : IsWord version) :
    ¬CRLF <:+: method ++ 32 :: (path ++ 32 :: version) := by
  apply not_isInfix_CRLF
  simp [hmethod.cr, hpath.cr, hversion.cr]

variable (request : WireRequest)

theorem WireRequest.line_crlf : ¬CRLF <:+: request.line :=
  not_isInfix_words (isWord_method request.method_mem)
    (isWord_of_forall request.path_nonempty request.path_text) (isWord_version request.version_mem)

theorem WireRequest.split_line :
    split request.line 32 = [request.method, request.path, request.version] :=
  split_words (isWord_method request.method_mem)
    (isWord_of_forall request.path_nonempty request.path_text) (isWord_version request.version_mem)

theorem parseRequestStartingLine_whole (rest : Bytes) :
    parseRequestStartingLine (HttpRequest.init (request.line ++ (CRLF ++ rest))) =
      (true, { HttpRequest.init rest with
        method := request.method, path := request.path, version := request.version }) :=
  parseRequestStartingLine_of_words request.line_crlf request.split_line request.method_mem
    (by simpa using request.version_mem) rest

theorem parseRequestStartingLine_partial {buffer rest : Bytes}
    (hstart : buffer <+: request.line ++ (CRLF ++ rest))
    (hlength : buffer.length < request.line.length + 2) :
    parseRequestStartingLine (HttpRequest.init buffer) = (false, HttpRequest.init buffer) := by
  have hfind : find buffer CRLF = none := find_CRLF_partial request.line request.line_crlf hstart
    hlength
  simp only [parseRequestStartingLine, HttpRequest.init, findCRLF, hfind]

end RequestLine

section HeaderLines

def addHeaderLine (headers : Headers) (line : Bytes) : Option Headers :=
  (parseHeaderLine line).map fun
    | none => headers
    | some (key, value) => headers.set key value

theorem parseHeadersLoop_eq_true_iff {fuel : Nat} {request request' : HttpRequest} :
    parseHeadersLoop fuel request = (true, request') ↔
      ∃ headers rest, readLines addHeaderLine fuel request.headers request.buffer =
        some (headers, rest) ∧ request' = { request with headers, buffer := rest } := by
  induction fuel generalizing request with
  | zero => simp [parseHeadersLoop, readLines]
  | succ fuel ih =>
      rcases hfind : find request.buffer CRLF with _ | _ | crlf
      · simp [parseHeadersLoop, readLines, findCRLF, hfind]
      · simp [parseHeadersLoop, readLines, findCRLF, hfind, eq_comm]
      · obtain ⟨-, hle, -⟩ := eq_line_of_find_CRLF hfind
        have hline : request.buffer.take (crlf + 1) ≠ [] := by
          rw [ne_eq, List.take_eq_nil_iff]
          rintro (hzero | hnil)
          · omega
          · rw [hnil, List.length_nil] at hle
            omega
        rcases hparsed : parseHeaderLine (request.buffer.take (crlf + 1)) with
          _ | _ | ⟨key, value⟩
        · simp [parseHeadersLoop, readLines, findCRLF, hfind, hline, hparsed, addHeaderLine]
        · simp [parseHeadersLoop, readLines, findCRLF, hfind, hline, hparsed, addHeaderLine, ih]
        · simp [parseHeadersLoop, readLines, findCRLF, hfind, hline, hparsed, addHeaderLine, ih]

theorem rdropWhile_blank {s : Bytes} (hs : ∃ front c, s = front ++ [c] ∧ isSpaceOrTab c = false)
    {trail : Bytes} (htrail : Blank trail) : (s ++ trail).rdropWhile isSpaceOrTab = s := by
  obtain ⟨front, c, rfl, hc⟩ := hs
  induction trail using List.reverseRecOn with
  | nil =>
      rw [List.append_nil]
      exact List.rdropWhile_concat_neg _ _ _ (by simp [hc])
  | append_singleton trail b ih =>
      rw [← List.append_assoc, List.rdropWhile_concat_pos _ _ _ (htrail b (by simp))]
      exact ih fun c hc => htrail c (List.mem_append_left _ hc)

theorem dropWhile_blank {lead : Bytes} (hlead : Blank lead) {value : Bytes}
    (hvalue : value = [] ∨ Solid value) : (lead ++ value).dropWhile isSpaceOrTab = value := by
  rw [List.dropWhile_append_of_pos hlead]
  rcases hvalue with rfl | hsolid
  · rfl
  · obtain ⟨c, rest, rfl, hc⟩ := hsolid.head
    rw [List.dropWhile_cons_of_neg (by simp [hc])]

theorem parseHeaderLine_of_parts {name lead value trail : Bytes} (hcolon : 58 ∉ name)
    (hlead : Blank lead) (hvalue : value = [] ∨ Solid value) (htrail : Blank trail) :
    parseHeaderLine (name ++ 58 :: (lead ++ (value ++ trail))) =
      some (if value = [] then none else some (name, value)) := by
  have htrim : ∃ lead', Blank lead' ∧
      (name ++ 58 :: (lead ++ (value ++ trail))).rdropWhile isSpaceOrTab =
        name ++ 58 :: (lead' ++ value) := by
    rcases hvalue with rfl | hvalue
    · refine ⟨[], Blank.nil, ?_⟩
      have hsplit : name ++ 58 :: (lead ++ ([] ++ trail)) =
          (name ++ [58]) ++ (lead ++ trail) := by
        simp
      have hblank : Blank (lead ++ trail) := by
        intro c hc
        rcases List.mem_append.mp hc with hc | hc
        · exact hlead c hc
        · exact htrail c hc
      rw [hsplit, rdropWhile_blank ⟨name, 58, rfl, rfl⟩ hblank]
      simp
    · refine ⟨lead, hlead, ?_⟩
      obtain ⟨front, c, hlast, hc⟩ := hvalue.last
      have hsplit : name ++ 58 :: (lead ++ (value ++ trail)) =
          (name ++ 58 :: (lead ++ value)) ++ trail := by
        simp
      rw [hsplit]
      apply rdropWhile_blank _ htrail
      exact ⟨name ++ 58 :: (lead ++ front), c, by simp [hlast], hc⟩
  obtain ⟨lead', hlead', hline⟩ := htrim
  have hname : ∀ c ∈ name, decide (c ≠ 58) = true := by
    intro c hc
    rw [decide_eq_true_eq]
    rintro rfl
    exact hcolon hc
  have hkey : (name ++ 58 :: (lead' ++ value)).takeWhile (· ≠ 58) = name := by
    rw [List.takeWhile_append_of_pos hname]
    simp
  have hrest : (name ++ 58 :: (lead' ++ value)).dropWhile (· ≠ 58) = 58 :: (lead' ++ value) := by
    rw [List.dropWhile_append_of_pos hname]
    simp
  simp only [parseHeaderLine, hline, hkey, hrest, dropWhile_blank hlead' hvalue]
  rcases eq_or_ne value [] with hnone | hsome
  · rw [if_neg (not_not.mpr hnone), if_pos hnone]
  · rw [if_pos hsome, if_neg hsome]

theorem parseHeaderLine_line (field : HeaderField) :
    parseHeaderLine field.line =
      some (if field.value = [] then none else some (field.name, field.value)) :=
  parseHeaderLine_of_parts field.name_colon field.lead_blank field.value_solid field.trail_blank

theorem HeaderField.headerLine (field : HeaderField) : HeaderLine field.line where
  nonempty := by simp [HeaderField.line]
  crlf := by
    have hblank : ∀ s : Bytes, Blank s → 13 ∉ s := by
      intro s hs hc
      exact absurd (hs 13 hc) (by decide)
    apply not_isInfix_CRLF
    simp [HeaderField.line, field.name_cr, field.value_cr, hblank _ field.lead_blank,
      hblank _ field.trail_blank]

theorem headerLine_fields (fields : List HeaderField) :
    ∀ line ∈ fields.map HeaderField.line, HeaderLine line := by
  intro line hline
  obtain ⟨field, -, rfl⟩ := List.mem_map.mp hline
  exact field.headerLine

theorem foldlM_addHeaderLine (fields : List HeaderField) (headers : Headers) :
    (fields.map HeaderField.line).foldlM addHeaderLine headers =
      some (headerTable headers fields) := by
  induction fields generalizing headers with
  | nil => rfl
  | cons field fields ih =>
      have hline : addHeaderLine headers field.line =
          some (if field.value = [] then headers else headers.set field.name field.value) := by
        rw [addHeaderLine, parseHeaderLine_line, Option.map_some]
        rcases eq_or_ne field.value [] with hvalue | hvalue
        · rw [if_pos hvalue, if_pos hvalue]
        · rw [if_neg hvalue, if_neg hvalue]
      rw [List.map_cons, List.foldlM_cons, hline]
      exact ih _

theorem parseHeaders_of_lines (request : HttpRequest) {lines : List Bytes}
    (hlines : ∀ line ∈ lines, HeaderLine line) {headers : Headers}
    (hfold : lines.foldlM addHeaderLine request.headers = some headers) {rest : Bytes}
    (hbuffer : request.buffer = headerBlock lines ++ rest) :
    parseHeaders request = (true, { request with headers, buffer := rest }) := by
  have hfuel : lines.length < request.buffer.length + 1 := by
    have hblock := length_le_headerBlock lines
    rw [hbuffer, List.length_append]
    omega
  apply parseHeadersLoop_eq_true_iff.mpr
  refine ⟨_, rest, ?_, rfl⟩
  rw [hbuffer] at hfuel ⊢
  exact readLines_whole hlines hfuel hfold rest

theorem parseHeaders_whole (request : HttpRequest) {fields : List HeaderField} {rest : Bytes}
    (hbuffer : request.buffer = headerBlock (fields.map HeaderField.line) ++ rest) :
    parseHeaders request =
      (true, { request with headers := headerTable request.headers fields, buffer := rest }) :=
  parseHeaders_of_lines request (headerLine_fields fields)
    (foldlM_addHeaderLine fields request.headers) hbuffer

theorem parseHeaders_partial (request : HttpRequest) {fields : List HeaderField} {rest : Bytes}
    (hstart : request.buffer <+: headerBlock (fields.map HeaderField.line) ++ rest)
    (hlength : request.buffer.length < (headerBlock (fields.map HeaderField.line)).length) :
    (parseHeaders request).1 = false := by
  have hnone := readLines_partial addHeaderLine (headerLine_fields fields)
    (request.buffer.length + 1) request.headers hstart hlength
  rcases hparsed : parseHeaders request with ⟨_ | _, request'⟩
  · rfl
  · obtain ⟨headers, tail, hread, -⟩ := parseHeadersLoop_eq_true_iff.mp hparsed
    rw [hread] at hnone
    exact absurd hnone (Option.some_ne_none _)

end HeaderLines

section Body

theorem isDigit_spec {c : UInt8} (hc : isDigit c = true) : isspace c = false ∧ c ≠ 45 ∧ c ≠ 43 := by
  simp only [isDigit, decide_eq_true_eq] at hc
  refine ⟨?_, ?_, ?_⟩
  · simp only [isspace, decide_eq_false_iff_not]
    grind
  · rintro rfl
    exact absurd hc (by decide)
  · rintro rfl
    exact absurd hc (by decide)

theorem stoul_digits {value : Bytes} {length : Nat} (hvalue : IsLength value length)
    (hlength : length < 2 ^ 64) : stoul value = .ok length := by
  obtain ⟨c, rest, rfl⟩ := List.exists_cons_of_ne_nil hvalue.nonempty
  obtain ⟨hspace, hminus, hplus⟩ := isDigit_spec (hvalue.digits c List.mem_cons_self)
  have htake : (c :: rest).takeWhile isDigit = c :: rest :=
    List.takeWhile_eq_self_iff.mpr hvalue.digits
  have hsmall : ¬digitsValue (c :: rest) ≥ 2 ^ 64 := by
    rw [hvalue.length_eq]
    omega
  rw [stoul, List.dropWhile_cons_of_neg (by simp [hspace])]
  split
  rename_i negative s hsign
  split at hsign
  · rename_i heq
    exact absurd (List.cons.inj heq).1 hminus
  · rename_i heq
    exact absurd (List.cons.inj heq).1 hplus
  · obtain ⟨rfl, rfl⟩ := Prod.mk.inj hsign
    simp only [htake]
    rw [if_neg (List.cons_ne_nil _ _), if_neg hsmall, if_neg Bool.false_ne_true, hvalue.length_eq]

variable (wire : WireRequest)

theorem isMultipartFormData_eq_false {request : HttpRequest}
    (hheaders : request.headers = headerTable [] wire.fields) :
    isMultipartFormData request = false := by
  rw [isMultipartFormData, hheaders]
  cases hfound : Headers.find (headerTable [] wire.fields) CONTENT_TYPE with
  | none => rfl
  | some contentType => exact decide_eq_false (wire.not_multipart contentType hfound)

/-- Without a `Content-Length` nothing may follow the request, for it would be taken as its body. -/
def Delimited (rest : Bytes) : Prop :=
  (headerTable [] wire.fields).find CONTENT_LENGTH = none → rest = []

theorem parseBody_whole {request : HttpRequest} {rest : Bytes} (hrest : Delimited wire rest)
    (hheaders : request.headers = headerTable [] wire.fields)
    (hbuffer : request.buffer = wire.body ++ rest) :
    parseBody request = .ok (true, { request with
      headers := wire.data.headers, body := wire.body, buffer := rest }) := by
  rw [parseBody, isMultipartFormData_eq_false wire hheaders, if_neg Bool.false_ne_true, hheaders,
    hbuffer, WireRequest.data]
  cases hfound : Headers.find (headerTable [] wire.fields) CONTENT_LENGTH with
  | none =>
      rw [hrest hfound, wire.no_content_length hfound]
      simp [Headers.at, hfound]
  | some value =>
      have hlength := wire.content_length value hfound
      simp only [Headers.at, hfound, if_neg hlength.nonempty, stoul_digits hlength wire.body_lt]
      simp [bind, Except.bind, pure, Except.pure]

theorem parseBody_partial {request : HttpRequest}
    (hheaders : request.headers = headerTable [] wire.fields)
    (hlength : request.buffer.length < wire.body.length) :
    ∃ request', parseBody request = .ok (false, request') := by
  rw [parseBody, isMultipartFormData_eq_false wire hheaders, if_neg Bool.false_ne_true, hheaders]
  cases hfound : Headers.find (headerTable [] wire.fields) CONTENT_LENGTH with
  | none =>
      rw [wire.no_content_length hfound, List.length_nil] at hlength
      omega
  | some value =>
      have hvalue := wire.content_length value hfound
      simp only [Headers.at, hfound, if_neg hvalue.nonempty, stoul_digits hvalue wire.body_lt]
      simp [bind, Except.bind, pure, Except.pure, hlength]

end Body

section Request

variable (wire : WireRequest)

theorem parseRequest_whole (rest : Bytes) (hrest : Delimited wire rest) :
    parseRequest (wire.encode ++ rest) = .ok (true, { HttpRequest.init rest with
      toRequestData := wire.data }) := by
  have hbuffer : wire.encode ++ rest = wire.line ++ (CRLF ++
      (headerBlock (wire.fields.map HeaderField.line) ++ (wire.body ++ rest))) := by
    simp [WireRequest.encode, WireRequest.head]
  rw [parseRequest, hbuffer, parseRequestStartingLine_whole]
  simp only [parseHeaders_whole { HttpRequest.init _ with
    method := wire.method, path := wire.path, version := wire.version } rfl]
  rw [parseBody_whole wire hrest rfl rfl]
  rfl

theorem parseRequest_partial {buffer : Bytes} (hstart : buffer <+: wire.encode)
    (hlength : buffer.length < wire.encode.length) :
    ∃ request, parseRequest buffer = .ok (false, request) := by
  have hencode : wire.encode = wire.line ++ (CRLF ++
      (headerBlock (wire.fields.map HeaderField.line) ++ wire.body)) := by
    simp [WireRequest.encode, WireRequest.head]
  rw [hencode] at hstart hlength
  rcases Nat.lt_or_ge buffer.length (wire.line.length + 2) with hshort | hline
  · rw [parseRequest, parseRequestStartingLine_partial wire hstart hshort]
    exact ⟨_, rfl⟩
  · obtain ⟨tail, rfl, htail⟩ := exists_tail_of_line hstart hline
    rw [parseRequest, parseRequestStartingLine_whole]
    rcases Nat.lt_or_ge tail.length (headerBlock (wire.fields.map HeaderField.line)).length
      with hshort | hblock
    · have hfailed := parseHeaders_partial { HttpRequest.init tail with
        method := wire.method, path := wire.path, version := wire.version } htail hshort
      rcases hparsed : parseHeaders { HttpRequest.init tail with
        method := wire.method, path := wire.path, version := wire.version } with ⟨_ | _, request⟩
      · simp only [hparsed]
        exact ⟨_, rfl⟩
      · rw [hparsed] at hfailed
        exact absurd hfailed (by simp)
    · obtain ⟨body, rfl, -⟩ := exists_tail_of_isPrefix htail hblock
      simp only [parseHeaders_whole { HttpRequest.init _ with
        method := wire.method, path := wire.path, version := wire.version } rfl]
      apply parseBody_partial wire rfl
      simpa [HttpRequest.init] using hlength

end Request

end Cooper.HttpEncoding

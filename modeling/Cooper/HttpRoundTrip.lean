import Cooper.HttpContentLength

namespace Cooper.HttpRoundTrip

open Cooper.Http
open Cooper.HttpContentLength
open Cooper.HttpEncoding
open Cooper.LineBlock
open Cooper.ListSearch
open Cooper.MsgBuffer
open Cooper.Utilities

section Model

structure Header where
  name : Bytes
  value : Bytes
  name_nonempty : name ≠ []
  name_colon : 58 ∉ name
  name_crlf : ¬CRLF <:+: name
  value_solid : Solid value
  value_crlf : ¬CRLF <:+: value

def Header.line (header : Header) : Bytes := header.name ++ 58 :: 32 :: header.value

def SameName (s t : Bytes) : Prop := s.map tolower = t.map tolower

structure Request where
  method : Bytes
  path : Bytes
  version : Bytes
  headers : List Header
  body : Bytes
  method_mem : method ∈ methods
  path_nonempty : path ≠ []
  path_text : ∀ c ∈ path, isSpaceOrTab c = false ∧ c ≠ 13 ∧ c ≠ 10
  version_mem : version ∈ [ascii "HTTP/1.1", ascii "HTTP/1.0"]
  distinct : headers.Pairwise fun header other => ¬SameName header.name other.name
  content_length : ∃ header ∈ headers,
    SameName CONTENT_LENGTH header.name ∧ IsLength header.value body.length
  not_multipart : ∀ header ∈ headers, SameName CONTENT_TYPE header.name →
    ¬ascii "multipart/form-data" <+: header.value
  body_lt : body.length < 2 ^ 64

def Request.serialize (request : Request) : Bytes :=
  request.method ++ ascii " " ++ request.path ++ ascii " " ++ request.version ++ CRLF ++
    request.headers.flatMap (fun header => header.name ++ ascii ": " ++ header.value ++ CRLF) ++
    CRLF ++ request.body

def Request.line (request : Request) : Bytes :=
  request.method ++ 32 :: (request.path ++ 32 :: request.version)

def Request.entries (request : Request) : Headers :=
  request.headers.map fun header => (header.name, header.value)

/-- What the parsing functions have made of a request with `trailing` behind it. -/
structure ReadBack (request : Request) (trailing : Bytes) (parsed : HttpRequest) : Prop where
  method : parsed.method = request.method
  path : parsed.path = request.path
  version : parsed.version = request.version
  entries : parsed.headers = request.entries
  find_iff : ∀ key ≠ [], ∀ value, parsed.headers.find key = some value ↔
    ∃ header ∈ request.headers, SameName key header.name ∧ header.value = value
  body : parsed.body = request.body
  buffer : parsed.buffer = trailing

end Model

section Lines

theorem isInfix_append_cons {α : Type*} {l front rest : List α} {x : α} (hx : x ∉ l)
    (h : l <:+: front ++ x :: rest) : l <:+: front ∨ l <:+: rest := by
  rcases List.infix_append_iff.mp h with hfront | hrest | ⟨left, right, rfl, hleft, hright⟩
  · exact .inl hfront
  · rcases List.infix_cons_iff.mp hrest with hstart | hrest
    · cases l with
      | nil => exact .inl List.nil_infix
      | cons y l =>
          obtain ⟨rfl, -⟩ := List.cons_prefix_cons.mp hstart
          exact absurd List.mem_cons_self hx
    · exact .inr hrest
  · cases right with
    | nil =>
        rw [List.append_nil]
        exact .inl hleft.isInfix
    | cons y right =>
        obtain ⟨rfl, -⟩ := List.cons_prefix_cons.mp hright
        exact absurd (List.mem_append_right left List.mem_cons_self) hx

theorem Header.headerLine (header : Header) : HeaderLine header.line where
  nonempty := by simp [Header.line]
  crlf := by
    intro hin
    rcases isInfix_append_cons (by decide) hin with hname | hvalue
    · exact header.name_crlf hname
    · rcases List.infix_cons_iff.mp hvalue with hblank | hvalue
      · exact absurd hblank (by simp [CRLF_eq])
      · exact header.value_crlf hvalue

theorem parseHeaderLine_header (header : Header) :
    parseHeaderLine header.line = some (some (header.name, header.value)) := by
  obtain ⟨c, rest, hvalue, -⟩ := header.value_solid.head
  have hblank : Blank [32] := by decide
  have hparts := parseHeaderLine_of_parts header.name_colon hblank (.inr header.value_solid)
    Blank.nil
  rw [List.append_nil, if_neg (by simp [hvalue])] at hparts
  exact hparts

theorem set_of_absent {headers : Headers} {key : Bytes}
    (habsent : ∀ entry ∈ headers, sameKey key entry.1 = false) (value : Bytes) :
    headers.set key value = headers ++ [(key, value)] := by
  induction headers with
  | nil => rfl
  | cons entry headers ih =>
      have hentry := habsent entry List.mem_cons_self
      rw [Headers.set, hentry, if_neg Bool.false_ne_true,
        ih fun entry hmem => habsent entry (List.mem_cons_of_mem _ hmem)]
      rfl

theorem foldlM_headers {headers : List Header} {table : Headers}
    (hdistinct : headers.Pairwise fun header other => ¬SameName header.name other.name)
    (habsent : ∀ header ∈ headers, ∀ entry ∈ table, ¬SameName header.name entry.1) :
    (headers.map Header.line).foldlM addHeaderLine table =
      some (table ++ headers.map fun header => (header.name, header.value)) := by
  induction headers generalizing table with
  | nil => simp
  | cons header headers ih =>
      obtain ⟨hhead, htail⟩ := List.pairwise_cons.mp hdistinct
      have hother : ∀ entry ∈ table, sameKey header.name entry.1 = false := by
        intro entry hentry
        rw [sameKey_eq header.name_nonempty]
        exact decide_eq_false (habsent header List.mem_cons_self entry hentry)
      have hset := set_of_absent hother header.value
      have hrest : ∀ other ∈ headers, ∀ entry ∈ table ++ [(header.name, header.value)],
          ¬SameName other.name entry.1 := by
        intro other hother entry hentry
        rcases List.mem_append.mp hentry with hold | hnew
        · exact habsent other (List.mem_cons_of_mem _ hother) entry hold
        · rw [List.mem_singleton.mp hnew]
          exact fun hsame => hhead other hother hsame.symm
      rw [List.map_cons, List.foldlM_cons, addHeaderLine, parseHeaderLine_header]
      simp only [Option.map_some, bind, Option.bind_some, hset]
      rw [ih htail hrest, List.append_assoc]
      rfl

theorem find_entries_iff {headers : List Header}
    (hdistinct : headers.Pairwise fun header other => ¬SameName header.name other.name)
    {key : Bytes} (hkey : key ≠ []) (value : Bytes) :
    Headers.find (headers.map fun header => (header.name, header.value)) key = some value ↔
      ∃ header ∈ headers, SameName key header.name ∧ header.value = value := by
  induction headers with
  | nil => simp [Headers.find]
  | cons header headers ih =>
      obtain ⟨hhead, htail⟩ := List.pairwise_cons.mp hdistinct
      rw [List.map_cons, Headers.find, List.find?_cons]
      simp only [sameKey_eq hkey, List.exists_mem_cons_iff]
      by_cases hsame : SameName key header.name
      · rw [SameName] at hsame
        simp only [hsame, decide_true, Option.map_some, Option.some.injEq]
        constructor
        · intro hvalue
          exact .inl ⟨hsame, hvalue⟩
        · rintro (⟨-, hvalue⟩ | ⟨other, hother, hname, -⟩)
          · exact hvalue
          · exact absurd (hsame.symm.trans hname) (hhead other hother)
      · have hrest := ih htail
        rw [Headers.find] at hrest
        simp only [sameKey_eq hkey, SameName] at hrest hsame ⊢
        simp only [hsame, decide_false, false_and, false_or]
        exact hrest

end Lines

section RoundTrip

variable (request : Request)

theorem Request.serialize_eq :
    request.serialize = request.line ++
      (CRLF ++ (headerBlock (request.headers.map Header.line) ++ request.body)) := by
  have hblock : ∀ headers : List Header,
      headers.flatMap (fun header => header.name ++ ascii ": " ++ header.value ++ CRLF) ++ CRLF =
        headerBlock (headers.map Header.line) := by
    intro headers
    induction headers with
    | nil => rfl
    | cons header headers ih =>
        rw [List.map_cons, headerBlock_cons, ← ih, Header.line]
        simp [ascii]
  rw [← hblock, Request.serialize, Request.line]
  simp [ascii]

theorem Request.isMultipartFormData_eq_false {parsed : HttpRequest}
    (hheaders : parsed.headers = request.entries) : isMultipartFormData parsed = false := by
  rw [isMultipartFormData, hheaders, Request.entries]
  split
  · rfl
  · rename_i contentType hfind
    obtain ⟨header, hmem, hname, rfl⟩ :=
      (find_entries_iff request.distinct (by decide) contentType).mp hfind
    exact decide_eq_false (request.not_multipart header hmem hname)

theorem Request.parseBody_eq {parsed : HttpRequest} {trailing : Bytes}
    (hheaders : parsed.headers = request.entries)
    (hbuffer : parsed.buffer = request.body ++ trailing) :
    parseBody parsed = .ok (true, { parsed with body := request.body, buffer := trailing }) := by
  obtain ⟨header, hmem, hname, hlength⟩ := request.content_length
  have hfind : parsed.headers.find CONTENT_LENGTH = some header.value := by
    rw [hheaders]
    exact (find_entries_iff request.distinct (by decide) _).mpr ⟨header, hmem, hname, rfl⟩
  rw [parseBody_of_length (request.isMultipartFormData_eq_false hheaders) hfind hlength.nonempty,
    stoul_digits hlength request.body_lt, Except.bind, hbuffer, if_neg (by simp), List.take_left,
    List.drop_left]

/-- What is written is read back, whatever lies behind it. -/
theorem parse_serialize (trailing : Bytes) :
    ∃ first second parsed,
      parseRequestStartingLine (HttpRequest.init (request.serialize ++ trailing)) = (true, first) ∧
      parseHeaders first = (true, second) ∧ parseBody second = .ok (true, parsed) ∧
      ReadBack request trailing parsed := by
  have hpath := isWord_of_forall request.path_nonempty fun c hc =>
    ⟨(request.path_text c hc).1, (request.path_text c hc).2.1⟩
  have hmethod := isWord_method request.method_mem
  have hversion := isWord_version request.version_mem
  have hbuffer : request.serialize ++ trailing = request.line ++ (CRLF ++
      (headerBlock (request.headers.map Header.line) ++ (request.body ++ trailing))) := by
    simp [request.serialize_eq]
  have hlines : ∀ line ∈ request.headers.map Header.line, HeaderLine line := by
    intro line hline
    obtain ⟨header, -, rfl⟩ := List.mem_map.mp hline
    exact header.headerLine
  have hfold : (request.headers.map Header.line).foldlM addHeaderLine [] = some request.entries :=
    foldlM_headers request.distinct (by simp)
  rw [hbuffer]
  refine ⟨_, _, _, parseRequestStartingLine_of_words
    (not_isInfix_words hmethod hpath hversion) (split_words hmethod hpath hversion)
    request.method_mem (by simpa using request.version_mem) _,
    parseHeaders_of_lines _ hlines hfold rfl, request.parseBody_eq rfl rfl, ?_⟩
  exact ⟨rfl, rfl, rfl, rfl, fun key hkey value => find_entries_iff request.distinct hkey value,
    rfl, rfl⟩

def hostHeader : Header where
  name := ascii "Host"
  value := ascii "a b"
  name_nonempty := by decide
  name_colon := by decide
  name_crlf := by decide
  value_solid := ⟨⟨97, ascii " b", rfl, by decide⟩, ⟨ascii "a ", 98, rfl, by decide⟩⟩
  value_crlf := by decide

def typeHeader : Header where
  name := ascii "content-type"
  value := ascii "text/plain"
  name_nonempty := by decide
  name_colon := by decide
  name_crlf := by decide
  value_solid :=
    ⟨⟨116, ascii "ext/plain", rfl, by decide⟩, ⟨ascii "text/plai", 110, rfl, by decide⟩⟩
  value_crlf := by decide

def lengthHeader : Header where
  name := ascii "Content-Length"
  value := ascii "12"
  name_nonempty := by decide
  name_colon := by decide
  name_crlf := by decide
  value_solid := ⟨⟨49, ascii "2", rfl, by decide⟩, ⟨ascii "1", 50, rfl, by decide⟩⟩
  value_crlf := by decide

theorem httpVersion_mem : ascii "HTTP/1.1" ∈ [ascii "HTTP/1.1", ascii "HTTP/1.0"] := by decide

def postRequest : Request where
  method := ascii "POST"
  path := ascii "/notes"
  version := ascii "HTTP/1.1"
  headers := [hostHeader, typeHeader, lengthHeader]
  body := ascii "a: b\r\n\r\nc d" ++ [0]
  method_mem := by decide
  path_nonempty := by decide
  path_text := by decide
  version_mem := httpVersion_mem
  distinct := by
    unfold SameName
    decide
  content_length := by
    refine ⟨lengthHeader, by simp, ?_, by decide⟩
    rfl
  not_multipart := by
    unfold SameName
    decide
  body_lt := by decide

example : postRequest.serialize = ascii ("POST /notes HTTP/1.1\r\nHost: a b\r\n" ++
    "content-type: text/plain\r\nContent-Length: 12\r\n\r\na: b\r\n\r\nc d") ++ [0] := by
  decide

theorem parse_serialize_postRequest :
    ∃ first second parsed,
      parseRequestStartingLine (HttpRequest.init (postRequest.serialize ++ ascii "GET /")) =
        (true, first) ∧
      parseHeaders first = (true, second) ∧ parseBody second = .ok (true, parsed) ∧
      ReadBack postRequest (ascii "GET /") parsed :=
  parse_serialize postRequest (ascii "GET /")

end RoundTrip

end Cooper.HttpRoundTrip

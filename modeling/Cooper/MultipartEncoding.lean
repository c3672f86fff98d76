import Cooper.LineBlock
import Cooper.Multipart
import Cooper.Splitting

namespace Cooper.MultipartEncoding

open Cooper.ListSearch
open Cooper.LineBlock
open Cooper.MsgBuffer
open Cooper.Splitting (split_one split_two)
open Cooper.Utilities
open Cooper.Multipart

structure ParamText (s : Bytes) : Prop where
  quote : 34 ∉ s
  semicolon : 59 ∉ s
  equals : 61 ∉ s
  cr : 13 ∉ s
  lf : 10 ∉ s

def crlfDashBoundary (boundary : Bytes) : Bytes := CRLF ++ dash ++ boundary

structure Part (boundary : Bytes) where
  name : Bytes
  filename : Option Bytes
  contentType : Option Bytes
  content : Bytes
  name_text : ParamText name
  filename_text : ∀ value ∈ filename, ParamText value
  contentType_line : ∀ value ∈ contentType, 13 ∉ value
  content_free : ¬crlfDashBoundary boundary <:+: content

def param (key value : Bytes) : Bytes := key ++ 61 :: (34 :: (value ++ [34]))

def params (name : Bytes) : Option Bytes → Bytes
  | none => param (ascii "name") name
  | some filename =>
      param (ascii "name") name ++ 59 :: ([32] ++ param (ascii "filename") filename)

def dispositionLine (name : Bytes) (filename : Option Bytes) : Bytes :=
  ascii "Content-Disposition: form-data; " ++ params name filename

def contentTypeLine (contentType : Bytes) : Bytes :=
  ascii "Content-Type: " ++ contentType

variable {boundary : Bytes}

def Part.lines (part : Part boundary) : List Bytes :=
  match part.contentType with
  | none => [dispositionLine part.name part.filename]
  | some contentType => [dispositionLine part.name part.filename, contentTypeLine contentType]

def Part.file (part : Part boundary) : MultipartFormData where
  name := part.name
  filename := part.filename.getD []
  contentType := (part.contentType.map fun contentType => trimCopy (32 :: contentType)).getD []

/-- What follows a delimiter when these parts are still to come. -/
def encodeRest (epilogue : Bytes) : List (Part boundary) → Bytes
  | [] => dash ++ epilogue
  | part :: parts =>
      CRLF ++ (headerBlock part.lines ++ (part.content ++ (crlfDashBoundary boundary ++
        encodeRest epilogue parts)))

/-- The body with these parts. Whatever follows the closing delimiter is the epilogue. -/
def encodeBody (epilogue : Bytes) (parts : List (Part boundary)) : Bytes :=
  dash ++ boundary ++ encodeRest epilogue parts

section Params

theorem solid_quoted (value : Bytes) : Solid (34 :: (value ++ [34])) where
  head := ⟨34, value ++ [34], rfl, rfl⟩
  last := ⟨34 :: value, 34, rfl, rfl⟩

theorem param_solid {key : Bytes} (hkey : Solid key) (value : Bytes) : Solid (param key value) where
  head := by
    obtain ⟨c, rest, rfl, hc⟩ := hkey.head
    exact ⟨c, rest ++ 61 :: (34 :: (value ++ [34])), rfl, hc⟩
  last := ⟨key ++ 61 :: (34 :: value), 34, by simp [param], rfl⟩

theorem keyVal_param {key value : Bytes} (hkey : Solid key) (hequals : 61 ∉ key)
    (hvalue : 61 ∉ value) :
    keyVal (split (param key value) 61) = (key, 34 :: (value ++ [34])) := by
  have hsplit : split (param key value) 61 = [key, 34 :: (value ++ [34])] :=
    split_two hkey hequals Blank.nil (solid_quoted value) (by simpa using hvalue)
  obtain ⟨c, rest, rfl, -⟩ := hkey.head
  rw [hsplit]
  rfl

theorem solid_name : Solid (ascii "name") where
  head := ⟨110, ascii "ame", by decide, rfl⟩
  last := ⟨ascii "nam", 101, by decide, rfl⟩

theorem solid_filename : Solid (ascii "filename") where
  head := ⟨102, ascii "ilename", by decide, rfl⟩
  last := ⟨ascii "filenam", 101, by decide, rfl⟩

theorem not_mem_param {c : UInt8} {key value : Bytes} (hkey : c ∉ key) (hequals : c ≠ 61)
    (hquote : c ≠ 34) (hvalue : c ∉ value) : c ∉ param key value := by
  simp [param, hkey, hequals, hquote, hvalue]

theorem keyVal_name {name : Bytes} (hname : ParamText name) :
    keyVal (split (param (ascii "name") name) 61) = (ascii "name", 34 :: (name ++ [34])) :=
  keyVal_param solid_name (by decide) hname.equals

theorem keyVal_filename {filename : Bytes} (hfilename : ParamText filename) :
    keyVal (split (param (ascii "filename") filename) 61) =
      (ascii "filename", 34 :: (filename ++ [34])) :=
  keyVal_param solid_filename (by decide) hfilename.equals

theorem parseDispositionParams_params {name : Bytes} (hname : ParamText name)
    {filename : Option Bytes} (hfilename : ∀ value ∈ filename, ParamText value) :
    parseDispositionParams (params name filename) =
      (ascii "name", name) :: (filename.map fun value => (ascii "filename", value)).toList := by
  have hsolid := param_solid solid_name name
  have hsemicolon : 59 ∉ param (ascii "name") name :=
    not_mem_param (by decide) (by decide) (by decide) hname.semicolon
  have htrim : trimDoubleQuotesCopy (ascii "name") = ascii "name" := by decide
  cases filename with
  | none =>
      rw [params, parseDispositionParams, split_one hsolid hsemicolon]
      simp [List.eraseDups_cons, keyVal_name hname, htrim, trimDoubleQuotesCopy_quoted,
        show ascii "name" ≠ [] by decide]
  | some filename =>
      have htext : ParamText filename := hfilename filename rfl
      have hsolid' := param_solid solid_filename filename
      have hsemicolon' : 59 ∉ param (ascii "filename") filename :=
        not_mem_param (by decide) (by decide) (by decide) htext.semicolon
      have htrim' : trimDoubleQuotesCopy (ascii "filename") = ascii "filename" := by decide
      have hblank : Blank [32] := by
        intro c hc
        rw [List.mem_singleton.mp hc]
        rfl
      have hne : param (ascii "filename") filename ≠ param (ascii "name") name := by
        intro heq
        have hhead : some (102 : UInt8) = some 110 := congrArg List.head? heq
        exact absurd hhead (by decide)
      rw [params, parseDispositionParams, split_two hsolid hsemicolon hblank hsolid'
        (by simpa using hsemicolon')]
      simp [List.eraseDups_cons, hne, keyVal_name hname, keyVal_filename htext, htrim, htrim',
        trimDoubleQuotesCopy_quoted, show ascii "name" ≠ [] by decide,
        show ascii "filename" ≠ [] by decide]

theorem startWithCaseIgnore_append {a b : Bytes} (hlength : a.length = b.length) (rest : Bytes) :
    startWithCaseIgnore (a ++ rest) b = decide (a.map tolower = b.map tolower) := by
  rw [startWithCaseIgnore, if_neg (by rw [List.length_append]; omega), ← hlength, List.take_left]

theorem params_head (name : Bytes) (filename : Option Bytes) :
    ∃ rest, params name filename = 110 :: rest := by
  cases filename with
  | none => exact ⟨_, rfl⟩
  | some filename => exact ⟨_, rfl⟩

theorem not_mem_params {c : UInt8} (hc : c = 13 ∨ c = 10) {name : Bytes} (hname : c ∉ name)
    {filename : Option Bytes} (hfilename : ∀ value ∈ filename, c ∉ value) :
    c ∉ params name filename := by
  have hkey : c ∉ ascii "name" ∧ c ∉ ascii "filename" ∧ c ≠ 61 ∧ c ≠ 34 ∧ c ≠ 59 ∧ c ≠ 32 := by
    rcases hc with rfl | rfl <;> decide
  obtain ⟨hkey, hkey', hequals, hquote, hsemicolon, hblank⟩ := hkey
  have hparam := not_mem_param hkey hequals hquote hname
  cases filename with
  | none => exact hparam
  | some filename =>
      have hparam' := not_mem_param hkey' hequals hquote (hfilename filename rfl)
      simp [params, hparam, hparam', hsemicolon, hblank]

theorem reContentDisposition_dispositionLine {name : Bytes} {filename : Option Bytes}
    (hcr : 13 ∉ params name filename) (hlf : 10 ∉ params name filename) :
    reContentDisposition (dispositionLine name filename) = some (params name filename) := by
  have hline : dispositionLine name filename = ascii "Content-Disposition:" ++
      (32 :: (ascii "form-data;" ++ (32 :: params name filename))) := by
    rw [dispositionLine, show ascii "Content-Disposition: form-data; " =
      ascii "Content-Disposition:" ++ (32 :: (ascii "form-data;" ++ [32])) by decide]
    simp
  have hdrop : (dispositionLine name filename).drop 20 =
      32 :: (ascii "form-data;" ++ (32 :: params name filename)) := by
    rw [hline]
    exact List.drop_left' (by decide)
  have hblanks : (32 :: (ascii "form-data;" ++ (32 :: params name filename))).dropWhile isspace =
      ascii "form-data;" ++ (32 :: params name filename) := rfl
  have hdrop' : (ascii "form-data;" ++ (32 :: params name filename)).drop 10 =
      32 :: params name filename := List.drop_left' (by decide)
  have hblanks' : (32 :: params name filename).dropWhile isspace = params name filename := by
    obtain ⟨rest, hrest⟩ := params_head name filename
    rw [hrest]
    rfl
  have hstart : startWithCaseIgnore (dispositionLine name filename)
      (ascii "Content-Disposition:") = true := by
    rw [hline, startWithCaseIgnore_append rfl]
    exact decide_eq_true rfl
  have hstart' : startWithCaseIgnore (ascii "form-data;" ++ (32 :: params name filename))
      (ascii "form-data;") = true := by
    rw [startWithCaseIgnore_append rfl]
    exact decide_eq_true rfl
  unfold reContentDisposition
  rw [if_pos hstart, hdrop, hblanks]
  simp only [hstart', hdrop', hblanks', hcr, hlf, or_self, if_true, if_false]

theorem parsePartHeader_dispositionLine (file : MultipartFormData) {name : Bytes}
    (hname : ParamText name) {filename : Option Bytes}
    (hfilename : ∀ value ∈ filename, ParamText value) :
    parsePartHeader file (dispositionLine name filename) =
      some { file with name, filename := filename.getD file.filename } := by
  have hstart : startWithCaseIgnore (dispositionLine name filename) (ascii "content-type:") =
      false := by
    rw [dispositionLine, show ascii "Content-Disposition: form-data; " =
      ascii "Content-Dispo" ++ ascii "sition: form-data; " by decide, List.append_assoc,
      startWithCaseIgnore_append (by decide)]
    decide
  have hcr : 13 ∉ params name filename :=
    not_mem_params (.inl rfl) hname.cr fun value hvalue => (hfilename value hvalue).cr
  have hlf : 10 ∉ params name filename :=
    not_mem_params (.inr rfl) hname.lf fun value hvalue => (hfilename value hvalue).lf
  have hkey : ascii "name" ≠ ascii "filename" := by decide
  unfold parsePartHeader
  rw [hstart, reContentDisposition_dispositionLine hcr hlf]
  cases filename with
  | none => simp [parseDispositionParams_params hname hfilename, findParam, hkey]
  | some filename => simp [parseDispositionParams_params hname hfilename, findParam, hkey]

theorem parsePartHeader_contentTypeLine (file : MultipartFormData) (contentType : Bytes) :
    parsePartHeader file (contentTypeLine contentType) =
      some { file with contentType := trimCopy (32 :: contentType) } := by
  have hline : contentTypeLine contentType = ascii "Content-Type:" ++ (32 :: contentType) := by
    rw [contentTypeLine, show ascii "Content-Type: " = ascii "Content-Type:" ++ [32] by decide]
    simp
  have hstart : startWithCaseIgnore (contentTypeLine contentType) (ascii "content-type:") =
      true := by
    rw [hline, startWithCaseIgnore_append (by decide)]
    decide
  have hdrop : (contentTypeLine contentType).drop 13 = 32 :: contentType := by
    rw [hline]
    exact List.drop_left' (by decide)
  unfold parsePartHeader
  rw [if_pos hstart, hdrop]

theorem foldlM_parsePartHeader (part : Part boundary) :
    part.lines.foldlM parsePartHeader ⟨[], [], []⟩ = some part.file := by
  have hdisposition := parsePartHeader_dispositionLine ⟨[], [], []⟩ part.name_text
    part.filename_text
  unfold Part.lines Part.file
  cases hcontentType : part.contentType with
  | none => simp [hdisposition]
  | some contentType =>
      simp [hdisposition, parsePartHeader_contentTypeLine]

end Params

section HeaderBlock

theorem Part.headerLine (part : Part boundary) : ∀ line ∈ part.lines, HeaderLine line := by
  have hdisposition : HeaderLine (dispositionLine part.name part.filename) := by
    constructor
    · rw [dispositionLine, ne_eq, List.append_eq_nil_iff, not_and_or]
      exact .inl (by decide)
    · apply not_isInfix_CRLF
      rw [dispositionLine, List.mem_append, not_or]
      exact ⟨by decide, not_mem_params (.inl rfl) part.name_text.cr
        fun value hvalue => (part.filename_text value hvalue).cr⟩
  intro line hline
  unfold Part.lines at hline
  cases hcontentType : part.contentType with
  | none =>
      rw [hcontentType] at hline
      rw [List.mem_singleton.mp hline]
      exact hdisposition
  | some contentType =>
      simp only [hcontentType, List.mem_cons, List.not_mem_nil, or_false] at hline
      rcases hline with rfl | rfl
      · exact hdisposition
      · constructor
        · rw [contentTypeLine, ne_eq, List.append_eq_nil_iff, not_and_or]
          exact .inl (by decide)
        · apply not_isInfix_CRLF
          rw [contentTypeLine, List.mem_append, not_or]
          exact ⟨by decide, part.contentType_line contentType hcontentType⟩

theorem parsePartHeaders_eq_true_iff {fuel : Nat} {file file' : MultipartFormData}
    {buffer rest : Bytes} :
    parsePartHeaders fuel file buffer = (true, file', rest) ↔
      readLines parsePartHeader fuel file buffer = some (file', rest) := by
  induction fuel generalizing file buffer with
  | zero => simp [parsePartHeaders, readLines]
  | succ fuel ih =>
      rcases hfind : find buffer CRLF with _ | _ | crlf
      · simp [parsePartHeaders, readLines, hfind]
      · simp [parsePartHeaders, readLines, hfind]
      · cases hnext : parsePartHeader file (buffer.take (crlf + 1)) with
        | none => simp [parsePartHeaders, readLines, hfind, hnext]
        | some next => simpa [parsePartHeaders, readLines, hfind, hnext] using ih

theorem parsePartHeaders_whole {lines : List Bytes} (hlines : ∀ line ∈ lines, HeaderLine line)
    {fuel : Nat} (hfuel : lines.length < fuel) {file file' : MultipartFormData}
    (hfile : lines.foldlM parsePartHeader file = some file') (rest : Bytes) :
    parsePartHeaders fuel file (headerBlock lines ++ rest) = (true, file', rest) :=
  parsePartHeaders_eq_true_iff.mpr (readLines_whole hlines hfuel hfile rest)

theorem parsePartHeaders_partial {lines : List Bytes} (hlines : ∀ line ∈ lines, HeaderLine line)
    (fuel : Nat) (file : MultipartFormData) {buffer rest : Bytes}
    (hstart : buffer <+: headerBlock lines ++ rest)
    (hlength : buffer.length < (headerBlock lines).length) :
    (parsePartHeaders fuel file buffer).1 = false := by
  have hnone := readLines_partial parsePartHeader hlines fuel file hstart hlength
  rcases hparsed : parsePartHeaders fuel file buffer with ⟨_ | _, file', tail⟩
  · rfl
  · rw [parsePartHeaders_eq_true_iff.mp hparsed] at hnone
    exact absurd hnone (Option.some_ne_none _)

theorem exists_lines_of_parsePartHeaders {fuel : Nat} {file file' : MultipartFormData}
    {buffer rest : Bytes} (hparsed : parsePartHeaders fuel file buffer = (true, file', rest)) :
    ∃ lines, (∀ line ∈ lines, HeaderLine line) ∧
      lines.foldlM parsePartHeader file = some file' ∧ buffer = headerBlock lines ++ rest :=
  exists_lines_of_readLines (parsePartHeaders_eq_true_iff.mp hparsed)

end HeaderBlock

end Cooper.MultipartEncoding

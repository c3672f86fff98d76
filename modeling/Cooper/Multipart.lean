import Cooper.TcpConnectionImpl
import Cooper.Utilities
import Cooper.WhileLoop

/-!
`MultipartFormDataParser::parse`: a loop over five states that takes the body of a request from the
receive buffer and, when it lacks data, reads more of it from the socket.
-/

namespace Cooper.Multipart

open Cooper.MsgBuffer
open Cooper.TcpConnectionImpl
open Cooper.Utilities
open Cooper.WhileLoop

structure MultipartFormData where
  name : Bytes
  filename : Bytes
  contentType : Bytes
  deriving DecidableEq

inductive Flag
  | FLAG_FILENAME
  | FLAG_CONTENT
  deriving DecidableEq

/-- One call of the callback that is registered under the name of the part. -/
structure PartCall where
  file : MultipartFormData
  data : Bytes
  flag : Flag
  deriving DecidableEq

inductive ParseState
  | state0
  | state1
  | state2
  | state3
  | state4
  deriving DecidableEq

def dash : Bytes := ascii "--"

structure MultipartFormDataParser where
  dashBoundaryCrlf : Bytes
  crlfDashBoundary : Bytes
  state : ParseState
  file : MultipartFormData
  deriving DecidableEq

def MultipartFormDataParser.init : MultipartFormDataParser where
  dashBoundaryCrlf := []
  crlfDashBoundary := []
  state := .state0
  file := ⟨[], [], []⟩

def setBoundary (parser : MultipartFormDataParser) (boundary : Bytes) : MultipartFormDataParser :=
  { parser with
    dashBoundaryCrlf := dash ++ boundary ++ CRLF
    crlfDashBoundary := CRLF ++ dash ++ boundary }

/-- The variables of the loop, the reads that the socket still answers and the calls made. When
`input` is used up `readFd` is at the end of file. -/
structure LoopState where
  parser : MultipartFormDataParser
  buffer : Bytes
  needToReadMore : Bool
  input : List ReadResult
  calls : List PartCall
  deriving DecidableEq

/-- The results 2, -1 and 1 of `readMore`. -/
inductive ReadMore
  | again
  | failed
  | done
  deriving DecidableEq

def readFd (s : LoopState) : ReadResult × LoopState :=
  match s.input with
  | [] => (.ok [], s)
  | .ok chunk :: input => (.ok chunk, { s with buffer := append s.buffer chunk, input })
  | .error e :: input => (.error e, { s with input })

def readMore (s : LoopState) : ReadMore × LoopState :=
  match readFd s with
  | (.error .EAGAIN, s) => (.again, s)
  | (.error .EPIPE, s) => (.failed, s)
  | (.error .ECONNRESET, s) => (.failed, s)
  | (_, s) => (.done, { s with needToReadMore := false })

def clearFileInfo (parser : MultipartFormDataParser) : MultipartFormDataParser :=
  { parser with file := ⟨[], [], []⟩ }

def startWithCaseIgnore (a b : Bytes) : Bool :=
  if a.length < b.length then false else (a.take b.length).map tolower = b.map tolower

/-- What the group of `^Content-Disposition:\\s*form-data;\\s*(.*)$` captures. A dot matches neither
a carriage return nor a line feed. -/
def reContentDisposition (header : Bytes) : Option Bytes :=
  if startWithCaseIgnore header (ascii "Content-Disposition:") then
    let rest := (header.drop 20).dropWhile isspace
    if startWithCaseIgnore rest (ascii "form-data;") then
      let params := (rest.drop 10).dropWhile isspace
      if 13 ∈ params ∨ 10 ∈ params then none else some params
    else none
  else none

def findParam (params : List (Bytes × Bytes)) (key : Bytes) : Option Bytes :=
  (params.find? fun entry => entry.1 = key).map Prod.snd

/-- A header line of a part; `none` when `parse` returns false for it. -/
def parsePartHeader (file : MultipartFormData) (header : Bytes) : Option MultipartFormData :=
  if startWithCaseIgnore header (ascii "content-type:") then
    some { file with contentType := trimCopy (header.drop 13) }
  else
    match reContentDisposition header with
    | none => none
    | some captured =>
        let params := parseDispositionParams captured
        match findParam params (ascii "name") with
        | none => none
        | some name =>
            let file := { file with name }
            match findParam params (ascii "filename") with
            | none => some file
            | some filename => some { file with filename }

/-- The inner loop of state 2. Its result is whether the blank line has been reached; `fuel` bounds
the lines that are left. -/
def parsePartHeaders : (fuel : Nat) → MultipartFormData → Bytes → Bool × MultipartFormData × Bytes
  | 0, file, buffer => (false, file, buffer)
  | fuel + 1, file, buffer =>
      match find buffer CRLF with
      | none => (false, file, buffer)
      | some 0 => (true, file, retrieve buffer 2)
      | some crlf =>
          match parsePartHeader file (buffer.take crlf) with
          | none => (false, file, buffer)
          | some file => parsePartHeaders fuel file (retrieve buffer (crlf + 2))

/-- Call the callback registered under the name of the part, if there is one. -/
def writeCallback (registered : List Bytes) (data : Bytes) (flag : Flag) (s : LoopState) :
    LoopState :=
  if s.parser.file.name ∈ registered then
    { s with calls := s.calls ++ [⟨s.parser.file, data, flag⟩] }
  else s

section WriteCallback

variable (registered : List Bytes) (data : Bytes) (flag : Flag) (s : LoopState)

@[simp] theorem parser_writeCallback :
    (writeCallback registered data flag s).parser = s.parser := by
  unfold writeCallback
  split <;> rfl

@[simp] theorem buffer_writeCallback :
    (writeCallback registered data flag s).buffer = s.buffer := by
  unfold writeCallback
  split <;> rfl

@[simp] theorem needToReadMore_writeCallback :
    (writeCallback registered data flag s).needToReadMore = s.needToReadMore := by
  unfold writeCallback
  split <;> rfl

@[simp] theorem input_writeCallback :
    (writeCallback registered data flag s).input = s.input := by
  unfold writeCallback
  split <;> rfl

end WriteCallback

def waitForMore (s : LoopState) : LoopState := { s with needToReadMore := true }

def parseState0 (s : LoopState) : LoopState ⊕ Bool × LoopState :=
  if readableBytes s.buffer < s.parser.dashBoundaryCrlf.length then .inl s
  else
    match find s.buffer s.parser.dashBoundaryCrlf with
    | none => .inr (false, s)
    | some i => .inl { s with
        buffer := retrieveUntil s.buffer (i + s.parser.dashBoundaryCrlf.length)
        parser := { s.parser with state := .state1 } }

def parseState1 (s : LoopState) : LoopState ⊕ Bool × LoopState :=
  .inl { s with parser := { clearFileInfo s.parser with state := .state2 } }

def parseState2 (registered : List Bytes) (s : LoopState) : LoopState ⊕ Bool × LoopState :=
  if readableBytes s.buffer < 2 then .inl (waitForMore s)
  else
    match parsePartHeaders s.buffer.length s.parser.file s.buffer with
    | (false, file, buffer) => .inr (false, { s with parser := { s.parser with file }, buffer })
    | (true, file, buffer) =>
        .inl (writeCallback registered [] .FLAG_FILENAME
          { s with parser := { s.parser with file, state := .state3 }, buffer })

def parseState3 (registered : List Bytes) (s : LoopState) : LoopState ⊕ Bool × LoopState :=
  if readableBytes s.buffer < s.parser.crlfDashBoundary.length then .inl (waitForMore s)
  else
    match find s.buffer s.parser.crlfDashBoundary with
    | some len =>
        let s := writeCallback registered (s.buffer.take len) .FLAG_CONTENT s
        .inl { s with
          buffer := retrieve s.buffer (len + s.parser.crlfDashBoundary.length)
          parser := { s.parser with state := .state4 } }
    | none =>
        let len := readableBytes s.buffer - s.parser.crlfDashBoundary.length
        if len > 0 then
          let s := writeCallback registered (s.buffer.take len) .FLAG_CONTENT s
          .inl (waitForMore { s with buffer := retrieve s.buffer len })
        else .inl (waitForMore s)

def parseState4 (s : LoopState) : LoopState ⊕ Bool × LoopState :=
  if readableBytes s.buffer < 2 then .inl (waitForMore s)
  else if find s.buffer CRLF = some 0 then
    .inl { s with buffer := retrieve s.buffer 2, parser := { s.parser with state := .state1 } }
  else if readableBytes s.buffer < 2 then .inl (waitForMore s)
  else if find s.buffer dash = some 0 then
    .inr (true, { s with buffer := retrieveAll s.buffer })
  else .inr (false, s)

def parseSwitch (registered : List Bytes) (s : LoopState) : LoopState ⊕ Bool × LoopState :=
  match s.parser.state with
  | .state0 => parseState0 s
  | .state1 => parseState1 s
  | .state2 => parseState2 registered s
  | .state3 => parseState3 registered s
  | .state4 => parseState4 s

def parseStep (registered : List Bytes) (s : LoopState) : LoopState ⊕ Bool × LoopState :=
  if s.needToReadMore then
    match readMore s with
    | (.failed, s) => .inr (false, s)
    | (.again, s) => .inl s
    | (.done, s) => parseSwitch registered s
  else parseSwitch registered s

def parseEntry (parser : MultipartFormDataParser) (buffer : Bytes) (input : List ReadResult) :
    LoopState where
  parser
  buffer
  needToReadMore := false
  input
  calls := []

end Cooper.Multipart

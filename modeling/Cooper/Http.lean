import Cooper.Multipart
import Mathlib.Algebra.Group.Nat.Defs

namespace Cooper.Http

open Cooper.ListSearch
open Cooper.MsgBuffer
open Cooper.Multipart
open Cooper.Utilities

def methods : List Bytes :=
  [ascii "GET", ascii "HEAD", ascii "POST", ascii "PUT", ascii "DELETE", ascii "CONNECT",
    ascii "OPTIONS", ascii "TRACE", ascii "PATCH", ascii "PRI"]

def CONNECTION_CLOSE : Bytes := ascii "close"

def CONNECTION_KEEP_ALIVE : Bytes := ascii "keep-alive"

def CONNECTION : Bytes := ascii "Connection"

def CONTENT_LENGTH : Bytes := ascii "Content-Length"

def CONTENT_TYPE : Bytes := ascii "Content-Type"

/-- `std::lexicographical_compare` whose order is the equality of lower-case characters. -/
def ci : Bytes → Bytes → Bool
  | [], [] => false
  | [], _ :: _ => true
  | _ :: _, [] => false
  | a :: s, b :: t => if tolower a = tolower b then true else ci s t

/-- `unordered_map<string, string, hash, ci>`. -/
abbrev Headers := List (Bytes × Bytes)

/-- Two keys are the same entry when `hash` and `ci` say so. `hash` is taken to separate keys that
differ in more than case. -/
def sameKey (s t : Bytes) : Bool := s.map tolower = t.map tolower ∧ ci s t

def Headers.find (headers : Headers) (key : Bytes) : Option Bytes :=
  (List.find? (fun entry => sameKey key entry.1) headers).map Prod.snd

/-- `headers_[key] = value`. -/
def Headers.set (headers : Headers) (key value : Bytes) : Headers :=
  match headers with
  | [] => [(key, value)]
  | entry :: rest =>
      if sameKey key entry.1 then (entry.1, value) :: rest else entry :: Headers.set rest key value

/-- `headers_[key]` as a value: an entry that is missing comes into being with an empty one. -/
def Headers.at (headers : Headers) (key : Bytes) : Bytes × Headers :=
  match headers.find key with
  | some value => (value, headers)
  | none => ([], headers.set key [])

/-- The exceptions of `std::stoul`. -/
inductive StoulError
  | invalid_argument
  | out_of_range
  deriving DecidableEq

def isDigit (c : UInt8) : Bool := 48 ≤ c ∧ c ≤ 57

def digitsValue (digits : Bytes) : Nat :=
  digits.foldl (fun value c => value * 10 + (c.toNat - 48)) 0

/-- `std::stoul(s)`: blanks, a sign and digits in front of anything else; a minus sign negates
modulo `2 ^ 64`. -/
def stoul (s : Bytes) : Except StoulError Nat :=
  let s := s.dropWhile isspace
  let (negative, s) := match s with
    | 45 :: s => (true, s)
    | 43 :: s => (false, s)
    | s => (false, s)
  let digits := s.takeWhile isDigit
  if digits = [] then .error .invalid_argument
  else if digitsValue digits ≥ 2 ^ 64 then .error .out_of_range
  else if negative then .ok ((2 ^ 64 - digitsValue digits) % 2 ^ 64)
  else .ok (digitsValue digits)

structure RequestData where
  method : Bytes
  path : Bytes
  version : Bytes
  headers : Headers
  body : Bytes
  deriving DecidableEq

structure HttpRequest extends RequestData where
  buffer : Bytes
  multipartFormDataParser : MultipartFormDataParser
  deriving DecidableEq

def HttpRequest.init (buffer : Bytes) : HttpRequest where
  method := []
  path := []
  version := []
  headers := []
  body := []
  buffer
  multipartFormDataParser := .init

def parseRequestStartingLine (request : HttpRequest) : Bool × HttpRequest :=
  match findCRLF request.buffer with
  | none => (false, request)
  | some ret =>
      let (line, buffer) := readUntil request.buffer ret
      let buffer := retrieve buffer 2
      let words := split line 32
      let request := { request with
        buffer
        method := words.getD 0 request.method
        path := words.getD 1 request.path
        version := words.getD 2 request.version }
      (words.length = 3 ∧ request.method ∈ methods ∧
        (request.version = ascii "HTTP/1.1" ∨ request.version = ascii "HTTP/1.0"), request)

/-- A header line that is not empty: `none` when it has no colon, `some none` when its value is
empty, which leaves the table as it is. -/
def parseHeaderLine (line : Bytes) : Option (Option (Bytes × Bytes)) :=
  let line := line.rdropWhile isSpaceOrTab
  let key := line.takeWhile (· ≠ 58)
  match line.dropWhile (· ≠ 58) with
  | [] => none
  | _ :: value =>
      let value := value.dropWhile isSpaceOrTab
      if value ≠ [] then some (some (key, value)) else some none

/-- `fuel` bounds the lines that are left; every line takes two bytes at least. -/
def parseHeadersLoop : (fuel : Nat) → HttpRequest → Bool × HttpRequest
  | 0, request => (false, request)
  | fuel + 1, request =>
      match findCRLF request.buffer with
      | none => (false, request)
      | some ret =>
          let (line, buffer) := readUntil request.buffer ret
          let buffer := retrieve buffer 2
          let request := { request with buffer }
          if line = [] then (true, request)
          else
            match parseHeaderLine line with
            | none => (false, request)
            | some none => parseHeadersLoop fuel request
            | some (some (key, value)) =>
                parseHeadersLoop fuel { request with headers := request.headers.set key value }

def parseHeaders (request : HttpRequest) : Bool × HttpRequest :=
  parseHeadersLoop (request.buffer.length + 1) request

def getHeaderValue (request : HttpRequest) (key : Bytes) : Bytes :=
  (request.headers.find key).getD []

def isMultipartFormData (request : HttpRequest) : Bool :=
  match request.headers.find CONTENT_TYPE with
  | none => false
  | some contentType => ascii "multipart/form-data" <+: contentType

def parseMultipartBoundary (contentType : Bytes) : Option Bytes :=
  match search (ascii "boundary=") contentType with
  | none => none
  | some pos =>
      let rest := contentType.drop (pos + 9)
      let boundary := trimDoubleQuotesCopy (rest.takeWhile (· ≠ 59))
      if boundary ≠ [] then some boundary else none

def parseBody (request : HttpRequest) : Except StoulError (Bool × HttpRequest) :=
  if isMultipartFormData request then
    let (contentType, headers) := request.headers.at CONTENT_TYPE
    let request := { request with headers }
    match parseMultipartBoundary contentType with
    | none => .ok (false, request)
    | some boundary => .ok (true, { request with
        multipartFormDataParser := setBoundary request.multipartFormDataParser boundary })
  else
    let (contentLength, headers) := request.headers.at CONTENT_LENGTH
    let request := { request with headers }
    if contentLength = [] then
      .ok (true, { request with body := request.buffer, buffer := retrieveAll request.buffer })
    else do
      let len ← stoul contentLength
      if len > readableBytes request.buffer then return (false, request)
      let (body, buffer) := read request.buffer len
      return (true, { request with body, buffer })

def parseRequest (buffer : Bytes) : Except StoulError (Bool × HttpRequest) :=
  match parseRequestStartingLine (HttpRequest.init buffer) with
  | (false, request) => .ok (false, request)
  | (true, request) =>
      match parseHeaders request with
      | (false, request) => .ok (false, request)
      | (true, request) => parseBody request

end Cooper.Http

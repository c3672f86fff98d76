import Cooper.MsgBuffer
import Mathlib.Data.List.DropRight
import Mathlib.Tactic.Common

namespace Cooper.Utilities

open Cooper.MsgBuffer

def isSpaceOrTab (c : UInt8) : Bool := c = 32 ∨ c = 9

/-- `std::isspace` in the classic locale. -/
def isspace (c : UInt8) : Bool := c = 32 ∨ (9 ≤ c ∧ c ≤ 13)

/-- `::tolower` in the classic locale. -/
def tolower (c : UInt8) : UInt8 := if 65 ≤ c ∧ c ≤ 90 then c + 32 else c

/-- `trim(b, e, left, right)` on the string `s = [b, e)`. The first loop stops at the end of the
string, not at `right`; the second one stops at its beginning. -/
def trim (s : Bytes) (left right : Nat) : Nat × Nat :=
  (left + ((s.drop left).takeWhile isSpaceOrTab).length,
    right - ((s.take right).reverse.takeWhile isSpaceOrTab).length)

/-- `fn` is called on what `trim` leaves of `[beg, i)`, unless that is empty. -/
def splitPiece (s : Bytes) (beg i : Nat) : List Bytes :=
  let r := trim s beg i
  if r.1 < r.2 then [(s.drop r.1).take (r.2 - r.1)] else []

/-- The loop of `split` at index `i`; the argument that goes down is what lies behind it. -/
def splitLoop (s : Bytes) (d : UInt8) : (rest : Bytes) → (i beg : Nat) → List Bytes
  | [], i, beg => if i ≠ 0 then splitPiece s beg i else []
  | c :: rest, i, beg =>
      if c = d then splitPiece s beg i ++ splitLoop s d rest (i + 1) (i + 1)
      else splitLoop s d rest (i + 1) beg

/-- The strings that `split(b, e, d, fn)` calls `fn` on. -/
def split (s : Bytes) (d : UInt8) : List Bytes := splitLoop s d s 0 0

def trimCopy (s : Bytes) : Bytes :=
  let r := trim s 0 s.length
  (s.drop r.1).take (r.2 - r.1)

def trimDoubleQuotesCopy (s : Bytes) : Bytes :=
  if s.length ≥ 2 ∧ s.head? = some 34 ∧ s.getLast? = some 34 then (s.drop 1).take (s.length - 2)
  else s

def keyVal (pieces : List Bytes) : Bytes × Bytes :=
  pieces.foldl (fun (key, val) piece => if key = [] then (piece, val) else (key, piece)) ([], [])

/-- The entries of the `multimap`, in the order of their insertion. -/
def parseDispositionParams (s : Bytes) : List (Bytes × Bytes) :=
  (split s 59).eraseDups.filterMap fun kv =>
    let (key, val) := keyVal (split kv 61)
    if key ≠ [] then some (trimDoubleQuotesCopy key, trimDoubleQuotesCopy val) else none

/-- What lies behind the component that `path` is inside of, and behind the slashes there. -/
def nextComponent (path : Bytes) : Bytes := (path.dropWhile (· ≠ 47)).dropWhile (· = 47)

theorem nextComponent_length_le (path : Bytes) : (nextComponent path).length ≤ path.length :=
  ((List.dropWhile_sublist _).trans (List.dropWhile_sublist _)).length_le

/-- The `while` loop of `isValidPath`, with what lies from `i` on: that is nothing or begins with a
component, as every pass skips the slashes behind its own. -/
def isValidPathLoop : (path : Bytes) → (level : Nat) → Bool
  | [], _ => true
  | c :: path, level =>
      let component := c :: path.takeWhile (· ≠ 47)
      if component = ascii "." then isValidPathLoop (nextComponent path) level
      else if component = ascii ".." then
        if level = 0 then false else isValidPathLoop (nextComponent path) (level - 1)
      else isValidPathLoop (nextComponent path) (level + 1)
termination_by path => path.length
decreasing_by all_goals exact Nat.lt_succ_of_le (nextComponent_length_le path)

def isValidPath (path : Bytes) : Bool := isValidPathLoop (path.dropWhile (· = 47)) 0

def isAlnum (c : UInt8) : Bool :=
  (48 ≤ c ∧ c ≤ 57) ∨ (65 ≤ c ∧ c ≤ 90) ∨ (97 ≤ c ∧ c ≤ 122)

/-- What `\.([a-zA-Z0-9]+)$` captures. -/
def fileExtension (path : Bytes) : Bytes :=
  let ext := path.rtakeWhile isAlnum
  if ext ≠ [] ∧ (path.rdropWhile isAlnum).getLast? = some 46 then ext else []

/-- The hash is an `unsigned int`; the constant in front is `UINT_MAX >> 6`. -/
def str2tagCore : Bytes → UInt32 → UInt32
  | [], h => h
  | c :: s, h => str2tagCore s ((0x3ffffff &&& h * 33) ^^^ c.toUInt32)

def str2tag (s : Bytes) : UInt32 := str2tagCore s 0

/-- The cases of `findContentType`. -/
def contentTypes : List (String × String) :=
  [("css", "text/css"), ("csv", "text/csv"), ("htm", "text/html"), ("html", "text/html"),
    ("js", "text/javascript"), ("mjs", "text/javascript"), ("txt", "text/plain"),
    ("vtt", "text/vtt"), ("apng", "image/apng"), ("avif", "image/avif"), ("bmp", "image/bmp"),
    ("gif", "image/gif"), ("png", "image/png"), ("svg", "image/svg+xml"), ("webp", "image/webp"),
    ("ico", "image/x-icon"), ("tif", "image/tiff"), ("tiff", "image/tiff"), ("jpg", "image/jpeg"),
    ("jpeg", "image/jpeg"), ("mp4", "video/mp4"), ("mpeg", "video/mpeg"), ("webm", "video/webm"),
    ("mp3", "audio/mp3"), ("mpga", "audio/mpeg"), ("weba", "audio/webm"), ("wav", "audio/wave"),
    ("otf", "font/otf"), ("ttf", "font/ttf"), ("woff", "font/woff"), ("woff2", "font/woff2"),
    ("7z", "application/x-7z-compressed"), ("atom", "application/atom+xml"),
    ("pdf", "application/pdf"), ("json", "application/json"), ("rss", "application/rss+xml"),
    ("tar", "application/x-tar"), ("xht", "application/xhtml+xml"),
    ("xhtml", "application/xhtml+xml"), ("xslt", "application/xslt+xml"),
    ("xml", "application/xml"), ("gz", "application/gzip"), ("zip", "application/zip"),
    ("wasm", "application/wasm")]

def findContentType (path : Bytes) : Bytes :=
  let ext := fileExtension path
  match contentTypes.find? fun entry => str2tag (ascii entry.1) = str2tag ext with
  | some entry => ascii entry.2
  | none => ascii "application/octet-stream"

/-- A string that trimming leaves alone. -/
structure Solid (s : Bytes) : Prop where
  head : ∃ c rest, s = c :: rest ∧ isSpaceOrTab c = false
  last : ∃ front c, s = front ++ [c] ∧ isSpaceOrTab c = false

def Blank (s : Bytes) : Prop := ∀ c ∈ s, isSpaceOrTab c = true

instance (s : Bytes) : Decidable (Blank s) :=
  List.decidableBAll _ s

theorem Blank.nil : Blank [] := by
  intro c hc
  simp at hc

theorem trimDoubleQuotesCopy_quoted (s : Bytes) :
    trimDoubleQuotesCopy (34 :: (s ++ [34])) = s := by
  have hlast : (34 :: (s ++ [34])).getLast? = some (34 : UInt8) := by
    rw [← List.cons_append, List.getLast?_append]
    rfl
  rw [trimDoubleQuotesCopy, if_pos ⟨by simp, rfl, hlast⟩]
  simp

end Cooper.Utilities

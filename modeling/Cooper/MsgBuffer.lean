import Cooper.ListSearch

namespace Cooper.MsgBuffer

open Cooper.ListSearch

/-- A string or a block of memory, byte by byte. -/
abbrev Bytes := List UInt8

/-- What holds of the bytes of a string is decided along the string, not over all values of a
byte. -/
instance (priority := high) (s : Bytes) (p : UInt8 → Prop) [DecidablePred p] :
    Decidable (∀ c ∈ s, p c) :=
  List.decidableBAll p s

instance (priority := high) (s : Bytes) (list : List Bytes) : Decidable (s ∈ list) :=
  List.instDecidableMemOfLawfulBEq s list

def ascii (s : String) : Bytes :=
  s.toList.map fun c => c.toNat.toUInt8

def CRLF : Bytes := ascii "\r\n"

def readableBytes (buffer : Bytes) : Nat := buffer.length

def append (buffer data : Bytes) : Bytes := buffer ++ data

def retrieveAll (_buffer : Bytes) : Bytes := []

def retrieve (buffer : Bytes) (len : Nat) : Bytes :=
  if len ≥ readableBytes buffer then retrieveAll buffer else buffer.drop len

/-- `retrieveUntil(peek() + stop)`. -/
def retrieveUntil (buffer : Bytes) (stop : Nat) : Bytes := retrieve buffer stop

def read (buffer : Bytes) (len : Nat) : Bytes × Bytes :=
  let len := if len > readableBytes buffer then readableBytes buffer else len
  (buffer.take len, retrieve buffer len)

/-- `readUntil(peek() + stop)`. -/
def readUntil (buffer : Bytes) (stop : Nat) : Bytes × Bytes :=
  (buffer.take stop, retrieve buffer stop)

/-- Offset from `peek()` of the match. `std::search` answers the end of the region when there is
none, which is why a match at the very end counts as not found. -/
def find (buffer str : Bytes) : Option Nat :=
  match search str buffer with
  | none => none
  | some i => if i = readableBytes buffer then none else some i

def findCRLF (buffer : Bytes) : Option Nat := find buffer CRLF

@[simp] theorem readableBytes_eq (buffer : Bytes) : readableBytes buffer = buffer.length := rfl

@[simp] theorem append_eq (buffer data : Bytes) : append buffer data = buffer ++ data := rfl

@[simp] theorem retrieveAll_eq (buffer : Bytes) : retrieveAll buffer = [] := rfl

@[simp] theorem retrieve_eq (buffer : Bytes) (len : Nat) :
    retrieve buffer len = buffer.drop len := by
  unfold retrieve retrieveAll readableBytes
  split
  · rw [List.drop_of_length_le (by omega)]
  · rfl

@[simp] theorem retrieveUntil_eq (buffer : Bytes) (stop : Nat) :
    retrieveUntil buffer stop = buffer.drop stop := retrieve_eq buffer stop

@[simp] theorem read_eq (buffer : Bytes) (len : Nat) :
    read buffer len = (buffer.take len, buffer.drop len) := by
  unfold read readableBytes
  simp only [retrieve_eq, Prod.mk.injEq]
  split
  · rw [List.take_of_length_le (le_refl _), List.take_of_length_le (by omega),
      List.drop_of_length_le (le_refl _), List.drop_of_length_le (by omega)]
    exact ⟨rfl, rfl⟩
  · exact ⟨rfl, rfl⟩

@[simp] theorem readUntil_eq (buffer : Bytes) (stop : Nat) :
    readUntil buffer stop = (buffer.take stop, buffer.drop stop) := by
  simp [readUntil]

theorem find_eq_search {str : Bytes} (hstr : str ≠ []) (buffer : Bytes) :
    find buffer str = search str buffer := by
  unfold find readableBytes
  cases hfound : search str buffer with
  | none => rfl
  | some i =>
      have hlen := add_length_le_of_search hfound
      have hpos := List.length_pos_iff.mpr hstr
      exact if_neg (by omega)

theorem CRLF_eq : CRLF = [13, 10] := by decide

@[simp] theorem CRLF_length : CRLF.length = 2 := by decide

theorem not_isInfix_CRLF {line : Bytes} (hline : 13 ∉ line) : ¬CRLF <:+: line := by
  intro hin
  exact hline (hin.subset (by decide))

theorem find_CRLF_line (line : Bytes) (hline : ¬CRLF <:+: line) (rest : Bytes) :
    find (line ++ (CRLF ++ rest)) CRLF = some line.length := by
  rw [CRLF_eq] at hline ⊢
  rw [find_eq_search (by simp), ← List.append_assoc]
  exact search_content_append (by decide) hline rest

theorem find_CRLF_partial (line : Bytes) {buffer rest : Bytes} (hline : ¬CRLF <:+: line)
    (hstart : buffer <+: line ++ (CRLF ++ rest)) (hlength : buffer.length < line.length + 2) :
    find buffer CRLF = none := by
  rw [CRLF_eq] at hline hstart ⊢
  rw [find_eq_search (by simp), search_eq_none_iff]
  rw [← List.append_assoc] at hstart
  exact not_isInfix_of_isPrefix (by decide) hline hstart hlength

theorem eq_line_of_find_CRLF {buffer : Bytes} {crlf : Nat} (hfind : find buffer CRLF = some crlf) :
    ¬CRLF <:+: buffer.take crlf ∧ crlf ≤ buffer.length ∧
      buffer = buffer.take crlf ++ (CRLF ++ buffer.drop (crlf + 2)) := by
  rw [find_eq_search (by decide)] at hfind
  have hlength := add_length_le_of_search hfind
  have hsplit := eq_append_of_search hfind
  rw [List.append_assoc] at hsplit
  refine ⟨?_, by omega, hsplit⟩
  intro hin
  cases hfound : search CRLF (buffer.take crlf) with
  | none => exact search_eq_none_iff.mp hfound hin
  | some i =>
      have hearly := search_append_right hfound (buffer.drop crlf)
      rw [List.take_append_drop, hfind, Option.some.injEq] at hearly
      have hfit := add_length_le_of_search hfound
      rw [List.length_take, CRLF_length] at hfit
      omega

end Cooper.MsgBuffer

import Cooper.MsgBuffer
import Mathlib.Tactic.Common
import Mathlib.Tactic.TypeStar

namespace Cooper.LineBlock

open Cooper.ListSearch
open Cooper.MsgBuffer

/-- A header line is not the blank line and ends where its `CRLF` says. -/
structure HeaderLine (line : Bytes) : Prop where
  nonempty : line ≠ []
  crlf : ¬CRLF <:+: line

def headerBlock (lines : List Bytes) : Bytes :=
  (lines.map (· ++ CRLF)).flatten ++ CRLF

theorem headerBlock_nil : headerBlock [] = CRLF := rfl

theorem headerBlock_cons (line : Bytes) (lines : List Bytes) :
    headerBlock (line :: lines) = line ++ (CRLF ++ headerBlock lines) := by
  simp [headerBlock]

theorem length_le_headerBlock (lines : List Bytes) :
    2 * lines.length + 2 ≤ (headerBlock lines).length := by
  induction lines with
  | nil => simp [headerBlock_nil]
  | cons line lines ih =>
      rw [headerBlock_cons, List.length_append, List.length_append, CRLF_length, List.length_cons]
      omega

variable {σ : Type*} {f : σ → Bytes → Option σ}

/-- The result is `none` when the block is not whole, a line is rejected or the fuel is used up. -/
def readLines (f : σ → Bytes → Option σ) : (fuel : Nat) → σ → Bytes → Option (σ × Bytes)
  | 0, _, _ => none
  | fuel + 1, s, buffer =>
      match find buffer CRLF with
      | none => none
      | some 0 => some (s, buffer.drop 2)
      | some crlf => do
          let s ← f s (buffer.take crlf)
          readLines f fuel s (buffer.drop (crlf + 2))

theorem readLines_blank (fuel : Nat) (s : σ) (rest : Bytes) :
    readLines f (fuel + 1) s (CRLF ++ rest) = some (s, rest) := by
  have hfind := find_CRLF_line [] (by decide) rest
  rw [List.nil_append, List.length_nil] at hfind
  simp only [readLines, hfind]
  rw [List.drop_left' CRLF_length]

theorem readLines_line (fuel : Nat) (s : σ) {line : Bytes} (hline : HeaderLine line)
    (rest : Bytes) :
    readLines f (fuel + 1) s (line ++ (CRLF ++ rest)) =
      (f s line).bind fun s => readLines f fuel s rest := by
  have hfind := find_CRLF_line line hline.crlf rest
  obtain ⟨n, hn⟩ : ∃ n, line.length = n + 1 :=
    ⟨line.length - 1, by have := List.length_pos_iff.mpr hline.nonempty; omega⟩
  have htake : (line ++ (CRLF ++ rest)).take (n + 1) = line := List.take_left' hn
  have hdrop : (line ++ (CRLF ++ rest)).drop (n + 1 + 2) = rest := by
    rw [← List.append_assoc]
    exact List.drop_left' (by rw [List.length_append, CRLF_length, hn])
  rw [readLines, hfind, hn]
  simp only [htake, hdrop]
  rfl

theorem readLines_whole {lines : List Bytes} (hlines : ∀ line ∈ lines, HeaderLine line)
    {fuel : Nat} (hfuel : lines.length < fuel) {s s' : σ} (hs : lines.foldlM f s = some s')
    (rest : Bytes) :
    readLines f fuel s (headerBlock lines ++ rest) = some (s', rest) := by
  induction lines generalizing fuel s with
  | nil =>
      obtain ⟨fuel, rfl⟩ : ∃ n, fuel = n + 1 := ⟨fuel - 1, by omega⟩
      obtain rfl : s = s' := by simpa using hs
      exact readLines_blank fuel s rest
  | cons line lines ih =>
      obtain ⟨fuel, rfl⟩ : ∃ n, fuel = n + 1 := ⟨fuel - 1, by omega⟩
      obtain ⟨next, hnext, hrest⟩ : ∃ next, f s line = some next ∧
          lines.foldlM f next = some s' := by
        simpa [Option.bind_eq_some_iff] using hs
      rw [headerBlock_cons, List.append_assoc, List.append_assoc,
        readLines_line fuel s (hlines line List.mem_cons_self), hnext, Option.bind_some]
      exact ih (fun line hmem => hlines line (List.mem_cons_of_mem _ hmem))
        (by simpa using hfuel) hrest

theorem exists_tail_of_line {line buffer rest : Bytes} (hstart : buffer <+: line ++ (CRLF ++ rest))
    (hwhole : line.length + 2 ≤ buffer.length) :
    ∃ tail, buffer = line ++ (CRLF ++ tail) ∧ tail <+: rest := by
  rw [← List.append_assoc] at hstart
  obtain ⟨tail, rfl, htail⟩ := exists_tail_of_isPrefix hstart
    (by rw [List.length_append, CRLF_length]; exact hwhole)
  exact ⟨tail, List.append_assoc .., htail⟩

theorem readLines_partial (f : σ → Bytes → Option σ) {lines : List Bytes}
    (hlines : ∀ line ∈ lines, HeaderLine line) (fuel : Nat) (s : σ) {buffer rest : Bytes}
    (hstart : buffer <+: headerBlock lines ++ rest)
    (hlength : buffer.length < (headerBlock lines).length) :
    readLines f fuel s buffer = none := by
  induction lines generalizing fuel s buffer with
  | nil =>
      cases fuel with
      | zero => rfl
      | succ fuel =>
          have hfind : find buffer CRLF = none :=
            find_CRLF_partial [] (by decide) hstart hlength
          simp only [readLines, hfind]
  | cons line lines ih =>
      cases fuel with
      | zero => rfl
      | succ fuel =>
          have hline := hlines line List.mem_cons_self
          rw [headerBlock_cons, List.append_assoc, List.append_assoc] at hstart
          rcases Nat.lt_or_ge buffer.length (line.length + 2) with hshort | hwhole
          · simp only [readLines, find_CRLF_partial line hline.crlf hstart hshort]
          · obtain ⟨tail, rfl, htail⟩ := exists_tail_of_line hstart hwhole
            rw [readLines_line fuel s hline, Option.bind_eq_none_iff]
            intro next _
            apply ih (fun line hmem => hlines line (List.mem_cons_of_mem _ hmem)) _ _ htail
            · rw [headerBlock_cons, List.length_append, List.length_append, List.length_append,
                List.length_append] at hlength
              omega

theorem exists_lines_of_readLines {fuel : Nat} {s s' : σ} {buffer rest : Bytes}
    (hread : readLines f fuel s buffer = some (s', rest)) :
    ∃ lines, (∀ line ∈ lines, HeaderLine line) ∧ lines.foldlM f s = some s' ∧
      buffer = headerBlock lines ++ rest := by
  induction fuel generalizing s buffer with
  | zero => simp [readLines] at hread
  | succ fuel ih =>
      simp only [readLines] at hread
      split at hread
      · simp at hread
      · rename_i hfind
        obtain ⟨-, -, hsplit⟩ := eq_line_of_find_CRLF hfind
        simp only [Option.some.injEq, Prod.mk.injEq] at hread
        obtain ⟨rfl, rfl⟩ := hread
        exact ⟨[], by simp, rfl, by simpa [headerBlock_nil] using hsplit⟩
      · rename_i crlf hpos hfind
        obtain ⟨hline, hle, hsplit⟩ := eq_line_of_find_CRLF hfind
        obtain ⟨next, hnext, hrest⟩ := Option.bind_eq_some_iff.mp hread
        obtain ⟨lines, hlines, hs, hbuffer⟩ := ih hrest
        have hnonempty : buffer.take crlf ≠ [] := by
          intro hnil
          rcases List.take_eq_nil_iff.mp hnil with hzero | hempty
          · exact hpos hzero
          · rw [hempty, List.length_nil, Nat.le_zero] at hle
            exact hpos hle
        refine ⟨buffer.take crlf :: lines, ?_, ?_, ?_⟩
        · intro line hmem
          rcases List.mem_cons.mp hmem with rfl | hmem
          · exact ⟨hnonempty, hline⟩
          · exact hlines line hmem
        · simp [hnext, hs]
        · rw [headerBlock_cons, List.append_assoc, List.append_assoc, ← hbuffer]
          exact hsplit

end Cooper.LineBlock

import Mathlib.Data.List.Infix
import Mathlib.Tactic.Common

namespace Cooper.LengthDelimited

variable {α : Type*} (size : α → Nat)

/-- `header n` is the letter that tells the length `n`. -/
def encode (header : Nat → α) (words : List (List α)) : List α :=
  words.flatMap fun word => header word.length :: word

/-- At place `i` there is a letter and behind it the whole of the word that it announces. -/
def WordAt (s : List α) (i : Nat) (word : List α) : Prop :=
  ∃ letter rest, s.drop i = letter :: rest ∧ word.length = size letter ∧ word <+: rest

/-- The letter at place `i` announces more than there is. -/
def Overruns (s : List α) (i : Nat) : Prop :=
  ∃ letter rest, s.drop i = letter :: rest ∧ rest.length < size letter

/-- The places that are reached from the beginning by going over whole words. -/
inductive Start (s : List α) : Nat → Prop
  | zero : Start s 0
  | next {i : Nat} {word : List α} :
      Start s i → WordAt size s i word → Start s (i + 1 + word.length)

variable {size}

theorem not_wordAt_nil {i : Nat} {word : List α} : ¬ WordAt size [] i word := by
  rintro ⟨letter, rest, heq, -⟩
  rw [List.drop_nil] at heq
  contradiction

theorem not_overruns_nil {i : Nat} : ¬ Overruns size [] i := by
  rintro ⟨letter, rest, heq, -⟩
  rw [List.drop_nil] at heq
  contradiction

theorem wordAt_zero {letter : α} {s word : List α} :
    WordAt size (letter :: s) 0 word ↔ word.length = size letter ∧ word <+: s := by
  constructor
  · rintro ⟨first, rest, heq, hword⟩
    obtain ⟨rfl, rfl⟩ := List.cons.inj heq
    exact hword
  · intro hword
    exact ⟨letter, s, rfl, hword⟩

theorem overruns_zero {letter : α} {s : List α} :
    Overruns size (letter :: s) 0 ↔ s.length < size letter := by
  constructor
  · rintro ⟨first, rest, heq, hlength⟩
    obtain ⟨rfl, rfl⟩ := List.cons.inj heq
    exact hlength
  · intro hlength
    exact ⟨letter, s, rfl, hlength⟩

theorem WordAt.not_overruns {s : List α} {i : Nat} {word : List α} (h : WordAt size s i word) :
    ¬ Overruns size s i := by
  rintro ⟨letter, rest, heq, hlength⟩
  obtain ⟨letter', rest', heq', hsize, hword⟩ := h
  obtain ⟨rfl, rfl⟩ := List.cons.inj (heq.symm.trans heq')
  have hle := hword.length_le
  omega

theorem WordAt.take_drop {s : List α} {i : Nat} {word : List α} (h : WordAt size s i word) :
    (s.drop (i + 1)).take word.length = word := by
  obtain ⟨letter, rest, heq, -, tail, rfl⟩ := h
  rw [← List.drop_drop, heq, List.drop_one, List.tail_cons, List.take_left]

variable {header : Nat → α}

theorem encode_append (words others : List (List α)) :
    encode header (words ++ others) = encode header words ++ encode header others :=
  List.flatMap_append

theorem wordAt_encode {before after : List (List α)} {word : List α}
    (hsize : size (header word.length) = word.length) :
    WordAt size (encode header (before ++ word :: after)) (encode header before).length word := by
  refine ⟨header word.length, word ++ encode header after, ?_, hsize.symm, List.prefix_append _ _⟩
  rw [encode_append, List.drop_left]
  rfl

end Cooper.LengthDelimited

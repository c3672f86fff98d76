import Cooper.DateRoundTrip
import Cooper.Logging

namespace Cooper.LogTime

open Cooper.Date
open Cooper.DateRoundTrip
open Cooper.Http (digitsValue)
open Cooper.IntegerFormat
open Cooper.Logging (strlen)
open Cooper.MsgBuffer

/-- The variables of a thread. -/
structure ThreadLocals where
  lastSecond : Nat
  lastTimeString : Bytes
  threadId : Int

def ThreadLocals.init : ThreadLocals where
  lastSecond := 0
  lastTimeString := List.replicate 32 0
  threadId := 0

/-- What a `Logger` finds: its `date_`, and `displayLocalTime_` at the time. -/
structure Statement where
  date : Int
  displayLocalTime : Bool

def secondsSinceEpoch (date : Int) : Int := date.tdiv MICRO_SECONDS_PRE_SEC

def roundSecond (date : Int) : Int := date - date.tmod MICRO_SECONDS_PRE_SEC

/-- `"%4d%02d%02d %02d:%02d:%02d"` -/
def formatted (tm : Tm) : Bytes :=
  blankPadded 4 (tm.tm_year + 1900) ++
    (zeroPadded 2 (tm.tm_mon + 1) ++ (zeroPadded 2 tm.tm_mday ++ 32 :: timeText tm))

/-- With `offset` zero, `toFormattedString` without the microseconds. -/
def toFormattedStringLocal (offset date : Int) : Bytes :=
  formatted (localtime_r offset (secondsSinceEpoch date))

def toFormattedString (date : Int) : Bytes := toFormattedStringLocal 0 date

def strncpy (dest src : Bytes) (count : Nat) : Bytes :=
  src.take count ++ (List.replicate (count - src.length) 0 ++ dest.drop count)

def snprintf (size : Nat) (text : Bytes) : Bytes := text.take (size - 1) ++ [0]

/-- The characters that a `T` stands for, whose constructor asserts the length. -/
def T (str : Bytes) (len : Nat) : Option Bytes :=
  if strlen str = len then some (str.take len) else none

def timeString (offset : Int) (s : Statement) : Bytes :=
  if s.displayLocalTime then toFormattedStringLocal offset s.date else toFormattedString s.date

def microText (s : Statement) : Bytes :=
  46 :: (zeroPadded 6 (s.date - roundSecond s.date) ++
    ascii (if s.displayLocalTime then " " else " UTC "))

section Run

variable (offset gettid : Int)

/-- The text is formatted anew where the second is another one. -/
def refreshed (v : ThreadLocals) (s : Statement) : ThreadLocals :=
  let now := (secondsSinceEpoch s.date % 18446744073709551616).toNat
  if now ≠ v.lastSecond then
    { v with
      lastSecond := now
      lastTimeString := strncpy v.lastTimeString (timeString offset s) 31 }
  else v

/-- There is no result where the assertion of a `T` fails. -/
def formatTime (v : ThreadLocals) (s : Statement) : Option (ThreadLocals × Bytes) :=
  let v := refreshed offset v s
  (T v.lastTimeString 17).bind fun time =>
    (T (snprintf 32 (microText s)) (if s.displayLocalTime then 8 else 12)).map fun tmp =>
      let v := { v with threadId := if v.threadId = 0 then gettid else v.threadId }
      (v, time ++ (tmp ++ decimalText v.threadId))

/-- What the loggers of a thread write. -/
def formatAll (v : ThreadLocals) : List Statement → Option (List Bytes)
  | [] => some []
  | s :: rest =>
      (formatTime offset gettid v s).bind fun r => (formatAll r.1 rest).map (r.2 :: ·)

def plain (s : Statement) : Bytes := timeString offset s ++ (microText s ++ decimalText gettid)

end Run

structure Usual (offset date : Int) : Prop where
  later : 1000000 ≤ date
  bounded : date < 2 ^ 63
  year : 1000 ≤ (localtime_r offset (secondsSinceEpoch date)).tm_year + 1900 ∧
    (localtime_r offset (secondsSinceEpoch date)).tm_year + 1900 ≤ 9999

section Text

variable {tm tm' : Tm} {n m : Int}

theorem zeroPadded_injective (width : Nat) (hn : 0 ≤ n) (hm : 0 ≤ m)
    (h : zeroPadded width n = zeroPadded width m) : n = m := by
  have hvalue := congrArg digitsValue h
  rw [digitsValue_zeroPadded width hn, digitsValue_zeroPadded width hm] at hvalue
  omega

theorem zeroPadded_append_inj (width : Nat) (hwidth : 0 < width)
    (hn : 0 ≤ n ∧ n.natAbs < 10 ^ width) (hm : 0 ≤ m ∧ m.natAbs < 10 ^ width) {rest rest' : Bytes}
    (h : zeroPadded width n ++ rest = zeroPadded width m ++ rest') :
    zeroPadded width n = zeroPadded width m ∧ rest = rest' := by
  refine List.append_inj h ?_
  rw [length_zeroPadded width hwidth hn.1 hn.2, length_zeroPadded width hwidth hm.1 hm.2]

theorem zero_not_mem_zeroPadded (width : Nat) (hn : 0 ≤ n) : (0 : UInt8) ∉ zeroPadded width n := by
  intro hmem
  have hdigit := isDigit_of_mem_zeroPadded width hn hmem
  exact absurd hdigit (by decide)

theorem length_timeText (h : FourDigits tm) : (timeText tm).length = 8 := by
  obtain ⟨-, -, -, hhour, hmin, hsec⟩ := h
  rw [timeText]
  simp only [List.length_append, List.length_cons]
  rw [length_zeroPadded 2 (by decide) hhour.1 (by omega),
    length_zeroPadded 2 (by decide) hmin.1 (by omega),
    length_zeroPadded 2 (by decide) hsec.1 (by omega)]

theorem length_formatted (h : FourDigits tm) : (formatted tm).length = 17 := by
  have htime := length_timeText h
  obtain ⟨hyear, hmon, hmday, -⟩ := h
  rw [formatted, blankPadded_eq hyear.1]
  simp only [List.length_append, List.length_cons]
  rw [length_zeroPadded 4 (by decide) (by omega) (by omega),
    length_zeroPadded 2 (by decide) (by omega) (by omega),
    length_zeroPadded 2 (by decide) (by omega) (by omega), htime]

theorem zero_not_mem_formatted (h : FourDigits tm) : (0 : UInt8) ∉ formatted tm := by
  obtain ⟨hyear, hmon, hmday, hhour, hmin, hsec⟩ := h
  rw [formatted, blankPadded_eq hyear.1, timeText]
  simp only [List.mem_append, List.mem_cons, not_or]
  refine ⟨zero_not_mem_zeroPadded 4 (by omega), zero_not_mem_zeroPadded 2 (by omega),
    zero_not_mem_zeroPadded 2 (by omega), by decide, zero_not_mem_zeroPadded 2 hhour.1, by decide,
    zero_not_mem_zeroPadded 2 hmin.1, by decide, zero_not_mem_zeroPadded 2 hsec.1⟩

theorem formatted_injective (h : FourDigits tm) (h' : FourDigits tm')
    (heq : formatted tm = formatted tm') : tm = tm' := by
  obtain ⟨hyear, hmon, hmday, hhour, hmin, hsec⟩ := h
  obtain ⟨hyear', hmon', hmday', hhour', hmin', hsec'⟩ := h'
  rw [formatted, formatted, blankPadded_eq hyear.1, blankPadded_eq hyear'.1, timeText,
    timeText] at heq
  obtain ⟨hy, heq⟩ := zeroPadded_append_inj 4 (by decide) (by omega) (by omega) heq
  obtain ⟨ho, heq⟩ := zeroPadded_append_inj 2 (by decide) (by omega) (by omega) heq
  obtain ⟨hd, heq⟩ := zeroPadded_append_inj 2 (by decide) (by omega) (by omega) heq
  obtain ⟨hh, heq⟩ := zeroPadded_append_inj 2 (by decide) (by omega) (by omega) (List.cons.inj heq).2
  obtain ⟨hi, heq⟩ := zeroPadded_append_inj 2 (by decide) (by omega) (by omega) (List.cons.inj heq).2
  have hs := (List.cons.inj heq).2
  have hyear₁ := zeroPadded_injective 4 (by omega) (by omega) hy
  have hmon₁ := zeroPadded_injective 2 (by omega) (by omega) ho
  have hmday₁ := zeroPadded_injective 2 (by omega) (by omega) hd
  have hhour₁ := zeroPadded_injective 2 hhour.1 hhour'.1 hh
  have hmin₁ := zeroPadded_injective 2 hmin.1 hmin'.1 hi
  have hsec₁ := zeroPadded_injective 2 hsec.1 hsec'.1 hs
  cases tm
  cases tm'
  simp only [Tm.mk.injEq] at *
  omega

theorem localtime_r_eq_iff (offset t : Int) : localtime_r offset t = localtime_r 0 t ↔ offset = 0 := by
  constructor
  · intro heq
    have hlocal := mktime_localtime_r offset t
    have hutc := mktime_localtime_r 0 t
    rw [← heq] at hutc
    rw [mktime] at hlocal hutc
    omega
  · rintro rfl
    rfl

end Text

section Array

variable {text : Bytes}

theorem T_append (h : (0 : UInt8) ∉ text) (rest : Bytes) :
    T (text ++ 0 :: rest) text.length = some text := by
  have htake : (text ++ 0 :: rest).takeWhile (· ≠ 0) = text := by
    rw [List.takeWhile_append_of_pos, List.takeWhile_cons_of_neg, List.append_nil]
    · decide
    · intro c hc
      exact decide_eq_true fun hzero => h (hzero ▸ hc)
  rw [T, strlen, htake, if_pos rfl, List.take_left]

theorem strncpy_eq (dest : Bytes) {count : Nat} (h : text.length < count) :
    ∃ rest, strncpy dest text count = text ++ 0 :: rest := by
  obtain ⟨k, hk⟩ := Nat.exists_eq_add_of_lt h
  have hsub : count - text.length = k + 1 := by omega
  refine ⟨List.replicate k 0 ++ dest.drop count, ?_⟩
  rw [strncpy, List.take_of_length_le h.le, hsub]
  rfl

theorem T_snprintf (hlength : text.length ≤ 31) (h : (0 : UInt8) ∉ text) :
    T (snprintf 32 text) text.length = some text := by
  rw [snprintf, List.take_of_length_le hlength]
  exact T_append h []

end Array

section Statements

variable {offset gettid : Int} {v : ThreadLocals} {s t : Statement} {text : Bytes}

structure IsTime (text : Bytes) : Prop where
  length : text.length = 17
  zero : (0 : UInt8) ∉ text

theorem isTime_timeString (h : Usual offset s.date) (h' : Usual 0 s.date) :
    IsTime (timeString offset s) := by
  rw [timeString]
  split
  · exact ⟨length_formatted (fourDigits_localtime_r h.year),
      zero_not_mem_formatted (fourDigits_localtime_r h.year)⟩
  · exact ⟨length_formatted (fourDigits_localtime_r h'.year),
      zero_not_mem_formatted (fourDigits_localtime_r h'.year)⟩

theorem microseconds_range (h : Usual offset s.date) :
    0 ≤ s.date - roundSecond s.date ∧ s.date - roundSecond s.date < 1000000 := by
  have hlater := h.later
  rw [roundSecond, MICRO_SECONDS_PRE_SEC, Int.tmod_eq_emod_of_nonneg (by omega)]
  omega

theorem T_microText (h : Usual offset s.date) :
    T (snprintf 32 (microText s)) (if s.displayLocalTime then 8 else 12) =
      some (microText s) := by
  obtain ⟨hn, hless⟩ := microseconds_range h
  have hdigits := length_zeroPadded 6 (by decide) hn (by omega)
  have hzero := zero_not_mem_zeroPadded 6 hn
  have hlength : (microText s).length = if s.displayLocalTime then 8 else 12 := by
    rw [microText, List.length_cons, List.length_append, hdigits]
    cases s.displayLocalTime <;> rfl
  rw [← hlength]
  refine T_snprintf ?_ ?_
  · rw [hlength]
    split <;> decide
  · rw [microText, List.mem_cons, List.mem_append, not_or, not_or]
    refine ⟨by decide, hzero, ?_⟩
    cases s.displayLocalTime <;> decide

theorem now_eq (h : Usual offset s.date) :
    (((secondsSinceEpoch s.date % 18446744073709551616).toNat : Nat) : Int) =
      secondsSinceEpoch s.date ∧ 1 ≤ secondsSinceEpoch s.date := by
  obtain ⟨hlater, hbounded, -⟩ := h
  rw [secondsSinceEpoch, MICRO_SECONDS_PRE_SEC, Int.tdiv_eq_ediv_of_nonneg (by omega)]
  omega

structure Keeps (gettid : Int) (v : ThreadLocals) (s : Statement) (text : Bytes) : Prop where
  second : (v.lastSecond : Int) = secondsSinceEpoch s.date
  cached : ∃ rest, v.lastTimeString = text ++ 0 :: rest
  thread : v.threadId = 0 ∨ v.threadId = gettid

theorem formatTime_eq (h : Usual offset s.date) (htext : IsTime text)
    (hkeeps : Keeps gettid (refreshed offset v s) s text) :
    ∃ v', formatTime offset gettid v s =
        some (v', text ++ (microText s ++ decimalText gettid)) ∧ Keeps gettid v' s text := by
  obtain ⟨hsecond, ⟨rest, hcached⟩, hthread⟩ := hkeeps
  have htime := T_append htext.zero rest
  rw [htext.length] at htime
  have hid : (if (refreshed offset v s).threadId = 0 then gettid
      else (refreshed offset v s).threadId) = gettid := by
    split
    · rfl
    · exact hthread.resolve_left (by assumption)
  rw [formatTime]
  simp only [hcached, htime, T_microText h, hid, Option.bind_some, Option.map_some]
  exact ⟨_, rfl, hsecond, ⟨rest, rfl⟩, Or.inr rfl⟩

theorem keeps_refreshed_new (h : Usual offset s.date) (h' : Usual 0 s.date)
    (hthread : v.threadId = 0 ∨ v.threadId = gettid)
    (hnew : (v.lastSecond : Int) ≠ secondsSinceEpoch s.date) :
    Keeps gettid (refreshed offset v s) s (timeString offset s) := by
  have hshort : (timeString offset s).length < 31 := by
    rw [(isTime_timeString h h').length]
    decide
  obtain ⟨rest, hcopy⟩ := strncpy_eq v.lastTimeString hshort
  have hnow := (now_eq h).1
  rw [refreshed, if_pos (by omega)]
  exact ⟨hnow, ⟨rest, hcopy⟩, hthread⟩

theorem keeps_refreshed_same (h : Usual offset t.date) (hkeeps : Keeps gettid v s text)
    (hsame : secondsSinceEpoch s.date = secondsSinceEpoch t.date) :
    Keeps gettid (refreshed offset v t) t text := by
  obtain ⟨hsecond, hcached, hthread⟩ := hkeeps
  have hnow := (now_eq h).1
  rw [refreshed, if_neg (by omega)]
  exact ⟨hsecond.trans hsame, hcached, hthread⟩

theorem timeString_eq_iff (h : Usual offset s.date) (h' : Usual 0 s.date)
    (hsame : secondsSinceEpoch s.date = secondsSinceEpoch t.date) :
    timeString offset s = timeString offset t ↔
      offset = 0 ∨ s.displayLocalTime = t.displayLocalTime := by
  have hlocal := localtime_r_eq_iff offset (secondsSinceEpoch t.date)
  have hdigits := fourDigits_localtime_r h.year
  have hdigits' := fourDigits_localtime_r h'.year
  rw [hsame] at hdigits hdigits'
  have hinjective := formatted_injective hdigits hdigits'
  have hinjective' := formatted_injective hdigits' hdigits
  rw [timeString, timeString, toFormattedString, toFormattedString, toFormattedStringLocal,
    toFormattedStringLocal, toFormattedStringLocal, toFormattedStringLocal, hsame]
  cases s.displayLocalTime <;> cases t.displayLocalTime
  · exact iff_of_true rfl (Or.inr rfl)
  · constructor
    · intro heq
      exact Or.inl (hlocal.mp (hinjective' heq).symm)
    · rintro (rfl | hmode)
      · rfl
      · cases hmode
  · constructor
    · intro heq
      exact Or.inl (hlocal.mp (hinjective heq))
    · rintro (rfl | hmode)
      · rfl
      · cases hmode
  · exact iff_of_true rfl (Or.inr rfl)

def SameClock (s t : Statement) : Prop :=
  secondsSinceEpoch s.date = secondsSinceEpoch t.date → s.displayLocalTime = t.displayLocalTime

theorem formatAll_cons_iff {v' : ThreadLocals} {line out : Bytes} {rest : List Statement}
    {outs : List Bytes} (hline : formatTime offset gettid v t = some (v', line)) :
    formatAll offset gettid v (t :: rest) = some (out :: outs) ↔
      line = out ∧ formatAll offset gettid v' rest = some outs := by
  rw [formatAll, hline, Option.bind_some, Option.map_eq_some_iff]
  constructor
  · rintro ⟨texts, hrest, hcons⟩
    obtain ⟨hout, houts⟩ := List.cons.inj hcons
    exact ⟨hout, houts ▸ hrest⟩
  · rintro ⟨hout, hrest⟩
    exact ⟨outs, hrest, hout ▸ rfl⟩

theorem formatAll_isSome (stmts : List Statement)
    (husual : ∀ t ∈ stmts, Usual offset t.date ∧ Usual 0 t.date) :
    ∀ {v : ThreadLocals} {s : Statement} {text : Bytes}, IsTime text → Keeps gettid v s text →
      ∃ texts, formatAll offset gettid v stmts = some texts := by
  induction stmts with
  | nil =>
      intro v s text htext hkeeps
      exact ⟨[], rfl⟩
  | cons t rest ih =>
      intro v s text htext hkeeps
      obtain ⟨husual, hrest⟩ := List.forall_mem_cons.mp husual
      obtain ⟨text', htext', hkeeps'⟩ :
          ∃ text', IsTime text' ∧ Keeps gettid (refreshed offset v t) t text' := by
        by_cases hsame : secondsSinceEpoch s.date = secondsSinceEpoch t.date
        · exact ⟨text, htext, keeps_refreshed_same husual.1 hkeeps hsame⟩
        · exact ⟨_, isTime_timeString husual.1 husual.2,
            keeps_refreshed_new husual.1 husual.2 hkeeps.thread (hkeeps.second ▸ hsame)⟩
      obtain ⟨v', hline, hkeeps'⟩ := formatTime_eq husual.1 htext' hkeeps'
      obtain ⟨texts, hrest⟩ := ih hrest htext' hkeeps'
      refine ⟨(text' ++ (microText t ++ decimalText gettid)) :: texts, ?_⟩
      rw [formatAll, hline, Option.bind_some, hrest, Option.map_some]

theorem formatAll_iff (stmts : List Statement)
    (husual : ∀ t ∈ stmts, Usual offset t.date ∧ Usual 0 t.date) :
    ∀ {v : ThreadLocals} {s : Statement}, Usual offset s.date → Usual 0 s.date →
      Keeps gettid v s (timeString offset s) →
      (formatAll offset gettid v stmts = some (stmts.map (plain offset gettid)) ↔
        offset = 0 ∨ (s :: stmts).IsChain SameClock) := by
  induction stmts with
  | nil =>
      intro v s hs hs' hkeeps
      exact iff_of_true rfl (Or.inr (List.IsChain.singleton s))
  | cons t rest ih =>
      intro v s hs hs' hkeeps
      obtain ⟨ht, hrest⟩ := List.forall_mem_cons.mp husual
      have htime := isTime_timeString ht.1 ht.2
      rw [List.isChain_cons_cons]
      by_cases hsame : secondsSinceEpoch s.date = secondsSinceEpoch t.date
      · have hclock : SameClock s t ↔ s.displayLocalTime = t.displayLocalTime :=
          forall_prop_of_true hsame
        have hequal := timeString_eq_iff hs hs' hsame
        obtain ⟨v', hline, hkeeps'⟩ := formatTime_eq ht.1 (isTime_timeString hs hs')
          (keeps_refreshed_same ht.1 hkeeps hsame)
        rw [List.map_cons, formatAll_cons_iff hline, plain, List.append_left_inj]
        by_cases hmode : timeString offset s = timeString offset t
        · rw [hmode] at hkeeps'
          rw [ih hrest ht.1 ht.2 hkeeps', hclock]
          tauto
        · rw [hclock]
          tauto
      · have hclock : SameClock s t := fun h => absurd h hsame
        obtain ⟨v', hline, hkeeps'⟩ := formatTime_eq ht.1 htime
          (keeps_refreshed_new ht.1 ht.2 hkeeps.thread (hkeeps.second ▸ hsame))
        rw [List.map_cons, formatAll_cons_iff hline, ih hrest ht.1 ht.2 hkeeps', plain,
          and_iff_right rfl, and_iff_right hclock]

/-- Whatever a thread logs, each statement has a time, no assertion fails. What is kept is never
seen in it exactly where there is one clock only, or where no two statements in a row of one second
are of different modes. -/
theorem formatAll_eq_plain_iff (offset gettid : Int) (stmts : List Statement)
    (husual : ∀ s ∈ stmts, Usual offset s.date ∧ Usual 0 s.date) :
    (∃ texts, formatAll offset gettid .init stmts = some texts) ∧
      (formatAll offset gettid .init stmts = some (stmts.map (plain offset gettid)) ↔
        offset = 0 ∨ stmts.IsChain SameClock) := by
  cases stmts with
  | nil => exact ⟨⟨[], rfl⟩, iff_of_true rfl (Or.inr List.IsChain.nil)⟩
  | cons s rest =>
      obtain ⟨hs, hrest⟩ := List.forall_mem_cons.mp husual
      have hfirst := (now_eq hs.1).2
      have hnew : ((ThreadLocals.init.lastSecond : Nat) : Int) ≠ secondsSinceEpoch s.date := by
        exact fun hzero => absurd hfirst (hzero ▸ by decide)
      have htime := isTime_timeString hs.1 hs.2
      have hkeeps : Keeps gettid (refreshed offset .init s) s (timeString offset s) :=
        keeps_refreshed_new hs.1 hs.2 (Or.inl rfl) hnew
      obtain ⟨v', hline, hkeeps⟩ := formatTime_eq hs.1 htime hkeeps
      obtain ⟨texts, htexts⟩ := formatAll_isSome rest hrest htime hkeeps
      constructor
      · refine ⟨(timeString offset s ++ (microText s ++ decimalText gettid)) :: texts, ?_⟩
        rw [formatAll, hline, Option.bind_some, htexts, Option.map_some]
      · rw [List.map_cons, formatAll_cons_iff hline, formatAll_iff rest hrest hs.1 hs.2 hkeeps,
          plain, and_iff_right rfl]

def sampleStatements : List Statement :=
  [⟨951865199500000, true⟩, ⟨951865199600000, false⟩, ⟨951865200000000, false⟩]

/-- An hour ahead of UTC the second of the three shows the local time and says that it is UTC. -/
theorem formatAll_eq_plain_iff_sample :
    (∃ texts, formatAll 3600 7 .init sampleStatements = some texts) ∧
      (formatAll 3600 7 .init sampleStatements = some (sampleStatements.map (plain 3600 7)) ↔
        (3600 : Int) = 0 ∨ sampleStatements.IsChain SameClock) := by
  refine formatAll_eq_plain_iff 3600 7 sampleStatements ?_
  intro s hs
  simp only [sampleStatements, List.mem_cons, List.not_mem_nil, or_false] at hs
  rcases hs with rfl | rfl | rfl <;>
    exact ⟨⟨by decide, by decide, by decide⟩, ⟨by decide, by decide, by decide⟩⟩

example : formatAll 3600 7 .init sampleStatements =
    some (["20000229 23:59:59.500000 7", "20000229 23:59:59.600000 UTC 7",
      "20000229 23:00:00.000000 UTC 7"].map ascii) := by
  decide

end Statements

end Cooper.LogTime

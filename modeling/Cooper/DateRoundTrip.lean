import Cooper.Date

namespace Cooper.DateRoundTrip

open Cooper.CivilDate
open Cooper.Date
open Cooper.DecimalText
open Cooper.Http (digitsValue isDigit)
open Cooper.ListSearch
open Cooper.MsgBuffer
open Cooper.Utilities (isspace)

section Clock

variable (offset t : Int)

theorem mktime_civil (z hour min sec : Int) :
    mktime offset {
      tm_year := (civilFromDays z).year - 1900
      tm_mon := (civilFromDays z).month - 1
      tm_mday := (civilFromDays z).day
      tm_hour := hour
      tm_min := min
      tm_sec := sec } = z * 86400 + hour * 3600 + min * 60 + sec - offset := by
  obtain ⟨hmonth, hmonth', -, -⟩ := civilFromDays_range z
  have hyear : (civilFromDays z).year - 1900 + 1900 + ((civilFromDays z).month - 1) / 12 =
      (civilFromDays z).year := by omega
  have hmod : ((civilFromDays z).month - 1) % 12 + 1 = (civilFromDays z).month := by omega
  rw [mktime]
  simp only
  rw [hyear, hmod]
  have hdays := daysFromCivil_civilFromDays z
  rw [hdays]

theorem mktime_localtime_r : mktime offset (localtime_r offset t) = t := by
  rw [localtime_r, mktime_civil]
  omega

theorem roundDay_eq {date : Int} (hdate : 0 ≤ date) :
    roundDay offset date =
      (date / 1000000 - (date / 1000000 + offset) % 86400) * 1000000 := by
  rw [roundDay, MICRO_SECONDS_PRE_SEC, Int.tdiv_eq_ediv_of_nonneg hdate, localtime_r]
  simp only
  rw [mktime_civil]
  omega

end Clock

section Digits

variable {s : Bytes} {n : Int}

theorem isDigit_iff (c : UInt8) : isDigit c = true ↔ 48 ≤ c ∧ c ≤ 57 := decide_eq_true_iff

theorem minus_of_nonneg (hn : 0 ≤ n) : minus n = [] := if_neg (Int.not_lt.mpr hn)

theorem zeroPadded_eq (width : Nat) (hn : 0 ≤ n) :
    zeroPadded width n =
      List.replicate (width - (ascii (toString n.natAbs)).length) 48 ++
        ascii (toString n.natAbs) := by
  rw [zeroPadded, minus_of_nonneg hn]
  rfl

theorem zeroPadded_ne_nil (width : Nat) (hn : 0 ≤ n) : zeroPadded width n ≠ [] := by
  rw [zeroPadded_eq width hn]
  exact List.append_ne_nil_of_right_ne_nil _ (toString_ne_nil _)

theorem isDigit_of_mem_zeroPadded (width : Nat) (hn : 0 ≤ n) {c : UInt8}
    (hc : c ∈ zeroPadded width n) : isDigit c = true := by
  rw [zeroPadded_eq width hn] at hc
  rw [isDigit_iff]
  rcases List.mem_append.mp hc with hzero | hdigit
  · rw [List.eq_of_mem_replicate hzero]
    decide
  · exact mem_toString hdigit

theorem digitsValue_zeroPadded (width : Nat) (hn : 0 ≤ n) :
    digitsValue (zeroPadded width n) = n.natAbs := by
  have hzeros : ∀ k, (List.replicate k (48 : UInt8)).foldl
      (fun value c => value * 10 + (c.toNat - 48)) 0 = 0 := by
    intro k
    induction k with
    | zero => rfl
    | succ k ih => exact ih
  rw [zeroPadded_eq width hn, digitsValue, List.foldl_append, hzeros]
  exact decimalValue_toString n.natAbs

theorem length_toString_le {k : Nat} (hk : 0 < k) :
    (ascii (toString n.natAbs)).length ≤ k ↔ n.natAbs < 10 ^ k := by
  rw [ascii_toString, List.length_map]
  exact Nat.length_toDigits_le_iff (by decide) hk

theorem length_zeroPadded (width : Nat) (hwidth : 0 < width) (hn : 0 ≤ n)
    (hless : n.natAbs < 10 ^ width) : (zeroPadded width n).length = width := by
  have hlength := (length_toString_le hwidth).mpr hless
  rw [zeroPadded_eq width hn, List.length_append, List.length_replicate]
  omega

theorem blankPadded_eq (hn : 1000 ≤ n) : blankPadded 4 n = zeroPadded 4 n := by
  have hlong : ¬(ascii (toString n.natAbs)).length ≤ 3 := by
    rw [length_toString_le (by decide)]
    omega
  have hnone : 4 - (ascii (toString n.natAbs)).length = 0 := by omega
  rw [zeroPadded_eq 4 (by omega), blankPadded, minus_of_nonneg (by omega), hnone]
  simp only [List.length_nil, Nat.sub_zero, hnone]
  rfl

theorem isspace_of_isDigit {c : UInt8} (hc : isDigit c = true) :
    isspace c = false ∧ c ≠ 45 ∧ c ≠ 43 := by
  obtain ⟨hlow, hhigh⟩ := (isDigit_iff c).mp hc
  rw [UInt8.le_iff_toNat_le] at hlow hhigh
  refine ⟨?_, ?_, ?_⟩
  · rw [isspace, decide_eq_false_iff_not]
    rintro (rfl | ⟨-, hless⟩)
    · exact absurd hlow (by decide)
    · rw [UInt8.le_iff_toNat_le] at hless
      have hsmall : (48 : UInt8).toNat ≤ (13 : UInt8).toNat := hlow.trans hless
      exact absurd hsmall (by decide)
  · rintro rfl
    exact absurd hlow (by decide)
  · rintro rfl
    exact absurd hlow (by decide)

theorem stol_digits (hne : s ≠ []) (hs : ∀ c ∈ s, isDigit c = true)
    (hvalue : digitsValue s ≤ 9223372036854775807) : stol s = some (digitsValue s : Int) := by
  cases s with
  | nil => exact absurd rfl hne
  | cons c rest =>
      obtain ⟨hspace, hminus, hplus⟩ := isspace_of_isDigit (hs c List.mem_cons_self)
      have hdrop : (c :: rest).dropWhile isspace = c :: rest :=
        List.dropWhile_cons_of_neg (by simp [hspace])
      have htake : (c :: rest).takeWhile isDigit = c :: rest := List.takeWhile_eq_self_iff.mpr hs
      rw [stol, hdrop]
      simp only [List.head?_cons, Option.some.injEq, hminus, hplus, or_self, if_false, htake]
      rw [if_neg (by simp), if_neg (by omega)]

theorem stou_zeroPadded (width : Nat) (hn : 0 ≤ n) (hless : n < 4294967296) :
    stou (zeroPadded width n) = some (UInt32.ofInt n) := by
  have hvalue := digitsValue_zeroPadded width hn
  have hstol := stol_digits (zeroPadded_ne_nil width hn)
    (fun c hc => isDigit_of_mem_zeroPadded width hn hc) (by omega)
  rw [stou, hstol, hvalue, Int.natAbs_of_nonneg hn, Option.map_some]

end Digits

section Pieces

variable {c : UInt8}

theorem search_delimiter {front : Bytes} (hfront : c ∉ front) (rest : Bytes) :
    search [c] (front ++ c :: rest) = some front.length := by
  induction front with
  | nil => exact if_pos ⟨rest, rfl⟩
  | cons a front ih =>
      rw [List.mem_cons, not_or] at hfront
      obtain ⟨hne, hrest⟩ := hfront
      have hstart : ¬[c] <+: a :: (front ++ c :: rest) := by
        rintro ⟨tail, htail⟩
        exact hne (List.cons.inj htail).1
      rw [List.cons_append, search, if_neg hstart, ih hrest]
      rfl

theorem search_absent {s : Bytes} (hs : c ∉ s) : search [c] s = none := by
  induction s with
  | nil => rfl
  | cons a s ih =>
      rw [List.mem_cons, not_or] at hs
      obtain ⟨hne, hrest⟩ := hs
      have hstart : ¬[c] <+: a :: s := by
        rintro ⟨tail, htail⟩
        exact hne (List.cons.inj htail).1
      rw [search, if_neg hstart, ih hrest]
      rfl

def delimited (c : UInt8) (piece : Bytes) : List Bytes → Bytes
  | [] => piece
  | next :: pieces => piece ++ c :: delimited c next pieces

def IsPiece (c : UInt8) (piece : Bytes) : Prop := piece ≠ [] ∧ c ∉ piece

theorem splitLoop_delimited {piece : Bytes} {pieces : List Bytes}
    (h : ∀ p ∈ piece :: pieces, IsPiece c p) {fuel : Nat} (hfuel : pieces.length < fuel) :
    splitLoop [c] false fuel (delimited c piece pieces) = piece :: pieces := by
  induction pieces generalizing piece fuel with
  | nil =>
      obtain ⟨hne, habsent⟩ := h piece List.mem_cons_self
      obtain ⟨n, rfl⟩ := Nat.exists_eq_succ_of_ne_zero hfuel.ne'
      rw [delimited, splitLoop, search_absent habsent]
      exact if_pos (.inl (List.length_pos_of_ne_nil hne))
  | cons next pieces ih =>
      obtain ⟨hne, habsent⟩ := h piece List.mem_cons_self
      obtain ⟨n, rfl⟩ := Nat.exists_eq_succ_of_ne_zero (Nat.ne_of_gt (Nat.zero_lt_of_lt hfuel))
      have hrest : (piece ++ c :: delimited c next pieces).drop (piece.length + 1) =
          delimited c next pieces := by
        rw [← List.drop_drop, List.drop_left' rfl]
        rfl
      rw [delimited, splitLoop, search_delimiter habsent]
      simp only [List.length_singleton]
      rw [if_pos (.inl (List.length_pos_of_ne_nil hne)), List.take_left' rfl, hrest,
        ih (fun p hp => h p (List.mem_cons_of_mem _ hp)) (Nat.lt_of_succ_lt_succ hfuel)]
      rfl

theorem length_le_delimited (piece : Bytes) (pieces : List Bytes) :
    pieces.length ≤ (delimited c piece pieces).length := by
  induction pieces generalizing piece with
  | nil => exact Nat.zero_le _
  | cons next pieces ih =>
      have hrest := ih next
      rw [delimited, List.length_append, List.length_cons, List.length_cons]
      omega

theorem splitString_delimited {piece : Bytes} (pieces : List Bytes)
    (h : ∀ p ∈ piece :: pieces, IsPiece c p) :
    splitString (delimited c piece pieces) [c] false = piece :: pieces :=
  splitLoop_delimited h (Nat.lt_succ_of_le (length_le_delimited piece pieces))

theorem splitString_one {s : Bytes} (h : IsPiece c s) : splitString s [c] false = [s] :=
  splitString_delimited [] (List.forall_mem_singleton.mpr h)

theorem splitString_two {s t : Bytes} (hs : IsPiece c s) (ht : IsPiece c t) :
    splitString (s ++ c :: t) [c] false = [s, t] :=
  splitString_delimited [t]
    (List.forall_mem_cons.mpr ⟨hs, List.forall_mem_singleton.mpr ht⟩)

theorem splitString_three {s t u : Bytes} (hs : IsPiece c s) (ht : IsPiece c t) (hu : IsPiece c u) :
    splitString (s ++ c :: (t ++ c :: u)) [c] false = [s, t, u] :=
  splitString_delimited [t, u] (List.forall_mem_cons.mpr
    ⟨hs, List.forall_mem_cons.mpr ⟨ht, List.forall_mem_singleton.mpr hu⟩⟩)

end Pieces

structure FourDigits (tm : Tm) : Prop where
  year : 1000 ≤ tm.tm_year + 1900 ∧ tm.tm_year + 1900 ≤ 9999
  mon : 0 ≤ tm.tm_mon ∧ tm.tm_mon ≤ 11
  mday : 1 ≤ tm.tm_mday ∧ tm.tm_mday ≤ 31
  hour : 0 ≤ tm.tm_hour ∧ tm.tm_hour ≤ 23
  min : 0 ≤ tm.tm_min ∧ tm.tm_min ≤ 59
  sec : 0 ≤ tm.tm_sec ∧ tm.tm_sec ≤ 59

section Reading

variable {tm : Tm} {micro : Int}

theorem fourDigits_localtime_r {offset t : Int}
    (hyear : 1000 ≤ (localtime_r offset t).tm_year + 1900 ∧
      (localtime_r offset t).tm_year + 1900 ≤ 9999) : FourDigits (localtime_r offset t) := by
  obtain ⟨hmonth, hmonth', hday, hday'⟩ := civilFromDays_range ((t + offset) / 86400)
  refine ⟨hyear, ?_, ⟨hday, hday'⟩, ?_, ?_, ?_⟩ <;> simp only [localtime_r] <;> omega

def fieldsOf (tm : Tm) (micro : Int) : DateFields where
  year := UInt32.ofInt (tm.tm_year + 1900)
  month := UInt32.ofInt (tm.tm_mon + 1)
  day := UInt32.ofInt tm.tm_mday
  hour := UInt32.ofInt tm.tm_hour
  minute := UInt32.ofInt tm.tm_min
  second := UInt32.ofInt tm.tm_sec
  microSecond := UInt32.ofInt micro

theorem toNat_ofInt {n : Int} (hn : 0 ≤ n) (hless : n < 4294967296) :
    ((UInt32.ofInt n).toNat : Int) = n := by
  have hmod : n % 2 ^ 32 = n := Int.emod_eq_of_lt hn hless
  rw [UInt32.ofInt, hmod, UInt32.toNat_ofNat']
  omega

theorem toInt_eq {u : UInt32} {n : Int} (hn : -2147483648 ≤ n) (hless : n < 2147483648)
    (hu : (u.toNat : Int) = n % 4294967296) : toInt u = n := by
  rw [toInt]
  split <;> omega

theorem toInt_ofInt {n : Int} (hn : 0 ≤ n) (hless : n < 2147483648) :
    toInt (UInt32.ofInt n) = n := by
  apply toInt_eq (by omega) hless
  rw [toNat_ofInt hn (by omega)]
  omega

theorem toInt_ofInt_sub {n : Int} (c : UInt32) (hn : 0 ≤ n) (hless : n < 2147483648)
    (hc : c.toNat < 2147483648) : toInt (UInt32.ofInt n - c) = n - c.toNat := by
  have hnat := toNat_ofInt hn (by omega)
  apply toInt_eq (by omega) (by omega)
  rw [UInt32.toNat_sub]
  omega

theorem newDate_fieldsOf (h : FourDigits tm) (offset : Int) (hmicro : 0 ≤ micro ∧ micro < 1000000) :
    newDate offset (fieldsOf tm micro) = mktime offset tm * 1000000 + micro := by
  obtain ⟨hyear, hmon, hmday, hhour, hmin, hsec⟩ := h
  have hyear' := toInt_ofInt_sub 1900 (show 0 ≤ tm.tm_year + 1900 by omega) (by omega) (by decide)
  have hmon' := toInt_ofInt_sub 1 (show 0 ≤ tm.tm_mon + 1 by omega) (by omega) (by decide)
  change _ = tm.tm_year + 1900 - 1900 at hyear'
  change _ = tm.tm_mon + 1 - 1 at hmon'
  rw [Int.add_sub_cancel] at hyear' hmon'
  rw [newDate, fieldsOf]
  simp only
  rw [hyear', hmon', toInt_ofInt (by omega) (by omega), toInt_ofInt (by omega) (by omega),
    toInt_ofInt (by omega) (by omega), toInt_ofInt (by omega) (by omega),
    toNat_ofInt hmicro.1 (by omega), MICRO_SECONDS_PRE_SEC]

theorem isPiece_zeroPadded (width : Nat) {n : Int} (hn : 0 ≤ n) {c : UInt8}
    (hc : isDigit c = false) : IsPiece c (zeroPadded width n) := by
  refine ⟨zeroPadded_ne_nil width hn, fun hmem => ?_⟩
  rw [isDigit_of_mem_zeroPadded width hn hmem] at hc
  exact absurd hc (by decide)

theorem isPiece_append {c d : UInt8} {s t : Bytes} (hs : IsPiece c s) (hne : c ≠ d)
    (ht : IsPiece c t) : IsPiece c (s ++ d :: t) := by
  refine ⟨List.append_ne_nil_of_left_ne_nil hs.1 _, ?_⟩
  rw [List.mem_append, List.mem_cons, not_or, not_or]
  exact ⟨hs.2, hne, ht.2⟩

theorem dateText_eq (h : FourDigits tm) :
    dateText tm = zeroPadded 4 (tm.tm_year + 1900) ++
      45 :: (zeroPadded 2 (tm.tm_mon + 1) ++ 45 :: zeroPadded 2 tm.tm_mday) := by
  rw [dateText, blankPadded_eq h.year.1]

theorem dbFields_text (h : FourDigits tm) {time : Bytes} (htime : IsPiece 32 time) :
    dbFields (dateText tm ++ 32 :: time) =
      timeFields { noFields with
        year := UInt32.ofInt (tm.tm_year + 1900)
        month := UInt32.ofInt (tm.tm_mon + 1)
        day := UInt32.ofInt tm.tm_mday } time := by
  obtain ⟨hyear, hmon, hmday, -, -, -⟩ := id h
  have hpieces {c : UInt8} (hc : isDigit c = false) :=
    And.intro (isPiece_zeroPadded 4 (show 0 ≤ tm.tm_year + 1900 by omega) hc)
      (And.intro (isPiece_zeroPadded 2 (show 0 ≤ tm.tm_mon + 1 by omega) hc)
        (isPiece_zeroPadded 2 (show 0 ≤ tm.tm_mday by omega) hc))
  obtain ⟨hblank, hblank', hblank''⟩ := hpieces (show isDigit 32 = false by decide)
  obtain ⟨hdash, hdash', hdash''⟩ := hpieces (show isDigit 45 = false by decide)
  have hdate : IsPiece 32 (dateText tm) := by
    rw [dateText_eq h]
    exact isPiece_append hblank (by decide) (isPiece_append hblank' (by decide) hblank'')
  rw [dbFields, splitString_two hdate htime]
  simp only
  rw [dateText_eq h, splitString_three hdash hdash' hdash'']
  simp only
  rw [stou_zeroPadded 4 (by omega) (by omega), stou_zeroPadded 2 (by omega) (by omega),
    stou_zeroPadded 2 (by omega) (by omega)]
  rfl

theorem timeFields_text (h : FourDigits tm) (fields : DateFields) {seconds : Bytes}
    (hseconds : IsPiece 58 seconds) :
    timeFields fields
        (zeroPadded 2 tm.tm_hour ++ 58 :: (zeroPadded 2 tm.tm_min ++ 58 :: seconds)) =
      secondFields { fields with
        hour := UInt32.ofInt tm.tm_hour
        minute := UInt32.ofInt tm.tm_min } seconds := by
  obtain ⟨-, -, -, hhour, hmin, -⟩ := h
  rw [timeFields, splitString_three (isPiece_zeroPadded 2 (by omega) (by decide))
    (isPiece_zeroPadded 2 (by omega) (by decide)) hseconds]
  simp only
  rw [stou_zeroPadded 2 (by omega) (by omega), stou_zeroPadded 2 (by omega) (by omega)]
  rfl

theorem secondFields_seconds (h : FourDigits tm) (fields : DateFields) :
    secondFields fields (zeroPadded 2 tm.tm_sec) =
      some { fields with second := UInt32.ofInt tm.tm_sec } := by
  obtain ⟨-, -, -, -, -, hsec⟩ := h
  rw [secondFields, splitString_one (isPiece_zeroPadded 2 (by omega) (by decide))]
  simp only
  rw [stou_zeroPadded 2 (by omega) (by omega), Option.map_some]

theorem secondFields_micros (h : FourDigits tm) (fields : DateFields)
    (hmicro : 0 ≤ micro ∧ micro < 1000000) :
    secondFields fields (zeroPadded 2 tm.tm_sec ++ 46 :: zeroPadded 6 micro) =
      some { fields with
        second := UInt32.ofInt tm.tm_sec
        microSecond := UInt32.ofInt micro } := by
  obtain ⟨-, -, -, -, -, hsec⟩ := h
  have hsix : sixDigits (zeroPadded 6 micro) = zeroPadded 6 micro := by
    have hlength := length_zeroPadded 6 (by decide) hmicro.1 (by omega)
    rw [sixDigits, if_neg (by omega), if_neg (by omega)]
  rw [secondFields, splitString_two (isPiece_zeroPadded 2 (by omega) (by decide))
    (isPiece_zeroPadded 6 hmicro.1 (by decide))]
  simp only
  rw [stou_zeroPadded 2 (by omega) (by omega), hsix, stou_zeroPadded 6 hmicro.1 (by omega)]
  rfl

end Reading

section RoundTrip

variable {tm : Tm} {micro : Int}

theorem isPiece_hoursMinutes (h : FourDigits tm) {seconds : Bytes} (hseconds : IsPiece 32 seconds) :
    IsPiece 32 (zeroPadded 2 tm.tm_hour ++ 58 :: (zeroPadded 2 tm.tm_min ++ 58 :: seconds)) := by
  obtain ⟨-, -, -, hhour, hmin, -⟩ := h
  exact isPiece_append (isPiece_zeroPadded 2 (by omega) (by decide)) (by decide)
    (isPiece_append (isPiece_zeroPadded 2 (by omega) (by decide)) (by decide) hseconds)

theorem dbFields_whole (h : FourDigits tm) :
    dbFields (dateText tm ++ 32 :: timeText tm) = some (fieldsOf tm 0) := by
  have hsec := h.sec
  have hpiece {c : UInt8} (hc : isDigit c = false) : IsPiece c (zeroPadded 2 tm.tm_sec) :=
    isPiece_zeroPadded 2 (by omega) hc
  rw [timeText, dbFields_text h (isPiece_hoursMinutes h (hpiece (by decide))),
    timeFields_text h _ (hpiece (by decide)), secondFields_seconds h]
  rfl

theorem dbFields_micros (h : FourDigits tm) (hmicro : 0 ≤ micro ∧ micro < 1000000) :
    dbFields (dateText tm ++ 32 :: (timeText tm ++ 46 :: zeroPadded 6 micro)) =
      some (fieldsOf tm micro) := by
  have hsec := h.sec
  have hpiece {c : UInt8} (hc : isDigit c = false) (hdot : c ≠ 46) :
      IsPiece c (zeroPadded 2 tm.tm_sec ++ 46 :: zeroPadded 6 micro) :=
    isPiece_append (isPiece_zeroPadded 2 (by omega) hc) hdot (isPiece_zeroPadded 6 hmicro.1 hc)
  have htime : timeText tm ++ 46 :: zeroPadded 6 micro =
      zeroPadded 2 tm.tm_hour ++ 58 :: (zeroPadded 2 tm.tm_min ++ 58 ::
        (zeroPadded 2 tm.tm_sec ++ 46 :: zeroPadded 6 micro)) := by
    simp only [timeText, List.append_assoc, List.cons_append]
  rw [htime, dbFields_text h (isPiece_hoursMinutes h (hpiece (by decide) (by decide))),
    timeFields_text h _ (hpiece (by decide) (by decide)), secondFields_micros h _ hmicro]
  rfl

theorem dbFields_date (h : FourDigits tm) : dbFields (dateText tm) = some noFields := by
  obtain ⟨hyear, hmon, hmday, -, -, -⟩ := id h
  have hblank : isDigit 32 = false := by decide
  have hdate : IsPiece 32 (dateText tm) := by
    rw [dateText_eq h]
    exact isPiece_append (isPiece_zeroPadded 4 (by omega) hblank) (by decide)
      (isPiece_append (isPiece_zeroPadded 2 (by omega) hblank) (by decide)
        (isPiece_zeroPadded 2 (by omega) hblank))
  rw [dbFields, splitString_one hdate]

/-- What the constructor makes of nothing but zeros is the last of November of the year before the
year 0. -/
theorem newDate_noFields (offset : Int) :
    newDate offset noFields = (-719560 * 86400 - offset) * 1000000 := by
  have hdays : daysFromCivil ⟨-1900 + 1900 + -1 / 12, -1 % 12 + 1, 0⟩ = -719560 := by decide
  have hmktime : newDate offset noFields = mktime offset {
      tm_year := -1900
      tm_mon := -1
      tm_mday := 0
      tm_hour := 0
      tm_min := 0
      tm_sec := 0 } * 1000000 + 0 := rfl
  rw [hmktime, mktime]
  simp only
  rw [hdays]
  omega

/-- A date whose local year has four digits is read from the string that it is written as if and
only if it is not the midnight at which a day begins. -/
theorem fromDbStringLocal_eq_iff (offset date : Int) (hdate : 0 ≤ date)
    (hyear : 1000 ≤ (localtime_r offset (date / 1000000)).tm_year + 1900 ∧
      (localtime_r offset (date / 1000000)).tm_year + 1900 ≤ 9999) :
    fromDbStringLocal offset (toDbStringLocal offset date) = some date ↔
      ¬(date % 1000000 = 0 ∧ (date / 1000000 + offset) % 86400 = 0) := by
  have h := fourDigits_localtime_r hyear
  have hround := roundDay_eq offset hdate
  have hsplit := Int.mul_ediv_add_emod date 1000000
  rw [toDbStringLocal, MICRO_SECONDS_PRE_SEC, Int.tdiv_eq_ediv_of_nonneg hdate,
    Int.tmod_eq_emod_of_nonneg hdate]
  by_cases hmicro : date % 1000000 = 0
  · rw [if_neg (not_not.mpr hmicro)]
    by_cases hday : (date / 1000000 + offset) % 86400 = 0
    · rw [if_pos (by omega), fromDbStringLocal, dbFields_date h, Option.map_some, newDate_noFields,
        Option.some.injEq]
      refine iff_of_false ?_ (not_not.mpr ⟨hmicro, hday⟩)
      intro hsame
      have hdays : (date / 1000000 + offset) / 86400 = -719560 := by omega
      have hpast : (localtime_r offset (date / 1000000)).tm_year = -1901 := by
        have hyear' : (civilFromDays (-719560)).year - 1900 = -1901 := by decide
        rw [localtime_r, hdays]
        exact hyear'
      omega
    · rw [if_neg (by omega), fromDbStringLocal, dbFields_whole h, Option.map_some,
        newDate_fieldsOf h offset (by decide), mktime_localtime_r, Option.some.injEq]
      exact iff_of_true (by omega) fun hboth => hday hboth.2
  · rw [if_pos hmicro, fromDbStringLocal, dbFields_micros h (by omega), Option.map_some,
      newDate_fieldsOf h offset (by omega), mktime_localtime_r, Option.some.injEq]
    exact iff_of_true (by omega) fun hboth => hmicro hboth.1

theorem fromDbStringLocal_eq_iff_february :
    fromDbStringLocal 3600 (toDbStringLocal 3600 951865199500000) = some 951865199500000 ↔
      ¬((951865199500000 : Int) % 1000000 = 0 ∧
        ((951865199500000 : Int) / 1000000 + 3600) % 86400 = 0) :=
  fromDbStringLocal_eq_iff 3600 951865199500000 (by decide) (by decide)

/-- The second day of 1970, which is written without a time. -/
theorem not_fromDbStringLocal_eq :
    toDbStringLocal 0 86400000000 = ascii "1970-01-02" ∧
      fromDbStringLocal 0 (toDbStringLocal 0 86400000000) = some (-62169984000000000) ∧
      fromDbStringLocal 0 (toDbStringLocal 0 86400000000) ≠ some 86400000000 := by
  have htext : toDbStringLocal 0 86400000000 = ascii "1970-01-02" := by decide
  have hread : fromDbStringLocal 0 (ascii "1970-01-02") = some (-62169984000000000) := by decide
  rw [htext, hread]
  exact ⟨rfl, rfl, by decide⟩

end RoundTrip

end Cooper.DateRoundTrip

import Cooper.CivilDate
import Cooper.DecimalText
import Cooper.Http

namespace Cooper.Date

open Cooper.CivilDate
open Cooper.DecimalText
open Cooper.Http (digitsValue isDigit)
open Cooper.ListSearch
open Cooper.MsgBuffer
open Cooper.Utilities (isspace)

/-- `struct tm` -/
structure Tm where
  tm_sec : Int
  tm_min : Int
  tm_hour : Int
  tm_mday : Int
  tm_mon : Int
  tm_year : Int
  deriving DecidableEq

section Time

variable (offset : Int)

def localtime_r (t : Int) : Tm :=
  let c := civilFromDays ((t + offset) / 86400)
  let s := (t + offset) % 86400
  { tm_sec := s % 60
    tm_min := s / 60 % 60
    tm_hour := s / 3600
    tm_mday := c.day
    tm_mon := c.month - 1
    tm_year := c.year - 1900 }

/-- A month outside of the year is one of a year before or behind, and so for the smaller units. -/
def mktime (tm : Tm) : Int :=
  daysFromCivil ⟨tm.tm_year + 1900 + tm.tm_mon / 12, tm.tm_mon % 12 + 1, tm.tm_mday⟩ * 86400 +
    tm.tm_hour * 3600 + tm.tm_min * 60 + tm.tm_sec - offset

def MICRO_SECONDS_PRE_SEC : Int := 1000000

/-- A date is its number of microseconds since the epoch. -/
def roundDay (date : Int) : Int :=
  mktime offset { localtime_r offset (date.tdiv MICRO_SECONDS_PRE_SEC) with
    tm_hour := 0
    tm_min := 0
    tm_sec := 0 } * MICRO_SECONDS_PRE_SEC

def toInt (n : UInt32) : Int :=
  if n.toNat < 2147483648 then n.toNat else (n.toNat : Int) - 4294967296

/-- The arguments of the constructor. -/
structure DateFields where
  year : UInt32
  month : UInt32
  day : UInt32
  hour : UInt32
  minute : UInt32
  second : UInt32
  microSecond : UInt32
  deriving DecidableEq

def newDate (fields : DateFields) : Int :=
  mktime offset {
    tm_year := toInt (fields.year - 1900)
    tm_mon := toInt (fields.month - 1)
    tm_mday := toInt fields.day
    tm_hour := toInt fields.hour
    tm_min := toInt fields.minute
    tm_sec := toInt fields.second } * MICRO_SECONDS_PRE_SEC + fields.microSecond.toNat

end Time

section Text

def minus (n : Int) : Bytes := if n < 0 then [45] else []

def zeroPadded (width : Nat) (n : Int) : Bytes :=
  let digits := ascii (toString n.natAbs)
  minus n ++ (List.replicate (width - (minus n).length - digits.length) 48 ++ digits)

def blankPadded (width : Nat) (n : Int) : Bytes :=
  let digits := ascii (toString n.natAbs)
  List.replicate (width - (minus n).length - digits.length) 32 ++ (minus n ++ digits)

def dateText (tm : Tm) : Bytes :=
  blankPadded 4 (tm.tm_year + 1900) ++
    45 :: (zeroPadded 2 (tm.tm_mon + 1) ++ 45 :: zeroPadded 2 tm.tm_mday)

def timeText (tm : Tm) : Bytes :=
  zeroPadded 2 tm.tm_hour ++ 58 :: (zeroPadded 2 tm.tm_min ++ 58 :: zeroPadded 2 tm.tm_sec)

def toDbStringLocal (offset date : Int) : Bytes :=
  let tm := localtime_r offset (date.tdiv MICRO_SECONDS_PRE_SEC)
  if date.tmod MICRO_SECONDS_PRE_SEC ≠ 0 then
    dateText tm ++
      32 :: (timeText tm ++ 46 :: zeroPadded 6 (date.tmod MICRO_SECONDS_PRE_SEC))
  else if date = roundDay offset date then dateText tm
  else dateText tm ++ 32 :: timeText tm

def splitLoop (delimiter : Bytes) (acceptEmptyString : Bool) : (fuel : Nat) → Bytes → List Bytes
  | 0, _ => []
  | fuel + 1, s =>
      match search delimiter s with
      | some next =>
          (if next > 0 ∨ acceptEmptyString then [s.take next] else []) ++
            splitLoop delimiter acceptEmptyString fuel (s.drop (next + delimiter.length))
      | none => if s.length > 0 ∨ acceptEmptyString then [s] else []

def splitString (s delimiter : Bytes) (acceptEmptyString : Bool) : List Bytes :=
  if delimiter.isEmpty then [] else splitLoop delimiter acceptEmptyString (s.length + 1) s

def stol (s : Bytes) : Option Int :=
  let s := s.dropWhile isspace
  let digits := ((if s.head? = some 45 ∨ s.head? = some 43 then s.drop 1 else s).takeWhile isDigit)
  let value : Int := if s.head? = some 45 then -digitsValue digits else digitsValue digits
  if digits.isEmpty then none
  else if value < -9223372036854775808 ∨ value > 9223372036854775807 then none
  else some value

def stou (s : Bytes) : Option UInt32 := (stol s).map UInt32.ofInt

/-- `std::string::resize` to six characters, or zeros up to six. -/
def sixDigits (s : Bytes) : Bytes :=
  if s.length > 6 then s.take 6
  else if s.length < 6 then s ++ List.replicate (6 - s.length) 48
  else s

def secondFields (fields : DateFields) (text : Bytes) : Option DateFields :=
  match splitString text [46] false with
  | [] => none
  | [seconds] => (stou seconds).map fun second => { fields with second }
  | seconds :: micros :: _ =>
      (stou seconds).bind fun second => (stou (sixDigits micros)).map fun microSecond =>
        { fields with second, microSecond }

def timeFields (fields : DateFields) (text : Bytes) : Option DateFields :=
  match splitString text [58] false with
  | hours :: minutes :: seconds :: _ =>
      (stou hours).bind fun hour => (stou minutes).bind fun minute =>
        secondFields { fields with hour, minute } seconds
  | _ => some fields

def noFields : DateFields := ⟨0, 0, 0, 0, 0, 0, 0⟩

def dbFields (datetime : Bytes) : Option DateFields :=
  match splitString datetime [32] false with
  | [date, time] =>
      match splitString date [45] false with
      | [years, months, days] =>
          (stou years).bind fun year => (stou months).bind fun month => (stou days).bind fun day =>
            timeFields { noFields with year, month, day } time
      | _ => some noFields
  | _ => some noFields

/-- No result stands for an exception. -/
def fromDbStringLocal (offset : Int) (datetime : Bytes) : Option Int :=
  (dbFields datetime).map (newDate offset)

end Text

end Cooper.Date

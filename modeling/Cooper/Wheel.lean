import Cooper.FloatRounding

/-!
`TimingWheel` with a `ticksInterval_` of one, as its functions run on the loop thread. A reference
is an `EntryPtr`; what a user's entry does when it is destroyed is an argument of the tick.
-/

namespace Cooper.Wheel

open Cooper.FloatRounding

/-- What an `EntryPtr` points to: an entry of a user, or a `CallbackEntry` with what its callback
has captured. -/
inductive Entry (ι : Type*)
  | entry (id : ι)
  | callback (delay i t : Nat) (entryPtr : Entry ι)
  deriving DecidableEq

def Entry.user {ι : Type*} : Entry ι → ι
  | .entry id => id
  | .callback _ _ _ entryPtr => entryPtr.user

abbrev EntryBucket (ι : Type*) := List (Entry ι)

/-- `insert`. A `CallbackEntry` is a new object each time and thus in no bucket. -/
def EntryBucket.insert {ι : Type*} [DecidableEq ι] (bucket : EntryBucket ι) :
    Entry ι → EntryBucket ι
  | .entry id => if .entry id ∈ bucket then bucket else bucket ++ [.entry id]
  | .callback delay i t entryPtr => bucket ++ [.callback delay i t entryPtr]

/-- The fields of the class, with the assertions of the constructor. `wheels i k` is
`wheels_[i][k]`, for `i` below `wheelsNum` and `k` below `bucketsNumPerWheel`. -/
structure TimingWheel (ι : Type*) where
  bucketsNumPerWheel : Nat
  wheelsNum : Nat
  one_lt_bucketsNumPerWheel : 1 < bucketsNumPerWheel
  wheelsNum_pos : 0 < wheelsNum
  ticksCounter : Nat
  wheels : Nat → Nat → EntryBucket ι
  /-- The references to users' entries that have been dropped, with the ticks. -/
  dropped : List (Nat × ι)

variable {ι : Type*} [DecidableEq ι]

def create (bucketsNumPerWheel wheelsNum : Nat) (hbuckets : 1 < bucketsNumPerWheel)
    (hwheels : 0 < wheelsNum) : TimingWheel ι where
  bucketsNumPerWheel
  wheelsNum
  one_lt_bucketsNumPerWheel := hbuckets
  wheelsNum_pos := hwheels
  ticksCounter := 0
  wheels _ _ := []
  dropped := []

def put (w : TimingWheel ι) (i k : Nat) (entryPtr : Entry ι) : TimingWheel ι :=
  { w with wheels := fun i' k' =>
      if i' = i ∧ k' = k then (w.wheels i' k').insert entryPtr else w.wheels i' k' }

/-- The loop of `insertEntryInloop` at wheel `i`, with `rest` wheels behind it: the one insertion
that it makes, given by the wheel, the bucket and the reference. -/
def insertPosition (bucketsNumPerWheel : Nat) :
    (rest i delay t : Nat) → Entry ι → Nat × Nat × Entry ι
  | 0, i, delay, _, entryPtr =>
      if delay ≤ bucketsNumPerWheel then (i, delay - 1, entryPtr)
      else (i, bucketsNumPerWheel - 1, entryPtr)
  | rest + 1, i, delay, t, entryPtr =>
      if delay ≤ bucketsNumPerWheel then (i, delay - 1, entryPtr)
      else
        insertPosition bucketsNumPerWheel rest (i + 1)
          ((delay + t % bucketsNumPerWheel - 1) / bucketsNumPerWheel) (t / bucketsNumPerWheel)
          (.callback delay i t entryPtr)

/-- A `size_t` that is divided by `ticksInterval_`, a `float`. -/
def toFloat (n : Nat) : Nat := roundToEven 24 n

/-- `static_cast<size_t>(delay / ticksInterval_ + 1)`. -/
def delayTicks (delay : Nat) : Nat := toFloat (toFloat delay + 1)

def insertEntryInloop (w : TimingWheel ι) (delay : Nat) (entryPtr : Entry ι) : TimingWheel ι :=
  let (i, k, entryPtr) :=
    insertPosition w.bucketsNumPerWheel (w.wheelsNum - 1) 0 (delayTicks delay) w.ticksCounter
      entryPtr
  put w i k entryPtr

def insertEntry (w : TimingWheel ι) (delay : Nat) (id : ι) : TimingWheel ι :=
  if delay = 0 then w else insertEntryInloop w delay (.entry id)

/-- Drop a reference. A `CallbackEntry` has no other and is destroyed: its callback runs, and then
the reference that it has captured is dropped, which is not the last one if the callback has
inserted it. -/
def release (w : TimingWheel ι) : Entry ι → TimingWheel ι
  | .entry id => { w with dropped := w.dropped ++ [(w.ticksCounter, id)] }
  | .callback delay i t entryPtr =>
      if delay > 0 then
        put w i ((delay + t % w.bucketsNumPerWheel - 1) % w.bucketsNumPerWheel) entryPtr
      else release w entryPtr

def rotate (w : TimingWheel ι) (i : Nat) : TimingWheel ι :=
  { w with wheels := fun i' k =>
      if i' = i then (if k + 1 < w.bucketsNumPerWheel then w.wheels i (k + 1) else [])
      else w.wheels i' k }

/-- One pass of the loop in the tick callback, for wheel `i`. `calls` are the calls of `insertEntry`
that the destructors of users' entries make; only the first wheel holds references to these. -/
def tickWheel (calls : List (Nat × ι)) (i pow : Nat) (w : TimingWheel ι) : TimingWheel ι :=
  if w.ticksCounter % pow = 0 then
    let tmp := w.wheels i 0
    let w := tmp.foldl release (rotate w i)
    if i = 0 then calls.foldl (fun w call => insertEntry w call.1 call.2) w else w
  else w

def tickLoop (calls : List (Nat × ι)) : (rest i pow : Nat) → TimingWheel ι → TimingWheel ι
  | 0, _, _, w => w
  | rest + 1, i, pow, w =>
      tickLoop calls rest (i + 1) (pow * w.bucketsNumPerWheel) (tickWheel calls i pow w)

def tick (w : TimingWheel ι) (calls : List (Nat × ι)) : TimingWheel ι :=
  tickLoop calls w.wheelsNum 0 1 { w with ticksCounter := w.ticksCounter + 1 }

inductive WheelOp (ι : Type*)
  | insertEntry (delay : Nat) (id : ι)
  | tick (calls : List (Nat × ι))

def step (w : TimingWheel ι) : WheelOp ι → TimingWheel ι
  | .insertEntry delay id => insertEntry w delay id
  | .tick calls => tick w calls

def run (w : TimingWheel ι) (ops : List (WheelOp ι)) : TimingWheel ι := ops.foldl step w

section Floats

theorem toFloat_of_le {n : Nat} (hn : n ≤ 2 ^ 24) : toFloat n = n := by
  rcases Nat.eq_or_lt_of_le hn with rfl | hlt
  · exact roundToEven_two_pow (by decide)
  · exact roundToEven_of_lt (by decide) hlt

theorem delayTicks_of_lt {delay : Nat} (hdelay : delay < 2 ^ 24) :
    delayTicks delay = delay + 1 := by
  rw [delayTicks, toFloat_of_le hdelay.le, toFloat_of_le hdelay]

theorem delayTicks_two_pow : delayTicks (2 ^ 24) = 2 ^ 24 := by
  rw [delayTicks, toFloat_of_le (Nat.le_refl _)]
  exact roundToEven_two_pow_succ (by decide)

theorem lt_delayTicks {n delay : Nat} (hn : n < 2 ^ 24) (hdelay : n ≤ delay) :
    n < delayTicks delay := by
  rcases Nat.lt_or_ge delay (2 ^ 24) with hlt | hge
  · rw [delayTicks_of_lt hlt]
    exact Nat.lt_succ_of_le hdelay
  · have hfloat : 2 ^ 24 ≤ toFloat delay := two_pow_le_roundToEven (by decide) hge
    exact hn.trans_le (two_pow_le_roundToEven (by decide) (hfloat.trans (Nat.le_succ _)))

theorem delayTicks_pos (delay : Nat) : 0 < delayTicks delay :=
  lt_delayTicks (by decide) (Nat.zero_le _)

end Floats

end Cooper.Wheel

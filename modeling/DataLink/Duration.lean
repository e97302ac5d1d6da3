import DataLink.Number.Decimal

/-!
# Durations and cycles

Time is counted in nanoseconds from some origin. A duration is representable while its
whole seconds fit in 64 bits, and a sum that is not representable has no value.
-/

namespace DataLink

/-- A span of time, or a point in time as the span since the origin. -/
structure Duration where
  nanos : Nat
  deriving DecidableEq, Repr

namespace Duration

/-- Nanoseconds in one second. -/
def perSecond : Nat := 1000000000

/-- Nanoseconds in one millisecond. -/
def perMilli : Nat := 1000000

/-- Nanoseconds in one microsecond. -/
def perMicro : Nat := 1000

/-- The first number of nanoseconds that is not representable. -/
def limit : Nat := UInt64.size * perSecond

/-- No time at all. -/
def zero : Duration := ⟨0⟩

/-- A span of milliseconds. -/
def ofMillis (n : Nat) : Duration := ⟨n * perMilli⟩

/-- A span of seconds and nanoseconds. -/
def ofSeconds (seconds nanos : Nat) : Duration := ⟨seconds * perSecond + nanos⟩

/-- The whole seconds. -/
def seconds (d : Duration) : Nat := d.nanos / perSecond

/-- The nanoseconds after the whole seconds. -/
def subsecond (d : Duration) : Nat := d.nanos % perSecond

/-- The whole milliseconds. -/
def millis (d : Duration) : Nat := d.nanos / perMilli

/-- The sum, if it is representable. -/
def add? (a b : Duration) : Option Duration :=
  if a.nanos + b.nanos < limit then some ⟨a.nanos + b.nanos⟩ else none

/-- The time from `earlier` to `later`, none if they are out of order. -/
def since (later earlier : Duration) : Duration := ⟨later.nanos - earlier.nanos⟩

/-- Shorter durations are less. -/
instance : LT Duration := ⟨fun a b => a.nanos < b.nanos⟩
/-- Shorter durations are less, and each is at most itself. -/
instance : LE Duration := ⟨fun a b => a.nanos ≤ b.nanos⟩

/-- Which of two durations is shorter is decided by counting nanoseconds. -/
instance (a b : Duration) : Decidable (a < b) := inferInstanceAs (Decidable (a.nanos < b.nanos))
/-- Which of two durations is no longer is decided by counting nanoseconds. -/
instance (a b : Duration) : Decidable (a ≤ b) := inferInstanceAs (Decidable (a.nanos ≤ b.nanos))

/-- The duration nearest to a number of seconds, ties to the even nanosecond. Negative
numbers, what is not a number, and numbers too large have none. -/
def ofFloatSeconds? (x : Binary64) : Option Duration :=
  if !x.isFinite || x.lt .zero then none
  else
    let nanos := x.roundScaled perSecond
    if nanos < limit then some ⟨nanos⟩ else none

/-- A whole part and a fraction of `places` digits, without trailing zeros. -/
def withFraction (whole fraction places : Nat) : String :=
  let digits := (toString fraction).toList
  let padded := List.replicate (places - digits.length) '0' ++ digits
  let kept := (padded.reverse.dropWhile (· = '0')).reverse
  if kept = [] then toString whole else toString whole ++ "." ++ String.ofList kept

/-- A duration in its largest unit that gives a whole part. -/
def text (d : Duration) : String :=
  if perSecond ≤ d.nanos then withFraction d.seconds d.subsecond 9 ++ "s"
  else if perMilli ≤ d.nanos then withFraction d.millis (d.nanos % perMilli) 6 ++ "ms"
  else if perMicro ≤ d.nanos then
    withFraction (d.nanos / perMicro) (d.nanos % perMicro) 3 ++ "µs"
  else toString d.nanos ++ "ns"

end Duration

/-- One run of the scheduler: its number, its time, and the time since the one before. -/
structure Cycle where
  number : UInt64
  time : Duration
  elapsed : Duration
  deriving DecidableEq, Repr

namespace Cycle

/-- The first cycle. -/
def first (time : Duration) : Cycle := ⟨0, time, .zero⟩

/-- The cycle that follows after `elapsed`, if its time is representable. Numbers wrap. -/
def next? (c : Cycle) (elapsed : Duration) : Option Cycle :=
  (c.time.add? elapsed).map fun time => ⟨c.number + 1, time, elapsed⟩

end Cycle

end DataLink

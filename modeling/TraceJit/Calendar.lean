import TraceJit.Text.Hex

/-!
Points in time and their text: year, month and day of the Gregorian calendar carried back before
its introduction, hour, minute and second, and the distance from universal time.
-/

namespace TraceJit

/-- A point in time, shown in a zone a fixed number of seconds east of universal time. -/
structure Instant where
  /-- Seconds since the start of 1970 in universal time. -/
  seconds : Int
  /-- Nanoseconds into the second, less than a thousand million. -/
  nanos : Nat
  zone : Int := 0
  deriving DecidableEq, Repr, Inhabited

structure Date where
  year : Int
  month : Nat
  day : Nat
  deriving DecidableEq, Repr

/-- The date `days` days after the first of January 1970. Years are counted from March, so that
the leap day is the last day of a year. -/
def Date.ofDays (days : Int) : Date :=
  let z := days + 719468
  let era := Int.fdiv z 146097
  let dayOfEra := (z - era * 146097).toNat
  let yearOfEra :=
    (dayOfEra - dayOfEra / 1460 + dayOfEra / 36524 - dayOfEra / 146096) / 365
  let dayOfYear := dayOfEra - (365 * yearOfEra + yearOfEra / 4 - yearOfEra / 100)
  let marchMonth := (5 * dayOfYear + 2) / 153
  let month := if marchMonth < 10 then marchMonth + 3 else marchMonth - 9
  { year := (yearOfEra : Int) + era * 400 + (if month ≤ 2 then 1 else 0)
    month
    day := dayOfYear - (153 * marchMonth + 2) / 5 + 1 }

namespace Instant

/-- The start of the year one, which stands for a time that was never set. -/
def unset : Instant := { seconds := -62135596800, nanos := 0 }

def ofNanos (seconds nanos zone : Int) : Instant :=
  { seconds := seconds + Int.fdiv nanos 1000000000, nanos := (nanos % 1000000000).toNat, zone }

def digits (width n : Nat) : String := Text.padLeft '0' width (toString n)

def yearText (year : Int) : String :=
  (if year < 0 then "-" else "") ++ digits 4 year.natAbs

/-- Seconds from the first of March of the year -292277022400 to the start of 1970. -/
def reach : Int := 9223372028741760000

/-- Seconds as a clock of 64 bits shows them, which begins as far back as its `reach` and comes
round after 2^64. -/
def wrapSeconds (seconds : Int) : Int := (seconds + reach) % UInt64.size - reach

/-- Date and time of day in the zone, with `between` set between them. -/
def dateTimeText (between : String) (t : Instant) : String :=
  let local_ := wrapSeconds (t.seconds + t.zone)
  let date := Date.ofDays (Int.fdiv local_ 86400)
  let second := (local_ % 86400).toNat
  yearText date.year ++ "-" ++ digits 2 date.month ++ "-" ++ digits 2 date.day ++ between ++
    digits 2 (second / 3600) ++ ":" ++ digits 2 (second / 60 % 60) ++ ":" ++ digits 2 (second % 60)

/-- Date and time of day as one word. -/
def dateTime (t : Instant) : String := t.dateTimeText "T"

/-- The zone: a mark for universal time, else hours and minutes with the seconds dropped. -/
def zoneText (t : Instant) : String :=
  if t.zone = 0 then "Z"
  else
    let minutes := Int.tdiv t.zone 60
    (if minutes < 0 then "-" else "+") ++ digits 2 (minutes.natAbs / 60) ++ ":" ++
      digits 2 (minutes.natAbs % 60)

/-- The time to the microsecond. -/
def microText (t : Instant) : String :=
  t.dateTime ++ "." ++ digits 6 (t.nanos / 1000) ++ t.zoneText

/-- The time with as many decimals as it needs. -/
def nanoText (t : Instant) : String :=
  let decimals := ((digits 9 t.nanos).toList.reverse.dropWhile (· == '0')).reverse
  t.dateTime ++ (if decimals.isEmpty then "" else "." ++ String.ofList decimals) ++ t.zoneText

end Instant

end TraceJit

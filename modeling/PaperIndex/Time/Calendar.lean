import PaperIndex.Word

/-! # Instants and their dates

An instant is a number of milliseconds since the start of 1970, in universal time. Dates follow the
Gregorian calendar in both directions; instants outside `earliest … latest` have none.

Clocks may be finer. Where it matters, the number of ticks that make a millisecond is a parameter,
instants count ticks, and `millis` is the millisecond in which an instant lies. -/

namespace PaperIndex.Time

/-- Milliseconds since the start of 1970, or ticks of a clock that is finer. -/
abbrev Instant := Int

/-- The millisecond in which an instant lies, in ticks of which so many make a millisecond. -/
def millis (ticks : Nat) (t : Instant) : Instant := t.fdiv ticks

/-- The first instant with a date: the start of the year -262143. -/
def earliest : Instant := -8334601228800000

/-- The last instant with a date: the end of the year 262142. -/
def latest : Instant := 8210266876799999

/-- Whether an instant has a date. -/
def hasDate (t : Instant) : Bool := earliest ≤ t && t ≤ latest

theorem hasDate_iff {t : Int} : hasDate t = true ↔ -8334601228800000 ≤ t ∧ t ≤ 8210266876799999 := by
  rw [hasDate, Bool.and_eq_true, decide_eq_true_eq, decide_eq_true_eq]
  rfl

/-- The instant that a clock with the given reading tells: readings without a date tell the start of
1970. -/
def told (reading : Int) (ticks : Nat := 1) : Instant :=
  if hasDate (millis ticks reading) then reading else 0

/-- The reading of a clock of 64 bits that is moved on. -/
def moved (reading delta : Int) : Int := Word.signed 64 (reading + delta)

/-- A date and a time of day. -/
structure Civil where
  year : Int
  month : Nat
  day : Nat
  hour : Nat
  minute : Nat
  second : Nat
  milli : Nat
deriving DecidableEq, Repr

/-- The number of milliseconds of a day. -/
def dayMillis : Int := 86400000

/-- The year, month and day of a day counted from the start of 1970. Years are counted from March,
so that the leap day is the last of its year. -/
def dateOfDay (days : Int) : Int × Nat × Nat :=
  let z := days + 719468
  let era := z.fdiv 146097
  let dayOfEra := (z - era * 146097).toNat
  let yearOfEra := (dayOfEra - dayOfEra / 1460 + dayOfEra / 36524 - dayOfEra / 146096) / 365
  let dayOfYear := dayOfEra - (365 * yearOfEra + yearOfEra / 4 - yearOfEra / 100)
  let m := (5 * dayOfYear + 2) / 153
  let day := dayOfYear - (153 * m + 2) / 5 + 1
  let month := if m < 10 then m + 3 else m - 9
  let year := (yearOfEra : Int) + era * 400
  (if month ≤ 2 then year + 1 else year, month, day)

/-- The date and time of an instant. -/
def civil (t : Instant) : Civil :=
  let days := t.fdiv dayMillis
  let rest := (t - days * dayMillis).toNat
  let (year, month, day) := dateOfDay days
  { year, month, day
    hour := rest / 3600000
    minute := rest / 60000 % 60
    second := rest / 1000 % 60
    milli := rest % 1000 }

/-- A number with zeros in front up to a width. -/
def padded (width n : Nat) : String :=
  let ds := Nat.toDigits 10 n
  String.ofList (List.replicate (width - ds.length) '0' ++ ds)

/-- Years have four digits, and a sign outside `0 … 9999`. -/
def yearText (y : Int) : String :=
  if 0 ≤ y ∧ y ≤ 9999 then padded 4 y.natAbs
  else (if y < 0 then "-" else "+") ++ padded 4 y.natAbs

/-- The date, as in `2023-11-14`. -/
def Civil.dateText (c : Civil) : String :=
  yearText c.year ++ "-" ++ padded 2 c.month ++ "-" ++ padded 2 c.day

/-- The date and time as RFC 3339 has them, with three digits of fraction unless they are zero. -/
def timestamp (t : Instant) : String :=
  let c := civil t
  let fraction := if c.milli = 0 then "" else "." ++ padded 3 c.milli
  c.dateText ++ "T" ++ padded 2 c.hour ++ ":" ++ padded 2 c.minute ++ ":" ++ padded 2 c.second ++
    fraction ++ "Z"

/-- The date and time to the minute, as in `2023-11-14 22:13`. -/
def minuteText (t : Instant) : String :=
  let c := civil t
  c.dateText ++ " " ++ padded 2 c.hour ++ ":" ++ padded 2 c.minute

/-! ### Clocks -/

@[simp] theorem millis_one (t : Instant) : millis 1 t = t := Int.fdiv_one t

/-- A whole number of milliseconds, cut and put back into ticks. -/
theorem millis_mul_of_dvd {ticks : Nat} {t : Instant} (h : (ticks : Int) ∣ t) :
    millis ticks t * ticks = t := Int.fdiv_mul_cancel h

theorem hasDate_millis_told (reading : Int) (ticks : Nat) :
    hasDate (millis ticks (told reading ticks)) = true := by
  unfold told
  split
  · assumption
  · rw [millis, Int.zero_fdiv]
    decide

/-- A clock that reads whole milliseconds tells whole milliseconds. -/
theorem dvd_told {reading : Int} {ticks : Nat} (h : (ticks : Int) ∣ reading) :
    (ticks : Int) ∣ told reading ticks := by
  unfold told
  split
  · exact h
  · exact Int.dvd_zero _

theorem hasDate_told (reading : Int) : hasDate (told reading) = true := by
  rw [← millis_one (told reading)]
  exact hasDate_millis_told reading 1

end PaperIndex.Time

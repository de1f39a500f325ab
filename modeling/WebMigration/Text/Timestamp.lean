/-!
# Points in time

A point in time is a number of microseconds after the start of 1970 in universal time, written as a
date and a time of day.
-/

namespace WebMigration.Text

/-- A number in decimal digits, filled up with zeros. -/
def paddedNat (width n : Nat) : String :=
  let ds := toString n
  String.ofList (List.replicate (width - ds.length) '0') ++ ds

/-- The year, month and day of a number of days after the start of 1970.  Years are counted from March,
so that the day that leap years add comes last. -/
def civilDate (days : Int) : Int × Nat × Nat :=
  let shifted := days + 719468
  let era := Int.fdiv shifted 146097
  let dayOfEra := (shifted - era * 146097).toNat
  let yearOfEra := (dayOfEra - dayOfEra / 1460 + dayOfEra / 36524 - dayOfEra / 146096) / 365
  let dayOfYear := dayOfEra - (365 * yearOfEra + yearOfEra / 4 - yearOfEra / 100)
  let march := (5 * dayOfYear + 2) / 153
  let day := dayOfYear - (153 * march + 2) / 5 + 1
  let month := if march < 10 then march + 3 else march - 9
  let year : Int := yearOfEra + era * 400
  (if month ≤ 2 then year + 1 else year, month, day)

/-- A point in time as text; microseconds are written only where there are some. -/
def timestamp (micros : Int) : String :=
  let seconds := Int.fdiv micros 1000000
  let fraction := (micros - seconds * 1000000).toNat
  let days := Int.fdiv seconds 86400
  let time := (seconds - days * 86400).toNat
  let (year, month, day) := civilDate days
  paddedNat 4 year.toNat ++ "-" ++ paddedNat 2 month ++ "-" ++ paddedNat 2 day ++ "T" ++
    paddedNat 2 (time / 3600) ++ ":" ++ paddedNat 2 (time / 60 % 60) ++ ":" ++
    paddedNat 2 (time % 60) ++ (if fraction == 0 then "" else "." ++ paddedNat 6 fraction) ++ "+00:00"

end WebMigration.Text

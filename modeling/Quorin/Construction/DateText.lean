import Quorin.Construction.OfflineStore
import Quorin.Library.CivilDate

namespace Quorin

/-- A time in nanoseconds as the nearest number of microseconds; a tie takes the even number. -/
def roundMicros (ns : Int) : Int :=
  if ns % 1000 < 500 then ns / 1000
  else if 500 < ns % 1000 then ns / 1000 + 1
  else if ns / 1000 % 2 = 0 then ns / 1000
  else ns / 1000 + 1

/-- The number of the UTC day of the rounded time; the epoch is day 719163. -/
def dayOrdinal (ns : Int) : Int := roundMicros ns / 86400000000 + 719163

/-- The text of `datetime.fromtimestamp(ns / 1e9, tz=UTC)` for the exact quotient and a year from 1
to 9999, which is padded to four digits. -/
def nsToDateStr (ns : Int) : Option String :=
  if 1 ≤ dayOrdinal ns ∧ dayOrdinal ns ≤ 3652059 then
    some (CivilDate.ofOrdinal (dayOrdinal ns).toNat).isoText
  else none

end Quorin

import FileShell.Calendar.Zone
import FileShell.FileSystem.Node

namespace FileShell.Calendar

structure Date where
  year : Int
  month : Int
  day : Int
deriving DecidableEq, Repr

/-- Days from 1 March of the year 0 to 1 January 1970. -/
def epochOffset : Int := 719468

/-- Days in four hundred years. -/
def cycle : Int := 146097

/-- The date that is so many days after 1 January 1970. Years are counted from March, and the
Gregorian calendar goes on before its introduction and before the year one. -/
def dateOfDay (days : Int) : Date :=
  let shifted := days + epochOffset
  let inCycle := shifted % cycle
  let year := (inCycle - inCycle / 1460 + inCycle / 36524 - inCycle / 146096) / 365
  let inYear := inCycle - (365 * year + year / 4 - year / 100)
  let month := (5 * inYear + 2) / 153
  let day := inYear - (153 * month + 2) / 5 + 1
  let civilMonth := if month < 10 then month + 3 else month - 9
  let civilYear := year + shifted / cycle * 400
  ⟨if civilMonth ≤ 2 then civilYear + 1 else civilYear, civilMonth, day⟩

def secondsOf (time : Instant) : Int := time / 1000000000

/-- The years that can be written. -/
def isSupported (time : Instant) : Bool :=
  let year := (dateOfDay (secondsOf time / 86400)).year
  decide (-262143 ≤ year ∧ year ≤ 262142)

/-- A year from 0 to 9999 has four digits; any other has a sign and at least four. -/
def yearText (year : Int) : Text :=
  let digits := Text.padLeft 4 '0' (Text.decimal year.natAbs)
  if 0 ≤ year ∧ year ≤ 9999 then digits
  else if year < 0 then '-' :: digits
  else '+' :: digits

def twoDigits (n : Int) : Text := Text.padLeft 2 '0' (Text.decimal n.toNat)

/-- Year, month, day and time of day to the second in a zone. -/
def stamp (zone : Zone) (time : Instant) : Text :=
  let localSeconds := secondsOf time + zone.ahead
  let date := dateOfDay (localSeconds / 86400)
  let rest := localSeconds % 86400
  yearText date.year ++ '-' :: twoDigits date.month ++ '-' :: twoDigits date.day ++
    ' ' :: twoDigits (rest / 3600) ++ ':' :: twoDigits (rest / 60 % 60) ++
    ':' :: twoDigits (rest % 60)

def stamp? (zone : Zone) (time : Instant) : Option Text :=
  if isSupported time then some (stamp zone time) else none

end FileShell.Calendar

import PeerBook.Time

namespace PeerBook

structure CalendarDate where
  year : Int
  month : Nat
  day : Nat
  deriving DecidableEq, Repr

namespace CalendarDate

def epochOffset : Int := 719468

def cycleDays : Int := 146097

def yearOfCycle (day : Int) : Int :=
  (day - day / 1460 + day / 36524 - day / 146096) / 365

def ofDays (days : Int) : CalendarDate :=
  let shifted := days + epochOffset
  let cycle := shifted / cycleDays
  let dayOfCycle := shifted % cycleDays
  let year := yearOfCycle dayOfCycle
  let dayOfYear := dayOfCycle - (365 * year + year / 4 - year / 100)
  let month := (5 * dayOfYear + 2) / 153
  let day := dayOfYear - (153 * month + 2) / 5 + 1
  let isNextYear := 10 ≤ month
  { year := year + 400 * cycle + if isNextYear then 1 else 0,
    month := (if isNextYear then month - 9 else month + 3).toNat,
    day := day.toNat }

def digits (width n : Nat) : String :=
  let text := toString n
  String.ofList (List.replicate (width - text.length) '0') ++ text

/-- Four digits at least; a year outside of four digits carries its sign. -/
def yearText (year : Int) : String :=
  if 0 ≤ year ∧ year ≤ 9999 then digits 4 year.toNat
  else (if year < 0 then "-" else "+") ++ digits 4 year.natAbs

def text (d : CalendarDate) : String :=
  yearText d.year ++ "-" ++ digits 2 d.month ++ "-" ++ digits 2 d.day

end CalendarDate

namespace Timestamp

def millisPerDay : Int := 86400000

def isShownYear (year : Int) : Bool :=
  -262143 ≤ year && year ≤ 262142

def dateTime? (milliseconds : Int) : Option String :=
  let date := CalendarDate.ofDays (milliseconds / millisPerDay)
  let seconds := (milliseconds % millisPerDay / 1000).toNat
  if isShownYear date.year then
    some (date.text ++ " " ++ CalendarDate.digits 2 (seconds / 3600) ++ ":" ++
      CalendarDate.digits 2 (seconds / 60 % 60) ++ ":" ++ CalendarDate.digits 2 (seconds % 60) ++
      " UTC")
  else none

/-- The count taken as a signed word, so that the upper half lies before the epoch. -/
def signed (t : Timestamp) : Int :=
  Int.bmod t.toNat UInt64.size

def display (t : Timestamp) : String :=
  (dateTime? t.signed).getD (toString t.toNat)

end Timestamp

end PeerBook

import AdvisoryLedger.Time.Calendar
import AdvisoryLedger.Text.Numeral
import AdvisoryLedger.Binary64.Rounding

namespace AdvisoryLedger

def dayMicros : Nat := 86400000000

/-- What a wall clock shows, in microseconds from the start of year 1, and how many seconds it is
ahead of UTC. -/
structure Moment where
  wall : Nat
  offset : Int
  wall_lt : wall < Date.dayLimit * dayMicros
  deriving DecidableEq

namespace Moment

def epoch : Moment := ⟨719162 * dayMicros, 0, by decide⟩

instance : Inhabited Moment := ⟨epoch⟩

def make? (wall offset : Int) : Option Moment :=
  if h : 0 ≤ wall ∧ wall < (Date.dayLimit * dayMicros : Nat) then
    some ⟨wall.toNat, offset, by omega⟩
  else none

/-- Microseconds from the start of year 1 in UTC. -/
def instant (m : Moment) : Int := m.wall - m.offset * 1000000

def same (a b : Moment) : Bool := a.instant == b.instant

def before (a b : Moment) : Bool := a.instant < b.instant

/-- The same instant on a UTC clock, where that shows a year from 1 to 9999. -/
def utc? (m : Moment) : Option Moment := make? m.instant 0

def epochMicros (m : Moment) : Int := m.instant - (719162 * dayMicros : Nat)

def ofEpochSeconds? (seconds : Int) : Option Moment :=
  make? (seconds * 1000000 + (719162 * dayMicros : Nat)) 0

/-- Seconds from the start of 1970 as the nearest double precision number. -/
def epochSeconds (m : Moment) : Binary64 :=
  Binary64.ofQuotient (m.epochMicros < 0) m.epochMicros.natAbs 1000000

/-- The whole seconds of `epochSeconds`, toward zero. -/
def wholeEpochSeconds (m : Moment) : Int := (m.epochSeconds.truncate?).getD 0

def addSeconds? (m : Moment) (seconds : Int) : Option Moment :=
  make? (m.wall + seconds * 1000000) m.offset

def date (m : Moment) : Date := Date.ofOrdinal (m.wall / dayMicros)

def secondOfDay (m : Moment) : Nat := m.wall % dayMicros / 1000000

def micros (m : Moment) : Nat := m.wall % 1000000

/-- A date and a time of day on a clock, if there is such a date. -/
def ofParts? (date : Date) (hour minute second micros : Nat) (offset : Int) : Option Moment :=
  if date.IsValid ∧ hour < 24 ∧ minute < 60 ∧ second < 60 ∧ micros < 1000000 then
    make? (((date.ordinal * 86400 + hour * 3600 + minute * 60 + second) * 1000000 + micros : Nat) : Int)
      offset
  else none

open Text (padded)

def dateText (d : Date) : String :=
  padded 4 d.year ++ "-" ++ padded 2 d.month ++ "-" ++ padded 2 d.day

def timeText (second : Nat) : String :=
  padded 2 (second / 3600) ++ ":" ++ padded 2 (second / 60 % 60) ++ ":" ++ padded 2 (second % 60)

def offsetText (offset : Int) : String :=
  let n := offset.natAbs
  let sign := if offset < 0 then "-" else "+"
  let seconds := if n % 60 = 0 then "" else ":" ++ padded 2 (n % 60)
  sign ++ padded 2 (n / 3600) ++ ":" ++ padded 2 (n / 60 % 60) ++ seconds

/-- ISO 8601 with the offset; six digits follow the seconds unless all are zero. -/
def toIso (m : Moment) : String :=
  let fraction := if m.micros = 0 then "" else "." ++ padded 6 m.micros
  dateText m.date ++ "T" ++ timeText m.secondOfDay ++ fraction ++ offsetText m.offset

def takeNumber? : Nat → Nat → List Char → Option (Nat × List Char)
  | 0, n, cs => some (n, cs)
  | width + 1, n, c :: cs => if c.isDigit then
    takeNumber? width (10 * n + (c.toNat - 48)) cs else none
  | _ + 1, _, [] => none

def takeChar? (c : Char) : List Char → Option (List Char)
  | d :: cs => if c = d then some cs else none
  | [] => none

/-- The offset that ends an ISO text. -/
def readOffset? : List Char → Option Int
  | [] => none
  | sign :: cs => do
    let (hours, cs) ← takeNumber? 2 0 cs
    let cs ← takeChar? ':' cs
    let (minutes, cs) ← takeNumber? 2 0 cs
    let seconds ← match cs with
      | [] => some 0
      | ':' :: cs =>
        match takeNumber? 2 0 cs with
        | some (n, []) => some n
        | _ => none
      | _ => none
    let n : Int := ((hours * 60 + minutes) * 60 + seconds : Nat)
    if sign = '+' then some n else if sign = '-' then some (-n) else none

def ofIso? (s : String) : Option Moment := do
  let (year, cs) ← takeNumber? 4 0 s.toList
  let cs ← takeChar? '-' cs
  let (month, cs) ← takeNumber? 2 0 cs
  let cs ← takeChar? '-' cs
  let (day, cs) ← takeNumber? 2 0 cs
  let cs ← takeChar? 'T' cs
  let (hour, cs) ← takeNumber? 2 0 cs
  let cs ← takeChar? ':' cs
  let (minute, cs) ← takeNumber? 2 0 cs
  let cs ← takeChar? ':' cs
  let (second, cs) ← takeNumber? 2 0 cs
  let (micros, cs) ← match cs with
    | '.' :: cs => takeNumber? 6 0 cs
    | cs => some (0, cs)
  let offset ← readOffset? cs
  ofParts? ⟨year, month, day⟩ hour minute second micros offset

instance : Repr Moment where
  reprPrec m _ := m.toIso

end Moment

end AdvisoryLedger

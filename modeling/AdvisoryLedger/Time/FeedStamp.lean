import AdvisoryLedger.Time.Moment

namespace AdvisoryLedger.FeedStamp

open Text

/-- A field that one character spells. -/
abbrev CharClass := Char → Option Nat

def anyDigit : CharClass := digitValue?

def between (low high : Nat) : CharClass := fun c =>
  let n := c.toNat
  if 48 + low ≤ n ∧ n ≤ 48 + high then some (n - 48) else none

def blankZero : CharClass := fun c => if c = ' ' then some 0 else none

/-- The number spelt by one character of each class in turn, and the rest. -/
def spell : List CharClass → Nat → List Char → Option (Nat × List Char)
  | [], n, cs => some (n, cs)
  | k :: ks, n, c :: cs => do
    let d ← k c
    spell ks (10 * n + d) cs
  | _ :: _, _, [] => none

def spellAny (spellings : List (List CharClass)) (cs : List Char) : Option (Nat × List Char) :=
  spellings.findSome? fun ks => spell ks 0 cs

def yearForms : List (List CharClass) := [[anyDigit, anyDigit, anyDigit, anyDigit]]

def monthForms : List (List CharClass) :=
  [[between 1 1, between 0 2], [between 0 0, between 1 9], [between 1 9]]

def dayForms : List (List CharClass) :=
  [[between 3 3, between 0 1], [between 1 2, anyDigit], [between 0 0, between 1 9], [between 1 9],
    [blankZero, between 1 9]]

def hourForms : List (List CharClass) :=
  [[between 2 2, between 0 3], [between 0 1, anyDigit], [anyDigit]]

def minuteForms : List (List CharClass) := [[between 0 5, anyDigit], [anyDigit]]

def secondForms : List (List CharClass) :=
  [[between 6 6, between 0 1], [between 0 5, anyDigit], [anyDigit]]

/-- Up to six ASCII digits after the point, filled up with zeros on the right. -/
def fraction? (cs : List Char) : Option Nat :=
  if 1 ≤ cs.length ∧ cs.length ≤ 6 ∧ cs.all Char.isDigit then
    (Moment.takeNumber? 6 0 (cs ++ List.replicate (6 - cs.length) '0')).map (·.1)
  else none

def tail? : List Char → Option Nat
  | [] => some 0
  | '.' :: cs => fraction? cs
  | _ => none

def fields? (cs : List Char) : Option Moment := do
  let (year, cs) ← spellAny yearForms cs
  let cs ← Moment.takeChar? '-' cs
  let (month, cs) ← spellAny monthForms cs
  let cs ← Moment.takeChar? '-' cs
  let (day, cs) ← spellAny dayForms cs
  let cs ← (Moment.takeChar? 'T' cs <|> Moment.takeChar? 't' cs)
  let (hour, cs) ← spellAny hourForms cs
  let cs ← Moment.takeChar? ':' cs
  let (minute, cs) ← spellAny minuteForms cs
  let cs ← Moment.takeChar? ':' cs
  let (second, cs) ← spellAny secondForms cs
  let micros ← tail? cs
  Moment.ofParts? ⟨year, month, day⟩ hour minute second micros 0

/-- The text without surrounding blanks and without one `Z` at its end. -/
def core (s : String) : List Char :=
  let cs := trimChars s.toList
  match cs.reverse with
  | 'Z' :: rest => rest.reverse
  | _ => cs

def read? (s : String) : Option Moment := fields? (core s)

/-- Whole seconds in UTC, with three zeros for the fraction; fails where UTC has no such year. -/
def write? (m : Moment) : Option String :=
  m.utc?.map fun u =>
    toString u.date.year ++ "-" ++ padded 2 u.date.month ++ "-" ++ padded 2 u.date.day ++ "T" ++
      Moment.timeText u.secondOfDay ++ ".000Z"

end AdvisoryLedger.FeedStamp

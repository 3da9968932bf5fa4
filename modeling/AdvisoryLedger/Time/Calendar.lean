namespace AdvisoryLedger

structure Date where
  year : Nat
  month : Nat
  day : Nat
  deriving DecidableEq, Repr

namespace Date

def isLeap (year : Nat) : Bool := year % 4 = 0 && (year % 100 ≠ 0 || year % 400 = 0)

def daysInMonth (year month : Nat) : Nat :=
  if month = 2 then (if isLeap year then 29 else 28)
  else if month = 4 || month = 6 || month = 9 || month = 11 then 30
  else 31

def daysBeforeYear (year : Nat) : Nat :=
  let past := year - 1
  365 * past + past / 4 - past / 100 + past / 400

def daysBeforeMonth (year : Nat) : Nat → Nat
  | 0 => 0
  | month + 1 => if month = 0 then 0 else daysBeforeMonth year month + daysInMonth year month

/-- Days since the first of January of year 1. -/
def ordinal (d : Date) : Nat :=
  daysBeforeYear d.year + daysBeforeMonth d.year d.month + (d.day - 1)

def IsValid (d : Date) : Prop :=
  1 ≤ d.year ∧ d.year ≤ 9999 ∧ 1 ≤ d.month ∧ d.month ≤ 12 ∧ 1 ≤ d.day ∧
    d.day ≤ daysInMonth d.year d.month

instance (d : Date) : Decidable d.IsValid := by unfold IsValid; infer_instance

/-- The year of an ordinal: the mean length of years guesses it up to one. -/
def yearOf (n : Nat) : Nat :=
  let guess := n * 400 / 146097 + 1
  if n < daysBeforeYear guess then guess - 1
  else if daysBeforeYear (guess + 1) ≤ n then guess + 1
  else guess

/-- The last month up to `month` that begins on or before day `n` of the year. -/
def monthOf (year n : Nat) : Nat → Nat
  | 0 => 1
  | month + 1 => if daysBeforeMonth year (month + 1) ≤ n then month + 1 else monthOf year n month

def ofOrdinal (n : Nat) : Date :=
  let year := yearOf n
  let rest := n - daysBeforeYear year
  let month := monthOf year rest 12
  ⟨year, month, rest - daysBeforeMonth year month + 1⟩

/-- Days of the years 1 to 9999. -/
def dayLimit : Nat := 3652059

example : ordinal ⟨1970, 1, 1⟩ = 719162 ∧ ordinal ⟨9999, 12, 31⟩ + 1 = dayLimit := by decide +kernel

example : ofOrdinal 0 = ⟨1, 1, 1⟩ ∧ ofOrdinal 719162 = ⟨1970, 1, 1⟩ ∧
    ofOrdinal 3652058 = ⟨9999, 12, 31⟩ ∧ ofOrdinal (ordinal ⟨2024, 2, 29⟩) = ⟨2024, 2, 29⟩ := by
  decide +kernel

end Date

end AdvisoryLedger

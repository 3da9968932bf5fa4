import AdvisoryLedger.Text.Blank
import AdvisoryLedger.Text.Digit

namespace AdvisoryLedger.Text

/-- Digits of a numeral; one underscore may stand between two of them. -/
def numeralDigits : List Char → Option (List Nat)
  | [] => none
  | [c] => (digitValue? c).map ([·])
  | c :: '_' :: rest => do
    let d ← digitValue? c
    let ds ← numeralDigits rest
    some (d :: ds)
  | c :: rest => do
    let d ← digitValue? c
    let ds ← numeralDigits rest
    some (d :: ds)

def ofDigits (ds : List Nat) : Nat := ds.foldl (fun n d => 10 * n + d) 0

/-- Blanks that may surround a number: as for trimming, without the separators U+001C to U+001F. -/
def isNumberBlank (c : Char) : Bool := isBlank c && !(28 ≤ c.toNat && c.toNat ≤ 31)

def splitSign : List Char → Bool × List Char
  | '-' :: rest => (true, rest)
  | '+' :: rest => (false, rest)
  | cs => (false, cs)

/-- Longer numerals are refused, so that reading stays cheap. -/
def maxNumeralDigits : Nat := 4300

def readInt? (s : String) : Option Int := do
  let (negative, cs) := splitSign (trimBy isNumberBlank s.toList)
  let ds ← numeralDigits cs
  if maxNumeralDigits < ds.length then none
  else some (if negative then -(ofDigits ds : Int) else (ofDigits ds : Int))

/-- Digits in groups of three from the right, parted by commas. -/
def groupThousands (digits : List Char) : List Char :=
  let rec go : List Char → Nat → List Char
    | [], _ => []
    | c :: rest, k =>
      if k % 3 = 0 && k ≠ 0 then c :: (',' :: go rest (k - 1)) else c :: go rest (k - 1)
  go digits (digits.length - 1)

def grouped (n : Int) : String :=
  let digits := String.ofList (groupThousands (toString n.natAbs).toList)
  if n < 0 then "-" ++ digits else digits

def padded (width n : Nat) : String :=
  let digits := (toString n).toList
  String.ofList (List.replicate (width - digits.length) '0' ++ digits)

example : grouped 1234567 = "1,234,567" ∧ grouped (-1000) = "-1,000" ∧ grouped 999 = "999" := by
  decide +kernel

example : readInt? " -1_0 " = some (-10) ∧ readInt? "1__0" = none ∧ readInt? "2.0" = none := by
  decide +kernel

end AdvisoryLedger.Text

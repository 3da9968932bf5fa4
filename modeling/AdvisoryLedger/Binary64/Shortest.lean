import AdvisoryLedger.Binary64.Rounding

namespace AdvisoryLedger.Binary64

/-- A decimal numeral: `digits * 10 ^ power`. -/
structure Decimal where
  digits : Nat
  power : Int
  deriving DecidableEq, Repr

def decimalLength (n : Nat) : Nat := (toString n).length

/-- The whole number `k` with `10 ^ (k - 1) ≤ num / den < 10 ^ k`. -/
def decimalOrder (num den : Nat) : Int :=
  if den ≤ num then decimalLength (num / den)
  else
    let j := decimalLength den - decimalLength num
    if den ≤ num * Nat.pow 10 j then 1 - (j : Int) else -(j : Int)

def fraction (mantissa : Nat) (exponent : Int) : Nat × Nat :=
  if 0 ≤ exponent then (mantissa <<< exponent.toNat, 1) else (mantissa, 1 <<< (-exponent).toNat)

/-- The neighbour of the value on the grid of `10 ^ power` that reads back, the nearer if both
do. -/
def neighbour? (x : Binary64) (negative : Bool) (num den : Nat) (power : Int) : Option Decimal :=
  let (n, d) := if 0 ≤ power then (num, den * Nat.pow 10 power.toNat)
    else (num * Nat.pow 10 (-power).toNat, den)
  let below := n / d
  let r := n % d
  let readsBack := fun k => ofDecimal negative k power == x
  match readsBack below, readsBack (below + 1) with
  | true, true =>
    if 2 * r < d || (2 * r = d && below % 2 = 0) then some ⟨below, power⟩ else some ⟨below + 1, power⟩
  | true, false => some ⟨below, power⟩
  | false, true => some ⟨below + 1, power⟩
  | false, false => none

/-- The coarsest of the grids tried, from `count` of them on, that holds a numeral which reads
back. -/
def searchShortest (x : Binary64) (negative : Bool) (num den : Nat) (order : Int) (places : Nat) :
    Nat → Decimal
  | 0 => ⟨num / den, 0⟩
  | count + 1 =>
    match neighbour? x negative num den (order - places) with
    | some d => d
    | none => searchShortest x negative num den order (places + 1) count

/-- Seventeen digits always suffice. -/
def shortest (negative : Bool) (mantissa : Nat) (exponent : Int) : Decimal :=
  let (num, den) := fraction mantissa exponent
  searchShortest (.finite negative mantissa exponent) negative num den (decimalOrder num den) 1 17

def dropZeros (digits : List Char) : List Char := (digits.reverse.dropWhile (· = '0')).reverse

/-- Positional text for orders in a window, else one leading digit and a signed exponent of two
digits or more. -/
def layout (digits : List Char) (point : Int) : List Char :=
  let zeros := fun (n : Int) => List.replicate n.toNat '0'
  if -4 < point && point ≤ 16 then
    if point ≤ 0 then '0' :: '.' :: zeros (-point) ++ digits
    else if (digits.length : Int) ≤ point then digits ++ zeros (point - digits.length) ++ ['.', '0']
    else digits.take point.toNat ++ '.' :: digits.drop point.toNat
  else
    let e := point - 1
    let number := (toString e.natAbs).toList
    let body := match digits with
      | [] => []
      | [d] => [d]
      | d :: rest => d :: '.' :: rest
    body ++ 'e' :: (if e < 0 then '-' else '+') :: (List.replicate (2 - number.length) '0' ++ number)

def render : Binary64 → String
  | .nan => "nan"
  | .infinity s => if s then "-inf" else "inf"
  | .finite s m e =>
    let mark := if s then "-" else ""
    if m = 0 then mark ++ "0.0"
    else
      let d := shortest s m e
      let all := (toString d.digits).toList
      mark ++ String.ofList (layout (dropZeros all) (all.length + d.power))

end AdvisoryLedger.Binary64

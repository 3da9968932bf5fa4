import AdvisoryLedger.Binary64.Basic

namespace AdvisoryLedger.Binary64

/-- The quotient rounded to the nearest whole number, a half to the even one. -/
def nearestQuotient (num den : Nat) : Nat :=
  let q := num / den
  let r := num % den
  if 2 * r < den then q
  else if 2 * r = den then (if q % 2 = 0 then q else q + 1)
  else q + 1

def scaledQuotient (num den : Nat) (exponent : Int) : Nat × Nat :=
  if 0 ≤ exponent then (num, den <<< exponent.toNat) else (num <<< (-exponent).toNat, den)

/-- The whole number `k` with `2 ^ k ≤ num / den < 2 ^ (k + 1)`. -/
def binaryOrder (num den : Nat) : Int :=
  let k : Int := (Nat.log2 num : Int) - (Nat.log2 den : Int)
  let (n, d) := scaledQuotient num den k
  if d ≤ n then k else k - 1

/-- The nearest number to `num / den`; past the greatest one it is infinite. -/
def ofQuotient (negative : Bool) (num den : Nat) : Binary64 :=
  if num = 0 then .finite negative 0 minExponent
  else
    let exponent := max minExponent (binaryOrder num den - (precision - 1 : Nat))
    let (n, d) := scaledQuotient num den exponent
    let q := nearestQuotient n d
    let (m, e) := if q = 1 <<< precision then (1 <<< (precision - 1), exponent + 1) else (q, exponent)
    if maxExponent < e then .infinity negative else .finite negative m e

def ofInt? (n : Int) : Option Binary64 :=
  match ofQuotient (n < 0) n.natAbs 1 with
  | .infinity _ => none
  | x => some x

/-- The number nearest to `digits * 10 ^ power`; orders far outside the range are settled at
once. -/
def ofDecimal (negative : Bool) (digits : Nat) (power : Int) : Binary64 :=
  if digits = 0 then .finite negative 0 minExponent
  else
    let order : Int := (toString digits).length + power
    if order > 400 then .infinity negative
    else if order < -400 then .finite negative 0 minExponent
    else if 0 ≤ power then ofQuotient negative (digits * Nat.pow 10 power.toNat) 1
    else ofQuotient negative digits (Nat.pow 10 (-power).toNat)

end AdvisoryLedger.Binary64

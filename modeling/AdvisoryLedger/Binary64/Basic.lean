namespace AdvisoryLedger

inductive Binary64
  | nan
  | infinity (negative : Bool)
  | finite (negative : Bool) (mantissa : Nat) (exponent : Int)
  deriving DecidableEq, Repr

namespace Binary64

def minExponent : Int := -1074

def maxExponent : Int := 971

def precision : Nat := 53

instance : Inhabited Binary64 := ⟨.nan⟩

def zero : Binary64 := .finite false 0 minExponent

/-- A finite value in units of `2 ^ unit`, exact where `unit` is at most its exponent. -/
def scaled (unit : Int) (negative : Bool) (mantissa : Nat) (exponent : Int) : Int :=
  let n := mantissa <<< (exponent - unit).toNat
  if negative then -(n : Int) else (n : Int)

/-- The order by value; false as soon as a NaN takes part. -/
def less : Binary64 → Binary64 → Bool
  | .nan, _ => false
  | _, .nan => false
  | .infinity s, .infinity t => s && !t
  | .infinity s, .finite .. => s
  | .finite .., .infinity t => !t
  | .finite s m e, .finite t n f =>
    let unit := min e f
    scaled unit s m e < scaled unit t n f

/-- Equality by value: the zeros agree and a NaN differs from everything. -/
def same : Binary64 → Binary64 → Bool
  | .nan, _ => false
  | _, .nan => false
  | .infinity s, .infinity t => s == t
  | .infinity _, .finite .. => false
  | .finite .., .infinity _ => false
  | .finite s m e, .finite t n f =>
    let unit := min e f
    scaled unit s m e == scaled unit t n f

def atLeast (x y : Binary64) : Bool := less y x || same x y

def isNan : Binary64 → Bool
  | .nan => true
  | _ => false

def isNonzero : Binary64 → Bool
  | .finite _ m _ => m != 0
  | _ => true

/-- The second only where it is greater, so a NaN in first place stays. -/
def larger (x y : Binary64) : Binary64 := if less x y then y else x

/-- The whole part, dropping what follows the point. -/
def truncate? : Binary64 → Option Int
  | .finite s m e =>
    let n := if 0 ≤ e then m <<< e.toNat else m >>> (-e).toNat
    some (if s then -(n : Int) else (n : Int))
  | _ => none

def toRat? : Binary64 → Option Rat
  | .finite s m e =>
    let n : Int := if s then -(m : Int) else (m : Int)
    some (if 0 ≤ e then ((n * (1 <<< e.toNat : Nat) : Int) : Rat) else mkRat n (1 <<< (-e).toNat))
  | _ => none

theorem same_nan (x : Binary64) : same x .nan = false := by cases x <;> rfl

theorem same_self {x : Binary64} (h : x ≠ .nan) : same x x = true := by
  cases x <;> simp_all [same]

theorem same_comm (x y : Binary64) : same x y = same y x := by
  cases x <;> cases y <;> simp [same, Bool.beq_comm, Int.min_comm]

end Binary64

end AdvisoryLedger

import AdvisoryLedger.Binary64.Shortest
import AdvisoryLedger.Text.Quoted
import AdvisoryLedger.Table

namespace AdvisoryLedger

inductive Json
  | null
  | flag (value : Bool)
  | int (value : Int)
  | real (value : Binary64)
  | text (value : String)
  | list (items : List Json)
  | object (members : List (String × Json))
  deriving Repr

namespace Json

instance : Inhabited Json := ⟨.null⟩

inductive Number
  | whole (value : Int)
  | broken (value : Binary64)
  deriving DecidableEq

/-- Truth values count as 1 and 0. -/
def number? : Json → Option Number
  | .flag b => some (.whole (if b then 1 else 0))
  | .int n => some (.whole n)
  | .real x => some (.broken x)
  | _ => none

/-- A whole number equals a fraction that has exactly its value. -/
def sameWhole (n : Int) : Binary64 → Bool
  | .finite s m e => 0 ≤ e && Binary64.scaled 0 s m e == n ||
      e < 0 && n * (1 <<< (-e).toNat : Nat) == (if s then -(m : Int) else (m : Int))
  | _ => false

def Number.same : Number → Number → Bool
  | .whole a, .whole b => a == b
  | .whole a, .broken b => sameWhole a b
  | .broken a, .whole b => sameWhole b a
  | .broken a, .broken b => Binary64.same a b

def isNan : Json → Bool
  | .real x => x.isNan
  | _ => false

def lookup (name : String) (members : Table String Json) : Option Json := members.get? name

mutual

/-- Equality of content; members may come in any order. A NaN is the same as itself inside lists and
objects only. -/
def same : Json → Json → Bool
  | .null, .null => true
  | .text a, .text b => a == b
  | .list a, .list b => sameItems a b
  | .object a, .object b => a.length == b.length && sameMembers a b
  | .flag a, b => sameNumber (.whole (if a then 1 else 0)) b
  | .int a, b => sameNumber (.whole a) b
  | .real a, b => sameNumber (.broken a) b
  | _, _ => false

def sameItems : List Json → List Json → Bool
  | [], [] => true
  | a :: as, b :: bs => (a.isNan && b.isNan || same a b) && sameItems as bs
  | _, _ => false

def sameMembers : List (String × Json) → List (String × Json) → Bool
  | [], _ => true
  | (name, a) :: rest, bs =>
    match lookup name bs with
    | some b => (a.isNan && b.isNan || same a b) && sameMembers rest bs
    | none => false

def sameNumber (a : Number) : Json → Bool
  | .flag b => a.same (.whole (if b then 1 else 0))
  | .int b => a.same (.whole b)
  | .real b => a.same (.broken b)
  | _ => false

end

/-- Null, false, zero and whatever is empty count as absent. -/
def isTruthy : Json → Bool
  | .null => false
  | .flag b => b
  | .int n => n != 0
  | .real x => x.isNonzero
  | .text s => !s.isEmpty
  | .list items => !items.isEmpty
  | .object members => !members.isEmpty

def isHashable : Json → Bool
  | .list _ => false
  | .object _ => false
  | _ => true

def ofText? : Option String → Json
  | some s => .text s
  | none => .null

def ofScore? : Option Binary64 → Json
  | some x => .real x
  | none => .null

def ofInts (ns : List Int) : Json := .list (ns.map .int)

end Json

end AdvisoryLedger

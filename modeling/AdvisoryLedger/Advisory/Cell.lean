import AdvisoryLedger.Advisory.Basic
import AdvisoryLedger.Json.Literal

namespace AdvisoryLedger

/-- A moment, or any JSON value; null stands for no value. -/
inductive Cell
  | json (value : Json)
  | moment (value : Moment)

namespace Cell

instance : Inhabited Cell := ⟨.json .null⟩

abbrev null : Cell := .json .null
abbrev text (s : String) : Cell := .json (.text s)
abbrev int (n : Int) : Cell := .json (.int n)

def isNull : Cell → Bool
  | .json .null => true
  | _ => false

/-- Equality of content; moments are equal as instants. -/
def same : Cell → Cell → Bool
  | .json a, .json b => a.same b
  | .moment a, .moment b => a.same b
  | _, _ => false

def isTruthy : Cell → Bool
  | .json v => v.isTruthy
  | .moment _ => true

def literal : Cell → String
  | .json v => v.literal
  | .moment m => m.toIso

def ofText? (s : Option String) : Cell := .json (.ofText? s)
def ofScore? (x : Option Binary64) : Cell := .json (.ofScore? x)

def ofMoment? : Option Moment → Cell
  | some m => .moment m
  | none => null

def ofId? : Option Int → Cell
  | some n => int n
  | none => null

def text? : Cell → Option (Option String)
  | .json .null => some none
  | .json (.text s) => some (some s)
  | _ => none

def score? : Cell → Option (Option Binary64)
  | .json .null => some none
  | .json (.real x) => some (some x)
  | _ => none

def moment? : Cell → Option (Option Moment)
  | .json .null => some none
  | .moment m => some (some m)
  | _ => none

def id? : Cell → Option (Option Int)
  | .json .null => some none
  | .json (.int n) => some (some n)
  | _ => none

def intsOf? : List Json → Option (List Int)
  | [] => some []
  | .int n :: rest => (intsOf? rest).map (n :: ·)
  | _ => none

/-- A list of whole numbers; null or anything empty is the empty list. -/
def ints? : Cell → Option (List Int)
  | .json (.list items) => intsOf? items
  | c => if c.isTruthy then none else some []

def json? : Cell → Option Json
  | .json v => some v
  | .moment _ => none

@[simp] theorem text?_ofText? (s : Option String) : (ofText? s).text? = some s := by cases s <;> rfl

@[simp] theorem score?_ofScore? (x : Option Binary64) : (ofScore? x).score? = some x := by
  cases x <;> rfl

@[simp] theorem moment?_ofMoment? (m : Option Moment) : (ofMoment? m).moment? = some m := by
  cases m <;> rfl

@[simp] theorem id?_ofId? (n : Option Int) : (ofId? n).id? = some n := by cases n <;> rfl

@[simp] theorem intsOf?_map_int (ns : List Int) : intsOf? (ns.map .int) = some ns := by
  induction ns with
  | nil => rfl
  | cons n ns ih => simp [intsOf?, ih]

@[simp] theorem ints?_ofInts (ns : List Int) : (json (.ofInts ns)).ints? = some ns := by
  simp [ints?, Json.ofInts]

end Cell

end AdvisoryLedger

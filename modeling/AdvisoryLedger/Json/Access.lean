import AdvisoryLedger.Log
import AdvisoryLedger.Text.Blank
import AdvisoryLedger.Binary64.Reading

namespace AdvisoryLedger.Json

/-- A member of an object, null if it is not there; only objects can be asked. -/
def member (name : String) : Json → Except Failure Json
  | .object members => .ok ((lookup name members).getD .null)
  | _ => .error .noSuchMember

def required (name : String) : Json → Except Failure Json
  | .object members =>
    match lookup name members with
    | some v => .ok v
    | none => .error (.missingKey name)
  | _ => .error .wrongKind

/-- What a walk over the value meets: the items of a list, the names of an object, the characters of
a text. -/
def elements : Json → Except Failure (List Json)
  | .list items => .ok items
  | .object members => .ok (members.map fun m => .text m.1)
  | .text s => .ok (s.toList.map fun c => .text (String.singleton c))
  | _ => .error .wrongKind

def elementsIfAny (v : Json) : Except Failure (List Json) :=
  if v.isTruthy then v.elements else .ok []

/-- The value itself, or an object without members where it is absent. -/
def orEmptyObject (v : Json) : Json := if v.isTruthy then v else .object []

def trimmedText (v : Json) : Except Failure String :=
  if v.isTruthy then
    match v with
    | .text s => .ok (Text.trim s)
    | _ => .error .noSuchMember
  else .ok ""

theorem trimmedText_text (s : String) : (text s).trimmedText = .ok (Text.trim s) := by
  unfold trimmedText
  split
  · rfl
  · next h =>
    obtain rfl : s = "" := by simpa [isTruthy] using h
    rfl

def score : Json → Except Failure (Option Binary64)
  | .flag b => .ok (some (.ofQuotient false (if b then 1 else 0) 1))
  | .int n =>
    match Binary64.ofInt? n with
    | some x => .ok (some x)
    | none => .error .outOfRange
  | .real x => .ok (some x)
  | .text s => .ok (Binary64.read? s)
  | _ => .ok none

/-- A value read as a whole number, fractions cut off. -/
def integer : Json → Except Failure Int
  | .flag b => .ok (if b then 1 else 0)
  | .int n => .ok n
  | .real x =>
    match x, x.truncate? with
    | _, some n => .ok n
    | .nan, none => .error .invalidValue
    | _, none => .error .outOfRange
  | .text s =>
    match Text.readInt? s with
    | some n => .ok n
    | none => .error .invalidValue
  | _ => .error .wrongKind

end AdvisoryLedger.Json

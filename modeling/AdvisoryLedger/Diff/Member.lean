import AdvisoryLedger.Diff.Basic
import AdvisoryLedger.Text.Case

namespace AdvisoryLedger.Attribute

abbrev Members := Table String Json

/-- A member that has to be there already when it is read. -/
def readMember (name : String) (record : Members) : Except Failure Cell :=
  match record.get? name with
  | some v => .ok (.json v)
  | none => .error .noSuchMember

def lowered : Cell → Except Failure Cell
  | .json (.text s) => .ok (.text (Text.lower s))
  | _ => .error .noSuchMember

def raised : Cell → Except Failure Cell
  | .json (.text s) => .ok (.text (Text.upper s))
  | _ => .error .noSuchMember

/-- Writing the member also sets the members in `resets` to null. -/
def writeMember (name : String) (resets : List String) (record : Members) (value : Cell) :
    Except Failure Members :=
  match value with
  | .json v => .ok (resets.foldl (fun r n => r.put n .null) (record.put name v))
  | .moment _ => .error .wrongKind

def ofMember (name : String) (policy : OverwritePolicy) (resets : List String) :
    Attribute Members :=
  ⟨name, policy, readMember name, writeMember name resets⟩

/-- A member that is compared in small letters and written in capitals. -/
def ofLoweredMember (name : String) (policy : OverwritePolicy) (resets : List String) :
    Attribute Members where
  name := name
  policy := policy
  read record := do lowered (← readMember name record)
  write record value := do writeMember name resets record (← raised value)

end AdvisoryLedger.Attribute

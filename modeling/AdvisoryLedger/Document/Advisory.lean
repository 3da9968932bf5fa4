import AdvisoryLedger.Advisory.Column
import AdvisoryLedger.Json.Access

namespace AdvisoryLedger

namespace Json

/-- A member, if it is there; a value that is no object has none. -/
def member? (name : String) : Json → Option Json
  | .object members => lookup name members
  | _ => none

def text? : Json → Option String
  | .text s => some s
  | _ => none

def int? : Json → Option Int
  | .int n => some n
  | _ => none

def ofInt? : Option Int → Json
  | some n => .int n
  | none => .null

def textOrEmpty (v : Json) : String := v.text?.getD ""

/-- An object without the members that are null. -/
def ofPresent (members : List (String × Json)) : Json :=
  .object (members.filter fun m => match m.2 with
    | .null => false
    | _ => true)

def moment? : Json → Except Failure (Option Moment)
  | .null => .ok none
  | .text s =>
    match Moment.ofIso? s with
    | some m => .ok (some m)
    | none => .error .invalidValue
  | _ => .error .wrongKind

def moment (v : Json) : Except Failure Moment := do
  match ← v.moment? with
  | some m => .ok m
  | none => .error .wrongKind

/-- What a name names; a value that is no name, or the name of nothing, is refused. -/
def named {α : Type} (ofName? : String → Option α) (v : Json) : Except Failure α :=
  match v.text?.bind ofName? with
  | some x => .ok x
  | none => .error .invalidValue

def named? {α : Type} (ofName? : String → Option α) : Json → Except Failure (Option α)
  | .null => .ok none
  | v => (v.named ofName?).map some

def source (v : Json) : Except Failure Source := v.named Source.ofName?

end Json

namespace Column

def isTime : Column → Bool
  | .created => true
  | .published => true
  | .updated => true
  | _ => false

def isScore (c : Column) : Bool :=
  [cvss2Base, cvss2Impact, cvss2Exploitability, cvss3Base, cvss3Impact, cvss3Exploitability,
    owaspLikelihood, owaspTechnicalImpact, owaspBusinessImpact, epssScore, epssPercentile].contains c

def cellOfJson (c : Column) (v : Json) : Except Failure Cell :=
  if c.isTime then v.moment?.map Cell.ofMoment?
  else if c.isScore then v.score.map Cell.ofScore?
  else .ok (.json v)

end Column

def Cell.toJson : Cell → Json
  | .json v => v
  | .moment m => .text m.toIso

namespace Advisory

def setMember (a : Advisory) (column : Column) (v : Json) : Except Failure Advisory := do
  match a.setCell? column (← column.cellOfJson v) with
  | some a => .ok a
  | none => .error .wrongKind

def setMembers (a : Advisory) (document : Json) : List Column → Except Failure Advisory
  | [] => .ok a
  | c :: rest => do
    let a ← match document.member? c.name with
      | some v => a.setMember c v
      | none => .ok a
    a.setMembers document rest

def ofJson (document : Json) : Except Failure Advisory := do
  let source ← match document.member? "source" with
    | some v => v.source
    | none => .ok .nvd
  let severity ← ((document.member? "explicit_severity").getD .null).named? Severity.ofName?
  let a : Advisory := {
    vulnId := ((document.member? "vuln_id").getD .null).textOrEmpty, source, explicitSeverity := severity
    id := (document.member? "id").bind Json.int? }
  a.setMembers document Column.all

/-- The severity is shown also where it is derived. -/
def toJson (a : Advisory) : Json := .ofPresent (
  [("vuln_id", .text a.vulnId), ("source", .text a.source.name)] ++
  Column.all.map (fun c => (c.name, (a.cell c).toJson)) ++
  [("explicit_severity", .ofText? (a.explicitSeverity.map Severity.name)), ("id", .ofInt? a.id),
    ("severity", .text a.severity.name)])

end Advisory

end AdvisoryLedger

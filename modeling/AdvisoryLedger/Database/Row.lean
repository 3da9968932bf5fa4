import AdvisoryLedger.Advisory.Column
import AdvisoryLedger.Range.Basic

namespace AdvisoryLedger

abbrev Row := Table String Cell

namespace Row

def column (row : Row) (name : String) : Except Failure Cell :=
  match row.get? name with
  | some c => .ok c
  | none => .error (.missingKey name)

def need {α : Type} : Option α → Except Failure α
  | some a => .ok a
  | none => .error .wrongKind

def id (row : Row) : Except Failure (Option Int) := do need (← row.column "id").id?

def int (row : Row) (name : String) : Except Failure Int := do
  match ← row.column name with
  | .json (.int n) => .ok n
  | _ => .error .wrongKind

def moment (row : Row) (name : String) : Except Failure Moment := do
  match ← row.column name with
  | .moment m => .ok m
  | _ => .error .wrongKind

def source (row : Row) : Except Failure Source := do
  match ← row.column "source" with
  | .json (.text s) =>
    match Source.ofName? s with
    | some x => .ok x
    | none => .error .invalidValue
  | _ => .error .invalidValue

def severity (row : Row) : Except Failure (Option Severity) := do
  let c ← row.column "severity"
  if c.isTruthy then
    match c with
    | .json (.text s) =>
      match Severity.ofName? s with
      | some x => .ok (some x)
      | none => .error .invalidValue
    | _ => .error .invalidValue
  else .ok none

def columns (row : Row) : List Column → Except Failure (List (Column × Cell))
  | [] => .ok []
  | c :: rest => do
    let value ← row.column c.name
    .ok ((c, value) :: (← row.columns rest))

def fill (a : Advisory) : List (Column × Cell) → Except Failure Advisory
  | [] => .ok a
  | (c, value) :: rest => do fill (← need (a.setCell? c value)) rest

/-- A severity in a row counts as assigned, even where it was derived when the row was written. -/
def advisory (row : Row) : Except Failure Advisory := do
  let values ← row.columns Column.all
  let id ← row.id
  let source ← row.source
  let vulnId ← need (← need (← row.column "vuln_id").text?)
  let explicitSeverity ← row.severity
  fill { vulnId, source, explicitSeverity, id } values

def keyValues (row : Row) : List String → Except Failure (List Json)
  | [] => .ok []
  | name :: rest => do
    let value ← need (← row.column name).json?
    .ok (value :: (← row.keyValues rest))

def range (row : Row) : Except Failure AffectedRange := do
  let id ← row.id
  need (AffectedRange.ofKey? (← row.keyValues AffectedRange.columnNames) id)

def attribution (row : Row) : Except Failure Attribution := do
  let id ← row.id
  let advisoryId ← row.int "vulnerability_id"
  let rangeId ← row.int "affected_software_id"
  let source ← row.source
  let firstSeen ← row.moment "first_seen"
  let lastSeen ← row.moment "last_seen"
  .ok { advisoryId, rangeId, source, firstSeen, lastSeen, id }

end Row

end AdvisoryLedger

import AdvisoryLedger.Diff.Basic
import AdvisoryLedger.Advisory.Column

namespace AdvisoryLedger.Advisory

def policyOf : Column → OverwritePolicy
  | .epssScore => .ifPresent
  | .epssPercentile => .ifPresent
  | _ => .always

def columnAttribute (column : Column) : Attribute Advisory where
  name := column.name
  policy := policyOf column
  read a := .ok (a.cell column)
  write a value :=
    match a.setCell? column value with
    | some a => .ok a
    | none => .error .wrongKind

/-- The severity in effect; writing it assigns it. -/
def severityAttribute : Attribute Advisory where
  name := "severity"
  policy := .always
  read a := .ok (.text a.severity.name)
  write a value :=
    match value with
    | .json (.text s) =>
      match Severity.ofName? s with
      | some severity => .ok (a.assignSeverity (some severity))
      | none => .error .invalidValue
    | _ => .error .wrongKind

/-- The severity goes before the scores, because assigning it drops them. -/
def attributes : List (Attribute Advisory) :=
  (Column.all.takeWhile (· ≠ .cvss2Base)).map columnAttribute ++
    severityAttribute :: (Column.all.dropWhile (· ≠ .cvss2Base)).map columnAttribute

def update (existing reported : Advisory) : Differ Advisory :=
  (Differ.applyAll ⟨existing, reported, []⟩ attributes).2

end AdvisoryLedger.Advisory

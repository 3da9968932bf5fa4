import AdvisoryLedger.Binary64.Rounding

namespace AdvisoryLedger

inductive Source
  | nvd | github | osv | snyk | ossIndex | vulnDb | internal
  deriving DecidableEq, Repr

namespace Source

def all : List Source := [.nvd, .github, .osv, .snyk, .ossIndex, .vulnDb, .internal]

def name : Source → String
  | .nvd => "NVD"
  | .github => "GITHUB"
  | .osv => "OSV"
  | .snyk => "SNYK"
  | .ossIndex => "OSSINDEX"
  | .vulnDb => "VULNDB"
  | .internal => "INTERNAL"

def ofName? (s : String) : Option Source := all.find? fun x => x.name == s

theorem ofName?_name (x : Source) : ofName? x.name = some x := by cases x <;> decide +kernel

end Source

inductive Severity
  | critical | high | medium | low | info | unassigned
  deriving DecidableEq, Repr

namespace Severity

def all : List Severity := [.critical, .high, .medium, .low, .info, .unassigned]

def name : Severity → String
  | .critical => "CRITICAL"
  | .high => "HIGH"
  | .medium => "MEDIUM"
  | .low => "LOW"
  | .info => "INFO"
  | .unassigned => "UNASSIGNED"

def ofName? (s : String) : Option Severity := all.find? fun x => x.name == s

theorem ofName?_name (x : Severity) : ofName? x.name = some x := by cases x <;> decide +kernel

def points (n : Nat) : Binary64 := Binary64.ofQuotient false n 1

/-- CVSS version 3 has five bands; a NaN falls through all of them. -/
def ofCvss3 (score : Binary64) : Severity :=
  if score.atLeast (points 9) then .critical
  else if score.atLeast (points 7) then .high
  else if score.atLeast (points 4) then .medium
  else if (points 0).less score then .low
  else .info

/-- CVSS version 2 knows no critical band. -/
def ofCvss2 (score : Binary64) : Severity :=
  if score.atLeast (points 7) then .high
  else if score.atLeast (points 4) then .medium
  else if (points 0).less score then .low
  else .info

inductive RiskLevel
  | low | medium | high
  deriving DecidableEq, Repr

/-- Below 3 is low and below 6 medium; a NaN is below neither. -/
def riskLevel (score : Binary64) : RiskLevel :=
  if score.less (points 3) then .low
  else if score.less (points 6) then .medium
  else .high

/-- The OWASP matrix of likelihood and impact. -/
def ofRisk : RiskLevel → RiskLevel → Severity
  | .low, .low => .info
  | .low, .medium => .low
  | .low, .high => .medium
  | .medium, .low => .low
  | .medium, .medium => .medium
  | .medium, .high => .high
  | .high, .low => .medium
  | .high, .medium => .high
  | .high, .high => .critical

def impactOrZero : Option Binary64 → Binary64
  | some x => if x.isNonzero then x else .zero
  | none => .zero

/-- The greater of the two impacts against the likelihood. -/
def ofOwasp (likelihood : Binary64) (technical business : Option Binary64) : Severity :=
  ofRisk (riskLevel likelihood) (riskLevel ((impactOrZero technical).larger (impactOrZero business)))

end Severity

end AdvisoryLedger

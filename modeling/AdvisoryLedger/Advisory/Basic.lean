import AdvisoryLedger.Advisory.Severity
import AdvisoryLedger.Json.Basic
import AdvisoryLedger.Time.Moment

namespace AdvisoryLedger

/-- A CVSS rating; the vector is kept as the feed gave it, null where it gave none. -/
structure CvssRating where
  base : Option Binary64 := none
  impact : Option Binary64 := none
  exploitability : Option Binary64 := none
  vector : Json := .null

structure OwaspRating where
  likelihood : Option Binary64 := none
  technicalImpact : Option Binary64 := none
  businessImpact : Option Binary64 := none
  vector : Json := .null

/-- One vulnerability; `source` and `vulnId` identify it, `id` is its row in a store. -/
structure Advisory where
  vulnId : String
  source : Source := .nvd
  title : Option String := none
  subTitle : Option String := none
  description : Option String := none
  detail : Option String := none
  recommendation : Option String := none
  references : Option String := none
  credits : Option String := none
  created : Option Moment := none
  published : Option Moment := none
  updated : Option Moment := none
  cwes : List Int := []
  cvss2 : CvssRating := {}
  cvss3 : CvssRating := {}
  owasp : OwaspRating := {}
  vulnerableVersions : Option String := none
  patchedVersions : Option String := none
  epssScore : Option Binary64 := none
  epssPercentile : Option Binary64 := none
  explicitSeverity : Option Severity := none
  id : Option Int := none

instance : Inhabited CvssRating := ⟨{}⟩
instance : Inhabited OwaspRating := ⟨{}⟩
instance : Inhabited Advisory :=
  ⟨⟨"", .nvd, none, none, none, none, none, none, none, none, none, none,
  [], {}, {}, {}, none, none, none, none, none, none⟩⟩

namespace Advisory

def naturalKey (a : Advisory) : Source × String := (a.source, a.vulnId)

def lockKey (a : Advisory) : String := a.source.name ++ ":" ++ a.vulnId

/-- CVSS version 3 goes before version 2, and that before OWASP. -/
def derivedSeverity (a : Advisory) : Severity :=
  match a.cvss3.base, a.cvss2.base, a.owasp.likelihood with
  | some x, _, _ => .ofCvss3 x
  | none, some x, _ => .ofCvss2 x
  | none, none, some x => .ofOwasp x a.owasp.technicalImpact a.owasp.businessImpact
  | none, none, none => .unassigned

def severity (a : Advisory) : Severity := a.explicitSeverity.getD a.derivedSeverity

/-- Assigning a severity, also none, drops every score that it could have come from. -/
def assignSeverity (a : Advisory) (s : Option Severity) : Advisory :=
  { a with explicitSeverity := s, cvss2 := {}, cvss3 := {}, owasp := {} }

end Advisory

end AdvisoryLedger

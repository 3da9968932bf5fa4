import AdvisoryLedger.Advisory.Cell

namespace AdvisoryLedger

/-- The columns of an advisory beside its keys and its severity. -/
inductive Column
  | title | subTitle | description | detail | recommendation | references | credits
  | created | published | updated | cwes
  | cvss2Base | cvss2Impact | cvss2Exploitability | cvss2Vector
  | cvss3Base | cvss3Impact | cvss3Exploitability | cvss3Vector
  | owaspLikelihood | owaspTechnicalImpact | owaspBusinessImpact | owaspVector
  | vulnerableVersions | patchedVersions | epssScore | epssPercentile
  deriving DecidableEq, Repr

namespace Column

/-- In the order in which they are written. -/
def all : List Column :=
  [.title, .subTitle, .description, .detail, .recommendation, .references, .credits,
    .created, .published, .updated, .cwes,
    .cvss2Base, .cvss2Impact, .cvss2Exploitability, .cvss2Vector,
    .cvss3Base, .cvss3Impact, .cvss3Exploitability, .cvss3Vector,
    .owaspLikelihood, .owaspTechnicalImpact, .owaspBusinessImpact, .owaspVector,
    .vulnerableVersions, .patchedVersions, .epssScore, .epssPercentile]

def name : Column → String
  | .title => "title"
  | .subTitle => "sub_title"
  | .description => "description"
  | .detail => "detail"
  | .recommendation => "recommendation"
  | .references => "references"
  | .credits => "credits"
  | .created => "created"
  | .published => "published"
  | .updated => "updated"
  | .cwes => "cwes"
  | .cvss2Base => "cvss_v2_base_score"
  | .cvss2Impact => "cvss_v2_impact_sub_score"
  | .cvss2Exploitability => "cvss_v2_exploitability_sub_score"
  | .cvss2Vector => "cvss_v2_vector"
  | .cvss3Base => "cvss_v3_base_score"
  | .cvss3Impact => "cvss_v3_impact_sub_score"
  | .cvss3Exploitability => "cvss_v3_exploitability_sub_score"
  | .cvss3Vector => "cvss_v3_vector"
  | .owaspLikelihood => "owasp_rr_likelihood_score"
  | .owaspTechnicalImpact => "owasp_rr_technical_impact_score"
  | .owaspBusinessImpact => "owasp_rr_business_impact_score"
  | .owaspVector => "owasp_rr_vector"
  | .vulnerableVersions => "vulnerable_versions"
  | .patchedVersions => "patched_versions"
  | .epssScore => "epss_score"
  | .epssPercentile => "epss_percentile"

def ofName? (s : String) : Option Column := all.find? fun c => c.name == s

end Column

namespace Advisory

def cell (a : Advisory) : Column → Cell
  | .title => .ofText? a.title
  | .subTitle => .ofText? a.subTitle
  | .description => .ofText? a.description
  | .detail => .ofText? a.detail
  | .recommendation => .ofText? a.recommendation
  | .references => .ofText? a.references
  | .credits => .ofText? a.credits
  | .created => .ofMoment? a.created
  | .published => .ofMoment? a.published
  | .updated => .ofMoment? a.updated
  | .cwes => .json (.ofInts a.cwes)
  | .cvss2Base => .ofScore? a.cvss2.base
  | .cvss2Impact => .ofScore? a.cvss2.impact
  | .cvss2Exploitability => .ofScore? a.cvss2.exploitability
  | .cvss2Vector => .json a.cvss2.vector
  | .cvss3Base => .ofScore? a.cvss3.base
  | .cvss3Impact => .ofScore? a.cvss3.impact
  | .cvss3Exploitability => .ofScore? a.cvss3.exploitability
  | .cvss3Vector => .json a.cvss3.vector
  | .owaspLikelihood => .ofScore? a.owasp.likelihood
  | .owaspTechnicalImpact => .ofScore? a.owasp.technicalImpact
  | .owaspBusinessImpact => .ofScore? a.owasp.businessImpact
  | .owaspVector => .json a.owasp.vector
  | .vulnerableVersions => .ofText? a.vulnerableVersions
  | .patchedVersions => .ofText? a.patchedVersions
  | .epssScore => .ofScore? a.epssScore
  | .epssPercentile => .ofScore? a.epssPercentile

def setCell? (a : Advisory) (column : Column) (c : Cell) : Option Advisory :=
  match column with
  | .title => c.text?.map fun v => { a with title := v }
  | .subTitle => c.text?.map fun v => { a with subTitle := v }
  | .description => c.text?.map fun v => { a with description := v }
  | .detail => c.text?.map fun v => { a with detail := v }
  | .recommendation => c.text?.map fun v => { a with recommendation := v }
  | .references => c.text?.map fun v => { a with references := v }
  | .credits => c.text?.map fun v => { a with credits := v }
  | .created => c.moment?.map fun v => { a with created := v }
  | .published => c.moment?.map fun v => { a with published := v }
  | .updated => c.moment?.map fun v => { a with updated := v }
  | .cwes => c.ints?.map fun v => { a with cwes := v }
  | .cvss2Base => c.score?.map fun v => { a with cvss2 := { a.cvss2 with base := v } }
  | .cvss2Impact => c.score?.map fun v => { a with cvss2 := { a.cvss2 with impact := v } }
  | .cvss2Exploitability =>
    c.score?.map fun v => { a with cvss2 := { a.cvss2 with exploitability := v } }
  | .cvss2Vector => c.json?.map fun v => { a with cvss2 := { a.cvss2 with vector := v } }
  | .cvss3Base => c.score?.map fun v => { a with cvss3 := { a.cvss3 with base := v } }
  | .cvss3Impact => c.score?.map fun v => { a with cvss3 := { a.cvss3 with impact := v } }
  | .cvss3Exploitability =>
    c.score?.map fun v => { a with cvss3 := { a.cvss3 with exploitability := v } }
  | .cvss3Vector => c.json?.map fun v => { a with cvss3 := { a.cvss3 with vector := v } }
  | .owaspLikelihood => c.score?.map fun v => { a with owasp := { a.owasp with likelihood := v } }
  | .owaspTechnicalImpact =>
    c.score?.map fun v => { a with owasp := { a.owasp with technicalImpact := v } }
  | .owaspBusinessImpact =>
    c.score?.map fun v => { a with owasp := { a.owasp with businessImpact := v } }
  | .owaspVector => c.json?.map fun v => { a with owasp := { a.owasp with vector := v } }
  | .vulnerableVersions => c.text?.map fun v => { a with vulnerableVersions := v }
  | .patchedVersions => c.text?.map fun v => { a with patchedVersions := v }
  | .epssScore => c.score?.map fun v => { a with epssScore := v }
  | .epssPercentile => c.score?.map fun v => { a with epssPercentile := v }

def same (a b : Advisory) : Bool :=
  a.vulnId == b.vulnId && a.source == b.source &&
    (Column.all.all fun c => (a.cell c).same (b.cell c)) && a.explicitSeverity == b.explicitSeverity

theorem setCell?_cell (a : Advisory) (column : Column) :
    a.setCell? column (a.cell column) = some a := by
  cases column <;> simp [setCell?, cell, Cell.json?]

end Advisory

end AdvisoryLedger

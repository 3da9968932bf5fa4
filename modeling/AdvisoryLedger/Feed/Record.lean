import AdvisoryLedger.Json.Access
import AdvisoryLedger.Time.FeedStamp
import AdvisoryLedger.Range.Basic

namespace AdvisoryLedger.Record

/-- A timestamp of the feed; one that cannot be read is logged and counts as absent. -/
def stamp (v : Json) : Noted (Option Moment) :=
  if v.isTruthy then
    match v with
    | .text s =>
      match FeedStamp.read? s with
      | some m => pure (some m)
      | none => do
        Noted.log ⟨.conversion, .warning,
          "⚠️ Unparseable NVD timestamp: " ++ Text.quoted (String.ofList (FeedStamp.core s)), none⟩
        pure none
    | _ => Noted.fail .noSuchMember
  else pure none

def firstText (test : Json → Except Failure Bool) : List Json → Except Failure (Option String)
  | [] => .ok none
  | d :: rest => do
    if ← test d then
      let text ← (← d.member "value").trimmedText
      if text.isEmpty then firstText test rest else .ok (some text)
    else firstText test rest

def isEnglish (d : Json) : Except Failure Bool := do
  .ok ((← d.member "lang").same (.text "en"))

/-- English goes first, then whatever there is. -/
def description (cve : Json) : Except Failure (Option String) := do
  let all ← (← cve.member "descriptions").elementsIfAny
  match ← firstText isEnglish all with
  | some text => .ok (some text)
  | none => firstText (fun _ => .ok true) all

def linkLines : List Json → Except Failure (List String)
  | [] => .ok []
  | r :: rest => do
    let url ← (← r.member "url").trimmedText
    let lines ← linkLines rest
    .ok (if url.isEmpty then lines else ("* [" ++ url ++ "](" ++ url ++ ")") :: lines)

def references (cve : Json) : Except Failure (Option String) := do
  match ← linkLines (← (← cve.member "references").elementsIfAny) with
  | [] => .ok none
  | lines => .ok (some ("\n".intercalate lines))

/-- The number in `CWE-` followed by decimal digits alone; numerals of excessive length are
refused. -/
def cweNumber? (s : String) : Except Failure (Option Int) :=
  match s.toList with
  | 'C' :: 'W' :: 'E' :: '-' :: d :: ds =>
    match (d :: ds).mapM Text.digitValue? with
    | some digits =>
      if Text.maxNumeralDigits < digits.length then .error .invalidValue
      else .ok (some (Text.ofDigits digits : Int))
    | none => .ok none
  | _ => .ok none

/-- Numbers are kept once, where they first occur. -/
def addNew (seen : List Int) : Option Int → List Int
  | some n => if seen.contains n then seen else seen ++ [n]
  | none => seen

def cwesOfDescriptions (seen : List Int) : List Json → Except Failure (List Int)
  | [] => .ok seen
  | d :: rest => do
    let text ← (← d.member "value").trimmedText
    cwesOfDescriptions (addNew seen (← cweNumber? text)) rest

def cwesOfWeaknesses (seen : List Int) : List Json → Except Failure (List Int)
  | [] => .ok seen
  | w :: rest => do
    let descriptions ← (← w.member "description").elementsIfAny
    cwesOfWeaknesses (← cwesOfDescriptions seen descriptions) rest

def cwes (cve : Json) : Except Failure (List Int) := do
  cwesOfWeaknesses [] (← (← cve.member "weaknesses").elementsIfAny)

/-- The first metric of the type that goes before others, else the first of all. -/
def primaryOr (first : Json) : List Json → Except Failure Json
  | [] => .ok first
  | m :: rest => do
    if (← m.member "type").same (.text "Primary") then .ok m else primaryOr first rest

def chosenMetric (metrics : Json) : Except Failure Json := do
  match ← metrics.elementsIfAny with
  | [] => .ok .null
  | m :: rest => primaryOr m (m :: rest)

def rating (metric : Json) : Except Failure CvssRating := do
  let data := (← metric.member "cvssData").orEmptyObject
  let base ← (← data.member "baseScore").score
  let impact ← (← metric.member "impactScore").score
  let exploitability ← (← metric.member "exploitabilityScore").score
  let vector ← data.member "vectorString"
  .ok ⟨base, impact, exploitability, vector⟩

/-- The ratings of a record; a version of the scheme that it does not rate keeps what it was. -/
def applyMetrics (a : Advisory) (cve : Json) : Except Failure Advisory := do
  let metrics := (← cve.member "metrics").orEmptyObject
  let newest ← chosenMetric (← metrics.member "cvssMetricV31")
  let v3 ← if newest.isTruthy then .ok newest else chosenMetric (← metrics.member "cvssMetricV30")
  let a ← if v3.isTruthy then do .ok { a with cvss3 := ← rating v3 } else .ok a
  let v2 ← chosenMetric (← metrics.member "cvssMetricV2")
  if v2.isTruthy then do .ok { a with cvss2 := ← rating v2 } else .ok a

/-- The advisory of a record; its severity is left to its scores. -/
def advisory (cve : Json) : Noted Advisory := do
  let vulnId ← (← cve.member "id").trimmedText
  if vulnId.isEmpty then Noted.fail .recordWithoutId
  else do
    let published ← stamp (← cve.member "published")
    let description ← description cve
    let references ← references cve
    let updated ← stamp (← cve.member "lastModified")
    let cwes ← cwes cve
    applyMetrics
      { vulnId, description, references, created := published, published, updated, cwes } cve

def ofMatch (m : Json) : Except Failure AffectedRange := do
  let criteria ← m.required "criteria"
  let startIncluding ← m.member "versionStartIncluding"
  let startExcluding ← m.member "versionStartExcluding"
  let endIncluding ← m.member "versionEndIncluding"
  let endExcluding ← m.member "versionEndExcluding"
  let vulnerable ← m.member "vulnerable"
  match criteria with
  | .text s =>
    match Cpe.read? s with
    | none => .error (.notCpe s)
    | some c =>
      .ok {
        cpe23 := criteria, part := .ofText? c.part, vendor := .ofText? c.vendor,
        product := .ofText? c.product, version := .ofText? c.version, update := .ofText? c.update,
        edition := .ofText? c.edition, language := .ofText? c.language,
        swEdition := .ofText? c.swEdition, targetSw := .ofText? c.targetSw,
        targetHw := .ofText? c.targetHw, other := .ofText? c.other,
        startIncluding, startExcluding, endIncluding, endExcluding,
        vulnerable := .flag vulnerable.isTruthy }
  | _ => .error .wrongKind

def addRange (found : List AffectedRange) (r : AffectedRange) : Except Failure (List AffectedRange) := do
  let _ ← r.lookupKey
  .ok (if found.any r.same then found else found ++ [r])

/-- A match that names no platform is skipped, with a warning; any other failure ends the walk. -/
def rangesOfMatches (vulnId : String) (found : List AffectedRange) : List Json →
    Noted (List AffectedRange)
  | [] => pure found
  | m :: rest => do
    if (← m.member "vulnerable").isTruthy then
      let skip (e : Failure) : Noted (List AffectedRange) := do
        let criteria ← m.member "criteria"
        Noted.log ⟨.conversion, .warning,
          "⚠️ " ++ vulnId ++ ": skipping malformed cpeMatch " ++ criteria.literal ++ ": " ++ e.message, none⟩
        pure found
      let found ← match ofMatch m with
        | .ok r => Noted.ofExcept (addRange found r)
        | .error (.missingKey key) => skip (.missingKey key)
        | .error (.notCpe text) => skip (.notCpe text)
        | .error e => Noted.fail e
      rangesOfMatches vulnId found rest
    else rangesOfMatches vulnId found rest

def rangesOfNodes (vulnId : String) (found : List AffectedRange) : List Json →
    Noted (List AffectedRange)
  | [] => pure found
  | node :: rest => do
    let found ← rangesOfMatches vulnId found (← (← node.member "cpeMatch").elementsIfAny)
    rangesOfNodes vulnId found rest

def rangesOfConfigurations (vulnId : String) (found : List AffectedRange) :
    List Json → Noted (List AffectedRange)
  | [] => pure found
  | configuration :: rest => do
    let found ← rangesOfNodes vulnId found (← (← configuration.member "nodes").elementsIfAny)
    rangesOfConfigurations vulnId found rest

/-- The vulnerable platforms of a record, in its order and each once. -/
def ranges (vulnId : String) (configurations : Json) : Noted (List AffectedRange) := do
  rangesOfConfigurations vulnId [] (← configurations.elementsIfAny)

/-- An item of a page, none where it carries no record. -/
def ofItem (item : Json) : Noted (Option (Advisory × List AffectedRange)) := do
  match ← item.member "cve" with
  | .null => pure none
  | cve => do
    let a ← advisory cve
    let rs ← ranges a.vulnId (← cve.member "configurations")
    pure (some (a, rs))

end AdvisoryLedger.Record

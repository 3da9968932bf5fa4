import AdvisoryLedger.Range.Cpe
import AdvisoryLedger.Text.Blank
import AdvisoryLedger.Advisory.Basic

namespace AdvisoryLedger

/-- A platform and the bounds on its version, each null where not given. Values are kept as the feed
gave them. -/
structure AffectedRange where
  cpe23 : Json := .null
  part : Json := .null
  vendor : Json := .null
  product : Json := .null
  version : Json := .null
  update : Json := .null
  edition : Json := .null
  language : Json := .null
  swEdition : Json := .null
  targetSw : Json := .null
  targetHw : Json := .null
  other : Json := .null
  startIncluding : Json := .null
  startExcluding : Json := .null
  endIncluding : Json := .null
  endExcluding : Json := .null
  vulnerable : Json := .flag true
  id : Option Int := none

instance : Inhabited AffectedRange := ⟨{}⟩

namespace AffectedRange

def columnNames : List String :=
  ["cpe23", "part", "vendor", "product", "version", "update", "edition", "language", "sw_edition",
    "target_sw", "target_hw", "other", "version_start_including", "version_start_excluding",
    "version_end_including", "version_end_excluding", "vulnerable"]

def key (r : AffectedRange) : List Json :=
  [r.cpe23, r.part, r.vendor, r.product, r.version, r.update, r.edition, r.language, r.swEdition,
    r.targetSw, r.targetHw, r.other, r.startIncluding, r.startExcluding, r.endIncluding,
    r.endExcluding, r.vulnerable]

def ofKey? : List Json → Option Int → Option AffectedRange
  | [a, b, c, d, e, f, g, h, i, j, k, l, m, n, o, p, q], id =>
    some ⟨a, b, c, d, e, f, g, h, i, j, k, l, m, n, o, p, q, id⟩
  | _, _ => none

theorem length_key (r : AffectedRange) : r.key.length = columnNames.length := rfl

def same (a b : AffectedRange) : Bool := Json.sameItems a.key b.key

def isHashable (r : AffectedRange) : Bool := r.key.all Json.isHashable

/-- The key for a look-up; lists and objects cannot take part in one. -/
def lookupKey (r : AffectedRange) : Except Failure (List Json) :=
  if r.isHashable then .ok r.key else .error .wrongKind

/-- One bound of the version, if it says anything. -/
def bound (mark : String) (value : Json) : List String :=
  if value.isTruthy then [mark ++ value.display] else []

def describe (r : AffectedRange) : String :=
  let bounds := bound ">=" r.startIncluding ++ bound ">" r.startExcluding ++ bound "<=" r.endIncluding ++
    bound "<" r.endExcluding
  Text.trim (r.cpe23.display ++ " " ++ " ".intercalate bounds)

end AffectedRange

/-- A source attributes a range to an advisory, since `firstSeen` and as of `lastSeen`. -/
structure Attribution where
  advisoryId : Int
  rangeId : Int
  source : Source
  firstSeen : Moment
  lastSeen : Moment
  id : Option Int := none

namespace Attribution

def triple (a : Attribution) : Int × Int × Source := (a.advisoryId, a.rangeId, a.source)

end Attribution

end AdvisoryLedger

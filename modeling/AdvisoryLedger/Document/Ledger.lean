import AdvisoryLedger.Document.Advisory
import AdvisoryLedger.Ledger.Basic

namespace AdvisoryLedger

namespace AffectedRange

/-- Null unless it is given; a range is vulnerable by default. -/
def memberOf (document : Json) (name : String) : Json :=
  (document.member? name).getD (if name = "vulnerable" then .flag true else .null)

def ofJson (document : Json) : AffectedRange :=
  (ofKey? (columnNames.map (memberOf document)) ((document.member? "id").bind Json.int?)).getD {}

def toJson (r : AffectedRange) : Json :=
  match Json.ofPresent (("id", .ofInt? r.id) :: (columnNames.zip r.key).dropLast) with
  | .object members => .object (members ++ [("vulnerable", r.vulnerable)])
  | v => v

end AffectedRange

namespace Attribution

def ofJson (document : Json) : Except Failure Attribution := do
  let advisoryId := ((document.member? "vulnerability_id").bind Json.int?).getD 0
  let rangeId := ((document.member? "affected_software_id").bind Json.int?).getD 0
  let source ← ((document.member? "source").getD .null).source
  let firstSeen ← ((document.member? "first_seen").getD .null).moment
  let lastSeen ← ((document.member? "last_seen").getD .null).moment
  .ok { advisoryId, rangeId, source, firstSeen, lastSeen, id := (document.member? "id").bind Json.int? }

def toJson (a : Attribution) : Json := .ofPresent
  [("vulnerability_id", .int a.advisoryId), ("affected_software_id", .int a.rangeId),
    ("source", .text a.source.name), ("first_seen", .text a.firstSeen.toIso),
    ("last_seen", .text a.lastSeen.toIso), ("id", .ofInt? a.id)]

end Attribution

namespace Ledger

def tableToJson {α : Type} (f : α → Json) (t : Table Int α) : Json :=
  .object (t.map fun row => (toString row.1, f row.2))

/-- Associations with nothing are left out, and properties come in the order of their names. -/
def toJson (l : Ledger) : Json :=
  let associations := l.associations.filter fun row => !row.2.isEmpty
  let config := l.config.mergeSort fun a b => a.1.1 < b.1.1 || (a.1.1 == b.1.1 && a.1.2 ≤ b.1.2)
  .object [("vulnerabilities", tableToJson Advisory.toJson l.advisories),
    ("affected_software", tableToJson AffectedRange.toJson l.ranges),
    ("attributions", tableToJson Attribution.toJson l.attributions),
    ("associations", tableToJson Json.ofInts associations),
    ("config", .list (config.map fun row => .list [.text row.1.1, .text row.1.2, .ofText? row.2]))]

end Ledger

end AdvisoryLedger

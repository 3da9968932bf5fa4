import AdvisoryLedger.Database.Row
import AdvisoryLedger.Text.Blank

namespace AdvisoryLedger

inductive Statement
  | lock (key : String)
  | selectAdvisory (forUpdate : Bool) (source : Source) (vulnId : String)
  | insertAdvisory (source : Source) (vulnId : String) (values : List Cell)
  | updateAdvisory (values : List Cell) (id : Int)
  | selectRanges (advisoryId : Int)
  | selectAttributions (advisoryId : Int) (rangeIds : List Int)
  | findRange (key : List Json)
  | insertRange (key : List Json)
  | isAttributed (advisoryId rangeId : Int) (source : Source)
  | insertAttribution (attribution : Attribution)
  | touchAttributions (advisoryId : Int) (rangeIds : List Int) (source : Source) (seenAt : Moment)
  | deleteAttributions (advisoryId : Int) (rangeIds : List Int) (source : Source)
  /-- Drops every association of an advisory but these. -/
  | retainRanges (advisoryId : Int) (rangeIds : List Int)
  | associateRanges (advisoryId : Int) (rangeIds : List Int)
  | selectConfig (group name : String)
  | putConfig (group name : String) (value : Option String)
  | define (text : String)

namespace Statement

inductive Verb
  | execute | executeMany | fetch | fetchRow | fetchValue
  deriving DecidableEq, Repr

/-- What each way of asking brings: a status, nothing, rows, one row if there is one, or one
value. -/
@[reducible] def Verb.Reply : Verb → Type
  | .execute => Json
  | .executeMany => Unit
  | .fetch => List Row
  | .fetchRow => Option Row
  | .fetchValue => Json

@[reducible] def verb : Statement → Verb
  | .lock _ => .execute
  | .selectAdvisory .. => .fetchRow
  | .insertAdvisory .. => .fetchRow
  | .updateAdvisory .. => .execute
  | .selectRanges _ => .fetch
  | .selectAttributions .. => .fetch
  | .findRange _ => .fetchRow
  | .insertRange _ => .fetchRow
  | .isAttributed .. => .fetchValue
  | .insertAttribution _ => .fetchRow
  | .touchAttributions .. => .execute
  | .deleteAttributions .. => .execute
  | .retainRanges .. => .execute
  | .associateRanges .. => .executeMany
  | .selectConfig .. => .fetchValue
  | .putConfig .. => .execute
  | .define _ => .execute

@[reducible] def Reply (s : Statement) : Type := s.verb.Reply

def valueColumns : List String := Column.all.map Column.name ++ ["severity"]

def advisoryColumns : List String := ["source", "vuln_id"] ++ valueColumns

/-- The values that go into `valueColumns`; the severity written is the one in effect. -/
def advisoryValues (a : Advisory) : List Cell :=
  Column.all.map a.cell ++ [.text a.severity.name]

def quotedName (name : String) : String := "\"" ++ name ++ "\""

def placeholder (n : Nat) : String := "$" ++ toString n

/-- Names, each beside the number of its placeholder, counted from 1. -/
def numbered (f : String → String → String) (names : List String) : List String :=
  (names.zipIdx 1).map fun x => f x.1 (placeholder x.2)

def commaJoined (parts : List String) : String := ", ".intercalate parts

def insertText (table : String) (names : List String) (columns : List String) : String :=
  "INSERT INTO " ++ table ++ " (" ++ commaJoined columns ++ ") VALUES (" ++
    commaJoined (numbered (fun _ p => p) names) ++ ")"

def sql : Statement → String
  | .lock _ => "SELECT pg_advisory_xact_lock(hashtext($1))"
  | .selectAdvisory forUpdate _ _ =>
    "SELECT * FROM vulnerabilities WHERE source = $1 AND vuln_id = $2" ++
      (if forUpdate then " FOR UPDATE" else "")
  | .insertAdvisory .. =>
    insertText "vulnerabilities" advisoryColumns (advisoryColumns.map quotedName) ++
      " ON CONFLICT (source, vuln_id) DO NOTHING RETURNING *"
  | .updateAdvisory .. =>
    "UPDATE vulnerabilities SET " ++
      commaJoined (numbered (fun name p => quotedName name ++ " = " ++ p) valueColumns) ++
      " WHERE id = " ++ placeholder (valueColumns.length + 1)
  | .selectRanges _ =>
    "SELECT s.* FROM affected_software s JOIN vulnerability_affected_software vas " ++
      "ON vas.affected_software_id = s.id WHERE vas.vulnerability_id = $1 ORDER BY s.id"
  | .selectAttributions .. =>
    "SELECT * FROM affected_version_attributions WHERE vulnerability_id = $1 " ++
      "AND affected_software_id = ANY($2::bigint[])"
  | .findRange _ =>
    "SELECT * FROM affected_software WHERE " ++
      " AND ".intercalate (numbered (fun name p => quotedName name ++ " IS NOT DISTINCT FROM " ++ p)
        AffectedRange.columnNames) ++ " ORDER BY id LIMIT 1"
  | .insertRange _ =>
    insertText "affected_software" AffectedRange.columnNames
      (AffectedRange.columnNames.map quotedName) ++ " RETURNING *"
  | .isAttributed .. =>
    "SELECT EXISTS ( SELECT 1 FROM affected_version_attributions " ++
      "WHERE vulnerability_id = $1 AND affected_software_id = $2 AND source = $3 )"
  | .insertAttribution _ =>
    let columns := ["vulnerability_id", "affected_software_id", "source", "first_seen", "last_seen"]
    insertText "affected_version_attributions" columns columns ++
      " ON CONFLICT (vulnerability_id, affected_software_id, source) DO NOTHING RETURNING *"
  | .touchAttributions .. =>
    "UPDATE affected_version_attributions SET last_seen = $4 WHERE vulnerability_id = $1 " ++
      "AND affected_software_id = ANY($2::bigint[]) AND source = $3"
  | .deleteAttributions .. =>
    "DELETE FROM affected_version_attributions WHERE vulnerability_id = $1 " ++
      "AND affected_software_id = ANY($2::bigint[]) AND source = $3"
  | .retainRanges .. =>
    "DELETE FROM vulnerability_affected_software WHERE vulnerability_id = $1 " ++
      "AND NOT (affected_software_id = ANY($2::bigint[]))"
  | .associateRanges .. =>
    "INSERT INTO vulnerability_affected_software (vulnerability_id, affected_software_id) " ++
      "VALUES ($1, $2) ON CONFLICT DO NOTHING"
  | .selectConfig .. =>
    "SELECT property_value FROM config_properties WHERE group_name = $1 AND property_name = $2"
  | .putConfig .. =>
    "INSERT INTO config_properties (group_name, property_name, property_value) VALUES ($1, $2, $3) " ++
      "ON CONFLICT (group_name, property_name) DO UPDATE SET property_value = EXCLUDED.property_value"
  | .define text => text

/-- The values bound to the placeholders; a statement that is carried out many times has one list
for each. -/
inductive Arguments
  | once (values : List Cell)
  | many (rows : List (List Cell))

def idList (ids : List Int) : Cell := .json (.ofInts ids)

def arguments : Statement → Arguments
  | .lock key => .once [.text key]
  | .selectAdvisory _ source vulnId => .once [.text source.name, .text vulnId]
  | .insertAdvisory source vulnId values => .once (.text source.name :: .text vulnId :: values)
  | .updateAdvisory values id => .once (values ++ [.int id])
  | .selectRanges advisoryId => .once [.int advisoryId]
  | .selectAttributions advisoryId rangeIds => .once [.int advisoryId, idList rangeIds]
  | .findRange key => .once (key.map .json)
  | .insertRange key => .once (key.map .json)
  | .isAttributed advisoryId rangeId source =>
    .once [.int advisoryId, .int rangeId, .text source.name]
  | .insertAttribution a =>
    .once [.int a.advisoryId, .int a.rangeId, .text a.source.name, .moment a.firstSeen,
      .moment a.lastSeen]
  | .touchAttributions advisoryId rangeIds source seenAt =>
    .once [.int advisoryId, idList rangeIds, .text source.name, .moment seenAt]
  | .deleteAttributions advisoryId rangeIds source =>
    .once [.int advisoryId, idList rangeIds, .text source.name]
  | .retainRanges advisoryId rangeIds => .once [.int advisoryId, idList rangeIds]
  | .associateRanges advisoryId rangeIds =>
    .many (rangeIds.map fun id => [.int advisoryId, .int id])
  | .selectConfig group name => .once [.text group, .text name]
  | .putConfig group name value => .once [.text group, .text name, .ofText? value]
  | .define _ => .once []

/-- The number of rows that a status such as `UPDATE 3` tells; zero where it tells none. -/
def affectedRows : Json → Int
  | .text s =>
    match (Text.words s).getLast? with
    | some word => (Text.readInt? word).getD 0
    | none => 0
  | _ => 0

end Statement

end AdvisoryLedger

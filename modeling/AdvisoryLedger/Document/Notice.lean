import AdvisoryLedger.Document.Advisory
import AdvisoryLedger.Notice.Basic

namespace AdvisoryLedger

/-- By default the index is told to commit. -/
def IndexNotice.ofJson (document : Json) : IndexNotice where
  action := (((document.member? "action").bind Json.text?).bind IndexAction.ofName?).getD .commit
  advisory := none
  entity := ((document.member? "entity").bind Json.text?).getD "Vulnerability"

def IndexNotice.toJson (n : IndexNotice) : Json := .object (
  [("type", .text Topic.index.name), ("action", .text n.action.name), ("entity", .text n.entity)] ++
  match n.advisory with
  | some a => [("vulnerability", .list [.text a.source.name, .text a.vulnId, .ofInt? a.id])]
  | none => [])

namespace Notice

/-- A notice by its topic; only one that is chained has others that follow it. -/
def ofTopic (topic : Topic) (label : String) (content : IndexNotice)
    (onSuccess onFailure : List Notice) :
    Notice :=
  match topic with
  | .any => .plain label
  | .index => .index label content
  | .chained => .chain label false onSuccess onFailure
  | .refresh => .chain label true onSuccess onFailure

def topicOf (members : List (String × Json)) : Topic :=
  (((Json.lookup "type" members).bind Json.text?).bind Topic.ofName?).getD .any

def labelOf (members : List (String × Json)) : String :=
  ((Json.lookup "label" members).getD .null).textOrEmpty

mutual

def ofJson : Json → Notice
  | .object members =>
    ofTopic (topicOf members) (labelOf members) (IndexNotice.ofJson (.object members))
      (following "on_success" members) (following "on_failure" members)
  | _ => .plain ""

def following (name : String) : List (String × Json) → List Notice
  | [] => []
  | (n, v) :: rest => if n = name then ofItems v else following name rest

def ofItems : Json → List Notice
  | .list items => ofList items
  | _ => []

def ofList : List Json → List Notice
  | [] => []
  | v :: rest => ofJson v :: ofList rest

end

/-- What is told of a notice; the labels are for those who wrote it. -/
def toJson : Notice → Json
  | .index _ n => n.toJson
  | n => .object [("type", .text n.topic.name)]

end Notice

end AdvisoryLedger

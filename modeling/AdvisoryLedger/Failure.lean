import AdvisoryLedger.Advisory.Severity
import AdvisoryLedger.Json.Literal

namespace AdvisoryLedger

/-- A request to the feed that brought no answer, or an answer that could not be decoded. -/
inductive TransportFault
  | timeout
  | connection (text : String)
  | payload (text : String)
  | value (text : String)
  deriving DecidableEq, Repr

def TransportFault.describe : TransportFault → String
  | .timeout => "TimeoutError()"
  | .connection text => "ClientConnectionError(" ++ Text.quoted text ++ ")"
  | .payload text => "ClientPayloadError(" ++ Text.quoted text ++ ")"
  | .value text => "ValueError(" ++ Text.quoted text ++ ")"

/-- Why a page could not be had; `start` is the index it was asked for. -/
inductive FetchFault
  | status (code : Int) (start : Int)
  | transport (cause : TransportFault) (start : Int)
  | notAnObject
  | invalidTotal (total : Json)

def FetchFault.describe : FetchFault → String
  | .status code start => "NVD API returned HTTP " ++ toString code ++ " at startIndex=" ++
    toString start
  | .transport cause start =>
    "NVD API request failed at startIndex=" ++ toString start ++ ": " ++ cause.describe
  | .notAnObject => "NVD API returned an unexpected payload"
  | .invalidTotal total => "NVD API returned an invalid totalResults: " ++ total.literal

/-- Why a setting was refused: its value is of the wrong kind, or its text or number says nothing
that the setting takes. -/
inductive SettingFault
  | integerKind | integerText | integerFraction | integerSize | infinite | flagKind | flagText | textKind
  deriving DecidableEq, Repr

inductive Failure
  /-- A value was asked for a member that values of its kind do not have. -/
  | noSuchMember
  /-- A value is of a kind that the operation does not take. -/
  | wrongKind
  | missingKey (key : String)
  | invalidValue
  | outOfRange
  /-- A time that the system calendar cannot express. -/
  | beyondCalendar
  | notCpe (text : String)
  /-- A failure of the environment, with its own text. -/
  | broken (text : String)
  | transport (fault : TransportFault)
  | fetch (fault : FetchFault) (url : String)
  | recordWithoutId
  | noFeedUrl
  | notAnInteger (name : String) (value : String)
  | missingDatabaseFields (fields : List String)
  | duplicateAdvisory (source : Source) (vulnId : String)
  | duplicateAttribution (source : Source)
  /-- An update of a row that the store does not hold. -/
  | advisoryNotStored (vulnId : String)
  /-- An advisory whose ranges are to be reconciled has no row yet. -/
  | advisoryWithoutRow (source : Source) (vulnId : String)
  | rowNotAssigned (source : Source) (vulnId : String)
  | runFailed (reason : String)
  | invalidSettings (faults : List (String × SettingFault))

namespace Failure

instance : Inhabited Failure := ⟨.wrongKind⟩

/-- The feed as it names itself in messages. -/
def feedName : String := "nvd"

def source? : Failure → Option String
  | .fetch .. => some feedName
  | .noFeedUrl => some feedName
  | .runFailed _ => some feedName
  | .recordWithoutId => some Source.nvd.name
  | .duplicateAdvisory s _ => some s.name
  | .duplicateAttribution s => some s.name
  | .advisoryWithoutRow s _ => some s.name
  | .rowNotAssigned s _ => some s.name
  | _ => none

def describe : Failure → String
  | .noSuchMember => "no such member"
  | .wrongKind => "a value of the wrong kind"
  | .missingKey key => Text.quoted key
  | .invalidValue => "an invalid value"
  | .outOfRange => "a value out of range"
  | .beyondCalendar => "a time beyond the calendar"
  | .notCpe text => "Not a CPE 2.3 formatted string: " ++ Text.quoted text
  | .broken text => text
  | .transport fault => fault.describe
  | .fetch fault _ => fault.describe
  | .recordWithoutId => "CVE record without id"
  | .noFeedUrl => "No API URL configured"
  | .notAnInteger name value => name ++ " must be an integer, got " ++ Text.quoted value
  | .missingDatabaseFields fields =>
    "Missing required database configuration fields: " ++ (Json.list (fields.map .text)).literal
  | .duplicateAdvisory .. => "Duplicate natural key"
  | .duplicateAttribution _ => "Duplicate attribution"
  | .advisoryNotStored _ => "Vulnerability is not persistent"
  | .advisoryWithoutRow .. => "Vulnerability is not persistent"
  | .rowNotAssigned .. => "Store did not assign a row id"
  | .runFailed reason => "NVD mirroring failed: " ++ reason
  | .invalidSettings _ => "invalid settings"

/-- What the failure is about, by name. Failures that merely pass on one from elsewhere have no such
list. -/
def particulars? : Failure → Option (Table String Json)
  | .fetch (.status code _) url => some [("status_code", .int code), ("url", .text url)]
  | .fetch _ url => some [("status_code", .null), ("url", .text url)]
  | .recordWithoutId => some [("record_id", .null)]
  | .noFeedUrl => some [("config_key", .text "NVD_API_URL")]
  | .notAnInteger name _ => some [("config_key", .text name)]
  | .missingDatabaseFields fields => some [("config_key", .text (",".intercalate fields))]
  | .duplicateAttribution _ => some [("vuln_id", .null)]
  | .duplicateAdvisory _ vulnId | .advisoryNotStored vulnId | .advisoryWithoutRow _ vulnId
  | .rowNotAssigned _ vulnId => some [("vuln_id", .text vulnId)]
  | .runFailed _ => some []
  | _ => none

def message (f : Failure) : String :=
  match f.source? with
  | some party => "[" ++ party ++ "] " ++ f.describe
  | none => f.describe

end Failure

end AdvisoryLedger

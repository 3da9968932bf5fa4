import AdvisoryLedger.Range.Basic
import AdvisoryLedger.Session.Dialogue

namespace AdvisoryLedger

/-- One request of a session. Advisories and ranges are referred to by their rows. -/
inductive Call
  | getAdvisory (source : Source) (vulnId : String)
  | insertAdvisory (advisory : Advisory)
  | updateAdvisory (advisory : Advisory)
  | getRanges (advisoryId : Int)
  | getAttributions (advisoryId : Int) (rangeIds : List Int)
  | findRange (range : AffectedRange)
  | insertRange (range : AffectedRange)
  | hasAttribution (advisoryId rangeId : Int) (source : Source)
  | insertAttribution (attribution : Attribution)
  | touchAttributions (advisoryId : Int) (rangeIds : List Int) (source : Source) (seenAt : Moment)
  | deleteAttributions (advisoryId : Int) (rangeIds : List Int) (source : Source)
  | setRanges (advisoryId : Int) (rangeIds : List Int)
  | getConfig (group name : String)
  | setConfig (group name : String) (value : Option String)

namespace Call

/-- Answers: rows where rows are asked for, counts where several rows change. A question after the
truth and the value of a property are answered with whatever the store holds. -/
@[reducible] def Reply : Call → Type
  | .getAdvisory .. => Option Advisory
  | .insertAdvisory _ => Advisory
  | .updateAdvisory _ => Unit
  | .getRanges _ => List AffectedRange
  | .getAttributions .. => Table Int (List Attribution)
  | .findRange _ => Option AffectedRange
  | .insertRange _ => AffectedRange
  | .hasAttribution .. => Json
  | .insertAttribution _ => Attribution
  | .touchAttributions .. => Int
  | .deleteAttributions .. => Int
  | .setRanges .. => Unit
  | .getConfig .. => Json
  | .setConfig .. => Unit

inductive Kind
  | getAdvisory | insertAdvisory | updateAdvisory | getRanges | getAttributions | findRange
  | insertRange | hasAttribution | insertAttribution | touchAttributions | deleteAttributions
  | setRanges | getConfig | setConfig
  deriving DecidableEq, Repr

def kind : Call → Kind
  | .getAdvisory .. => .getAdvisory
  | .insertAdvisory _ => .insertAdvisory
  | .updateAdvisory _ => .updateAdvisory
  | .getRanges _ => .getRanges
  | .getAttributions .. => .getAttributions
  | .findRange _ => .findRange
  | .insertRange _ => .insertRange
  | .hasAttribution .. => .hasAttribution
  | .insertAttribution _ => .insertAttribution
  | .touchAttributions .. => .touchAttributions
  | .deleteAttributions .. => .deleteAttributions
  | .setRanges .. => .setRanges
  | .getConfig .. => .getConfig
  | .setConfig .. => .setConfig

end Call

abbrev SessionProgram (α : Type) := Dialogue Call Call.Reply α

def Call.ask (c : Call) : SessionProgram c.Reply := Dialogue.call c

end AdvisoryLedger

import AdvisoryLedger.Database.Schema
import AdvisoryLedger.Work

namespace AdvisoryLedger

abbrev Conversation (α : Type) := Dialogue Statement Statement.Reply α

namespace Statement

def send (s : Statement) : Conversation s.Reply := Dialogue.call s

end Statement

namespace Database

open Statement (send)

/-- A row that counts as absent where it has no columns. -/
def presentRow : Option Row → Option Row
  | some [] => none
  | row => row

def readRow {α : Type} (read : Row → Except Failure α) : Option Row → Conversation (Option α)
  | some row => do pure (some (← read row))
  | none => pure none

/-- What a request sends, and what it answers; `locked` tells whether the transaction holds a
lock. -/
def converse (locked : Bool) : (call : Call) → Conversation call.Reply
  | .getAdvisory source vulnId => do
    readRow Row.advisory (presentRow (← send (.selectAdvisory locked source vulnId)))
  | .insertAdvisory a => do
    match ← send (.insertAdvisory a.source a.vulnId (Statement.advisoryValues a)) with
    | some row => Dialogue.ofExcept row.advisory
    | none => .fail (.duplicateAdvisory a.source a.vulnId)
  | .updateAdvisory a =>
    match a.id with
    | some id => do
      let _ ← send (.updateAdvisory (Statement.advisoryValues a) id)
      pure ()
    | none => .fail (.advisoryNotStored a.vulnId)
  | .getRanges advisoryId => do
    Dialogue.ofExcept ((← send (.selectRanges advisoryId)).mapM Row.range)
  | .getAttributions advisoryId rangeIds => do
    let attributions ← Dialogue.ofExcept
      ((← send (.selectAttributions advisoryId rangeIds)).mapM Row.attribution)
    pure (Ledger.groupByRange attributions)
  | .findRange r => do
    readRow Row.range (presentRow (← send (.findRange r.key)))
  | .insertRange r => do
    match ← send (.insertRange r.key) with
    | some row => Dialogue.ofExcept row.range
    | none => .fail .wrongKind
  | .hasAttribution advisoryId rangeId source => send (.isAttributed advisoryId rangeId source)
  | .insertAttribution a => do
    match ← send (.insertAttribution a) with
    | some row => Dialogue.ofExcept row.attribution
    | none => .fail (.duplicateAttribution a.source)
  | .touchAttributions advisoryId rangeIds source seenAt => do
    pure (Statement.affectedRows (← send (.touchAttributions advisoryId rangeIds source seenAt)))
  | .deleteAttributions advisoryId rangeIds source => do
    pure (Statement.affectedRows (← send (.deleteAttributions advisoryId rangeIds source)))
  | .setRanges advisoryId rangeIds => do
    let _ ← send (.retainRanges advisoryId rangeIds)
    if rangeIds.isEmpty then pure () else send (.associateRanges advisoryId rangeIds)
  | .getConfig group name => send (.selectConfig group name)
  | .setConfig group name value => do
    let _ ← send (.putConfig group name value)
    pure ()

def transaction {α : Type} (lock : Option String) (program : SessionProgram α) : Conversation α :=
  let key := lock.getD ""
  if key.isEmpty then program.expand (converse false)
  else do
    let _ ← send (.lock key)
    program.expand (converse true)

end Database

end AdvisoryLedger

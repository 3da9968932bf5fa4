import AdvisoryLedger.Diff.Advisory
import AdvisoryLedger.Work

namespace AdvisoryLedger

inductive SyncOutcome
  | created | updated | unchanged
  deriving DecidableEq, Repr

namespace SyncOutcome

def name : SyncOutcome → String
  | .created => "created"
  | .updated => "updated"
  | .unchanged => "unchanged"

def action? : SyncOutcome → Option IndexAction
  | .created => some .create
  | .updated => some .update
  | .unchanged => none

end SyncOutcome

namespace Advisory

/-- The transaction: an advisory that is not there is inserted, one that differs is written. -/
def sync (reported : Advisory) : SessionProgram (Advisory × SyncOutcome) := do
  match ← Call.ask (.getAdvisory reported.source reported.vulnId) with
  | none => do
    let row ← Call.ask (.insertAdvisory reported)
    pure (row, .created)
  | some stored =>
    let d := stored.update reported
    if d.isChanged then do
      Call.ask (.updateAdvisory d.existing)
      pure (d.existing, .updated)
    else pure (d.existing, .unchanged)

def reconcile {σ : Type} [Store σ] (reported : Advisory) : Work σ (Advisory × SyncOutcome) := do
  let (stored, outcome) ← Work.transact (some reported.lockKey) reported.sync
  if stored.id.isNone then Work.fail (.rowNotAssigned reported.source reported.vulnId)
  else
    match outcome.action? with
    | some action => do
      Work.announce ⟨action, some stored, "Vulnerability"⟩
      pure (stored, outcome)
    | none => pure (stored, outcome)

end Advisory

end AdvisoryLedger

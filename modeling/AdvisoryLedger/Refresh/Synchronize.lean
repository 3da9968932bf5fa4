import AdvisoryLedger.Reconcile.Advisory
import AdvisoryLedger.Reconcile.Ranges
import AdvisoryLedger.Refresh.Site

namespace AdvisoryLedger

structure Written where
  outcome : Option SyncOutcome
  ranges : Except Failure RangeSync

def Written.isComplete (w : Written) : Bool := w.ranges.isOk

/-- The source of the advisory is the one that attributes its ranges. -/
def synchronize {σ : Type} [Store σ] (r : Report) : Work (Site σ) Written := do
  match ← Work.attempt r.1.reconcile with
  | .error e => pure ⟨none, .error e⟩
  | .ok (stored, outcome) => do
    let seenAt ← Site.seenNow
    let ranges ← Work.attempt (stored.reconcileRanges r.2 stored.source seenAt)
    pure ⟨some outcome, ranges⟩

/-- Reports one after the other, whatever becomes of each. -/
def synchronizeAll {σ : Type} [Store σ] : List Report → Work (Site σ) (List Written)
  | [] => pure []
  | r :: rest => do
    let w ← synchronize r
    let ws ← synchronizeAll rest
    pure (w :: ws)

end AdvisoryLedger

import AdvisoryLedger.Refresh.Synchronize

namespace AdvisoryLedger

structure Tally where
  received : Nat := 0
  submitted : Nat := 0
  unconvertible : Nat := 0
  created : Nat := 0
  updated : Nat := 0
  unchanged : Nat := 0
  rangesAdded : Nat := 0
  rangesRemoved : Nat := 0
  deriving DecidableEq, Repr

namespace Tally

def receive (t : Tally) : Tally := { t with received := t.received + 1 }

def submit (t : Tally) : Tally := { t with submitted := t.submitted + 1 }

def skip (t : Tally) : Tally := { t with unconvertible := t.unconvertible + 1 }

def countOutcome (t : Tally) : SyncOutcome → Tally
  | .created => { t with created := t.created + 1 }
  | .updated => { t with updated := t.updated + 1 }
  | .unchanged => { t with unchanged := t.unchanged + 1 }

/-- The advisory counts even where its ranges could not be written. -/
def countWritten (t : Tally) (w : Written) : Tally :=
  let t := (w.outcome.map t.countOutcome).getD t
  match w.ranges with
  | .ok s =>
    { t with
      rangesAdded := t.rangesAdded + s.added.length, rangesRemoved := t.rangesRemoved + s.removed.length }
  | .error _ => t

end Tally

structure RefreshSummary where
  previousWatermark : Option Int := none
  lastModified : Option Moment := none
  isAdvanced : Bool := false
  tally : Tally := {}
  writeFailed : Nat := 0
  failure : Option Failure := none

inductive RefreshStatus
  | failed | success | partialSuccess
  deriving DecidableEq, Repr

def RefreshStatus.name : RefreshStatus → String
  | .failed => "failed"
  | .success => "success"
  | .partialSuccess => "partial_success"

namespace RefreshSummary

def isSuccess (s : RefreshSummary) : Bool := s.failure.isNone

def status (s : RefreshSummary) : RefreshStatus :=
  if !s.isSuccess then .failed else if s.writeFailed = 0 then .success else .partialSuccess

def note (text : String) : LogEntry := ⟨.run, .info, text, none⟩

def entries (s : RefreshSummary) : List LogEntry :=
  let icon := if s.isSuccess then "✅" else "❌"
  [note (icon ++ " NVD mirroring " ++ s.status.name),
    note ("   • CVEs received: " ++ Text.grouped s.tally.received),
    note ("   • Created: " ++ Text.grouped s.tally.created ++ "  Updated: " ++
      Text.grouped s.tally.updated ++ "  Unchanged: " ++ Text.grouped s.tally.unchanged),
    note ("   • Conversion errors: " ++ toString s.tally.unconvertible ++ "  Write errors: " ++
      toString s.writeFailed)] ++
  if s.isAdvanced then
    [note ("   • Checkpoint advanced to " ++ (s.lastModified.map Moment.toIso).getD "None")]
  else []

end RefreshSummary

end AdvisoryLedger

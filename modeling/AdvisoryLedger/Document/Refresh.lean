import AdvisoryLedger.Document.Advisory
import AdvisoryLedger.Refresh.Summary

namespace AdvisoryLedger

namespace Tally

def toTable (t : Tally) : Table String Json :=
  [("records_received", .int t.received), ("records_submitted", .int t.submitted),
    ("parse_failed", .int t.unconvertible), ("created", .int t.created), ("updated", .int t.updated),
    ("unchanged", .int t.unchanged), ("affected_software_added", .int t.rangesAdded),
    ("affected_software_removed", .int t.rangesRemoved)]

end Tally

namespace RefreshSummary

def toTable (s : RefreshSummary) : Table String Json :=
  [("source_name", .text Failure.feedName), ("success", .flag s.isSuccess), ("status", .text s.status.name),
    ("previous_checkpoint", .ofInt? s.previousWatermark),
    ("last_modified", (Cell.ofMoment? s.lastModified).toJson), ("checkpoint_advanced", .flag s.isAdvanced),
    ("write_failed", .int s.writeFailed)] ++ s.tally.toTable

end RefreshSummary

end AdvisoryLedger

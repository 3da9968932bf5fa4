import AdvisoryLedger.Diff.Member
import AdvisoryLedger.Document.Ledger
import AdvisoryLedger.Document.Notice
import AdvisoryLedger.Document.Refresh
import AdvisoryLedger.Json.Writer
import AdvisoryLedger.Lane.Gated
import AdvisoryLedger.Ledger.Visitors
import AdvisoryLedger.Main
import AdvisoryLedger.Refresh.Subscriber
import AdvisoryLedger.Proofs.Ledger.WellKept
import AdvisoryLedger.Proofs.Ledger.Rollback
import AdvisoryLedger.Proofs.Binary64.Value
import AdvisoryLedger.Proofs.Ledger.Transaction
import AdvisoryLedger.Proofs.Range.Identity
import AdvisoryLedger.Proofs.Ledger.Entries
import AdvisoryLedger.Proofs.Ledger.Frame
import AdvisoryLedger.Proofs.Reconcile.Classification
import AdvisoryLedger.Proofs.Reconcile.Renewal
import AdvisoryLedger.Proofs.Reconcile.Ranges
import AdvisoryLedger.Proofs.Reconcile.Isolation
import AdvisoryLedger.Proofs.Reconcile.Repair
import AdvisoryLedger.Proofs.Reconcile.History
import AdvisoryLedger.Proofs.Diff.Advisory
import AdvisoryLedger.Proofs.Reconcile.Mirror
import AdvisoryLedger.Proofs.Lane.View
import AdvisoryLedger.Proofs.Ledger.Config
import AdvisoryLedger.Proofs.Work
import AdvisoryLedger.Proofs.Refresh.Synchronize
import AdvisoryLedger.Proofs.Refresh.Pipeline
import AdvisoryLedger.Proofs.Feed.Page
import AdvisoryLedger.Proofs.Feed.Reading
import AdvisoryLedger.Proofs.Refresh.Run
import AdvisoryLedger.Proofs.Refresh.Sequential
import AdvisoryLedger.Proofs.Refresh.Watermark
import AdvisoryLedger.Proofs.Refresh.Completeness
import AdvisoryLedger.Proofs.Feed.Delivered
import AdvisoryLedger.Proofs.Refresh.Malformed
import AdvisoryLedger.Proofs.Diff.Stated
import AdvisoryLedger.Proofs.Database.Row
import AdvisoryLedger.Proofs.Database.Session
import AdvisoryLedger.Proofs.Database.Shelf
import AdvisoryLedger.Proofs.Reconcile.Stores
import AdvisoryLedger.Proofs.Ledger.Hall
import AdvisoryLedger.Proofs.Ledger.Abort
import AdvisoryLedger.Proofs.Lane.Room
import AdvisoryLedger.Proofs.Lane.Block
import AdvisoryLedger.Proofs.Ledger.Interference
import AdvisoryLedger.Proofs.Reconcile.Concurrent
import AdvisoryLedger.Proofs.Reconcile.SideBySide
import AdvisoryLedger.Proofs.Diff.Steady
import AdvisoryLedger.Proofs.Reconcile.Copies
import AdvisoryLedger.Proofs.Reconcile.Again
import AdvisoryLedger.Proofs.Reconcile.Announced
import AdvisoryLedger.Proofs.Diff.Renumbered
import AdvisoryLedger.Proofs.Ledger.Entering
import AdvisoryLedger.Proofs.Reconcile.Stages
import AdvisoryLedger.Proofs.Reconcile.Minutes
import AdvisoryLedger.Proofs.Reconcile.Serial
import AdvisoryLedger.Proofs.Reconcile.SettledRanges
import AdvisoryLedger.Proofs.Refresh.Settled
import AdvisoryLedger.Proofs.Refresh.Repeated
import AdvisoryLedger.Proofs.Ledger.Desk
import AdvisoryLedger.Proofs.Ledger.Tidy
import AdvisoryLedger.Proofs.Ledger.NaturalKeys
import AdvisoryLedger.Proofs.Feed.Paging
import AdvisoryLedger.Proofs.Text.Numeral
import AdvisoryLedger.Proofs.Binary64.Truncation
import AdvisoryLedger.Proofs.Time.Epoch
import AdvisoryLedger.Proofs.Refresh.Onward
import AdvisoryLedger.Proofs.Diff.Exact
import AdvisoryLedger.Proofs.Diff.Assigned
import AdvisoryLedger.Proofs.Time.Calendar
import AdvisoryLedger.Proofs.Time.Stamp
import AdvisoryLedger.Proofs.Feed.Window
import AdvisoryLedger.Proofs.Refresh.RoundTrip
import AdvisoryLedger.Proofs.Ledger.Places
import AdvisoryLedger.Proofs.Ledger.Spared
import AdvisoryLedger.Proofs.Range.Cpe
import AdvisoryLedger.Proofs.Range.Escapes
import AdvisoryLedger.Proofs.Feed.Matches
import AdvisoryLedger.Proofs.Reconcile.Repetitions
import AdvisoryLedger.Proofs.Reconcile.Difference
import AdvisoryLedger.Proofs.Refresh.Turnover
import AdvisoryLedger.Proofs.Diff.Members
import AdvisoryLedger.Proofs.Diff.Remembered
import AdvisoryLedger.Proofs.Database.Token
import AdvisoryLedger.Proofs.Database.Text
import AdvisoryLedger.Proofs.Database.Agreement
import AdvisoryLedger.Proofs.Feed.Bounded
import AdvisoryLedger.Proofs.Feed.Next
import AdvisoryLedger.Proofs.Feed.Spacing
import AdvisoryLedger.Proofs.Database.Transcript
import AdvisoryLedger.Proofs.Reconcile.Statements
import AdvisoryLedger.Proofs.Feed.Timestamp
import AdvisoryLedger.Proofs.Text.Digit
import AdvisoryLedger.Proofs.Refresh.StoredText
import AdvisoryLedger.Proofs.Refresh.Accounts
import AdvisoryLedger.Proofs.Notice.Subscriptions
import AdvisoryLedger.Proofs.Notice.Delivery
import AdvisoryLedger.Proofs.Text.Integer
import AdvisoryLedger.Proofs.Database.Resolution
import AdvisoryLedger.Proofs.Feed.Weaknesses

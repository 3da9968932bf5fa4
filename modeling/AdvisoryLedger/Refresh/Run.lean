import AdvisoryLedger.Refresh.Pipeline
import AdvisoryLedger.Settings.ApiKey
import AdvisoryLedger.Watermark

namespace AdvisoryLedger

structure Refresh where
  settings : Settings := {}
  queueBound : Option Int := none
  watermark : Watermark := {}
  schedule : Nat → Turn := fun _ => .producer

namespace Refresh

instance : Inhabited Refresh := ⟨{}⟩

def note (level : LogLevel) (text : String) : LogEntry := ⟨.run, level, text, none⟩

def bound (r : Refresh) : Nat := (r.queueBound.getD r.settings.queueBound).toNat

def feedUrl (r : Refresh) : Except Failure String :=
  match r.settings.feedUrl.bind Text.trimmed? with
  | some url => .ok url
  | none => .error .noFeedUrl

def access (r : Refresh) : Noted (String × Option String) := do
  let url ← r.feedUrl
  let key ← r.settings.resolveApiKey
  pure (url, key)

def client (r : Refresh) (url : String) (key : Option String) (since : Int) : Noted FeedClient := do
  let start ← FeedClient.momentOfEpoch (max since 0)
  Noted.log (note .info ("🎯 Mirroring CVEs that were modified since " ++ start.toIso))
  FeedClient.ofOptions
    { endpoint := url, apiKey := key, lastModifiedEpoch := since, pageSize := r.settings.pageSize }

structure Transferred where
  tally : Tally
  writeFailed : Nat
  lastModified : Option Moment
  ending : Except Failure Unit

variable {σ : Type} [Store σ]

/-- Reads the feed and writes what it reports. -/
def transfer (r : Refresh) (c : FeedClient) : Work (Site σ) Transferred := fun site =>
  let (h, site) := site.harvest c
  let lane : Lane Report := { bound := r.bound }
  let p : Pipeline σ := { lane := lane.start, ahead := h.events, ending := h.ending, site }
  let p := p.finish r.schedule
  ⟨.ok ⟨p.tally, p.lane.failed, h.client.lastUpdated, h.ending⟩, p.site, p.traces⟩

/-- Moves the watermark to the last modification, and has the index commit if it moved. -/
def conclude (r : Refresh) (s : RefreshSummary) : Work (Site σ) RefreshSummary := do
  match ← Work.attempt (r.watermark.advance s.lastModified) with
  | .error e => pure { s with failure := some e }
  | .ok false => pure s
  | .ok true => do
    Work.announce ⟨.commit, none, "Vulnerability"⟩
    pure { s with isAdvanced := true }

def transferSince (r : Refresh) (c : FeedClient) (since : Int) : Work (Site σ) RefreshSummary := do
  let x ← r.transfer c
  let s : RefreshSummary :=
    { previousWatermark := some since, tally := x.tally, writeFailed := x.writeFailed }
  match x.ending with
  | .error e => pure { s with failure := some e }
  | .ok _ => r.conclude { s with lastModified := x.lastModified }

/-- Everything between the first and the last log entry. -/
def body (r : Refresh) : Work (Site σ) RefreshSummary := do
  match ← Work.attempt (Work.ofNoted r.access) with
  | .error e => pure { failure := some e }
  | .ok (url, key) =>
    match ← Work.attempt r.watermark.load with
    | .error e => pure { failure := some e }
    | .ok since =>
      match ← Work.attempt (Work.ofNoted (r.client url key since)) with
      | .error e => pure { previousWatermark := some since, failure := some e }
      | .ok c => r.transferSince c since

def failureEntry (e : Failure) : LogEntry :=
  ⟨.run, .error, "❌ An unexpected error occurred while mirroring the NVD: ", some e⟩

def logAll : List LogEntry → Work (Site σ) Unit
  | [] => pure ()
  | e :: rest => do
    Work.log e
    logAll rest

/-- One refresh. Its failure is part of the summary. -/
def run (r : Refresh) : Work (Site σ) RefreshSummary := do
  Work.log (note .info "🚀 Starting NVD mirroring...")
  let s ← r.body
  logAll ((s.failure.map failureEntry).toList ++ s.entries)
  pure s

end Refresh

end AdvisoryLedger

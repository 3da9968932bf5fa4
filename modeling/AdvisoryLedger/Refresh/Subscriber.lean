import AdvisoryLedger.Notice.Hub
import AdvisoryLedger.Refresh.Run

namespace AdvisoryLedger

/-- The summaries of the refreshes so far, the last first, and where they took place. -/
structure RefreshHistory (σ : Type) where
  site : Site σ
  summaries : List RefreshSummary := []

namespace Refresh

variable {σ : Type} [Store σ]

def subscriber : String := "NistMirrorTask.inform"

/-- A refresh on behalf of others, to whom its failure is a failure. -/
def informed (r : Refresh) (x : RefreshHistory σ) :
    Except Failure Unit × RefreshHistory σ × List Trace :=
  let o := r.run x.site
  match o.result with
  | .error e => (.error e, { x with site := o.state }, o.traces)
  | .ok s =>
    let x := { x with site := o.state, summaries := s :: x.summaries }
    match s.failure with
    | none => (.ok (), x, o.traces)
    | some e => (.error (.runFailed e.message), x, o.traces)

/-- Notices of another kind are passed over. -/
def inform (r : Refresh) (n : Notice) (x : RefreshHistory σ) :
    Except Failure Unit × RefreshHistory σ × List Trace :=
  if n.topic = .refresh then r.informed x else (.ok (), x, [])

def handler (r : Refresh) : Hub.Handler (RefreshHistory σ) := fun _ n h =>
  let (result, state, traces) := r.inform n h.state
  (result, { h with
    state, dispatched := h.dispatched ++ (traces.filterMap Trace.notice?).map (Notice.index "")
    entries := h.entries ++ traces.filterMap Trace.entry? })

end Refresh

end AdvisoryLedger

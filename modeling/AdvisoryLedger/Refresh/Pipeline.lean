import AdvisoryLedger.Lane.Basic
import AdvisoryLedger.Refresh.Summary

namespace AdvisoryLedger

inductive Turn
  | producer | worker
  deriving DecidableEq, Repr

def Turn.other : Turn → Turn
  | .producer => .worker
  | .worker => .producer

/-- How far the producer has come. -/
inductive Pipeline.Stage
  | reading
  | submitting
  | leaving
  | left
  deriving DecidableEq, Repr

structure Pipeline (σ : Type) where
  lane : Lane Report
  ahead : List FeedEvent
  ending : Except Failure Unit
  stage : Pipeline.Stage := .reading
  tally : Tally := {}
  site : Site σ
  traces : List Trace := []

namespace Pipeline

variable {σ : Type}

def log (p : Pipeline σ) (entry : LogEntry) : Pipeline σ := { p with traces := p.traces ++ [.entry entry] }

def skippedEntry (cause : Failure) : LogEntry :=
  ⟨.run, .warning, "⚠️ Skipping unconvertible record: ", some cause⟩

/-- So many reports are submitted between two entries about it. -/
def progressInterval : Nat := 1000

def progressEntry (submitted pending : Nat) : LogEntry :=
  ⟨.run, .info, "📊 Submitted " ++ Text.grouped submitted ++ " CVEs (" ++ Text.grouped pending ++
    " waiting to be written)", none⟩

def isServed (p : Pipeline σ) : Bool :=
  match p.lane.calls.getLast? with
  | some .queueing => false
  | some .joining => false
  | _ => true

/-- The producer comes to the next event. -/
def meet (p : Pipeline σ) : FeedEvent → Pipeline σ
  | .request _ => p
  | .entry entry => p.log entry
  | .item (.ok none) => { p with tally := p.tally.receive }
  | .item (.ok (some r)) =>
    { p with tally := p.tally.receive, lane := p.lane.submit r, stage := .submitting }
  | .item (.error e) =>
    if e.isSkippable then { p with tally := p.tally.receive.skip }.log (skippedEntry e)
    else { p with tally := p.tally.receive }

def countSubmitted (p : Pipeline σ) : Pipeline σ :=
  let p := { p with tally := p.tally.submit, stage := .reading }
  if p.tally.submitted % progressInterval = 0 then
    p.log (progressEntry p.tally.submitted p.lane.pending)
  else p

/-- The producer closes the lane; where reading has failed, it says that it waits. -/
def leave (p : Pipeline σ) : Pipeline σ :=
  let p := match p.ending with
    | .ok _ => p
    | .error _ => p.log p.lane.waitingEntry
  { p with lane := p.lane.drain, stage := .leaving }

def moveProducer (p : Pipeline σ) : Option (Pipeline σ) :=
  match p.stage with
  | .reading =>
    match p.ahead with
    | e :: rest => some ({ p with ahead := rest }.meet e)
    | [] => some p.leave
  | .submitting => if p.isServed then some p.countSubmitted else none
  | .leaving => if p.isServed then some { p with stage := .left } else none
  | .left => none

variable [Store σ]

/-- The worker writes the report that it holds. -/
def write (p : Pipeline σ) (r : Report) : Pipeline σ :=
  let x := synchronize r p.site
  let p := { p with site := x.state, traces := p.traces ++ x.traces }
  match x.result with
  | .error e => { p with lane := p.lane.finish false }.log (Lane.failureEntry r.1.vulnId e)
  | .ok w =>
    let p := { p with tally := p.tally.countWritten w, lane := p.lane.finish w.isComplete }
    match w.ranges with
    | .ok _ => p
    | .error e => p.log (Lane.failureEntry r.1.vulnId e)

def moveWorker (p : Pipeline σ) : Option (Pipeline σ) :=
  match p.lane.worker with
  | .writing r => some (p.write r)
  | _ => p.lane.take.map fun lane => { p with lane }

def move (p : Pipeline σ) : Turn → Option (Pipeline σ)
  | .producer => p.moveProducer
  | .worker => p.moveWorker

/-- One step of the one whose turn it is, or of the other; none if neither can move. -/
def step (p : Pipeline σ) (turn : Turn) : Option (Pipeline σ) :=
  (p.move turn).or (p.move turn.other)

def follow (schedule : Nat → Turn) : Nat → Pipeline σ → Pipeline σ
  | 0, p => p
  | steps + 1, p =>
    match p.step (schedule 0) with
    | some p => follow (fun n => schedule (n + 1)) steps p
    | none => p

/-- Enough steps: the producer takes two for an event and three at the end, the worker two for a
report and one for the stop mark. -/
def budget (p : Pipeline σ) : Nat := 4 * p.ahead.length + 4

def finish (schedule : Nat → Turn) (p : Pipeline σ) : Pipeline σ := follow schedule p.budget p

end Pipeline

end AdvisoryLedger

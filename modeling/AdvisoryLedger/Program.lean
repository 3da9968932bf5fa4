import AdvisoryLedger.CommandLine.Options
import AdvisoryLedger.Database.Pool
import AdvisoryLedger.Database.Rehearsal
import AdvisoryLedger.Log.Setup
import AdvisoryLedger.Refresh.Run

namespace AdvisoryLedger

structure Program where
  options : CommandLine.Options
  settings : Settings
  environment : Environment
  log : LogSetup

namespace Program

open CommandLine (Options Stop)

/-- The level on the command line goes before the one in the settings, unless it is empty. -/
def logLevel (o : Options) (s : Settings) : String :=
  (o.logLevel.filter fun level => !level.isEmpty).getD s.logLevel

/-- Nothing is prepared where the command line asks for nothing to be done. -/
def prepare (words : List String) (vars : Environment) : Except Failure (Except Stop Program) :=
  match Options.read words with
  | .error stop => .ok (.error stop)
  | .ok options => do
    let settings ← Settings.read vars
    let log ← LogSetup.make (logLevel options settings) settings.logFile
    .ok (.ok { options, settings, environment := vars, log })

def note (level : LogLevel) (text : String) (cause : Option Failure) : LogEntry :=
  ⟨.program, level, text, cause⟩

/-- The pool of connections to open; none for a dry run. -/
def target (p : Program) : Noted (Option PoolParameters) := do
  if p.options.dryRun then do
    Noted.log (note .info "🧪 Dry run: mirroring into an in-memory store" none)
    pure none
  else do
    let config := (← DatabaseConfig.load p.environment p.options.environment (some p.settings)).toJson
    let url ← DatabaseConfig.chooseUrl p.environment none true config
    Noted.log (note .info ("🔧 Using database " ++ url) none)
    pure (some (← PoolParameters.choose p.environment none config))

def setupFailureEntry (e : Failure) : LogEntry :=
  note .error "❌ Could not set up the store: " (some e)

def failureEntry (e : Failure) : LogEntry := note .error "❌ Mirror failed: " (some e)

def noticeEntry (n : IndexNotice) : LogEntry :=
  note .debug ("🔔 Index " ++ n.action.name ++ ": " ++ (n.advisory.map Advisory.vulnId).getD n.entity) none

def entryOf : Trace → LogEntry
  | .entry e => e
  | .notice n => noticeEntry n

/-- The variables of the environment that the program asks for by fixed names. -/
def fixedVariables : List String := ({} : Settings).toTable.keys ++ DatabaseConfig.extraVariables

def passwordVariables (p : Program) : List String :=
  DatabaseConfig.passwordVariables (DatabaseConfig.environmentKind p.settings p.options.environment)

def refresh (p : Program) : Refresh :=
  { settings := p.settings, queueBound := p.options.queueBound }

variable {σ : Type}

/-- What is done with a store that is open; `defineTables` is how tables are defined there. -/
def serve [Store σ] (p : Program) (defineTables : Work σ Unit) : Work (Site σ) Bool := do
  if p.options.initSchema then Site.onStore defineTables
  if p.options.resetWatermark then p.refresh.watermark.reset
  pure (← p.refresh.run).isSuccess

/-- Serves, closes the store whatever happened, and says whether all went well. -/
def complete [Store σ] (p : Program) (defineTables close : Work σ Unit) : Work (Site σ) Bool := do
  let x ← Work.attempt (p.serve defineTables)
  let succeeded ← match x with
    | .ok succeeded => pure succeeded
    | .error e => do
      Work.log (failureEntry e)
      pure false
  Site.onStore close
  pure succeeded

def completeInMemory (p : Program) : Work (Site FaultyLedger) Bool := p.complete (pure ()) (pure ())

def completeRehearsal (p : Program) : Work (Site Rehearsal) Bool :=
  p.complete Rehearsal.defineTables Rehearsal.close

structure Surroundings where
  answers : List FeedAnswer := []
  silence : TransportFault
  clock : Nat → Moment
  connect : PoolParameters → Except Failure Rehearsal

def Surroundings.site (x : Surroundings) (store : σ) : Site σ :=
  { store, answers := x.answers, silence := x.silence, clock := x.clock }

structure Ending where
  isSuccess : Bool
  pool : Option PoolParameters := none
  /-- What was sent to the database, the first first. -/
  sent : List Sent := []
  requests : List FeedRequest := []
  entries : List LogEntry

def Ending.exitCode (x : Ending) : Nat := if x.isSuccess then 0 else 1

def Ending.ofOutcome (x : Outcome (Site σ) Bool) (before : List LogEntry) : Ending where
  isSuccess := x.result.toOption.getD false
  requests := x.state.requests
  entries := before ++ x.traces.map entryOf

/-- Opens the store and serves. Where there is no store to be had, nothing is asked of the feed. -/
def carryOut (p : Program) (x : Surroundings) : Ending :=
  let target := p.target
  let refused := fun (e : Failure) => target.entries ++ [setupFailureEntry e]
  match target.result with
  | .error e => { isSuccess := false, entries := refused e }
  | .ok none => .ofOutcome (p.completeInMemory (x.site {})) target.entries
  | .ok (some pool) =>
    match x.connect pool with
    | .error e => { isSuccess := false, pool := some pool, entries := refused e }
    | .ok database =>
      let x := p.completeRehearsal (x.site database)
      { Ending.ofOutcome x target.entries with pool := some pool, sent := x.state.store.sent.reverse }

end Program

end AdvisoryLedger

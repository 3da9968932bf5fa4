import AdvisoryLedger.Json.Reader
import AdvisoryLedger.Program
import Std.Time.DateTime.Timestamp

namespace AdvisoryLedger.CommandLine

def usage : String :=
  "usage: [-h] [--environment NAME] [--init-schema] [--reset-checkpoint] [--dry-run]\n" ++
  "       [--max-queue-size N] [--log-level LEVEL] < PAGES"

def environment (names : List String) : IO Environment :=
  names.filterMapM fun name => do
    return (← IO.getEnv name).map fun value => (name, value)

/-- A line of input as a page; one that is no JSON document is a body that cannot be read. -/
def answerOfLine (line : String) : FeedAnswer :=
  .response 200 (match Json.read? line with
    | some page => .ok page
    | none => .error (.transport (.payload "not a JSON document")))

def readPages (input : IO.FS.Stream) : IO (List FeedAnswer) := do
  let mut pages := #[]
  let mut line ← input.getLine
  while !line.isEmpty do
    pages := pages.push (answerOfLine line)
    line ← input.getLine
  return pages.toList

def now : IO Moment := do
  return (Moment.ofEpochSeconds? (← Std.Time.Timestamp.now).toSecondsSinceUnixEpoch.val).getD .epoch

def line (time : Moment) (e : LogEntry) : String :=
  time.toIso ++ " - " ++ e.level.name ++ " - " ++ e.message

def write (lines : List String) : LogTarget → IO Unit
  | .stream => lines.forM fun l => IO.println l
  | .file path => do
    let file ← IO.FS.Handle.mk path .append
    lines.forM fun l => file.putStrLn l

def carryOut (p : Program) : IO UInt32 := do
  let more ← environment p.passwordVariables
  let time ← now
  let ending := { p with environment := p.environment ++ more }.carryOut {
    answers := ← readPages (← IO.getStdin)
    silence := .connection "no more pages"
    clock := fun _ => time
    connect := fun _ => .error (.broken "no connection to a database") }
  let entries := ending.entries.filter fun e => p.log.threshold ≤ e.level.weight
  p.log.targets.forM (write (entries.map (line time)))
  return ending.exitCode.toUInt32

end AdvisoryLedger.CommandLine

open AdvisoryLedger

def main (words : List String) : IO UInt32 := do
  match Program.prepare words (← CommandLine.environment Program.fixedVariables) with
  | .error e =>
    IO.eprintln e.message
    return 1
  | .ok (.error stop) =>
    IO.eprintln CommandLine.usage
    return stop.exitCode.toUInt32
  | .ok (.ok p) => CommandLine.carryOut p

import AdvisoryLedger.Log
import AdvisoryLedger.Text.Case

namespace AdvisoryLedger

inductive LogTarget
  | stream
  | file (path : String)
  deriving DecidableEq, Repr

structure LogSetup where
  threshold : Nat
  targets : List LogTarget
  deriving DecidableEq, Repr

namespace LogSetup

def levelNames : List (String × Nat) :=
  [("CRITICAL", 50), ("FATAL", 50), ("ERROR", LogLevel.error.weight), ("WARNING", LogLevel.warning.weight),
    ("WARN", LogLevel.warning.weight), ("INFO", LogLevel.info.weight), ("DEBUG", LogLevel.debug.weight),
    ("NOTSET", 0)]

/-- The weight of a level by its name, in capital or small letters. Two reserved names are
refused. -/
def threshold? (level : String) : Except Failure Nat :=
  let name := Text.upper level
  if name = "BASIC_FORMAT" then .error .invalidValue
  else if name = "_STYLES" then .error .wrongKind
  else .ok ((levelNames.lookup name).getD LogLevel.info.weight)

/-- Entries go to the output, and to a file if one is named. -/
def make (level : String) (file : Option String) : Except Failure LogSetup := do
  let threshold ← threshold? level
  .ok { threshold, targets := .stream :: ((file.filter fun f => !f.isEmpty).map LogTarget.file).toList }

def layout : String := "%(asctime)s - %(name)s - %(levelname)s - %(message)s"

/-- The web client and the database driver say too much; they are heard from this weight on. -/
def chattyThreshold : Nat := LogLevel.warning.weight

end LogSetup

end AdvisoryLedger

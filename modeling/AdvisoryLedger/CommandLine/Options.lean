import AdvisoryLedger.CommandLine.Word
import AdvisoryLedger.Text.Numeral

namespace AdvisoryLedger.CommandLine

structure Options where
  environment : Option String := none
  initSchema : Bool := false
  resetWatermark : Bool := false
  dryRun : Bool := false
  queueBound : Option Int := none
  logLevel : Option String := none
  deriving DecidableEq, Repr

inductive Stop
  | help | misuse
  deriving DecidableEq, Repr

def Stop.exitCode : Stop → Nat
  | .help => 0
  | .misuse => 2

namespace Options

def set (o : Options) (s : Switch) : Except Stop Options :=
  match s with
  | .help => .error .help
  | .initSchema => .ok { o with initSchema := true }
  | .resetWatermark => .ok { o with resetWatermark := true }
  | .dryRun => .ok { o with dryRun := true }
  | _ => .error .misuse

def setValue (o : Options) (s : Switch) (value : String) : Except Stop Options :=
  match s with
  | .environment => .ok { o with environment := some value }
  | .logLevel => .ok { o with logLevel := some value }
  | .queueBound =>
    match Text.readInt? value with
    | some n => .ok { o with queueBound := some n }
    | none => .error .misuse
  | _ => .error .misuse

def isValueNext : List String → Bool
  | w :: _ => Word.ofString w = .plain
  | [] => false

/-- Letters behind a short request for help: help is given unless one of them is misused. -/
def stopOfCluster (valueNext : Bool) : List Char → Stop
  | [] => .help
  | c :: rest =>
    if c = '=' || c = '-' then .misuse
    else if c = 'h' then stopOfCluster valueNext rest
    else if c = 'e' && rest.isEmpty && !valueNext then .misuse
    else .help

/-- Reads on; `stray` tells whether a word that means nothing was met. -/
def readFrom (o : Options) (stray : Bool) : List String → Except Stop Options
  | [] => if stray then .error .misuse else .ok o
  | w :: rest =>
    match Word.ofString w with
    | .barrier => .error .misuse
    | .ambiguous => .error .misuse
    | .unknown => o.readFrom true rest
    | .plain => o.readFrom true rest
    | .cluster letters => .error (stopOfCluster (isValueNext rest) letters)
    | .switch s (some value) => do (← o.setValue s value).readFrom stray rest
    | .switch s none =>
      if s.takesValue then
        match rest with
        | value :: rest =>
          if Word.ofString value = .plain then do (← o.setValue s value).readFrom stray rest
          else .error .misuse
        | [] => .error .misuse
      else do (← o.set s).readFrom stray rest

def beforeBarrier (words : List String) : List String := words.takeWhile (· ≠ "--")

/-- Ambiguous words are found before anything is done. -/
def read (words : List String) : Except Stop Options :=
  if (beforeBarrier words).any fun w => Word.ofString w = .ambiguous then .error .misuse
  else readFrom {} false words

example : (read ["--dry", "-ep", "--max=7"]).toOption =
    some { dryRun := true, environment := some "p", queueBound := some 7 } := by decide +kernel

end Options

end AdvisoryLedger.CommandLine

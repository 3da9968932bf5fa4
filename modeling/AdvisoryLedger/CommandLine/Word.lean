import AdvisoryLedger.Text.Digit

namespace AdvisoryLedger.CommandLine

inductive Switch
  | help | environment | initSchema | resetWatermark | dryRun | queueBound | logLevel
  deriving DecidableEq, Repr

namespace Switch

def name : Switch → String
  | .help => "help"
  | .environment => "environment"
  | .initSchema => "init-schema"
  | .resetWatermark => "reset-checkpoint"
  | .dryRun => "dry-run"
  | .queueBound => "max-queue-size"
  | .logLevel => "log-level"

def all : List Switch :=
  [help, environment, initSchema, resetWatermark, dryRun, queueBound, logLevel]

def takesValue : Switch → Bool
  | .environment => true
  | .queueBound => true
  | .logLevel => true
  | _ => false

def beginning (letters : List Char) : List Switch :=
  all.filter fun s => letters.isPrefixOf s.name.toList

end Switch

inductive Word
  | switch (s : Switch) (value : Option String)
  /-- The short form of the request for help, and the letters behind it. -/
  | cluster (letters : List Char)
  | unknown
  | ambiguous
  | plain
  /-- Two dashes, behind which all words are plain. -/
  | barrier
  deriving DecidableEq, Repr

namespace Word

def isDigit (c : Char) : Bool := (Text.digitValue? c).isSome

/-- A dash, then digits in any script, at most one point, and a digit at the end; a line break may
follow. -/
def isNegativeNumber : List Char → Bool
  | '-' :: cs =>
    let cs := if cs.getLast? = some '\n' then cs.dropLast else cs
    match cs.dropWhile isDigit with
    | [] => !cs.isEmpty
    | '.' :: rest => !rest.isEmpty && rest.all isDigit
    | _ => false
  | _ => false

/-- What looks like an option and names none. -/
def other (cs : List Char) : Word := if isNegativeNumber cs || cs.contains ' ' then .plain
    else .unknown

def valueOf : List Char → Option String
  | '=' :: rest => some (String.ofList rest)
  | _ => none

def ofLong (cs : List Char) : Word :=
  match Switch.beginning (cs.takeWhile (· ≠ '=')) with
  | [] => other ('-' :: '-' :: cs)
  | [s] => .switch s (valueOf (cs.dropWhile (· ≠ '=')))
  | _ => .ambiguous

def ofShort (c : Char) (rest : List Char) : Word :=
  if c = 'e' then
    match rest with
    | [] => .switch .environment none
    | _ => .switch .environment ((valueOf rest).or (some (String.ofList rest)))
  else if c = 'h' then
    match rest with
    | [] => .switch .help none
    | _ => .cluster rest
  else other ('-' :: c :: rest)

def ofChars : List Char → Word
  | ['-', '-'] => .barrier
  | '-' :: '-' :: rest => ofLong rest
  | '-' :: c :: rest => ofShort c rest
  | _ => .plain

def ofString (s : String) : Word := ofChars s.toList

example : ofString "--dry" = .switch .dryRun none ∧ ofString "-e=x" = .switch .environment (some "x") ∧
    ofString "-5" = .plain ∧ ofString "--=" = .ambiguous := by decide +kernel

end Word

end AdvisoryLedger.CommandLine

import AdvisoryLedger.Failure

namespace AdvisoryLedger

inductive LogLevel
  | debug | info | warning | error
  deriving DecidableEq, Repr

namespace LogLevel

def name : LogLevel → String
  | .debug => "DEBUG"
  | .info => "INFO"
  | .warning => "WARNING"
  | .error => "ERROR"

def weight : LogLevel → Nat
  | .debug => 10
  | .info => 20
  | .warning => 30
  | .error => 40

end LogLevel

inductive Channel
  | program | run | lane | watermark | ranges | conversion | settings | database | notices | feed
  deriving DecidableEq, Repr

/-- An entry is a text, completed by the failure that it reports, if any. -/
structure LogEntry where
  channel : Channel
  level : LogLevel
  text : String
  cause : Option Failure := none

def LogEntry.message (e : LogEntry) : String := e.text ++ ((e.cause.map Failure.message).getD "")

/-- A result or a failure, and the entries logged on the way to it. -/
structure Noted (α : Type) where
  result : Except Failure α
  entries : List LogEntry := []

namespace Noted

instance {α : Type} : Inhabited (Noted α) := ⟨⟨.error .wrongKind, []⟩⟩

/-- A failure ends the computation and keeps what was logged before it. -/
def bind {α β : Type} (x : Noted α) (f : α → Noted β) : Noted β :=
  match x.result with
  | .ok a => ⟨(f a).result, x.entries ++ (f a).entries⟩
  | .error e => ⟨.error e, x.entries⟩

instance : Monad Noted where
  pure a := ⟨.ok a, []⟩
  bind := Noted.bind

def ofExcept {α : Type} (x : Except Failure α) : Noted α := ⟨x, []⟩

def fail {α : Type} (e : Failure) : Noted α := ⟨.error e, []⟩

def log (entry : LogEntry) : Noted Unit := ⟨.ok (), [entry]⟩

instance : MonadLift (Except Failure) Noted := ⟨ofExcept⟩

end Noted

end AdvisoryLedger

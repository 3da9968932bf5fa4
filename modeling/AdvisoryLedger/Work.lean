import AdvisoryLedger.Session.Call
import AdvisoryLedger.Ledger.Faults

namespace AdvisoryLedger

inductive IndexAction
  | create | update | delete | commit
  deriving DecidableEq, Repr

def IndexAction.name : IndexAction → String
  | .create => "CREATE"
  | .update => "UPDATE"
  | .delete => "DELETE"
  | .commit => "COMMIT"

def IndexAction.ofName? (s : String) : Option IndexAction :=
  [create, update, delete, commit].find? fun x => x.name == s

/-- Tells the search index that something changed. -/
structure IndexNotice where
  action : IndexAction
  advisory : Option Advisory := none
  entity : String := "Vulnerability"

inductive Trace
  | entry (entry : LogEntry)
  | notice (notice : IndexNotice)

namespace Trace

def entry? : Trace → Option LogEntry
  | .entry e => some e
  | .notice _ => none

def notice? : Trace → Option IndexNotice
  | .entry _ => none
  | .notice n => some n

end Trace

/-- A store, whatever it is made of. A transaction with a lock excludes others with the same lock;
one that fails leaves the store as it was. -/
class Store (σ : Type) where
  transact {α : Type} : Option String → SessionProgram α → σ → Run σ α

/-- In a ledger, transactions come one after the other, so that no lock is ever waited for. -/
instance : Store FaultyLedger := ⟨fun _ => FaultyLedger.transact⟩

structure Outcome (σ α : Type) where
  result : Except Failure α
  state : σ
  traces : List Trace := []

/-- Work on a store. A failure ends it and keeps what was done before it. -/
def Work (σ α : Type) := σ → Outcome σ α

namespace Work

variable {σ α β : Type}

def pure (a : α) : Work σ α := fun s => ⟨.ok a, s, []⟩

def bind (w : Work σ α) (f : α → Work σ β) : Work σ β := fun s =>
  let x := w s
  match x.result with
  | .error e => ⟨.error e, x.state, x.traces⟩
  | .ok a =>
    let y := f a x.state
    { y with traces := x.traces ++ y.traces }

instance : Monad (Work σ) where
  pure := pure
  bind := bind

def fail (e : Failure) : Work σ α := fun s => ⟨.error e, s, []⟩

def log (entry : LogEntry) : Work σ Unit := fun s => ⟨.ok (), s, [.entry entry]⟩

def announce (notice : IndexNotice) : Work σ Unit := fun s => ⟨.ok (), s, [.notice notice]⟩

def ofNoted (x : Noted α) : Work σ α := fun s => ⟨x.result, s, x.entries.map .entry⟩

instance : MonadLift Noted (Work σ) := ⟨ofNoted⟩

instance : MonadLift (Except Failure) (Work σ) := ⟨fun x s => ⟨x, s, []⟩⟩

def transact [Store σ] (lock : Option String) (program : SessionProgram α) : Work σ α := fun s =>
  let r := Store.transact lock program s
  ⟨r.result, r.state, r.entries.map .entry⟩

/-- Takes a failure for a result. -/
def attempt (w : Work σ α) : Work σ (Except Failure α) := fun s =>
  let x := w s
  ⟨.ok x.result, x.state, x.traces⟩

end Work

end AdvisoryLedger

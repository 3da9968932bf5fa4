import AdvisoryLedger.Log

namespace AdvisoryLedger

inductive Lane.Slot (α : Type)
  | record (record : α)
  | stop

inductive Lane.Worker (α : Type)
  | absent
  | idle
  | writing (record : α)
  | ended
  | cancelled

inductive Lane.CallState
  | queueing
  | joining
  | done
  | cancelled
  /-- Came after the lane was closed. -/
  | refused
  deriving DecidableEq, Repr

structure Lane (α : Type) where
  /-- Zero sets no bound. -/
  bound : Nat := 0
  queue : List (Lane.Slot α) := []
  blocked : List (Nat × Lane.Slot α) := []
  worker : Lane.Worker α := .absent
  isClosed : Bool := false
  submitted : Nat := 0
  completed : Nat := 0
  failed : Nat := 0
  /-- The calls made so far, in order. -/
  calls : List Lane.CallState := []

namespace Lane

variable {α : Type}

instance : Inhabited (Lane α) := ⟨{}⟩

def pending (l : Lane α) : Nat := l.queue.length

def hasRoom (l : Lane α) : Bool := l.bound = 0 || l.queue.length < l.bound

def record (l : Lane α) (state : CallState) : Lane α := { l with calls := l.calls ++ [state] }

def setCall (l : Lane α) (number : Nat) (state : CallState) : Lane α :=
  { l with calls := l.calls.set number state }

def wake (l : Lane α) : Lane α :=
  match l.worker with
  | .absent => { l with worker := .idle }
  | _ => l

def start (l : Lane α) : Lane α := l.wake.record .done

def joined (l : Lane α) : CallState :=
  match l.worker with
  | .ended => .done
  | .cancelled => .cancelled
  | _ => .joining

/-- Puts a slot into the queue on behalf of a call: a record counts as submitted, a stop mark joins
the worker. -/
def accept (l : Lane α) (number : Nat) (slot : Slot α) : Lane α :=
  let l := { l with queue := l.queue ++ [slot] }
  match slot with
  | .record _ => { l with submitted := l.submitted + 1 }.setCall number .done
  | .stop => l.setCall number l.joined

/-- A call that puts a slot into the queue, or waits for room. -/
def put (l : Lane α) (slot : Slot α) : Lane α :=
  let number := l.calls.length
  let l := l.record .queueing
  if l.hasRoom then l.accept number slot else { l with blocked := l.blocked ++ [(number, slot)] }

def submit (l : Lane α) (record : α) : Lane α :=
  if l.isClosed then l.record .refused else l.wake.put (.record record)

/-- Lets the first of those who wait put in what it holds. -/
def acceptNext (l : Lane α) : Lane α :=
  match l.blocked with
  | [] => l
  | (number, slot) :: rest => { l with blocked := rest }.accept number slot

/-- The worker is over, and so are the calls that joined it. -/
def conclude (l : Lane α) (worker : Worker α) (state : CallState) : Lane α :=
  { l with worker, calls := l.calls.map fun c => if c = .joining then state else c }

/-- The idle worker takes the next slot, which makes room for one of those who wait. -/
def take (l : Lane α) : Option (Lane α) :=
  match l.worker, l.queue with
  | .idle, .record r :: rest => some ({ l with queue := rest, worker := .writing r }.acceptNext)
  | .idle, .stop :: rest => some (({ l with queue := rest }.acceptNext).conclude .ended .done)
  | _, _ => none

def finish (l : Lane α) (succeeded : Bool) : Lane α :=
  match l.worker with
  | .writing _ =>
    if succeeded then { l with worker := .idle, completed := l.completed + 1 }
    else { l with worker := .idle, failed := l.failed + 1 }
  | _ => l

/-- Closes the lane; the call ends when the worker has come to the stop mark. -/
def drain (l : Lane α) : Lane α :=
  let l := { l with isClosed := true }
  match l.worker with
  | .absent => l.record .done
  | _ => l.put .stop

def withdraw (l : Lane α) : Lane α :=
  match l.blocked with
  | [] => l
  | (number, _) :: rest => { l with blocked := rest }.setCall number .cancelled

/-- The call that drains the lane is cancelled. A stop mark that still waits for room goes away, and
nobody ends the worker; the worker that is waited for already is cancelled with the call. -/
def interrupt (l : Lane α) : Lane α :=
  match l.blocked with
  | [] => l.conclude .cancelled .cancelled
  | _ :: _ => l.withdraw

/-- Closes the lane and ends the worker, whatever it is doing. -/
def cancel (l : Lane α) : Lane α :=
  let l := { l with isClosed := true }
  match l.worker with
  | .idle => (l.conclude .cancelled .cancelled).record .done
  | .writing _ => (l.conclude .cancelled .cancelled).record .done
  | _ => l.record .done

def note (level : LogLevel) (text : String) (cause : Option Failure) : LogEntry :=
  ⟨.lane, level, text, cause⟩

def failureEntry (label : String) (cause : Failure) : LogEntry :=
  note .error ("❌ Failed to synchronize " ++ label ++ ": ") (some cause)

def abandonedEntry? (l : Lane α) : Option LogEntry :=
  match l.worker with
  | .absent => none
  | _ =>
    if l.pending = 0 then none
    else some (note .warning
      ("⚠️ Cancelled with " ++ toString l.pending ++ " queued records not written") none)

def waitingEntry (l : Lane α) : LogEntry :=
  note .info ("⏳ Waiting for " ++ toString l.pending ++
    " queued records before reporting the failure") none

end Lane

end AdvisoryLedger

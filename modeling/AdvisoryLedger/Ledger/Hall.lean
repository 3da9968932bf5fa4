import AdvisoryLedger.Ledger.Basic

namespace AdvisoryLedger

inductive Visit.Phase (α : Type)
  | waiting (program : SessionProgram α)
  | inside (rest : SessionProgram α) (undo : List Undo)
  | ended (result : Except Failure α)

structure Visit (α : Type) where
  /-- The key of the lock that the transaction takes; none, like the empty one, takes none. -/
  lock : Option String
  phase : Visit.Phase α

namespace Visit

variable {α : Type}

def isInside (v : Visit α) : Bool :=
  match v.phase with
  | .inside .. => true
  | _ => false

def isWaiting (v : Visit α) : Bool :=
  match v.phase with
  | .waiting _ => true
  | _ => false

def conflicts (v w : Visit α) : Bool :=
  match v.lock with
  | some key => key ≠ "" && w.lock = some key
  | none => false

end Visit

/-- A ledger and the transactions on it, in the order in which they arrived. -/
structure Hall (α : Type) where
  ledger : Ledger := {}
  visits : List (Visit α) := []

namespace Hall

variable {α : Type}

def arrive (h : Hall α) (lock : Option String) (program : SessionProgram α) : Hall α :=
  { h with visits := h.visits ++ [⟨lock, .waiting program⟩] }

/-- A waiting visit may enter unless one that it conflicts with is inside or came before it and
waits too. -/
def mayEnter (h : Hall α) (i : Nat) : Bool :=
  match h.visits[i]? with
  | some v =>
    v.isWaiting && !(h.visits.any fun w => w.isInside && v.conflicts w) &&
      !((h.visits.take i).any fun w => w.isWaiting && v.conflicts w)
  | none => false

def setPhase (h : Hall α) (i : Nat) (phase : Visit.Phase α) : Hall α :=
  { h with visits := h.visits.modify i fun v => { v with phase } }

/-- One step of a visit: it enters, makes its next request, or ends, taking back what it did if it
failed. -/
def step (h : Hall α) (i : Nat) : Option (Hall α) :=
  match (h.visits[i]?).map Visit.phase with
  | some (.waiting program) => if h.mayEnter i then some (h.setPhase i (.inside program [])) else none
  | some (.inside (.done a) _) => some (h.setPhase i (.ended (.ok a)))
  | some (.inside (.fail e) undo) =>
    some ({ h with ledger := h.ledger.rollback undo }.setPhase i (.ended (.error e)))
  | some (.inside (.note _ rest) undo) => some (h.setPhase i (.inside rest undo))
  | some (.inside (.ask call next) undo) =>
    match h.ledger.perform call with
    | .ok p => some ({ h with ledger := p.ledger }.setPhase i (.inside (next (.ok p.reply)) (p.undo ++ undo)))
    | .error e => some (h.setPhase i (.inside (next (.error e)) undo))
  | some (.ended _) => none
  | none => none

/-- Steps of the visits that a schedule names; a visit that cannot move is passed over. -/
def run (h : Hall α) : List Nat → Hall α
  | [] => h
  | i :: schedule => ((h.step i).getD h).run schedule

def breakOff (h : Hall α) (i : Nat) (e : Failure) : Hall α :=
  match (h.visits[i]?).map Visit.phase with
  | some (.waiting _) => h.setPhase i (.ended (.error e))
  | some (.inside _ undo) => { h with ledger := h.ledger.rollback undo }.setPhase i (.ended (.error e))
  | _ => h

/-- The caller of a visit gives another id to the advisory of an update. Updates go by the step that
takes them back, counted from the last. -/
def renumber (h : Hall α) (i n : Nat) (id : Int) : Hall α :=
  match (h.visits[i]?).map Visit.phase with
  | some (.inside rest undo) => h.setPhase i (.inside rest (undo.modify n (.renumber id)))
  | _ => h

/-- Gives a visit that is inside something else to do. -/
def redirect (h : Hall α) (i : Nat) (program : SessionProgram α) : Hall α :=
  match (h.visits[i]?).map Visit.phase with
  | some (.inside _ undo) => h.setPhase i (.inside program undo)
  | _ => h

end Hall

end AdvisoryLedger

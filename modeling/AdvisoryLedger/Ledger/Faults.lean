import AdvisoryLedger.Ledger.Basic

namespace AdvisoryLedger

abbrev Faults := Call.Kind → Nat → Option Failure

namespace Faults

def none : Faults := fun _ _ => Option.none

def single (kind : Call.Kind) (nth : Nat) (failure : Failure) : Faults :=
  fun k n => if k = kind ∧ n = nth then some failure else Option.none

end Faults

/-- Inserting an attribution asks first whether it is there, which is a request of its own. -/
def Call.involved (c : Call) : List Call.Kind :=
  match c with
  | .insertAttribution _ => [.insertAttribution, .hasAttribution]
  | c => [c.kind]

/-- A ledger, the faults that threaten it, and the requests made so far, the last first. -/
structure FaultyLedger where
  ledger : Ledger := {}
  faults : Faults := .none
  made : List Call.Kind := []

instance : Inhabited FaultyLedger := ⟨{}⟩

namespace FaultyLedger

def count (s : FaultyLedger) : List Call.Kind → Option Failure × FaultyLedger
  | [] => (none, s)
  | k :: rest =>
    let s := { s with made := k :: s.made }
    match s.faults k (s.made.count k) with
    | some e => (some e, s)
    | none => s.count rest

structure Open where
  store : FaultyLedger
  undo : List Undo := []

def answer (call : Call) (t : Open) : Except Failure call.Reply × Open :=
  match t.store.count call.involved with
  | (some e, store) => (.error e, { t with store })
  | (none, store) =>
    match store.ledger.perform call with
    | .error e => (.error e, { t with store })
    | .ok p => (.ok p.reply, ⟨{ store with ledger := p.ledger }, p.undo ++ t.undo⟩)

/-- A program that fails leaves the tables as they were; ids that it used up stay used up. -/
def transact {α : Type} (program : SessionProgram α) (s : FaultyLedger) : Run FaultyLedger α :=
  let r := program.run answer ⟨s, []⟩
  match r.result with
  | .ok a => ⟨.ok a, r.state.store, r.entries⟩
  | .error e =>
    ⟨.error e, { r.state.store with ledger := r.state.store.ledger.rollback r.state.undo }, r.entries⟩

end FaultyLedger

end AdvisoryLedger

import AdvisoryLedger.Failure
import AdvisoryLedger.Advisory.Cell

namespace AdvisoryLedger

/-- When a reported value goes over the one that is there. -/
inductive OverwritePolicy
  | always
  /-- A value that is absent never clears one that is there. -/
  | ifPresent
  deriving DecidableEq, Repr

/-- One attribute of a record. Writing it may change other attributes as well. -/
structure Attribute (ρ : Type) where
  name : String
  policy : OverwritePolicy := .always
  read : ρ → Except Failure Cell
  write : ρ → Cell → Except Failure ρ

structure Change where
  before : Cell
  after : Cell

instance : Inhabited Change := ⟨⟨.null, .null⟩⟩

def Change.describe (c : Change) : String := c.before.literal ++ " -> " ++ c.after.literal

/-- Changes by attribute, in the order in which the attributes first changed. -/
abbrev Changes := Table String Change

def Changes.describe (changes : Changes) : String :=
  ", ".intercalate (changes.map fun c => c.1 ++ ": " ++ c.2.describe)

/-- A record on its way to what was reported, and what changed so far. -/
structure Differ (ρ : Type) where
  existing : ρ
  reported : ρ
  changes : Changes := []

namespace Differ

variable {ρ : Type}

def isChanged (d : Differ ρ) : Bool := !d.changes.isEmpty

def apply (d : Differ ρ) (a : Attribute ρ) : Except Failure Bool × Differ ρ :=
  match a.read d.existing, a.read d.reported with
  | .error e, _ => (.error e, d)
  | .ok _, .error e => (.error e, d)
  | .ok before, .ok after =>
    if a.policy = .ifPresent ∧ after.isNull then (.ok false, d)
    else if before.same after then (.ok false, d)
    else
      match a.write d.existing after with
      | .error e => (.error e, d)
      | .ok existing =>
        (.ok true, { d with existing, changes := d.changes.put a.name ⟨before, after⟩ })

def applyEach (d : Differ ρ) : List (Attribute ρ) → Except Failure Unit × Differ ρ
  | [] => (.ok (), d)
  | a :: rest =>
    match d.apply a with
    | (.error e, d) => (.error e, d)
    | (.ok _, d) => d.applyEach rest

/-- Values by attribute; of two attributes with one name the later counts. -/
abbrev Snapshot := List (String × Cell)

def snapshot (record : ρ) : List (Attribute ρ) → Except Failure Snapshot
  | [] => .ok []
  | a :: rest => do
    let value ← a.read record
    .ok ((a.name, value) :: (← snapshot record rest))

def Snapshot.value (s : Snapshot) (name : String) : Cell := (s.reverse.lookup name).getD .null

/-- Sets each attribute's change to the difference from the snapshot, if any. -/
def settle (s : Snapshot) (d : Differ ρ) : List (Attribute ρ) → Except Failure Unit × Differ ρ
  | [] => (.ok (), d)
  | a :: rest =>
    match a.read d.existing with
    | .error e => (.error e, d)
    | .ok after =>
      let before := s.value a.name
      let changes :=
        if before.same after then d.changes.erase a.name else d.changes.put a.name ⟨before, after⟩
      settle s { d with changes } rest

/-- Takes over all attributes in their order, which matters where writing one changes others. -/
def applyAll (d : Differ ρ) (attributes : List (Attribute ρ)) : Except Failure Unit × Differ ρ :=
  match snapshot d.existing attributes with
  | .error e => (.error e, d)
  | .ok s =>
    match d.applyEach attributes with
    | (.error e, d) => (.error e, d)
    | (.ok _, d) => settle s d attributes

end Differ

end AdvisoryLedger

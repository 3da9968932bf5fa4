import AdvisoryLedger.Session.Call

namespace AdvisoryLedger

abbrev RowSet := List Int

namespace RowSet

def insert (id : Int) : RowSet → RowSet
  | [] => [id]
  | x :: rest => if id < x then id :: x :: rest else if id = x then x :: rest
    else x :: insert id rest

def ofList (ids : List Int) : RowSet := ids.foldr insert []

theorem mem_insert (x id : Int) (s : RowSet) : x ∈ insert id s ↔ x = id ∨ x ∈ s := by
  induction s with
  | nil => simp [insert]
  | cons y rest ih =>
    unfold insert
    split
    · simp
    · split
      · simp_all
      · simp only [List.mem_cons, ih]
        exact or_left_comm

theorem mem_ofList (x : Int) (ids : List Int) : x ∈ ofList ids ↔ x ∈ ids := by
  induction ids with
  | nil => simp [ofList]
  | cons y rest ih =>
    have step : ofList (y :: rest) = insert y (ofList rest) := rfl
    rw [step, mem_insert, ih, List.mem_cons]

end RowSet

/-- The tables of a store. All three tables of rows take their ids from one counter. -/
structure Ledger where
  advisories : Table Int Advisory := []
  ranges : Table Int AffectedRange := []
  attributions : Table Int Attribution := []
  associations : Table Int RowSet := []
  config : Table (String × String) (Option String) := []
  nextId : Int := 1

instance : Inhabited Ledger := ⟨{}⟩

/-- A step that takes back one change. What an update went over is put back under the id that the
advisory passed in the update has by then. -/
inductive Undo
  | eraseAdvisory (id : Int)
  | restoreAdvisory (id : Int) (previous : Advisory)
  | eraseRange (id : Int)
  | eraseAttribution (id : Int)
  | restoreAttribution (id : Int) (previous : Attribution)
  | restoreLastSeen (id : Int) (previous : Moment)
  | restoreAssociation (advisoryId : Int) (previous : RowSet)
  | eraseConfig (key : String × String)
  | restoreConfig (key : String × String) (previous : Option String)

namespace Undo

/-- An attribution that was deleted comes back behind all others. -/
def apply (l : Ledger) : Undo → Ledger
  | .eraseAdvisory id => { l with advisories := l.advisories.erase id }
  | .restoreAdvisory id previous => { l with advisories := l.advisories.put id previous }
  | .eraseRange id => { l with ranges := l.ranges.erase id }
  | .eraseAttribution id => { l with attributions := l.attributions.erase id }
  | .restoreAttribution id previous => { l with attributions := l.attributions.put id previous }
  | .restoreLastSeen id previous =>
    { l with attributions := l.attributions.modify id fun a => { a with lastSeen := previous } }
  | .restoreAssociation id previous => { l with associations := l.associations.put id previous }
  | .eraseConfig key => { l with config := l.config.erase key }
  | .restoreConfig key previous => { l with config := l.config.put key previous }

/-- The advisory passed in an update stays the caller's, who may give it another id. -/
def renumber (id : Int) : Undo → Undo
  | .restoreAdvisory _ previous => .restoreAdvisory id previous
  | u => u

end Undo

namespace Ledger

def advisory? (l : Ledger) (source : Source) (vulnId : String) : Option Advisory :=
  l.advisories.values.find? fun a => a.naturalKey = (source, vulnId)

def associated (l : Ledger) (advisoryId : Int) : RowSet := (l.associations.get? advisoryId).getD []

/-- The rows of a list of ids, all of which have to be there. -/
def rangeRows (l : Ledger) : List Int → Except Failure (List AffectedRange)
  | [] => .ok []
  | id :: rest =>
    match l.ranges.get? id with
    | some r => do .ok (r :: (← l.rangeRows rest))
    | none => .error (.missingKey (toString id))

def rangesOf (l : Ledger) (advisoryId : Int) : Except Failure (List AffectedRange) :=
  l.rangeRows (l.associated advisoryId)

def attributionsOf (l : Ledger) (advisoryId : Int) : List Attribution :=
  l.attributions.values.filter fun a => a.advisoryId = advisoryId

def groupByRange (attributions : List Attribution) : Table Int (List Attribution) :=
  attributions.foldl (fun t a => t.put a.rangeId ((t.get? a.rangeId).getD [] ++ [a])) []

def isAttributed (l : Ledger) (advisoryId rangeId : Int) (source : Source) : Bool :=
  l.attributions.values.any fun a => a.triple = (advisoryId, rangeId, source)

/-- The attributions of a source to an advisory, as far as they concern these ranges. -/
def matching (l : Ledger) (advisoryId : Int) (rangeIds : List Int) (source : Source) :
    Table Int Attribution :=
  l.attributions.filter fun row =>
    row.2.advisoryId = advisoryId && rangeIds.contains row.2.rangeId && row.2.source = source

/-- What a request answers, the ledger after it, and the steps that take it back, the last first. -/
structure Performed (α : Type) where
  reply : α
  ledger : Ledger
  undo : List Undo := []

/-- One request. A failing one says why and nothing else. -/
def perform (l : Ledger) : (call : Call) → Except Failure (Performed call.Reply)
  | .getAdvisory source vulnId => .ok ⟨l.advisory? source vulnId, l, []⟩
  | .insertAdvisory a =>
    match l.advisory? a.source a.vulnId with
    | some _ => .error (.duplicateAdvisory a.source a.vulnId)
    | none =>
      let id := l.nextId
      let row := { a with id := some id }
      .ok ⟨row, { l with advisories := l.advisories.put id row, nextId := id + 1 }, [.eraseAdvisory id]⟩
  | .updateAdvisory a =>
    match a.id.bind fun id => (l.advisories.get? id).map (id, ·) with
    | none => .error (.advisoryNotStored a.vulnId)
    | some (id, previous) =>
      .ok ⟨(), { l with advisories := l.advisories.put id a }, [.restoreAdvisory id previous]⟩
  | .getRanges advisoryId => do .ok ⟨← l.rangesOf advisoryId, l, []⟩
  | .getAttributions advisoryId rangeIds =>
    .ok ⟨groupByRange ((l.attributionsOf advisoryId).filter fun a => rangeIds.contains a.rangeId),
      l, []⟩
  | .findRange r => .ok ⟨l.ranges.values.find? r.same, l, []⟩
  | .insertRange r =>
    let id := l.nextId
    let row := { r with id := some id }
    .ok ⟨row, { l with ranges := l.ranges.put id row, nextId := id + 1 }, [.eraseRange id]⟩
  | .hasAttribution advisoryId rangeId source =>
    .ok ⟨.flag (l.isAttributed advisoryId rangeId source), l, []⟩
  | .insertAttribution a =>
    if l.isAttributed a.advisoryId a.rangeId a.source then .error (.duplicateAttribution a.source)
    else
      let id := l.nextId
      let row := { a with id := some id }
      .ok ⟨row, { l with attributions := l.attributions.put id row, nextId := id + 1 },
        [.eraseAttribution id]⟩
  | .touchAttributions advisoryId rangeIds source seenAt =>
    let rows := l.matching advisoryId rangeIds source
    let attributions := rows.foldl (fun t row => t.modify row.1 fun a => { a with lastSeen := seenAt })
      l.attributions
    .ok ⟨rows.length, { l with attributions },
      (rows.map fun row => .restoreLastSeen row.1 row.2.lastSeen).reverse⟩
  | .deleteAttributions advisoryId rangeIds source =>
    let rows := l.matching advisoryId rangeIds source
    let attributions := rows.foldl (fun t row => t.erase row.1) l.attributions
    .ok ⟨rows.length, { l with attributions },
      (rows.map fun row => .restoreAttribution row.1 row.2).reverse⟩
  | .setRanges advisoryId rangeIds =>
    .ok ⟨(), { l with associations := l.associations.put advisoryId (.ofList rangeIds) },
      [.restoreAssociation advisoryId (l.associated advisoryId)]⟩
  | .getConfig group name => .ok ⟨.ofText? ((l.config.get? (group, name)).getD none), l, []⟩
  | .setConfig group name value =>
    let key := (group, name)
    let undo := match l.config.get? key with
      | some previous => .restoreConfig key previous
      | none => .eraseConfig key
    .ok ⟨(), { l with config := l.config.put key value }, [undo]⟩

def rollback (l : Ledger) (undo : List Undo) : Ledger := undo.foldl Undo.apply l

end Ledger

end AdvisoryLedger

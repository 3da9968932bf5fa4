import AdvisoryLedger.Work

namespace AdvisoryLedger

/-- The ranges of an advisory after a reconciliation, and how they differ from those before. -/
structure RangeSync where
  kept : List AffectedRange := []
  added : List AffectedRange := []
  removed : List AffectedRange := []

def RangeSync.isChanged (s : RangeSync) : Bool := !(s.added.isEmpty && s.removed.isEmpty)

namespace RangeSync

def rowIds (ranges : List AffectedRange) : List Int := ranges.filterMap (·.id)

structure Plan where
  kept : List AffectedRange := []
  removed : List AffectedRange := []
  /-- Rows whose attribution by the source is refreshed. -/
  refresh : List Int := []
  /-- Rows that the source attributes for the first time. -/
  attach : List Int := []
  /-- Rows that the source no longer attributes and others do. -/
  detach : List Int := []
  /-- Reported ranges that are not associated yet. -/
  pending : List AffectedRange := []

/-- What happens to a range that is associated already. -/
inductive Verdict
  | reported (attributed : Bool)
  | unattributed
  | keptByOthers (attributed : Bool)
  | dropped
  deriving DecidableEq, Repr

/-- Reported ranges, each once, in the order in which they first occur. -/
def collapse : List AffectedRange → List AffectedRange → Except Failure (List AffectedRange)
  | pending, [] => .ok pending
  | pending, r :: rest => do
    let _ ← r.lookupKey
    collapse (if pending.any r.same then pending else pending ++ [r]) rest

def isPending (r : AffectedRange) (pending : List AffectedRange) : Except Failure Bool :=
  if pending.isEmpty then .ok false
  else do
    let _ ← r.lookupKey
    .ok (pending.any r.same)

def verdict (source : Source) (attributions : List Attribution) (isReported : Bool) : Verdict :=
  let bySource := attributions.any fun a => a.source = source
  if isReported then .reported bySource
  else if attributions.isEmpty then .unattributed
  else if attributions.any fun a => a.source ≠ source then .keptByOthers bySource
  else .dropped

def note (level : LogLevel) (text : String) : LogEntry := ⟨.ranges, level, text, none⟩

def Verdict.entry? (vulnId : String) (r : AffectedRange) : Verdict → Option LogEntry
  | .reported _ => none
  | .unattributed =>
    some (note .warning ("⚠️ " ++ vulnId ++ ": " ++ r.describe ++ " has no attribution; removing it"))
  | .keptByOthers _ =>
    some (note .debug (vulnId ++ ": keeping " ++ r.describe ++ ", still reported by other sources"))
  | .dropped => some (note .debug (vulnId ++ ": " ++ r.describe ++ " is no longer reported"))

def Plan.follow (p : Plan) (r : AffectedRange) : Verdict → Plan
  | .reported attributed =>
    { p with
      kept := p.kept ++ [r]
      refresh := if attributed then p.refresh ++ rowIds [r] else p.refresh
      attach := if attributed then p.attach else p.attach ++ rowIds [r]
      pending := p.pending.eraseP r.same }
  | .unattributed => { p with removed := p.removed ++ [r] }
  | .keptByOthers attributed =>
    { p with
      kept := p.kept ++ [r]
      detach := if attributed then p.detach ++ rowIds [r] else p.detach }
  | .dropped => { p with removed := p.removed ++ [r] }

def attributionsOf (attributions : Table Int (List Attribution)) (r : AffectedRange) :
    List Attribution :=
  match r.id with
  | some id => (attributions.get? id).getD []
  | none => []

/-- Decides for each associated range in turn. -/
def classify (vulnId : String) (source : Source) (attributions : Table Int (List Attribution))
    (p : Plan) :
    List AffectedRange → Noted Plan
  | [] => pure p
  | r :: rest => do
    let v := verdict source (attributionsOf attributions r) (← isPending r p.pending)
    match v.entry? vulnId r with
    | some entry => Noted.log entry
    | none => pure ()
    classify vulnId source attributions (p.follow r v) rest

def attribution (advisoryId rangeId : Int) (source : Source) (seenAt : Moment) : Attribution :=
  { advisoryId, rangeId, source, firstSeen := seenAt, lastSeen := seenAt }

def attributeRows (advisoryId : Int) (source : Source) (seenAt : Moment) : List Int →
    SessionProgram Unit
  | [] => pure ()
  | id :: rest => do
    let _ ← Call.ask (.insertAttribution (attribution advisoryId id source seenAt))
    attributeRows advisoryId source seenAt rest

/-- The row of a range: one that is there already, or a new one. -/
def rowFor (vulnId : String) (r : AffectedRange) : SessionProgram AffectedRange := do
  match ← Call.ask (.findRange r) with
  | some row => pure row
  | none => do
    Dialogue.log (note .debug (vulnId ++ ": creating " ++ r.describe))
    Call.ask (.insertRange r)

/-- Attaches pending ranges; an attribution left over from an earlier association is taken up
again. -/
def attach (vulnId : String) (advisoryId : Int) (source : Source) (seenAt : Moment)
    (s : RangeSync) :
    List AffectedRange → SessionProgram RangeSync
  | [] => pure s
  | r :: rest => do
    let row ← rowFor vulnId r
    match row.id with
    | none => .fail .wrongKind
    | some id => do
      if (← Call.ask (.hasAttribution advisoryId id source)).isTruthy then do
        let _ ← Call.ask (.touchAttributions advisoryId [id] source seenAt)
      else attributeRows advisoryId source seenAt [id]
      let s := if (rowIds s.kept).contains id then s
        else { s with kept := s.kept ++ [row], added := s.added ++ [row] }
      attach vulnId advisoryId source seenAt s rest

def ofNoted {α : Type} (x : Noted α) : SessionProgram α :=
  x.entries.foldr .note (.ofExcept x.result)

def program (vulnId : String) (advisoryId : Int) (reported : List AffectedRange) (source : Source)
    (seenAt : Moment) : SessionProgram RangeSync := do
  let associated ← Call.ask (.getRanges advisoryId)
  let attributions ← Call.ask (.getAttributions advisoryId (rowIds associated))
  Dialogue.log (note .debug (vulnId ++ ": existing affected software: " ++ toString associated.length))
  let pending ← collapse [] reported
  let p ← ofNoted (classify vulnId source attributions { pending } associated)
  Dialogue.log (note .debug (vulnId ++ ": keep=" ++ toString p.kept.length ++ " remove=" ++
    toString p.removed.length ++ " new=" ++ toString p.pending.length))
  let stale := p.detach ++ rowIds p.removed
  if !stale.isEmpty then do
    let _ ← Call.ask (.deleteAttributions advisoryId stale source)
  if !p.refresh.isEmpty then do
    let _ ← Call.ask (.touchAttributions advisoryId p.refresh source seenAt)
  attributeRows advisoryId source seenAt p.attach
  let s ← attach vulnId advisoryId source seenAt { kept := p.kept, removed := p.removed } p.pending
  Call.ask (.setRanges advisoryId (rowIds s.kept))
  pure s

end RangeSync

/-- Reconciles the ranges of an advisory that has a row with those that a source reports. -/
def Advisory.reconcileRanges {σ : Type} [Store σ] (a : Advisory) (reported : List AffectedRange)
    (source : Source) (seenAt : Moment) : Work σ RangeSync := do
  match a.id with
  | none => Work.fail (.advisoryWithoutRow a.source a.vulnId)
  | some id => do
    let s ← Work.transact none (RangeSync.program a.vulnId id reported source seenAt)
    Work.log (RangeSync.note .debug (a.vulnId ++ ": final affected software: " ++ toString s.kept.length))
    pure s

end AdvisoryLedger

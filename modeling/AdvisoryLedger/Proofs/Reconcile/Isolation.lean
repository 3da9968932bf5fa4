import AdvisoryLedger.Proofs.Reconcile.Ranges

namespace AdvisoryLedger

open Dialogue

/-- The requests about ranges that stay within the entries of an advisory and a source. -/
def Call.IsOnRanges (v : Int) (s : Source) : Call → Prop
  | .getAdvisory .. => False
  | .getConfig .. => False
  | call => Ledger.IsWithin v s call

theorem Call.IsOnRanges.isWithin {v : Int} {s : Source} {call : Call} (h : call.IsOnRanges v s) :
    Ledger.IsWithin v s call := by
  cases call <;> first | exact h | exact h.elim

namespace RangeSync

variable {v : Int} {s : Source} {t : Moment}

theorem touch_confined (ids : List Int) :
    (Call.ask (.touchAttributions v ids s t)).Confined (Call.IsOnRanges v s) :=
  Call.confined_ask ⟨rfl, rfl⟩

theorem delete_confined (ids : List Int) :
    (Call.ask (.deleteAttributions v ids s)).Confined (Call.IsOnRanges v s) :=
  Call.confined_ask ⟨rfl, rfl⟩

theorem setRanges_confined (ids : List Int) :
    (Call.ask (.setRanges v ids)).Confined (Call.IsOnRanges v s) :=
  Call.confined_ask rfl

theorem attributeRows_confined (ids : List Int) :
    (attributeRows v s t ids).Confined (Call.IsOnRanges v s) := by
  induction ids with
  | nil => exact confined_pure ()
  | cons i rest ih => exact (Call.confined_ask ⟨rfl, rfl⟩).bind fun _ => ih

theorem rowFor_confined (vulnId : String) (r : AffectedRange) :
    (rowFor vulnId r).Confined (Call.IsOnRanges v s) := by
  refine (Call.confined_ask trivial).bind fun found => ?_
  cases found with
  | some row => exact confined_pure row
  | none => exact (confined_log _).bind fun _ => Call.confined_ask trivial

theorem attach_confined (vulnId : String) (sync : RangeSync) (pending : List AffectedRange) :
    (attach vulnId v s t sync pending).Confined (Call.IsOnRanges v s) := by
  induction pending generalizing sync with
  | nil => exact confined_pure sync
  | cons r rest ih =>
    refine (rowFor_confined vulnId r).bind fun row => ?_
    cases row.id with
    | none => exact confined_fail _
    | some i =>
      refine (Call.confined_ask trivial).bind fun known => ?_
      refine confined_ite ?_ ?_
      · exact (touch_confined [i]).bind fun _ => ih _
      · exact (attributeRows_confined [i]).bind fun _ => ih _

theorem enact_confined (vulnId : String) (p : Plan) :
    (enact vulnId v s t p).Confined (Call.IsOnRanges v s) := by
  have write (sync : RangeSync) : ((do
      Call.ask (.setRanges v (rowIds sync.kept))
      pure sync) : SessionProgram RangeSync).Confined (Call.IsOnRanges v s) :=
    (setRanges_confined _).bind fun _ => confined_pure sync
  have attributed : ((do
      attributeRows v s t p.attach
      let sync ← attach vulnId v s t { kept := p.kept, removed := p.removed } p.pending
      Call.ask (.setRanges v (rowIds sync.kept))
      pure sync) : SessionProgram RangeSync).Confined (Call.IsOnRanges v s) :=
    (attributeRows_confined p.attach).bind fun _ => (attach_confined vulnId _ p.pending).bind write
  have refreshed : ((do
      if !p.refresh.isEmpty then do
        let _ ← Call.ask (.touchAttributions v p.refresh s t)
      attributeRows v s t p.attach
      let sync ← attach vulnId v s t { kept := p.kept, removed := p.removed } p.pending
      Call.ask (.setRanges v (rowIds sync.kept))
      pure sync) : SessionProgram RangeSync).Confined (Call.IsOnRanges v s) :=
    confined_ite ((touch_confined p.refresh).bind fun _ => attributed) attributed
  exact confined_ite ((delete_confined _).bind fun _ => refreshed) refreshed

theorem ofNoted_confined {α : Type} (x : Noted α) : (ofNoted x).Confined (Call.IsOnRanges v s) := by
  obtain ⟨result, entries⟩ := x
  induction entries with
  | nil => exact confined_ofExcept result
  | cons entry rest ih => exact ⟨ih.strict, ih.asks⟩

theorem program_onRanges (vulnId : String) (reported : List AffectedRange) :
    (program vulnId v reported s t).Confined (Call.IsOnRanges v s) := by
  rw [program_eq]
  refine (Call.confined_ask trivial).bind fun rows => ?_
  refine (Call.confined_ask trivial).bind fun attributions => ?_
  refine (confined_log _).bind fun _ => ?_
  refine (confined_ofExcept _).bind fun pending => ?_
  refine (ofNoted_confined _).bind fun p => ?_
  exact (confined_log _).bind fun _ => enact_confined vulnId p

theorem program_confined (vulnId : String) (reported : List AffectedRange) :
    (program vulnId v reported s t).Confined (Ledger.IsWithin v s) :=
  (program_onRanges vulnId reported).mono fun _ => Call.IsOnRanges.isWithin

end RangeSync

/-- A report of one source on the advisory of a row, if it has one, leaves alone whatever others
said and whatever is said of other advisories. -/
structure Ledger.KeepsOthers (row? : Option Int) (s : Source) (l m : Ledger) : Prop where
  attributions : ∀ id a, row? ≠ some a.advisoryId ∨ a.source ≠ s →
    (m.attributions.get? id = some a ↔ l.attributions.get? id = some a)
  elsewhere : ∀ w, row? ≠ some w → m.associated w = l.associated w
  shared : ∀ v i, row? = some v → i ∈ l.associated v →
    (∃ a ∈ l.attributions.values, a.advisoryId = v ∧ a.rangeId = i ∧ a.source ≠ s) →
      i ∈ m.associated v
  advisories : ∀ id, m.advisories.get? id = l.advisories.get? id
  config : ∀ key, m.config.get? key = l.config.get? key
  ranges : ∀ id r, l.ranges.get? id = some r → m.ranges.get? id = some r

theorem RangeSync.Reconciled.shared {v : Int} {s : Source} {t : Moment}
    {reported : List AffectedRange}
    {target : List Int} {l m : Ledger} (h : Reconciled v s t reported target l m) {i : Int}
    (hi : i ∈ l.associated v)
    (ha : ∃ a ∈ l.attributions.values, a.advisoryId = v ∧ a.rangeId = i ∧ a.source ≠ s) :
    i ∈ m.associated v := by
  obtain ⟨a, ham, hv, hr, hs⟩ := ha
  refine (h.associated i).mpr (.inr ⟨hi, Ledger.isShared_iff.mpr ⟨a.source, hs, ?_⟩⟩)
  exact List.ne_nil_of_mem (Ledger.mem_entries.mpr ⟨ham, by rw [Attribution.triple, hv, hr]⟩)

/-- Whatever a source reports, whatever faults strike and whether or not the reconciliation ends
well, the data of other sources and of other advisories stay as they are. -/
theorem Advisory.reconcileRanges_keepsOthers {f : FaultyLedger} (hf : f.ledger.WellKept)
    (a : Advisory) (reported : List AffectedRange) (s : Source) (t : Moment) :
    f.ledger.KeepsOthers a.id s (a.reconcileRanges reported s t f).state.ledger := by
  cases hid : a.id with
  | none =>
    rw [reconcileRanges_of_none hid]
    refine ⟨fun _ _ _ => Iff.rfl, fun _ _ => rfl, ?_, fun _ => rfl, fun _ => rfl, fun _ _ h => h⟩
    intro v i hv
    cases hv
  | some v =>
    have hwithin := FaultyLedger.transact_within
      (RangeSync.program_confined (v := v) (s := s) (t := t) a.vulnId reported) hf
    obtain ⟨hresult, hstate⟩ := reconcileRanges_of_some hid reported s t f
    rw [hstate]
    refine ⟨?_, ?_, ?_, hwithin.advisories, hwithin.config, hwithin.ranges⟩
    · intro id b hb
      refine hwithin.attributions id b (hb.imp_left ?_)
      rintro hne rfl
      exact hne rfl
    · intro w hw
      refine hwithin.associated w ?_
      rintro rfl
      exact hw rfl
    · intro w i hw hi ha
      obtain rfl := Option.some.inj hw
      cases hr : (f.transact (RangeSync.program a.vulnId v reported s t)).result with
      | error e =>
        rw [(FaultyLedger.transact_agrees hf hr).associated]
        exact hi
      | ok sync =>
        have hg := FaultyLedger.gives_of_transact
          (RangeSync.program_confined a.vulnId reported).strict hr
        obtain ⟨target, hrec⟩ := RangeSync.program_reconciled hf hg
        exact hrec.shared hi ha

/-- A ledger with one advisory, of which OSV has reported one range and nobody else has. -/
def reportedOnce : FaultyLedger :=
  (({ vulnId := "A", id := some 1 } : Advisory).reconcileRanges [{ cpe23 := .text "x" }] .osv .epoch {}).state

theorem reconcileRanges_keepsOthers_reportedOnce :
    reportedOnce.ledger.associated 1 = [1] ∧
      reportedOnce.ledger.KeepsOthers (some 1) .nvd
        (({ vulnId := "A", id := some 1 } : Advisory).reconcileRanges [] .nvd .epoch reportedOnce).state.ledger :=
  ⟨by decide, Advisory.reconcileRanges_keepsOthers
    (Advisory.reconcileRanges_wellKept Ledger.wellKept_empty _ _ _ _)
    { vulnId := "A", id := some 1 } [] .nvd .epoch⟩

end AdvisoryLedger

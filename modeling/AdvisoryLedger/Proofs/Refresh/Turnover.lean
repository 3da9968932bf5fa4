import AdvisoryLedger.Proofs.Reconcile.Difference
import AdvisoryLedger.Proofs.Refresh.Sequential
import AdvisoryLedger.Proofs.Refresh.Settled
import Mathlib.Data.Set.Card

namespace AdvisoryLedger

open Ledger Work

namespace Ledger

/-- The associations, of an advisory and a range, that are in the second ledger and not in the first
one. -/
def attached (l m : Ledger) : Set (Int × Int) :=
  {x | x.2 ∈ m.associated x.1 ∧ x.2 ∉ l.associated x.1}

variable {l m : Ledger} {v : Int}

theorem attached_eq_empty (h : ∀ v, m.associated v = l.associated v) : l.attached m = ∅ := by
  refine Set.eq_empty_of_forall_notMem fun x hx => hx.2 ?_
  rw [← h]
  exact hx.1

/-- Where the associations of one advisory alone have changed, its new ranges are counted. -/
theorem ncard_attached (h : ∀ w, w ≠ v → m.associated w = l.associated w) {ids : List Int}
    (hn : ids.Nodup)
    (hids : ∀ i, i ∈ ids ↔ i ∈ m.associated v ∧ i ∉ l.associated v) :
    (l.attached m).ncard = ids.length := by
  have hattached : l.attached m = ↑(ids.map (Prod.mk v)).toFinset := by
    ext ⟨w, i⟩
    simp only [attached, Set.mem_ofPred_eq, List.coe_toFinset, List.mem_map, Prod.mk.injEq,
      exists_eq_right_right, hids]
    constructor
    · rintro ⟨hm, hl⟩
      by_cases hw : w = v
      · subst hw
        exact ⟨⟨hm, hl⟩, rfl⟩
      · exact absurd (h w hw ▸ hm) hl
    · rintro ⟨hi, rfl⟩
      exact hi
  rw [hattached, Set.ncard_coe_finset,
    List.toFinset_card_of_nodup (hn.map (Prod.mk_right_injective v)), List.length_map]

end Ledger

section Counts

variable {f g : FaultyLedger} {r : Report} {w : Written} {ns : List IndexNotice}
    {l m : Ledger} {v : Int}
  {sync : RangeSync}

theorem RangeSync.Tells.ncard_attached (h : sync.Tells v l m)
    (he : ∀ w, w ≠ v → m.associated w = l.associated w) :
    (l.attached m).ncard = sync.added.length ∧ (m.attached l).ncard = sync.removed.length := by
  rw [← h.length_added, ← h.length_removed]
  exact ⟨Ledger.ncard_attached he h.addedOnce h.added,
    Ledger.ncard_attached (fun w hw => (he w hw).symm) h.removedOnce h.removed⟩

/-- The later tally counts as many ranges more as are attached and detached between two ledgers. -/
structure Tally.Counts (before after : Tally) (l m : Ledger) : Prop where
  rangesAdded : after.rangesAdded = before.rangesAdded + (l.attached m).ncard
  rangesRemoved : after.rangesRemoved = before.rangesRemoved + (m.attached l).ncard

theorem Tally.countWritten_error {e : Failure} (t : Tally) (outcome : Option SyncOutcome) :
    (t.countWritten ⟨outcome, .error e⟩).rangesAdded = t.rangesAdded ∧
      (t.countWritten ⟨outcome, .error e⟩).rangesRemoved = t.rangesRemoved := by
  rcases outcome with _ | _ | _ | _ <;> exact ⟨rfl, rfl⟩

theorem Tally.countWritten_ok (t : Tally) (outcome : Option SyncOutcome) (sync : RangeSync) :
    (t.countWritten ⟨outcome, .ok sync⟩).rangesAdded = t.rangesAdded + sync.added.length ∧
      (t.countWritten ⟨outcome, .ok sync⟩).rangesRemoved = t.rangesRemoved +
        sync.removed.length := by
  rcases outcome with _ | _ | _ | _ <;> exact ⟨rfl, rfl⟩

/-- A report whose ranges are not written counts none, and changes no associations. -/
theorem Tally.counts_error {e : Failure} (t : Tally) (outcome : Option SyncOutcome)
    (h : ∀ v, m.associated v = l.associated v) :
    t.Counts (t.countWritten ⟨outcome, .error e⟩) l m := by
  obtain ⟨hadded, hremoved⟩ := t.countWritten_error (e := e) outcome
  exact ⟨by rw [hadded, attached_eq_empty h, Set.ncard_empty, Nat.add_zero],
    by rw [hremoved, attached_eq_empty fun v => (h v).symm, Set.ncard_empty, Nat.add_zero]⟩

theorem Advisory.associated_of_reconcileRanges_error (hl : f.ledger.WellKept) {a : Advisory}
    {reported : List AffectedRange} {s : Source} {t : Moment} {e : Failure}
    (h : (a.reconcileRanges reported s t f).result = .error e) (v : Int) :
    (a.reconcileRanges reported s t f).state.ledger.associated v = f.ledger.associated v := by
  cases hid : a.id with
  | none => rw [reconcileRanges_of_none hid]
  | some i =>
    obtain ⟨hresult, hstate⟩ := reconcileRanges_of_some hid reported s t f
    rw [hstate]
    exact (FaultyLedger.transact_agrees hl (hresult.symm.trans h)).associated v

/-- What is counted of a report that is written is what it has changed. -/
theorem Writes.counts (h : Writes r f w g ns) (hl : f.ledger.WellKept) (t : Tally) :
    t.Counts (t.countWritten w) f.ledger g.ledger := by
  have hassociated (v : Int) :
      (r.1.reconcile f).state.ledger.associated v = f.ledger.associated v := by
    rw [associated, associated, (Advisory.reconcile_tables hl r.1).2.2]
  have hl' := Advisory.reconcile_wellKept hl r.1
  cases h with
  | refused => exact t.counts_error none hassociated
  | @written row outcome seen h =>
    generalize hranges : row.reconcileRanges r.2 row.source seen (r.1.reconcile f).state = x
    obtain ⟨result, g, traces⟩ := x
    cases result with
    | error e =>
      refine t.counts_error (some outcome) fun v => ?_
      have he := Advisory.associated_of_reconcileRanges_error hl'
        (congrArg Outcome.result hranges) v
      rw [hranges] at he
      exact he.trans (hassociated v)
    | ok sync =>
      obtain ⟨v, hv, htells⟩ :=
        Advisory.tells_of_reconcileRanges hl' (congrArg Outcome.result hranges)
      have hothers := (row.reconcileRanges_keepsOthers hl' r.2 row.source seen).elsewhere
      rw [hranges] at htells hothers
      obtain ⟨hattached, hdetached⟩ :=
        htells.ncard_attached fun w hw => hothers w (by simpa [hv] using hw.symm)
      obtain ⟨hadded, hremoved⟩ := t.countWritten_ok (some outcome) sync
      have hsame : (r.1.reconcile f).state.ledger.associated = f.ledger.associated :=
        funext hassociated
      simp only [attached, hsame] at hattached hdetached
      exact ⟨by rw [hadded, attached, hattached], by rw [hremoved, attached, hdetached]⟩

theorem Writes.wellKept (h : Writes r f w g ns) (hl : f.ledger.WellKept) : g.ledger.WellKept := by
  cases h with
  | refused => exact Advisory.reconcile_wellKept hl r.1
  | written t =>
    exact Advisory.reconcileRanges_wellKept (Advisory.reconcile_wellKept hl r.1) _ r.2 _ t

end Counts

/-- How many associations come, and how many go, while reports are written one after the other. -/
noncomputable def turnover : List Report → Site FaultyLedger → Nat × Nat
  | [], _ => (0, 0)
  | r :: rest, site =>
    let next := (synchronize r site).state
    ((site.store.ledger.attached next.store.ledger).ncard + (turnover rest next).1,
      (next.store.ledger.attached site.store.ledger).ncard + (turnover rest next).2)

theorem synchronizeAll_counts (reports : List Report) {site : Site FaultyLedger}
    (hl : site.store.ledger.WellKept)
    {ws : List Written} (h : (synchronizeAll reports site).result = .ok ws) (t : Tally) :
    (ws.foldl Tally.countWritten t).rangesAdded = t.rangesAdded + (turnover reports site).1 ∧
      (ws.foldl Tally.countWritten t).rangesRemoved = t.rangesRemoved +
        (turnover reports site).2 := by
  induction reports generalizing site ws t with
  | nil =>
    obtain rfl := Except.ok.inj h
    exact ⟨rfl, rfl⟩
  | cons r rest ih =>
    obtain ⟨w, hw, hwrites⟩ := writes_synchronize r site
    obtain ⟨others, done, ts, hrest⟩ := synchronizeAll_ok rest (synchronize r site).state
    have hall := synchronizeAll_cons (show synchronize r site = ⟨.ok w, _, _⟩ by rw [← hw]) hrest
    rw [hall] at h
    obtain rfl := Except.ok.inj h
    have hfirst := hwrites.counts hl t
    obtain ⟨hadded, hremoved⟩ :=
      ih (hwrites.wellKept hl) (congrArg Outcome.result hrest) (t.countWritten w)
    rw [List.foldl_cons, hadded, hremoved, hfirst.rangesAdded, hfirst.rangesRemoved]
    exact ⟨Nat.add_assoc .., Nat.add_assoc ..⟩

/-- A refresh counts the ranges that have come and gone while its reports were written one after the
other, which is what its store has come to. -/
theorem Refresh.run_turnover (r : Refresh) {site : Site FaultyLedger}
    (hl : site.store.ledger.WellKept) :
    ∃ summary, (r.run site).result = .ok summary ∧
      (r.run site).state.store.ledger.rows =
        (synchronizeAll (r.reports site) site).state.store.ledger.rows ∧
      summary.tally.rangesAdded = (turnover (r.reports site) site).1 ∧
      summary.tally.rangesRemoved = (turnover (r.reports site) site).2 := by
  obtain ⟨summary, ws, h⟩ := r.run_sequential site
  obtain ⟨hadded, hremoved⟩ := synchronizeAll_counts _ hl h.written (.ofReadings (r.readings site))
  refine ⟨summary, h.summary, h.rows, ?_, ?_⟩
  · rw [h.tally, hadded]
    exact Nat.zero_add _
  · rw [h.tally, hremoved]
    exact Nat.zero_add _

/-- Whatever a ledger holds and whatever faults strike: the result of a reconciliation is the
difference that it makes, and the counts of a refresh are those of the ranges attached and
detached. -/
theorem reconcileRanges_tellsDifference {l : Ledger} (hl : l.WellKept) :
    (∀ (f : FaultyLedger) (a : Advisory) (reported : List AffectedRange) (s : Source) (t : Moment)
      (sync : RangeSync),
      f.ledger = l → (a.reconcileRanges reported s t f).result = .ok sync →
        ∃ v, a.id = some v ∧ sync.Tells v l (a.reconcileRanges reported s t f).state.ledger) ∧
    ∀ (r : Refresh) (site : Site FaultyLedger), site.store.ledger = l → ∃ summary,
      (r.run site).result = .ok summary ∧
      (r.run site).state.store.ledger.rows =
        (synchronizeAll (r.reports site) site).state.store.ledger.rows ∧
      summary.tally.rangesAdded = (turnover (r.reports site) site).1 ∧
      summary.tally.rangesRemoved = (turnover (r.reports site) site).2 := by
  constructor
  · rintro f a reported s t sync rfl h
    exact Advisory.tells_of_reconcileRanges hl h
  · rintro r site rfl
    exact r.run_turnover hl

theorem reconcileRanges_tellsDifference_reportedOnce : reportedOnce.ledger.WellKept ∧
    ∃ v, some 1 = some v ∧
      (⟨[{ id := some 3, cpe23 := .text "y" }], [{ id := some 3, cpe23 := .text "y" }],
        [{ id := some 1, cpe23 := .text "x" }]⟩ : RangeSync).Tells v reportedOnce.ledger
        (({ vulnId := "A", id := some 1 } : Advisory).reconcileRanges [{ cpe23 := .text "y" }] .osv .epoch
          reportedOnce).state.ledger := by
  have hl : reportedOnce.ledger.WellKept :=
    Advisory.reconcileRanges_wellKept Ledger.wellKept_empty _ _ _ _
  exact ⟨hl, (reconcileRanges_tellsDifference hl).1 reportedOnce { vulnId := "A", id := some 1 }
    [{ cpe23 := .text "y" }] .osv .epoch _ rfl rfl⟩

end AdvisoryLedger

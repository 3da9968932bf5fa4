import AdvisoryLedger.Proofs.Reconcile.Again
import AdvisoryLedger.Proofs.Reconcile.SettledRanges
import AdvisoryLedger.Proofs.Reconcile.Stages
import AdvisoryLedger.Proofs.Refresh.Synchronize

namespace AdvisoryLedger

open Ledger Work

namespace Site

variable {σ α β : Type}

theorem onStore_bind (w : Work σ α) (f : α → Work σ β) :
    (onStore w >>= fun a => onStore (f a)) = onStore (w >>= f) := by
  funext s
  change Work.bind (onStore w) (fun a => onStore (f a)) s = onStore (Work.bind w f) s
  simp only [Work.bind, onStore]
  cases (w s.store).result <;> rfl

end Site

section Writes

theorem Advisory.reconcile_site (a : Advisory) :
    (a.reconcile : Work (Site FaultyLedger) _) = Site.onStore a.reconcile := by
  unfold Advisory.reconcile
  rw [← Site.onStore_bind]
  refine congrArg (Work.transact (some a.lockKey) a.sync >>= ·) ?_
  funext x
  obtain ⟨row, outcome⟩ := x
  dsimp only
  split
  · rfl
  · cases outcome <;> rfl

theorem Advisory.reconcileRanges_site (a : Advisory) (reported : List AffectedRange)
    (source : Source) (t : Moment) :
    (a.reconcileRanges reported source t : Work (Site FaultyLedger) _) =
      Site.onStore (a.reconcileRanges reported source t) := by
  unfold Advisory.reconcileRanges
  cases a.id with
  | none => rfl
  | some v =>
    dsimp only
    rw [← Site.onStore_bind]
    rfl

theorem Advisory.notices_reconcileRanges (a : Advisory) (reported : List AffectedRange)
    (source : Source) (t : Moment)
    (f : FaultyLedger) : (a.reconcileRanges reported source t f).notices = [] := by
  have hquiet : Bounded (fun _ => ()) (fun _ => False)
      (a.reconcileRanges reported source t : Work FaultyLedger _) := by
    unfold reconcileRanges
    cases a.id with
    | none => exact Bounded.fail _
    | some v =>
      exact (Bounded.transact fun _ => rfl).bind fun sync => (Bounded.log _).bind fun _ =>
        Bounded.pure sync
  exact hquiet.notices_eq_nil f

/-- How a report is written, in its two ways: what becomes of it, what it leaves, and what the index
hears. -/
inductive Writes (r : Report) (f : FaultyLedger) : Written → FaultyLedger → List IndexNotice → Prop
  | refused {e : Failure} (h : (r.1.reconcile f).result = .error e) :
    Writes r f ⟨none, .error e⟩ (r.1.reconcile f).state (r.1.reconcile f).notices
  | written {row : Advisory} {outcome : SyncOutcome} (t : Moment)
    (h : (r.1.reconcile f).result = .ok (row, outcome)) :
    Writes r f ⟨some outcome, (row.reconcileRanges r.2 row.source t (r.1.reconcile f).state).result⟩
      (row.reconcileRanges r.2 row.source t (r.1.reconcile f).state).state (r.1.reconcile f).notices

theorem writes_synchronize (r : Report) (s : Site FaultyLedger) :
    ∃ w, (synchronize r s).result = .ok w ∧
    Writes r s.store w (synchronize r s).state.store (synchronize r s).notices := by
  have quiet (w : Work FaultyLedger RangeSync) (hw : ∀ f, (w f).notices = [])
      (s : Site FaultyLedger) : (Site.onStore w s).notices = [] := hw s.store
  unfold synchronize
  rw [notices_attempt_bind, attempt_bind, r.1.reconcile_site]
  cases hr : (Site.onStore r.1.reconcile s).result with
  | error e =>
    refine ⟨⟨none, .error e⟩, rfl, ?_⟩
    change Writes r s.store _ _ ((r.1.reconcile s.store).notices ++ [])
    rw [List.append_nil]
    exact .refused hr
  | ok x =>
    obtain ⟨row, outcome⟩ := x
    dsimp only
    refine ⟨_, rfl, ?_⟩
    have hseen (s : Site FaultyLedger) : (Site.seenNow s).result = .ok (s.clock s.readings) := rfl
    rw [notices_bind_of_ok (hseen _), bind_of_ok (hseen _), notices_attempt_bind,
      Advisory.reconcileRanges_site, quiet _ (row.notices_reconcileRanges r.2 row.source _)]
    change Writes r s.store _ _ ((r.1.reconcile s.store).notices ++ [])
    rw [List.append_nil]
    exact .written _ hr

/-- Reports are written one after the other. -/
inductive WritesAll : List Report → FaultyLedger → List Written → FaultyLedger →
    List IndexNotice → Prop
  | nil (f : FaultyLedger) : WritesAll [] f [] f []
  | cons {r : Report} {rest : List Report} {f g h : FaultyLedger} {w : Written} {ws : List Written}
    {ns ms : List IndexNotice} (first : Writes r f w g ns) (others : WritesAll rest g ws h ms) :
    WritesAll (r :: rest) f (w :: ws) h (ns ++ ms)

theorem writesAll_synchronizeAll (reports : List Report) (s : Site FaultyLedger) :
    ∃ ws, (synchronizeAll reports s).result = .ok ws ∧
      WritesAll reports s.store ws (synchronizeAll reports s).state.store
        (synchronizeAll reports s).notices := by
  induction reports generalizing s with
  | nil => exact ⟨[], rfl, .nil s.store⟩
  | cons r rest ih =>
    obtain ⟨w, hw, hwrites⟩ := writes_synchronize r s
    obtain ⟨ws, hws, hrest⟩ := ih (synchronize r s).state
    have hall := synchronizeAll_cons (show synchronize r s = ⟨.ok w, _, _⟩ by rw [← hw])
      (show synchronizeAll rest _ = ⟨.ok ws, _, _⟩ by rw [← hws])
    refine ⟨w :: ws, by rw [hall], ?_⟩
    rw [hall, Outcome.notices, List.filterMap_append]
    exact .cons hwrites hrest

theorem WritesAll.length_eq {reports : List Report} {f g : FaultyLedger} {ws : List Written}
    {ns : List IndexNotice} (h : WritesAll reports f ws g ns) : ws.length = reports.length := by
  induction h with
  | nil => rfl
  | cons _ _ ih => exact congrArg (· + 1) ih

end Writes

/-- The ledger has got its ranges from reports alone. -/
def Ledger.IsFaithful (l : Ledger) : Prop := ∃ done, Faithful l done

section Faithful

variable {l m : Ledger} {f g : FaultyLedger} {r : Report} {w : Written} {ns : List IndexNotice}

theorem Ledger.IsFaithful.wellKept (h : l.IsFaithful) : l.WellKept := by
  obtain ⟨done, h⟩ := h
  exact h.wellKept

theorem Ledger.IsFaithful.of_tables (h : l.IsFaithful) (hm : m.WellKept) (hr : m.ranges = l.ranges)
    (ha : m.attributions = l.attributions) (hs : m.associations = l.associations) :
    m.IsFaithful := by
  obtain ⟨done, h⟩ := h
  have hassociated : m.associated = l.associated := by
    funext v
    rw [associated, associated, hs]
  have hentries : m.entries = l.entries := by
    funext v i s
    rw [entries, entries, ha]
  refine ⟨done, hm, h.reported, ?_, ?_, ?_, ?_, ?_, ?_⟩
  · rw [hr]; exact h.hashable
  · rw [hr]; exact h.distinct
  · rw [hr, hassociated]; exact h.rows
  · rw [hassociated, hentries]; exact h.associated
  · rw [hr, hentries]; exact h.attested
  · rw [hr]; exact h.present

theorem isFaithful_empty : ({} : Ledger).IsFaithful :=
  ⟨[], Faithful.initial wellKept_empty rfl rfl rfl⟩

theorem Advisory.Synced.tables {a row : Advisory} {outcome : SyncOutcome}
    (h : Synced l a row outcome m) :
    m.ranges = l.ranges ∧ m.attributions = l.attributions ∧ m.associations = l.associations := by
  cases h <;> exact ⟨rfl, rfl, rfl⟩

theorem Advisory.reconcile_tables (hl : f.ledger.WellKept) (a : Advisory) :
    (a.reconcile f).state.ledger.ranges = f.ledger.ranges ∧
      (a.reconcile f).state.ledger.attributions = f.ledger.attributions ∧
      (a.reconcile f).state.ledger.associations = f.ledger.associations := by
  rcases reconcile_cases hl a with ⟨e, h⟩ | ⟨x, h⟩
  · rw [h.ledger]
    exact ⟨rfl, rfl, rfl⟩
  · exact h.synced.tables

theorem Advisory.reconcile_isFaithful (hl : f.ledger.IsFaithful) (a : Advisory) :
    (a.reconcile f).state.ledger.IsFaithful := by
  obtain ⟨hr, ha, hs⟩ := reconcile_tables hl.wellKept a
  exact hl.of_tables (reconcile_wellKept hl.wellKept a) hr ha hs

theorem Advisory.reconcileRanges_isFaithful (hl : f.ledger.IsFaithful) (a : Advisory)
    (reported : List AffectedRange)
    (s : Source) (t : Moment) : (a.reconcileRanges reported s t f).state.ledger.IsFaithful := by
  obtain ⟨done, hl⟩ := hl
  have hnext := hl.next (g := ⟨f, done⟩) ⟨a, reported, s, t⟩
  have hstore : (History.next ⟨f, done⟩ ⟨a, reported, s, t⟩).store =
      (a.reconcileRanges reported s t f).state := by
    simp only [History.next]
    cases (a.reconcileRanges reported s t f).result <;> rfl
  rw [hstore] at hnext
  exact ⟨_, hnext⟩

theorem Writes.isFaithful (h : Writes r f w g ns) (hl : f.ledger.IsFaithful) :
    g.ledger.IsFaithful := by
  cases h with
  | refused => exact Advisory.reconcile_isFaithful hl r.1
  | written t =>
    exact Advisory.reconcileRanges_isFaithful (Advisory.reconcile_isFaithful hl r.1) _ r.2 _ t

theorem WritesAll.isFaithful {reports : List Report} {ws : List Written}
    (h : WritesAll reports f ws g ns) (hl : f.ledger.IsFaithful) : g.ledger.IsFaithful := by
  induction h with
  | nil => exact hl
  | cons first _ ih => exact ih (first.isFaithful hl)

end Faithful

/-- Ranges have been written: the advisories are as they were, and of the associations just one has
been set. -/
theorem Advisory.reconcileRanges_ok {f : FaultyLedger} {row : Advisory} {v : Int}
    {reported : List AffectedRange}
    {s : Source} {t : Moment} {sync : RangeSync} (hl : f.ledger.WellKept) (hv : row.id = some v)
    (h : (row.reconcileRanges reported s t f).result = .ok sync) :
    (row.reconcileRanges reported s t f).state.ledger.advisories = f.ledger.advisories ∧
      (∃ target, RangeSync.Reconciled v s t reported target f.ledger
        (row.reconcileRanges reported s t f).state.ledger) ∧
      ∃ ids, (row.reconcileRanges reported s t f).state.ledger.associations =
        f.ledger.associations.put v ids := by
  obtain ⟨hresult, hstate⟩ := reconcileRanges_of_some hv reported s t f
  have hconfined := RangeSync.program_confined (v := v) (s := s) (t := t) row.vulnId reported
  have hg := FaultyLedger.gives_of_transact hconfined.strict (hresult.symm.trans h)
  rw [hstate]
  exact ⟨hg.advisories hconfined.asks, RangeSync.program_reconciled hl hg,
    RangeSync.associations_of_gives hl hg⟩

/-- The ledger holds what a report says, and the report has nothing to add: neither to the row nor
to its ranges. -/
structure Ledger.Holds (l : Ledger) (r : Report) (row : Advisory) : Prop where
  copy : l.copy? r.1.naturalKey = some row
  settled : row.Settled r.1
  ranges : ∃ v, row.id = some v ∧ RangeSync.Settled l v row.source r.2

section Holds

variable {f g : FaultyLedger} {r q : Report} {row : Advisory} {w : Written} {ns : List IndexNotice}

/-- What a report that is written completely comes to. -/
structure Lands (r : Report) (f : FaultyLedger) (row : Advisory) (v : Int) (m : Ledger)
    (g : FaultyLedger) : Prop where
  comes : row = (r.1.comesTo f.ledger.nextId (f.ledger.copy? r.1.naturalKey)).1
  id : row.id = some v
  copies : g.ledger.copy? = Function.update f.ledger.copy? r.1.naturalKey (some row)
  ranges : m.ranges = f.ledger.ranges
  attributions : m.attributions = f.ledger.attributions
  associations : m.associations = f.ledger.associations
  reconciled : ∃ t target, RangeSync.Reconciled v row.source t r.2 target m g.ledger
  filed : ∃ ids, g.ledger.associations = m.associations.put v ids

theorem Writes.lands (h : Writes r f w g ns) (hl : f.ledger.WellKept) (hc : w.isComplete = true) :
    ∃ row v m, Lands r f row v m g := by
  cases h with
  | refused => cases hc
  | @written row outcome t hrow =>
    rcases Advisory.reconcile_cases hl r.1 with ⟨e, hfell⟩ | ⟨x, hcame⟩
    · rw [hfell.result] at hrow
      cases hrow
    · obtain rfl := Except.ok.inj (hcame.result.symm.trans hrow)
      obtain ⟨v, hv⟩ := Option.ne_none_iff_exists'.mp hcame.id
      obtain ⟨hr, ha, hs⟩ := hcame.synced.tables
      generalize hx : row.reconcileRanges r.2 row.source t (r.1.reconcile f).state = x at hc
      cases hresult : x.result with
      | error e => simp [Written.isComplete, hresult, Except.isOk, Except.toBool] at hc
      | ok sync =>
        subst hx
        obtain ⟨hadvisories, ⟨target, hrec⟩, hfiled⟩ :=
          Advisory.reconcileRanges_ok (Advisory.reconcile_wellKept hl r.1) hv hresult
        refine ⟨row, v, _, ?_, hv, ?_, hr, ha, hs, ⟨t, target, hrec⟩, hfiled⟩
        · rw [hcame.comesTo]
        · rw [← hcame.copies]
          funext key
          simp only [copy?, advisory?, hadvisories]

namespace Lands

variable {next : Advisory} {v : Int} {m : Ledger}

theorem holds (h : Lands r f row v m g) (hg : g.ledger.IsFaithful)
    (he : r.1.explicitSeverity = none)
    (hi : ∀ x ∈ r.2, x.identity? ≠ none) : g.ledger.Holds r row := by
  obtain ⟨done, hg⟩ := hg
  obtain ⟨t, target, hrec⟩ := h.reconciled
  obtain ⟨ids, hids⟩ := h.filed
  refine ⟨?_, ?_, v, h.id, hrec.settled hg hi ⟨ids, ?_⟩⟩
  · rw [h.copies, Function.update_self]
  · rw [h.comes]
    exact Advisory.settled_comesTo he _ _
  · rw [hids, Table.get?_put, if_pos rfl]

theorem keeps (h : Lands q f next v m g) (hg : g.ledger.WellKept)
    (hne : r.1.naturalKey ≠ q.1.naturalKey) (hr : f.ledger.Holds r row) : g.ledger.Holds r row := by
  obtain ⟨w, hw, hs⟩ := hr.ranges
  obtain ⟨t, target, hrec⟩ := h.reconciled
  have hcopy : g.ledger.copy? r.1.naturalKey = some row := by
    rw [h.copies, Function.update_of_ne hne, hr.copy]
  have hnext : g.ledger.copy? q.1.naturalKey = some next := by rw [h.copies, Function.update_self]
  have hwv : w ≠ v := by
    rintro rfl
    obtain ⟨i, hi, hrow⟩ := get?_of_copy? hg hcopy
    obtain ⟨j, hj, hother⟩ := get?_of_copy? hg hnext
    obtain rfl := Option.some.inj (hi.symm.trans hw)
    obtain rfl := Option.some.inj (hj.symm.trans h.id)
    obtain rfl := Option.some.inj (hrow.symm.trans hother)
    exact hne ((naturalKey_of_copy? hcopy).symm.trans (naturalKey_of_copy? hnext))
  have hm : RangeSync.Settled m w row.source r.2 := by
    refine hs.transfer (by rw [h.associations]) (fun i x hx => by rw [h.ranges, hx]) fun i x => ?_
    rw [isAttributed, isAttributed, h.attributions]
  exact ⟨hcopy, hr.settled, w, hw, hm.elsewhere hrec hwv h.filed⟩

end Lands

variable {reports : List Report} {ws : List Written}

theorem WritesAll.keeps (h : WritesAll reports f ws g ns) (hl : f.ledger.IsFaithful)
    (hc : ∀ w ∈ ws, w.isComplete = true) (hne : ∀ q ∈ reports, r.1.naturalKey ≠ q.1.naturalKey)
    (hr : f.ledger.Holds r row) : g.ledger.Holds r row := by
  induction h with
  | nil => exact hr
  | cons first _ ih =>
    obtain ⟨hfirst, hrest⟩ := List.forall_mem_cons.mp hc
    obtain ⟨hq, hothers⟩ := List.forall_mem_cons.mp hne
    obtain ⟨next, v, m, hlands⟩ := first.lands hl.wellKept hfirst
    have hg := first.isFaithful hl
    exact ih hg hrest hothers (hlands.keeps hg.wellKept hq hr)

/-- Reports on different advisories are all held once they are all written. -/
theorem WritesAll.holds (h : WritesAll reports f ws g ns) (hl : f.ledger.IsFaithful)
    (hc : ∀ w ∈ ws, w.isComplete = true)
    (hn : reports.Pairwise fun r q => r.1.naturalKey ≠ q.1.naturalKey)
    (he : ∀ r ∈ reports, r.1.explicitSeverity = none)
    (hi : ∀ r ∈ reports, ∀ x ∈ r.2, x.identity? ≠ none) :
    ∀ r ∈ reports, ∃ next row, row = (r.1.comesTo next (f.ledger.copy? r.1.naturalKey)).1 ∧
      g.ledger.Holds r row := by
  induction h with
  | nil => simp
  | cons first others ih =>
    obtain ⟨hfirst, hrest⟩ := List.forall_mem_cons.mp hc
    obtain ⟨hapart, hn⟩ := List.pairwise_cons.mp hn
    obtain ⟨he, hes⟩ := List.forall_mem_cons.mp he
    obtain ⟨hi, his⟩ := List.forall_mem_cons.mp hi
    obtain ⟨row, v, m, hlands⟩ := first.lands hl.wellKept hfirst
    have hg := first.isFaithful hl
    refine List.forall_mem_cons.mpr ⟨⟨_, row, hlands.comes, ?_⟩, fun q hq => ?_⟩
    · exact others.keeps hg hrest hapart (hlands.holds hg he hi)
    · obtain ⟨next, row', hrow', hholds⟩ := ih hg hrest hn hes his q hq
      rw [hlands.copies, Function.update_of_ne (hapart q hq).symm] at hrow'
      exact ⟨next, row', hrow', hholds⟩

end Holds

/-- The attribution is by the source of the report, and of a range that the report names. -/
def Ledger.IsNamedBy (l : Ledger) (r : Report) (a : Attribution) : Prop :=
  (∃ row, l.copy? r.1.naturalKey = some row ∧ row.id = some a.advisoryId) ∧ a.source = r.1.source ∧
    ∃ q, l.ranges.get? a.rangeId = some q ∧ ∃ x ∈ r.2, q.identity? = x.identity?

/-- There was nothing to write: the advisory is not new, and its ranges are what they were. -/
def Written.IsIdle (w : Written) : Prop :=
  ∃ outcome kept, w = ⟨some outcome, .ok ⟨kept, [], []⟩⟩ ∧ outcome ≠ .created

section Again

variable {which : Attribution → Prop} {l m : Ledger} {f g : FaultyLedger} {r : Report}
    {row : Advisory} {w : Written}
  {ns : List IndexNotice}

theorem Ledger.SeenAgain.copy? (h : SeenAgain which l m) : m.copy? = l.copy? := by
  rw [h.same]
  rfl

theorem Ledger.SeenAgain.isNamedBy (h : SeenAgain which l m) : m.IsNamedBy = l.IsNamedBy := by
  rw [h.same]
  rfl

theorem Ledger.Holds.seenAgain (h : l.Holds r row) (hm : SeenAgain which l m) : m.Holds r row := by
  obtain ⟨v, hv, hs⟩ := h.ranges
  exact ⟨by rw [hm.copy?, h.copy], h.settled, v, hv, hs.seenAgain hm⟩

/-- What is reported again of an advisory: its row stays, and counts as changed only if it is not
steady. -/
theorem Advisory.Rests.again {a : Advisory} (h : Rests row a f) :
    ∃ outcome, (a.reconcile f).result = .ok (row, outcome) ∧ outcome ≠ .created ∧
      (row.IsSteady → outcome = .unchanged ∧ (a.reconcile f).notices = []) := by
  by_cases hs : row.IsSteady
  · obtain ⟨hresult, hnotices, -⟩ := h.unchanged hs
    exact ⟨.unchanged, hresult, by decide, fun _ => ⟨rfl, hnotices⟩⟩
  · obtain ⟨hresult, -⟩ := h.updated hs
    exact ⟨.updated, hresult, by decide, fun h => absurd h hs⟩

/-- A report that is held is written again. -/
theorem Writes.again (h : Writes r f w g ns) (hl : f.ledger.IsFaithful) (hf : f.faults = .none)
    (hr : f.ledger.Holds r row) (hi : ∀ x ∈ r.2, x.identity? ≠ none) :
    w.IsIdle ∧ (row.IsSteady → w.outcome = some .unchanged ∧ ns = []) ∧ g.faults = .none ∧
      SeenAgain (f.ledger.IsNamedBy r) f.ledger g.ledger := by
  have hrests : Advisory.Rests row r.1 f := ⟨hf, hl.wellKept, hr.copy, hr.settled⟩
  obtain ⟨outcome, hresult, hnew, hsteady⟩ := hrests.again
  have hledger := hrests.ledger_eq
  have hfaults := hrests.reconcile.faults
  obtain ⟨v, hv, hs⟩ := hr.ranges
  cases h with
  | refused he =>
    rw [hresult] at he
    cases he
  | written t hw =>
    obtain ⟨rfl, rfl⟩ := Prod.mk.inj (Except.ok.inj (hresult.symm.trans hw))
    obtain ⟨done, hl⟩ := hl
    obtain ⟨kept, m, hg, hseen⟩ := hs.gives hl hi row.vulnId t
    obtain ⟨hranges, hstate⟩ :=
      Advisory.reconcileRanges_of_some hv r.2 row.source t (r.1.reconcile f).state
    rw [← hledger] at hg
    obtain ⟨hok, hm, hnone⟩ := FaultyLedger.transact_of_gives hfaults hg
    refine ⟨⟨outcome, kept, ?_, hnew⟩,
      fun h => ⟨congrArg some (hsteady h).1, (hsteady h).2⟩, ?_, ?_⟩
    · rw [hranges, hok]
    · rw [hstate, hnone]
    · rw [hstate, hm]
      refine hseen.mono fun a ha => ?_
      obtain ⟨hadvisory, hsource, hrange⟩ := ha
      have hkey : row.source = r.1.source := congrArg Prod.fst (naturalKey_of_copy? hr.copy)
      exact ⟨⟨row, hr.copy, hv.trans (congrArg some hadvisory.symm)⟩, hsource.trans hkey, hrange⟩

theorem WritesAll.again {reports : List Report} {ws : List Written}
    (h : WritesAll reports f ws g ns)
    (hl : f.ledger.IsFaithful) (hf : f.faults = .none)
    (hr : ∀ r ∈ reports, ∃ row, f.ledger.Holds r row)
    (hi : ∀ r ∈ reports, ∀ x ∈ r.2, x.identity? ≠ none) :
    (∀ w ∈ ws, w.IsIdle) ∧
      ((∀ r ∈ reports, ∀ row, f.ledger.copy? r.1.naturalKey = some row → row.IsSteady) →
        (∀ w ∈ ws, w.outcome = some .unchanged) ∧ ns = []) ∧
      g.faults = .none ∧ SeenAgain (fun a => ∃ r ∈ reports,
        f.ledger.IsNamedBy r a) f.ledger g.ledger := by
  induction h with
  | nil f => exact ⟨by simp, fun _ => ⟨by simp, rfl⟩, hf, .refl _ _⟩
  | @cons r rest f g h w ws ns ms first others ih =>
    obtain ⟨⟨row, hrow⟩, hrs⟩ := List.forall_mem_cons.mp hr
    obtain ⟨hi, his⟩ := List.forall_mem_cons.mp hi
    obtain ⟨hidle, hsteady, hg, hseen⟩ := first.again hl hf hrow hi
    have hrs' : ∀ q ∈ rest, ∃ row, g.ledger.Holds q row := by
      intro q hq
      obtain ⟨row', hrow'⟩ := hrs q hq
      exact ⟨row', hrow'.seenAgain hseen⟩
    obtain ⟨hidles, hsteadies, hh, hseens⟩ := ih (first.isFaithful hl) hg hrs' his
    refine ⟨List.forall_mem_cons.mpr ⟨hidle, hidles⟩, fun hall => ?_, hh, ?_⟩
    · obtain ⟨hfirst, hrest⟩ := List.forall_mem_cons.mp hall
      obtain ⟨hunchanged, rfl⟩ := hsteady (hfirst row hrow.copy)
      obtain ⟨hunchangeds, rfl⟩ := hsteadies (by rw [hseen.copy?]; exact hrest)
      exact ⟨List.forall_mem_cons.mpr ⟨hunchanged, hunchangeds⟩, rfl⟩
    · rw [hseen.isNamedBy] at hseens
      exact (hseen.mono fun a ha => ⟨r, List.mem_cons_self, ha⟩).trans
        (hseens.mono fun a ha => by
          obtain ⟨q, hq, hnamed⟩ := ha
          exact ⟨q, List.mem_cons_of_mem r hq, hnamed⟩)

end Again

end AdvisoryLedger

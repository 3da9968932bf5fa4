import AdvisoryLedger.Proofs.Refresh.Malformed
import AdvisoryLedger.Proofs.Refresh.Settled

namespace AdvisoryLedger

open Ledger Work

/-- The ledgers that reports and refreshes lead to, whatever faults strike them. -/
inductive Ledger.Reached : Ledger → Prop
  | empty : Reached {}
  | reconcile (f : FaultyLedger) (h : f.ledger.Reached) (a : Advisory) :
    Reached (a.reconcile f).state.ledger
  | reconcileRanges (f : FaultyLedger) (h : f.ledger.Reached) (a : Advisory)
    (reported : List AffectedRange)
    (source : Source) (t : Moment) : Reached (a.reconcileRanges reported source t f).state.ledger
  | refresh (r : Refresh) (site : Site FaultyLedger) (h : site.store.ledger.Reached) :
    Reached (r.run site).state.store.ledger

namespace Tally

/-- Where there was nothing to write, each report counts as changed or as unchanged, and nothing
else is counted. -/
theorem foldl_countWritten_idle {ws : List Written} (h : ∀ w ∈ ws, w.IsIdle) (t : Tally) :
    (ws.foldl countWritten t).created = t.created ∧
      (ws.foldl countWritten t).rangesAdded = t.rangesAdded ∧
      (ws.foldl countWritten t).rangesRemoved = t.rangesRemoved ∧
      (ws.foldl countWritten t).updated + (ws.foldl countWritten t).unchanged =
        t.updated + t.unchanged + ws.length := by
  induction ws generalizing t with
  | nil => exact ⟨rfl, rfl, rfl, rfl⟩
  | cons w rest ih =>
    obtain ⟨⟨outcome, kept, rfl, hnew⟩, hrest⟩ := List.forall_mem_cons.mp h
    obtain ⟨hcreated, hadded, hremoved, hcount⟩ :=
      ih hrest (t.countWritten ⟨some outcome, .ok ⟨kept, [], []⟩⟩)
    rw [List.foldl_cons, hcreated, hadded, hremoved, hcount, List.length_cons]
    cases outcome with
    | created => exact absurd rfl hnew
    | updated =>
      refine ⟨rfl, rfl, rfl, ?_⟩
      simp only [countWritten, Option.map_some, Option.getD_some, countOutcome]
      omega
    | unchanged =>
      refine ⟨rfl, rfl, rfl, ?_⟩
      simp only [countWritten, Option.map_some, Option.getD_some, countOutcome]
      omega

theorem foldl_countWritten_unchanged {ws : List Written} (h : ∀ w ∈ ws, w.outcome = some .unchanged)
    (t : Tally) : (ws.foldl countWritten t).updated = t.updated := by
  induction ws generalizing t with
  | nil => rfl
  | cons w rest ih =>
    obtain ⟨hw, hrest⟩ := List.forall_mem_cons.mp h
    rw [List.foldl_cons, ih hrest]
    obtain ⟨outcome, ranges⟩ := w
    cases hw
    cases ranges <;> rfl

end Tally

theorem Written.IsIdle.isComplete {w : Written} (h : w.IsIdle) : w.isComplete = true := by
  obtain ⟨outcome, kept, rfl, -⟩ := h
  rfl

/-- The refresh had nothing to add: no advisory, no range, and no failure. -/
structure RefreshSummary.IsIdle (s : RefreshSummary) : Prop where
  created : s.tally.created = 0
  rangesAdded : s.tally.rangesAdded = 0
  rangesRemoved : s.tally.rangesRemoved = 0
  writeFailed : s.writeFailed = 0
  counted : s.tally.updated + s.tally.unchanged = s.tally.submitted

namespace Refresh

variable {r : Refresh} {site start : Site FaultyLedger} {c : FeedClient} {h : Harvest}
    {items : List Json}

section Advance

variable {w : Watermark} {m : Option Moment} {s : Site FaultyLedger}

theorem advance_store (t : Moment) : (w.advance (some t) s).state.store =
    (s.store.transact (Call.ask
      (.setConfig w.group w.name (some (toString t.wholeEpochSeconds))))).state := by
  dsimp only [Watermark.advance]
  rw [log_bind]
  cases ht : (Work.transact none
    (Call.ask (.setConfig w.group w.name (some (toString t.wholeEpochSeconds)))) s).result with
  | error e =>
    rw [bind_of_error ht]
    rfl
  | ok u =>
    rw [bind_of_ok ht]
    rfl

theorem advance_rows (w : Watermark) (m : Option Moment) (s : Site FaultyLedger) :
    (w.advance m s).state.store.ledger.rows = s.store.ledger.rows :=
  (advance_quiet (fun s : Site FaultyLedger => s.store.ledger.rows) (w := w)
    (fun s value => s.store.setConfig_rows _ _ value) m).part s

theorem advance_wellKept (hs : s.store.ledger.WellKept) :
    (w.advance m s).state.store.ledger.WellKept := by
  cases m with
  | none => exact hs
  | some t =>
    rw [advance_store]
    exact (FaultyLedger.transact_wellKept _ hs).1

theorem property_of_advance {moved : Bool} {t : Moment}
    (h : (w.advance (some t) s).result = .ok moved) :
    (properties (w.advance (some t) s).state).get? (w.group, w.name) =
      some (some (toString t.wholeEpochSeconds)) := by
  rcases advance_cases w (some t) s with ⟨hm, -⟩ | ⟨n, e, -, he, -⟩ | ⟨t', ht, -, hput⟩
  · cases hm
  · rw [he] at h
    cases h
  · obtain rfl := Option.some.inj ht
    rw [hput, Table.get?_put, if_pos rfl]

theorem advance_again (hf : s.store.faults = .none)
    (hm : ∀ t, m = some t → (properties s).get? (w.group, w.name) =
      some (some (toString t.wholeEpochSeconds))) :
    (w.advance m s).state.store.ledger = s.store.ledger ∧
      ∃ moved, (w.advance m s).result = .ok moved := by
  cases m with
  | none => exact ⟨rfl, false, rfl⟩
  | some t =>
    have hput : s.store.ledger.config.put (w.group, w.name) (some (toString t.wholeEpochSeconds)) =
        s.store.ledger.config := Table.put_self (hm t rfl)
    have hg : Gives (Call.ask
      (.setConfig w.group w.name (some (toString t.wholeEpochSeconds)))) s.store.ledger ()
        { s.store.ledger with
          config := s.store.ledger.config.put (w.group, w.name)
            (some (toString t.wholeEpochSeconds)) } :=
      gives_ask.mpr ⟨_, rfl⟩
    rw [hput] at hg
    obtain ⟨-, hledger, -⟩ := FaultyLedger.transact_of_gives hf hg
    refine ⟨by rw [advance_store, hledger], ?_⟩
    rcases advance_cases w (some t) s with ⟨hm, -⟩ | ⟨n, e, he, -⟩ | ⟨t', -, hmoved, -⟩
    · cases hm
    · rw [hf] at he
      cases he
    · exact ⟨true, hmoved⟩

end Advance

theorem run_isFaithful (r : Refresh) (hl : site.store.ledger.IsFaithful) :
    (r.run site).state.store.ledger.IsFaithful := by
  cases ho : (r.opened site).result with
  | error e =>
    obtain ⟨previous, -, hstate, -⟩ := run_of_unopened ho
    rw [hstate, (r.opened_alike site).store.ledger]
    exact hl
  | ok c =>
    cases hh : (r.opened site).state.harvest c with
    | mk h start =>
      obtain ⟨ws, hws, hwrites⟩ := writesAll_synchronizeAll h.reports start
      have hdone : (synchronizeAll h.reports start).state.store.ledger.IsFaithful := by
        refine hwrites.isFaithful ?_
        rw [(alike_of_opened hh).store.ledger]
        exact hl
      cases he : h.ending with
      | error e =>
        obtain ⟨since, ws', ts, hwritten, -⟩ := run_of_broken ho hh he
        rw [hwritten] at hdone
        exact hdone
      | ok u =>
        obtain ⟨since, ws', done, ts, hwritten, hstate, -⟩ := run_of_read ho hh he
        rw [hwritten] at hdone
        have hrows := advance_rows r.watermark h.client.lastUpdated done
        simp only [rows, Prod.mk.injEq] at hrows
        obtain ⟨-, hranges, hattributions, hassociations⟩ := hrows
        rw [hstate]
        exact hdone.of_tables (advance_wellKept hdone.wellKept) hranges hattributions hassociations

end Refresh

theorem Ledger.Reached.isFaithful {l : Ledger} (h : l.Reached) : l.IsFaithful := by
  induction h with
  | empty => exact isFaithful_empty
  | reconcile f _ a ih => exact Advisory.reconcile_isFaithful ih a
  | reconcileRanges f _ a reported source t ih =>
    exact Advisory.reconcileRanges_isFaithful ih a reported source t
  | refresh r site _ ih => exact Refresh.run_isFaithful r ih

/-- The ledger holds what it held where the four tables of rows are the same. -/
theorem Ledger.Holds.of_rows {l m : Ledger} {x : Report} {row : Advisory} (h : l.Holds x row)
    (hm : m.rows = l.rows) : m.Holds x row := by
  simp only [rows, Prod.mk.injEq] at hm
  obtain ⟨hadvisories, hranges, hattributions, hassociations⟩ := hm
  obtain ⟨v, hv, hs⟩ := h.ranges
  refine ⟨?_, h.settled, v, hv,
    hs.transfer (by rw [hassociations]) (fun i q hq => by rw [hranges, hq]) ?_⟩
  · rw [← h.copy]
    simp only [copy?, advisory?, hadvisories]
  · intro i y
    simp only [isAttributed, hattributions]

namespace Record

theorem isUnsaid_of_reported? {item : Json} {x : Report} (h : reported? item = some x) :
    IsUnsaid x.1 := by
  unfold reported? at h
  cases hr : (ofItem item).result with
  | error e => simp [hr, report?] at h
  | ok found =>
    rw [hr] at h
    obtain rfl : found = some x := h
    rcases ofItem_ok hr with ⟨hnone, -⟩ | ⟨cve, y, hy, -, ha⟩
    · cases hnone
    · obtain rfl := Option.some.inj hy
      exact isUnsaid_of_advisory ha

end Record

namespace Refresh

open Record

variable {r : Refresh} {site start : Site FaultyLedger} {c : FeedClient} {h : Harvest}
    {items : List Json}
  {s : RefreshSummary}

/-- The latest modification that can be read from the items. -/
def latest (items : List Json) : Option Moment :=
  (items.filterMap lastModified?).foldl Moment.later none

/-- A feed has been read to its end, and its reports have been written one after the other; what is
left is up to the watermark. -/
structure Mirrored (r : Refresh) (site : Site FaultyLedger) (items : List Json) (ws : List Written)
    (done : Site FaultyLedger) (ns : List IndexNotice) (s : RefreshSummary) : Prop where
  written : ∃ f : FaultyLedger, f.Alike site.store ∧
    WritesAll (items.filterMap reported?) f ws done.store ns
  state : (r.run site).state = (r.watermark.advance (latest items) done).state
  result : (r.run site).result = .ok (settled s (r.watermark.advance (latest items) done).result)
  notices : (r.run site).notices = ns ++ heard (r.watermark.advance (latest items) done).result
  failure : s.failure = none
  writeFailed : s.writeFailed = ws.countP fun w => !w.isComplete
  tally : s.tally = ws.foldl Tally.countWritten
    (.ofReadings (items.map fun item => (ofItem item).result))

theorem mirrored_of_delivered (ho : (r.opened site).result = .ok c)
    (hd : FeedAnswer.delivered 0 site.answers = some items)
    (hall : ∀ item ∈ items, isReadable item = true) :
    ∃ ws done ns s, r.Mirrored site items ws done ns s := by
  cases hh : (r.opened site).state.harvest c with
  | mk h start =>
    obtain ⟨hiff, hreadings⟩ := ending_of_delivered ho hh hd
    have he := hiff.mpr hall
    have hfound := (found_of_opened ho hh).trans (hreadings he)
    have hreports : h.reports = items.filterMap reported? := by
      rw [h.reports_eq, hfound, List.filterMap_map]
      rfl
    have hlatest : h.client.lastUpdated = latest items := by
      rw [lastUpdated_of_read ho hh he, stamps, (pages_of_delivered ho hh hd).2 he, latest]
    obtain ⟨since, ws, done, ts, hwritten, hstate, hresult, hnotices⟩ := run_of_read ho hh he
    obtain ⟨ws', hws', hwrites⟩ := writesAll_synchronizeAll h.reports start
    rw [hwritten] at hws' hwrites
    obtain rfl := Except.ok.inj hws'
    rw [hlatest] at hstate hresult hnotices
    rw [hreports] at hwrites
    exact ⟨ws, done, _, _, ⟨start.store, (alike_of_opened hh).store, hwrites⟩, hstate, hresult,
      hnotices, rfl, rfl,
      by rw [summaryOf, hfound]⟩

/-- A refresh that succeeds has mirrored its feed, and nothing kept the watermark from moving. -/
theorem mirrored_of_success (hd : FeedAnswer.delivered 0 site.answers = some items)
    (hs : (r.run site).result = .ok s) (hsuccess : s.isSuccess = true) :
    (∀ item ∈ items, isReadable item = true) ∧
      ∃ ws done ns s' moved, r.Mirrored site items ws done ns s' ∧
      (r.watermark.advance (latest items) done).result = .ok moved ∧
        s.writeFailed = s'.writeFailed := by
  cases ho : (r.opened site).result with
  | error e =>
    obtain ⟨previous, hresult, -⟩ := run_of_unopened ho
    obtain rfl := Except.ok.inj (hresult.symm.trans hs)
    cases hsuccess
  | ok c =>
    cases hh : (r.opened site).state.harvest c with
    | mk h start =>
      cases he : h.ending with
      | error e =>
        obtain ⟨since, ws, ts, -, hresult, -⟩ := run_of_broken ho hh he
        obtain rfl := Except.ok.inj (hresult.symm.trans hs)
        cases hsuccess
      | ok u =>
        have hall := (pages_of_delivered ho hh hd).1.mp he
        obtain ⟨ws, done, ns, s', hm⟩ := mirrored_of_delivered ho hd hall
        obtain rfl := Except.ok.inj (hm.result.symm.trans hs)
        cases hmoved : (r.watermark.advance (latest items) done).result with
        | error e =>
          rw [hmoved] at hsuccess
          cases hsuccess
        | ok moved => exact ⟨hall, ws, done, ns, s', moved, hm, hmoved, settled_writeFailed _ _⟩

/-- Once a feed has been mirrored completely, the ledger holds its reports. -/
theorem Mirrored.holds {ws : List Written} {done : Site FaultyLedger} {ns : List IndexNotice}
    (hm : r.Mirrored site items ws done ns s) (hl : site.store.ledger.IsFaithful)
    (hwritten : s.writeFailed = 0)
    (hi : ∀ x ∈ items.filterMap reported?, ∀ q ∈ x.2, q.identity? ≠ none)
    (hn : ((items.filterMap reported?).map fun x => x.1.vulnId).Nodup) :
    ∀ x ∈ items.filterMap reported?, ∃ next row, row =
      (x.1.comesTo next (site.store.ledger.copy? x.1.naturalKey)).1 ∧
      (r.run site).state.store.ledger.Holds x row := by
  obtain ⟨f, hf, hwrites⟩ := hm.written
  rw [hm.writeFailed, List.countP_eq_zero] at hwritten
  have hcomplete : ∀ w ∈ ws, w.isComplete = true := by simpa using hwritten
  have hapart : (items.filterMap reported?).Pairwise fun x y => x.1.naturalKey ≠ y.1.naturalKey :=
    (List.pairwise_map.mp hn).imp fun hne hk => hne (congrArg Prod.snd hk)
  have hsaid : ∀ x ∈ items.filterMap reported?, x.1.explicitSeverity = none := by
    intro x hx
    obtain ⟨item, -, hitem⟩ := List.mem_filterMap.mp hx
    exact (isUnsaid_of_reported? hitem).explicitSeverity
  intro x hx
  obtain ⟨next, row, hrow, hholds⟩ := hwrites.holds (hf.ledger ▸ hl) hcomplete hapart hsaid hi x hx
  rw [hf.ledger] at hrow
  refine ⟨next, row, hrow, ?_⟩
  rw [hm.state]
  exact hholds.of_rows (advance_rows _ _ _)

/-- The attribution is by the NVD, of a range that one of the reports names. -/
def IsOfFeed (l : Ledger) (reports : List Report) (a : Attribution) : Prop :=
  a.source = .nvd ∧ ∃ x ∈ reports, l.IsNamedBy x a

/-- Where the ledger holds all reports already and the watermark is where it would be moved to, a
refresh changes no more than when attributions were last seen. -/
theorem Mirrored.idle {ws : List Written} {done : Site FaultyLedger} {ns : List IndexNotice}
    (hm : r.Mirrored site items ws done ns s) (hl : site.store.ledger.IsFaithful)
    (hf : site.store.faults = .none)
    (hholds : ∀ x ∈ items.filterMap reported?, ∃ row, site.store.ledger.Holds x row)
    (hi : ∀ x ∈ items.filterMap reported?, ∀ q ∈ x.2, q.identity? ≠ none)
    (hproperty : ∀ t, latest items = some t →
      (properties site).get? (r.watermark.group, r.watermark.name) =
        some (some (toString t.wholeEpochSeconds))) :
    (∀ w ∈ ws, w.IsIdle) ∧
      ((∀ x ∈ items.filterMap reported?, ∀ row, site.store.ledger.copy? x.1.naturalKey = some row →
        row.IsSteady) →
        (∀ w ∈ ws, w.outcome = some .unchanged) ∧ ns = []) ∧
      SeenAgain (IsOfFeed site.store.ledger (items.filterMap reported?)) site.store.ledger
        (r.run site).state.store.ledger ∧
      ∃ moved, (r.watermark.advance (latest items) done).result = .ok moved := by
  obtain ⟨f, halike, hwrites⟩ := hm.written
  obtain ⟨hidle, hunchanged, hfaults, hseen⟩ := hwrites.again (by rw [halike.ledger]; exact hl)
    (by rw [halike.faults, hf]) (by rw [halike.ledger]; exact hholds) hi
  rw [halike.ledger] at hunchanged hseen
  have hconfig : properties done = properties site := by
    rw [properties, hseen.same]
    rfl
  obtain ⟨hledger, hmoved⟩ := advance_again (w := r.watermark) hfaults (by rw [hconfig]; exact hproperty)
  refine ⟨hidle, hunchanged, ?_, hmoved⟩
  rw [hm.state, hledger]
  refine hseen.mono fun a ha => ?_
  obtain ⟨x, hx, hnamed⟩ := ha
  obtain ⟨item, -, hitem⟩ := List.mem_filterMap.mp hx
  exact ⟨hnamed.2.1.trans (isUnsaid_of_reported? hitem).source, x, hx, hnamed⟩

theorem Mirrored.submitted {ws : List Written} {done : Site FaultyLedger} {ns : List IndexNotice}
    (hm : r.Mirrored site items ws done ns s) :
    s.tally.submitted = (items.filterMap reported?).length := by
  rw [hm.tally, (Tally.foldl_countWritten_counts ws _).2.1, Tally.ofReadings, List.filterMap_map]
  rfl

theorem Mirrored.isIdle {ws : List Written} {done : Site FaultyLedger} {ns : List IndexNotice}
    (hm : r.Mirrored site items ws done ns s) (hidle : ∀ w ∈ ws, w.IsIdle) :
    s.IsIdle ∧ ((∀ w ∈ ws, w.outcome = some .unchanged) → s.tally.updated = 0) := by
  obtain ⟨hcreated, hadded, hremoved, hcount⟩ :=
    Tally.foldl_countWritten_idle hidle (.ofReadings (items.map fun item => (ofItem item).result))
  have hupdated (h : ∀ w ∈ ws, w.outcome = some .unchanged) := Tally.foldl_countWritten_unchanged h
    (.ofReadings (items.map fun item => (ofItem item).result))
  rw [← hm.tally] at hcreated hadded hremoved hcount hupdated
  have hnone : s.writeFailed = 0 := by
    rw [hm.writeFailed, List.countP_eq_zero]
    exact fun w hw => by simp [(hidle w hw).isComplete]
  refine ⟨⟨hcreated, hadded, hremoved, hnone, ?_⟩, hupdated⟩
  obtain ⟨f, -, hwrites⟩ := hm.written
  rw [hcount, hm.submitted, hwrites.length_eq]
  exact Nat.zero_add _

theorem settled_isIdle (hs : s.IsIdle) (x : Except Failure Bool) : (settled s x).IsIdle := by
  rcases x with _ | _ | _ <;> exact ⟨hs.created, hs.rangesAdded, hs.rangesRemoved,
    hs.writeFailed, hs.counted⟩

/-- What is held of a regular report is steady, unless an older copy had a NaN where the report
gives nothing. -/
theorem isSteady_of_holds {l m : Ledger} {x : Report} {row : Advisory} (hx : x.1.IsRegular)
    (hl : ∀ copy, l.copy? x.1.naturalKey = some copy → copy.HasKnownEpss)
    (hm : ∃ next row, row = (x.1.comesTo next (l.copy? x.1.naturalKey)).1 ∧ m.Holds x row)
    (hcopy : m.copy? x.1.naturalKey = some row) : row.IsSteady := by
  obtain ⟨next, row', rfl, hrow⟩ := hm
  obtain rfl := Option.some.inj (hrow.copy.symm.trans hcopy)
  exact Advisory.isSteady_comesTo hx hl

/-- A feed is mirrored by a run that succeeds and writes everything, from any ledger that reports
and refreshes lead to. Run on the same pages again, with any queue and any schedule, a refresh
creates nothing and neither adds nor removes a range; it counts each report as unchanged or as
updated, and leaves all tables as they are but for when attributions of the ranges in the feed were
last seen. Unless there is a NaN in a report, or in what a stored copy has for a score that no
report gives, it finds all reports unchanged, and tells the index of no change. -/
theorem run_repeated (r' : Refresh) (again : Site FaultyLedger) (hl : site.store.ledger.Reached)
    (hd : FeedAnswer.delivered 0 site.answers = some items)
    (hi : ∀ x ∈ items.filterMap reported?, ∀ q ∈ x.2, q.identity? ≠ none)
    (hn : ((items.filterMap reported?).map fun x => x.1.vulnId).Nodup)
    (hs : (r.run site).result = .ok s) (hsuccess : s.isSuccess = true)
    (hwritten : s.writeFailed = 0)
    (hw : r'.watermark = r.watermark)
    (hagain : again.store.ledger = (r.run site).state.store.ledger)
    (hf : again.store.faults = .none) (ha : again.answers = site.answers) :
    ∃ s', (r'.run again).result = .ok s' ∧ s'.IsIdle ∧
      ((r'.opened again).result.isOk = true →
        s'.isSuccess = true ∧ s'.tally.submitted = (items.filterMap reported?).length) ∧
      SeenAgain (IsOfFeed again.store.ledger (items.filterMap reported?)) again.store.ledger
        (r'.run again).state.store.ledger ∧
      ((∀ x ∈ items.filterMap reported?, x.1.IsRegular ∧
          ∀ copy, site.store.ledger.copy? x.1.naturalKey = some copy → copy.HasKnownEpss) →
        s'.tally.updated = 0 ∧ s'.tally.unchanged = s'.tally.submitted ∧
          ∀ n ∈ (r'.run again).notices, n.action = .commit) := by
  have hfaithful : again.store.ledger.IsFaithful := hagain ▸ run_isFaithful r hl.isFaithful
  obtain ⟨hall, ws₀, done₀, ns₀, s₀, moved, hm₀, hmoved, hfailed⟩ :=
    mirrored_of_success hd hs hsuccess
  have hholds := hm₀.holds hl.isFaithful (hfailed ▸ hwritten) hi hn
  rw [← hagain] at hholds
  cases ho : (r'.opened again).result with
  | error e =>
    -- the feed is not even asked: the watermark, say, is too late for a window to begin with it
    obtain ⟨previous, hresult, hstate, hnotices⟩ := run_of_unopened ho
    refine ⟨_, hresult, ⟨rfl, rfl, rfl, rfl, rfl⟩, fun h => ?_, ?_, fun _ => ⟨rfl, rfl, ?_⟩⟩
    · cases h
    · rw [hstate, (r'.opened_alike again).store.ledger]
      exact .refl _ _
    · rw [hnotices]
      simp
  | ok c =>
    obtain ⟨ws, done, ns, s', hm⟩ := mirrored_of_delivered ho (ha ▸ hd) hall
    have hproperty : ∀ t, latest items = some t →
      (properties again).get? (r'.watermark.group, r'.watermark.name) =
        some (some (toString t.wholeEpochSeconds)) := by
      intro t ht
      rw [ht] at hmoved
      rw [properties, hagain, hm₀.state, ht, hw]
      exact property_of_advance hmoved
    have hheld : ∀ x ∈ items.filterMap reported?, ∃ row, again.store.ledger.Holds x row := by
      intro x hx
      obtain ⟨next, row, -, hrow⟩ := hholds x hx
      exact ⟨row, hrow⟩
    obtain ⟨hidle, hunchanged, hseen, moved', hmoved'⟩ := hm.idle hfaithful hf hheld hi hproperty
    have hresult := hm.result
    rw [hmoved'] at hresult
    obtain ⟨hsummary, hupdated⟩ := hm.isIdle hidle
    refine ⟨_, hresult, settled_isIdle hsummary _, fun _ => ⟨?_, ?_⟩, hseen, fun hregular => ?_⟩
    · cases moved' <;> simp [settled, RefreshSummary.isSuccess, hm.failure]
    · rw [settled_tally, hm.submitted]
    · obtain ⟨houtcomes, rfl⟩ := hunchanged fun x hx row hcopy =>
        isSteady_of_holds (hregular x hx).1 (hregular x hx).2 (hholds x hx) hcopy
      rw [settled_tally]
      refine ⟨hupdated houtcomes, ?_, ?_⟩
      · rw [← hsummary.counted, hupdated houtcomes, Nat.zero_add]
      · rw [hm.notices, hmoved', List.nil_append]
        cases moved' <;> simp [heard, committed]

end Refresh

/-- A record with a time of modification, a score and a range. -/
def fullRecord : Json := .object [("cve",
      .object [("id", .text " CVE-1"), ("lastModified", .text "2024-01-02T00:00:00.000"),
  ("metrics", .object [("cvssMetricV31",
    .list [.object [("cvssData", .object [("baseScore", .text "9.8")])]])]),
  ("configurations", .list [.object [("nodes", .list [.object [("cpeMatch", .list [.object
    [("vulnerable", .flag true), ("criteria", .text "cpe:2.3:a:v:p:1:*:*:*:*:*:*:*")]])]])]])])]

/-- The site where a refresh has been, with the same answers and no faults. -/
def Site.once (site : Site FaultyLedger) : Site FaultyLedger :=
  { site with store := { ledger := (({} : Refresh).run site).state.store.ledger } }

theorem Site.once_ledger (site : Site FaultyLedger) :
    site.once.store.ledger = (({} : Refresh).run site).state.store.ledger := rfl

theorem Site.once_faults (site : Site FaultyLedger) : site.once.store.faults = .none := rfl

theorem Site.once_answers (site : Site FaultyLedger) : site.once.answers = site.answers := rfl

def Report.isRegular (x : Report) : Bool :=
  (Column.all.all fun c => (x.1.cell c).isProper) && x.1.cvss2.vector.isHashable &&
    x.1.cvss3.vector.isHashable &&
    x.1.owasp.vector.isHashable

theorem Report.isRegular_of_decide {x : Report} (h : x.isRegular = true) : x.1.IsRegular := by
  simp only [isRegular, Bool.and_eq_true] at h
  obtain ⟨⟨⟨hproper, hcvss2⟩, hcvss3⟩, howasp⟩ := h
  exact ⟨fun c => List.all_eq_true.mp hproper c (by cases c <;> decide), hcvss2, hcvss3, howasp⟩

theorem delivered_fullRecord :
    FeedAnswer.delivered 0 [.ofPage 1 [fullRecord]] = some [fullRecord] := rfl

theorem isRegular_fullRecord : ∀ x ∈ [fullRecord].filterMap Record.reported?, x.1.IsRegular := by
  have hall : ([fullRecord].filterMap Record.reported?).all Report.isRegular =
    true := by decide +kernel
  exact fun x hx => Report.isRegular_of_decide (List.all_eq_true.mp hall x hx)

theorem run_repeated_fullRecord :
    ∃ s', (({} : Refresh).run (Site.once (.ofAnswers [.ofPage 1 [fullRecord]]))).result = .ok s' ∧
      s'.isSuccess = true ∧ s'.tally.created = 0 ∧ s'.tally.updated = 0 ∧
        s'.tally.unchanged = 1 := by
  obtain ⟨s, hs, h⟩ := Refresh.summary_of_decide (.ofAnswers [.ofPage 1 [fullRecord]])
    (fun s => s.isSuccess && s.writeFailed = 0) (by decide +kernel)
  simp only [Bool.and_eq_true, decide_eq_true_eq] at h
  have hopened : (({} : Refresh).opened
      (Site.once (.ofAnswers [.ofPage 1 [fullRecord]]))).result.isOk = true := by
    decide +kernel
  have hlength : ([fullRecord].filterMap Record.reported?).length = 1 := by decide +kernel
  obtain ⟨s', hs', hidle, hsucceeds, -, hregular⟩ := Refresh.run_repeated {}
    (Site.once (.ofAnswers [.ofPage 1 [fullRecord]])) Reached.empty delivered_fullRecord
      (by decide +kernel)
    (by decide +kernel) hs h.1 h.2 rfl (Site.once_ledger _) (Site.once_faults _)
      (Site.once_answers _)
  obtain ⟨hsuccess, hsubmitted⟩ := hsucceeds hopened
  obtain ⟨hupdated, hunchanged, -⟩ :=
    hregular fun x hx => ⟨isRegular_fullRecord x hx, fun copy hcopy => by cases hcopy⟩
  exact ⟨s', hs', hsuccess, hidle.created, hupdated, by rw [hunchanged, hsubmitted, hlength]⟩

/-- A copy without a known EPSS score: somebody has reported a NaN for it. -/
def nanScored : FaultyLedger := (({ vulnId := "CVE-1", epssScore := some .nan } : Advisory).reconcile {}).state

/-- The feed says nothing of the NaN, and each refresh counts the copy as updated. -/
theorem run_repeated_nanScored :
    nanScored.ledger.Reached ∧ nanScored.faults = .none ∧
      FeedAnswer.delivered 0 [.ofPage 1 [fullRecord]] = some [fullRecord] ∧
      (∀ x ∈ [fullRecord].filterMap Record.reported?, x.1.IsRegular) ∧
      ∃ s s', (({} : Refresh).run
          { Site.ofAnswers [.ofPage 1 [fullRecord]] with store := nanScored }).result = .ok s ∧
        s.isSuccess = true ∧ s.writeFailed = 0 ∧
        (({} : Refresh).run
          (Site.once { Site.ofAnswers [.ofPage 1 [fullRecord]] with store := nanScored })).result =
          .ok s' ∧ s'.isSuccess = true ∧ s'.tally.updated = 1 ∧ s'.tally.unchanged = 0 := by
  obtain ⟨s, hs, h⟩ := Refresh.summary_of_decide { Site.ofAnswers [.ofPage 1 [fullRecord]] with store := nanScored }
    (fun s => s.isSuccess && s.writeFailed = 0) (by decide +kernel)
  obtain ⟨s', hs', h'⟩ :=
    Refresh.summary_of_decide
      (Site.once { Site.ofAnswers [.ofPage 1 [fullRecord]] with store := nanScored })
      (fun s => s.isSuccess && s.tally.updated = 1 && s.tally.unchanged = 0) (by decide +kernel)
  simp only [Bool.and_eq_true, decide_eq_true_eq] at h h'
  exact ⟨.reconcile {} .empty _, Advisory.reconcile_faults (f := {}) wellKept_empty _,
    delivered_fullRecord,
    isRegular_fullRecord, s, s', hs, h.1, h.2, hs', h'.1.1, h'.1.2, h'.2⟩

end AdvisoryLedger

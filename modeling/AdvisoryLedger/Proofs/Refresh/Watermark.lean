import AdvisoryLedger.Proofs.Refresh.Sequential

namespace AdvisoryLedger

open Work

/-- Setting a property fails only where a fault strikes, and then changes nothing. -/
theorem FaultyLedger.setConfig_cases (s : FaultyLedger) (group name : String)
    (value : Option String) :
    ((s.transact (Call.ask (.setConfig group name value))).result = .ok () ∧
      (s.transact (Call.ask (.setConfig group name value))).state.ledger.config =
        s.ledger.config.put (group, name) value) ∨
    ∃ n e, s.faults .setConfig n = some e ∧
      (s.transact (Call.ask (.setConfig group name value))).result = .error e ∧
      (s.transact (Call.ask (.setConfig group name value))).state.ledger.config =
        s.ledger.config := by
  simp only [transact, Call.ask, Dialogue.call, Dialogue.run, answer, Call.involved, Call.kind,
    count]
  cases hf : s.faults .setConfig ((.setConfig :: s.made).count .setConfig) with
  | none => exact .inl ⟨rfl, rfl⟩
  | some e => exact .inr ⟨_, e, hf, rfl, rfl⟩

namespace Refresh

def properties (site : Site FaultyLedger) : Table (String × String) (Option String) :=
  site.store.ledger.config

variable {r : Refresh} {site start : Site FaultyLedger} {c : FeedClient} {h : Harvest}

/-- A client that has not asked for anything yet. -/
structure IsFresh (c : FeedClient) : Prop where
  start : c.start = 0
  total : c.total = none
  lastUpdated : c.lastUpdated = none

theorem isFresh_ofOptions {o : FeedOptions} (h : (FeedClient.ofOptions o).result = .ok c) :
    IsFresh c := by
  obtain ⟨apiKey, delay, window, rfl⟩ := FeedClient.ofOptions_ok h
  exact ⟨rfl, rfl, rfl⟩

theorem isFresh_of_opened {σ : Type} [Store σ] {site : Site σ}
    (ho : (r.opened site).result = .ok c) :
    IsFresh c := by
  obtain ⟨⟨url, key⟩, -, ho⟩ := result_bind_ok ho
  obtain ⟨since, -, ho⟩ := result_bind_ok ho
  obtain ⟨m, -, hc⟩ := Noted.result_bind_ok.mp ho
  obtain ⟨u, -, hc⟩ := Noted.result_bind_ok.mp hc
  exact isFresh_ofOptions hc

/-- The watermark moves, or there is nothing to move it to, or moving it fails and changes
nothing. -/
theorem advance_cases (w : Watermark) (m : Option Moment) (s : Site FaultyLedger) :
    (m = none ∧ (w.advance m s).result = .ok false ∧
      properties (w.advance m s).state = properties s) ∨
    (∃ n e, s.store.faults .setConfig n = some e ∧ (w.advance m s).result = .error e ∧
      properties (w.advance m s).state = properties s) ∨
    ∃ t, m = some t ∧ (w.advance m s).result = .ok true ∧ properties (w.advance m s).state =
      (properties s).put (w.group, w.name) (some (toString t.wholeEpochSeconds)) := by
  cases m with
  | none => exact .inl ⟨rfl, rfl, rfl⟩
  | some t =>
    right
    dsimp only [Watermark.advance]
    rw [log_bind]
    have hset {x : Except Failure Unit} (hx : (s.store.transact
        (Call.ask (.setConfig w.group w.name (some (toString t.wholeEpochSeconds))))).result = x) :
        (Work.transact none (Call.ask
          (.setConfig w.group w.name (some (toString t.wholeEpochSeconds)))) s).result = x :=
      hx
    rcases s.store.setConfig_cases w.group w.name (some (toString t.wholeEpochSeconds)) with
      ⟨hresult, hconfig⟩ | ⟨n, e, hfault, hresult, hconfig⟩
    · right
      rw [bind_of_ok (hset hresult)]
      exact ⟨t, rfl, rfl, hconfig⟩
    · left
      rw [bind_of_error (hset hresult)]
      exact ⟨n, e, hfault, rfl, hconfig⟩

/-- The times of modification that can be read from the items of the pages. -/
def stamps {σ : Type} [Store σ] (r : Refresh) (site : Site σ) : List Moment :=
  (r.pages site).flatten.filterMap lastModified?

/-- What a refresh does to the properties of the store and tells the index. -/
structure MovesWatermark (r : Refresh) (site : Site FaultyLedger) (s : RefreshSummary) : Prop where
  summary : (r.run site).result = .ok s
  advanced : s.isAdvanced = true ↔ s.isSuccess = true ∧ r.stamps site ≠ []
  latest : s.isAdvanced = true → ∃ m ∈ r.stamps site, (∀ x ∈ r.stamps site, x.instant ≤ m.instant) ∧
    properties (r.run site).state =
      (properties site).put (r.watermark.group, r.watermark.name)
        (some (toString m.wholeEpochSeconds))
  stays : s.isAdvanced = false → properties (r.run site).state = properties site
  notices : ∃ changes, (∀ n ∈ changes, n.IsChange) ∧
    (r.run site).notices = changes ++ if s.isAdvanced then [committed] else []

/-- Writing reports at the site where the feed was read changes no property, and tells the index of
changes. -/
theorem written_properties (hh : (r.opened site).state.harvest c = (h, start)) {ws : List Written}
    {done : Site FaultyLedger} {ts : List Trace}
    (hwritten : synchronizeAll h.reports start = ⟨.ok ws, done, ts⟩) :
    properties done = properties site ∧ ∀ n ∈ ts.filterMap Trace.notice?, n.IsChange := by
  have hbounded : Bounded (fun s : Site FaultyLedger => s.store.ledger.config) IndexNotice.IsChange
      (synchronizeAll h.reports) := synchronizeAll_bounded apartFromRows_config (fun _ _ => rfl) _
  have hpart := hbounded.part start
  have hnotices := hbounded.notices start
  rw [hwritten] at hpart hnotices
  exact ⟨hpart.trans (congrArg Ledger.config (alike_of_opened hh).store.ledger), hnotices⟩

theorem lastUpdated_of_read (ho : (r.opened site).result = .ok c)
    (hh : (r.opened site).state.harvest c = (h, start)) (he : h.ending = .ok ()) :
    h.client.lastUpdated = (r.stamps site).foldl Moment.later none := by
  obtain ⟨taken, -, hreads, hpages⟩ := reads_of_opened ho hh he
  rw [hreads.lastUpdated, (isFresh_of_opened ho).lastUpdated, stamps, hpages, List.flatMap_def]

theorem run_movesWatermark (r : Refresh) (site : Site FaultyLedger) :
    ∃ s, r.MovesWatermark site s := by
  cases ho : (r.opened site).result with
  | error e =>
    obtain ⟨previous, hresult, hstate, hnotices⟩ := run_of_unopened ho
    refine ⟨_, hresult, by simp [RefreshSummary.isSuccess], by simp, ?_, [], by simp, hnotices⟩
    intro _
    rw [hstate]
    exact congrArg Ledger.config (r.opened_alike site).store.ledger
  | ok c =>
    cases hh : (r.opened site).state.harvest c with
    | mk h start =>
      cases he : h.ending with
      | error e =>
        -- what was submitted before the failure is still written, and the index hears of that
        obtain ⟨since, ws, ts, hwritten, hresult, hnotices⟩ := run_of_broken ho hh he
        obtain ⟨hsame, hchanges⟩ := written_properties hh hwritten
        exact ⟨_, hresult, by simp [RefreshSummary.isSuccess, summaryOf], by simp [summaryOf],
          fun _ => hsame,
          _, hchanges, by simpa [summaryOf] using hnotices⟩
      | ok u =>
        obtain ⟨since, ws, done, ts, hwritten, hstate, hresult, hnotices⟩ := run_of_read ho hh he
        obtain ⟨hsame, hchanges⟩ := written_properties hh hwritten
        have hlast := lastUpdated_of_read ho hh he
        rcases advance_cases r.watermark h.client.lastUpdated done with
          ⟨hnone, hmoved, hkept⟩ | ⟨n, e, -, hmoved, hkept⟩ | ⟨m, hsome, hmoved, hput⟩
        · rw [hmoved] at hresult hnotices
          rw [hnone] at hlast
          have hstamps := (Moment.foldl_later_eq_none hlast.symm).1
          refine ⟨_, hresult, ?_, ?_, ?_, _, hchanges, hnotices⟩
          · simp [settled, summaryOf, hstamps]
          · simp [settled, summaryOf]
          · exact fun _ => hstate ▸ hkept.trans hsame
        · -- a fault strikes when the watermark is to be moved, and the refresh fails after all
          rw [hmoved] at hresult hnotices
          refine ⟨_, hresult, ?_, ?_, ?_, _, hchanges, hnotices⟩
          · simp [settled, summaryOf, RefreshSummary.isSuccess]
          · simp [settled, summaryOf]
          · exact fun _ => hstate ▸ hkept.trans hsame
        · rw [hmoved] at hresult hnotices
          rw [hsome] at hlast
          obtain ⟨hfrom, hlatest, -⟩ := Moment.foldl_later hlast.symm
          have hmem : m ∈ r.stamps site := hfrom.resolve_right (by simp)
          refine ⟨_, hresult, ?_, ?_, ?_, _, hchanges, hnotices⟩
          · simp [settled, summaryOf, RefreshSummary.isSuccess, List.ne_nil_of_mem hmem]
          · exact fun _ => ⟨m, hmem, hlatest, by rw [hstate, hput, hsame]⟩
          · simp [settled]

end Refresh

end AdvisoryLedger

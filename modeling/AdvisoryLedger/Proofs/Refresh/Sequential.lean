import AdvisoryLedger.Proofs.Refresh.Run

namespace AdvisoryLedger

open Work

def Ledger.rows (l : Ledger) :
    Table Int Advisory × Table Int AffectedRange × Table Int Attribution × Table Int RowSet :=
  (l.advisories, l.ranges, l.attributions, l.associations)

/-- Setting a property leaves all rows alone, whether or not it succeeds. -/
theorem FaultyLedger.setConfig_rows (s : FaultyLedger) (group name : String)
    (value : Option String) :
    (s.transact (Call.ask (.setConfig group name value))).state.ledger.rows = s.ledger.rows := by
  simp only [transact, Call.ask, Dialogue.call, Dialogue.run, answer, Call.involved, Call.kind,
    count]
  cases s.faults .setConfig ((.setConfig :: s.made).count .setConfig) <;> rfl

namespace Refresh

section Reports

variable {σ : Type} [Store σ]

/-- The pages that the client of a refresh gets. Without a client there are none. -/
def pages (r : Refresh) (site : Site σ) : List (List Json) :=
  match (r.opened site).result with
  | .ok c => c.pages site.answers
  | .error _ => []

/-- What their items are found to be, up to the first that ends the reading. -/
def readings (r : Refresh) (site : Site σ) : List (Except Failure (Option Report)) :=
  Record.readings (r.pages site).flatten

/-- The reports among them, in the order of the feed. -/
def reports (r : Refresh) (site : Site σ) : List Report :=
  (r.readings site).filterMap Record.report?

variable {r : Refresh} {site start : Site σ} {c : FeedClient} {h : Harvest}

theorem found_of_opened (ho : (r.opened site).result = .ok c)
    (hh : (r.opened site).state.harvest c = (h, start)) : h.found = r.readings site := by
  have hstate := r.opened_state site
  obtain ⟨rfl, -⟩ := Prod.mk.inj hh
  rw [readings, pages, ho, Harvest.found_read, hstate]

/-- A reading that ends well took its pages from the first answers of the feed. -/
theorem reads_of_opened (ho : (r.opened site).result = .ok c)
    (hh : (r.opened site).state.harvest c = (h, start)) (he : h.ending = .ok ()) :
    ∃ taken, site.answers = taken ++ h.answers ∧ c.Reads taken h.client ∧
      r.pages site = taken.map FeedAnswer.records := by
  have hstate := r.opened_state site
  obtain ⟨rfl, -⟩ := Prod.mk.inj hh
  obtain ⟨taken, hanswers, hreads⟩ := Harvest.reads he
  have htaken : site.answers = taken ++
    (Harvest.read (r.opened site).state.silence c (r.opened site).state.now
      (r.opened site).state.answers).answers := by
    rw [← hanswers, hstate]
  refine ⟨taken, htaken, hreads, ?_⟩
  rw [pages, ho, htaken]
  exact hreads.pages_eq _

end Reports

variable {r : Refresh} {site start : Site FaultyLedger} {c : FeedClient} {h : Harvest}

/-- Getting ready to read the feed makes no difference to what is written. -/
theorem opened_alike (r : Refresh) (site : Site FaultyLedger) :
    (r.opened site).state.Alike site := by
  have hasked := (opened_quiet (fun s : Site FaultyLedger => s.store.unasked) (r := r) fun s =>
    s.store.getConfig_unasked _ _).part site
  rw [r.opened_state site]
  exact ⟨FaultyLedger.alike_of_unasked hasked, rfl, rfl⟩

/-- The client of a refresh reads the feed at a site like the one at which the refresh begins. -/
theorem alike_of_opened (hh : (r.opened site).state.harvest c = (h, start)) : start.Alike site := by
  have halike := r.opened_alike site
  obtain ⟨-, rfl⟩ := Prod.mk.inj hh
  exact ⟨halike.store, halike.clock, halike.readings⟩

/-- Rows are written as if one report after the other. -/
structure Sequential (r : Refresh) (site : Site FaultyLedger) (s : RefreshSummary)
    (ws : List Written) : Prop where
  summary : (r.run site).result = .ok s
  written : (synchronizeAll (r.reports site) site).result = .ok ws
  rows : (r.run site).state.store.ledger.rows =
    (synchronizeAll (r.reports site) site).state.store.ledger.rows
  /-- Every report that was submitted has been written, or has failed, once. -/
  submitted : s.tally.submitted = ws.length
  writeFailed : s.writeFailed = ws.countP fun w => !w.isComplete
  tally : s.tally = ws.foldl Tally.countWritten (.ofReadings (r.readings site))

/-- A summary of what has been written from where the client read the feed. -/
theorem sequential_of_summaryOf (ho : (r.opened site).result = .ok c)
    (hh : (r.opened site).state.harvest c = (h, start)) (since : Int) {ws : List Written}
    {done : Site FaultyLedger} {ts : List Trace}
    (hwritten : synchronizeAll h.reports start = ⟨.ok ws, done, ts⟩)
    {s : RefreshSummary} (hs : (r.run site).result = .ok s)
    (htally : s.tally = (summaryOf since h ws).tally)
    (hfailed : s.writeFailed = (summaryOf since h ws).writeFailed)
    (hrows : (r.run site).state.store.ledger.rows = done.store.ledger.rows) :
    r.Sequential site s ws := by
  have hfound := found_of_opened ho hh
  have hreports : h.reports = r.reports site := by rw [h.reports_eq, hfound, reports]
  rw [hreports] at hwritten
  have hsame := synchronizeAll_respects (r.reports site) start site (alike_of_opened hh)
  rw [hwritten] at hsame
  refine ⟨hs, hsame.result.symm, ?_, ?_, hfailed, ?_⟩
  · rw [hrows]
    exact congrArg Ledger.rows hsame.state.store.ledger
  · rw [htally, length_synchronizeAll hwritten, ← hreports, h.reports_eq]
    exact (Tally.foldl_countWritten_counts ws _).2.1
  · rw [htally, summaryOf, hfound]

/-- A refresh that reads the whole feed: what is left is up to the watermark, which is no matter of
rows. -/
theorem sequential_of_read (ho : (r.opened site).result = .ok c)
    (hh : (r.opened site).state.harvest c = (h, start)) (he : h.ending = .ok ()) :
    ∃ since ws done ts, synchronizeAll h.reports start = ⟨.ok ws, done, ts⟩ ∧
      r.Sequential site (settled { summaryOf since h ws with lastModified := h.client.lastUpdated }
        (r.watermark.advance h.client.lastUpdated done).result) ws := by
  obtain ⟨since, ws, done, ts, hwritten, hstate, hresult, -⟩ := run_of_read ho hh he
  have hrows := (advance_quiet (fun s : Site FaultyLedger => s.store.ledger.rows) (w := r.watermark)
    (fun s value => s.store.setConfig_rows _ _ value) h.client.lastUpdated).part done
  exact ⟨since, ws, done, ts, hwritten,
    sequential_of_summaryOf ho hh since hwritten hresult (settled_tally _ _)
    (settled_writeFailed _ _) (hstate ▸ hrows)⟩

/-- Whatever the schedule and the room in the queue, whatever the feed answers and whatever faults
strike the store: a refresh comes to a summary, and has written each of its reports once and in
their order. -/
theorem run_sequential (r : Refresh) (site : Site FaultyLedger) :
    ∃ s ws, r.Sequential site s ws := by
  cases ho : (r.opened site).result with
  | error e =>
    obtain ⟨previous, hresult, hstate, -⟩ := run_of_unopened ho
    have hreports : r.readings site = [] := by rw [readings, pages, ho]; rfl
    refine ⟨_, [], hresult, ?_, ?_, rfl, rfl, ?_⟩
    · rw [reports, hreports]
      rfl
    · rw [hstate, reports, hreports]
      exact congrArg Ledger.rows (r.opened_alike site).store.ledger
    · rw [hreports]
      rfl
  | ok c =>
    cases hh : (r.opened site).state.harvest c with
    | mk h start =>
      cases he : h.ending with
      | error e =>
        obtain ⟨since, ws, ts, hwritten, hresult, -⟩ := run_of_broken ho hh he
        exact ⟨_, ws, sequential_of_summaryOf ho hh since hwritten hresult rfl rfl rfl⟩
      | ok u =>
        obtain ⟨since, ws, done, ts, -, hsequential⟩ := sequential_of_read ho hh he
        exact ⟨_, ws, hsequential⟩

end Refresh

end AdvisoryLedger

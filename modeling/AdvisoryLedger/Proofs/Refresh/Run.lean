import AdvisoryLedger.Proofs.Feed.Reading
import AdvisoryLedger.Proofs.Refresh.Pipeline
import AdvisoryLedger.Refresh.Run

namespace AdvisoryLedger

open Work

namespace Tally

/-- The counts when items have been read and none of the reports among them has been written. -/
def ofReadings (readings : List (Except Failure (Option Report))) : Tally where
  received := readings.length
  submitted := (readings.filterMap Record.report?).length
  unconvertible := readings.countP Record.isSkipped

/-- The counts after some events, apart from what becomes of reports. -/
theorem foldl_meet (events : List FeedEvent) (t : Tally) : events.foldl meet t = { t with
    received := t.received + (events.filterMap FeedEvent.item?).length
    submitted := t.submitted + (events.filterMap FeedEvent.report?).length
    unconvertible := t.unconvertible +
      (events.filterMap FeedEvent.item?).countP Record.isSkipped } := by
  induction events generalizing t with
  | nil => rfl
  | cons e rest ih =>
    rw [List.foldl_cons, ih]
    rcases e with _ | _ | (f | _ | r)
    · rfl
    · rfl
    · cases hf : f.isSkippable <;>
        simp [meet, receive, skip, hf, List.filterMap_cons, FeedEvent.item?, FeedEvent.report?,
          Record.isSkipped, Nat.add_assoc, Nat.add_comm 1]
    · simp [meet, receive, List.filterMap_cons, FeedEvent.item?, FeedEvent.report?,
        Record.isSkipped, Nat.add_assoc, Nat.add_comm 1]
    · simp [meet, receive, submit, FeedEvent.item?, FeedEvent.report?, Record.isSkipped,
        Nat.add_assoc, Nat.add_comm 1]

/-- Writing reports leaves alone what was counted when they were read. -/
theorem foldl_countWritten_counts (ws : List Written) (t : Tally) :
    (ws.foldl countWritten t).received = t.received ∧
      (ws.foldl countWritten t).submitted = t.submitted ∧
      (ws.foldl countWritten t).unconvertible = t.unconvertible := by
  induction ws generalizing t with
  | nil => exact ⟨rfl, rfl, rfl⟩
  | cons w rest ih =>
    rw [List.foldl_cons]
    obtain ⟨hreceived, hsubmitted, hskipped⟩ := ih (t.countWritten w)
    rw [hreceived, hsubmitted, hskipped]
    obtain ⟨outcome, ranges⟩ := w
    rcases outcome with _ | _ | _ | _ <;> cases ranges <;> exact ⟨rfl, rfl, rfl⟩

theorem foldl_meet_events (h : Harvest) : h.events.foldl meet {} = ofReadings h.found := by
  rw [foldl_meet, ofReadings, ← h.reports_eq]
  simp [Harvest.found, Harvest.reports]

end Tally

namespace Refresh

theorem logAll_eq {σ : Type} (entries : List LogEntry) (s : Site σ) :
    logAll entries s = ⟨.ok (), s, entries.map .entry⟩ := by
  induction entries with
  | nil => rfl
  | cons entry rest ih =>
    have hlog : (Work.log entry s).result = .ok () := rfl
    rw [logAll, bind_of_ok hlog]
    change { logAll rest s with traces := [Trace.entry entry] ++ (logAll rest s).traces } = _
    rw [ih]
    rfl

variable {σ : Type} [Store σ]

/-- What comes before the feed is read: where it is, up to when it is known, and the client. -/
def opened (r : Refresh) : Work (Site σ) FeedClient := do
  let (url, key) ← Work.ofNoted r.access
  let since ← r.watermark.load
  Work.ofNoted (r.client url key since)

section Bounded

variable {α τ : Type} (part : Site σ → τ)

/-- The work tells the index nothing, and leaves a part of the site alone. -/
abbrev Quiet (w : Work (Site σ) α) : Prop := Bounded part (fun _ => False) w

theorem load_quiet {w : Watermark} (h : ∀ s : Site σ,
    part (Store.transact none (Call.ask (.getConfig w.group w.name)) s).state = part s) :
      Quiet part w.load :=
  (Bounded.transact h).bind fun _ => Bounded.ofNoted _

theorem advance_quiet {w : Watermark} (h : ∀ (s : Site σ) value,
    part (Store.transact none (Call.ask (.setConfig w.group w.name value)) s).state = part s)
    (m : Option Moment) : Quiet part (w.advance m) := by
  cases m with
  | none => exact (Bounded.log _).bind fun _ => Bounded.pure _
  | some m =>
    exact (Bounded.log _).bind fun _ => (Bounded.transact fun s => h s _).bind fun _ =>
      Bounded.pure _

theorem opened_quiet {r : Refresh} (h : ∀ s : Site σ,
    part (Store.transact none (Call.ask (.getConfig r.watermark.group r.watermark.name)) s).state =
      part s) :
    Quiet part r.opened := by
  refine (Bounded.ofNoted r.access).bind fun access => ?_
  exact (load_quiet part h).bind fun since => Bounded.ofNoted _

end Bounded

variable {r : Refresh} {site : Site σ}

theorem opened_state (r : Refresh) (site : Site σ) :
    (r.opened site).state = { site with store := (r.opened site).state.store } := by
  have h := (opened_quiet (fun s : Site σ => { s with store := site.store }) (r := r) fun _ => rfl).part site
  exact congrArg (fun s : Site σ => { s with store := (r.opened site).state.store }) h

/-- A refresh gets to read the feed or does not, and then comes to its summary at once. -/
theorem body_cases (r : Refresh) (site : Site σ) :
    (∃ e previous, (r.opened site).result = .error e ∧
      (r.body site).result = .ok { previousWatermark := previous, failure := some e } ∧
      (r.body site).state = (r.opened site).state ∧ (r.body site).notices = []) ∨
    ∃ c since, (r.opened site).result = .ok c ∧
      (r.body site).result = (r.transferSince c since (r.opened site).state).result ∧
      (r.body site).state = (r.transferSince c since (r.opened site).state).state ∧
      (r.body site).notices = (r.transferSince c since (r.opened site).state).notices := by
  unfold opened body
  rw [notices_attempt_bind, attempt_bind, result_ofNoted, notices_ofNoted]
  cases ha : r.access.result with
  | error e =>
    rw [bind_of_error ha]
    exact .inl ⟨e, none, rfl, rfl, rfl, rfl⟩
  | ok access =>
    obtain ⟨url, key⟩ := access
    rw [bind_of_ok ha]
    dsimp only
    rw [notices_attempt_bind, attempt_bind, (load_quiet (fun _ => ()) fun _ => rfl).notices_eq_nil]
    cases hl : (r.watermark.load (Work.ofNoted r.access site).state).result with
    | error e =>
      rw [bind_of_error hl]
      exact .inl ⟨e, none, rfl, rfl, rfl, rfl⟩
    | ok since =>
      rw [bind_of_ok hl]
      dsimp only
      rw [notices_attempt_bind, attempt_bind, result_ofNoted, notices_ofNoted]
      cases hc : (r.client url key since).result with
      | error e => exact .inl ⟨e, some since, rfl, rfl, rfl, rfl⟩
      | ok c => exact .inr ⟨c, since, rfl, rfl, rfl, rfl⟩

theorem body_of_opened {c : FeedClient} (h : (r.opened site).result = .ok c) : ∃ since,
    (r.body site).result = (r.transferSince c since (r.opened site).state).result ∧
      (r.body site).state = (r.transferSince c since (r.opened site).state).state ∧
      (r.body site).notices = (r.transferSince c since (r.opened site).state).notices := by
  rcases body_cases r site with ⟨e, previous, he, -⟩ | ⟨c', since, hc, hbody⟩
  · rw [h] at he
    cases he
  · obtain rfl := Except.ok.inj (hc.symm.trans h)
    exact ⟨since, hbody⟩

theorem run_of_body {s : RefreshSummary} (h : (r.body site).result = .ok s) :
    (r.run site).result = .ok s ∧ (r.run site).state = (r.body site).state ∧
      (r.run site).notices = (r.body site).notices := by
  unfold run
  generalize note .info _ = first
  have hfirst : (Work.log first site).result = .ok () := rfl
  have hbody : (r.body (Work.log first site).state).result = .ok s := h
  rw [notices_bind_of_ok hfirst, bind_of_ok hfirst, notices_bind_of_ok hbody, bind_of_ok hbody]
  generalize (s.failure.map failureEntry).toList ++ s.entries = last
  have hlast (s' : Site σ) : (logAll last s').result = .ok () := by rw [logAll_eq]
  rw [notices_bind_of_ok (hlast _), bind_of_ok (hlast _), logAll_eq]
  refine ⟨rfl, rfl, ?_⟩
  have hentries (x : Site σ) :
      (⟨.ok (), x, last.map .entry⟩ : Outcome (Site σ) Unit).notices = [] :=
    Work.notices_entries last
  rw [hentries]
  exact List.append_nil _

/-- A transfer brings to the store what was harvested, one report after the other. -/
theorem transfer_sequential (c : FeedClient) {h : Harvest} {start : Site σ}
    (hh : site.harvest c = (h, start)) :
    ∃ ws ts, synchronizeAll h.reports start = ⟨.ok ws, (r.transfer c site).state, ts⟩ ∧
      (r.transfer c site).result = .ok ⟨ws.foldl Tally.countWritten (.ofReadings h.found),
        ws.countP (fun w => !w.isComplete), h.client.lastUpdated, h.ending⟩ ∧
      (r.transfer c site).notices = ts.filterMap Trace.notice? := by
  obtain ⟨ws, ts, hwritten, htally, hfailed, hnotices⟩ :=
    Pipeline.finish_sequential r.bound h.events h.ending start r.schedule rfl
  have htransfer : r.transfer c site =
      let p := (Pipeline.fresh r.bound h.events h.ending start).finish r.schedule
      ⟨.ok ⟨p.tally, p.lane.failed, h.client.lastUpdated, h.ending⟩, p.site, p.traces⟩ := by
    simp only [transfer, hh]
    rfl
  rw [Tally.foldl_meet_events] at htally
  rw [htransfer]
  refine ⟨ws, ts, hwritten, ?_, hnotices⟩
  dsimp only
  rw [htally, hfailed]

/-- What a refresh has to report on a harvest when its reports have been written. -/
def summaryOf (since : Int) (h : Harvest) (ws : List Written) : RefreshSummary where
  previousWatermark := some since
  tally := ws.foldl Tally.countWritten (.ofReadings h.found)
  writeFailed := ws.countP fun w => !w.isComplete

def committed : IndexNotice := ⟨.commit, none, "Vulnerability"⟩

def settled (s : RefreshSummary) : Except Failure Bool → RefreshSummary
  | .error e => { s with failure := some e }
  | .ok false => s
  | .ok true => { s with isAdvanced := true }

theorem settled_tally (s : RefreshSummary) (x : Except Failure Bool) :
    (settled s x).tally = s.tally := by
  rcases x with _ | _ | _ <;> rfl

theorem settled_writeFailed (s : RefreshSummary) (x : Except Failure Bool) :
    (settled s x).writeFailed = s.writeFailed := by
  rcases x with _ | _ | _ <;> rfl

def heard : Except Failure Bool → List IndexNotice
  | .ok true => [committed]
  | _ => []

theorem conclude_eq (s : RefreshSummary) (x : Site σ) :
    (r.conclude s x).result = .ok (settled s (r.watermark.advance s.lastModified x).result) ∧
      (r.conclude s x).state = (r.watermark.advance s.lastModified x).state ∧
      (r.conclude s x).notices = heard (r.watermark.advance s.lastModified x).result := by
  unfold conclude
  rw [notices_attempt_bind, attempt_bind,
    (advance_quiet (fun _ => ()) (fun _ _ => rfl) _).notices_eq_nil]
  cases (r.watermark.advance s.lastModified x).result with
  | error e => exact ⟨rfl, rfl, rfl⟩
  | ok moved => cases moved <;> exact ⟨rfl, rfl, rfl⟩

variable {c : FeedClient} {h : Harvest} {start : Site σ}

theorem run_of_unopened {e : Failure} (ho : (r.opened site).result = .error e) :
    ∃ previous, (r.run site).result = .ok { previousWatermark := previous, failure := some e } ∧
      (r.run site).state = (r.opened site).state ∧ (r.run site).notices = [] := by
  rcases body_cases r site with ⟨e', previous, he, hresult, hstate, hnotices⟩ | ⟨c, since, hc, -⟩
  · obtain rfl := Except.error.inj (he.symm.trans ho)
    obtain ⟨hrun, hsite, htells⟩ := run_of_body hresult
    exact ⟨previous, hrun, hsite.trans hstate, htells.trans hnotices⟩
  · rw [ho] at hc
    cases hc

/-- A reading that breaks off ends the refresh when all that came before has been written. -/
theorem run_of_broken (ho : (r.opened site).result = .ok c)
    (hh : (r.opened site).state.harvest c = (h, start)) {e : Failure} (he : h.ending = .error e) :
    ∃ since ws ts, synchronizeAll h.reports start = ⟨.ok ws, (r.run site).state, ts⟩ ∧
      (r.run site).result = .ok { summaryOf since h ws with failure := some e } ∧
      (r.run site).notices = ts.filterMap Trace.notice? := by
  obtain ⟨since, hresult, hstate, hnotices⟩ := body_of_opened ho
  obtain ⟨ws, ts, hwritten, htransfer, htold⟩ := transfer_sequential c hh (r := r)
  have hsince : r.transferSince c since (r.opened site).state =
      ⟨.ok { summaryOf since h ws with failure := some e },
        (r.transfer c (r.opened site).state).state,
        (r.transfer c (r.opened site).state).traces ++ []⟩ := by
    unfold transferSince
    rw [bind_of_ok htransfer]
    simp only [he]
    rfl
  rw [hsince] at hresult hstate hnotices
  obtain ⟨hrun, hsite, htells⟩ := run_of_body hresult
  refine ⟨since, ws, ts, ?_, hrun, ?_⟩
  · rw [hsite, hstate]
    exact hwritten
  · rw [htells, hnotices, ← htold, Outcome.notices, List.append_nil]
    rfl

/-- When the whole feed has been read and written, it is up to the watermark. -/
theorem run_of_read (ho : (r.opened site).result = .ok c)
    (hh : (r.opened site).state.harvest c = (h, start)) (he : h.ending = .ok ()) :
    ∃ since ws done ts, synchronizeAll h.reports start = ⟨.ok ws, done, ts⟩ ∧
      (r.run site).state = (r.watermark.advance h.client.lastUpdated done).state ∧
      (r.run site).result =
        .ok (settled { summaryOf since h ws with lastModified := h.client.lastUpdated }
        (r.watermark.advance h.client.lastUpdated done).result) ∧
      (r.run site).notices = ts.filterMap Trace.notice? ++
        heard (r.watermark.advance h.client.lastUpdated done).result := by
  obtain ⟨since, hresult, hstate, hnotices⟩ := body_of_opened ho
  obtain ⟨ws, ts, hwritten, htransfer, htold⟩ := transfer_sequential c hh (r := r)
  obtain ⟨hconclude, hmoved, hcommitted⟩ := conclude_eq (r := r) (x := (r.transfer c (r.opened site).state).state)
    { summaryOf since h ws with lastModified := h.client.lastUpdated }
  have hsince : r.transferSince c since (r.opened site).state =
      { r.conclude { summaryOf since h ws with lastModified := h.client.lastUpdated }
          (r.transfer c (r.opened site).state).state with
        traces := (r.transfer c (r.opened site).state).traces ++
          (r.conclude { summaryOf since h ws with lastModified := h.client.lastUpdated }
            (r.transfer c (r.opened site).state).state).traces } := by
    unfold transferSince
    rw [bind_of_ok htransfer]
    simp only [he]
    rfl
  rw [hsince] at hresult hstate hnotices
  obtain ⟨hrun, hsite, htells⟩ := run_of_body (hresult.trans hconclude)
  refine ⟨since, ws, _, ts, hwritten, ?_, hrun, ?_⟩
  · rw [hsite, hstate]
    exact hmoved
  · rw [htells, hnotices, ← htold, ← hcommitted, Outcome.notices, Outcome.notices, Outcome.notices,
      List.filterMap_append]

end Refresh

end AdvisoryLedger

import AdvisoryLedger.Proofs.Refresh.Watermark

namespace AdvisoryLedger

open Work

namespace Refresh

variable {σ : Type} [Store σ]

/-- Moving the watermark and writing reports leave the answers of the feed alone. -/
theorem answers_of_read {r : Refresh} {site start done : Site σ} {c : FeedClient} {h : Harvest}
    (hh : (r.opened site).state.harvest c = (h, start)) {ws : List Written} {ts : List Trace}
    (hwritten : synchronizeAll h.reports start = ⟨.ok ws, done, ts⟩) (m : Option Moment) :
    (r.watermark.advance m done).state.answers = h.answers := by
  have hmoved := (advance_quiet (fun s : Site σ => s.answers) (w := r.watermark) (fun _ _ => rfl) m).part done
  have hbounded : Bounded (fun s : Site σ => s.answers) IndexNotice.IsChange
      (synchronizeAll h.reports) :=
    synchronizeAll_bounded apartFromRows_answers (fun _ _ => rfl) _
  have hdone := hbounded.part start
  rw [hwritten] at hdone
  obtain ⟨rfl, rfl⟩ := Prod.mk.inj hh
  exact hmoved.trans hdone

/-- Where the watermark moves, the feed has delivered as many records as its last answer announced,
unless that answer had no records at all. -/
theorem run_receivesAnnounced (r : Refresh) (site : Site σ) : ∃ s, (r.run site).result = .ok s ∧
    (s.isAdvanced = true → ∃ earlier last,
      site.answers = earlier ++ last :: (r.run site).state.answers ∧
      s.tally.received = ((earlier ++ [last]).flatMap FeedAnswer.records).length ∧
      ∀ n, last.announced? = some n → last.records = [] ∨ n ≤ s.tally.received) := by
  cases ho : (r.opened site).result with
  | error e =>
    obtain ⟨previous, hresult, -, -⟩ := run_of_unopened ho
    exact ⟨_, hresult, fun ha => by cases ha⟩
  | ok c =>
    cases hh : (r.opened site).state.harvest c with
    | mk h start =>
      cases he : h.ending with
      | error e =>
        obtain ⟨since, ws, ts, -, hresult, -⟩ := run_of_broken ho hh he
        exact ⟨_, hresult, fun ha => by cases ha⟩
      | ok u =>
        obtain ⟨since, ws, done, ts, hwritten, hstate, hresult, -⟩ := run_of_read ho hh he
        obtain ⟨taken, hanswers, hreads, hpages⟩ := reads_of_opened ho hh he
        have hfresh := isFresh_of_opened ho
        have hn : c.hasNext = true := by rw [FeedClient.hasNext, hfresh.total]
        obtain ⟨earlier, last, rfl, hlast⟩ := hreads.complete hn
        -- all items of all pages count as received, since none of them ended the reading
        have hreceived : (settled { summaryOf since h ws with lastModified := h.client.lastUpdated }
            (r.watermark.advance h.client.lastUpdated done).result).tally.received =
              ((earlier ++ [last]).flatMap FeedAnswer.records).length := by
          rw [settled_tally]
          refine (Tally.foldl_countWritten_counts ws _).1.trans ?_
          rw [Tally.ofReadings, found_of_opened ho hh, readings, hpages, ← List.flatMap_def,
            hreads.readings_eq, List.length_map]
        refine ⟨_, hresult, fun _ => ⟨earlier, last, ?_, hreceived, ?_⟩⟩
        · rw [hstate, answers_of_read hh hwritten, hanswers, List.append_assoc]
          rfl
        · intro n hannounced
          have hcount := hlast n hannounced
          rw [hfresh.start, Int.zero_add] at hcount
          rwa [hreceived]

end Refresh

/-- An empty store, and a feed that gives these answers. -/
def Site.ofAnswers (answers : List FeedAnswer) : Site FaultyLedger where
  store := {}
  answers
  silence := .timeout
  clock := fun _ => .epoch

def datedRecord : Json :=
  .object [("cve", .object [("id", .text "CVE-1"),
    ("lastModified", .text "2024-01-02T00:00:00.000")])]

theorem Refresh.summary_of_decide (site : Site FaultyLedger) (p : RefreshSummary → Bool)
    (h : ((({} : Refresh).run site).result.toOption.any p) = true) :
    ∃ s, (({} : Refresh).run site).result = .ok s ∧ p s = true := by
  cases hs : (({} : Refresh).run site).result with
  | error e =>
    rw [hs] at h
    cases h
  | ok s =>
    rw [hs] at h
    exact ⟨s, rfl, h⟩

/-- One page, with all the records that it announces. -/
theorem run_receivesAnnounced_fullPage : ∃ s earlier last,
    (({} : Refresh).run (.ofAnswers [.ofPage 1 [datedRecord]])).result = .ok s ∧
      s.isAdvanced = true ∧
      [.ofPage 1 [datedRecord]] = earlier ++
        last :: (({} : Refresh).run (.ofAnswers [.ofPage 1 [datedRecord]])).state.answers ∧
      ∀ n, last.announced? = some n → last.records = [] ∨ n ≤ s.tally.received := by
  obtain ⟨s, hs, ha⟩ := Refresh.summary_of_decide (.ofAnswers [.ofPage 1 [datedRecord]])
    (fun s => s.isAdvanced) (by decide +kernel)
  obtain ⟨s', hs', hreceived⟩ :=
    Refresh.run_receivesAnnounced {} (.ofAnswers [.ofPage 1 [datedRecord]])
  obtain rfl : s' = s := Except.ok.inj (hs'.symm.trans hs)
  obtain ⟨earlier, last, hanswers, -, hannounced⟩ := hreceived ha
  exact ⟨_, earlier, last, hs, ha, hanswers, hannounced⟩

/-- The watermark moves past four records that the last answer announced and that never came. -/
theorem run_advances_emptyPage : ∃ s,
    (({} : Refresh).run (.ofAnswers [.ofPage 5 [datedRecord], .ofPage 5 []])).result = .ok s ∧
      s.isAdvanced = true ∧ s.tally.received = 1 ∧ (FeedAnswer.ofPage 5 []).announced? = some 5 ∧
      (({} : Refresh).run (.ofAnswers [.ofPage 5 [datedRecord], .ofPage 5 []])).state.answers =
        [] := by
  obtain ⟨s, hs, ha⟩ := Refresh.summary_of_decide
    (.ofAnswers [.ofPage 5 [datedRecord], .ofPage 5 []])
    (fun s => s.isAdvanced && s.tally.received = 1) (by decide +kernel)
  obtain ⟨hadvanced, hreceived⟩ := (Bool.and_eq_true _ _).mp ha
  exact ⟨s, hs, hadvanced, of_decide_eq_true hreceived, by decide +kernel,
    List.isEmpty_iff.mp (by decide +kernel)⟩

end AdvisoryLedger

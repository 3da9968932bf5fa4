import AdvisoryLedger.Proofs.Feed.Delivered
import AdvisoryLedger.Proofs.Refresh.Completeness

namespace AdvisoryLedger

open Work

namespace Record

/-- The item is no record, and is passed over for it. -/
def isUnconvertible (item : Json) : Bool := isSkipped (ofItem item).result

def reported? (item : Json) : Option Report := report? (ofItem item).result

theorem reported?_of_isUnconvertible {item : Json} (h : isUnconvertible item = true) :
    reported? item = none := by
  unfold isUnconvertible at h
  unfold reported?
  cases hx : (ofItem item).result with
  | error e => rfl
  | ok r => simp [hx, isSkipped] at h

theorem filterMap_reported?_filter (items : List Json) :
    (items.filter fun item => !isUnconvertible item).filterMap reported? =
      items.filterMap reported? := by
  rw [List.filterMap_filter]
  congr 1
  funext item
  cases h : isUnconvertible item with
  | false => rfl
  | true => exact (reported?_of_isUnconvertible h).symm

end Record

namespace Refresh

open Record

section Opened

variable {σ : Type} [Store σ]

theorem opened_respects (r : Refresh) :
    Respects (fun s t : Site σ => s.store = t.store) r.opened := by
  refine (Respects.ofNoted r.access).bind fun access => ?_
  have hload : Respects (fun s t : Site σ => s.store = t.store) r.watermark.load := by
    refine Respects.bind ?_ fun _ => Respects.ofNoted _
    intro s t h
    have hrun : Store.transact none
      (Call.ask (.getConfig r.watermark.group r.watermark.name)) s.store =
        Store.transact none
          (Call.ask (.getConfig r.watermark.group r.watermark.name)) t.store := by rw [h]
    exact ⟨congrArg Run.result hrun, congrArg (fun x => x.entries.map Trace.entry) hrun,
      congrArg Run.state hrun⟩
  exact hload.bind fun since => Respects.ofNoted _

end Opened

variable {r : Refresh} {site start : Site FaultyLedger} {c : FeedClient} {h : Harvest}
    {items : List Json}

/-- How the reading of a feed that delivers ends, and which pages it gets. -/
theorem pages_of_delivered (ho : (r.opened site).result = .ok c)
    (hh : (r.opened site).state.harvest c = (h, start))
    (hd : FeedAnswer.delivered 0 site.answers = some items) :
    (h.ending = .ok () ↔ ∀ item ∈ items, isReadable item = true) ∧
      (h.ending = .ok () → (r.pages site).flatten = items) := by
  have hfresh := isFresh_of_opened ho
  have hn : c.hasNext = true := by rw [FeedClient.hasNext, hfresh.total]
  have hanswers : (r.opened site).state.answers = site.answers := by rw [r.opened_state site]
  obtain ⟨rfl, -⟩ := Prod.mk.inj hh
  rw [hanswers]
  obtain ⟨hiff, hpages⟩ := Harvest.read_delivered hn (by rw [hfresh.start]; exact hd)
  refine ⟨hiff, fun he => ?_⟩
  rw [pages, ho]
  exact hpages he

theorem ending_of_delivered (ho : (r.opened site).result = .ok c)
    (hh : (r.opened site).state.harvest c = (h, start))
    (hd : FeedAnswer.delivered 0 site.answers = some items) :
    (h.ending = .ok () ↔ ∀ item ∈ items, isReadable item = true) ∧
      (h.ending = .ok () → r.readings site = items.map fun item => (ofItem item).result) := by
  obtain ⟨hiff, hpages⟩ := pages_of_delivered ho hh hd
  refine ⟨hiff, fun he => ?_⟩
  have hall : ∀ item ∈ items, goesOn (ofItem item).result = true := fun item hm =>
    ((Bool.and_eq_true _ _).mp (hiff.mp he item hm)).2
  rw [readings, hpages he, readings_of_forall hall]

/-- Where nothing ends the reading, the rows are those of the reports of all items. -/
theorem rows_of_delivered (ho : (r.opened site).result = .ok c)
    (hd : FeedAnswer.delivered 0 site.answers = some items)
    (hall : ∀ item ∈ items, isReadable item = true) : (r.run site).state.store.ledger.rows =
      (synchronizeAll (items.filterMap reported?) site).state.store.ledger.rows := by
  cases hh : (r.opened site).state.harvest c with
  | mk h start =>
    obtain ⟨hiff, hreadings⟩ := ending_of_delivered ho hh hd
    have he := hiff.mpr hall
    obtain ⟨since, ws, done, ts, -, hsequential⟩ := sequential_of_read ho hh he
    rw [hsequential.rows, reports, hreadings he, List.filterMap_map]
    rfl

theorem rows_without_unconvertible (ho : (r.opened site).result = .ok c)
    (hd : FeedAnswer.delivered 0 site.answers = some items)
    (hall : ∀ item ∈ items, isReadable item = true) {answers : List FeedAnswer}
    (ha : FeedAnswer.delivered 0 answers = some (items.filter fun item => !isUnconvertible item)) :
    (r.run { site with answers }).state.store.ledger.rows =
      (r.run site).state.store.ledger.rows := by
  have ho' : (r.opened { site with answers }).result = .ok c := by
    rw [(r.opened_respects { site with answers } site rfl).result, ho]
  have hall' : ∀ item ∈ items.filter (fun item => !isUnconvertible item), isReadable item = true :=
    fun item hm => hall item (List.mem_filter.mp hm).1
  have hsame := synchronizeAll_respects (items.filterMap reported?)
    { site with answers } site ⟨.refl _, rfl, rfl⟩
  rw [rows_of_delivered ho' ha hall', rows_of_delivered ho hd hall, filterMap_reported?_filter]
  exact congrArg Ledger.rows hsame.state.store.ledger

/-- Where no fault strikes setting a property, none does after reports have been written. -/
theorem advance_ok_of_written (hf : ∀ n, site.store.faults .setConfig n = none)
    (hh : (r.opened site).state.harvest c = (h, start)) {ws : List Written}
    {done : Site FaultyLedger}
    {ts : List Trace} (hwritten : synchronizeAll h.reports start = ⟨.ok ws, done, ts⟩)
    (m : Option Moment) :
    ∃ moved, (r.watermark.advance m done).result = .ok moved := by
  have hbounded : Bounded (fun s : Site FaultyLedger => s.store.faults) IndexNotice.IsChange
    (synchronizeAll h.reports) := synchronizeAll_bounded apartFromRows_faults (fun _ _ => rfl) _
  have hpart := hbounded.part start
  rw [hwritten] at hpart
  have hfaults : done.store.faults = site.store.faults :=
    hpart.trans (alike_of_opened hh).store.faults
  rcases advance_cases r.watermark m done with
    ⟨-, hmoved, -⟩ | ⟨n, e, hfault, -, -⟩ | ⟨t, -, hmoved, -⟩
  · exact ⟨_, hmoved⟩
  · rw [hfaults, hf n] at hfault
    cases hfault
  · exact ⟨_, hmoved⟩

/-- A feed that delivers its pages is mirrored to the end just in case every item can be dealt with.
Then all items have been counted, and those that were passed over make no difference to the rows. -/
theorem run_succeeds_iff (ho : (r.opened site).result = .ok c)
    (hf : ∀ n, site.store.faults .setConfig n = none)
    (hd : FeedAnswer.delivered 0 site.answers = some items) : ∃ s, (r.run site).result = .ok s ∧
    (s.isSuccess = true ↔ ∀ item ∈ items, isReadable item = true) ∧
    (s.isSuccess = true → s.tally.received = items.length ∧
      s.tally.unconvertible = items.countP isUnconvertible ∧
      ∀ answers, FeedAnswer.delivered 0 answers =
        some (items.filter fun item => !isUnconvertible item) →
        (r.run { site with answers }).state.store.ledger.rows =
          (r.run site).state.store.ledger.rows) := by
  cases hh : (r.opened site).state.harvest c with
  | mk h start =>
    obtain ⟨hiff, hreadings⟩ := ending_of_delivered ho hh hd
    cases he : h.ending with
    | error e =>
      obtain ⟨since, ws, ts, -, hresult, -⟩ := run_of_broken ho hh he
      have hunreadable : ¬∀ item ∈ items, isReadable item = true := by
        rw [← hiff, he]
        exact nofun
      have hfailed : ¬({ summaryOf since h ws with failure := some e } : RefreshSummary).isSuccess = true := nofun
      exact ⟨_, hresult, ⟨fun h => absurd h hfailed, fun h => absurd h hunreadable⟩,
        fun h => absurd h hfailed⟩
    | ok u =>
      obtain ⟨since, ws, done, ts, hwritten, hsequential⟩ := sequential_of_read ho hh he
      have hall := hiff.mp he
      obtain ⟨moved, hmoved⟩ := advance_ok_of_written hf hh hwritten h.client.lastUpdated
      rw [hmoved] at hsequential
      obtain ⟨hreceived, -, hunconvertible⟩ :=
        Tally.foldl_countWritten_counts ws (.ofReadings (r.readings site))
      rw [← hsequential.tally, hreadings he] at hreceived hunconvertible
      have hcounted := hunconvertible.trans List.countP_map
      refine ⟨_, hsequential.summary, ⟨fun _ => hall, fun _ => by cases moved <;> rfl⟩,
        fun _ => ⟨?_, hcounted, ?_⟩⟩
      · exact hreceived.trans (List.length_map ..)
      · exact fun answers ha => rows_without_unconvertible ho hd hall ha

end Refresh

def namelessRecord : Json :=
  .object [("cve", .object [("lastModified", .text "2024-01-03T00:00:00.000")])]

def numberedRecord : Json := .object [("cve", .object [("id", .int 5)])]

/-- A record without an id is passed over. -/
theorem run_succeeds_namelessRecord : ∃ s,
    (({} : Refresh).run (.ofAnswers [.ofPage 2 [namelessRecord, datedRecord]])).result = .ok s ∧
      s.isSuccess = true ∧ s.tally.received = 2 ∧ s.tally.unconvertible = 1 := by
  have hopened :
      (({} : Refresh).opened (.ofAnswers [.ofPage 2 [namelessRecord, datedRecord]])).result.isOk =
        true := by
    decide +kernel
  cases ho : (({} : Refresh).opened
    (.ofAnswers [.ofPage 2 [namelessRecord, datedRecord]])).result with
  | error e =>
    rw [ho] at hopened
    cases hopened
  | ok c =>
    have hd : FeedAnswer.delivered 0 [.ofPage 2 [namelessRecord, datedRecord]] =
      some [namelessRecord, datedRecord] := rfl
    have hall : ∀ item ∈ [namelessRecord, datedRecord], Record.isReadable item =
      true := by decide +kernel
    have hskipped : [namelessRecord, datedRecord].countP Record.isUnconvertible =
      1 := by decide +kernel
    obtain ⟨s, hs, hiff, hcounts⟩ := Refresh.run_succeeds_iff ho (fun _ => rfl) hd
    obtain ⟨hreceived, hunconvertible, -⟩ := hcounts (hiff.mpr hall)
    exact ⟨s, hs, hiff.mpr hall, hreceived, hunconvertible.trans hskipped⟩

/-- A number for an id ends the refresh, and what comes behind it is not written. -/
theorem run_fails_numberedRecord : ∃ s,
    (({} : Refresh).run (.ofAnswers [.ofPage 2 [numberedRecord, datedRecord]])).result = .ok s ∧
      s.isSuccess = false ∧ s.tally.received = 1 ∧ s.tally.submitted = 0 ∧
      (({} : Refresh).run
        (.ofAnswers [.ofPage 2 [numberedRecord, datedRecord]])).state.store.ledger.advisories =
          [] := by
  obtain ⟨s, hs, h⟩ := Refresh.summary_of_decide
    (.ofAnswers [.ofPage 2 [numberedRecord, datedRecord]])
    (fun s => !s.isSuccess && s.tally.received = 1 && s.tally.submitted = 0) (by decide +kernel)
  simp only [Bool.and_eq_true, Bool.not_eq_true', decide_eq_true_eq] at h
  obtain ⟨⟨hfailed, hreceived⟩, hsubmitted⟩ := h
  exact ⟨s, hs, hfailed, hreceived, hsubmitted, List.isEmpty_iff.mp (by decide +kernel)⟩

end AdvisoryLedger

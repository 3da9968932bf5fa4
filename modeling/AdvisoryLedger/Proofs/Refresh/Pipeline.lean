import AdvisoryLedger.Proofs.Lane.View
import AdvisoryLedger.Proofs.Refresh.Synchronize
import AdvisoryLedger.Refresh.Pipeline

namespace AdvisoryLedger

open Lane

namespace Tally

/-- What an event adds to the counts, whatever becomes of its report. -/
def meet (t : Tally) : FeedEvent → Tally
  | .request _ => t
  | .entry _ => t
  | .item (.ok none) => t.receive
  | .item (.ok (some _)) => t.receive.submit
  | .item (.error e) => if e.isSkippable then t.receive.skip else t.receive

theorem countWritten_apart (t : Tally) (w : Written) :
    (t.countWritten w).receive = t.receive.countWritten w ∧
    (t.countWritten w).submit = t.submit.countWritten w ∧
      (t.countWritten w).skip = t.skip.countWritten w := by
  obtain ⟨outcome, ranges⟩ := w
  rcases outcome with - | - | - | - <;> cases ranges <;> exact ⟨rfl, rfl, rfl⟩

theorem countWritten_meet (t : Tally) (w : Written) (e : FeedEvent) :
    (t.countWritten w).meet e = (t.meet e).countWritten w := by
  have hreceive := (countWritten_apart t w).1
  obtain ⟨-, hsubmit, hskip⟩ := countWritten_apart t.receive w
  rcases e with - | - | (f | - | r)
  · rfl
  · rfl
  · simp only [meet]
    split
    · rw [hreceive, hskip]
    · rw [hreceive]
  · exact hreceive
  · simp only [meet, hreceive, hsubmit]

/-- It makes no difference to the counts whether an event comes before or after reports are
written. -/
theorem foldl_countWritten_meet (ws : List Written) (t : Tally) (e : FeedEvent) :
    (ws.foldl countWritten t).meet e = ws.foldl countWritten (t.meet e) := by
  induction ws generalizing t with
  | nil => rfl
  | cons w rest ih => rw [List.foldl_cons, ih, countWritten_meet, List.foldl_cons]

end Tally

namespace Pipeline

def Stage.Fits : Stage → Door Report → Prop
  | .reading, .free => True
  | .submitting, .free => True
  | .submitting, .asking _ => True
  | .leaving, .closing => True
  | .leaving, .closed => True
  | .leaving, .gone => True
  | .left, .gone => True
  | _, _ => False

/-- How many steps the producer has before it, apart from those for what is ahead. -/
def Stage.due : Stage → Nat
  | .reading => 3
  | .submitting => 4
  | .leaving => 1
  | .left => 0

variable {σ : Type}

/-- The counts, with a report that has just been submitted. -/
def counted (p : Pipeline σ) : Tally :=
  match p.stage with
  | .submitting => p.tally.submit
  | _ => p.tally

/-- No more than so many steps are left. -/
def due (p : Pipeline σ) (v : View Report) : Nat := 4 * p.ahead.length + p.stage.due + v.due

variable [Store σ]

/-- What has been done when the producer has seen some events and the worker has written some
reports. -/
structure Account (start : Site σ) (p : Pipeline σ) (v : View Report) (seen : List FeedEvent)
    (done : List Report) (ws : List Written) (ts : List Trace) : Prop where
  reports : seen.filterMap FeedEvent.report? = done ++ v.outstanding
  written : synchronizeAll done start = ⟨.ok ws, p.site, ts⟩
  counted : p.counted = ws.foldl Tally.countWritten (seen.foldl Tally.meet {})
  failed : v.failed = ws.countP fun w => !w.isComplete
  notices : p.traces.filterMap Trace.notice? = ts.filterMap Trace.notice?

structure Sound (events : List FeedEvent) (start : Site σ) (p : Pipeline σ)
    (v : View Report) : Prop where
  shows : p.lane.Shows v
  fits : p.stage.Fits v.door
  closed : v.door.isClosed = true → p.ahead = []
  account : ∃ seen done ws ts, events = seen ++ p.ahead ∧ Account start p v seen done ws ts

variable {events : List FeedEvent} {start : Site σ} {p q : Pipeline σ} {v : View Report}

namespace Sound

theorem isServed (h : Sound events start p v) :
    p.isServed = true ↔ v.door = .free ∨ v.door = .gone := by
  simp only [Pipeline.isServed, h.shows.lastCall]
  cases v.door <;> simp [Door.lastCall]

theorem door_reading (h : Sound events start p v) (hs : p.stage = .reading) : v.door = .free := by
  have hf := h.fits
  rw [hs] at hf
  cases hd : v.door <;> simp_all [Stage.Fits]

theorem pass (h : Sound events start p v) {e : FeedEvent} {rest : List FeedEvent}
    (hs : p.stage = .reading)
    (ha : p.ahead = e :: rest) (he : e.report? = none) (hq : q.ahead = rest) (hl : q.lane = p.lane)
    (hst : q.stage = .reading) (ht : q.tally = p.tally.meet e) (hsite : q.site = p.site)
    (hn : q.traces.filterMap Trace.notice? = p.traces.filterMap Trace.notice?) :
    Sound events start q v ∧ q.due v < p.due v := by
  obtain ⟨seen, done, ws, ts, hevents, account⟩ := h.account
  refine ⟨⟨hl ▸ h.shows, ?_, ?_, seen ++ [e], done, ws, ts, ?_, ?_⟩, ?_⟩
  · rw [hst, ← hs]
    exact h.fits
  · intro hc
    rw [h.closed hc] at ha
    cases ha
  · rw [hevents, ha, hq, List.append_assoc]
    rfl
  · refine ⟨?_, hsite ▸ account.written, ?_, account.failed, hn.trans account.notices⟩
    · rw [List.filterMap_append, account.reports]
      simp [he]
    -- the reports that were written in the meantime are counted behind the event
    · have hc := account.counted
      simp only [counted, hs] at hc
      simp only [counted, hst]
      rw [ht, hc, List.foldl_append, Tally.foldl_countWritten_meet]
      rfl
  · simp only [due, hst, hs, ha, hq, List.length_cons]
    omega

theorem submit (h : Sound events start p v) {r : Report} {rest : List FeedEvent}
    (hs : p.stage = .reading) (ha : p.ahead = .item (.ok (some r)) :: rest) :
    ∃ w, Sound events start ({ p with ahead := rest }.meet (.item (.ok (some r)))) w ∧
      ({ p with ahead := rest }.meet (.item (.ok (some r)))).due w < p.due v := by
  have hd := h.door_reading hs
  obtain ⟨seen, done, ws, ts, hevents, account⟩ := h.account
  have next (w : View Report) (hshows : (p.lane.submit r).Shows w)
    (hfits : Stage.submitting.Fits w.door)
      (hopen : w.door.isClosed = false) (hout : w.outstanding = v.outstanding ++ [r])
        (hfailed : w.failed = v.failed) :
      Sound events start ({ p with ahead := rest }.meet (.item (.ok (some r)))) w := by
    refine ⟨hshows, hfits, ?_, seen ++ [.item (.ok (some r))], done, ws, ts, ?_, ?_,
      account.written, ?_, ?_,
      account.notices⟩
    · rw [hopen]
      exact fun hc => absurd hc Bool.false_ne_true
    · rw [hevents, ha, List.append_assoc]
      rfl
    · rw [List.filterMap_append, account.reports, hout, List.append_assoc]
      rfl
    · have hc := account.counted
      simp only [counted, hs] at hc
      simp only [Pipeline.meet, counted]
      rw [hc, List.foldl_append]
      exact Tally.foldl_countWritten_meet ws _ (.item (.ok (some r)))
    · rw [hfailed]
      exact account.failed
  -- the report has found room in the queue, or waits at the door
  rcases h.shows.submit hd r with hshows | hshows
  · refine ⟨_, next _ hshows ?_ ?_ (v.outstanding_push r hd) rfl, ?_⟩
    · simp [View.push, hd, Stage.Fits]
    · simp [View.push, hd, Door.isClosed]
    · simp only [due, Pipeline.meet, hs, ha, View.due, View.push, Stage.due, List.length_append,
        List.length_cons, List.length_nil]
      omega
  · refine ⟨_, next _ hshows trivial rfl (v.outstanding_asking r hd) rfl, ?_⟩
    simp only [due, Pipeline.meet, hs, ha, hd, View.due, Stage.due, Door.due, List.length_cons]
    omega

/-- A step of the producer that concerns neither the lane nor what is ahead. -/
theorem restage (h : Sound events start p v) (hl : q.lane = p.lane) (ha : q.ahead = p.ahead)
    (hsite : q.site = p.site) (hfits : q.stage.Fits v.door) (hc : q.counted = p.counted)
    (hn : q.traces.filterMap Trace.notice? = p.traces.filterMap Trace.notice?) :
    Sound events start q v := by
  obtain ⟨seen, done, ws, ts, hevents, account⟩ := h.account
  exact ⟨hl ▸ h.shows, hfits, ha ▸ h.closed, seen, done, ws, ts, ha ▸ hevents, account.reports,
    hsite ▸ account.written, hc.trans account.counted, account.failed, hn.trans account.notices⟩

theorem countSubmitted (h : Sound events start p v) (hs : p.stage = .submitting)
    (hserved : p.isServed = true) :
    Sound events start p.countSubmitted v ∧ p.countSubmitted.due v < p.due v := by
  have hd : v.door = .free := by
    refine (h.isServed.mp hserved).resolve_right fun ho => ?_
    have hf := h.fits
    rw [hs, ho] at hf
    exact hf
  have hq : ∃ entries : List LogEntry, p.countSubmitted =
      { p with tally := p.tally.submit, stage := .reading, traces := p.traces ++ entries.map .entry } := by
    unfold Pipeline.countSubmitted
    dsimp only
    split
    · exact ⟨[_], rfl⟩
    · exact ⟨[], by simp⟩
  obtain ⟨entries, hq⟩ := hq
  rw [hq]
  refine ⟨h.restage rfl rfl rfl ?_ ?_ ?_, by simp [due, hs, Stage.due]⟩
  · rw [hd]
    trivial
  · simp only [counted, hs]
  · rw [List.filterMap_append, Work.notices_entries, List.append_nil]

theorem leave (h : Sound events start p v) (hs : p.stage = .reading) (ha : p.ahead = []) :
    ∃ w, Sound events start p.leave w ∧ p.leave.due w < p.due v := by
  have hd := h.door_reading hs
  obtain ⟨seen, done, ws, ts, hevents, account⟩ := h.account
  have hq : ∃ entries : List LogEntry, p.leave =
      { p with lane := p.lane.drain, stage := .leaving, traces := p.traces ++ entries.map .entry } := by
    unfold Pipeline.leave
    split
    · exact ⟨[], by simp⟩
    · exact ⟨[_], rfl⟩
  obtain ⟨entries, hq⟩ := hq
  have next (d : Door Report) (hshows : p.lane.drain.Shows { v with door := d })
    (hfits : Stage.leaving.Fits d)
      (hasked : d.asked = []) : Sound events start p.leave { v with door := d } := by
    rw [hq]
    refine ⟨hshows, hfits, fun _ => ha, seen, done, ws, ts, hevents, ?_, account.written, ?_,
      account.failed, ?_⟩
    · rw [account.reports, View.outstanding, View.outstanding, hasked, hd]
      rfl
    · have hc := account.counted
      simp only [counted, hs] at hc
      exact hc
    · rw [List.filterMap_append, Work.notices_entries, List.append_nil]
      exact account.notices
  rcases h.shows.drain hd with hshows | hshows
  · refine ⟨_, next _ hshows trivial rfl, ?_⟩
    rw [hq]
    simp only [due, hs, hd, View.due, Stage.due, Door.due]
    omega
  · refine ⟨_, next _ hshows trivial rfl, ?_⟩
    rw [hq]
    simp only [due, hs, hd, View.due, Stage.due, Door.due]
    omega

theorem left (h : Sound events start p v) (hs : p.stage = .leaving) (hserved : p.isServed = true) :
    Sound events start { p with stage := .left } v ∧ ({ p with stage := .left } : Pipeline σ).due v < p.due v := by
  have hd : v.door = .gone := by
    refine (h.isServed.mp hserved).resolve_left fun ho => ?_
    have hf := h.fits
    rw [hs, ho] at hf
    exact hf
  refine ⟨h.restage rfl rfl rfl ?_ ?_ rfl, by simp [due, hs, Stage.due]⟩
  · rw [hd]
    trivial
  · simp only [counted, hs]

theorem moveProducer (h : Sound events start p v) (hq : p.moveProducer = some q) :
    ∃ w, Sound events start q w ∧ q.due w < p.due v := by
  unfold Pipeline.moveProducer at hq
  cases hs : p.stage with
  | reading =>
    simp only [hs] at hq
    cases ha : p.ahead with
    | nil =>
      simp only [ha, Option.some.injEq] at hq
      exact hq ▸ h.leave hs ha
    | cons e rest =>
      simp only [ha, Option.some.injEq] at hq
      subst hq
      rcases e with _ | entry | (f | _ | r)
      · exact ⟨v, h.pass hs ha rfl rfl rfl rfl rfl rfl rfl⟩
      · exact ⟨v, h.pass hs ha rfl rfl rfl rfl rfl rfl
          (by simp [Pipeline.meet, Pipeline.log, Trace.notice?])⟩
      · cases hk : f.isSkippable with
        | true =>
          refine ⟨v, h.pass hs ha rfl ?_ ?_ ?_ ?_ ?_ ?_⟩ <;>
            simp [Pipeline.meet, Pipeline.log, Tally.meet, Trace.notice?, hk]
        | false =>
          refine ⟨v, h.pass hs ha rfl ?_ ?_ ?_ ?_ ?_ ?_⟩ <;> simp [Pipeline.meet, Tally.meet, hk]
      · exact ⟨v, h.pass hs ha rfl rfl rfl rfl rfl rfl rfl⟩
      · exact h.submit hs ha
  | submitting =>
    simp only [hs] at hq
    split at hq
    · next hserved => exact ⟨v, Option.some.inj hq ▸ h.countSubmitted hs hserved⟩
    · cases hq
  | leaving =>
    simp only [hs] at hq
    split at hq
    · next hserved => exact ⟨v, Option.some.inj hq ▸ h.left hs hserved⟩
    · cases hq
  | left =>
    simp only [hs] at hq
    cases hq

theorem write (h : Sound events start p v) {r : Report} (hi : v.inHand = some r) :
    ∃ w, Sound events start (p.write r) w ∧ (p.write r).due w < p.due v := by
  obtain ⟨seen, done, ws, ts, hevents, account⟩ := h.account
  obtain ⟨w, site, us, hr⟩ := synchronize_ok r p.site
  have hq : ∃ entries : List LogEntry, p.write r = { p with
      site, tally := p.tally.countWritten w, lane := p.lane.finish w.isComplete
      traces := p.traces ++ us ++ entries.map .entry } := by
    simp only [Pipeline.write, hr]
    split
    · exact ⟨[], by simp⟩
    · exact ⟨[_], rfl⟩
  obtain ⟨entries, hq⟩ := hq
  have hcounted : (p.write r).counted = p.counted.countWritten w := by
    rw [hq]
    unfold counted
    cases hs : p.stage <;> simp only [(Tally.countWritten_apart p.tally w).2.1]
  refine ⟨v.finish w.isComplete, ⟨?_, ?_, ?_, seen, done ++ [r], ws ++ [w], ts ++ us, ?_, ?_⟩, ?_⟩
  · rw [hq]
    exact h.shows.finish hi w.isComplete
  · rw [hq, View.door_finish]
    exact h.fits
  · rw [hq, View.door_finish]
    exact h.closed
  · rw [hq]
    exact hevents
  · refine ⟨?_, ?_, ?_, ?_, ?_⟩
    · rw [account.reports, View.outstanding_finish hi, List.append_assoc]
      rfl
    · rw [hq]
      exact synchronizeAll_concat account.written hr
    · rw [hcounted, account.counted, List.foldl_append]
      rfl
    · rw [View.failed_finish, account.failed, List.countP_append, List.countP_singleton]
      cases w.isComplete <;> rfl
    · rw [hq, List.filterMap_append, List.filterMap_append, Work.notices_entries, account.notices,
        List.filterMap_append, List.append_nil]
  · rw [hq]
    exact Nat.add_lt_add_left (View.due_finish hi _) _

theorem take (h : Sound events start p v) {w : View Report} (ht : v.take? = some w)
    {l : Lane Report} (hl : l.Shows w) :
    Sound events start { p with lane := l } w ∧ ({ p with lane := l } : Pipeline σ).due w < p.due v := by
  obtain ⟨seen, done, ws, ts, hevents, account⟩ := h.account
  refine ⟨⟨hl, ?_, ?_, seen, done, ws, ts, hevents, ?_, account.written, account.counted, ?_,
    account.notices⟩, ?_⟩
  · have hf := h.fits
    rcases View.take?_eq_some ht with ⟨r, rest, -, -, rfl⟩ | ⟨-, -, hd, rfl⟩
    · cases hd : v.door <;> cases hs : p.stage <;> simp_all [Stage.Fits, Door.letIn]
    · cases hs : p.stage <;> simp_all [Stage.Fits]
  · rcases View.take?_eq_some ht with ⟨r, rest, -, -, rfl⟩ | ⟨-, -, hd, rfl⟩
    · rw [Door.isClosed_letIn]
      exact h.closed
    · exact fun _ => h.closed (by rw [hd]; rfl)
  · rw [View.outstanding_take? ht]
    exact account.reports
  · rw [View.failed_take? ht]
    exact account.failed
  · exact Nat.add_lt_add_left (View.due_take? ht) _

theorem moveWorker (h : Sound events start p v) (hq : p.moveWorker = some q) :
    ∃ w, Sound events start q w ∧ q.due w < p.due v := by
  unfold Pipeline.moveWorker at hq
  split at hq
  · next r hw =>
    have hi : v.inHand = some r := View.worker_writing (h.shows.worker.symm.trans hw)
    exact Option.some.inj hq ▸ h.write hi
  · have hlane := h.shows.take
    cases ht : v.take? with
    | none =>
      rw [ht] at hlane
      simp [hlane] at hq
    | some w =>
      rw [ht] at hlane
      obtain ⟨l, hl, hshows⟩ := hlane
      rw [hl, Option.map_some, Option.some.injEq] at hq
      exact ⟨w, hq ▸ h.take ht hshows⟩

theorem step (h : Sound events start p v) {turn : Turn} (hq : p.step turn = some q) :
    ∃ w, Sound events start q w ∧ q.due w < p.due v := by
  have move (t : Turn) (hm : p.move t = some q) : ∃ w, Sound events start q w ∧
      q.due w < p.due v := by
    cases t with
    | producer => exact h.moveProducer hm
    | worker => exact h.moveWorker hm
  rcases Option.or_eq_some_iff.mp hq with hm | ⟨-, hm⟩
  · exact move turn hm
  · exact move turn.other hm

theorem moveWorker_ne_none (h : Sound events start p v) (ho : v.door ≠ .gone)
    (hw : v.waiting ≠ [] ∨ v.door = .closed) : p.moveWorker ≠ none := by
  have hworker := h.shows.worker
  cases hi : v.inHand with
  | some r =>
    rw [View.worker_of_some hi ho] at hworker
    simp [Pipeline.moveWorker, hworker]
  | none =>
    have hidle : p.lane.worker = .idle := hworker.trans (View.worker_of_none hi ho)
    have hlane := h.shows.take
    cases ht : v.take? with
    | none => exact absurd ht (View.take?_ne_none hi hw)
    | some w =>
      rw [ht] at hlane
      obtain ⟨l, hl, -⟩ := hlane
      simp [Pipeline.moveWorker, hidle, hl]

/-- As long as the producer has not left, one of the two can move. -/
theorem left_of_step (h : Sound events start p v) {turn : Turn} (hq : p.step turn = none) :
    p.stage = .left := by
  obtain ⟨hp, hw⟩ : p.moveProducer = none ∧ p.moveWorker = none := by
    obtain ⟨hturn, hother⟩ := Option.or_eq_none_iff.mp hq
    cases turn with
    | producer => exact ⟨hturn, hother⟩
    | worker => exact ⟨hother, hturn⟩
  have hf := h.fits
  have hserved := h.isServed
  -- a producer that waits for room has a queue before it that is not empty, so the worker can move
  cases hs : p.stage with
  | left => rfl
  | reading =>
    simp only [Pipeline.moveProducer, hs] at hp
    cases ha : p.ahead <;> simp [ha] at hp
  | submitting =>
    have hn : p.isServed ≠ true := fun ht => by simp [Pipeline.moveProducer, hs, ht] at hp
    cases hd : v.door with
    | asking r =>
      have hfull := h.shows.full (by simp [hd, Door.blocked])
      exact absurd hw (h.moveWorker_ne_none (by simp [hd]) (.inl hfull))
    | free => exact absurd (hserved.mpr (.inl hd)) hn
    | closing | closed | gone => simp [hs, hd, Stage.Fits] at hf
  | leaving =>
    have hn : p.isServed ≠ true := fun ht => by simp [Pipeline.moveProducer, hs, ht] at hp
    cases hd : v.door with
    | closing =>
      have hfull := h.shows.full (by simp [hd, Door.blocked])
      exact absurd hw (h.moveWorker_ne_none (by simp [hd]) (.inl hfull))
    | closed => exact absurd hw (h.moveWorker_ne_none (by simp [hd]) (.inr hd))
    | gone => exact absurd (hserved.mpr (.inr hd)) hn
    | free | asking => simp [hs, hd, Stage.Fits] at hf

/-- With enough steps the producer leaves, whoever has the turn. -/
theorem follow (schedule : Nat → Turn) {steps : Nat} (h : Sound events start p v)
    (hdue : p.due v ≤ steps) :
    ∃ w, Sound events start (p.follow schedule steps) w ∧
      (p.follow schedule steps).stage = .left := by
  induction steps generalizing schedule p v with
  | zero =>
    refine ⟨v, h, ?_⟩
    have hz : p.stage.due = 0 := by
      unfold due at hdue
      omega
    cases hs : p.stage <;> simp_all [Stage.due, Pipeline.follow]
  | succ n ih =>
    unfold Pipeline.follow
    cases hq : p.step (schedule 0) with
    | none => exact ⟨v, h, h.left_of_step hq⟩
    | some q =>
      obtain ⟨w, hw, hlt⟩ := h.step hq
      exact ih _ hw (by omega)

end Sound

/-- All that the feed brings is ahead, and nobody has been on the lane. -/
def fresh (bound : Nat) (events : List FeedEvent) (ending : Except Failure Unit) (site : Site σ) :
    Pipeline σ :=
  { lane := ({ bound } : Lane Report).start, ahead := events, ending, site }

variable (bound : Nat) (events : List FeedEvent) (ending : Except Failure Unit) (site : Site σ)

theorem sound_fresh : Sound events site (fresh bound events ending site) {} where
  shows := shows_start bound
  fits := trivial
  closed h := by cases h
  account := ⟨[], [], [], [], rfl, rfl, rfl, rfl, rfl, rfl⟩

/-- Whoever has the turn when, and whatever room there is in the queue: in the end all reports have
been written, as if one after the other and in the order of the feed. -/
theorem finish_sequential (schedule : Nat → Turn) {q : Pipeline σ}
    (hq : (fresh bound events ending site).finish schedule = q) :
    ∃ ws ts, synchronizeAll (events.filterMap FeedEvent.report?) site = ⟨.ok ws, q.site, ts⟩ ∧
      q.tally = ws.foldl Tally.countWritten (events.foldl Tally.meet {}) ∧
      q.lane.failed = ws.countP (fun w => !w.isComplete) ∧
      q.traces.filterMap Trace.notice? = ts.filterMap Trace.notice? := by
  have hdue : (fresh bound events ending site).due {} ≤
      (fresh bound events ending site).budget := by
    simp [fresh, budget, due, Stage.due, View.due, Door.due]
  obtain ⟨v, h, hleft⟩ := (sound_fresh bound events ending site).follow schedule hdue
  rw [← finish, hq] at h hleft
  have hgone : v.door = .gone := by
    have hf := h.fits
    rw [hleft] at hf
    cases hd : v.door <;> simp_all [Stage.Fits]
  obtain ⟨hi, hw⟩ := h.shows.ended hgone
  have hout : v.outstanding = [] := by simp [View.outstanding, hi, hw, hgone, Door.asked]
  obtain ⟨seen, done, ws, ts, hevents, account⟩ := h.account
  rw [h.closed (by rw [hgone]; rfl), List.append_nil] at hevents
  subst hevents
  have hreports := account.reports
  rw [hout, List.append_nil] at hreports
  have hcounted := account.counted
  simp only [counted, hleft] at hcounted
  exact ⟨ws, ts, hreports ▸ account.written, hcounted, h.shows.failed.trans account.failed,
    account.notices⟩

end Pipeline

end AdvisoryLedger

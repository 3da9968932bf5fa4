import AdvisoryLedger.Proofs.Feed.Page
import AdvisoryLedger.Proofs.Time.Epoch
import AdvisoryLedger.Proofs.Time.Stamp

namespace AdvisoryLedger

/-- A parameter of the request is a timestamp of the feed, read as a number of seconds from the
start of 1970. -/
def FeedRequest.Dates (r : FeedRequest) (name : String) (seconds : Int) : Prop :=
  ∃ value m, r.parameters.get? name = some value ∧ (Record.stamp value).result = .ok (some m) ∧
    m.epochMicros = seconds * 1000000

namespace FeedClient

/-- What a client turns into by asking and by what comes back, in any order. -/
inductive Later (c : FeedClient) : FeedClient → Prop
  | refl : Later c c
  | request {d : FeedClient} (h : Later c d) (now : Rat) : Later c (d.request now).2
  | receive {d : FeedClient} (h : Later c d) (answer : FeedAnswer) : Later c (d.receive answer).2

variable {c d : FeedClient}

theorem Later.window (h : c.Later d) : d.window = c.window := by
  induction h with
  | refl => rfl
  | request _ now ih => exact ih
  | @receive d _ answer ih =>
    obtain ⟨p, hreceived⟩ := receive_frame d answer
    rw [hreceived]
    exact ih

theorem ofOptions_of_window {o : FeedOptions} {w : Option (Moment × Moment)}
    (h : windowSince o.lastModifiedEpoch = .ok w) : ∃ c, (ofOptions o).result = .ok c ∧
    c.window = w := by
  unfold ofOptions
  rw [h]
  dsimp only
  split
  · exact ⟨_, rfl, rfl⟩
  · exact ⟨_, rfl, rfl⟩

theorem momentOfEpoch_eq {n : Int} (hpos : 0 ≤ n) (hend : n < 253402300800) :
    ∃ m : Moment, momentOfEpoch n = .ok m ∧
      (m.wall : Int) = n * 1000000 + (719162 * dayMicros : Nat) ∧
      m.offset = 0 := by
  have hwall : n * 1000000 + (719162 * dayMicros : Nat) < (Date.dayLimit * dayMicros : Nat) := by
    simp only [dayMicros, Date.dayLimit]
    omega
  obtain ⟨m, hm, hsame, hoffset⟩ := Moment.make?_eq (by omega) hwall 0
  have htime : ¬secondsLimit ≤ n := by
    simp only [secondsLimit]
    omega
  have hcalendar : ¬calendarLimit ≤ n := by
    simp only [calendarLimit]
    omega
  have hepoch : Moment.ofEpochSeconds? n = some m := hm
  refine ⟨m, ?_, hsame, hoffset⟩
  simp only [momentOfEpoch, if_neg htime, if_neg hcalendar, hepoch]

theorem windowSince_eq {n : Int} (hpos : 0 < n) (hend : n + maxWindow < 253402300800) :
    ∃ first last : Moment, windowSince n = .ok (some (first, last)) ∧ first.offset = 0 ∧
      last.offset = 0 ∧
      first.epochMicros = n * 1000000 ∧ last.epochMicros = (n + maxWindow) * 1000000 := by
  have hlong : maxWindow = 10368000 := rfl
  obtain ⟨first, hmoment, hstart, hfirst⟩ := momentOfEpoch_eq (Int.le_of_lt hpos) (by omega)
  have hwall : first.wall + maxWindow * 1000000 < (Date.dayLimit * dayMicros : Nat) := by
    simp only [dayMicros, Date.dayLimit] at hstart ⊢
    omega
  obtain ⟨last, hadd, hstop, hlast⟩ := Moment.make?_eq (by omega) hwall first.offset
  have hadd : first.addSeconds? maxWindow = some last := hadd
  refine ⟨first, last, ?_, hfirst, hlast.trans hfirst, ?_, ?_⟩
  · rw [windowSince, if_pos hpos, hmoment]
    change Except.bind (Except.ok first) _ = _
    rw [Except.bind, hadd]
  · rw [Moment.epochMicros, Moment.instant, hfirst]
    omega
  · rw [Moment.epochMicros, Moment.instant, hlast, hfirst]
    omega

theorem stamp_write? {m : Moment} {n : Int} (hoffset : m.offset = 0) (hpos : 0 ≤ n)
    (h : m.epochMicros = n * 1000000) :
    ∃ s r, FeedStamp.write? m = some s ∧ (Record.stamp (.text s)).result = .ok (some r) ∧
      r.epochMicros = n * 1000000 := by
  have hinstant : m.instant = m.wall := by rw [Moment.instant, hoffset]; omega
  have hwall : (m.wall : Int) = n * 1000000 + (719162 * dayMicros : Nat) := by
    rw [Moment.epochMicros, hinstant] at h
    omega
  have hlt : m.instant < (Date.dayLimit * dayMicros : Nat) := by
    have hlt := m.wall_lt
    omega
  obtain ⟨u, hu, huwall, -⟩ := Moment.make?_eq (by omega) hlt 0
  have hyear : 1000 ≤ u.date.year := by
    have hday : 719162 ≤ u.wall / dayMicros := by
      rw [Nat.le_div_iff_mul_le (by decide)]
      omega
    exact Date.le_yearOf (Nat.le_trans (by decide) hday)
  obtain ⟨s, r, hwrite, hread, hroffset, hrwall⟩ := FeedStamp.read?_write? hu hyear
  refine ⟨s, r, hwrite, ?_, ?_⟩
  · rw [Record.stamp_of_read? hread]
    rfl
  · rw [Moment.epochMicros, Moment.instant, hroffset, hrwall]
    simp only [dayMicros] at *
    omega

/-- Every request of a client asks for what was modified in the longest window since the epoch it
was made with. -/
theorem asks_window {o : FeedOptions} (hpos : 0 < o.lastModifiedEpoch)
    (hend : o.lastModifiedEpoch + maxWindow < 253402300800) :
    ∃ c, (ofOptions o).result = .ok c ∧ ∀ d, c.Later d → ∀ now,
      (d.request now).1.Dates "lastModStartDate" o.lastModifiedEpoch ∧
        (d.request now).1.Dates "lastModEndDate" (o.lastModifiedEpoch + maxWindow) := by
  obtain ⟨first, last, hwindow, hfirst, hlast, hstart, hstop⟩ := windowSince_eq hpos hend
  obtain ⟨c, hc, hsame⟩ := ofOptions_of_window hwindow
  obtain ⟨start, a, hwrite, hread, ha⟩ := stamp_write? hfirst (Int.le_of_lt hpos) hstart
  have hpos' : 0 ≤ o.lastModifiedEpoch + maxWindow := by
    simp only [maxWindow]
    omega
  obtain ⟨stop, b, hwrite', hread', hb⟩ := stamp_write? hlast hpos' hstop
  refine ⟨c, hc, fun d hd now => ?_⟩
  have hrequest : (d.request now).1.window = some (start, stop) := by
    change d.window.bind windowText = _
    rw [hd.window, hsame, Option.bind_some, windowText, hwrite, hwrite']
    rfl
  have hparameters : (d.request now).1.parameters = [("startIndex", .int (d.request now).1.start),
      ("resultsPerPage", .int (d.request now).1.pageSize), ("lastModStartDate", .text start),
      ("lastModEndDate", .text stop)] := by
    rw [FeedRequest.parameters, hrequest]
    rfl
  rw [FeedRequest.Dates, FeedRequest.Dates, hparameters]
  exact ⟨⟨.text start, a, rfl, hread, ha⟩, ⟨.text stop, b, rfl, hread', hb⟩⟩

end FeedClient

end AdvisoryLedger

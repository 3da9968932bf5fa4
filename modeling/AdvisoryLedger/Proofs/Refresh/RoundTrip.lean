import AdvisoryLedger.Proofs.Feed.Window
import AdvisoryLedger.Proofs.Refresh.Onward

namespace AdvisoryLedger.Watermark

/-- The watermark is moved to a moment and then loaded. -/
def moveAndLoad (w : Watermark) (v : Moment) : Work FaultyLedger Int := do
  let _ ← w.advance (some v)
  w.load

/-- The whole seconds of a moment, as far as they are kept. -/
structure Marks (v : Moment) (n : Int) : Prop where
  early : v.epochMicros < 0 → n = 0
  near : 0 ≤ v.epochMicros → n = v.epochMicros / 1000000 ∨ n = v.epochMicros / 1000000 + 1
  exact : 0 ≤ v.epochMicros → v.epochMicros < 2 ^ 34 * 1000000 → n = v.epochMicros / 1000000

variable {v : Moment}

theorem marks_wholeEpochSeconds (hv : v.offset.natAbs < 86400) :
    Marks v (max v.wholeEpochSeconds 0) := by
  have hmicros := Moment.natAbs_epochMicros_lt hv
  obtain ⟨n, hwhole, hn⟩ := Moment.wholeEpochSeconds_cases (Nat.lt_trans hmicros (by decide))
  refine ⟨?_, ?_, ?_⟩
  · intro hearly
    rw [hwhole, Binary64.signed, if_pos (decide_eq_true hearly)]
    omega
  · intro hlate
    have hsign : ¬decide (v.epochMicros < 0) = true := by
      rw [decide_eq_true_eq]
      omega
    rw [hwhole, Binary64.signed, if_neg hsign]
    omega
  · intro hlate hlt
    rw [Moment.wholeEpochSeconds_exact hlate (by omega)]
    omega

/-- In the second that comes next, a microsecond less is rounded up. -/
example : (⟨719162 * dayMicros + 2 ^ 34 * 1000000 + 999999, 0, by decide⟩ :
    Moment).wholeEpochSeconds = 2 ^ 34 + 1 := by decide +kernel

theorem result_moveAndLoad (w : Watermark) (l : Ledger) (hv : v.offset.natAbs < 86400) :
    (w.moveAndLoad v { ledger := l }).result = .ok (max v.wholeEpochSeconds 0) := by
  have hload : (w.moveAndLoad v { ledger := l }).result =
      w.known { l with config := l.config.put (w.group, w.name) (some (toString v.wholeEpochSeconds)) } := rfl
  rw [hload, known_eq, Table.get?_put, if_pos rfl]
  exact read_toString _ (Moment.wholeEpochSeconds_lt hv)

/-- No clock is a day ahead of UTC, or behind it. -/
theorem load_advance (w : Watermark) (l : Ledger) (hv : v.offset.natAbs < 86400) :
    ∃ n, (w.moveAndLoad v { ledger := l }).result = .ok n ∧ Marks v n ∧
      (1000000 ≤ v.epochMicros → v.epochMicros < 2 ^ 34 * 1000000 →
        ∀ o : FeedOptions, o.lastModifiedEpoch = n → ∃ c, (FeedClient.ofOptions o).result = .ok c ∧
          ∀ d, c.Later d → ∀ now,
            (d.request now).1.Dates "lastModStartDate" (v.epochMicros / 1000000) ∧
              (d.request now).1.Dates "lastModEndDate"
                (v.epochMicros / 1000000 + 120 * 86400)) := by
  have hmarks := marks_wholeEpochSeconds hv
  refine ⟨_, result_moveAndLoad w l hv, hmarks, ?_⟩
  intro hsecond hlt o ho
  have hepoch : o.lastModifiedEpoch = v.epochMicros / 1000000 :=
    ho.trans (hmarks.exact (by omega) hlt)
  have hlong : FeedClient.maxWindow = 120 * 86400 := rfl
  have hend : o.lastModifiedEpoch + FeedClient.maxWindow < 253402300800 := by omega
  have hasks := FeedClient.asks_window (by omega) hend
  rwa [hepoch] at hasks

/-- The last microsecond of the first `2 ^ 34` seconds, on a clock that is five and a half hours
ahead. -/
def lastExact : Moment := ⟨719162 * dayMicros + 2 ^ 34 * 1000000 - 1 + 19800 * 1000000,
      19800, by decide⟩

theorem load_advance_lastExact : lastExact.offset.natAbs < 86400 ∧ 1000000 ≤ lastExact.epochMicros ∧
    lastExact.epochMicros < 2 ^ 34 * 1000000 ∧
    (({} : Watermark).moveAndLoad lastExact {}).result = .ok 17179869183 ∧
    ∃ c, (FeedClient.ofOptions { endpoint := "feed", lastModifiedEpoch := 17179869183 }).result = .ok c ∧
      (c.request 0).1.Dates "lastModStartDate" 17179869183 ∧
      (c.request 0).1.Dates "lastModEndDate" (17179869183 + 120 * 86400) := by
  have hmicros : lastExact.epochMicros = 2 ^ 34 * 1000000 - 1 := by decide +kernel
  have hoffset : lastExact.offset.natAbs < 86400 := by decide
  have hsecond : 1000000 ≤ lastExact.epochMicros := by omega
  have hlt : lastExact.epochMicros < 2 ^ 34 * 1000000 := by omega
  have hwhole : lastExact.epochMicros / 1000000 = 17179869183 := by omega
  obtain ⟨n, hn, hmarks, hclients⟩ := load_advance {} {} hoffset
  obtain rfl : n = 17179869183 := (hmarks.exact (by omega) hlt).trans hwhole
  obtain ⟨c, hc, hasks⟩ := hclients hsecond hlt { endpoint := "feed", lastModifiedEpoch := 17179869183 } rfl
  rw [hwhole] at hasks
  exact ⟨hoffset, hsecond, hlt, hn, c, hc, hasks c .refl 0⟩

end AdvisoryLedger.Watermark

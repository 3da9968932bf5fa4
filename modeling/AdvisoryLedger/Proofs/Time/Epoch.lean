import AdvisoryLedger.Proofs.Binary64.Truncation
import AdvisoryLedger.Time.FeedStamp
import Mathlib.Algebra.Ring.Int.Defs

namespace AdvisoryLedger

namespace Moment

variable {m m' : Moment}

theorem wholeEpochSeconds_congr (h : m.instant = m'.instant) :
    m.wholeEpochSeconds = m'.wholeEpochSeconds := by
  have hmicros : m.epochMicros = m'.epochMicros := by rw [epochMicros, epochMicros, h]
  rw [wholeEpochSeconds, wholeEpochSeconds, epochSeconds, epochSeconds, hmicros]

theorem wholeEpochSeconds_cases (h : m.epochMicros.natAbs < 1000000 * 2 ^ Binary64.precision) : ∃ n,
    m.wholeEpochSeconds = Binary64.signed (m.epochMicros < 0) n ∧
      (n = m.epochMicros.natAbs / 1000000 ∨ n = m.epochMicros.natAbs / 1000000 + 1) := by
  obtain ⟨n, htruncate, hn⟩ := Binary64.truncate?_ofQuotient (m.epochMicros < 0) h
  exact ⟨n, by rw [wholeEpochSeconds, epochSeconds, htruncate, Option.getD_some], hn⟩

/-- A moment in the first `2 ^ 34` seconds has them exactly: a microsecond less is not rounded
up. -/
theorem wholeEpochSeconds_exact (hepoch : 0 ≤ m.epochMicros)
    (h : m.epochMicros < 1000000 * 2 ^ 34) :
    m.wholeEpochSeconds = m.epochMicros / 1000000 := by
  have hmicros : m.epochMicros.natAbs < 1000000 * 2 ^ (33 + 1) := by omega
  have htruncate := Binary64.truncate?_ofQuotient_exact (m.epochMicros < 0)
    (by decide) hmicros (by decide)
  have hsign : decide (m.epochMicros < 0) = false := decide_eq_false (by omega)
  rw [wholeEpochSeconds, epochSeconds, htruncate, Option.getD_some, Binary64.signed, hsign]
  simp only [Bool.false_eq_true, if_false]
  omega

/-- Clocks show fewer than ten thousand years, and are less than a day apart. -/
theorem natAbs_epochMicros_lt (h : m.offset.natAbs < 86400) : m.epochMicros.natAbs < 10 ^ 18 := by
  have hwall := m.wall_lt
  simp only [epochMicros, instant, dayMicros, Date.dayLimit] at hwall ⊢
  omega

theorem wholeEpochSeconds_lt (h : m.offset.natAbs < 86400) : m.wholeEpochSeconds < 10 ^ 13 := by
  have hmicros := natAbs_epochMicros_lt h
  obtain ⟨n, hwhole, hn⟩ := wholeEpochSeconds_cases (Nat.lt_trans hmicros (by decide))
  rw [hwhole, Binary64.signed]
  split <;> omega

theorem make?_eq {wall : Int} (hpos : 0 ≤ wall) (hlt : wall < (Date.dayLimit * dayMicros : Nat))
    (offset : Int) :
    ∃ m : Moment, make? wall offset = some m ∧ (m.wall : Int) = wall ∧ m.offset = offset :=
  ⟨⟨wall.toNat, offset, by omega⟩, by rw [make?, dif_pos ⟨hpos, hlt⟩],
    Int.toNat_of_nonneg hpos, rfl⟩

theorem offset_make? {wall offset : Int} (h : make? wall offset = some m) : m.offset = offset := by
  unfold make? at h
  split at h
  · cases h
    rfl
  · cases h

theorem offset_ofParts? {date : Date} {hour minute second micros : Nat} {offset : Int}
    (h : ofParts? date hour minute second micros offset = some m) : m.offset = offset := by
  unfold ofParts? at h
  split at h
  · exact offset_make? h
  · cases h

end Moment

theorem FeedStamp.offset_read? {s : String} {m : Moment} (h : read? s = some m) : m.offset = 0 := by
  simp only [read?, fields?, Option.bind_eq_bind, Option.bind_eq_some_iff] at h
  repeat obtain ⟨_, _, h⟩ := h
  exact Moment.offset_ofParts? h

end AdvisoryLedger

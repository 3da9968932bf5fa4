import AdvisoryLedger.Proofs.Feed.Page
import AdvisoryLedger.Proofs.Time.Epoch
import AdvisoryLedger.Proofs.Time.Stamp

namespace AdvisoryLedger

namespace Moment

/-- The year that a UTC clock shows, counted on where it has none. -/
def utcYear (m : Moment) : Nat := (Date.ofOrdinal (m.instant / dayMicros).toNat).year

theorem eq_of_parts {a b : Moment} (hwall : a.wall = b.wall)
    (hoffset : a.offset = b.offset) : a = b := by
  obtain ⟨wall, offset, _⟩ := a
  obtain ⟨wall', offset', _⟩ := b
  obtain rfl : wall = wall' := hwall
  obtain rfl : offset = offset' := hoffset
  rfl

/-- In a year with four digits there is a UTC clock, whatever the offset. -/
theorem utc?_of_utcYear {m : Moment} (hfirst : 1000 ≤ m.utcYear) (hlast : m.utcYear ≤ 9999) :
    ∃ u, m.utc? = some u ∧ (u.wall : Int) = m.instant ∧ u.date.year = m.utcYear := by
  have hbegun : Date.daysBeforeYear 1000 ≤ (m.instant / dayMicros).toNat :=
    Nat.le_of_not_lt fun hlt => Nat.not_lt.mpr hfirst (Date.yearOf_lt hlt)
  have hover : (m.instant / dayMicros).toNat < Date.daysBeforeYear 10000 :=
    Nat.lt_of_not_le fun hle => Nat.not_lt.mpr (Date.le_yearOf hle) (Nat.lt_succ_of_le hlast)
  have hdays : Date.daysBeforeYear 1000 = 364877 ∧
    Date.daysBeforeYear 10000 = Date.dayLimit := by decide
  rw [hdays.1] at hbegun
  rw [hdays.2] at hover
  have hpos : 0 ≤ m.instant := by
    simp only [dayMicros] at hbegun
    omega
  have hlt : m.instant < (Date.dayLimit * dayMicros : Nat) := by
    simp only [dayMicros, Date.dayLimit] at hover ⊢
    omega
  obtain ⟨u, hu, hwall, -⟩ := make?_eq hpos hlt 0
  refine ⟨u, hu, hwall, ?_⟩
  have hday : u.wall / dayMicros = (m.instant / dayMicros).toNat := by
    rw [← hwall, ← Int.natCast_ediv, Int.toNat_natCast]
  rw [date, hday, utcYear]

end Moment

namespace FeedStamp

/-- What may stand behind the seconds for so many microseconds: nothing for none, or up to six
digits behind a point. -/
inductive Fraction : Nat → List Char → Prop
  | absent : Fraction 0 []
  | digits {ds : List Char} : ds ≠ [] → ds.length ≤ 6 → (∀ c ∈ ds, c.isDigit = true) →
    Fraction (Nat.ofDigitChars 10 ds 0 * 10 ^ (6 - ds.length)) ('.' :: ds)

/-- The text is what a UTC clock shows, with nothing but blanks around it. -/
def Spells (s : String) (d : Moment) : Prop := ∃ front fraction zone back : List Char,
  s.toList = front ++ (Moment.dateText d.date ++ "T" ++ Moment.timeText d.secondOfDay).toList ++
    fraction ++ zone ++
    back ∧
  (∀ c ∈ front, Text.isBlank c = true) ∧ Fraction d.micros fraction ∧ (zone = [] ∨ zone = ['Z']) ∧
  ∀ c ∈ back, Text.isBlank c = true

theorem takeNumber?_digits {cs : List Char} (h : ∀ c ∈ cs, c.isDigit = true) (n : Nat) :
    Moment.takeNumber? cs.length n cs = some (Nat.ofDigitChars 10 cs n, []) := by
  induction cs generalizing n with
  | nil => rfl
  | cons c rest ih =>
    obtain ⟨hc, hrest⟩ := List.forall_mem_cons.mp h
    rw [List.length_cons, Moment.takeNumber?, if_pos hc, ih hrest, Nat.ofDigitChars_cons]
    rfl

variable {n : Nat} {cs : List Char}

theorem Fraction.tail?_eq (h : Fraction n cs) : tail? cs = some n := by
  cases h with
  | absent => rfl
  | @digits ds hne hlength hds =>
    have hpos : 1 ≤ ds.length := List.length_pos_iff.mpr hne
    have hzeros : ∀ c ∈ ds ++ List.replicate (6 - ds.length) '0', c.isDigit = true := by
      rw [List.forall_mem_append]
      refine ⟨hds, fun c hc => ?_⟩
      rw [List.eq_of_mem_replicate hc]
      rfl
    have hsix : (ds ++ List.replicate (6 - ds.length) '0').length = 6 := by
      rw [List.length_append, List.length_replicate]
      omega
    have hread := takeNumber?_digits hzeros 0
    rw [hsix, Nat.ofDigitChars_append, Nat.ofDigitChars_replicate_zero, Nat.mul_comm] at hread
    rw [tail?, fraction?, if_pos ⟨hpos, hlength, List.all_eq_true.mpr hds⟩, hread, Option.map_some]

theorem Fraction.isKept (h : Fraction n cs) : ∀ c ∈ cs, IsKept c := by
  cases h with
  | absent => simp
  | digits _ _ hds =>
    exact List.forall_mem_cons.mpr ⟨isKept_of_mark (by simp),
      fun c hc => isKept_of_isDigit (hds c hc)⟩

theorem Spells.read?_eq {s : String} {d : Moment} (h : Spells s d) (hd : d.offset = 0) :
    read? s = some d := by
  obtain ⟨front, fraction, zone, back, hs, hfront, hfraction, hzone, hback⟩ := h
  have hlist : s.toList = front ++
    (spelt (Text.padded 4 d.date.year).toList d.date (d.secondOfDay / 3600)
      (d.secondOfDay / 60 % 60) (d.secondOfDay % 60) fraction ++ zone) ++ back := by
    rw [hs]
    simp [String.toList_append, Moment.dateText, Moment.timeText, spelt]
  have hyear : d.date.year < 10 ^ 4 := Nat.lt_of_le_of_lt d.isValid_date.2.1 (by decide)
  have hmicros : d.micros < 1000000 := Nat.mod_lt _ (by decide)
  obtain ⟨r, hread, hoffset, hwall⟩ :=
    read?_spelt hlist hfront hback hzone (length_padded (by decide) hyear)
    (isDigit_padded _ _) (ofDigitChars_padded _ _) hfraction.isKept hfraction.tail?_eq hmicros
  have hsame : r.wall = d.wall := by
    rw [hwall]
    simp only [Moment.micros]
    omega
  rw [hread, Moment.eq_of_parts hsame (hoffset.trans hd.symm)]

end FeedStamp

open FeedStamp

/-- Every spelling of a moment in UTC is read as that moment. What is written of a moment on any
clock, in a year with four digits, is read as its whole seconds in UTC. -/
theorem Record.stamp_roundTrip :
    (∀ d : Moment, d.offset = 0 → ∀ s, Spells s d → stamp (.text s) = pure (some d)) ∧
    ∀ v : Moment, 1000 ≤ v.utcYear → v.utcYear ≤ 9999 → ∃ s r, write? v = some s ∧
      stamp (.text s) = pure (some r) ∧ r.offset = 0 ∧
        r.instant = v.instant - v.instant % 1000000 := by
  refine ⟨fun d hd s hs => stamp_of_read? (hs.read?_eq hd), ?_⟩
  intro v hfirst hlast
  obtain ⟨u, hu, hinstant, hyear⟩ := Moment.utc?_of_utcYear hfirst hlast
  obtain ⟨s, r, hwrite, hread, hoffset, hwall⟩ := read?_write? hu (hyear ▸ hfirst)
  refine ⟨s, r, hwrite, stamp_of_read? hread, hoffset, ?_⟩
  rw [Moment.instant, hoffset, hwall, ← hinstant]
  omega

/-- The last second of a leap day, with half a second in one digit. -/
def leapEvening : Moment := ⟨Date.ordinal ⟨2024, 2, 29⟩ * dayMicros + 86399500000, 0, by decide⟩

/-- Half past midnight on New Year's Day, where it is still last year in UTC. -/
def newYear : Moment := ⟨Date.ordinal ⟨2025, 1, 1⟩ * dayMicros + 1800000001, 19800, by decide⟩

theorem spells_leapEvening : Spells "\t2024-02-29T23:59:59.5Z \n" leapEvening := by
  refine ⟨['\t'], ['.', '5'], ['Z'], [' ', '\n'], ?_, ?_, ?_, .inr rfl, ?_⟩
  · decide +kernel
  · exact List.all_eq_true.mp (by decide)
  · have half : Fraction (Nat.ofDigitChars 10 ['5'] 0 * 10 ^ (6 - ['5'].length)) ['.', '5'] :=
      .digits (by decide) (by decide) (List.all_eq_true.mp (by decide))
    exact half
  · exact List.all_eq_true.mp (by decide)

theorem Record.stamp_roundTrip_leapEvening : leapEvening.offset = 0 ∧
    Spells "\t2024-02-29T23:59:59.5Z \n" leapEvening ∧
    stamp (.text "\t2024-02-29T23:59:59.5Z \n") = pure (some leapEvening) ∧ newYear.utcYear = 2024 ∧
    ∃ s r, write? newYear = some s ∧ stamp (.text s) = pure (some r) ∧ r.offset = 0 ∧
      r.instant = newYear.instant - newYear.instant % 1000000 := by
  have hyear : newYear.utcYear = 2024 := by decide +kernel
  obtain ⟨hspelt, hwritten⟩ := stamp_roundTrip
  exact ⟨rfl, spells_leapEvening, hspelt _ rfl _ spells_leapEvening, hyear,
    hwritten _ (by omega) (by omega)⟩

end AdvisoryLedger

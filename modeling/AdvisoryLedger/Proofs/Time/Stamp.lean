import AdvisoryLedger.Proofs.Text.Numeral
import AdvisoryLedger.Proofs.Time.Calendar
import AdvisoryLedger.Time.FeedStamp

namespace AdvisoryLedger

namespace FeedStamp

open Text

section Spelling

variable {classes : List CharClass} {spellings : List (List CharClass)}
    {cs ds : List Char} {n : Nat}

theorem spell_append (h : classes.length ≤ cs.length) :
    spell classes n (cs ++ ds) = (spell classes n cs).map fun p => (p.1, p.2 ++ ds) := by
  induction classes generalizing n cs with
  | nil => rfl
  | cons k rest ih =>
    cases cs with
    | nil => simp at h
    | cons c cs =>
      simp only [List.cons_append, spell]
      cases k c with
      | none => rfl
      | some d => exact ih (by simpa using h)

theorem spellAny_append (h : ∀ ks ∈ spellings, ks.length ≤ cs.length) :
    spellAny spellings (cs ++ ds) = (spellAny spellings cs).map fun p => (p.1, p.2 ++ ds) := by
  induction spellings with
  | nil => rfl
  | cons ks rest ih =>
    obtain ⟨hks, hrest⟩ := List.forall_mem_cons.mp h
    have ih := ih hrest
    simp only [spellAny, List.findSome?_cons, spell_append hks] at ih ⊢
    cases spell ks 0 cs with
    | none => exact ih
    | some p => rfl

theorem spell_digits (h : ∀ c ∈ cs, c.isDigit = true) :
    spell (List.replicate cs.length anyDigit) n (cs ++ ds) =
      some (Nat.ofDigitChars 10 cs n, ds) := by
  induction cs generalizing n with
  | nil => rfl
  | cons c cs ih =>
    obtain ⟨hc, hcs⟩ := List.forall_mem_cons.mp h
    simp only [List.length_cons, List.replicate_succ, List.cons_append, spell, anyDigit,
      digitValue?_of_isDigit hc]
    exact ih hcs

end Spelling

theorem toList_padded (width n : Nat) : (padded width n).toList =
    List.replicate (width - (Nat.toDigits 10 n).length) '0' ++ Nat.toDigits 10 n := by
  have hdigits : (toString n).toList = Nat.toDigits 10 n := Nat.toList_repr
  rw [padded, hdigits, String.toList_ofList]

theorem isDigit_padded (width n : Nat) : ∀ c ∈ (padded width n).toList, c.isDigit = true := by
  intro c hc
  rw [toList_padded] at hc
  rcases List.mem_append.mp hc with hc | hc
  · rw [List.eq_of_mem_replicate hc]
    rfl
  · exact isDigit_of_mem hc

theorem ofDigitChars_padded (width n : Nat) :
    Nat.ofDigitChars 10 (padded width n).toList 0 = n := by
  rw [toList_padded, Nat.ofDigitChars_append, Nat.ofDigitChars_replicate_zero, Nat.mul_zero,
    Nat.ofDigitChars_ten_toDigits]

theorem length_padded {width n : Nat} (hpos : 0 < width) (h : n < 10 ^ width) :
    (padded width n).toList.length = width := by
  have hle : (Nat.toDigits 10 n).length ≤ width :=
    (Nat.length_toDigits_le_iff (by decide) hpos).mpr h
  rw [toList_padded, List.length_append, List.length_replicate]
  omega

theorem spellAny_padded {spellings : List (List CharClass)}
    (h : ∀ ks ∈ spellings, ks.length ≤ 2) {n : Nat}
    (hn : spellAny spellings (padded 2 n).toList = some (n, [])) (ds : List Char) :
    spellAny spellings ((padded 2 n).toList ++ ds) = some (n, ds) := by
  have hlength : 2 ≤ (padded 2 n).toList.length := by
    rw [toList_padded, List.length_append, List.length_replicate]
    omega
  rw [spellAny_append fun ks hks => Nat.le_trans (h ks hks) hlength, hn]
  rfl

theorem spellAny_fields :
    (∀ n < 13, 1 ≤ n → spellAny monthForms (padded 2 n).toList = some (n, [])) ∧
      (∀ n < 32, 1 ≤ n → spellAny dayForms (padded 2 n).toList = some (n, [])) ∧
      (∀ n < 24, spellAny hourForms (padded 2 n).toList = some (n, [])) ∧
      (∀ n < 60, spellAny minuteForms (padded 2 n).toList = some (n, [])) ∧
      ∀ n < 60, spellAny secondForms (padded 2 n).toList = some (n, []) := by
  refine ⟨?_, ?_, ?_, ?_, ?_⟩ <;> decide +kernel

theorem spellAny_year {cs : List Char} (hlength : cs.length = 4) (hcs : ∀ c ∈ cs, c.isDigit = true)
    (ds : List Char) : spellAny yearForms (cs ++ ds) = some (Nat.ofDigitChars 10 cs 0, ds) := by
  have hspelt : spell (List.replicate 4 anyDigit) 0 (cs ++ ds) =
      some (Nat.ofDigitChars 10 cs 0, ds) := by
    rw [← hlength, spell_digits hcs]
  have hforms : yearForms = [List.replicate 4 anyDigit] := rfl
  rw [spellAny, hforms, List.findSome?_cons, hspelt]

/-- Date and time of day as they are written, up to what follows the seconds. -/
def spelt (year : List Char) (d : Date) (hour minute second : Nat) (tail : List Char) : List Char :=
  year ++ '-' :: ((padded 2 d.month).toList ++ '-' :: ((padded 2 d.day).toList ++ 'T' ::
    ((padded 2 hour).toList ++ ':' ::
      ((padded 2 minute).toList ++ ':' :: ((padded 2 second).toList ++ tail)))))

theorem fields?_spelt {year tail : List Char} {d : Date} {hour minute second micros : Nat}
    (hd : d.IsValid) (hyear : ∀ ds, spellAny yearForms (year ++ ds) = some (d.year, ds))
    (hhour : hour < 24) (hminute : minute < 60) (hsecond : second < 60)
    (htail : tail? tail = some micros) :
    fields? (spelt year d hour minute second tail) =
      Moment.ofParts? d hour minute second micros 0 := by
  obtain ⟨-, -, hone, hle, hfirst, hlast⟩ := hd
  have hlength : Date.daysInMonth d.year d.month ≤ 31 := by
    unfold Date.daysInMonth
    repeat' split
    all_goals omega
  obtain ⟨months, days, hours, minutes, seconds⟩ := spellAny_fields
  have month := spellAny_padded (by decide) (months d.month (by omega) hone)
  have day := spellAny_padded (by decide) (days d.day (by omega) hfirst)
  have hour := spellAny_padded (by decide) (hours hour hhour)
  have minute := spellAny_padded (by decide) (minutes minute hminute)
  have second := spellAny_padded (by decide) (seconds second hsecond)
  simp only [fields?, spelt, hyear, month, day, hour, minute, second, Moment.takeChar?, if_true,
    htail, Option.bind_eq_bind, Option.bind_some, Option.orElse_eq_orElse, Option.orElse_some]

/-- A character that neither trimming nor the end of a timestamp takes away. -/
def IsKept (c : Char) : Prop := isBlank c = false ∧ c ≠ 'Z'

theorem isKept_of_isDigit {c : Char} (h : c.isDigit = true) : IsKept c := by
  refine ⟨isBlank_of_isDigit h, ?_⟩
  rintro rfl
  exact absurd h (by decide)

theorem isKept_of_mark {c : Char} (h : c ∈ ['-', 'T', ':', '.']) : IsKept c := by
  simp only [List.mem_cons, List.not_mem_nil, or_false] at h
  rcases h with rfl | rfl | rfl | rfl <;> exact ⟨by decide, by decide⟩

theorem isKept_spelt {year tail : List Char} (hyear : ∀ c ∈ year, c.isDigit = true)
    (htail : ∀ c ∈ tail, IsKept c)
    (d : Date) (hour minute second : Nat) :
    ∀ c ∈ spelt year d hour minute second tail, IsKept c := by
  have hpadded (n : Nat) : ∀ c ∈ (padded 2 n).toList, IsKept c := fun c hc =>
    isKept_of_isDigit (isDigit_padded 2 n c hc)
  rw [spelt]
  simp only [List.forall_mem_append, List.forall_mem_cons]
  exact ⟨fun c hc => isKept_of_isDigit (hyear c hc), isKept_of_mark (by simp), hpadded d.month,
    isKept_of_mark (by simp), hpadded d.day, isKept_of_mark (by simp), hpadded hour,
      isKept_of_mark (by simp),
    hpadded minute, isKept_of_mark (by simp), hpadded second, htail⟩

theorem core_surrounded {s : String} {front cs zone back : List Char}
    (hs : s.toList = front ++ (cs ++ zone) ++ back)
    (hfront : ∀ c ∈ front, isBlank c = true) (hcs : ∀ c ∈ cs, IsKept c)
    (hzone : zone = [] ∨ zone = ['Z']) (hback : ∀ c ∈ back, isBlank c = true) : core s = cs := by
  have hblank : ∀ c ∈ cs ++ zone, isBlank c = false := by
    rw [List.forall_mem_append]
    refine ⟨fun c hc => (hcs c hc).1, ?_⟩
    rcases hzone with rfl | rfl
    · exact List.forall_mem_nil _
    · exact List.forall_mem_singleton.mpr (by decide)
  rw [core, trimChars, hs, trimBy_surrounded hfront hblank hback]
  rcases hzone with rfl | rfl
  · rw [List.append_nil]
    split
    · next hz => exact absurd rfl (hcs 'Z' (List.mem_reverse.mp (hz ▸ List.mem_cons_self))).2
    · rfl
  · simp

end FeedStamp

namespace Moment

theorem ordinal_date (m : Moment) : m.date.ordinal = m.wall / dayMicros := Date.ordinal_ofOrdinal _

theorem isValid_date (m : Moment) : m.date.IsValid := by
  have hwall := m.wall_lt
  exact Date.isValid_ofOrdinal (Nat.div_lt_of_lt_mul (by rwa [Nat.mul_comm]))

theorem secondOfDay_lt (m : Moment) : m.secondOfDay < 86400 := by
  simp only [secondOfDay, dayMicros]
  omega

/-- The parts that a clock shows make up the moment again, with the microseconds that go with
them. -/
theorem ofParts?_parts (m : Moment) {micros : Nat} (h : micros < 1000000) :
    ∃ r : Moment, r.offset = 0 ∧ r.wall = m.wall / 1000000 * 1000000 + micros ∧
      ofParts? m.date (m.secondOfDay / 3600) (m.secondOfDay / 60 % 60)
        (m.secondOfDay % 60) micros 0 = some r := by
  have hwall := m.wall_lt
  have hday := m.secondOfDay_lt
  have hsum : (m.date.ordinal * 86400 + m.secondOfDay / 3600 * 3600 + m.secondOfDay / 60 % 60 * 60 +
      m.secondOfDay % 60) * 1000000 + micros = m.wall / 1000000 * 1000000 + micros := by
    simp only [ordinal_date, secondOfDay, dayMicros]
    omega
  have hlt : m.wall / 1000000 * 1000000 + micros < Date.dayLimit * dayMicros := by
    simp only [dayMicros] at hwall ⊢
    omega
  refine ⟨⟨m.wall / 1000000 * 1000000 + micros, 0, hlt⟩, rfl, rfl, ?_⟩
  rw [ofParts?, if_pos ⟨m.isValid_date, by omega, by omega, by omega, h⟩, hsum, make?,
    dif_pos (by omega)]
  rfl

end Moment

namespace FeedStamp

/-- Date and time of day of a moment on a UTC clock are read as that moment, with the microseconds
that stand behind them. -/
theorem read?_spelt {s : String} {u : Moment} {front year tail zone back : List Char} {micros : Nat}
    (hs : s.toList = front ++ (spelt year u.date (u.secondOfDay / 3600) (u.secondOfDay / 60 % 60)
      (u.secondOfDay % 60) tail ++ zone) ++ back)
    (hfront : ∀ c ∈ front, Text.isBlank c = true) (hback : ∀ c ∈ back, Text.isBlank c = true)
    (hzone : zone = [] ∨ zone = ['Z']) (hlength : year.length = 4)
    (hyear : ∀ c ∈ year, c.isDigit = true)
    (hvalue : Nat.ofDigitChars 10 year 0 = u.date.year) (htail : ∀ c ∈ tail, IsKept c)
    (hfraction : tail? tail = some micros) (hmicros : micros < 1000000) :
    ∃ r, read? s = some r ∧ r.offset = 0 ∧ r.wall = u.wall / 1000000 * 1000000 + micros := by
  obtain ⟨r, hoffset, hwall, hparts⟩ := u.ofParts?_parts hmicros
  have hday := u.secondOfDay_lt
  have hhour : u.secondOfDay / 3600 < 24 := by omega
  have hminute : u.secondOfDay / 60 % 60 < 60 := by omega
  have hsecond : u.secondOfDay % 60 < 60 := by omega
  have hspelt (ds : List Char) : spellAny yearForms (year ++ ds) = some (u.date.year, ds) := by
    rw [spellAny_year hlength hyear, hvalue]
  have hcore := core_surrounded hs hfront (isKept_spelt hyear htail _ _ _ _) hzone hback
  have hfields := fields?_spelt u.isValid_date hspelt hhour hminute hsecond hfraction
  exact ⟨r, by rw [read?, hcore, hfields, hparts], hoffset, hwall⟩

theorem length_toDigits_year {n : Nat} (hfirst : 1000 ≤ n) (hlast : n ≤ 9999) :
    (Nat.toDigits 10 n).length = 4 := by
  have hle : (Nat.toDigits 10 n).length ≤ 4 :=
    (Nat.length_toDigits_le_iff (by decide) (by decide)).mpr (by omega)
  have hlt : ¬(Nat.toDigits 10 n).length ≤ 3 := by
    rw [Nat.length_toDigits_le_iff (by decide) (by decide)]
    omega
  omega

/-- What is written of a moment is read as it shows on a UTC clock, without the microseconds. -/
theorem read?_write? {m u : Moment} (hu : m.utc? = some u) (hyear : 1000 ≤ u.date.year) :
    ∃ s r, write? m = some s ∧ read? s = some r ∧ r.offset = 0 ∧
      r.wall = u.wall / 1000000 * 1000000 := by
  obtain ⟨s, hs, hlist⟩ : ∃ s, write? m = some s ∧
    s.toList = [] ++ (spelt (Nat.toDigits 10 u.date.year) u.date
      (u.secondOfDay / 3600) (u.secondOfDay / 60 % 60) (u.secondOfDay % 60) ['.', '0', '0', '0'] ++
        ['Z']) ++ [] := by
    refine ⟨_, by rw [write?, hu]; rfl, ?_⟩
    simp [String.toList_append, Moment.timeText, spelt]
  have hnone : ∀ c ∈ ([] : List Char), Text.isBlank c = true := by simp
  have hfraction : ∀ c ∈ ['.', '0', '0', '0'], IsKept c := by
    have hzero : IsKept '0' := isKept_of_isDigit (by decide)
    simp only [List.forall_mem_cons]
    exact ⟨isKept_of_mark (by simp), hzero, hzero, hzero, List.forall_mem_nil _⟩
  have hzeros : tail? ['.', '0', '0', '0'] = some 0 := by decide
  obtain ⟨r, hread, hoffset, hwall⟩ := read?_spelt hlist hnone hnone (.inr rfl)
    (length_toDigits_year hyear u.isValid_date.2.1) (fun _ hc => Text.isDigit_of_mem hc)
    Nat.ofDigitChars_ten_toDigits hfraction hzeros (by omega)
  exact ⟨s, r, hs, hread, hoffset, hwall.trans (Nat.add_zero _)⟩

end FeedStamp

end AdvisoryLedger

import AdvisoryLedger.Diff.Advisory
import AdvisoryLedger.Proofs.Diff.Basic
import AdvisoryLedger.Proofs.Json.Proper
import AdvisoryLedger.Proofs.Advisory.Severity

namespace AdvisoryLedger

namespace Advisory

/-- One column has been taken over from another advisory, and nothing else. -/
structure Takes (a b : Advisory) (c : Column) (new : Advisory) : Prop where
  cell : new.cell c = b.cell c
  others : ∀ d, d ≠ c → new.cell d = a.cell d
  explicitSeverity : new.explicitSeverity = a.explicitSeverity
  naturalKey : new.naturalKey = a.naturalKey
  id : new.id = a.id

theorem setCell?_takes (a b : Advisory) (c : Column) :
    ∃ new, a.setCell? c (b.cell c) = some new ∧ Takes a b c new := by
  cases c
  all_goals
    apply Exists.intro
    constructor
    · simp only [setCell?, Advisory.cell, Cell.text?_ofText?, Cell.score?_ofScore?,
        Cell.moment?_ofMoment?, Cell.ints?_ofInts, Cell.json?, Option.map_some]
      exact rfl
    · refine ⟨rfl, ?_, rfl, rfl, rfl⟩
      intro d hd
      cases d <;> first | rfl | exact absurd rfl hd

def taken (p : OverwritePolicy) (before after : Cell) : Cell :=
  if (p = .ifPresent ∧ after.isNull = true) ∨ before.same after = true then before else after

/-- Several columns have been taken over, each by its policy, and nothing else. -/
structure TakesAll (a b : Advisory) (columns : List Column) (new : Advisory) : Prop where
  cell : ∀ c ∈ columns, new.cell c = taken (policyOf c) (a.cell c) (b.cell c)
  others : ∀ c, c ∉ columns → new.cell c = a.cell c
  explicitSeverity : new.explicitSeverity = a.explicitSeverity
  naturalKey : new.naturalKey = a.naturalKey
  id : new.id = a.id

theorem apply_column (d : Differ Advisory) (c : Column) :
    ∃ r e, d.apply (columnAttribute c) = (.ok r, e) ∧ e.reported = d.reported ∧
      TakesAll d.existing d.reported [c] e.existing := by
  by_cases hk : (policyOf c = .ifPresent ∧ (d.reported.cell c).isNull = true) ∨
      (d.existing.cell c).same (d.reported.cell c) = true
  · refine ⟨false, d, Differ.apply_of_same rfl rfl hk, rfl, ?_, fun _ _ => rfl, rfl, rfl, rfl⟩
    intro c' hc
    rw [List.mem_singleton.mp hc, taken, if_pos hk]
  · obtain ⟨new, hset, ht⟩ := setCell?_takes d.existing d.reported c
    have hw : (columnAttribute c).write d.existing (d.reported.cell c) = .ok new := by
      simp only [columnAttribute, hset]
    refine ⟨true, _, Differ.apply_of_write rfl rfl hk hw, rfl, ?_, ?_, ht.explicitSeverity,
      ht.naturalKey,
      ht.id⟩
    · intro c' hc
      rw [List.mem_singleton.mp hc, taken, if_neg hk]
      exact ht.cell
    · intro c' hc
      exact ht.others c' (by simpa using hc)

theorem applyEach_columns (columns : List Column) (hn : columns.Nodup)
    (rest : List (Attribute Advisory)) (d : Differ Advisory) :
    ∃ e : Differ Advisory, d.applyEach (columns.map columnAttribute ++ rest) = e.applyEach rest ∧
      e.reported = d.reported ∧ TakesAll d.existing d.reported columns e.existing := by
  induction columns generalizing d with
  | nil => exact ⟨d, rfl, rfl, by simp, fun _ _ => rfl, rfl, rfl, rfl⟩
  | cons c columns ih =>
    obtain ⟨hc, hn⟩ := List.nodup_cons.mp hn
    obtain ⟨r, e, he, hr, ht⟩ := apply_column d c
    obtain ⟨g, hg, hgr, hgt⟩ := ih hn e
    refine ⟨g, ?_, hgr.trans hr, ?_, ?_, hgt.explicitSeverity.trans ht.explicitSeverity,
      hgt.naturalKey.trans ht.naturalKey, hgt.id.trans ht.id⟩
    · rw [List.map_cons, List.cons_append, Differ.applyEach, he]
      exact hg
    · intro c' hc'
      rcases List.mem_cons.mp hc' with rfl | hc'
      · rw [hgt.others c' hc]
        exact ht.cell c' (by simp)
      · have hne : c' ∉ [c] := by
          intro hm
          exact hc (List.mem_singleton.mp hm ▸ hc')
        rw [hgt.cell c' hc', ht.others c' hne, hr]
    · intro c' hc'
      obtain ⟨hne, hm⟩ := not_or.mp (mt List.mem_cons.mpr hc')
      rw [hgt.others c' hm, ht.others c' (by simpa using hne)]

end Advisory

theorem Severity.name_inj {s t : Severity} : s.name = t.name ↔ s = t := by
  constructor
  · intro h
    exact Option.some.inj ((ofName?_name s).symm.trans
      ((congrArg ofName? h).trans (ofName?_name t)))
  · intro h
    rw [h]

namespace Advisory

theorem same_severity_iff (a b : Advisory) :
    (Cell.text a.severity.name).same (.text b.severity.name) = true ↔ a.severity = b.severity := by
  simp [Cell.same, Json.same, Severity.name_inj]

/-- The columns that are taken over before the severity, and those behind it. -/
def headColumns : List Column := Column.all.takeWhile (· ≠ .cvss2Base)

def tailColumns : List Column := Column.all.dropWhile (· ≠ .cvss2Base)

theorem mem_columns (c : Column) :
    (c ∈ headColumns ∧ c ∉ tailColumns) ∨ (c ∉ headColumns ∧ c ∈ tailColumns) := by
  cases c <;> decide

theorem policyOf_headColumns : ∀ c ∈ headColumns, policyOf c = .always := by decide

theorem policyOf_decidingColumns : ∀ c ∈ decidingColumns, policyOf c = .always := by decide

theorem decidingColumns_notMem : ∀ c ∈ decidingColumns, c ∉ headColumns := by decide

/-- Assigning a severity leaves all columns but the scores, which are never kept back. -/
theorem cell_assignSeverity (a : Advisory) (s : Option Severity) (c : Column) :
    (a.assignSeverity s).cell c = a.cell c ∨
      (c ∉ headColumns ∧ policyOf c = .always ∧ (a.assignSeverity s).cell c = .null) := by
  cases c <;> first | exact .inl rfl | exact .inr ⟨by decide, rfl, rfl⟩

/-- The severity has been taken over, which costs scores where it was another one. -/
structure TakesSeverity (a b new : Advisory) : Prop where
  cell : ∀ c, new.cell c = a.cell c ∨ (c ∉ headColumns ∧ policyOf c = .always ∧ new.cell c = .null)
  explicitSeverity : new.explicitSeverity =
    if a.severity = b.severity then a.explicitSeverity else some b.severity
  naturalKey : new.naturalKey = a.naturalKey
  id : new.id = a.id

theorem applyEach_severity (rest : List (Attribute Advisory)) (d : Differ Advisory) :
    ∃ e : Differ Advisory, d.applyEach (severityAttribute :: rest) = e.applyEach rest ∧
      e.reported = d.reported ∧ TakesSeverity d.existing d.reported e.existing := by
  by_cases hs : d.existing.severity = d.reported.severity
  · refine ⟨d, ?_, rfl, fun c => .inl rfl, (if_pos hs).symm, rfl, rfl⟩
    rw [Differ.applyEach,
      Differ.apply_of_same rfl rfl (.inr ((same_severity_iff d.existing d.reported).mpr hs))]
  · have hn : ¬((severityAttribute.policy = .ifPresent ∧
      (Cell.text d.reported.severity.name).isNull = true) ∨
        (Cell.text d.existing.severity.name).same (.text d.reported.severity.name) = true) := by
      rintro (⟨hp, -⟩ | hsame)
      · cases hp
      · exact hs ((same_severity_iff d.existing d.reported).mp hsame)
    have hw : severityAttribute.write d.existing (.text d.reported.severity.name) =
        .ok (d.existing.assignSeverity (some d.reported.severity)) := by
      simp only [severityAttribute, Severity.ofName?_name]
    have happly := Differ.apply_of_write rfl rfl hn hw
    refine ⟨(d.apply severityAttribute).2, ?_, ?_, ?_⟩
    · rw [Differ.applyEach, happly]
    · rw [happly]
    · rw [happly]
      exact ⟨cell_assignSeverity d.existing (some d.reported.severity), (if_neg hs).symm, rfl, rfl⟩

/-- An advisory as a report leaves it. -/
structure Updated (existing reported new : Advisory) : Prop where
  always : ∀ c, policyOf c = .always → new.cell c = reported.cell c ∨
    (new.cell c = existing.cell c ∧ (existing.cell c).same (reported.cell c) = true)
  ifPresent : ∀ c, policyOf c = .ifPresent →
    new.cell c = taken .ifPresent (existing.cell c) (reported.cell c)
  explicitSeverity : new.explicitSeverity =
    if existing.severity = reported.severity then existing.explicitSeverity
      else some reported.severity
  naturalKey : new.naturalKey = existing.naturalKey
  id : new.id = existing.id

theorem taken_always (before after : Cell) : taken .always before after = after ∨
    (taken .always before after = before ∧ before.same after = true) := by
  unfold taken
  split
  · next h => exact .inr ⟨rfl, h.resolve_left (by simp)⟩
  · exact .inl rfl

theorem taken_null (after : Cell) : taken .always .null after = after := by
  rcases taken_always .null after with h | ⟨h, hs⟩
  · exact h
  · rw [h, (Cell.null_same_iff after).mp hs]

theorem TakesAll.severity {a b new : Advisory} (h : TakesAll a b headColumns new) :
    new.severity = a.severity := by
  have hd : new.derivedSeverity = a.derivedSeverity := by
    apply derivedSeverity_congr
    intro c hc
    exact .inl (h.others c (decidingColumns_notMem c hc))
  rw [Advisory.severity, Advisory.severity, h.explicitSeverity, hd]

/-- The columns before the severity, the severity, and then the rest. -/
theorem Updated.of_stages {a b a₁ a₂ new : Advisory} (hhead : TakesAll a b headColumns a₁)
    (hsev : TakesSeverity a₁ b a₂) (htail : TakesAll a₂ b tailColumns new) : Updated a b new := by
  refine ⟨?_, ?_, ?_, htail.naturalKey.trans (hsev.naturalKey.trans hhead.naturalKey),
    htail.id.trans (hsev.id.trans hhead.id)⟩
  · intro c hp
    rcases mem_columns c with ⟨hch, hct⟩ | ⟨hch, hct⟩
    · have hc := (hsev.cell c).resolve_right (fun h => h.1 hch)
      rw [htail.others c hct, hc, hhead.cell c hch, hp]
      exact taken_always _ _
    · rw [htail.cell c hct, hp]
      rcases hsev.cell c with hc | ⟨-, -, hc⟩
      · rw [hc, hhead.others c hch]
        exact taken_always _ _
      · rw [hc]
        exact .inl (taken_null _)
  · intro c hp
    have hch : c ∉ headColumns := by
      intro hm
      have halways := policyOf_headColumns c hm
      rw [hp] at halways
      cases halways
    have hct := ((mem_columns c).resolve_left (fun h => hch h.1)).2
    have hc := (hsev.cell c).resolve_right (by simp [hp])
    rw [htail.cell c hct, hc, hhead.others c hch, hp]
  · rw [htail.explicitSeverity, hsev.explicitSeverity, hhead.severity, hhead.explicitSeverity]

theorem applyEach_attributes (existing reported : Advisory) :
    ∃ e : Differ Advisory, Differ.applyEach ⟨existing, reported, []⟩ attributes = (.ok (), e) ∧
      Updated existing reported e.existing := by
  obtain ⟨d₁, h₁, hr₁, hhead⟩ := applyEach_columns headColumns (by decide)
    (severityAttribute :: tailColumns.map columnAttribute) ⟨existing, reported, []⟩
  obtain ⟨d₂, h₂, hr₂, hsev⟩ := applyEach_severity (tailColumns.map columnAttribute) d₁
  obtain ⟨d₃, h₃, -, htail⟩ := applyEach_columns tailColumns (by decide) [] d₂
  rw [List.append_nil] at h₃
  rw [hr₁] at hsev
  rw [hr₂, hr₁] at htail
  exact ⟨d₃, h₁.trans (h₂.trans h₃), .of_stages hhead hsev htail⟩

theorem mem_attributes (a : Attribute Advisory) :
    a ∈ attributes ↔ a = severityAttribute ∨ ∃ c, columnAttribute c = a := by
  have h : attributes =
      headColumns.map columnAttribute ++ severityAttribute :: tailColumns.map columnAttribute := rfl
  rw [h, List.mem_append, List.mem_cons, List.mem_map, List.mem_map]
  constructor
  · rintro (⟨c, -, hc⟩ | hs | ⟨c, -, hc⟩)
    · exact .inr ⟨c, hc⟩
    · exact .inl hs
    · exact .inr ⟨c, hc⟩
  · rintro (hs | ⟨c, hc⟩)
    · exact .inr (.inl hs)
    · rcases mem_columns c with ⟨hhead, -⟩ | ⟨-, htail⟩
      · exact .inl ⟨c, hhead, hc⟩
      · exact .inr (.inr ⟨c, htail, hc⟩)

theorem isReadable_of_mem : ∀ a ∈ attributes, a.IsReadable := by
  intro a ha record
  rcases (mem_attributes a).mp ha with rfl | ⟨c, rfl⟩ <;> rfl

theorem applyEach_attributes_ok (existing reported : Advisory) :
    (Differ.applyEach ⟨existing, reported, []⟩ attributes).1 = .ok () := by
  obtain ⟨e, he, -⟩ := applyEach_attributes existing reported
  rw [he]

theorem updated_update (existing reported : Advisory) :
    Updated existing reported (existing.update reported).existing := by
  obtain ⟨e, he, hu⟩ := applyEach_attributes existing reported
  rw [update,
    Differ.existing_applyAll isReadable_of_mem (applyEach_attributes_ok existing reported), he]
  exact hu

/-- No cell holds a NaN, or an object that names a member twice, not even inside. -/
def IsProper (a : Advisory) : Prop := ∀ c, (a.cell c).isProper = true

/-- An advisory as feeds report it, its severity left to its scores. -/
structure IsPlain (a : Advisory) : Prop where
  explicitSeverity : a.explicitSeverity = none
  proper : a.IsProper

namespace Updated

variable {existing reported new : Advisory}

theorem same_of_always (h : Updated existing reported new) (hr : reported.IsProper) {c : Column}
    (hp : policyOf c = .always) : (new.cell c).same (reported.cell c) = true := by
  rcases h.always c hp with hc | ⟨hc, hs⟩
  · rw [hc]
    exact Cell.same_self (hr c)
  · rw [hc]
    exact hs

theorem derivedSeverity (h : Updated existing reported new) :
    new.derivedSeverity = reported.derivedSeverity := by
  apply derivedSeverity_congr
  intro c hc
  have hp : policyOf c = .always := policyOf_decidingColumns c hc
  rcases h.always c hp with hn | ⟨hn, hs⟩
  · exact .inl hn
  · rw [hn]
    exact .inr hs

/-- A severity that was assigned before stays only where it is the one that the new scores give. -/
theorem severity (h : Updated existing reported new) (hr : reported.explicitSeverity = none) :
    new.severity = reported.severity := by
  rw [Advisory.severity, h.explicitSeverity, h.derivedSeverity]
  split
  · next hs =>
    rw [← hs, Advisory.severity]
    cases he : existing.explicitSeverity with
    | some s => rfl
    | none =>
      rw [Advisory.severity, Advisory.severity, he, hr] at hs
      exact hs.symm
  · rfl

theorem isProper (h : Updated existing reported new) (he : existing.IsProper)
    (hr : reported.IsProper) :
    new.IsProper := by
  intro c
  cases hp : policyOf c with
  | always =>
    rcases h.always c hp with hc | ⟨hc, -⟩
    · exact hc ▸ hr c
    · exact hc ▸ he c
  | ifPresent =>
    rw [h.ifPresent c hp, taken]
    split
    · exact he c
    · exact hr c

/-- A column changes where the report differs, unless it says nothing of a value that is not taken
away. -/
theorem changed_iff (h : Updated existing reported new) (he : existing.IsProper) (c : Column) :
    (existing.cell c).same (new.cell c) = false ↔ (existing.cell c).same (reported.cell c) = false ∧
      (policyOf c = .ifPresent → (reported.cell c).isNull = false) := by
  have hself := Cell.same_self (he c)
  cases hp : policyOf c with
  | always =>
    rcases h.always c hp with hc | ⟨hc, hs⟩
    · simp [hc]
    · simp [hc, hself, hs]
  | ifPresent =>
    rw [h.ifPresent c hp, taken]
    split
    · next hk =>
      rcases hk with ⟨-, hn⟩ | hs
      · simp [hself, hn]
      · simp [hself, hs]
    · next hk =>
      obtain ⟨hn, -⟩ := not_or.mp hk
      have hn : (reported.cell c).isNull = false := by simpa using hn
      simp [hn]

end Updated

/-- What a report has to bring for the stored advisory to change. -/
def Differs (stored reported : Advisory) : Prop :=
  (∃ c, policyOf c = .always ∧ (stored.cell c).same (reported.cell c) = false) ∨
    stored.severity ≠ reported.severity ∨
    ∃ c, policyOf c = .ifPresent ∧ (reported.cell c).isNull = false ∧
      (stored.cell c).same (reported.cell c) = false

theorem updated_of_not_differs {stored reported : Advisory} (h : ¬ stored.Differs reported) :
    Updated stored reported stored := by
  obtain ⟨halways, hrest⟩ := not_or.mp h
  obtain ⟨hsev, hpresent⟩ := not_or.mp hrest
  refine ⟨?_, ?_, (if_pos (not_not.mp hsev)).symm, rfl, rfl⟩
  · intro c hp
    refine .inr ⟨rfl, ?_⟩
    by_contra hs
    exact halways ⟨c, hp, by simpa using hs⟩
  · intro c hp
    rw [taken, if_pos]
    by_contra hk
    obtain ⟨hn, hs⟩ := not_or.mp hk
    exact hpresent ⟨c, hp, by simpa using hn, by simpa using hs⟩

/-- Scores that are dropped on the way and then taken over as they were do not count as changed. -/
theorem isChanged_update {existing reported : Advisory} (he : existing.IsProper)
    (hr : reported.IsPlain) :
    (existing.update reported).isChanged = true ↔ existing.Differs reported := by
  have hu := updated_update existing reported
  have hok := applyEach_attributes_ok existing reported
  have hchanged := Differ.isChanged_applyAll isReadable_of_mem hok (by decide +kernel)
  rw [← Differ.existing_applyAll isReadable_of_mem hok] at hchanged
  refine hchanged.trans ?_
  change (∃ a ∈ attributes, (a.value existing).same
    (a.value (existing.update reported).existing) = false) ↔ _
  constructor
  · rintro ⟨a, ha, hs⟩
    rcases (mem_attributes a).mp ha with rfl | ⟨c, rfl⟩
    · refine .inr (.inl ?_)
      intro hsev
      have hsame := (same_severity_iff existing _).mpr
        (hsev.trans (hu.severity hr.explicitSeverity).symm)
      exact absurd (hs.symm.trans hsame) (by decide)
    · obtain ⟨hs, hn⟩ := (hu.changed_iff he c).mp hs
      cases hp : policyOf c with
      | always => exact .inl ⟨c, hp, hs⟩
      | ifPresent => exact .inr (.inr ⟨c, hp, hn hp, hs⟩)
  · rintro (⟨c, hp, hs⟩ | hs | ⟨c, hp, hn, hs⟩)
    · exact ⟨columnAttribute c, (mem_attributes _).mpr (.inr ⟨c, rfl⟩),
        (hu.changed_iff he c).mpr ⟨hs, by simp [hp]⟩⟩
    · refine ⟨severityAttribute, (mem_attributes _).mpr (.inl rfl), ?_⟩
      rw [← Bool.not_eq_true]
      intro hsame
      exact hs (((same_severity_iff existing _).mp hsame).trans (hu.severity hr.explicitSeverity))
    · exact ⟨columnAttribute c, (mem_attributes _).mpr (.inr ⟨c, rfl⟩),
        (hu.changed_iff he c).mpr ⟨hs, fun _ => hn⟩⟩

end Advisory

end AdvisoryLedger

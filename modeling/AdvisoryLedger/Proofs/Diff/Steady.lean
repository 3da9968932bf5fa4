import AdvisoryLedger.Proofs.Diff.Advisory
import AdvisoryLedger.Proofs.Range.Identity

namespace AdvisoryLedger

theorem Cell.same_nan (c : Cell) : c.same (.json (.real .nan)) = false := by
  cases c with
  | moment m => rfl
  | json v =>
    cases v <;> simp [same, Json.same, Json.sameNumber, Json.Number.same, Json.sameWhole,
      Binary64.same_nan]

def Cell.isHashable : Cell → Bool
  | .json v => v.isHashable
  | .moment _ => true

/-- What is the same as a value that can be looked up is the same as itself. -/
theorem Cell.same_self_of_same {c d : Cell} (hd : d.isHashable = true) (h : c.same d = true) :
    c.same c = true := by
  cases c with
  | moment m => simp [same, Moment.same]
  | json v =>
    cases d with
    | moment m => cases h
    | json w =>
      have hv : v.isHashable = true := Json.isHashable_of_same hd h
      have hn : v.isNan = false := Json.isNan_of_same h
      obtain ⟨content, hc, -⟩ := (Json.same_iff hv hn w).mp h
      exact (Json.same_iff hv hn v).mpr ⟨content, hc, hc⟩

namespace Advisory

attribute [ext] CvssRating OwaspRating Advisory

/-- The columns, the severity that was assigned, the identity and the row make up the advisory. -/
theorem eq_of_cells {a b : Advisory} (h : ∀ c, a.cell c = b.cell c)
    (hs : a.explicitSeverity = b.explicitSeverity) (hk : a.naturalKey = b.naturalKey)
    (hi : a.id = b.id) :
    a = b := by
  have text (c : Column) := congrArg Cell.text? (h c)
  have score (c : Column) := congrArg Cell.score? (h c)
  have moment (c : Column) := congrArg Cell.moment? (h c)
  have json (c : Column) := congrArg Cell.json? (h c)
  have cwes := congrArg Cell.ints? (h .cwes)
  simp only [cell, Cell.ints?_ofInts, Option.some.injEq] at cwes
  obtain ⟨hsource, hvulnId⟩ := Prod.mk.inj hk
  ext1
  case cvss2 =>
    ext1
    · simpa [cell] using score .cvss2Base
    · simpa [cell] using score .cvss2Impact
    · simpa [cell] using score .cvss2Exploitability
    · simpa [cell, Cell.json?] using json .cvss2Vector
  case cvss3 =>
    ext1
    · simpa [cell] using score .cvss3Base
    · simpa [cell] using score .cvss3Impact
    · simpa [cell] using score .cvss3Exploitability
    · simpa [cell, Cell.json?] using json .cvss3Vector
  case owasp =>
    ext1
    · simpa [cell] using score .owaspLikelihood
    · simpa [cell] using score .owaspTechnicalImpact
    · simpa [cell] using score .owaspBusinessImpact
    · simpa [cell, Cell.json?] using json .owaspVector
  · exact hvulnId
  · exact hsource
  · simpa [cell] using text .title
  · simpa [cell] using text .subTitle
  · simpa [cell] using text .description
  · simpa [cell] using text .detail
  · simpa [cell] using text .recommendation
  · simpa [cell] using text .references
  · simpa [cell] using text .credits
  · simpa [cell] using moment .created
  · simpa [cell] using moment .published
  · simpa [cell] using moment .updated
  · exact cwes
  · simpa [cell] using text .vulnerableVersions
  · simpa [cell] using text .patchedVersions
  · simpa [cell] using score .epssScore
  · simpa [cell] using score .epssPercentile
  · exact hs
  · exact hi

/-- Every cell is the same as itself; a NaN never is. -/
def IsSteady (a : Advisory) : Prop := ∀ c, (a.cell c).same (a.cell c) = true

theorem IsProper.isSteady {a : Advisory} (h : a.IsProper) : a.IsSteady :=
  fun c => Cell.same_self (h c)

/-- There is no NaN in the advisory, and its vectors can be looked up. -/
structure IsRegular (a : Advisory) : Prop where
  proper : a.IsProper
  cvss2 : a.cvss2.vector.isHashable = true
  cvss3 : a.cvss3.vector.isHashable = true
  owasp : a.owasp.vector.isHashable = true

theorem IsRegular.isHashable_cell {a : Advisory} (h : a.IsRegular) {c : Column} (hc : c ≠ .cwes) :
    (a.cell c).isHashable = true := by
  have text (s : Option String) : (Cell.ofText? s).isHashable = true := by cases s <;> rfl
  have score (x : Option Binary64) : (Cell.ofScore? x).isHashable = true := by cases x <;> rfl
  have moment (m : Option Moment) : (Cell.ofMoment? m).isHashable = true := by cases m <;> rfl
  cases c with
  | cwes => exact absurd rfl hc
  | cvss2Vector => exact h.cvss2
  | cvss3Vector => exact h.cvss3
  | owaspVector => exact h.owasp
  | created | published | updated => exact moment _
  | title | subTitle | description | detail | recommendation | references | credits => exact text _
  | vulnerableVersions | patchedVersions => exact text _
  | _ => exact score _

/-- Neither of the two columns that a report may leave out holds a NaN. -/
structure HasKnownEpss (a : Advisory) : Prop where
  score : a.epssScore ≠ some .nan
  percentile : a.epssPercentile ≠ some .nan

theorem HasKnownEpss.same_self {a : Advisory} (h : a.HasKnownEpss) {c : Column}
    (hc : policyOf c = .ifPresent) : (a.cell c).same (a.cell c) = true := by
  have score {x : Option Binary64} (hx : x ≠ some .nan) : (Cell.ofScore? x).isProper = true := by
    rcases x with _ | _ | _ | _
    · rfl
    · exact absurd rfl hx
    · rfl
    · rfl
  cases c with
  | epssScore => exact Cell.same_self (score h.score)
  | epssPercentile => exact Cell.same_self (score h.percentile)
  | _ => cases hc

/-- A report has nothing to add: in each column the row has what was reported, or the same, or keeps
what was not reported; and it has the severity of the report. -/
structure Settled (row reported : Advisory) : Prop where
  cell : ∀ c, row.cell c = reported.cell c ∨ (row.cell c).same (reported.cell c) = true ∨
    (policyOf c = .ifPresent ∧ (reported.cell c).isNull = true)
  severity : row.severity = reported.severity

section Again

variable {existing reported row new : Advisory}

/-- A report has nothing to add to what it has left, once its severity is there. -/
theorem Updated.settled_of_severity (h : Updated existing reported row)
    (hs : row.severity = reported.severity) :
    row.Settled reported := by
  refine ⟨?_, hs⟩
  intro c
  cases hp : policyOf c with
  | always =>
    rcases h.always c hp with hc | ⟨hc, hs⟩
    · exact .inl hc
    · exact .inr (.inl (hc ▸ hs))
  | ifPresent =>
    rw [h.ifPresent c hp, taken]
    split
    · next hk =>
      rcases hk with ⟨-, hn⟩ | hs
      · exact .inr (.inr ⟨rfl, hn⟩)
      · exact .inr (.inl hs)
    · exact .inl rfl

theorem Updated.settled (h : Updated existing reported row)
    (hr : reported.explicitSeverity = none) :
    row.Settled reported := h.settled_of_severity (h.severity hr)

/-- A regular report makes every cell steady but those that it leaves out. -/
theorem Updated.isSteady (h : Updated existing reported row) (hr : reported.IsRegular)
    (he : existing.HasKnownEpss) : row.IsSteady := by
  intro c
  cases hp : policyOf c with
  | always =>
    rcases h.always c hp with hc | ⟨hc, hs⟩ <;> rw [hc]
    · exact Cell.same_self (hr.proper c)
    · by_cases hcwes : c = .cwes
      · subst hcwes
        exact Cell.same_self (Json.isProper_ofInts existing.cwes)
      · exact Cell.same_self_of_same (hr.isHashable_cell hcwes) hs
  | ifPresent =>
    rw [h.ifPresent c hp, taken]
    split
    · exact he.same_self hp
    · exact Cell.same_self (hr.proper c)

theorem settled_withId (a : Advisory) (id : Option Int) : Settled { a with id := id } a :=
  ⟨fun c => .inl (by cases c <;> rfl), rfl⟩

/-- Where the severity is the reported one already, the scores are taken over like any other
column. -/
theorem takesAll_update (h : existing.severity = reported.severity) :
    TakesAll existing reported Column.all (existing.update reported).existing := by
  obtain ⟨d, hd, hr, hhead⟩ := applyEach_columns headColumns (by decide)
    (severityAttribute :: tailColumns.map columnAttribute) ⟨existing, reported, []⟩
  obtain ⟨e, he, -, htail⟩ := applyEach_columns tailColumns (by decide) [] d
  have hs : d.existing.severity = d.reported.severity := by rw [hhead.severity, hr, h]
  have happly := Differ.apply_of_same (a := severityAttribute) (d := d) rfl rfl
    (.inr ((same_severity_iff d.existing d.reported).mpr hs))
  have hall : Differ.applyEach ⟨existing, reported, []⟩ attributes = (.ok (), e) := by
    rw [List.append_nil] at he
    refine hd.trans ?_
    rw [Differ.applyEach, happly]
    exact he
  have hnew : (existing.update reported).existing = e.existing := by
    rw [update,
      Differ.existing_applyAll isReadable_of_mem (applyEach_attributes_ok existing reported), hall]
  rw [hr] at htail
  rw [hnew]
  refine ⟨?_, ?_, htail.explicitSeverity.trans hhead.explicitSeverity,
    htail.naturalKey.trans hhead.naturalKey, htail.id.trans hhead.id⟩
  · intro c _
    rcases mem_columns c with ⟨hch, hct⟩ | ⟨hch, hct⟩
    · rw [htail.others c hct, hhead.cell c hch]
    · rw [htail.cell c hct, hhead.others c hch]
  · intro c hc
    exact absurd (by cases c <;> decide) hc

/-- An attribute counts as changed where it is not the same as it was, not even if it was left
alone. -/
theorem isChanged_iff_exists : (existing.update reported).isChanged = true ↔
    ∃ a ∈ attributes, (a.value existing).same
      (a.value (existing.update reported).existing) = false := by
  have h := Differ.isChanged_applyAll isReadable_of_mem (applyEach_attributes_ok existing reported)
    (by decide +kernel)
  rwa [← Differ.existing_applyAll isReadable_of_mem
    (applyEach_attributes_ok existing reported)] at h

theorem existing_of_unchanged (h : (existing.update reported).isChanged = false) :
    (existing.update reported).existing = existing := by
  have hsame : ∀ a ∈ attributes,
      (a.value existing).same (a.value (existing.update reported).existing) = true := by
    intro a ha
    by_contra hs
    have hc : (existing.update reported).isChanged = true :=
      isChanged_iff_exists.mpr ⟨a, ha, (Bool.not_eq_true _).mp hs⟩
    rw [h] at hc
    cases hc
  have hseverity : existing.severity = (existing.update reported).existing.severity :=
    (same_severity_iff _ _).mp (hsame _ ((mem_attributes _).mpr (.inl rfl)))
  have hs : existing.severity = reported.severity := by
    by_contra hne
    have hassigned := (updated_update existing reported).explicitSeverity
    rw [if_neg hne] at hassigned
    refine hne (hseverity.trans ?_)
    rw [Advisory.severity, hassigned, Option.getD_some]
  have ht := takesAll_update hs
  refine eq_of_cells (fun c => ?_) ht.explicitSeverity ht.naturalKey ht.id
  have hcell : (existing.cell c).same ((existing.update reported).existing.cell c) = true :=
    hsame _ ((mem_attributes _).mpr (.inr ⟨c, rfl⟩))
  rw [ht.cell c (by cases c <;> decide), taken] at hcell ⊢
  split
  · rfl
  · next hk =>
    rw [if_neg hk] at hcell
    exact absurd (.inr hcell) hk

theorem Settled.existing_update (h : row.Settled reported) :
    (row.update reported).existing = row := by
  have ht := takesAll_update h.severity
  refine eq_of_cells (fun c => ?_) ht.explicitSeverity ht.naturalKey ht.id
  rw [ht.cell c (by cases c <;> decide), taken]
  split
  · rfl
  · next hk =>
    obtain ⟨hn, hs⟩ := not_or.mp hk
    rcases h.cell c with he | hs' | hn'
    · exact he.symm
    · exact absurd hs' hs
    · exact absurd hn' hn

/-- It counts as a change in just the columns that are not the same as themselves. -/
theorem Settled.isChanged_update (h : row.Settled reported) :
    (row.update reported).isChanged = true ↔ ¬ row.IsSteady := by
  rw [isChanged_iff_exists, h.existing_update, IsSteady, not_forall]
  constructor
  · rintro ⟨a, ha, hs⟩
    rcases (mem_attributes a).mp ha with rfl | ⟨c, rfl⟩
    · exact absurd (hs.symm.trans ((same_severity_iff row row).mpr rfl)) (by decide)
    · exact ⟨c, fun hc => by simp [columnAttribute, Attribute.value, hc] at hs⟩
  · rintro ⟨c, hc⟩
    exact ⟨columnAttribute c, (mem_attributes _).mpr (.inr ⟨c, rfl⟩), (Bool.not_eq_true _).mp hc⟩

/-- A NaN that was reported stays, and is never the same. -/
theorem Settled.not_isSteady (h : row.Settled reported) {c : Column}
    (hc : reported.cell c = .json (.real .nan)) : ¬ row.IsSteady := by
  intro hsteady
  rcases h.cell c with he | hs | ⟨-, hn⟩
  · have hself := hsteady c
    rw [he, hc, Cell.same_nan] at hself
    cases hself
  · rw [hc, Cell.same_nan] at hs
    cases hs
  · rw [hc] at hn
    cases hn

end Again

end Advisory

end AdvisoryLedger

import AdvisoryLedger.Proofs.Diff.Steady

namespace AdvisoryLedger

attribute [ext] Differ

namespace Advisory

/-- The differ after an advisory was brought up to date with a report: the record, and what is said
of it. -/
structure BroughtUp (existing reported : Advisory) (d : Differ Advisory) : Prop where
  always : ∀ c, policyOf c = .always → (d.existing.cell c).same (reported.cell c) = true
  severity : d.existing.severity = reported.severity
  kept : ∀ c, policyOf c = .ifPresent → (reported.cell c).isNull = true →
    d.existing.cell c = existing.cell c
  given : ∀ c, policyOf c = .ifPresent → (reported.cell c).isNull = false →
    (d.existing.cell c).same (reported.cell c) = true
  id : d.existing.id = existing.id
  source : d.existing.source = existing.source
  vulnId : d.existing.vulnId = existing.vulnId
  reported : d.reported = reported
  nodup : d.changes.keys.Nodup
  changes : ∀ name change, d.changes.get? name = some change ↔
    ∃ a ∈ attributes, a.name = name ∧ change.before = a.value existing ∧
      change.after = a.value d.existing ∧
      change.before.same change.after = false

variable {existing reported new : Advisory}

theorem Updated.given (h : Updated existing reported new) (hr : reported.IsProper) {c : Column}
    (hp : policyOf c = .ifPresent) (hn : (reported.cell c).isNull = false) :
    (new.cell c).same (reported.cell c) = true := by
  rw [h.ifPresent c hp, taken]
  split
  · next hk => exact hk.resolve_left (by simp [hn])
  · exact Cell.same_self (hr c)

theorem Updated.kept (h : Updated existing reported new) {c : Column} (hp : policyOf c = .ifPresent)
    (hn : (reported.cell c).isNull = true) : new.cell c = existing.cell c := by
  rw [h.ifPresent c hp, taken, if_pos (.inl ⟨rfl, hn⟩)]

theorem nodup_names : (attributes.map (·.name)).Nodup := by decide +kernel

/-- A report without a NaN leaves nothing that another look at it would change. -/
theorem update_settled (h : new.Settled reported) (hs : new.IsSteady) :
    new.update reported = ⟨new, reported, []⟩ := by
  have hok := applyEach_attributes_ok new reported
  have hreported : (new.update reported).reported = reported :=
    Differ.reported_applyAll isReadable_of_mem hok
  have hunchanged : (new.update reported).isChanged = false := by
    rw [← Bool.not_eq_true, h.isChanged_update]
    exact not_not.mpr hs
  have hchanges : (new.update reported).changes = [] := by
    simpa [Differ.isChanged] using hunchanged
  exact Differ.ext h.existing_update hreported hchanges

/-- The report goes over the advisory, whatever severity was assigned to it, and a second time does
nothing. -/
theorem update_exact (he : existing.IsProper) (hr : reported.IsPlain) :
    (Differ.applyAll ⟨existing, reported, []⟩ attributes).1 = .ok () ∧
      BroughtUp existing reported (existing.update reported) ∧
      (existing.update reported).existing.update reported =
        ⟨(existing.update reported).existing, reported, []⟩ := by
  have hok := applyEach_attributes_ok existing reported
  have hu := updated_update existing reported
  have hkey : (existing.update reported).existing.source = existing.source ∧
      (existing.update reported).existing.vulnId = existing.vulnId := Prod.mk.inj hu.naturalKey
  refine ⟨Differ.applyAll_ok isReadable_of_mem hok, ?_, ?_⟩
  · exact {
      always := fun c hp => hu.same_of_always hr.proper hp
      severity := hu.severity hr.explicitSeverity
      kept := fun c hp hn => hu.kept hp hn
      given := fun c hp hn => hu.given hr.proper hp hn
      id := hu.id
      source := hkey.1
      vulnId := hkey.2
      reported := Differ.reported_applyAll isReadable_of_mem hok
      nodup := Differ.nodup_applyAll isReadable_of_mem hok
      changes := fun name change =>
        Differ.get?_applyAll_eq_some isReadable_of_mem hok nodup_names change }
  · exact update_settled (hu.settled hr.explicitSeverity) (hu.isProper he hr.proper).isSteady

/-- An advisory that was called high by hand, though its score says medium. -/
def calledHigh : Advisory :=
  { vulnId := "A", cvss2 := { base := some (Severity.points 5) }, epssScore := some (Severity.points 1),
    explicitSeverity := some .high }

/-- The same score, and a critical one beside it. -/
def scoredAnew : Advisory :=
  { vulnId := "A", cvss2 := { base := some (Severity.points 5) }, cvss3 := { base := some (Severity.points 9) } }

/-- The score that the severity drops comes back, and is not recorded; the one left out stays. -/
theorem update_exact_rescored : calledHigh.IsProper ∧ scoredAnew.IsPlain ∧
    (calledHigh.update scoredAnew).existing.severity = .critical ∧
    (calledHigh.update scoredAnew).existing.cell .epssScore =
      Cell.ofScore? (some (Severity.points 1)) ∧
    (calledHigh.update scoredAnew).changes.get? "severity" = some ⟨.text "HIGH", .text "CRITICAL"⟩ ∧
    (calledHigh.update scoredAnew).changes.get? "cvss_v2_base_score" = none := by
  have he : calledHigh.IsProper := by intro c; cases c <;> rfl
  have hr : scoredAnew.IsPlain := ⟨rfl, by intro c; cases c <;> rfl⟩
  obtain ⟨-, hb, -⟩ := update_exact he hr
  have hseverity : (calledHigh.update scoredAnew).existing.severity = .critical := hb.severity
  refine ⟨he, hr, hseverity, hb.kept .epssScore rfl rfl, ?_, ?_⟩
  · apply (hb.changes _ _).mpr
    refine ⟨severityAttribute, (mem_attributes _).mpr (.inl rfl), rfl, rfl, ?_, by decide +kernel⟩
    exact congrArg (fun s : Severity => Cell.text s.name) hseverity.symm
  · decide +kernel

end Advisory

end AdvisoryLedger

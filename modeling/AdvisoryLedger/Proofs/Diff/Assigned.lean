import AdvisoryLedger.Proofs.Diff.Exact

namespace AdvisoryLedger.Advisory

/-- Where the old scores alone give the severity that is reported, so do the new ones. -/
def HoldsSeverity (existing reported : Advisory) : Prop :=
  existing.severity = reported.severity → existing.explicitSeverity = none →
    reported.derivedSeverity = reported.severity

variable {existing reported new : Advisory}

/-- The severity that was there stays unwritten just where it is the reported one. -/
theorem Updated.severity_iff (h : Updated existing reported new) :
    new.severity = reported.severity ↔ HoldsSeverity existing reported := by
  have hassigned := h.explicitSeverity
  have hderived := h.derivedSeverity
  by_cases hs : existing.severity = reported.severity
  · rw [if_pos hs] at hassigned
    cases he : existing.explicitSeverity with
    | none =>
      have hnew : new.severity = reported.derivedSeverity := by
        rw [Advisory.severity, hassigned, he, Option.getD_none, hderived]
      rw [hnew, HoldsSeverity]
      simp [hs, he]
    | some s =>
      have hold : existing.severity = s := by rw [Advisory.severity, he, Option.getD_some]
      have hnew : new.severity = s := by rw [Advisory.severity, hassigned, he, Option.getD_some]
      simp [HoldsSeverity, he, hnew, ← hs, hold]
  · have hnew : new.severity = reported.severity := by
      rw [Advisory.severity, hassigned, if_neg hs, Option.getD_some]
    simp [HoldsSeverity, hs, hnew]

theorem severity_of_unchanged (h : (new.update reported).isChanged = false) :
    new.severity = reported.severity := by
  by_contra hne
  have hassigned := (updated_update new reported).explicitSeverity
  rw [existing_of_unchanged h, if_neg hne] at hassigned
  apply hne
  rw [Advisory.severity, hassigned, Option.getD_some]

/-- What a report has left holds its severity once that was written, or the scores give it. -/
theorem Updated.holdsSeverity (h : Updated existing reported new) : HoldsSeverity new reported := by
  intro hs he
  rw [← hs, Advisory.severity, he, Option.getD_none, h.derivedSeverity]

/-- The reported severity is there after one report, and the second changes nothing, in just the
cases where it is not lost with the old scores; two reports always bring it about. -/
theorem update_severity_iff (he : existing.IsProper) (hr : reported.IsProper) :
    ((existing.update reported).existing.severity = reported.severity ↔
      HoldsSeverity existing reported) ∧
      (((existing.update reported).existing.update reported).isChanged = false ↔
        HoldsSeverity existing reported) ∧
      ((existing.update reported).existing.update reported).existing.severity = reported.severity ∧
      (((existing.update reported).existing.update reported).existing.update reported).isChanged =
        false := by
  have hfirst := updated_update existing reported
  have hsecond := updated_update (existing.update reported).existing reported
  have hproper := hfirst.isProper he hr
  have hsettled : ((existing.update reported).existing.update reported).existing.severity =
      reported.severity :=
    hsecond.severity_iff.mpr hfirst.holdsSeverity
  refine ⟨hfirst.severity_iff, ?_, hsettled, ?_⟩
  · constructor
    · intro hunchanged
      exact hfirst.severity_iff.mp (severity_of_unchanged hunchanged)
    · intro hholds
      have hrow := hfirst.settled_of_severity (hfirst.severity_iff.mpr hholds)
      rw [update_settled hrow hproper.isSteady]
      rfl
  · rw [
      update_settled (hsecond.settled_of_severity hsettled) (hsecond.isProper hproper hr).isSteady]
    rfl

def rated (points : Nat) (assigned : Option Severity) : Advisory :=
  { vulnId := "A", cvss3 := { base := some (Severity.points points) }, explicitSeverity := assigned }

theorem isProper_rated {points : Nat} (h : (Severity.points points).isNan = false)
    (assigned : Option Severity) : (rated points assigned).IsProper := by
  intro c
  cases c with
  | cvss3Base => simp [rated, cell, Cell.ofScore?, Json.ofScore?, Cell.isProper, Json.isProper, h]
  | _ => rfl

/-- Medium by its score before, and high by what is reported. -/
theorem update_severity_rated : (rated 5 none).IsProper ∧ (rated 2 (some .high)).IsProper ∧
    ((rated 5 none).update (rated 2 (some .high))).existing.severity = .high ∧
    (((rated 5 none).update (rated 2 (some .high))).existing.update
      (rated 2 (some .high))).isChanged = false := by
  have he : (rated 5 none).IsProper := isProper_rated (by decide) none
  have hr : (rated 2 (some .high)).IsProper := isProper_rated (by decide) (some .high)
  have hholds : HoldsSeverity (rated 5 none) (rated 2 (some .high)) := by
    intro hs
    exact absurd hs (by decide +kernel)
  obtain ⟨hfirst, hsecond, -, -⟩ := update_severity_iff he hr
  exact ⟨he, hr, hfirst.mpr hholds, hsecond.mpr hholds⟩

/-- High by its score before, and high by what is reported, with a low score: the advisory becomes
low, and the same report changes it again. -/
theorem update_severity_lost : (rated 8 none).IsProper ∧ (rated 2 (some .high)).IsProper ∧
    (rated 2 (some .high)).severity = .high ∧
    ((rated 8 none).update (rated 2 (some .high))).existing.severity = .low ∧
    (((rated 8 none).update (rated 2 (some .high))).existing.update
      (rated 2 (some .high))).isChanged = true := by
  refine ⟨isProper_rated (by decide) none, isProper_rated (by decide) (some .high), rfl, ?_,
    ?_⟩ <;> decide +kernel

end AdvisoryLedger.Advisory

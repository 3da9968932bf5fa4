import AdvisoryLedger.Advisory.Column
import AdvisoryLedger.Proofs.Binary64.Value

namespace AdvisoryLedger

namespace Binary64

variable {x y u v : Binary64}

/-- Indistinguishable by comparison; unlike sameness this holds of a NaN and itself. -/
def Alike (x y : Binary64) : Prop := x = y ∨ same x y = true

theorem Alike.less_eq (hx : Alike x y) (hu : Alike u v) : less x u = less y v := by
  have hxy : less x u = less y u := by
    rcases hx with rfl | hs
    · rfl
    · exact (less_congr hs).1
  have huv : less y u = less y v := by
    rcases hu with rfl | hs
    · rfl
    · exact (less_congr hs).2
  exact hxy.trans huv

theorem Alike.same_eq (hx : Alike x y) (z : Binary64) : same x z = same y z := by
  rcases hx with rfl | hs
  · rfl
  · exact same_congr hs

theorem Alike.atLeast_eq (hx : Alike x y) (z : Binary64) : atLeast x z = atLeast y z := by
  rw [atLeast, atLeast, Alike.less_eq (.inl rfl) hx, hx.same_eq z]

theorem Alike.larger (hx : Alike x y) (hu : Alike u v) :
    Alike (Binary64.larger x u) (Binary64.larger y v) := by
  rw [Binary64.larger, Binary64.larger, hx.less_eq hu]
  split
  · exact hu
  · exact hx

theorem isNonzero_eq (x : Binary64) : x.isNonzero = !same x zero := by
  cases x with
  | nan => rfl
  | infinity s => rfl
  | finite s m e =>
    have hz : same (.finite s m e) zero = true ↔ m = 0 := by
      have he : (2 : ℚ) ^ e ≠ 0 := zpow_ne_zero _ (by norm_num)
      rw [zero, same_finite_iff]
      cases s <;> simp [valueOf, he]
    rw [Bool.eq_iff_iff, Bool.not_eq_true', ← Bool.not_eq_true, hz]
    simp [isNonzero]

theorem Alike.isNonzero_eq (hx : Alike x y) : x.isNonzero = y.isNonzero := by
  rw [Binary64.isNonzero_eq, Binary64.isNonzero_eq, hx.same_eq]

end Binary64

namespace Severity

open Binary64

variable {x y : Binary64}

theorem ofCvss3_congr (h : Alike x y) : ofCvss3 x = ofCvss3 y := by
  simp only [ofCvss3, h.atLeast_eq, Alike.less_eq (.inl rfl) h]

theorem ofCvss2_congr (h : Alike x y) : ofCvss2 x = ofCvss2 y := by
  simp only [ofCvss2, h.atLeast_eq, Alike.less_eq (.inl rfl) h]

theorem riskLevel_congr (h : Alike x y) : riskLevel x = riskLevel y := by
  simp only [riskLevel, h.less_eq (.inl rfl)]

def ScoresAlike : Option Binary64 → Option Binary64 → Prop
  | some x, some y => Alike x y
  | none, none => True
  | _, _ => False

theorem impactOrZero_congr {s t : Option Binary64} (h : ScoresAlike s t) :
    Alike (impactOrZero s) (impactOrZero t) := by
  match s, t, h with
  | none, none, _ => exact .inl rfl
  | some x, some y, h =>
    rw [impactOrZero, impactOrZero, h.isNonzero_eq]
    split
    · exact h
    · exact .inl rfl

theorem ofOwasp_congr {t t' b b' : Option Binary64} (h : Alike x y) (ht : ScoresAlike t t')
    (hb : ScoresAlike b b') : ofOwasp x t b = ofOwasp y t' b' := by
  have hi := (impactOrZero_congr ht).larger (impactOrZero_congr hb)
  rw [ofOwasp, ofOwasp, riskLevel_congr h, riskLevel_congr hi]

theorem scoresAlike_of_cell {s t : Option Binary64}
    (h : Cell.ofScore? s = .ofScore? t ∨ (Cell.ofScore? s).same (.ofScore? t) = true) :
    ScoresAlike s t := by
  match s, t with
  | none, none => trivial
  | none, some y => simp [Cell.ofScore?, Json.ofScore?, Cell.same, Json.same] at h
  | some x, none => simp [Cell.ofScore?, Json.ofScore?, Cell.same, Json.same, Json.sameNumber] at h
  | some x, some y =>
    simpa [ScoresAlike, Alike, Cell.ofScore?, Json.ofScore?, Cell.same, Json.same, Json.sameNumber,
      Json.Number.same] using h

end Severity

namespace Advisory

def decidingColumns : List Column :=
  [.cvss3Base, .cvss2Base, .owaspLikelihood, .owaspTechnicalImpact, .owaspBusinessImpact]

theorem derivedSeverity_congr {a b : Advisory}
    (h : ∀ c ∈ decidingColumns, a.cell c = b.cell c ∨ (a.cell c).same (b.cell c) = true) :
    a.derivedSeverity = b.derivedSeverity := by
  have h3 := Severity.scoresAlike_of_cell (h .cvss3Base (by decide))
  have h2 := Severity.scoresAlike_of_cell (h .cvss2Base (by decide))
  have hl := Severity.scoresAlike_of_cell (h .owaspLikelihood (by decide))
  have ht := Severity.scoresAlike_of_cell (h .owaspTechnicalImpact (by decide))
  have hb := Severity.scoresAlike_of_cell (h .owaspBusinessImpact (by decide))
  rw [derivedSeverity, derivedSeverity]
  match a.cvss3.base, b.cvss3.base, h3 with
  | some x, some y, h3 => exact Severity.ofCvss3_congr h3
  | none, none, _ =>
    match a.cvss2.base, b.cvss2.base, h2 with
    | some x, some y, h2 => exact Severity.ofCvss2_congr h2
    | none, none, _ =>
      match a.owasp.likelihood, b.owasp.likelihood, hl with
      | some x, some y, hl => exact Severity.ofOwasp_congr hl ht hb
      | none, none, _ => rfl

end Advisory

end AdvisoryLedger

import AdvisoryLedger.Json.Basic
import Mathlib.Algebra.Order.Field.Power
import Mathlib.Data.Rat.Lemmas
import Mathlib.Order.WithBot
import Mathlib.Tactic.NormNum
import Mathlib.Tactic.Ring

namespace AdvisoryLedger.Binary64

/-- The fraction that a finite number stands for. -/
def valueOf (negative : Bool) (mantissa : Nat) (exponent : Int) : ℚ :=
  (if negative then -(mantissa : ℚ) else mantissa) * 2 ^ exponent

theorem scaled_mul {unit e : Int} (h : unit ≤ e) (s : Bool) (m : Nat) :
    (scaled unit s m e : ℚ) * 2 ^ unit = valueOf s m e := by
  obtain ⟨n, rfl⟩ : ∃ n : Nat, e = unit + n := ⟨(e - unit).toNat, by omega⟩
  have hn : (unit + (n : Int) - unit).toNat = n := by omega
  simp only [scaled, valueOf, hn, Nat.shiftLeft_eq]
  rw [zpow_add₀ (by norm_num), zpow_natCast]
  split <;> push_cast <;> ring

theorem same_finite_iff (s t : Bool) (m n : Nat) (e f : Int) :
    same (.finite s m e) (.finite t n f) = true ↔ valueOf s m e = valueOf t n f := by
  have hu : (0 : ℚ) < 2 ^ min e f := zpow_pos (by norm_num) _
  have he : min e f ≤ e := by omega
  have hf : min e f ≤ f := by omega
  rw [← scaled_mul he, ← scaled_mul hf, mul_left_inj' hu.ne', Int.cast_inj]
  simp [same]

theorem less_finite_iff (s t : Bool) (m n : Nat) (e f : Int) :
    less (.finite s m e) (.finite t n f) = true ↔ valueOf s m e < valueOf t n f := by
  have hu : (0 : ℚ) < 2 ^ min e f := zpow_pos (by norm_num) _
  have he : min e f ≤ e := by omega
  have hf : min e f ≤ f := by omega
  rw [← scaled_mul he, ← scaled_mul hf, mul_lt_mul_iff_left₀ hu, Int.cast_lt]
  simp [less]

/-- The place of a number in the order, the infinities at both ends; a NaN has none. -/
def value? : Binary64 → Option (WithBot (WithTop ℚ))
  | .nan => none
  | .infinity s => some (if s then ⊥ else (⊤ : WithTop ℚ))
  | .finite s m e => some ((valueOf s m e : WithTop ℚ) : WithBot (WithTop ℚ))

theorem same_iff (x y : Binary64) : same x y = true ↔ ∃ v, x.value? = some v ∧
    y.value? = some v := by
  cases x with
  | nan => simp [same, value?]
  | infinity s =>
    cases y with
    | nan => simp [same, value?]
    | infinity t => cases s <;> cases t <;> simp [same, value?]
    | finite t n f => cases s <;> simp [same, value?]
  | finite s m e =>
    cases y with
    | nan => simp [same, value?]
    | infinity t => cases t <;> simp [same, value?]
    | finite t n f =>
      simp only [same_finite_iff, value?, Option.some.injEq, exists_eq_left', WithBot.coe_inj,
        WithTop.coe_inj]
      exact ⟨Eq.symm, Eq.symm⟩

theorem less_iff (x y : Binary64) :
    less x y = true ↔ ∃ v w, x.value? = some v ∧ y.value? = some w ∧ v < w := by
  have hb (q : ℚ) : ((q : WithTop ℚ) : WithBot (WithTop ℚ)) < ⊤ :=
    WithBot.coe_lt_coe.mpr (WithTop.coe_lt_top q)
  cases x with
  | nan => simp [less, value?]
  | infinity s =>
    cases y with
    | nan => simp [less, value?]
    | infinity t => cases s <;> cases t <;> simp [less, value?]
    | finite t n f => cases s <;> simp [less, value?]
  | finite s m e =>
    cases y with
    | nan => simp [less, value?]
    | infinity t => cases t <;> simp [less, value?, hb]
    | finite t n f => simp [less_finite_iff, value?]

theorem less_congr {x y z : Binary64} (h : same x y = true) :
    less x z = less y z ∧ less z x = less z y := by
  obtain ⟨v, hx, hy⟩ := (same_iff x y).mp h
  constructor <;> apply Bool.eq_iff_iff.mpr <;> simp only [less_iff, hx, hy]

theorem same_congr {x y z : Binary64} (h : same x y = true) : same x z = same y z := by
  obtain ⟨v, hx, hy⟩ := (same_iff x y).mp h
  apply Bool.eq_iff_iff.mpr
  simp only [same_iff, hx, hy]

end AdvisoryLedger.Binary64

namespace AdvisoryLedger.Json

theorem sameWhole_finite_iff (n : Int) (s : Bool) (m : Nat) (e : Int) :
    sameWhole n (.finite s m e) = true ↔ (n : ℚ) = Binary64.valueOf s m e := by
  simp only [sameWhole, Bool.or_eq_true, Bool.and_eq_true, decide_eq_true_eq, beq_iff_eq]
  rcases Int.lt_or_le e 0 with he | he
  · obtain ⟨k, rfl⟩ : ∃ k : Nat, e = -(k : Int) := ⟨(-e).toNat, by omega⟩
    have hk : (-(-(k : Int))).toNat = k := by omega
    have hne : (2 : ℚ) ^ k ≠ 0 := by positivity
    have hn : ¬ 0 ≤ -(k : Int) := by omega
    simp only [he, hn, hk, false_and, true_and, false_or, Nat.one_shiftLeft, Binary64.valueOf,
      zpow_neg, zpow_natCast]
    rw [eq_mul_inv_iff_mul_eq₀ hne, ← Int.cast_inj (α := ℚ)]
    cases s <;> push_cast <;> simp
  · have hn : ¬ e < 0 := by omega
    have hs := Binary64.scaled_mul he s m
    rw [zpow_zero, mul_one] at hs
    simp only [he, hn, false_and, true_and, or_false]
    rw [← hs, Int.cast_inj]
    exact ⟨Eq.symm, Eq.symm⟩

end AdvisoryLedger.Json

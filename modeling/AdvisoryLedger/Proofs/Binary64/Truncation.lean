import AdvisoryLedger.Binary64.Rounding
import Mathlib.Algebra.Ring.Nat

namespace AdvisoryLedger.Binary64

variable {num den : Nat}

def signed (negative : Bool) (n : Nat) : Int := if negative then -(n : Int) else (n : Int)

theorem nearestQuotient_cases (num den : Nat) : nearestQuotient num den = num / den ∨
    (nearestQuotient num den = num / den + 1 ∧ den ≤ 2 * (num % den)) := by
  unfold nearestQuotient
  dsimp only
  split
  · exact .inl rfl
  · split
    · split
      · exact .inl rfl
      · exact .inr ⟨rfl, by omega⟩
    · exact .inr ⟨rfl, by omega⟩

theorem scaledQuotient_neg (num den scale : Nat) :
    scaledQuotient num den (-(scale : Int)) = (num <<< scale, den) := by
  unfold scaledQuotient
  split
  · next h =>
    obtain rfl : scale = 0 := by omega
    rfl
  · simp

/-- The binary order of a quotient below a power of two is below its exponent. -/
theorem binaryOrder_le (hnum : num ≠ 0) {k : Nat} (h : num < den * 2 ^ (k + 1)) :
    binaryOrder num den ≤ k := by
  have hden : den ≠ 0 := by
    rintro rfl
    simp at h
  -- the orders of both numbers differ by at most one more than the order of the quotient
  have hlog : num.log2 ≤ den.log2 + (k + 1) := by
    have hlt : num < 2 ^ (den.log2 + 1 + (k + 1)) := by
      rw [Nat.pow_add]
      exact Nat.lt_of_lt_of_le h (Nat.mul_le_mul_right _ (Nat.le_of_lt Nat.lt_log2_self))
    have hlog := (Nat.log2_lt hnum).mpr hlt
    omega
  unfold binaryOrder
  dsimp only
  split
  · next hle =>
    by_cases heq : num.log2 = den.log2 + (k + 1)
    · -- then the divisor, scaled, would not be above the number
      have hexp : (num.log2 : Int) - (den.log2 : Int) = ((k + 1 : Nat) : Int) := by omega
      have hpos : (0 : Int) ≤ ((k + 1 : Nat) : Int) := Int.natCast_nonneg _
      rw [hexp, scaledQuotient, if_pos hpos, Int.toNat_natCast, Nat.shiftLeft_eq] at hle
      exact absurd h (Nat.not_lt.mpr hle)
    · omega
  · omega

/-- Rounding to the mantissa that fits leaves the scaled quotient, rounded to a whole number. The
scale is what the whole part leaves of the mantissa, or more. -/
theorem ofQuotient_eq (s : Bool) (hnum : num ≠ 0) {k : Nat} (hk : k < precision)
    (h : num < den * 2 ^ (k + 1)) :
    ∃ scale : Nat, precision ≤ k + scale + 1 ∧
      (ofQuotient s num den).truncate? =
        some (signed s (nearestQuotient (num <<< scale) den / 2 ^ scale)) := by
  have horder : binaryOrder num den ≤ k := binaryOrder_le hnum h
  have hprecision : precision = 53 := rfl
  obtain ⟨scale, hscale⟩ : ∃ scale : Nat,
      max minExponent (binaryOrder num den - (precision - 1 : Nat)) = -(scale : Int) := by
    refine ⟨(-(max minExponent (binaryOrder num den - (precision - 1 : Nat)))).toNat, ?_⟩
    simp only [minExponent, precision]
    omega
  have hroom : precision ≤ k + scale + 1 := by
    simp only [minExponent, precision] at hscale ⊢
    omega
  have hsmall : ¬maxExponent < -(scale : Int) ∧ ¬maxExponent < -(scale : Int) + 1 := by
    simp only [maxExponent]
    omega
  refine ⟨scale, hroom, ?_⟩
  simp only [ofQuotient, if_neg hnum, hscale, scaledQuotient_neg]
  by_cases hq : nearestQuotient (num <<< scale) den = 1 <<< precision
  · -- the mantissa has overflown, and is halved
    simp only [hq, if_true, if_neg hsmall.2, truncate?, signed]
    cases scale with
    | zero => rfl
    | succ scale =>
      have hneg : (-((scale + 1 : Nat) : Int) + 1) = -(scale : Int) := by omega
      rw [hneg]
      have hshift : (1 <<< (precision - 1)) >>> scale = 1 <<< precision / 2 ^ (scale + 1) := by
        rw [Nat.shiftRight_eq_div_pow, Nat.pow_succ', ← Nat.div_div_eq_div_mul]
        rfl
      cases scale with
      | zero => rfl
      | succ scale =>
        have hlt : ¬(0 : Int) ≤ -((scale + 1 : Nat) : Int) := by omega
        rw [if_neg hlt, Int.neg_neg, Int.toNat_natCast, hshift]
  · simp only [if_neg hq, if_neg hsmall.1, truncate?, signed]
    cases scale with
    | zero => simp
    | succ scale =>
      have hlt : ¬(0 : Int) ≤ -((scale + 1 : Nat) : Int) := by omega
      rw [if_neg hlt, Int.neg_neg, Int.toNat_natCast, Nat.shiftRight_eq_div_pow]

theorem truncate?_ofQuotient_zero (s : Bool) (den : Nat) :
    (ofQuotient s 0 den).truncate? = some (signed s (0 / den)) := by
  rw [Nat.zero_div]
  cases s <;> simp [ofQuotient, truncate?, signed, minExponent]

theorem shiftLeft_div_div (num den scale : Nat) : num <<< scale / den / 2 ^ scale = num / den := by
  rw [Nat.shiftLeft_eq, Nat.div_div_eq_div_mul, Nat.mul_div_mul_right _ _ (Nat.two_pow_pos scale)]

/-- The whole part stays, or becomes the next one. -/
theorem truncate?_ofQuotient (s : Bool) (h : num < den * 2 ^ precision) : ∃ n,
    (ofQuotient s num den).truncate? = some (signed s n) ∧ (n = num / den ∨ n = num / den + 1) := by
  by_cases hnum : num = 0
  · subst hnum
    exact ⟨_, truncate?_ofQuotient_zero s den, .inl rfl⟩
  · have hk : 52 < precision := by decide
    obtain ⟨scale, -, htruncate⟩ := ofQuotient_eq s hnum hk h
    refine ⟨_, htruncate, ?_⟩
    rcases nearestQuotient_cases (num <<< scale) den with hq | ⟨hq, -⟩
    · exact .inl (by rw [hq, shiftLeft_div_div])
    · rw [hq, Nat.succ_div, shiftLeft_div_div]
      split
      · exact .inr rfl
      · exact .inl rfl

/-- A scaled quotient that is rounded up does not become the next whole number. -/
theorem not_dvd_of_half {scale : Nat} (hpos : 0 < den) (hden : den < 2 * 2 ^ scale)
    (hhalf : den ≤ 2 * (num <<< scale % den)) : ¬2 ^ scale ∣ num <<< scale / den + 1 := by
  rintro ⟨t, ht⟩
  have hmod : num <<< scale % den < den := Nat.mod_lt _ hpos
  have hdiv : den * (num <<< scale / den) + num <<< scale % den = num <<< scale :=
    Nat.div_add_mod _ _
  have hnext : den * (num <<< scale / den + 1) = den * (num <<< scale / den) + den :=
    Nat.mul_succ _ _
  -- what the remainder lacks to the divisor would be a multiple of the scale, and it is too small for that
  have hsum : num <<< scale + (den - num <<< scale % den) = 2 ^ scale * (den * t) := by
    have hmultiple : den * (num <<< scale / den + 1) =
      2 ^ scale * (den * t) := by rw [ht, Nat.mul_left_comm]
    omega
  have hshift : 2 ^ scale ∣ num <<< scale := ⟨num, by rw [Nat.shiftLeft_eq, Nat.mul_comm]⟩
  have hlack : 2 ^ scale ∣ den - num <<< scale % den := (Nat.dvd_add_right hshift).mp ⟨_, hsum⟩
  have hle := Nat.le_of_dvd (by omega) hlack
  omega

/-- The whole part stays where the mantissa has room for the fractions of the divisor. -/
theorem truncate?_ofQuotient_exact (s : Bool) {k : Nat} (hk : k < precision)
    (h : num < den * 2 ^ (k + 1))
    (hden : den < 2 ^ (precision - k)) :
    (ofQuotient s num den).truncate? = some (signed s (num / den)) := by
  by_cases hnum : num = 0
  · subst hnum
    exact truncate?_ofQuotient_zero s den
  · obtain ⟨scale, hroom, htruncate⟩ := ofQuotient_eq s hnum hk h
    have hpos : 0 < den := by
      by_contra hzero
      obtain rfl : den = 0 := by omega
      simp at h
    have hscale : den < 2 * 2 ^ scale := by
      have hpow : 2 ^ (precision - k) ≤ 2 ^ (scale + 1) :=
        Nat.pow_le_pow_right (by decide) (by omega)
      rw [Nat.pow_succ'] at hpow
      omega
    rw [htruncate]
    rcases nearestQuotient_cases (num <<< scale) den with hq | ⟨hq, hhalf⟩
    · rw [hq, shiftLeft_div_div]
    · rw [hq, Nat.succ_div, if_neg (not_dvd_of_half hpos hscale hhalf), shiftLeft_div_div]
      rfl

end AdvisoryLedger.Binary64

import AdvisoryLedger.Proofs.Text.Numeral

namespace AdvisoryLedger.Text

variable {c : Char} {cs : List Char}

/-- The number that decimal digits of any script denote. -/
def decimal? (cs : List Char) : Option Nat :=
  if cs ≠ [] ∧ cs.all isDecimal = true then some (ofDigits (cs.filterMap digitValue?)) else none

def blankCodes : List Nat :=
  [9, 10, 11, 12, 13, 28, 29, 30, 31, 32, 0x85, 0xA0, 0x1680, 0x2000, 0x2001, 0x2002, 0x2003,
    0x2004, 0x2005, 0x2006, 0x2007, 0x2008, 0x2009, 0x200A, 0x2028, 0x2029, 0x202F, 0x205F, 0x3000]

theorem isBlank_of_isDigitLike (h : isDigitLike c = true) : isBlank c = false := by
  refine Bool.eq_false_iff.mpr fun hblank => ?_
  have hcode : c.toNat ∈ blankCodes := by
    simp only [isBlank, Bool.or_eq_true, Bool.and_eq_true, decide_eq_true_eq] at hblank
    simp only [blankCodes, List.mem_cons, List.not_mem_nil, or_false]
    omega
  have hnone : ∀ n ∈ blankCodes, isDigitLike (Char.ofNat n) = false := by decide +kernel
  have hc := hnone _ hcode
  rw [Char.ofNat_toNat, h] at hc
  cases hc

theorem splitSign_of_isDigitLike (h : ∀ c ∈ cs, isDigitLike c = true) :
    splitSign cs = (false, cs) := by
  unfold splitSign
  split
  · exact absurd (h '-' List.mem_cons_self) (by decide +kernel)
  · exact absurd (h '+' List.mem_cons_self) (by decide +kernel)
  · rfl

theorem length_filterMap_digitValue? (h : cs.all isDecimal = true) :
    (cs.filterMap digitValue?).length = cs.length := by
  rw [List.length_filterMap_eq_countP]
  exact List.countP_eq_length.mpr (List.all_eq_true.mp h)

/-- Digits that have no place in a numeral make it unreadable, and so does excessive length. -/
theorem readInt?_of_isDigitLike (hne : cs ≠ []) (h : ∀ c ∈ cs, isDigitLike c = true) :
    readInt? (String.ofList cs) =
      if cs.all isDecimal = true ∧ cs.length ≤ maxNumeralDigits then (decimal? cs).map Int.ofNat
        else none := by
  have hblank : ∀ c ∈ cs, isNumberBlank c = false := by
    intro c hc
    rw [isNumberBlank, isBlank_of_isDigitLike (h c hc), Bool.false_and]
  have hunderscore : '_' ∉ cs := fun hmem => absurd (h '_' hmem) (by decide +kernel)
  rw [readInt?, String.toList_ofList, trimBy_of_forall hblank, splitSign_of_isDigitLike h]
  simp only [numeralDigits_eq, isNumeral_iff_of_notMem hunderscore]
  cases hall : cs.all isDecimal with
  | false => simp
  | true =>
    have hvalue : decimal? cs =
      some (ofDigits (cs.filterMap digitValue?)) := by rw [decimal?, if_pos ⟨hne, hall⟩]
    by_cases hlong : cs.length ≤ maxNumeralDigits
    · simp [hne, hvalue, length_filterMap_digitValue? hall, hlong]
    · simp [hne, length_filterMap_digitValue? hall, hlong, Nat.lt_of_not_le hlong]

end AdvisoryLedger.Text

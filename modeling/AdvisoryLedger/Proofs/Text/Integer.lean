import AdvisoryLedger.Proofs.Text.Digit

namespace AdvisoryLedger.Text

variable {c : Char} {cs rest : List Char} {sign : List Char × Int} {negative : Bool}

def magnitude (cs : List Char) : Nat := ofDigits (cs.filterMap digitValue?)

def signs : List (List Char × Int) := [([], 1), (['+'], 1), (['-'], -1)]

/-- The text is a numeral of no excessive length behind a sign, between blanks, and the number is
what it says. -/
def Denotes (s : String) (n : Int) : Prop := ∃ front sign numeral back,
  s.toList = front ++ (sign.1 ++ numeral) ++ back ∧ (∀ c ∈ front, isNumberBlank c = true) ∧
    (∀ c ∈ back, isNumberBlank c = true) ∧ sign ∈ signs ∧ IsNumeral numeral ∧
    (numeral.filterMap digitValue?).length ≤ maxNumeralDigits ∧ n = sign.2 * magnitude numeral

theorem exists_trimBy (blank : Char → Bool) (cs : List Char) : ∃ front back,
    cs = front ++ trimBy blank cs ++ back ∧ (∀ c ∈ front, blank c = true) ∧
      ∀ c ∈ back, blank c = true := by
  have hfront := List.takeWhile_append_dropWhile (p := blank) (l := cs)
  have hback := List.takeWhile_append_dropWhile (p := blank) (l := (cs.dropWhile blank).reverse)
  refine ⟨cs.takeWhile blank, ((cs.dropWhile blank).reverse.takeWhile blank).reverse, ?_,
    fun c hc => List.mem_takeWhile_imp hc, fun c hc =>
      List.mem_takeWhile_imp (List.mem_reverse.mp hc)⟩
  rw [trimBy, List.append_assoc, ← List.reverse_append, hback, List.reverse_reverse, hfront]

theorem isDecimal_or_eq_of_mem (h : IsNumeral cs) (hc : c ∈ cs) : isDecimal c = true ∨ c = '_' := by
  -- by the recursion that reads digits, as it takes an underscore with the digit in front of it
  fun_induction numeralDigits cs with
  | case1 => cases hc
  | case2 d => exact .inl (List.mem_singleton.mp hc ▸ (isNumeral_singleton d).mp h)
  | case3 d rest ih =>
    obtain ⟨hd, hrest⟩ := (isNumeral_parted d rest).mp h
    rcases List.mem_cons.mp hc with rfl | hc
    · exact .inl hd
    rcases List.mem_cons.mp hc with rfl | hc
    · exact .inr rfl
    · exact ih hrest hc
  | case4 d rest hne hu ih =>
    obtain ⟨hd, hrest⟩ := (isNumeral_cons d hne hu).mp h
    rcases List.mem_cons.mp hc with rfl | hc
    · exact .inl hd
    · exact ih hrest hc

theorem isNumberBlank_of_mem (hs : sign ∈ signs) (h : IsNumeral cs) (hc : c ∈ sign.1 ++ cs) :
    isNumberBlank c = false := by
  rcases List.mem_append.mp hc with hc | hc
  · have hall : (signs.flatMap Prod.fst).all (fun c => !isNumberBlank c) = true := by decide
    have hmem : c ∈ signs.flatMap Prod.fst := List.mem_flatMap.mpr ⟨sign, hs, hc⟩
    simpa using List.all_eq_true.mp hall c hmem
  · rcases isDecimal_or_eq_of_mem h hc with hd | rfl
    · have hdigit : isDigitLike c = true := by rw [isDigitLike, hd, Bool.true_or]
      rw [isNumberBlank, isBlank_of_isDigitLike hdigit, Bool.false_and]
    · decide

theorem exists_sign (h : splitSign cs = (negative, rest)) :
    ∃ sign ∈ signs, cs = sign.1 ++ rest ∧ sign.2 = if negative then -1 else 1 := by
  unfold splitSign at h
  split at h
  · cases h
    exact ⟨(['-'], -1), by simp [signs], rfl, rfl⟩
  · cases h
    exact ⟨(['+'], 1), by simp [signs], rfl, rfl⟩
  · cases h
    exact ⟨([], 1), by simp [signs], rfl, rfl⟩

theorem splitSign_append (hs : sign ∈ signs) (h : IsNumeral cs) :
    ∃ negative, splitSign (sign.1 ++ cs) = (negative, cs) ∧ sign.2 = if negative then -1
      else 1 := by
  simp only [signs, List.mem_cons, List.not_mem_nil, or_false] at hs
  rcases hs with rfl | rfl | rfl
  · refine ⟨false, ?_, rfl⟩
    rw [List.nil_append]
    unfold splitSign
    split
    · exact absurd (isDecimal_or_eq_of_mem h List.mem_cons_self) (by decide)
    · exact absurd (isDecimal_or_eq_of_mem h List.mem_cons_self) (by decide)
    · rfl
  · exact ⟨false, rfl, rfl⟩
  · exact ⟨true, rfl, rfl⟩

theorem readInt?_of_splitSign {s : String}
    (h : splitSign (trimBy isNumberBlank s.toList) = (negative, cs)) :
    readInt? s =
      if IsNumeral cs ∧ (cs.filterMap digitValue?).length ≤ maxNumeralDigits then
        some ((if negative then -1 else 1) * (magnitude cs : Int))
      else none := by
  rw [readInt?, h]
  by_cases hn : IsNumeral cs
  · by_cases hl : (cs.filterMap digitValue?).length ≤ maxNumeralDigits
    · cases negative <;> simp [numeralDigits_eq, hn, hl, Nat.not_lt.mpr hl, magnitude]
    · simp [numeralDigits_eq, hn, hl, Nat.lt_of_not_le hl]
  · simp [numeralDigits_eq, hn]

theorem readInt?_eq_some_iff {s : String} {n : Int} : readInt? s = some n ↔ Denotes s n := by
  constructor
  · intro h
    obtain ⟨front, back, hs, hfront, hback⟩ := exists_trimBy isNumberBlank s.toList
    obtain ⟨negative, numeral, hparts⟩ : ∃ negative numeral,
        splitSign (trimBy isNumberBlank s.toList) = (negative, numeral) := ⟨_, _, rfl⟩
    obtain ⟨sign, hsign, hcore, hfactor⟩ := exists_sign hparts
    rw [readInt?_of_splitSign hparts] at h
    split at h
    · next hnumeral =>
      cases h
      exact ⟨front, sign, numeral, back, hcore ▸ hs, hfront, hback, hsign, hnumeral.1, hnumeral.2,
        by rw [hfactor]⟩
    · cases h
  · rintro ⟨front, sign, numeral, back, hs, hfront, hback, hsign, hnumeral, hlength, rfl⟩
    obtain ⟨negative, hparts, hfactor⟩ := splitSign_append hsign hnumeral
    have hcore : trimBy isNumberBlank s.toList = sign.1 ++ numeral := by
      rw [hs]
      exact trimBy_surrounded hfront (fun c hc => isNumberBlank_of_mem hsign hnumeral hc) hback
    rw [readInt?_of_splitSign (hcore ▸ hparts), if_pos ⟨hnumeral, hlength⟩, hfactor]

end AdvisoryLedger.Text

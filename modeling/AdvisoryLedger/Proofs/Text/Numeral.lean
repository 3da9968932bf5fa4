import AdvisoryLedger.Text.Numeral
import Mathlib.Algebra.Ring.Nat
import Mathlib.Data.List.Basic
import Mathlib.Data.List.TakeWhile

namespace AdvisoryLedger.Text

variable {c : Char} {cs rest : List Char}

theorem toNat_of_isDigit (h : c.isDigit = true) : 48 ≤ c.toNat ∧ c.toNat ≤ 57 :=
  Char.isDigit_iff_toNat.mp h

theorem digitValue?_of_isDigit (h : c.isDigit = true) : digitValue? c = some (c.toNat - 48) := by
  have hc := toNat_of_isDigit h
  have hlt : c.toNat < 128 := by omega
  simp only [digitValue?, if_pos hlt, if_pos hc]

theorem isBlank_of_isDigit (h : c.isDigit = true) : isBlank c = false := by
  have hc := toNat_of_isDigit h
  simp only [isBlank, Bool.or_eq_false_iff, Bool.and_eq_false_iff, decide_eq_false_iff_not]
  omega

/-- What has no blanks is all that trimming leaves of it when blanks are put around it. -/
theorem trimBy_surrounded {blank : Char → Bool} {front back : List Char}
    (hfront : ∀ c ∈ front, blank c = true)
    (hcs : ∀ c ∈ cs, blank c = false) (hback : ∀ c ∈ back, blank c = true) :
    trimBy blank (front ++ cs ++ back) = cs := by
  have hkept (ds : List Char) (hd : ∀ c ∈ ds, blank c = false) : ds.dropWhile blank = ds := by
    cases ds with
    | nil => rfl
    | cons d rest => simp [hd d List.mem_cons_self]
  rw [trimBy, List.append_assoc, List.dropWhile_append_of_pos hfront]
  cases cs with
  | nil =>
    have hall : back.dropWhile blank = [] := List.dropWhile_eq_nil_iff.mpr hback
    simp [hall]
  | cons c rest =>
    have hfirst : (c :: rest ++ back).dropWhile blank = c :: rest ++
      back := by simp [hcs c List.mem_cons_self]
    rw [hfirst, List.reverse_append,
      List.dropWhile_append_of_pos fun c hc => hback c (List.mem_reverse.mp hc),
      hkept _ fun c hc => hcs c (List.mem_reverse.mp hc), List.reverse_reverse]

theorem trimBy_of_forall {blank : Char → Bool} (h : ∀ c ∈ cs, blank c = false) :
    trimBy blank cs = cs := by
  have hnone : ∀ c ∈ ([] : List Char), blank c = true := by simp
  simpa using trimBy_surrounded hnone h hnone

/-- Decimal digits of any script, at least one before, between and behind all underscores. -/
def IsNumeral (cs : List Char) : Prop := ∀ group ∈ cs.splitOn '_', group ≠ [] ∧
    group.all isDecimal = true

instance (cs : List Char) : Decidable (IsNumeral cs) := by unfold IsNumeral; infer_instance

theorem isNumeral_iff_of_notMem (h : '_' ∉ cs) : IsNumeral cs ↔ cs ≠ [] ∧
    cs.all isDecimal = true := by
  rw [IsNumeral, List.splitOn_eq_singleton h, List.forall_mem_singleton]

theorem not_isNumeral_underscore (rest : List Char) : ¬IsNumeral ('_' :: rest) := by
  intro h
  rw [IsNumeral, List.splitOn_cons_eq_if_modifyHead] at h
  exact (h [] List.mem_cons_self).1 rfl

theorem isNumeral_singleton (c : Char) : IsNumeral [c] ↔ isDecimal c = true := by
  by_cases hc : c = '_'
  · subst hc
    exact iff_of_false (not_isNumeral_underscore _) (by decide)
  · simp [isNumeral_iff_of_notMem, Ne.symm hc]

theorem isNumeral_parted (c : Char) (rest : List Char) :
    IsNumeral (c :: '_' :: rest) ↔ isDecimal c = true ∧ IsNumeral rest := by
  by_cases hc : c = '_'
  · subst hc
    exact iff_of_false (not_isNumeral_underscore _) fun h => absurd h.1 (by decide)
  · have hmem : '_' ∉ [c] := by simpa using Ne.symm hc
    have hsplit : (c :: '_' :: rest).splitOn '_' = [c] :: rest.splitOn '_' :=
      List.splitOn_append_cons_self_of_not_mem hmem rest
    simp [IsNumeral, hsplit]

theorem isNumeral_cons (c : Char) (hne : rest ≠ []) (hu : ∀ more, rest ≠ '_' :: more) :
    IsNumeral (c :: rest) ↔ isDecimal c = true ∧ IsNumeral rest := by
  obtain ⟨d, more, rfl⟩ := List.exists_cons_of_ne_nil hne
  have hd : d ≠ '_' := fun hd => hu more (by rw [hd])
  obtain ⟨group, groups, hsplit⟩ := List.exists_cons_of_ne_nil (List.splitOn_ne_nil '_' more)
  by_cases hc : c = '_'
  · subst hc
    exact iff_of_false (not_isNumeral_underscore _) fun h => absurd h.1 (by decide)
  · simp [IsNumeral, List.splitOn_cons_eq_if_modifyHead, hsplit, hc, hd, and_assoc]

theorem numeralDigits_eq (cs : List Char) :
    numeralDigits cs = if IsNumeral cs then some (cs.filterMap digitValue?) else none := by
  have hdigit (c : Char) : isDecimal c = (digitValue? c).isSome := rfl
  have hunderscore : digitValue? '_' = none := by decide
  fun_induction numeralDigits cs with
  | case1 => rfl
  | case2 c => cases hc : digitValue? c <;> simp [isNumeral_singleton, hdigit, hc]
  | case3 c rest ih =>
    rw [ih]
    cases hc : digitValue? c with
    | none => simp [isNumeral_parted, hdigit, hc]
    | some d =>
      by_cases hrest : IsNumeral rest <;> simp [isNumeral_parted, hdigit, hc, hrest, hunderscore]
  | case4 c rest hne hu ih =>
    have hiff := isNumeral_cons c hne hu
    rw [ih]
    cases hc : digitValue? c with
    | none => simp [hiff, hdigit, hc]
    | some d => by_cases hrest : IsNumeral rest <;> simp [hiff, hdigit, hc, hrest]

theorem mapM_digitValue? (cs : List Char) :
    cs.mapM digitValue? = if cs.all isDecimal = true then some (cs.filterMap digitValue?)
      else none := by
  induction cs with
  | nil => rfl
  | cons c rest ih =>
    rw [List.mapM_cons, ih]
    cases hc : digitValue? c with
    | none => simp [isDecimal, hc]
    | some d => cases hrest : rest.all isDecimal <;> simp [isDecimal, hc, hrest]

theorem numeralDigits_of_isDigit (h : ∀ c ∈ cs, c.isDigit = true) (hne : cs ≠ []) :
    numeralDigits cs = some (cs.map fun c => c.toNat - 48) := by
  have hunderscore : '_' ∉ cs := fun hmem => absurd (h '_' hmem) (by decide)
  have hall : cs.all isDecimal = true :=
    List.all_eq_true.mpr fun c hc =>
      by rw [isDecimal, digitValue?_of_isDigit (h c hc), Option.isSome_some]
  rw [numeralDigits_eq, if_pos ((isNumeral_iff_of_notMem hunderscore).mpr ⟨hne, hall⟩),
    List.filterMap_eq_map_iff_forall_eq_some.mpr fun c hc => digitValue?_of_isDigit (h c hc)]

theorem ofDigits_map (cs : List Char) :
    ofDigits (cs.map fun c => c.toNat - 48) = Nat.ofDigitChars 10 cs 0 := by
  rw [ofDigits, List.foldl_map, Nat.ofDigitChars_eq_foldl]
  rfl

theorem toList_toString_natCast (n : Nat) : (toString (n : Int)).toList = Nat.toDigits 10 n :=
  Nat.toList_repr

theorem toList_toString_negSucc (n : Nat) :
    (toString (Int.negSucc n)).toList = '-' :: Nat.toDigits 10 (n + 1) := by
  change ("-" ++ (n + 1).repr).toList = _
  rw [String.toList_append, Nat.toList_repr]
  rfl

theorem isDigit_of_mem {n : Nat} (h : c ∈ Nat.toDigits 10 n) : c.isDigit = true :=
  Nat.isDigit_of_mem_toDigits (by decide) (by decide) h

theorem readInt?_toString {n : Nat} (h : n < 10 ^ maxNumeralDigits) :
    readInt? (toString (n : Int)) = some (n : Int) := by
  have hblank : ∀ c ∈ Nat.toDigits 10 n, isNumberBlank c = false := by
    intro c hc
    rw [isNumberBlank, isBlank_of_isDigit (isDigit_of_mem hc), Bool.false_and]
  have hsign : splitSign (Nat.toDigits 10 n) = (false, Nat.toDigits 10 n) := by
    unfold splitSign
    split
    · next hcs => exact absurd (isDigit_of_mem (hcs ▸ List.mem_cons_self)) (by decide)
    · next hcs => exact absurd (isDigit_of_mem (hcs ▸ List.mem_cons_self)) (by decide)
    · rfl
  have hlength : (Nat.toDigits 10 n).length ≤ maxNumeralDigits :=
    (Nat.length_toDigits_le_iff (by decide) (by decide)).mpr h
  have hdigits := numeralDigits_of_isDigit (fun c hc => isDigit_of_mem (n := n) hc) Nat.toDigits_ne_nil
  simp only [readInt?, toList_toString_natCast, trimBy_of_forall hblank, hsign, hdigits,
    Option.bind_eq_bind, Option.bind_some, List.length_map, if_neg (Nat.not_lt.mpr hlength),
    ofDigits_map, Nat.ofDigitChars_ten_toDigits, Bool.false_eq_true, if_false]

theorem isDigits_toString (n : Int) : isDigits (toString n) = decide (0 ≤ n) := by
  cases n with
  | ofNat n =>
    have hall : (Nat.toDigits 10 n).all isDigitLike = true := by
      rw [List.all_eq_true]
      intro c hc
      simp [isDigitLike, isDecimal, digitValue?_of_isDigit (isDigit_of_mem hc)]
    have hlist : (toString (Int.ofNat n)).toList = Nat.toDigits 10 n := toList_toString_natCast n
    rw [isDigits, hlist]
    cases hcs : Nat.toDigits 10 n with
    | nil => exact absurd hcs Nat.toDigits_ne_nil
    | cons c rest => simp [← hcs, hall]
  | negSucc n =>
    rw [isDigits, toList_toString_negSucc]
    rfl

theorem trim_toString (n : Int) : trim (toString n) = toString n := by
  have hblank : ∀ c ∈ (toString n).toList, isBlank c = false := by
    intro c hc
    cases n with
    | ofNat n => exact isBlank_of_isDigit (isDigit_of_mem (toList_toString_natCast n ▸ hc))
    | negSucc n =>
      rw [toList_toString_negSucc] at hc
      rcases List.mem_cons.mp hc with rfl | hd
      · rfl
      · exact isBlank_of_isDigit (isDigit_of_mem hd)
  rw [trim, trimChars, trimBy_of_forall hblank, String.ofList_toList]

theorem toString_ne_empty (n : Int) : toString n ≠ "" := by
  intro h
  have hlist := congrArg String.toList h
  cases n with
  | ofNat n => exact Nat.toDigits_ne_nil ((toList_toString_natCast n).symm.trans hlist)
  | negSucc n => exact List.cons_ne_nil _ _ ((toList_toString_negSucc n).symm.trans hlist)

end AdvisoryLedger.Text

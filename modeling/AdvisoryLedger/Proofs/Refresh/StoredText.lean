import AdvisoryLedger.Proofs.Refresh.Onward
import AdvisoryLedger.Proofs.Text.Digit

namespace AdvisoryLedger.Watermark

open Text

/-- What stands in the property, without the blanks around it. -/
def bare (value : Option String) : List Char := trimChars (value.getD "").toList

/-- The number that its decimal digits denote, and zero if it is anything else. -/
def told (value : Option String) : Int := ((decimal? (bare value)).getD 0 : Nat)

/-- What looks like digits alone is a numeral, and not one of excessive length. -/
def IsReadable (value : Option String) : Prop := (bare value).all isDigitLike = true →
  (bare value).all isDecimal = true ∧ (bare value).length ≤ maxNumeralDigits

instance (value : Option String) : Decidable (IsReadable value) := by unfold IsReadable; infer_instance

theorem trimmedText_ofText? (value : Option String) :
    (Json.ofText? value).trimmedText = .ok (String.ofList (bare value)) := by
  cases value with
  | none => rfl
  | some s => exact Json.trimmedText_text s

theorem isDigits_ofList {cs : List Char} (h : cs ≠ []) :
    isDigits (String.ofList cs) = cs.all isDigitLike := by
  rw [isDigits, String.toList_ofList]
  cases cs with
  | nil => exact absurd rfl h
  | cons c rest => rfl

theorem decimal?_eq_none {cs : List Char} (h : cs.all isDigitLike = false) :
    decimal? cs = none := by
  rw [decimal?, if_neg]
  rintro ⟨-, hall⟩
  rw [List.all_eq_true.mpr fun c hc =>
    by rw [isDigitLike, List.all_eq_true.mp hall c hc, Bool.true_or]] at h
  cases h

theorem read_bare (name : String) {v : Json} {cs : List Char}
    (h : v.trimmedText = .ok (String.ofList cs)) : (read name v).result =
      if isDigits (String.ofList cs) = true then
        match readInt? (String.ofList cs) with
        | some n => .ok n
        | none => .error .invalidValue
      else .ok 0 := by
  unfold read
  rw [h]
  change (ite _ _ _ : Noted Int).result = _
  split
  · cases readInt? (String.ofList cs) <;> rfl
  · cases (String.ofList cs).isEmpty <;> rfl

theorem read_ofText? (name : String) (value : Option String) : (read name (.ofText? value)).result =
    if IsReadable value then .ok (told value) else .error .invalidValue := by
  rw [read_bare name (trimmedText_ofText? value)]
  by_cases hne : bare value = []
  · have hr : IsReadable value := fun _ => by simp [hne]
    rw [if_pos hr, told, hne]
    rfl
  rw [isDigits_ofList hne]
  cases hdigits : (bare value).all isDigitLike with
  | false =>
    have hr : IsReadable value := fun h => absurd (hdigits.symm.trans h) Bool.false_ne_true
    rw [if_pos hr, told, decimal?_eq_none hdigits]
    rfl
  | true =>
    rw [if_pos rfl, readInt?_of_isDigitLike hne (List.all_eq_true.mp hdigits)]
    by_cases hnumeral : (bare value).all isDecimal = true ∧ (bare value).length ≤ maxNumeralDigits
    · have hr : IsReadable value := fun _ => hnumeral
      rw [if_pos hnumeral, if_pos hr, told, decimal?, if_pos ⟨hne, hnumeral.1⟩]
      rfl
    · have hr : ¬IsReadable value := fun h => hnumeral (h hdigits)
      rw [if_neg hnumeral, if_neg hr]

/-- Whatever the store is made of, and whatever text stands in the property. -/
theorem load_returns_iff {σ : Type} [Store σ] (w : Watermark) (s : σ) {value : Option String}
    (h : (Store.transact none (Call.ask (.getConfig w.group w.name)) s).result =
      .ok (.ofText? value)) :
    ((w.load s).result = .ok (told value) ↔ IsReadable value) ∧
      (¬IsReadable value → (w.load s).result = .error .invalidValue) := by
  have hload : (w.load s).result = if IsReadable value then .ok (told value)
      else .error .invalidValue :=
    (load_of_reply h).trans (read_ofText? w.name value)
  rw [hload]
  by_cases hr : IsReadable value
  · simp [hr]
  · simp [hr]

/-- A ledger with nothing in it but the property. -/
def holding (value : String) : FaultyLedger :=
  { ledger := { config := [(("vuln-source", "nvd.api.last.modified.epoch.seconds"), some value)] } }

/-- Digits of any script are read. -/
theorem load_returns_iff_arabic :
    (Store.transact none (Call.ask (.getConfig "vuln-source" "nvd.api.last.modified.epoch.seconds"))
      (holding " ٤٢\n")).result = .ok (.ofText? (some " ٤٢\n")) ∧
    IsReadable (some " ٤٢\n") ∧ (({} : Watermark).load (holding " ٤٢\n")).result = .ok 42 := by
  have hreply : (Store.transact none
    (Call.ask (.getConfig "vuln-source" "nvd.api.last.modified.epoch.seconds"))
      (holding " ٤٢\n")).result = .ok (.ofText? (some " ٤٢\n")) := rfl
  have hreadable : IsReadable (some " ٤٢\n") := by decide +kernel
  have htold : told (some " ٤٢\n") = 42 := by decide +kernel
  exact ⟨hreply, hreadable, htold ▸ (load_returns_iff {} (holding " ٤٢\n") hreply).1.mpr hreadable⟩

/-- A superscript says no number, but is not passed over for it: loading fails, and with it every
refresh. -/
theorem load_fails_superscript : told (some "²") = 0 ∧
    (({} : Watermark).load (holding "²")).result = .error .invalidValue ∧ ∃ s,
      (({} : Refresh).run { Site.ofAnswers [.ofPage 1 [datedRecord]] with store := holding "²" }).result = .ok s ∧
        s.isSuccess = false := by
  have hunreadable : ¬IsReadable (some "²") := by decide +kernel
  obtain ⟨s, hs, hfailed⟩ := Refresh.summary_of_decide
    { Site.ofAnswers [.ofPage 1 [datedRecord]] with store := holding "²" } (fun s => !s.isSuccess)
      (by decide +kernel)
  refine ⟨by decide +kernel, ?_, s, hs, by simpa using hfailed⟩
  exact (load_of_reply rfl).trans ((read_ofText? _ (some "²")).trans (if_neg hunreadable))

end AdvisoryLedger.Watermark

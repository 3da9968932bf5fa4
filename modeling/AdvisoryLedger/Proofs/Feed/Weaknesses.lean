import AdvisoryLedger.Proofs.Feed.Matches
import AdvisoryLedger.Proofs.Range.Identity
import AdvisoryLedger.Proofs.Text.Digit

namespace AdvisoryLedger

namespace Json

/-- The text of a value without the blanks around it, empty for what is no text. -/
def bareText : Json → List Char
  | .text s => Text.trimChars s.toList
  | _ => []

theorem trimmedText_of_isTextOrNull {v : Json} (h : v.isTextOrNull = true) :
    v.trimmedText = .ok (String.ofList v.bareText) := by
  cases v with
  | null => rfl
  | text s => exact trimmedText_text s
  | _ => cases h

/-- An object with one more item in the list that one of its members is. -/
def withItem (name : String) (v item : Json) : Json :=
  match v with
  | .object members =>
    .object (Table.put name (.list ((v.memberOrNull name).items ++ [item])) members)
  | _ => v

theorem isObject_withItem {v : Json} (h : v.isObject = true) (name : String) (item : Json) :
    (v.withItem name item).isObject = true := by
  cases v with
  | object members => rfl
  | _ => cases h

theorem memberOrNull_withItem {v : Json} (h : v.isObject = true) (name : String) (item : Json) :
    (v.withItem name item).memberOrNull name = .list ((v.memberOrNull name).items ++ [item]) := by
  cases v with
  | object members =>
    rw [withItem, memberOrNull, member?, lookup, Table.get?_put, if_pos rfl, Option.getD_some]
  | _ => cases h

end Json

namespace Record

open Text

/-- The digits of a text that is `CWE-` and decimal digits alone, at least one. -/
def cweDigits? : List Char → Option (List Char)
  | 'C' :: 'W' :: 'E' :: '-' :: ds => if ds ≠ [] ∧ ds.all isDecimal = true then some ds else none
  | _ => none

/-- The number of the weakness that a value names. -/
def cwe? (v : Json) : Option Int := ((cweDigits? v.bareText).bind decimal?).map Int.ofNat

/-- The value is a text that is, without the blanks around it, `CWE-` and decimal digits that denote
the number. -/
def Names (v : Json) (n : Int) : Prop := ∃ s digits m,
  v = .text s ∧ trimChars s.toList = "CWE-".toList ++ digits ∧ decimal? digits = some m ∧ n = m

theorem cweDigits?_eq_some_iff {cs ds : List Char} :
    cweDigits? cs = some ds ↔ cs = 'C' :: 'W' :: 'E' :: '-' :: ds ∧ ds ≠ [] ∧
      ds.all isDecimal = true := by
  constructor
  · intro h
    unfold cweDigits? at h
    split at h
    · split at h
      · next hds =>
        cases h
        exact ⟨rfl, hds⟩
      · cases h
    · cases h
  · rintro ⟨rfl, hds⟩
    exact if_pos hds

theorem cwe?_eq_some_iff {v : Json} {n : Int} : cwe? v = some n ↔ Names v n := by
  simp only [cwe?, Option.map_eq_some_iff, Option.bind_eq_some_iff, cweDigits?_eq_some_iff]
  constructor
  · rintro ⟨m, ⟨digits, ⟨hbare, -⟩, hm⟩, rfl⟩
    cases v with
    | text s => exact ⟨s, digits, m, rfl, hbare, hm, rfl⟩
    | _ => simp [Json.bareText] at hbare
  · rintro ⟨s, digits, m, rfl, hbare, hm, rfl⟩
    have hdigits : digits ≠ [] ∧ digits.all isDecimal = true := by
      by_contra hnot
      rw [decimal?, if_neg hnot] at hm
      cases hm
    exact ⟨m, ⟨digits, ⟨hbare, hdigits⟩, hm⟩, rfl⟩

theorem cweNumber?_ofList (cs : List Char) : cweNumber? (String.ofList cs) =
    match cweDigits? cs with
    | some ds => if maxNumeralDigits < ds.length then .error .invalidValue
      else .ok ((decimal? ds).map Int.ofNat)
    | none => .ok none := by
  rw [cweNumber?, String.toList_ofList]
  split
  · next d ds =>
    rw [mapM_digitValue?]
    by_cases hall : (d :: ds).all isDecimal = true
    · have hne : d :: ds ≠ [] := List.cons_ne_nil d ds
      have hdigits := cweDigits?_eq_some_iff.mpr ⟨rfl, hne, hall⟩
      have hvalue : decimal? (d :: ds) = some (ofDigits ((d :: ds).filterMap digitValue?)) :=
        if_pos ⟨hne, hall⟩
      simp only [if_pos hall, hdigits, hvalue, length_filterMap_digitValue? hall]
      rfl
    · have hdigits : cweDigits? ('C' :: 'W' :: 'E' :: '-' :: d :: ds) = none :=
        if_neg fun h => hall h.2
      simp only [if_neg hall, hdigits]
  · next hcs =>
    cases hds : cweDigits? cs with
    | none => rfl
    | some ds =>
      obtain ⟨rfl, hne, -⟩ := cweDigits?_eq_some_iff.mp hds
      obtain ⟨d, rest, rfl⟩ := List.exists_cons_of_ne_nil hne
      exact absurd rfl (hcs d rest)

/-- A text or null; a text that names a weakness does so in no more digits than are read. -/
def isLegible (v : Json) : Bool :=
  v.isTextOrNull && (cweDigits? v.bareText).all fun ds => ds.length ≤ maxNumeralDigits

theorem cweNumber?_of_isLegible {v : Json} (h : isLegible v = true) :
    v.trimmedText = .ok (String.ofList v.bareText) ∧
      cweNumber? (String.ofList v.bareText) = .ok (cwe? v) := by
  obtain ⟨htext, hshort⟩ := (Bool.and_eq_true _ _).mp h
  refine ⟨Json.trimmedText_of_isTextOrNull htext, ?_⟩
  rw [cweNumber?_ofList, cwe?]
  cases hds : cweDigits? v.bareText with
  | none => rfl
  | some ds =>
    have hle : ds.length ≤ maxNumeralDigits := by simpa [hds] using hshort
    exact if_neg (Nat.not_lt.mpr hle)

/-- A weakness whose descriptions can be gone through. -/
def isLegibleWeakness (w : Json) : Bool :=
  w.hasMember "description" (Json.isListOf (Json.hasMember "value" isLegible))

/-- A record whose weaknesses can be gone through. -/
def hasLegibleWeaknesses (cve : Json) : Bool :=
  cve.hasMember "weaknesses" (Json.isListOf isLegibleWeakness)

def valuesOfWeakness (w : Json) : List Json :=
  (w.memberOrNull "description").items.map (Json.memberOrNull "value")

/-- The values of all descriptions, in the order of the document. -/
def valuesOf (cve : Json) : List Json :=
  (cve.memberOrNull "weaknesses").items.flatMap valuesOfWeakness

section Walk

variable {seen : List Int}

theorem addNew_extends (seen : List Int) (n : Option Int) : seen <+: addNew seen n := by
  cases n with
  | none => exact List.prefix_refl seen
  | some n =>
    rw [addNew]
    split
    · exact List.prefix_refl seen
    · exact List.prefix_append seen [n]

theorem foldl_addNew_extends (seen : List Int) (ns : List (Option Int)) :
    seen <+: ns.foldl addNew seen := by
  induction ns generalizing seen with
  | nil => exact List.prefix_refl seen
  | cons n rest ih => exact (addNew_extends seen n).trans (ih _)

theorem nodup_addNew (h : seen.Nodup) (n : Option Int) : (addNew seen n).Nodup := by
  cases n with
  | none => exact h
  | some n =>
    rw [addNew]
    split
    · exact h
    · next hn =>
      have hnew : n ∉ seen := by simpa using hn
      exact List.nodup_append_comm.mp (List.nodup_cons.mpr ⟨hnew, h⟩)

theorem nodup_foldl_addNew (h : seen.Nodup) (ns : List (Option Int)) :
    (ns.foldl addNew seen).Nodup := by
  induction ns generalizing seen with
  | nil => exact h
  | cons n rest ih => exact ih (nodup_addNew h n)

theorem foldl_addNew (ns : List (Option Int)) :
    ns.foldl addNew [] = (ns.filterMap id).eraseDups := by
  rw [List.eraseDups, ← foldl_firsts, List.foldl_filterMap]
  congr 1
  funext seen n
  cases n with
  | none => rfl
  | some n => rw [addNew, List.contains_eq_any_beq]; rfl

theorem cwesOfDescriptions_eq {ds : List Json} (h : ∀ d ∈ ds, d.hasMember "value" isLegible = true)
    (seen : List Int) : cwesOfDescriptions seen ds =
      .ok ((ds.map fun d => cwe? (d.memberOrNull "value")).foldl addNew seen) := by
  induction ds generalizing seen with
  | nil => rfl
  | cons d rest ih =>
    obtain ⟨hd, hrest⟩ := List.forall_mem_cons.mp h
    obtain ⟨htext, hnumber⟩ := cweNumber?_of_isLegible (Json.of_hasMember hd)
    rw [cwesOfDescriptions, Json.member_of_isObject (Json.isObject_of_hasMember hd)]
    change ((d.memberOrNull "value").trimmedText >>= _) = _
    rw [htext]
    change (cweNumber? _ >>= _) = _
    rw [hnumber]
    exact ih hrest _

theorem cwesOfWeaknesses_eq {ws : List Json} (h : ∀ w ∈ ws, isLegibleWeakness w = true)
    (seen : List Int) :
    cwesOfWeaknesses seen ws =
      .ok (((ws.flatMap valuesOfWeakness).map cwe?).foldl addNew seen) := by
  induction ws generalizing seen with
  | nil => rfl
  | cons w rest ih =>
    obtain ⟨hw, hrest⟩ := List.forall_mem_cons.mp h
    have hlist := Json.of_hasMember hw
    rw [cwesOfWeaknesses, Json.member_of_isObject (Json.isObject_of_hasMember hw)]
    change ((w.memberOrNull "description").elementsIfAny >>= _) = _
    rw [Json.elementsIfAny_of_isListOf hlist]
    change (cwesOfDescriptions seen _ >>= _) = _
    rw [cwesOfDescriptions_eq (Json.forall_mem_items hlist), List.flatMap_cons, List.map_append,
      List.foldl_append, valuesOfWeakness, List.map_map]
    exact ih hrest _

theorem cwes_eq {cve : Json} (h : hasLegibleWeaknesses cve = true) :
    cwes cve = .ok (((valuesOf cve).map cwe?).foldl addNew []) := by
  have hlist := Json.of_hasMember h
  rw [cwes, Json.member_of_isObject (Json.isObject_of_hasMember h)]
  change ((cve.memberOrNull "weaknesses").elementsIfAny >>= _) = _
  rw [Json.elementsIfAny_of_isListOf hlist]
  exact cwesOfWeaknesses_eq (Json.forall_mem_items hlist) []

end Walk

section Appended

variable {cve w : Json}

theorem valuesOf_withItem (h : hasLegibleWeaknesses cve = true) (w : Json) :
    valuesOf (cve.withItem "weaknesses" w) = valuesOf cve ++ valuesOfWeakness w := by
  rw [valuesOf, Json.memberOrNull_withItem (Json.isObject_of_hasMember h), valuesOf, Json.items,
    List.flatMap_append, List.flatMap_singleton]

theorem hasLegibleWeaknesses_withItem (h : hasLegibleWeaknesses cve = true)
    (hw : isLegibleWeakness w = true) :
    hasLegibleWeaknesses (cve.withItem "weaknesses" w) = true := by
  have hobject := Json.isObject_of_hasMember h
  have hall : ((cve.memberOrNull "weaknesses").items ++ [w]).all isLegibleWeakness = true := by
    rw [List.all_append, List.all_eq_true.mpr (Json.forall_mem_items (Json.of_hasMember h)),
      Bool.true_and]
    simpa using hw
  rw [hasLegibleWeaknesses, Json.hasMember, Json.isObject_withItem hobject,
    Json.memberOrNull_withItem hobject, Bool.true_and, Json.isListOf, hall, Bool.or_true]

end Appended

/-- The weaknesses of a record are those that its values name, each where it is first named. -/
theorem cwes_eq_firsts {cve : Json} (h : hasLegibleWeaknesses cve = true) : ∃ ns,
    cwes cve = .ok ns ∧ ns = ((valuesOf cve).filterMap cwe?).eraseDups ∧
      (∀ v n, cwe? v = some n ↔ Names v n) ∧
      ns.Nodup ∧ (∀ n, n ∈ ns ↔ ∃ v ∈ valuesOf cve, Names v n) ∧
      ∀ w, isLegibleWeakness w = true →
        ∃ more, cwes (cve.withItem "weaknesses" w) = .ok (ns ++ more) := by
  have hfirsts : ((valuesOf cve).map cwe?).foldl addNew [] =
      ((valuesOf cve).filterMap cwe?).eraseDups := by
    rw [foldl_addNew, List.filterMap_map, Function.id_comp]
  refine ⟨_, cwes_eq h, hfirsts, fun v n => cwe?_eq_some_iff,
    nodup_foldl_addNew List.nodup_nil _, ?_, ?_⟩
  · intro n
    simp only [hfirsts, List.mem_eraseDups, List.mem_filterMap, cwe?_eq_some_iff]
  · intro w hw
    rw [cwes_eq (hasLegibleWeaknesses_withItem h hw), valuesOf_withItem h, List.map_append,
      List.foldl_append]
    obtain ⟨more, hmore⟩ := foldl_addNew_extends (((valuesOf cve).map cwe?).foldl addNew [])
      ((valuesOfWeakness w).map cwe?)
    exact ⟨more, by rw [hmore]⟩

def weaknessOf (values : List Json) : Json :=
  .object [("description",
    .list (values.map fun v => .object [("lang", .text "en"), ("value", v)]))]

/-- Three spellings of the same number, one that counts for another, and values that name
nothing. -/
def weaknessRecord : Json := .object [("id", .text "CVE-1"), ("weaknesses", .list [
  weaknessOf [.text "NVD-CWE-noinfo", .text " CWE-79\n", .null, .text "CWE-20"],
  weaknessOf [.text "CWE-0079", .text "CWE-٧٩", .text "CWE-²", .text "CWE-"]])]

theorem cwes_eq_firsts_respelt :
    hasLegibleWeaknesses weaknessRecord = true ∧ cwes weaknessRecord = .ok [79, 20] ∧
    isLegibleWeakness (weaknessOf [.text "CWE-20", .text "CWE-7"]) = true ∧
    ∃ more, cwes (weaknessRecord.withItem "weaknesses"
      (weaknessOf [.text "CWE-20", .text "CWE-7"])) =
      .ok ([79, 20] ++ more) := by
  have h : hasLegibleWeaknesses weaknessRecord = true := by decide +kernel
  have hw : isLegibleWeakness (weaknessOf [.text "CWE-20", .text "CWE-7"]) =
    true := by decide +kernel
  have hfound : ((valuesOf weaknessRecord).filterMap cwe?).eraseDups = [79, 20] := by decide +kernel
  obtain ⟨ns, hcwes, hns, -, -, -, happended⟩ := cwes_eq_firsts h
  obtain rfl : ns = [79, 20] := hns.trans hfound
  exact ⟨h, hcwes, hw, happended _ hw⟩

end Record

end AdvisoryLedger

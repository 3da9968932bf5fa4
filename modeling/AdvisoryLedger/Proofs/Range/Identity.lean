import AdvisoryLedger.Proofs.Binary64.Value
import AdvisoryLedger.Range.Basic

namespace AdvisoryLedger

namespace Json

/-- What a value that is neither list nor object says as part of a key; numbers of all kinds by
value. -/
inductive Content
  | null
  | text (value : String)
  | number (value : WithBot (WithTop ℚ))
  | nan

def wholeValue (n : Int) : WithBot (WithTop ℚ) := ((n : ℚ) : WithTop ℚ)

def Number.value? : Number → Option (WithBot (WithTop ℚ))
  | .whole n => some (wholeValue n)
  | .broken x => x.value?

/-- The content of a value; lists and objects have none. -/
def content? : Json → Option Content
  | .null => some .null
  | .flag b => some (.number (wholeValue (if b then 1 else 0)))
  | .int n => some (.number (wholeValue n))
  | .real x => some (x.value?.elim .nan .number)
  | .text s => some (.text s)
  | .list _ => none
  | .object _ => none

theorem wholeValue_inj {m n : Int} : wholeValue m = wholeValue n ↔ m = n := by
  simp [wholeValue]

theorem sameWhole_iff (n : Int) (x : Binary64) : sameWhole n x = true ↔
    x.value? = some (wholeValue n) := by
  cases x with
  | nan => simp [sameWhole, Binary64.value?]
  | infinity s => cases s <;> simp [sameWhole, Binary64.value?, wholeValue]
  | finite s m e =>
    simp only [sameWhole_finite_iff, Binary64.value?, wholeValue, Option.some.injEq,
      WithBot.coe_inj, WithTop.coe_inj]
    exact ⟨Eq.symm, Eq.symm⟩

theorem Number.same_iff (a b : Number) : a.same b = true ↔ ∃ v, a.value? = some v ∧
    b.value? = some v := by
  cases a with
  | whole m =>
    cases b with
    | whole n =>
      simp only [Number.same, beq_iff_eq, value?, Option.some.injEq, exists_eq_left',
        wholeValue_inj]
      exact ⟨Eq.symm, Eq.symm⟩
    | broken y => simp [Number.same, value?, sameWhole_iff]
  | broken x =>
    cases b with
    | whole n => simp [Number.same, value?, sameWhole_iff]
    | broken y => simp [Number.same, value?, Binary64.same_iff]

theorem content?_real (x : Binary64) (v : WithBot (WithTop ℚ)) :
    (Json.real x).content? = some (.number v) ↔ x.value? = some v := by
  cases hx : x.value? <;> simp [content?, hx]

theorem isNan_iff (a : Json) : a.isNan = true ↔ a.content? = some .nan := by
  cases a with
  | real x => cases x <;> simp [isNan, Binary64.isNan, content?, Binary64.value?]
  | _ => simp [isNan, content?]

theorem sameNumber_iff (a : Number) (b : Json) :
    sameNumber a b = true ↔ ∃ v, a.value? = some v ∧ b.content? = some (.number v) := by
  cases b with
  | real y => simp only [sameNumber, Number.same_iff, Number.value?, content?_real]
  | _ => simp [sameNumber, content?, Number.same_iff, Number.value?]

/-- A value that can be looked up is the same as those with its content and no others, except a
NaN. -/
theorem same_iff {a : Json} (ha : a.isHashable = true) (hn : a.isNan = false) (b : Json) :
    a.same b = true ↔ ∃ c, a.content? = some c ∧ b.content? = some c := by
  cases a with
  | list items => simp [isHashable] at ha
  | object members => simp [isHashable] at ha
  | null =>
    cases b with
    | real y => cases y <;> simp [same, content?, Binary64.value?]
    | _ => simp [same, content?]
  | text s =>
    cases b with
    | real y => cases y <;> simp [same, content?, Binary64.value?]
    | text t =>
      simp only [same, beq_iff_eq, content?, Option.some.injEq, exists_eq_left', Content.text.injEq]
      exact ⟨Eq.symm, Eq.symm⟩
    | _ => simp [same, content?]
  | flag x => simp [same, sameNumber_iff, content?, Number.value?]
  | int n => simp [same, sameNumber_iff, content?, Number.value?]
  | real x =>
    cases hx : x.value? with
    | none =>
      have hnan := (isNan_iff (.real x)).mpr (by simp [content?, hx])
      exact absurd (hn.symm.trans hnan) Bool.false_ne_true
    | some v => simp [same, sameNumber_iff, content?, Number.value?, hx]

theorem same_of_isNan {a : Json} (h : a.isNan = true) (b : Json) : a.same b = false := by
  cases a with
  | real x =>
    obtain rfl : x = .nan := by cases x <;> simp_all [isNan, Binary64.isNan]
    cases b <;> simp [same, sameNumber, Number.same, sameWhole, Binary64.same]
  | _ => cases h

theorem isNan_of_same {a b : Json} (h : a.same b = true) : a.isNan = false := by
  cases hn : a.isNan with
  | false => rfl
  | true => exact absurd ((same_of_isNan hn b).symm.trans h) Bool.false_ne_true

/-- As parts of keys, values are the same that have their content in common. -/
theorem sameItem_iff {a : Json} (ha : a.isHashable = true) (b : Json) :
    (a.isNan && b.isNan || a.same b) = true ↔ ∃ c, a.content? = some c ∧ b.content? = some c := by
  cases hn : a.isNan with
  | false => rw [Bool.false_and, Bool.false_or, same_iff ha hn]
  | true =>
    have hc := (isNan_iff a).mp hn
    simp [hc, same_of_isNan hn, isNan_iff]

theorem isHashable_of_content? {v : Json} {c : Content} (h : v.content? = some c) :
    v.isHashable = true := by
  cases v <;> simp_all [content?, isHashable]

/-- A value is the same as one that can be looked up only if it can itself be looked up. -/
theorem isHashable_of_same {a b : Json} (hb : b.isHashable = true) (h : a.same b = true) :
    a.isHashable = true := by
  cases a with
  | list items => cases b <;> simp_all [same, isHashable]
  | object members => cases b <;> simp_all [same, isHashable]
  | _ => rfl

def isTextOrNull : Json → Bool
  | .null => true
  | .text _ => true
  | _ => false

def isFlag : Json → Bool
  | .flag _ => true
  | _ => false

theorem content?_of_isTextOrNull {v : Json} (h : v.isTextOrNull = true) : v.content? ≠ none := by
  cases v <;> simp_all [isTextOrNull, content?]

theorem content?_of_isFlag {v : Json} (h : v.isFlag = true) : v.content? ≠ none := by
  cases v <;> simp_all [isFlag, content?]

def contents? : List Json → Option (List Content)
  | [] => some []
  | a :: rest =>
    match a.content?, contents? rest with
    | some c, some cs => some (c :: cs)
    | _, _ => none

theorem all_isHashable_of_contents? {as : List Json} {cs : List Content}
    (h : contents? as = some cs) :
    as.all isHashable = true := by
  induction as generalizing cs with
  | nil => rfl
  | cons a as ih =>
    cases ha : a.content? <;> cases has :
      contents? as <;> simp only [contents?, ha, has, reduceCtorEq] at h
    simp [isHashable_of_content? ha, ih has]

theorem exists_contents? {as : List Json} (h : ∀ a ∈ as, a.content? ≠ none) :
    ∃ cs, contents? as = some cs := by
  induction as with
  | nil => exact ⟨[], rfl⟩
  | cons a rest ih =>
    obtain ⟨ha, hrest⟩ := List.forall_mem_cons.mp h
    obtain ⟨cs, hcs⟩ := ih hrest
    obtain ⟨c, hc⟩ := Option.ne_none_iff_exists'.mp ha
    exact ⟨c :: cs, by simp [contents?, hc, hcs]⟩

theorem sameItems_iff {as : List Json} (ha : as.all isHashable = true) (bs : List Json) :
    sameItems as bs = true ↔ ∃ cs, contents? as = some cs ∧ contents? bs = some cs := by
  induction as generalizing bs with
  | nil =>
    cases bs with
    | nil => simp [sameItems, contents?]
    | cons b bs =>
      simp only [sameItems, contents?, Option.some.injEq, exists_eq_left']
      cases b.content? <;> cases contents? bs <;> simp
  | cons a as ih =>
    obtain ⟨h, hs⟩ : a.isHashable = true ∧ as.all isHashable = true := by simpa using ha
    cases bs with
    | nil =>
      simp only [sameItems, contents?, Option.some.injEq]
      cases a.content? <;> cases contents? as <;> simp
    | cons b bs =>
      simp only [sameItems, Bool.and_eq_true, sameItem_iff h, ih hs, contents?]
      cases a.content? <;> cases contents? as <;> cases b.content? <;> cases contents? bs <;> simp

theorem all_isHashable_of_sameItems {as bs : List Json} (hb : bs.all isHashable = true)
    (h : sameItems as bs = true) : as.all isHashable = true := by
  induction as generalizing bs with
  | nil => rfl
  | cons a as ih =>
    cases bs with
    | nil => simp [sameItems] at h
    | cons b bs =>
      simp only [sameItems, Bool.and_eq_true, Bool.or_eq_true] at h
      simp only [List.all_cons, Bool.and_eq_true] at hb ⊢
      refine ⟨?_, ih hb.2 h.2⟩
      rcases h.1 with hn | hs
      · exact isHashable_of_content? ((isNan_iff a).mp hn.1)
      · exact isHashable_of_same hb.1 hs

end Json

namespace AffectedRange

def identity? (r : AffectedRange) : Option (List Json.Content) := Json.contents? r.key

variable {a b c : AffectedRange}

theorem same_iff (ha : a.isHashable = true) (b : AffectedRange) :
    a.same b = true ↔ ∃ k, a.identity? = some k ∧ b.identity? = some k := Json.sameItems_iff ha _

theorem isHashable_of_same (hb : b.isHashable = true) (h : a.same b = true) : a.isHashable = true :=
  Json.all_isHashable_of_sameItems hb h

/-- Where one of two ranges can be looked up, they are the same when they have an identity in
common. -/
theorem same_iff_right (hb : b.isHashable = true) :
    a.same b = true ↔ ∃ k, a.identity? = some k ∧ b.identity? = some k := by
  constructor
  · intro h
    exact (same_iff (isHashable_of_same hb h) b).mp h
  · rintro ⟨k, hk, hk'⟩
    exact (same_iff (Json.all_isHashable_of_contents? hk) b).mpr ⟨k, hk, hk'⟩

theorem identity?_eq_of_same (hb : b.isHashable = true) (h : a.same b = true) :
    a.identity? = b.identity? := by
  obtain ⟨k, hk, hk'⟩ := (same_iff_right hb).mp h
  exact hk.trans hk'.symm

/-- Being the same depends on identities alone, where ranges can be looked up. -/
theorem same_congr {a' b' : AffectedRange} (ha : a.isHashable = true) (ha' : a'.isHashable = true)
    (h : a.identity? = a'.identity?) (h' : b.identity? = b'.identity?) : a.same b = a'.same b' := by
  apply Bool.eq_iff_iff.mpr
  rw [same_iff ha, same_iff ha', h, h']

theorem same_comm (ha : a.isHashable = true) : a.same b = b.same a := by
  apply Bool.eq_iff_iff.mpr
  rw [same_iff ha, same_iff_right ha]
  exact ⟨fun ⟨k, h, h'⟩ => ⟨k, h', h⟩, fun ⟨k, h, h'⟩ => ⟨k, h', h⟩⟩

theorem isHashable_of_identity? {k : List Json.Content} (h : a.identity? = some k) :
    a.isHashable = true :=
  Json.all_isHashable_of_contents? h

theorem same_of_identity? {k : List Json.Content} (ha : a.identity? = some k)
    (hb : b.identity? = some k) :
    a.same b = true := (same_iff (isHashable_of_identity? ha) b).mpr ⟨k, ha, hb⟩

/-- Every part of the key is a text or null but whether the range is vulnerable, which is a truth
value. -/
def isWellTyped (r : AffectedRange) : Bool :=
  r.key.dropLast.all Json.isTextOrNull && r.vulnerable.isFlag

theorem exists_identity? (h : a.isWellTyped = true) : ∃ k, a.identity? = some k := by
  simp only [isWellTyped, Bool.and_eq_true, List.all_eq_true] at h
  apply Json.exists_contents?
  intro v hv
  have hk : a.key = a.key.dropLast ++ [a.vulnerable] := rfl
  rw [hk] at hv
  rcases List.mem_append.mp hv with hv | hv
  · exact Json.content?_of_isTextOrNull (h.1 v hv)
  · exact List.mem_singleton.mp hv ▸ Json.content?_of_isFlag h.2

end AffectedRange

end AdvisoryLedger

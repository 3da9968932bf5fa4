import AdvisoryLedger.Advisory.Cell
import AdvisoryLedger.Proofs.Table

namespace AdvisoryLedger

namespace Json

mutual

/-- There is no NaN in the value, and no object has two members of one name. -/
def isProper : Json → Bool
  | .real x => !x.isNan
  | .list items => areProper items
  | .object members => decide (Table.keys members).Nodup && haveProper members
  | _ => true

def areProper : List Json → Bool
  | [] => true
  | a :: rest => isProper a && areProper rest

def haveProper : List (String × Json) → Bool
  | [] => true
  | (_, a) :: rest => isProper a && haveProper rest

end

theorem isProper_ofInts (ns : List Int) : (ofInts ns).isProper = true := by
  simp only [ofInts, isProper]
  induction ns with
  | nil => rfl
  | cons n rest ih => simpa [areProper, isProper] using ih

/-- Members that can all be looked up, and are the same as themselves. -/
theorem sameMembers_of_forall {ms bs : List (String × Json)}
    (h : ∀ m ∈ ms, lookup m.1 bs = some m.2 ∧ m.2.same m.2 = true) : sameMembers ms bs = true := by
  induction ms with
  | nil => rfl
  | cons m rest ih =>
    obtain ⟨⟨hl, hs⟩, hrest⟩ := List.forall_mem_cons.mp h
    obtain ⟨name, a⟩ := m
    simp only [sameMembers, hl, hs, ih hrest, Bool.or_true, Bool.and_self]

mutual

theorem same_self (v : Json) (h : v.isProper = true) : v.same v = true := by
  cases v with
  | null => simp [same]
  | flag b => simp [same, sameNumber, Number.same]
  | int n => simp [same, sameNumber, Number.same]
  | real x =>
    have hx : x ≠ .nan := by
      rintro rfl
      simp [isProper, Binary64.isNan] at h
    simp [same, sameNumber, Number.same, Binary64.same_self hx]
  | text s => simp [same]
  | list items =>
    simp only [isProper] at h
    simp only [same, sameItems_self items h]
  | object members =>
    simp only [isProper, Bool.and_eq_true, decide_eq_true_eq] at h
    simp only [same, beq_self_eq_true, Bool.true_and]
    apply sameMembers_of_forall
    intro m hm
    exact ⟨Table.get?_of_mem h.1 hm, same_self_of_mem members h.2 m hm⟩

theorem sameItems_self (items : List Json) (h : areProper items = true) :
    sameItems items items = true := by
  cases items with
  | nil => simp [sameItems]
  | cons a rest =>
    simp only [areProper, Bool.and_eq_true] at h
    simp only [sameItems, same_self a h.1, sameItems_self rest h.2, Bool.or_true, Bool.and_self]

theorem same_self_of_mem (members : List (String × Json)) (h : haveProper members = true)
    (m : String × Json) (hm : m ∈ members) : m.2.same m.2 = true := by
  cases members with
  | nil => cases hm
  | cons n rest =>
    obtain ⟨name, a⟩ := n
    simp only [haveProper, Bool.and_eq_true] at h
    rcases List.mem_cons.mp hm with rfl | hm
    · exact same_self a h.1
    · exact same_self_of_mem rest h.2 m hm

end

theorem null_same_iff (v : Json) : Json.null.same v = true ↔ v = .null := by
  cases v with
  | null => simp [same]
  | real x => cases x <;> simp [same]
  | _ => simp [same]

end Json

namespace Cell

def isProper : Cell → Bool
  | .json v => v.isProper
  | .moment _ => true

theorem same_self {c : Cell} (h : c.isProper = true) : c.same c = true := by
  cases c with
  | json v => exact Json.same_self v h
  | moment m => simp [same, Moment.same]

theorem null_same_iff (c : Cell) : Cell.null.same c = true ↔ c = .null := by
  cases c with
  | json v =>
    simp only [same, Json.null_same_iff, json.injEq]
  | moment m => simp [same]

theorem isNull_iff (c : Cell) : c.isNull = true ↔ c = .null := by
  cases c with
  | json v => cases v <;> simp [isNull]
  | moment m => simp [isNull]

end Cell

end AdvisoryLedger

import AdvisoryLedger.Diff.Basic
import AdvisoryLedger.Proofs.Table

namespace AdvisoryLedger

variable {ρ : Type}

namespace Attribute

/-- The value that is read, or null where nothing can be. -/
def value (a : Attribute ρ) (record : ρ) : Cell :=
  match a.read record with
  | .ok c => c
  | .error _ => .null

def IsReadable (a : Attribute ρ) : Prop := ∀ record, a.read record = .ok (a.value record)

def IsReadableAt (a : Attribute ρ) (record : ρ) : Prop := a.read record = .ok (a.value record)

def ReadAlike (attributes : List (Attribute ρ)) : Prop :=
  ∀ a ∈ attributes, ∀ b ∈ attributes, a.name = b.name → a.read = b.read

theorem readAlike_of_nodup {attributes : List (Attribute ρ)} (h : (attributes.map (·.name)).Nodup) :
    ReadAlike attributes := by
  intro a ha b hb hab
  rw [List.inj_on_of_nodup_map h ha hb hab]

theorem value_congr {a b : Attribute ρ} (h : a.read = b.read) : a.value = b.value := by
  funext record
  rw [value, value, h]

end Attribute

namespace Differ

open Attribute

variable {attributes : List (Attribute ρ)} {a : Attribute ρ} {name : String} {d after : Differ ρ}

theorem snapshot_eq {record : ρ} (h : ∀ a ∈ attributes, a.IsReadableAt record) :
    snapshot record attributes = .ok (attributes.map fun a => (a.name, a.value record)) := by
  induction attributes with
  | nil => rfl
  | cons a rest ih =>
    obtain ⟨ha, hrest⟩ := List.forall_mem_cons.mp h
    simp only [snapshot, show a.read record = _ from ha, ih hrest, bind, Except.bind, List.map_cons]

theorem isReadableAt_of_snapshot {record : ρ} {s : Snapshot}
    (h : snapshot record attributes = .ok s) :
    ∀ a ∈ attributes, a.IsReadableAt record := by
  induction attributes generalizing s with
  | nil => simp
  | cons a rest ih =>
    cases ha : a.read record with
    | error e => simp [snapshot, ha, bind, Except.bind] at h
    | ok v =>
      cases hrest : snapshot record rest with
      | error e => simp [snapshot, ha, hrest, bind, Except.bind] at h
      | ok t => exact List.forall_mem_cons.mpr ⟨by rw [IsReadableAt, value, ha], ih hrest⟩

theorem lookup_of_mem {rows : List (String × Cell)} {c : Cell} (hm : (name, c) ∈ rows)
    (h : ∀ row ∈ rows, row.1 = name → row.2 = c) : rows.lookup name = some c := by
  induction rows with
  | nil => cases hm
  | cons row rest ih =>
    obtain ⟨hrow, hrest⟩ := List.forall_mem_cons.mp h
    by_cases he : row.1 = name
    · rw [List.lookup_cons, he, beq_self_eq_true]
      exact congrArg some (hrow he)
    · rw [List.lookup_cons, beq_eq_false_iff_ne.mpr (Ne.symm he)]
      refine ih ((List.mem_cons.mp hm).resolve_left ?_) hrest
      rintro rfl
      exact he rfl

theorem value_snapshot (hn : ReadAlike attributes) (ha : a ∈ attributes) (record : ρ) :
    Snapshot.value (attributes.map fun a => (a.name, a.value record)) a.name = a.value record := by
  rw [Snapshot.value, lookup_of_mem (c := a.value record)]
  · rfl
  · exact List.mem_reverse.mpr (List.mem_map.mpr ⟨a, ha, rfl⟩)
  · intro row hrow he
    obtain ⟨b, hb, rfl⟩ := List.mem_map.mp (List.mem_reverse.mp hrow)
    exact congrFun (value_congr (hn b hb a ha he)) record

theorem settle_ok (h : ∀ a ∈ attributes, a.IsReadableAt d.existing) (s : Snapshot) :
    (settle s d attributes).1 = .ok () ∧ (settle s d attributes).2.existing = d.existing := by
  induction attributes generalizing d with
  | nil => exact ⟨rfl, rfl⟩
  | cons a rest ih =>
    obtain ⟨ha, hrest⟩ := List.forall_mem_cons.mp h
    simp only [settle, show a.read d.existing = _ from ha]
    exact ih (d := ⟨d.existing, d.reported, _⟩) hrest

theorem get?_settle_of_notMem (s : Snapshot) (hm : name ∉ attributes.map (·.name))
    (h : ∀ a ∈ attributes, a.IsReadableAt d.existing) :
    (settle s d attributes).2.changes.get? name = d.changes.get? name := by
  induction attributes generalizing d with
  | nil => rfl
  | cons a rest ih =>
    obtain ⟨ha, hrest⟩ := List.forall_mem_cons.mp h
    obtain ⟨hne, hm⟩ := not_or.mp (mt List.mem_cons.mpr hm)
    simp only [settle, show a.read d.existing = _ from ha]
    rw [ih hm]
    · split
      · rw [Table.get?_erase, if_neg (Ne.symm hne)]
      · rw [Table.get?_put, if_neg (Ne.symm hne)]
    · exact hrest

/-- Of attributes with one name the last one settles the change; it reads what the others read. -/
theorem get?_settle_of_mem (h : ∀ a ∈ attributes, a.IsReadableAt d.existing)
    (hn : ReadAlike attributes) (s : Snapshot) (ha : a ∈ attributes) :
    (settle s d attributes).2.changes.get? a.name =
      if (s.value a.name).same (a.value d.existing) then none
      else some ⟨s.value a.name, a.value d.existing⟩ := by
  induction attributes generalizing d a with
  | nil => cases ha
  | cons b rest ih =>
    obtain ⟨hb, hrest⟩ := List.forall_mem_cons.mp h
    have hnrest : ReadAlike rest := fun c hc e he =>
      hn c (List.mem_cons_of_mem b hc) e (List.mem_cons_of_mem b he)
    simp only [settle, show b.read d.existing = _ from hb]
    by_cases hm : a.name ∈ rest.map (·.name)
    · obtain ⟨c, hc, hca⟩ := List.mem_map.mp hm
      have hread := hn a ha c (List.mem_cons_of_mem b hc) hca.symm
      rw [← hca, value_congr hread]
      exact ih (d := ⟨d.existing, d.reported, _⟩) hrest hnrest hc
    · obtain rfl : a = b :=
        (List.mem_cons.mp ha).resolve_right fun ha => hm (List.mem_map_of_mem ha)
      rw [get?_settle_of_notMem _ hm]
      · split
        · rw [Table.get?_erase, if_pos rfl]
        · rw [Table.get?_put, if_pos rfl]
      · exact hrest

/-- A value that is the same, or absent where that does not count, is not taken over. -/
theorem apply_of_same {d : Differ ρ} {before after : Cell} (hb : a.read d.existing = .ok before)
    (ha : a.read d.reported = .ok after)
    (h : (a.policy = .ifPresent ∧ after.isNull = true) ∨ before.same after = true) :
    d.apply a = (.ok false, d) := by
  simp only [apply, hb, ha]
  rcases h with h | h
  · rw [if_pos h]
  · rw [if_pos h, ite_self]

theorem apply_of_write {d : Differ ρ} {before after : Cell} {new : ρ}
    (hb : a.read d.existing = .ok before) (ha : a.read d.reported = .ok after)
    (h : ¬((a.policy = .ifPresent ∧ after.isNull = true) ∨ before.same after = true))
    (hw : a.write d.existing after = .ok new) :
    d.apply a = (.ok true, { d with existing := new, changes := d.changes.put a.name ⟨before, after⟩ }) := by
  obtain ⟨hp, hs⟩ := not_or.mp h
  simp only [apply, hb, ha]
  rw [if_neg hp, if_neg hs, hw]

theorem get?_apply_of_ne (d : Differ ρ) (hne : a.name ≠ name) :
    (d.apply a).2.changes.get? name = d.changes.get? name := by
  unfold apply
  split
  · rfl
  · rfl
  · split
    · rfl
    · split
      · rfl
      · split
        · rfl
        · rw [Table.get?_put, if_neg hne]

/-- What taking over each attribute preserves, taking over one after the other does, how far it may
come. -/
theorem applyEach_preserves {P : Differ ρ → Prop}
    (hP : ∀ a ∈ attributes, ∀ d, P d → P (d.apply a).2) (h : P d) :
    P (d.applyEach attributes).2 := by
  induction attributes generalizing d with
  | nil => exact h
  | cons a rest ih =>
    obtain ⟨ha, hrest⟩ := List.forall_mem_cons.mp hP
    have hd := ha d h
    rw [applyEach]
    split
    · next he =>
      rw [he] at hd
      exact hd
    · next he =>
      rw [he] at hd
      exact ih hrest hd

theorem get?_applyEach_of_notMem (d : Differ ρ) (hm : name ∉ attributes.map (·.name)) :
    (d.applyEach attributes).2.changes.get? name = d.changes.get? name := by
  refine applyEach_preserves (P := fun e => e.changes.get? name = d.changes.get? name)
    (fun a ha e he => ?_) rfl
  rw [get?_apply_of_ne e fun hname => hm (List.mem_map.mpr ⟨a, ha, hname⟩), he]

theorem isChanged_iff (d : Differ ρ) : d.isChanged = true ↔ ∃ name, d.changes.get? name ≠ none := by
  rw [isChanged, Bool.not_eq_true', List.isEmpty_eq_false_iff]
  constructor
  · intro hne
    obtain ⟨⟨name, c⟩, rest, he⟩ := List.exists_cons_of_ne_nil hne
    exact ⟨name, by simp [he, Table.get?_cons]⟩
  · rintro ⟨name, hs⟩ he
    rw [he] at hs
    exact hs rfl

/-- Taking over an attribute keeps the report, and records at most one change by each name. -/
theorem apply_frame (d : Differ ρ) (a : Attribute ρ) :
    (d.apply a).2.reported = d.reported ∧
      (d.changes.keys.Nodup → (d.apply a).2.changes.keys.Nodup) := by
  unfold apply
  split
  · exact ⟨rfl, id⟩
  · exact ⟨rfl, id⟩
  · next before after _ _ =>
    split
    · exact ⟨rfl, id⟩
    · split
      · exact ⟨rfl, id⟩
      · split
        · exact ⟨rfl, id⟩
        · exact ⟨rfl, fun h => Table.nodup_put h a.name ⟨before, after⟩⟩

theorem applyEach_frame (d : Differ ρ) (attributes : List (Attribute ρ)) :
    (d.applyEach attributes).2.reported = d.reported ∧
      (d.changes.keys.Nodup → (d.applyEach attributes).2.changes.keys.Nodup) := by
  refine applyEach_preserves
    (P := fun e => e.reported = d.reported ∧ (d.changes.keys.Nodup → e.changes.keys.Nodup))
    (fun a _ e he => ?_) ⟨rfl, id⟩
  obtain ⟨hr, hn⟩ := apply_frame e a
  exact ⟨hr.trans he.1, hn ∘ he.2⟩

theorem settle_frame (s : Snapshot) (d : Differ ρ) (attributes : List (Attribute ρ)) :
    (settle s d attributes).2.reported = d.reported ∧
      (d.changes.keys.Nodup → (settle s d attributes).2.changes.keys.Nodup) := by
  induction attributes generalizing d with
  | nil => exact ⟨rfl, id⟩
  | cons a rest ih =>
    rw [settle]
    split
    · exact ⟨rfl, id⟩
    · refine ⟨(ih _).1, fun h => (ih _).2 ?_⟩
      dsimp only
      split
      · exact Table.nodup_erase h a.name
      · exact Table.nodup_put h a.name _

/-- The attributes are all taken over, which leads to another differ, and can be read before and
after. -/
structure Completes (d : Differ ρ) (attributes : List (Attribute ρ)) (after : Differ ρ) : Prop where
  before : ∀ a ∈ attributes, a.IsReadableAt d.existing
  applied : d.applyEach attributes = (.ok (), after)
  after : ∀ a ∈ attributes, a.IsReadableAt after.existing

namespace Completes

section

variable (h : d.Completes attributes after)

include h

theorem applyAll_eq : d.applyAll attributes =
    settle (attributes.map fun a => (a.name, a.value d.existing)) after attributes := by
  simp only [applyAll, snapshot_eq h.before, h.applied]

theorem result : (d.applyAll attributes).1 = .ok () := by
  rw [h.applyAll_eq]
  exact (settle_ok h.after _).1

/-- The record that is left is the one that taking over the attributes one by one leaves. -/
theorem existing : (d.applyAll attributes).2.existing = after.existing := by
  rw [h.applyAll_eq]
  exact (settle_ok h.after _).2

theorem reported : (d.applyAll attributes).2.reported = d.reported := by
  have he := (applyEach_frame d attributes).1
  rw [h.applied] at he
  rw [h.applyAll_eq]
  exact (settle_frame _ _ _).1.trans he

theorem nodup (hd : d.changes.keys.Nodup) : (d.applyAll attributes).2.changes.keys.Nodup := by
  have he := (applyEach_frame d attributes).2 hd
  rw [h.applied] at he
  rw [h.applyAll_eq]
  exact (settle_frame _ _ _).2 he

theorem get?_of_notMem (hm : name ∉ attributes.map (·.name)) :
    (d.applyAll attributes).2.changes.get? name = d.changes.get? name := by
  have he := get?_applyEach_of_notMem d hm
  rw [h.applied] at he
  rw [h.applyAll_eq, get?_settle_of_notMem _ hm h.after]
  exact he

variable (hn : ReadAlike attributes)

include hn

/-- Whatever was recorded of an attribute before, it counts as changed where its value is not the
same as it was when the first attribute was taken over. -/
theorem get?_of_mem (ha : a ∈ attributes) : (d.applyAll attributes).2.changes.get? a.name =
    if (a.value d.existing).same (a.value after.existing) then none
    else some ⟨a.value d.existing, a.value after.existing⟩ := by
  rw [h.applyAll_eq, get?_settle_of_mem h.after hn _ ha, value_snapshot hn ha]

/-- The changes that are recorded from scratch, and between which values. -/
theorem get?_eq_some (hd : d.changes = []) (change : Change) :
    (d.applyAll attributes).2.changes.get? name = some change ↔
      ∃ a ∈ attributes, a.name = name ∧ change.before = a.value d.existing ∧
        change.after = a.value after.existing ∧ change.before.same change.after = false := by
  constructor
  · intro hc
    by_cases hm : name ∈ attributes.map (·.name)
    · obtain ⟨a, ha, rfl⟩ := List.mem_map.mp hm
      rw [h.get?_of_mem hn ha] at hc
      split at hc
      · cases hc
      · next hs =>
        cases hc
        exact ⟨a, ha, rfl, rfl, rfl, (Bool.not_eq_true _).mp hs⟩
    · rw [h.get?_of_notMem hm, hd] at hc
      cases hc
  · rintro ⟨a, ha, rfl, hb, hafter, hs⟩
    obtain ⟨before, after⟩ := change
    subst hb hafter
    rw [h.get?_of_mem hn ha, if_neg (by simp [hs])]

end

end Completes

theorem applyAll_cases (d : Differ ρ) (hkeeps : ∀ a ∈ attributes, a.IsReadableAt d.existing →
    a.IsReadableAt (d.applyEach attributes).2.existing) :
    (∃ e, (d.applyAll attributes).1 = .error e ∧
      ((d.applyAll attributes).2 = d ∨ (d.applyAll attributes).2 = (d.applyEach attributes).2)) ∨
    d.Completes attributes (d.applyEach attributes).2 := by
  cases hs : snapshot d.existing attributes with
  | error e =>
    have he : d.applyAll attributes = (.error e, d) := by simp only [applyAll, hs]
    exact .inl ⟨e, congrArg Prod.fst he, .inl (congrArg Prod.snd he)⟩
  | ok s =>
    have hread := isReadableAt_of_snapshot hs
    cases hd : d.applyEach attributes with
    | mk result after =>
      rw [hd] at hkeeps
      cases result with
      | error e =>
        have he : d.applyAll attributes = (.error e, after) := by simp only [applyAll, hs, hd]
        exact .inl ⟨e, congrArg Prod.fst he, .inr (congrArg Prod.snd he)⟩
      | ok _ => exact .inr ⟨hread, hd, fun a ha => hkeeps a ha (hread a ha)⟩

section ApplyAll

variable {existing reported : ρ} (h : ∀ a ∈ attributes, a.IsReadable)
  (hok : (applyEach ⟨existing, reported, []⟩ attributes).1 = .ok ())

include h hok

/-- Attributes that can always be read are all taken over where none is refused. -/
theorem completes : Completes ⟨existing, reported, []⟩ attributes
    (applyEach ⟨existing, reported, []⟩ attributes).2 where
  before a ha := h a ha _
  applied := Prod.ext hok rfl
  after a ha := h a ha _

theorem applyAll_eq : applyAll ⟨existing, reported, []⟩ attributes =
    settle (attributes.map fun a => (a.name, a.value existing))
      (applyEach ⟨existing, reported, []⟩ attributes).2 attributes :=
  (completes h hok).applyAll_eq

theorem applyAll_ok : (applyAll ⟨existing, reported, []⟩ attributes).1 = .ok () :=
  (completes h hok).result

theorem existing_applyAll : (applyAll ⟨existing, reported, []⟩ attributes).2.existing =
    (applyEach ⟨existing, reported, []⟩ attributes).2.existing :=
  (completes h hok).existing

theorem reported_applyAll : (applyAll ⟨existing, reported, []⟩ attributes).2.reported = reported :=
  (completes h hok).reported

theorem nodup_applyAll : (applyAll ⟨existing, reported, []⟩ attributes).2.changes.keys.Nodup :=
  (completes h hok).nodup List.nodup_nil

variable (hn : (attributes.map (·.name)).Nodup)

include hn

theorem get?_applyAll_eq_some (change : Change) :
    (applyAll ⟨existing, reported, []⟩ attributes).2.changes.get? name = some change ↔
      ∃ a ∈ attributes, a.name = name ∧ change.before = a.value existing ∧
        change.after = a.value (applyAll ⟨existing, reported, []⟩ attributes).2.existing ∧
        change.before.same change.after = false := by
  rw [existing_applyAll h hok]
  exact (completes h hok).get?_eq_some (readAlike_of_nodup hn) rfl change

/-- Something has changed where the value of some attribute is not the same as before. -/
theorem isChanged_applyAll : (applyAll ⟨existing, reported, []⟩ attributes).2.isChanged = true ↔
    ∃ a ∈ attributes, (a.value existing).same
      (a.value (applyEach ⟨existing, reported, []⟩ attributes).2.existing) = false := by
  rw [← existing_applyAll h hok, isChanged_iff]
  constructor
  · rintro ⟨name, hs⟩
    obtain ⟨change, hc⟩ := Option.ne_none_iff_exists'.mp hs
    obtain ⟨a, ha, -, hb, hafter, hs⟩ := (get?_applyAll_eq_some h hok hn change).mp hc
    exact ⟨a, ha, hb ▸ hafter ▸ hs⟩
  · rintro ⟨a, ha, hs⟩
    exact ⟨a.name, Option.ne_none_iff_exists'.mpr
      ⟨⟨_, _⟩, (get?_applyAll_eq_some h hok hn _).mpr ⟨a, ha, rfl, rfl, rfl, hs⟩⟩⟩

end ApplyAll

end Differ

end AdvisoryLedger

import AdvisoryLedger.Proofs.Diff.Advisory

namespace AdvisoryLedger

namespace Differ

variable {ρ : Type}

theorem applyEach_append {d : Differ ρ} {first : List (Attribute ρ)}
    (h : (d.applyEach first).1 = .ok ())
    (rest : List (Attribute ρ)) :
    d.applyEach (first ++ rest) = (d.applyEach first).2.applyEach rest := by
  induction first generalizing d with
  | nil => rfl
  | cons a first ih =>
    simp only [List.cons_append, applyEach] at h ⊢
    split
    · next he =>
      rw [he] at h
      cases h
    · next he =>
      rw [he] at h
      exact ih h

/-- The same changes, on the way to the same report from another record. -/
def onto (d : Differ ρ) (record : ρ) : Differ ρ := { d with existing := record }

@[simp] theorem existing_onto (d : Differ ρ) (record : ρ) : (d.onto record).existing = record := rfl

@[simp] theorem isChanged_onto (d : Differ ρ) (record : ρ) :
    (d.onto record).isChanged = d.isChanged := rfl

/-- Settling compares values, so that records with the same values are settled alike. -/
theorem settle_onto {attributes : List (Attribute ρ)} (s : Snapshot) (d : Differ ρ) {record : ρ}
    (h : ∀ a ∈ attributes, a.read record = a.read d.existing) :
    settle s (d.onto record) attributes =
      ((settle s d attributes).1, (settle s d attributes).2.onto record) := by
  induction attributes generalizing d with
  | nil => rfl
  | cons a rest ih =>
    obtain ⟨ha, hrest⟩ := List.forall_mem_cons.mp h
    have hread : a.read (d.onto record).existing = a.read d.existing := ha
    simp only [settle, hread]
    split
    · rfl
    · next after _ =>
      exact ih { d with changes := _ } hrest

end Differ

namespace Advisory

/-- The advisory on a row of its own, with a severity that counts as assigned and costs no score. -/
def onRow (a : Advisory) (id : Option Int) (s : Severity) : Advisory := { a with id, explicitSeverity := some s }

/-- The advisory as a row states it: the severity in effect counts as assigned. -/
def stated (a : Advisory) (id : Option Int) : Advisory := a.onRow id a.severity

theorem cell_onRow (a : Advisory) (id : Option Int) (s : Severity) (c : Column) :
    (a.onRow id s).cell c = a.cell c := by
  cases c <;> rfl

theorem setCell?_onRow (a : Advisory) (id : Option Int) (s : Severity) (c : Column) (v : Cell) :
    (a.onRow id s).setCell? c v = (a.setCell? c v).map fun b => b.onRow id s := by
  cases c <;> simp only [setCell?, Option.map_map] <;> rfl

end Advisory

namespace Differ

open Advisory

variable (d : Differ Advisory) (id : Option Int) (s : Severity)

/-- The same changes, to the advisory on a row of its own. -/
def onRow : Differ Advisory := d.onto (d.existing.onRow id s)

theorem apply_column_onRow (c : Column) : (d.onRow id s).apply (columnAttribute c) =
    ((d.apply (columnAttribute c)).1, (d.apply (columnAttribute c)).2.onRow id s) := by
  have hread : (columnAttribute c).read (d.onRow id s).existing = .ok (d.existing.cell c) :=
    congrArg Except.ok (cell_onRow d.existing id s c)
  by_cases hk : (policyOf c = .ifPresent ∧ (d.reported.cell c).isNull = true) ∨
      (d.existing.cell c).same (d.reported.cell c) = true
  · rw [apply_of_same (d := d) rfl rfl hk, apply_of_same hread rfl hk]
  · obtain ⟨new, hset, -⟩ := setCell?_takes d.existing d.reported c
    have hw : (columnAttribute c).write d.existing (d.reported.cell c) = .ok new := by
      simp only [columnAttribute, hset]
    have hw' : (columnAttribute c).write (d.onRow id s).existing (d.reported.cell c) =
        .ok (new.onRow id s) := by
      have hset' := setCell?_onRow d.existing id s c (d.reported.cell c)
      rw [hset, Option.map_some] at hset'
      simp only [columnAttribute, onRow, onto, hset']
    rw [apply_of_write (d := d) rfl rfl hk hw, apply_of_write hread rfl hk hw']
    rfl

theorem applyEach_columns_onRow (columns : List Column) :
    (d.onRow id s).applyEach (columns.map columnAttribute) =
      ((d.applyEach (columns.map columnAttribute)).1,
        (d.applyEach (columns.map columnAttribute)).2.onRow id s) := by
  induction columns generalizing d with
  | nil => rfl
  | cons c columns ih =>
    simp only [List.map_cons, applyEach, apply_column_onRow]
    obtain ⟨r, e⟩ := d.apply (columnAttribute c)
    cases r with
    | error _ => rfl
    | ok _ => exact ih e

theorem apply_severity_of_ne {d : Differ Advisory} (h : d.existing.severity ≠ d.reported.severity) :
    d.apply severityAttribute = (.ok true,
      { d with
        existing := d.existing.assignSeverity (some d.reported.severity)
        changes := d.changes.put severityAttribute.name
          ⟨.text d.existing.severity.name, .text d.reported.severity.name⟩ }) := by
  have hn : ¬((severityAttribute.policy = .ifPresent ∧
    (Cell.text d.reported.severity.name).isNull = true) ∨
      (Cell.text d.existing.severity.name).same (.text d.reported.severity.name) = true) := by
    rintro (⟨hp, -⟩ | hsame)
    · cases hp
    · exact h ((same_severity_iff d.existing d.reported).mp hsame)
  have hw : severityAttribute.write d.existing (.text d.reported.severity.name) =
      .ok (d.existing.assignSeverity (some d.reported.severity)) := by
    simp only [severityAttribute, Severity.ofName?_name]
  exact apply_of_write rfl rfl hn hw

/-- The severity that is taken over is assigned in the one as in the other. -/
theorem apply_severity_onRow : (d.onRow id d.existing.severity).apply severityAttribute =
    ((d.apply severityAttribute).1,
      (d.apply severityAttribute).2.onRow id d.reported.severity) := by
  by_cases hs : d.existing.severity = d.reported.severity
  · have hsame := (same_severity_iff d.existing d.reported).mpr hs
    have hsame' := (same_severity_iff (d.onRow id d.existing.severity).existing d.reported).mpr hs
    rw [apply_of_same rfl rfl (.inr hsame), apply_of_same rfl rfl (.inr hsame'), hs]
  · have hs' : (d.onRow id d.existing.severity).existing.severity ≠
        (d.onRow id d.existing.severity).reported.severity := hs
    rw [apply_severity_of_ne hs, apply_severity_of_ne hs']
    rfl

end Differ

namespace Advisory

/-- The columns before the severity, the severity itself, and then the rest. -/
theorem applyEach_stated (stored reported : Advisory) (id : Option Int) :
    Differ.applyEach ⟨stored.stated id, reported, []⟩ attributes =
      ((Differ.applyEach ⟨stored, reported, []⟩ attributes).1,
        (Differ.applyEach ⟨stored, reported, []⟩ attributes).2.onRow id reported.severity) := by
  let rest := severityAttribute :: tailColumns.map columnAttribute
  have hsplit : attributes = headColumns.map columnAttribute ++ rest := rfl
  obtain ⟨d, he, hr, ht⟩ := applyEach_columns headColumns (by decide) [] ⟨stored, reported, []⟩
  rw [List.append_nil] at he
  have hhead : Differ.applyEach ⟨stored, reported, []⟩ attributes = d.applyEach rest := by
    rw [hsplit, Differ.applyEach_append (congrArg Prod.fst he), he]
    rfl
  have he' := Differ.applyEach_columns_onRow ⟨stored, reported, []⟩ id stored.severity headColumns
  rw [he] at he'
  have hhead' : Differ.applyEach ⟨stored.stated id, reported, []⟩ attributes =
      (d.onRow id stored.severity).applyEach rest :=
    (Differ.applyEach_append (congrArg Prod.fst he') rest).trans (by rw [he']; rfl)
  have hsev := Differ.apply_severity_onRow d id
  rw [ht.severity, hr] at hsev
  rw [hhead, hhead', Differ.applyEach, Differ.applyEach, hsev]
  obtain ⟨r, e⟩ := d.apply severityAttribute
  cases r with
  | error _ => rfl
  | ok _ => exact Differ.applyEach_columns_onRow e id reported.severity tailColumns

/-- A report does to what a row states what it does to the advisory itself. -/
theorem update_stated (stored : Advisory) (id : Option Int) {reported : Advisory}
    (h : reported.explicitSeverity = none) : (stored.stated id).update reported =
      (stored.update reported).onto ((stored.update reported).existing.stated id) := by
  obtain ⟨d, he, hu⟩ := applyEach_attributes stored reported
  have he' := applyEach_stated stored reported id
  rw [he] at he'
  have hstated : d.onRow id reported.severity = d.onto (d.existing.stated id) := by
    rw [stated, hu.severity h]
    rfl
  have hvalue : ∀ b : Advisory, ∀ a ∈ attributes, a.read (b.stated id) = a.read b := by
    intro b a ha
    rcases (mem_attributes a).mp ha with rfl | ⟨c, rfl⟩
    · rfl
    · exact congrArg Except.ok (cell_onRow b id b.severity c)
  have hsnapshot : (attributes.map fun a => (a.name, a.value (stored.stated id))) =
      attributes.map fun a => (a.name, a.value stored) := by
    apply List.map_congr_left
    intro a ha
    rw [Attribute.value, Attribute.value, hvalue stored a ha]
  rw [update, update, Differ.applyAll_eq isReadable_of_mem (congrArg Prod.fst he),
    Differ.applyAll_eq isReadable_of_mem (congrArg Prod.fst he'), he, he', hstated, hsnapshot,
    Differ.settle_onto _ _ (hvalue d.existing),
      (Differ.settle_ok (fun a ha => isReadable_of_mem a ha _) _).2]

end Advisory

end AdvisoryLedger

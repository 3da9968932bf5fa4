import AdvisoryLedger.Proofs.Diff.Stated

namespace AdvisoryLedger

/-- A record in another form has the same values, and takes what is written as the record itself
does. -/
structure Attribute.Passes {ρ : Type} (form : ρ → ρ) (a : Attribute ρ) : Prop where
  read : ∀ record, a.read (form record) = a.read record
  write : ∀ record c, a.write (form record) c = (a.write record c).map form

namespace Differ

variable {ρ : Type} {attributes : List (Attribute ρ)} {form : ρ → ρ}

theorem apply_onto {a : Attribute ρ} (h : a.Passes form) (d : Differ ρ) :
    (d.onto (form d.existing)).apply a =
      ((d.apply a).1, (d.apply a).2.onto (form (d.apply a).2.existing)) := by
  simp only [apply, onto, h.read, h.write]
  split
  · rfl
  · rfl
  · split
    · rfl
    · split
      · rfl
      · cases a.write d.existing _ <;> rfl

theorem applyEach_onto (h : ∀ a ∈ attributes, a.Passes form) (d : Differ ρ) :
    (d.onto (form d.existing)).applyEach attributes =
      ((d.applyEach attributes).1,
        (d.applyEach attributes).2.onto (form (d.applyEach attributes).2.existing)) := by
  induction attributes generalizing d with
  | nil => rfl
  | cons a rest ih =>
    obtain ⟨ha, hrest⟩ := List.forall_mem_cons.mp h
    simp only [applyEach, apply_onto ha]
    obtain ⟨r, e⟩ := d.apply a
    cases r with
    | error _ => rfl
    | ok _ => exact ih hrest e

end Differ

namespace Advisory

def renumbered (a : Advisory) (id : Option Int) : Advisory := { a with id }

theorem cell_renumbered (a : Advisory) (id : Option Int) (c : Column) :
    (a.renumbered id).cell c = a.cell c := by
  cases c <;> rfl

theorem setCell?_renumbered (a : Advisory) (id : Option Int) (c : Column) (v : Cell) :
    (a.renumbered id).setCell? c v = (a.setCell? c v).map fun b => b.renumbered id := by
  cases c <;> simp only [setCell?, Option.map_map] <;> rfl

theorem passes_renumbered (id : Option Int) :
    ∀ a ∈ attributes, a.Passes fun b => renumbered b id := by
  intro a ha
  rcases (mem_attributes a).mp ha with rfl | ⟨column, rfl⟩
  · refine ⟨fun b => rfl, fun b c => ?_⟩
    simp only [severityAttribute]
    split
    · split <;> rfl
    · rfl
  · refine ⟨fun b => congrArg Except.ok (cell_renumbered b id column), fun b c => ?_⟩
    simp only [columnAttribute, setCell?_renumbered]
    cases b.setCell? column c <;> rfl

/-- A report does to an advisory what it does to it on any other row. -/
theorem update_renumbered (stored reported : Advisory) (id : Option Int) :
    (stored.renumbered id).update reported =
      (stored.update reported).onto ((stored.update reported).existing.renumbered id) := by
  have hp := passes_renumbered id
  obtain ⟨d, he, -⟩ := applyEach_attributes stored reported
  have he' := Differ.applyEach_onto hp ⟨stored, reported, []⟩
  rw [he] at he'
  have hread (b : Advisory) : ∀ a ∈ attributes, a.read (b.renumbered id) = a.read b :=
    fun a ha => (hp a ha).read b
  have hsnapshot : (attributes.map fun a => (a.name, a.value (stored.renumbered id))) =
      attributes.map fun a => (a.name, a.value stored) := by
    apply List.map_congr_left
    intro a ha
    rw [Attribute.value, Attribute.value, hread stored a ha]
  have hstart : (⟨stored.renumbered id, reported, []⟩ : Differ Advisory) =
      Differ.onto ⟨stored, reported, []⟩ (stored.renumbered id) := rfl
  rw [update, update, Differ.applyAll_eq isReadable_of_mem (congrArg Prod.fst he),
    Differ.applyAll_eq isReadable_of_mem (congrArg Prod.fst he'), hstart, he, he', hsnapshot,
    Differ.settle_onto _ _ (hread d.existing),
      (Differ.settle_ok (fun a ha => isReadable_of_mem a ha _) _).2]

/-- The same advisory on two rows; rows with ids below the bound are common to both sides. -/
structure Alike (bound : Int) (x y : Advisory) : Prop where
  rest : x.renumbered y.id = y
  old : ∀ i, i < bound → (x.id = some i ↔ y.id = some i)

namespace Alike

variable {bound : Int} {x y : Advisory}

theorem refl (bound : Int) (x : Advisory) : Alike bound x x := ⟨rfl, fun _ _ => Iff.rfl⟩

theorem naturalKey (h : Alike bound x y) : x.naturalKey = y.naturalKey := by rw [← h.rest]; rfl

theorem inserted (a : Advisory) {i j : Int} (hi : bound ≤ i) (hj : bound ≤ j) :
    Alike bound (a.renumbered (some i)) (a.renumbered (some j)) := by
  refine ⟨rfl, fun k hk => ⟨fun h => ?_, fun h => ?_⟩⟩ <;>
    · have := Option.some.inj h
      omega

/-- A report leaves them alike, and changes the one just if it changes the other. -/
theorem update (h : Alike bound x y) (reported : Advisory) :
    Alike bound (x.update reported).existing (y.update reported).existing ∧
      (x.update reported).isChanged = (y.update reported).isChanged := by
  have hx := (updated_update x reported).id
  have hu := update_renumbered x reported y.id
  rw [h.rest] at hu
  rw [hu]
  refine ⟨⟨rfl, fun i hi => ?_⟩, rfl⟩
  rw [hx]
  exact h.old i hi

end Alike

end Advisory

end AdvisoryLedger

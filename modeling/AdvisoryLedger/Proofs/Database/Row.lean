import AdvisoryLedger.Database.Statement
import AdvisoryLedger.Proofs.Diff.Renumbered

namespace AdvisoryLedger.Row

open Advisory Statement

/-- The row has an id and holds the values that were written under an identity. -/
structure Holds (row : Row) (id : Cell) (source : Source) (vulnId : String)
    (values : List Cell) : Prop where
  id : row.get? "id" = some id
  source : row.get? "source" = some (.text source.name)
  vulnId : row.get? "vuln_id" = some (.text vulnId)
  values : ∀ x ∈ valueColumns.zip values, row.get? x.1 = some x.2

/-- The row holds what is written of an advisory. -/
abbrev States (row : Row) (a : Advisory) (id : Int) : Prop :=
  row.Holds (.int id) a.source a.vulnId (advisoryValues a)

variable {row : Row} {a : Advisory}

theorem zip_advisoryValues (a : Advisory) : valueColumns.zip (advisoryValues a) =
    (Column.all.map fun c => (c.name, a.cell c)) ++ [("severity", .text a.severity.name)] := by
  rw [valueColumns, advisoryValues, List.zip_append (by simp), List.zip_map']
  rfl

theorem column_eq {name : String} {c : Cell} (h : row.get? name = some c) :
    row.column name = .ok c := by
  simp only [column, h]

theorem columns_eq {cs : List Column} (h : ∀ c ∈ cs, row.get? c.name = some (a.cell c)) :
    row.columns cs = .ok (cs.map fun c => (c, a.cell c)) := by
  induction cs with
  | nil => rfl
  | cons c cs ih =>
    obtain ⟨hc, hcs⟩ := List.forall_mem_cons.mp h
    simp only [columns, column_eq hc, ih hcs, bind, Except.bind, List.map_cons]

/-- Filling in all columns leaves nothing of the advisory that was begun with but its keys. -/
theorem fill_all (b a : Advisory) : fill b (Column.all.map fun c => (c, a.cell c)) =
    .ok { a with vulnId := b.vulnId, source := b.source, explicitSeverity := b.explicitSeverity, id := b.id } := by
  simp only [Column.all, List.map_cons, List.map_nil, fill, setCell?, Advisory.cell,
    Cell.text?_ofText?, Cell.score?_ofScore?, Cell.moment?_ofMoment?, Cell.ints?_ofInts, Cell.json?,
    Option.map_some, need, bind, Except.bind]

theorem severity_eq {s : Severity} (h : row.get? "severity" = some (.text s.name)) :
    row.severity = .ok (some s) := by
  have ht : (Cell.text s.name).isTruthy = true := by cases s <;> decide +kernel
  simp only [severity, column_eq h, bind, Except.bind, ht, if_true, Severity.ofName?_name]

theorem source_eq {s : Source} (h : row.get? "source" = some (.text s.name)) :
    row.source = .ok s := by
  simp only [source, column_eq h, bind, Except.bind, Source.ofName?_name]

namespace States

variable {id : Int} (h : row.States a id)

include h

theorem cell {c : Column} (hc : c ∈ Column.all) : row.get? c.name = some (a.cell c) := by
  refine h.values (c.name, a.cell c) ?_
  rw [zip_advisoryValues]
  exact List.mem_append_left _ (List.mem_map_of_mem hc)

theorem severity : row.get? "severity" = some (.text a.severity.name) := by
  refine h.values ("severity", .text a.severity.name) ?_
  rw [zip_advisoryValues]
  exact List.mem_append_right _ (List.mem_singleton_self _)

theorem advisory : row.advisory = .ok (a.stated (some id)) := by
  have hid : (Cell.int id).id? = some (some id) := rfl
  have hvulnId : (Cell.text a.vulnId).text? = some (some a.vulnId) := rfl
  simp only [Row.advisory, columns_eq fun c hc => h.cell hc, Row.id, column_eq h.id,
    source_eq h.source,
    column_eq h.vulnId, severity_eq h.severity, hid, hvulnId, need, bind, Except.bind, fill_all]
  rfl

end States

/-- A row of an advisory in the database: it can be read, and it has an id. -/
def IsStored (row : Row) : Prop := ∃ a id, row.advisory = .ok a ∧ row.id = .ok (some id)

theorem States.isStored {id : Int} (h : row.States a id) : row.IsStored := by
  refine ⟨_, id, h.advisory, ?_⟩
  simp only [Row.id, column_eq h.id, bind, Except.bind]
  rfl

theorem ok_of_bind {α β : Type} {x : Except Failure α} {f : α → Except Failure β} {b : β}
    (h : (x >>= f) = .ok b) : ∃ a, x = .ok a ∧ f a = .ok b := by
  cases x with
  | error e => cases h
  | ok a => exact ⟨a, rfl, h⟩

theorem id_of_fill {a b : Advisory} {values : List (Column × Cell)} (h : fill a values = .ok b) :
    b.id = a.id := by
  induction values generalizing a with
  | nil =>
    cases h
    rfl
  | cons x rest ih =>
    obtain ⟨c, v⟩ := x
    cases hc : a.setCell? c v with
    | none => simp [fill, hc, need, bind, Except.bind] at h
    | some a' =>
      have hid : a'.renumbered a.id = a' := by
        have := Advisory.setCell?_renumbered a a.id c v
        simpa [Advisory.renumbered, hc] using this.symm
      simp only [fill, hc, need, bind, Except.bind] at h
      rw [ih h, ← hid]
      rfl

theorem id_of_advisory (h : row.advisory = .ok a) : row.id = .ok a.id := by
  obtain ⟨values, -, h⟩ := ok_of_bind h
  obtain ⟨id, hid, h⟩ := ok_of_bind h
  obtain ⟨source, -, h⟩ := ok_of_bind h
  obtain ⟨c, -, h⟩ := ok_of_bind h
  obtain ⟨v, -, h⟩ := ok_of_bind h
  obtain ⟨vulnId, -, h⟩ := ok_of_bind h
  obtain ⟨severity, -, h⟩ := ok_of_bind h
  rw [hid, id_of_fill h]

end AdvisoryLedger.Row

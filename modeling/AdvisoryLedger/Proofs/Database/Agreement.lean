import AdvisoryLedger.Proofs.Database.Shelf
import AdvisoryLedger.Proofs.Database.Text

namespace AdvisoryLedger

open Statement

namespace Row

variable {row r : Row} {cells : List (String × Cell)} {name : String}

def Takes (row : Row) (cells : List (String × Cell)) : Prop := ∀ x ∈ cells, row.get? x.1 = some x.2

abbrev IsOf (row : Row) (source : Source) (vulnId : String) : Prop :=
  row.Takes (identity source vulnId)

/-- The row after the columns are given something. -/
def assign (row : Row) (cells : List (String × Cell)) : Row :=
  cells.foldr (fun x row => Table.put x.1 x.2 row) row

/-- A row that is added: it takes what is given, and an id that no other row has. -/
structure Joins (row : Row) (id : Int) (cells : List (String × Cell))
    (others : Set Row) : Prop where
  takes : row.Takes cells
  hasId : row.get? "id" = some (.int id)
  isNew : ∀ r ∈ others, r.get? "id" ≠ some (.int id)

theorem get?_assign (row : Row) (cells : List (String × Cell)) (name : String) :
    (row.assign cells).get? name = (Table.get? cells name).or (row.get? name) :=
  Table.get?_foldr_put cells row name

theorem get?_assign_of_notMem (h : name ∉ cells.map Prod.fst) :
    (row.assign cells).get? name = row.get? name := by
  rw [get?_assign, Table.get?_eq_none_iff.mpr h, Option.none_or]

theorem takes_assign (row : Row) (h : (cells.map Prod.fst).Nodup) :
    (row.assign cells).Takes cells := by
  intro x hx
  rw [get?_assign, Table.get?_of_mem h hx, Option.some_or]

theorem takes_self (h : (cells.map Prod.fst).Nodup) : Takes cells cells :=
  fun _ hx => Table.get?_of_mem h hx

end Row

namespace Database

variable {δ : Type}

/-- The rows that a statement leaves where it gives something to the columns of the row of an id. -/
def overwritten (rows : Set Row) (id : Int) (cells : List (String × Cell)) : Set Row :=
  {r' | ∃ r ∈ rows, (r.get? "id" = some (.int id) ∧ r' = r.assign cells) ∨
    (r.get? "id" ≠ some (.int id) ∧ r' = r)}

/-- The database keeps rows in tables and goes by the texts of the statements. It looks a row up by
what is given to the columns, adds a row with what is given to them and a new id, and writes what is
given over the row of an id. A statement may not name a column twice, and a new advisory has to have
an identity of its own. -/
structure GoesByText (answer : Answering δ) (rows : δ → String → Set Row) : Prop where
  selectAdvisory : ∀ d forUpdate source vulnId table cells r,
    (selectAdvisory forUpdate source vulnId).selected? = some (table, cells) →
    r ∈ rows d table → r.Takes cells → (∀ r' ∈ rows d table, r'.Takes cells → r' = r) →
    ∃ d', answer (.selectAdvisory forUpdate source vulnId) d = (.ok (some r), d')
  insertAdvisory : ∀ d source vulnId values table cells,
    (insertAdvisory source vulnId values).inserted? = some (table, cells) →
      ("id" :: cells.map Prod.fst).Nodup →
    (∀ r ∈ rows d table, ∃ x ∈ cells, x.1 ∈ ["source", "vuln_id"] ∧ r.get? x.1 ≠ some x.2) →
    ∃ row id d', answer (.insertAdvisory source vulnId values) d = (.ok (some row), d') ∧
      row.Joins id cells (rows d table)
  updateAdvisory : ∀ d values id table cells key,
    (updateAdvisory values id).updated? = some (table, cells, .int key) →
      (cells.map Prod.fst).Nodup →
    ∃ status d', answer (.updateAdvisory values id) d = (.ok status, d') ∧
      rows d' table = overwritten (rows d table) key cells
  insertRange : ∀ d key table cells,
    (insertRange key).inserted? = some (table, cells) → ("id" :: cells.map Prod.fst).Nodup →
    ∃ row id d', answer (.insertRange key) d = (.ok (some row), d') ∧
      row.Joins id cells (rows d table)

end Database

namespace Row

variable {row : Row} {id : Int} {source : Source} {vulnId : String} {a : Advisory}
    {s : AffectedRange}

theorem IsOf.get?_source (h : row.IsOf source vulnId) :
    row.get? "source" = some (.text source.name) :=
  h _ (List.mem_cons_self ..)

theorem IsOf.get?_vulnId (h : row.IsOf source vulnId) : row.get? "vuln_id" = some (.text vulnId) :=
  h _ (List.mem_cons_of_mem _ (List.mem_singleton_self _))

/-- A new row of an advisory states it: its keys stand in the columns before the values. -/
theorem Joins.states {others : Set Row} (h : row.Joins id
    (advisoryColumns.zip (.text a.source.name :: .text a.vulnId :: advisoryValues a)) others) :
    row.States a id where
  id := h.hasId
  source := h.takes _ (List.mem_cons_self ..)
  vulnId := h.takes _ (List.mem_cons_of_mem _ (List.mem_cons_self ..))
  values x hx := h.takes x (List.mem_cons_of_mem _ (List.mem_cons_of_mem _ hx))

theorem map_fst_advisoryValues (a : Advisory) :
    (valueColumns.zip (advisoryValues a)).map Prod.fst = valueColumns :=
  List.map_fst_zip (Database.length_advisoryValues a).ge

theorem nodup_advisoryValues (a : Advisory) :
    ((valueColumns.zip (advisoryValues a)).map Prod.fst).Nodup := by
  rw [map_fst_advisoryValues]
  decide +kernel

theorem get?_assign_advisoryValues {name : String} (h : name ∉ valueColumns) :
    (row.assign (valueColumns.zip (advisoryValues a))).get? name = row.get? name :=
  get?_assign_of_notMem ((map_fst_advisoryValues a).symm ▸ h)

theorem isOf_assign : (row.assign (valueColumns.zip (advisoryValues a))).IsOf source vulnId ↔
    row.IsOf source vulnId := by
  have hsource : "source" ∉ valueColumns := by decide +kernel
  have hvulnId : "vuln_id" ∉ valueColumns := by decide +kernel
  have hnames : ∀ x ∈ identity source vulnId, x.1 ∉ valueColumns := by
    intro x hx
    rcases List.mem_pair.mp hx with rfl | rfl
    · exact hsource
    · exact hvulnId
  refine forall₂_congr fun x hx => ?_
  rw [get?_assign_advisoryValues (hnames x hx)]

theorem states_assign (hid : row.get? "id" = some (.int id)) (hkeys : row.IsOf source vulnId) :
    (row.assign (valueColumns.zip (advisoryValues a))).States { a with source, vulnId } id where
  id := (get?_assign_advisoryValues (by decide +kernel)).trans hid
  source := (isOf_assign.mpr hkeys).get?_source
  vulnId := (isOf_assign.mpr hkeys).get?_vulnId
  values := takes_assign row (nodup_advisoryValues a)

theorem keyValues_eq {names : List String} {values : List Json}
    (hlength : values.length = names.length)
    (h : row.Takes (names.zip (values.map .json))) : row.keyValues names = .ok values := by
  induction names generalizing values with
  | nil => rw [List.length_eq_zero_iff.mp hlength]; rfl
  | cons name rest ih =>
    cases values with
    | nil => cases hlength
    | cons value others =>
      obtain ⟨hvalue, hothers⟩ := List.forall_mem_cons.mp h
      have hrest := ih (Nat.succ.inj hlength) hothers
      simp only [keyValues, column_eq hvalue, Cell.json?, need, hrest, bind, Except.bind]

theorem Joins.range {others : Set Row}
    (h : row.Joins id (AffectedRange.columnNames.zip (s.key.map .json)) others) :
    row.range = .ok { s with id := some id } := by
  have hkey : AffectedRange.ofKey? s.key (some id) = some { s with id := some id } := rfl
  have hid : (Cell.int id).id? = some (some id) := rfl
  simp only [Row.range, Row.id, column_eq h.hasId, hid, need, keyValues_eq s.length_key h.takes,
    hkey, bind, Except.bind]

end Row

namespace Database

variable {δ : Type} {answer : Answering δ} {rows : δ → String → Set Row}

namespace GoesByText

variable (h : GoesByText answer rows) (locked : Bool)

include h

theorem serve_insertAdvisory {d : δ} {a : Advisory}
    (hfree : ∀ r ∈ rows d "vulnerabilities", ¬ r.IsOf a.source a.vulnId) :
    ∃ id d', serve answer locked (.insertAdvisory a) d = (.ok (a.stated (some id)), d') ∧
      ∀ r ∈ rows d "vulnerabilities", r.get? "id" ≠ some (.int id) := by
  have hnames : (advisoryColumns.zip
    (.text a.source.name :: .text a.vulnId :: advisoryValues a)).map Prod.fst =
      advisoryColumns := by
    refine List.map_fst_zip ?_
    simp [advisoryColumns, length_advisoryValues]
  have hdistinct : ("id" :: advisoryColumns).Nodup := by decide +kernel
  have hapart : ∀ r ∈ rows d "vulnerabilities",
      ∃ x ∈ advisoryColumns.zip (.text a.source.name :: .text a.vulnId :: advisoryValues a),
        x.1 ∈ ["source", "vuln_id"] ∧ r.get? x.1 ≠ some x.2 := by
    intro r hr
    have hne := hfree r hr
    simp only [Row.IsOf, Row.Takes, not_forall] at hne
    obtain ⟨x, hx, hne⟩ := hne
    have hname : x.1 ∈ ["source", "vuln_id"] := List.mem_map_of_mem (f := Prod.fst) hx
    refine ⟨x, ?_, hname, hne⟩
    exact List.mem_append_left _ hx
  obtain ⟨row, id, d', ha, hrow⟩ := h.insertAdvisory d a.source a.vulnId (advisoryValues a) _ _
    (inserted?_insertAdvisory (length_advisoryValues a)) (hnames.symm ▸ hdistinct) hapart
  refine ⟨id, d', ?_, hrow.isNew⟩
  simp only [serve, Dialogue.party, converse, send, Dialogue.call, bind, Dialogue.bind,
    Dialogue.run, ha, Dialogue.ofExcept, hrow.states.advisory]

theorem serve_updateAdvisory (d : δ) {a : Advisory} {id : Int} (hid : a.id = some id) :
    ∃ d', serve answer locked (.updateAdvisory a) d = (.ok (), d') ∧ rows d' "vulnerabilities" =
      overwritten (rows d "vulnerabilities") id (valueColumns.zip (advisoryValues a)) := by
  obtain ⟨status, d', ha, hrows⟩ := h.updateAdvisory d (advisoryValues a) id _ _ _
    (updated?_updateAdvisory (length_advisoryValues a)) (Row.nodup_advisoryValues a)
  refine ⟨d', ?_, hrows⟩
  simp only [serve, Dialogue.party, converse, hid, send, Dialogue.call, bind, Dialogue.bind,
    Dialogue.run, ha, Dialogue.ofExcept, pure]

theorem serve_getAdvisory {d : δ} {r : Row} {a : Advisory} {id : Int}
    (hr : r ∈ rows d "vulnerabilities")
    (hs : r.States a id) (honly : ∀ r' ∈ rows d "vulnerabilities",
      r'.IsOf a.source a.vulnId → r' = r) :
    (serve answer locked (.getAdvisory a.source a.vulnId) d).1 =
      .ok (some (a.stated (some id))) := by
  have hkeys : r.IsOf a.source a.vulnId := by
    intro x hx
    rcases List.mem_pair.mp hx with rfl | rfl
    · exact hs.source
    · exact hs.vulnId
  obtain ⟨d', ha⟩ := h.selectAdvisory d locked a.source a.vulnId _ _ r
    (selected?_selectAdvisory locked) hr hkeys
    honly
  simp only [serve, Dialogue.party, converse, send, Dialogue.call, bind, Dialogue.bind,
    Dialogue.run, ha, presentRow_holds hs, readRow, hs.advisory, Dialogue.ofExcept, pure]
  rfl

theorem serve_insertRange (d : δ) (s : AffectedRange) :
    ∃ id d', serve answer locked (.insertRange s) d = (.ok { s with id := some id }, d') ∧
      ∀ r ∈ rows d "affected_software", r.get? "id" ≠ some (.int id) := by
  have hnames : (AffectedRange.columnNames.zip (s.key.map Cell.json)).map Prod.fst =
      AffectedRange.columnNames := by
    refine List.map_fst_zip ?_
    rw [List.length_map, s.length_key]
  have hdistinct : ("id" :: AffectedRange.columnNames).Nodup := by decide +kernel
  obtain ⟨row, id, d', ha, hrow⟩ := h.insertRange d s.key _ _ (inserted?_insertRange s.length_key)
    (hnames.symm ▸ hdistinct)
  refine ⟨id, d', ?_, hrow.isNew⟩
  simp only [serve, Dialogue.party, converse, send, Dialogue.call, bind, Dialogue.bind,
    Dialogue.run, ha, Dialogue.ofExcept, hrow.range]

/-- The row of an id is read back with the values that were written over it, under the keys that it
had. -/
theorem serve_getAdvisory_updated {d : δ} {a : Advisory} {id : Int} {r : Row} {source : Source}
    {vulnId : String}
    (hid : a.id = some id) (hr : r ∈ rows d "vulnerabilities") (hrid : r.get? "id" = some (.int id))
    (hkeys : r.IsOf source vulnId)
    (honly : ∀ r' ∈ rows d "vulnerabilities", r'.IsOf source vulnId → r' = r) :
    ∃ d', serve answer locked (.updateAdvisory a) d = (.ok (), d') ∧
      (serve answer locked (.getAdvisory source vulnId) d').1 =
        .ok (some ({ a with source, vulnId }.stated (some id))) := by
  obtain ⟨d', hserve, hrows⟩ := h.serve_updateAdvisory locked d hid
  refine ⟨d', hserve, ?_⟩
  have hs := Row.states_assign hrid hkeys (a := a)
  refine h.serve_getAdvisory locked (hrows ▸ ⟨r, hr, .inl ⟨hrid, rfl⟩⟩) hs ?_
  intro r' hr' hkeys'
  rw [hrows] at hr'
  obtain ⟨old, hold, ⟨-, he⟩ | ⟨hne, he⟩⟩ := hr'
  · rw [he] at hkeys' ⊢
    rw [honly old hold (Row.isOf_assign.mp hkeys')]
  · rw [he] at hkeys'
    exact absurd (honly old hold hkeys' ▸ hrid) hne

end GoesByText

end Database

/-- Tables that are answered from by the texts of statements. -/
abbrev Sheets := String → List Row

namespace Sheets

open Database

def shows (r : Row) (x : String × Cell) : Bool :=
  match r.get? x.1, x.2 with
  | some (.json (.text s)), .json (.text t) => s == t
  | some (.json (.int m)), .json (.int n) => m == n
  | _, _ => false

def idOf (r : Row) : Int :=
  match r.get? "id" with
  | some (.json (.int n)) => n
  | _ => 0

def newId : List Row → Int
  | [] => 1
  | r :: rest => max (idOf r + 1) (newId rest)

def add (s : Sheets) (table : String) (row : Row) : Sheets :=
  Function.update s table (s table ++ [row])

def write (s : Sheets) (table : String) (id : Int) (cells : List (String × Cell)) : Sheets :=
  Function.update s table ((s table).map fun r =>
    if shows r ("id", .int id) then r.assign cells else r)

def lookUp (s : Sheets) : Option (String × List (String × Cell)) →
    Except Failure (Option Row) × Sheets
  | some (table, cells) => (.ok ((s table).find? fun r => cells.all (shows r)), s)
  | none => (.error .wrongKind, s)

/-- Adds a row, unless columns that have to be unique show the same in another. -/
def insert (s : Sheets) (unique : List String) :
    Option (String × List (String × Cell)) → Except Failure (Option Row) × Sheets
  | some (table, cells) =>
    let row : Row := ("id", .int (newId (s table))) :: cells
    let keys := cells.filter fun x => unique.contains x.1
    if !unique.isEmpty && (s table).any (fun r => keys.all (shows r)) then (.ok none, s)
    else (.ok (some row), s.add table row)
  | none => (.error .wrongKind, s)

def update (s : Sheets) : Option (String × List (String × Cell) × Cell) →
    Except Failure Json × Sheets
  | some (table, cells, .json (.int id)) => (.ok (.text "UPDATE 1"), s.write table id cells)
  | _ => (.error .wrongKind, s)

def answer : Answering Sheets
  | .selectAdvisory forUpdate source vulnId, s =>
    s.lookUp (selectAdvisory forUpdate source vulnId).selected?
  | .insertAdvisory source vulnId values, s =>
    s.insert ["source", "vuln_id"] (insertAdvisory source vulnId values).inserted?
  | .updateAdvisory values id, s => s.update (updateAdvisory values id).updated?
  | .insertRange key, s => s.insert [] (insertRange key).inserted?
  | statement, s => (.ok (Shelf.silence statement.verb), s)

variable {r : Row} {x : String × Cell} {s : Sheets} {table : String} {cells : List (String × Cell)}

theorem get?_of_shows (h : shows r x = true) : r.get? x.1 = some x.2 := by
  unfold shows at h
  split at h
  · next hr hx => rw [hr, hx, eq_of_beq h]
  · next hr hx => rw [hr, hx, eq_of_beq h]
  · cases h

theorem shows_id_iff {id : Int} : shows r ("id", .int id) = true ↔
    r.get? "id" = some (.int id) := by
  refine ⟨get?_of_shows, ?_⟩
  intro h
  simp [shows, h]

theorem all_shows_iff {source : Source} {vulnId : String} :
    (identity source vulnId).all (shows r) = true ↔ r.IsOf source vulnId := by
  rw [List.all_eq_true]
  constructor
  · exact fun h x hx => get?_of_shows (h x hx)
  · intro h x hx
    have hget := h x hx
    rcases List.mem_pair.mp hx with rfl | rfl <;> simp [shows, hget]

theorem find?_eq {source : Source} {vulnId : String} {rows : List Row} (hr : r ∈ rows)
    (hkeys : r.IsOf source vulnId) (honly : ∀ r' ∈ rows, r'.IsOf source vulnId → r' = r) :
    rows.find? (fun r => (identity source vulnId).all (shows r)) = some r := by
  cases h : rows.find? fun r => (identity source vulnId).all (shows r) with
  | none => exact absurd (all_shows_iff.mpr hkeys) (List.find?_eq_none.mp h r hr)
  | some other =>
    have hall := List.find?_some h
    rw [honly other (List.mem_of_find?_eq_some h) (all_shows_iff.mp hall)]

theorem idOf_lt_newId {rows : List Row} (h : r ∈ rows) : idOf r < newId rows := by
  induction rows with
  | nil => cases h
  | cons first rest ih =>
    rw [newId]
    rcases List.mem_cons.mp h with rfl | hrest
    · omega
    · have := ih hrest
      omega

theorem joins_newId (hnames : ("id" :: cells.map Prod.fst).Nodup) (rows : List Row) :
    Row.Joins (("id", .int (newId rows)) :: cells) (newId rows) cells {r | r ∈ rows} := by
  have htakes : Row.Takes (("id", .int (newId rows)) :: cells)
      (("id", .int (newId rows)) :: cells) :=
    Row.takes_self hnames
  refine ⟨fun x hx => htakes x (List.mem_cons_of_mem _ hx), rfl, ?_⟩
  intro r hr hid
  have hlt : idOf r < newId rows := idOf_lt_newId hr
  simp [idOf, hid] at hlt

theorem insert_eq {unique : List String} (hnames : ("id" :: cells.map Prod.fst).Nodup)
    (hapart : unique ≠ [] → ∀ r ∈ s table, ∃ x ∈ cells, x.1 ∈ unique ∧ r.get? x.1 ≠ some x.2) :
    ∃ row id s', s.insert unique (some (table, cells)) = (.ok (some row), s') ∧
      row.Joins id cells {r | r ∈ s table} := by
  refine ⟨_, _, s.add table (("id", .int (newId (s table))) :: cells), ?_,
    joins_newId hnames (s table)⟩
  have hclash : ¬ (!unique.isEmpty &&
      (s table).any (fun r => (cells.filter fun x => unique.contains x.1).all (shows r))) =
        true := by
    intro hany
    obtain ⟨hne, hany⟩ := Bool.and_eq_true_iff.mp hany
    obtain ⟨r, hr, hall⟩ := List.any_eq_true.mp hany
    obtain ⟨x, hx, hname, hx'⟩ := hapart (by simpa using hne) r hr
    have hkey : x ∈ cells.filter fun x => unique.contains x.1 :=
      List.mem_filter.mpr ⟨hx, by simpa using hname⟩
    exact hx' (get?_of_shows (List.all_eq_true.mp hall x hkey))
  rw [insert, if_neg hclash]

theorem setOf_write {id : Int} :
    {r | r ∈ s.write table id cells table} = overwritten {r | r ∈ s table} id cells := by
  ext r'
  simp only [write, Function.update_self, overwritten, Set.mem_ofPred_eq, List.mem_map]
  refine exists_congr fun r => and_congr_right fun _ => ?_
  by_cases hr : shows r ("id", .int id) = true
  · simp [hr, shows_id_iff.mp hr, eq_comm]
  · simp [hr, mt shows_id_iff.mpr hr, eq_comm]

/-- Tables of which the texts of statements decide what becomes of them. -/
theorem goesByText : GoesByText answer fun s table => {r | r ∈ s table} where
  selectAdvisory s forUpdate source vulnId table cells r hread hr htakes honly := by
    have hcells : cells = identity source vulnId := by
      rw [selected?_selectAdvisory] at hread
      exact (Prod.mk.inj (Option.some.inj hread)).2.symm
    obtain rfl := hcells
    refine ⟨s, ?_⟩
    change s.lookUp (selectAdvisory forUpdate source vulnId).selected? = _
    rw [hread, lookUp, find?_eq hr htakes honly]
  insertAdvisory s source vulnId values table cells hread hnames hapart := by
    change ∃ row id s', s.insert ["source", "vuln_id"]
      (insertAdvisory source vulnId values).inserted? = _ ∧ _
    rw [hread]
    exact insert_eq hnames fun _ => hapart
  updateAdvisory s values id table cells key hread _ := by
    refine ⟨.text "UPDATE 1", s.write table key cells, ?_, setOf_write⟩
    change s.update (updateAdvisory values id).updated? = _
    rw [hread]
    rfl
  insertRange s key table cells hread hnames := by
    change ∃ row id s', s.insert [] (insertRange key).inserted? = _ ∧ _
    rw [hread]
    exact insert_eq hnames fun hne => absurd rfl hne

end Sheets

namespace Database

variable {δ : Type} {answer : Answering δ} {rows : δ → String → Set Row}

/-- What is written is read. An advisory that is added comes back with a new id and the severity in
effect for an assigned one. One that is written over a row is read back likewise under the keys of
that row, whatever its own are. A range that is added comes back with a new id, and it is looked for
by the same values in the same columns as it is added with. -/
theorem GoesByText.reads_asWritten (h : GoesByText answer rows) (locked : Bool) (d : δ) :
    (∀ a : Advisory, (∀ r ∈ rows d "vulnerabilities", ¬ r.IsOf a.source a.vulnId) →
      ∃ id d', serve answer locked (.insertAdvisory a) d = (.ok (a.stated (some id)), d') ∧
        ∀ r ∈ rows d "vulnerabilities", r.get? "id" ≠ some (.int id)) ∧
    (∀ (a : Advisory) (id : Int) (r : Row) (source : Source) (vulnId : String), a.id = some id →
      r ∈ rows d "vulnerabilities" → r.get? "id" = some (.int id) → r.IsOf source vulnId →
      (∀ r' ∈ rows d "vulnerabilities", r'.IsOf source vulnId → r' = r) →
      ∃ d', serve answer locked (.updateAdvisory a) d = (.ok (), d') ∧
        (serve answer locked (.getAdvisory source vulnId) d').1 =
          .ok (some ({ a with source, vulnId }.stated (some id)))) ∧
    (∀ s : AffectedRange, ∃ id d',
      serve answer locked (.insertRange s) d = (.ok { s with id := some id }, d') ∧
      ∀ r ∈ rows d "affected_software", r.get? "id" ≠ some (.int id)) ∧
    ∀ s : AffectedRange, ∃ added sought cells,
      converse locked (.insertRange s) = .ask (.insertRange s.key) added ∧
      converse locked (.findRange s) = .ask (.findRange s.key) sought ∧
      (Statement.insertRange s.key).inserted? = some ("affected_software", cells) ∧
      (Statement.findRange s.key).compared? = some ("affected_software", cells) ∧
      cells.map Prod.fst = AffectedRange.columnNames ∧ cells.map Prod.snd = s.key.map .json := by
  refine ⟨fun a hfree => h.serve_insertAdvisory locked hfree, ?_, h.serve_insertRange locked d, ?_⟩
  · intro a id r source vulnId hid hr hrid hkeys honly
    exact h.serve_getAdvisory_updated locked hid hr hrid hkeys honly
  · intro s
    exact ⟨_, _, _, rfl, rfl, inserted?_insertRange s.length_key,
      compared?_findRange s.length_key, rfl, rfl⟩

/-- A table with a bare row: an advisory is written over it, another one is added. -/
theorem reads_asWritten_bareRow :
    let row : Row := [("id", .int 7), ("source", .text "NVD"), ("vuln_id", .text "CVE-2024-1")]
    let d : Sheets := fun table => if table = "vulnerabilities" then [row] else []
    let a : Advisory := { vulnId := "GHSA-1", source := .github, title := some "Overflow", cwes := [79] }
    row ∈ d "vulnerabilities" ∧
    (∃ id d', serve Sheets.answer true (.insertAdvisory a) d = (.ok (a.stated (some id)), d')) ∧
    (∃ d', serve Sheets.answer true (.updateAdvisory { a with id := some 7 }) d = (.ok (), d') ∧
      (serve Sheets.answer true (.getAdvisory .nvd "CVE-2024-1") d').1 =
        .ok (some ({ a with source := .nvd, vulnId := "CVE-2024-1" }.stated (some 7)))) ∧
    ∃ id d', serve Sheets.answer true (.insertRange { vendor := .text "acme" }) d =
      (.ok { vendor := .text "acme", id := some id }, d') := by
  intro row d a
  have hrow : row ∈ d "vulnerabilities" := List.mem_singleton_self row
  have honly : ∀ r ∈ d "vulnerabilities", r = row := fun r hr => List.mem_singleton.mp hr
  have hkeys : row.IsOf .nvd "CVE-2024-1" := by
    intro x hx
    rcases List.mem_pair.mp hx with rfl | rfl <;> rfl
  have hfree : ∀ r ∈ d "vulnerabilities", ¬ r.IsOf a.source a.vulnId := by
    intro r hr hkeys
    have hsource := (honly r hr ▸ hkeys).get?_source
    simp [row, Table.get?_cons, a, Source.name] at hsource
  obtain ⟨hadded, hwritten, hranges, -⟩ := Sheets.goesByText.reads_asWritten true d
  obtain ⟨id, d', hadded, -⟩ := hadded a hfree
  obtain ⟨rangeId, d'', hranges, -⟩ := hranges { vendor := .text "acme" }
  exact ⟨hrow, ⟨id, d', hadded⟩,
    hwritten { a with id := some 7 } 7 row .nvd "CVE-2024-1" rfl hrow rfl hkeys
    fun r hr _ => honly r hr, rangeId, d'', hranges⟩

end Database

end AdvisoryLedger

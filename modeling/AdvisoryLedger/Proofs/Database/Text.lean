import AdvisoryLedger.Proofs.Database.Token

namespace AdvisoryLedger

open Statement

namespace Sql

/-- A list up to its closing parenthesis, and what is behind it. -/
def listed {α : Type} (item? : Token → Option α) : List Token → Option (List α × List Token)
  | t :: .sign ',' :: rest => do
    let a ← item? t
    let x ← listed item? rest
    some (a :: x.1, x.2)
  | t :: .sign ')' :: rest => (item? t).map fun a => ([a], rest)
  | _ => none

/-- A statement that adds a row and asks for it: the table, and the columns with their
placeholders. -/
def insert? (text : String) : Option (String × List (String × Nat)) :=
  match tokens text with
  | .word "INSERT" :: .word "INTO" :: .word table :: .sign '(' :: rest =>
    match listed Token.name? rest with
    | some (columns, .word "VALUES" :: .sign '(' :: rest) =>
      match listed Token.place? rest with
      | some (places, rest) =>
        if columns.length = places.length ∧ [.word "RETURNING", .sign '*'] <:+ rest then
          some (table, columns.zip places)
        else none
      | none => none
    | _ => none
  | _ => none

/-- What columns are set to, up to the id of the row. -/
def assignments : List Token → Option (List (String × Nat) × Nat)
  | .quoted c :: .sign '=' :: p :: .sign ',' :: rest => do
    let n ← p.place?
    let x ← assignments rest
    some ((c, n) :: x.1, x.2)
  | [.quoted c, .sign '=', p, .word "WHERE", .word "id", .sign '=', key] => do
    let n ← p.place?
    let k ← key.place?
    some ([(c, n)], k)
  | _ => none

/-- A statement that writes over the row of an id: the table, the columns with their placeholders,
and that of the id. -/
def update? (text : String) : Option (String × List (String × Nat) × Nat) :=
  match tokens text with
  | .word "UPDATE" :: .word table :: .word "SET" :: rest =>
    (assignments rest).map fun x => (table, x)
  | _ => none

/-- What columns are compared with; nothing compares as equal to nothing. -/
def comparisons : List Token → Option (List (String × Nat))
  | .quoted c :: .word "IS" :: .word "NOT" :: .word "DISTINCT" :: .word "FROM" :: p :: .word "AND" :: rest => do
    let n ← p.place?
    let x ← comparisons rest
    some ((c, n) :: x)
  | .quoted c :: .word "IS" :: .word "NOT" :: .word "DISTINCT" :: .word "FROM" :: p ::
      .word "ORDER" :: _ =>
    p.place?.map fun n => [(c, n)]
  | _ => none

/-- What columns have to equal, up to what locks the row. -/
def equalities : List Token → Option (List (String × Nat))
  | .word c :: .sign '=' :: p :: .word "AND" :: rest => do
    let n ← p.place?
    let x ← equalities rest
    some ((c, n) :: x)
  | [.word c, .sign '=', p] => p.place?.map fun n => [(c, n)]
  | [.word c, .sign '=', p, .word "FOR", .word "UPDATE"] => p.place?.map fun n => [(c, n)]
  | _ => none

/-- A statement that looks for a row: the table, and the columns that its conditions name. -/
def lookUp? (conditions : List Token → Option (List (String × Nat))) (text : String) :
    Option (String × List (String × Nat)) :=
  match tokens text with
  | .word "SELECT" :: .sign '*' :: .word "FROM" :: .word table :: .word "WHERE" :: rest =>
    (conditions rest).map fun x => (table, x)
  | _ => none

section Readers

variable {table : String} {names : List String} {rest us vs : List Token} {α β γ : Type}

/-- Items with a separator between them, where what is read of them is told by the last one and by
each one before others. -/
theorem read_intercalate {read : List Token → Option γ} {item : β → List Token} {sep : Token}
    {f : List β → γ} {items : List β} (hne : items ≠ [])
    (hlast : ∀ b ∈ items, read (item b ++ rest) = some (f [b]))
    (hmore : ∀ b ∈ items, ∀ ts others, read ts = some (f others) →
      read (item b ++ sep :: ts) = some (f (b :: others))) :
    read ([sep].intercalate (items.map item) ++ rest) = some (f items) := by
  induction items with
  | nil => exact absurd rfl hne
  | cons b others ih =>
    obtain ⟨hlastb, hlast⟩ := List.forall_mem_cons.mp hlast
    obtain ⟨hmoreb, hmore⟩ := List.forall_mem_cons.mp hmore
    cases others with
    | nil =>
      rw [List.map_singleton, List.intercalate_singleton]
      exact hlastb
    | cons c others =>
      have hrest := ih (List.cons_ne_nil c others) hlast hmore
      rw [List.map_cons, List.map_cons, List.intercalate_cons_cons, List.append_assoc,
        List.append_assoc]
      exact hmoreb _ _ hrest

theorem listed_intercalate (item? : Token → Option α) (f : β → Token) (g : β → α)
    (rest : List Token)
    {items : List β} (hne : items ≠ []) (h : ∀ b ∈ items, item? (f b) = some (g b)) :
    listed item? ([Token.sign ','].intercalate (items.map fun b => [f b]) ++ .sign ')' :: rest) =
      some (items.map g, rest) := by
  refine read_intercalate hne (f := fun items => (items.map g, rest)) ?_ ?_
  · intro b hb
    simp only [List.singleton_append, listed, h b hb, Option.map_some, List.map_singleton]
  · intro b hb ts others hothers
    simp only [List.singleton_append, listed, h b hb, hothers, List.map_cons, bind, Option.bind]

/-- Names of columns that quotation marks can be put around. -/
def AreNames (names : List String) : Prop := names ≠ [] ∧ ∀ n ∈ names, '"' ∉ n.toList

instance : Decidable (AreNames names) := inferInstanceAs (Decidable (_ ∧ _))

theorem AreNames.zipIdx_ne_nil (h : AreNames names) (n : Nat) : names.zipIdx n ≠ [] := by
  simpa using h.1

theorem spells_quotedNames (h : AreNames names) : Spells (commaJoined (names.map quotedName))
    ([Token.sign ','].intercalate (names.map fun n => [.quoted n])) :=
  spells_intercalate (by decide +kernel) fun n hn => spells_quotedName (h.2 n hn)

theorem spells_placeholders (names : List String) :
    Spells (commaJoined (numbered (fun _ p => p) names))
    ([Token.sign ','].intercalate ((names.zipIdx 1).map fun x => [.word (placeholder x.2)])) :=
  spells_intercalate (by decide +kernel) fun x _ => spells_placeholder x.2

/-- A column, what stands between it and its placeholder, and the placeholder. -/
def beside (between : List Token) (x : String × Nat) : List Token :=
  .quoted x.1 :: (between ++ [.word (placeholder x.2)])

theorem spells_beside {sep mid : String} (h : AreNames names) (hsep : Separates sep us)
    (hmid : Separates mid vs) :
    Spells (sep.intercalate (numbered (fun name p => quotedName name ++ mid ++ p) names))
      (us.intercalate ((names.zipIdx 1).map (beside vs))) :=
  spells_intercalate hsep fun x hx =>
    (spells_quotedName (h.2 x.1 (List.fst_mem_of_mem_zipIdx hx))).append hmid
      (spells_placeholder x.2)

/-- A statement that adds a row names each column beside its own number. -/
theorem insert?_insertText (hnames : AreNames names) (htable : Spells table [.word table])
    {tail : String}
    (htail : Separates tail rest) (hreturning : [.word "RETURNING", .sign '*'] <:+ rest) :
    insert? (insertText table names (names.map quotedName) ++ tail) =
      some (table, names.zipIdx 1) := by
  have hstart : Spells "INSERT INTO" [.word "INSERT", .word "INTO"] := .inr ⟨_, _, rfl, rfl⟩
  have hblank : Separates " " [] := by decide +kernel
  have hopen : Separates " (" [.sign '('] := by decide +kernel
  have hvalues : Separates ") VALUES (" [.sign ')', .word "VALUES", .sign '('] := by decide +kernel
  have hclose : Separates ")" [.sign ')'] := by decide +kernel
  have hspells := ((((hstart.append hblank htable).append hopen
    (spells_quotedNames hnames)).append hvalues
    (spells_placeholders names)).append_closed hclose).append_closed htail
  have htext : insertText table names (names.map quotedName) ++ tail = "INSERT INTO" ++ " " ++
    table ++ " (" ++
      commaJoined (names.map quotedName) ++ ") VALUES (" ++
      commaJoined (numbered (fun _ p => p) names) ++ ")" ++ tail := rfl
  have htokens : tokens (insertText table names (names.map quotedName) ++ tail) =
      .word "INSERT" :: .word "INTO" :: .word table :: .sign '(' ::
        ([Token.sign ','].intercalate (names.map fun n => [.quoted n]) ++
          .sign ')' :: .word "VALUES" :: .sign '(' ::
            ([Token.sign ','].intercalate
              ((names.zipIdx 1).map fun x => [.word (placeholder x.2)]) ++
              .sign ')' :: rest)) := by
    rw [htext, hspells.tokens_eq]
    simp only [List.append_assoc, List.cons_append, List.nil_append]
  have hcolumns := listed_intercalate Token.name? Token.quoted id (.word "VALUES" :: .sign '(' ::
    ([Token.sign ','].intercalate ((names.zipIdx 1).map fun x => [.word (placeholder x.2)]) ++
      .sign ')' :: rest))
    hnames.1 fun _ _ => rfl
  have hplaces := listed_intercalate Token.place?
    (fun x : String × Nat => .word (placeholder x.2)) Prod.snd rest
    (hnames.zipIdx_ne_nil 1) fun x _ => place?_placeholder x.2
  have hlength : (names.map id).length = ((names.zipIdx 1).map Prod.snd).length := by simp
  have hzip : (names.map id).zip ((names.zipIdx 1).map Prod.snd) = names.zipIdx 1 := by
    rw [List.map_id, List.zipIdx_map_snd, ← List.zipIdx_eq_zip_range']
  simp only [insert?, htokens, hcolumns, hplaces, hlength, hreturning, and_self, if_true, hzip]

theorem assignments_intercalate (k : Nat) {items : List (String × Nat)} (hne : items ≠ []) :
    assignments ([Token.sign ','].intercalate (items.map (beside [.sign '='])) ++
      [.word "WHERE", .word "id", .sign '=', .word (placeholder k)]) = some (items, k) := by
  refine read_intercalate hne (f := fun items => (items, k)) ?_ ?_
  · intro x _
    simp only [beside, List.cons_append, List.nil_append, assignments, place?_placeholder, bind,
      Option.bind]
  · intro x _ ts others hothers
    simp only [beside, List.cons_append, List.nil_append, assignments, place?_placeholder, hothers,
      bind, Option.bind]

/-- A statement that writes over a row sets each column to its own number. -/
theorem update?_numbered {start : String} (k : Nat) (hnames : AreNames names)
    (hstart : scan .none start.toList = ([.word "UPDATE", .word table, .word "SET"], .none)) :
    update? (start ++ commaJoined (numbered (fun name p => quotedName name ++ " = " ++ p) names) ++
      " WHERE id = " ++ placeholder k) = some (table, names.zipIdx 1, k) := by
  have hcomma : Separates ", " [.sign ','] := by decide +kernel
  have hequals : Separates " = " [.sign '='] := by decide +kernel
  have hwhere : Separates " WHERE id = " [.word "WHERE", .word "id", .sign '='] := by decide +kernel
  have hassignments := spells_beside hnames hcomma hequals
  have htokens : tokens (start ++
    commaJoined (numbered (fun name p => quotedName name ++ " = " ++ p) names) ++
      " WHERE id = " ++ placeholder k) = .word "UPDATE" :: .word table :: .word "SET" ::
        ([Token.sign ','].intercalate ((names.zipIdx 1).map (beside [.sign '='])) ++
          [.word "WHERE", .word "id", .sign '=', .word (placeholder k)]) := by
    refine ((Spells.after hstart hassignments).append hwhere
      (spells_placeholder k)).tokens_eq.trans ?_
    simp only [List.append_assoc, List.cons_append, List.nil_append]
  simp only [update?, htokens, assignments_intercalate k (hnames.zipIdx_ne_nil 1), Option.map_some]

/-- What stands between a column and what it is compared with. -/
abbrev isSame : List Token := [.word "IS", .word "NOT", .word "DISTINCT", .word "FROM"]

theorem comparisons_intercalate (rest : List Token) {items : List (String × Nat)}
    (hne : items ≠ []) :
    comparisons ([Token.word "AND"].intercalate (items.map (beside isSame)) ++
      .word "ORDER" :: rest) =
      some items := by
  refine read_intercalate hne (f := fun items => items) ?_ ?_
  · intro x _
    simp only [beside, List.cons_append, List.nil_append, comparisons, place?_placeholder,
      Option.map_some]
  · intro x _ ts others hothers
    simp only [beside, List.cons_append, List.nil_append, comparisons, place?_placeholder, hothers,
      bind, Option.bind]

/-- A statement that looks for a row compares each column with its own number. -/
theorem lookUp?_comparisons {start order last : String} {ts : List Token} (hnames : AreNames names)
    (hstart : scan .none start.toList =
      ([.word "SELECT", .sign '*', .word "FROM", .word table, .word "WHERE"], .none))
    (horder : Separates order (.word "ORDER" :: rest)) (hlast : Spells last ts) :
    lookUp? comparisons (start ++
      " AND ".intercalate (numbered
        (fun name p => quotedName name ++ " IS NOT DISTINCT FROM " ++ p) names) ++
      order ++ last) = some (table, names.zipIdx 1) := by
  have hand : Separates " AND " [.word "AND"] := by decide +kernel
  have hsame : Separates " IS NOT DISTINCT FROM " isSame := by decide +kernel
  have hcomparisons := spells_beside hnames hand hsame
  have htokens : tokens (start ++
      " AND ".intercalate (numbered
        (fun name p => quotedName name ++ " IS NOT DISTINCT FROM " ++ p) names) ++
      order ++ last) = .word "SELECT" :: .sign '*' :: .word "FROM" :: .word table ::
        .word "WHERE" ::
        ([Token.word "AND"].intercalate ((names.zipIdx 1).map (beside isSame)) ++
          .word "ORDER" :: (rest ++ ts)) := by
    rw [((Spells.after hstart hcomparisons).append horder hlast).tokens_eq]
    simp only [List.append_assoc, List.cons_append, List.nil_append]
  simp only [lookUp?, htokens, comparisons_intercalate (rest ++ ts) (hnames.zipIdx_ne_nil 1),
    Option.map_some]

end Readers

end Sql

namespace Statement

def Arguments.at? : Arguments → Nat → Option Cell
  | .once values, n + 1 => values[n]?
  | _, _ => none

/-- The values of the placeholders that columns stand beside. -/
def Arguments.give? (arguments : Arguments) (places : List (String × Nat)) :
    Option (List (String × Cell)) :=
  places.mapM fun x => (arguments.at? x.2).map fun c => (x.1, c)

/-- What a statement is about as a reader of its text finds it, each column with its value. -/
def bound? (read? : String → Option (String × List (String × Nat))) (s : Statement) :
    Option (String × List (String × Cell)) := do
  let x ← read? s.sql
  let cells ← s.arguments.give? x.2
  some (x.1, cells)

/-- The table to which a statement adds a row, and what it gives to which column. -/
def inserted? : Statement → Option (String × List (String × Cell)) := bound? Sql.insert?

/-- The table in which a statement looks for a row that is the same as what it gives to which
column. -/
def compared? : Statement → Option (String × List (String × Cell)) :=
  bound? (Sql.lookUp? Sql.comparisons)

/-- The table in which a statement looks for a row that equals what it gives to which column. -/
def selected? : Statement → Option (String × List (String × Cell)) :=
  bound? (Sql.lookUp? Sql.equalities)

/-- The table in which a statement writes over a row, what it gives to which column, and the id of
the row. -/
def updated? (s : Statement) : Option (String × List (String × Cell) × Cell) := do
  let x ← Sql.update? s.sql
  let cells ← s.arguments.give? x.2.1
  let id ← s.arguments.at? x.2.2
  some (x.1, cells, id)

section Given

variable {s : Statement} {table : String} {places : List (String × Nat)} {k : Nat}
    {cells : List (String × Cell)}
  {source : Source} {vulnId : String} {values : List Cell} {id : Int} {key : List Json}

theorem bound?_eq {read? : String → Option (String × List (String × Nat))}
    (hread : read? s.sql = some (table, places)) (hgive : s.arguments.give? places = some cells) :
    s.bound? read? = some (table, cells) := by
  simp only [bound?, hread, hgive, bind, Option.bind]

theorem updated?_eq {c : Cell} (hread : Sql.update? s.sql = some (table, places, k))
    (hgive : s.arguments.give? places = some cells) (hid : s.arguments.at? k = some c) :
    s.updated? = some (table, cells, c) := by
  simp only [updated?, hread, hgive, hid, bind, Option.bind]

theorem give?_zipIdx (names : List String) (n : Nat) (h : n + names.length ≤ values.length) :
    (Arguments.once values).give? (names.zipIdx (n + 1)) = some (names.zip (values.drop n)) := by
  induction names generalizing n with
  | nil => rfl
  | cons name rest ih =>
    rw [List.length_cons] at h
    have hrest := ih (n + 1) (by omega)
    have hn : n < values.length := by omega
    rw [Arguments.give?] at hrest ⊢
    rw [List.zipIdx_cons, List.mapM_cons, hrest, List.drop_eq_getElem_cons hn]
    simp only [Arguments.at?, List.getElem?_eq_getElem hn, Option.map_some, List.zip_cons_cons]
    rfl

theorem give?_numbered {names : List String} (h : names.length ≤ values.length) :
    (Arguments.once values).give? (names.zipIdx 1) = some (names.zip values) :=
  give?_zipIdx names 0 (by omega)

theorem insert?_sql_insertAdvisory : Sql.insert? (insertAdvisory source vulnId values).sql =
    some ("vulnerabilities", advisoryColumns.zipIdx 1) := by
  have hnames : Sql.AreNames advisoryColumns := by decide +kernel
  have htable : Sql.Spells "vulnerabilities" [.word "vulnerabilities"] := .inr ⟨_, _, rfl, rfl⟩
  have htail : Sql.Separates " ON CONFLICT (source, vuln_id) DO NOTHING RETURNING *"
      [.word "ON", .word "CONFLICT", .sign '(', .word "source", .sign ',', .word "vuln_id",
        .sign ')', .word "DO", .word "NOTHING", .word "RETURNING", .sign '*'] := by
    decide +kernel
  exact Sql.insert?_insertText hnames htable htail (by decide)

theorem update?_sql_updateAdvisory : Sql.update? (updateAdvisory values id).sql =
    some ("vulnerabilities", valueColumns.zipIdx 1, valueColumns.length + 1) := by
  have hnames : Sql.AreNames valueColumns := by decide +kernel
  have hstart : Sql.scan .none "UPDATE vulnerabilities SET ".toList =
      ([.word "UPDATE", .word "vulnerabilities", .word "SET"], .none) := by decide +kernel
  exact Sql.update?_numbered _ hnames hstart

theorem insert?_sql_insertRange : Sql.insert? (insertRange key).sql =
    some ("affected_software", AffectedRange.columnNames.zipIdx 1) := by
  have hnames : Sql.AreNames AffectedRange.columnNames := by decide +kernel
  have htable : Sql.Spells "affected_software" [.word "affected_software"] := .inr ⟨_, _, rfl, rfl⟩
  have htail : Sql.Separates " RETURNING *" [.word "RETURNING", .sign '*'] := by decide +kernel
  exact Sql.insert?_insertText hnames htable htail (by decide)

theorem lookUp?_sql_findRange : Sql.lookUp? Sql.comparisons (findRange key).sql =
    some ("affected_software", AffectedRange.columnNames.zipIdx 1) := by
  have hnames : Sql.AreNames AffectedRange.columnNames := by decide +kernel
  have hstart : Sql.scan .none "SELECT * FROM affected_software WHERE ".toList =
      ([.word "SELECT", .sign '*', .word "FROM", .word "affected_software", .word "WHERE"],
        .none) := by
    decide +kernel
  have horder : Sql.Separates " ORDER BY id LIMIT " [.word "ORDER", .word "BY", .word "id",
      .word "LIMIT"] := by
    decide +kernel
  have hlast : Sql.Spells "1" [.word "1"] := .inr ⟨_, _, rfl, rfl⟩
  have htail : " ORDER BY id LIMIT 1" = " ORDER BY id LIMIT " ++ "1" := by decide +kernel
  change Sql.lookUp? Sql.comparisons
    ("SELECT * FROM affected_software WHERE " ++ " AND ".intercalate (numbered
    (fun name p => quotedName name ++ " IS NOT DISTINCT FROM " ++ p) AffectedRange.columnNames) ++
    " ORDER BY id LIMIT 1") = _
  rw [htail, ← String.append_assoc]
  exact Sql.lookUp?_comparisons hnames hstart horder hlast

theorem lookUp?_sql_selectAdvisory (forUpdate : Bool) :
    Sql.lookUp? Sql.equalities (selectAdvisory forUpdate source vulnId).sql =
      some ("vulnerabilities", [("source", 1), ("vuln_id", 2)]) := by
  change Sql.lookUp? Sql.equalities
    ("SELECT * FROM vulnerabilities WHERE source = $1 AND vuln_id = $2" ++
    (if forUpdate then " FOR UPDATE" else "")) = _
  cases forUpdate <;> decide +kernel

theorem inserted?_insertAdvisory (h : values.length = valueColumns.length) :
    (insertAdvisory source vulnId values).inserted? =
      some ("vulnerabilities",
        advisoryColumns.zip (.text source.name :: .text vulnId :: values)) := by
  have hlength : advisoryColumns.length ≤
      (Cell.text source.name :: .text vulnId :: values).length := by
    simp [advisoryColumns, h]
  exact bound?_eq insert?_sql_insertAdvisory (give?_numbered hlength)

theorem updated?_updateAdvisory (h : values.length = valueColumns.length) :
    (updateAdvisory values id).updated? =
      some ("vulnerabilities", valueColumns.zip values, .int id) := by
  have hzip : valueColumns.zip (values ++ [.int id]) = valueColumns.zip values := by
    have hlast : (valueColumns ++ []).zip (values ++ [Cell.int id]) =
        valueColumns.zip values ++ [].zip [Cell.int id] := List.zip_append h.symm
    simpa using hlast
  have hcells : (Arguments.once (values ++ [.int id])).give? (valueColumns.zipIdx 1) =
      some (valueColumns.zip values) := by
    rw [give?_numbered (by simp [h]), hzip]
  have hid : (Arguments.once (values ++ [.int id])).at? (valueColumns.length + 1) =
      some (.int id) := by
    simp [Arguments.at?, ← h]
  exact updated?_eq update?_sql_updateAdvisory hcells hid

theorem inserted?_insertRange (h : key.length = AffectedRange.columnNames.length) :
    (insertRange key).inserted? =
      some ("affected_software", AffectedRange.columnNames.zip (key.map .json)) := by
  have hlength : AffectedRange.columnNames.length ≤ (key.map Cell.json).length := by
    rw [List.length_map, h]
  exact bound?_eq insert?_sql_insertRange (give?_numbered hlength)

theorem compared?_findRange (h : key.length = AffectedRange.columnNames.length) :
    (findRange key).compared? =
      some ("affected_software", AffectedRange.columnNames.zip (key.map .json)) := by
  have hlength : AffectedRange.columnNames.length ≤ (key.map Cell.json).length := by
    rw [List.length_map, h]
  exact bound?_eq lookUp?_sql_findRange (give?_numbered hlength)

abbrev identity (source : Source) (vulnId : String) : List (String × Cell) :=
  [("source", .text source.name), ("vuln_id", .text vulnId)]

theorem selected?_selectAdvisory (forUpdate : Bool) :
    (selectAdvisory forUpdate source vulnId).selected? =
    some ("vulnerabilities", identity source vulnId) :=
  bound?_eq (lookUp?_sql_selectAdvisory forUpdate) rfl

end Given

end Statement

end AdvisoryLedger

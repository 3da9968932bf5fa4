import AdvisoryLedger.Proofs.Database.Session
import AdvisoryLedger.Proofs.Table

namespace AdvisoryLedger

open Database Statement

/-- Identities with the values last written under them. The place of an identity is its id. -/
structure Shelf where
  rows : List ((Source × String) × List Cell) := []

namespace Shelf

variable {key : Source × String} {values : List Cell}
    {rows : List ((Source × String) × List Cell)} {n : Int}

def rowAt (id : Int) (key : Source × String) (values : List Cell) : Row :=
  ("id", .int id) :: ("source", .text key.1.name) :: ("vuln_id", .text key.2) ::
    valueColumns.zip values

/-- The row of an identity, with places counted from `n`. -/
def find (n : Int) : List ((Source × String) × List Cell) → Source × String → Option Row
  | [], _ => none
  | r :: rest, key => if r.1 = key then some (rowAt n r.1 r.2) else find (n + 1) rest key

def write (id : Int) (values : List Cell) (n : Int) :
    List ((Source × String) × List Cell) → List ((Source × String) × List Cell)
  | [] => []
  | r :: rest => if n = id then (r.1, values) :: rest else r :: write id values (n + 1) rest

def holding (s : Shelf) : Holding := ⟨find 1 s.rows, 1 + s.rows.length⟩

/-- Statements on anything else are answered with nothing. -/
def silence : (verb : Verb) → verb.Reply
  | .execute => .text "UPDATE 0"
  | .executeMany => ()
  | .fetch => []
  | .fetchRow => none
  | .fetchValue => .null

def answer : Answering Shelf
  | .selectAdvisory _ source vulnId, s => (.ok (s.holding.row? (source, vulnId)), s)
  | .insertAdvisory source vulnId values, s =>
    match s.holding.row? (source, vulnId) with
    | some _ => (.ok none, s)
    | none => (.ok (some (rowAt s.holding.nextId (source, vulnId) values)),
      ⟨s.rows ++ [((source, vulnId), values)]⟩)
  | .updateAdvisory values id, s => (.ok (.text "UPDATE 1"), ⟨write id values 1 s.rows⟩)
  | statement, s => (.ok (silence statement.verb), s)

theorem rowAt_holds (id : Int) (key : Source × String) (h : values.length = valueColumns.length) :
    (rowAt id key values).Holds (.int id) key.1 key.2 values := by
  have hkeys : (rowAt id key values).keys = "id" :: "source" :: "vuln_id" :: valueColumns := by
    simp only [rowAt, Table.keys, List.map_cons]
    rw [List.map_fst_zip (by omega)]
  have hn : (rowAt id key values).keys.Nodup := by
    rw [hkeys]
    decide +kernel
  have hget {name : String} {c : Cell} (hm : (name, c) ∈ rowAt id key values) :
      (rowAt id key values).get? name = some c := Table.get?_of_mem hn hm
  refine ⟨hget (by simp [rowAt]), hget (by simp [rowAt]), hget (by simp [rowAt]), ?_⟩
  intro x hx
  exact hget (by simp [rowAt, hx])

theorem find_append (h : find n rows key = none) (other : Source × String) :
    find n (rows ++ [(key, values)]) other =
      if other = key then some (rowAt (n + rows.length) key values) else find n rows other := by
  induction rows generalizing n with
  | nil => simp [find, eq_comm]
  | cons r rest ih =>
    have hr : r.1 ≠ key := by
      intro hr
      simp [find, hr] at h
    have hrest : find (n + 1) rest key = none := by simpa [find, hr] using h
    have hlength : n + ((r :: rest).length : Int) = n + 1 + (rest.length : Int) := by
      simp only [List.length_cons]
      omega
    rw [List.cons_append, find, find, ih hrest, hlength]
    by_cases ho : r.1 = other
    · simp [ho, ho ▸ hr]
    · simp [ho]

theorem find_place {row : Row} (h : find n rows key = some row) :
    ∃ id values, n ≤ id ∧ row = rowAt id key values := by
  induction rows generalizing n with
  | nil => cases h
  | cons r rest ih =>
    rw [find] at h
    split at h
    · next hr => exact ⟨n, r.2, by omega, hr ▸ (Option.some.inj h).symm⟩
    · obtain ⟨id, values, hle, hrow⟩ := ih h
      exact ⟨id, values, by omega, hrow⟩

theorem find_write {id : Int} {old : List Cell} (h : find n rows key = some (rowAt id key old))
    (other : Source × String) :
    find n (write id values n rows) other =
      if other = key then some (rowAt id key values) else find n rows other := by
  have hid {i j : Int} {v w : List Cell} (he : rowAt i key v = rowAt j key w) : i = j := by
    injection he with he _
    injection he with _ he
    injection he with he
    injection he
  induction rows generalizing n with
  | nil => cases h
  | cons r rest ih =>
    by_cases hr : r.1 = key
    · rw [find, if_pos hr, hr] at h
      obtain rfl := hid (Option.some.inj h)
      rw [write, if_pos rfl, find, find]
      by_cases ho : r.1 = other
      · simp [ho, ← hr]
      · simp [ho, Ne.symm (hr ▸ ho)]
    · rw [find, if_neg hr] at h
      obtain ⟨i, v, hle, hrow⟩ := find_place h
      have hne : n ≠ id := by
        have := hid hrow
        omega
      rw [write, if_neg hne, find, find, ih h]
      by_cases ho : r.1 = other
      · simp [ho, ho ▸ hr]
      · simp [ho]

theorem length_write (id : Int) (values : List Cell) (n : Int)
    (rows : List ((Source × String) × List Cell)) :
    (write id values n rows).length = rows.length := by
  induction rows generalizing n with
  | nil => rfl
  | cons r rest ih =>
    rw [write]
    split
    · rfl
    · exact congrArg (· + 1) (ih (n + 1))

theorem givesBack : GivesBack answer holding where
  lock d key := ⟨_, d, rfl, rfl⟩
  select d forUpdate source vulnId := ⟨d, rfl, rfl⟩
  insert d source vulnId values hlen hnone := by
    refine ⟨rowAt d.holding.nextId (source, vulnId) values,
      ⟨d.rows ++ [((source, vulnId), values)]⟩, ?_,
      rowAt_holds _ (source, vulnId) hlen, ?_⟩
    · simp only [answer, hnone]
    · have hfind : find 1 (d.rows ++ [((source, vulnId), values)]) = Function.update (find 1 d.rows)
          (source, vulnId) (some (rowAt (1 + d.rows.length) (source, vulnId) values)) := by
        funext other
        rw [find_append hnone, Function.update_apply]
      simp only [holding, hfind, List.length_append, List.length_singleton, Nat.cast_add,
        Nat.cast_one, Int.add_assoc]
  update d source vulnId row id previous values hlen hrow hholds := by
    obtain ⟨i, old, -, rfl⟩ := find_place hrow
    have hi : i = id := by simpa [rowAt, Table.get?_cons] using hholds.id
    subst hi
    refine ⟨_, rowAt i (source, vulnId) values, ⟨write i values 1 d.rows⟩, rfl,
      rowAt_holds _ (source, vulnId) hlen, ?_⟩
    have hfind : find 1 (write i values 1 d.rows) =
        Function.update (find 1 d.rows) (source, vulnId)
          (some (rowAt i (source, vulnId) values)) := by
      funext other
      rw [find_write hrow, Function.update_apply]
    simp only [holding, hfind, length_write]

end Shelf

end AdvisoryLedger

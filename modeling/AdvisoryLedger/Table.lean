namespace AdvisoryLedger

abbrev Table (κ α : Type) := List (κ × α)

namespace Table

variable {κ α : Type} [DecidableEq κ]

def get? (t : Table κ α) (key : κ) : Option α := (t.find? fun row => row.1 = key).map (·.2)

def put (key : κ) (value : α) : Table κ α → Table κ α
  | [] => [(key, value)]
  | (k, v) :: rest => if k = key then (k, value) :: rest else (k, v) :: put key value rest

def erase (key : κ) (t : Table κ α) : Table κ α := t.filter fun row => row.1 ≠ key

def keys (t : Table κ α) : List κ := t.map (·.1)

def values (t : Table κ α) : List α := t.map (·.2)

def modify (key : κ) (f : α → α) (t : Table κ α) : Table κ α :=
  t.map fun row => if row.1 = key then (row.1, f row.2) else row

@[simp] theorem get?_nil (key : κ) : get? ([] : Table κ α) key = none := rfl

theorem get?_cons (row : κ × α) (t : Table κ α) (key : κ) :
    get? (row :: t) key = if row.1 = key then some row.2 else get? t key := by
  by_cases h : row.1 = key <;> simp [get?, h]

theorem get?_put (t : Table κ α) (key k : κ) (value : α) :
    (put key value t).get? k = if key = k then some value else t.get? k := by
  induction t with
  | nil => simp [put, get?_cons]
  | cons row rest ih =>
    by_cases h : row.1 = key <;> by_cases h' : row.1 = k <;> by_cases h'' : key = k <;>
      simp_all [put, get?_cons]

theorem get?_erase (t : Table κ α) (key k : κ) :
    (erase key t).get? k = if key = k then none else t.get? k := by
  induction t with
  | nil => simp [erase]
  | cons row rest ih =>
    have ih' : get? (List.filter (fun row => decide (row.1 ≠ key)) rest) k =
        if key = k then none else get? rest k := ih
    by_cases h : row.1 = key
    · by_cases h' : key = k <;> simp_all [erase, get?_cons]
    · by_cases h' : key = k
      · subst h'
        simp_all [erase, get?_cons]
      · by_cases h'' : row.1 = k <;> simp_all [erase, get?_cons]

end Table

end AdvisoryLedger

import AdvisoryLedger.Table
import Mathlib.Data.List.Nodup

namespace AdvisoryLedger.Table

variable {κ α : Type}

theorem mem_keys_of_mem {t : Table κ α} {k : κ} {v : α} (h : (k, v) ∈ t) : k ∈ t.keys :=
  List.mem_map_of_mem (f := Prod.fst) h

theorem nodup_keys_cons {row : κ × α} {rest : Table κ α} :
    (keys (row :: rest)).Nodup ↔ row.1 ∉ keys rest ∧ (keys rest).Nodup := List.nodup_cons

theorem mem_values_iff {t : Table κ α} {v : α} : v ∈ t.values ↔ ∃ k, (k, v) ∈ t := by
  simp [values]

theorem nodup_filter {t : Table κ α} (ht : t.keys.Nodup) (p : κ × α → Bool) :
    (keys (t.filter p)).Nodup :=
  (t.filter_sublist.map Prod.fst).nodup ht

theorem mem_keys_filter_iff {t : Table κ α} (ht : t.keys.Nodup) (p : κ × α → Bool) {row : κ × α}
    (hm : row ∈ t) : row.1 ∈ keys (t.filter p) ↔ p row = true := by
  constructor
  · intro h
    obtain ⟨other, ho, he⟩ := List.mem_map.mp h
    have hf := List.mem_filter.mp ho
    have hv : other = row := List.inj_on_of_nodup_map ht hf.1 hm he
    exact hv ▸ hf.2
  · intro h
    exact List.mem_map_of_mem (List.mem_filter.mpr ⟨hm, h⟩)

/-- Changes the rows of a kind, each in its place. -/
def mapWhere (p : κ × α → Bool) (f : α → α) (t : Table κ α) : Table κ α :=
  t.map fun row => if p row then (row.1, f row.2) else row

theorem keys_mapWhere (p : κ × α → Bool) (f : α → α) (t : Table κ α) :
    (t.mapWhere p f).keys = t.keys := by
  have h : ∀ row : κ × α, (if p row then (row.1, f row.2) else row).1 = row.1 := by
    intro row
    split <;> rfl
  simp [mapWhere, keys, h]

variable [DecidableEq κ]

theorem mem_of_get? {t : Table κ α} {k : κ} {v : α} (h : t.get? k = some v) : (k, v) ∈ t := by
  induction t with
  | nil => simp at h
  | cons row rest ih =>
    obtain ⟨k', v'⟩ := row
    rw [get?_cons] at h
    by_cases hk : k' = k
    · rw [if_pos hk] at h
      obtain rfl := Option.some.inj h
      simp [hk]
    · rw [if_neg hk] at h
      exact List.mem_cons_of_mem _ (ih h)

theorem get?_eq_none_iff {t : Table κ α} {k : κ} : t.get? k = none ↔ k ∉ t.keys := by
  induction t with
  | nil => simp [keys]
  | cons row rest ih =>
    rw [get?_cons]
    by_cases hk : row.1 = k
    · simp [hk, keys]
    · simpa [hk, keys, Ne.symm hk] using ih

theorem get?_of_mem {t : Table κ α} (ht : t.keys.Nodup) {k : κ} {v : α} (h : (k, v) ∈ t) :
    t.get? k = some v := by
  induction t with
  | nil => simp at h
  | cons row rest ih =>
    have hd := nodup_keys_cons.mp ht
    rw [get?_cons]
    rcases List.mem_cons.mp h with he | hm
    · rw [if_pos (congrArg Prod.fst he.symm)]
      exact congrArg some (congrArg Prod.snd he.symm)
    · have hk : row.1 ≠ k := fun he => hd.1 (he ▸ mem_keys_of_mem hm)
      rw [if_neg hk]
      exact ih hd.2 hm

theorem mem_iff_get? {t : Table κ α} (ht : t.keys.Nodup) {k : κ} {v : α} :
    (k, v) ∈ t ↔ t.get? k = some v :=
  ⟨get?_of_mem ht, mem_of_get?⟩

theorem mem_values_iff_get? {t : Table κ α} (ht : t.keys.Nodup) {v : α} :
    v ∈ t.values ↔ ∃ k, t.get? k = some v := by
  simp only [mem_values_iff, mem_iff_get? ht]

theorem put_of_notMem {t : Table κ α} {k : κ} (h : k ∉ t.keys) (v : α) :
    t.put k v = t ++ [(k, v)] := by
  induction t with
  | nil => rfl
  | cons row rest ih =>
    have hk : k ≠ row.1 ∧ k ∉ keys rest := by simpa [keys] using h
    simp [put, Ne.symm hk.1, ih hk.2]

theorem mem_keys_put {t : Table κ α} {k j : κ} {v : α} : j ∈ (t.put k v).keys ↔ j = k ∨
    j ∈ t.keys := by
  induction t with
  | nil => simp [put, keys]
  | cons row rest ih =>
    by_cases hk : row.1 = k
    · simp [put, hk, keys]
    · have ih' : j ∈ List.map Prod.fst (put k v rest) ↔ j = k ∨ j ∈ List.map Prod.fst rest := ih
      simp only [put, hk, if_false, keys, List.map_cons, List.mem_cons, ih']
      exact or_left_comm

theorem nodup_put {t : Table κ α} (ht : t.keys.Nodup) (k : κ) (v : α) : (t.put k v).keys.Nodup := by
  induction t with
  | nil => simp [put, keys]
  | cons row rest ih =>
    have hd := nodup_keys_cons.mp ht
    by_cases hk : row.1 = k
    · have he : (put k v (row :: rest)).keys = keys (row :: rest) := by simp [put, hk, keys]
      rwa [he]
    · have he : (put k v (row :: rest)).keys = row.1 ::
        (put k v rest).keys := by simp [put, hk, keys]
      rw [he, List.nodup_cons, mem_keys_put]
      exact ⟨fun h => h.elim hk hd.1, ih hd.2⟩

theorem nodup_erase {t : Table κ α} (ht : t.keys.Nodup) (k : κ) : (t.erase k).keys.Nodup :=
  nodup_filter ht _

theorem keys_modify (t : Table κ α) (k : κ) (f : α → α) : (t.modify k f).keys = t.keys := by
  have h : ∀ row : κ × α, (if row.1 = k then (row.1, f row.2) else row).1 = row.1 := by
    intro row
    split <;> rfl
  simp [keys, modify, h]

theorem get?_modify (t : Table κ α) (k j : κ) (f : α → α) :
    (t.modify k f).get? j = if k = j then (t.get? j).map f else t.get? j := by
  induction t with
  | nil => simp [modify]
  | cons row rest ih =>
    have ih' : get? (List.map (fun row => if row.1 = k then (row.1, f row.2) else row) rest) j =
        if k = j then (get? rest j).map f else get? rest j := ih
    by_cases hk : row.1 = k <;> by_cases hj : k = j <;> by_cases hr : row.1 = j <;>
      simp_all [modify, get?_cons]

theorem keys_put_of_mem {t : Table κ α} {k : κ} (h : k ∈ t.keys) (v : α) :
    (t.put k v).keys = t.keys := by
  induction t with
  | nil => simp [keys] at h
  | cons row rest ih =>
    by_cases hk : row.1 = k
    · simp [put, hk, keys]
    · have hrest : k ∈ keys rest := (List.mem_cons.mp h).resolve_left (Ne.symm hk)
      have ih' : List.map Prod.fst (put k v rest) = List.map Prod.fst rest := ih hrest
      simp [put, hk, keys, ih']

theorem perm_of_get?_eq {t u : Table κ α} (ht : t.keys.Nodup) (hu : u.keys.Nodup)
    (h : ∀ k, t.get? k = u.get? k) : t.Perm u := by
  refine (List.perm_ext_iff_of_nodup (List.Nodup.of_map _ ht) (List.Nodup.of_map _ hu)).mpr ?_
  rintro ⟨k, v⟩
  rw [mem_iff_get? ht, mem_iff_get? hu, h]

theorem get?_filter {t : Table κ α} (ht : t.keys.Nodup) (p : κ × α → Bool) (k : κ) :
    get? (t.filter p) k = (t.get? k).filter fun v => p (k, v) := by
  apply Option.ext
  intro v
  rw [← mem_iff_get? (nodup_filter ht p), List.mem_filter, mem_iff_get? ht,
    Option.filter_eq_some_iff]

theorem find?_values_put_of_notMem {t : Table κ α} {k : κ} (h : k ∉ t.keys) (v : α) (p : α → Bool) :
    (t.put k v).values.find? p = (t.values.find? p).or (if p v then some v else none) := by
  rw [put_of_notMem h, values, List.map_append, List.find?_append]
  cases hp : p v <;> simp [values, hp]

theorem find?_values_put {t : Table κ α} {k : κ} {old v : α} {p : α → Bool}
    (h : t.find? (fun row => p row.2) = some (k, old)) (hv : p v = true) :
    (t.put k v).values.find? p = some v := by
  induction t with
  | nil => cases h
  | cons row rest ih =>
    obtain ⟨j, w⟩ := row
    by_cases hj : j = k
    · simp [put, hj, values, hv]
    · cases hw : p w with
      | true =>
        rw [List.find?_cons_of_pos (by exact hw)] at h
        exact absurd (Prod.mk.inj (Option.some.inj h)).1 hj
      | false =>
        rw [List.find?_cons_of_neg (by simp [hw])] at h
        simp only [put, if_neg hj, values, List.map_cons]
        rw [List.find?_cons_of_neg (by simp [hw])]
        exact ih h

theorem find?_values_put_of_not {t : Table κ α} {k : κ} {old v : α} {p : α → Bool}
    (h : t.get? k = some old) (ho : p old = false) (hv : p v = false) :
    (t.put k v).values.find? p = t.values.find? p := by
  induction t with
  | nil => cases h
  | cons row rest ih =>
    obtain ⟨j, w⟩ := row
    rw [get?_cons] at h
    by_cases hj : j = k
    · rw [if_pos hj] at h
      obtain rfl := Option.some.inj h
      simp [put, hj, values, ho, hv]
    · rw [if_neg hj] at h
      have hrest : (values (put k v rest)).find? p = (values rest).find? p := ih h
      simp only [put, if_neg hj, values, List.map_cons, List.find?_cons] at hrest ⊢
      rw [hrest]

theorem foldl_erase (rows t : Table κ α) :
    rows.foldl (fun t row => t.erase row.1) t = t.filter fun row => decide (row.1 ∉ rows.keys) := by
  induction rows generalizing t with
  | nil => simp [keys]
  | cons r rest ih =>
    rw [List.foldl_cons, ih, erase, List.filter_filter]
    apply List.filter_congr
    intro row _
    by_cases h : row.1 = r.1
    · simp [keys, h]
    · have hk : row.1 ∈ keys (r :: rest) ↔ row.1 ∈ keys rest := by simp [keys, h]
      simp [h, hk]

/-- Erasing the rows of a kind one by one leaves the others in their order. -/
theorem foldl_erase_filter {t : Table κ α} (ht : t.keys.Nodup) (p : κ × α → Bool) :
    (t.filter p).foldl (fun t row => erase row.1 t) t = t.filter fun row => !p row := by
  rw [foldl_erase]
  apply List.filter_congr
  intro row hm
  simp only [mem_keys_filter_iff ht p hm, Bool.not_eq_true, Bool.decide_eq_false]

theorem foldl_modify {rows : Table κ α} (hr : rows.keys.Nodup) (t : Table κ α) (f : α → α) :
    rows.foldl (fun t row => t.modify row.1 f) t =
      t.map fun row => if row.1 ∈ rows.keys then (row.1, f row.2) else row := by
  induction rows generalizing t with
  | nil => simp [keys]
  | cons r rest ih =>
    have hd := nodup_keys_cons.mp hr
    rw [List.foldl_cons, ih hd.2, modify, List.map_map]
    apply List.map_congr_left
    intro row _
    by_cases h : row.1 = r.1
    · have hn : row.1 ∉ keys rest := h ▸ hd.1
      simp_all [keys]
    · have hk : row.1 ∈ keys (r :: rest) ↔ row.1 ∈ keys rest := by simp [keys, h]
      simp [h, hk]

/-- Changing the rows of a kind one by one changes each of them once. -/
theorem foldl_modify_filter {t : Table κ α} (ht : t.keys.Nodup) (p : κ × α → Bool) (f : α → α) :
    (t.filter p).foldl (fun t row => modify row.1 f t) t = t.mapWhere p f := by
  rw [foldl_modify (nodup_filter ht p), mapWhere]
  apply List.map_congr_left
  intro row hm
  rw [if_congr (mem_keys_filter_iff ht p hm) rfl rfl]

theorem get?_mapWhere (p : κ × α → Bool) (f : α → α) (t : Table κ α) (k : κ) :
    (t.mapWhere p f).get? k = (t.get? k).map fun v => if p (k, v) then f v else v := by
  induction t with
  | nil => simp [mapWhere]
  | cons row rest ih =>
    obtain ⟨k', v⟩ := row
    have ih' : get? (List.map (fun row => if p row then (row.1, f row.2) else row) rest) k =
        (get? rest k).map fun v => if p (k, v) then f v else v := ih
    rw [mapWhere, List.map_cons, get?_cons, get?_cons, ih']
    by_cases hk : k' = k
    · subst hk
      by_cases hp : p (k', v) <;> simp [hp]
    · by_cases hp : p (k', v) <;> simp [hp, hk]

theorem get?_foldr_put (rows t : Table κ α) (k : κ) :
    (rows.foldr (fun row t => put row.1 row.2 t) t).get? k = (rows.get? k).or (t.get? k) := by
  induction rows with
  | nil => simp
  | cons r rest ih =>
    rw [List.foldr_cons, get?_put, get?_cons, ih]
    by_cases h : r.1 = k <;> simp [h]

/-- Rows changed by what other rows of the same keys say, the last one first. -/
theorem get?_foldr_modify {rows : Table κ α} (hr : rows.keys.Nodup) (t : Table κ α)
    (f : α → α → α) (k : κ) : (rows.foldr (fun row t => modify row.1 (f row.2) t) t).get? k =
      match rows.get? k with
      | some old => (t.get? k).map (f old)
      | none => t.get? k := by
  induction rows with
  | nil => simp
  | cons r rest ih =>
    have hd := nodup_keys_cons.mp hr
    rw [List.foldr_cons, get?_modify, get?_cons, ih hd.2]
    by_cases h : r.1 = k
    · have hn : get? rest k = none := get?_eq_none_iff.mpr (h ▸ hd.1)
      simp [h, hn]
    · simp [h]

/-- Every row is filed under the id it carries, and these ids are below a bound. -/
def Filed (t : Table Int α) (idOf : α → Option Int) (bound : Int) : Prop :=
  ∀ id v, t.get? id = some v → idOf v = some id ∧ id < bound

namespace Filed

variable {t : Table Int α} {idOf : α → Option Int} {bound : Int}

theorem nil : Filed ([] : Table Int α) idOf bound := by
  intro id v h
  simp at h

theorem mono (h : t.Filed idOf bound) {bound' : Int} (hb : bound ≤ bound') :
    t.Filed idOf bound' := by
  intro id v hv
  have hi := h id v hv
  exact ⟨hi.1, by omega⟩

theorem of_get?_eq (h : t.Filed idOf bound) {t' : Table Int α} (ht : ∀ id, t'.get? id = t.get? id) :
    t'.Filed idOf bound := by
  intro id v hv
  exact h id v (ht id ▸ hv)

theorem put (h : t.Filed idOf bound) {id : Int} {v : α} (hv : idOf v = some id) (hb : id < bound) :
    (t.put id v).Filed idOf bound := by
  intro id' w hw
  rw [get?_put] at hw
  split at hw
  · next he =>
    obtain rfl := Option.some.inj hw
    exact he ▸ ⟨hv, hb⟩
  · exact h id' w hw

theorem add (h : t.Filed idOf bound) {v : α} (hv : idOf v = some bound) :
    (t.put bound v).Filed idOf (bound + 1) := (h.mono (by omega)).put hv (by omega)

theorem filter (h : t.Filed idOf bound) (ht : t.keys.Nodup) (p : Int × α → Bool) :
    Filed (t.filter p) idOf bound := by
  intro id v hv
  rw [get?_filter ht, Option.filter_eq_some_iff] at hv
  exact h id v hv.1

theorem mapWhere (h : t.Filed idOf bound) (p : Int × α → Bool) (f : α → α)
    (hf : ∀ v, idOf (f v) = idOf v) : (t.mapWhere p f).Filed idOf bound := by
  intro id v hv
  rw [get?_mapWhere, Option.map_eq_some_iff] at hv
  obtain ⟨w, hw, rfl⟩ := hv
  have hi : idOf (if p (id, w) then f w else w) = idOf w := by
    split
    · exact hf w
    · rfl
  exact hi ▸ h id w hw

theorem modify (h : t.Filed idOf bound) (k : Int) (f : α → α) (hf : ∀ v, idOf (f v) = idOf v) :
    (t.modify k f).Filed idOf bound := by
  have he : t.modify k f = t.mapWhere (fun row => decide (row.1 = k)) f := by
    simp only [Table.modify, Table.mapWhere, decide_eq_true_eq]
  exact he ▸ h.mapWhere _ f hf

theorem bound_notMem (h : t.Filed idOf bound) : bound ∉ t.keys := by
  rw [← get?_eq_none_iff, Option.eq_none_iff_forall_ne_some]
  intro v hv
  have := (h bound v hv).2
  omega

theorem get?_erase_add (h : t.Filed idOf bound) (v : α) (id : Int) :
    ((t.put bound v).erase bound).get? id = t.get? id := by
  rw [get?_erase, get?_put]
  split
  · next he => exact he ▸ (get?_eq_none_iff.mpr h.bound_notMem).symm
  · rfl

end Filed

end AdvisoryLedger.Table

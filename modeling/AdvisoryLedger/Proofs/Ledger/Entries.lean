import AdvisoryLedger.Proofs.Ledger.Transaction

namespace AdvisoryLedger.Ledger

variable {l : Ledger}

/-- The attributions of a range to an advisory by a source. -/
def entries (l : Ledger) (advisoryId rangeId : Int) (source : Source) : List Attribution :=
  l.attributions.values.filter fun a => a.triple = (advisoryId, rangeId, source)

theorem mem_entries {a : Attribution} {v i : Int} {s : Source} :
    a ∈ l.entries v i s ↔ a ∈ l.attributions.values ∧ a.triple = (v, i, s) := by
  simp [entries]

theorem isAttributed_iff {v i : Int} {s : Source} : l.isAttributed v i s = true ↔
    l.entries v i s ≠ [] := by
  simp [isAttributed, entries, List.filter_eq_nil_iff]

theorem isMatch_iff {a : Attribution} {w i : Int} {x : Source}
    (h : a.triple = (w, i, x)) (k v : Int)
    (ids : List Int) (s : Source) : isMatch v ids s (k, a) = true ↔ w = v ∧ i ∈ ids ∧ x = s := by
  simp only [Attribution.triple, Prod.mk.injEq] at h
  obtain ⟨rfl, rfl, rfl⟩ := h
  simp [isMatch, and_assoc]

/-- Ledgers that agree have the same entries, though maybe in another order. -/
theorem Agrees.entries_perm {m : Ledger} (h : l.Agrees m) (hl : l.DistinctKeys)
    (hm : m.DistinctKeys) (v i : Int) (s : Source) : (l.entries v i s).Perm (m.entries v i s) :=
  ((Table.perm_of_get?_eq hl.attributions hm.attributions h.attributions).map _).filter _

theorem nodup_triples_iff : (l.attributions.values.map Attribution.triple).Nodup ↔
    ∀ v i s, (l.entries v i s).length ≤ 1 := by
  rw [List.nodup_iff_count_le_one]
  have h (v i : Int) (s : Source) :
      (l.attributions.values.map Attribution.triple).count (v, i, s) =
        (l.entries v i s).length := by
    rw [List.count_eq_countP, List.countP_map, List.countP_eq_length_filter, entries]
    refine congrArg List.length (List.filter_congr ?_)
    intro a _
    exact beq_eq_decide _ _
  constructor
  · intro hn v i s
    rw [← h]
    exact hn (v, i, s)
  · rintro hn ⟨v, i, s⟩
    rw [h]
    exact hn v i s

/-- Whether a source other than this one attributes a range to an advisory. -/
def isShared (l : Ledger) (advisoryId rangeId : Int) (source : Source) : Bool :=
  l.attributions.values.any fun a => a.advisoryId = advisoryId && a.rangeId = rangeId &&
    a.source ≠ source

theorem isShared_iff {v i : Int} {s : Source} :
    l.isShared v i s = true ↔ ∃ x, x ≠ s ∧ l.entries v i x ≠ [] := by
  simp only [isShared, List.any_eq_true, Bool.and_eq_true, decide_eq_true_eq]
  constructor
  · rintro ⟨a, ha, ⟨rfl, rfl⟩, hs⟩
    exact ⟨a.source, hs, List.ne_nil_of_mem (mem_entries.mpr ⟨ha, rfl⟩)⟩
  · rintro ⟨x, hx, he⟩
    obtain ⟨a, ha⟩ := List.exists_mem_of_ne_nil _ he
    obtain ⟨ham, ht⟩ := mem_entries.mp ha
    simp only [Attribution.triple, Prod.mk.injEq] at ht
    exact ⟨a, ham, ⟨ht.1, ht.2.1⟩, ht.2.2.symm ▸ hx⟩

theorem getD_groupByRange (as : List Attribution) (i : Int) :
    ((groupByRange as).get? i).getD [] = as.filter fun a => a.rangeId = i := by
  have h (t : Table Int (List Attribution)) :
      ((as.foldl (fun t a =>
        t.put a.rangeId ((t.get? a.rangeId).getD [] ++ [a])) t).get? i).getD [] =
        (t.get? i).getD [] ++ as.filter fun a => a.rangeId = i := by
    induction as generalizing t with
    | nil => simp
    | cons a rest ih =>
      rw [List.foldl_cons, ih, Table.get?_put]
      by_cases ha : a.rangeId = i
      · simp [ha]
      · simp [ha]
  exact h []

theorem entries_touched (l : Ledger) (v : Int) (ids : List Int) (s : Source)
    (t : Moment) (w i : Int) (x : Source) :
    ({ l with attributions := l.touched v ids s t } : Ledger).entries w i x =
      if w = v ∧ i ∈ ids ∧ x = s then (l.entries w i x).map fun a => { a with lastSeen := t }
      else l.entries w i x := by
  have hv : (l.touched v ids s t).values = l.attributions.values.map fun a =>
      if isMatch v ids s (0, a) then { a with lastSeen := t } else a := by
    simp only [touched, Table.mapWhere, Table.values, List.map_map]
    apply List.map_congr_left
    intro row _
    have hk : isMatch v ids s (0, row.2) = isMatch v ids s row := rfl
    by_cases h : isMatch v ids s row = true <;> simp [hk, h]
  have ht (a : Attribution) :
      (if isMatch v ids s (0, a) then { a with lastSeen := t } else a).triple = a.triple := by
    split <;> rfl
  simp only [entries, hv, List.filter_map, Function.comp_def, ht]
  by_cases h : w = v ∧ i ∈ ids ∧ x = s
  · rw [if_pos h]
    apply List.map_congr_left
    intro a ha
    have ha' : a.triple = (w, i, x) := by simpa using (List.mem_filter.mp ha).2
    rw [if_pos ((isMatch_iff ha' 0 v ids s).mpr h)]
  · rw [if_neg h]
    refine (List.map_congr_left ?_).trans (List.map_id _)
    intro a ha
    have ha' : a.triple = (w, i, x) := by simpa using (List.mem_filter.mp ha).2
    rw [if_neg fun hm => h ((isMatch_iff ha' 0 v ids s).mp hm), id]

theorem entries_remaining (l : Ledger) (v : Int) (ids : List Int) (s : Source) (w i : Int)
    (x : Source) : ({ l with attributions := l.remaining v ids s } : Ledger).entries w i x =
      if w = v ∧ i ∈ ids ∧ x = s then [] else l.entries w i x := by
  have hv : (l.remaining v ids s).values = l.attributions.values.filter fun a =>
      !isMatch v ids s (0, a) := by
    simp only [remaining, Table.values, List.filter_map]
    rfl
  simp only [entries, hv, List.filter_filter]
  by_cases h : w = v ∧ i ∈ ids ∧ x = s
  · rw [if_pos h, List.filter_eq_nil_iff]
    intro a _ ha
    simp only [Bool.and_eq_true, decide_eq_true_eq, Bool.not_eq_true'] at ha
    have hm := (isMatch_iff ha.1 0 v ids s).mpr h
    rw [ha.2] at hm
    cases hm
  · rw [if_neg h]
    apply List.filter_congr
    intro a _
    by_cases ha : a.triple = (w, i, x)
    · have hm : isMatch v ids s (0, a) = false := by
        rw [← Bool.not_eq_true]
        exact fun hm => h ((isMatch_iff ha 0 v ids s).mp hm)
      simp [ha, hm]
    · simp [ha]

theorem WellKept.values_insertAttribution (hl : l.WellKept) (a : Attribution) :
    (l.attributions.put l.nextId a).values = l.attributions.values ++ [a] := by
  rw [Table.put_of_notMem hl.attributions.bound_notMem]
  simp [Table.values]

theorem WellKept.entries_insertAttribution (hl : l.WellKept) (a : Attribution) (w i : Int)
    (x : Source) :
    ({ l with attributions := l.attributions.put l.nextId a, nextId := l.nextId + 1 } : Ledger).entries w i x =
      if a.triple = (w, i, x) then l.entries w i x ++ [a] else l.entries w i x := by
  simp only [entries, hl.values_insertAttribution, List.filter_append]
  by_cases h : a.triple = (w, i, x) <;> simp [h]

end AdvisoryLedger.Ledger

import AdvisoryLedger.Proofs.Reconcile.Isolation
import Mathlib.Data.List.Sort

namespace AdvisoryLedger

open Ledger

namespace RangeSync

/-- The result tells what is associated with an advisory in the second ledger, and how that differs
from what is in the first one. -/
structure Tells (sync : RangeSync) (v : Int) (l m : Ledger) : Prop where
  stored : ∀ r ∈ sync.kept ++ sync.added ++ sync.removed, ∃ i, r.id = some i ∧
    m.ranges.get? i = some r
  kept : ∀ i, i ∈ rowIds sync.kept ↔ i ∈ m.associated v
  added : ∀ i, i ∈ rowIds sync.added ↔ i ∈ m.associated v ∧ i ∉ l.associated v
  removed : ∀ i, i ∈ rowIds sync.removed ↔ i ∈ l.associated v ∧ i ∉ m.associated v
  keptOnce : (rowIds sync.kept).Nodup
  addedOnce : (rowIds sync.added).Nodup
  removedOnce : (rowIds sync.removed).Nodup
  isChanged : sync.isChanged = true ↔ m.associated v ≠ l.associated v

theorem length_rowIds {ranges : List AffectedRange} (h : ∀ r ∈ ranges, ∃ i, r.id = some i) :
    (rowIds ranges).length = ranges.length := by
  induction ranges with
  | nil => rfl
  | cons r rest ih =>
    obtain ⟨⟨i, hi⟩, hrest⟩ := List.forall_mem_cons.mp h
    rw [rowIds, List.filterMap_cons, hi, List.length_cons, List.length_cons]
    exact congrArg (· + 1) (ih hrest)

theorem eq_nil_iff_notMem_rowIds {ranges : List AffectedRange}
    (h : ∀ r ∈ ranges, ∃ i, r.id = some i) :
    ranges = [] ↔ ∀ i, i ∉ rowIds ranges := by
  rw [← List.length_eq_zero_iff, ← length_rowIds h, List.length_eq_zero_iff,
    List.eq_nil_iff_forall_not_mem]

section Tells

variable {sync : RangeSync} {v i : Int} {l m : Ledger}

theorem isChanged_eq_false : sync.isChanged = false ↔ sync.added = [] ∧ sync.removed = [] := by
  simp [RangeSync.isChanged]

theorem Tells.length_added (h : sync.Tells v l m) :
    (rowIds sync.added).length = sync.added.length :=
  length_rowIds fun r hr => (h.stored r (by simp [hr])).imp fun _ hi => hi.1

theorem Tells.length_removed (h : sync.Tells v l m) :
    (rowIds sync.removed).length = sync.removed.length :=
  length_rowIds fun r hr => (h.stored r (by simp [hr])).imp fun _ hi => hi.1

/-- Sets of rows ascend, so that sets with the same rows are the same lists. -/
theorem associated_eq_iff (hl : l.WellKept) (hm : m.WellKept) :
    m.associated v = l.associated v ↔ ∀ i, i ∈ m.associated v ↔ i ∈ l.associated v := by
  constructor
  · intro h i
    rw [h]
  · intro h
    exact (hm.ascending v).eq_of_mem_iff (hl.ascending v) h

/-- A result that tells what has come and what has gone says whether anything has. -/
theorem isChanged_iff (hl : l.WellKept) (hm : m.WellKept)
    (hids : ∀ r ∈ sync.added ++ sync.removed, ∃ i, r.id = some i)
    (hadded : ∀ i, i ∈ rowIds sync.added ↔ i ∈ m.associated v ∧ i ∉ l.associated v)
    (hremoved : ∀ i, i ∈ rowIds sync.removed ↔ i ∈ l.associated v ∧ i ∉ m.associated v) :
    sync.isChanged = true ↔ m.associated v ≠ l.associated v := by
  obtain ⟨ha, hr⟩ := List.forall_mem_append.mp hids
  rw [ne_eq, associated_eq_iff hl hm, ← Bool.not_eq_false, isChanged_eq_false,
    eq_nil_iff_notMem_rowIds ha, eq_nil_iff_notMem_rowIds hr, not_iff_not]
  simp only [hadded, hremoved, not_and, not_not]
  exact ⟨fun ⟨ha, hr⟩ i => ⟨ha i, hr i⟩, fun hi => ⟨fun i => (hi i).mp, fun i => (hi i).mpr⟩⟩

variable {s : Source} {t : Moment} {reported pending rows new : List AffectedRange}

theorem removed_sublist : (rowIds (plan l v s pending rows).removed).Sublist (rowIds rows) :=
  rowIds_chosen_sublist fun d => !d.isKept

theorem kept_sublist : (rowIds (plan l v s pending rows).kept).Sublist (rowIds rows) :=
  rowIds_chosen_sublist Verdict.isKept

theorem Prepared.mem_removed (h : Prepared l v reported pending rows) :
    i ∈ rowIds (plan l v s pending rows).removed ↔
      i ∈ l.associated v ∧ i ∉ rowIds (plan l v s pending rows).kept := by
  by_cases hi : i ∈ l.associated v
  · obtain ⟨d, -, -, -, -, -, hp⟩ := h.decision s hi
    simp only [plan, planOf, hp, hi, true_and, Bool.not_eq_true', Bool.not_eq_true]
  · exact ⟨fun hm => absurd (h.rowIds_eq ▸ removed_sublist.subset hm) hi, fun hm => absurd hm.1 hi⟩

theorem Prepared.stored_of_mem_chosen (h : Prepared l v reported pending rows)
    {p : Verdict → Bool} :
    ∀ r ∈ chosen (decisions l v s pending rows) p, ∃ i, r.id = some i ∧
      l.ranges.get? i = some r := by
  intro r hr
  obtain ⟨d, hd, -⟩ := mem_chosen.mp hr
  obtain ⟨i, -, hi, hget, -⟩ := h.decided hd
  exact ⟨i, hi, hget⟩

theorem mem_associated_of_enacted (he : Enacted v s t (plan l v s pending rows) new l m) :
    i ∈ m.associated v ↔ i ∈ rowIds (plan l v s pending rows).kept ∨ i ∈ rowIds new := by
  obtain ⟨m₁, m₂, m₃, -, -, -, rfl⟩ := he
  rw [associated_put, if_pos rfl, RowSet.mem_ofList, rowIds_append, List.mem_append]

/-- Whatever the result speaks of has a row in the end, also what is dropped. -/
theorem stored_of_enacted (h : Prepared l v reported pending rows)
    (he : Enacted v s t (plan l v s pending rows) new l m) :
    ∀ r ∈ ((plan l v s pending rows).kept ++ new) ++ new ++ (plan l v s pending rows).removed,
      ∃ i, r.id = some i ∧ m.ranges.get? i = some r := by
  obtain ⟨m₁, m₂, m₃, hc, hr, ha, rfl⟩ := he
  have hranges : m₂.ranges = l.ranges := hr.ranges.trans hc.ranges
  have hchosen (p : Verdict → Bool) :
      ∀ r ∈ chosen (decisions l v s pending rows) p, ∃ i, r.id = some i ∧
        m₃.ranges.get? i = some r := by
    intro r hr
    obtain ⟨i, hi, hget⟩ := h.stored_of_mem_chosen r hr
    exact ⟨i, hi, ha.kept i r (hranges ▸ hget)⟩
  have hattached : ∀ r ∈ new, ∃ i, r.id = some i ∧ m₃.ranges.get? i = some r := by
    intro r hr
    obtain ⟨x, -, i, hi, hget, -⟩ := ha.origin r hr
    exact ⟨i, hi, hget⟩
  simp only [List.forall_mem_append]
  exact ⟨⟨⟨hchosen _, hattached⟩, hattached⟩, hchosen fun d => !d.isKept⟩

/-- What is kept, what is attached and what is dropped are the difference that the writing half
makes. -/
theorem tells_of_enacted (h : Prepared l v reported pending rows)
    (he : Enacted v s t (plan l v s pending rows) new l m) :
    Tells ⟨(plan l v s pending rows).kept ++ new, new,
      (plan l v s pending rows).removed⟩ v l m := by
  have hm := (reconciled_of_enacted h he).wellKept
  have hassociated (i : Int) : i ∈ m.associated v ↔ i ∈ rowIds (plan l v s pending rows).kept ∨
      i ∈ rowIds new :=
    mem_associated_of_enacted he
  have hstored := stored_of_enacted h he
  obtain ⟨m₁, m₂, m₃, hc, hr, ha, -⟩ := he
  have hranges : m₂.ranges = l.ranges := hr.ranges.trans hc.ranges
  -- What is attached was not associated before, and what the plan keeps was.
  have hnew {i : Int} (hi : i ∈ rowIds new) : i ∉ l.associated v :=
    notMem_associated_of_attaches h hranges ha hi
  have hold {i : Int} (hi : i ∈ rowIds (plan l v s pending rows).kept) : i ∈ l.associated v :=
    h.rowIds_eq ▸ kept_sublist.subset hi
  have hadded (i : Int) : i ∈ rowIds new ↔ i ∈ m.associated v ∧ i ∉ l.associated v := by
    rw [hassociated]
    exact ⟨fun hi => ⟨.inr hi, hnew hi⟩, fun hi => hi.1.resolve_left fun hk => hi.2 (hold hk)⟩
  have hremoved (i : Int) : i ∈ rowIds (plan l v s pending rows).removed ↔
      i ∈ l.associated v ∧ i ∉ m.associated v := by
    rw [hassociated, h.mem_removed, not_or]
    exact ⟨fun hi => ⟨hi.1, hi.2, fun hn => hnew hn hi.1⟩, fun hi => ⟨hi.1, hi.2.1⟩⟩
  have hids : ∀ r ∈ new ++ (plan l v s pending rows).removed, ∃ i, r.id = some i := by
    intro r hr
    obtain ⟨i, hi, -⟩ := hstored r (by simp only [List.mem_append] at hr ⊢; tauto)
    exact ⟨i, hi⟩
  exact {
    stored := hstored
    kept i := by rw [hassociated, rowIds_append, List.mem_append]
    added := hadded
    removed := hremoved
    keptOnce := by
      rw [rowIds_append]
      exact (h.nodup.sublist kept_sublist).append ha.nodup fun i hk hn => hnew hn (hold hk)
    addedOnce := ha.nodup
    removedOnce := h.nodup.sublist removed_sublist
    isChanged := isChanged_iff h.wellKept hm hids hadded hremoved }

/-- The result of a reconciliation that ends well is the difference that it makes. -/
theorem tells_of_gives (hl : l.WellKept) {vulnId : String}
    (h : Gives (program vulnId v reported s t) l sync m) :
    sync.Tells v l m := by
  obtain ⟨pending, rows, hprep, hgives⟩ := enact_of_gives hl h
  obtain ⟨new, sync', m', hgives', hkept, hadded, hremoved, he⟩ := enact_gives hprep vulnId s t
  obtain ⟨rfl, rfl⟩ := hgives.unique hgives'
  obtain ⟨kept, added, removed⟩ := sync
  obtain rfl : kept = _ := hkept
  obtain rfl : added = _ := hadded
  obtain rfl : removed = _ := hremoved
  exact tells_of_enacted hprep he

end Tells

end RangeSync

variable {a : Advisory} {reported : List AffectedRange} {s : Source} {t : Moment} {f : FaultyLedger}
  {sync : RangeSync}

/-- Whatever faults strike: what a reconciliation returns is the difference that it has made. -/
theorem Advisory.tells_of_reconcileRanges (hl : f.ledger.WellKept)
    (h : (a.reconcileRanges reported s t f).result = .ok sync) :
    ∃ v, a.id = some v ∧ sync.Tells v f.ledger (a.reconcileRanges reported s t f).state.ledger := by
  cases hid : a.id with
  | none =>
    rw [reconcileRanges_of_none hid] at h
    cases h
  | some v =>
    obtain ⟨hresult, hstate⟩ := reconcileRanges_of_some hid reported s t f
    have hstrict := (RangeSync.program_confined (v := v) (s := s) (t := t) a.vulnId reported).strict
    rw [hstate]
    exact ⟨v, rfl, RangeSync.tells_of_gives hl
      (FaultyLedger.gives_of_transact hstrict (hresult.symm.trans h))⟩

end AdvisoryLedger

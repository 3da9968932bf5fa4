import AdvisoryLedger.Proofs.Ledger.Entries
import AdvisoryLedger.Proofs.Reconcile.Classification

namespace AdvisoryLedger.RangeSync

open Ledger

section Decisions

/-- The verdicts on the associated ranges of an advisory. -/
def decisions (l : Ledger) (v : Int) (s : Source) (pending rows : List AffectedRange) :
    List (AffectedRange × Verdict) :=
  verdicts s (groupByRange ((l.attributionsOf v).filter fun a =>
    (rowIds rows).contains a.rangeId)) pending rows

variable {l : Ledger} {v i : Int} {s : Source} {pending rows : List AffectedRange}
  {d : AffectedRange × Verdict}

theorem mem_rowIds {ranges : List AffectedRange} : i ∈ rowIds ranges ↔
    ∃ r ∈ ranges, r.id = some i :=
  List.mem_filterMap

/-- The verdict by whether the source and whether another one attributes the range. -/
theorem verdict_eq (as : List Attribution) (b : Bool) : verdict s as b =
    if b then .reported (as.any fun a => a.source = s)
    else if as.any fun a => a.source ≠ s then .keptByOthers (as.any fun a => a.source = s)
    else if as.isEmpty then .unattributed else .dropped := by
  unfold verdict
  cases as with
  | nil => rfl
  | cons a rest => rfl

theorem isKept_verdict (as : List Attribution) (b : Bool) :
    (verdict s as b).isKept = (b || as.any fun a => a.source ≠ s) := by
  rw [verdict_eq]
  cases b <;> cases as.any fun a => a.source ≠ s <;> cases as.isEmpty <;> rfl

theorem verdict_eq_reported (as : List Attribution) (b c : Bool) :
    verdict s as b = .reported c ↔ b = true ∧ (as.any fun a => a.source = s) = c := by
  rw [verdict_eq]
  cases b <;> cases as.any fun a => a.source ≠ s <;> cases as.isEmpty <;> simp

theorem verdict_eq_keptByOthers (as : List Attribution) (b c : Bool) :
    verdict s as b = .keptByOthers c ↔
    b = false ∧ (as.any fun a => a.source ≠ s) = true ∧ (as.any fun a => a.source = s) = c := by
  rw [verdict_eq]
  cases b <;> cases as.any fun a => a.source ≠ s <;> cases as.isEmpty <;> simp

/-- What an advisory's attributions say of the verdict on a row. -/
structure Decided (l : Ledger) (v i : Int) (s : Source) (d : Verdict) : Prop where
  isKept : d.isKept = (d.isReported || l.isShared v i s)
  reported (c : Bool) : d = .reported c ↔ d.isReported = true ∧ l.isAttributed v i s = c
  keptByOthers (c : Bool) :
    d = .keptByOthers c ↔ d.isReported = false ∧ l.isShared v i s = true ∧ l.isAttributed v i s = c

theorem decided_of_mem (hd : d ∈ decisions l v s pending rows) (hr : d.1 ∈ rows)
    (hi : d.1.id = some i) :
    Decided l v i s d.2 := by
  have hmem : i ∈ rowIds rows := mem_rowIds.mpr ⟨d.1, hr, hi⟩
  have ha : attributionsOf (groupByRange
    ((l.attributionsOf v).filter fun a => (rowIds rows).contains a.rangeId))
      d.1 = l.attributions.values.filter fun a => a.advisoryId = v ∧ a.rangeId = i := by
    simp only [attributionsOf, hi, getD_groupByRange, Ledger.attributionsOf, List.filter_filter]
    apply List.filter_congr
    intro a _
    by_cases h : a.rangeId = i
    · simp [h, hmem, and_comm]
    · simp [h]
  have hb : ((attributionsOf (groupByRange ((l.attributionsOf v).filter fun a =>
      (rowIds rows).contains a.rangeId)) d.1).any fun a => a.source = s) =
        l.isAttributed v i s := by
    rw [ha, List.any_filter]
    simp [isAttributed, Attribution.triple, Bool.and_assoc]
  have ho : ((attributionsOf (groupByRange ((l.attributionsOf v).filter fun a =>
      (rowIds rows).contains a.rangeId)) d.1).any fun a => a.source ≠ s) = l.isShared v i s := by
    rw [ha, List.any_filter]
    simp [isShared]
  have he := eq_verdict_of_mem hd
  refine ⟨?_, ?_, ?_⟩
  · rw [← ho, ← isKept_verdict, ← he]
  · intro c
    rw [← hb, ← verdict_eq_reported, ← he]
  · intro c
    rw [← hb, ← ho, ← verdict_eq_keptByOthers, ← he]

theorem mem_rowIds_chosen {ds : List (AffectedRange × Verdict)} {p : Verdict → Bool} :
    i ∈ rowIds (chosen ds p) ↔ ∃ d ∈ ds, d.1.id = some i ∧ p d.2 = true := by
  simp only [mem_rowIds, mem_chosen]
  constructor
  · rintro ⟨r, ⟨v, hv, hp⟩, hi⟩
    exact ⟨(r, v), hv, hi, hp⟩
  · rintro ⟨d, hd, hi, hp⟩
    exact ⟨d.1, ⟨d.2, hd, hp⟩, hi⟩

theorem rowIds_chosen_sublist (p : Verdict → Bool) :
    (rowIds (chosen (decisions l v s pending rows) p)).Sublist (rowIds rows) := by
  have h : (chosen (decisions l v s pending rows) p).Sublist
      ((decisions l v s pending rows).map (·.1)) :=
    List.filter_sublist.map _
  rw [decisions, map_fst_verdicts] at h
  exact h.filterMap _

end Decisions

section Rows

variable {l : Ledger}

theorem rangeRows_ok (hl : l.WellKept) {ids : List Int} {rows : List AffectedRange}
    (h : l.rangeRows ids = .ok rows) :
    rowIds rows = ids ∧ ∀ r ∈ rows, ∃ i, r.id = some i ∧ l.ranges.get? i = some r := by
  induction ids generalizing rows with
  | nil =>
    obtain rfl := Except.ok.inj h
    exact ⟨rfl, by simp⟩
  | cons i rest ih =>
    simp only [rangeRows] at h
    cases hr : l.ranges.get? i with
    | none => simp [hr] at h
    | some r =>
      cases hrest : l.rangeRows rest with
      | error e => simp [hr, hrest, bind, Except.bind] at h
      | ok rs =>
        simp only [hr, hrest, bind, Except.bind] at h
        obtain rfl := Except.ok.inj h
        obtain ⟨hids, hstored⟩ := ih hrest
        have hid := (hl.ranges i r hr).1
        exact ⟨by rw [← hids]; simp [rowIds, hid], List.forall_mem_cons.mpr ⟨⟨i, hid, hr⟩, hstored⟩⟩

theorem rangeRows_of_forall {ids : List Int} (h : ∀ i ∈ ids, ∃ r, l.ranges.get? i = some r) :
    ∃ rows, l.rangeRows ids = .ok rows := by
  induction ids with
  | nil => exact ⟨[], rfl⟩
  | cons i rest ih =>
    obtain ⟨⟨r, hr⟩, hrest⟩ := List.forall_mem_cons.mp h
    obtain ⟨rows, hrows⟩ := ih hrest
    exact ⟨r :: rows, by simp [rangeRows, hr, hrows, bind, Except.bind]⟩

end Rows

/-- What a reconciliation rests on: the rows of the associated ranges, and the reported ranges
collapsed. -/
structure Prepared (l : Ledger) (v : Int) (reported pending rows : List AffectedRange) : Prop where
  wellKept : l.WellKept
  rows : l.rangesOf v = .ok rows
  collapsed : Collapsed [] reported pending

def plan (l : Ledger) (v : Int) (s : Source) (pending rows : List AffectedRange) : Plan :=
  planOf (decisions l v s pending rows) (leftOver pending rows)

/-- The rows that the source no longer attributes. -/
def Plan.stale (p : Plan) : List Int := p.detach ++ rowIds p.removed

def taken (l : Ledger) (v : Int) (s : Source) (pending rows : List AffectedRange) : List Int :=
  rowIds (chosen (decisions l v s pending rows) Verdict.isReported)

namespace Prepared

variable {l : Ledger} {v i : Int} {s : Source} {reported pending rows : List AffectedRange}

theorem mem_reported (h : Prepared l v reported pending rows) {x : AffectedRange}
    (hx : x ∈ pending) : x ∈ reported :=
  (h.collapsed.origin x hx).resolve_left List.not_mem_nil

theorem exists_pending (h : Prepared l v reported pending rows) {x : AffectedRange}
    (hx : x ∈ reported) :
    ∃ y ∈ pending, y.identity? = x.identity? := by
  rcases h.collapsed.covers x hx with hx | ⟨y, hy, hs⟩
  · exact ⟨x, hx, rfl⟩
  · exact ⟨y, hy, (AffectedRange.identity?_eq_of_same (h.collapsed.apart.hashable y hy) hs).symm⟩

theorem rowIds_eq (h : Prepared l v reported pending rows) : rowIds rows = l.associated v :=
  (rangeRows_ok h.wellKept h.rows).1

theorem nodup (h : Prepared l v reported pending rows) : (rowIds rows).Nodup := by
  rw [h.rowIds_eq]
  exact (h.wellKept.ascending v).imp fun hlt => Int.ne_of_lt hlt

theorem mem_rows {d : AffectedRange × Verdict} (hd : d ∈ decisions l v s pending rows) :
    d.1 ∈ rows := by
  have hm := List.mem_map_of_mem (f := (·.1)) hd
  rwa [decisions, map_fst_verdicts] at hm

theorem decided (h : Prepared l v reported pending rows) {d : AffectedRange × Verdict}
    (hd : d ∈ decisions l v s pending rows) : ∃ i, i ∈ l.associated v ∧ d.1.id = some i ∧
      l.ranges.get? i = some d.1 ∧ Decided l v i s d.2 := by
  have hr := mem_rows hd
  obtain ⟨i, hi, hl⟩ := (rangeRows_ok h.wellKept h.rows).2 d.1 hr
  exact ⟨i, h.rowIds_eq ▸ mem_rowIds.mpr ⟨d.1, hr, hi⟩, hi, hl, decided_of_mem hd hr hi⟩

theorem exists_decision (h : Prepared l v reported pending rows) (s : Source)
    (hi : i ∈ l.associated v) :
    ∃ d ∈ decisions l v s pending rows, d.1.id = some i := by
  rw [← h.rowIds_eq] at hi
  obtain ⟨r, hr, hri⟩ := mem_rowIds.mp hi
  have hm : r ∈ (decisions l v s pending rows).map (·.1) := by rwa [decisions, map_fst_verdicts]
  obtain ⟨d, hd, rfl⟩ := List.mem_map.mp hm
  exact ⟨d, hd, hri⟩

theorem nodup_rows (h : Prepared l v reported pending rows) : rows.Nodup := by
  have hn := h.nodup
  rw [rowIds, List.Nodup, List.pairwise_filterMap] at hn
  refine hn.imp_of_mem ?_
  intro r q hr _ hs he
  obtain ⟨i, hi, -⟩ := (rangeRows_ok h.wellKept h.rows).2 r hr
  exact hs i hi i (he ▸ hi) rfl

theorem decision_unique (h : Prepared l v reported pending rows) {c d : AffectedRange × Verdict}
    (hc : c ∈ decisions l v s pending rows) (hd : d ∈ decisions l v s pending rows)
    (hci : c.1.id = some i) (hdi : d.1.id = some i) : c = d := by
  have hn : ((decisions l v s pending rows).map (·.1)).Nodup := by
    rw [decisions, map_fst_verdicts]
    exact h.nodup_rows
  obtain ⟨j, -, hj, hcl, -⟩ := h.decided hc
  obtain ⟨k, -, hk, hdl, -⟩ := h.decided hd
  obtain rfl : j = i := Option.some.inj (hj.symm.trans hci)
  obtain rfl : k = j := Option.some.inj (hk.symm.trans hdi)
  exact List.inj_on_of_nodup_map hn hc hd (Option.some.inj (hcl.symm.trans hdl))

theorem mem_associated_of_mem_chosen (h : Prepared l v reported pending rows) {p : Verdict → Bool}
    (hi : i ∈ rowIds (chosen (decisions l v s pending rows) p)) : i ∈ l.associated v :=
  h.rowIds_eq ▸ (rowIds_chosen_sublist p).subset hi

theorem decision (h : Prepared l v reported pending rows) (s : Source) (hi : i ∈ l.associated v) :
    ∃ d ∈ decisions l v s pending rows, d.1.id = some i ∧ l.ranges.get? i = some d.1 ∧
      Decided l v i s d.2 ∧
      (d.2.isReported = true ↔ i ∈ taken l v s pending rows) ∧
      ∀ p, i ∈ rowIds (chosen (decisions l v s pending rows) p) ↔ p d.2 = true := by
  obtain ⟨d, hd, hdi⟩ := h.exists_decision s hi
  obtain ⟨j, -, hdj, hl, hdec⟩ := h.decided hd
  obtain rfl : j = i := Option.some.inj (hdj.symm.trans hdi)
  have hp (p : Verdict → Bool) : j ∈ rowIds (chosen (decisions l v s pending rows) p) ↔
      p d.2 = true := by
    rw [mem_rowIds_chosen]
    constructor
    · rintro ⟨c, hc, hcj, hp⟩
      rwa [h.decision_unique hd hc hdi hcj]
    · intro hp
      exact ⟨d, hd, hdi, hp⟩
  exact ⟨d, hd, hdi, hl, hdec, (hp _).symm, hp⟩

theorem mem_refresh (h : Prepared l v reported pending rows) :
    i ∈ (plan l v s pending rows).refresh ↔ i ∈ taken l v s pending rows ∧
      l.isAttributed v i s = true := by
  by_cases hi : i ∈ l.associated v
  · obtain ⟨d, -, -, -, hdec, ht, hp⟩ := h.decision s hi
    simp only [plan, planOf, hp, ← ht, decide_eq_true_eq, hdec.reported]
  · exact ⟨fun hm => absurd (h.mem_associated_of_mem_chosen hm) hi,
      fun hm => absurd (h.mem_associated_of_mem_chosen hm.1) hi⟩

theorem mem_attach (h : Prepared l v reported pending rows) :
    i ∈ (plan l v s pending rows).attach ↔ i ∈ taken l v s pending rows ∧
      l.isAttributed v i s = false := by
  by_cases hi : i ∈ l.associated v
  · obtain ⟨d, -, -, -, hdec, ht, hp⟩ := h.decision s hi
    simp only [plan, planOf, hp, ← ht, decide_eq_true_eq, hdec.reported]
  · exact ⟨fun hm => absurd (h.mem_associated_of_mem_chosen hm) hi,
      fun hm => absurd (h.mem_associated_of_mem_chosen hm.1) hi⟩

theorem mem_kept (h : Prepared l v reported pending rows) :
    i ∈ rowIds (plan l v s pending rows).kept ↔
    i ∈ taken l v s pending rows ∨ (i ∈ l.associated v ∧ l.isShared v i s = true) := by
  by_cases hi : i ∈ l.associated v
  · obtain ⟨d, -, -, -, hdec, ht, hp⟩ := h.decision s hi
    simp only [plan, planOf, hp, ← ht, hdec.isKept, Bool.or_eq_true, hi, true_and]
  · have hn : i ∉ taken l v s pending rows := fun hm => hi (h.mem_associated_of_mem_chosen hm)
    exact ⟨fun hm => absurd (h.mem_associated_of_mem_chosen hm) hi,
      fun hm => by simp [hi, hn] at hm⟩

/-- The rows whose entries go: those that are not reported, unless the source does not attribute
them. -/
theorem mem_stale (h : Prepared l v reported pending rows) :
    i ∈ (plan l v s pending rows).stale ↔
      i ∈ l.associated v ∧ i ∉ taken l v s pending rows ∧
        (l.isShared v i s = true → l.isAttributed v i s = true) := by
  by_cases hi : i ∈ l.associated v
  · obtain ⟨d, -, -, -, hdec, ht, hp⟩ := h.decision s hi
    simp only [Plan.stale, plan, planOf, List.mem_append, hp, ← ht, decide_eq_true_eq,
      hdec.keptByOthers, hdec.isKept, hi, true_and]
    cases d.2.isReported <;> cases l.isShared v i s <;> cases l.isAttributed v i s <;> simp
  · simp only [Plan.stale, plan, planOf, hi, false_and, iff_false, List.mem_append]
    rintro (hm | hm)
    · exact hi (h.mem_associated_of_mem_chosen hm)
    · exact hi (h.mem_associated_of_mem_chosen hm)

end Prepared

end AdvisoryLedger.RangeSync

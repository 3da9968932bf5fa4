import AdvisoryLedger.Proofs.Reconcile.Ranges

namespace AdvisoryLedger

open Ledger

/-- The report of a source on an advisory is what the ledger says: whatever is associated is
attributed, and the source attributes one associated row for each range that it reported, as of the
report, and no others. -/
structure Ledger.InOrder (m : Ledger) (v : Int) (reported : List AffectedRange) (s : Source)
    (t : Moment) :
    Prop where
  attributed : ∀ i ∈ m.associated v, ∃ a ∈ m.attributions.values, a.advisoryId = v ∧ a.rangeId = i
  unique : (m.attributions.values.map Attribution.triple).Nodup
  carried : ∀ x ∈ reported, ∃ i ∈ m.associated v, ∃ r, m.ranges.get? i = some r ∧ r.same x = true ∧
    (∃ a ∈ m.attributions.values, a.triple = (v, i, s) ∧ a.lastSeen = t) ∧
    ∀ j ∈ m.associated v, ∀ q, m.ranges.get? j = some q → q.same x = true →
      (∃ a ∈ m.attributions.values, a.triple = (v, j, s)) → j = i
  dropped : ∀ i ∈ m.associated v, ∀ r, m.ranges.get? i = some r →
    (∀ x ∈ reported, r.same x = false) →
    ∀ a ∈ m.attributions.values, a.triple ≠ (v, i, s)

namespace RangeSync

variable {v i : Int} {s : Source} {t : Moment} {reported : List AffectedRange} {target : List Int}
  {l m : Ledger}

theorem Renewed.ne_nil {old new : List Attribution} (h : Renewed v i s t old new) : new ≠ [] := by
  rcases h with ⟨hne, rfl⟩ | ⟨-, k, rfl⟩
  · simpa using hne
  · exact List.cons_ne_nil _ _

theorem Renewed.lastSeen {old new : List Attribution} (h : Renewed v i s t old new)
    {a : Attribution} (ha : a ∈ new) : a.lastSeen = t := by
  rcases h with ⟨-, rfl⟩ | ⟨-, k, rfl⟩
  · obtain ⟨b, -, rfl⟩ := List.mem_map.mp ha
    rfl
  · rw [List.mem_singleton.mp ha]
    rfl

theorem Renewed.length_le {old new : List Attribution} (h : Renewed v i s t old new)
    (ho : old.length ≤ 1) :
    new.length ≤ 1 := by
  rcases h with ⟨-, rfl⟩ | ⟨-, k, rfl⟩
  · simpa using ho
  · exact Nat.le_refl 1

namespace Reconciled

theorem mem_target (h : Reconciled v s t reported target l m) (hi : i ∈ m.associated v) :
    i ∈ target ↔ m.entries v i s ≠ [] := by
  constructor
  · intro ht
    exact (h.renewed i ht).ne_nil
  · intro hne
    rcases (h.associated i).mp hi with ht | ⟨hl, -⟩
    · exact ht
    · by_contra hn
      exact hne (h.cleared i hl hn)

theorem exists_entry (h : Reconciled v s t reported target l m) (hi : i ∈ m.associated v) :
    ∃ x, m.entries v i x ≠ [] := by
  by_cases ht : i ∈ target
  · exact ⟨s, (h.renewed i ht).ne_nil⟩
  · obtain ⟨-, hs⟩ := ((h.associated i).mp hi).resolve_left ht
    obtain ⟨x, hx, hne⟩ := isShared_iff.mp hs
    exact ⟨x, by rwa [h.others v i x (.inr (.inl hx))]⟩

theorem length_entries_le (h : Reconciled v s t reported target l m)
    (hl : ∀ w i x, (l.entries w i x).length ≤ 1) (w i : Int) (x : Source) :
    (m.entries w i x).length ≤ 1 := by
  by_cases hw : w = v ∧ x = s
  · obtain ⟨rfl, rfl⟩ := hw
    by_cases ht : i ∈ target
    · exact (h.renewed i ht).length_le (hl w i x)
    · by_cases ha : i ∈ l.associated w
      · rw [h.cleared i ha ht]
        exact Nat.zero_le 1
      · rw [h.others w i x (.inr (.inr ⟨ht, ha⟩))]
        exact hl w i x
  · rw [h.others w i x (by tauto)]
    exact hl w i x

theorem mem_associated (h : Reconciled v s t reported target l m) (hi : i ∈ target) :
    i ∈ m.associated v :=
  (h.associated i).mpr (.inl hi)

/-- Where triples were unique and the report is well typed, the ledger is in order. -/
theorem inOrder (h : Reconciled v s t reported target l m)
    (hu : (l.attributions.values.map Attribution.triple).Nodup)
    (hr : ∀ x ∈ reported, x.isWellTyped = true) :
    m.InOrder v reported s t := by
  refine ⟨?_, ?_, ?_, ?_⟩
  · intro i hi
    obtain ⟨x, hx⟩ := h.exists_entry hi
    obtain ⟨a, ha⟩ := List.exists_mem_of_ne_nil _ hx
    obtain ⟨ham, ht⟩ := mem_entries.mp ha
    simp only [Attribution.triple, Prod.mk.injEq] at ht
    exact ⟨a, ham, ht.1, ht.2.1⟩
  · exact nodup_triples_iff.mpr (h.length_entries_le (nodup_triples_iff.mp hu))
  · intro x hx
    obtain ⟨k, hk⟩ := AffectedRange.exists_identity? (hr x hx)
    obtain ⟨i, hi, r, hir, hrx⟩ := h.covers x hx
    have hrk := hrx.trans hk
    refine ⟨i, h.mem_associated hi, r, hir, AffectedRange.same_of_identity? hrk hk, ?_, ?_⟩
    · have hnew := h.renewed i hi
      obtain ⟨a, ha⟩ := List.exists_mem_of_ne_nil _ hnew.ne_nil
      obtain ⟨ham, ht⟩ := mem_entries.mp ha
      exact ⟨a, ham, ht, hnew.lastSeen ha⟩
    · rintro j hj q hjq hqx ⟨a, ham, ht⟩
      have hjt := (h.mem_target hj).mpr (List.ne_nil_of_mem (mem_entries.mpr ⟨ham, ht⟩))
      have hqk := (AffectedRange.identity?_eq_of_same (h.hashable x hx) hqx).trans hk
      exact h.distinct j hjt i hi q r hjq hir (AffectedRange.same_of_identity? hqk hrk)
  · intro i hi r hir hn a ham ht
    have hit := (h.mem_target hi).mpr (List.ne_nil_of_mem (mem_entries.mpr ⟨ham, ht⟩))
    obtain ⟨q, hiq, -, x, hx, hqx⟩ := h.rows i hit
    obtain rfl : q = r := Option.some.inj (hiq.symm.trans hir)
    obtain ⟨k, hk⟩ := AffectedRange.exists_identity? (hr x hx)
    exact absurd (AffectedRange.same_of_identity? (hqx.trans hk) hk) (by simp [hn x hx])

end Reconciled

end RangeSync

/-- Whatever state a ledger is in, as long as associated ranges have rows that can be looked up, the
reconciliation of a well-typed report ends well and puts it in order. -/
theorem Advisory.reconcileRanges_repairs {f : FaultyLedger} (hf : f.ledger.WellKept)
    (hnone : f.faults = .none) {a : Advisory} {v : Int} (hv : a.id = some v)
    {reported : List AffectedRange}
    (s : Source) (t : Moment)
    (hrows : ∀ i ∈ f.ledger.associated v, ∃ r, f.ledger.ranges.get? i = some r)
    (hhash : reported ≠ [] → ∀ i ∈ f.ledger.associated v, ∀ r, f.ledger.ranges.get? i = some r →
      r.isHashable = true)
    (hunique : (f.ledger.attributions.values.map Attribution.triple).Nodup)
    (hreported : ∀ x ∈ reported, x.isWellTyped = true) :
    ∃ sync, (a.reconcileRanges reported s t f).result = .ok sync ∧
      (a.reconcileRanges reported s t f).state.ledger.InOrder v reported s t := by
  have hr : ∀ x ∈ reported, x.isHashable = true := by
    intro x hx
    obtain ⟨k, hk⟩ := AffectedRange.exists_identity? (hreported x hx)
    exact AffectedRange.isHashable_of_identity? hk
  obtain ⟨sync, m, hg⟩ := RangeSync.program_gives hf a.vulnId s t hrows hhash hr
  obtain ⟨hok, hm, -⟩ := FaultyLedger.transact_of_gives hnone hg
  obtain ⟨hresult, hstate⟩ := reconcileRanges_of_some hv reported s t f
  refine ⟨sync, hresult.trans hok, ?_⟩
  rw [hstate, hm]
  obtain ⟨target, hrec⟩ := RangeSync.program_reconciled hf hg
  exact hrec.inOrder hunique hreported

/-- A ledger with two rows for one range, both of them associated with the advisory and attributed
by nobody. -/
def doubledRange : FaultyLedger :=
  (({} : FaultyLedger).transact do
    let _ ← Call.ask (.insertAdvisory { vulnId := "A" })
    let _ ← Call.ask (.insertRange { cpe23 := .text "x" })
    let _ ← Call.ask (.insertRange { cpe23 := .text "x" })
    Call.ask (.setRanges 1 [2, 3])).state

theorem reconcileRanges_repairs_doubledRange :
    doubledRange.ledger.associated 1 = [2, 3] ∧
      ∃ sync, (({ vulnId := "A", id := some 1 } : Advisory).reconcileRanges [{ cpe23 := .text "x" }] .nvd .epoch
          doubledRange).result = .ok sync ∧
        (({ vulnId := "A", id := some 1 } : Advisory).reconcileRanges [{ cpe23 := .text "x" }] .nvd .epoch
          doubledRange).state.ledger.InOrder 1 [{ cpe23 := .text "x" }] .nvd .epoch := by
  have ha : doubledRange.ledger.associated 1 = [2, 3] := rfl
  have hw : doubledRange.ledger.WellKept := (FaultyLedger.transact_wellKept _ wellKept_empty).1
  refine ⟨ha, Advisory.reconcileRanges_repairs hw rfl rfl .nvd .epoch ?_ ?_ List.nodup_nil
    (by decide)⟩
  · intro i hi
    simp only [ha, List.mem_cons, List.not_mem_nil, or_false] at hi
    rcases hi with rfl | rfl
    · exact ⟨_, rfl⟩
    · exact ⟨_, rfl⟩
  · intro _ i hi r hr
    simp only [ha, List.mem_cons, List.not_mem_nil, or_false] at hi
    rcases hi with rfl | rfl
    · exact Option.some.inj hr ▸ rfl
    · exact Option.some.inj hr ▸ rfl

/-- A ledger with an advisory that is associated with a range that cannot be looked up, its platform
being a list. -/
def listedPlatform : FaultyLedger :=
  (({} : FaultyLedger).transact do
    let _ ← Call.ask (.insertAdvisory { vulnId := "A" })
    let _ ← Call.ask (.insertRange { cpe23 := .list [.text "x"] })
    Call.ask (.setRanges 1 [2])).state

/-- There reconciliation fails, although every associated range has a row and the report is well
typed. -/
theorem reconcileRanges_fails_listedPlatform :
    listedPlatform.ledger.WellKept ∧ listedPlatform.faults = .none ∧
      (∀ v, ∀ i ∈ listedPlatform.ledger.associated v, ∃ r,
        listedPlatform.ledger.ranges.get? i = some r) ∧
      (listedPlatform.ledger.attributions.values.map Attribution.triple).Nodup ∧
      (∀ x ∈ [({ cpe23 := .text "x" } : AffectedRange)], x.isWellTyped = true) ∧
      (({ vulnId := "A", id := some 1 } : Advisory).reconcileRanges [{ cpe23 := .text "x" }] .nvd .epoch
        listedPlatform).result = .error .wrongKind := by
  refine ⟨(FaultyLedger.transact_wellKept _ wellKept_empty).1, rfl, ?_, List.nodup_nil,
    by decide, rfl⟩
  intro v i hi
  have ha : listedPlatform.ledger.associations = [(1, [2])] := rfl
  simp only [associated, ha, Table.get?_cons, Table.get?_nil] at hi
  split at hi
  · obtain rfl : i = 2 := by simpa using hi
    exact ⟨_, rfl⟩
  · simp at hi

end AdvisoryLedger

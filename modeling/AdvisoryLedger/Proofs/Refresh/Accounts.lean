import AdvisoryLedger.Proofs.Refresh.Malformed

namespace AdvisoryLedger

open Work

/-- The advisory was written, and then its ranges were not. -/
def Written.isHalf (w : Written) : Bool := w.outcome.isSome && !w.isComplete

namespace Tally

/-- How many advisories were brought in line with a report. -/
def reconciled (t : Tally) : Nat := t.created + t.updated + t.unchanged

theorem reconciled_countWritten (t : Tally) (w : Written) :
    (t.countWritten w).reconciled = t.reconciled + if w.outcome.isSome = true then 1 else 0 := by
  obtain ⟨outcome, ranges⟩ := w
  rcases outcome with - | - | - | - <;> cases ranges <;>
    simp [reconciled, countWritten, countOutcome, Nat.add_assoc, Nat.add_comm, Nat.add_left_comm]

theorem reconciled_foldl (ws : List Written) (t : Tally) :
    (ws.foldl countWritten t).reconciled = t.reconciled + ws.countP fun w => w.outcome.isSome := by
  induction ws generalizing t with
  | nil => rfl
  | cons w rest ih =>
    rw [List.foldl_cons, ih, reconciled_countWritten, List.countP_cons, Nat.add_assoc,
      Nat.add_comm (ite _ _ _)]

end Tally

namespace Record

def lacksRecord (item : Json) : Bool :=
  match item.member "cve" with
  | .ok (.object _) => false
  | _ => true

/-- An item that does not end the reading is passed over or is a report just in case there is a
record in it. -/
theorem lacksRecord_eq {item : Json} (h : goesOn (ofItem item).result = true) :
    lacksRecord item = !(isUnconvertible item || (reported? item).isSome) := by
  unfold isUnconvertible reported?
  cases hm : item.member "cve" with
  | error e =>
    cases item with
    | object members => cases hm
    | _ =>
      cases hm
      cases h
  | ok cve =>
    cases cve with
    | null =>
      unfold ofItem lacksRecord
      rw [hm]
      rfl
    | object members =>
      have hrecord : lacksRecord item = false := by rw [lacksRecord, hm]
      rw [hrecord]
      cases hx : (ofItem item).result with
      | error e =>
        rw [isSkipped, (show e.isSkippable = true by rwa [hx] at h), Bool.true_or, Bool.not_true]
      | ok found =>
        rcases ofItem_ok hx with ⟨-, hnull⟩ | ⟨cve, x, rfl, -, -⟩
        · rw [hm] at hnull
          cases hnull
        · rfl
    | _ =>
      unfold ofItem at h
      rw [hm] at h
      cases h

/-- Items that do not end the reading are passed over, or are reports, or have no record in them. -/
theorem length_eq_counts {items : List Json}
    (h : ∀ item ∈ items, goesOn (ofItem item).result = true) :
    items.length = items.countP isUnconvertible + (items.filterMap reported?).length +
      items.countP lacksRecord := by
  induction items with
  | nil => rfl
  | cons item rest ih =>
    obtain ⟨hitem, hrest⟩ := List.forall_mem_cons.mp h
    have hcounts := ih hrest
    have hrecord := lacksRecord_eq hitem
    cases hskipped : isUnconvertible item with
    | true =>
      have hnone := reported?_of_isUnconvertible hskipped
      have hpresent : ¬lacksRecord item = true := by simp [hrecord, hskipped]
      rw [List.length_cons, List.countP_cons_of_pos hskipped, List.filterMap_cons_none hnone,
        List.countP_cons_of_neg hpresent]
      omega
    | false =>
      have hpassed : ¬isUnconvertible item = true := Bool.eq_false_iff.mp hskipped
      cases hreport : reported? item with
      | none =>
        have habsent : lacksRecord item = true := by simp [hrecord, hskipped, hreport]
        rw [List.length_cons, List.countP_cons_of_neg hpassed, List.filterMap_cons_none hreport,
          List.countP_cons_of_pos habsent]
        omega
      | some x =>
        have hpresent : ¬lacksRecord item = true := by simp [hrecord, hskipped, hreport]
        rw [List.length_cons, List.countP_cons_of_neg hpassed, List.filterMap_cons_some hreport,
          List.length_cons, List.countP_cons_of_neg hpresent]
        omega

end Record

section Reports

variable {σ : Type} [Store σ]

theorem isComplete_of_synchronize {r : Report} {s s' : Site σ} {w : Written} {ts : List Trace}
    (h : synchronize r s = ⟨.ok w, s', ts⟩) (hw : w.outcome = none) : w.isComplete = false := by
  have hresult : (synchronize r s).result = .ok w := by rw [h]
  unfold synchronize at hresult
  rw [attempt_bind] at hresult
  cases hr : (r.1.reconcile s).result with
  | error e =>
    rw [hr] at hresult
    cases hresult
    rfl
  | ok x =>
    rw [hr] at hresult
    cases hresult
    cases hw

theorem countP_outcome_synchronizeAll {reports : List Report} {s s' : Site σ} {ws : List Written}
    {ts : List Trace} (h : synchronizeAll reports s = ⟨.ok ws, s', ts⟩) :
    ws.countP (fun w => w.outcome.isSome) + ws.countP (fun w => !w.isComplete) =
      ws.length + ws.countP Written.isHalf := by
  induction reports generalizing s ws ts with
  | nil =>
    cases h
    rfl
  | cons r rest ih =>
    obtain ⟨w, t, us, hr⟩ := synchronize_ok r s
    obtain ⟨ys, t', ns, hrest⟩ := synchronizeAll_ok rest t
    cases (synchronizeAll_cons hr hrest).symm.trans h
    have hcounts := ih hrest
    cases ho : w.outcome with
    | none =>
      have hfailed := isComplete_of_synchronize hr ho
      have hhalf : w.isHalf = false := by rw [Written.isHalf, ho]; rfl
      simp only [List.length_cons, List.countP_cons, ho, hfailed, hhalf, Option.isSome_none,
        Bool.not_false, Bool.false_eq_true, if_false, if_true]
      omega
    | some outcome =>
      have hhalf : w.isHalf = !w.isComplete := by rw [Written.isHalf, ho]; rfl
      simp only [List.length_cons, List.countP_cons, ho, hhalf, Option.isSome_some, if_true]
      omega

end Reports

namespace Refresh

open Record

variable {r : Refresh} {site : Site FaultyLedger} {s : RefreshSummary}

theorem goesOn_of_success (hs : (r.run site).result = .ok s) (hsuccess : s.isSuccess = true) :
    ∀ item ∈ (r.pages site).flatten, goesOn (ofItem item).result = true := by
  cases ho : (r.opened site).result with
  | error e =>
    obtain ⟨previous, hresult, -⟩ := run_of_unopened ho
    obtain rfl := Except.ok.inj (hresult.symm.trans hs)
    cases hsuccess
  | ok c =>
    cases hh : (r.opened site).state.harvest c with
    | mk h start =>
      cases he : h.ending with
      | error e =>
        obtain ⟨since, ws, ts, -, hresult, -⟩ := run_of_broken ho hh he
        obtain rfl := Except.ok.inj (hresult.symm.trans hs)
        cases hsuccess
      | ok u =>
        obtain ⟨taken, -, hreads, hpages⟩ := reads_of_opened ho hh he
        rw [hpages, ← List.flatMap_def]
        exact hreads.goesOn

/-- The counts of a summary, put together from what became of the reports one after the other. -/
structure Accounts (r : Refresh) (site : Site FaultyLedger) (s : RefreshSummary)
    (ws : List Written) : Prop where
  summary : (r.run site).result = .ok s
  written : (synchronizeAll (r.reports site) site).result = .ok ws
  received : s.isSuccess = true → s.tally.received = s.tally.unconvertible + s.tally.submitted +
    (r.pages site).flatten.countP lacksRecord
  submitted : s.tally.created + s.tally.updated + s.tally.unchanged + s.writeFailed =
    s.tally.submitted + ws.countP Written.isHalf

theorem run_accounts (r : Refresh) (site : Site FaultyLedger) : ∃ s ws, r.Accounts site s ws := by
  obtain ⟨s, ws, hsequential⟩ := r.run_sequential site
  obtain ⟨hreceived, hsubmitted, hunconvertible⟩ :=
    Tally.foldl_countWritten_counts ws (.ofReadings (r.readings site))
  rw [← hsequential.tally] at hreceived hsubmitted hunconvertible
  refine ⟨s, ws, hsequential.summary, hsequential.written, fun hsuccess => ?_, ?_⟩
  · have hall := goesOn_of_success hsequential.summary hsuccess
    have hreadings : r.readings site = (r.pages site).flatten.map fun item =>
        (ofItem item).result :=
      readings_of_forall hall
    rw [hreceived, hunconvertible, hsubmitted, hreadings]
    simp only [Tally.ofReadings, List.length_map, List.countP_map, List.filterMap_map]
    exact length_eq_counts hall
  · obtain ⟨ws', s', ts, hall⟩ := synchronizeAll_ok (r.reports site) site
    obtain rfl : ws' = ws :=
      Except.ok.inj ((congrArg Outcome.result hall).symm.trans hsequential.written)
    have hreconciled := Tally.reconciled_foldl ws' (.ofReadings (r.readings site))
    rw [← hsequential.tally] at hreconciled
    have hcounts := countP_outcome_synchronizeAll hall
    rw [hsequential.writeFailed, hsequential.submitted, ← hcounts]
    congr 1
    rw [← Tally.reconciled, hreconciled]
    exact Nat.zero_add _

end Refresh

/-- An item without a record, one that is passed over, and a report whose ranges cannot be
written. -/
def halfWritten : Site FaultyLedger :=
  { Site.ofAnswers [.ofPage 3 [.object [], namelessRecord, datedRecord]] with
    store := { faults := .single .getRanges 1 (.broken "no ranges") } }

/-- Three items, of which one each is passed over, submitted, and without a record. -/
theorem run_accounts_halfWritten : ∃ s ws, ({} : Refresh).Accounts halfWritten s ws ∧
    s.isSuccess = true ∧
    s.tally.received = 3 ∧ s.tally.unconvertible = 1 ∧ s.tally.submitted = 1 ∧
    (({} : Refresh).pages halfWritten).flatten.countP Record.lacksRecord = 1 := by
  obtain ⟨s, hs, h⟩ := Refresh.summary_of_decide halfWritten
    (fun s => s.isSuccess && s.tally.received = 3 && s.tally.unconvertible = 1 &&
      s.tally.submitted = 1)
    (by decide +kernel)
  simp only [Bool.and_eq_true, decide_eq_true_eq] at h
  obtain ⟨⟨⟨hsuccess, hreceived⟩, hunconvertible⟩, hsubmitted⟩ := h
  obtain ⟨s', ws, hm⟩ := Refresh.run_accounts {} halfWritten
  obtain rfl : s' = s := Except.ok.inj (hm.summary.symm.trans hs)
  have hitems := hm.received hsuccess
  rw [hreceived, hunconvertible, hsubmitted] at hitems
  exact ⟨s', ws, hm, hsuccess, hreceived, hunconvertible, hsubmitted,
    (Nat.add_left_cancel hitems).symm⟩

/-- The one report counts twice: its advisory is new, and it could not be written. -/
theorem run_accounts_fails_halfWritten : ∃ s, (({} : Refresh).run halfWritten).result = .ok s ∧
    s.isSuccess = true ∧ s.tally.submitted = 1 ∧ s.tally.created = 1 ∧ s.writeFailed = 1 := by
  obtain ⟨s, hs, h⟩ := Refresh.summary_of_decide halfWritten
    (fun s => s.isSuccess && s.tally.submitted = 1 && s.tally.created = 1 && s.writeFailed = 1)
      (by decide +kernel)
  simp only [Bool.and_eq_true, decide_eq_true_eq] at h
  obtain ⟨⟨⟨hsuccess, hsubmitted⟩, hcreated⟩, hfailed⟩ := h
  exact ⟨s, hs, hsuccess, hsubmitted, hcreated, hfailed⟩

end AdvisoryLedger

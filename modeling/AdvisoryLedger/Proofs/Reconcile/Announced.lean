import AdvisoryLedger.Proofs.Reconcile.Copies

namespace AdvisoryLedger

open Ledger

namespace Advisory

/-- Reports that are reconciled one after the other, each to its own end. -/
def reconcileEach {σ : Type} [Store σ] : List Advisory → Work σ (List Result)
  | [] => pure []
  | a :: rest => do
    let x ← Work.attempt a.reconcile
    pure (x :: (← reconcileEach rest))

/-- A creation or an update that was committed, as the index is to hear of it. -/
def committed : Result → List IndexNotice
  | .ok (row, .created) => [⟨.create, some row, "Vulnerability"⟩]
  | .ok (row, .updated) => [⟨.update, some row, "Vulnerability"⟩]
  | .ok (_, .unchanged) => []
  | .error _ => []

/-- A reconciliation accounts for what it does. If it fails, it has changed and announced nothing.
Otherwise it has done to the ledger what it says; its notices come behind all that its transaction
leaves, when the store is in the state that the transaction ended in, and that holds the row which
they show. -/
def Accounts (a : Advisory) (f : FaultyLedger) : Prop :=
  match (a.reconcile f).result with
  | .error _ => (a.reconcile f).state.ledger = f.ledger ∧ (a.reconcile f).notices = []
  | .ok (row, outcome) =>
    Synced f.ledger a row outcome (a.reconcile f).state.ledger ∧
      (a.reconcile f).traces =
        (f.transact a.sync).entries.map .entry ++ (committed (.ok (row, outcome))).map .notice ∧
      (a.reconcile f).state = (f.transact a.sync).state ∧
      (a.reconcile f).state.ledger.copy? a.naturalKey = some row ∧ row.id ≠ none

variable {a : Advisory} {f : FaultyLedger}

theorem notices?_eq (x : Advisory × SyncOutcome) : notices? x = committed (.ok x) := by
  obtain ⟨row, outcome⟩ := x
  cases outcome <;> rfl

theorem accounts (hl : f.ledger.WellKept) (a : Advisory) : Accounts a f := by
  unfold Accounts
  rcases reconcile_cases hl a with ⟨e, h⟩ | ⟨⟨row, outcome⟩, h⟩
  · rw [h.result]
    exact ⟨h.ledger, h.notices⟩
  · rw [h.result]
    refine ⟨h.synced, ?_, reconcile_state hl a, ?_, h.id⟩
    · rw [h.reconciled, notices?_eq]
    · rw [h.copies, Function.update_self]

theorem notices_reconcile (hl : f.ledger.WellKept) (a : Advisory) :
    (a.reconcile f).notices = committed (a.reconcile f).result := by
  rcases reconcile_cases hl a with ⟨e, h⟩ | ⟨x, h⟩
  · rw [h.result, h.notices, committed]
  · rw [h.result, h.notices, notices?_eq]

theorem reconcileEach_cons (a : Advisory) (rest : List Advisory) (f : FaultyLedger) :
    (reconcileEach (a :: rest) f).result =
        (reconcileEach rest (a.reconcile f).state).result.map ((a.reconcile f).result :: ·) ∧
      (reconcileEach (a :: rest) f).state = (reconcileEach rest (a.reconcile f).state).state ∧
      (reconcileEach (a :: rest) f).notices =
        (a.reconcile f).notices ++ (reconcileEach rest (a.reconcile f).state).notices := by
  rw [reconcileEach, Work.notices_attempt_bind, Work.attempt_bind]
  cases hr : (reconcileEach rest (a.reconcile f).state).result with
  | error e =>
    rw [Work.bind_of_error hr]
    exact ⟨rfl, rfl, rfl⟩
  | ok results =>
    rw [Work.notices_bind_of_ok hr, Work.bind_of_ok hr]
    refine ⟨rfl, rfl, ?_⟩
    exact congrArg _ (List.append_nil _)

/-- Whatever faults strike, every reconciliation of a history accounts for what it does to the store
that the ones before it have left, and the index hears of just the creations and updates that were
committed, in their order. -/
theorem notices_match_commits (hl : f.ledger.WellKept) (reports : List Advisory) :
    ∃ results, (reconcileEach reports f).result = .ok results ∧ results.length = reports.length ∧
      (∀ past a later, reports = past ++ a :: later →
        Accounts a (reconcileEach past f).state ∧
          results[past.length]? = some (a.reconcile (reconcileEach past f).state).result) ∧
      (reconcileEach reports f).notices = results.flatMap committed := by
  induction reports generalizing f with
  | nil =>
    refine ⟨[], rfl, rfl, ?_, rfl⟩
    intro past a later h
    simp at h
  | cons a rest ih =>
    obtain ⟨hresult, -, hnotices⟩ := reconcileEach_cons a rest f
    obtain ⟨results, hr, hlength, heach, hall⟩ := ih (reconcile_wellKept hl a)
    refine ⟨(a.reconcile f).result :: results, ?_, ?_, ?_, ?_⟩
    · rw [hresult, hr]
      rfl
    · rw [List.length_cons, List.length_cons, hlength]
    · intro past b later h
      cases past with
      | nil =>
        obtain ⟨rfl, -⟩ := List.cons.inj h
        exact ⟨accounts hl a, rfl⟩
      | cons c past =>
        obtain ⟨rfl, hrest⟩ := List.cons.inj h
        rw [(reconcileEach_cons a past f).2.1]
        exact heach past b later hrest
    · rw [hnotices, hall, notices_reconcile hl, List.flatMap_cons]

/-- The first write is struck, the second report creates, and the third one updates. -/
theorem notices_match_commits_struck :
    let f : FaultyLedger := { faults := .single .insertAdvisory 1 .wrongKind }
    let report (points : Nat) : Advisory := scored points none
    f.ledger.WellKept ∧
      ((reconcileEach [report 9, report 9, report 5] f).notices.map fun n => n.action) =
        [.create, .update] ∧
      ∃ results, (reconcileEach [report 9, report 9, report 5] f).result = .ok results ∧
        (reconcileEach [report 9, report 9, report 5] f).notices = results.flatMap committed := by
  intro f report
  have hf : f.ledger.WellKept := wellKept_empty
  obtain ⟨results, hr, -, -, hnotices⟩ := notices_match_commits hf [report 9, report 9, report 5]
  exact ⟨hf, by decide +kernel, results, hr, hnotices⟩

end Advisory

end AdvisoryLedger

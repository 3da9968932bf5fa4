import AdvisoryLedger.Proofs.Feed.Page
import AdvisoryLedger.Proofs.Reconcile.Copies

namespace AdvisoryLedger

open Ledger

namespace Record

variable {a b : Advisory} {cve : Json}

theorem applyMetrics_ok (h : applyMetrics a cve = .ok b) :
    b = { a with cvss2 := b.cvss2, cvss3 := b.cvss3 } := by
  simp only [applyMetrics, bind, Except.bind] at h
  repeat' split at h
  all_goals cases h
  all_goals rfl

/-- What a record says nothing of. -/
structure IsUnsaid (a : Advisory) : Prop where
  source : a.source = .nvd
  explicitSeverity : a.explicitSeverity = none
  epssScore : a.epssScore = none
  epssPercentile : a.epssPercentile = none

theorem isUnsaid_of_advisory (h : (advisory cve).result = .ok a) : IsUnsaid a := by
  obtain ⟨_, -, h⟩ := Noted.result_bind_ok.mp h
  obtain ⟨vulnId, -, h⟩ := Noted.result_bind_ok.mp h
  split at h
  · cases h
  · obtain ⟨published, -, h⟩ := Noted.result_bind_ok.mp h
    obtain ⟨description, -, h⟩ := Noted.result_bind_ok.mp h
    obtain ⟨references, -, h⟩ := Noted.result_bind_ok.mp h
    obtain ⟨_, -, h⟩ := Noted.result_bind_ok.mp h
    obtain ⟨updated, -, h⟩ := Noted.result_bind_ok.mp h
    obtain ⟨_, -, h⟩ := Noted.result_bind_ok.mp h
    obtain ⟨cwes, -, h⟩ := Noted.result_bind_ok.mp h
    rw [applyMetrics_ok h]
    exact ⟨rfl, rfl, rfl, rfl⟩

end Record

namespace Advisory

variable {a row copy : Advisory} {f : FaultyLedger} {next : Int}

theorem settled_comesTo (ha : a.explicitSeverity = none) (next : Int) (copy : Option Advisory) :
    (a.comesTo next copy).1.Settled a := by
  cases copy with
  | none => exact settled_withId a _
  | some copy => exact (updated_update copy a).settled ha

/-- Without a NaN in the report or in the copy, there is none in what comes of them. -/
theorem isProper_comesTo (ha : a.IsProper) {copy : Option Advisory}
    (hc : ∀ b, copy = some b → b.IsProper) : (a.comesTo next copy).1.IsProper := by
  cases copy with
  | none =>
    intro c
    rw [comesTo, cell_withId]
    exact ha c
  | some b => exact (updated_update b a).isProper (hc b rfl) ha

/-- What comes of a regular report is steady, unless the copy holds a NaN that the report does not
replace. -/
theorem isSteady_comesTo (ha : a.IsRegular) {copy : Option Advisory}
    (hc : ∀ b, copy = some b → b.HasKnownEpss) : (a.comesTo next copy).1.IsSteady := by
  cases copy with
  | none =>
    intro c
    rw [comesTo, cell_withId]
    exact Cell.same_self (ha.proper c)
  | some b => exact (updated_update b a).isSteady ha (hc b rfl)

/-- The copy is not changed by the report. It counts as changed where it is not the same as
itself. -/
theorem Settled.comesTo (h : row.Settled a) (next : Int) :
    (row.IsSteady → a.comesTo next (some row) = (row, .unchanged)) ∧
      (¬ row.IsSteady → a.comesTo next (some row) = (row, .updated)) := by
  rw [Advisory.comesTo, h.existing_update]
  constructor
  · intro hs
    have hn : (row.update a).isChanged = false := by
      rw [← Bool.not_eq_true, h.isChanged_update]
      exact not_not.mpr hs
    simp [hn]
  · intro hs
    simp [h.isChanged_update.mpr hs]

/-- A copy that does not count as changed is looked up, and that is all. -/
theorem transact_unchanged (hf : f.faults = .none) (hc : f.ledger.copy? a.naturalKey = some copy)
    (hu : (copy.update a).isChanged = false) :
    (f.transact a.sync).state = { f with made := .getAdvisory :: f.made } := by
  have hget : f.ledger.perform (.getAdvisory a.source a.vulnId) =
      .ok ⟨some copy, f.ledger, []⟩ := by
    rw [← hc]
    rfl
  simp only [FaultyLedger.transact, sync, Call.ask, Dialogue.call, bind, Dialogue.bind,
    Dialogue.run, FaultyLedger.answer_ok (t := ⟨f, []⟩) hf hget, Dialogue.ofExcept, hu,
    Bool.false_eq_true, if_false, pure]
  rfl

theorem transact_overwritten (hl : f.ledger.WellKept) (hf : f.faults = .none)
    (hc : f.ledger.copy? a.naturalKey = some row) (hs : row.Settled a) (hn : ¬ row.IsSteady) :
    (f.transact a.sync).state = { f with made := .updateAdvisory :: .getAdvisory :: f.made } := by
  obtain ⟨id, hid, -⟩ := exists_row_of_advisory? hl hc
  have hown := (hl.advisories id row hid).1
  have hget : f.ledger.perform (.getAdvisory a.source a.vulnId) = .ok ⟨some row, f.ledger, []⟩ := by
    rw [← hc]
    rfl
  have hput : f.ledger.perform (.updateAdvisory (row.update a).existing) =
      .ok ⟨(), f.ledger, [.restoreAdvisory id row]⟩ := by
    simp only [perform, hs.existing_update, hown, Option.bind_some, hid, Option.map_some,
      Table.put_self hid]
  have hwrite := FaultyLedger.answer_ok (t := ⟨{ f with
    made := (Call.getAdvisory a.source a.vulnId).involved.reverse ++ f.made }, [] ++ []⟩) hf hput
  simp only [FaultyLedger.transact, sync, Call.ask, Dialogue.call, bind, Dialogue.bind,
    Dialogue.run, FaultyLedger.answer_ok (t := ⟨f, []⟩) hf hget, Dialogue.ofExcept,
    hs.isChanged_update.mpr hn, if_true, hwrite, pure]
  rfl

/-- The store holds the row, and a report has nothing to add to it. -/
structure Rests (row a : Advisory) (f : FaultyLedger) : Prop where
  faults : f.faults = .none
  wellKept : f.ledger.WellKept
  copy : f.ledger.copy? a.naturalKey = some row
  settled : row.Settled a

theorem rests_reconcile (ha : a.explicitSeverity = none) (hl : f.ledger.WellKept)
    (hf : f.faults = .none) :
    Rests (a.comesTo f.ledger.nextId (f.ledger.copy? a.naturalKey)).1 a (a.reconcile f).state where
  faults := (reconcile_faults hl a).trans hf
  wellKept := reconcile_wellKept hl a
  copy := by rw [(cameThrough hl hf a).copies, Function.update_self]
  settled := settled_comesTo ha _ _

namespace Rests

theorem unchanged (h : Rests row a f) (hs : row.IsSteady) :
    (a.reconcile f).result = .ok (row, .unchanged) ∧ (a.reconcile f).notices = [] ∧
      (a.reconcile f).state = { f with made := .getAdvisory :: f.made } := by
  have hc := cameThrough h.wellKept h.faults a
  rw [h.copy, (h.settled.comesTo _).1 hs] at hc
  have hu : (row.update a).isChanged = false := by
    rw [← Bool.not_eq_true, h.settled.isChanged_update]
    exact not_not.mpr hs
  exact ⟨hc.result, hc.notices,
    (reconcile_state h.wellKept a).trans (transact_unchanged h.faults h.copy hu)⟩

theorem updated (h : Rests row a f) (hs : ¬ row.IsSteady) :
    (a.reconcile f).result = .ok (row, .updated) ∧
      (a.reconcile f).notices = [⟨.update, some row, "Vulnerability"⟩] ∧
      (a.reconcile f).state = { f with made := .updateAdvisory :: .getAdvisory :: f.made } := by
  have hc := cameThrough h.wellKept h.faults a
  rw [h.copy, (h.settled.comesTo _).2 hs] at hc
  exact ⟨hc.result, hc.notices, (reconcile_state h.wellKept a).trans
    (transact_overwritten h.wellKept h.faults h.copy h.settled hs)⟩

theorem ledger_eq (h : Rests row a f) : (a.reconcile f).state.ledger = f.ledger := by
  by_cases hs : row.IsSteady
  · rw [(h.unchanged hs).2.2]
  · rw [(h.updated hs).2.2]

theorem reconcile (h : Rests row a f) : Rests row a (a.reconcile f).state where
  faults := (reconcile_faults h.wellKept a).trans h.faults
  wellKept := reconcile_wellKept h.wellKept a
  copy := by rw [h.ledger_eq, h.copy]
  settled := h.settled

theorem reconcileAll (h : Rests row a f) (n : Nat) :
    Rests row a (reconcileAll (List.replicate n a) f) ∧
    (Advisory.reconcileAll (List.replicate n a) f).ledger = f.ledger := by
  induction n generalizing f with
  | zero => exact ⟨h, rfl⟩
  | succ n ih =>
    obtain ⟨hrests, hledger⟩ := ih h.reconcile
    exact ⟨hrests, hledger.trans h.ledger_eq⟩

end Rests

/-- A record of the feed that is reconciled again and again, on any store. The first reconciliation
leaves a row that stays as it is. If every cell of the row is the same as itself, each further one
finds it unchanged, asks for it and does nothing else; if not, each further one writes it, and
announces an update. With a NaN for a score it is always so; without a NaN in the record and in the
copy that was there it never is. -/
theorem reconcile_repeated {cve : Json} (ha : (Record.advisory cve).result = .ok a)
    (hl : f.ledger.WellKept) (hf : f.faults = .none) :
    ∃ row outcome, (a.reconcile f).result = .ok (row, outcome) ∧
      (∀ n, let g := reconcileAll (List.replicate (n + 1) a) f
        g.ledger = (a.reconcile f).state.ledger ∧
        (row.IsSteady → (a.reconcile g).result = .ok (row, .unchanged) ∧
          (a.reconcile g).notices = [] ∧
          (a.reconcile g).state = { g with made := .getAdvisory :: g.made }) ∧
        (¬ row.IsSteady → (a.reconcile g).result = .ok (row, .updated) ∧
          (a.reconcile g).notices = [⟨.update, some row, "Vulnerability"⟩] ∧
          (a.reconcile g).state = { g with made := .updateAdvisory :: .getAdvisory :: g.made })) ∧
      (∀ c, a.cell c = .json (.real .nan) → ¬ row.IsSteady) ∧
      (a.IsProper → (∀ copy, f.ledger.copy? a.naturalKey = some copy → copy.IsProper) →
        row.IsSteady) := by
  have hsaid := Record.isUnsaid_of_advisory ha
  have hrests := rests_reconcile hsaid.explicitSeverity hl hf
  refine ⟨_, _, (cameThrough hl hf a).result, ?_, fun c hc => hrests.settled.not_isSteady hc,
    fun hproper hcopy => (isProper_comesTo hproper hcopy).isSteady⟩
  intro n g
  have hg : Rests _ a g := (hrests.reconcileAll n).1
  exact ⟨(hrests.reconcileAll n).2, hg.unchanged, hg.updated⟩

def scoredRecord (score : Json) : Json :=
  .object [("id", .text "CVE-1"), ("metrics", .object [("cvssMetricV31",
    .list [.object [("cvssData", .object [("baseScore", score)])]])])]

theorem exists_advisory (cve : Json) (p : Advisory → Bool)
    (h : ((Record.advisory cve).result.toOption.any p) = true) :
    ∃ a, (Record.advisory cve).result = .ok a ∧ p a = true := by
  cases hr : (Record.advisory cve).result with
  | error e => simp [hr, Except.toOption] at h
  | ok a =>
    rw [hr] at h
    exact ⟨a, rfl, h⟩

theorem reconcile_repeated_scored :
    ∃ a row, (Record.advisory (scoredRecord (.text "9.8"))).result = .ok a ∧
    (a.reconcile (reconcileAll [a, a, a] {})).result = .ok (row, .unchanged) := by
  obtain ⟨a, ha, hp⟩ := exists_advisory (scoredRecord (.text "9.8"))
    (fun a => Column.all.all fun c => (a.cell c).isProper) (by decide +kernel)
  have hproper : a.IsProper := by
    intro c
    exact List.all_eq_true.mp hp c (by cases c <;> decide)
  obtain ⟨row, outcome, -, hagain, -, hsteady⟩ := reconcile_repeated (f := {}) ha wellKept_empty rfl
  exact ⟨a, row, ha, ((hagain 2).2.1 (hsteady hproper fun copy hc => by cases hc)).1⟩

/-- The text of a NaN is a score, and an update every time. -/
theorem reconciledAgain_nan :
    ∃ a row, (Record.advisory (scoredRecord (.text "nan"))).result = .ok a ∧
    (a.reconcile (a.reconcile ({} : FaultyLedger)).state).result = .ok (row, .updated) := by
  obtain ⟨a, ha, hp⟩ := exists_advisory (scoredRecord (.text "nan"))
    (fun a => (a.reconcile (a.reconcile ({} : FaultyLedger)).state).result.toOption.any
      fun x => x.2 = .updated) (by decide +kernel)
  refine ⟨a, ?_⟩
  cases hr : (a.reconcile (a.reconcile ({} : FaultyLedger)).state).result with
  | error e => simp [hr, Except.toOption] at hp
  | ok x =>
    obtain ⟨row, outcome⟩ := x
    simp only [hr, Except.toOption, Option.any_some, decide_eq_true_eq] at hp
    exact ⟨row, ha, by rw [hp]⟩

end Advisory

end AdvisoryLedger

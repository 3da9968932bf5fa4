import AdvisoryLedger.Proofs.Diff.Steady
import AdvisoryLedger.Proofs.Reconcile.Stores
import AdvisoryLedger.Proofs.Work

namespace AdvisoryLedger

open Ledger

variable {α : Type}

namespace Dialogue

/-- The dialogue asks nothing more and ends well. -/
def Succeeds : SessionProgram α → Prop
  | .done _ => True
  | .note _ rest => rest.Succeeds
  | _ => False

/-- The dialogue only asks questions, up to the last request, and ends well with that. -/
def WritesLast : SessionProgram α → Prop
  | .done _ => True
  | .fail _ => True
  | .note _ rest => rest.WritesLast
  | .ask call next => (∀ e, (next (.error e)).Fails) ∧
    ((isQuestion call = true ∧ ∀ r, (next (.ok r)).WritesLast) ∨ ∀ r, (next (.ok r)).Succeeds)

theorem Succeeds.run {d : SessionProgram α} (h : d.Succeeds) {σ : Type}
    (answer : (call : Call) → σ → Except Failure call.Reply × σ) (s : σ) :
    ∃ a, (d.run answer s).result = .ok a := by
  induction d with
  | done a => exact ⟨a, rfl⟩
  | fail => exact h.elim
  | note entry rest ih => exact ih h
  | ask => exact h.elim

theorem Fails.state_run {d : SessionProgram α} (h : d.Fails) {σ : Type}
    (answer : (call : Call) → σ → Except Failure call.Reply × σ) (s : σ) :
    (d.run answer s).state = s := by
  induction d with
  | done => exact h.elim
  | fail => rfl
  | note entry rest ih => exact ih h
  | ask => exact h.elim

end Dialogue

theorem Table.put_self {κ : Type} [DecidableEq κ] {t : Table κ α} {k : κ} {v : α}
    (h : t.get? k = some v) :
    t.put k v = t := by
  induction t with
  | nil => cases h
  | cons row rest ih =>
    rw [get?_cons] at h
    unfold put
    split
    · next hk =>
      rw [if_pos hk] at h
      rw [← Option.some.inj h]
    · next hk =>
      rw [if_neg hk] at h
      rw [ih h]

namespace FaultyLedger

theorem answer_ok {call : Call} {t : Open} {p : Performed call.Reply} (hf : t.store.faults = .none)
    (hp : t.store.ledger.perform call = .ok p) : answer call t = (.ok p.reply,
      ⟨{ t.store with ledger := p.ledger, made := call.involved.reverse ++ t.store.made }, p.undo ++ t.undo⟩) := by
  rw [answer, count_none hf]
  simp only [hp]

theorem answer_question {call : Call} (hc : isQuestion call = true) (t : Open) :
    (answer call t).2.store.ledger = t.store.ledger ∧ (answer call t).2.undo = t.undo := by
  rcases answer_cases call t with ⟨p, hp, -, hl, hu⟩ | ⟨e, -, hl, hu⟩
  · cases performs_of_perform hp with
    | read _ reply => exact ⟨hl, hu⟩
    | _ => exact absurd hc Bool.false_ne_true
  · exact ⟨hl, hu⟩

/-- A transaction that writes last and fails has nothing to take back. -/
theorem run_of_writesLast {program : SessionProgram α} (hp : program.WritesLast) {t : Open}
    {e : Failure} (h : (program.run answer t).result = .error e) :
    (program.run answer t).state.store.ledger = t.store.ledger ∧
      (program.run answer t).state.undo = t.undo := by
  induction program generalizing t with
  | done a => cases h
  | fail e => exact ⟨rfl, rfl⟩
  | note entry rest ih => exact ih hp h
  | ask call next ih =>
    have hr : ((next (answer call t).1).run answer (answer call t).2).result = .error e := h
    change ((next (answer call t).1).run answer (answer call t).2).state.store.ledger = _ ∧
      ((next (answer call t).1).run answer (answer call t).2).state.undo = _
    rcases answer_cases call t with ⟨p, -, hok, -, -⟩ | ⟨e', he, hl, hu⟩
    · rw [hok] at hr ⊢
      rcases hp.2 with ⟨hc, hnext⟩ | hends
      · obtain ⟨hl, hu⟩ := answer_question hc t
        obtain ⟨hl', hu'⟩ := ih (.ok p.reply) (hnext p.reply) hr
        exact ⟨hl'.trans hl, hu'.trans hu⟩
      · obtain ⟨a, ha⟩ := (hends p.reply).run answer (answer call t).2
        rw [ha] at hr
        cases hr
    · rw [he, (hp.1 e').state_run]
      exact ⟨hl, hu⟩

theorem transact_of_writesLast {program : SessionProgram α} (hp : program.WritesLast)
    {f : FaultyLedger}
    {e : Failure} (h : (f.transact program).result = .error e) :
    (f.transact program).state.ledger = f.ledger := by
  cases hr : (program.run answer ⟨f, []⟩).result with
  | ok a => simp [transact, hr] at h
  | error e' =>
    obtain ⟨hl, hu⟩ := run_of_writesLast hp hr
    simp only [transact, hr, hu]
    exact hl

end FaultyLedger

namespace Advisory

variable {a : Advisory} {l m : Ledger} {f : FaultyLedger}

/-- What became of a report: the row and what was done to it, or a failure. -/
abbrev Result := Except Failure (Advisory × SyncOutcome)

/-- What a report comes to, by the copy that is there and the id that a new row would get. -/
def comesTo (a : Advisory) (next : Int) : Option Advisory → Advisory × SyncOutcome
  | none => ({ a with id := some next }, .created)
  | some copy => ((copy.update a).existing,
    if (copy.update a).isChanged then .updated else .unchanged)

/-- What the index is to hear of a reconciliation. -/
def notices? : Advisory × SyncOutcome → List IndexNotice
  | (row, outcome) => (outcome.action?.map fun action => ⟨action, some row, "Vulnerability"⟩).toList

theorem sync_strict (a : Advisory) : a.sync.Strict := by
  refine (Call.strict_ask _).bind fun copy => ?_
  cases copy with
  | none => exact (Call.strict_ask _).bind fun row => trivial
  | some copy =>
    dsimp only
    split
    · exact (Call.strict_ask _).bind fun _ => trivial
    · trivial

theorem sync_writesLast (a : Advisory) : a.sync.WritesLast := by
  refine ⟨fun _ => trivial, .inl ⟨rfl, fun copy => ?_⟩⟩
  cases copy with
  | none => exact ⟨fun _ => trivial, .inr fun _ => trivial⟩
  | some copy =>
    change Dialogue.WritesLast (if (copy.update a).isChanged then _ else _)
    split
    · exact ⟨fun _ => trivial, .inr fun _ => trivial⟩
    · trivial

/-- A reconciliation that nothing strikes: what it comes to, and the copies that it leaves. -/
theorem sync_comesTo (hl : l.WellKept) (a : Advisory) :
    ∃ m, Gives a.sync l (a.comesTo l.nextId (l.copy? a.naturalKey)) m ∧
      Synced l a (a.comesTo l.nextId (l.copy? a.naturalKey)).1
        (a.comesTo l.nextId (l.copy? a.naturalKey)).2 m ∧
      m.copy? = Function.update l.copy? a.naturalKey
        (some (a.comesTo l.nextId (l.copy? a.naturalKey)).1) := by
  cases hf : l.copy? a.naturalKey with
  | none =>
    exact ⟨_, gives_created hf, .created (naturalKey_ne_of_advisory? hl hf),
      Ledger.copy?_insert (b := { a with id := some l.nextId }) hl hf _⟩
  | some copy =>
    obtain ⟨id, hid, hk⟩ := exists_row_of_advisory? hl hf
    have hown := (hl.advisories id copy hid).1
    cases hc : (copy.update a).isChanged with
    | true =>
      simp only [comesTo, hc, if_true]
      exact ⟨_, gives_updated hf hown hid hc, .updated hid hk hc,
        Ledger.copy?_update hl hf hown ((updated_update copy a).naturalKey.trans hk)⟩
    | false =>
      simp only [comesTo, hc, Bool.false_eq_true, if_false]
      refine ⟨_, gives_unchanged hf hc, .unchanged hid hk hc, ?_⟩
      rw [existing_of_unchanged hc, ← hf, Function.update_eq_self]

/-- A reconciliation is its transaction, and then what the index is to hear of it. -/
theorem reconcile_of_ok {x : Advisory × SyncOutcome} (h : (f.transact a.sync).result = .ok x)
    (hid : x.1.id ≠ none) : a.reconcile f =
      ⟨.ok x, (f.transact a.sync).state,
        (f.transact a.sync).entries.map .entry ++ (notices? x).map .notice⟩ := by
  obtain ⟨row, outcome⟩ := x
  have hsome : row.id.isNone = false := by
    rw [← Bool.not_eq_true, Option.isNone_iff_eq_none]
    exact hid
  have ht : (Work.transact (some a.lockKey) a.sync f).result = .ok (row, outcome) := h
  rw [reconcile, Work.bind_of_ok ht]
  simp only [hsome, Bool.false_eq_true, if_false]
  cases outcome <;> rfl

theorem reconcile_of_error {e : Failure} (h : (f.transact a.sync).result = .error e) :
    a.reconcile f =
    ⟨.error e, (f.transact a.sync).state,
      (f.transact a.sync).entries.map .entry⟩ := reconcile_of_failure h

/-- A reconciliation has failed: it left the ledger alone, and the index heard nothing. -/
structure FellThrough (a : Advisory) (f : FaultyLedger) (e : Failure) : Prop where
  transacted : (f.transact a.sync).result = .error e
  result : (a.reconcile f).result = .error e
  state : (a.reconcile f).state = (f.transact a.sync).state
  ledger : (a.reconcile f).state.ledger = f.ledger
  notices : (a.reconcile f).notices = []

/-- A reconciliation has come through. The index hears of it after the last that the transaction
leaves, and nothing happens to the store from then on. -/
structure CameThrough (a : Advisory) (f : FaultyLedger) (x : Advisory × SyncOutcome) : Prop where
  comesTo : a.comesTo f.ledger.nextId (f.ledger.copy? a.naturalKey) = x
  transacted : (f.transact a.sync).result = .ok x
  reconciled : a.reconcile f = ⟨.ok x, (f.transact a.sync).state,
    (f.transact a.sync).entries.map .entry ++ (notices? x).map .notice⟩
  synced : Synced f.ledger a x.1 x.2 (a.reconcile f).state.ledger
  copies : (a.reconcile f).state.ledger.copy? =
    Function.update f.ledger.copy? a.naturalKey (some x.1)
  id : x.1.id ≠ none

theorem cameThrough_of_transact (hl : f.ledger.WellKept) {x : Advisory × SyncOutcome}
    (h : (f.transact a.sync).result = .ok x) : a.CameThrough f x := by
  obtain ⟨m, hg, hs, hcopy⟩ := sync_comesTo hl a
  obtain ⟨hx, rfl⟩ := hg.unique (FaultyLedger.gives_of_transact a.sync_strict h)
  rw [hx] at hs hcopy
  have hid := hs.id hl
  have hreconcile := reconcile_of_ok h hid
  refine ⟨hx, h, hreconcile, ?_, ?_, hid⟩
  · rw [hreconcile]
    exact hs
  · rw [hreconcile]
    exact hcopy

theorem fellThrough_of_transact {e : Failure} (h : (f.transact a.sync).result = .error e) :
    a.FellThrough f e := by
  have hledger := FaultyLedger.transact_of_writesLast a.sync_writesLast h
  have hreconcile := reconcile_of_error h
  refine ⟨h, ?_, ?_, ?_, ?_⟩ <;> rw [hreconcile]
  · exact hledger
  · exact Work.notices_entries _

theorem reconcile_cases (hl : f.ledger.WellKept) (a : Advisory) :
    (∃ e, a.FellThrough f e) ∨ ∃ x, a.CameThrough f x := by
  cases hr : (f.transact a.sync).result with
  | error e => exact .inl ⟨e, fellThrough_of_transact hr⟩
  | ok x => exact .inr ⟨x, cameThrough_of_transact hl hr⟩

theorem cameThrough (hl : f.ledger.WellKept) (hf : f.faults = .none) (a : Advisory) :
    a.CameThrough f (a.comesTo f.ledger.nextId (f.ledger.copy? a.naturalKey)) := by
  obtain ⟨m, hg, -, -⟩ := sync_comesTo hl a
  exact cameThrough_of_transact hl (FaultyLedger.transact_of_gives hf hg).1

theorem reconcile_state (hl : f.ledger.WellKept) (a : Advisory) :
    (a.reconcile f).state = (f.transact a.sync).state := by
  rcases reconcile_cases hl a with ⟨e, h⟩ | ⟨x, h⟩
  · exact h.state
  · rw [h.reconciled]

theorem reconcile_wellKept (hl : f.ledger.WellKept) (a : Advisory) :
    (a.reconcile f).state.ledger.WellKept := by
  rw [reconcile_state hl]
  exact (FaultyLedger.transact_wellKept a.sync hl).1

theorem reconcile_faults (hl : f.ledger.WellKept) (a : Advisory) :
    (a.reconcile f).state.faults = f.faults := by
  rw [reconcile_state hl]
  exact FaultyLedger.transact_faults a.sync f

theorem CameThrough.result {x : Advisory × SyncOutcome} (h : a.CameThrough f x) :
    (a.reconcile f).result = .ok x := by rw [h.reconciled]

theorem CameThrough.notices {x : Advisory × SyncOutcome} (h : a.CameThrough f x) :
    (a.reconcile f).notices = notices? x := by
  rw [h.reconciled, Outcome.notices, List.filterMap_append, Work.notices_entries, List.nil_append,
    List.filterMap_map]
  exact List.filterMap_some

end Advisory

end AdvisoryLedger

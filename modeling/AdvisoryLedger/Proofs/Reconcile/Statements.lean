import AdvisoryLedger.Proofs.Database.Transcript
import AdvisoryLedger.Proofs.Database.Shelf
import AdvisoryLedger.Proofs.Reconcile.Stores
import AdvisoryLedger.Proofs.Work

namespace AdvisoryLedger

open Statement
open Dialogue (Held)

namespace Advisory

/-- What is written once the row is known: one where there is none, and the same one where the
report changes it. -/
def writes (reported : Advisory) : Option Row → List Statement
  | none => [.insertAdvisory reported.source reported.vulnId (advisoryValues reported)]
  | some row =>
    match row.advisory, row.id with
    | .ok stored, .ok (some id) =>
      if (stored.update reported).isChanged then
        [.updateAdvisory (advisoryValues (stored.update reported).existing) id]
      else []
    | _, _ => []

/-- All statements of a reconciliation, by the row that is found. -/
def statements (reported : Advisory) (found : Option Row) : List Statement :=
  .lock reported.lockKey :: .selectAdvisory true reported.source reported.vulnId ::
    reported.writes found

example (source : Source) (vulnId : String) : (selectAdvisory true source vulnId).sql =
    "SELECT * FROM vulnerabilities WHERE source = $1 AND vuln_id = $2 FOR UPDATE" := by rfl

/-- The new row, as it is read from what an insertion brought. -/
def insertion (reported : Advisory) : Except Failure (Option Row) → Except Failure Advisory
  | .ok (some row) => row.advisory
  | .ok none => .error (.duplicateAdvisory reported.source reported.vulnId)
  | .error e => .error e

/-- What is said of the row that was found, and what comes of it. -/
inductive Writing (reported : Advisory) :
    Option Row → List Exchange → Except Failure (Advisory × SyncOutcome) → Prop
  | inserted (answer : Except Failure (Option Row))
    (h : ∀ row, answer = .ok (some row) → row.IsStored) :
    Writing reported none
      [⟨.insertAdvisory reported.source reported.vulnId (advisoryValues reported), answer⟩]
      ((reported.insertion answer).map (·, .created))
  | kept {row : Row} {stored : Advisory} {id : Int} (h : row.advisory = .ok stored)
    (hid : row.id = .ok (some id)) (hc : (stored.update reported).isChanged = false) :
    Writing reported (some row) [] (.ok ((stored.update reported).existing, .unchanged))
  | updated {row : Row} {stored : Advisory} {id : Int} (h : row.advisory = .ok stored)
    (hid : row.id = .ok (some id))
    (hc : (stored.update reported).isChanged = true) (answer : Except Failure Json) :
    Writing reported (some row) [⟨.updateAdvisory
      (advisoryValues (stored.update reported).existing) id, answer⟩]
      (answer.map fun _ => ((stored.update reported).existing, .updated))

/-- What is said in the transaction as far as it comes, and what comes of it. -/
inductive Course (reported : Advisory) : List Exchange →
    Except Failure (Advisory × SyncOutcome) → Prop
  | unlocked (e : Failure) : Course reported [⟨.lock reported.lockKey, .error e⟩] (.error e)
  | unread (status : Json) (e : Failure) : Course reported
      [⟨.lock reported.lockKey, .ok status⟩,
        ⟨.selectAdvisory true reported.source reported.vulnId, .error e⟩]
      (.error e)
  | read (status : Json) {found : Option Row} {written : List Exchange}
      {result : Except Failure (Advisory × SyncOutcome)}
      (h : Writing reported found written result) : Course reported
      (⟨.lock reported.lockKey, .ok status⟩ ::
        ⟨.selectAdvisory true reported.source reported.vulnId, .ok found⟩ :: written) result

theorem id_update (reported : Advisory) {row : Row} {stored : Advisory} {id : Int}
    (h : row.advisory = .ok stored)
    (hid : row.id = .ok (some id)) : (stored.update reported).existing.id = some id := by
  have hstored : stored.id = some id := Except.ok.inj ((Row.id_of_advisory h).symm.trans hid)
  exact (updated_update stored reported).id.trans hstored

variable {a : Advisory} {found : Option Row} {t : List Exchange}
    {result : Except Failure (Advisory × SyncOutcome)}

namespace Writing

theorem statements (h : Writing a found t result) : t.map (·.op) = a.writes found := by
  cases h with
  | inserted => rfl
  | kept h hid hc => simp [writes, h, hid, hc]
  | updated h hid hc => simp [writes, h, hid, hc]

theorem isWrite (h : Writing a found t result) : ∀ e ∈ t, e.op.isWrite = true := by
  intro e he
  cases h with
  | inserted =>
    rw [List.mem_singleton.mp he]
    rfl
  | kept => cases he
  | updated =>
    rw [List.mem_singleton.mp he]
    rfl

theorem isOk (h : Writing a found t result) : result.isOk = t.all Exchange.isGranted := by
  cases h with
  | inserted answer h =>
    match answer with
    | .error e => rfl
    | .ok none => rfl
    | .ok (some row) =>
      obtain ⟨stored, id, hs, -⟩ := h row rfl
      simp [insertion, hs, Except.map, Except.isOk, Except.toBool, Exchange.isGranted]
  | kept => rfl
  | updated _ _ _ answer => cases answer <;> rfl

theorem id {x : Advisory × SyncOutcome} (h : Writing a found t result) (hx : result = .ok x) :
    x.1.id ≠ none := by
  cases h with
  | inserted answer h =>
    match answer with
    | .error e => cases hx
    | .ok none => cases hx
    | .ok (some row) =>
      obtain ⟨stored, id, hs, hid⟩ := h row rfl
      have hsome : stored.id = some id := Except.ok.inj ((Row.id_of_advisory hs).symm.trans hid)
      obtain rfl : (stored, SyncOutcome.created) =
        x := by simpa [insertion, hs, Except.map] using hx
      simp [hsome]
  | kept h hid hc =>
    cases hx
    simp [id_update a h hid]
  | updated h hid hc answer =>
    cases answer with
    | error e => cases hx
    | ok status =>
      cases hx
      simp [id_update a h hid]

end Writing

/-- What is left of the transaction once the row was read. -/
def conclusion (reported : Advisory) : Option Advisory → Conversation (Advisory × SyncOutcome)
  | none => (Database.converse true (.insertAdvisory reported)).bind fun row =>
    .done (row, .created)
  | some stored =>
    if (stored.update reported).isChanged then
      (Database.converse true (.updateAdvisory (stored.update reported).existing)).bind fun _ =>
        .done ((stored.update reported).existing, .updated)
    else .done ((stored.update reported).existing, .unchanged)

theorem transaction_eq (a : Advisory) : Database.transaction (some a.lockKey) a.sync =
    (send (.lock a.lockKey)).bind fun _ =>
      (Database.converse true (.getAdvisory a.source a.vulnId)).bind a.conclusion := by
  have hsync : a.sync.expand (Database.converse true) =
      (Database.converse true (.getAdvisory a.source a.vulnId)).bind a.conclusion := by
    simp only [sync, bind, Dialogue.expand_bind, Call.ask, Dialogue.expand_call]
    congr 1
    funext found
    cases found with
    | none =>
      rw [Dialogue.expand_bind, Dialogue.expand_call]
      rfl
    | some stored =>
      simp only [conclusion]
      split
      · rw [Dialogue.expand_bind, Dialogue.expand_call]
        rfl
      · rfl
  simp only [Database.transaction, Option.getD_some, a.lockKey_isEmpty, Bool.false_eq_true,
    if_false, hsync]
  rfl

section held

variable {r r' : Rehearsal}

theorem held_insertAdvisory (a : Advisory) {answer : Except Failure (Option Row)}
    (h : Rehearsal.answer (.insertAdvisory a.source a.vulnId (advisoryValues a)) r = (answer, r')) :
    Held Rehearsal.answer (Database.converse true (.insertAdvisory a)) r
      [⟨.insertAdvisory a.source a.vulnId (advisoryValues a), answer⟩] (a.insertion answer) r' := by
  have hs := Held.call h
  match answer with
  | .error e => exact hs.bind_error
  | .ok none => exact hs.bind_ok (.ofExcept (.error _) r')
  | .ok (some row) => exact hs.bind_ok (.ofExcept row.advisory r')

theorem held_updateAdvisory {a : Advisory} {id : Int} (hid : a.id = some id)
    {answer : Except Failure Json}
    (h : Rehearsal.answer (.updateAdvisory (advisoryValues a) id) r = (answer, r')) :
    Held Rehearsal.answer (Database.converse true (.updateAdvisory a)) r
      [⟨.updateAdvisory (advisoryValues a) id, answer⟩] (answer.map fun _ => ()) r' := by
  simp only [Database.converse, hid]
  exact (Held.call h).map fun _ => ()

theorem held_getAdvisory_none (a : Advisory)
    (h : Rehearsal.answer (.selectAdvisory true a.source a.vulnId) r = (.ok none, r')) :
    Held Rehearsal.answer (Database.converse true (.getAdvisory a.source a.vulnId)) r
      [⟨.selectAdvisory true a.source a.vulnId, .ok none⟩] (.ok none) r' :=
  (Held.call h).bind_ok (.done none r')

theorem held_getAdvisory_some (a : Advisory) {row : Row} {stored : Advisory}
    (hrow : row.advisory = .ok stored)
    (h : Rehearsal.answer (.selectAdvisory true a.source a.vulnId) r = (.ok (some row), r')) :
    Held Rehearsal.answer (Database.converse true (.getAdvisory a.source a.vulnId)) r
      [⟨.selectAdvisory true a.source a.vulnId, .ok (some row)⟩] (.ok (some stored)) r' := by
  have hpresent : Database.presentRow (some row) = some row := by
    cases row with
    | nil => cases hrow
    | cons _ _ => rfl
  have hread : Held Rehearsal.answer (Database.readRow Row.advisory (some row)) r' []
      (row.advisory.map some) r' := (Held.ofExcept row.advisory r').map some
  refine (Held.call h).bind_ok ?_
  rw [hrow] at hread
  rwa [hpresent]

theorem held_conclusion_none (a : Advisory) (h : r.AnswersStored) : ∃ t result r',
    Held Rehearsal.answer (a.conclusion none) r t result r' ∧ Writing a none t result := by
  rcases hinsert : Rehearsal.answer
    (.insertAdvisory a.source a.vulnId (advisoryValues a)) r with ⟨answer, r'⟩
  refine ⟨_, _, r', (a.held_insertAdvisory hinsert).map _, .inserted answer ?_⟩
  rintro row rfl
  exact h.next (congrArg Prod.fst hinsert)

theorem held_conclusion_some (a : Advisory) {row : Row} {stored : Advisory} {id : Int}
    (hrow : row.advisory = .ok stored) (hid : row.id = .ok (some id)) (r : Rehearsal) :
    ∃ t result r',
    Held Rehearsal.answer (a.conclusion (some stored)) r t result r' ∧
      Writing a (some row) t result := by
  cases hc : (stored.update a).isChanged with
  | false =>
    refine ⟨_, _, r, ?_, .kept hrow hid hc⟩
    simp only [conclusion, hc, Bool.false_eq_true, if_false]
    exact .done _ r
  | true =>
    rcases hupdate : Rehearsal.answer
      (.updateAdvisory (advisoryValues (stored.update a).existing) id) r with
      ⟨answer, r'⟩
    refine ⟨_, _, r', ?_, .updated hrow hid hc answer⟩
    simp only [conclusion, hc, if_true]
    have hheld := (held_updateAdvisory (id_update a hrow hid) hupdate).map fun _ =>
      ((stored.update a).existing, SyncOutcome.updated)
    cases answer <;> exact hheld

end held

/-- Whatever is answered, the transaction takes its course. -/
theorem held_transaction (a : Advisory) {r : Rehearsal} (h : r.AnswersStored) : ∃ t result r',
    Held Rehearsal.answer (Database.transaction (some a.lockKey) a.sync) r t result r' ∧
      Course a t result := by
  rw [transaction_eq]
  have h₁ := h.answer (.lock a.lockKey)
  rcases hlock : Rehearsal.answer (.lock a.lockKey) r with ⟨_ | status, r₁⟩
  · exact ⟨_, _, _, (Held.call hlock).bind_error, .unlocked _⟩
  rw [hlock] at h₁
  have h₂ := h₁.answer (.selectAdvisory true a.source a.vulnId)
  rcases hselect : Rehearsal.answer (.selectAdvisory true a.source a.vulnId) r₁ with ⟨_ | found, r₂⟩
  · exact ⟨_, _, _, (Held.call hlock).bind_ok (Held.call hselect).bind_error.bind_error,
      .unread status _⟩
  rw [hselect] at h₂
  cases found with
  | none =>
    obtain ⟨t, result, r', hheld, hwriting⟩ := a.held_conclusion_none h₂
    exact ⟨_, _, r', (Held.call hlock).bind_ok ((a.held_getAdvisory_none hselect).bind_ok hheld),
      .read status hwriting⟩
  | some row =>
    obtain ⟨stored, id, hrow, hid⟩ := h₁.next (congrArg Prod.fst hselect)
    obtain ⟨t, result, r', hheld, hwriting⟩ := a.held_conclusion_some hrow hid r₂
    exact ⟨_, _, r', (Held.call hlock).bind_ok
      ((a.held_getAdvisory_some hrow hselect).bind_ok hheld),
      .read status hwriting⟩

namespace Course

theorem isOk (h : Course a t result) : result.isOk = t.all Exchange.isGranted := by
  cases h with
  | unlocked => rfl
  | unread => rfl
  | read status h => exact h.isOk

theorem id {x : Advisory × SyncOutcome} (h : Course a t result) (hx : result = .ok x) :
    x.1.id ≠ none := by
  cases h with
  | unlocked => cases hx
  | unread => cases hx
  | read status h => exact h.id hx

theorem stated (h : Course a t result) : ∃ found,
    (∀ answer, (⟨.selectAdvisory true a.source a.vulnId, .ok answer⟩ : Exchange) ∈ t →
      answer = found) ∧
      t.map (·.op) <+: a.statements found ∧
      ((∀ e ∈ t, e.answer.isOk) → t.map (·.op) = a.statements found) := by
  cases h with
  | unlocked e =>
    refine ⟨none, by simp, ⟨_, rfl⟩, ?_⟩
    intro h
    cases h _ List.mem_cons_self
  | unread status e =>
    refine ⟨none, by simp, ⟨_, rfl⟩, ?_⟩
    intro h
    cases h _ (List.mem_cons_of_mem _ List.mem_cons_self)
  | @read status found written result h =>
    have hall : written.map (·.op) = a.writes found := h.statements
    refine ⟨found, ?_, ?_, ?_⟩
    · intro answer ha
      cases ha with
      | tail _ ha =>
        cases ha with
        | head => rfl
        -- what comes after the look-up writes
        | tail _ ha => cases h.isWrite _ ha
    · simp [statements, hall]
    · simp [statements, hall]

theorem locked (h : Course a t result) {said rest : List Exchange} {e : Exchange}
    (ht : t = said ++ e :: rest)
    (he : e.op.isWrite = true) : ∃ status, (⟨.lock a.lockKey, .ok status⟩ : Exchange) ∈ said := by
  cases said with
  | nil => cases h <;> cases ht <;> cases he
  | cons x said =>
    cases h with
    | unlocked => simp at ht
    | unread status =>
      cases (List.cons.inj ht).1
      exact ⟨status, List.mem_cons_self⟩
    | read status =>
      cases (List.cons.inj ht).1
      exact ⟨status, List.mem_cons_self⟩

end Course

/-- What goes over the connection in the transaction, each statement with its answer. -/
def exchanges (reported : Advisory) (r : Rehearsal) : List Exchange :=
  (Database.transaction (some reported.lockKey) reported.sync).transcript Rehearsal.answer
    (r.mark .began)

/-- A reconciliation keeps to its statements, and commits where all of them were granted, and only
there. -/
structure Converses (a : Advisory) (r : Rehearsal) : Prop where
  /-- All is said in one transaction, which is ended once. -/
  sent : (a.reconcile r).state.sent =
    (if (a.exchanges r).all Exchange.isGranted then .committed else .rolledBack) ::
    ((a.exchanges r).map fun e => .statement e.op).reverse ++ .began :: r.sent
  /-- It says what the row that is found calls for as far as it comes, and all of it where no
  statement fails. -/
  stated : ∃ found,
    (∀ answer, (⟨.selectAdvisory true a.source a.vulnId, .ok answer⟩ : Exchange) ∈ a.exchanges r →
      answer = found) ∧
      (a.exchanges r).map (·.op) <+: a.statements found ∧
      ((∀ e ∈ a.exchanges r, e.answer.isOk) → (a.exchanges r).map (·.op) = a.statements found)
  /-- Before anything is written, the lock was taken. -/
  locked : ∀ said e rest, a.exchanges r = said ++ e :: rest → e.op.isWrite = true →
    ∃ status, (⟨.lock a.lockKey, .ok status⟩ : Exchange) ∈ said
  result : (a.reconcile r).result.isOk = (a.exchanges r).all Exchange.isGranted
  /-- The index does not hear of what was rolled back. -/
  silent : (a.exchanges r).all Exchange.isGranted = false → (a.reconcile r).notices = []

/-- Whatever row of an advisory or failure a statement is answered with, a reconciliation converses
in this way. -/
theorem reconcile_converses (a : Advisory) (r : Rehearsal) (h : r.AnswersStored) :
    Converses a r := by
  obtain ⟨t, result, r', hheld, hcourse⟩ :=
    a.held_transaction (show (r.mark .began).AnswersStored from h)
  obtain rfl : a.exchanges r = t := hheld.transcript
  let x := Store.transact (some a.lockKey) a.sync r
  have hx : x.result = result := (Rehearsal.result_within _ r).trans hheld.result
  have hsent : x.state.sent = (if result.isOk then .committed else .rolledBack) ::
      ((a.exchanges r).map fun e => .statement e.op).reverse ++ .began :: r.sent :=
    hx ▸ Rehearsal.sent_within _ r
  cases result with
  | error e =>
    have hreconcile := reconcile_of_failure hx
    refine ⟨?_, hcourse.stated, fun _ _ _ => hcourse.locked, ?_, ?_⟩
    · rw [hreconcile, ← hcourse.isOk]
      exact hsent
    · rw [hreconcile, ← hcourse.isOk]
    · intro _
      rw [hreconcile]
      exact Work.notices_entries x.entries
  | ok y =>
    obtain ⟨stored, outcome⟩ := y
    obtain ⟨hr, hs⟩ := reconcile_of_transact hx (hcourse.id rfl)
    refine ⟨?_, hcourse.stated, fun _ _ _ => hcourse.locked, ?_, ?_⟩
    · rw [hs, ← hcourse.isOk]
      exact hsent
    · rw [hr, ← hcourse.isOk]
    · intro hfail
      rw [← hcourse.isOk] at hfail
      cases hfail

/-- The row is there and differs, the database breaks off at the update, and the transaction is
rolled back. -/
theorem reconcile_converses_brokenOff :
    let row := Shelf.rowAt 7 (.nvd, "CVE-1") (advisoryValues { vulnId := "CVE-1", title := some "a" })
    let r : Rehearsal := { rows := [.ok (some row)], statuses := [.ok .null, .error (.broken "lost")] }
    let a : Advisory := { vulnId := "CVE-1", title := some "b" }
    (a.exchanges r).map (fun e => e.answer.isOk) = [true, true, false] ∧
      r.AnswersStored ∧ Converses a r := by
  intro row r a
  have hr : r.AnswersStored := by
    intro row' hrow
    obtain rfl : row' = row := by simpa [r] using hrow
    have hstates : row.States { vulnId := "CVE-1", title := some "a" } 7 :=
      Shelf.rowAt_holds 7 (.nvd, "CVE-1") (Database.length_advisoryValues _)
    exact hstates.isStored
  exact ⟨by decide +kernel, hr, reconcile_converses a r hr⟩

end Advisory

end AdvisoryLedger

import AdvisoryLedger.Database.Rehearsal
import AdvisoryLedger.Proofs.Database.Row

namespace AdvisoryLedger

namespace Dialogue

variable {Op Op' : Type} {Reply : Op → Type} {Reply' : Op' → Type} {α β σ : Type}

section expand

variable (f : (op : Op) → Dialogue Op' Reply' (Reply op))

theorem answered_bind (d : Dialogue Op' Reply' α)
    (k : Except Failure α → Dialogue Op' Reply' β) {γ : Type} (g : β → Dialogue Op' Reply' γ) :
    (expand.answered d k).bind g = expand.answered d fun x => (k x).bind g := by
  induction d with
  | done => rfl
  | fail => rfl
  | note entry rest ih => simp [expand.answered, bind, ih]
  | ask op next ih => simp [expand.answered, bind, ih]

theorem expand_bind (d : Dialogue Op Reply α) (g : α → Dialogue Op Reply β) :
    (d.bind g).expand f = (d.expand f).bind fun a => (g a).expand f := by
  induction d with
  | done => rfl
  | fail => rfl
  | note entry rest ih => simp [expand, bind, ih]
  | ask op next ih => simp [expand, bind, answered_bind, ih]

theorem expand_call (op : Op) : (call op : Dialogue Op Reply (Reply op)).expand f = f op := by
  have h (d : Dialogue Op' Reply' (Reply op)) :
      expand.answered d (fun x => (ofExcept x : Dialogue Op Reply (Reply op)).expand f) = d := by
    induction d with
    | done => rfl
    | fail => rfl
    | note entry rest ih => simp [expand.answered, ih]
    | ask op next ih => simp [expand.answered, ih]
  exact h (f op)

end expand

/-- An operation beside what was answered. -/
structure Exchange (Reply : Op → Type) where
  op : Op
  answer : Except Failure (Reply op)

variable (answer : (op : Op) → σ → Except Failure (Reply op) × σ)

/-- What is asked and answered when the dialogue is held. -/
def transcript : Dialogue Op Reply α → σ → List (Exchange Reply)
  | .done _, _ => []
  | .fail _, _ => []
  | .note _ rest, s => rest.transcript s
  | .ask op next, s => ⟨op, (answer op s).1⟩ :: (next (answer op s).1).transcript (answer op s).2

theorem transcript_bind (d : Dialogue Op Reply α) (f : α → Dialogue Op Reply β) (s : σ) :
    (d.bind f).transcript answer s = d.transcript answer s ++
      match (d.run answer s).result with
      | .ok a => (f a).transcript answer (d.run answer s).state
      | .error _ => [] := by
  induction d generalizing s with
  | done => rfl
  | fail => rfl
  | note entry rest ih => exact ih s
  | ask op next ih => exact congrArg (_ :: ·) (ih _ _)

/-- The dialogue says this when it is held, comes to that, and leaves the other party in a state. -/
structure Held (d : Dialogue Op Reply α) (s : σ) (t : List (Exchange Reply))
    (result : Except Failure α) (s' : σ) :
    Prop where
  transcript : d.transcript answer s = t
  result : (d.run answer s).result = result
  state : (d.run answer s).state = s'

namespace Held

variable {answer} {d : Dialogue Op Reply α} {f : α → Dialogue Op Reply β} {s s' s'' : σ}
  {t t' : List (Exchange Reply)}

theorem done (a : α) (s : σ) : Held answer (.done a) s [] (.ok a) s := ⟨rfl, rfl, rfl⟩

theorem ofExcept (x : Except Failure α) (s : σ) :
    Held answer (ofExcept x : Dialogue Op Reply α) s [] x s := by
  cases x <;> exact ⟨rfl, rfl, rfl⟩

theorem call {op : Op} {x : Except Failure (Reply op)} (h : answer op s = (x, s')) :
    Held answer (call op) s [⟨op, x⟩] x s' := by
  cases x <;> constructor <;> simp [Dialogue.call, Dialogue.transcript, run, Dialogue.ofExcept, h]

theorem bind_ok {a : α} {x : Except Failure β} (h : Held answer d s t (.ok a) s')
    (hf : Held answer (f a) s' t' x s'') : Held answer (d.bind f) s (t ++ t') x s'' := by
  constructor
  · simp only [transcript_bind, h.transcript, h.result, h.state, hf.transcript]
  · simp only [run_bind, h.result, h.state, hf.result]
  · simp only [run_bind, h.result, h.state, hf.state]

theorem bind_error {e : Failure} (h : Held answer d s t (.error e) s') :
    Held answer (d.bind f) s t (.error e) s' := by
  constructor
  · simp only [transcript_bind, h.transcript, h.result, List.append_nil]
  · simp only [run_bind, h.result]
  · simp only [run_bind, h.result, h.state]

theorem map {x : Except Failure α} (h : Held answer d s t x s') (g : α → β) :
    Held answer (d.bind fun a => .done (g a)) s t (x.map g) s' := by
  cases x with
  | error e => exact h.bind_error
  | ok a => exact List.append_nil t ▸ h.bind_ok (done (g a) s')

end Held

end Dialogue

namespace Statement

/-- A statement beside what the database answered. -/
abbrev Exchange := Dialogue.Exchange Statement.Reply

/-- The statement was carried out, and an insertion of an advisory brought its row. -/
def Exchange.isGranted : Exchange → Bool
  | ⟨.insertAdvisory .., .ok none⟩ => false
  | ⟨_, .ok _⟩ => true
  | ⟨_, .error _⟩ => false

/-- The statement changes what the database holds. -/
def isWrite : Statement → Bool
  | .lock _ | .selectAdvisory .. | .selectRanges _ | .selectAttributions .. | .findRange _ | .isAttributed ..
  | .selectConfig .. => false
  | .insertAdvisory .. | .updateAdvisory .. | .insertRange _ | .insertAttribution _ | .touchAttributions ..
  | .deleteAttributions .. | .retainRanges .. | .associateRanges .. | .putConfig .. | .define _ =>
    true

end Statement

namespace Rehearsal

variable {α : Type} {r : Rehearsal}

theorem sent_answer (s : Statement) (r : Rehearsal) :
    (answer s r).2.sent = .statement s :: r.sent := by
  cases s <;> rfl

theorem sent_run (c : Conversation α) (r : Rehearsal) :
    (c.run answer r).state.sent = ((c.transcript answer r).map fun e => .statement e.op).reverse ++
      r.sent := by
  induction c generalizing r with
  | done => rfl
  | fail => rfl
  | note entry rest ih => exact ih r
  | ask s next ih =>
    rw [Dialogue.run, ih, sent_answer, Dialogue.transcript, List.map_cons, List.reverse_cons,
      List.append_assoc]
    rfl

theorem result_within (c : Conversation α) (r : Rehearsal) :
    (within c r).result = (c.run answer (r.mark .began)).result := by
  rw [within]
  cases hc : (c.run answer (r.mark .began)).result <;> rfl

/-- A transaction is begun, says what its conversation does, and is ended once, by how that came
out. -/
theorem sent_within (c : Conversation α) (r : Rehearsal) : (within c r).state.sent =
    (if (within c r).result.isOk then .committed else .rolledBack) ::
      ((c.transcript answer (r.mark .began)).map fun e => .statement e.op).reverse ++
        .began :: r.sent := by
  have h := sent_run c (r.mark .began)
  cases hc : (c.run answer (r.mark .began)).result with
  | ok a =>
    simp only [within, hc]
    exact congrArg (Sent.committed :: ·) h
  | error e =>
    simp only [within, hc]
    exact congrArg (Sent.rolledBack :: ·) h

/-- Where a row is answered, it is one of an advisory. -/
def AnswersStored (r : Rehearsal) : Prop := ∀ row, .ok (some row) ∈ r.rows → row.IsStored

namespace AnswersStored

variable (h : r.AnswersStored)

include h

theorem answer (s : Statement) : (answer s r).2.AnswersStored := by
  have hrows : (Rehearsal.answer s r).2.rows = r.rows ∨
      (Rehearsal.answer s r).2.rows = (next none r.rows).2 := by
    cases s <;> first | exact .inl rfl | exact .inr rfl
  rcases hrows with hrows | hrows
  · rwa [AnswersStored, hrows]
  · rw [AnswersStored, hrows]
    intro row hrow
    cases hr : r.rows with
    | nil =>
      rw [hr] at hrow
      cases hrow
    | cons x rest =>
      rw [hr] at hrow
      exact h row (hr ▸ List.mem_cons_of_mem x hrow)

theorem next {row : Row} (hn : (next none r.rows).1 = .ok (some row)) : row.IsStored := by
  cases hr : r.rows with
  | nil =>
    rw [hr] at hn
    cases hn
  | cons x rest =>
    rw [hr] at hn
    exact h row (hr ▸ hn ▸ List.mem_cons_self)

end AnswersStored

end Rehearsal

end AdvisoryLedger

import AdvisoryLedger.Proofs.Ledger.Rollback

namespace AdvisoryLedger

variable {α β : Type}

namespace Ledger

/-- Held with the ledger, the program ends well in `a` and leaves `l'`. -/
def Gives : SessionProgram α → Ledger → α → Ledger → Prop
  | .done b, l, a, l' => b = a ∧ l = l'
  | .fail _, _, _, _ => False
  | .note _ rest, l, a, l' => Gives rest l a l'
  | .ask call next, l, a, l' =>
    match l.perform call with
    | .ok p => Gives (next (.ok p.reply)) p.ledger a l'
    | .error e => Gives (next (.error e)) l a l'

variable {l l' : Ledger} {a : α} {b : β}

theorem gives_pure {c : α} : Gives (pure c) l a l' ↔ c = a ∧ l = l' := Iff.rfl

theorem gives_log {entry : LogEntry} {u : Unit} : Gives (Dialogue.log entry) l u l' ↔ l = l' := by
  simp [Dialogue.log, Gives]

theorem gives_bind (d : SessionProgram α) (f : α → SessionProgram β) :
    Gives (d >>= f) l b l' ↔ ∃ a m, Gives d l a m ∧ Gives (f a) m b l' := by
  change Gives (d.bind f) l b l' ↔ _
  induction d generalizing l with
  | done c => simp [Dialogue.bind, Gives]
  | fail e => simp [Dialogue.bind, Gives]
  | note entry rest ih => exact ih
  | ask call next ih =>
    simp only [Dialogue.bind, Gives]
    cases l.perform call with
    | error e => exact ih (.error e)
    | ok p => exact ih (.ok p.reply)

theorem gives_ask {call : Call} {r : call.Reply} :
    Gives call.ask l r l' ↔ ∃ undo, l.perform call = .ok ⟨r, l', undo⟩ := by
  simp only [Call.ask, Dialogue.call, Gives]
  cases h : l.perform call with
  | error e => simp [Dialogue.ofExcept, Gives]
  | ok p =>
    obtain ⟨reply, m, undo⟩ := p
    simp [Dialogue.ofExcept, Gives]

theorem gives_perform {call : Call} {p : Performed call.Reply} (h : l.perform call = .ok p) :
    Gives call.ask l p.reply p.ledger := gives_ask.mpr ⟨p.undo, h⟩

theorem gives_ofExcept {x : Except Failure α} : Gives (Dialogue.ofExcept x) l a l' ↔ x = .ok a ∧
    l = l' := by
  cases x <;> simp [Dialogue.ofExcept, Gives]

theorem Gives.unique {program : SessionProgram α} {c : α} {m : Ledger} (h : Gives program l a l')
    (h' : Gives program l c m) : a = c ∧ l' = m := by
  induction program generalizing l with
  | done d =>
    obtain ⟨rfl, rfl⟩ := h
    exact h'
  | fail e => exact h.elim
  | note entry rest ih => exact ih h h'
  | ask call next ih =>
    simp only [Gives] at h h'
    cases hp : l.perform call with
    | error e => exact ih _ (by simpa [hp] using h) (by simpa [hp] using h')
    | ok p => exact ih _ (by simpa [hp] using h) (by simpa [hp] using h')

end Ledger

namespace Dialogue

variable {Op : Type} {Reply : Op → Type}

def Fails : Dialogue Op Reply α → Prop
  | .fail _ => True
  | .note _ rest => rest.Fails
  | _ => False

/-- The dialogue fails as soon as an operation does. -/
def Strict : Dialogue Op Reply α → Prop
  | .done _ => True
  | .fail _ => True
  | .note _ rest => rest.Strict
  | .ask _ next => (∀ e, (next (.error e)).Fails) ∧ ∀ r, (next (.ok r)).Strict

theorem Fails.bind {d : Dialogue Op Reply α} (h : d.Fails) (f : α → Dialogue Op Reply β) :
    (d >>= f).Fails := by
  change (d.bind f).Fails
  induction d with
  | done => exact h.elim
  | fail => trivial
  | note entry rest ih => exact ih h
  | ask => exact h.elim

theorem Strict.bind {d : Dialogue Op Reply α} (h : d.Strict) {f : α → Dialogue Op Reply β}
    (hf : ∀ a, (f a).Strict) : (d >>= f).Strict := by
  change (d.bind f).Strict
  induction d with
  | done a => exact hf a
  | fail => trivial
  | note entry rest ih => exact ih h
  | ask op next ih =>
    refine ⟨?_, ?_⟩
    · intro e
      exact (h.1 e).bind f
    · intro r
      exact ih (.ok r) (h.2 r)

theorem Fails.run {d : Dialogue Op Reply α} (h : d.Fails) {σ : Type}
    (answer : (op : Op) → σ → Except Failure (Reply op) × σ) (s : σ) :
    ∃ e, (d.run answer s).result = .error e := by
  induction d with
  | done => exact h.elim
  | fail e => exact ⟨e, rfl⟩
  | note entry rest ih => exact ih h
  | ask => exact h.elim

end Dialogue

theorem Call.strict_ask (call : Call) : call.ask.Strict :=
  ⟨fun _ => trivial, fun _ => trivial⟩

namespace FaultyLedger

theorem count_ledger (s : FaultyLedger) (kinds : List Call.Kind) :
    (s.count kinds).2.ledger = s.ledger ∧ (s.count kinds).2.faults = s.faults := by
  induction kinds generalizing s with
  | nil => exact ⟨rfl, rfl⟩
  | cons k rest ih =>
    rw [count]
    split
    · exact ⟨rfl, rfl⟩
    · exact ih _

theorem count_none {s : FaultyLedger} (h : s.faults = .none) (kinds : List Call.Kind) :
    s.count kinds = (none, { s with made := kinds.reverse ++ s.made }) := by
  induction kinds generalizing s with
  | nil => rfl
  | cons k rest ih =>
    have hf : s.faults k (List.count k (k :: s.made)) = none := by rw [h]; rfl
    simp only [count, hf]
    rw [ih (s := { s with made := k :: s.made }) h, List.reverse_cons, List.append_assoc]
    rfl

/-- The answer of the ledger itself, or a failure that changes nothing. -/
theorem answer_cases (call : Call) (t : Open) :
    (∃ p, t.store.ledger.perform call = .ok p ∧ (answer call t).1 = .ok p.reply ∧
      (answer call t).2.store.ledger = p.ledger ∧ (answer call t).2.undo = p.undo ++ t.undo) ∨
    ∃ e, (answer call t).1 = .error e ∧ (answer call t).2.store.ledger = t.store.ledger ∧
      (answer call t).2.undo = t.undo := by
  cases hc : t.store.count call.involved with
  | mk fault store =>
    have hl : store.ledger = t.store.ledger := by
      have h := (t.store.count_ledger call.involved).1
      rwa [hc] at h
    cases fault with
    | some e => exact .inr ⟨e, by simp [answer, hc, hl]⟩
    | none =>
      cases hp : t.store.ledger.perform call with
      | error e => exact .inr ⟨e, by simp [answer, hc, hl, hp]⟩
      | ok p => exact .inl ⟨p, rfl, by simp [answer, hc, hl, hp]⟩

/-- Without faults a request does to the tables what it does to the ledger alone. -/
theorem answer_none {t : Open} (h : t.store.faults = .none) (call : Call) :
    (answer call t).2.store.faults = .none ∧
    ((∃ p, t.store.ledger.perform call = .ok p ∧ (answer call t).1 = .ok p.reply ∧
      (answer call t).2.store.ledger = p.ledger) ∨
    ∃ e, t.store.ledger.perform call = .error e ∧ (answer call t).1 = .error e ∧
      (answer call t).2.store.ledger = t.store.ledger) := by
  cases hc : t.store.count call.involved with
  | mk fault store =>
    obtain ⟨hl, hf⟩ : store.ledger = t.store.ledger ∧ store.faults = t.store.faults := by
      have hs := t.store.count_ledger call.involved
      rwa [hc] at hs
    obtain rfl : fault = none := by
      have hn := congrArg Prod.fst (count_none h call.involved)
      rwa [hc] at hn
    cases hp : t.store.ledger.perform call with
    | error e =>
      exact ⟨by simp [answer, hc, hl, hp, hf, h], .inr ⟨e, rfl, by simp [answer, hc, hl, hp]⟩⟩
    | ok p =>
      exact ⟨by simp [answer, hc, hl, hp, hf, h], .inl ⟨p, rfl, by simp [answer, hc, hl, hp]⟩⟩

/-- What a transaction keeps while it goes on: the ledger is well kept, ids are not given back, and
the way back leads to where it began. -/
structure Open.LeadsBack (t t' : Open) : Prop where
  wellKept : t'.store.ledger.WellKept
  nextId_le : t.store.ledger.nextId ≤ t'.store.ledger.nextId
  agrees : (t'.store.ledger.rollback t'.undo).Agrees (t.store.ledger.rollback t.undo)

theorem answer_leadsBack {t : Open} (ht : t.store.ledger.WellKept) (call : Call) :
    t.LeadsBack (answer call t).2 := by
  rcases answer_cases call t with ⟨p, hp, _, hl, hu⟩ | ⟨e, _, hl, hu⟩
  · have hr := Ledger.perform_revocable ht hp
    refine ⟨hl.symm ▸ hr.wellKept, hl.symm ▸ hr.nextId_le, ?_⟩
    rw [hl, hu, Ledger.rollback_append]
    exact hr.agrees.rollback t.undo
  · refine ⟨hl.symm ▸ ht, Int.le_of_eq (congrArg Ledger.nextId hl.symm), ?_⟩
    rw [hl, hu]
    exact Ledger.Agrees.refl _

theorem run_leadsBack (program : SessionProgram α) {t : Open} (ht : t.store.ledger.WellKept) :
    t.LeadsBack (program.run answer t).state := by
  induction program generalizing t with
  | done a => exact ⟨ht, Int.le_refl _, Ledger.Agrees.refl _⟩
  | fail e => exact ⟨ht, Int.le_refl _, Ledger.Agrees.refl _⟩
  | note entry rest ih => exact ih ht
  | ask call next ih =>
    have h := answer_leadsBack ht call
    have h' := ih (answer call t).1 h.wellKept
    exact ⟨h'.wellKept, Int.le_trans h.nextId_le h'.nextId_le, h'.agrees.trans h.agrees⟩

theorem gives_of_run {program : SessionProgram α} (hp : program.Strict) {t : Open} {a : α}
    (h : (program.run answer t).result = .ok a) :
    Ledger.Gives program t.store.ledger a (program.run answer t).state.store.ledger := by
  induction program generalizing t with
  | done b => exact ⟨Except.ok.inj h, rfl⟩
  | fail e => cases h
  | note entry rest ih => exact ih hp h
  | ask call next ih =>
    have hr : ((next (answer call t).1).run answer (answer call t).2).result = .ok a := h
    change Ledger.Gives _ _ a
      ((next (answer call t).1).run answer (answer call t).2).state.store.ledger
    rcases answer_cases call t with ⟨p, hq, he, hl, _⟩ | ⟨e, he, _, _⟩
    · rw [he] at hr ⊢
      simp only [Ledger.Gives, hq]
      exact hl ▸ ih (.ok p.reply) (hp.2 p.reply) hr
    · rw [he] at hr
      obtain ⟨e', hf⟩ := (hp.1 e).run answer (answer call t).2
      rw [hf] at hr
      cases hr

theorem run_of_gives {program : SessionProgram α} {t : Open} (ht : t.store.faults = .none) {a : α}
    {l' : Ledger} (h : Ledger.Gives program t.store.ledger a l') :
    (program.run answer t).result = .ok a ∧ (program.run answer t).state.store.ledger = l' ∧
      (program.run answer t).state.store.faults = .none := by
  induction program generalizing t with
  | done b => exact ⟨congrArg Except.ok h.1, h.2, ht⟩
  | fail e => exact h.elim
  | note entry rest ih => exact ih ht h
  | ask call next ih =>
    have hn := answer_none ht call
    change ((next (answer call t).1).run answer (answer call t).2).result = .ok a ∧
      ((next (answer call t).1).run answer (answer call t).2).state.store.ledger = l' ∧
      ((next (answer call t).1).run answer (answer call t).2).state.store.faults = .none
    rcases hn.2 with ⟨p, hq, he, hl⟩ | ⟨e, hq, he, hl⟩
    · simp only [Ledger.Gives, hq] at h
      rw [he]
      exact ih (.ok p.reply) hn.1 (hl ▸ h)
    · simp only [Ledger.Gives, hq] at h
      rw [he]
      exact ih (.error e) hn.1 (hl ▸ h)

variable {program : SessionProgram α} {s : FaultyLedger}

theorem transact_of_gives (hs : s.faults = .none) {a : α} {l' : Ledger}
    (h : Ledger.Gives program s.ledger a l') :
    (s.transact program).result = .ok a ∧ (s.transact program).state.ledger = l' ∧
      (s.transact program).state.faults = .none := by
  obtain ⟨hr, hl, hf⟩ := run_of_gives (t := ⟨s, []⟩) hs h
  simp only [transact, hr]
  exact ⟨trivial, hl, hf⟩

theorem gives_of_transact (hp : program.Strict) {a : α} (h : (s.transact program).result = .ok a) :
    Ledger.Gives program s.ledger a (s.transact program).state.ledger := by
  cases hr : (program.run answer ⟨s, []⟩).result with
  | error e => simp [transact, hr] at h
  | ok b =>
    simp only [transact, hr] at h ⊢
    exact gives_of_run hp (hr.trans h)

theorem transact_agrees (hs : s.ledger.WellKept) {e : Failure}
    (h : (s.transact program).result = .error e) :
    (s.transact program).state.ledger.Agrees s.ledger := by
  cases hr : (program.run answer ⟨s, []⟩).result with
  | error e' =>
    simp only [transact, hr]
    exact (run_leadsBack program (t := ⟨s, []⟩) hs).agrees
  | ok b => simp [transact, hr] at h

theorem answer_faults (call : Call) (t : Open) :
    (answer call t).2.store.faults = t.store.faults := by
  have hcount := (t.store.count_ledger call.involved).2
  unfold answer
  cases hc : t.store.count call.involved with
  | mk fault store =>
    rw [hc] at hcount
    cases fault with
    | some e => exact hcount
    | none => cases hp : store.ledger.perform call <;> simpa [hp] using hcount

theorem run_faults (program : SessionProgram α) (t : Open) :
    (program.run answer t).state.store.faults = t.store.faults := by
  induction program generalizing t with
  | done a => rfl
  | fail e => rfl
  | note entry rest ih => exact ih t
  | ask call next ih => exact (ih _ _).trans (answer_faults call t)

theorem transact_faults (program : SessionProgram α) (s : FaultyLedger) :
    (s.transact program).state.faults = s.faults := by
  have h := run_faults program ⟨s, []⟩
  unfold transact
  dsimp only
  split
  · exact h
  · exact h

/-- Every transaction, whether or not it ends well, leaves a well-kept ledger and gives no id
back. -/
theorem transact_wellKept (program : SessionProgram α) (hs : s.ledger.WellKept) :
    (s.transact program).state.ledger.WellKept ∧
      s.ledger.nextId ≤ (s.transact program).state.ledger.nextId := by
  have h := run_leadsBack program (t := ⟨s, []⟩) hs
  cases hr : (program.run answer ⟨s, []⟩).result with
  | ok a =>
    simp only [transact, hr]
    exact ⟨h.wellKept, h.nextId_le⟩
  | error e =>
    obtain ⟨hd, hn⟩ := h.wellKept.distinct.rollback (program.run answer ⟨s, []⟩).state.undo
    have hle := hn.symm ▸ h.nextId_le
    simp only [transact, hr]
    exact ⟨hs.of_agrees h.agrees hd hle, hle⟩

end FaultyLedger

end AdvisoryLedger

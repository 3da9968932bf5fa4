import AdvisoryLedger.Work

namespace AdvisoryLedger

def Outcome.notices {σ α : Type} (x : Outcome σ α) : List IndexNotice :=
  x.traces.filterMap Trace.notice?

namespace Work

variable {σ α β τ : Type} {w : Work σ α} {f : α → Work σ β} {s : σ}

theorem bind_of_ok {a : α} (h : (w s).result = .ok a) :
    (w >>= f) s = { f a (w s).state with traces := (w s).traces ++ (f a (w s).state).traces } := by
  change Work.bind w f s = _
  simp only [Work.bind, h]

theorem bind_of_error {e : Failure} (h : (w s).result = .error e) :
    (w >>= f) s = ⟨.error e, (w s).state, (w s).traces⟩ := by
  change Work.bind w f s = _
  simp only [Work.bind, h]

theorem result_bind_ok {b : β} (h : ((w >>= f) s).result = .ok b) :
    ∃ a, (w s).result = .ok a ∧ (f a (w s).state).result = .ok b := by
  cases hw : (w s).result with
  | error e =>
    rw [bind_of_error hw] at h
    cases h
  | ok a =>
    rw [bind_of_ok hw] at h
    exact ⟨a, rfl, h⟩

theorem log_bind (entry : LogEntry) (f : Unit → Work σ β) (s : σ) :
    (log entry >>= f) s = { f () s with traces := .entry entry :: (f () s).traces } := rfl

theorem attempt_bind (w : Work σ α) (f : Except Failure α → Work σ β) (s : σ) :
    (attempt w >>= f) s =
    { f (w s).result (w s).state with traces := (w s).traces ++ (f (w s).result (w s).state).traces } := rfl

theorem notices_attempt_bind (w : Work σ α) (f : Except Failure α → Work σ β) (s : σ) :
    ((attempt w >>= f) s).notices = (w s).notices ++ (f (w s).result (w s).state).notices :=
  List.filterMap_append

theorem notices_bind_of_ok {a : α} (h : (w s).result = .ok a) :
    ((w >>= f) s).notices = (w s).notices ++ (f a (w s).state).notices := by
  rw [bind_of_ok h]
  exact List.filterMap_append

theorem notices_entries (entries : List LogEntry) :
    (entries.map Trace.entry).filterMap Trace.notice? = [] := by
  induction entries with
  | nil => rfl
  | cons entry rest ih => exact ih

theorem result_ofNoted (x : Noted α) (s : σ) : (ofNoted x s).result = x.result := rfl

theorem notices_ofNoted (x : Noted α) (s : σ) : (ofNoted x s).notices = [] :=
  notices_entries x.entries

/-- The work leaves a part of the store alone, and tells the index only what is of a kind. -/
structure Bounded (part : σ → τ) (P : IndexNotice → Prop) (w : Work σ α) : Prop where
  part : ∀ s, part (w s).state = part s
  notices : ∀ s, ∀ n ∈ (w s).notices, P n

namespace Bounded

variable {part : σ → τ} {P : IndexNotice → Prop}

theorem pure (a : α) : Bounded part P (pure a : Work σ α) :=
  ⟨fun _ => rfl, by simp [Outcome.notices, Work.pure]⟩

theorem fail (e : Failure) : Bounded part P (fail e : Work σ α) :=
  ⟨fun _ => rfl, by simp [Outcome.notices, Work.fail]⟩

theorem log (entry : LogEntry) : Bounded part P (log entry : Work σ Unit) :=
  ⟨fun _ => rfl, by simp [Outcome.notices, Work.log, Trace.notice?]⟩

theorem announce {n : IndexNotice} (h : P n) : Bounded part P (announce n : Work σ Unit) :=
  ⟨fun _ => rfl, by simp [Outcome.notices, Work.announce, Trace.notice?, h]⟩

theorem ofNoted (x : Noted α) : Bounded part P (ofNoted x : Work σ α) := by
  refine ⟨fun _ => rfl, ?_⟩
  intro s n hn
  rw [notices_ofNoted] at hn
  cases hn

theorem transact [Store σ] {lock : Option String} {program : SessionProgram α}
    (h : ∀ s, part (Store.transact lock program s).state = part s) :
    Bounded part P (transact lock program : Work σ α) := by
  refine ⟨h, ?_⟩
  intro s n hn
  simp only [Outcome.notices, Work.transact, notices_entries] at hn
  cases hn

theorem notices_eq_nil {part : σ → τ} (h : Bounded part (fun _ => False) w) (s : σ) :
    (w s).notices = [] :=
  List.eq_nil_iff_forall_not_mem.mpr (h.notices s)

theorem attempt (h : Bounded part P w) : Bounded part P (attempt w) := ⟨h.part, h.notices⟩

theorem bind (h : Bounded part P w) (hf : ∀ a, Bounded part P (f a)) :
    Bounded part P (w >>= f) := by
  constructor
  · intro s
    cases hw : (w s).result with
    | error e =>
      rw [bind_of_error hw]
      exact h.part s
    | ok a =>
      rw [bind_of_ok hw]
      exact ((hf a).part _).trans (h.part s)
  · intro s n hn
    cases hw : (w s).result with
    | error e =>
      rw [bind_of_error hw] at hn
      exact h.notices s n hn
    | ok a =>
      rw [bind_of_ok hw, Outcome.notices, List.filterMap_append] at hn
      exact (List.mem_append.mp hn).elim (h.notices s n) ((hf a).notices _ n)

end Bounded

/-- With related stores the work comes to the same, and leaves related stores. -/
structure Related (R : σ → σ → Prop) (x y : Outcome σ α) : Prop where
  result : x.result = y.result
  traces : x.traces = y.traces
  state : R x.state y.state

def Respects (R : σ → σ → Prop) (w : Work σ α) : Prop := ∀ s t, R s t → Related R (w s) (w t)

namespace Respects

variable {R : σ → σ → Prop}

theorem pure (a : α) : Respects R (pure a : Work σ α) := fun _ _ h => ⟨rfl, rfl, h⟩

theorem fail (e : Failure) : Respects R (fail e : Work σ α) := fun _ _ h => ⟨rfl, rfl, h⟩

theorem log (entry : LogEntry) : Respects R (log entry : Work σ Unit) := fun _ _ h => ⟨rfl, rfl, h⟩

theorem announce (n : IndexNotice) : Respects R (announce n : Work σ Unit) :=
  fun _ _ h => ⟨rfl, rfl, h⟩

theorem ofNoted (x : Noted α) : Respects R (ofNoted x : Work σ α) := fun _ _ h => ⟨rfl, rfl, h⟩

theorem attempt (h : Respects R w) : Respects R (attempt w) := fun s t hr =>
  ⟨congrArg Except.ok (h s t hr).result, (h s t hr).traces, (h s t hr).state⟩

theorem bind (h : Respects R w) (hf : ∀ a, Respects R (f a)) : Respects R (w >>= f) := by
  intro s t hr
  have hw := h s t hr
  cases ht : (w t).result with
  | error e =>
    rw [bind_of_error ht, bind_of_error (hw.result.trans ht)]
    exact ⟨rfl, hw.traces, hw.state⟩
  | ok a =>
    have hnext := hf a _ _ hw.state
    rw [bind_of_ok ht, bind_of_ok (hw.result.trans ht)]
    refine ⟨hnext.result, ?_, hnext.state⟩
    dsimp only
    rw [hw.traces, hnext.traces]

end Respects

end Work

end AdvisoryLedger

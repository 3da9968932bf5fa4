import AdvisoryLedger.Proofs.Ledger.Config
import AdvisoryLedger.Proofs.Reconcile.Isolation
import AdvisoryLedger.Proofs.Work
import AdvisoryLedger.Refresh.Synchronize

namespace AdvisoryLedger

open Work

/-- The notice is about an advisory that is new or has changed. -/
def IndexNotice.IsChange (n : IndexNotice) : Prop := n.action = .create ∨ n.action = .update

theorem Call.IsOnRanges.isOnRows {v : Int} {s : Source} {call : Call} (h : call.IsOnRanges v s) :
    call.IsOnRows := by
  cases call <;> first | exact h.elim | exact ⟨by simp [kind], by simp [kind]⟩

theorem RangeSync.program_onRows (vulnId : String) (v : Int) (reported : List AffectedRange)
    (s : Source) (t : Moment) : (program vulnId v reported s t).Asks Call.IsOnRows :=
  (program_onRanges vulnId reported).asks.mono fun _ => Call.IsOnRanges.isOnRows

theorem Call.asks_ask {P : Call → Prop} {call : Call} (h : P call) : call.ask.Asks P :=
  (Call.confined_ask h).asks

theorem Advisory.sync_onRows (reported : Advisory) : reported.sync.Asks Call.IsOnRows := by
  refine (Call.asks_ask ⟨by simp [Call.kind], by simp [Call.kind]⟩).bind fun found => ?_
  cases found with
  | none => exact (Call.asks_ask ⟨by simp [Call.kind], by simp [Call.kind]⟩).bind fun _ => trivial
  | some stored =>
    dsimp only
    split
    · exact (Call.asks_ask ⟨by simp [Call.kind], by simp [Call.kind]⟩).bind fun _ => trivial
    · trivial

section Bounded

variable {σ τ : Type} [Store σ]

/-- A part of the store that transactions on rows leave alone. -/
def ApartFromRows (part : σ → τ) : Prop :=
  ∀ {α : Type} (lock : Option String) {program : SessionProgram α},
  program.Asks Call.IsOnRows → ∀ s, part (Store.transact lock program s).state = part s

variable {part : σ → τ}

theorem Advisory.reconcile_bounded (h : ApartFromRows part) (reported : Advisory) :
    Bounded part IndexNotice.IsChange (reported.reconcile : Work σ _) := by
  refine (Bounded.transact (h _ reported.sync_onRows)).bind fun x => ?_
  obtain ⟨stored, outcome⟩ := x
  dsimp only
  split
  · exact Bounded.fail _
  · cases outcome with
    | created => exact (Bounded.announce (.inl rfl)).bind fun _ => Bounded.pure _
    | updated => exact (Bounded.announce (.inr rfl)).bind fun _ => Bounded.pure _
    | unchanged => exact Bounded.pure _

theorem Advisory.reconcileRanges_bounded (h : ApartFromRows part) (a : Advisory)
    (reported : List AffectedRange) (s : Source) (t : Moment) :
    Bounded part IndexNotice.IsChange (a.reconcileRanges reported s t : Work σ _) := by
  unfold reconcileRanges
  cases a.id with
  | none => exact Bounded.fail _
  | some v =>
    refine (Bounded.transact
      (h _ (RangeSync.program_onRows a.vulnId v reported s t))).bind fun sync => ?_
    exact (Bounded.log _).bind fun _ => Bounded.pure sync

variable {part : Site σ → τ}

theorem synchronize_bounded (h : ApartFromRows part)
    (hn : ∀ (s : Site σ) n, part { s with readings := n } = part s)
    (r : Report) : Bounded part IndexNotice.IsChange (synchronize r) := by
  refine (Advisory.reconcile_bounded h r.1).attempt.bind fun x => ?_
  cases x with
  | error e => exact Bounded.pure _
  | ok x =>
    have seen : Bounded part IndexNotice.IsChange (Site.seenNow : Work (Site σ) Moment) :=
      ⟨fun s => hn s _, by simp [Outcome.notices, Site.seenNow]⟩
    refine seen.bind fun t => ?_
    exact (Advisory.reconcileRanges_bounded h x.1 r.2 x.1.source t).attempt.bind fun _ =>
      Bounded.pure _

theorem synchronizeAll_bounded (h : ApartFromRows part)
    (hn : ∀ (s : Site σ) n, part { s with readings := n } = part s) (reports : List Report) :
    Bounded part IndexNotice.IsChange (synchronizeAll reports) := by
  induction reports with
  | nil => exact Bounded.pure _
  | cons r rest ih =>
    exact (synchronize_bounded h hn r).bind fun _ => ih.bind fun _ => Bounded.pure _

end Bounded

section Sequence

variable {σ : Type} [Store σ]

theorem synchronize_ok (r : Report) (s : Site σ) :
    ∃ w s' ts, synchronize r s = ⟨.ok w, s', ts⟩ := by
  unfold synchronize
  rw [attempt_bind]
  cases (r.1.reconcile s).result with
  | error e => exact ⟨_, _, _, rfl⟩
  | ok x => exact ⟨_, _, _, rfl⟩

theorem synchronizeAll_cons {r : Report} {rest : List Report} {s s' s'' : Site σ} {w : Written}
    {ws : List Written}
    {ts us : List Trace} (h : synchronize r s = ⟨.ok w, s', ts⟩)
    (hrest : synchronizeAll rest s' = ⟨.ok ws, s'', us⟩) :
    synchronizeAll (r :: rest) s = ⟨.ok (w :: ws), s'', ts ++ us⟩ := by
  have hw : (synchronize r s).result = .ok w := by rw [h]
  have hws : (synchronizeAll rest (synchronize r s).state).result = .ok ws := by rw [h]; exact congrArg _ hrest
  rw [synchronizeAll, bind_of_ok hw, bind_of_ok hws, h]
  dsimp only
  rw [hrest]
  simp [Pure.pure, Work.pure]

theorem synchronizeAll_ok (reports : List Report) (s : Site σ) :
    ∃ ws s' ts, synchronizeAll reports s = ⟨.ok ws, s', ts⟩ := by
  induction reports generalizing s with
  | nil => exact ⟨[], s, [], rfl⟩
  | cons r rest ih =>
    obtain ⟨w, s', ts, hr⟩ := synchronize_ok r s
    obtain ⟨ws, s'', us, hrest⟩ := ih s'
    exact ⟨_, _, _, synchronizeAll_cons hr hrest⟩

theorem synchronizeAll_concat {reports : List Report} {r : Report} {s s' s'' : Site σ} {w : Written}
    {ws : List Written} {ts us : List Trace} (h : synchronizeAll reports s = ⟨.ok ws, s', ts⟩)
    (hr : synchronize r s' = ⟨.ok w, s'', us⟩) :
    synchronizeAll (reports ++ [r]) s = ⟨.ok (ws ++ [w]), s'', ts ++ us⟩ := by
  induction reports generalizing s ws ts with
  | nil =>
    cases h
    simpa using synchronizeAll_cons hr (show synchronizeAll [] s'' = ⟨.ok [], s'', []⟩ from rfl)
  | cons x rest ih =>
    obtain ⟨v, t, vs, hx⟩ := synchronize_ok x s
    obtain ⟨ys, t', ns, hrest⟩ := synchronizeAll_ok rest t
    cases (synchronizeAll_cons hx hrest).symm.trans h
    rw [List.append_assoc]
    exact synchronizeAll_cons hx (ih hrest)

theorem length_synchronizeAll {reports : List Report} {s s' : Site σ} {ws : List Written}
    {ts : List Trace}
    (h : synchronizeAll reports s = ⟨.ok ws, s', ts⟩) : ws.length = reports.length := by
  induction reports generalizing s ws ts with
  | nil =>
    cases h
    rfl
  | cons x rest ih =>
    obtain ⟨v, t, vs, hx⟩ := synchronize_ok x s
    obtain ⟨ys, t', ns, hrest⟩ := synchronizeAll_ok rest t
    cases (synchronizeAll_cons hx hrest).symm.trans h
    exact congrArg (· + 1) (ih hrest)

end Sequence

namespace Site

/-- Sites whose stores are alike and whose clocks show the same, so that writing comes to the
same. -/
structure Alike (s t : Site FaultyLedger) : Prop where
  store : s.store.Alike t.store
  clock : s.clock = t.clock
  readings : s.readings = t.readings

end Site

section Respects

theorem transact_respects {α : Type} {lock : Option String} {program : SessionProgram α}
    (h : program.Asks Call.IsOnRows) : Respects Site.Alike (Work.transact lock program) := by
  intro s t hs
  obtain ⟨hresult, hentries, hstate⟩ := FaultyLedger.transact_alike h hs.store
  exact ⟨hresult, congrArg (List.map Trace.entry) hentries, hstate, hs.clock, hs.readings⟩

theorem Advisory.reconcile_respects (reported : Advisory) :
    Respects Site.Alike reported.reconcile := by
  refine (transact_respects reported.sync_onRows).bind fun x => ?_
  obtain ⟨stored, outcome⟩ := x
  dsimp only
  split
  · exact Respects.fail _
  · split
    · exact (Respects.announce _).bind fun _ => Respects.pure _
    · exact Respects.pure _

theorem Advisory.reconcileRanges_respects (a : Advisory) (reported : List AffectedRange)
    (s : Source) (t : Moment) : Respects Site.Alike (a.reconcileRanges reported s t) := by
  unfold reconcileRanges
  cases a.id with
  | none => exact Respects.fail _
  | some v =>
    refine (transact_respects (RangeSync.program_onRows a.vulnId v reported s t)).bind fun sync =>
      ?_
    exact (Respects.log _).bind fun _ => Respects.pure sync

theorem synchronize_respects (r : Report) : Respects Site.Alike (synchronize r) := by
  refine (Advisory.reconcile_respects r.1).attempt.bind fun x => ?_
  cases x with
  | error e => exact Respects.pure _
  | ok x =>
    have seen : Respects Site.Alike Site.seenNow := fun s t h =>
      ⟨by simp [Site.seenNow, h.clock, h.readings], rfl, h.store, h.clock,
        congrArg (· + 1) h.readings⟩
    refine seen.bind fun t => ?_
    exact (Advisory.reconcileRanges_respects x.1 r.2 x.1.source t).attempt.bind fun _ =>
      Respects.pure _

theorem synchronizeAll_respects (reports : List Report) :
    Respects Site.Alike (synchronizeAll reports) := by
  induction reports with
  | nil => exact Respects.pure _
  | cons r rest ih => exact (synchronize_respects r).bind fun _ => ih.bind fun _ => Respects.pure _

end Respects

/-- Neither the properties of the store nor the faults that threaten it are a matter of reports. -/
theorem apartFromRows_config : ApartFromRows fun s : Site FaultyLedger => s.store.ledger.config :=
  fun _ _ h s => FaultyLedger.transact_config (h.mono fun _ hc => hc.2) s.store

theorem apartFromRows_faults : ApartFromRows fun s : Site FaultyLedger => s.store.faults :=
  fun _ program _ s => FaultyLedger.transact_faults program s.store

theorem apartFromRows_answers {σ : Type} [Store σ] : ApartFromRows fun s : Site σ => s.answers :=
  fun _ _ _ _ => rfl

end AdvisoryLedger

import AdvisoryLedger.Proofs.Ledger.Frame

namespace AdvisoryLedger

variable {α : Type}

/-- The request is about rows and not about a property. -/
def Call.IsOnRows (c : Call) : Prop := c.kind ≠ .getConfig ∧ c.kind ≠ .setConfig

theorem Call.IsOnRows.not_mem_involved {c : Call} (h : c.IsOnRows) :
    Call.Kind.getConfig ∉ c.involved := by
  cases c <;> simp_all [involved, IsOnRows, kind]

namespace Ledger

/-- The step takes back nothing that was done to a property. -/
def SparesConfig (u : Undo) : Prop := ∀ l, (u.apply l).config = l.config

theorem rollback_config {undo : List Undo} (h : ∀ u ∈ undo, SparesConfig u) (l : Ledger) :
    (l.rollback undo).config = l.config := by
  induction undo generalizing l with
  | nil => rfl
  | cons u rest ih =>
    have hrest := ih (fun x hx => h x (List.mem_cons_of_mem _ hx)) (u.apply l)
    exact hrest.trans (h u List.mem_cons_self l)

/-- Requests other than the one that sets a property leave all properties alone, and so does taking
them back. -/
theorem perform_config {l : Ledger} {c : Call} (hc : c.kind ≠ .setConfig) {p : Performed c.Reply}
    (h : l.perform c = .ok p) : p.ledger.config = l.config ∧ ∀ u ∈ p.undo, SparesConfig u := by
  cases performs_of_perform h with
  | read _ reply => exact ⟨rfl, by simp⟩
  | insertAdvisory | updateAdvisory | insertRange | insertAttribution | setRanges =>
    exact ⟨rfl, by simp [SparesConfig, Undo.apply]⟩
  | touchAttributions | deleteAttributions =>
    refine ⟨rfl, ?_⟩
    intro u hu
    obtain ⟨row, -, rfl⟩ := List.mem_map.mp (List.mem_reverse.mp hu)
    exact fun _ => rfl
  | setConfig => exact absurd rfl hc

end Ledger

namespace FaultyLedger

open Dialogue

/-- While a transaction goes on, the properties are as they were, and will be if it is taken
back. -/
structure Open.HasConfig (config : Table (String × String) (Option String)) (t : Open) : Prop where
  config : t.store.ledger.config = config
  undo : ∀ u ∈ t.undo, Ledger.SparesConfig u

theorem answer_hasConfig {config : Table (String × String) (Option String)} {t : Open}
    (ht : t.HasConfig config) {c : Call} (hc : c.kind ≠ .setConfig) :
    (answer c t).2.HasConfig config := by
  rcases answer_cases c t with ⟨p, hp, -, hl, hu⟩ | ⟨e, -, hl, hu⟩
  · obtain ⟨hconfig, hundo⟩ := Ledger.perform_config hc hp
    refine ⟨by rw [hl, hconfig, ht.config], ?_⟩
    rw [hu]
    exact fun u hm => (List.mem_append.mp hm).elim (hundo u) (ht.undo u)
  · exact ⟨hl ▸ ht.config, hu ▸ ht.undo⟩

theorem run_hasConfig {config : Table (String × String) (Option String)}
    {program : SessionProgram α}
    (hp : program.Asks fun c => c.kind ≠ .setConfig) {t : Open} (ht : t.HasConfig config) :
    (program.run answer t).state.HasConfig config := by
  induction program generalizing t with
  | done a => exact ht
  | fail e => exact ht
  | note entry rest ih => exact ih hp ht
  | ask c next ih => exact ih _ (hp.2 _) (answer_hasConfig ht hp.1)

/-- A transaction that sets no property changes none, whatever faults strike it and whether or not
it ends well. -/
theorem transact_config {program : SessionProgram α}
    (hp : program.Asks fun c => c.kind ≠ .setConfig)
    (s : FaultyLedger) : (s.transact program).state.ledger.config = s.ledger.config := by
  have h : (program.run answer ⟨s, []⟩).state.HasConfig s.ledger.config :=
    run_hasConfig hp ⟨rfl, by simp⟩
  unfold transact
  dsimp only
  split
  · exact h.config
  · exact (Ledger.rollback_config h.undo _).trans h.config

/-- Two stores that differ at most in how often somebody asked for a property. -/
structure Alike (s t : FaultyLedger) : Prop where
  ledger : s.ledger = t.ledger
  faults : s.faults = t.faults
  made : ∀ k, k ≠ .getConfig → s.made.count k = t.made.count k

namespace Alike

variable {s t : FaultyLedger}

theorem refl (s : FaultyLedger) : s.Alike s := ⟨rfl, rfl, fun _ _ => rfl⟩

theorem count (h : s.Alike t) {kinds : List Call.Kind} (hk : Call.Kind.getConfig ∉ kinds) :
    (s.count kinds).1 = (t.count kinds).1 ∧ (s.count kinds).2.Alike (t.count kinds).2 := by
  induction kinds generalizing s t with
  | nil => exact ⟨rfl, h⟩
  | cons k rest ih =>
    have hne : k ≠ .getConfig := fun he => hk (he ▸ List.mem_cons_self)
    have hmade (j : Call.Kind) (hj : j ≠ .getConfig) :
        (k :: s.made).count j = (k :: t.made).count j := by
      rw [List.count_cons, List.count_cons, h.made j hj]
    have hnext : FaultyLedger.Alike { s with made := k :: s.made } { t with made := k :: t.made } :=
      ⟨h.ledger, h.faults, hmade⟩
    have hfault : s.faults k ((k :: s.made).count k) = t.faults k ((k :: t.made).count k) := by
      rw [h.faults, hmade k hne]
    simp only [FaultyLedger.count, hfault]
    split
    · exact ⟨rfl, hnext⟩
    · exact ih hnext fun hm => hk (List.mem_cons_of_mem _ hm)

theorem rollback (h : s.Alike t) (undo : List Undo) :
    FaultyLedger.Alike { s with ledger := s.ledger.rollback undo } { t with ledger := t.ledger.rollback undo } :=
  ⟨congrArg (Ledger.rollback · undo) h.ledger, h.faults, h.made⟩

end Alike

structure Open.Alike (t u : Open) : Prop where
  store : t.store.Alike u.store
  undo : t.undo = u.undo

theorem answer_alike {t u : Open} (h : t.Alike u) {c : Call} (hc : c.IsOnRows) :
    (answer c t).1 = (answer c u).1 ∧ (answer c t).2.Alike (answer c u).2 := by
  obtain ⟨hfault, hstore⟩ := h.store.count hc.not_mem_involved
  unfold answer
  cases ht : t.store.count c.involved with
  | mk fault s =>
    cases hu : u.store.count c.involved with
    | mk fault' s' =>
      simp only [ht, hu] at hfault hstore
      subst hfault
      cases fault with
      | some e => exact ⟨rfl, hstore, h.undo⟩
      | none =>
        dsimp only
        rw [hstore.ledger]
        cases s'.ledger.perform c with
        | error e => exact ⟨rfl, hstore, h.undo⟩
        | ok p => exact ⟨rfl, ⟨rfl, hstore.faults, hstore.made⟩, congrArg (p.undo ++ ·) h.undo⟩

theorem run_alike {program : SessionProgram α} (hp : program.Asks Call.IsOnRows) {t u : Open}
    (h : t.Alike u) : (program.run answer t).result = (program.run answer u).result ∧
      (program.run answer t).entries = (program.run answer u).entries ∧
      (program.run answer t).state.Alike (program.run answer u).state := by
  induction program generalizing t u with
  | done a => exact ⟨rfl, rfl, h⟩
  | fail e => exact ⟨rfl, rfl, h⟩
  | note entry rest ih =>
    obtain ⟨hresult, hentries, hstate⟩ := ih hp h
    exact ⟨hresult, congrArg (entry :: ·) hentries, hstate⟩
  | ask c next ih =>
    obtain ⟨hreply, hopen⟩ := answer_alike h hp.1
    simp only [Dialogue.run, hreply]
    exact ih _ (hp.2 _) hopen

/-- A transaction that asks for no property does the same in stores that are alike. -/
theorem transact_alike {program : SessionProgram α} (hp : program.Asks Call.IsOnRows)
    {s t : FaultyLedger}
    (h : s.Alike t) : (s.transact program).result = (t.transact program).result ∧
      (s.transact program).entries = (t.transact program).entries ∧
      (s.transact program).state.Alike (t.transact program).state := by
  obtain ⟨hresult, hentries, hstate⟩ := run_alike hp (t := ⟨s, []⟩) (u := ⟨t, []⟩) ⟨h, rfl⟩
  unfold transact
  dsimp only
  rw [hresult, hentries, hstate.undo]
  split
  · exact ⟨rfl, rfl, hstate.store⟩
  · exact ⟨rfl, rfl, hstate.store.rollback _⟩

/-- The store as if nobody had asked for a property. -/
def unasked (s : FaultyLedger) : FaultyLedger := { s with made := s.made.filter (· ≠ .getConfig) }

theorem alike_of_unasked {s t : FaultyLedger} (h : s.unasked = t.unasked) : s.Alike t := by
  have hledger : s.unasked.ledger = t.unasked.ledger := by rw [h]
  have hfaults : s.unasked.faults = t.unasked.faults := by rw [h]
  refine ⟨hledger, hfaults, ?_⟩
  intro k hk
  have hmade : (s.made.filter (· ≠ .getConfig)).count k =
      (t.made.filter (· ≠ .getConfig)).count k :=
    congrArg (fun u : FaultyLedger => u.made.count k) h
  rwa [List.count_filter (by simpa using hk), List.count_filter (by simpa using hk)] at hmade

theorem getConfig_unasked (s : FaultyLedger) (group name : String) :
    (s.transact (Call.ask (.getConfig group name))).state.unasked = s.unasked := by
  have hmade : FaultyLedger.unasked { s with made := .getConfig :: s.made } = s.unasked := rfl
  simp only [transact, Call.ask, Dialogue.call, Dialogue.run, answer, Call.involved, Call.kind,
    count]
  cases s.faults .getConfig ((.getConfig :: s.made).count .getConfig) <;> exact hmade

end FaultyLedger

end AdvisoryLedger

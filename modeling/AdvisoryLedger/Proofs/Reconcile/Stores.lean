import AdvisoryLedger.Proofs.Database.Shelf
import AdvisoryLedger.Proofs.Reconcile.Mirror

namespace AdvisoryLedger

open Ledger Database

def Ledger.copy? (l : Ledger) (key : Source × String) : Option Advisory := l.advisory? key.1 key.2

section Copy

variable {l : Ledger} {b : Advisory} {key : Source × String}

theorem Ledger.copy?_insert (hl : l.WellKept) (h : l.copy? b.naturalKey = none) (n : Int) :
    Ledger.copy? { l with advisories := l.advisories.put l.nextId b, nextId := n } =
      Function.update l.copy? b.naturalKey (some b) := by
  funext key
  have hput := Table.find?_values_put_of_notMem hl.advisories.bound_notMem b
    (fun a => decide (a.naturalKey = key))
  by_cases hk : key = b.naturalKey
  · subst hk
    rw [Function.update_self, copy?, advisory?, hput,
      show l.advisories.values.find? _ = none from h]
    simp
  · rw [Function.update_of_ne hk, copy?, advisory?, hput]
    simp [Ne.symm hk, copy?, advisory?]

theorem Ledger.find?_of_copy? (hl : l.WellKept) {stored : Advisory} {id : Int}
    (h : l.copy? key = some stored) (hid : stored.id = some id) :
    l.advisories.find? (fun row => decide (row.2.naturalKey = key)) = some (id, stored) ∧
      l.advisories.get? id = some stored := by
  rw [copy?, advisory?, Table.values, List.find?_map, Option.map_eq_some_iff] at h
  obtain ⟨⟨k, a⟩, hf, rfl⟩ := h
  have hget := Table.get?_of_mem hl.distinct.advisories (List.mem_of_find?_eq_some hf)
  obtain rfl := Option.some.inj ((hl.advisories k a hget).1.symm.trans hid)
  exact ⟨hf, hget⟩

theorem Ledger.naturalKey_of_copy? {stored : Advisory} (h : l.copy? key = some stored) :
    stored.naturalKey = key := by
  simpa using List.find?_some h

theorem Ledger.copy?_update (hl : l.WellKept) {stored : Advisory} {id : Int}
    (h : l.copy? key = some stored) (hid : stored.id = some id) (hn : b.naturalKey = key) :
    Ledger.copy? { l with advisories := l.advisories.put id b } =
      Function.update l.copy? key (some b) := by
  obtain ⟨hfind, hget⟩ := find?_of_copy? hl h hid
  have hk := naturalKey_of_copy? h
  funext other
  by_cases ho : other = key
  · subst ho
    rw [Function.update_self]
    exact Table.find?_values_put hfind (by simpa using hn)
  · rw [Function.update_of_ne ho]
    exact Table.find?_values_put_of_not hget (by simpa [hk] using Ne.symm ho)
      (by simpa [hn] using Ne.symm ho)

end Copy

namespace Advisory

/-- What one report came to. -/
structure Account where
  stored : Advisory
  outcome : SyncOutcome
  /-- Against the copy that was there; none where there was no copy. -/
  changes : Changes

/-- What a report changes of a copy, if there is one. -/
def changesOf (reported : Advisory) : Option Advisory → Changes
  | some copy => (copy.update reported).changes
  | none => []

/-- Reconciles a report, and says what it came to. -/
def account {σ : Type} [Store σ] (reported : Advisory) : Work σ Account := do
  let copy ← Work.transact (some reported.lockKey)
    (Call.ask (.getAdvisory reported.source reported.vulnId))
  let (stored, outcome) ← reported.reconcile
  pure ⟨stored, outcome, reported.changesOf copy⟩

/-- Reports that are reconciled one after the other. -/
def history {σ : Type} [Store σ] : List Advisory → Work σ (List Account)
  | [] => pure []
  | a :: rest => do
    let x ← a.account
    pure (x :: (← history rest))

/-- Two stores came to the same. Only the severity that counts as assigned may differ, and the row
where the stores do not number their rows alike. -/
structure Account.Matches (alike : Prop) (x y : Account) : Prop where
  outcome : x.outcome = y.outcome
  changes : x.changes = y.changes
  derivedSeverity : x.stored.derivedSeverity = y.stored.derivedSeverity
  severity : x.stored.severity = y.stored.severity
  id : alike → x.stored.id = y.stored.id
  rest : { x.stored with explicitSeverity := none, id := none } =
    { y.stored with explicitSeverity := none, id := none }

theorem Account.matches_stated
    {alike : Prop} {stored : Advisory} {id : Int} (h : alike → stored.id = some id)
    (outcome : SyncOutcome) (changes : Changes) :
    Matches alike ⟨stored, outcome, changes⟩ ⟨stored.stated (some id), outcome, changes⟩ :=
  ⟨rfl, rfl, rfl, rfl, h, rfl⟩

theorem account_of_transact {σ : Type} [Store σ] {a stored : Advisory} {outcome : SyncOutcome}
    {copy : Option Advisory} {s s' : σ}
    (hc : (Store.transact (some a.lockKey) (Call.ask (.getAdvisory a.source a.vulnId)) s).result =
      .ok copy)
    (hs : (Store.transact (some a.lockKey) (Call.ask (.getAdvisory a.source a.vulnId)) s).state =
      s')
    (h : (Store.transact (some a.lockKey) a.sync s').result = .ok (stored, outcome))
    (hid : stored.id ≠ none) : (a.account s).result = .ok ⟨stored, outcome, a.changesOf copy⟩ ∧
      (a.account s).state = (Store.transact (some a.lockKey) a.sync s').state := by
  obtain ⟨hr, hm⟩ := reconcile_of_transact h hid
  simp only [account, bind, Work.bind, Work.transact, hc, hs, hr, pure, Work.pure]
  exact ⟨trivial, hm⟩

/-- What both stores hold of an identity: no copy, or a copy and a row that states it. -/
def Tied (alike : Prop) (l : Ledger) (h : Holding) (key : Source × String) : Prop :=
  Option.Rel (fun a row => ∃ id, row.States a id ∧
    (alike → a.id = some id)) (l.copy? key) (h.row? key)

section Report

variable {a : Advisory} {δ : Type} {answer : Answering δ} {holding : δ → Holding} {alike : Prop}

theorem ledger_account {f : FaultyLedger} (hf : f.faults = .none) (hl : f.ledger.WellKept)
    {stored : Advisory}
    {outcome : SyncOutcome} {m : Ledger} (hg : Gives a.sync f.ledger (stored, outcome) m)
    (hid : stored.id ≠ none) :
    (a.account f).result = .ok ⟨stored, outcome, a.changesOf (f.ledger.copy? a.naturalKey)⟩ ∧
      (a.account f).state.ledger = m ∧ (a.account f).state.faults = .none ∧ m.WellKept := by
  have hget : Gives (Call.ask (.getAdvisory a.source a.vulnId)) f.ledger
    (f.ledger.copy? a.naturalKey) f.ledger := gives_ask.mpr ⟨[], rfl⟩
  obtain ⟨hr, hm, hn⟩ := FaultyLedger.transact_of_gives hf hget
  obtain ⟨hr', hm', hn'⟩ := FaultyLedger.transact_of_gives hn (hm.symm ▸ hg)
  have hw := (FaultyLedger.transact_wellKept a.sync (hm.symm ▸ hl)).1
  obtain ⟨h, hs⟩ := account_of_transact hr rfl hr' hid
  rw [hs]
  exact ⟨h, hm', hn', hm' ▸ hw⟩

theorem advisoryValues_stated (a : Advisory) (id : Option Int) :
    Statement.advisoryValues (a.stated id) = Statement.advisoryValues a := by
  have hcells : Column.all.map (a.stated id).cell = Column.all.map a.cell :=
    List.map_congr_left fun c _ => cell_onRow a id a.severity c
  rw [Statement.advisoryValues, Statement.advisoryValues, hcells]
  rfl

theorem states_stated {row : Row} {id : Int} (a : Advisory) (i : Option Int) :
    row.States (a.stated i) id ↔ row.States a id := by
  rw [Row.States, Row.States, advisoryValues_stated]
  exact Iff.rfl

theorem changesOf_stated {copy : Advisory} {id : Option Int} (ha : a.explicitSeverity = none) :
    a.changesOf (some (copy.stated id)) = a.changesOf (some copy) := by
  rw [changesOf, changesOf, update_stated copy id ha]
  rfl

theorem lockKey_isEmpty (a : Advisory) : a.lockKey.isEmpty = false := by
  rw [← Bool.not_eq_true, String.isEmpty_iff]
  simp [lockKey]

theorem database_account (hg : GivesBack answer holding) {d : δ} (copy : Option Advisory)
    (stored : Advisory) {outcome : SyncOutcome} (After : Holding → Prop)
    (hget : ∀ d', holding d' = holding d → ∃ d'',
      serve answer true (.getAdvisory a.source a.vulnId) d' = (.ok copy, d'') ∧
        holding d'' = holding d')
    (hsync : ∀ d', holding d' = holding d →
      (a.sync.run (serve answer true) d').result = .ok (stored, outcome) ∧
        After (holding (a.sync.run (serve answer true) d').state))
    (hid : stored.id ≠ none) :
    (@account δ (store answer) a d).result = .ok ⟨stored, outcome, a.changesOf copy⟩ ∧
      After (holding (@account δ (store answer) a d).state) := by
  have hcopy : ∀ d', holding d' = holding d →
      ((Call.ask (.getAdvisory a.source a.vulnId)).run (serve answer true) d').result = .ok copy ∧
        holding ((Call.ask (.getAdvisory a.source a.vulnId)).run (serve answer true) d').state =
          holding d := by
    intro d' hd'
    obtain ⟨d'', hs, hd''⟩ := hget d' hd'
    simp only [Call.ask, Dialogue.call, Dialogue.run, hs, Dialogue.ofExcept]
    exact ⟨trivial, hd''.trans hd'⟩
  obtain ⟨hr, hs⟩ := hg.transact a.lockKey_isEmpty (· = holding d) hcopy
  obtain ⟨hr', hs'⟩ := hg.transact a.lockKey_isEmpty After fun d' hd' => hsync d' (hd'.trans hs)
  obtain ⟨hresult, hstate⟩ := @account_of_transact δ (store answer) _ _ _ _ _ _ hr rfl hr' hid
  rw [hstate]
  exact ⟨hresult, hs'⟩

theorem database_created (hg : GivesBack answer holding) {d : δ}
    (hd : (holding d).row? a.naturalKey = none) :
    (@account δ (store answer) a d).result =
      .ok ⟨a.stated (some (holding d).nextId), .created, []⟩ ∧
      ∃ row, row.States a (holding d).nextId ∧ holding (@account δ (store answer) a d).state =
        ⟨Function.update (holding d).row? a.naturalKey (some row), (holding d).nextId + 1⟩ := by
  refine database_account hg none (a.stated (some (holding d).nextId))
    (fun h => ∃ row, row.States a (holding d).nextId ∧
      h = ⟨Function.update (holding d).row? a.naturalKey (some row), (holding d).nextId + 1⟩)
    ?_ ?_ (Option.some_ne_none _)
  · intro d' hd'
    exact hg.serve_getAdvisory_none true (hd' ▸ hd)
  · intro d' hd'
    obtain ⟨d₁, hs₁, hd₁⟩ := hg.serve_getAdvisory_none true (hd' ▸ hd)
    have hh : holding d₁ = holding d := hd₁.trans hd'
    obtain ⟨row, d₂, hs₂, hrow, hd₂⟩ := hg.serve_insertAdvisory true (hh ▸ hd)
    simp only [sync, Call.ask, Dialogue.call, bind, Dialogue.bind, Dialogue.run, hs₁, hs₂,
      Dialogue.ofExcept, pure]
    rw [hh] at hrow hd₂ ⊢
    exact ⟨rfl, row, hrow, hd₂⟩

section Stored

variable {d : δ} {row : Row} {copy : Advisory} {id : Int}

theorem database_updated (hg : GivesBack answer holding) (ha : a.explicitSeverity = none)
    (hd : (holding d).row? a.naturalKey = some row) (hs : row.States copy id)
    (hk : copy.naturalKey = a.naturalKey) (hc : (copy.update a).isChanged = true) :
    (@account δ (store answer) a d).result =
        .ok ⟨(copy.update a).existing.stated (some id), .updated, a.changesOf (some copy)⟩ ∧
      ∃ new, new.States (copy.update a).existing id ∧
        holding (@account δ (store answer) a d).state =
        ⟨Function.update (holding d).row? a.naturalKey (some new), (holding d).nextId⟩ := by
  have hget {d' : δ} (hd' : holding d' = holding d) := hg.serve_getAdvisory true (hd' ▸ hd) hs
  have hkey : ((copy.update a).existing.stated (some id)).naturalKey = a.naturalKey :=
    (updated_update copy a).naturalKey.trans hk
  rw [← changesOf_stated ha]
  refine database_account hg (some (copy.stated (some id)))
    ((copy.update a).existing.stated (some id))
    (fun h => ∃ new, new.States (copy.update a).existing id ∧
      h = ⟨Function.update (holding d).row? a.naturalKey (some new), (holding d).nextId⟩)
    (fun d' hd' => hget hd') ?_ (Option.some_ne_none _)
  intro d' hd'
  obtain ⟨d₁, hs₁, hd₁⟩ := hget hd'
  have hh : holding d₁ = holding d := hd₁.trans hd'
  obtain ⟨new, d₂, hs₂, hnew, hd₂⟩ :=
    hg.serve_updateAdvisory true (hkey ▸ hh ▸ hd) hs (hk.trans hkey.symm) rfl
  have hexisting : ((copy.stated (some id)).update a).existing =
      (copy.update a).existing.stated (some id) := by
    rw [update_stated copy (some id) ha, Differ.existing_onto]
  rw [hkey, hh] at hd₂
  rw [← hexisting] at hs₂
  simp only [sync, Call.ask, Dialogue.call, bind, Dialogue.bind, Dialogue.run, hs₁,
    Dialogue.ofExcept, update_stated copy (some id) ha, Differ.isChanged_onto, hc, if_true,
    Differ.existing_onto, hs₂, pure]
  exact ⟨trivial, new, (states_stated _ _).mp hnew, hd₂⟩

theorem database_unchanged (hg : GivesBack answer holding) (ha : a.explicitSeverity = none)
    (hd : (holding d).row? a.naturalKey = some row) (hs : row.States copy id)
    (hc : (copy.update a).isChanged = false) :
    (@account δ (store answer) a d).result =
        .ok ⟨(copy.update a).existing.stated (some id), .unchanged, a.changesOf (some copy)⟩ ∧
      holding (@account δ (store answer) a d).state = holding d := by
  have hget {d' : δ} (hd' : holding d' = holding d) := hg.serve_getAdvisory true (hd' ▸ hd) hs
  rw [← changesOf_stated ha]
  refine database_account hg (some (copy.stated (some id)))
    ((copy.update a).existing.stated (some id))
    (· = holding d)
    (fun d' hd' => hget hd') ?_ (Option.some_ne_none _)
  intro d' hd'
  obtain ⟨d₁, hs₁, hd₁⟩ := hget hd'
  simp only [sync, Call.ask, Dialogue.call, bind, Dialogue.bind, Dialogue.run, hs₁,
    Dialogue.ofExcept, update_stated copy (some id) ha, Differ.isChanged_onto, hc,
    Bool.false_eq_true, if_false, Differ.existing_onto, pure]
  exact ⟨trivial, hd₁.trans hd'⟩

end Stored

end Report

namespace Tied

variable {alike : Prop} {l m : Ledger} {h h' : Holding} {key k : Source × String}

theorem no_row (ht : Tied alike l h key) (hl : l.copy? key = none) : h.row? key = none := by
  rw [Tied, hl] at ht
  cases hrow : h.row? key with
  | none => rfl
  | some row =>
    rw [hrow] at ht
    cases ht

theorem exists_row (ht : Tied alike l h key) {copy : Advisory} (hl : l.copy? key = some copy) :
    ∃ row id, h.row? key = some row ∧ row.States copy id ∧ (alike → copy.id = some id) := by
  rw [Tied, hl] at ht
  cases hrow : h.row? key with
  | none =>
    rw [hrow] at ht
    cases ht
  | some row =>
    rw [hrow] at ht
    cases ht with
    | some hr =>
      obtain ⟨id, hs, hid⟩ := hr
      exact ⟨row, id, rfl, hs, hid⟩

theorem update (ht : Tied alike l h key) {new : Advisory} {row : Row} {id : Int}
    (hm : m.copy? = Function.update l.copy? k (some new))
    (hh : h'.row? = Function.update h.row? k (some row))
    (hrow : row.States new id) (hid : alike → new.id = some id) : Tied alike m h' key := by
  by_cases hk : key = k
  · rw [Tied, hm, hh, hk, Function.update_self, Function.update_self]
    exact .some ⟨id, hrow, hid⟩
  · rwa [Tied, hm, hh, Function.update_of_ne hk, Function.update_of_ne hk]

end Tied

/-- How a ledger and a database stand to each other before reports that are still to come. -/
structure Abreast (alike : Prop) (f : FaultyLedger) (h : Holding) (reports : List Advisory) :
    Prop where
  faults : f.faults = .none
  wellKept : f.ledger.WellKept
  nextId : alike → f.ledger.nextId = h.nextId
  tied : ∀ a ∈ reports, Tied alike f.ledger h a.naturalKey

namespace Abreast

variable {alike : Prop} {δ : Type} {answer : Answering δ} {holding : δ →
      Holding} {f : FaultyLedger} {d : δ}
  {a : Advisory} {rest : List Advisory}

/-- Both came to the same with a report, and stand to each other as before. -/
def Goes (alike : Prop) (answer : Answering δ) (holding : δ →
      Holding) (f : FaultyLedger) (d : δ) (a : Advisory)
    (rest : List Advisory) : Prop :=
  ∃ x y, (a.account f).result = .ok x ∧ (@account δ (store answer) a d).result = .ok y ∧
    x.Matches alike y ∧
    Abreast alike (a.account f).state (holding (@account δ (store answer) a d).state) rest

theorem goes_of_none (h : Abreast alike f (holding d) (a :: rest)) (hg : GivesBack answer holding)
    (hcopy : f.ledger.copy? a.naturalKey = none) : Goes alike answer holding f d a rest := by
  obtain ⟨htied, hrest⟩ := List.forall_mem_cons.mp h.tied
  obtain ⟨hr, row, hrow, hafter⟩ := database_created hg (htied.no_row hcopy)
  obtain ⟨hr', hm, hn, hw⟩ :=
    ledger_account h.faults h.wellKept (gives_created hcopy) (Option.some_ne_none _)
  rw [hcopy] at hr'
  have hid : alike → some f.ledger.nextId = some (holding d).nextId :=
    fun hs => congrArg some (h.nextId hs)
  refine ⟨_, _, hr', hr, Account.matches_stated hid _ _, hn, hm ▸ hw, ?_, ?_⟩
  · intro hs
    rw [hm, hafter]
    exact congrArg (· + 1) (h.nextId hs)
  · intro b hb
    rw [hm, hafter]
    exact (hrest b hb).update
      (Ledger.copy?_insert (b := { a with id := some f.ledger.nextId }) h.wellKept hcopy _) rfl hrow hid

theorem goes_of_some (h : Abreast alike f (holding d) (a :: rest)) (hg : GivesBack answer holding)
    (ha : a.explicitSeverity = none) {copy : Advisory}
    (hcopy : f.ledger.copy? a.naturalKey = some copy) :
    Goes alike answer holding f d a rest := by
  obtain ⟨htied, hrest⟩ := List.forall_mem_cons.mp h.tied
  obtain ⟨row, i, hd, hrow, hsame⟩ := htied.exists_row hcopy
  obtain ⟨id, hid, hk⟩ := exists_row_of_advisory? h.wellKept hcopy
  have hown : copy.id = some id := (h.wellKept.advisories id copy hid).1
  have hu := updated_update copy a
  have hsome : (copy.update a).existing.id ≠ none := by
    rw [hu.id, hown]
    exact Option.some_ne_none id
  have hmatches (outcome : SyncOutcome) : Account.Matches alike
      ⟨(copy.update a).existing, outcome, a.changesOf (some copy)⟩
      ⟨(copy.update a).existing.stated (some i), outcome, a.changesOf (some copy)⟩ :=
    Account.matches_stated (fun hs => hu.id.trans (hsame hs)) _ _
  cases hc : (copy.update a).isChanged with
  | true =>
    obtain ⟨hr, new, hnew, hafter⟩ := database_updated hg ha hd hrow hk hc
    obtain ⟨hr', hm, hn, hw⟩ :=
      ledger_account h.faults h.wellKept (gives_updated hcopy hown hid hc) hsome
    rw [hcopy] at hr'
    refine ⟨_, _, hr', hr, hmatches _, hn, hm ▸ hw, ?_, ?_⟩
    · rw [hm, hafter]
      exact h.nextId
    · intro b hb
      rw [hm, hafter]
      exact (hrest b hb).update
        (Ledger.copy?_update h.wellKept hcopy hown (hu.naturalKey.trans hk)) rfl hnew
        fun hs => hu.id.trans (hsame hs)
  | false =>
    obtain ⟨hr, hafter⟩ := database_unchanged hg ha hd hrow hc
    obtain ⟨hr', hm, hn, hw⟩ := ledger_account h.faults h.wellKept (gives_unchanged hcopy hc) hsome
    rw [hcopy] at hr'
    refine ⟨_, _, hr', hr, hmatches _, hn, hm ▸ hw, ?_, ?_⟩
    · rw [hm, hafter]
      exact h.nextId
    · intro b hb
      rw [hm, hafter]
      exact hrest b hb

theorem history (hg : GivesBack answer holding) {reports : List Advisory}
    (ha : ∀ a ∈ reports, a.explicitSeverity = none) (h : Abreast alike f (holding d) reports) :
    ∃ xs ys, (history reports f).result = .ok xs ∧
      (@history δ (store answer) reports d).result = .ok ys ∧
      List.Forall₂ (Account.Matches alike) xs ys := by
  induction reports generalizing f d with
  | nil => exact ⟨[], [], rfl, rfl, .nil⟩
  | cons a rest ih =>
    obtain ⟨ha, hrest⟩ := List.forall_mem_cons.mp ha
    obtain ⟨x, y, hx, hy, hxy, hnext⟩ : Goes alike answer holding f d a rest := by
      cases hcopy : f.ledger.copy? a.naturalKey with
      | none => exact h.goes_of_none hg hcopy
      | some copy => exact h.goes_of_some hg ha hcopy
    obtain ⟨xs, ys, hxs, hys, hall⟩ := ih hrest hnext
    refine ⟨x :: xs, y :: ys, ?_, ?_, .cons hxy hall⟩
    · simp only [Advisory.history, bind, Work.bind, hx, hxs, pure, Work.pure]
    · simp only [Advisory.history, bind, Work.bind, hy, hys, pure, Work.pure]

end Abreast

/-- Reports of advisories that neither store holds come to the same on a ledger and on a database
that gives back what was written, report by report: the same outcomes, changes and severities, and
the same copies but for the severity that counts as assigned. -/
theorem history_matches {δ : Type} {answer : Answering δ} {holding : δ → Holding}
    (hg : GivesBack answer holding) {f : FaultyLedger} {d : δ} (hf : f.faults = .none)
    (hl : f.ledger.WellKept)
    {reports : List Advisory} (ha : ∀ a ∈ reports, a.explicitSeverity = none)
    (hnew : ∀ a ∈ reports, f.ledger.advisory? a.source a.vulnId = none ∧
      (holding d).row? a.naturalKey = none) :
    ∃ xs ys, (history reports f).result = .ok xs ∧
      (@history δ (store answer) reports d).result = .ok ys ∧
      List.Forall₂ (Account.Matches (f.ledger.nextId = (holding d).nextId)) xs ys := by
  refine Abreast.history hg ha ⟨hf, hl, fun hs => hs, ?_⟩
  intro a hm
  obtain ⟨hcopy, hrow⟩ := hnew a hm
  have hcopy : f.ledger.copy? a.naturalKey = none := hcopy
  rw [Tied, hcopy, hrow]
  exact .none

/-- A first report, one that lowers the score, and that one again. -/
def rescored : List Advisory :=
  let lowered : Advisory := { vulnId := "CVE-1", cvss3 := { base := some (Severity.points 5) } }
  [{ vulnId := "CVE-1", cvss3 := { base := some (Severity.points 9) } }, lowered, lowered]

theorem history_matches_rescored :
    (∀ a ∈ rescored, a.explicitSeverity = none) ∧
      (history rescored ({} : FaultyLedger)).result.toOption.map (fun xs => xs.map (·.outcome)) =
        some [.created, .updated, .unchanged] ∧
      ∃ xs ys, (history rescored ({} : FaultyLedger)).result = .ok xs ∧
        (@history Shelf (store Shelf.answer) rescored {}).result = .ok ys ∧
        List.Forall₂ (Account.Matches ((1 : Int) = 1)) xs ys := by
  have ha : ∀ a ∈ rescored, a.explicitSeverity = none := by
    simp [rescored]
  refine ⟨ha, by decide +kernel, ?_⟩
  exact history_matches (f := {}) (d := {}) Shelf.givesBack rfl wellKept_empty ha fun a _ => ⟨rfl, rfl⟩

end Advisory

end AdvisoryLedger

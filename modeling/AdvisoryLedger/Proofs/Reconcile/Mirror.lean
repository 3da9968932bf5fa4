import AdvisoryLedger.Reconcile.Advisory
import AdvisoryLedger.Proofs.Diff.Advisory
import AdvisoryLedger.Proofs.Ledger.Transaction

namespace AdvisoryLedger

open Ledger

/-- The rows of an identity; there should be no more than one. -/
def Ledger.copies (l : Ledger) (key : Source × String) : List Advisory :=
  l.advisories.values.filter fun a => a.naturalKey = key

theorem Ledger.WellKept.mem_copies {l : Ledger} (hl : l.WellKept) {row : Advisory}
    {key : Source × String} :
    row ∈ l.copies key ↔ ∃ i, l.advisories.get? i = some row ∧ row.naturalKey = key := by
  rw [copies, List.mem_filter, Table.mem_values_iff_get? hl.distinct.advisories, decide_eq_true_eq,
    exists_and_right]

namespace Advisory

/-- Reports that are carried out one after the other. -/
def reconcileAll (reports : List Advisory) (f : FaultyLedger) : FaultyLedger :=
  reports.foldl (fun f a => (a.reconcile f).state) f

def reportsOn (reports : List Advisory) (key : Source × String) : List Advisory :=
  reports.filter fun a => a.naturalKey = key

/-- The last value that a column was reported with, null where it never had one. -/
def lastValue (reports : List Advisory) (c : Column) : Cell :=
  ((reports.map fun a => a.cell c).filter fun v => !v.isNull).getLastD .null

/-- A row says what the last of its reports did. Of columns that never lose a value it says what was
last known, and its severity, even where it was assigned once, is the one that its scores give. -/
structure Mirrors (row : Advisory) (reports : List Advisory) (last : Advisory) : Prop where
  always : ∀ c, policyOf c = .always → (row.cell c).same (last.cell c) = true
  ifPresent : ∀ c, policyOf c = .ifPresent → (row.cell c).same (lastValue reports c) = true
  derivedSeverity : row.derivedSeverity = last.derivedSeverity
  severity : row.severity = last.derivedSeverity

section Row

variable {a row new last : Advisory} {reports : List Advisory}

theorem IsPlain.severity (h : a.IsPlain) : a.severity = a.derivedSeverity := by
  rw [Advisory.severity, h.explicitSeverity, Option.getD_none]

theorem lastValue_concat (reports : List Advisory) (a : Advisory) (c : Column) :
    lastValue (reports ++ [a]) c = if (a.cell c).isNull then lastValue reports c else a.cell c := by
  simp only [lastValue, List.map_append, List.map_cons, List.map_nil, List.filter_append,
    List.filter_cons, List.filter_nil]
  cases (a.cell c).isNull with
  | true => simp
  | false => simp

theorem reportsOn_concat (reports : List Advisory) (a : Advisory) (key : Source × String) :
    reportsOn (reports ++ [a]) key =
      if a.naturalKey = key then reportsOn reports key ++ [a] else reportsOn reports key := by
  simp only [reportsOn, List.filter_append, List.filter_cons, List.filter_nil, decide_eq_true_eq]
  split
  · rfl
  · exact List.append_nil _

theorem cell_withId (a : Advisory) (id : Option Int) (c : Column) :
    Advisory.cell { a with id := id } c = a.cell c := by
  cases c <;> rfl

theorem mirrors_first (h : a.IsPlain) (id : Option Int) : Mirrors { a with id := id } [a] a := by
  refine ⟨?_, ?_, rfl, h.severity⟩
  · intro c _
    rw [cell_withId]
    exact Cell.same_self (h.proper c)
  · intro c _
    rw [cell_withId, ← List.nil_append [a], lastValue_concat]
    split
    · next hn =>
      rw [(Cell.isNull_iff _).mp hn]
      rfl
    · exact Cell.same_self (h.proper c)

/-- One more report, and the row says what that does. -/
theorem Mirrors.updated (h : row.Mirrors reports last) (ha : a.IsPlain) (hu : Updated row a new) :
    new.Mirrors (reports ++ [a]) a := by
  refine ⟨fun c hp => hu.same_of_always ha.proper hp, ?_, hu.derivedSeverity,
    (hu.severity ha.explicitSeverity).trans ha.severity⟩
  intro c hp
  rw [hu.ifPresent c hp, lastValue_concat, taken]
  by_cases hn : (a.cell c).isNull = true
  · rw [if_pos (.inl ⟨rfl, hn⟩), if_pos hn]
    exact h.ifPresent c hp
  · rw [if_neg hn]
    split
    · next hk => exact hk.resolve_left fun hk => hn hk.2
    · exact Cell.same_self (ha.proper c)

end Row

/-- What a reconciliation leaves where no fault strikes, in its three ways. -/
inductive Synced (l : Ledger) (a : Advisory) : Advisory → SyncOutcome → Ledger → Prop
  | created (h : ∀ i b, l.advisories.get? i = some b → b.naturalKey ≠ a.naturalKey) :
    Synced l a { a with id := some l.nextId } .created
      { l with
        advisories := l.advisories.put l.nextId { a with id := some l.nextId }
        nextId := l.nextId + 1 }
  | updated {id : Int} {stored : Advisory} (hi : l.advisories.get? id = some stored)
      (hk : stored.naturalKey = a.naturalKey) (hc : (stored.update a).isChanged = true) :
    Synced l a (stored.update a).existing .updated
      { l with advisories := l.advisories.put id (stored.update a).existing }
  | unchanged {id : Int} {stored : Advisory} (hi : l.advisories.get? id = some stored)
      (hk : stored.naturalKey = a.naturalKey) (hc : (stored.update a).isChanged = false) :
    Synced l a (stored.update a).existing .unchanged l

section Sync

variable {l m : Ledger} {a row : Advisory} {outcome : SyncOutcome}

theorem naturalKey_ne_of_advisory? (hl : l.WellKept)
    (h : l.advisory? a.source a.vulnId = none) (i : Int)
    (b : Advisory) (hb : l.advisories.get? i = some b) : b.naturalKey ≠ a.naturalKey := by
  have hm : b ∈ l.advisories.values :=
    (Table.mem_values_iff_get? hl.distinct.advisories).mpr ⟨i, hb⟩
  simpa [naturalKey] using List.find?_eq_none.mp h b hm

theorem exists_row_of_advisory? (hl : l.WellKept) {stored : Advisory}
    (h : l.advisory? a.source a.vulnId = some stored) :
    ∃ id, l.advisories.get? id = some stored ∧ stored.naturalKey = a.naturalKey := by
  obtain ⟨id, hid⟩ := (Table.mem_values_iff_get? hl.distinct.advisories).mp
    (List.mem_of_find?_eq_some h)
  exact ⟨id, hid, by simpa [naturalKey] using List.find?_some h⟩

theorem gives_created (hf : l.advisory? a.source a.vulnId = none) :
    Gives a.sync l ({ a with id := some l.nextId }, .created)
      { l with
        advisories := l.advisories.put l.nextId { a with id := some l.nextId }
        nextId := l.nextId + 1 } := by
  have hg : l.perform (.getAdvisory a.source a.vulnId) =
    .ok ⟨none, l, []⟩ := by simp only [perform, hf]
  have hi : l.perform (.insertAdvisory a) = .ok ⟨{ a with id := some l.nextId },
      { l with
        advisories := l.advisories.put l.nextId { a with id := some l.nextId }
        nextId := l.nextId + 1 }, [.eraseAdvisory l.nextId]⟩ := by simp only [perform, hf]
  refine (gives_bind _ _).mpr ⟨none, l, gives_perform hg, ?_⟩
  exact (gives_bind _ _).mpr ⟨_, _, gives_perform hi, rfl, rfl⟩

theorem gives_updated {id : Int} {stored : Advisory}
    (hf : l.advisory? a.source a.vulnId = some stored)
    (hs : stored.id = some id) (hid : l.advisories.get? id = some stored)
    (hc : (stored.update a).isChanged = true) :
    Gives a.sync l ((stored.update a).existing, .updated)
      { l with advisories := l.advisories.put id (stored.update a).existing } := by
  have hg : l.perform (.getAdvisory a.source a.vulnId) =
    .ok ⟨some stored, l, []⟩ := by simp only [perform, hf]
  have hrow : (stored.update a).existing.id = some id := (updated_update stored a).id.trans hs
  have hu : l.perform (.updateAdvisory (stored.update a).existing) = .ok ⟨(),
      { l with advisories := l.advisories.put id (stored.update a).existing },
        [.restoreAdvisory id stored]⟩ := by
    simp only [perform, hrow, Option.bind_some, hid, Option.map_some]
  refine (gives_bind _ _).mpr ⟨some stored, l, gives_perform hg, ?_⟩
  simp only [hc, if_true]
  exact (gives_bind _ _).mpr ⟨_, _, gives_perform hu, rfl, rfl⟩

theorem gives_unchanged {stored : Advisory} (hf : l.advisory? a.source a.vulnId = some stored)
    (hc : (stored.update a).isChanged = false) :
    Gives a.sync l ((stored.update a).existing, .unchanged) l := by
  have hg : l.perform (.getAdvisory a.source a.vulnId) =
    .ok ⟨some stored, l, []⟩ := by simp only [perform, hf]
  refine (gives_bind _ _).mpr ⟨some stored, l, gives_perform hg, ?_⟩
  simp only [hc, Bool.false_eq_true, if_false]
  exact ⟨rfl, rfl⟩

theorem sync_gives (hl : l.WellKept) (a : Advisory) :
    ∃ row outcome m, Gives a.sync l (row, outcome) m ∧ Synced l a row outcome m := by
  cases hf : l.advisory? a.source a.vulnId with
  | none => exact ⟨_, _, _, gives_created hf, .created (naturalKey_ne_of_advisory? hl hf)⟩
  | some stored =>
    obtain ⟨id, hid, hk⟩ := exists_row_of_advisory? hl hf
    cases hc : (stored.update a).isChanged with
    | true =>
      exact ⟨_, _, _, gives_updated hf (hl.advisories id stored hid).1 hid hc, .updated hid hk hc⟩
    | false => exact ⟨_, _, _, gives_unchanged hf hc, .unchanged hid hk hc⟩

theorem Synced.id (h : Synced l a row outcome m) (hl : l.WellKept) : row.id ≠ none := by
  have stored_id {id : Int} {stored : Advisory} (hi : l.advisories.get? id = some stored) :
      (stored.update a).existing.id ≠ none := by
    rw [(updated_update stored a).id, (hl.advisories id stored hi).1]
    exact Option.some_ne_none id
  cases h with
  | created => exact Option.some_ne_none _
  | updated hi => exact stored_id hi
  | unchanged hi => exact stored_id hi

/-- Once the transaction is through, its row is what comes of the reconciliation, whatever the
store. -/
theorem reconcile_of_transact {σ : Type} [Store σ] {s : σ}
    (h : (Store.transact (some a.lockKey) a.sync s).result = .ok (row, outcome))
    (hid : row.id ≠ none) : (a.reconcile s).result = .ok (row, outcome) ∧
      (a.reconcile s).state = (Store.transact (some a.lockKey) a.sync s).state := by
  have hsome : row.id.isNone = false := by
    rw [← Bool.not_eq_true, Option.isNone_iff_eq_none]
    exact hid
  simp only [reconcile, bind, Work.bind, Work.transact, h, hsome, Bool.false_eq_true, if_false]
  cases outcome <;> exact ⟨rfl, rfl⟩

theorem reconcile_of_failure {σ : Type} [Store σ] {s : σ} {e : Failure}
    (h : (Store.transact (some a.lockKey) a.sync s).result = .error e) : a.reconcile s =
      ⟨.error e, (Store.transact (some a.lockKey) a.sync s).state,
        (Store.transact (some a.lockKey) a.sync s).entries.map .entry⟩ := by
  simp only [reconcile, bind, Work.bind, Work.transact, h]

theorem reconcile_synced {f : FaultyLedger} (hf : f.faults = .none) (hl : f.ledger.WellKept)
    (a : Advisory) :
    ∃ row outcome, (a.reconcile f).result = .ok (row, outcome) ∧
      Synced f.ledger a row outcome (a.reconcile f).state.ledger ∧
      (a.reconcile f).state.faults = .none ∧ (a.reconcile f).state.ledger.WellKept := by
  obtain ⟨row, outcome, m, hg, hs⟩ := sync_gives hl a
  obtain ⟨hr, hm, hn⟩ := FaultyLedger.transact_of_gives hf hg
  have hw := (FaultyLedger.transact_wellKept a.sync hl).1
  have hresult : (a.reconcile f).result = .ok (row, outcome) ∧
    (a.reconcile f).state = (f.transact a.sync).state := reconcile_of_transact hr (hs.id hl)
  refine ⟨row, outcome, hresult.1, ?_, ?_, ?_⟩
  · rw [hresult.2, hm]
    exact hs
  · rw [hresult.2]
    exact hn
  · rw [hresult.2]
    exact hw

end Sync

/-- What holds of a store that has carried out just these reports. -/
structure Reflects (l : Ledger) (done : List Advisory) : Prop where
  wellKept : l.WellKept
  unique : ∀ i j a b, l.advisories.get? i = some a → l.advisories.get? j = some b →
    a.naturalKey = b.naturalKey → i = j
  rows : ∀ i row, l.advisories.get? i = some row → row.IsProper ∧
    ∃ last, (reportsOn done row.naturalKey).getLast? = some last ∧
      row.Mirrors (reportsOn done row.naturalKey) last
  present : ∀ a ∈ done, ∃ i row, l.advisories.get? i = some row ∧ row.naturalKey = a.naturalKey

/-- A report has come down to one row, and the other rows are as they were. -/
structure Landed (l : Ledger) (done : List Advisory) (a : Advisory) (i : Int) (row : Advisory)
    (m : Ledger) :
    Prop where
  here : m.advisories.get? i = some row
  others : ∀ j, j ≠ i → m.advisories.get? j = l.advisories.get? j
  naturalKey : row.naturalKey = a.naturalKey
  only : ∀ j b, l.advisories.get? j = some b → (b.naturalKey = a.naturalKey ↔ j = i)
  isProper : row.IsProper
  mirrors : row.Mirrors (reportsOn done a.naturalKey ++ [a]) a

namespace Reflects

variable {l m : Ledger} {done : List Advisory} {a row : Advisory} {outcome : SyncOutcome} {i : Int}
  {key : Source × String}

theorem initial (hl : l.WellKept) (ha : l.advisories = []) : Reflects l [] where
  wellKept := hl
  unique i j a b h := by simp [ha] at h
  rows i row h := by simp [ha] at h
  present := by simp

theorem reportsOn_eq_nil_iff (h : Reflects l done) :
    reportsOn done key = [] ↔ ∀ i b, l.advisories.get? i = some b → b.naturalKey ≠ key := by
  constructor
  · rintro hn i b hb rfl
    obtain ⟨-, last, hlast, -⟩ := h.rows i b hb
    rw [hn] at hlast
    cases hlast
  · intro hn
    rw [reportsOn, List.filter_eq_nil_iff]
    intro b hb hk
    obtain ⟨i, row, hi, hrow⟩ := h.present b hb
    exact hn i row hi (hrow.trans (by simpa using hk))

theorem landed_of_stored (h : Reflects l done) (ha : a.IsPlain) {stored new : Advisory}
    (hi : l.advisories.get? i = some stored) (hk : stored.naturalKey = a.naturalKey)
    (hu : Updated stored a new) (hrow : m.advisories.get? i = some new)
    (hothers : ∀ j, j ≠ i → m.advisories.get? j = l.advisories.get? j) :
    Landed l done a i new m := by
  obtain ⟨hproper, last, -, hmirrors⟩ := h.rows i stored hi
  rw [hk] at hmirrors
  refine ⟨hrow, hothers, hu.naturalKey.trans hk, ?_, hu.isProper hproper ha.proper,
    hmirrors.updated ha hu⟩
  intro j b hj
  constructor
  · intro hb
    exact h.unique j i b stored hj hi (hb.trans hk.symm)
  · rintro rfl
    obtain rfl := Option.some.inj (hi.symm.trans hj)
    exact hk

theorem landed (h : Reflects l done) (ha : a.IsPlain) (hs : Synced l a row outcome m) :
    ∃ i new, Landed l done a i new m := by
  cases hs with
  | created hnone =>
    have hnew := Table.get?_eq_none_iff.mpr h.wellKept.advisories.bound_notMem
    refine ⟨l.nextId, { a with id := some l.nextId }, ?_, ?_, rfl, ?_, ?_, ?_⟩
    · rw [Table.get?_put, if_pos rfl]
    · intro j hj
      rw [Table.get?_put, if_neg (Ne.symm hj)]
    · intro j b hj
      refine ⟨fun hb => absurd hb (hnone j b hj), ?_⟩
      rintro rfl
      rw [hnew] at hj
      cases hj
    · intro c
      rw [cell_withId]
      exact ha.proper c
    · rw [h.reportsOn_eq_nil_iff.mpr hnone]
      exact mirrors_first ha (some l.nextId)
  | updated hi hk _ =>
    refine ⟨_, _, h.landed_of_stored ha hi hk (updated_update _ a) ?_ ?_⟩
    · rw [Table.get?_put, if_pos rfl]
    · intro j hj
      rw [Table.get?_put, if_neg (Ne.symm hj)]
  | unchanged hi hk hc =>
    have hd := mt (isChanged_update (h.rows _ _ hi).1 ha).mpr (by simp [hc])
    exact ⟨_, _, h.landed_of_stored ha hi hk (updated_of_not_differs hd) hi fun _ _ => rfl⟩

theorem next (h : Reflects l done) (hm : m.WellKept) (hr : Landed l done a i row m) :
    Reflects m (done ++ [a]) := by
  have cases_of {j : Int} {b : Advisory} (hj : m.advisories.get? j = some b) :
      (j = i ∧ b = row) ∨ (j ≠ i ∧ l.advisories.get? j = some b ∧ b.naturalKey ≠ a.naturalKey) := by
    by_cases hji : j = i
    · subst hji
      exact .inl ⟨rfl, Option.some.inj (hj.symm.trans hr.here)⟩
    · have hl := (hr.others j hji).symm.trans hj
      exact .inr ⟨hji, hl, mt (hr.only j b hl).mp hji⟩
  refine ⟨hm, ?_, ?_, ?_⟩
  · intro j k b c hb hc hk
    rcases cases_of hb with ⟨rfl, rfl⟩ | ⟨-, hbl, hbk⟩ <;>
      rcases cases_of hc with ⟨rfl, rfl⟩ | ⟨-, hcl, hck⟩
    · rfl
    · exact absurd (hk.symm.trans hr.naturalKey) hck
    · exact absurd (hk.trans hr.naturalKey) hbk
    · exact h.unique j k b c hbl hcl hk
  · intro j b hb
    rcases cases_of hb with ⟨rfl, rfl⟩ | ⟨-, hbl, hbk⟩
    · rw [reportsOn_concat, if_pos hr.naturalKey.symm, hr.naturalKey]
      exact ⟨hr.isProper, a, List.getLast?_concat, hr.mirrors⟩
    · rw [reportsOn_concat, if_neg (Ne.symm hbk)]
      exact h.rows j b hbl
  · intro b hb
    rcases List.mem_append.mp hb with hb | hb
    · obtain ⟨j, c, hj, hc⟩ := h.present b hb
      by_cases hji : j = i
      · exact ⟨i, row, hr.here, hr.naturalKey.trans (((hr.only j c hj).mpr hji).symm.trans hc)⟩
      · exact ⟨j, c, (hr.others j hji).trans hj, hc⟩
    · rw [List.mem_singleton.mp hb]
      exact ⟨i, row, hr.here, hr.naturalKey⟩

end Reflects

/-- Every row of the first store is still there in the second, under its id. -/
def Keeps (l m : Ledger) : Prop := ∀ i b, l.advisories.get? i = some b →
  ∃ c, m.advisories.get? i = some c ∧ c.naturalKey = b.naturalKey

theorem Landed.keeps {l m : Ledger} {done : List Advisory} {a row : Advisory} {i : Int}
    (hr : Landed l done a i row m) : Keeps l m := by
  intro j b hj
  by_cases hji : j = i
  · exact ⟨row, hji ▸ hr.here, hr.naturalKey.trans ((hr.only j b hj).mpr hji).symm⟩
  · exact ⟨b, (hr.others j hji).trans hj, rfl⟩

theorem Keeps.trans {l m n : Ledger} (h : Keeps l m) (h' : Keeps m n) : Keeps l n := by
  intro i b hb
  obtain ⟨c, hc, hk⟩ := h i b hb
  obtain ⟨d, hd, hk'⟩ := h' i c hc
  exact ⟨d, hd, hk'.trans hk⟩

namespace Reflects

variable {f : FaultyLedger} {l m : Ledger} {done : List Advisory} {a row : Advisory}
    {outcome : SyncOutcome}
  {i : Int} {key : Source × String}

theorem report (h : Reflects f.ledger done) (hf : f.faults = .none) (ha : a.IsPlain) :
    (a.reconcile f).state.faults = .none ∧ Reflects (a.reconcile f).state.ledger (done ++ [a]) ∧
      Keeps f.ledger (a.reconcile f).state.ledger := by
  obtain ⟨row, outcome, -, hs, hn, hw⟩ := reconcile_synced hf h.wellKept a
  obtain ⟨i, new, hr⟩ := h.landed ha hs
  exact ⟨hn, h.next hw hr, hr.keeps⟩

theorem run (h : Reflects f.ledger done) (hf : f.faults = .none) (reports : List Advisory)
    (hr : ∀ a ∈ reports, a.IsPlain) :
    (reconcileAll reports f).faults = .none ∧
      Reflects (reconcileAll reports f).ledger (done ++ reports) ∧
      Keeps f.ledger (reconcileAll reports f).ledger := by
  induction reports generalizing f done with
  | nil =>
    rw [List.append_nil]
    exact ⟨hf, h, fun i b hb => ⟨b, hb, rfl⟩⟩
  | cons a rest ih =>
    obtain ⟨ha, hrest⟩ := List.forall_mem_cons.mp hr
    obtain ⟨hn, hreflects, hkeeps⟩ := h.report hf ha
    obtain ⟨hn', hreflects', hkeeps'⟩ := ih hreflects hn hrest
    rw [List.append_assoc] at hreflects'
    exact ⟨hn', hreflects', hkeeps.trans hkeeps'⟩

theorem copies_eq (h : Reflects l done) (hi : l.advisories.get? i = some row) :
    l.copies row.naturalKey = [row] := by
  have hd := h.wellKept.distinct.advisories
  have hrows : l.advisories.filter (fun r => r.2.naturalKey = row.naturalKey) = [(i, row)] := by
    apply List.perm_singleton.mp
    apply (List.perm_ext_iff_of_nodup ((hd.of_map).filter _) (List.nodup_singleton _)).mpr
    rintro ⟨j, b⟩
    rw [List.mem_filter, List.mem_singleton, Table.mem_iff_get? hd, decide_eq_true_eq]
    constructor
    · rintro ⟨hj, hk⟩
      obtain rfl := h.unique j i b row hj hi hk
      rw [Option.some.inj (hj.symm.trans hi)]
    · intro he
      obtain ⟨rfl, rfl⟩ := Prod.mk.inj he
      exact ⟨hi, rfl⟩
  rw [copies, Table.values, List.filter_map]
  exact congrArg (List.map (·.2)) hrows

theorem copies_eq_nil_iff (h : Reflects l done) : l.copies key = [] ↔ reportsOn done key = [] := by
  rw [h.reportsOn_eq_nil_iff, List.eq_nil_iff_forall_not_mem]
  simp only [h.wellKept.mem_copies]
  constructor
  · intro hn i b hb hk
    exact hn b ⟨i, hb, hk⟩
  · rintro hn b ⟨i, hb, hk⟩
    exact hn i b hb hk

theorem mirrored (h : Reflects l done) (key : Source × String) :
    match (reportsOn done key).getLast? with
    | none => l.copies key = []
    | some last => ∃ row, l.copies key = [row] ∧ row.id ≠ none ∧
      row.Mirrors (reportsOn done key) last := by
  split
  · next hlast => exact h.copies_eq_nil_iff.mpr (List.getLast?_eq_none_iff.mp hlast)
  · next last hlast =>
    have hne : l.copies key ≠ [] := by
      intro hn
      rw [h.copies_eq_nil_iff.mp hn] at hlast
      cases hlast
    obtain ⟨row, hrow⟩ := List.exists_mem_of_ne_nil _ hne
    obtain ⟨i, hi, rfl⟩ := h.wellKept.mem_copies.mp hrow
    obtain ⟨-, last', hlast', hm⟩ := h.rows i row hi
    obtain rfl := Option.some.inj (hlast.symm.trans hlast')
    refine ⟨row, h.copies_eq hi, ?_, hm⟩
    rw [(h.wellKept.advisories i row hi).1]
    exact Option.some_ne_none i

/-- What becomes of the next report. -/
theorem outcome_iff (h : Reflects l done) (ha : a.IsPlain) (hs : Synced l a row outcome m) :
    (outcome = .created ↔ reportsOn done a.naturalKey = []) ∧
      (outcome = .updated ↔ ∃ stored, l.copies a.naturalKey = [stored] ∧ stored.Differs a) ∧
      (outcome = .unchanged ↔ ∃ stored, l.copies a.naturalKey = [stored] ∧ ¬ stored.Differs a) ∧
      (outcome = .unchanged → m = l) := by
  have stored_copies {id : Int} {stored : Advisory} (hi : l.advisories.get? id = some stored)
      (hk : stored.naturalKey = a.naturalKey) : l.copies a.naturalKey = [stored] :=
        hk ▸ h.copies_eq hi
  have changed {id : Int} {stored : Advisory} (hi : l.advisories.get? id = some stored) :
      (stored.update a).isChanged = true ↔
        stored.Differs a := isChanged_update (h.rows id stored hi).1 ha
  rw [← h.copies_eq_nil_iff]
  cases hs with
  | created hnone =>
    have hn := h.copies_eq_nil_iff.mpr (h.reportsOn_eq_nil_iff.mpr hnone)
    simp [hn]
  | updated hi hk hc =>
    have hd := (changed hi).mp hc
    simp [stored_copies hi hk, hd]
  | unchanged hi hk hc =>
    have hd := mt (changed hi).mpr (by simp [hc])
    simp [stored_copies hi hk, hd]

end Reflects

/-- From a store without advisories, after any reports that leave the severity to the scores and
hold no NaN: an advisory has one row if it was reported, and none if it was not. The row says what
its last report did, and keeps its id. The next report is created if it is the first on its
advisory, and if not, changes the row just where it differs from it. -/
theorem mirrors_reconcileAll (f : FaultyLedger) (hf : f.ledger.WellKept)
    (hfaults : f.faults = .none)
    (hadvisories : f.ledger.advisories = []) (reports : List Advisory)
    (hreports : ∀ a ∈ reports, a.IsPlain) :
    let g := reconcileAll reports f
    (∀ key, match (reportsOn reports key).getLast? with
      | none => g.ledger.copies key = []
      | some last => ∃ row, g.ledger.copies key = [row] ∧ row.id ≠ none ∧
        row.Mirrors (reportsOn reports key) last) ∧
      (∀ more : List Advisory, (∀ a ∈ more, a.IsPlain) → ∀ key row, g.ledger.copies key = [row] →
        ∃ row', (reconcileAll (reports ++ more) f).ledger.copies key = [row'] ∧ row'.id = row.id) ∧
      ∀ a : Advisory, a.IsPlain → ∃ row outcome, (a.reconcile g).result = .ok (row, outcome) ∧
        (outcome = .created ↔ reportsOn reports a.naturalKey = []) ∧
        (outcome = .updated ↔ ∃ stored, g.ledger.copies a.naturalKey = [stored] ∧
          stored.Differs a) ∧
        (outcome = .unchanged ↔ ∃ stored, g.ledger.copies a.naturalKey = [stored] ∧
          ¬ stored.Differs a) ∧
        (outcome = .unchanged → (a.reconcile g).state.ledger = g.ledger) := by
  obtain ⟨hn, h, -⟩ := (Reflects.initial hf hadvisories).run hfaults reports hreports
  rw [List.nil_append] at h
  refine ⟨h.mirrored, ?_, ?_⟩
  · intro more hmore key row hc
    obtain ⟨-, h', hkeeps⟩ := h.run hn more hmore
    obtain ⟨i, hi, rfl⟩ := h.wellKept.mem_copies.mp (hc ▸ List.mem_singleton_self row)
    obtain ⟨row', hi', hk⟩ := hkeeps i row hi
    refine ⟨row', ?_, ?_⟩
    · rw [reconcileAll, List.foldl_append, ← hk]
      exact h'.copies_eq hi'
    · rw [(h.wellKept.advisories i row hi).1, (h'.wellKept.advisories i row' hi').1]
  · intro a ha
    obtain ⟨row, outcome, hresult, hs, -⟩ := reconcile_synced hn h.wellKept a
    exact ⟨row, outcome, hresult, h.outcome_iff ha hs⟩

/-- A report of a score, and of an EPSS score where the source knows one. -/
def scored (points : Nat) (epss : Option Nat) : Advisory where
  vulnId := "A"
  cvss3 := { base := some (Severity.points points) }
  epssScore := epss.map Severity.points

/-- The row was critical, and becomes medium without losing the EPSS score. -/
theorem mirrors_reconcileAll_scoredTwice :
    (∀ a ∈ [scored 9 (some 1), scored 5 none], a.IsPlain) ∧
      ∃ row,
        (reconcileAll [scored 9 (some 1), scored 5 none] {}).ledger.copies (.nvd, "A") = [row] ∧
        row.severity = .medium ∧
        (row.cell .epssScore).same (Cell.ofScore? (some (Severity.points 1))) = true := by
  have hplain : ∀ a ∈ [scored 9 (some 1), scored 5 none], a.IsPlain := by
    intro a ha
    simp only [List.mem_cons, List.not_mem_nil, or_false] at ha
    rcases ha with rfl | rfl
    · exact ⟨rfl, by intro c; cases c <;> rfl⟩
    · exact ⟨rfl, by intro c; cases c <;> rfl⟩
  obtain ⟨row, hrow, -, hm⟩ :=
    (mirrors_reconcileAll {} wellKept_empty rfl rfl [scored 9 (some 1), scored 5 none] hplain).1
      (.nvd, "A")
  exact ⟨hplain, row, hrow, hm.severity, hm.ifPresent .epssScore rfl⟩

end Advisory

end AdvisoryLedger

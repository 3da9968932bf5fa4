import AdvisoryLedger.Proofs.Diff.Renumbered
import AdvisoryLedger.Proofs.Ledger.Hall
import AdvisoryLedger.Proofs.Reconcile.Copies

namespace AdvisoryLedger

open Ledger

namespace Ledger

def OneRowEach (l : Ledger) : Prop := ∀ i j b c, l.advisories.get? i = some b →
    l.advisories.get? j = some c →
  b.naturalKey = c.naturalKey → i = j

variable {l m : Ledger} {b c : Advisory} {id : Int} {key : Source × String}

theorem copy?_eq_none_iff (hl : l.WellKept) :
    l.copy? key = none ↔ ∀ i b, l.advisories.get? i = some b → b.naturalKey ≠ key := by
  rw [copy?, advisory?, List.find?_eq_none]
  constructor
  · intro h i b hb
    simpa using h b ((Table.mem_values_iff_get? hl.distinct.advisories).mpr ⟨i, hb⟩)
  · intro h b hb
    obtain ⟨i, hi⟩ := (Table.mem_values_iff_get? hl.distinct.advisories).mp hb
    simpa using h i b hi

theorem copy?_eq_some_iff (hl : l.WellKept) (h : l.OneRowEach) :
    l.copy? key = some b ↔ ∃ i, l.advisories.get? i = some b ∧ b.naturalKey = key := by
  constructor
  · intro hb
    obtain ⟨i, hi⟩ := (Table.mem_values_iff_get? hl.distinct.advisories).mp
      (List.mem_of_find?_eq_some hb)
    exact ⟨i, hi, naturalKey_of_copy? hb⟩
  · rintro ⟨i, hi, hk⟩
    cases hc : l.copy? key with
    | none => exact absurd hk ((copy?_eq_none_iff hl).mp hc i b hi)
    | some c =>
      obtain ⟨j, hj⟩ := (Table.mem_values_iff_get? hl.distinct.advisories).mp
        (List.mem_of_find?_eq_some hc)
      obtain rfl := h i j b c hi hj (hk.trans (naturalKey_of_copy? hc).symm)
      exact hj.symm.trans hi

theorem get?_of_copy? (hl : l.WellKept) (h : l.copy? key = some b) :
    ∃ i, b.id = some i ∧ l.advisories.get? i = some b := by
  obtain ⟨i, hi⟩ := (Table.mem_values_iff_get? hl.distinct.advisories).mp
    (List.mem_of_find?_eq_some h)
  exact ⟨i, (hl.advisories i b hi).1, hi⟩

namespace OneRowEach

theorem insert (hl : l.WellKept) (h : l.OneRowEach) (hb : l.copy? b.naturalKey = none) (n : Int) :
    OneRowEach { l with advisories := l.advisories.put l.nextId b, nextId := n } := by
  have hnone := (copy?_eq_none_iff hl).mp hb
  intro i j c d hc hd hk
  simp only [Table.get?_put] at hc hd
  split at hc <;> split at hd
  · next hi hj => exact hi.symm.trans hj
  · obtain rfl := Option.some.inj hc
    exact absurd hk.symm (hnone j d hd)
  · obtain rfl := Option.some.inj hd
    exact absurd hk (hnone i c hc)
  · exact h i j c d hc hd hk

theorem update (h : l.OneRowEach) (hb : l.advisories.get? id = some b)
    (hk : c.naturalKey = b.naturalKey) :
    OneRowEach { l with advisories := l.advisories.put id c } := by
  have same (i : Int) (d : Advisory) (hd : (l.advisories.put id c).get? i = some d) :
      ∃ e, l.advisories.get? i = some e ∧ e.naturalKey = d.naturalKey := by
    rw [Table.get?_put] at hd
    split at hd
    · next hi =>
        exact ⟨b, hi ▸ hb, hk.symm.trans (congrArg Advisory.naturalKey (Option.some.inj hd))⟩
    · exact ⟨d, hd, rfl⟩
  intro i j d e hd he hde
  obtain ⟨d', hd', hdk⟩ := same i d hd
  obtain ⟨e', he', hek⟩ := same j e he
  exact h i j d' e' hd' he' (hdk.trans (hde.trans hek.symm))

theorem erase (h : l.OneRowEach) (id : Int) :
    OneRowEach { l with advisories := l.advisories.erase id } := by
  intro i j b c hb hc hk
  simp only [Table.get?_erase] at hb hc
  split at hb
  · cases hb
  · split at hc
    · cases hc
    · exact h i j b c hb hc hk

end OneRowEach

theorem copy?_erase (hl : l.WellKept) (h : l.OneRowEach) (hb : l.advisories.get? id = some b) :
    Ledger.copy? { l with advisories := l.advisories.erase id } = Function.update l.copy? b.naturalKey none := by
  have hl' : WellKept { l with advisories := l.advisories.erase id } :=
    hl.apply (u := .eraseAdvisory id) trivial
  funext key
  apply Option.ext
  intro c
  rw [copy?_eq_some_iff hl' (h.erase id)]
  simp only [Table.get?_erase]
  by_cases hk : key = b.naturalKey
  · subst hk
    rw [Function.update_self]
    constructor
    · rintro ⟨i, hi, hck⟩
      split at hi
      · cases hi
      · next hne => exact absurd (h id i b c hb hi hck.symm) hne
    · intro hc
      cases hc
  · rw [Function.update_of_ne hk, copy?_eq_some_iff hl h]
    constructor
    · rintro ⟨i, hi, hck⟩
      split at hi
      · cases hi
      · exact ⟨i, hi, hck⟩
    · rintro ⟨i, hi, hck⟩
      refine ⟨i, ?_, hck⟩
      rw [if_neg]
      · exact hi
      · rintro rfl
        exact hk (hck.symm.trans
          (congrArg Advisory.naturalKey (Option.some.inj (hi.symm.trans hb))))

end Ledger

namespace Advisory

variable {a row : Advisory} {outcome : SyncOutcome} {l m : Ledger} {bound : Int}
    {before now : Option Advisory}
  {d : SessionProgram (Advisory × SyncOutcome)} {undo : List Undo} {x : Advisory × SyncOutcome}

theorem Synced.oneRowEach (h : Synced l a row outcome m) (hl : l.WellKept) (ho : l.OneRowEach) :
    m.OneRowEach := by
  cases h with
  | created hnone =>
    exact ho.insert (b := a.renumbered (some l.nextId)) hl ((copy?_eq_none_iff hl).mpr hnone) _
  | updated hi hk hc => exact ho.update hi (updated_update _ a).naturalKey
  | unchanged => exact ho

theorem Synced.nextId_le (h : Synced l a row outcome m) : l.nextId ≤ m.nextId := by
  cases h with
  | created => exact Int.le_add_one (Int.le_refl _)
  | updated => exact Int.le_refl _
  | unchanged => exact Int.le_refl _

/-- What is left of a reconciliation once it has the copy. -/
def proceed (a : Advisory) : Option Advisory → SessionProgram (Advisory × SyncOutcome)
  | none => do
    let row ← Call.ask (.insertAdvisory a)
    pure (row, .created)
  | some copy => do
    if (copy.update a).isChanged then do
      Call.ask (.updateAdvisory (copy.update a).existing)
      pure ((copy.update a).existing, .updated)
    else pure ((copy.update a).existing, .unchanged)

theorem sync_eq (a : Advisory) :
    a.sync = Call.ask (.getAdvisory a.source a.vulnId) >>= a.proceed := by
  rw [sync]
  congr 1
  funext copy
  cases copy <;> rfl

/-- How far a reconciliation has come: what is left to do and what it would take back, the copy that
was there before, and the one that is there now. New rows have ids from a bound on. -/
inductive Stage (bound : Int) (a : Advisory) (before : Option Advisory) :
    SessionProgram (Advisory × SyncOutcome) → List Undo → Option Advisory → Prop
  | start : Stage bound a before a.sync [] before
  | found : Stage bound a before (a.proceed before) [] before
  | created {id : Int} (hb : before = none) (hid : bound ≤ id) :
    Stage bound a before (.done (a.renumbered (some id), .created)) [.eraseAdvisory id]
      (some (a.renumbered (some id)))
  | updated {copy : Advisory} {id : Int} (hb : before = some copy) (hid : copy.id = some id)
    (hc : (copy.update a).isChanged = true) :
    Stage bound a before (.done ((copy.update a).existing, .updated)) [.restoreAdvisory id copy]
      (some (copy.update a).existing)

namespace Stage

/-- A reconciliation that is through has come to what follows from the copy that was there. -/
theorem done (h : Stage bound a before (.done x) undo now) (next : Int) (hn : bound ≤ next) :
    ∃ id, bound ≤ id ∧ x = a.comesTo id before ∧ now = some x.1 := by
  generalize hd : Dialogue.done x = d at h
  cases h with
  | start => cases hd
  | found =>
    cases before with
    | none => cases hd
    | some copy =>
      simp only [proceed] at hd
      split at hd
      · cases hd
      · next hc =>
        cases hd
        have hu := (Bool.not_eq_true _).mp hc
        refine ⟨next, hn, by simp [comesTo, hu], ?_⟩
        rw [existing_of_unchanged hu]
  | created hb hid =>
    cases hd
    exact ⟨_, hid, by rw [hb]; rfl, rfl⟩
  | updated hb hid hc =>
    cases hd
    exact ⟨next, hn, by simp [hb, comesTo, hc], rfl⟩

/-- A reconciliation that is not through has a request to make. -/
theorem shape (h : Stage bound a before d undo now) :
    (∃ x, d = .done x) ∨ ∃ (call : Call) (next : _), d = .ask call next := by
  cases h with
  | start => exact .inr ⟨_, _, rfl⟩
  | found =>
    cases before with
    | none => exact .inr ⟨_, _, rfl⟩
    | some copy =>
      rw [proceed]
      split
      · exact .inr ⟨_, _, rfl⟩
      · exact .inl ⟨_, rfl⟩
  | created => exact .inl ⟨_, rfl⟩
  | updated => exact .inl ⟨_, rfl⟩

theorem ask {call : Call} {next : Except Failure call.Reply →
      SessionProgram (Advisory × SyncOutcome)}
    (h : Stage bound a before (.ask call next) undo now) (hl : l.WellKept) (ho : l.OneRowEach)
    (hb : bound ≤ l.nextId) (hnow : l.copy? a.naturalKey = now)
    (hk : ∀ b, before = some b → b.naturalKey = a.naturalKey) :
    ∃ p now', l.perform call = .ok p ∧
      Stage bound a before (next (.ok p.reply)) (p.undo ++ undo) now' ∧
      p.ledger.copy? = Function.update l.copy? a.naturalKey now' ∧ p.ledger.OneRowEach := by
  generalize hd : Dialogue.ask call next = d at h
  cases h with
  | start =>
    rw [sync_eq] at hd
    cases hd
    refine ⟨⟨l.copy? a.naturalKey, l, []⟩, before, rfl, ?_, ?_, ho⟩
    · rw [hnow]
      exact .found
    · rw [← hnow, Function.update_eq_self]
  | found =>
    cases before with
    | none =>
      cases hd
      refine ⟨⟨a.renumbered (some l.nextId), { l with
        advisories := l.advisories.put l.nextId (a.renumbered (some l.nextId))
        nextId := l.nextId + 1 }, [.eraseAdvisory l.nextId]⟩, _, ?_, .created rfl hb, ?_, ?_⟩
      · have hn : l.advisory? a.source a.vulnId = none := hnow
        simp only [perform, hn]
        rfl
      · exact copy?_insert (b := a.renumbered (some l.nextId)) hl hnow _
      · exact ho.insert (b := a.renumbered (some l.nextId)) hl hnow _
    | some copy =>
      simp only [proceed] at hd
      split at hd
      · next hc =>
        cases hd
        have hu := updated_update copy a
        obtain ⟨id, hid, hget⟩ := get?_of_copy? hl hnow
        refine ⟨⟨(), { l with advisories := l.advisories.put id (copy.update a).existing },
          [.restoreAdvisory id copy]⟩, _, ?_, .updated rfl hid hc, ?_, ?_⟩
        · simp only [perform, hu.id, hid, Option.bind_some, hget, Option.map_some]
        · exact copy?_update hl hnow hid (hu.naturalKey.trans (hk copy rfl))
        · exact ho.update hget hu.naturalKey
      · cases hd
  | created => cases hd
  | updated => cases hd

theorem back (h : Stage bound a before d undo now) (hl : l.WellKept) (ho : l.OneRowEach)
    (hnow : l.copy? a.naturalKey = now) (hk : ∀ b, before = some b → b.naturalKey = a.naturalKey) :
    (l.rollback undo).copy? = Function.update l.copy? a.naturalKey before ∧
      (l.rollback undo).OneRowEach := by
  cases h with
  | start => exact ⟨by rw [← hnow, Function.update_eq_self]; rfl, ho⟩
  | found => exact ⟨by rw [← hnow, Function.update_eq_self]; rfl, ho⟩
  | @created id hb hid =>
    obtain ⟨i, hi, hget⟩ := get?_of_copy? hl hnow
    obtain rfl := Option.some.inj hi
    refine ⟨?_, ho.erase id⟩
    rw [hb]
    exact copy?_erase (b := a.renumbered (some id)) hl ho hget
  | @updated copy id hb hid hc =>
    have hu := updated_update copy a
    obtain ⟨i, hi, hget⟩ := get?_of_copy? hl hnow
    rw [hu.id, hid] at hi
    obtain rfl := Option.some.inj hi
    refine ⟨?_, ho.update hget hu.naturalKey.symm⟩
    rw [hb]
    exact copy?_update hl hnow (hu.id.trans hid) (hk copy hb)

end Stage

end Advisory

end AdvisoryLedger

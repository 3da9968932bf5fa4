import AdvisoryLedger.Proofs.Ledger.Entering
import AdvisoryLedger.Proofs.Reconcile.Stages

namespace AdvisoryLedger

open Ledger

namespace Source

theorem colon_notMem_name (s : Source) : ':' ∉ s.name.toList := by cases s <;> decide +kernel

theorem name_inj {s t : Source} (h : s.name = t.name) : s = t :=
  Option.some.inj ((ofName?_name s).symm.trans ((congrArg ofName? h).trans (ofName?_name t)))

end Source

namespace Advisory

/-- No source has a colon in its name, so that the text of a lock tells the source from the rest. -/
theorem lockKey_eq_iff (a b : Advisory) : a.lockKey = b.lockKey ↔ a.naturalKey = b.naturalKey := by
  have toList (c : Advisory) :
      c.lockKey.toList = c.source.name.toList ++ ':' :: c.vulnId.toList := by
    simp [lockKey]
  have name (c : Advisory) : c.lockKey.toList.takeWhile (· ≠ ':') = c.source.name.toList := by
    rw [toList, List.takeWhile_append_of_pos]
    · simp
    · intro x hx
      rw [decide_eq_true_eq]
      rintro rfl
      exact c.source.colon_notMem_name hx
  constructor
  · intro h
    have hname : a.source.name.toList = b.source.name.toList := by rw [← name, ← name, h]
    have hlist : a.lockKey.toList = b.lockKey.toList := congrArg String.toList h
    rw [toList, toList, hname] at hlist
    obtain ⟨-, hid⟩ := List.cons.inj (List.append_cancel_left hlist)
    exact Prod.ext (Source.name_inj (String.toList_injective hname)) (String.toList_injective hid)
  · intro h
    obtain ⟨hs, hv⟩ := Prod.mk.inj h
    rw [lockKey, lockKey, hs, hv]

theorem lockKey_ne_empty (a : Advisory) : a.lockKey ≠ "" := by
  intro h
  have := a.lockKey_isEmpty
  simp [h] at this

/-- Reports that were reconciled one after the other: the ledger, and what became of each. -/
structure Minutes where
  ledger : Ledger
  results : List (Nat × Result) := []

/-- The next report is reconciled; if it is struck, its first request fails. Where it fails makes no
difference (`FellThrough`). -/
def Minutes.next (reports : List Advisory) (struck : Nat → Option Failure) (t : Minutes)
    (i : Nat) : Minutes :=
  match reports[i]? with
  | some a =>
    let x := a.reconcile (⟨t.ledger, fun _ _ => struck i, []⟩ : FaultyLedger)
    ⟨x.state.ledger, t.results ++ [(i, x.result)]⟩
  | none => t

def inTurn (reports : List Advisory) (struck : Nat → Option Failure) (l : Ledger)
    (order : List Nat) : Minutes :=
  order.foldl (Minutes.next reports struck) ⟨l, []⟩

/-- What becomes of a report in its turn: of the copy that was there, and of one that is struck. -/
inductive Served (bound : Int) (a : Advisory) (before : Option Advisory) :
    Option Failure → Result → Option Advisory → Prop
  | through {id : Int} (hid : bound ≤ id) :
    Served bound a before none (.ok (a.comesTo id before)) (some (a.comesTo id before).1)
  | struck (e : Failure) : Served bound a before (some e) (.error e) before

variable {reports : List Advisory} {struck : Nat → Option Failure} {bound : Int}
    {a : Advisory} {i j : Nat}

/-- The faults of one turn: a report that is struck fails with its first request. -/
theorem reconcile_struck (l : Ledger) (a : Advisory) (e : Failure) :
    (a.reconcile (⟨l, fun _ _ => some e, []⟩ : FaultyLedger)).result = .error e ∧
      (a.reconcile (⟨l, fun _ _ => some e, []⟩ : FaultyLedger)).state.ledger = l := ⟨rfl, rfl⟩

theorem Minutes.served {t : Minutes} (struck : Nat → Option Failure) (hl : t.ledger.WellKept)
    (ho : t.ledger.OneRowEach) (hn : bound ≤ t.ledger.nextId) (hi : reports[i]? = some a) :
    ∃ r now m, t.next reports struck i = ⟨m, t.results ++ [(i, r)]⟩ ∧
      Served bound a (t.ledger.copy? a.naturalKey) (struck i) r now ∧
      m.copy? = Function.update t.ledger.copy? a.naturalKey now ∧ m.WellKept ∧ m.OneRowEach ∧
      bound ≤ m.nextId := by
  have hnext : t.next reports struck i =
      ⟨(a.reconcile (⟨t.ledger, fun _ _ => struck i, []⟩ : FaultyLedger)).state.ledger,
        t.results ++
          [(i, (a.reconcile (⟨t.ledger, fun _ _ => struck i, []⟩ : FaultyLedger)).result)]⟩ := by
    simp only [next, hi]
  rw [hnext]
  cases hs : struck i with
  | none =>
    have hc := cameThrough (f := ⟨t.ledger, fun _ _ => none, []⟩) hl rfl a
    refine ⟨_, _, _, rfl, ?_, hc.copies, reconcile_wellKept (f := ⟨t.ledger, _, []⟩) hl a,
      hc.synced.oneRowEach hl ho, Int.le_trans hn hc.synced.nextId_le⟩
    rw [hc.result]
    exact .through hn
  | some e =>
    obtain ⟨hr, hm⟩ := reconcile_struck t.ledger a e
    refine ⟨_, t.ledger.copy? a.naturalKey, _, rfl, ?_, ?_, ?_, ?_, ?_⟩
    · rw [hr]
      exact .struck e
    · rw [hm, Function.update_eq_self]
    · rw [hm]
      exact hl
    · rw [hm]
      exact ho
    · rw [hm]
      exact hn

section Comes

variable {before before' : Option Advisory} {id id' : Int}

theorem Alike.comesTo (h : Option.Rel (Alike bound) before before') (hid : bound ≤ id)
    (hid' : bound ≤ id') :
    Alike bound (a.comesTo id before).1 (a.comesTo id' before').1 ∧
      (a.comesTo id before).2 = (a.comesTo id' before').2 := by
  cases h with
  | none => exact ⟨Alike.inserted a hid hid', rfl⟩
  | some h =>
    obtain ⟨hrow, hchanged⟩ := h.update a
    refine ⟨hrow, ?_⟩
    simp only [Advisory.comesTo, hchanged]

theorem naturalKey_comesTo (h : ∀ b, before = some b → b.naturalKey = a.naturalKey) :
    (a.comesTo id before).1.naturalKey = a.naturalKey := by
  cases before with
  | none => rfl
  | some b => exact (updated_update b a).naturalKey.trans (h b rfl)

theorem id_comesTo {b : Advisory} (h : before = some b) : (a.comesTo id before).1.id = b.id := by
  subst h
  exact (updated_update b a).id

end Comes

/-- The visits of a hall reconcile reports, and those that are inside are about different
advisories. -/
structure Attended (reports : List Advisory) (g : Hall (Advisory × SyncOutcome)) : Prop where
  locks : ∀ i lock, g.lock? i = some lock → ∃ a, reports[i]? = some a ∧ lock = some a.lockKey
  waiting : ∀ i program a, g.phase? i = some (.waiting program) → reports[i]? = some a →
    program = a.sync
  alone : ∀ i j a b, reports[i]? = some a → reports[j]? = some b → a.naturalKey = b.naturalKey →
    g.Within i → g.Within j → i = j

namespace Attended

variable {g : Hall (Advisory × SyncOutcome)} {p q : Visit.Phase (Advisory × SyncOutcome)}

theorem report_of_phase? (h : Attended reports g) (hp : g.phase? i = some p) :
    ∃ a, reports[i]? = some a ∧ g.lock? i = some (some a.lockKey) := by
  obtain ⟨v, hv, -⟩ := Option.map_eq_some_iff.mp hp
  have hlock : g.lock? i = some v.lock := by rw [Hall.lock?, hv, Option.map_some]
  obtain ⟨a, ha, hl⟩ := h.locks i v.lock hlock
  exact ⟨a, ha, hl ▸ hlock⟩

theorem lock?_of_phase? (h : Attended reports g) (hi : reports[i]? = some a)
    (hp : g.phase? i = some p) :
    g.lock? i = some (some a.lockKey) := by
  obtain ⟨b, hb, hlock⟩ := h.report_of_phase? hp
  obtain rfl := Option.some.inj (hi.symm.trans hb)
  exact hlock

/-- A report may go in when nobody who is about the same advisory is inside, or waits and came
before it. -/
theorem mayEnter_iff (h : Attended reports g) (hi : reports[i]? = some a) (hw : g.Waits i) :
    g.mayEnter i = true ↔ ∀ j b, reports[j]? = some b → b.naturalKey = a.naturalKey →
      ¬ g.Within j ∧ (j < i → ¬ g.Waits j) := by
  obtain ⟨program, hp⟩ := hw
  have hlock := h.lock?_of_phase? hi hp
  rw [Hall.mayEnter_iff a.lockKey_ne_empty hlock]
  constructor
  · rintro ⟨-, hall⟩ j b hj hk
    have same {p : Visit.Phase (Advisory × SyncOutcome)} (hp : g.phase? j = some p) :
        g.lock? j = some (some a.lockKey) := by
      rw [h.lock?_of_phase? hj hp, (lockKey_eq_iff b a).mpr hk]
    refine ⟨fun hg => ?_, fun hji hg => ?_⟩
    · obtain ⟨rest, undo, hq⟩ := hg
      exact (hall j (same hq)).1 ⟨rest, undo, hq⟩
    · obtain ⟨other, hq⟩ := hg
      exact (hall j (same hq)).2 hji ⟨other, hq⟩
  · intro hall
    refine ⟨⟨program, hp⟩, fun j hj => ?_⟩
    obtain ⟨b, hb, hl⟩ := h.locks j _ hj
    exact hall j b hb ((lockKey_eq_iff b a).mp (Option.some.inj hl).symm)

/-- One visit goes on. It may only come to be inside where nobody else is who is about the same
advisory. -/
theorem setPhase (h : Attended reports g) (hi : reports[i]? = some a) (hq : g.phase? i = some q)
    (hw : ∀ program, p ≠ .waiting program)
    (hn : ∀ j b, i ≠ j → reports[j]? = some b → b.naturalKey = a.naturalKey →
      (∃ rest undo, p = .inside rest undo) → ¬ g.Within j) (l : Ledger) :
    Attended reports ({ g with ledger := l }.setPhase i p) := by
  have hself : ({ g with ledger := l }.setPhase i p).phase? i = some p :=
    Hall.phase?_setPhase_self (g := { g with ledger := l }) hq p
  have within {j : Nat} (hij : i ≠ j) (hg : Hall.Within ({ g with ledger := l }.setPhase i p) j) :
      g.Within j :=
    (Hall.within_setPhase_of_ne (g := { g with ledger := l }) hij p).mp hg
  refine ⟨?_, ?_, ?_⟩
  · intro j lock hj
    rw [Hall.lock?_setPhase] at hj
    exact h.locks j lock hj
  · intro j program c hj hc
    by_cases hij : i = j
    · subst hij
      exact absurd (Option.some.inj (hself.symm.trans hj)) (hw program)
    · exact h.waiting j program c ((Hall.phase?_setPhase_of_ne hij p).symm.trans hj) hc
  · intro j k b c hj hk hbc hgj hgk
    by_cases hij : i = j <;> by_cases hik : i = k
    · exact hij.symm.trans hik
    · subst hij
      obtain rfl := Option.some.inj (hi.symm.trans hj)
      exact absurd (within hik hgk) (hn k c hik hk hbc.symm
        ((Hall.within_setPhase_self (g := { g with ledger := l }) hq p).mp hgj))
    · subst hik
      obtain rfl := Option.some.inj (hi.symm.trans hk)
      exact absurd (within hij hgj) (hn j b hij hj hbc
        ((Hall.within_setPhase_self (g := { g with ledger := l }) hq p).mp hgk))
    · exact h.alone j k b c hj hk hbc (within hij hgj) (within hik hgk)

theorem arrive (h : Attended reports g) (ha : reports[g.visits.length]? = some a) :
    Attended reports (g.arrive (some a.lockKey) a.sync) := by
  have old {j : Nat} {p : Visit.Phase (Advisory × SyncOutcome)}
    (hp : ∀ program, p ≠ .waiting program)
      (hj : (g.arrive (some a.lockKey) a.sync).phase? j = some p) : g.phase? j = some p := by
    rw [Hall.phase?_arrive] at hj
    split at hj
    · exact absurd (Option.some.inj hj).symm (hp a.sync)
    · exact hj
  have within {j : Nat} (hg : (g.arrive (some a.lockKey) a.sync).Within j) : g.Within j := by
    obtain ⟨rest, undo, hq⟩ := hg
    exact ⟨rest, undo, old (by simp) hq⟩
  refine ⟨?_, ?_, ?_⟩
  · intro i lock hi
    rw [Hall.lock?_arrive] at hi
    split at hi
    · next hlength => exact ⟨a, hlength ▸ ha, (Option.some.inj hi).symm⟩
    · exact h.locks i lock hi
  · intro i program b hi hb
    rw [Hall.phase?_arrive] at hi
    split at hi
    · next hlength =>
      rw [hlength] at hb
      obtain rfl := Option.some.inj (ha.symm.trans hb)
      cases hi
      rfl
    · exact h.waiting i program b hi hb
  · intro i j b c hi hj hbc hgi hgj
    exact h.alone i j b c hi hj hbc (within hgi) (within hgj)

end Attended

end Advisory

end AdvisoryLedger

import AdvisoryLedger.Proofs.Ledger.Hall

namespace AdvisoryLedger

/-- Where a ledger holds something. -/
inductive Place
  | advisory (id : Int)
  | range (id : Int)
  | attribution (id : Int)
  | association (advisoryId : Int)
  | property (key : String × String)
  deriving DecidableEq

/-- A row whose id the counter is past, or no row. -/
def Place.IsBelow (bound : Int) : Place → Prop
  | .advisory id => id < bound
  | .range id => id < bound
  | .attribution id => id < bound
  | _ => True

theorem Place.IsBelow.mono {bound bound' : Int} {q : Place} (h : q.IsBelow bound)
    (hb : bound ≤ bound') :
    q.IsBelow bound' := by
  cases q with
  | association id => trivial
  | property key => trivial
  | _ => exact Int.lt_of_lt_of_le h hb

/-- Where a step takes something back. -/
def Undo.place : Undo → Place
  | .eraseAdvisory id => .advisory id
  | .restoreAdvisory id _ => .advisory id
  | .eraseRange id => .range id
  | .eraseAttribution id => .attribution id
  | .restoreAttribution id _ => .attribution id
  | .restoreLastSeen id _ => .attribution id
  | .restoreAssociation id _ => .association id
  | .eraseConfig key => .property key
  | .restoreConfig key _ => .property key

namespace Ledger

def SameAt (l m : Ledger) : Place → Prop
  | .advisory id => l.advisories.get? id = m.advisories.get? id
  | .range id => l.ranges.get? id = m.ranges.get? id
  | .attribution id => l.attributions.get? id = m.attributions.get? id
  | .association id => l.associated id = m.associated id
  | .property key => l.config.get? key = m.config.get? key

variable {l m n : Ledger} {q : Place}

theorem agrees_iff_sameAt : l.Agrees m ↔ ∀ q, l.SameAt m q := by
  constructor
  · intro h q
    cases q with
    | advisory id => exact h.advisories id
    | range id => exact h.ranges id
    | attribution id => exact h.attributions id
    | association id => exact h.associated id
    | property key => exact h.config key
  · intro h
    exact ⟨fun id => h (.advisory id), fun id => h (.range id), fun id => h (.attribution id),
      fun id => h (.association id), fun key => h (.property key)⟩

theorem SameAt.refl (l : Ledger) (q : Place) : l.SameAt l q := by cases q <;> exact rfl

theorem SameAt.symm (h : l.SameAt m q) : m.SameAt l q := by cases q <;> exact Eq.symm h

theorem SameAt.trans (h : l.SameAt m q) (h' : m.SameAt n q) : l.SameAt n q := by
  cases q <;> exact Eq.trans h h'

theorem SameAt.numbered (h : l.SameAt m q) (i j : Int) :
    SameAt { l with nextId := i } { m with nextId := j } q := by
  cases q <;> exact h

theorem sameAt_apply {u : Undo} (h : u.place ≠ q) : (Undo.apply l u).SameAt l q := by
  cases u <;> cases q <;> first
    | exact rfl
    | simp_all [Undo.place, Undo.apply, SameAt, Table.get?_put, Table.get?_erase, Table.get?_modify,
        associated_put]

theorem sameAt_rollback {undo : List Undo} (h : ∀ u ∈ undo, u.place ≠ q) :
    (l.rollback undo).SameAt l q := by
  induction undo generalizing l with
  | nil => exact .refl l q
  | cons u rest ih =>
    obtain ⟨hu, hrest⟩ := List.forall_mem_cons.mp h
    exact (ih hrest).trans (sameAt_apply hu)

theorem SameAt.apply (h : l.SameAt m q) (u : Undo) :
    (Undo.apply l u).SameAt (Undo.apply m u) q := by
  cases u <;> cases q <;> first
    | exact h
    | simp_all [Undo.apply, SameAt, Table.get?_put, Table.get?_erase, Table.get?_modify,
        associated_put]

/-- What it makes of a place depends on that place alone. -/
theorem SameAt.rollback (h : l.SameAt m q) (undo : List Undo) :
    (l.rollback undo).SameAt (m.rollback undo) q := by
  induction undo generalizing l m with
  | nil => exact h
  | cons u rest ih => exact ih (h.apply u)

/-- A request that makes a change looks at the place, or changes it. -/
def concerns (l : Ledger) (call : Call) (q : Place) : Bool :=
  match call, q with
  | .insertAdvisory a, .advisory id =>
    (l.advisories.get? id).any fun row => row.naturalKey = a.naturalKey
  | .updateAdvisory a, .advisory id => a.id = some id
  | .insertAttribution a, .attribution id =>
    (l.attributions.get? id).any fun row => row.triple = a.triple
  | .touchAttributions v ids s _, .attribution id =>
    (l.attributions.get? id).any fun row => isMatch v ids s (id, row)
  | .deleteAttributions v ids s, .attribution id =>
    (l.attributions.get? id).any fun row => isMatch v ids s (id, row)
  | .setRanges v _, .association id => v = id
  | .setConfig group name _, .property key => (group, name) = key
  | _, _ => false

theorem concerns_congr (h : l.SameAt m q) (call : Call) :
    l.concerns call q = m.concerns call q := by
  cases call <;> cases q <;> first
    | rfl
    | simp_all [concerns, SameAt]

section

variable {call : Call} {p p' : Performed call.Reply}

/-- A request leaves every place that it does not concern, but for a row that it adds. -/
theorem perform_frame (hl : l.WellKept) (h : l.perform call = .ok p) (hb : q.IsBelow l.nextId)
    (hq : l.concerns call q = false) : p.ledger.SameAt l q := by
  -- most writes are what one step that puts something back would do
  cases performs_of_perform h with
  | read _ reply => exact .refl l q
  | @insertAdvisory a _ =>
    have hne : Place.advisory l.nextId ≠ q := by
      rintro rfl
      exact Int.lt_irrefl _ hb
    exact (sameAt_apply (u := .restoreAdvisory l.nextId { a with id := some l.nextId }) hne).numbered _ l.nextId
  | @updateAdvisory a previous id ha hp =>
    refine sameAt_apply (u := .restoreAdvisory id a) ?_
    rintro rfl
    simp [concerns, Undo.place, ha] at hq
  | insertRange r =>
    cases q with
    | range id => simp [SameAt, Table.get?_put, Int.ne_of_gt (show id < l.nextId from hb)]
    | _ => exact rfl
  | @insertAttribution a _ =>
    have hne : Place.attribution l.nextId ≠ q := by
      rintro rfl
      exact Int.lt_irrefl _ hb
    exact (sameAt_apply (u := .restoreAttribution l.nextId { a with id := some l.nextId }) hne).numbered _ l.nextId
  | touchAttributions v ids s seenAt =>
    rw [hl.foldl_touch]
    cases q with
    | attribution id =>
      simp only [SameAt, touched, Table.get?_mapWhere]
      cases hg : l.attributions.get? id with
      | none => rfl
      | some a =>
        have hm : isMatch v ids s (id, a) = false := by simpa [concerns, hg] using hq
        simp [hm]
    | _ => exact rfl
  | deleteAttributions v ids s =>
    rw [hl.foldl_delete]
    cases q with
    | attribution id =>
      simp only [SameAt, remaining, Table.get?_filter hl.distinct.attributions]
      cases hg : l.attributions.get? id with
      | none => rfl
      | some a =>
        have hm : isMatch v ids s (id, a) = false := by simpa [concerns, hg] using hq
        simp [Option.filter, hm]
    | _ => exact rfl
  | setRanges v ids =>
    refine sameAt_apply (u := .restoreAssociation v (.ofList ids)) ?_
    rintro rfl
    simp [concerns, Undo.place] at hq
  | setConfig group name value =>
    refine sameAt_apply (u := .restoreConfig (group, name) value) ?_
    rintro rfl
    simp [concerns, Undo.place] at hq

theorem perform_places (hl : l.WellKept) (h : l.perform call = .ok p) :
    ∀ u ∈ p.undo, u.place.IsBelow p.ledger.nextId := by
  cases performs_of_perform h with
  | read _ reply => simp
  | insertAdvisory _ =>
    intro u hu
    obtain rfl := List.mem_singleton.mp hu
    exact Int.lt_succ l.nextId
  | updateAdvisory ha hp => simpa [Undo.place, Place.IsBelow] using (hl.advisories _ _ hp).2
  | insertRange r =>
    intro u hu
    obtain rfl := List.mem_singleton.mp hu
    exact Int.lt_succ l.nextId
  | insertAttribution _ =>
    intro u hu
    obtain rfl := List.mem_singleton.mp hu
    exact Int.lt_succ l.nextId
  | touchAttributions =>
    intro u hu
    obtain ⟨row, hrow, rfl⟩ := List.mem_map.mp (List.mem_reverse.mp hu)
    exact (hl.attributions row.1 row.2
      (Table.get?_of_mem hl.distinct.attributions (List.mem_filter.mp hrow).1)).2
  | deleteAttributions =>
    intro u hu
    obtain ⟨row, hrow, rfl⟩ := List.mem_map.mp (List.mem_reverse.mp hu)
    exact (hl.attributions row.1 row.2
      (Table.get?_of_mem hl.distinct.attributions (List.mem_filter.mp hrow).1)).2
  | setRanges id ids => simp [Undo.place, Place.IsBelow]
  | setConfig group name value =>
    intro u hu
    obtain rfl := List.mem_singleton.mp hu
    split <;> trivial

/-- Whether a change is granted depends on the places that it concerns. -/
theorem granted_of_sameAt (hl : l.WellKept) (hm : m.WellKept) (hc : isQuestion call = false)
    (hs : ∀ q, l.concerns call q = true ∨ m.concerns call q = true → l.SameAt m q)
    (h : l.perform call = .ok p) :
    ∃ p', m.perform call = .ok p' := by
  cases performs_of_perform h with
  | read hq reply => cases hc.symm.trans hq
  | @insertAdvisory a ha =>
    simp only [perform]
    cases hf : m.advisory? a.source a.vulnId with
    | none => exact ⟨_, rfl⟩
    | some row =>
      -- the row that is in the way is in the way in the other ledger as well
      have hk := List.find?_some hf
      obtain ⟨id, hid⟩ := (Table.mem_values_iff_get? hm.distinct.advisories).mp
        (List.mem_of_find?_eq_some hf)
      have hsame : l.advisories.get? id = m.advisories.get? id :=
        hs (.advisory id) (.inr (by simpa [concerns, hid, Advisory.naturalKey] using hk))
      have hrow : row ∈ l.advisories.values :=
        (Table.mem_values_iff_get? hl.distinct.advisories).mpr ⟨id, hsame.trans hid⟩
      exact absurd hk (List.find?_eq_none.mp ha row hrow)
  | @updateAdvisory a previous id ha hp =>
    have hsame : l.advisories.get? id = m.advisories.get? id :=
      hs (.advisory id) (.inl (by simp [concerns, ha]))
    simp only [perform, ha, Option.bind_some, ← hsame, hp, Option.map_some]
    exact ⟨_, rfl⟩
  | @insertAttribution a ha =>
    simp only [perform]
    cases hf : m.isAttributed a.advisoryId a.rangeId a.source with
    | false => exact ⟨_, rfl⟩
    | true =>
      obtain ⟨row, hrow, hk⟩ := List.any_eq_true.mp hf
      obtain ⟨id, hid⟩ := (Table.mem_values_iff_get? hm.distinct.attributions).mp hrow
      have hsame : l.attributions.get? id = m.attributions.get? id :=
        hs (.attribution id) (.inr (by simpa [concerns, hid, Attribution.triple] using hk))
      have hrow : row ∈ l.attributions.values :=
        (Table.mem_values_iff_get? hl.distinct.attributions).mpr ⟨id, hsame.trans hid⟩
      exact absurd hk (List.any_eq_false.mp ha row hrow)
  | _ => exact ⟨_, rfl⟩

/-- Two ledgers that both grant a request come out the same wherever they were the same. -/
theorem perform_sameAt (hl : l.WellKept) (hm : m.WellKept) (hn : l.nextId = m.nextId)
    (h : l.perform call = .ok p) (h' : m.perform call = .ok p') :
    p.ledger.nextId = p'.ledger.nextId ∧ ∀ q, l.SameAt m q → p.ledger.SameAt p'.ledger q := by
  have h' := performs_of_perform h'
  cases performs_of_perform h with
  | read hc reply =>
    cases h' with
    | read _ reply' => exact ⟨hn, fun q hq => hq⟩
    | _ => cases hc
  | @insertAdvisory a _ =>
    cases h' with
    | read hc => cases hc
    | insertAdvisory _ =>
      rw [← hn]
      exact ⟨rfl, fun q hq =>
        (hq.apply (.restoreAdvisory l.nextId { a with id := some l.nextId })).numbered _ _⟩
  | @updateAdvisory a _ id ha _ =>
    cases h' with
    | read hc => cases hc
    | updateAdvisory ha' _ =>
      obtain rfl := Option.some.inj (ha.symm.trans ha')
      exact ⟨hn, fun q hq => hq.apply (.restoreAdvisory id a)⟩
  | insertRange r =>
    cases h' with
    | read hc => cases hc
    | insertRange _ =>
      rw [← hn]
      refine ⟨rfl, fun q hq => ?_⟩
      cases q with
      | range id =>
        simp only [SameAt, Table.get?_put] at hq ⊢
        rw [hq]
      | _ => exact hq
  | @insertAttribution a _ =>
    cases h' with
    | read hc => cases hc
    | insertAttribution _ =>
      rw [← hn]
      exact ⟨rfl, fun q hq => (hq.apply
        (.restoreAttribution l.nextId { a with id := some l.nextId })).numbered _ _⟩
  | touchAttributions =>
    cases h' with
    | read hc => cases hc
    | touchAttributions =>
      rw [hl.foldl_touch, hm.foldl_touch]
      refine ⟨hn, fun q hq => ?_⟩
      cases q with
      | attribution id =>
        simp only [SameAt, touched, Table.get?_mapWhere] at hq ⊢
        rw [hq]
      | _ => exact hq
  | deleteAttributions =>
    cases h' with
    | read hc => cases hc
    | deleteAttributions =>
      rw [hl.foldl_delete, hm.foldl_delete]
      refine ⟨hn, fun q hq => ?_⟩
      cases q with
      | attribution id =>
        simp only [SameAt, remaining, Table.get?_filter hl.distinct.attributions,
          Table.get?_filter hm.distinct.attributions] at hq ⊢
        rw [hq]
      | _ => exact hq
  | setRanges v ids =>
    cases h' with
    | read hc => cases hc
    | setRanges => exact ⟨hn, fun q hq => hq.apply (.restoreAssociation v (.ofList ids))⟩
  | setConfig group name value =>
    cases h' with
    | read hc => cases hc
    | setConfig => exact ⟨hn, fun q hq => hq.apply (.restoreConfig (group, name) value)⟩

end

end Ledger

end AdvisoryLedger

import AdvisoryLedger.Ledger.Basic
import AdvisoryLedger.Proofs.Table

namespace AdvisoryLedger

namespace RowSet

theorem pairwise_insert (id : Int) {s : RowSet} (h : s.Pairwise (· < ·)) :
    (insert id s).Pairwise (· < ·) := by
  induction s with
  | nil => simp [insert]
  | cons x rest ih =>
    have hx := List.pairwise_cons.mp h
    unfold insert
    split
    · next hlt =>
      refine List.pairwise_cons.mpr ⟨?_, h⟩
      intro y hy
      rcases List.mem_cons.mp hy with rfl | hr
      · exact hlt
      · exact Int.lt_trans hlt (hx.1 y hr)
    · split
      · exact h
      · refine List.pairwise_cons.mpr ⟨?_, ih hx.2⟩
        intro y hy
        rcases (mem_insert y id rest).mp hy with rfl | hr
        · omega
        · exact hx.1 y hr

theorem pairwise_ofList (ids : List Int) : (ofList ids).Pairwise (· < ·) := by
  induction ids with
  | nil => exact List.Pairwise.nil
  | cons id rest ih => exact pairwise_insert id ih

end RowSet

namespace Ledger

/-- No table holds two rows under one key. -/
structure DistinctKeys (l : Ledger) : Prop where
  advisories : l.advisories.keys.Nodup
  ranges : l.ranges.keys.Nodup
  attributions : l.attributions.keys.Nodup
  associations : l.associations.keys.Nodup
  config : l.config.keys.Nodup

/-- Every look-up gives the same in both ledgers; no association is the same as an empty one. -/
structure Agrees (l m : Ledger) : Prop where
  advisories : ∀ id, l.advisories.get? id = m.advisories.get? id
  ranges : ∀ id, l.ranges.get? id = m.ranges.get? id
  attributions : ∀ id, l.attributions.get? id = m.attributions.get? id
  associated : ∀ id, l.associated id = m.associated id
  config : ∀ key, l.config.get? key = m.config.get? key

/-- Keys are distinct, each row is filed under its own id, the counter is past all of them, and sets
of rows ascend. -/
structure WellKept (l : Ledger) : Prop where
  distinct : l.DistinctKeys
  advisories : l.advisories.Filed Advisory.id l.nextId
  ranges : l.ranges.Filed AffectedRange.id l.nextId
  attributions : l.attributions.Filed Attribution.id l.nextId
  ascending : ∀ id, (l.associated id).Pairwise (· < ·)

namespace Agrees

variable {l m n : Ledger}

theorem refl (l : Ledger) : l.Agrees l :=
  ⟨fun _ => rfl, fun _ => rfl, fun _ => rfl, fun _ => rfl, fun _ => rfl⟩

theorem trans (h : l.Agrees m) (h' : m.Agrees n) : l.Agrees n where
  advisories id := (h.advisories id).trans (h'.advisories id)
  ranges id := (h.ranges id).trans (h'.ranges id)
  attributions id := (h.attributions id).trans (h'.attributions id)
  associated id := (h.associated id).trans (h'.associated id)
  config key := (h.config key).trans (h'.config key)

end Agrees

/-- Agreement carries everything over but the distinctness of keys and the bound on ids. -/
theorem WellKept.of_agrees {l m : Ledger} (h : l.WellKept) (ha : m.Agrees l) (hd : m.DistinctKeys)
    (hn : l.nextId ≤ m.nextId) : m.WellKept where
  distinct := hd
  advisories := (h.advisories.mono hn).of_get?_eq ha.advisories
  ranges := (h.ranges.mono hn).of_get?_eq ha.ranges
  attributions := (h.attributions.mono hn).of_get?_eq ha.attributions
  ascending id := by
    rw [ha.associated]
    exact h.ascending id

theorem wellKept_empty : ({} : Ledger).WellKept where
  distinct := ⟨List.nodup_nil, List.nodup_nil, List.nodup_nil, List.nodup_nil, List.nodup_nil⟩
  advisories := Table.Filed.nil
  ranges := Table.Filed.nil
  attributions := Table.Filed.nil
  ascending _ := List.Pairwise.nil

theorem associated_put (l : Ledger) (v w : Int) (s : RowSet) :
    ({ l with associations := l.associations.put v s }).associated w =
      if v = w then s else l.associated w := by
  simp only [associated, Table.get?_put]
  split <;> rfl

end Ledger

end AdvisoryLedger

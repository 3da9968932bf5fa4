import AdvisoryLedger.Ledger.Faults
import AdvisoryLedger.Proofs.Ledger.WellKept

namespace AdvisoryLedger

namespace Ledger

variable {l m : Ledger}

/-- A step that takes something back gives the same from ledgers that agree. -/
theorem Agrees.apply (h : l.Agrees m) (u : Undo) : (Undo.apply l u).Agrees (Undo.apply m u) := by
  obtain ⟨ha, hr, ht, hs, hc⟩ := h
  cases u with
  | eraseAdvisory id => exact ⟨fun i => by simp [Undo.apply, Table.get?_erase, ha], hr, ht, hs, hc⟩
  | restoreAdvisory id a =>
    exact ⟨fun i => by simp [Undo.apply, Table.get?_put, ha], hr, ht, hs, hc⟩
  | eraseRange id => exact ⟨ha, fun i => by simp [Undo.apply, Table.get?_erase, hr], ht, hs, hc⟩
  | eraseAttribution id =>
    exact ⟨ha, hr, fun i => by simp [Undo.apply, Table.get?_erase, ht], hs, hc⟩
  | restoreAttribution id a =>
    exact ⟨ha, hr, fun i => by simp [Undo.apply, Table.get?_put, ht], hs, hc⟩
  | restoreLastSeen id t =>
    exact ⟨ha, hr, fun i => by simp [Undo.apply, Table.get?_modify, ht], hs, hc⟩
  | restoreAssociation id s =>
    exact ⟨ha, hr, ht, fun i => by simp [Undo.apply, associated_put, hs], hc⟩
  | eraseConfig key => exact ⟨ha, hr, ht, hs, fun k => by simp [Undo.apply, Table.get?_erase, hc]⟩
  | restoreConfig key v => exact ⟨ha, hr, ht, hs, fun k => by simp [Undo.apply, Table.get?_put, hc]⟩

theorem Agrees.rollback (h : l.Agrees m) (undo : List Undo) :
    (l.rollback undo).Agrees (m.rollback undo) := by
  induction undo generalizing l m with
  | nil => exact h
  | cons u rest ih => exact ih (h.apply u)

theorem rollback_append (l : Ledger) (us vs : List Undo) :
    l.rollback (us ++ vs) = (l.rollback us).rollback vs := List.foldl_append

theorem DistinctKeys.rollback (h : l.DistinctKeys) (undo : List Undo) :
    (l.rollback undo).DistinctKeys ∧ (l.rollback undo).nextId = l.nextId := by
  induction undo generalizing l with
  | nil => exact ⟨h, rfl⟩
  | cons u rest ih =>
    have hu : (Undo.apply l u).DistinctKeys ∧ (Undo.apply l u).nextId = l.nextId := by
      obtain ⟨ha, hr, ht, hs, hc⟩ := h
      cases u with
      | eraseAdvisory id => exact ⟨⟨Table.nodup_erase ha id, hr, ht, hs, hc⟩, rfl⟩
      | restoreAdvisory id a => exact ⟨⟨Table.nodup_put ha id a, hr, ht, hs, hc⟩, rfl⟩
      | eraseRange id => exact ⟨⟨ha, Table.nodup_erase hr id, ht, hs, hc⟩, rfl⟩
      | eraseAttribution id => exact ⟨⟨ha, hr, Table.nodup_erase ht id, hs, hc⟩, rfl⟩
      | restoreAttribution id a => exact ⟨⟨ha, hr, Table.nodup_put ht id a, hs, hc⟩, rfl⟩
      | restoreLastSeen id t =>
        refine ⟨⟨ha, hr, ?_, hs, hc⟩, rfl⟩
        simpa [Undo.apply, Table.keys_modify] using ht
      | restoreAssociation id s => exact ⟨⟨ha, hr, ht, Table.nodup_put hs id s, hc⟩, rfl⟩
      | eraseConfig key => exact ⟨⟨ha, hr, ht, hs, Table.nodup_erase hc key⟩, rfl⟩
      | restoreConfig key v => exact ⟨⟨ha, hr, ht, hs, Table.nodup_put hc key v⟩, rfl⟩
    obtain ⟨hd, hn⟩ := ih hu.1
    exact ⟨hd, hn.trans hu.2⟩

/-- A request is revocable when it leaves a well-kept ledger and steps that lead back. -/
structure Performed.Revocable {α : Type} (p : Performed α) (l : Ledger) : Prop where
  wellKept : p.ledger.WellKept
  nextId_le : l.nextId ≤ p.ledger.nextId
  agrees : (p.ledger.rollback p.undo).Agrees l

theorem WellKept.read {α : Type} (h : l.WellKept) (reply : α) :
    (⟨reply, l, []⟩ : Performed α).Revocable l := ⟨h, Int.le_refl _, Agrees.refl l⟩

theorem WellKept.insertAdvisory {α : Type} (h : l.WellKept) (reply : α) {a : Advisory}
    (ha : a.id = some l.nextId) :
    (⟨reply, { l with advisories := l.advisories.put l.nextId a, nextId := l.nextId + 1 },
      [.eraseAdvisory l.nextId]⟩ : Performed α).Revocable l := by
  have hn : l.nextId ≤ l.nextId + 1 := by omega
  exact ⟨⟨{ h.distinct with advisories := Table.nodup_put h.distinct.advisories _ _ },
    h.advisories.add ha, h.ranges.mono hn, h.attributions.mono hn, h.ascending⟩, hn,
    { Agrees.refl l with advisories := h.advisories.get?_erase_add a }⟩

theorem WellKept.updateAdvisory {α : Type} (h : l.WellKept) (reply : α)
    {a previous : Advisory} {id : Int}
    (ha : a.id = some id) (hp : l.advisories.get? id = some previous) :
    (⟨reply, { l with advisories := l.advisories.put id a },
      [.restoreAdvisory id previous]⟩ : Performed α).Revocable l := by
  refine ⟨{ h with
    distinct := { h.distinct with advisories := Table.nodup_put h.distinct.advisories _ _ }
    advisories := h.advisories.put ha (h.advisories id previous hp).2 }, Int.le_refl _,
    { Agrees.refl l with advisories := ?_ }⟩
  intro i
  simp only [rollback, List.foldl_cons, List.foldl_nil, Undo.apply, Table.get?_put]
  split
  · next he => exact he ▸ hp.symm
  · rfl

theorem WellKept.insertRange {α : Type} (h : l.WellKept) (reply : α) {r : AffectedRange}
    (hr : r.id = some l.nextId) :
    (⟨reply, { l with ranges := l.ranges.put l.nextId r, nextId := l.nextId + 1 },
      [.eraseRange l.nextId]⟩ : Performed α).Revocable l := by
  have hn : l.nextId ≤ l.nextId + 1 := by omega
  exact ⟨⟨{ h.distinct with ranges := Table.nodup_put h.distinct.ranges _ _ },
    h.advisories.mono hn, h.ranges.add hr, h.attributions.mono hn, h.ascending⟩, hn,
    { Agrees.refl l with ranges := h.ranges.get?_erase_add r }⟩

theorem WellKept.insertAttribution {α : Type} (h : l.WellKept) (reply : α) {a : Attribution}
    (ha : a.id = some l.nextId) :
    (⟨reply, { l with attributions := l.attributions.put l.nextId a, nextId := l.nextId + 1 },
      [.eraseAttribution l.nextId]⟩ : Performed α).Revocable l := by
  have hn : l.nextId ≤ l.nextId + 1 := by omega
  exact ⟨⟨{ h.distinct with attributions := Table.nodup_put h.distinct.attributions _ _ },
    h.advisories.mono hn, h.ranges.mono hn, h.attributions.add ha, h.ascending⟩, hn,
    { Agrees.refl l with attributions := h.attributions.get?_erase_add a }⟩

/-- The rows that a touch and a deletion concern. -/
def isMatch (advisoryId : Int) (rangeIds : List Int) (source : Source)
    (row : Int × Attribution) : Bool :=
  row.2.advisoryId = advisoryId && rangeIds.contains row.2.rangeId && row.2.source = source

/-- The rows that match are seen again, in their places. -/
def touched (l : Ledger) (advisoryId : Int) (rangeIds : List Int) (source : Source)
    (seenAt : Moment) :
    Table Int Attribution :=
  l.attributions.mapWhere (isMatch advisoryId rangeIds source) fun a =>
    { a with lastSeen := seenAt }

/-- The rows that do not match stay, in their order. -/
def remaining (l : Ledger) (advisoryId : Int) (rangeIds : List Int) (source : Source) :
    Table Int Attribution :=
  l.attributions.filter fun row => !isMatch advisoryId rangeIds source row

theorem matching_eq (l : Ledger) (advisoryId : Int) (rangeIds : List Int) (source : Source) :
    l.matching advisoryId rangeIds source =
      l.attributions.filter (isMatch advisoryId rangeIds source) := rfl

section

variable (advisoryId : Int) (rangeIds : List Int) (source : Source)

theorem WellKept.foldl_touch (h : l.WellKept) (seenAt : Moment) :
    (l.matching advisoryId rangeIds source).foldl
      (fun t row => t.modify row.1 fun a => { a with lastSeen := seenAt }) l.attributions =
        l.touched advisoryId rangeIds source seenAt :=
  Table.foldl_modify_filter h.distinct.attributions _ _

theorem WellKept.foldl_delete (h : l.WellKept) :
    (l.matching advisoryId rangeIds source).foldl (fun t row => t.erase row.1) l.attributions =
      l.remaining advisoryId rangeIds source :=
  Table.foldl_erase_filter h.distinct.attributions _

theorem rollback_restoreLastSeen (rows : Table Int Attribution) (l : Ledger) :
    l.rollback (rows.map fun row => .restoreLastSeen row.1 row.2.lastSeen).reverse =
      { l with
        attributions := rows.foldr
          (fun row t => t.modify row.1 fun a =>
            { a with lastSeen := row.2.lastSeen }) l.attributions } := by
  rw [rollback, List.foldl_reverse, List.foldr_map]
  induction rows with
  | nil => rfl
  | cons row rest ih => rw [List.foldr_cons, ih, List.foldr_cons, Undo.apply]

theorem rollback_restoreAttribution (rows : Table Int Attribution) (l : Ledger) :
    l.rollback (rows.map fun row => .restoreAttribution row.1 row.2).reverse =
      { l with attributions := rows.foldr (fun row t => t.put row.1 row.2) l.attributions } := by
  rw [rollback, List.foldl_reverse, List.foldr_map]
  induction rows with
  | nil => rfl
  | cons row rest ih => rw [List.foldr_cons, ih, List.foldr_cons, Undo.apply]

theorem WellKept.touchAttributions {α : Type} (h : l.WellKept) (reply : α) (seenAt : Moment) :
    (⟨reply, { l with attributions := l.touched advisoryId rangeIds source seenAt },
      ((l.matching advisoryId rangeIds source).map fun row =>
        .restoreLastSeen row.1 row.2.lastSeen).reverse⟩ : Performed α).Revocable l := by
  refine ⟨{ h with
    distinct := { h.distinct with attributions := ?_ }
    attributions := h.attributions.mapWhere _ (fun a => { a with lastSeen := seenAt }) fun _ => rfl }, Int.le_refl _, ?_⟩
  · rw [touched, Table.keys_mapWhere]
    exact h.distinct.attributions
  · rw [rollback_restoreLastSeen]
    refine { Agrees.refl l with attributions := ?_ }
    intro id
    have hm : (l.matching advisoryId rangeIds source).keys.Nodup :=
      Table.nodup_filter h.distinct.attributions _
    rw [Table.get?_foldr_modify hm _ fun (old a : Attribution) =>
      { a with lastSeen := old.lastSeen }]
    simp only [touched, Table.get?_mapWhere, matching_eq, Table.get?_filter h.distinct.attributions]
    cases hg : l.attributions.get? id with
    | none => rfl
    | some a => cases hp : isMatch advisoryId rangeIds source (id, a) <;> simp [Option.filter, hp]

theorem WellKept.deleteAttributions {α : Type} (h : l.WellKept) (reply : α) :
    (⟨reply, { l with attributions := l.remaining advisoryId rangeIds source },
      ((l.matching advisoryId rangeIds source).map fun row =>
        .restoreAttribution row.1 row.2).reverse⟩ : Performed α).Revocable l := by
  refine ⟨{ h with
    distinct := { h.distinct with attributions := Table.nodup_filter h.distinct.attributions _ }
    attributions := h.attributions.filter h.distinct.attributions _ }, Int.le_refl _, ?_⟩
  rw [rollback_restoreAttribution]
  refine { Agrees.refl l with attributions := ?_ }
  intro id
  simp only [Table.get?_foldr_put, remaining, matching_eq,
    Table.get?_filter h.distinct.attributions]
  cases hg : l.attributions.get? id with
  | none => rfl
  | some a => cases hp : isMatch advisoryId rangeIds source (id, a) <;> simp [Option.filter, hp]

end

theorem WellKept.setRanges {α : Type} (h : l.WellKept) (reply : α) (advisoryId : Int)
    (rangeIds : List Int) :
    (⟨reply, { l with associations := l.associations.put advisoryId (.ofList rangeIds) },
      [.restoreAssociation advisoryId (l.associated advisoryId)]⟩ : Performed α).Revocable l := by
  refine ⟨{ h with
    distinct := { h.distinct with associations := Table.nodup_put h.distinct.associations _ _ }
    ascending := ?_ }, Int.le_refl _, { Agrees.refl l with associated := ?_ }⟩
  · intro id
    rw [associated_put]
    split
    · exact RowSet.pairwise_ofList rangeIds
    · exact h.ascending id
  · intro id
    simp only [rollback, List.foldl_cons, List.foldl_nil, Undo.apply, associated, Table.get?_put]
    split
    · next he => rw [he, Option.getD_some]
    · rfl

theorem WellKept.setConfig {α : Type} (h : l.WellKept) (reply : α) (key : String × String)
    (value : Option String) :
    (⟨reply, { l with config := l.config.put key value },
      [match l.config.get? key with
        | some previous => .restoreConfig key previous
        | none => .eraseConfig key]⟩ : Performed α).Revocable l := by
  refine ⟨{ h with distinct := { h.distinct with config := Table.nodup_put h.distinct.config _ _ } },
    Int.le_refl _, ?_⟩
  cases hg : l.config.get? key with
  | none =>
    refine { Agrees.refl l with config := ?_ }
    intro k
    simp only [rollback, List.foldl_cons, List.foldl_nil, Undo.apply, Table.get?_erase,
      Table.get?_put]
    split
    · next he => exact he ▸ hg.symm
    · rfl
  | some previous =>
    refine { Agrees.refl l with config := ?_ }
    intro k
    simp only [rollback, List.foldl_cons, List.foldl_nil, Undo.apply, Table.get?_put]
    split
    · next he => exact he ▸ hg.symm
    · rfl

def isQuestion : Call → Bool
  | .getAdvisory .. | .getRanges _ | .getAttributions .. | .findRange _ | .hasAttribution .. | .getConfig .. => true
  | _ => false

/-- All that a request can do: answer from what is there, or change one table and hand out the way
back. -/
inductive Performs (l : Ledger) : (call : Call) → Performed call.Reply → Prop
  | read {call : Call} (hc : isQuestion call = true) (reply : call.Reply) :
    Performs l call ⟨reply, l, []⟩
  | insertAdvisory {a : Advisory} (ha : l.advisory? a.source a.vulnId = none) :
    Performs l (.insertAdvisory a) ⟨{ a with id := some l.nextId },
      { l with
        advisories := l.advisories.put l.nextId { a with id := some l.nextId }
        nextId := l.nextId + 1 }, [.eraseAdvisory l.nextId]⟩
  | updateAdvisory {a previous : Advisory} {id : Int} (ha : a.id = some id)
    (hp : l.advisories.get? id = some previous) :
    Performs l (.updateAdvisory a)
      ⟨(), { l with advisories := l.advisories.put id a }, [.restoreAdvisory id previous]⟩
  | insertRange (r : AffectedRange) :
    Performs l (.insertRange r) ⟨{ r with id := some l.nextId },
      { l with
        ranges := l.ranges.put l.nextId { r with id := some l.nextId }
        nextId := l.nextId + 1 }, [.eraseRange l.nextId]⟩
  | insertAttribution {a : Attribution}
    (ha : l.isAttributed a.advisoryId a.rangeId a.source = false) :
    Performs l (.insertAttribution a) ⟨{ a with id := some l.nextId },
      { l with
        attributions := l.attributions.put l.nextId { a with id := some l.nextId }
        nextId := l.nextId + 1 }, [.eraseAttribution l.nextId]⟩
  | touchAttributions (advisoryId : Int) (rangeIds : List Int) (source : Source) (seenAt : Moment) :
    Performs l (.touchAttributions advisoryId rangeIds source seenAt)
      ⟨(l.matching advisoryId rangeIds source).length,
        { l with
          attributions := (l.matching advisoryId rangeIds source).foldl
            (fun t row => t.modify row.1 fun a => { a with lastSeen := seenAt }) l.attributions },
        ((l.matching advisoryId rangeIds source).map fun row =>
          .restoreLastSeen row.1 row.2.lastSeen).reverse⟩
  | deleteAttributions (advisoryId : Int) (rangeIds : List Int) (source : Source) :
    Performs l (.deleteAttributions advisoryId rangeIds source)
      ⟨(l.matching advisoryId rangeIds source).length,
        { l with
          attributions := (l.matching advisoryId rangeIds source).foldl
            (fun t row => t.erase row.1) l.attributions },
        ((l.matching advisoryId rangeIds source).map fun row =>
          .restoreAttribution row.1 row.2).reverse⟩
  | setRanges (advisoryId : Int) (rangeIds : List Int) :
    Performs l (.setRanges advisoryId rangeIds)
      ⟨(), { l with associations := l.associations.put advisoryId (.ofList rangeIds) },
        [.restoreAssociation advisoryId (l.associated advisoryId)]⟩
  | setConfig (group name : String) (value : Option String) :
    Performs l (.setConfig group name value)
      ⟨(), { l with config := l.config.put (group, name) value },
        [match l.config.get? (group, name) with
          | some previous => .restoreConfig (group, name) previous
          | none => .eraseConfig (group, name)]⟩

theorem performs_of_perform {call : Call} {p : Performed call.Reply} (h : l.perform call = .ok p) :
    Performs l call p := by
  cases call with
  | getAdvisory source vulnId =>
    obtain rfl := Except.ok.inj h
    exact .read rfl _
  | insertAdvisory a =>
    simp only [perform] at h
    split at h
    · cases h
    · next ha =>
      obtain rfl := Except.ok.inj h
      exact .insertAdvisory ha
  | updateAdvisory a =>
    simp only [perform] at h
    split at h
    · cases h
    · next id previous hb =>
      obtain rfl := Except.ok.inj h
      obtain ⟨i, hi, hg⟩ := Option.bind_eq_some_iff.mp hb
      obtain ⟨b, hb', he⟩ := Option.map_eq_some_iff.mp hg
      obtain ⟨rfl, rfl⟩ := Prod.mk.inj he
      exact .updateAdvisory hi hb'
  | getRanges id =>
    simp only [perform, bind, Except.bind] at h
    split at h
    · cases h
    · obtain rfl := Except.ok.inj h
      exact .read rfl _
  | getAttributions id ids =>
    obtain rfl := Except.ok.inj h
    exact .read rfl _
  | findRange r =>
    obtain rfl := Except.ok.inj h
    exact .read rfl _
  | insertRange r =>
    obtain rfl := Except.ok.inj h
    exact .insertRange r
  | hasAttribution id rangeId source =>
    obtain rfl := Except.ok.inj h
    exact .read rfl _
  | insertAttribution a =>
    simp only [perform] at h
    split at h
    · cases h
    · next ha =>
      obtain rfl := Except.ok.inj h
      exact .insertAttribution (by simpa using ha)
  | touchAttributions id ids source seenAt =>
    obtain rfl := Except.ok.inj h
    exact .touchAttributions ..
  | deleteAttributions id ids source =>
    obtain rfl := Except.ok.inj h
    exact .deleteAttributions ..
  | setRanges id ids =>
    obtain rfl := Except.ok.inj h
    exact .setRanges ..
  | getConfig group name =>
    obtain rfl := Except.ok.inj h
    exact .read rfl _
  | setConfig group name value =>
    obtain rfl := Except.ok.inj h
    exact .setConfig ..

/-- Whatever a request does can be taken back by the steps that it hands out. -/
theorem perform_revocable (hl : l.WellKept) {call : Call} {p : Performed call.Reply}
    (h : l.perform call = .ok p) : p.Revocable l := by
  cases performs_of_perform h with
  | read _ reply => exact hl.read reply
  | insertAdvisory _ => exact hl.insertAdvisory _ rfl
  | updateAdvisory ha hp => exact hl.updateAdvisory _ ha hp
  | insertRange r => exact hl.insertRange _ rfl
  | insertAttribution _ => exact hl.insertAttribution _ rfl
  | touchAttributions =>
    rw [hl.foldl_touch]
    exact hl.touchAttributions ..
  | deleteAttributions =>
    rw [hl.foldl_delete]
    exact hl.deleteAttributions ..
  | setRanges id ids => exact hl.setRanges ..
  | setConfig group name value => exact hl.setConfig ..

end Ledger

end AdvisoryLedger

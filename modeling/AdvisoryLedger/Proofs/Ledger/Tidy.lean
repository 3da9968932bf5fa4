import AdvisoryLedger.Proofs.Ledger.Desk
import AdvisoryLedger.Proofs.Ledger.Entries

namespace AdvisoryLedger

namespace Ledger

variable {l m : Ledger}

/-- The ids of all rows, one table after the other. -/
def ids (l : Ledger) : List Int := l.advisories.keys ++ l.ranges.keys ++ l.attributions.keys

/-- Rows are filed under their own ids, which differ throughout the tables and come from the
counter, and no two attributions have the same triple. The counter starts at 1. -/
structure Tidy (l : Ledger) : Prop where
  advisories : ∀ id a, (id, a) ∈ l.advisories → a.id = some id
  ranges : ∀ id r, (id, r) ∈ l.ranges → r.id = some id
  attributions : ∀ id a, (id, a) ∈ l.attributions → a.id = some id
  issued : ∀ id ∈ l.ids, 0 < id ∧ id < l.nextId
  once : l.ids.Nodup
  triples : (l.attributions.values.map Attribution.triple).Nodup

/-- What a well-kept ledger lacks to be tidy. -/
structure SharesIds (l : Ledger) : Prop where
  nextId_pos : 0 < l.nextId
  pos : ∀ id ∈ l.ids, 0 < id
  once : l.ids.Nodup
  entries : ∀ v i s, (l.entries v i s).length ≤ 1

theorem WellKept.lt_nextId (h : l.WellKept) {id : Int} (hid : id ∈ l.ids) : id < l.nextId := by
  simp only [ids, List.mem_append] at hid
  rcases hid with (ha | hr) | ht
  · obtain ⟨⟨_, a⟩, hm, rfl⟩ := List.mem_map.mp ha
    exact (h.advisories _ a (Table.get?_of_mem h.distinct.advisories hm)).2
  · obtain ⟨⟨_, r⟩, hm, rfl⟩ := List.mem_map.mp hr
    exact (h.ranges _ r (Table.get?_of_mem h.distinct.ranges hm)).2
  · obtain ⟨⟨_, t⟩, hm, rfl⟩ := List.mem_map.mp ht
    exact (h.attributions _ t (Table.get?_of_mem h.distinct.attributions hm)).2

theorem SharesIds.tidy (hs : l.SharesIds) (h : l.WellKept) : l.Tidy where
  advisories id a hm := (h.advisories id a (Table.get?_of_mem h.distinct.advisories hm)).1
  ranges id r hm := (h.ranges id r (Table.get?_of_mem h.distinct.ranges hm)).1
  attributions id t hm := (h.attributions id t (Table.get?_of_mem h.distinct.attributions hm)).1
  issued id hid := ⟨hs.pos id hid, h.lt_nextId hid⟩
  once := hs.once
  triples := nodup_triples_iff.mpr hs.entries

theorem sharesIds_empty : ({} : Ledger).SharesIds where
  nextId_pos := by decide
  pos := by simp [ids, Table.keys]
  once := by simp [ids, Table.keys]
  entries := by simp [Ledger.entries, Table.values]

theorem Agrees.ids_perm (h : l.Agrees m) (hl : l.DistinctKeys) (hm : m.DistinctKeys) :
    l.ids.Perm m.ids :=
  (((Table.perm_of_get?_eq hl.advisories hm.advisories h.advisories).map _).append
    ((Table.perm_of_get?_eq hl.ranges hm.ranges h.ranges).map _)).append
      ((Table.perm_of_get?_eq hl.attributions hm.attributions h.attributions).map _)

theorem passes_sharesIds : Passes SharesIds := by
  intro l m hl hm ha hn hs
  have hp := ha.ids_perm hm.distinct hl.distinct
  refine ⟨Int.lt_of_lt_of_le hs.nextId_pos hn, fun id hid => hs.pos id (hp.mem_iff.mp hid),
    hp.nodup_iff.mpr hs.once, ?_⟩
  intro v i s
  rw [(ha.entries_perm hm.distinct hl.distinct v i s).length_eq]
  exact hs.entries v i s

/-- A request uses the next id for a new row, or there is no id that was not there before. -/
theorem perform_ids (hl : l.WellKept) {call : Call} {p : Performed call.Reply}
    (h : l.perform call = .ok p) :
    p.ledger.ids.Perm (l.nextId :: l.ids) ∨ p.ledger.ids.Sublist l.ids := by
  have hnext {α : Type} {t : Table Int α} {idOf : α → Option Int}
    (ht : t.Filed idOf l.nextId) (a : α) :
      (t.put l.nextId a).keys = t.keys ++ [l.nextId] := by
    rw [Table.put_of_notMem ht.bound_notMem, Table.keys, List.map_append]
    rfl
  cases performs_of_perform h with
  | read _ reply => exact .inr (List.Sublist.refl _)
  | insertAdvisory _ =>
    refine .inl ?_
    simp only [ids, hnext hl.advisories, List.append_assoc]
    exact List.perm_middle
  | updateAdvisory ha hp =>
    refine .inr ?_
    simp only [ids]
    rw [Table.keys_put_of_mem (Table.mem_keys_of_mem (Table.mem_of_get? hp))]
  | insertRange r =>
    refine .inl ?_
    have hassoc : l.advisories.keys ++ (l.ranges.keys ++ [l.nextId]) ++ l.attributions.keys =
        (l.advisories.keys ++ l.ranges.keys) ++ l.nextId :: l.attributions.keys := by simp
    simp only [ids, hnext hl.ranges, hassoc]
    exact List.perm_middle
  | insertAttribution _ =>
    refine .inl ?_
    simp only [ids, hnext hl.attributions]
    rw [← List.append_assoc]
    exact List.perm_append_singleton _ _
  | touchAttributions id ids' source seenAt =>
    refine .inr ?_
    simp only [ids]
    rw [hl.foldl_touch, touched, Table.keys_mapWhere]
  | deleteAttributions id ids' source =>
    refine .inr ?_
    simp only [ids]
    rw [hl.foldl_delete]
    exact (List.filter_sublist.map Prod.fst).append_left _
  | setRanges id ids' => exact .inr (List.Sublist.refl _)
  | setConfig group name value => exact .inr (List.Sublist.refl _)

theorem perform_entries (hl : l.WellKept) (hs : ∀ v i s, (l.entries v i s).length ≤ 1) {call : Call}
    {p : Performed call.Reply} (h : l.perform call = .ok p) (v i : Int) (s : Source) :
    (p.ledger.entries v i s).length ≤ 1 := by
  cases performs_of_perform h with
  | @insertAttribution a ha =>
    rw [hl.entries_insertAttribution]
    split
    · next ht =>
      obtain ⟨rfl, rfl, rfl⟩ : a.advisoryId = v ∧ a.rangeId = i ∧ a.source = s := by
        simpa [Attribution.triple] using ht
      have hnone : l.entries a.advisoryId a.rangeId a.source = [] := by
        by_contra hne
        exact Bool.false_ne_true (ha.symm.trans (isAttributed_iff.mpr hne))
      simp [hnone]
    · exact hs v i s
  | touchAttributions id ids source seenAt =>
    rw [hl.foldl_touch, entries_touched]
    split
    · rw [List.length_map]
      exact hs v i s
    · exact hs v i s
  | deleteAttributions id ids source =>
    rw [hl.foldl_delete, entries_remaining]
    split
    · exact Nat.zero_le _
    · exact hs v i s
  | _ => exact hs v i s

theorem SharesIds.perform (hs : l.SharesIds) (hl : l.WellKept) {call : Call}
    {p : Performed call.Reply} (h : l.perform call = .ok p) : p.ledger.SharesIds := by
  have hpos : 0 < p.ledger.nextId :=
    Int.lt_of_lt_of_le hs.nextId_pos (perform_revocable hl h).nextId_le
  have hentries := perform_entries hl hs.entries h
  rcases perform_ids hl h with hp | hsub
  · have hfresh : l.nextId ∉ l.ids := fun hid => Int.lt_irrefl _ (hl.lt_nextId hid)
    refine ⟨hpos, ?_, hp.nodup_iff.mpr (List.nodup_cons.mpr ⟨hfresh, hs.once⟩), hentries⟩
    intro id hid
    rcases List.mem_cons.mp (hp.mem_iff.mp hid) with rfl | hold
    · exact hs.nextId_pos
    · exact hs.pos id hold
  · exact ⟨hpos, fun id hid => hs.pos id (hsub.subset hid), hsub.nodup hs.once, hentries⟩

end Ledger

namespace Desk

theorem keeps_sharesIds {moves : List Move} (h : ({} : Desk).isFaithful moves = true) :
    (({} : Desk).play moves).Keeps Ledger.SharesIds :=
  (keeps_empty Ledger.sharesIds_empty).play Ledger.passes_sharesIds
    (fun _ _ _ hl hs hp => hs.perform hl hp) h

/-- The tables are tidy at every point of a sequence of transactions, and after any further
transaction, whatever faults strike it, as long as no abort finds an advisory of an update under
another id than it was passed with. -/
theorem tidy_play {moves : List Move} (hm : ({} : Desk).isFaithful moves = true) :
    (({} : Desk).play moves).ledger.Tidy ∧
      ∀ {α : Type} (program : SessionProgram α) (faults : Faults) (made : List Call.Kind),
        (FaultyLedger.transact program ⟨(({} : Desk).play moves).ledger, faults,
          made⟩).state.ledger.Tidy := by
  have h := keeps_sharesIds hm
  refine ⟨h.now.tidy h.wellKept, ?_⟩
  intro α program faults made
  obtain ⟨calls, last, hlast⟩ :=
    FaultyLedger.transact_eq_play program ⟨(({} : Desk).play moves).ledger, faults, made⟩
  have hfaithful : ({} : Desk).isFaithful
      (moves ++ .commit :: (calls.map .call ++ [last])) = true := by
    rw [isFaithful_append, hm, Bool.true_and]
    exact isFaithful_calls (d := ⟨(({} : Desk).play moves).ledger, []⟩) h.wellKept rfl calls last
  have h' := keeps_sharesIds hfaithful
  rw [play_append, show (({} : Desk).play moves).play (.commit :: (calls.map .call ++ [last])) =
    _ from hlast] at h'
  exact h'.now.tidy h'.wellKept

/-- An advisory is updated and given the id of another one, but gets its own back before the
abort. -/
def regret : List Move :=
  [.call (.insertAdvisory { vulnId := "CVE-1" }), .call (.insertAdvisory { vulnId := "CVE-2" }), .commit,
    .call (.updateAdvisory { vulnId := "CVE-1", title := some "A", id := some 1 }),
    .renumber 0 2, .renumber 0 1, .abort]

theorem tidy_play_regret : ({} : Desk).isFaithful regret = true ∧
    (({} : Desk).play regret).ledger.Tidy :=
  ⟨by decide, (tidy_play (by decide)).1⟩

/-- The same, but the advisory is left with the other id. -/
def misfiling : List Move :=
  [.call (.insertAdvisory { vulnId := "CVE-1" }), .call (.insertAdvisory { vulnId := "CVE-2" }), .commit,
    .call (.updateAdvisory { vulnId := "CVE-1", title := some "A", id := some 1 }), .renumber 0 2, .abort]

/-- The row that the update went over comes back under the other id. -/
theorem misfiling_untidy : (({} : Desk).play misfiling).ledger.advisories.get? 2 =
      some { vulnId := "CVE-1", id := some 1 } ∧ ¬ (({} : Desk).play misfiling).ledger.Tidy := by
  have hrow : (2, { vulnId := "CVE-1", id := some 1 }) ∈ (({} : Desk).play misfiling).ledger.advisories := by
    exact List.mem_cons_of_mem _ (List.mem_singleton.mpr rfl)
  refine ⟨rfl, fun h => ?_⟩
  cases h.advisories 2 _ hrow

end Desk

end AdvisoryLedger

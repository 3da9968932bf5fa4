import AdvisoryLedger.Proofs.Ledger.Frame
import AdvisoryLedger.Proofs.Reconcile.Decisions

namespace AdvisoryLedger.RangeSync

open Ledger

/-- The entries of a range before and after its source reported it: those there were have been seen
again, and where there was none there is a new one. -/
def Renewed (v i : Int) (s : Source) (t : Moment) (old new : List Attribution) : Prop :=
  (old ≠ [] ∧ new = old.map fun a => { a with lastSeen := t }) ∨
    (old = [] ∧ ∃ k, new = [{ attribution v i s t with id := some k }])

/-- The entries of these rows are renewed, and no others change. -/
structure Renewal (v : Int) (s : Source) (t : Moment) (ids : List Int) (l m : Ledger) : Prop where
  renewed : ∀ i ∈ ids, Renewed v i s t (l.entries v i s) (m.entries v i s)
  others : ∀ w i x, ¬(w = v ∧ i ∈ ids ∧ x = s) → m.entries w i x = l.entries w i x

/-- A renewal that touches no other table. -/
structure Renews (v : Int) (s : Source) (t : Moment) (ids : List Int) (l m : Ledger) : Prop where
  wellKept : m.WellKept
  ranges : m.ranges = l.ranges
  associations : m.associations = l.associations
  renewal : Renewal v s t ids l m

section

variable {v : Int} {s : Source} {t : Moment} {ids ids' : List Int} {l m n : Ledger}

theorem Renewal.nil (h : m.attributions = l.attributions) : Renewal v s t [] l m where
  renewed i hi := absurd hi List.not_mem_nil
  others w i x _ := by simp only [entries, h]

theorem Renewal.of_mem_iff (h : Renewal v s t ids l m) (hi : ∀ i, i ∈ ids ↔ i ∈ ids') :
    Renewal v s t ids' l m where
  renewed i hm := h.renewed i ((hi i).mpr hm)
  others w i x hn := h.others w i x fun hm => hn ⟨hm.1, (hi i).mp hm.2.1, hm.2.2⟩

theorem Renewal.trans (h : Renewal v s t ids l m) (h' : Renewal v s t ids' m n)
    (hd : ids.Disjoint ids') :
    Renewal v s t (ids ++ ids') l n where
  renewed i hi := by
    rcases List.mem_append.mp hi with hi | hi
    · rw [h'.others v i s fun hc => hd hi hc.2.1]
      exact h.renewed i hi
    · rw [← h.others v i s fun hc => hd hc.2.1 hi]
      exact h'.renewed i hi
  others w i x hn := by
    have hn' : ¬(w = v ∧ i ∈ ids ∧ x = s) ∧ ¬(w = v ∧ i ∈ ids' ∧ x = s) := by
      simp only [List.mem_append] at hn
      tauto
    exact (h'.others w i x hn'.2).trans (h.others w i x hn'.1)

theorem Renews.nil (h : l.WellKept) : Renews v s t [] l l := ⟨h, rfl, rfl, Renewal.nil rfl⟩

theorem Renews.trans (h : Renews v s t ids l m) (h' : Renews v s t ids' m n)
    (hd : ids.Disjoint ids') :
    Renews v s t (ids ++ ids') l n :=
  ⟨h'.wellKept, h'.ranges.trans h.ranges, h'.associations.trans h.associations,
    h.renewal.trans h'.renewal hd⟩

theorem touch_gives (hl : l.WellKept) (ids : List Int) (he : ∀ i ∈ ids, l.entries v i s ≠ []) :
    ∃ n m, Gives (Call.ask (.touchAttributions v ids s t)) l n m ∧ Renews v s t ids l m := by
  have hp : l.perform (.touchAttributions v ids s t) = .ok ⟨(l.matching v ids s).length,
      { l with attributions := l.touched v ids s t },
      ((l.matching v ids s).map fun row => .restoreLastSeen row.1 row.2.lastSeen).reverse⟩ := by
    simp only [perform, hl.foldl_touch]
  refine ⟨_, _, gives_perform hp, (perform_revocable hl hp).wellKept, rfl, rfl, ?_, ?_⟩
  · intro i hi
    refine .inl ⟨he i hi, ?_⟩
    rw [entries_touched, if_pos ⟨rfl, hi, rfl⟩]
  · intro w i x hn
    rw [entries_touched, if_neg hn]

theorem insert_gives {i : Int} (hl : l.WellKept) (he : l.entries v i s = []) :
    ∃ a m, Gives (Call.ask (.insertAttribution (attribution v i s t))) l a m ∧
      Renews v s t [i] l m := by
  have hn : l.isAttributed v i s = false := by
    rw [← Bool.not_eq_true, isAttributed_iff]
    exact fun h => h he
  have hp : l.perform (.insertAttribution (attribution v i s t)) =
      .ok ⟨{ attribution v i s t with id := some l.nextId },
        { l with
          attributions := l.attributions.put l.nextId { attribution v i s t with id := some l.nextId }
          nextId := l.nextId + 1 }, [.eraseAttribution l.nextId]⟩ := by
    simp only [perform]
    rw [if_neg (by simp [attribution, hn])]
  refine ⟨_, _, gives_perform hp, (perform_revocable hl hp).wellKept, rfl, rfl, ?_, ?_⟩
  · intro j hj
    obtain rfl := List.mem_singleton.mp hj
    refine .inr ⟨he, l.nextId, ?_⟩
    refine (hl.entries_insertAttribution _ v j s).trans ((if_pos rfl).trans ?_)
    rw [he]
    rfl
  · intro w j x hn'
    rw [hl.entries_insertAttribution, if_neg]
    intro ht
    simp only [Attribution.triple, attribution, Prod.mk.injEq] at ht
    exact hn' ⟨ht.1.symm, by simp [ht.2.1], ht.2.2.symm⟩

/-- The entries of these rows are gone, and nothing else changes. -/
structure Clears (v : Int) (s : Source) (ids : List Int) (l m : Ledger) : Prop where
  wellKept : m.WellKept
  ranges : m.ranges = l.ranges
  associations : m.associations = l.associations
  entries : ∀ w i x, m.entries w i x = if w = v ∧ i ∈ ids ∧ x = s then [] else l.entries w i x

theorem clear_gives {α : Type} (hl : l.WellKept) (v : Int) (s : Source) (ids : List Int) :
    ∃ m, Clears v s ids l m ∧ ∀ (rest : SessionProgram α) (a : α) (o : Ledger), Gives rest m a o →
      Gives (do
        if !ids.isEmpty then do
          let _ ← Call.ask (.deleteAttributions v ids s)
        rest) l a o := by
  by_cases he : ids.isEmpty = true
  · refine ⟨l, ⟨hl, rfl, rfl, by simp [List.isEmpty_iff.mp he]⟩, ?_⟩
    intro rest a o hrest
    rw [if_neg (by simp [he])]
    exact hrest
  · have hp : l.perform (.deleteAttributions v ids s) = .ok ⟨(l.matching v ids s).length,
        { l with attributions := l.remaining v ids s },
        ((l.matching v ids s).map fun row => .restoreAttribution row.1 row.2).reverse⟩ := by
      simp only [perform, hl.foldl_delete]
    refine ⟨_, ⟨(perform_revocable hl hp).wellKept, rfl, rfl, entries_remaining l v ids s⟩, ?_⟩
    intro rest a o hrest
    rw [if_pos (by simpa using he)]
    exact (gives_bind _ _).mpr ⟨_, _, gives_perform hp, hrest⟩

theorem refresh_gives {α : Type} (hl : l.WellKept) (ids : List Int)
    (he : ∀ i ∈ ids, l.entries v i s ≠ []) :
    ∃ m, Renews v s t ids l m ∧ ∀ (rest : SessionProgram α) (a : α) (o : Ledger), Gives rest m a o →
      Gives (do
        if !ids.isEmpty then do
          let _ ← Call.ask (.touchAttributions v ids s t)
        rest) l a o := by
  by_cases hn : ids.isEmpty = true
  · refine ⟨l, (List.isEmpty_iff.mp hn).symm ▸ Renews.nil hl, ?_⟩
    intro rest a o hrest
    rw [if_neg (by simp [hn])]
    exact hrest
  · obtain ⟨n, m, hg, hr⟩ := touch_gives (t := t) hl ids he
    refine ⟨m, hr, ?_⟩
    intro rest a o hrest
    rw [if_pos (by simpa using hn)]
    exact (gives_bind _ _).mpr ⟨n, m, hg, hrest⟩

theorem attributeRows_gives (hl : l.WellKept) (hn : ids.Nodup)
    (he : ∀ i ∈ ids, l.entries v i s = []) :
    ∃ m, Gives (attributeRows v s t ids) l () m ∧ Renews v s t ids l m := by
  induction ids generalizing l with
  | nil => exact ⟨l, ⟨rfl, rfl⟩, Renews.nil hl⟩
  | cons i rest ih =>
    obtain ⟨hi, hrest⟩ := List.nodup_cons.mp hn
    obtain ⟨hei, her⟩ := List.forall_mem_cons.mp he
    obtain ⟨a, m, hg, hr⟩ := insert_gives (t := t) hl hei
    have hm : ∀ j ∈ rest, m.entries v j s = [] := by
      intro j hj
      rw [hr.renewal.others v j s (by simp only [List.mem_singleton]; rintro ⟨-, rfl, -⟩; exact hi hj)]
      exact her j hj
    obtain ⟨n, hg', hr'⟩ := ih hr.wellKept hrest hm
    exact ⟨n, (gives_bind _ _).mpr ⟨a, m, hg, hg'⟩, hr.trans hr' (by simpa using hi)⟩

/-- The row that a range gets: one that was there and is the same, or else a new one. -/
def Placed (l m : Ledger) (x row : AffectedRange) : Prop :=
  ∃ i, row.id = some i ∧ m.ranges.get? i = some row ∧
    ((l.ranges.get? i = some row ∧ x.same row = true) ∨
      (l.ranges.get? i = none ∧ row.key = x.key ∧ ∀ j q, l.ranges.get? j = some q →
        row.same q = false))

/-- No row but one is new, and that is the row of a range. -/
structure GetsRow (x row : AffectedRange) (l m : Ledger) : Prop where
  wellKept : m.WellKept
  attributions : m.attributions = l.attributions
  associations : m.associations = l.associations
  kept : ∀ i r, l.ranges.get? i = some r → m.ranges.get? i = some r
  new : ∀ i r, m.ranges.get? i = some r → l.ranges.get? i = some r ∨ r = row
  placed : Placed l m x row

theorem rowFor_gives (hl : l.WellKept) (vulnId : String) (x : AffectedRange) :
    ∃ row m, Gives (rowFor vulnId x) l row m ∧ GetsRow x row l m := by
  cases hf : l.ranges.values.find? x.same with
  | some row =>
    obtain ⟨i, hi⟩ := (Table.mem_values_iff_get? hl.distinct.ranges).mp
      (List.mem_of_find?_eq_some hf)
    have hp : l.perform (.findRange x) = .ok ⟨some row, l, []⟩ := by simp only [perform, hf]
    refine ⟨row, l, (gives_bind _ _).mpr ⟨some row, l, gives_perform hp, rfl, rfl⟩, hl, rfl, rfl,
      fun _ _ h => h, fun _ _ h => .inl h, ?_⟩
    exact ⟨i, (hl.ranges i row hi).1, hi, .inl ⟨hi, List.find?_some hf⟩⟩
  | none =>
    have hp : l.perform (.findRange x) = .ok ⟨none, l, []⟩ := by simp only [perform, hf]
    have hi : l.perform (.insertRange x) = .ok ⟨{ x with id := some l.nextId },
        { l with ranges := l.ranges.put l.nextId { x with id := some l.nextId }, nextId := l.nextId + 1 },
        [.eraseRange l.nextId]⟩ := rfl
    have hn := Table.get?_eq_none_iff.mpr hl.ranges.bound_notMem
    refine ⟨{ x with id := some l.nextId }, _,
      (gives_bind _ _).mpr ⟨none, l, gives_perform hp, gives_perform hi⟩,
      (perform_revocable hl hi).wellKept, rfl, rfl, ?_, ?_, ?_⟩
    · intro i r hr
      rw [Table.get?_put, if_neg (by rintro rfl; rw [hn] at hr; cases hr)]
      exact hr
    · intro i r hr
      rw [Table.get?_put] at hr
      split at hr
      · exact .inr (Option.some.inj hr).symm
      · exact .inl hr
    · refine ⟨l.nextId, rfl, by rw [Table.get?_put, if_pos rfl], .inr ⟨hn, rfl, ?_⟩⟩
      intro j q hq
      have hm := (Table.mem_values_iff_get? hl.distinct.ranges).mpr ⟨j, hq⟩
      exact Bool.eq_false_iff.mpr (List.find?_eq_none.mp hf q hm)

theorem Placed.of_id {x row : AffectedRange} (h : Placed l m x row) {i : Int}
    (hi : row.id = some i) :
    m.ranges.get? i = some row ∧ ((l.ranges.get? i = some row ∧ x.same row = true) ∨
      (l.ranges.get? i = none ∧ row.key = x.key ∧ ∀ j q, l.ranges.get? j = some q →
        row.same q = false)) := by
  obtain ⟨j, hj, h⟩ := h
  obtain rfl : j = i := Option.some.inj (hj.symm.trans hi)
  exact h

theorem Placed.identity?_eq {x row : AffectedRange} (h : Placed l m x row)
    (hx : x.isHashable = true) :
    row.identity? = x.identity? := by
  obtain ⟨i, -, -, ⟨-, hs⟩ | ⟨-, hkey, -⟩⟩ := h
  · obtain ⟨k, hk, hk'⟩ := (AffectedRange.same_iff hx row).mp hs
    exact hk'.trans hk.symm
  · rw [AffectedRange.identity?, AffectedRange.identity?, hkey]

theorem Placed.isHashable {x row : AffectedRange} (h : Placed l m x row)
    (hx : x.isHashable = true) :
    row.isHashable = true := by
  obtain ⟨i, -, -, ⟨-, hs⟩ | ⟨-, hkey, -⟩⟩ := h
  · obtain ⟨k, -, hk⟩ := (AffectedRange.same_iff hx row).mp hs
    exact AffectedRange.isHashable_of_identity? hk
  · rwa [AffectedRange.isHashable, hkey]

/-- A row stands for no range but those that are the same as the one it was given for. -/
theorem Placed.not_same {x y row : AffectedRange} (h : Placed l m x row) (hx : x.isHashable = true)
    (hy : y.isHashable = true) (hn : x.same y = false) : y.same row = false := by
  rw [AffectedRange.same_comm hy,
    AffectedRange.same_congr (h.isHashable hx) hx (h.identity?_eq hx) rfl]
  exact hn

/-- What attaching pending ranges does: each gets a row, and the entries of the rows are renewed. -/
structure Attaches (v : Int) (s : Source) (t : Moment) (xs rows : List AffectedRange)
    (l m : Ledger) :
    Prop where
  wellKept : m.WellKept
  associations : m.associations = l.associations
  renewal : Renewal v s t (rowIds rows) l m
  covers : ∀ x ∈ xs, ∃ row ∈ rows, Placed l m x row
  origin : ∀ row ∈ rows, ∃ x ∈ xs, Placed l m x row
  kept : ∀ i r, l.ranges.get? i = some r → m.ranges.get? i = some r
  new : ∀ i r, m.ranges.get? i = some r → l.ranges.get? i = some r ∨ r ∈ rows
  nodup : (rowIds rows).Nodup
  apart : Apart rows

theorem Attaches.nil (h : l.WellKept) : Attaches v s t [] [] l l :=
  ⟨h, rfl, Renewal.nil rfl, by simp, by simp, fun _ _ h => h, fun _ _ h => .inl h, List.nodup_nil,
    Apart.nil⟩

/-- A later range finds none but rows that were there from the start, or gets a new one of its
own. -/
theorem GetsRow.placed_later {x row y q : AffectedRange} {i : Int} {o : Ledger}
    (hg : GetsRow x row l m)
    (hi : row.id = some i) (hr : n.ranges = m.ranges) (hx : x.isHashable = true)
    (hy : y.isHashable = true)
    (hn : x.same y = false) (hq : Placed n o y q) : Placed l o y q ∧ q.id ≠ some i := by
  have hrow := (hg.placed.of_id hi).1
  obtain ⟨j, hj, hjo, hc⟩ := hq
  rw [hr] at hc
  rcases hc with ⟨hjn, hs⟩ | ⟨hjn, hkey, hnone⟩
  · have hne : q ≠ row := by
      rintro rfl
      rw [hg.placed.not_same hx hy hn] at hs
      cases hs
    refine ⟨⟨j, hj, hjo, .inl ⟨(hg.new j q hjn).resolve_right hne, hs⟩⟩, ?_⟩
    intro hqi
    obtain rfl : j = i := Option.some.inj (hj.symm.trans hqi)
    exact hne (Option.some.inj (hjn.symm.trans hrow))
  · refine ⟨⟨j, hj, hjo, .inr ⟨?_, hkey, fun k p hp => hnone k p (hg.kept k p hp)⟩⟩, ?_⟩
    · cases hjl : l.ranges.get? j with
      | none => rfl
      | some r => rw [hg.kept j r hjl] at hjn; cases hjn
    · intro hqi
      obtain rfl : j = i := Option.some.inj (hj.symm.trans hqi)
      rw [hrow] at hjn
      cases hjn

theorem Attaches.cons {x row : AffectedRange} {xs rows : List AffectedRange} {i : Int} {o : Ledger}
    (ha : Apart (x :: xs)) (hi : row.id = some i) (hg : GetsRow x row l m)
    (hr : Renews v s t [i] m n)
    (h : Attaches v s t xs rows n o) : Attaches v s t (x :: xs) (row :: rows) l o := by
  obtain ⟨hx, hxs⟩ := List.forall_mem_cons.mp ha.hashable
  have hapart := List.pairwise_cons.mp ha.pairwise
  have later {y q : AffectedRange} (hy : y ∈ xs) (hq : Placed n o y q) : Placed l o y q ∧
      q.id ≠ some i :=
    hg.placed_later hi hr.ranges hx (hxs y hy) (hapart.1 y hy) hq
  have hids : rowIds (row :: rows) = [i] ++ rowIds rows := by simp [rowIds, hi]
  have hni : i ∉ rowIds rows := by
    intro hm
    obtain ⟨q, hq, hqi⟩ := mem_rowIds.mp hm
    obtain ⟨y, hy, hp⟩ := h.origin q hq
    exact (later hy hp).2 hqi
  obtain ⟨hrow, hc⟩ := hg.placed.of_id hi
  have hplaced : Placed l o x row := ⟨i, hi, h.kept i row (hr.ranges ▸ hrow), hc⟩
  refine ⟨h.wellKept, ?_, ?_, ?_, ?_, ?_, ?_, ?_, ?_⟩
  · exact h.associations.trans (hr.associations.trans hg.associations)
  · rw [hids]
    have hrow := (Renewal.nil hg.attributions).trans hr.renewal (List.disjoint_nil_left _)
    exact hrow.trans h.renewal (by simpa using hni)
  · refine List.forall_mem_cons.mpr ⟨⟨row, by simp, hplaced⟩, ?_⟩
    intro y hy
    obtain ⟨q, hq, hp⟩ := h.covers y hy
    exact ⟨q, List.mem_cons_of_mem row hq, (later hy hp).1⟩
  · refine List.forall_mem_cons.mpr ⟨⟨x, by simp, hplaced⟩, ?_⟩
    intro q hq
    obtain ⟨y, hy, hp⟩ := h.origin q hq
    exact ⟨y, List.mem_cons_of_mem x hy, (later hy hp).1⟩
  · intro j r hj
    exact h.kept j r (hr.ranges ▸ hg.kept j r hj)
  · intro j r hj
    rcases h.new j r hj with hj | hj
    · rw [hr.ranges] at hj
      exact (hg.new j r hj).imp_right fun he => by simp [he]
    · exact .inr (List.mem_cons_of_mem _ hj)
  · rw [hids]
    exact List.nodup_cons.mpr ⟨hni, h.nodup⟩
  · refine h.apart.cons (hplaced.isHashable hx) ?_
    intro q hq
    obtain ⟨y, hy, hp⟩ := h.origin q hq
    rw [AffectedRange.same_congr (hplaced.isHashable hx) hx (hplaced.identity?_eq hx)
      (hp.identity?_eq (hxs y hy))]
    exact hapart.1 y hy

theorem renew_gives {i : Int} (hl : l.WellKept) :
    ∃ m, Renews v s t [i] l m ∧
      ∀ (rest : SessionProgram RangeSync) (a : RangeSync) (o : Ledger), Gives rest m a o →
      Gives (do
        if (← Call.ask (.hasAttribution v i s)).isTruthy then do
          let _ ← Call.ask (.touchAttributions v [i] s t)
        else attributeRows v s t [i]
        rest) l a o := by
  have hp : l.perform (.hasAttribution v i s) = .ok ⟨.flag (l.isAttributed v i s), l, []⟩ := rfl
  by_cases he : l.entries v i s = []
  · obtain ⟨m, hg, hr⟩ := attributeRows_gives (t := t) hl (List.nodup_singleton i)
      (by simpa using he)
    have hn : l.isAttributed v i s = false := by
      rw [← Bool.not_eq_true, isAttributed_iff]
      exact fun h => h he
    refine ⟨m, hr, ?_⟩
    intro rest a o hrest
    refine (gives_bind _ _).mpr ⟨_, l, gives_perform hp, ?_⟩
    rw [if_neg (by simp [hn, Json.isTruthy])]
    exact (gives_bind _ _).mpr ⟨(), m, hg, hrest⟩
  · obtain ⟨n, m, hg, hr⟩ := touch_gives (t := t) hl [i] (by simpa using he)
    refine ⟨m, hr, ?_⟩
    intro rest a o hrest
    refine (gives_bind _ _).mpr ⟨_, l, gives_perform hp, ?_⟩
    rw [if_pos (by exact isAttributed_iff.mpr he)]
    exact (gives_bind _ _).mpr ⟨n, m, hg, hrest⟩

/-- Attaching never fails; what is attached is in the list that the program returns. -/
theorem attach_gives {xs : List AffectedRange} {sync : RangeSync} (vulnId : String)
    (hl : l.WellKept)
    (ha : Apart xs) (hk : ∀ r ∈ sync.kept, ∃ i, r.id = some i ∧ l.ranges.get? i = some r)
    (hn : ∀ r ∈ sync.kept, ∀ x ∈ xs, x.same r = false) :
    ∃ rows m, Gives (attach vulnId v s t sync xs) l
      { sync with kept := sync.kept ++ rows, added := sync.added ++ rows } m ∧
      Attaches v s t xs rows l m := by
  induction xs generalizing l sync with
  | nil => exact ⟨[], l, by simp [attach, gives_pure], Attaches.nil hl⟩
  | cons x rest ih =>
    obtain ⟨row, m, hg, hrow⟩ := rowFor_gives hl vulnId x
    obtain ⟨i, hi, hmi, hc⟩ := hrow.placed
    obtain ⟨n, hr, hcont⟩ := renew_gives (v := v) (s := s) (t := t) (i := i) hrow.wellKept
    have hnew : i ∉ rowIds sync.kept := by
      intro hm
      obtain ⟨r, hmem, hri⟩ := mem_rowIds.mp hm
      obtain ⟨j, hj, hjl⟩ := hk r hmem
      obtain rfl : j = i := Option.some.inj (hj.symm.trans hri)
      obtain rfl : r = row := Option.some.inj ((hrow.kept j r hjl).symm.trans hmi)
      rcases hc with ⟨-, hs⟩ | ⟨hno, -⟩
      · rw [hn r hmem x (by simp)] at hs
        cases hs
      · rw [hjl] at hno
        cases hno
    have hk' : ∀ r ∈ sync.kept ++ [row], ∃ j, r.id = some j ∧ n.ranges.get? j = some r := by
      intro r hmem
      rw [hr.ranges]
      rcases List.mem_append.mp hmem with hmem | hmem
      · obtain ⟨j, hj, hjl⟩ := hk r hmem
        exact ⟨j, hj, hrow.kept j r hjl⟩
      · rw [List.mem_singleton.mp hmem]
        exact ⟨i, hi, hmi⟩
    have hn' : ∀ r ∈ sync.kept ++ [row], ∀ y ∈ rest, y.same r = false := by
      intro r hmem y hy
      rcases List.mem_append.mp hmem with hmem | hmem
      · exact hn r hmem y (List.mem_cons_of_mem x hy)
      · rw [List.mem_singleton.mp hmem]
        exact hrow.placed.not_same (ha.hashable x (by simp))
          (ha.hashable y (List.mem_cons_of_mem x hy))
          ((List.pairwise_cons.mp ha.pairwise).1 y hy)
    obtain ⟨rows, o, hg', hatt⟩ := @ih n
      { sync with kept := sync.kept ++ [row], added := sync.added ++ [row] } hr.wellKept
      (ha.sublist (List.sublist_cons_self x rest)) hk' hn'
    refine ⟨row :: rows, o, (gives_bind _ _).mpr ⟨row, m, hg, ?_⟩, hatt.cons ha hi hrow hr⟩
    simp only [hi]
    refine hcont _ _ o ?_
    simpa [hnew] using hg'

end

end AdvisoryLedger.RangeSync

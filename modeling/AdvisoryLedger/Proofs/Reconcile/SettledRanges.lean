import AdvisoryLedger.Proofs.Reconcile.Copies
import AdvisoryLedger.Proofs.Reconcile.History

namespace AdvisoryLedger

open Ledger

theorem RowSet.ofList_of_ascending {ids : List Int} (h : ids.Pairwise (· < ·)) :
    RowSet.ofList ids = ids := by
  induction ids with
  | nil => rfl
  | cons x rest ih =>
    obtain ⟨hx, hrest⟩ := List.pairwise_cons.mp h
    change RowSet.insert x (RowSet.ofList rest) = _
    rw [ih hrest]
    cases rest with
    | nil => rfl
    | cons y _ => rw [RowSet.insert, if_pos (hx y List.mem_cons_self)]

namespace Ledger

/-- Between two ledgers nothing has changed but when some attributions were last seen. -/
structure SeenAgain (which : Attribution → Prop) (l m : Ledger) : Prop where
  same : m = { l with attributions := m.attributions }
  attributions : List.Forall₂ (fun old new => new.1 = old.1 ∧
    (new.2 = old.2 ∨ which old.2 ∧
      ∃ t, new.2 = { old.2 with lastSeen := t })) l.attributions m.attributions

namespace SeenAgain

variable {which which' : Attribution → Prop} {l m n : Ledger}

theorem refl (which : Attribution → Prop) (l : Ledger) : SeenAgain which l l :=
  ⟨rfl, List.forall₂_same.mpr fun _ _ => ⟨rfl, .inl rfl⟩⟩

theorem mono (h : SeenAgain which l m) (hw : ∀ a, which a → which' a) : SeenAgain which' l m :=
  ⟨h.same, h.attributions.imp fun _ _ hr => ⟨hr.1, hr.2.imp_right fun hc => ⟨hw _ hc.1, hc.2⟩⟩⟩

theorem trans (h : SeenAgain which l m) (h' : SeenAgain which m n) : SeenAgain which l n := by
  refine ⟨by rw [h'.same, h.same], ?_⟩
  have hold := h.attributions
  have hnew := h'.attributions
  generalize l.attributions = xs at hold ⊢
  generalize m.attributions = ys at hold hnew
  generalize n.attributions = zs at hnew ⊢
  induction hold generalizing zs with
  | nil =>
    cases hnew
    exact .nil
  | @cons x y xs ys hxy _ ih =>
    cases hnew with
    | @cons _ z _ zs hyz hrest =>
      obtain ⟨hkey, hrow⟩ := hxy
      obtain ⟨hkey', hrow'⟩ := hyz
      refine .cons ⟨hkey'.trans hkey, ?_⟩ (ih zs hrest)
      rcases hrow with hy | ⟨hx, t, hy⟩ <;> rcases hrow' with hz | ⟨hy', t', hz⟩
      · exact .inl (hz.trans hy)
      · exact .inr ⟨hy ▸ hy', t', by rw [hz, hy]⟩
      · exact .inr ⟨hx, t, hz.trans hy⟩
      · exact .inr ⟨hx, t', by rw [hz, hy]⟩

theorem isAttributed (h : SeenAgain which l m) (v i : Int) (s : Source) :
    m.isAttributed v i s = l.isAttributed v i s := by
  have hvalues : l.attributions.values.map Attribution.triple =
      m.attributions.values.map Attribution.triple := by
    simp only [Table.values, List.map_map]
    refine List.forall₂_eq_eq_eq ▸ List.forall₂_map_left_iff.mpr (List.forall₂_map_right_iff.mpr ?_)
    refine h.attributions.imp ?_
    rintro x y ⟨-, hy | ⟨-, t, hy⟩⟩ <;> simp only [Function.comp_apply, hy, Attribution.triple]
  have hany (k : Ledger) : k.isAttributed v i s =
      (k.attributions.values.map Attribution.triple).any fun x => x = (v, i, s) := by
    rw [List.any_map]
    rfl
  rw [hany, hany, hvalues]

theorem of_touched (l : Ledger) (v : Int) (ids : List Int) (s : Source) (t : Moment) :
    SeenAgain (fun a => a.advisoryId = v ∧ a.rangeId ∈ ids ∧ a.source = s) l
      { l with attributions := l.touched v ids s t } := by
  refine ⟨rfl, ?_⟩
  simp only [touched, Table.mapWhere]
  refine List.forall₂_map_right_iff.mpr (List.forall₂_same.mpr ?_)
  intro row _
  split
  · next hm =>
    refine ⟨rfl, .inr ⟨?_, t, rfl⟩⟩
    simpa [isMatch, and_assoc] using hm
  · exact ⟨rfl, .inl rfl⟩

end SeenAgain

theorem isShared_congr {l m : Ledger} {v i : Int}
    (h : ∀ x, m.isAttributed v i x = l.isAttributed v i x)
    (s : Source) : m.isShared v i s = l.isShared v i s := by
  rw [Bool.eq_iff_iff]
  simp only [isShared_iff, ← isAttributed_iff, h]

end Ledger

namespace RangeSync

/-- A report of a source on an advisory has nothing to add: what it names is associated, the source
attributes just that, and whatever else is associated is attributed by another source. -/
structure Settled (l : Ledger) (v : Int) (s : Source) (reported : List AffectedRange) : Prop where
  filed : ∃ ids, l.associations.get? v = some ids
  rows : ∀ i ∈ l.associated v, ∃ r, l.ranges.get? i = some r ∧
    (l.isAttributed v i s = true ↔ ∃ x ∈ reported, r.identity? = x.identity?)
  held : ∀ i ∈ l.associated v, l.isAttributed v i s = true ∨ l.isShared v i s = true
  covers : ∀ x ∈ reported, ∃ i ∈ l.associated v, ∃ r, l.ranges.get? i = some r ∧
    r.identity? = x.identity?

variable {l m : Ledger} {v w : Int} {s : Source} {t : Moment}
    {reported pending rows : List AffectedRange}
  {target : List Int} {done : List RangeReport} {sync : RangeSync}

/-- The transaction sets the association of its advisory and of no other. -/
theorem associations_of_gives (hl : l.WellKept) {vulnId : String}
    (h : Gives (program vulnId v reported s t) l sync m) :
    ∃ ids, m.associations = l.associations.put v ids := by
  obtain ⟨pending, rows, new, -, m₁, m₂, m₃, hc, hr, ha, hm⟩ := enacted_of_gives hl h
  have hassoc : m₃.associations = l.associations :=
    ha.associations.trans (hr.associations.trans hc.associations)
  exact ⟨.ofList (rowIds ((plan l v s pending rows).kept ++ new)), by rw [hm, hassoc]⟩

theorem Reconciled.settled (h : Reconciled v s t reported target l m) (hf : Faithful m done)
    (hi : ∀ x ∈ reported, x.identity? ≠ none) (hfiled : ∃ ids, m.associations.get? v = some ids) :
    Settled m v s reported := by
  have hattributed {i : Int} (hit : i ∈ target) : m.isAttributed v i s = true :=
    isAttributed_iff.mpr (h.renewed i hit).ne_nil
  refine ⟨hfiled, ?_, ?_, ?_⟩
  · intro i hassoc
    obtain ⟨r, hr⟩ := hf.rows v i hassoc
    refine ⟨r, hr, ?_, ?_⟩
    · intro ha
      have hit : i ∈ target := by
        rcases (h.associated i).mp hassoc with hit | ⟨hil, -⟩
        · exact hit
        · by_contra hit
          exact isAttributed_iff.mp ha (h.cleared i hil hit)
      obtain ⟨q, hq, -, x, hx, hqx⟩ := h.rows i hit
      obtain rfl := Option.some.inj (hq.symm.trans hr)
      exact ⟨x, hx, hqx⟩
    · rintro ⟨x, hx, hrx⟩
      obtain ⟨j, hj, q, hq, hqx⟩ := h.covers x hx
      obtain ⟨k, hk⟩ := Option.ne_none_iff_exists'.mp (hi x hx)
      obtain rfl := hf.distinct i j r q hr hq
        (AffectedRange.same_of_identity? (hrx.trans hk) (hqx.trans hk))
      exact hattributed hj
  · intro i hassoc
    rcases (h.associated i).mp hassoc with hit | ⟨-, hshared⟩
    · exact .inl (hattributed hit)
    · right
      obtain ⟨x, hx, hne⟩ := isShared_iff.mp hshared
      refine isShared_iff.mpr ⟨x, hx, ?_⟩
      rw [h.others v i x (.inr (.inl hx))]
      exact hne
  · intro x hx
    obtain ⟨i, hit, r, hr, hrx⟩ := h.covers x hx
    exact ⟨i, (h.associated i).mpr (.inl hit), r, hr, hrx⟩

theorem enact_idle (hl : l.WellKept) (vulnId : String) (s : Source) (t : Moment) {p : Plan}
    (hstale : p.stale = [])
    (hattach : p.attach = []) (hpending : p.pending = []) (hremoved : p.removed = []) :
    Gives (enact vulnId v s t p) l ⟨p.kept, [], []⟩ { l with
      attributions := l.touched v p.refresh s t
      associations := l.associations.put v (.ofList (rowIds p.kept)) } := by
  have written (k : Ledger) : Gives (do
      attributeRows v s t p.attach
      let sync ← attach vulnId v s t { kept := p.kept, removed := p.removed } p.pending
      Call.ask (.setRanges v (rowIds sync.kept))
      pure sync) k ⟨p.kept, [],
        []⟩ { k with associations := k.associations.put v (.ofList (rowIds p.kept)) } := by
    rw [hattach, hpending, hremoved]
    refine (gives_bind _ _).mpr ⟨(), k, ⟨rfl, rfl⟩, ?_⟩
    refine (gives_bind _ _).mpr ⟨{ kept := p.kept }, k, ⟨rfl, rfl⟩, ?_⟩
    exact (gives_bind _ _).mpr ⟨(), _, gives_ask.mpr ⟨_, rfl⟩, rfl, rfl⟩
  have hnone : (p.detach ++ rowIds p.removed).isEmpty = true := List.isEmpty_iff.mpr hstale
  simp only [enact, hnone, Bool.not_true, Bool.false_eq_true, if_false]
  by_cases hr : p.refresh.isEmpty = true
  · have htouched : l.touched v p.refresh s t = l.attributions := by
      simp [touched, Table.mapWhere, isMatch, List.isEmpty_iff.mp hr]
    rw [htouched, if_neg (by simp [hr])]
    exact written l
  · have hp : l.perform (.touchAttributions v p.refresh s t) =
      .ok ⟨(l.matching v p.refresh s).length,
        { l with attributions := l.touched v p.refresh s t },
        ((l.matching v p.refresh s).map fun row =>
          .restoreLastSeen row.1 row.2.lastSeen).reverse⟩ := by
      simp only [perform, hl.foldl_touch]
    rw [if_pos (by simpa using hr)]
    exact (gives_bind _ _).mpr ⟨_, _, gives_perform hp,
      written { l with attributions := l.touched v p.refresh s t }⟩

namespace Settled

/-- The ranges of an advisory stay settled as long as nobody touches its association and its
attributions. -/
theorem transfer (h : Settled l v s reported) (ha : m.associations.get? v = l.associations.get? v)
    (hr : ∀ i r, l.ranges.get? i = some r → m.ranges.get? i = some r)
    (he : ∀ i x, m.isAttributed v i x = l.isAttributed v i x) : Settled m v s reported := by
  have hassoc : m.associated v = l.associated v := by rw [associated, associated, ha]
  refine ⟨ha ▸ h.filed, ?_, ?_, ?_⟩
  · intro i hi
    obtain ⟨r, hget, hiff⟩ := h.rows i (hassoc ▸ hi)
    exact ⟨r, hr i r hget, by rw [he]; exact hiff⟩
  · intro i hi
    rw [he, isShared_congr (he i)]
    exact h.held i (hassoc ▸ hi)
  · intro x hx
    obtain ⟨i, hi, r, hget, hrx⟩ := h.covers x hx
    exact ⟨i, hassoc ▸ hi, r, hr i r hget, hrx⟩

theorem seenAgain {which : Attribution → Prop} (h : Settled l v s reported)
    (hm : SeenAgain which l m) :
    Settled m v s reported := by
  refine h.transfer ?_ ?_ (fun i x => hm.isAttributed v i x)
  · rw [hm.same]
  · intro i r hr
    rw [hm.same]
    exact hr

theorem elsewhere (h : Settled l v s reported) {x : Source} {other : List AffectedRange}
    (hr : Reconciled w x t other target l m) (hvw : v ≠ w)
    (ha : ∃ ids, m.associations = l.associations.put w ids) : Settled m v s reported := by
  refine h.transfer ?_ hr.kept ?_
  · obtain ⟨ids, hids⟩ := ha
    rw [hids, Table.get?_put, if_neg hvw.symm]
  · intro i y
    rw [Bool.eq_iff_iff, isAttributed_iff, isAttributed_iff, hr.others v i y (.inl hvw)]

theorem leftOver_eq_nil (h : Settled l v s reported) (hi : ∀ x ∈ reported, x.identity? ≠ none)
    (hp : Prepared l v reported pending rows) : leftOver pending rows = [] := by
  refine List.eq_nil_iff_forall_not_mem.mpr fun y hy => ?_
  have hyp := (leftOver_sublist pending rows).subset hy
  obtain ⟨i, hassoc, r, hr, hry⟩ := h.covers y (hp.mem_reported hyp)
  obtain ⟨k, hk⟩ := Option.ne_none_iff_exists'.mp (hi y (hp.mem_reported hyp))
  obtain ⟨d, hd, -, hget, -⟩ := hp.decision s hassoc
  obtain rfl := Option.some.inj (hget.symm.trans hr)
  have hn := not_same_of_mem_leftOver hp.collapsed.apart (Prepared.mem_rows hd) hy
  rw [AffectedRange.same_of_identity? (hry.trans hk) hk] at hn
  cases hn

/-- The rows that take up a reported range are those that the source attributes. -/
theorem mem_taken_iff (h : Settled l v s reported) (hf : Faithful l done)
    (hi : ∀ x ∈ reported, x.identity? ≠ none)
    (hp : Prepared l v reported pending rows) {i : Int} (hassoc : i ∈ l.associated v) :
    i ∈ taken l v s pending rows ↔ l.isAttributed v i s = true := by
  obtain ⟨d, hd, hdi, hget, -, ht, -⟩ := hp.decision s hassoc
  obtain ⟨r, hr, hiff⟩ := h.rows i hassoc
  obtain rfl := Option.some.inj (hget.symm.trans hr)
  rw [← ht, hiff]
  constructor
  · intro hs
    obtain ⟨x, hx, hdx⟩ := exists_same_of_mem hd hs
    exact ⟨x, hp.mem_reported hx,
      AffectedRange.identity?_eq_of_same (hp.collapsed.apart.hashable x hx) hdx⟩
  · rintro ⟨x, hx, hdx⟩
    obtain ⟨k, hk⟩ := Option.ne_none_iff_exists'.mp (hi x hx)
    obtain ⟨y, hy, hyx⟩ := hp.exists_pending hx
    rcases taken_or_mem_leftOver hy with ⟨c, hc, hcy, hs⟩ | hleft
    · obtain ⟨j, -, hcj, hcget, -⟩ := hp.decided hc
      have hck := (AffectedRange.identity?_eq_of_same (hp.collapsed.apart.hashable y hy) hs).trans
        (hyx.trans hk)
      obtain rfl := hf.distinct i j d.1 c.1 hget hcget
        (AffectedRange.same_of_identity? (hdx.trans hk) hck)
      rwa [hp.decision_unique hd hc hdi hcj]
    · rw [h.leftOver_eq_nil hi hp] at hleft
      cases hleft

/-- The plan is to refresh what the source attributes, and nothing else. -/
theorem plan_idle (h : Settled l v s reported) (hf : Faithful l done)
    (hi : ∀ x ∈ reported, x.identity? ≠ none) (hp : Prepared l v reported pending rows) :
    (plan l v s pending rows).stale = [] ∧ (plan l v s pending rows).attach = [] ∧
      (plan l v s pending rows).pending = [] ∧ (plan l v s pending rows).removed = [] ∧
      (plan l v s pending rows).kept = rows := by
  have hstale : (plan l v s pending rows).stale = [] := by
    refine List.eq_nil_iff_forall_not_mem.mpr fun i hi' => ?_
    obtain ⟨hassoc, hn, ha⟩ := hp.mem_stale.mp hi'
    rw [h.mem_taken_iff hf hi hp hassoc] at hn
    exact hn ((h.held i hassoc).elim id ha)
  have hkept : ∀ d ∈ decisions l v s pending rows, d.2.isKept = true := by
    intro d hd
    by_contra hn
    obtain ⟨i, -, hdi, -⟩ := hp.decided hd
    have hmem : i ∈ (plan l v s pending rows).stale := by
      have hremoved : i ∈ rowIds (chosen (decisions l v s pending rows) fun d => !d.isKept) :=
        mem_rowIds_chosen.mpr ⟨d, hd, hdi, by simpa using hn⟩
      exact List.mem_append_right _ hremoved
    rw [hstale] at hmem
    cases hmem
  refine ⟨hstale, ?_, h.leftOver_eq_nil hi hp, ?_, ?_⟩
  · refine List.eq_nil_iff_forall_not_mem.mpr fun i hi' => ?_
    obtain ⟨ht, hn⟩ := hp.mem_attach.mp hi'
    rw [(h.mem_taken_iff hf hi hp (hp.mem_associated_of_mem_chosen ht)).mp ht] at hn
    cases hn
  · refine List.eq_nil_iff_forall_not_mem.mpr fun r hr => ?_
    have hr' : r ∈ chosen (decisions l v s pending rows) fun d => !d.isKept := hr
    obtain ⟨d, hd, hn⟩ := mem_chosen.mp hr'
    simp [hkept _ hd] at hn
  · rw [plan, planOf, chosen, List.filter_eq_self.mpr hkept, decisions, map_fst_verdicts]

theorem enact_gives (h : Settled l v s reported) (hf : Faithful l done)
    (hi : ∀ x ∈ reported, x.identity? ≠ none)
    (hp : Prepared l v reported pending rows) (vulnId : String) (t : Moment) :
    Gives (enact vulnId v s t (plan l v s pending rows)) l ⟨rows, [], []⟩
      { l with attributions := l.touched v (plan l v s pending rows).refresh s t } := by
  obtain ⟨hstale, hattach, hleft, hremoved, hkept⟩ := h.plan_idle hf hi hp
  obtain ⟨ids, hids⟩ := h.filed
  have hrows : RowSet.ofList (rowIds rows) = ids := by
    rw [hp.rowIds_eq, RowSet.ofList_of_ascending (hf.wellKept.ascending v), associated, hids,
      Option.getD_some]
  have hput : l.associations.put v (.ofList (rowIds (plan l v s pending rows).kept)) =
      l.associations := by
    rw [hkept, hrows, Table.put_self hids]
  have hidle := enact_idle (v := v) hf.wellKept vulnId s t hstale hattach hleft hremoved
  rwa [hput, hkept] at hidle

theorem reported_of_mem_refresh (h : Settled l v s reported)
    (hp : Prepared l v reported pending rows) {i : Int}
    (hi : i ∈ (plan l v s pending rows).refresh) :
    ∃ r, l.ranges.get? i = some r ∧ ∃ x ∈ reported, r.identity? = x.identity? := by
  obtain ⟨ht, hattributed⟩ := hp.mem_refresh.mp hi
  obtain ⟨r, hr, hiff⟩ := h.rows i (hp.mem_associated_of_mem_chosen ht)
  exact ⟨r, hr, hiff.mp hattributed⟩

/-- Of the attributions of the source, those of what is reported are seen again; nothing else
changes. -/
theorem gives (h : Settled l v s reported) (hf : Faithful l done)
    (hi : ∀ x ∈ reported, x.identity? ≠ none)
    (vulnId : String) (t : Moment) :
    ∃ kept m, Gives (program vulnId v reported s t) l ⟨kept, [], []⟩ m ∧
      SeenAgain (fun a => a.advisoryId = v ∧ a.source = s ∧
        ∃ r, l.ranges.get? a.rangeId = some r ∧ ∃ x ∈ reported, r.identity? = x.identity?) l m := by
  have hhash : ∀ x ∈ reported, x.isHashable = true := by
    intro x hx
    obtain ⟨k, hk⟩ := Option.ne_none_iff_exists'.mp (hi x hx)
    exact AffectedRange.isHashable_of_identity? hk
  obtain ⟨sync, m, hg⟩ := program_gives hf.wellKept vulnId s t (hf.rows v)
    (fun _ i _ r hr => hf.hashable i r hr) hhash
  obtain ⟨pending, rows, hp, henact⟩ := enact_of_gives hf.wellKept hg
  obtain ⟨rfl, rfl⟩ := henact.unique (h.enact_gives hf hi hp vulnId t)
  refine ⟨rows, _, hg, (SeenAgain.of_touched l v _ s t).mono fun a ha => ?_⟩
  obtain ⟨hv, hrefresh, hs⟩ := ha
  exact ⟨hv, hs, h.reported_of_mem_refresh hp hrefresh⟩

end Settled

end RangeSync

end AdvisoryLedger

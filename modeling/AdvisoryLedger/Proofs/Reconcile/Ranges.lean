import AdvisoryLedger.Proofs.Reconcile.Renewal

namespace AdvisoryLedger.RangeSync

open Ledger

/-- The writing half of the transaction. -/
def enact (vulnId : String) (advisoryId : Int) (source : Source) (seenAt : Moment) (p : Plan) :
    SessionProgram RangeSync := do
  let stale := p.detach ++ rowIds p.removed
  if !stale.isEmpty then do
    let _ ← Call.ask (.deleteAttributions advisoryId stale source)
  if !p.refresh.isEmpty then do
    let _ ← Call.ask (.touchAttributions advisoryId p.refresh source seenAt)
  attributeRows advisoryId source seenAt p.attach
  let s ← attach vulnId advisoryId source seenAt { kept := p.kept, removed := p.removed } p.pending
  Call.ask (.setRanges advisoryId (rowIds s.kept))
  pure s

/-- The transaction reads, decides and then writes. -/
theorem program_eq (vulnId : String) (advisoryId : Int) (reported : List AffectedRange)
    (source : Source) (seenAt : Moment) : program vulnId advisoryId reported source seenAt = (do
      let associated ← Call.ask (.getRanges advisoryId)
      let attributions ← Call.ask (.getAttributions advisoryId (rowIds associated))
      Dialogue.log (note .debug
        (vulnId ++ ": existing affected software: " ++ toString associated.length))
      let pending ← collapse [] reported
      let p ← ofNoted (classify vulnId source attributions { pending } associated)
      Dialogue.log (note .debug (vulnId ++ ": keep=" ++ toString p.kept.length ++ " remove=" ++
        toString p.removed.length ++ " new=" ++ toString p.pending.length))
      enact vulnId advisoryId source seenAt p) := rfl

section Enact

variable {l : Ledger} {v : Int} {s : Source} {t : Moment}
    {reported pending rows : List AffectedRange}

/-- The steps of the writing half, one after the other. -/
def Enacted (v : Int) (s : Source) (t : Moment) (p : Plan) (new : List AffectedRange)
    (l m : Ledger) : Prop :=
  ∃ m₁ m₂ m₃, Clears v s p.stale l m₁ ∧ Renews v s t (p.refresh ++ p.attach) m₁ m₂ ∧
    Attaches v s t p.pending new m₂ m₃ ∧
    m = { m₃ with associations := m₃.associations.put v (.ofList (rowIds (p.kept ++ new))) }

theorem enact_gives (h : Prepared l v reported pending rows) (vulnId : String) (s : Source)
    (t : Moment) :
    ∃ new sync m, Gives (enact vulnId v s t (plan l v s pending rows)) l sync m ∧
      sync.kept = (plan l v s pending rows).kept ++ new ∧ sync.added = new ∧
      sync.removed = (plan l v s pending rows).removed ∧
      Enacted v s t (plan l v s pending rows) new l m := by
  have hrefresh (i : Int) := h.mem_refresh (i := i) (s := s)
  have hattach (i : Int) := h.mem_attach (i := i) (s := s)
  have hstale (i : Int) := h.mem_stale (i := i) (s := s)
  have hnodup : (plan l v s pending rows).attach.Nodup := h.nodup.sublist (rowIds_chosen_sublist _)
  have hkept : ∀ r ∈ (plan l v s pending rows).kept, r ∈ rows ∧ ∃ i, r.id = some i ∧
      l.ranges.get? i = some r := by
    intro r hr
    obtain ⟨d, hd, -⟩ := mem_chosen.mp hr
    obtain ⟨i, -, hi, hli, -⟩ := h.decided hd
    exact ⟨Prepared.mem_rows hd, i, hi, hli⟩
  have hpending : Apart (plan l v s pending rows).pending :=
    h.collapsed.apart.sublist (leftOver_sublist _ _)
  have hleft : ∀ r ∈ rows, ∀ x ∈ (plan l v s pending rows).pending, x.same r = false := by
    intro r hr x hx
    rw [AffectedRange.same_comm (hpending.hashable x hx)]
    exact not_same_of_mem_leftOver h.collapsed.apart hr hx
  generalize plan l v s pending rows = p at *
  obtain ⟨m₁, hc, hclear⟩ := clear_gives (α := RangeSync) h.wellKept v s p.stale
  have hrefreshed : ∀ i ∈ p.refresh, m₁.entries v i s ≠ [] := by
    intro i hi
    rw [hc.entries, if_neg fun hm => ((hstale i).mp hm.2.1).2.1 ((hrefresh i).mp hi).1]
    exact isAttributed_iff.mp ((hrefresh i).mp hi).2
  obtain ⟨m, hr, htouch⟩ := refresh_gives (α := RangeSync) (t := t) hc.wellKept p.refresh hrefreshed
  have hdisjoint : p.refresh.Disjoint p.attach := by
    intro i hi hi'
    exact absurd ((hrefresh i).mp hi).2 (by simp [((hattach i).mp hi').2])
  have hunattributed : ∀ i ∈ p.attach, m.entries v i s = [] := by
    intro i hi
    have hn : l.entries v i s = [] := by
      by_contra hne
      exact absurd (isAttributed_iff.mpr hne) (by simp [((hattach i).mp hi).2])
    rw [hr.renewal.others v i s fun hm => hdisjoint hm.2.1 hi, hc.entries, hn, ite_self]
  obtain ⟨m₂, hg, hr'⟩ := attributeRows_gives (t := t) hr.wellKept hnodup hunattributed
  have hranges : m₂.ranges = l.ranges := hr'.ranges.trans (hr.ranges.trans hc.ranges)
  obtain ⟨new, m₃, hg', ha⟩ := @attach_gives v s t m₂ p.pending { kept := p.kept, removed := p.removed }
    vulnId hr'.wellKept hpending (fun r hr => hranges ▸ (hkept r hr).2) fun r hr =>
      hleft r (hkept r hr).1
  refine ⟨new, { kept := p.kept ++ new, added := new, removed := p.removed }, _, ?_, rfl, rfl, rfl, m₁, m₂, m₃,
    hc, hr.trans hr' hdisjoint, ha, rfl⟩
  refine hclear _ _ _ (htouch _ _ _ ((gives_bind _ _).mpr ⟨(), m₂, hg, ?_⟩))
  refine (gives_bind _ _).mpr ⟨_, m₃, hg', ?_⟩
  exact (gives_bind _ _).mpr ⟨(), _, gives_ask.mpr ⟨_, rfl⟩, rfl, rfl⟩

/-- What a reconciliation leaves: the source attributes just the target rows, which stand for what
was reported, and a range stays associated where it or another source attributes it. -/
structure Reconciled (v : Int) (s : Source) (t : Moment) (reported : List AffectedRange)
    (target : List Int) (l m : Ledger) : Prop where
  wellKept : m.WellKept
  hashable : ∀ x ∈ reported, x.isHashable = true
  renewed : ∀ i ∈ target, Renewed v i s t (l.entries v i s) (m.entries v i s)
  cleared : ∀ i ∈ l.associated v, i ∉ target → m.entries v i s = []
  others : ∀ w i x, w ≠ v ∨ x ≠ s ∨ (i ∉ target ∧ i ∉ l.associated v) →
    m.entries w i x = l.entries w i x
  associated : ∀ i, i ∈ m.associated v ↔ i ∈ target ∨ (i ∈ l.associated v ∧ l.isShared v i s = true)
  elsewhere : ∀ w, w ≠ v → m.associated w = l.associated w
  rows : ∀ i ∈ target, ∃ r, m.ranges.get? i = some r ∧ r.isHashable = true ∧
    ∃ x ∈ reported, r.identity? = x.identity?
  covers : ∀ x ∈ reported, ∃ i ∈ target, ∃ r, m.ranges.get? i = some r ∧ r.identity? = x.identity?
  distinct : ∀ i ∈ target, ∀ j ∈ target, ∀ r q, m.ranges.get? i = some r →
    m.ranges.get? j = some q →
    r.same q = true → i = j
  kept : ∀ i r, l.ranges.get? i = some r → m.ranges.get? i = some r
  new : ∀ i r, m.ranges.get? i = some r → l.ranges.get? i = some r ∨
    (i ∈ target ∧ ∀ j q, l.ranges.get? j = some q → r.same q = false)

/-- A target row takes up a reported range, or was attached for one that no associated row takes
up. -/
inductive TargetRow (l : Ledger) (v : Int) (s : Source) (pending rows new : List AffectedRange)
    (m₂ m₃ : Ledger) (i : Int) (r : AffectedRange) : Prop
  | taken (d : AffectedRange × Verdict) (hd : d ∈ decisions l v s pending rows) (hr : d.1 = r)
    (hi : i ∈ l.associated v) (hid : r.id = some i) (hs : d.2.isReported = true)
  | attached (x : AffectedRange) (hx : x ∈ leftOver pending rows) (hr : r ∈ new)
    (hi : i ∉ l.associated v) (hp : Placed m₂ m₃ x r)

variable {new : List AffectedRange} {m₂ m₃ : Ledger}

/-- A row attached for a range that no associated row takes up is not associated yet. -/
theorem notMem_associated_of_attaches (h : Prepared l v reported pending rows)
    (hm : m₂.ranges = l.ranges)
    (ha : Attaches v s t (leftOver pending rows) new m₂ m₃) {i : Int} (hi : i ∈ rowIds new) :
    i ∉ l.associated v := by
  intro hassoc
  obtain ⟨q, hq, hqi⟩ := mem_rowIds.mp hi
  obtain ⟨x, hx, hp⟩ := ha.origin q hq
  obtain ⟨-, hc⟩ := hp.of_id hqi
  obtain ⟨d, hd, -, hl, -⟩ := h.decision s hassoc
  have hleft := h.collapsed.apart.sublist (leftOver_sublist pending rows)
  rw [hm, hl] at hc
  rcases hc with ⟨he, hs⟩ | ⟨he, -⟩
  · rw [← Option.some.inj he, AffectedRange.same_comm (hleft.hashable x hx),
      not_same_of_mem_leftOver h.collapsed.apart (Prepared.mem_rows hd) hx] at hs
    cases hs
  · cases he

theorem exists_targetRow (h : Prepared l v reported pending rows) (hm : m₂.ranges = l.ranges)
    (ha : Attaches v s t (leftOver pending rows) new m₂ m₃) {i : Int}
    (hi : i ∈ taken l v s pending rows ++ rowIds new) :
    ∃ r, m₃.ranges.get? i = some r ∧ TargetRow l v s pending rows new m₂ m₃ i r := by
  rcases List.mem_append.mp hi with hi | hi
  · obtain ⟨d, hd, hdi, hs⟩ := mem_rowIds_chosen.mp hi
    obtain ⟨j, hj, hdj, hl, -⟩ := h.decided hd
    obtain rfl : j = i := Option.some.inj (hdj.symm.trans hdi)
    exact ⟨d.1, ha.kept j d.1 (hm ▸ hl), .taken d hd rfl hj hdj hs⟩
  · obtain ⟨q, hq, hqi⟩ := mem_rowIds.mp hi
    obtain ⟨x, hx, hp⟩ := ha.origin q hq
    exact ⟨q, (hp.of_id hqi).1, .attached x hx hq (notMem_associated_of_attaches h hm ha hi) hp⟩

theorem TargetRow.unique (h : Prepared l v reported pending rows)
    (ha : Attaches v s t (leftOver pending rows) new m₂ m₃) {i j : Int} {r q : AffectedRange}
    (hr : TargetRow l v s pending rows new m₂ m₃ i r)
    (hq : TargetRow l v s pending rows new m₂ m₃ j q) (hs : r.same q = true) : r = q := by
  have hpend := h.collapsed.apart
  have hleft := hpend.sublist (leftOver_sublist pending rows)
  -- A row that takes up a range is not the same as one attached for a range that no row takes up.
  have apart {d : AffectedRange × Verdict} {x p : AffectedRange}
    (hd : d ∈ decisions l v s pending rows)
      (hx : x ∈ leftOver pending rows) (hp : Placed m₂ m₃ x p) : p.same d.1 = false := by
    have hx' := hleft.hashable x hx
    rw [AffectedRange.same_congr (hp.isHashable hx') hx' (hp.identity?_eq hx') rfl,
      AffectedRange.same_comm hx']
    exact not_same_of_mem_leftOver hpend (Prepared.mem_rows hd) hx
  cases hr with
  | taken c hc hr _ _ hcs =>
    subst hr
    obtain ⟨x, hx, hcx⟩ := exists_same_of_mem hc hcs
    have hx' := hpend.hashable x hx
    cases hq with
    | taken d hd hq _ _ hds =>
      subst hq
      obtain ⟨k, hk, hk'⟩ :=
        (AffectedRange.same_iff (AffectedRange.isHashable_of_same hx' hcx) d.1).mp hs
      have hxk := (AffectedRange.identity?_eq_of_same hx' hcx).symm.trans hk
      rw [taken_once hpend hc hd hcs hds hx' hcx (AffectedRange.same_of_identity? hk' hxk)]
    | attached y hy _ _ hp =>
      rw [← AffectedRange.same_comm (hp.isHashable (hleft.hashable y hy)), apart hc hy hp] at hs
      cases hs
  | attached x hx hr _ hp =>
    cases hq with
    | taken d hd hq _ _ _ =>
      subst hq
      rw [apart hd hx hp] at hs
      cases hs
    | attached y hy hq _ _ => exact ha.apart.eq_of_same hr hq hs

theorem TargetRow.standsFor (h : Prepared l v reported pending rows) {i : Int} {r : AffectedRange}
    (hr : TargetRow l v s pending rows new m₂ m₃ i r) :
    r.isHashable = true ∧ ∃ x ∈ reported, r.identity? = x.identity? := by
  cases hr with
  | taken d hd hr _ _ hs =>
    subst hr
    obtain ⟨x, hx, hdx⟩ := exists_same_of_mem hd hs
    have hx' := h.collapsed.apart.hashable x hx
    exact ⟨AffectedRange.isHashable_of_same hx' hdx, x, h.mem_reported hx,
      AffectedRange.identity?_eq_of_same hx' hdx⟩
  | attached x hx _ _ hp =>
    have hxp := (leftOver_sublist pending rows).subset hx
    have hx' := h.collapsed.apart.hashable x hxp
    exact ⟨hp.isHashable hx', x, h.mem_reported hxp, hp.identity?_eq hx'⟩

theorem covers_of_attaches (h : Prepared l v reported pending rows) (hm : m₂.ranges = l.ranges)
    (ha : Attaches v s t (leftOver pending rows) new m₂ m₃) {x : AffectedRange}
    (hx : x ∈ reported) :
    ∃ i ∈ taken l v s pending rows ++ rowIds new, ∃ r, m₃.ranges.get? i = some r ∧
      r.identity? = x.identity? := by
  obtain ⟨y, hy, he⟩ := h.exists_pending hx
  have hy' := h.collapsed.apart.hashable y hy
  rcases taken_or_mem_leftOver hy with ⟨d, hd, hdr, hs⟩ | hl
  · obtain ⟨i, -, hi, hli, -⟩ := h.decided hd
    refine ⟨i, List.mem_append_left _ (mem_rowIds_chosen.mpr ⟨d, hd, hi, hdr⟩), d.1, ?_, ?_⟩
    · exact ha.kept i d.1 (hm ▸ hli)
    · exact (AffectedRange.identity?_eq_of_same hy' hs).trans he
  · obtain ⟨q, hq, hp⟩ := ha.covers y hl
    have hqx := (hp.identity?_eq hy').trans he
    obtain ⟨i, hi, hrow, -⟩ := hp
    exact ⟨i, List.mem_append_right _ (mem_rowIds.mpr ⟨q, hq, hi⟩), q, hrow, hqx⟩

/-- An associated range is a target where its row takes up a reported range. -/
theorem mem_target_iff_taken (h : Prepared l v reported pending rows) (hm : m₂.ranges = l.ranges)
    (ha : Attaches v s t (leftOver pending rows) new m₂ m₃) {i : Int} (hi : i ∈ l.associated v) :
    i ∈ taken l v s pending rows ++ rowIds new ↔ i ∈ taken l v s pending rows := by
  rw [List.mem_append, or_iff_left]
  exact fun hn => notMem_associated_of_attaches h hm ha hn hi

theorem distinct_of_attaches (h : Prepared l v reported pending rows) (hm : m₂.ranges = l.ranges)
    (ha : Attaches v s t (leftOver pending rows) new m₂ m₃) :
    ∀ i ∈ taken l v s pending rows ++ rowIds new, ∀ j ∈ taken l v s pending rows ++ rowIds new,
      ∀ r q, m₃.ranges.get? i = some r → m₃.ranges.get? j = some q → r.same q = true → i = j := by
  intro i hi j hj r q hir hjq hs
  obtain ⟨r', hir', hr'⟩ := exists_targetRow h hm ha hi
  obtain ⟨q', hjq', hq'⟩ := exists_targetRow h hm ha hj
  obtain rfl : r' = r := Option.some.inj (hir'.symm.trans hir)
  obtain rfl : q' = q := Option.some.inj (hjq'.symm.trans hjq)
  obtain rfl := hr'.unique h ha hq' hs
  exact Option.some.inj ((ha.wellKept.ranges i r' hir).1.symm.trans (ha.wellKept.ranges j r' hjq).1)

theorem new_of_attaches (hm : m₂.ranges = l.ranges)
    (ha : Attaches v s t (leftOver pending rows) new m₂ m₃)
    {i : Int} {r : AffectedRange} (hi : m₃.ranges.get? i = some r) : l.ranges.get? i = some r ∨
      (i ∈ taken l v s pending rows ++ rowIds new ∧ ∀ j q, l.ranges.get? j = some q →
        r.same q = false) := by
  rcases ha.new i r hi with hl | hn
  · exact .inl (hm ▸ hl)
  · have hid := (ha.wellKept.ranges i r hi).1
    obtain ⟨x, -, hp⟩ := ha.origin r hn
    rcases (hp.of_id hid).2 with ⟨hl, -⟩ | ⟨-, -, hold⟩
    · exact .inl (hm ▸ hl)
    · refine .inr ⟨List.mem_append_right _ (mem_rowIds.mpr ⟨r, hn, hid⟩), ?_⟩
      rwa [hm] at hold

section Attributions

variable {m₁ : Ledger} (h : Prepared l v reported pending rows)
  (hc : Clears v s (plan l v s pending rows).stale l m₁)
  (hr : Renews v s t ((plan l v s pending rows).refresh ++ (plan l v s pending rows).attach) m₁ m₂)
  (ha : Attaches v s t (leftOver pending rows) new m₂ m₃)

include h hc hr ha

/-- After the clearing, renewing rows and attaching new ones renews the targets. -/
theorem renewal_of_stages : Renewal v s t (taken l v s pending rows ++ rowIds new) m₁ m₃ := by
  have hplan (i : Int) : i ∈ (plan l v s pending rows).refresh ++ (plan l v s pending rows).attach ↔
      i ∈ taken l v s pending rows := by
    rw [List.mem_append, h.mem_refresh, h.mem_attach]
    cases l.isAttributed v i s <;> simp
  refine (hr.renewal.trans ha.renewal ?_).of_mem_iff fun i => ?_
  · intro i hi hn
    exact notMem_associated_of_attaches h (hr.ranges.trans hc.ranges) ha hn
      (h.mem_associated_of_mem_chosen ((hplan i).mp hi))
  · rw [List.mem_append, hplan, List.mem_append]

theorem renewed_of_stages {i : Int} (hi : i ∈ taken l v s pending rows ++ rowIds new) :
    Renewed v i s t (l.entries v i s) (m₃.entries v i s) := by
  have hren := (renewal_of_stages h hc hr ha).renewed i hi
  have hn : i ∉ (plan l v s pending rows).stale := by
    intro hm
    obtain ⟨hassoc, hnt, -⟩ := h.mem_stale.mp hm
    exact hnt ((mem_target_iff_taken h (hr.ranges.trans hc.ranges) ha hassoc).mp hi)
  rwa [hc.entries, if_neg fun hm => hn hm.2.1] at hren

theorem cleared_of_stages {i : Int} (hi : i ∈ l.associated v)
    (hn : i ∉ taken l v s pending rows ++ rowIds new) : m₃.entries v i s = [] := by
  refine ((renewal_of_stages h hc hr ha).others v i s fun hm => hn hm.2.1).trans
    ((hc.entries v i s).trans ?_)
  split
  · rfl
  · next hns =>
    have hnt := mt (mem_target_iff_taken h (hr.ranges.trans hc.ranges) ha hi).mpr hn
    by_contra hne
    exact hns ⟨rfl, h.mem_stale.mpr ⟨hi, hnt, fun _ => isAttributed_iff.mpr hne⟩, rfl⟩

theorem others_of_stages {w i : Int} {x : Source}
    (hw : w ≠ v ∨ x ≠ s ∨ (i ∉ taken l v s pending rows ++ rowIds new ∧ i ∉ l.associated v)) :
    m₃.entries w i x = l.entries w i x := by
  refine ((renewal_of_stages h hc hr ha).others w i x ?_).trans
    ((hc.entries w i x).trans (if_neg ?_))
  · rintro ⟨rfl, hi, rfl⟩
    simp [hi] at hw
  · rintro ⟨rfl, hi, rfl⟩
    simp [(h.mem_stale.mp hi).1] at hw

end Attributions

theorem reconciled_of_enacted (h : Prepared l v reported pending rows) {m : Ledger}
    (he : Enacted v s t (plan l v s pending rows) new l m) :
    Reconciled v s t reported (taken l v s pending rows ++ rowIds new) l m := by
  obtain ⟨m₁, m₂, m₃, hc, hr, ha, rfl⟩ := he
  have hranges : m₂.ranges = l.ranges := hr.ranges.trans hc.ranges
  have hassoc : m₃.associations = l.associations :=
    ha.associations.trans (hr.associations.trans hc.associations)
  have hdistinct := distinct_of_attaches h hranges ha
  refine ⟨(ha.wellKept.setRanges () v _).wellKept, h.collapsed.hashable,
    fun i hi => renewed_of_stages h hc hr ha hi, fun i hi hn => cleared_of_stages h hc hr ha hi hn,
    fun w i x hw => others_of_stages h hc hr ha hw, ?_, ?_, ?_, fun x hx =>
      covers_of_attaches h hranges ha hx,
    hdistinct, ?_, fun i r hi => new_of_attaches hranges ha hi⟩
  · intro i
    rw [associated_put, if_pos rfl, RowSet.mem_ofList, rowIds_append, List.mem_append, h.mem_kept,
      List.mem_append]
    tauto
  · intro w hw
    rw [associated_put, if_neg hw.symm]
    simp only [Ledger.associated, hassoc]
  · intro i hi
    obtain ⟨r, hir, hr'⟩ := exists_targetRow h hranges ha hi
    exact ⟨r, hir, hr'.standsFor h⟩
  · intro i r hir
    exact ha.kept i r (hranges ▸ hir)

end Enact

section Program

variable {l m : Ledger} {v : Int} {s : Source} {t : Moment} {reported : List AffectedRange}
    {sync : RangeSync}

theorem gives_ofNoted {α : Type} {x : Noted α} {a : α} :
    Gives (ofNoted x) l a m ↔ x.result = .ok a ∧ l = m := by
  obtain ⟨result, entries⟩ := x
  induction entries with
  | nil => exact gives_ofExcept
  | cons entry rest ih => exact ih

theorem gives_getRanges {rows : List AffectedRange} :
    Gives (Call.ask (.getRanges v)) l rows m ↔ l.rangesOf v = .ok rows ∧ l = m := by
  rw [gives_ask]
  cases hr : l.rangesOf v with
  | error e => simp [perform, hr, bind, Except.bind]
  | ok rs => simp [perform, hr, bind, Except.bind]

theorem gives_getAttributions {ids : List Int} {as : Table Int (List Attribution)} :
    Gives (Call.ask (.getAttributions v ids)) l as m ↔
      groupByRange ((l.attributionsOf v).filter fun a => ids.contains a.rangeId) = as ∧ l = m := by
  rw [gives_ask]
  simp [perform]

/-- The transaction is its writing half, once everything could be looked up. -/
theorem gives_program (vulnId : String) : Gives (program vulnId v reported s t) l sync m ↔
    ∃ rows pending p, l.rangesOf v = .ok rows ∧ collapse [] reported = .ok pending ∧
      (classify vulnId s (groupByRange
        ((l.attributionsOf v).filter fun a => (rowIds rows).contains a.rangeId))
        { pending } rows).result = .ok p ∧ Gives (enact vulnId v s t p) l sync m := by
  rw [program_eq]
  constructor
  · intro h
    obtain ⟨rows, l₁, h₁, h⟩ := (gives_bind _ _).mp h
    obtain ⟨hrows, rfl⟩ := gives_getRanges.mp h₁
    obtain ⟨as, l₂, h₂, h⟩ := (gives_bind _ _).mp h
    obtain ⟨rfl, rfl⟩ := gives_getAttributions.mp h₂
    obtain ⟨u, l₃, h₃, h⟩ := (gives_bind _ _).mp h
    obtain rfl := gives_log.mp h₃
    obtain ⟨pending, l₄, h₄, h⟩ := (gives_bind _ _).mp h
    obtain ⟨hpending, rfl⟩ := gives_ofExcept.mp h₄
    obtain ⟨p, l₅, h₅, h⟩ := (gives_bind _ _).mp h
    obtain ⟨hp, rfl⟩ := gives_ofNoted.mp h₅
    obtain ⟨u', l₆, h₆, h⟩ := (gives_bind _ _).mp h
    obtain rfl := gives_log.mp h₆
    exact ⟨rows, pending, p, hrows, hpending, hp, h⟩
  · rintro ⟨rows, pending, p, hrows, hpending, hp, h⟩
    refine (gives_bind _ _).mpr ⟨rows, l, gives_getRanges.mpr ⟨hrows, rfl⟩, ?_⟩
    refine (gives_bind _ _).mpr ⟨_, l, gives_getAttributions.mpr ⟨rfl, rfl⟩, ?_⟩
    refine (gives_bind _ _).mpr ⟨(), l, gives_log.mpr rfl, ?_⟩
    refine (gives_bind _ _).mpr ⟨pending, l, gives_ofExcept.mpr ⟨hpending, rfl⟩, ?_⟩
    refine (gives_bind _ _).mpr ⟨p, l, gives_ofNoted.mpr ⟨hp, rfl⟩, ?_⟩
    exact (gives_bind _ _).mpr ⟨(), l, gives_log.mpr rfl, h⟩

theorem enact_of_gives (hl : l.WellKept) {vulnId : String}
    (h : Gives (program vulnId v reported s t) l sync m) :
    ∃ pending rows, Prepared l v reported pending rows ∧
      Gives (enact vulnId v s t (plan l v s pending rows)) l sync m := by
  obtain ⟨rows, pending, p, hrows, hpending, hp, h⟩ := (gives_program vulnId).mp h
  obtain rfl : p = plan l v s pending rows := classify_eq hp
  exact ⟨pending, rows, ⟨hl, hrows, collapse_collapsed hpending Apart.nil⟩, h⟩

theorem enacted_of_gives (hl : l.WellKept) {vulnId : String}
    (h : Gives (program vulnId v reported s t) l sync m) :
    ∃ pending rows new, Prepared l v reported pending rows ∧
      Enacted v s t (plan l v s pending rows) new l m := by
  obtain ⟨pending, rows, hprep, h⟩ := enact_of_gives hl h
  obtain ⟨new, sync', m', h', -, -, -, he⟩ := enact_gives hprep vulnId s t
  obtain ⟨-, rfl⟩ := h.unique h'
  exact ⟨pending, rows, new, hprep, he⟩

theorem program_reconciled (hl : l.WellKept) {vulnId : String}
    (h : Gives (program vulnId v reported s t) l sync m) :
    ∃ target, Reconciled v s t reported target l m := by
  obtain ⟨pending, rows, new, hprep, he⟩ := enacted_of_gives hl h
  exact ⟨_, reconciled_of_enacted hprep he⟩

/-- A reconciliation ends well wherever associated ranges have rows, and what it looks up can be
looked up. -/
theorem program_gives (hl : l.WellKept) (vulnId : String) (s : Source) (t : Moment)
    (ha : ∀ i ∈ l.associated v, ∃ r, l.ranges.get? i = some r)
    (hh : reported ≠ [] → ∀ i ∈ l.associated v, ∀ r, l.ranges.get? i = some r → r.isHashable = true)
    (hr : ∀ x ∈ reported, x.isHashable = true) :
    ∃ sync m, Gives (program vulnId v reported s t) l sync m := by
  obtain ⟨rows, hrows⟩ := rangeRows_of_forall ha
  obtain ⟨pending, hpending⟩ := collapse_ok [] hr
  have hprep : Prepared l v reported pending rows :=
    ⟨hl, hrows, collapse_collapsed hpending Apart.nil⟩
  have hhash : pending ≠ [] → ∀ r ∈ rows, r.isHashable = true := by
    intro hne r hmem
    obtain ⟨i, hi, hli⟩ := (rangeRows_ok hl hrows).2 r hmem
    refine hh ?_ i (hprep.rowIds_eq ▸ mem_rowIds.mpr ⟨r, hmem, hi⟩) r hli
    rintro rfl
    exact hne (Except.ok.inj hpending).symm
  obtain ⟨p, hp⟩ := classify_ok vulnId s (groupByRange ((l.attributionsOf v).filter fun a =>
    (rowIds rows).contains a.rangeId)) { pending } hhash
  obtain ⟨new, sync, m, h, -⟩ := enact_gives hprep vulnId s t
  exact ⟨sync, m, (gives_program vulnId).mpr ⟨rows, pending, p, hrows, hpending, hp,
    (classify_eq hp) ▸ h⟩⟩

end Program

end AdvisoryLedger.RangeSync

namespace AdvisoryLedger

variable {a : Advisory} {reported : List AffectedRange} {s : Source} {t : Moment}

/-- An advisory without a row is turned away before anything is asked. -/
theorem Advisory.reconcileRanges_of_none {f : FaultyLedger} (h : a.id = none) :
    a.reconcileRanges reported s t f = ⟨.error (.advisoryWithoutRow a.source a.vulnId), f, []⟩ := by
  simp only [reconcileRanges, h]
  rfl

theorem Advisory.reconcileRanges_of_some {v : Int} (h : a.id = some v)
    (reported : List AffectedRange) (s : Source) (t : Moment) (f : FaultyLedger) :
    (a.reconcileRanges reported s t f).result =
        (f.transact (RangeSync.program a.vulnId v reported s t)).result ∧
      (a.reconcileRanges reported s t f).state =
        (f.transact (RangeSync.program a.vulnId v reported s t)).state := by
  simp only [reconcileRanges, h, bind, Work.bind, Work.transact, Store.transact]
  cases (f.transact (RangeSync.program a.vulnId v reported s t)).result with
  | error e => exact ⟨rfl, rfl⟩
  | ok sync => exact ⟨rfl, rfl⟩

/-- Whatever becomes of a reconciliation, the ledger stays well kept. -/
theorem Advisory.reconcileRanges_wellKept {f : FaultyLedger} (hf : f.ledger.WellKept) (a : Advisory)
    (reported : List AffectedRange) (s : Source) (t : Moment) :
    (a.reconcileRanges reported s t f).state.ledger.WellKept := by
  cases h : a.id with
  | none =>
    rw [reconcileRanges_of_none h]
    exact hf
  | some v =>
    rw [(reconcileRanges_of_some h reported s t f).2]
    exact (FaultyLedger.transact_wellKept _ hf).1

end AdvisoryLedger

import AdvisoryLedger.Proofs.Ledger.Interference
import AdvisoryLedger.Proofs.Reconcile.History
import AdvisoryLedger.Proofs.Reconcile.Repair

namespace AdvisoryLedger

open Ledger

namespace RangeReport

/-- The transaction that a report on the advisory of a row comes down to. -/
def transaction (p : RangeReport) (v : Int) : SessionProgram RangeSync :=
  RangeSync.program p.advisory.vulnId v p.reported p.source p.seenAt

/-- Each range that was reported has a row of a kind. -/
def HasRows (p : RangeReport) (l : Ledger) (kind : Int → Prop) : Prop :=
  ∀ x ∈ p.reported, ∃ i, kind i ∧ ∃ r, l.ranges.get? i = some r ∧ r.identity? = x.identity?

def IsAttributed (p : RangeReport) (v : Int) (l : Ledger) : Prop :=
  p.HasRows l fun i => l.isAttributed v i p.source = true

def IsAssociated (p : RangeReport) (v : Int) (l : Ledger) : Prop :=
  p.HasRows l fun i => i ∈ l.associated v

variable {p : RangeReport} {l m : Ledger}

theorem HasRows.mono {kind kind' : Int → Prop} (h : p.HasRows l kind)
    (hr : ∀ i r, l.ranges.get? i = some r → m.ranges.get? i = some r) (hk : ∀ i, kind i → kind' i) :
    p.HasRows m kind' := by
  intro x hx
  obtain ⟨i, hi, r, hir, hs⟩ := h x hx
  exact ⟨i, hk i hi, r, hr i r hir, hs⟩

end RangeReport

/-- What a report relies on while others are carried out: rows of ranges stay, its source goes on
attributing what it attributes, and once all ranges of some report are associated, those of some
report are. -/
structure Heeds (reports : List RangeReport) (v : Int) (s : Source) (l m : Ledger) : Prop where
  ranges : ∀ i r, l.ranges.get? i = some r → m.ranges.get? i = some r
  attributed : ∀ i, l.isAttributed v i s = true → m.isAttributed v i s = true
  associated : (∃ p ∈ reports, p.IsAssociated v l) → ∃ p ∈ reports, p.IsAssociated v m

variable {reports : List RangeReport} {v : Int} {s x : Source} {l m : Ledger} {call : Call}

theorem Heeds.steady (reports : List RangeReport) (v : Int) (s : Source) :
    Steady (Heeds reports v s) where
  refl _ := ⟨fun _ _ h => h, fun _ h => h, fun h => h⟩
  trans h h' := ⟨fun i r hr => h'.ranges i r (h.ranges i r hr),
    fun i hi => h'.attributed i (h.attributed i hi),
    fun hp => h'.associated (h.associated hp)⟩

/-- A request that deletes nothing of the source and sets no association is heeded. -/
theorem heeds_of_perform (hl : l.WellKept) {p : Performed call.Reply} (h : l.perform call = .ok p)
    (hk : call.kind ≠ .setRanges) (hd : ∀ ids, call ≠ .deleteAttributions v ids x) :
    Heeds reports v x l p.ledger where
  ranges i r := perform_keepsRange hl h
  attributed i := perform_keepsAttributed hl h fun ids he => absurd he (hd ids)
  associated := by
    rintro ⟨q, hq, ha⟩
    refine ⟨q, hq, ha.mono (fun i r => perform_keepsRange hl h) fun i hi => ?_⟩
    rwa [perform_keepsAssociated h hk]

/-- The requests of a report that withdraw nothing and set no association. -/
def Call.IsKeeping (v : Int) (s : Source) : Call → Prop
  | .setRanges .. => False
  | .deleteAttributions .. => False
  | call => IsWithin v s call

theorem Call.IsKeeping.isWithin (h : call.IsKeeping v s) : IsWithin v s call := by
  cases call <;> first | exact h | exact h.elim

theorem Call.IsKeeping.kind_ne (h : call.IsKeeping v s) :
    call.kind ≠ .setRanges ∧ call.kind ≠ .deleteAttributions := by
  cases call <;> first | exact h.elim | exact ⟨nofun, nofun⟩

namespace RangeSync

/-- What a report grants: whatever the others rely on. -/
def Grants (reports : List RangeReport) (v : Int) (s : Source) (l m : Ledger) : Prop :=
  ∀ x, x ≠ s → Heeds reports v x l m

/-- The program withstands the other reports. -/
abbrev Prevails {α : Type} (reports : List RangeReport) (v : Int) (s : Source)
    (post : α → Ledger → Prop) (d : SessionProgram α) (l : Ledger) : Prop :=
  Withstands (Heeds reports v s) (Grants reports v s) post d l

section Steps

variable {α β : Type} {post : α → Ledger → Prop}

/-- A request within the entries of the source that sets no association grants what is owed. -/
theorem prevails_ask {f : call.Reply → SessionProgram α} (hc : IsWithin v s call)
    (hk : call.kind ≠ .setRanges)
    (h : ∀ m, m.WellKept → Heeds reports v s l m → ∀ p, m.perform call = .ok p → p.ledger.WellKept →
      Prevails reports v s post (f p.reply) p.ledger) :
        Prevails reports v s post (call.ask >>= f) l := by
  refine Withstands.ask_bind fun m hm hlm p hp hw => ⟨fun x hx => ?_, h m hm hlm p hp hw⟩
  refine heeds_of_perform hm hp hk ?_
  rintro ids rfl
  exact hx hc.2

theorem prevails_keeping {f : call.Reply → SessionProgram α} (hc : call.IsKeeping v s)
    (h : ∀ m, m.WellKept → Heeds reports v s l m → ∀ p, m.perform call = .ok p → p.ledger.WellKept →
      Heeds reports v s l p.ledger → Prevails reports v s post (f p.reply) p.ledger) :
    Prevails reports v s post (call.ask >>= f) l := by
  refine prevails_ask hc.isWithin hc.kind_ne.1 fun m hm hlm p hp hw => h m hm hlm p hp hw ?_
  refine (Heeds.steady reports v s).trans hlm (heeds_of_perform hm hp hc.kind_ne.1 ?_)
  rintro ids rfl
  exact hc.kind_ne.2 rfl

end Steps

/-- Each of some ranges has a row among some, which the source attributes. -/
def Represented (v : Int) (s : Source) (ids : List Int) (xs : List AffectedRange)
    (l : Ledger) : Prop :=
  ∀ y ∈ xs, ∃ i ∈ ids, ∃ r, l.ranges.get? i = some r ∧ r.identity? = y.identity? ∧
    l.isAttributed v i s = true

theorem Represented.heeded {ids ids' : List Int} {xs : List AffectedRange}
    (h : Represented v s ids xs l)
    (hh : Heeds reports v s l m) (hi : ∀ i ∈ ids, i ∈ ids') : Represented v s ids' xs m := by
  intro y hy
  obtain ⟨i, hid, r, hr, hk, ha⟩ := h y hy
  exact ⟨i, hi i hid, r, hh.ranges i r hr, hk, hh.attributed i ha⟩

variable {t : Moment}

/-- What is attributed to the source stays so, whatever the others do meanwhile. -/
theorem attributeRows_prevails (hl : l.WellKept) (ids : List Int) :
    Prevails reports v s (fun _ m => Heeds reports v s l m ∧ ∀ i ∈ ids, m.isAttributed v i s = true)
      (attributeRows v s t ids) l := by
  induction ids generalizing l with
  | nil => exact fun m _ hlm => ⟨hlm, by simp⟩
  | cons i rest ih =>
    refine prevails_keeping ⟨rfl, rfl⟩ fun m hm hlm p hp hw hlp => ?_
    have hi : p.ledger.isAttributed v i s = true := by
      cases performs_of_perform hp with
      | read hc => cases hc
      | insertAttribution _ =>
        rw [isAttributed_iff, hm.entries_insertAttribution]
        simp [attribution, Attribution.triple]
    refine (ih hw).imp ?_
    rintro _ n ⟨hpn, hrest⟩
    refine ⟨(Heeds.steady reports v s).trans hlp hpn, ?_⟩
    exact List.forall_mem_cons.mpr ⟨hpn.attributed i hi, hrest⟩

theorem rowFor_prevails (vulnId : String) {y : AffectedRange} (hy : y.isHashable = true) :
    Prevails reports v s (fun row m => Heeds reports v s l m ∧
      ∃ i, row.id = some i ∧ m.ranges.get? i = some row ∧
        row.identity? = y.identity?) (rowFor vulnId y) l := by
  refine prevails_keeping trivial fun m hm hlm p hp hw hlp => ?_
  obtain rfl := Except.ok.inj hp
  have hsteady := Heeds.steady reports v s
  cases hf : m.ranges.values.find? y.same with
  | some row =>
    obtain ⟨i, hi⟩ := (Table.mem_values_iff_get? hm.distinct.ranges).mp
      (List.mem_of_find?_eq_some hf)
    have hk := AffectedRange.identity?_eq_of_same hy
      (AffectedRange.same_comm hy ▸ List.find?_some hf)
    intro n _ hmn
    exact ⟨hsteady.trans hlm hmn, i, (hm.ranges i row hi).1, hmn.ranges i row hi, hk⟩
  | none =>
    refine Withstands.log_bind.mpr ?_
    rw [← Dialogue.bind_done (Call.ask (.insertRange y))]
    refine prevails_keeping trivial fun n hn hmn q hq hw' hmq => ?_
    obtain rfl := Except.ok.inj hq
    intro o _ hqo
    refine ⟨hsteady.trans (hsteady.trans hlm hmq) hqo, n.nextId, rfl, hqo.ranges _ _ ?_, rfl⟩
    rw [Table.get?_put, if_pos rfl]

theorem renew_prevails {α : Type} {post : α → Ledger → Prop} (i : Int) {rest : SessionProgram α}
    (h : ∀ m, m.WellKept → Heeds reports v s l m → m.isAttributed v i s = true →
      Prevails reports v s post rest m) : Prevails reports v s post (do
        if (← Call.ask (.hasAttribution v i s)).isTruthy then do
          let _ ← Call.ask (.touchAttributions v [i] s t)
        else attributeRows v s t [i]
        rest) l := by
  have hsteady := Heeds.steady reports v s
  refine prevails_keeping trivial fun m hm hlm p hp hw hlp => ?_
  obtain rfl := Except.ok.inj hp
  dsimp only
  split
  · next hknown =>
    refine prevails_keeping ⟨rfl, rfl⟩ fun n hn hmn q hq hw' hmq => ?_
    exact h _ hw' (hsteady.trans hlm hmq) (hmq.attributed i hknown)
  · refine Withstands.bind hsteady hm (attributeRows_prevails hm [i]) ?_
    rintro _ n hn ⟨hmn, hi⟩
    exact h n hn (hsteady.trans hlm hmn) (hi i (by simp))

theorem attach_prevails {xs : List AffectedRange} {sync : RangeSync} (vulnId : String)
    (hl : l.WellKept) (hx : ∀ y ∈ xs, y.isHashable = true) :
    Prevails reports v s (fun sync' m => Heeds reports v s l m ∧
      (∀ i ∈ rowIds sync.kept, i ∈ rowIds sync'.kept) ∧
      Represented v s (rowIds sync'.kept) xs m) (attach vulnId v s t sync xs) l := by
  have hsteady := Heeds.steady reports v s
  induction xs generalizing l sync with
  | nil => exact fun m _ hlm => ⟨hlm, fun _ h => h, by simp [Represented]⟩
  | cons y rest ih =>
    obtain ⟨hy, hrest⟩ := List.forall_mem_cons.mp hx
    refine Withstands.bind hsteady hl (rowFor_prevails vulnId hy) ?_
    rintro row m hm ⟨hlm, i, hi, hmi, hk⟩
    simp only [hi]
    refine renew_prevails i fun n hn hmn ha => ?_
    have hkept : i ∈ rowIds (if (rowIds sync.kept).contains i then sync
        else { sync with kept := sync.kept ++ [row], added := sync.added ++ [row] }).kept := by
      split
      · next hc => simpa using hc
      · exact mem_rowIds.mpr ⟨row, by simp, hi⟩
    have hgrown : ∀ j ∈ rowIds sync.kept, j ∈ rowIds (if (rowIds sync.kept).contains i then sync
        else { sync with kept := sync.kept ++ [row], added := sync.added ++ [row] }).kept := by
      intro j hj
      split
      · exact hj
      · exact rowIds_append _ _ ▸ List.mem_append_left _ hj
    refine (ih hn hrest).imp ?_
    rintro sync' o ⟨hno, hall, hrep⟩
    refine ⟨hsteady.trans hlm (hsteady.trans hmn hno), fun j hj => hall j (hgrown j hj), ?_⟩
    refine List.forall_mem_cons.mpr ⟨⟨i, hall i hkept, row, ?_, hk, hno.attributed i ha⟩, hrep⟩
    exact hno.ranges i row (hmn.ranges i row hmi)

/-- What a plan has to provide for: rows to be refreshed are attributed and not stale, and what was
reported is kept or pending. -/
structure Provides (v : Int) (s : Source) (reported : List AffectedRange) (p : Plan)
    (l : Ledger) : Prop where
  attributed : ∀ i ∈ p.refresh, l.isAttributed v i s = true
  fresh : ∀ i ∈ p.refresh, i ∉ p.stale
  hashable : ∀ y ∈ p.pending, y.isHashable = true
  covers : ∀ x ∈ reported, (∃ y ∈ p.pending, y.identity? = x.identity?) ∨
    ∃ i ∈ p.refresh ++ p.attach, i ∈ rowIds p.kept ∧ ∃ r, l.ranges.get? i = some r ∧
      r.identity? = x.identity?

/-- When all that was reported is attributed, setting the association is all that is left. -/
theorem setRanges_prevails {q : RangeReport} (hq : q ∈ reports) (sync : RangeSync)
    (h : Represented v q.source (rowIds sync.kept) q.reported l) :
    Prevails reports v q.source (fun _ m => q.IsAttributed v m ∧
      ∃ p ∈ reports, p.IsAssociated v m) (do
      Call.ask (.setRanges v (rowIds sync.kept))
      pure sync) l := by
  refine Withstands.ask_bind fun m hm hlm p hp hw => ?_
  have hrep := h.heeded hlm fun _ hi => hi
  obtain rfl := Except.ok.inj hp
  have rows {k : Int → Prop}
    (hk : ∀ i ∈ rowIds sync.kept, m.isAttributed v i q.source = true → k i) :
      q.HasRows m k := by
    intro x hx
    obtain ⟨i, hi, r, hr, hx, ha⟩ := hrep x hx
    exact ⟨i, hk i hi ha, r, hr, hx⟩
  have hassociated : q.IsAssociated v
      { m with associations := m.associations.put v (.ofList (rowIds sync.kept)) } := by
    refine rows fun i hi _ => ?_
    rw [associated_put, if_pos rfl, RowSet.mem_ofList]
    exact hi
  refine ⟨fun x _ => ⟨fun _ _ hr => hr, fun _ ha => ha, fun _ => ⟨q, hq, hassociated⟩⟩, ?_⟩
  intro n _ hmn
  refine ⟨?_, hmn.associated ⟨q, hq, hassociated⟩⟩
  exact (rows (k := fun i => m.isAttributed v i q.source = true) fun _ _ ha =>
    ha).mono hmn.ranges hmn.attributed

/-- The writing half carries out a plan that provides for the report. -/
theorem enact_prevails {q : RangeReport} (hq : q ∈ reports) (hl : l.WellKept)
    (vulnId : String) {p : Plan} (hp : Provides v q.source q.reported p l) :
    Prevails reports v q.source (fun _ m => q.IsAttributed v m ∧ ∃ p ∈ reports, p.IsAssociated v m)
      (enact vulnId v q.source q.seenAt p) l := by
  have hsteady := Heeds.steady reports v q.source
  have attributed (m : Ledger) (hm : m.WellKept)
    (hr : ∀ i r, l.ranges.get? i = some r → m.ranges.get? i = some r)
      (ha : ∀ i ∈ p.refresh, m.isAttributed v i q.source = true) :
      Prevails reports v q.source (fun _ m => q.IsAttributed v m ∧
        ∃ p ∈ reports, p.IsAssociated v m) (do
        attributeRows v q.source q.seenAt p.attach
        let sync ← attach vulnId v q.source q.seenAt { kept := p.kept, removed := p.removed } p.pending
        Call.ask (.setRanges v (rowIds sync.kept))
        pure sync) m := by
    refine Withstands.bind hsteady hm (attributeRows_prevails hm p.attach) ?_
    rintro _ n hn ⟨hmn, hattach⟩
    refine Withstands.bind hsteady hn (attach_prevails vulnId hn hp.hashable) ?_
    rintro sync o ho ⟨hno, hkept, hrep⟩
    refine setRanges_prevails hq sync fun x hx => ?_
    have hmo := hsteady.trans hmn hno
    rcases hp.covers x hx with ⟨y, hy, hk⟩ | ⟨i, hi, hik, r, hir, hk⟩
    · obtain ⟨i, hi, r, hir, hry, ha'⟩ := hrep y hy
      exact ⟨i, hi, r, hir, hry.trans hk, ha'⟩
    · refine ⟨i, hkept i hik, r, hmo.ranges i r (hr i r hir), hk, ?_⟩
      rcases List.mem_append.mp hi with hi | hi
      · exact hmo.attributed i (ha i hi)
      · exact hno.attributed i (hattach i hi)
  have refreshed (m : Ledger) (hm : m.WellKept)
    (hr : ∀ i r, l.ranges.get? i = some r → m.ranges.get? i = some r)
      (ha : ∀ i ∈ p.refresh, m.isAttributed v i q.source = true) :
      Prevails reports v q.source (fun _ m => q.IsAttributed v m ∧
        ∃ p ∈ reports, p.IsAssociated v m) (do
        if !p.refresh.isEmpty then do
          let _ ← Call.ask (.touchAttributions v p.refresh q.source q.seenAt)
        attributeRows v q.source q.seenAt p.attach
        let sync ← attach vulnId v q.source q.seenAt { kept := p.kept, removed := p.removed } p.pending
        Call.ask (.setRanges v (rowIds sync.kept))
        pure sync) m := by
    refine Withstands.ite (fun _ => ?_) fun _ => attributed m hm hr ha
    refine prevails_keeping ⟨rfl, rfl⟩ fun n hn hmn r hp' hw hmr => ?_
    exact attributed _ hw (fun i x hx => hmr.ranges i x (hr i x hx)) fun i hi =>
      hmr.attributed i (ha i hi)
  refine Withstands.ite (fun _ => ?_) fun _ => refreshed l hl (fun _ _ h => h) hp.attributed
  -- what the source withdraws is not among what it refreshes
  refine prevails_ask ⟨rfl, rfl⟩ nofun fun m hm hlm r hr hw => ?_
  refine refreshed _ hw (fun i x hx => perform_keepsRange hm hr (hlm.ranges i x hx)) fun i hi => ?_
  refine perform_keepsAttributed hm hr ?_ (hlm.attributed i (hp.attributed i hi))
  rintro ids hids
  obtain rfl := (Call.deleteAttributions.inj hids).2.1
  exact hp.fresh i hi

theorem rangeRows_mono {ids : List Int} {rows : List AffectedRange}
    (hr : ∀ i r, l.ranges.get? i = some r → m.ranges.get? i = some r)
    (h : l.rangeRows ids = .ok rows) :
    m.rangeRows ids = .ok rows := by
  induction ids generalizing rows with
  | nil => exact h
  | cons i rest ih =>
    simp only [rangeRows] at h ⊢
    cases hi : l.ranges.get? i with
    | none => simp [hi] at h
    | some r =>
      cases hrest : l.rangeRows rest with
      | error e => simp [hi, hrest, bind, Except.bind] at h
      | ok rs =>
        simp only [hi, hrest] at h
        simp only [hr i r hi, ih hrest]
        exact h

/-- A plan made from rows that were read and attributions that were read later provides for the
report. -/
theorem provides_of_read {reported pending rows : List AffectedRange} (hl : l.WellKept)
    (hm : m.WellKept)
    (hr : ∀ i r, l.ranges.get? i = some r → m.ranges.get? i = some r)
    (hrows : l.rangesOf v = .ok rows)
    (hc : Collapsed [] reported pending) : Provides v s reported (plan m v s pending rows) m := by
  -- what was read at two times could have been read at once from this ledger
  have hprep : Prepared { m with associations := l.associations } v reported pending rows := by
    refine ⟨?_, rangeRows_mono hr hrows, hc⟩
    exact { hm with
      distinct := { hm.distinct with associations := hl.distinct.associations }, ascending := hl.ascending }
  refine ⟨fun i hi => (hprep.mem_refresh.mp hi).2, fun i hi hs => ?_, fun y hy => ?_,
    fun x hx => ?_⟩
  · exact (hprep.mem_stale.mp hs).2.1 (hprep.mem_refresh.mp hi).1
  · exact hc.apart.hashable y ((leftOver_sublist pending rows).subset hy)
  · obtain ⟨y, hy, hk⟩ : ∃ y ∈ pending, y.identity? = x.identity? := by
      rcases hc.covers x hx with hx | ⟨y, hy, hs⟩
      · exact ⟨x, hx, rfl⟩
      · exact ⟨y, hy, (AffectedRange.identity?_eq_of_same (hc.apart.hashable y hy) hs).symm⟩
    rcases taken_or_mem_leftOver hy with ⟨d, hd, hdr, hs⟩ | hleft
    · obtain ⟨i, -, hi, hli, -⟩ := hprep.decided hd
      have htaken : i ∈ taken m v s pending rows := mem_rowIds_chosen.mpr ⟨d, hd, hi, hdr⟩
      refine .inr ⟨i, ?_, hprep.mem_kept.mpr (.inl htaken), d.1, hli, ?_⟩
      · rcases Bool.eq_false_or_eq_true (m.isAttributed v i s) with ha | ha
        · exact List.mem_append_left _ (hprep.mem_refresh.mpr ⟨htaken, ha⟩)
        · exact List.mem_append_right _ (hprep.mem_attach.mpr ⟨htaken, ha⟩)
      · exact (AffectedRange.identity?_eq_of_same (hc.apart.hashable y hy) hs).trans hk
    · exact .inl ⟨y, hleft, hk⟩

theorem ofNoted_bind {α β : Type} {post : α → Ledger → Prop} {x : Noted β}
    {f : β → SessionProgram α} (h : ∀ b, x.result = .ok b → Prevails reports v s post (f b) l) :
    Prevails reports v s post (ofNoted x >>= f) l := by
  obtain ⟨result, entries⟩ := x
  induction entries with
  | nil => exact Withstands.ofExcept_bind h
  | cons entry rest ih => exact ih h

/-- Whatever other reports do between its requests, a report that ends well has all its ranges
attributed, and all those of some report associated. -/
theorem transaction_prevails {q : RangeReport} (hq : q ∈ reports) (v : Int) (l : Ledger) :
    Prevails reports v q.source (fun _ m => q.IsAttributed v m ∧ ∃ p ∈ reports, p.IsAssociated v m)
      (q.transaction v) l := by
  rw [RangeReport.transaction, program_eq]
  refine prevails_keeping trivial fun m₁ hm₁ _ p₁ hp₁ _ _ => ?_
  obtain ⟨rows, hrows, rfl⟩ : ∃ rows, m₁.rangesOf v = .ok rows ∧ p₁ = ⟨rows, m₁, []⟩ := by
    simp only [perform] at hp₁
    cases hr : m₁.rangesOf v with
    | error e => simp [hr, bind, Except.bind] at hp₁
    | ok rows =>
      rw [hr] at hp₁
      exact ⟨rows, rfl, (Except.ok.inj hp₁).symm⟩
  refine prevails_keeping trivial fun m₂ hm₂ hm p₂ hp₂ _ _ => ?_
  obtain rfl := Except.ok.inj hp₂
  refine Withstands.log_bind.mpr (Withstands.ofExcept_bind fun pending hpending => ?_)
  refine ofNoted_bind fun plan hplan => Withstands.log_bind.mpr ?_
  rw [classify_eq hplan]
  exact enact_prevails hq hm₂ _
    (provides_of_read hm₁ hm₂ hm.ranges hrows (collapse_collapsed hpending Apart.nil))

end RangeSync

end AdvisoryLedger

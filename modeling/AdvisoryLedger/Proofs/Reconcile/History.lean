import AdvisoryLedger.Proofs.Reconcile.Isolation
import AdvisoryLedger.Proofs.Reconcile.Repair
import Mathlib.Data.List.TakeWhile

namespace AdvisoryLedger

open Ledger RangeSync

/-- What a source reports on an advisory. -/
structure RangeReport where
  advisory : Advisory
  reported : List AffectedRange
  source : Source
  seenAt : Moment

namespace RangeReport

def concerns (p : RangeReport) (v : Int) (s : Source) : Bool :=
  p.advisory.id = some v && p.source = s

def names (p : RangeReport) (x : AffectedRange) : Bool := p.reported.any fun r => r.same x

end RangeReport

/-- The reports of a source on an advisory that name a range, the latest first: all those since the
last one that did not. -/
def series (done : List RangeReport) (v : Int) (s : Source) (x : AffectedRange) :
    List RangeReport :=
  (done.filter fun p => p.concerns v s).takeWhile fun p => p.names x

/-- A store, and the reports that it has carried out successfully, the latest first. -/
structure History where
  store : FaultyLedger
  done : List RangeReport := []

/-- Carries out a report; one that fails does not count. -/
def History.next (h : History) (p : RangeReport) : History :=
  let x := p.advisory.reconcileRanges p.reported p.source p.seenAt h.store
  match x.result with
  | .ok _ => ⟨x.state, p :: h.done⟩
  | .error _ => ⟨x.state, h.done⟩

/-- One attribution for a series of reports, and none for an empty one. -/
def Attests (attributions : List Attribution) : List RangeReport → Prop
  | [] => attributions = []
  | latest :: earlier => ∃ a, attributions = [a] ∧ a.lastSeen = latest.seenAt ∧
    a.firstSeen = (earlier.getLastD latest).seenAt

/-- The attributions of a source to an advisory that concern a range, by its key. -/
def Ledger.attributionsTo (l : Ledger) (v : Int) (x : AffectedRange) (s : Source) :
    List Attribution :=
  l.attributions.values.filter fun a =>
    a.advisoryId = v && a.source = s && (l.ranges.get? a.rangeId).any fun r => r.same x

section Series

variable {done : List RangeReport} {p : RangeReport} {v w : Int} {s z : Source}
    {x y : AffectedRange}
  {k : List Json.Content}

theorem names_iff (hx : x.identity? = some k) : p.names x = true ↔
    ∃ r ∈ p.reported, r.identity? = some k := by
  simp only [RangeReport.names, List.any_eq_true]
  have hh := AffectedRange.isHashable_of_identity? hx
  constructor
  · rintro ⟨r, hr, hs⟩
    exact ⟨r, hr, (AffectedRange.identity?_eq_of_same hh hs).trans hx⟩
  · rintro ⟨r, hr, hk⟩
    exact ⟨r, hr, AffectedRange.same_of_identity? hk hx⟩

theorem series_congr (hx : x.identity? = some k) (hy : y.identity? = some k) :
    series done v s x = series done v s y := by
  have h : (fun p : RangeReport => p.names x) = fun p => p.names y := by
    funext p
    rw [Bool.eq_iff_iff, names_iff hx, names_iff hy]
  rw [series, h, series]

theorem series_cons_of_concerns (hc : p.concerns v s = true) :
    series (p :: done) v s x = if p.names x then p :: series done v s x else [] := by
  simp only [series, List.filter_cons, hc, if_true, List.takeWhile_cons]

theorem series_cons_of_not_concerns (hc : p.concerns v s = false) :
    series (p :: done) v s x = series done v s x := by
  simp [series, hc]

theorem concerns_iff (hp : p.advisory.id = some v) : p.concerns w z = true ↔ w = v ∧
    z = p.source := by
  simp only [RangeReport.concerns, hp, Option.some.injEq, Bool.and_eq_true, decide_eq_true_eq]
  exact ⟨fun h => ⟨h.1.symm, h.2.symm⟩, fun h => ⟨h.1.symm, h.2.symm⟩⟩

/-- Reports of ranges that can all be looked up name nothing without an identity. -/
theorem series_eq_nil (hd : ∀ p ∈ done, ∀ r ∈ p.reported, r.isHashable = true)
    (hx : x.identity? = none) :
    series done v s x = [] := by
  cases h : series done v s x with
  | nil => rfl
  | cons p rest =>
    have hp : p ∈ series done v s x := h ▸ List.mem_cons_self
    have hn : p.names x = true := List.mem_takeWhile_imp (p := fun q : RangeReport => q.names x) hp
    obtain ⟨r, hr, hs⟩ := List.any_eq_true.mp hn
    have hmem : p ∈ done := (List.mem_filter.mp ((List.takeWhile_sublist _).subset hp)).1
    obtain ⟨k, -, hk⟩ := (AffectedRange.same_iff (hd p hmem r hr) x).mp hs
    rw [hx] at hk
    cases hk

end Series

theorem Attests.renewed {p : RangeReport} {v i : Int} {old new : List Attribution}
    {earlier : List RangeReport}
    (h : Attests old earlier) (hr : Renewed v i p.source p.seenAt old new) :
    Attests new (p :: earlier) := by
  cases earlier with
  | nil =>
    rcases hr with ⟨hne, -⟩ | ⟨-, k, rfl⟩
    · exact absurd h hne
    · exact ⟨_, rfl, rfl, rfl⟩
  | cons q rest =>
    obtain ⟨a, rfl, -, hfirst⟩ := h
    rcases hr with ⟨-, rfl⟩ | ⟨hnil, -⟩
    · refine ⟨_, rfl, rfl, ?_⟩
      rw [List.getLastD_cons]
      exact hfirst
    · cases hnil

/-- What holds of a ledger that has carried out just these reports. -/
structure Faithful (l : Ledger) (done : List RangeReport) : Prop where
  wellKept : l.WellKept
  reported : ∀ p ∈ done, ∀ r ∈ p.reported, r.isHashable = true
  hashable : ∀ i r, l.ranges.get? i = some r → r.isHashable = true
  distinct : ∀ i j r q, l.ranges.get? i = some r → l.ranges.get? j = some q →
    r.same q = true → i = j
  rows : ∀ v, ∀ i ∈ l.associated v, ∃ r, l.ranges.get? i = some r
  associated : ∀ v i, i ∈ l.associated v ↔ ∃ s, l.entries v i s ≠ []
  attested : ∀ v i s r k, l.ranges.get? i = some r → r.identity? = some k →
    Attests (l.entries v i s) (series done v s r)
  present : ∀ v s x k, x.identity? = some k → series done v s x ≠ [] →
    ∃ i r, l.ranges.get? i = some r ∧ r.identity? = some k

namespace Faithful

variable {l m : Ledger} {done : List RangeReport} {p : RangeReport} {v i : Int} {target : List Int}

theorem initial (hl : l.WellKept) (hr : l.ranges = []) (ha : l.attributions = [])
    (hs : l.associations = []) :
    Faithful l [] where
  wellKept := hl
  reported := by simp
  hashable i r h := by simp [hr] at h
  distinct i j r q h := by simp [hr] at h
  rows v i h := by simp [Ledger.associated, hs] at h
  associated v i := by simp [Ledger.associated, hs, entries, ha, Table.values]
  attested v i s r k h := by simp [hr] at h
  present v s x k _ h := absurd rfl h

theorem of_agrees (h : Faithful l done) (hm : m.WellKept) (ha : m.Agrees l) : Faithful m done := by
  have hperm (v i : Int) (s : Source) : (m.entries v i s).Perm (l.entries v i s) :=
    ha.entries_perm hm.distinct h.wellKept.distinct v i s
  have hnil (v i : Int) (s : Source) : m.entries v i s = [] ↔ l.entries v i s = [] :=
    ⟨fun he => (he ▸ hperm v i s).symm.eq_nil, fun he => (he ▸ hperm v i s).eq_nil⟩
  refine ⟨hm, h.reported, ?_, ?_, ?_, ?_, ?_, ?_⟩
  · simp only [ha.ranges]
    exact h.hashable
  · simp only [ha.ranges]
    exact h.distinct
  · simp only [ha.ranges, ha.associated]
    exact h.rows
  · intro v i
    rw [ha.associated, h.associated]
    simp only [Ne, hnil]
  · intro v i s r k hr hk
    rw [ha.ranges] at hr
    have hl := h.attested v i s r k hr hk
    cases hs : series done v s r with
    | nil =>
      rw [hs] at hl
      exact (hnil v i s).mpr hl
    | cons latest earlier =>
      rw [hs] at hl
      obtain ⟨a, hla, ht⟩ := hl
      exact ⟨a, List.perm_singleton.mp (hla ▸ hperm v i s), ht⟩
  · simp only [ha.ranges]
    exact h.present

theorem entries_eq_nil (h : Faithful l done) (hi : l.ranges.get? i = none) (v : Int) (s : Source) :
    l.entries v i s = [] := by
  by_contra hne
  obtain ⟨r, hr⟩ := h.rows v i ((h.associated v i).mpr ⟨s, hne⟩)
  rw [hi] at hr
  cases hr

section Report

variable (h : Faithful l done) (hr : Reconciled v p.source p.seenAt p.reported target l m)

include h hr

theorem distinct_of_reconciled (i j : Int) (r q : AffectedRange) (hi : m.ranges.get? i = some r)
    (hj : m.ranges.get? j = some q) (hs : r.same q = true) : i = j := by
  rcases hr.new i r hi with hil | ⟨hit, hin⟩ <;> rcases hr.new j q hj with hjl | ⟨hjt, hjn⟩
  · exact h.distinct i j r q hil hjl hs
  · rw [AffectedRange.same_comm (h.hashable i r hil), hjn i r hil] at hs
    cases hs
  · rw [hin j q hjl] at hs
    cases hs
  · exact hr.distinct i hit j hjt r q hi hj hs

/-- What was reported so far holds of new rows too: nobody has named their range yet. -/
theorem attested_before {r : AffectedRange} {k : List Json.Content} (hi : m.ranges.get? i = some r)
    (hk : r.identity? = some k) (w : Int) (z : Source) :
    Attests (l.entries w i z) (series done w z r) := by
  cases hl : l.ranges.get? i with
  | some q =>
    obtain rfl : q = r := Option.some.inj ((hr.kept i q hl).symm.trans hi)
    exact h.attested w i z q k hl hk
  | none =>
    have hs : series done w z r = [] := by
      by_contra hne
      obtain ⟨j, q, hj, hq⟩ := h.present w z r k hk hne
      rcases hr.new i r hi with hil | ⟨-, hin⟩
      · rw [hl] at hil
        cases hil
      · exact absurd (AffectedRange.same_of_identity? hk hq) (by simp [hin j q hj])
    rw [hs]
    exact h.entries_eq_nil hl w z

theorem mem_target_iff_names {r : AffectedRange} {k : List Json.Content}
    (hi : m.ranges.get? i = some r)
    (hk : r.identity? = some k) : i ∈ target ↔ p.names r = true := by
  rw [names_iff hk]
  constructor
  · intro ht
    obtain ⟨q, hq, -, x, hx, hqx⟩ := hr.rows i ht
    obtain rfl : q = r := Option.some.inj (hq.symm.trans hi)
    exact ⟨x, hx, hqx.symm.trans hk⟩
  · rintro ⟨x, hx, hxk⟩
    obtain ⟨j, hj, q, hq, hqx⟩ := hr.covers x hx
    obtain rfl := h.distinct_of_reconciled hr j i q r hq hi
      (AffectedRange.same_of_identity? (hqx.trans hxk) hk)
    exact hj

theorem entries_of_notMem_target (hi : i ∉ target) : m.entries v i p.source = [] := by
  by_cases ha : i ∈ l.associated v
  · exact hr.cleared i ha hi
  · rw [hr.others v i p.source (.inr (.inr ⟨hi, ha⟩))]
    by_contra hne
    exact ha ((h.associated v i).mpr ⟨p.source, hne⟩)

theorem row_of_associated {w : Int} (hi : i ∈ m.associated w) : ∃ r, m.ranges.get? i = some r := by
  by_cases hw : w = v
  · subst hw
    rcases (hr.associated i).mp hi with hit | ⟨hl, -⟩
    · obtain ⟨q, hq, -⟩ := hr.rows i hit
      exact ⟨q, hq⟩
    · obtain ⟨r, hr'⟩ := h.rows w i hl
      exact ⟨r, hr.kept i r hr'⟩
  · rw [hr.elsewhere w hw] at hi
    obtain ⟨r, hr'⟩ := h.rows w i hi
    exact ⟨r, hr.kept i r hr'⟩

theorem associated_iff (w i : Int) : i ∈ m.associated w ↔ ∃ s, m.entries w i s ≠ [] := by
  by_cases hw : w = v
  · subst hw
    constructor
    · exact hr.exists_entry
    · rintro ⟨z, hz⟩
      rw [hr.associated]
      by_cases hit : i ∈ target
      · exact .inl hit
      · have hzs : z ≠ p.source := by
          rintro rfl
          exact hz (h.entries_of_notMem_target hr hit)
        rw [hr.others w i z (.inr (.inl hzs))] at hz
        exact .inr ⟨(h.associated w i).mpr ⟨z, hz⟩, isShared_iff.mpr ⟨z, hzs, hz⟩⟩
  · rw [hr.elsewhere w hw, h.associated]
    simp only [fun z => hr.others w i z (.inl hw)]

theorem attested_after (hp : p.advisory.id = some v) {r : AffectedRange} {k : List Json.Content}
    (hi : m.ranges.get? i = some r) (hk : r.identity? = some k) (w : Int) (z : Source) :
    Attests (m.entries w i z) (series (p :: done) w z r) := by
  have hbefore := h.attested_before hr hi hk w z
  by_cases hc : p.concerns w z = true
  · obtain ⟨rfl, rfl⟩ := (concerns_iff hp).mp hc
    rw [series_cons_of_concerns hc]
    split
    · next hn => exact hbefore.renewed (hr.renewed i ((h.mem_target_iff_names hr hi hk).mpr hn))
    · next hn =>
        exact h.entries_of_notMem_target hr fun hit => hn ((h.mem_target_iff_names hr hi hk).mp hit)
  · rw [series_cons_of_not_concerns (by simpa using hc), hr.others w i z]
    · exact hbefore
    · rw [concerns_iff hp] at hc
      tauto

theorem present_after {w : Int} {z : Source} {x : AffectedRange} {k : List Json.Content}
    (hk : x.identity? = some k) (hs : series (p :: done) w z x ≠ []) :
    ∃ i r, m.ranges.get? i = some r ∧ r.identity? = some k := by
  have old (hs : series done w z x ≠ []) : ∃ i r, m.ranges.get? i = some r ∧
      r.identity? = some k := by
    obtain ⟨i, r, hi, hrk⟩ := h.present w z x k hk hs
    exact ⟨i, r, hr.kept i r hi, hrk⟩
  by_cases hc : p.concerns w z = true
  · rw [series_cons_of_concerns hc] at hs
    split at hs
    · next hn =>
      obtain ⟨y, hy, hyk⟩ := (names_iff hk).mp hn
      obtain ⟨i, -, r, hi, hry⟩ := hr.covers y hy
      exact ⟨i, r, hi, hry.trans hyk⟩
    · exact absurd rfl hs
  · rw [series_cons_of_not_concerns (by simpa using hc)] at hs
    exact old hs

end Report

theorem report (h : Faithful l done) (hp : p.advisory.id = some v)
    (hr : Reconciled v p.source p.seenAt p.reported target l m) : Faithful m (p :: done) := by
  refine ⟨hr.wellKept, List.forall_mem_cons.mpr ⟨hr.hashable, h.reported⟩, ?_,
    h.distinct_of_reconciled hr,
    fun w i hi => h.row_of_associated hr hi, h.associated_iff hr,
    fun w i z r k hi hk => h.attested_after hr hp hi hk w z, fun w z x k hk hs =>
      h.present_after hr hk hs⟩
  intro i r hi
  rcases hr.new i r hi with hil | ⟨hit, -⟩
  · exact h.hashable i r hil
  · obtain ⟨q, hq, hqh, -⟩ := hr.rows i hit
    rwa [Option.some.inj (hi.symm.trans hq)]

/-- What a report leaves is what it and those before it say, whether or not it ends well. -/
theorem next {g : History} (h : Faithful g.store.ledger g.done) (p : RangeReport) :
    Faithful (g.next p).store.ledger (g.next p).done := by
  cases hid : p.advisory.id with
  | none =>
    simp only [History.next, Advisory.reconcileRanges_of_none hid]
    exact h
  | some v =>
    obtain ⟨hresult, hstate⟩ :=
      Advisory.reconcileRanges_of_some hid p.reported p.source p.seenAt g.store
    have hwell := (FaultyLedger.transact_wellKept
      (program p.advisory.vulnId v p.reported p.source p.seenAt) h.wellKept).1
    simp only [History.next, hresult, hstate]
    cases hr : (g.store.transact
      (program p.advisory.vulnId v p.reported p.source p.seenAt)).result with
    | error e => exact h.of_agrees hwell (FaultyLedger.transact_agrees h.wellKept hr)
    | ok sync =>
      have hg := FaultyLedger.gives_of_transact
        (program_confined p.advisory.vulnId p.reported).strict hr
      obtain ⟨target, hrec⟩ := program_reconciled h.wellKept hg
      exact h.report hid hrec

theorem run {g : History} (h : Faithful g.store.ledger g.done) (reports : List RangeReport) :
    Faithful (reports.foldl History.next g).store.ledger (reports.foldl History.next g).done := by
  induction reports generalizing g with
  | nil => exact h
  | cons p rest ih => exact ih (h.next p)

/-- A range has a row where some row has its identity, and that is the only one. -/
theorem any_same_iff (h : Faithful l done) {x r : AffectedRange} {k : List Json.Content}
    (hi : l.ranges.get? i = some r) (hr : r.identity? = some k)
    (hx : x.identity? = some k) (j : Int) :
    ((l.ranges.get? j).any fun q => q.same x) = decide (j = i) := by
  rw [Bool.eq_iff_iff, Option.any_eq_true, decide_eq_true_eq]
  constructor
  · rintro ⟨q, hq, hs⟩
    have hqk := (AffectedRange.identity?_eq_of_same
      (AffectedRange.isHashable_of_identity? hx) hs).trans hx
    exact h.distinct j i q r hq hi (AffectedRange.same_of_identity? hqk hr)
  · rintro rfl
    exact ⟨r, hi, AffectedRange.same_of_identity? hr hx⟩

theorem attributionsTo_eq_nil {x : AffectedRange}
    (hx : ∀ i r, l.ranges.get? i = some r → r.same x = false)
    (v : Int) (s : Source) : l.attributionsTo v x s = [] := by
  rw [attributionsTo, List.filter_eq_nil_iff]
  intro a _ ha
  simp only [Bool.and_eq_true, Option.any_eq_true] at ha
  obtain ⟨-, r, hr, hs⟩ := ha
  rw [hx a.rangeId r hr] at hs
  cases hs

theorem attests_attributionsTo (h : Faithful l done) (v : Int) (x : AffectedRange) (s : Source) :
    Attests (l.attributionsTo v x s) (series done v s x) := by
  cases hx : x.identity? with
  | none =>
    rw [series_eq_nil h.reported hx, attributionsTo_eq_nil]
    · rfl
    · intro i r hi
      rw [← Bool.not_eq_true, AffectedRange.same_iff (h.hashable i r hi), hx]
      simp
  | some k =>
    by_cases hrow : ∃ i r, l.ranges.get? i = some r ∧ r.identity? = some k
    · obtain ⟨i, r, hi, hr⟩ := hrow
      have he : l.attributionsTo v x s = l.entries v i s := by
        apply List.filter_congr
        intro a _
        rw [h.any_same_iff hi hr hx]
        simp only [Attribution.triple, Prod.mk.injEq, Bool.decide_and]
        cases decide (a.advisoryId = v) <;> cases decide (a.rangeId = i) <;> simp
      rw [he, series_congr hx hr]
      exact h.attested v i s r k hi hr
    · rw [attributionsTo_eq_nil]
      · by_contra hne
        refine hrow (h.present v s x k hx ?_)
        intro hs
        rw [hs] at hne
        exact hne rfl
      · intro i r hi
        rw [← Bool.not_eq_true]
        intro hs
        obtain ⟨j, hj, hj'⟩ := (AffectedRange.same_iff (h.hashable i r hi) x).mp hs
        rw [hx] at hj'
        exact hrow ⟨i, r, hi, hj'.symm ▸ hj⟩

theorem mem_associated_iff (h : Faithful l done) (v i : Int) :
    i ∈ l.associated v ↔ ∃ a ∈ l.attributions.values, a.advisoryId = v ∧ a.rangeId = i := by
  rw [h.associated]
  constructor
  · rintro ⟨s, hs⟩
    obtain ⟨a, ha⟩ := List.exists_mem_of_ne_nil _ hs
    obtain ⟨ham, ht⟩ := mem_entries.mp ha
    simp only [Attribution.triple, Prod.mk.injEq] at ht
    exact ⟨a, ham, ht.1, ht.2.1⟩
  · rintro ⟨a, ham, rfl, rfl⟩
    exact ⟨a.source, List.ne_nil_of_mem (mem_entries.mpr ⟨ham, rfl⟩)⟩

theorem pairwise_ranges (h : Faithful l done) :
    l.ranges.values.Pairwise fun r q => r.same q = false := by
  have hk : l.ranges.Pairwise fun a b => a.1 ≠ b.1 :=
    List.pairwise_map.mp h.wellKept.distinct.ranges
  refine List.pairwise_map.mpr (hk.imp_of_mem ?_)
  intro a b ha hb hne
  rw [← Bool.not_eq_true]
  intro hs
  have hga := Table.get?_of_mem h.wellKept.distinct.ranges ha
  have hgb := Table.get?_of_mem h.wellKept.distinct.ranges hb
  exact hne (h.distinct a.1 b.1 a.2 b.2 hga hgb hs)

end Faithful

/-- From a ledger that says nothing of ranges, after any reports on any advisories and by any
sources, of which any may fail: each range is attributed as the reports say, an advisory is
associated with just the ranges that are attributed to it, and no range has two rows. -/
theorem History.attested (f : FaultyLedger) (hf : f.ledger.WellKept)
    (hranges : f.ledger.ranges = [])
    (hattributions : f.ledger.attributions = []) (hassociations : f.ledger.associations = [])
    (reports : List RangeReport) :
    let h := reports.foldl History.next ⟨f, []⟩
    (∀ v x s, Attests (h.store.ledger.attributionsTo v x s) (series h.done v s x)) ∧
      (∀ v i, i ∈ h.store.ledger.associated v ↔
        ∃ a ∈ h.store.ledger.attributions.values, a.advisoryId = v ∧ a.rangeId = i) ∧
      h.store.ledger.ranges.values.Pairwise fun r q => r.same q = false := by
  have h := (Faithful.initial hf hranges hattributions hassociations).run (g := ⟨f, []⟩) reports
  exact ⟨h.attests_attributionsTo, h.mem_associated_iff, h.pairwise_ranges⟩

/-- A report of one range, at one of three moments. -/
def reportAt (n : Fin 3) : RangeReport where
  advisory := { vulnId := "A", id := some 1 }
  reported := [{ cpe23 := .text "x" }]
  source := .nvd
  seenAt := ⟨n, 0, Nat.lt_trans n.isLt (by decide)⟩

/-- The range is reported three times, and the second time the association cannot be written. -/
def threeReports : History :=
  [reportAt 0, reportAt 1, reportAt 2].foldl History.next ⟨{ faults := .single .setRanges 2 .wrongKind }, []⟩

theorem History.attested_threeReports :
    threeReports.done.map (·.seenAt) = [(reportAt 2).seenAt, (reportAt 0).seenAt] ∧
      Attests (threeReports.store.ledger.attributionsTo 1 { cpe23 := .text "x" } .nvd)
        (series threeReports.done 1 .nvd { cpe23 := .text "x" }) :=
  ⟨by decide +kernel, (History.attested { faults := .single .setRanges 2 .wrongKind } wellKept_empty rfl rfl
    rfl [reportAt 0, reportAt 1, reportAt 2]).1 1 { cpe23 := .text "x" } .nvd⟩

end AdvisoryLedger

import AdvisoryLedger.Proofs.Reconcile.Concurrent

namespace AdvisoryLedger

open Ledger

variable {reports : List RangeReport} {v : Int} {s x : Source} {l m : Ledger}

namespace Hall

/-- Reports on the advisory of a row that are carried out side by side. None of the transactions
takes a lock. -/
def gathered (l : Ledger) (v : Int) (reports : List RangeReport) : Hall RangeSync :=
  { ledger := l, visits := reports.map fun p => ⟨none, .waiting (p.transaction v)⟩ }

theorem phase?_gathered (l : Ledger) (v : Int) (reports : List RangeReport) (i : Nat) :
    (gathered l v reports).phase? i = (reports[i]?).map fun p => .waiting (p.transaction v) := by
  simp [gathered, phase?, Function.comp_def]

def reliance (reports : List RangeReport) (v : Int) (i : Nat) (l m : Ledger) : Prop :=
  ∀ p, reports[i]? = some p → Heeds reports v p.source l m

theorem reliance_steady (reports : List RangeReport) (v : Int) (i : Nat) :
    Steady (reliance reports v i) where
  refl l p _ := (Heeds.steady reports v p.source).refl l
  trans h h' p hp := (Heeds.steady reports v p.source).trans (h p hp) (h' p hp)

theorem gathered_withstood (hl : l.WellKept) (v : Int)
    (hd : (reports.map RangeReport.source).Nodup) :
    (gathered l v reports).Withstood (reliance reports v) fun i _ m => ∀ p, reports[i]? = some p →
      p.IsAttributed v m ∧ ∃ q ∈ reports, q.IsAssociated v m := by
  refine ⟨hl, fun i phase hphase => ?_⟩
  rw [phase?_gathered, Option.map_eq_some_iff] at hphase
  obtain ⟨p, hp, rfl⟩ := hphase
  refine (RangeSync.transaction_prevails (List.mem_of_getElem? hp) v l).consequence
    (fun _ _ h => h p hp) ?_ ?_
  · intro m n h j hij q hq
    refine h q.source fun hs => hij ?_
    have hi : (reports.map RangeReport.source)[i]? = some p.source := by simp [hp]
    have hj : (reports.map RangeReport.source)[j]? = some p.source := by simp [hq, hs]
    exact (List.getElem?_inj (List.getElem?_eq_some_iff.mp hi).1 hd).mp (hi.trans hj.symm)
  · rintro _ m h q hq
    obtain rfl := Option.some.inj (hp.symm.trans hq)
    exact h

/-- However the requests of reports of different sources are mixed, once all have ended well each
source attributes what it reported, and all that some source reported is associated. -/
theorem run_gathered (hl : l.WellKept) (hd : (reports.map RangeReport.source).Nodup)
    {schedule : List Nat}
    (h : ∀ i < reports.length, ∃ sync,
      ((gathered l v reports).run schedule).phase? i = some (.ended (.ok sync))) :
    ∀ p ∈ reports, p.IsAttributed v ((gathered l v reports).run schedule).ledger ∧
      ∃ q ∈ reports, q.IsAssociated v ((gathered l v reports).run schedule).ledger := by
  intro p hp
  obtain ⟨i, hi, hpi⟩ := List.mem_iff_getElem.mp hp
  obtain ⟨sync, hsync⟩ := h i hi
  rcases run_stands (reliance_steady reports v) (gathered_withstood hl v hd) schedule with hf | hw
  · refine absurd hf (not_hasFailed fun j phase hj => ?_)
    rw [phase?_gathered, Option.map_eq_some_iff] at hj
    obtain ⟨q, hq, -⟩ := hj
    exact h j (List.getElem?_eq_some_iff.mp hq).1
  · have hstands := hw.stands i _ hsync
    exact hstands _ hw.wellKept ((reliance_steady reports v i).refl _) p (by simp [hi, hpi])

end Hall

/-- The associated ranges of an advisory are exactly those that some source attributes to it. -/
def Ledger.IsAccounted (l : Ledger) (v : Int) : Prop :=
  ∀ i, i ∈ l.associated v ↔ ∃ x, l.isAttributed v i x = true

namespace RangeSync.Reconciled

variable {t : Moment} {reported : List AffectedRange} {target : List Int}

theorem keeps (h : Reconciled v s t reported target l m) (hx : x ≠ s) {i : Int}
    (hi : i ∈ l.associated v) (ha : l.isAttributed v i x = true) : i ∈ m.associated v :=
  (h.associated i).mpr (.inr ⟨hi, isShared_iff.mpr ⟨x, hx, isAttributed_iff.mp ha⟩⟩)

theorem isAccounted (h : Reconciled v s t reported target l m) (hl : l.IsAccounted v) :
    m.IsAccounted v := by
  intro i
  simp only [isAttributed_iff]
  refine ⟨h.exists_entry, ?_⟩
  rintro ⟨x, hx⟩
  by_cases ht : i ∈ target
  · exact h.mem_associated ht
  · have hold (hns : x ≠ s ∨ i ∉ l.associated v) : l.isAttributed v i x = true := by
      rw [isAttributed_iff, ← h.others v i x (.inr (hns.imp_right fun hn => ⟨ht, hn⟩))]
      exact hx
    have hi : i ∈ l.associated v := by
      by_contra hn
      exact hn ((hl i).mpr ⟨x, hold (.inr hn)⟩)
    have hxs : x ≠ s := by
      rintro rfl
      exact hx (h.cleared i hi ht)
    exact h.keeps hxs hi (hold (.inl hxs))

theorem hasRows {p : RangeReport} (h : Reconciled v p.source p.seenAt p.reported target l m) :
    p.HasRows m fun i => i ∈ m.associated v ∧ m.isAttributed v i p.source = true := by
  intro x hx
  obtain ⟨i, hi, r, hr, hk⟩ := h.covers x hx
  exact ⟨i, ⟨h.mem_associated hi, isAttributed_iff.mpr (h.renewed i hi).ne_nil⟩, r, hr, hk⟩

end RangeSync.Reconciled

/-- Of two reports that are carried out one after the other, neither takes anything from the
other. -/
theorem RangeReport.gives_inTurn {p q : RangeReport} {n : Ledger} {a b : RangeSync}
    (hl : l.WellKept)
    (hne : p.source ≠ q.source) (ha : Gives (p.transaction v) l a m)
    (hb : Gives (q.transaction v) m b n)
    (hacc : l.IsAccounted v) : p.IsAssociated v n ∧ q.IsAssociated v n ∧ n.IsAccounted v := by
  obtain ⟨target, hp⟩ := RangeSync.program_reconciled hl ha
  obtain ⟨target', hq⟩ := RangeSync.program_reconciled hp.wellKept hb
  refine ⟨?_, ?_, hq.isAccounted (hp.isAccounted hacc)⟩
  · exact hp.hasRows.mono hq.kept fun i hi => hq.keeps hne hi.1 hi.2
  · exact hq.hasRows.mono (fun _ _ hr => hr) fun i hi => hi.1

/-- Two reports of different sources on one advisory, with their requests in any order: once both
have ended well each source attributes what it reported, and what one of them reported is all
associated. If the transactions come one after the other, all that was reported is associated, and
the associated ranges are the attributed ones if they were so before. -/
theorem Hall.reports_sideBySide {p q : RangeReport} (hl : l.WellKept) (hne : p.source ≠ q.source)
    {schedule : List Nat} {a b : RangeSync}
    (hp : ((gathered l v [p, q]).run schedule).phase? 0 = some (.ended (.ok a)))
    (hq : ((gathered l v [p, q]).run schedule).phase? 1 = some (.ended (.ok b))) :
    p.IsAttributed v ((gathered l v [p, q]).run schedule).ledger ∧
      q.IsAttributed v ((gathered l v [p, q]).run schedule).ledger ∧
      (p.IsAssociated v ((gathered l v [p, q]).run schedule).ledger ∨
        q.IsAssociated v ((gathered l v [p, q]).run schedule).ledger) ∧
      ((gathered l v [p, q]).InTurn schedule → l.IsAccounted v →
        p.IsAssociated v ((gathered l v [p, q]).run schedule).ledger ∧
          q.IsAssociated v ((gathered l v [p, q]).run schedule).ledger ∧
          ((gathered l v [p, q]).run schedule).ledger.IsAccounted v) := by
  have hended : ∀ i < [p, q].length, ∃ sync,
      ((gathered l v [p, q]).run schedule).phase? i = some (.ended (.ok sync)) := by
    intro i hi
    match i, hi with
    | 0, _ => exact ⟨a, hp⟩
    | 1, _ => exact ⟨b, hq⟩
  have hrun := run_gathered hl (by simpa using hne) hended
  obtain ⟨hpa, hsome⟩ := hrun p (by simp)
  obtain ⟨hqa, -⟩ := hrun q (by simp)
  refine ⟨hpa, hqa, by simpa using hsome, fun hturn hacc => ?_⟩
  have hothers (k : Nat) (h₀ : k ≠ 0) (h₁ : k ≠ 1) : (gathered l v [p, q]).phase? k = none := by
    rw [phase?_gathered, List.getElem?_eq_none (by simp; omega)]
    rfl
  obtain ⟨m, ⟨hga, hgb⟩ | ⟨hgb, hga⟩⟩ :=
    run_inTurn (g := gathered l v [p, q]) rfl rfl rfl hothers hturn hp hq
  · exact RangeReport.gives_inTurn hl hne hga hgb hacc
  · obtain ⟨hqs, hps, hn⟩ := RangeReport.gives_inTurn hl hne.symm hgb hga hacc
    exact ⟨hps, hqs, hn⟩

namespace Hall

def blankAdvisory : Ledger := { advisories := [(1, { vulnId := "CVE-1", id := some 1 })], nextId := 2 }

theorem blankAdvisory_wellKept : blankAdvisory.WellKept := by
  have h : ({} : Ledger).perform (.insertAdvisory { vulnId := "CVE-1" }) =
      .ok ⟨{ vulnId := "CVE-1", id := some 1 }, blankAdvisory, [.eraseAdvisory 1]⟩ := rfl
  exact (perform_revocable wellKept_empty h).wellKept

theorem blankAdvisory_isAccounted (v : Int) : blankAdvisory.IsAccounted v := by
  intro i
  simp [blankAdvisory, Ledger.associated, isAttributed, Table.values]

def githubReport : RangeReport where
  advisory := { vulnId := "CVE-1", id := some 1 }
  reported := [{ cpe23 := .text "y" }]
  source := .github
  seenAt := .epoch

def nvdReport : RangeReport := { githubReport with reported := [{ cpe23 := .text "x" }], source := .nvd }

/-- GITHUB's report is carried out, and then NVD's. -/
def inTurn : Hall RangeSync :=
  (gathered blankAdvisory 1 [githubReport, nvdReport]).run
    (List.replicate 12 0 ++ List.replicate 13 1)

/-- GITHUB's report has read the associated ranges when NVD's comes in between, and sets them when
that is over. -/
def interrupted : Hall RangeSync :=
  (gathered blankAdvisory 1 [githubReport, nvdReport]).run
    ([0, 0, 0] ++ List.replicate 12 1 ++ List.replicate 9 0)

theorem interrupted_ended : (∃ a, interrupted.phase? 0 = some (.ended (.ok a))) ∧
    ∃ b, interrupted.phase? 1 = some (.ended (.ok b)) := ⟨⟨_, rfl⟩, _, rfl⟩

theorem inTurn_ended : (∃ a, inTurn.phase? 0 = some (.ended (.ok a))) ∧
    ∃ b, inTurn.phase? 1 = some (.ended (.ok b)) := ⟨⟨_, rfl⟩, _, rfl⟩

theorem reports_sideBySide_contested : githubReport.source ≠ nvdReport.source ∧
    (githubReport.IsAttributed 1 interrupted.ledger ∧ nvdReport.IsAttributed 1 interrupted.ledger) ∧
      githubReport.IsAssociated 1 inTurn.ledger ∧ nvdReport.IsAssociated 1 inTurn.ledger := by
  have hne : githubReport.source ≠ nvdReport.source := by decide
  obtain ⟨⟨a, ha⟩, b, hb⟩ := interrupted_ended
  obtain ⟨⟨c, hc⟩, d, hd⟩ := inTurn_ended
  obtain ⟨hg, hn, -⟩ := reports_sideBySide blankAdvisory_wellKept hne ha hb
  obtain ⟨-, -, -, hboth⟩ := reports_sideBySide blankAdvisory_wellKept hne hc hd
  obtain ⟨hgs, hns, -⟩ := hboth (by decide +kernel) (blankAdvisory_isAccounted 1)
  exact ⟨hne, ⟨hg, hn⟩, hgs, hns⟩

/-- What NVD reported is no longer associated, although NVD attributes it. -/
theorem reports_interrupted_lost : (∀ v, blankAdvisory.IsAccounted v) ∧
    githubReport.source ≠ nvdReport.source ∧
    (∃ a, interrupted.phase? 0 = some (.ended (.ok a))) ∧
      (∃ b, interrupted.phase? 1 = some (.ended (.ok b))) ∧
    ¬nvdReport.IsAssociated 1 interrupted.ledger ∧ ¬interrupted.ledger.IsAccounted 1 := by
  have hassociated : interrupted.ledger.associated 1 = [4] := rfl
  have hrow : interrupted.ledger.ranges.get? 4 = some { cpe23 := .text "y", id := some 4 } := rfl
  refine ⟨blankAdvisory_isAccounted, by decide, interrupted_ended.1, interrupted_ended.2,
    fun h => ?_, fun h => ?_⟩
  · obtain ⟨i, hi, r, hr, hk⟩ := h _ List.mem_cons_self
    obtain rfl := List.mem_singleton.mp (hassociated ▸ hi)
    obtain rfl := Option.some.inj (hrow.symm.trans hr)
    have hs := AffectedRange.same_of_identity? (a := { cpe23 := .text "y" }) (b := { cpe23 := .text "x" }) hk rfl
    exact absurd hs (by decide)
  · have hx := (h 2).mpr ⟨.nvd, rfl⟩
    cases List.mem_singleton.mp (hassociated ▸ hx)

end Hall

end AdvisoryLedger

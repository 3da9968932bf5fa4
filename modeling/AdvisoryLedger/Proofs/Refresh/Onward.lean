import AdvisoryLedger.Proofs.Feed.Paging
import AdvisoryLedger.Proofs.Refresh.Completeness
import AdvisoryLedger.Proofs.Text.Numeral
import AdvisoryLedger.Proofs.Time.Epoch

namespace AdvisoryLedger

namespace Watermark

/-- What is loaded is up to the property alone, whatever the store is made of. -/
theorem load_of_reply {σ : Type} [Store σ] {w : Watermark} {s : σ} {value : Json}
    (h : (Store.transact none (Call.ask (.getConfig w.group w.name)) s).result = .ok value) :
    (w.load s).result = (read w.name value).result := by
  have hasked : (Work.transact none (Call.ask (.getConfig w.group w.name)) s).result = .ok value :=
    h
  rw [load, Work.bind_of_ok hasked]
  rfl

/-- What is loaded from a ledger when no fault strikes. -/
def known (w : Watermark) (l : Ledger) : Except Failure Int := (w.load ({ ledger := l } : FaultyLedger)).result

theorem known_eq (w : Watermark) (l : Ledger) :
    w.known l = (read w.name (.ofText?
      ((l.config.get? (w.group, w.name)).getD none))).result := load_of_reply rfl

/-- A watermark that was written is read as it is, and one before 1970 as none. -/
theorem read_toString (name : String) {n : Int} (h : n < 10 ^ 13) :
    (read name (.text (toString n))).result = .ok (max n 0) := by
  have htext : (Json.text (toString n)).trimmedText = .ok (toString n) := by
    rw [Json.trimmedText_text, Text.trim_toString]
  refine Noted.result_bind_ok.mpr ⟨_, htext, ?_⟩
  rw [Text.isDigits_toString]
  rcases Int.lt_or_le n 0 with hneg | hpos
  · have hempty : (toString n).isEmpty = false := by simpa using Text.toString_ne_empty n
    rw [if_neg (by simpa using hneg), Int.max_eq_right (Int.le_of_lt hneg), hempty]
    rfl
  · obtain ⟨k, rfl⟩ := Int.eq_ofNat_of_zero_le hpos
    have hk : k < 10 ^ Text.maxNumeralDigits :=
      Nat.lt_of_lt_of_le (by omega)
        (Nat.pow_le_pow_right (by decide) (by decide : 13 ≤ Text.maxNumeralDigits))
    rw [if_pos (decide_eq_true hpos), Text.readInt?_toString hk, Int.max_eq_left hpos]
    rfl

end Watermark

theorem offset_lastModified? {item : Json} {m : Moment} (h : lastModified? item = some m) :
    m.offset = 0 := by
  obtain ⟨cve, -, h⟩ := Option.bind_eq_some_iff.mp h
  obtain ⟨v, -, hv⟩ := Option.bind_eq_some_iff.mp h
  cases v with
  | text s => exact FeedStamp.offset_read? hv
  | _ => cases hv

namespace Refresh

variable {r : Refresh} {site : Site FaultyLedger} {v : Int}

/-- What a run makes of the watermark does not depend on what it was, unless it leaves it. -/
theorem run_known (hv : r.watermark.known site.store.ledger = .ok v) :
    ∃ s, (r.run site).result = .ok s ∧
    (s.isAdvanced = false ∧ r.watermark.known (r.run site).state.store.ledger = .ok v ∨
      s.isAdvanced = true ∧ ∃ m, Moment.IsLatest (r.stamps site) (some m) ∧
        r.watermark.known (r.run site).state.store.ledger = .ok (max m.wholeEpochSeconds 0)) := by
  obtain ⟨s, hs⟩ := r.run_movesWatermark site
  refine ⟨s, hs.summary, ?_⟩
  cases ha : s.isAdvanced with
  | false =>
    refine .inl ⟨rfl, ?_⟩
    have hconfig : (r.run site).state.store.ledger.config = site.store.ledger.config := hs.stays ha
    rw [Watermark.known_eq, hconfig, ← Watermark.known_eq, hv]
  | true =>
    obtain ⟨m, hm, hlatest, hproperties⟩ := hs.latest ha
    refine .inr ⟨rfl, m, ⟨hm, hlatest⟩, ?_⟩
    obtain ⟨item, -, hitem⟩ := List.mem_filterMap.mp hm
    have hconfig : (r.run site).state.store.ledger.config = site.store.ledger.config.put
        (r.watermark.group, r.watermark.name) (some (toString m.wholeEpochSeconds)) := hproperties
    rw [Watermark.known_eq, hconfig, Table.get?_put, if_pos rfl]
    have hoffset : m.offset.natAbs < 86400 := by
      rw [offset_lastModified? hitem]
      decide
    exact Watermark.read_toString _ (Moment.wholeEpochSeconds_lt hoffset)

end Refresh

/-- A run, and the circumstances in which it takes place. -/
structure Outing where
  refresh : Refresh
  site : Site FaultyLedger

namespace Outing

def siteOn (o : Outing) (l : Ledger) : Site FaultyLedger :=
  { o.site with store := { o.site.store with ledger := l } }

def after (o : Outing) (l : Ledger) : Ledger := (o.refresh.run (o.siteOn l)).state.store.ledger

/-- If the run moves the watermark, the latest modification that the feed tells of is not before
what was known. -/
def IsOnward (w : Watermark) (l : Ledger) (o : Outing) : Prop := ∀ v s m, w.known l = .ok v →
  (o.refresh.run (o.siteOn l)).result = .ok s → s.isAdvanced = true →
    Moment.IsLatest (o.refresh.stamps (o.siteOn l)) (some m) → v ≤ max m.wholeEpochSeconds 0

end Outing

namespace Watermark

/-- What is known before a sequence of runs and after each of them. -/
def course (w : Watermark) (l : Ledger) : List Outing → List (Except Failure Int)
  | [] => [w.known l]
  | o :: rest => w.known l :: w.course (o.after l) rest

/-- Every run of a sequence goes onward from what is known when it begins. -/
def AllOnward (w : Watermark) : Ledger → List Outing → Prop
  | _, [] => True
  | l, o :: rest => o.IsOnward w l ∧ w.AllOnward (o.after l) rest

variable {w : Watermark} {l : Ledger} {v : Int}

/-- After one run something is known again, not less than before just in case the run goes
onward. -/
theorem known_after {o : Outing} (hw : o.refresh.watermark = w) (hv : w.known l = .ok v) :
    ∃ u, w.known (o.after l) = .ok u ∧ (v ≤ u ↔ o.IsOnward w l) := by
  subst hw
  have hrun : o.refresh.watermark.known (o.siteOn l).store.ledger = .ok v := hv
  obtain ⟨s, hs, ⟨ha, hknown⟩ | ⟨ha, m, hm, hknown⟩⟩ := Refresh.run_known hrun
  · refine ⟨v, hknown, iff_of_true (Int.le_refl _) ?_⟩
    intro v' s' m _ hs' ha' _
    obtain rfl := Except.ok.inj (hs.symm.trans hs')
    rw [ha] at ha'
    cases ha'
  · refine ⟨_, hknown, ?_, fun h => h v s m hv hs ha hm⟩
    intro hle v' s' m' hv' _ _ hm'
    obtain rfl := Except.ok.inj (hv.symm.trans hv')
    -- there may be two latest modifications, at one instant
    rwa [Moment.wholeEpochSeconds_congr (Int.le_antisymm (hm.2 m' hm'.1) (hm'.2 m hm.1))]

/-- Through runs with one watermark it is always known, and never goes back just in case every run
goes onward. -/
theorem course_ascends_iff {outings : List Outing} (hw : ∀ o ∈ outings, o.refresh.watermark = w)
    (hv : w.known l = .ok v) : ∃ later : List Int, w.course l outings = (v :: later).map .ok ∧
      ((v :: later).Pairwise (· ≤ ·) ↔ w.AllOnward l outings) := by
  induction outings generalizing l v with
  | nil => exact ⟨[], by rw [course, hv]; rfl, by simp [AllOnward]⟩
  | cons o rest ih =>
    obtain ⟨ho, hrest⟩ := List.forall_mem_cons.mp hw
    obtain ⟨u, hu, honward⟩ := known_after ho hv
    obtain ⟨later, hcourse, hascends⟩ := ih hrest hu
    refine ⟨u :: later, by rw [course, hv, hcourse]; rfl, ?_⟩
    rw [AllOnward, ← honward, ← hascends, List.pairwise_cons]
    refine and_congr_left fun hp => ⟨fun h => h u List.mem_cons_self, fun hle => ?_⟩
    refine List.forall_mem_cons.mpr ⟨hle, ?_⟩
    exact fun x hx => Int.le_trans hle ((List.pairwise_cons.mp hp).1 x hx)

def outing (record : Json) : Outing := ⟨{}, .ofAnswers [.ofPage 1 [record]]⟩

theorem course_ascends_iff_outing : (∀ o ∈ [outing datedRecord], o.refresh.watermark = {}) ∧
    known {} {} = .ok 0 ∧ ∃ later :
      List Int, course {} {} [outing datedRecord] = (0 :: later).map .ok ∧
      ((0 :: later).Pairwise (· ≤ ·) ↔ AllOnward {} {} [outing datedRecord]) := by
  have hw : ∀ o ∈ [outing datedRecord], o.refresh.watermark = {} := by simp [outing]
  have hv : known {} {} = .ok 0 := rfl
  exact ⟨hw, hv, course_ascends_iff hw hv⟩

/-- The record is older than the one that the feed told of before. -/
def earlierRecord : Json :=
  .object [("cve", .object [("id", .text "CVE-2"),
    ("lastModified", .text "2023-01-02T00:00:00.000")])]

theorem course_goesBack : ∃ first second : Int, second < first ∧
    (course {} {} [outing datedRecord, outing earlierRecord]).map Except.toOption =
      [some 0, some first, some second] :=
  ⟨1704153600, 1672617600, by decide, by decide +kernel⟩

end Watermark

end AdvisoryLedger

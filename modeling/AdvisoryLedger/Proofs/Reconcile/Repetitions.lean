import AdvisoryLedger.Proofs.Feed.Matches
import AdvisoryLedger.Proofs.Reconcile.Classification

namespace AdvisoryLedger

namespace Json

def isPlain (v : Json) : Bool := v.isTextOrNull || v.isFlag

theorem same_iff_eq {a b : Json} (ha : a.isPlain = true) (hb : b.isPlain = true) :
    a.same b = true ↔ a = b := by
  have hflag (x y : Bool) : (flag x).same (flag y) = true ↔
    x = y := by cases x <;> cases y <;> decide
  cases a with
  | null => cases b <;> simp_all [isPlain, isTextOrNull, isFlag, same]
  | text s => cases b <;> simp_all [isPlain, isTextOrNull, isFlag, same]
  | flag x =>
    cases b with
    | flag y => rw [hflag, flag.injEq]
    | _ => simp_all [isPlain, isTextOrNull, isFlag, same, sameNumber]
  | _ => cases ha

theorem sameItems_iff_eq {as bs : List Json} (ha : ∀ a ∈ as, a.isPlain = true)
    (hb : ∀ b ∈ bs, b.isPlain = true) :
    sameItems as bs = true ↔ as = bs := by
  induction as generalizing bs with
  | nil => cases bs <;> simp [sameItems]
  | cons a as ih =>
    cases bs with
    | nil => simp [sameItems]
    | cons b bs =>
      obtain ⟨ha, has⟩ := List.forall_mem_cons.mp ha
      obtain ⟨hb, hbs⟩ := List.forall_mem_cons.mp hb
      have hn : a.isNan = false := by cases a <;> simp_all [isPlain, isTextOrNull, isFlag, isNan]
      simp only [sameItems, hn, Bool.false_and, Bool.false_or, Bool.and_eq_true, same_iff_eq ha hb,
        ih has hbs, List.cons.injEq]

end Json

namespace AffectedRange

theorem isPlain_of_isWellTyped {r : AffectedRange} (h : r.isWellTyped = true) :
    ∀ v ∈ r.key, v.isPlain = true := by
  simp only [isWellTyped, Bool.and_eq_true, List.all_eq_true] at h
  have hk : r.key = r.key.dropLast ++ [r.vulnerable] := rfl
  intro v hv
  rw [hk] at hv
  rcases List.mem_append.mp hv with hv | hv
  · simp [Json.isPlain, h.1 v hv]
  · simp [Json.isPlain, List.mem_singleton.mp hv, h.2]

theorem same_iff_key_eq {a b : AffectedRange} (ha : a.isWellTyped = true)
    (hb : b.isWellTyped = true) :
    a.same b = true ↔ a.key = b.key :=
  Json.sameItems_iff_eq (isPlain_of_isWellTyped ha) (isPlain_of_isWellTyped hb)

end AffectedRange

namespace Record

/-- Adding ranges once each keeps the first of those that are the same. -/
theorem foldl_addOnce (rs : List AffectedRange) :
    rs.foldl addOnce [] = rs.eraseDupsBy AffectedRange.same := foldl_firsts AffectedRange.same rs

end Record

namespace RangeSync

open Record

/-- What is reported is collapsed to the first of those that are the same. -/
theorem collapse_eq {reported : List AffectedRange} (h : ∀ r ∈ reported, r.isHashable = true) :
    collapse [] reported = .ok (reported.eraseDupsBy AffectedRange.same) := by
  have hfold (pending : List AffectedRange) :
      collapse pending reported = .ok (reported.foldl addOnce pending) := by
    induction reported generalizing pending with
    | nil => rfl
    | cons r rest ih =>
      obtain ⟨hr, hrest⟩ := List.forall_mem_cons.mp h
      rw [collapse_cons, if_pos hr, ih hrest, List.foldl_cons, addOnce]
  rw [hfold, foldl_addOnce]

theorem apart_eraseDupsBy {reported : List AffectedRange}
    (h : ∀ r ∈ reported, r.isHashable = true) :
    Apart (reported.eraseDupsBy AffectedRange.same) :=
  (collapse_collapsed (collapse_eq h) .nil).apart

theorem collapse_of_apart {pending reported : List AffectedRange}
    (h : Apart (pending ++ reported)) :
    collapse pending reported = .ok (pending ++ reported) := by
  induction reported generalizing pending with
  | nil =>
    rw [List.append_nil]
    rfl
  | cons r rest ih =>
    have hnew : pending.any r.same = false := by
      refine List.any_eq_false.mpr fun x hx => Bool.eq_false_iff.mp ?_
      rw [AffectedRange.same_comm (h.hashable r (by simp))]
      exact (List.pairwise_append.mp h.pairwise).2.2 x hx r List.mem_cons_self
    have hsplit : pending ++ r :: rest = pending ++ [r] ++ rest := by simp
    rw [collapse_cons, if_pos (h.hashable r (by simp)), hnew, hsplit]
    exact ih (hsplit ▸ h)

/-- A reconciliation cannot tell whether repetitions have been left out of what is reported. -/
theorem program_eraseDupsBy {reported : List AffectedRange}
    (h : ∀ r ∈ reported, r.isHashable = true)
    (vulnId : String) (advisoryId : Int) (source : Source) (seenAt : Moment) :
    program vulnId advisoryId (reported.eraseDupsBy AffectedRange.same) source seenAt =
      program vulnId advisoryId reported source seenAt := by
  have hcollapse : collapse [] (reported.eraseDupsBy AffectedRange.same) =
      collapse [] reported := by
    rw [collapse_eq h, collapse_of_apart (apart_eraseDupsBy h), List.nil_append]
  unfold program
  rw [hcollapse]

end RangeSync

theorem Advisory.reconcileRanges_eraseDupsBy {σ : Type} [Store σ] {reported : List AffectedRange}
    (h : ∀ r ∈ reported, r.isHashable = true) (a : Advisory) (source : Source)
    (seenAt : Moment) (s : σ) :
    a.reconcileRanges (reported.eraseDupsBy AffectedRange.same) source seenAt s =
      a.reconcileRanges reported source seenAt s := by
  unfold Advisory.reconcileRanges
  simp only [RangeSync.program_eraseDupsBy h]

namespace Record

/-- Criteria are a text or missing, and bounds are texts or null. -/
def isRegular (m : Json) : Bool :=
  m.isObject &&
  (match m.member? "criteria" with
    | none => true
    | some (.text _) => true
    | some _ => false) &&
  (boundsOf m).all Json.isTextOrNull

def namesPlatform (m : Json) : Bool :=
  match m.member? "criteria" with
  | some (.text s) => (Cpe.read? s).isSome
  | _ => false

def refusalCause (m : Json) : Failure :=
  match m.member? "criteria" with
  | some (.text s) => .notCpe s
  | _ => .missingKey "criteria"

theorem isObject_of_isRegular {m : Json} (h : isRegular m = true) : m.isObject = true := by
  simp only [isRegular, Bool.and_eq_true] at h
  exact h.1.1

theorem not_isMisbounded_of_isRegular {m : Json} (h : isRegular m = true) :
    isMisbounded m = false := by
  simp only [isRegular, Bool.and_eq_true, List.all_eq_true] at h
  refine List.any_eq_false.mpr fun v hv => ?_
  have hbound := h.2 v hv
  cases v <;> simp_all [Json.isTextOrNull, Json.isHashable]

theorem isWellTyped_rangeOf {m : Json} (h : isRegular m = true) (s : String) (c : Cpe) :
    (rangeOf m s c).isWellTyped = true := by
  simp only [isRegular, Bool.and_eq_true, boundsOf, List.all_cons] at h
  have htext? (v : Option String) : (Json.ofText? v).isTextOrNull = true := by cases v <;> rfl
  have htext : (Json.text s).isTextOrNull = true := rfl
  have hflag : (Json.flag (isVulnerable m)).isFlag = true := rfl
  simp [AffectedRange.isWellTyped, AffectedRange.key, rangeOf, htext?, htext, hflag, h.2]

/-- What the walk makes of a regular match: one that counts is read, or refused for its criteria. -/
theorem finding_of_isRegular {m : Json} (h : isRegular m = true) :
    (isVulnerable m = false ∧ finding m = .passedOver) ∨
    (isVulnerable m = true ∧ namesPlatform m = false ∧ finding m = .refused (refusalCause m)) ∨
    (isVulnerable m = true ∧ namesPlatform m = true ∧
      ∃ r, finding m = .taken r ∧ ofMatch m = .ok r ∧ r.isWellTyped = true ∧
        r.vulnerable = .flag true) := by
  have hcriteria := h
  simp only [isRegular, Bool.and_eq_true] at hcriteria
  cases hv : isVulnerable m with
  | false => exact .inl ⟨rfl, by simp [finding, hv]⟩
  | true =>
    rw [ofMatch_eq (isObject_of_isRegular h)]
    simp only [finding, hv, if_true, namesPlatform, refusalCause, not_isMisbounded_of_isRegular h]
    cases hm : m.member? "criteria" with
    | none => simp
    | some v =>
      cases v with
      | text s =>
        cases hc : Cpe.read? s with
        | none => simp [hc]
        | some c =>
          have hflag : (rangeOf m s c).vulnerable = .flag true := by rw [rangeOf, hv]
          simp [hc, isWellTyped_rangeOf h, hflag]
      | _ => simp [hm] at hcriteria

section Regular

variable {ms : List Json} (h : ∀ m ∈ ms, isRegular m = true)

include h

theorem map_ok_filterMap_range? : (ms.filterMap range?).map Except.ok =
    (ms.filter fun m => isVulnerable m && namesPlatform m).map ofMatch := by
  rw [List.map_filterMap, ← List.filterMap_eq_map, List.filterMap_filter]
  refine List.filterMap_congr fun m hm => ?_
  obtain ⟨hv, hf⟩ | ⟨hv, hn, hf⟩ | ⟨hv, hn, r, hf, hr, -⟩ := finding_of_isRegular (h m hm)
  · simp [range?, hf, hv]
  · simp [range?, hf, hv, hn]
  · simp [range?, hf, hv, hn, hr]

theorem filterMap_warning? (vulnId : String) : ms.filterMap (warning? vulnId) =
    (ms.filter fun m => isVulnerable m && !namesPlatform m).map fun m =>
      refusal vulnId m (refusalCause m) := by
  rw [← List.filterMap_eq_map, List.filterMap_filter]
  refine List.filterMap_congr fun m hm => ?_
  obtain ⟨hv, hf⟩ | ⟨hv, hn, hf⟩ | ⟨hv, hn, r, hf, -⟩ := finding_of_isRegular (h m hm)
  · simp [warning?, hf, hv]
  · simp [warning?, hf, hv, hn]
  · simp [warning?, hf, hv, hn]

theorem not_isSpoiling_of_isRegular : ∀ m ∈ ms, isSpoiling m = false := by
  intro m hm
  obtain ⟨-, hf⟩ | ⟨-, -, hf⟩ | ⟨-, -, r, hf, -⟩ :=
    finding_of_isRegular (h m hm) <;> simp [isSpoiling, hf]

/-- Ranges of regular matches are well-typed, and about vulnerable platforms. -/
theorem forall_mem_filterMap_range? :
    ∀ r ∈ ms.filterMap range?, r.isWellTyped = true ∧ r.isHashable = true ∧
      r.vulnerable = .flag true := by
  intro r hr
  obtain ⟨m, hm, hr⟩ := List.mem_filterMap.mp hr
  have hhash := (taken_of_range? (isObject_of_isRegular (h m hm)) hr).2.2
  obtain ⟨-, hf⟩ | ⟨-, -, hf⟩ | ⟨-, -, r', hf, -, htyped, hflag⟩ := finding_of_isRegular (h m hm)
  · simp [range?, hf] at hr
  · simp [range?, hf] at hr
  · simp only [range?, hf, Option.some.injEq] at hr
    subst hr
    exact ⟨htyped, hhash, hflag⟩

end Regular

/-- A walk through regular matches finds the ranges of those that count, each where it occurs
first. -/
theorem ranges_eq_firsts {configurations : Json} (h : isLaidOut isRegular configurations = true)
    (vulnId : String) :
    ∃ all, ((matchesOf configurations).filter fun m =>
      isVulnerable m && namesPlatform m).map ofMatch =
        all.map .ok ∧
      (ranges vulnId configurations).result = .ok (all.eraseDupsBy AffectedRange.same) ∧
      (∀ a ∈ all, ∀ b ∈ all, a.same b = true ↔ a.key = b.key) ∧
      ((all.eraseDupsBy AffectedRange.same).map AffectedRange.key).Nodup ∧
      (∀ r ∈ all.eraseDupsBy AffectedRange.same, r.vulnerable = .flag true) ∧
      (ranges vulnId configurations).entries =
        ((matchesOf configurations).filter fun m => isVulnerable m && !namesPlatform m).map
          (fun m => refusal vulnId m (refusalCause m)) ∧
      ∀ {σ : Type} [Store σ] (a : Advisory) (source : Source) (seenAt : Moment) (s : σ),
        a.reconcileRanges (all.eraseDupsBy AffectedRange.same) source seenAt s =
          a.reconcileRanges all source seenAt s := by
  have hregular := forall_mem_matchesOf h
  have hranges := forall_mem_filterMap_range? hregular
  have hwalk : ranges vulnId configurations =
      ⟨.ok (((matchesOf configurations).filterMap range?).eraseDupsBy AffectedRange.same),
        (matchesOf configurations).filterMap (warning? vulnId)⟩ := by
    rw [ranges_eq (fun _ => isObject_of_isRegular) h,
      rangesOfMatches_eq (fun m hm => isObject_of_isRegular (hregular m hm))
        (not_isSpoiling_of_isRegular hregular),
      foldl_addOnce]
  generalize hall : (matchesOf configurations).filterMap range? = all at hranges hwalk
  have hkeys : ∀ a ∈ all, ∀ b ∈ all, a.same b = true ↔ a.key = b.key := fun a ha b hb =>
    AffectedRange.same_iff_key_eq (hranges a ha).1 (hranges b hb).1
  have hhash : ∀ r ∈ all, r.isHashable = true := fun r hr => (hranges r hr).2.1
  have hfirst : ∀ r ∈ all.eraseDupsBy AffectedRange.same, r ∈ all := fun r hr =>
    ((RangeSync.collapse_collapsed
      (RangeSync.collapse_eq hhash) .nil).origin r hr).resolve_left List.not_mem_nil
  refine ⟨all, ?_, by rw [hwalk], hkeys, ?_, fun r hr => (hranges r (hfirst r hr)).2.2, ?_, ?_⟩
  · rw [← hall, map_ok_filterMap_range? hregular]
  · rw [List.Nodup, List.pairwise_map]
    refine (RangeSync.apart_eraseDupsBy hhash).pairwise.imp_of_mem fun ha hb hs heq => ?_
    rw [(hkeys _ (hfirst _ ha) _ (hfirst _ hb)).mpr heq] at hs
    cases hs
  · rw [hwalk, filterMap_warning? hregular]
  · intro σ _ a source seenAt s
    exact a.reconcileRanges_eraseDupsBy hhash source seenAt s

def harmlessMatch : Json :=
  .object [("vulnerable", .flag false), ("criteria", .text "cpe:2.3:a:acme:gadget:*:*:*:*:*:*:*:*")]

def widgetRange : AffectedRange :=
  rangeOf widgetMatch "cpe:2.3:a:acme:widget:*:*:*:*:*:*:*:*"
    ⟨"a", "acme", "widget", "*", "*", "*", "*", "*", "*", "*", "*"⟩

/-- A match that is there twice, beside one that is refused and one that does not count. -/
theorem ranges_eq_firsts_widgetTwice :
    isLaidOut isRegular (configurationOf [widgetMatch, namelessMatch, widgetMatch, harmlessMatch]) =
      true ∧
    (ranges "CVE-1" (configurationOf [widgetMatch, namelessMatch, widgetMatch,
      harmlessMatch])).result =
      .ok [widgetRange] ∧
    (ranges "CVE-1" (configurationOf [widgetMatch, namelessMatch, widgetMatch,
      harmlessMatch])).entries = [refusal "CVE-1" namelessMatch (.missingKey "criteria")] := by
  have h : isLaidOut isRegular
      (configurationOf [widgetMatch, namelessMatch, widgetMatch, harmlessMatch]) = true := by
    decide +kernel
  obtain ⟨all, hall, hfound, -, -, -, hlog, -⟩ := ranges_eq_firsts h "CVE-1"
  have htwice : [widgetRange, widgetRange].map Except.ok = all.map Except.ok := hall
  obtain rfl := List.map_injective_iff.mpr (fun _ _ => Except.ok.inj) htwice
  have honce : [widgetRange, widgetRange].eraseDupsBy AffectedRange.same = [widgetRange] := by rfl
  rw [honce] at hfound
  exact ⟨h, hfound, hlog⟩

end Record

end AdvisoryLedger

import AdvisoryLedger.Diff.Member
import AdvisoryLedger.Proofs.Diff.Basic
import AdvisoryLedger.Proofs.Json.Proper

namespace AdvisoryLedger

open Attribute

/-- A member as it is listed for a differ: with the members that writing it sets to null. -/
structure MemberSpec where
  name : String
  policy : OverwritePolicy := .always
  resets : List String := []

namespace MemberSpec

variable {s : MemberSpec} {specs : List MemberSpec} {record existing reported : Members}
    {name : String}
  {v before after : Json}

def toAttribute (s : MemberSpec) : Attribute Members := ofMember s.name s.policy s.resets

theorem map_name_toAttribute (specs : List MemberSpec) :
    (specs.map toAttribute).map (·.name) = specs.map (·.name) := by
  rw [List.map_map]
  rfl

theorem read_toAttribute (h : record.get? s.name = some v) :
    s.toAttribute.read record = .ok (.json v) := by
  simp only [toAttribute, ofMember, readMember, h]

theorem value_toAttribute (h : record.get? s.name = some v) :
    s.toAttribute.value record = .json v := by
  rw [value, read_toAttribute h]

theorem isReadableAt_toAttribute_iff : s.toAttribute.IsReadableAt record ↔
    (record.get? s.name).isSome := by
  cases h : record.get? s.name with
  | none => simp [IsReadableAt, toAttribute, ofMember, readMember, h]
  | some v => simp [IsReadableAt, read_toAttribute h, value_toAttribute h]

def written (s : MemberSpec) (record : Members) (v : Json) : Members :=
  s.resets.foldl (fun r n => r.put n .null) (record.put s.name v)

theorem write_toAttribute : s.toAttribute.write record (.json v) = .ok (s.written record v) := rfl

theorem get?_written : (s.written record v).get? name =
    if name ∈ s.resets then some .null else if s.name = name then some v else record.get? name := by
  have hresets (names : List String) (r : Members) :
    (names.foldl (fun r n => r.put n .null) r).get? name =
      if name ∈ names then some .null else r.get? name := by
    induction names generalizing r with
    | nil => simp
    | cons n rest ih =>
      rw [List.foldl_cons, ih, Table.get?_put]
      by_cases hn : name = n
      · simp [hn]
      · simp [hn, Ne.symm hn]
  rw [written, hresets, Table.get?_put]

/-- A reported value that is the same as the one that is there, or absent where that does not count,
stays out. -/
def Skips (s : MemberSpec) (before after : Json) : Prop :=
  (s.policy = .ifPresent ∧ (Cell.json after).isNull = true) ∨ before.same after = true

instance (s : MemberSpec) (before after : Json) : Decidable (s.Skips before after) :=
  inferInstanceAs (Decidable (_ ∨ _))

/-- The record after the member was taken over from what is reported. -/
def taken (s : MemberSpec) (reported existing : Members) : Members :=
  match existing.get? s.name, reported.get? s.name with
  | some before, some after => if s.Skips before after then existing else s.written existing after
  | _, _ => existing

theorem taken_eq (hb : existing.get? s.name = some before)
    (ha : reported.get? s.name = some after) :
    s.taken reported existing = if s.Skips before after then existing
      else s.written existing after := by
  simp only [taken, hb, ha]

theorem get?_taken_of_notMem (hne : name ≠ s.name) (hn : name ∉ s.resets) :
    (s.taken reported existing).get? name = existing.get? name := by
  unfold taken
  split
  · split
    · rfl
    · rw [get?_written, if_neg hn, if_neg (Ne.symm hne)]
  · rfl

theorem isSome_get?_taken (h : (existing.get? name).isSome) :
    ((s.taken reported existing).get? name).isSome := by
  unfold taken
  split
  · split
    · exact h
    · rw [get?_written]
      split
      · rfl
      · split
        · rfl
        · exact h
  · exact h

/-- The record after members were taken over one after the other. -/
def takenAll (specs : List MemberSpec) (reported existing : Members) : Members :=
  specs.foldl (fun record s => s.taken reported record) existing

theorem isSome_get?_takenAll (specs : List MemberSpec) (h : (existing.get? name).isSome) :
    ((takenAll specs reported existing).get? name).isSome := by
  induction specs generalizing existing with
  | nil => exact h
  | cons s rest ih => exact ih (isSome_get?_taken h)

theorem get?_takenAll_of_notMem (hm : name ∉ specs.map (·.name))
    (hn : ∀ s ∈ specs, name ∉ s.resets) :
    (takenAll specs reported existing).get? name = existing.get? name := by
  induction specs generalizing existing with
  | nil => rfl
  | cons s rest ih =>
    obtain ⟨hne, hm⟩ := not_or.mp (mt List.mem_cons.mpr hm)
    obtain ⟨hs, hrest⟩ := List.forall_mem_cons.mp hn
    exact (ih hm hrest).trans (get?_taken_of_notMem hne hs)

/-- All that a member sets to null comes up again later, and is written whatever is reported. -/
def Restores : List MemberSpec → Prop
  | [] => True
  | s :: rest => (∀ name ∈ s.resets, ∃ q ∈ rest, q.name = name ∧ q.policy = .always) ∧ Restores rest

theorem Restores.mem_names (h : Restores specs) (hs : s ∈ specs) {name : String}
    (hn : name ∈ s.resets) :
    name ∈ specs.map (·.name) := by
  induction specs with
  | nil => cases hs
  | cons q rest ih =>
    rcases List.mem_cons.mp hs with rfl | hs
    · obtain ⟨q, hq, rfl, -⟩ := h.1 name hn
      exact List.mem_cons_of_mem _ (List.mem_map_of_mem hq)
    · exact List.mem_cons_of_mem _ (ih h.2 hs)

/-- A member that is reported is taken over, and one that is not stays, whatever was set to null on
the way. -/
theorem get?_takenAll (hn : (specs.map (·.name)).Nodup) (h : Restores specs) (hs : s ∈ specs)
    (hb : existing.get? s.name = some before) (ha : reported.get? s.name = some after)
    (hproper : after.same after = true) :
    ∃ v, (takenAll specs reported existing).get? s.name = some v ∧
      (s.policy = .ifPresent ∧ (Cell.json after).isNull = true → v = before) ∧
      (¬(s.policy = .ifPresent ∧ (Cell.json after).isNull = true) → v.same after = true) := by
  induction specs generalizing existing before with
  | nil => cases hs
  | cons q rest ih =>
    obtain ⟨hq, hnodup⟩ := List.nodup_cons.mp hn
    obtain ⟨hresets, hrest⟩ := h
    rcases List.mem_cons.mp hs with rfl | hs
    · have hown : s.name ∉ s.resets := by
        intro hm
        obtain ⟨q, hmem, hname, -⟩ := hresets s.name hm
        exact hq (List.mem_map.mpr ⟨q, hmem, hname⟩)
      have hlater : (takenAll rest reported (s.taken reported existing)).get? s.name = _ :=
        get?_takenAll_of_notMem hq fun q hmem hm => hq (hrest.mem_names hmem hm)
      rw [taken_eq hb ha] at hlater
      rw [takenAll, List.foldl_cons, ← takenAll, taken_eq hb ha]
      by_cases hskips : s.Skips before after
      · rw [if_pos hskips] at hlater ⊢
        exact ⟨before, hlater.trans hb, fun _ => rfl, fun hne => hskips.resolve_left hne⟩
      · rw [if_neg hskips] at hlater ⊢
        refine ⟨after, hlater.trans ?_, fun he => absurd (.inl he) hskips, fun _ => hproper⟩
        rw [get?_written, if_neg hown, if_pos rfl]
    · have hsome : ((q.taken reported existing).get? s.name).isSome := isSome_get?_taken (by rw [hb]; rfl)
      obtain ⟨between, hbetween⟩ := Option.isSome_iff_exists.mp hsome
      obtain ⟨v, hv, hkept, hgiven⟩ := ih hnodup hrest hs hbetween
      refine ⟨v, hv, fun he => (hkept he).trans ?_, hgiven⟩
      have hne : s.name ≠ q.name := fun he => hq (List.mem_map.mpr ⟨s, hs, he⟩)
      -- a member that may stay out is not one that was set to null
      have hnotReset : s.name ∉ q.resets := by
        intro hm
        obtain ⟨p, hp, hname, halways⟩ := hresets s.name hm
        obtain rfl := List.inj_on_of_nodup_map hnodup hp hs hname
        exact absurd (halways.symm.trans he.1) (by decide)
      exact Option.some.inj (hbetween.symm.trans ((get?_taken_of_notMem hne hnotReset).trans hb))

end MemberSpec

namespace Differ

open MemberSpec

variable {d : Differ Members} {s : MemberSpec} {specs : List MemberSpec} {before after : Json}

theorem apply_member (hb : d.existing.get? s.name = some before)
    (ha : d.reported.get? s.name = some after) :
    d.apply s.toAttribute = if s.Skips before after then (.ok false, d)
      else (.ok true, { d with
        existing := s.written d.existing after
        changes := d.changes.put s.name ⟨.json before, .json after⟩ }) := by
  split
  · next h => exact apply_of_same (read_toAttribute hb) (read_toAttribute ha) h
  · next h => exact apply_of_write (read_toAttribute hb) (read_toAttribute ha) h write_toAttribute

theorem applyEach_members (hb : ∀ s ∈ specs, (d.existing.get? s.name).isSome)
    (ha : ∀ s ∈ specs, (d.reported.get? s.name).isSome) :
    ∃ changes, d.applyEach (specs.map toAttribute) =
      (.ok (), ⟨takenAll specs d.reported d.existing, d.reported, changes⟩) := by
  induction specs generalizing d with
  | nil => exact ⟨d.changes, rfl⟩
  | cons s rest ih =>
    obtain ⟨hbs, hbrest⟩ := List.forall_mem_cons.mp hb
    obtain ⟨has, harest⟩ := List.forall_mem_cons.mp ha
    obtain ⟨before, hbefore⟩ := Option.isSome_iff_exists.mp hbs
    obtain ⟨after, hafter⟩ := Option.isSome_iff_exists.mp has
    have happly := apply_member hbefore hafter
    have htaken := taken_eq hbefore hafter
    simp only [List.map_cons, applyEach, takenAll, List.foldl_cons]
    by_cases hskips : s.Skips before after
    · rw [if_pos hskips] at happly htaken
      rw [happly, htaken]
      exact ih hbrest harest
    · rw [if_neg hskips] at happly htaken
      rw [happly, htaken]
      refine ih (fun q hq => ?_) harest
      rw [← htaken]
      exact isSome_get?_taken (hbrest q hq)

theorem completes_members (hb : ∀ s ∈ specs, (d.existing.get? s.name).isSome)
    (ha : ∀ s ∈ specs, (d.reported.get? s.name).isSome) : ∃ changes,
      d.Completes (specs.map toAttribute) ⟨takenAll specs d.reported d.existing, d.reported,
        changes⟩ := by
  obtain ⟨changes, h⟩ := applyEach_members hb ha
  refine ⟨changes, ?_, h, ?_⟩
  · simp only [List.forall_mem_map]
    exact fun s hs => isReadableAt_toAttribute_iff.mpr (hb s hs)
  · simp only [List.forall_mem_map]
    exact fun s hs => isReadableAt_toAttribute_iff.mpr (isSome_get?_takenAll specs (hb s hs))

/-- The differ after listed members were taken over from what is reported: the record, and what is
said of it. -/
structure BringsAlong (specs : List MemberSpec) (existing reported : Members)
    (d : Differ Members) : Prop where
  /-- A change is recorded of just the members, of all that the record has, that are not what they
  were. -/
  changes : ∀ name change, d.changes.get? name = some change ↔
    ∃ before after, existing.get? name = some before ∧
    d.existing.get? name = some after ∧ before.same after = false ∧
      change = ⟨.json before, .json after⟩
  always : Restores specs → ∀ s ∈ specs, s.policy = .always →
    ∃ v w, d.existing.get? s.name = some v ∧
    reported.get? s.name = some w ∧ v.same w = true
  given : Restores specs → ∀ s ∈ specs, s.policy = .ifPresent →
    ∀ w, reported.get? s.name = some w → w ≠ .null →
    ∃ v, d.existing.get? s.name = some v ∧ v.same w = true
  kept : Restores specs → ∀ s ∈ specs, s.policy = .ifPresent → reported.get? s.name = some .null →
    d.existing.get? s.name = existing.get? s.name
  nodup : d.changes.keys.Nodup
  reported : d.reported = reported

theorem same_self_of_get? {record : Members} {name : String} {v : Json}
    (h : (Json.object record).isProper = true)
    (hv : record.get? name = some v) : v.same v = true := by
  simp only [Json.isProper, Bool.and_eq_true] at h
  exact Json.same_self_of_mem record h.2 _ (Table.mem_of_get? hv)

section ApplyAll

variable {existing reported : Members} (hb : ∀ s ∈ specs, (existing.get? s.name).isSome)
  (ha : ∀ s ∈ specs, (reported.get? s.name).isSome)

include hb ha

theorem existing_applyAll_members :
    (applyAll ⟨existing, reported, []⟩ (specs.map toAttribute)).2.existing =
    takenAll specs reported existing := by
  obtain ⟨changes, h⟩ := completes_members (d := ⟨existing, reported, []⟩) hb ha
  exact h.existing

/-- Members that are not listed are not set to null either, and stay. -/
theorem get?_applyAll_members (he : (Json.object existing).isProper = true)
    (hn : (specs.map (·.name)).Nodup)
    (hresets : ∀ s ∈ specs, ∀ name ∈ s.resets, name ∈ specs.map (·.name)) (name : String)
    (change : Change) :
    (applyAll ⟨existing, reported, []⟩ (specs.map toAttribute)).2.changes.get? name = some change ↔
      ∃ before after, existing.get? name = some before ∧
        (takenAll specs reported existing).get? name = some after ∧
        before.same after = false ∧ change = ⟨.json before, .json after⟩ := by
  obtain ⟨changes, h⟩ := completes_members (d := ⟨existing, reported, []⟩) hb ha
  have hnodup : ((specs.map toAttribute).map (·.name)).Nodup := by rwa [map_name_toAttribute]
  refine (h.get?_eq_some (readAlike_of_nodup hnodup) rfl change).trans ?_
  constructor
  · rintro ⟨a, hm, rfl, hbefore, hafter, hsame⟩
    obtain ⟨s, hs, rfl⟩ := List.mem_map.mp hm
    have hsome : ((takenAll specs reported existing).get? s.name).isSome :=
      isSome_get?_takenAll specs (hb s hs)
    obtain ⟨after, ha⟩ := Option.isSome_iff_exists.mp hsome
    obtain ⟨before, hb⟩ := Option.isSome_iff_exists.mp (hb s hs)
    obtain ⟨x, y⟩ := change
    obtain rfl : x = .json before := hbefore.trans (value_toAttribute hb)
    obtain rfl : y = .json after := hafter.trans (value_toAttribute ha)
    exact ⟨before, after, hb, ha, hsame, rfl⟩
  · rintro ⟨before, after, hb, ha, hsame, rfl⟩
    by_cases hm : name ∈ specs.map (·.name)
    · obtain ⟨s, hs, rfl⟩ := List.mem_map.mp hm
      exact ⟨s.toAttribute, List.mem_map_of_mem hs, rfl, (value_toAttribute hb).symm,
        (value_toAttribute ha).symm,
        hsame⟩
    · rw [get?_takenAll_of_notMem hm fun s hs hr => hm (hresets s hs name hr), hb] at ha
      obtain rfl := Option.some.inj ha
      exact absurd (hsame.symm.trans (same_self_of_get? he hb)) (by decide)

/-- Whatever members are listed, and whatever writing them sets to null: the changes that are
recorded are those from before the first member was written to after the last, and what is set to
null on the way is made good. -/
theorem applyAll_members (he : (Json.object existing).isProper = true)
    (hr : (Json.object reported).isProper = true) (hn : (specs.map (·.name)).Nodup)
    (hresets : ∀ s ∈ specs, ∀ name ∈ s.resets, name ∈ specs.map (·.name)) :
    (applyAll ⟨existing, reported, []⟩ (specs.map toAttribute)).1 = .ok () ∧
      BringsAlong specs existing reported
        (applyAll ⟨existing, reported, []⟩ (specs.map toAttribute)).2 := by
  obtain ⟨changes, h⟩ := completes_members (d := ⟨existing, reported, []⟩) hb ha
  have hexisting := existing_applyAll_members hb ha
  have ends (hrestores : Restores specs) {s : MemberSpec} (hs : s ∈ specs) :
      ∃ before after, existing.get? s.name = some before ∧ reported.get? s.name = some after ∧ ∃ v,
        (takenAll specs reported existing).get? s.name = some v ∧
        (s.policy = .ifPresent ∧ (Cell.json after).isNull = true → v = before) ∧
        (¬(s.policy = .ifPresent ∧ (Cell.json after).isNull = true) → v.same after = true) := by
    obtain ⟨before, hbefore⟩ := Option.isSome_iff_exists.mp (hb s hs)
    obtain ⟨after, hafter⟩ := Option.isSome_iff_exists.mp (ha s hs)
    exact ⟨before, after, hbefore, hafter,
      get?_takenAll hn hrestores hs hbefore hafter (same_self_of_get? hr hafter)⟩
  refine ⟨h.result, ?_, ?_, ?_, ?_, h.nodup List.nodup_nil, h.reported⟩
  · rw [hexisting]
    exact get?_applyAll_members hb ha he hn hresets
  · intro hrestores s hs hp
    obtain ⟨before, after, -, hafter, v, hv, -, hgiven⟩ := ends hrestores hs
    rw [hexisting]
    exact ⟨v, after, hv, hafter, hgiven fun hc => absurd (hp.symm.trans hc.1) (by decide)⟩
  · intro hrestores s hs hp w hw hne
    obtain ⟨before, after, -, hafter, v, hv, -, hgiven⟩ := ends hrestores hs
    obtain rfl := Option.some.inj (hafter.symm.trans hw)
    rw [hexisting]
    refine ⟨v, hv, hgiven fun hc => hne ?_⟩
    exact Cell.json.inj ((Cell.isNull_iff _).mp hc.2)
  · intro hrestores s hs hp hnull
    obtain ⟨before, after, hbefore, hafter, v, hv, hkept, -⟩ := ends hrestores hs
    obtain rfl := Option.some.inj (hafter.symm.trans hnull)
    rw [hexisting, hv, hkept ⟨hp, rfl⟩, hbefore]

end ApplyAll

/-- A score whose writing drops the rating that follows from it, and a remark that is never taken
away. -/
def scoreSpecs : List MemberSpec :=
  [{ name := "score", resets := ["rating"] }, { name := "rating" }, { name := "remark", policy := .ifPresent }]

def scoredLow : Members := [("score", .int 5), ("rating", .text "high"), ("remark", .text "known")]

def scoredHigh : Members := [("score", .int 9), ("rating", .text "high"), ("remark", .null)]

/-- The rating that comes back as it was is not recorded. -/
theorem applyAll_members_scored :
    (∀ s ∈ scoreSpecs, (scoredLow.get? s.name).isSome) ∧
      (∀ s ∈ scoreSpecs, (scoredHigh.get? s.name).isSome) ∧
    (Json.object scoredLow).isProper = true ∧ (Json.object scoredHigh).isProper = true ∧
    (scoreSpecs.map (·.name)).Nodup ∧
      (∀ s ∈ scoreSpecs, ∀ name ∈ s.resets, name ∈ scoreSpecs.map (·.name)) ∧
    Restores scoreSpecs ∧
    (applyAll ⟨scoredLow, scoredHigh, []⟩ (scoreSpecs.map toAttribute)).2.existing =
      [("score", .int 9), ("rating", .text "high"), ("remark", .text "known")] ∧
    (applyAll ⟨scoredLow, scoredHigh, []⟩ (scoreSpecs.map toAttribute)).2.changes =
      [("score", ⟨.int 5, .int 9⟩)] ∧
    BringsAlong scoreSpecs scoredLow scoredHigh
      (applyAll ⟨scoredLow, scoredHigh, []⟩ (scoreSpecs.map toAttribute)).2 := by
  have hb : ∀ s ∈ scoreSpecs, (scoredLow.get? s.name).isSome := by decide
  have ha : ∀ s ∈ scoreSpecs, (scoredHigh.get? s.name).isSome := by decide
  have hn : (scoreSpecs.map (·.name)).Nodup := by decide
  have hresets : ∀ s ∈ scoreSpecs, ∀ name ∈ s.resets, name ∈ scoreSpecs.map (·.name) := by decide
  refine ⟨hb, ha, by decide, by decide, hn, hresets, ?_, rfl, rfl,
    (applyAll_members hb ha (by decide) (by decide) hn hresets).2⟩
  simp [Restores, scoreSpecs]

end Differ

end AdvisoryLedger

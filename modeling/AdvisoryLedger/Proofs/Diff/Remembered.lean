import AdvisoryLedger.Proofs.Diff.Members
import Mathlib.Data.List.Induction

namespace AdvisoryLedger.Differ

open Attribute (Members)

open MemberSpec (toAttribute)

def plain (name : String) (policy : OverwritePolicy) : MemberSpec := { name, policy }

/-- What is asked of a differ: to take over one member, or a list of them. -/
inductive Step
  | apply (name : String) (policy : OverwritePolicy)
  | applyIfChanged (name : String)
  | applyIfPresentAndChanged (name : String)
  | applyAll (members : List (String × OverwritePolicy))

namespace Step

/-- The members of a list, as they are taken over. -/
def listed (members : List (String × OverwritePolicy)) : List (Attribute Members) :=
  (members.map fun m => plain m.1 m.2).map toAttribute

theorem mem_listed {members : List (String × OverwritePolicy)} {a : Attribute Members} :
    a ∈ listed members ↔ ∃ m ∈ members, (plain m.1 m.2).toAttribute = a := by
  rw [listed, List.map_map, List.mem_map]
  rfl

theorem map_name_listed (members : List (String × OverwritePolicy)) :
    (listed members).map (·.name) = members.map (·.1) := by
  rw [listed, MemberSpec.map_name_toAttribute, List.map_map]
  rfl

theorem readAlike_listed (members : List (String × OverwritePolicy)) :
    Attribute.ReadAlike (listed members) := by
  intro a ha b hb hab
  obtain ⟨m, -, rfl⟩ := mem_listed.mp ha
  obtain ⟨n, -, rfl⟩ := mem_listed.mp hb
  exact congrArg Attribute.readMember hab

/-- The differ afterwards, whether or not the step ended well. -/
def perform (d : Differ Members) : Step → Differ Members
  | apply name policy => (d.apply (plain name policy).toAttribute).2
  | applyIfChanged name => (d.apply (plain name .always).toAttribute).2
  | applyIfPresentAndChanged name => (d.apply (plain name .ifPresent).toAttribute).2
  | applyAll members => (d.applyAll (listed members)).2

/-- The step takes over a list, to its end, and a member on it is not what it was at first. -/
def Relists (first : Members) (d : Differ Members) : Step → Prop
  | applyAll members => (d.applyAll (listed members)).1 = .ok () ∧ ∃ m ∈ members, ∃ before after,
      first.get? m.1 = some before ∧ d.existing.get? m.1 = some after ∧ before.same after = false
  | _ => False

end Step

def play (d : Differ Members) (steps : List Step) : Differ Members := steps.foldl Step.perform d

/-- Each member that is not what it was at first is recorded, with what it was and what it is
now. -/
def Records (first : Members) (d : Differ Members) : Prop := ∀ name before after,
  first.get? name = some before → d.existing.get? name = some after → before.same after = false →
    d.changes.get? name = some ⟨.json before, .json after⟩

/-- All that has changed is recorded, and nothing seems unchanged that is not. -/
structure Remembers (first : Members) (d : Differ Members) : Prop where
  changes : Records first d
  isChanged : ∀ name, d.existing.get? name ≠ first.get? name → d.isChanged = true

/-- On the way from one record to another, members have been left as they were or taken over from
the report. -/
def Nears (reported existing next : Members) : Prop := ∀ name, next.get? name = existing.get? name ∨
  ∃ before after, existing.get? name = some before ∧ reported.get? name = some after ∧
    before.same after = false ∧ next.get? name = some after

section Nears

variable {reported r₁ r₂ r₃ : Members} {name : String} {v : Json}

theorem Nears.refl (reported r : Members) : Nears reported r r := fun _ => .inl rfl

theorem Nears.keeps (h : Nears reported r₁ r₂) (hv : v.same v = true)
    (hr : reported.get? name = some v) (h₁ : r₁.get? name = some v) : r₂.get? name = some v := by
  rcases h name with he | ⟨before, after, hb, ha, hs, -⟩
  · rw [he, h₁]
  · obtain rfl := Option.some.inj (hb.symm.trans h₁)
    obtain rfl := Option.some.inj (ha.symm.trans hr)
    exact absurd (hs.symm.trans hv) (by decide)

theorem Nears.reported_of_changed (h : Nears reported r₁ r₂) {w : Json} (h₁ : r₁.get? name = some v)
    (h₂ : r₂.get? name = some w) (hs : v.same w = false) (hv : v.same v = true) :
    reported.get? name = some w := by
  rcases h name with he | ⟨before, after, -, ha, -, hn⟩
  · obtain rfl := Option.some.inj ((h₁.symm.trans he.symm).trans h₂)
    exact absurd (hs.symm.trans hv) (by decide)
  · rw [ha, ← hn, h₂]

theorem Nears.trans (hr : (Json.object reported).isProper = true) (h : Nears reported r₁ r₂)
    (h' : Nears reported r₂ r₃) : Nears reported r₁ r₃ := by
  intro name
  rcases h name with he | ⟨before, after, hb, ha, hs, hn⟩
  · rw [← he]
    exact h' name
  · exact .inr ⟨before, after, hb, ha, hs, h'.keeps (same_self_of_get? hr ha) ha hn⟩

theorem Nears.isSome_iff (h : Nears reported r₁ r₂) : (r₂.get? name).isSome ↔
    (r₁.get? name).isSome := by
  rcases h name with he | ⟨before, after, hb, -, -, hn⟩
  · rw [he]
  · rw [hb, hn]
    rfl

end Nears

section Apply

variable {first : Members} {d e e' : Differ Members} {name : String} {policy : OverwritePolicy}
  {members : List (String × OverwritePolicy)}

/-- One member is left as it is, or takes the reported value, which is recorded. -/
theorem apply_plain (d : Differ Members) (name : String) (policy : OverwritePolicy) :
    (d.apply (plain name policy).toAttribute).2 = d ∨
      ∃ before after, d.existing.get? name = some before ∧
      d.reported.get? name = some after ∧ before.same after = false ∧
      (d.apply (plain name policy).toAttribute).2 = { d with
        existing := d.existing.put name after
        changes := d.changes.put name ⟨.json before, .json after⟩ } := by
  cases hb : d.existing.get? name with
  | none =>
    refine .inl ?_
    simp [apply, plain, toAttribute, Attribute.ofMember, Attribute.readMember, hb]
  | some before =>
    cases ha : d.reported.get? name with
    | none =>
      refine .inl ?_
      simp [apply, plain, toAttribute, Attribute.ofMember, Attribute.readMember, hb, ha]
    | some after =>
      rw [apply_member (s := plain name policy) hb ha]
      split
      · exact .inl rfl
      · next hskips =>
          exact .inr ⟨before, after, rfl, rfl, by simpa using (not_or.mp hskips).2, rfl⟩

theorem get?_existing_apply_of_ne {n : String} (hne : n ≠ name) :
    (d.apply (plain name policy).toAttribute).2.existing.get? n = d.existing.get? n := by
  rcases apply_plain d name policy with he | ⟨before, after, -, -, -, he⟩
  · rw [he]
  · rw [he]
    dsimp only
    rw [Table.get?_put, if_neg hne.symm]

theorem get?_existing_applyEach_of_notMem (hm : name ∉ members.map (·.1)) :
    (d.applyEach (Step.listed members)).2.existing.get? name = d.existing.get? name := by
  refine applyEach_preserves
    (P := fun e : Differ Members => e.existing.get? name = d.existing.get? name)
    (fun a ha e he => ?_) rfl
  obtain ⟨m, hmem, rfl⟩ := Step.mem_listed.mp ha
  rw [get?_existing_apply_of_ne fun hname => hm (List.mem_map.mpr ⟨m, hmem, hname.symm⟩), he]

theorem Completes.get?_unlisted (h : d.Completes (Step.listed members) e)
    (hm : name ∉ members.map (·.1)) :
    (d.applyAll (Step.listed members)).2.changes.get? name = d.changes.get? name := by
  refine h.get?_of_notMem ?_
  rwa [Step.map_name_listed]

/-- What a list that was taken over to its end says of a member on it. -/
theorem Completes.get?_listed (h : d.Completes (Step.listed members) e)
    (hm : name ∈ members.map (·.1))
    {before after : Json} (hb : d.existing.get? name = some before)
    (ha : e.existing.get? name = some after) :
    (d.applyAll (Step.listed members)).2.changes.get? name =
      if before.same after then none else some ⟨.json before, .json after⟩ := by
  obtain ⟨m, hmem, rfl⟩ := List.mem_map.mp hm
  have hs := h.get?_of_mem (Step.readAlike_listed members) (Step.mem_listed.mpr ⟨m, hmem, rfl⟩)
  rw [MemberSpec.value_toAttribute (s := plain m.1 m.2) hb,
    MemberSpec.value_toAttribute (s := plain m.1 m.2) ha] at hs
  exact hs

/-- A differ that has come further, and records of the changes since a first record as many as
before. -/
structure Onward (first : Members) (d e : Differ Members) : Prop where
  reported : e.reported = d.reported
  nears : Nears d.reported d.existing e.existing
  records : Records first e ↔ Records first d

theorem Onward.refl (first : Members) (d : Differ Members) : Onward first d d :=
  ⟨rfl, .refl _ _, Iff.rfl⟩

theorem Onward.trans (hr : (Json.object d.reported).isProper = true) (h : Onward first d e)
    (h' : Onward first e e') : Onward first d e' where
  reported := h'.reported.trans h.reported
  nears := h.nears.trans hr (h.reported ▸ h'.nears)
  records := h'.records.trans h.records

section

variable (hf : (Json.object first).isProper = true) (hr : (Json.object d.reported).isProper = true)
  (hn : Nears d.reported first d.existing)

include hf hr hn

/-- A change is recorded as soon as it is made. -/
theorem onward_apply (name : String) (policy : OverwritePolicy) :
    Onward first d (d.apply (plain name policy).toAttribute).2 := by
  rcases apply_plain d name policy with he | ⟨before, after, hb, ha, hs, he⟩
  · rw [he]
    exact .refl first d
  · rw [he]
    have hfirst : first.get? name = some before := by
      rcases hn name with heq | ⟨_, _, -, hc, -, hnext⟩
      · exact heq.symm.trans hb
      · obtain rfl := Option.some.inj (hc.symm.trans ha)
        obtain rfl := Option.some.inj (hnext.symm.trans hb)
        exact absurd (hs.symm.trans (same_self_of_get? hr ha)) (by decide)
    refine ⟨rfl, fun n => ?_, forall_congr' fun n => ?_⟩
    · dsimp only
      rw [Table.get?_put]
      split
      · next hname => exact .inr ⟨before, after, hname ▸ hb, hname ▸ ha, hs, rfl⟩
      · exact .inl rfl
    · dsimp only
      rw [Table.get?_put, Table.get?_put]
      split
      · next hname =>
        subst hname
        rw [hfirst, hb]
        constructor
        · rintro - x y hx hy hne
          obtain rfl := Option.some.inj hx
          obtain rfl := Option.some.inj hy
          exact absurd (hne.symm.trans (same_self_of_get? hf hfirst)) (by decide)
        · rintro - x y hx hy -
          obtain rfl := Option.some.inj hx
          obtain rfl := Option.some.inj hy
          rfl
      · exact Iff.rfl

theorem onward_applyEach (members : List (String × OverwritePolicy)) :
    Onward first d (d.applyEach (Step.listed members)).2 := by
  refine applyEach_preserves (P := Onward first d) (fun a ha e he => ?_) (.refl first d)
  obtain ⟨m, -, rfl⟩ := Step.mem_listed.mp ha
  have hreported : e.reported = d.reported := he.reported
  exact he.trans hr (onward_apply hf (hreported ▸ hr) (hreported ▸ hn.trans hr he.nears) m.1 m.2)

/-- A list that is taken over to its end settles what is recorded of its members, and forgets of a
change that was made before. -/
theorem records_applyAll (h : d.Completes (Step.listed members)
      (d.applyEach (Step.listed members)).2) :
    Records first (d.applyAll (Step.listed members)).2 ↔ Records first d ∧
      ¬∃ m ∈ members, ∃ before after,
      first.get? m.1 = some before ∧ d.existing.get? m.1 = some after ∧
        before.same after = false := by
  have ho := onward_applyEach hf hr hn members
  have hothers {name : String} (hm : name ∉ members.map (·.1)) :
      (d.applyEach (Step.listed members)).2.existing.get? name = d.existing.get? name :=
    get?_existing_applyEach_of_notMem hm
  constructor
  · intro hrec
    have hnot : ¬∃ m ∈ members, ∃ before after, first.get? m.1 = some before ∧
        d.existing.get? m.1 = some after ∧ before.same after = false := by
      rintro ⟨m, hm, before, after, hb, ha, hs⟩
      have hreported := hn.reported_of_changed hb ha hs (same_self_of_get? hf hb)
      have hsame := same_self_of_get? hr hreported
      have hafter := ho.nears.keeps hsame hreported ha
      have hkept := hrec m.1 before after hb (h.existing ▸ hafter) hs
      rw [h.get?_listed (List.mem_map_of_mem hm) ha hafter] at hkept
      simp [hsame] at hkept
    refine ⟨fun name before after hb ha hs => ?_, hnot⟩
    have hm : name ∉ members.map (·.1) := by
      intro hm
      obtain ⟨m, hmem, rfl⟩ := List.mem_map.mp hm
      exact hnot ⟨m, hmem, before, after, hb, ha, hs⟩
    rw [← h.get?_unlisted hm]
    refine hrec name before after hb ?_ hs
    rw [h.existing, hothers hm, ha]
  · rintro ⟨hrec, hnot⟩ name before after hb ha hs
    rw [h.existing] at ha
    by_cases hm : name ∈ members.map (·.1)
    · have hd : d.existing.get? name = some before := by
        rcases hn name with he | ⟨x, y, hx, -, hxy, hnext⟩
        · rw [he, hb]
        · obtain ⟨m, hmem, rfl⟩ := List.mem_map.mp hm
          exact absurd ⟨m, hmem, x, y, hx, hnext, hxy⟩ hnot
      rw [h.get?_listed hm hd ha, if_neg (by simp [hs])]
    · rw [h.get?_unlisted hm]
      rw [hothers hm] at ha
      exact hrec name before after hb ha hs

/-- Of a member that was changed before, a list that is taken over forgets; otherwise a step forgets
nothing. -/
theorem perform_records (step : Step) : (step.perform d).reported = d.reported ∧
    Nears d.reported d.existing (step.perform d).existing ∧
    (Records first (step.perform d) ↔ Records first d ∧ ¬step.Relists first d) := by
  have single (name : String) (policy : OverwritePolicy) :
      (d.apply (plain name policy).toAttribute).2.reported = d.reported ∧
        Nears d.reported d.existing (d.apply (plain name policy).toAttribute).2.existing ∧
        (Records first (d.apply (plain name policy).toAttribute).2 ↔ Records first d ∧ ¬False) := by
    have ho := onward_apply hf hr hn name policy
    exact ⟨ho.reported, ho.nears, by rw [ho.records, not_false_eq_true, and_true]⟩
  cases step with
  | apply name policy => exact single name policy
  | applyIfChanged name => exact single name .always
  | applyIfPresentAndChanged name => exact single name .ifPresent
  | applyAll members =>
    have ho := onward_applyEach hf hr hn members
    have hkeeps : ∀ a ∈ Step.listed members, a.IsReadableAt d.existing →
        a.IsReadableAt (d.applyEach (Step.listed members)).2.existing := by
      intro a ha
      obtain ⟨m, -, rfl⟩ := Step.mem_listed.mp ha
      rw [MemberSpec.isReadableAt_toAttribute_iff, MemberSpec.isReadableAt_toAttribute_iff,
        ho.nears.isSome_iff]
      exact id
    rw [Step.perform, Step.Relists]
    rcases applyAll_cases d hkeeps with ⟨e, hresult, he | he⟩ | h
    · rw [he, hresult]
      exact ⟨rfl, .refl _ _, by simp⟩
    · rw [he, hresult]
      exact ⟨ho.reported, ho.nears, by simp [ho.records]⟩
    · rw [records_applyAll hf hr hn h, h.existing, h.result]
      exact ⟨h.reported, ho.nears, by simp⟩

end

end Apply

section Play

variable {first reported : Members} {steps : List Step}

/-- No list that is taken over has a member on it that was changed before. -/
def NeverRelists (first reported : Members) (steps : List Step) : Prop := ∀ before step after,
  steps = before ++ step :: after → ¬step.Relists first (play ⟨first, reported, []⟩ before)

theorem neverRelists_nil : NeverRelists first reported [] := by
  intro before step after h
  simp at h

theorem neverRelists_concat (step : Step) : NeverRelists first reported (steps ++ [step]) ↔
    NeverRelists first reported steps ∧ ¬step.Relists first (play ⟨first, reported, []⟩ steps) := by
  constructor
  · intro h
    refine ⟨fun before q after he => h before q (after ++ [step]) (by simp [he]),
      h steps step [] rfl⟩
  · rintro ⟨hs, hlast⟩ before q after he
    rcases List.eq_nil_or_concat after with rfl | ⟨after, p, rfl⟩
    · obtain ⟨rfl, hq⟩ := List.append_inj' he rfl
      obtain rfl := List.cons.inj hq |>.1
      exact hlast
    · have he' : steps ++ [step] = (before ++ q :: after) ++ [p] := by simpa using he
      exact hs before q after (List.append_inj' he' rfl).1

theorem play_concat (d : Differ Members) (step : Step) :
    play d (steps ++ [step]) = step.perform (play d steps) := by
  rw [play, List.foldl_append]
  rfl

theorem play_records (hf : (Json.object first).isProper = true)
    (hr : (Json.object reported).isProper = true)
    (steps : List Step) : (play ⟨first, reported, []⟩ steps).reported = reported ∧
      Nears reported first (play ⟨first, reported, []⟩ steps).existing ∧
      (Records first (play ⟨first, reported, []⟩ steps) ↔ NeverRelists first reported steps) := by
  induction steps using List.reverseRecOn with
  | nil =>
    refine ⟨rfl, .refl _ _, fun _ => neverRelists_nil, fun _ name before after hb ha hs => ?_⟩
    obtain rfl := Option.some.inj (hb.symm.trans ha)
    exact absurd (hs.symm.trans (same_self_of_get? hf hb)) (by decide)
  | append_singleton steps step ih =>
    obtain ⟨hreported, hn, hrecords⟩ := ih
    obtain ⟨hreported', hn', hrecords'⟩ :=
      perform_records hf (hreported.symm ▸ hr) (hreported.symm ▸ hn) step
    rw [hreported] at hreported' hn'
    rw [play_concat, neverRelists_concat]
    exact ⟨hreported', hn.trans hr hn', hrecords'.trans (and_congr_left' hrecords)⟩

/-- Whatever is asked of a differ, one thing after the other, and whether or not it ends well: all
changes since the start are remembered as long as no list that is taken over has a member on it that
was changed before. -/
theorem remembers_iff (hf : (Json.object first).isProper = true)
    (hr : (Json.object reported).isProper = true) (steps : List Step) :
    Remembers first (play ⟨first, reported, []⟩ steps) ↔ NeverRelists first reported steps := by
  obtain ⟨-, hn, hrecords⟩ := play_records hf hr steps
  rw [← hrecords]
  refine ⟨Remembers.changes, fun h => ⟨h, fun name hne => ?_⟩⟩
  obtain ⟨before, after, hb, -, hs, ha⟩ := (hn name).resolve_left hne
  exact (isChanged_iff _).mpr ⟨name, by rw [h name before after hb ha hs]; exact Option.some_ne_none _⟩

/-- A member that one step changes and the list after it does not. -/
def oldName : Members := [("name", .text "old"), ("note", .text "kept")]

def newName : Members := [("name", .text "new"), ("note", .text "changed")]

theorem remembers_iff_renamed :
    (Json.object oldName).isProper = true ∧ (Json.object newName).isProper = true ∧
    Remembers oldName (play ⟨oldName, newName, []⟩ [.applyIfChanged "name",
      .applyAll [("note", .always)]]) := by
  refine ⟨by decide, by decide, (remembers_iff (by decide) (by decide) _).mpr ?_⟩
  have hfirst : NeverRelists oldName newName ([] ++ [.applyIfChanged "name"]) :=
    (neverRelists_concat _).mpr ⟨neverRelists_nil, id⟩
  change NeverRelists oldName newName
    (([] ++ [.applyIfChanged "name"]) ++ [.applyAll [("note", .always)]])
  refine (neverRelists_concat _).mpr ⟨hfirst, ?_⟩
  rintro ⟨-, m, hm, before, after, hb, ha, hs⟩
  obtain rfl := List.mem_singleton.mp hm
  obtain rfl : before = .text "kept" := Option.some.inj hb.symm
  obtain rfl : after = .text "kept" := Option.some.inj ha.symm
  exact absurd hs (by decide)

/-- A name that was taken over is taken over once more, with a list, and nothing is said to have
changed. -/
theorem not_remembers_renamed :
    (play ⟨oldName, newName, []⟩ [.apply "name" .always,
      .applyAll [("name", .always)]]).existing.get? "name" =
      some (.text "new") ∧
    (play ⟨oldName, newName, []⟩ [.apply "name" .always, .applyAll [("name", .always)]]).isChanged =
      false ∧
    ¬Remembers oldName
      (play ⟨oldName, newName, []⟩ [.apply "name" .always, .applyAll [("name", .always)]]) := by
  have hne : some (Json.text "new") ≠ some (.text "old") := by simp
  exact ⟨by rfl, by rfl, fun h => absurd (h.isChanged "name" hne) (by decide)⟩

end Play

end AdvisoryLedger.Differ

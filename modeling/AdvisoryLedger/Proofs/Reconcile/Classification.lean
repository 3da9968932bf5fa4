import AdvisoryLedger.Proofs.Range.Identity
import AdvisoryLedger.Reconcile.Ranges

namespace AdvisoryLedger.RangeSync

/-- Ranges that can be looked up and no two of which are the same. -/
structure Apart (ranges : List AffectedRange) : Prop where
  hashable : ∀ x ∈ ranges, x.isHashable = true
  pairwise : ranges.Pairwise fun x y => x.same y = false

theorem Apart.nil : Apart [] := ⟨by simp, List.Pairwise.nil⟩

theorem Apart.sublist {xs ys : List AffectedRange} (h : Apart ys) (hs : xs.Sublist ys) : Apart xs :=
  ⟨fun x hx => h.hashable x (hs.subset hx), h.pairwise.sublist hs⟩

theorem Apart.cons {xs : List AffectedRange} {r : AffectedRange} (h : Apart xs)
    (hr : r.isHashable = true) (hn : ∀ x ∈ xs, r.same x = false) : Apart (r :: xs) :=
  ⟨List.forall_mem_cons.mpr ⟨hr, h.hashable⟩, List.pairwise_cons.mpr ⟨hn, h.pairwise⟩⟩

theorem Apart.eq_of_same {xs : List AffectedRange} (h : Apart xs) {x y : AffectedRange}
    (hx : x ∈ xs) (hy : y ∈ xs) (hs : x.same y = true) : x = y := by
  induction xs with
  | nil => cases hx
  | cons r rest ih =>
    have hp := List.pairwise_cons.mp h.pairwise
    rcases List.mem_cons.mp hx with rfl | hxr <;> rcases List.mem_cons.mp hy with rfl | hyr
    · rfl
    · rw [hp.1 y hyr] at hs
      cases hs
    · rw [AffectedRange.same_comm (h.hashable x hx), hp.1 x hxr] at hs
      cases hs
    · exact ih (h.sublist (List.sublist_cons_self r rest)) hxr hyr

theorem Apart.concat {xs : List AffectedRange} {r : AffectedRange} (h : Apart xs)
    (hr : r.isHashable = true) (hn : xs.any r.same = false) : Apart (xs ++ [r]) := by
  refine ⟨?_, ?_⟩
  · intro x hx
    rcases List.mem_append.mp hx with hx | hx
    · exact h.hashable x hx
    · rwa [List.mem_singleton.mp hx]
  · refine List.pairwise_append.mpr ⟨h.pairwise, List.pairwise_singleton _ _, ?_⟩
    intro x hx y hy
    rw [List.mem_singleton.mp hy, AffectedRange.same_comm (h.hashable x hx)]
    exact Bool.eq_false_iff.mpr (List.any_eq_false.mp hn x hx)

section Collapse

variable {acc reported out : List AffectedRange}

/-- What is pending once further ranges have been reported. -/
structure Collapsed (acc reported out : List AffectedRange) : Prop where
  hashable : ∀ x ∈ reported, x.isHashable = true
  apart : Apart out
  kept : ∀ x ∈ acc, x ∈ out
  origin : ∀ x ∈ out, x ∈ acc ∨ x ∈ reported
  covers : ∀ x ∈ reported, x ∈ out ∨ ∃ y ∈ out, x.same y = true

theorem collapse_cons (r : AffectedRange) (rest : List AffectedRange) :
    collapse acc (r :: rest) = if r.isHashable then
      collapse (if acc.any r.same then acc else acc ++ [r]) rest else .error .wrongKind := by
  by_cases h : r.isHashable =
    true <;> simp [collapse, AffectedRange.lookupKey, h, bind, Except.bind]

theorem collapse_collapsed (h : collapse acc reported = .ok out) (ha : Apart acc) :
    Collapsed acc reported out := by
  induction reported generalizing acc with
  | nil =>
    obtain rfl := Except.ok.inj h
    exact ⟨by simp, ha, fun x hx => hx, fun x hx => .inl hx, by simp⟩
  | cons r rest ih =>
    rw [collapse_cons] at h
    split at h
    · next hr =>
      split at h
      · next hany =>
        have hc := ih h ha
        obtain ⟨y, hy, hs⟩ := List.any_eq_true.mp hany
        refine ⟨List.forall_mem_cons.mpr ⟨hr, hc.hashable⟩, hc.apart, hc.kept, ?_, ?_⟩
        · intro x hx
          exact (hc.origin x hx).imp_right (List.mem_cons_of_mem r)
        · exact List.forall_mem_cons.mpr ⟨.inr ⟨y, hc.kept y hy, hs⟩, hc.covers⟩
      · next hany =>
        have hc := ih h (ha.concat hr (by simpa using hany))
        refine ⟨List.forall_mem_cons.mpr ⟨hr, hc.hashable⟩, hc.apart, ?_, ?_, ?_⟩
        · intro x hx
          exact hc.kept x (List.mem_append_left _ hx)
        · intro x hx
          rcases hc.origin x hx with hx | hx
          · rcases List.mem_append.mp hx with hx | hx
            · exact .inl hx
            · exact .inr (List.mem_cons.mpr (.inl (List.mem_singleton.mp hx)))
          · exact .inr (List.mem_cons_of_mem r hx)
        · exact List.forall_mem_cons.mpr ⟨.inl (hc.kept r (by simp)), hc.covers⟩
    · cases h

theorem collapse_ok (acc : List AffectedRange) (h : ∀ x ∈ reported, x.isHashable = true) :
    ∃ out, collapse acc reported = .ok out := by
  induction reported generalizing acc with
  | nil => exact ⟨acc, rfl⟩
  | cons r rest ih =>
    obtain ⟨hr, hrest⟩ := List.forall_mem_cons.mp h
    rw [collapse_cons, if_pos hr]
    exact ih _ hrest

end Collapse

def Verdict.isKept : Verdict → Bool
  | .reported _ => true
  | .keptByOthers _ => true
  | _ => false

/-- Whether the range is taken to be among the reported ones. -/
def Verdict.isReported : Verdict → Bool
  | .reported _ => true
  | _ => false

@[simp] theorem isReported_verdict (s : Source) (as : List Attribution) (b : Bool) :
    (verdict s as b).isReported = b := by
  unfold verdict
  cases b <;> simp only [Bool.false_eq_true, if_false, if_true] <;> repeat' split
  all_goals rfl

/-- The verdict on each range in turn; what one takes up is no longer pending for the next. -/
def verdicts (s : Source) (attributions : Table Int (List Attribution)) :
    List AffectedRange → List AffectedRange → List (AffectedRange × Verdict)
  | _, [] => []
  | pending, r :: rest =>
    (r, verdict s (attributionsOf attributions r) (pending.any r.same)) ::
      verdicts s attributions (pending.eraseP r.same) rest

/-- The pending ranges that none of the rows takes up. -/
def leftOver : List AffectedRange → List AffectedRange → List AffectedRange
  | pending, [] => pending
  | pending, r :: rest => leftOver (pending.eraseP r.same) rest

def chosen (ds : List (AffectedRange × Verdict)) (p : Verdict → Bool) : List AffectedRange :=
  (ds.filter fun d => p d.2).map (·.1)

theorem mem_chosen {ds : List (AffectedRange × Verdict)} {p : Verdict → Bool} {r : AffectedRange} :
    r ∈ chosen ds p ↔ ∃ v, (r, v) ∈ ds ∧ p v = true := by
  simp [chosen]

def planOf (ds : List (AffectedRange × Verdict)) (pending : List AffectedRange) : Plan where
  kept := chosen ds Verdict.isKept
  removed := chosen ds fun v => !v.isKept
  refresh := rowIds (chosen ds (· = .reported true))
  attach := rowIds (chosen ds (· = .reported false))
  detach := rowIds (chosen ds (· = .keptByOthers true))
  pending

section Classify

variable {s : Source} {attributions : Table Int (List Attribution)}
    {pending rows : List AffectedRange}

theorem rowIds_append (xs ys : List AffectedRange) : rowIds (xs ++ ys) = rowIds xs ++ rowIds ys :=
  List.filterMap_append

theorem follow_planOf (ds : List (AffectedRange × Verdict)) (pending : List AffectedRange)
    (r : AffectedRange) (v : Verdict) : (planOf ds pending).follow r v =
      planOf (ds ++ [(r, v)]) (if v.isReported then pending.eraseP r.same else pending) := by
  cases v with
  | reported b =>
    cases b <;> simp [planOf, Plan.follow, chosen, rowIds_append, Verdict.isKept,
      Verdict.isReported]
  | keptByOthers b =>
    cases b <;> simp [planOf, Plan.follow, chosen, rowIds_append, Verdict.isKept,
      Verdict.isReported]
  | _ => simp [planOf, Plan.follow, chosen, Verdict.isKept, Verdict.isReported]

theorem isPending_ok {r : AffectedRange} {b : Bool} (h : isPending r pending = .ok b) :
    b = pending.any r.same := by
  unfold isPending at h
  split at h
  · next he =>
    rw [List.isEmpty_iff.mp he]
    exact (Except.ok.inj h).symm
  · cases hk : r.lookupKey with
    | error e => simp [hk, bind, Except.bind] at h
    | ok k =>
      simp only [hk, bind, Except.bind] at h
      exact (Except.ok.inj h).symm

theorem isPending_of_isHashable {r : AffectedRange} (h : r.isHashable = true)
    (pending : List AffectedRange) :
    isPending r pending = .ok (pending.any r.same) := by
  unfold isPending
  split
  · next he => rw [List.isEmpty_iff.mp he]; rfl
  · simp [AffectedRange.lookupKey, h, bind, Except.bind]

theorem result_classify_cons (vulnId : String) (p : Plan) (r : AffectedRange)
    (rest : List AffectedRange) : (classify vulnId s attributions p (r :: rest)).result =
      (isPending r p.pending).bind fun b =>
        (classify vulnId s attributions
          (p.follow r (verdict s (attributionsOf attributions r) b)) rest).result := by
  rw [classify]
  cases hp : isPending r p.pending with
  | error e => rfl
  | ok b =>
    simp only [liftM, monadLift, MonadLift.monadLift, Noted.ofExcept, bind, Noted.bind, Except.bind]
    cases Verdict.entry? vulnId r (verdict s (attributionsOf attributions r) b) <;> rfl

theorem classify_planOf {vulnId : String} (ds : List (AffectedRange × Verdict)) {q : Plan}
    (h : (classify vulnId s attributions (planOf ds pending) rows).result = .ok q) :
    q = planOf (ds ++ verdicts s attributions pending rows) (leftOver pending rows) := by
  induction rows generalizing ds pending with
  | nil =>
    obtain rfl := Except.ok.inj h
    simp [verdicts, leftOver]
  | cons r rest ih =>
    rw [result_classify_cons] at h
    cases hp : isPending r (planOf ds pending).pending with
    | error e => simp [hp, Except.bind] at h
    | ok b =>
      obtain rfl := isPending_ok hp
      simp only [hp, Except.bind, follow_planOf, isReported_verdict] at h
      have he : (if pending.any r.same = true then pending.eraseP r.same else pending) =
          pending.eraseP r.same := by
        split
        · rfl
        · next hn => rw [List.eraseP_of_forall_not (by simpa using hn)]
      rw [show (planOf ds pending).pending = pending from rfl, he] at h
      rw [ih _ h, List.append_assoc]
      rfl

/-- The plan that a classification ends in is made from the verdicts alone. -/
theorem classify_eq {vulnId : String} {q : Plan}
    (h : (classify vulnId s attributions { pending } rows).result = .ok q) :
    q = planOf (verdicts s attributions pending rows) (leftOver pending rows) :=
  classify_planOf [] h

theorem pending_follow_nil {p : Plan} (h : p.pending = []) (r : AffectedRange) (v : Verdict) :
    (p.follow r v).pending = [] := by
  cases v <;> simp [Plan.follow, h]

/-- Classification only looks rows up as long as anything is pending. -/
theorem classify_ok (vulnId : String) (s : Source)
    (attributions : Table Int (List Attribution)) (p : Plan)
    (h : p.pending ≠ [] → ∀ r ∈ rows, r.isHashable = true) :
    ∃ q, (classify vulnId s attributions p rows).result = .ok q := by
  induction rows generalizing p with
  | nil => exact ⟨p, rfl⟩
  | cons r rest ih =>
    rw [result_classify_cons]
    by_cases hp : p.pending = []
    · rw [isPending, hp]
      exact ih _ fun hn => absurd (pending_follow_nil hp _ _) hn
    · obtain ⟨hr, hrest⟩ := List.forall_mem_cons.mp (h hp)
      rw [isPending_of_isHashable hr]
      exact ih _ fun _ => hrest

theorem map_fst_verdicts (pending rows : List AffectedRange) :
    (verdicts s attributions pending rows).map (·.1) = rows := by
  induction rows generalizing pending with
  | nil => rfl
  | cons r rest ih => simp [verdicts, ih]

/-- A verdict rests on the attributions of the range, and on whether a pending range is the same. -/
theorem eq_verdict_of_mem {d : AffectedRange × Verdict}
    (h : d ∈ verdicts s attributions pending rows) :
    d.2 = verdict s (attributionsOf attributions d.1) d.2.isReported := by
  induction rows generalizing pending with
  | nil => cases h
  | cons r rest ih =>
    rcases List.mem_cons.mp h with rfl | h
    · simp
    · exact ih h

theorem exists_same_of_mem {d : AffectedRange × Verdict}
    (h : d ∈ verdicts s attributions pending rows)
    (hd : d.2.isReported = true) : ∃ x ∈ pending, d.1.same x = true := by
  induction rows generalizing pending with
  | nil => cases h
  | cons r rest ih =>
    rcases List.mem_cons.mp h with rfl | h
    · simpa using hd
    · obtain ⟨x, hx, hs⟩ := ih h
      exact ⟨x, List.mem_of_mem_eraseP hx, hs⟩

theorem leftOver_sublist (pending rows : List AffectedRange) :
    (leftOver pending rows).Sublist pending := by
  induction rows generalizing pending with
  | nil => exact List.Sublist.refl _
  | cons r rest ih => exact (ih _).trans List.eraseP_sublist

/-- What a row does not take up, being there only once, is not the same as the row. -/
theorem Apart.not_same_of_mem_eraseP (h : Apart pending) {r x : AffectedRange}
    (hx : x ∈ pending.eraseP r.same) : r.same x = false := by
  rw [← Bool.not_eq_true]
  intro hs
  obtain ⟨y, l₁, l₂, -, hy, he, he'⟩ := List.exists_of_eraseP (List.mem_of_mem_eraseP hx) hs
  have ha := he ▸ h
  obtain ⟨k, hk, hkx⟩ := (AffectedRange.same_iff_right
    (h.hashable x (List.mem_of_mem_eraseP hx))).mp hs
  obtain ⟨j, hj, hjy⟩ := (AffectedRange.same_iff_right (ha.hashable y (by simp))).mp hy
  obtain rfl : k = j := Option.some.inj (hk.symm.trans hj)
  have hp := List.pairwise_append.mp ha.pairwise
  rw [he'] at hx
  rcases List.mem_append.mp hx with hx | hx
  · exact absurd (AffectedRange.same_of_identity? hkx hjy) (by simp [hp.2.2 x hx y (by simp)])
  · exact absurd (AffectedRange.same_of_identity? hjy hkx)
      (by simp [(List.pairwise_cons.mp hp.2.1).1 x hx])

theorem not_same_of_mem_leftOver (h : Apart pending) {r x : AffectedRange} (hr : r ∈ rows)
    (hx : x ∈ leftOver pending rows) : r.same x = false := by
  induction rows generalizing pending with
  | nil => cases hr
  | cons q rest ih =>
    rcases List.mem_cons.mp hr with rfl | hr
    · exact h.not_same_of_mem_eraseP ((leftOver_sublist _ _).subset hx)
    · exact ih (h.sublist List.eraseP_sublist) hr hx

theorem taken_or_mem_leftOver {x : AffectedRange} (hx : x ∈ pending) :
    (∃ d ∈ verdicts s attributions pending rows, d.2.isReported = true ∧ d.1.same x = true) ∨
      x ∈ leftOver pending rows := by
  induction rows generalizing pending with
  | nil => exact .inr hx
  | cons r rest ih =>
    by_cases hs : r.same x = true
    · refine .inl ⟨_, List.mem_cons_self, ?_, hs⟩
      rw [isReported_verdict, List.any_eq_true]
      exact ⟨x, hx, hs⟩
    · rcases ih ((List.mem_eraseP_of_neg hs).mpr hx) with ⟨d, hd, ht⟩ | hl
      · exact .inl ⟨d, List.mem_cons_of_mem _ hd, ht⟩
      · exact .inr hl

theorem taken_once (h : Apart pending) {x : AffectedRange} {c d : AffectedRange × Verdict}
    (hc : c ∈ verdicts s attributions pending rows) (hd : d ∈ verdicts s attributions pending rows)
    (hcr : c.2.isReported = true) (hdr : d.2.isReported = true) (hx : x.isHashable = true)
    (hcx : c.1.same x = true) (hdx : d.1.same x = true) : c = d := by
  obtain ⟨k, hkc, hkx⟩ := (AffectedRange.same_iff_right hx).mp hcx
  obtain ⟨j, hjd, hjx⟩ := (AffectedRange.same_iff_right hx).mp hdx
  obtain rfl : k = j := Option.some.inj (hkx.symm.trans hjx)
  induction rows generalizing pending with
  | nil => cases hc
  | cons r rest ih =>
    -- What a later row takes up is still pending after the first, hence not the same as that.
    have later {e : AffectedRange × Verdict}
      (he : e ∈ verdicts s attributions (pending.eraseP r.same) rest)
        (her : e.2.isReported = true) (hke : e.1.identity? = some k) (hr : r.identity? = some k) :
          False := by
      obtain ⟨y, hy, hs⟩ := exists_same_of_mem he her
      have hyh := h.hashable y (List.mem_of_mem_eraseP hy)
      obtain ⟨i, hi, hiy⟩ := (AffectedRange.same_iff_right hyh).mp hs
      obtain rfl : i = k := Option.some.inj (hi.symm.trans hke)
      exact absurd (AffectedRange.same_of_identity? hr hiy) (by simp [h.not_same_of_mem_eraseP hy])
    rcases List.mem_cons.mp hc with hc₁ | hc₁ <;> rcases List.mem_cons.mp hd with hd₁ | hd₁
    · rw [hc₁, hd₁]
    · rw [hc₁] at hkc
      exact (later hd₁ hdr hjd hkc).elim
    · rw [hd₁] at hjd
      exact (later hc₁ hcr hkc hjd).elim
    · exact ih (h.sublist List.eraseP_sublist) hc₁ hd₁

end Classify

end AdvisoryLedger.RangeSync

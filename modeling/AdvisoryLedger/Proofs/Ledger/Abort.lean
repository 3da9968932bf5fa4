import AdvisoryLedger.Proofs.Ledger.Renumbering
import AdvisoryLedger.Proofs.Ledger.Transaction
import AdvisoryLedger.Reconcile.Ranges

namespace AdvisoryLedger

def Call.issued : (call : Call) → call.Reply → Option Int
  | .insertAdvisory _, row => row.id
  | .insertRange _, row => row.id
  | .insertAttribution _, row => row.id
  | _, _ => none

theorem Ledger.issued_perform {l : Ledger} {call : Call} {p : Performed call.Reply}
    (h : l.perform call = .ok p) {id : Int} (hid : call.issued p.reply = some id) :
    id = l.nextId ∧ p.ledger.nextId = l.nextId + 1 := by
  cases performs_of_perform h with
  | read hc reply => cases call <;> first | exact absurd hc Bool.false_ne_true | cases hid
  | insertAdvisory _ => exact ⟨(Option.some.inj hid).symm, rfl⟩
  | insertRange r => exact ⟨(Option.some.inj hid).symm, rfl⟩
  | insertAttribution _ => exact ⟨(Option.some.inj hid).symm, rfl⟩
  | updateAdvisory _ _ => cases hid
  | touchAttributions => cases hid
  | deleteAttributions => cases hid
  | setRanges id ids => cases hid
  | setConfig group name value => cases hid

theorem Ledger.nextId_le_perform {l : Ledger} {call : Call} {p : Performed call.Reply}
    (h : l.perform call = .ok p) :
    l.nextId ≤ p.ledger.nextId := by
  cases performs_of_perform h with
  | insertAdvisory _ => exact Int.le_add_of_nonneg_right (by decide)
  | insertRange r => exact Int.le_add_of_nonneg_right (by decide)
  | insertAttribution _ => exact Int.le_add_of_nonneg_right (by decide)
  | _ => exact Int.le_refl _

theorem Ledger.nextId_rollback (l : Ledger) (undo : List Undo) :
    (l.rollback undo).nextId = l.nextId := by
  induction undo generalizing l with
  | nil => rfl
  | cons u rest ih =>
    refine (ih (u.apply l)).trans ?_
    cases u <;> rfl

namespace Hall

variable {α : Type} {g g' : Hall α} {l : Ledger} {i : Nat}

def issuedBy (g : Hall α) : Deed α → Option Int
  | .move (.step i) =>
    match g.phase? i with
    | some (.inside (.ask call _) _) =>
      match g.ledger.perform call with
      | .ok p => call.issued p.reply
      | .error _ => none
    | _ => none
  | _ => none

/-- The ids that are issued in the course of deeds, in their order. -/
def issued (g : Hall α) : List (Deed α) → List Int
  | [] => []
  | d :: rest => (g.issuedBy d).toList ++ (g.act d).issued rest

theorem nextId_le_act (g : Hall α) (d : Deed α) : g.ledger.nextId ≤ (g.act d).ledger.nextId := by
  cases d with
  | renumber i n id => exact Int.le_of_eq (congrArg Ledger.nextId (ledger_renumber g i n id)).symm
  | move m =>
    have hm := moved g m
    change g.ledger.nextId ≤ (g.move m).ledger.nextId
    generalize g.move m = g' at hm ⊢
    cases hm with
    | rest => exact Int.le_refl _
    | arrive lock program => exact Int.le_refl _
    | turnAway hp e => exact Int.le_refl _
    | breakOff hp e => exact Int.le_of_eq (Ledger.nextId_rollback _ _).symm
    | step hs =>
      cases hs with
      | fail hp => exact Int.le_of_eq (Ledger.nextId_rollback _ _).symm
      | perform hp hc => exact Ledger.nextId_le_perform hc
      | _ => exact Int.le_refl _

theorem nextId_le_acts (g : Hall α) (deeds : List (Deed α)) :
    g.ledger.nextId ≤ (g.acts deeds).ledger.nextId := by
  induction deeds generalizing g with
  | nil => exact Int.le_refl _
  | cons d rest ih => exact Int.le_trans (g.nextId_le_act d) (ih _)

theorem issuedBy_eq_some {d : Deed α} {id : Int} (h : g.issuedBy d = some id) :
    id = g.ledger.nextId ∧ (g.act d).ledger.nextId = g.ledger.nextId + 1 := by
  unfold issuedBy at h
  split at h
  · next i =>
    split at h
    · next call next undo hp =>
      split at h
      · next p hc =>
        obtain ⟨hid, hn⟩ := Ledger.issued_perform hc h
        refine ⟨hid, ?_⟩
        rw [act, move, step_perform hp hc]
        exact hn
      · cases h
    · cases h
  · cases h

/-- Ids are issued in ascending order, so that none is issued twice. -/
theorem issued_ascending (g : Hall α) (deeds : List (Deed α)) :
    (g.issued deeds).Pairwise (· < ·) ∧ ∀ id ∈ g.issued deeds, g.ledger.nextId ≤ id := by
  induction deeds generalizing g with
  | nil => exact ⟨.nil, by simp [issued]⟩
  | cons d rest ih =>
    obtain ⟨hpairwise, hbound⟩ := ih (g.act d)
    have hlater : ∀ id ∈ (g.act d).issued rest, g.ledger.nextId ≤ id :=
      fun id hid => Int.le_trans (g.nextId_le_act d) (hbound id hid)
    cases hi : g.issuedBy d with
    | none =>
      rw [issued, hi, Option.toList_none, List.nil_append]
      exact ⟨hpairwise, hlater⟩
    | some id =>
      obtain ⟨rfl, hn⟩ := issuedBy_eq_some hi
      rw [issued, hi, Option.toList_some, List.singleton_append]
      refine ⟨List.pairwise_cons.mpr ⟨?_, hpairwise⟩,
        List.forall_mem_cons.mpr ⟨Int.le_refl _, hlater⟩⟩
      intro later hl
      have := hbound later hl
      omega

/-- A visit that was alone since it found the ledger as it was leads back there, unless it has ended
well. -/
def Returns (l : Ledger) (g : Hall α) : Visit.Phase α → Prop
  | .waiting _ => g.ledger.Agrees l
  | .inside _ undo => (g.ledger.rollback undo).Agrees l
  | .ended (.ok _) => True
  | .ended (.error _) => g.ledger.Agrees l

theorem Returns.stepped (h : Sound g) {p : Visit.Phase α} (hp : g.phase? i = some p)
    (hr : Returns l g p) (hs : Stepped g i g') : ∃ q, g'.phase? i = some q ∧ Returns l g' q := by
  cases hs with
  | enter hq hm =>
    obtain rfl := Option.some.inj (hp.symm.trans hq)
    exact ⟨_, phase?_setPhase_self hq _, hr⟩
  | finish hq => exact ⟨_, phase?_setPhase_self hq _, trivial⟩
  | fail hq =>
    obtain rfl := Option.some.inj (hp.symm.trans hq)
    exact ⟨_, phase?_setPhase_self (g := { g with ledger := _ }) hq _, hr⟩
  | note hq =>
    obtain rfl := Option.some.inj (hp.symm.trans hq)
    exact ⟨_, phase?_setPhase_self hq _, hr⟩
  | @perform call next undo q hq hc =>
    obtain rfl := Option.some.inj (hp.symm.trans hq)
    refine ⟨_, phase?_setPhase_self (g := { g with ledger := q.ledger }) hq _, ?_⟩
    have hback := (Ledger.perform_revocable h.wellKept hc).agrees
    change (q.ledger.rollback (q.undo ++ undo)).Agrees l
    rw [Ledger.rollback_append]
    exact (hback.rollback undo).trans hr
  | refuse hq hc =>
    obtain rfl := Option.some.inj (hp.symm.trans hq)
    exact ⟨_, phase?_setPhase_self hq _, hr⟩

theorem Returns.play (h : Sound g) {p : Visit.Phase α} (hp : g.phase? i = some p)
    (hr : Returns l g p) (k : Nat) :
    ∃ q, (g.play (List.replicate k (.step i))).phase? i = some q ∧
      Returns l (g.play (List.replicate k (.step i))) q := by
  induction k generalizing g p with
  | zero => exact ⟨p, hp, hr⟩
  | succ k ih =>
    have hm := moved g (.step i)
    rw [List.replicate_succ]
    change ∃ q, ((g.move (.step i)).play _).phase? i = some q ∧
      Returns l ((g.move (.step i)).play _) q
    cases hs : g.step i with
    | none =>
      have hrest : g.move (.step i) = g := by rw [move, hs, Option.getD_none]
      rw [hrest]
      exact ih h hp hr
    | some g' =>
      have hstep : g.move (.step i) = g' := by rw [move, hs, Option.getD_some]
      obtain ⟨q, hq, hr'⟩ := hr.stepped h hp (stepped_of_step hs)
      rw [hstep]
      exact ih (hstep ▸ h.moved hm) hq hr'

theorem Returns.breakOff {p : Visit.Phase α} (hp : g.phase? i = some p) (hr : Returns l g p)
    (hn : ∀ a, p ≠ .ended (.ok a)) (e : Failure) : (g.breakOff i e).ledger.Agrees l := by
  cases p with
  | waiting program =>
    rw [breakOff_waiting e hp]
    exact hr
  | inside rest undo =>
    rw [breakOff_inside e hp]
    exact hr
  | ended result =>
    rw [breakOff_ended e hp]
    cases result with
    | ok a => exact absurd rfl (hn a)
    | error e => exact hr

/-- A step of the visit, or what its caller does to an advisory of an update. -/
def Deed.isOf (i : Nat) : Deed α → Bool
  | .move (.step j) => j = i
  | .renumber j _ _ => j = i
  | _ => false

theorem filterMap_move?_of_isOf {deeds : List (Deed α)} (h : ∀ d ∈ deeds, d.isOf i = true) :
    ∃ k, deeds.filterMap Deed.move? = List.replicate k (.step i) := by
  induction deeds with
  | nil => exact ⟨0, rfl⟩
  | cons d rest ih =>
    obtain ⟨hd, hrest⟩ := List.forall_mem_cons.mp h
    obtain ⟨k, hk⟩ := ih hrest
    match d, hd with
    | .move (.step j), hd =>
      obtain rfl : j = i := of_decide_eq_true hd
      exact ⟨k + 1, by rw [List.replicate_succ, ← hk]; rfl⟩
    | .renumber j n id, hd => exact ⟨k, hk⟩

theorem isFaithful_append (g : Hall α) (ds es : List (Deed α)) :
    g.isFaithful (ds ++ es) = (g.isFaithful ds && (g.acts ds).isFaithful es) := by
  induction ds generalizing g with
  | nil => rfl
  | cons d rest ih =>
    rw [List.cons_append, isFaithful, isFaithful, ih, Bool.and_assoc]
    rfl

/-- A visit that has the ledger to itself leaves no trace when it is broken off. -/
theorem breakOff_alone (h : Sound g.original) (lock : Option String) (program : SessionProgram α)
    {own : List (Deed α)} (howned : ∀ d ∈ own, d.isOf g.visits.length = true) {e : Failure}
    (hown : (g.arrive lock program).isFaithful
      (own ++ [.move (.breakOff g.visits.length e)]) = true)
    (hn : ∀ a, ((g.arrive lock program).acts own).phase? g.visits.length ≠
      some (.ended (.ok a))) :
    (((g.arrive lock program).acts own).breakOff g.visits.length e).ledger.Agrees g.ledger := by
  -- the visit is followed on the hall without any renumbering, whose ledger is the same
  have hsound : Sound (g.arrive lock program).original :=
    original_act (d := .move (.arrive lock program)) h rfl ▸ h.moved (.arrive lock program)
  rw [isFaithful_append, Bool.and_eq_true] at hown
  obtain ⟨k, hk⟩ := filterMap_move?_of_isOf howned
  obtain ⟨hacts, hs⟩ := original_acts hsound hown.1
  have hlast := original_act hs (Bool.and_eq_true_iff.mp hown.2).1
  have harrived : (g.arrive lock program).original.phase? g.visits.length =
      some (.waiting program) := by
    rw [phase?_original, phase?_arrive, if_pos rfl]
    rfl
  obtain ⟨q, hq, hr⟩ :=
    Returns.play (l := g.ledger) hsound harrived (Ledger.Agrees.refl g.ledger) k
  rw [← hk, ← hacts] at hq hr
  have hopen : ∀ a, q ≠ .ended (.ok a) := by
    rintro a rfl
    obtain ⟨p, hp, hpa⟩ := Option.map_eq_some_iff.mp ((phase?_original _ _).symm.trans hq)
    cases p with
    | ended result => exact hn a (hp.trans (congrArg some hpa))
    | _ => cases hpa
  have hledger := congrArg Hall.ledger hlast
  exact hledger ▸ hr.breakOff hq hopen e

/-- In every state that transactions side by side can come to, as long as advisories of updates have
the ids that they were passed with whenever something is taken back: a transaction that then has the
ledger to itself and is broken off or fails, wherever it has come to, leaves every table as it was;
so does one that faults strike. Whatever ids advisories have, a request that fails changes nothing,
and the ids that were issued, also to transactions that were broken off, never come again. -/
theorem abort_exact (deeds : List (Deed α)) :
    let h := ({} : Hall α).acts deeds
    (({} : Hall α).isFaithful deeds = true →
      (∀ (lock : Option String) (program : SessionProgram α) (own : List (Deed α)) (e : Failure),
        (∀ d ∈ own, d.isOf h.visits.length = true) →
        (h.arrive lock program).isFaithful (own ++ [.move (.breakOff h.visits.length e)]) = true →
        let g := (h.arrive lock program).acts own
        (∀ a, g.phase? h.visits.length ≠ some (.ended (.ok a))) →
          (g.breakOff h.visits.length e).ledger.Agrees h.ledger) ∧
      (∀ (β : Type) (program : SessionProgram β) (faults : Faults) (made : List Call.Kind)
        (e : Failure),
        (FaultyLedger.transact program ⟨h.ledger, faults, made⟩).result = .error e →
          (FaultyLedger.transact program ⟨h.ledger, faults, made⟩).state.ledger.Agrees h.ledger)) ∧
    (∀ (i : Nat) (call : Call) (next : Except Failure call.Reply → SessionProgram α)
        (undo : List Undo) (e : Failure),
      h.phase? i = some (.inside (.ask call next) undo) → h.ledger.perform call = .error e →
        (h.act (.move (.step i))).ledger = h.ledger) ∧
    (∀ (call : Call) (t : FaultyLedger.Open) (e : Failure),
      (FaultyLedger.answer call t).1 = .error e →
      (FaultyLedger.answer call t).2.store.ledger = t.store.ledger) ∧
    (∀ later, h.ledger.nextId ≤ (h.acts later).ledger.nextId) ∧
    (issued ({} : Hall α) deeds).Pairwise (· < ·) := by
  intro h
  refine ⟨?_, ?_, ?_, h.nextId_le_acts, (issued_ascending _ deeds).1⟩
  · intro hd
    have hsound : Sound h.original := (original_acts (g := ({} : Hall α)) sound_empty hd).2
    refine ⟨?_, ?_⟩
    · intro lock program own e howned hown g hn
      exact breakOff_alone hsound lock program howned hown hn
    · intro β program faults made e he
      exact FaultyLedger.transact_agrees (s := ⟨h.ledger, faults, made⟩) hsound.wellKept he
  · intro i call next undo e hp hc
    rw [act, move, step_refuse hp hc, Option.getD_some, ledger_setPhase]
  · intro call t e he
    rcases FaultyLedger.answer_cases call t with ⟨p, -, hok, -⟩ | ⟨e', -, hl, -⟩
    · rw [hok] at he
      cases he
    · exact hl

/-- One range of one advisory, attributed and associated. -/
def stocking : SessionProgram Unit := do
  let a ← Call.ask (.insertAdvisory { vulnId := "A" })
  let r ← Call.ask (.insertRange { cpe23 := .text "x" })
  let _ ← Call.ask (.insertAttribution
    (RangeSync.attribution (a.id.getD 0) (r.id.getD 0) .nvd .epoch))
  Call.ask (.setRanges (a.id.getD 0) [r.id.getD 0])

/-- The attribution goes and comes again, an advisory that is there already is refused, and the
advisory is updated. -/
def upheaval : SessionProgram Unit := do
  let _ ← Call.ask (.deleteAttributions 1 [2] .nvd)
  let _ ← Call.ask (.insertAttribution (RangeSync.attribution 1 2 .nvd .epoch))
  let _ ← Dialogue.attempt (.insertAdvisory { vulnId := "A" })
  Call.ask (.updateAdvisory { vulnId := "A", title := some "B", id := some 1 })

def stocked : List (Deed Unit) :=
  .move (.arrive none stocking) :: List.replicate 6 (.move (.step 0))

/-- The caller gives the advisory another id and then its own again. -/
def upheavals : List (Deed Unit) :=
  List.replicate 5 (.move (.step 1)) ++ [.renumber 1 0 7, .renumber 1 0 1]

theorem abort_exact_upheaval :
    let h := ({} : Hall Unit).acts stocked
    let g := (h.arrive none upheaval).acts upheavals
    (g.ledger.advisories.get? 1).bind Advisory.title = some "B" ∧
      (g.ledger.attributions.get? 4).isSome = true ∧
      (g.breakOff 1 .wrongKind).ledger.Agrees h.ledger := by
  refine ⟨by decide +kernel, by decide +kernel, ?_⟩
  refine ((abort_exact stocked).1 (by decide +kernel)).1 none upheaval upheavals .wrongKind ?_ ?_ ?_
  · decide
  · decide +kernel
  · intro a ha
    cases ha

def pair : SessionProgram Unit := do
  let _ ← Call.ask (.insertAdvisory { vulnId := "A" })
  let _ ← Call.ask (.insertAdvisory { vulnId := "B" })

def paired : List (Deed Unit) := .move (.arrive none pair) :: List.replicate 4 (.move (.step 0))

def retitling : SessionProgram Unit :=
  Call.ask (.updateAdvisory { vulnId := "A", title := some "C", id := some 1 })

/-- The caller gives the advisory of the update the id of the other one. -/
def misfiled : List (Deed Unit) := List.replicate 2 (.move (.step 1)) ++ [.renumber 1 0 2]

/-- Broken off then, the transaction leaves its update, and the other advisory is gone. -/
theorem breakOff_misfiled :
    let h := ({} : Hall Unit).acts paired
    let g := ((h.arrive none retitling).acts misfiled).breakOff 1 .wrongKind
    (∀ d ∈ misfiled, d.isOf 1 = true) ∧ g.phase? 1 = some (.ended (.error .wrongKind)) ∧
      (h.ledger.advisories.get? 1).bind Advisory.title = none ∧
      (g.ledger.advisories.get? 1).bind Advisory.title = some "C" ∧
      (h.ledger.advisories.get? 2).map Advisory.vulnId = some "B" ∧
      (g.ledger.advisories.get? 2).map Advisory.vulnId = some "A" ∧ ¬ g.ledger.Agrees h.ledger := by
  refine ⟨by decide, rfl, rfl, rfl, rfl, rfl, fun ha => ?_⟩
  have htitle := congrArg (Option.bind · Advisory.title) (ha.advisories 1)
  cases htitle

end Hall

end AdvisoryLedger

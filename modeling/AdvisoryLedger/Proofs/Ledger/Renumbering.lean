import AdvisoryLedger.Proofs.Ledger.Hall

namespace AdvisoryLedger

namespace Undo

/-- The step as it was handed out: what is put back goes under its own id. -/
def original : Undo → Undo
  | .restoreAdvisory _ previous => .restoreAdvisory (previous.id.getD 0) previous
  | u => u

/-- Nothing is put back under an id other than its own. -/
def isTrue : Undo → Bool
  | .restoreAdvisory id previous => previous.id = some id
  | _ => true

theorem original_renumber (id : Int) (u : Undo) :
    (u.renumber id).original = u.original := by cases u <;> rfl

theorem original_original (u : Undo) : u.original.original = u.original := by cases u <;> rfl

theorem original_of_isTrue {u : Undo} (h : u.isTrue = true) : u.original = u := by
  cases u with
  | restoreAdvisory id previous =>
    have hid : previous.id = some id := of_decide_eq_true h
    simp only [original, hid, Option.getD_some]
  | _ => rfl

theorem Fits.isTrue {bound : Int} {u : Undo} (h : u.Fits bound) : u.isTrue = true := by
  cases u with
  | restoreAdvisory id previous => exact decide_eq_true h.1
  | _ => rfl

variable {undo : List Undo}

theorem map_original_of_isTrue (h : undo.all isTrue = true) : undo.map original = undo := by
  rw [List.map_congr_left fun u hu => original_of_isTrue (List.all_eq_true.mp h u hu), List.map_id']

theorem map_original_modify (undo : List Undo) (n : Nat) (id : Int) :
    (undo.modify n (renumber id)).map original = undo.map original := by
  induction undo generalizing n with
  | nil => cases n <;> rfl
  | cons u rest ih =>
    cases n with
    | zero => simp [original_renumber]
    | succ n => simp [ih]

end Undo

namespace Ledger

variable {l : Ledger} {call : Call} {p : Performed call.Reply}

theorem perform_isTrue (hl : l.WellKept) (h : l.perform call = .ok p) :
    p.undo.all Undo.isTrue = true :=
  List.all_eq_true.mpr fun u hu => (perform_fits hl h u hu).isTrue

theorem map_original_perform (hl : l.WellKept) (h : l.perform call = .ok p) :
    p.undo.map Undo.original = p.undo := Undo.map_original_of_isTrue (perform_isTrue hl h)

end Ledger

namespace Visit

variable {α : Type}

def Phase.original : Phase α → Phase α
  | .inside rest undo => .inside rest (undo.map Undo.original)
  | p => p

def original (v : Visit α) : Visit α := { v with phase := v.phase.original }

@[simp] theorem isInside_original (v : Visit α) : v.original.isInside = v.isInside := by
  obtain ⟨lock, phase⟩ := v
  cases phase <;> rfl

@[simp] theorem isWaiting_original (v : Visit α) : v.original.isWaiting = v.isWaiting := by
  obtain ⟨lock, phase⟩ := v
  cases phase <;> rfl

@[simp] theorem conflicts_original (v w : Visit α) :
    v.original.conflicts w.original = v.conflicts w := rfl

end Visit

namespace Hall

variable {α : Type} {g : Hall α} {i : Nat}

/-- The hall without any renumbering. -/
def original (g : Hall α) : Hall α := { g with visits := g.visits.map Visit.original }

@[simp] theorem ledger_original (g : Hall α) : g.original.ledger = g.ledger := rfl

theorem phase?_original (g : Hall α) (i : Nat) :
    g.original.phase? i = (g.phase? i).map Visit.Phase.original := by
  simp only [phase?, original, List.getElem?_map, Option.map_map]
  rfl

theorem original_setPhase (g : Hall α) (i : Nat) (p : Visit.Phase α) :
    (g.setPhase i p).original = g.original.setPhase i p.original := by
  simp only [original, setPhase]
  congr 1
  refine List.ext_getElem? fun j => ?_
  rw [List.getElem?_map, List.getElem?_modify, List.getElem?_modify, List.getElem?_map]
  split <;> cases g.visits[j]? <;> rfl

theorem mayEnter_original (g : Hall α) (i : Nat) : g.original.mayEnter i = g.mayEnter i := by
  have hany (f : Visit α → Bool) (vs : List (Visit α)) :
      (vs.map Visit.original).any f = vs.any (f ∘ Visit.original) :=
    List.any_map
  simp only [mayEnter, original, List.getElem?_map, ← List.map_take, hany]
  cases g.visits[i]? with
  | none => rfl
  | some v => simp [Function.comp_def]

/-- What may happen, and what the callers of visits may do meanwhile. -/
inductive Deed (α : Type)
  | move (move : Move α)
  | renumber (i n : Nat) (id : Int)

def Deed.move? : Deed α → Option (Move α)
  | .move m => some m
  | .renumber .. => none

def act (g : Hall α) : Deed α → Hall α
  | .move m => g.move m
  | .renumber i n id => g.renumber i n id

def acts (g : Hall α) (deeds : List (Deed α)) : Hall α := deeds.foldl act g

/-- If a deed takes back what a visit did, then all goes back under its own id. -/
def isFaithfulTo (g : Hall α) : Deed α → Bool
  | .move (.step i) =>
    match g.phase? i with
    | some (.inside (.fail _) undo) => undo.all Undo.isTrue
    | _ => true
  | .move (.breakOff i _) =>
    match g.phase? i with
    | some (.inside _ undo) => undo.all Undo.isTrue
    | _ => true
  | _ => true

/-- Whenever something is taken back in the course of deeds, all goes back under its own id. -/
def isFaithful (g : Hall α) : List (Deed α) → Bool
  | [] => true
  | d :: rest => g.isFaithfulTo d && (g.act d).isFaithful rest

theorem setPhase_self {p : Visit.Phase α} (hp : g.phase? i = some p) : g.setPhase i p = g := by
  obtain ⟨v, hv, rfl⟩ := Option.map_eq_some_iff.mp hp
  simp only [setPhase]
  congr 1
  refine List.ext_getElem? fun j => ?_
  rw [List.getElem?_modify]
  split
  · next hij =>
    subst hij
    rw [hv]
    rfl
  · cases g.visits[j]? <;> rfl

theorem ledger_renumber (g : Hall α) (i n : Nat) (id : Int) :
    (g.renumber i n id).ledger = g.ledger := by
  unfold renumber
  split <;> rfl

theorem phase?_renumber_of_ended {r : Except Failure α} (h : g.phase? i = some (.ended r))
    (j n : Nat) (id : Int) : (g.renumber j n id).phase? i = some (.ended r) := by
  have hp : (g.visits[j]?).map Visit.phase = g.phase? j := rfl
  unfold renumber
  rw [hp]
  split
  · next rest undo hphase =>
    have hji : j ≠ i := by
      rintro rfl
      rw [h] at hphase
      cases hphase
    rwa [phase?_setPhase_of_ne hji]
  · exact h

theorem original_renumber (g : Hall α) (i n : Nat) (id : Int) :
    (g.renumber i n id).original = g.original := by
  have hp : (g.visits[i]?).map Visit.phase = g.phase? i := rfl
  unfold renumber
  rw [hp]
  split
  · next rest undo hphase =>
    rw [original_setPhase]
    simp only [Visit.Phase.original, Undo.map_original_modify]
    exact setPhase_self (by rw [phase?_original, hphase]; rfl)
  · rfl

theorem original_step (h : Sound g.original) (hd : g.isFaithfulTo (.move (.step i)) = true) :
    g.original.step i = (g.step i).map original := by
  have hp : (g.visits[i]?).map Visit.phase = g.phase? i := rfl
  have hp' : (g.original.visits[i]?).map Visit.phase = (g.phase? i).map Visit.Phase.original :=
    g.phase?_original i
  unfold step
  rw [hp, hp']
  cases hphase : g.phase? i with
  | none => rfl
  | some p =>
    cases p with
    | waiting program =>
      simp only [Option.map_some, Visit.Phase.original, mayEnter_original]
      split
      · rw [Option.map_some, original_setPhase]
        rfl
      · rfl
    | ended result => rfl
    | inside rest undo =>
      cases rest with
      | done a => simp only [Option.map_some, Visit.Phase.original, original_setPhase]
      | fail e =>
        simp only [isFaithfulTo, hphase] at hd
        simp only [Option.map_some, Visit.Phase.original, original_setPhase,
          Undo.map_original_of_isTrue hd]
        rfl
      | note entry rest => simp only [Option.map_some, Visit.Phase.original, original_setPhase]
      | ask call next =>
        simp only [Option.map_some, Visit.Phase.original, ledger_original]
        cases hc : g.ledger.perform call with
        | error e => simp only [Option.map_some, original_setPhase, Visit.Phase.original]
        | ok q =>
          have hq := Ledger.map_original_perform (l := g.ledger) h.wellKept hc
          simp only [Option.map_some, original_setPhase, Visit.Phase.original, List.map_append, hq]
          rfl

/-- A deed that is faithful does to the hall without any renumbering what the move does alone. -/
theorem original_act (h : Sound g.original) {d : Deed α} (hd : g.isFaithfulTo d = true) :
    (g.act d).original = g.original.play d.move?.toList := by
  cases d with
  | renumber i n id => exact g.original_renumber i n id
  | move m =>
    change (g.move m).original = g.original.move m
    cases m with
    | arrive lock program => simp [move, arrive, original, Visit.original, Visit.Phase.original]
    | step i =>
      rw [move, move, original_step h hd]
      cases g.step i <;> rfl
    | breakOff i e =>
      have hp' := g.phase?_original i
      simp only [move]
      cases hp : g.phase? i with
      | none =>
        rw [hp] at hp'
        rw [breakOff_absent e hp, breakOff_absent e hp']
      | some p =>
        rw [hp] at hp'
        cases p with
        | waiting program =>
          rw [breakOff_waiting e hp, breakOff_waiting e hp', original_setPhase]
          rfl
        | ended result => rw [breakOff_ended e hp, breakOff_ended e hp']
        | inside rest undo =>
          simp only [isFaithfulTo, hp] at hd
          rw [breakOff_inside e hp, breakOff_inside e hp', original_setPhase,
            Undo.map_original_of_isTrue hd]
          rfl

/-- Deeds that are faithful do to the ledger what the moves among them do alone. -/
theorem original_acts (h : Sound g.original) {deeds : List (Deed α)}
    (hd : g.isFaithful deeds = true) :
    (g.acts deeds).original = g.original.play (deeds.filterMap Deed.move?) ∧
      Sound (g.acts deeds).original := by
  induction deeds generalizing g with
  | nil => exact ⟨rfl, h⟩
  | cons d rest ih =>
    obtain ⟨hd, hrest⟩ := Bool.and_eq_true_iff.mp hd
    have hact := original_act h hd
    have hsound : Sound (g.act d).original := hact ▸ (sound_play h _).1
    obtain ⟨hacts, hs⟩ := ih hsound hrest
    refine ⟨hacts.trans ?_, hs⟩
    rw [hact]
    cases d <;> rfl

end Hall

end AdvisoryLedger

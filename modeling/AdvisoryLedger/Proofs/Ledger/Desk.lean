import AdvisoryLedger.Proofs.Ledger.Renumbering
import AdvisoryLedger.Proofs.Ledger.Transaction

namespace AdvisoryLedger

/-- A ledger and the way back to where the open transaction began. -/
structure Desk where
  ledger : Ledger := {}
  undo : List Undo := []

/-- A property of ledgers that does not depend on the order of rows, nor on ids that were used
up. -/
def Ledger.Passes (P : Ledger → Prop) : Prop :=
  ∀ l m : Ledger, l.WellKept → m.WellKept → m.Agrees l → l.nextId ≤ m.nextId → P l → P m

namespace Desk

/-- A request, or the end of the open transaction. After an end the next transaction is open.
Meanwhile the caller may give the advisory of an update another id; updates go by the step that
takes them back, counted from the last. -/
inductive Move
  | call (call : Call)
  | renumber (n : Nat) (id : Int)
  | commit
  | abort

/-- A request that fails leaves the transaction open, to be ended either way. -/
def move (d : Desk) : Move → Desk
  | .call c =>
    match d.ledger.perform c with
    | .ok p => ⟨p.ledger, p.undo ++ d.undo⟩
    | .error _ => d
  | .renumber n id => { d with undo := d.undo.modify n (.renumber id) }
  | .commit => ⟨d.ledger, []⟩
  | .abort => ⟨d.ledger.rollback d.undo, []⟩

def play (d : Desk) (moves : List Move) : Desk := moves.foldl move d

/-- The ledger that the open transaction found, up to the order of rows. -/
def back (d : Desk) : Ledger := d.ledger.rollback (d.undo.map Undo.original)

/-- All that would be taken back goes under its own id. -/
def isTrue (d : Desk) : Bool := d.undo.all Undo.isTrue

/-- Whenever a transaction is aborted, the advisories of its updates have the ids that they were
passed with. -/
def isFaithful : Desk → List Move → Bool
  | _, [] => true
  | d, .abort :: rest => d.isTrue && (d.move .abort).isFaithful rest
  | d, m :: rest => (d.move m).isFaithful rest

theorem play_append (d : Desk) (ms ns : List Move) : d.play (ms ++ ns) = (d.play ms).play ns :=
  List.foldl_append

theorem back_of_isTrue {d : Desk} (h : d.isTrue = true) : d.ledger.rollback d.undo = d.back := by
  rw [back, Undo.map_original_of_isTrue h]

theorem isFaithful_cons {d : Desk} {m : Move} {rest : List Move}
    (h : d.isFaithful (m :: rest) = true) :
    (m = .abort → d.isTrue = true) ∧ (d.move m).isFaithful rest = true := by
  cases m with
  | abort =>
    obtain ⟨htrue, hrest⟩ := Bool.and_eq_true_iff.mp h
    exact ⟨fun _ => htrue, hrest⟩
  | _ => exact ⟨by simp, h⟩

theorem isFaithful_append (d : Desk) (ms ns : List Move) :
    d.isFaithful (ms ++ ns) = (d.isFaithful ms && (d.play ms).isFaithful ns) := by
  induction ms generalizing d with
  | nil => rfl
  | cons m rest ih =>
    cases m with
    | abort =>
      rw [List.cons_append, isFaithful, isFaithful, ih, Bool.and_assoc]
      rfl
    | _ => exact ih _

/-- Requests hand out nothing but what is true, whichever way the transaction ends. -/
theorem isFaithful_calls {d : Desk} (hl : d.ledger.WellKept) (hd : d.isTrue = true)
    (calls : List Call) (last : Move) :
    d.isFaithful (calls.map .call ++ [last]) = true := by
  induction calls generalizing d with
  | nil => cases last <;> simp [isFaithful, hd]
  | cons c rest ih =>
    change (d.move (.call c)).isFaithful (rest.map .call ++ [last]) = true
    cases hp : d.ledger.perform c with
    | error e =>
      simp only [move, hp]
      exact ih hl hd
    | ok p =>
      simp only [move, hp]
      refine ih (Ledger.perform_revocable hl hp).wellKept ?_
      rw [isTrue, List.all_append, Ledger.perform_isTrue hl hp, Bool.true_and]
      exact hd

/-- Both ends of the open transaction are well kept and have a property. -/
structure Keeps (P : Ledger → Prop) (d : Desk) : Prop where
  wellKept : d.ledger.WellKept
  wellKept_back : d.back.WellKept
  now : P d.ledger
  before : P d.back

variable {P Q : Ledger → Prop} {d : Desk}

theorem keeps_empty (h : P {}) : Keeps P {} := ⟨Ledger.wellKept_empty, Ledger.wellKept_empty, h, h⟩

namespace Keeps

theorem nextId_back (h : d.Keeps P) : d.back.nextId = d.ledger.nextId :=
  (h.wellKept.distinct.rollback _).2

theorem imp (h : d.Keeps P)
    (hpq : ∀ l : Ledger, l.WellKept → l.nextId = d.ledger.nextId → P l → Q l) :
    d.Keeps Q :=
  ⟨h.wellKept, h.wellKept_back, hpq _ h.wellKept rfl h.now,
    hpq _ h.wellKept_back h.nextId_back h.before⟩

theorem perform (hP : Ledger.Passes P) (h : d.Keeps P) {c : Call} {p : Ledger.Performed c.Reply}
    (hp : d.ledger.perform c = .ok p) (hnow : P p.ledger) :
    Keeps P ⟨p.ledger, p.undo ++ d.undo⟩ := by
  have hr := Ledger.perform_revocable h.wellKept hp
  have hundo : (p.undo ++ d.undo).map Undo.original = p.undo ++ d.undo.map Undo.original := by
    rw [List.map_append, Ledger.map_original_perform h.wellKept hp]
  have hback : (back ⟨p.ledger, p.undo ++ d.undo⟩).Agrees d.back := by
    rw [back, hundo, Ledger.rollback_append]
    exact hr.agrees.rollback _
  obtain ⟨hdistinct, hn⟩ : (back ⟨p.ledger, p.undo ++ d.undo⟩).DistinctKeys ∧
      (back ⟨p.ledger, p.undo ++ d.undo⟩).nextId =
        p.ledger.nextId := hr.wellKept.distinct.rollback _
  have hle : d.back.nextId ≤ (back ⟨p.ledger, p.undo ++ d.undo⟩).nextId := by
    rw [hn, h.nextId_back]
    exact hr.nextId_le
  have hw := h.wellKept_back.of_agrees hback hdistinct hle
  exact ⟨hr.wellKept, hw, hnow, hP _ _ h.wellKept_back hw hback hle h.before⟩

theorem nextId_le (h : d.Keeps P) (m : Move) : d.ledger.nextId ≤ (d.move m).ledger.nextId := by
  cases m with
  | call c =>
    cases hp : d.ledger.perform c with
    | error e => simp only [Desk.move, hp, Int.le_refl]
    | ok p => simpa only [Desk.move, hp] using (Ledger.perform_revocable h.wellKept hp).nextId_le
  | renumber n id => exact Int.le_refl _
  | commit => exact Int.le_refl _
  | abort => exact Int.le_of_eq (h.wellKept.distinct.rollback d.undo).2.symm

/-- What a request keeps is kept by every move: an end of a transaction leads to what held
before. -/
theorem move (hP : Ledger.Passes P) (h : d.Keeps P) (m : Move) (hd : m = .abort → d.isTrue = true)
    (hm : ∀ c (p : Ledger.Performed c.Reply), m = .call c → d.ledger.perform c = .ok p →
      P p.ledger) :
    (d.move m).Keeps P := by
  cases m with
  | call c =>
    cases hp : d.ledger.perform c with
    | error e => simpa only [Desk.move, hp] using h
    | ok p => simpa only [Desk.move, hp] using h.perform hP hp (hm c p rfl hp)
  | renumber n id =>
    have hback : (d.move (.renumber n id)).back = d.back := by
      simp only [Desk.move, back, Undo.map_original_modify]
    exact ⟨h.wellKept, hback.symm ▸ h.wellKept_back, h.now, hback.symm ▸ h.before⟩
  | commit => exact ⟨h.wellKept, h.wellKept, h.now, h.now⟩
  | abort =>
    have hledger : d.move .abort = ⟨d.back, []⟩ := congrArg (Desk.mk · []) (back_of_isTrue (hd rfl))
    rw [hledger]
    exact ⟨h.wellKept_back, h.wellKept_back, h.before, h.before⟩

theorem play (hP : Ledger.Passes P) (h : d.Keeps P)
    (hm : ∀ (l : Ledger) c (p : Ledger.Performed c.Reply), l.WellKept → P l →
      l.perform c = .ok p → P p.ledger)
    {moves : List Move} (hd : d.isFaithful moves = true) : (d.play moves).Keeps P := by
  induction moves generalizing d with
  | nil => exact h
  | cons m rest ih =>
    obtain ⟨hd, hrest⟩ := isFaithful_cons hd
    exact ih (h.move hP m hd fun c p _ hp => hm _ c p h.wellKept h.now hp) hrest

end Keeps

end Desk

namespace FaultyLedger

variable {α : Type}

/-- What a transaction in progress has in front of it. -/
def Open.desk (t : Open) : Desk := ⟨t.store.ledger, t.undo⟩

theorem run_eq_play (program : SessionProgram α) (t : Open) :
    ∃ calls : List Call, (program.run answer t).state.desk = t.desk.play (calls.map .call) := by
  induction program generalizing t with
  | done a => exact ⟨[], rfl⟩
  | fail e => exact ⟨[], rfl⟩
  | note entry rest ih => exact ih t
  | ask c next ih =>
    obtain ⟨calls, hcalls⟩ := ih (answer c t).1 (answer c t).2
    rcases answer_cases c t with ⟨p, hp, -, hl, hu⟩ | ⟨e, -, hl, hu⟩
    · have hd : (answer c t).2.desk = t.desk.move (.call c) := by
        rw [Open.desk, hl, hu, Desk.move, Open.desk, hp]
      exact ⟨c :: calls, hcalls.trans (congrArg (Desk.play · _) hd)⟩
    · have hd : (answer c t).2.desk = t.desk := by rw [Open.desk, hl, hu, Open.desk]
      exact ⟨calls, hcalls.trans (congrArg (Desk.play · _) hd)⟩

/-- A transaction is a sequence of requests and an end, whatever faults strike it, and leaves no
transaction open. -/
theorem transact_eq_play (program : SessionProgram α) (s : FaultyLedger) :
    ∃ (calls : List Call) (last : Desk.Move),
      Desk.play ⟨s.ledger, []⟩ (calls.map .call ++ [last]) =
        ⟨(s.transact program).state.ledger, []⟩ := by
  obtain ⟨calls, hcalls⟩ := run_eq_play program ⟨s, []⟩
  have hplay (last : Desk.Move) : Desk.play ⟨s.ledger, []⟩ (calls.map .call ++ [last]) =
      Desk.move (program.run answer ⟨s, []⟩).state.desk last := by
    rw [Desk.play_append, hcalls]
    rfl
  cases hr : (program.run answer ⟨s, []⟩).result with
  | ok a =>
    refine ⟨calls, .commit, (hplay .commit).trans ?_⟩
    simp only [transact, hr]
    rfl
  | error e =>
    refine ⟨calls, .abort, (hplay .abort).trans ?_⟩
    simp only [transact, hr]
    rfl

end FaultyLedger

end AdvisoryLedger

import AdvisoryLedger.Ledger.Hall
import AdvisoryLedger.Proofs.Ledger.Rollback

namespace AdvisoryLedger

namespace Undo

/-- What a step puts back carries its own id, below the counter, or ascends where it is a set of
rows. -/
def Fits (bound : Int) : Undo → Prop
  | .restoreAdvisory id a => a.id = some id ∧ id < bound
  | .restoreAttribution id a => a.id = some id ∧ id < bound
  | .restoreAssociation _ s => s.Pairwise (· < ·)
  | _ => True

theorem Fits.mono {bound bound' : Int} {u : Undo} (h : u.Fits bound) (hb : bound ≤ bound') :
    u.Fits bound' := by
  cases u with
  | restoreAdvisory id a => exact ⟨h.1, Int.lt_of_lt_of_le h.2 hb⟩
  | restoreAttribution id a => exact ⟨h.1, Int.lt_of_lt_of_le h.2 hb⟩
  | restoreAssociation id s => exact h
  | _ => trivial

end Undo

namespace Ledger

variable {l : Ledger}

theorem WellKept.apply (h : l.WellKept) {u : Undo} (hu : u.Fits l.nextId) :
    (Undo.apply l u).WellKept := by
  have hd : (Undo.apply l u).DistinctKeys := (h.distinct.rollback [u]).1
  cases u with
  | eraseAdvisory id => exact { h with distinct := hd, advisories := h.advisories.filter h.distinct.advisories _ }
  | restoreAdvisory id a => exact { h with distinct := hd, advisories := h.advisories.put hu.1 hu.2 }
  | eraseRange id => exact { h with distinct := hd, ranges := h.ranges.filter h.distinct.ranges _ }
  | eraseAttribution id =>
    exact { h with
      distinct := hd
      attributions := h.attributions.filter h.distinct.attributions _ }
  | restoreAttribution id a => exact { h with distinct := hd, attributions := h.attributions.put hu.1 hu.2 }
  | restoreLastSeen id t =>
    exact { h with
      distinct := hd
      attributions := h.attributions.modify id (fun a => { a with lastSeen := t }) fun _ => rfl }
  | restoreAssociation id s =>
    refine { h with distinct := hd, ascending := ?_ }
    intro v
    rw [Undo.apply, associated_put]
    split
    · exact hu
    · exact h.ascending v
  | eraseConfig key => exact { h with distinct := hd }
  | restoreConfig key v => exact { h with distinct := hd }

theorem WellKept.rollback (h : l.WellKept) {undo : List Undo} (hu : ∀ u ∈ undo, u.Fits l.nextId) :
    (l.rollback undo).WellKept ∧ (l.rollback undo).nextId = l.nextId := by
  induction undo generalizing l with
  | nil => exact ⟨h, rfl⟩
  | cons u rest ih =>
    obtain ⟨hu, hrest⟩ := List.forall_mem_cons.mp hu
    have hn : (Undo.apply l u).nextId = l.nextId := (h.distinct.rollback [u]).2
    obtain ⟨hw, hn'⟩ := ih (h.apply hu) fun v hv => hn.symm ▸ hrest v hv
    exact ⟨hw, hn'.trans hn⟩

/-- What a request hands out to be put back fits into the ledger that it leaves. -/
theorem perform_fits (hl : l.WellKept) {call : Call} {p : Performed call.Reply}
    (h : l.perform call = .ok p) :
    ∀ u ∈ p.undo, u.Fits p.ledger.nextId := by
  cases performs_of_perform h with
  | read _ reply => simp
  | insertAdvisory _ => simp [Undo.Fits]
  | @updateAdvisory a previous id ha hp => simpa [Undo.Fits] using hl.advisories id previous hp
  | insertRange r => simp [Undo.Fits]
  | insertAttribution _ => simp [Undo.Fits]
  | touchAttributions =>
    intro u hu
    obtain ⟨row, -, rfl⟩ := List.mem_map.mp (List.mem_reverse.mp hu)
    trivial
  | deleteAttributions =>
    intro u hu
    obtain ⟨row, hrow, rfl⟩ := List.mem_map.mp (List.mem_reverse.mp hu)
    exact hl.attributions row.1 row.2
      (Table.get?_of_mem hl.distinct.attributions (List.mem_filter.mp hrow).1)
  | setRanges id ids => simpa [Undo.Fits] using hl.ascending id
  | setConfig group name value =>
    intro u hu
    obtain rfl := List.mem_singleton.mp hu
    split <;> trivial

end Ledger

namespace Hall

variable {α : Type} {g g' : Hall α} {i j : Nat}

def phase? (g : Hall α) (i : Nat) : Option (Visit.Phase α) := (g.visits[i]?).map Visit.phase

@[simp] theorem phase?_withLedger (g : Hall α) (l : Ledger) (i : Nat) :
    phase? { g with ledger := l } i = g.phase? i := rfl

@[simp] theorem ledger_setPhase (g : Hall α) (i : Nat) (p : Visit.Phase α) :
    (g.setPhase i p).ledger = g.ledger := rfl

theorem phase?_setPhase (g : Hall α) (i j : Nat) (p : Visit.Phase α) :
    (g.setPhase i p).phase? j = if i = j then (g.phase? j).map fun _ => p else g.phase? j := by
  simp only [phase?, setPhase, List.getElem?_modify, Option.map_map]
  split <;> cases g.visits[j]? <;> simp_all

theorem phase?_setPhase_self {q : Visit.Phase α} (hq : g.phase? i = some q) (p : Visit.Phase α) :
    (g.setPhase i p).phase? i = some p := by
  rw [phase?_setPhase, if_pos rfl, hq, Option.map_some]

theorem phase?_setPhase_of_ne (hij : i ≠ j) (p : Visit.Phase α) :
    (g.setPhase i p).phase? j = g.phase? j := by
  rw [phase?_setPhase, if_neg hij]

theorem phase?_arrive (g : Hall α) (lock : Option String) (program : SessionProgram α) (i : Nat) :
    (g.arrive lock program).phase? i = if i = g.visits.length then some (.waiting program)
      else g.phase? i := by
  simp only [phase?, arrive]
  rcases Nat.lt_trichotomy i g.visits.length with hi | rfl | hi
  · rw [List.getElem?_append_left hi, if_neg (by omega)]
  · simp
  · have hnone : g.visits[i]? = none := List.getElem?_eq_none (by omega)
    rw [List.getElem?_append_right (by omega), if_neg (by omega), hnone]
    simp [show i - g.visits.length ≠ 0 by omega]

/-- All that a step of a visit can do. -/
inductive Stepped (g : Hall α) (i : Nat) : Hall α → Prop
  | enter {program : SessionProgram α} (hp : g.phase? i = some (.waiting program))
    (hm : g.mayEnter i = true) :
    Stepped g i (g.setPhase i (.inside program []))
  | finish {a : α} {undo : List Undo} (hp : g.phase? i = some (.inside (.done a) undo)) :
    Stepped g i (g.setPhase i (.ended (.ok a)))
  | fail {e : Failure} {undo : List Undo} (hp : g.phase? i = some (.inside (.fail e) undo)) :
    Stepped g i ({ g with ledger := g.ledger.rollback undo }.setPhase i (.ended (.error e)))
  | note {entry : LogEntry} {rest : SessionProgram α} {undo : List Undo}
    (hp : g.phase? i = some (.inside (.note entry rest) undo)) :
    Stepped g i (g.setPhase i (.inside rest undo))
  | perform {call : Call} {next : Except Failure call.Reply → SessionProgram α} {undo : List Undo}
    {p : Ledger.Performed call.Reply} (hp : g.phase? i = some (.inside (.ask call next) undo))
    (hc : g.ledger.perform call = .ok p) :
    Stepped g i ({ g with ledger := p.ledger }.setPhase i
      (.inside (next (.ok p.reply)) (p.undo ++ undo)))
  | refuse {call : Call} {next : Except Failure call.Reply → SessionProgram α} {undo : List Undo}
    {e : Failure} (hp : g.phase? i = some (.inside (.ask call next) undo))
    (hc : g.ledger.perform call = .error e) :
    Stepped g i (g.setPhase i (.inside (next (.error e)) undo))

theorem stepped_of_step (hs : g.step i = some g') : Stepped g i g' := by
  unfold step at hs
  split at hs
  · next program hp =>
    split at hs
    · next hm =>
      obtain rfl := Option.some.inj hs
      exact .enter hp hm
    · cases hs
  · next a undo hp =>
    obtain rfl := Option.some.inj hs
    exact .finish hp
  · next e undo hp =>
    obtain rfl := Option.some.inj hs
    exact .fail hp
  · next entry rest undo hp =>
    obtain rfl := Option.some.inj hs
    exact .note hp
  · next call next undo hp =>
    split at hs
    · next p hc =>
      obtain rfl := Option.some.inj hs
      exact .perform hp hc
    · next e hc =>
      obtain rfl := Option.some.inj hs
      exact .refuse hp hc
  · cases hs
  · cases hs

section Phases

variable {rest : SessionProgram α} {call : Call} {next : Except Failure call.Reply → SessionProgram α}
  {undo : List Undo}

theorem step_perform (hp : g.phase? i = some (.inside (.ask call next) undo))
    {p : Ledger.Performed call.Reply} (hc : g.ledger.perform call = .ok p) :
    g.step i = some ({ g with ledger := p.ledger }.setPhase i
      (.inside (next (.ok p.reply)) (p.undo ++ undo))) := by
  rw [phase?] at hp
  simp only [step, hp, hc]

theorem step_refuse (hp : g.phase? i = some (.inside (.ask call next) undo)) {e : Failure}
    (hc : g.ledger.perform call = .error e) :
    g.step i = some (g.setPhase i (.inside (next (.error e)) undo)) := by
  rw [phase?] at hp
  simp only [step, hp, hc]

variable (e : Failure)

theorem breakOff_waiting (hp : g.phase? i = some (.waiting rest)) :
    g.breakOff i e = g.setPhase i (.ended (.error e)) := by
  rw [phase?] at hp
  simp only [breakOff, hp]

theorem breakOff_inside (hp : g.phase? i = some (.inside rest undo)) :
    g.breakOff i e =
      { g with ledger := g.ledger.rollback undo }.setPhase i (.ended (.error e)) := by
  rw [phase?] at hp
  simp only [breakOff, hp]

theorem breakOff_ended {result : Except Failure α} (hp : g.phase? i = some (.ended result)) :
    g.breakOff i e = g := by
  rw [phase?] at hp
  simp only [breakOff, hp]

theorem breakOff_absent (hp : g.phase? i = none) : g.breakOff i e = g := by
  rw [phase?] at hp
  simp only [breakOff, hp]

end Phases

/-- What may happen next: a transaction arrives, one takes a step, or one is broken off. -/
inductive Move (α : Type)
  | arrive (lock : Option String) (program : SessionProgram α)
  | step (i : Nat)
  | breakOff (i : Nat) (e : Failure)

def move (g : Hall α) : Move α → Hall α
  | .arrive lock program => g.arrive lock program
  | .step i => (g.step i).getD g
  | .breakOff i e => g.breakOff i e

def play (g : Hall α) (moves : List (Move α)) : Hall α := moves.foldl move g

/-- All that a move can do. -/
inductive Moved (g : Hall α) : Hall α → Prop
  | rest : Moved g g
  | arrive (lock : Option String) (program : SessionProgram α) : Moved g (g.arrive lock program)
  | step {i : Nat} {g' : Hall α} (hs : Stepped g i g') : Moved g g'
  | turnAway {i : Nat} {program : SessionProgram α} (hp : g.phase? i = some (.waiting program))
    (e : Failure) :
    Moved g (g.setPhase i (.ended (.error e)))
  | breakOff {i : Nat} {rest : SessionProgram α} {undo : List Undo}
    (hp : g.phase? i = some (.inside rest undo)) (e : Failure) :
    Moved g ({ g with ledger := g.ledger.rollback undo }.setPhase i (.ended (.error e)))

theorem moved (g : Hall α) (m : Move α) : Moved g (g.move m) := by
  cases m with
  | arrive lock program => exact .arrive lock program
  | step i =>
    simp only [move]
    cases hs : g.step i with
    | none => exact .rest
    | some g' => exact .step (stepped_of_step hs)
  | breakOff i e =>
    simp only [move, Hall.breakOff]
    split
    · next hp => exact .turnAway hp e
    · next hp => exact .breakOff hp e
    · exact .rest

/-- The ledger is well kept, and what visits inside would put back fits into it. -/
structure Sound (h : Hall α) : Prop where
  wellKept : h.ledger.WellKept
  fits : ∀ i rest undo, h.phase? i = some (.inside rest undo) → ∀ u ∈ undo, u.Fits h.ledger.nextId

theorem sound_empty : Sound ({} : Hall α) where
  wellKept := Ledger.wellKept_empty
  fits i rest undo hp := by simp [phase?] at hp

namespace Sound

/-- One visit goes on while the ledger changes, and the other visits stay where they are. -/
theorem setPhase (h : Sound g) {l : Ledger} (hl : l.WellKept) (hn : g.ledger.nextId ≤ l.nextId)
    {p : Visit.Phase α} (hp : ∀ rest undo, p = .inside rest undo → ∀ u ∈ undo, u.Fits l.nextId)
    (i : Nat) :
    Sound ({ g with ledger := l }.setPhase i p) where
  wellKept := hl
  fits j rest undo hj := by
    by_cases hij : i = j
    · subst hij
      rw [phase?_setPhase, if_pos rfl, Option.map_eq_some_iff] at hj
      obtain ⟨-, -, hj⟩ := hj
      exact hp rest undo hj
    · rw [phase?_setPhase_of_ne hij] at hj
      exact fun u hu => (h.fits j rest undo hj u hu).mono hn

theorem stepped (h : Sound g) (hs : Stepped g i g') : Sound g' := by
  have hle : g.ledger.nextId ≤ g.ledger.nextId := Int.le_refl _
  cases hs with
  | enter hp hm => exact h.setPhase h.wellKept hle (by simp) i
  | finish hp => exact h.setPhase h.wellKept hle (by simp) i
  | fail hp =>
    obtain ⟨hw, hn⟩ := h.wellKept.rollback (h.fits i _ _ hp)
    exact h.setPhase hw (Int.le_of_eq hn.symm) (by simp) i
  | note hp =>
    refine h.setPhase h.wellKept hle ?_ i
    rintro rest undo ⟨⟩
    exact h.fits i _ _ hp
  | perform hp hc =>
    have hr := Ledger.perform_revocable h.wellKept hc
    refine h.setPhase hr.wellKept hr.nextId_le ?_ i
    rintro rest undo ⟨⟩ u hu
    rcases List.mem_append.mp hu with hu | hu
    · exact Ledger.perform_fits h.wellKept hc u hu
    · exact (h.fits i _ _ hp u hu).mono hr.nextId_le
  | refuse hp hc =>
    refine h.setPhase h.wellKept hle ?_ i
    rintro rest undo ⟨⟩
    exact h.fits i _ _ hp

theorem moved (h : Sound g) (hm : Moved g g') : Sound g' := by
  cases hm with
  | rest => exact h
  | arrive lock program =>
    refine ⟨h.wellKept, ?_⟩
    intro i rest undo hi
    rw [phase?_arrive] at hi
    split at hi
    · cases hi
    · exact h.fits i rest undo hi
  | step hs => exact h.stepped hs
  | turnAway hp e => exact h.setPhase h.wellKept (Int.le_refl _) (by simp) _
  | breakOff hp e =>
    obtain ⟨hw, hn⟩ := h.wellKept.rollback (h.fits _ _ _ hp)
    exact h.setPhase hw (Int.le_of_eq hn.symm) (by simp) _

end Sound

theorem Sound.nextId_le (h : Sound g) (hm : Moved g g') : g.ledger.nextId ≤ g'.ledger.nextId := by
  cases hm with
  | rest => exact Int.le_refl _
  | arrive lock program => exact Int.le_refl _
  | turnAway hp e => exact Int.le_refl _
  | breakOff hp e => exact Int.le_of_eq (h.wellKept.rollback (h.fits _ _ _ hp)).2.symm
  | step hs =>
    cases hs with
    | fail hp => exact Int.le_of_eq (h.wellKept.rollback (h.fits _ _ _ hp)).2.symm
    | perform hp hc => exact (Ledger.perform_revocable h.wellKept hc).nextId_le
    | _ => exact Int.le_refl _

/-- Whatever happens, the ledger stays well kept and gives no id back. -/
theorem sound_play (h : Sound g) (moves : List (Move α)) :
    Sound (g.play moves) ∧ g.ledger.nextId ≤ (g.play moves).ledger.nextId := by
  induction moves generalizing g with
  | nil => exact ⟨h, Int.le_refl _⟩
  | cons m rest ih =>
    have hm := moved g m
    obtain ⟨hs, hn⟩ := ih (h.moved hm)
    exact ⟨hs, Int.le_trans (h.nextId_le hm) hn⟩

end Hall

end AdvisoryLedger

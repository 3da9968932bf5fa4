import AdvisoryLedger.Proofs.Ledger.Interference

namespace AdvisoryLedger

namespace Hall

variable {α : Type} {g : Hall α} {i j : Nat}

def Within (g : Hall α) (i : Nat) : Prop := ∃ rest undo, g.phase? i = some (.inside rest undo)

def Waits (g : Hall α) (i : Nat) : Prop := ∃ program, g.phase? i = some (.waiting program)

theorem within_setPhase_of_ne (hij : i ≠ j) (p : Visit.Phase α) : (g.setPhase i p).Within j ↔
    g.Within j := by
  rw [Within, Within, phase?_setPhase_of_ne hij]

theorem within_setPhase_self {q : Visit.Phase α} (hq : g.phase? i = some q) (p : Visit.Phase α) :
    (g.setPhase i p).Within i ↔ ∃ rest undo, p = .inside rest undo := by
  simp only [Within, phase?_setPhase_self hq, Option.some.injEq]

/-- The lock of a visit, if there is such a visit. -/
def lock? (g : Hall α) (i : Nat) : Option (Option String) := (g.visits[i]?).map Visit.lock

theorem lock?_setPhase (g : Hall α) (i j : Nat) (p : Visit.Phase α) :
    (g.setPhase i p).lock? j = g.lock? j := by
  simp only [lock?, setPhase, List.getElem?_modify]
  split <;> cases g.visits[j]? <;> rfl

theorem lock?_arrive (g : Hall α) (lock : Option String) (program : SessionProgram α) (i : Nat) :
    (g.arrive lock program).lock? i = if i = g.visits.length then some lock else g.lock? i := by
  simp only [lock?, arrive]
  rcases Nat.lt_trichotomy i g.visits.length with hi | rfl | hi
  · rw [List.getElem?_append_left hi, if_neg (by omega)]
  · simp
  · have hnone : g.visits[i]? = none := List.getElem?_eq_none (by omega)
    rw [List.getElem?_append_right (by omega), if_neg (by omega), hnone]
    simp [show i - g.visits.length ≠ 0 by omega]

theorem within_iff {v : Visit α} (h : g.visits[i]? = some v) : g.Within i ↔ v.isInside = true := by
  simp only [Within, phase?, h, Option.map_some, Option.some.injEq, Visit.isInside]
  cases v.phase <;> simp

theorem waits_iff {v : Visit α} (h : g.visits[i]? = some v) : g.Waits i ↔ v.isWaiting = true := by
  simp only [Waits, phase?, h, Option.map_some, Option.some.injEq, Visit.isWaiting]
  cases v.phase <;> simp

theorem exists_visit_of_lock? {lock : Option String} (h : g.lock? i = some lock) :
    ∃ v, g.visits[i]? = some v ∧ v.lock = lock := Option.map_eq_some_iff.mp h

/-- A visit may enter when nobody with its lock is inside, or waits and came before it. -/
theorem mayEnter_iff {key : String} (hkey : key ≠ "") (hi : g.lock? i = some (some key)) :
    g.mayEnter i = true ↔ g.Waits i ∧
      ∀ j, g.lock? j = some (some key) → ¬ g.Within j ∧ (j < i → ¬ g.Waits j) := by
  obtain ⟨v, hv, hlock⟩ := exists_visit_of_lock? hi
  have conflicts (w : Visit α) : v.conflicts w = true ↔ w.lock = some key := by
    simp [Visit.conflicts, hlock, hkey]
  rw [mayEnter, hv, waits_iff hv]
  simp only [Bool.and_eq_true, Bool.not_eq_true', List.any_eq_false, Bool.and_eq_true, conflicts,
    and_assoc]
  refine and_congr_right fun _ => ⟨?_, ?_⟩
  · rintro ⟨hinside, hwaiting⟩ j hj
    obtain ⟨w, hw, hwl⟩ := exists_visit_of_lock? hj
    rw [within_iff hw, waits_iff hw]
    refine ⟨fun h => hinside w (List.mem_of_getElem? hw) ⟨h, hwl⟩, fun hji h => ?_⟩
    exact hwaiting w (List.mem_of_getElem? (i := j) (by rw [List.getElem?_take_of_lt hji, hw]))
      ⟨h, hwl⟩
  · intro h
    refine ⟨?_, ?_⟩
    · rintro w hw ⟨hinside, hwl⟩
      obtain ⟨j, hj⟩ := List.mem_iff_getElem?.mp hw
      exact (h j (by rw [lock?, hj, Option.map_some, hwl])).1 ((within_iff hj).mpr hinside)
    · rintro w hw ⟨hwaiting, hwl⟩
      obtain ⟨j, hj⟩ := List.mem_iff_getElem?.mp hw
      rw [List.getElem?_take] at hj
      split at hj
      · next hji =>
        exact (h j (by rw [lock?, hj, Option.map_some, hwl])).2 hji ((waits_iff hj).mpr hwaiting)
      · cases hj

def entering (g : Hall α) : Move α → Option Nat
  | .step i =>
    match g.phase? i with
    | some (.waiting _) => if g.mayEnter i then some i else none
    | _ => none
  | _ => none

/-- The visits in the order in which moves let them in. -/
def order (g : Hall α) : List (Move α) → List Nat
  | [] => []
  | m :: rest => (g.entering m).toList ++ (g.move m).order rest

/-- What a move does, and whom it lets in. -/
inductive Went (g : Hall α) : Move α → Option Nat → Hall α → Prop
  | rest (m : Move α) : Went g m none g
  | arrive (lock : Option String) (program : SessionProgram α) :
    Went g (.arrive lock program) none (g.arrive lock program)
  | enter {i : Nat} {program : SessionProgram α} (hp : g.phase? i = some (.waiting program))
    (hm : g.mayEnter i = true) : Went g (.step i) (some i) (g.setPhase i (.inside program []))
  | onward {i : Nat} {rest : SessionProgram α} {undo : List Undo} {g' : Hall α}
    (hp : g.phase? i = some (.inside rest undo)) (hs : Stepped g i g') : Went g (.step i) none g'
  | turnAway {i : Nat} {program : SessionProgram α} (hp : g.phase? i = some (.waiting program))
    (e : Failure) :
    Went g (.breakOff i e) none (g.setPhase i (.ended (.error e)))
  | breakOff {i : Nat} {rest : SessionProgram α} {undo : List Undo}
    (hp : g.phase? i = some (.inside rest undo)) (e : Failure) :
    Went g (.breakOff i e) none
      ({ g with ledger := g.ledger.rollback undo }.setPhase i (.ended (.error e)))

theorem went (g : Hall α) (m : Move α) : Went g m (g.entering m) (g.move m) := by
  cases m with
  | arrive lock program => exact .arrive lock program
  | breakOff i e =>
    simp only [entering, move, Hall.breakOff]
    split
    · next hp => exact .turnAway hp e
    · next hp => exact .breakOff hp e
    · exact .rest _
  | step i =>
    simp only [entering, move]
    cases hs : g.step i with
    | none =>
      have hp := hs
      simp only [step] at hp
      split
      · next program hw =>
        have hw' : (g.visits[i]?).map Visit.phase = some (.waiting program) := hw
        simp only [hw'] at hp
        split at hp
        · cases hp
        · next hm =>
          rw [if_neg hm]
          exact .rest _
      · exact .rest _
    | some g' =>
      have hstepped := stepped_of_step hs
      cases hstepped with
      | enter hp hm =>
        simp only [hp, if_pos hm]
        exact .enter hp hm
      | finish hp =>
        simp only [hp]
        exact .onward hp (.finish hp)
      | fail hp =>
        simp only [hp]
        exact .onward hp (.fail hp)
      | note hp =>
        simp only [hp]
        exact .onward hp (.note hp)
      | perform hp hc =>
        simp only [hp]
        exact .onward hp (.perform hp hc)
      | refuse hp hc =>
        simp only [hp]
        exact .onward hp (.refuse hp hc)

theorem Went.ended {m : Move α} {e : Option Nat} {g' : Hall α} (hw : Went g m e g')
    {r : Except Failure α} (hr : g.phase? i = some (.ended r)) : g'.phase? i = some (.ended r) := by
  have other {j : Nat} {p q : Visit.Phase α} (hp : g.phase? j = some p) (hn : p ≠ .ended r)
    (l : Ledger) :
      ({ g with ledger := l }.setPhase j q).phase? i = some (.ended r) := by
    have hij : j ≠ i := by
      rintro rfl
      exact hn (Option.some.inj (hp.symm.trans hr))
    rw [phase?_setPhase_of_ne hij]
    exact hr
  cases hw with
  | rest => exact hr
  | arrive lock program =>
    have hi : i ≠ g.visits.length := by
      rintro rfl
      simp [phase?] at hr
    rw [phase?_arrive, if_neg hi]
    exact hr
  | enter hp hm => exact other hp (by simp) g.ledger
  | @onward j rest undo g' hp hs =>
    have hij : j ≠ i := by
      rintro rfl
      exact hs.not_ended hr
    exact (hs.phase?_of_ne hij).trans hr
  | turnAway hp e => exact other hp (by simp) g.ledger
  | breakOff hp e => exact other hp (by simp) _

theorem ended_play {r : Except Failure α} (h : g.phase? i = some (.ended r))
    (moves : List (Move α)) : (g.play moves).phase? i = some (.ended r) := by
  induction moves generalizing g with
  | nil => exact h
  | cons m rest ih => exact ih ((went g m).ended h)

def isOver (g : Hall α) : Bool := g.visits.all fun v => !v.isWaiting && !v.isInside

theorem ended_of_isOver (h : g.isOver = true) (hi : i < g.visits.length) :
    ∃ r, g.phase? i = some (.ended r) := by
  obtain ⟨v, hv⟩ : ∃ v, g.visits[i]? = some v := ⟨_, List.getElem?_eq_getElem hi⟩
  have hover := List.all_eq_true.mp h v (List.mem_of_getElem? hv)
  rw [phase?, hv, Option.map_some]
  cases hp : v.phase with
  | waiting program => simp [Visit.isWaiting, hp] at hover
  | inside rest undo => simp [Visit.isInside, hp] at hover
  | ended r => exact ⟨r, rfl⟩

def IsPast (g : Hall α) (i : Nat) : Prop := ∃ p, g.phase? i = some p ∧
    ∀ program, p ≠ .waiting program

theorem Went.isPast {m : Move α} {e : Option Nat} {g' : Hall α} (hw : Went g m e g')
    (h : g.IsPast i) :
    g'.IsPast i ∧ e ≠ some i := by
  obtain ⟨q, hq, hn⟩ := h
  have kept {j : Nat} {p r : Visit.Phase α} (hj : g.phase? j = some r)
    (hp : ∀ program, p ≠ .waiting program)
      (l : Ledger) : ({ g with ledger := l }.setPhase j p).IsPast i := by
    by_cases hij : j = i
    · subst hij
      exact ⟨p, phase?_setPhase_self (g := { g with ledger := l }) hj p, hp⟩
    · exact ⟨q, (phase?_setPhase_of_ne hij p).trans hq, hn⟩
  cases hw with
  | rest => exact ⟨⟨q, hq, hn⟩, nofun⟩
  | arrive lock program =>
    have hi : i ≠ g.visits.length := by
      rintro rfl
      simp [phase?] at hq
    refine ⟨⟨q, ?_, hn⟩, nofun⟩
    rw [phase?_arrive, if_neg hi]
    exact hq
  | @enter j program hp hm =>
    refine ⟨kept hp (by simp) g.ledger, ?_⟩
    rintro ⟨⟩
    exact hn program (Option.some.inj (hq.symm.trans hp))
  | @onward j rest undo g' hp hs =>
    refine ⟨?_, nofun⟩
    cases hs with
    | enter hw hm => cases hp.symm.trans hw
    | finish hw => exact kept hw (by simp) g.ledger
    | fail hw => exact kept hw (by simp) _
    | note hw => exact kept hw (by simp) g.ledger
    | perform hw hc => exact kept hw (by simp) _
    | refuse hw hc => exact kept hw (by simp) g.ledger
  | turnAway hp e => exact ⟨kept hp (by simp) g.ledger, nofun⟩
  | breakOff hp e => exact ⟨kept hp (by simp) _, nofun⟩

theorem Went.isPast_of_enters {m : Move α} {g' : Hall α} (hw : Went g m (some i) g') :
    g'.IsPast i := by
  cases hw with
  | enter hp hm => exact ⟨_, phase?_setPhase_self hp _, by simp⟩

theorem notMem_order (h : g.IsPast i) (moves : List (Move α)) : i ∉ g.order moves := by
  induction moves generalizing g with
  | nil => exact List.not_mem_nil
  | cons m rest ih =>
    obtain ⟨hpast, hne⟩ := (went g m).isPast h
    rw [order, List.mem_append, Option.mem_toList]
    rintro (hi | hi)
    · exact hne hi
    · exact ih hpast hi

/-- Nobody enters twice. -/
theorem nodup_order (g : Hall α) (moves : List (Move α)) : (g.order moves).Nodup := by
  induction moves generalizing g with
  | nil => exact List.nodup_nil
  | cons m rest ih =>
    have hw := went g m
    rw [order]
    cases he : g.entering m with
    | none => exact ih _
    | some i =>
      rw [he] at hw
      exact List.nodup_cons.mpr ⟨notMem_order hw.isPast_of_enters rest, ih _⟩

theorem length_visits_move (g : Hall α) (m : Move α) : (g.move m).visits.length =
    g.visits.length + match m with | .arrive .. => 1 | _ => 0 := by
  cases m with
  | arrive lock program => simp [move, arrive]
  | step i =>
    simp only [move]
    cases hs : g.step i with
    | none => rfl
    | some g' => cases stepped_of_step hs <;> simp [setPhase]
  | breakOff i e =>
    simp only [move, Hall.breakOff]
    split <;> simp [setPhase]

end Hall

end AdvisoryLedger

import AdvisoryLedger.Proofs.Ledger.Hall
import AdvisoryLedger.Proofs.Ledger.Transaction
import Mathlib.Data.List.Infix

namespace AdvisoryLedger

open Ledger

variable {α β : Type}

/-- The program grants what it owes the others with each request, and ends in what `post` says, also
after what the others do then. -/
def Withstands (rely grant : Ledger → Ledger → Prop) (post : α → Ledger → Prop) :
    SessionProgram α → Ledger → Prop
  | .done a, l => ∀ m, m.WellKept → rely l m → post a m
  | .fail _, _ => True
  | .note _ rest, l => Withstands rely grant post rest l
  | .ask call next, l => ∀ m, m.WellKept → rely l m →
    match m.perform call with
    | .ok p => grant m p.ledger ∧ Withstands rely grant post (next (.ok p.reply)) p.ledger
    | .error e => Withstands rely grant post (next (.error e)) m

/-- What is relied on may happen not at all, or several times in a row. -/
structure Steady (rely : Ledger → Ledger → Prop) : Prop where
  refl : ∀ l, rely l l
  trans : ∀ {l m n}, rely l m → rely m n → rely l n

namespace Withstands

variable {rely grant : Ledger → Ledger → Prop} {post : α → Ledger → Prop} {l m : Ledger}

theorem later (hr : Steady rely) {d : SessionProgram α} (h : Withstands rely grant post d l)
    (hlm : rely l m) :
    Withstands rely grant post d m := by
  induction d with
  | done a => exact fun n hn hmn => h n hn (hr.trans hlm hmn)
  | fail => trivial
  | note entry rest ih => exact ih h
  | ask call next ih => exact fun n hn hmn => h n hn (hr.trans hlm hmn)

/-- The others may do less, the program may owe less, and it may reach more than was asked. -/
theorem consequence {rely' grant' : Ledger → Ledger → Prop} {post' : α → Ledger → Prop}
    (hr : ∀ l m, rely' l m → rely l m) (hg : ∀ l m, grant l m → grant' l m)
    (hp : ∀ a m, post a m → post' a m)
    {d : SessionProgram α} (h : Withstands rely grant post d l) :
    Withstands rely' grant' post' d l := by
  induction d generalizing l with
  | done a => exact fun m hm hlm => hp a m (h m hm (hr l m hlm))
  | fail => trivial
  | note entry rest ih => exact ih h
  | ask call next ih =>
    intro m hm hlm
    have hask := h m hm (hr l m hlm)
    cases hq : m.perform call with
    | error e =>
      rw [hq] at hask
      exact ih _ hask
    | ok p =>
      rw [hq] at hask
      exact ⟨hg _ _ hask.1, ih _ hask.2⟩

theorem imp {post' : α → Ledger → Prop} {d : SessionProgram α} (h : Withstands rely grant post d l)
    (hp : ∀ a m, post a m → post' a m) : Withstands rely grant post' d l :=
  h.consequence (fun _ _ hr => hr) (fun _ _ hg => hg) hp

theorem bind {post' : β → Ledger → Prop} (hr : Steady rely) (hl : l.WellKept) {d : SessionProgram α}
    {f : α → SessionProgram β} (h : Withstands rely grant post d l)
    (hf : ∀ a m, m.WellKept → post a m → Withstands rely grant post' (f a) m) :
    Withstands rely grant post' (d >>= f) l := by
  change Withstands rely grant post' (d.bind f) l
  induction d generalizing l with
  | done a => exact hf a l hl (h l hl (hr.refl l))
  | fail => trivial
  | note entry rest ih => exact ih hl h
  | ask call next ih =>
    intro m hm hlm
    have hask := h m hm hlm
    cases hp : m.perform call with
    | error e =>
      rw [hp] at hask
      exact ih _ hm hask
    | ok p =>
      rw [hp] at hask
      exact ⟨hask.1, ih _ (perform_revocable hm hp).wellKept hask.2⟩

/-- A request, and what comes after it. A request that is refused is where the program fails. -/
theorem ask_bind {call : Call} {f : call.Reply → SessionProgram α}
    (h : ∀ m, m.WellKept → rely l m → ∀ p, m.perform call = .ok p → p.ledger.WellKept →
      grant m p.ledger ∧ Withstands rely grant post (f p.reply) p.ledger) :
    Withstands rely grant post (call.ask >>= f) l := by
  intro m hm hlm
  cases hp : m.perform call with
  | error e => trivial
  | ok p => exact h m hm hlm p hp (perform_revocable hm hp).wellKept

theorem log_bind {entry : LogEntry} {f : Unit → SessionProgram α} :
    Withstands rely grant post (Dialogue.log entry >>= f) l ↔
      Withstands rely grant post (f ()) l := Iff.rfl

theorem ite {c : Prop} [Decidable c] {d e : SessionProgram α}
    (hd : c → Withstands rely grant post d l) (he : ¬c → Withstands rely grant post e l) :
    Withstands rely grant post (if c then d else e) l := by
  split
  · next hc => exact hd hc
  · next hc => exact he hc

theorem ofExcept_bind {x : Except Failure β} {f : β → SessionProgram α}
    (h : ∀ b, x = .ok b → Withstands rely grant post (f b) l) :
    Withstands rely grant post (Dialogue.ofExcept x >>= f) l := by
  cases x with
  | error e => trivial
  | ok b => exact h b rfl

end Withstands

namespace Hall

variable {g g' : Hall α} {i j : Nat}

theorem Stepped.phase?_of_ne (hs : Stepped g i g') (hij : i ≠ j) : g'.phase? j = g.phase? j := by
  cases hs <;> simp only [phase?_setPhase_of_ne hij, phase?_withLedger]

theorem Stepped.phase?_isSome (hs : Stepped g i g') : ∃ p, g.phase? i = some p := by
  cases hs with
  | enter hp => exact ⟨_, hp⟩
  | finish hp => exact ⟨_, hp⟩
  | fail hp => exact ⟨_, hp⟩
  | note hp => exact ⟨_, hp⟩
  | perform hp => exact ⟨_, hp⟩
  | refuse hp => exact ⟨_, hp⟩

theorem Stepped.not_ended (hs : Stepped g i g') {r : Except Failure α} :
    g.phase? i ≠ some (.ended r) := by
  intro hr
  cases hs with
  | enter hp => simp [hp] at hr
  | finish hp => simp [hp] at hr
  | fail hp => simp [hp] at hr
  | note hp => simp [hp] at hr
  | perform hp => simp [hp] at hr
  | refuse hp => simp [hp] at hr

def HasFailed (g : Hall α) : Prop := ∃ i e, g.phase? i = some (.ended (.error e))

theorem Stepped.hasFailed (hs : Stepped g i g') (h : g.HasFailed) : g'.HasFailed := by
  obtain ⟨j, e, hj⟩ := h
  have hij : i ≠ j := by
    rintro rfl
    exact hs.not_ended hj
  exact ⟨j, e, (hs.phase?_of_ne hij).trans hj⟩

/-- What every step keeps, unless a visit fails or a state comes up that is not allowed, holds of a
run. -/
theorem run_induction {P Q : Hall α → Prop}
    (hstep : ∀ {g g' i}, Stepped g i g' → Q g' → P g → g'.HasFailed ∨ P g') (h : P g)
    {schedule : List Nat} (ha : ∀ past, past <+: schedule → Q (g.run past)) :
    (g.run schedule).HasFailed ∨ P (g.run schedule) := by
  have run {schedule : List Nat} {g : Hall α} (ha : ∀ past, past <+: schedule → Q (g.run past))
      (h : g.HasFailed ∨ P g) : (g.run schedule).HasFailed ∨ P (g.run schedule) := by
    induction schedule generalizing g with
    | nil => exact h
    | cons i rest ih =>
      refine ih (fun past hp => ha (i :: past) (List.cons_prefix_cons.mpr ⟨rfl, hp⟩)) ?_
      have hi := ha [i] (List.cons_prefix_cons.mpr ⟨rfl, List.nil_prefix⟩)
      simp only [Hall.run] at hi
      cases hs : g.step i with
      | none => exact h
      | some g' =>
        rw [hs] at hi
        have hstepped := stepped_of_step hs
        exact h.elim (fun hf => .inl (hstepped.hasFailed hf)) (hstep hstepped hi)
  exact run ha (.inr h)

theorem phase?_run_of_none (hi : g.phase? i = none) (schedule : List Nat) :
    (g.run schedule).phase? i = none := by
  induction schedule generalizing g with
  | nil => exact hi
  | cons j rest ih =>
    refine ih ?_
    cases hs : g.step j with
    | none => exact hi
    | some g' =>
      have hstepped := stepped_of_step hs
      have hji : j ≠ i := by
        rintro rfl
        obtain ⟨p, hp⟩ := hstepped.phase?_isSome
        rw [hi] at hp
        cases hp
      exact (hstepped.phase?_of_ne hji).trans hi

theorem not_hasFailed {schedule : List Nat}
    (h : ∀ i p, g.phase? i = some p → ∃ a, (g.run schedule).phase? i = some (.ended (.ok a))) :
    ¬(g.run schedule).HasFailed := by
  rintro ⟨i, e, hi⟩
  cases hg : g.phase? i with
  | none =>
    rw [phase?_run_of_none hg] at hi
    cases hi
  | some p =>
    obtain ⟨a, ha⟩ := h i p hg
    rw [ha] at hi
    cases hi

section Mixed

variable {rely : Nat → Ledger → Ledger → Prop} {post : Nat → α → Ledger → Prop}

/-- A visit that withstands what the others may do, however far it has come. -/
def Stands (rely grant : Ledger → Ledger → Prop) (post : α → Ledger → Prop) (l : Ledger) :
    Visit.Phase α → Prop
  | .waiting program => Withstands rely grant post program l
  | .inside rest _ => Withstands rely grant post rest l
  | .ended (.ok a) => ∀ m, m.WellKept → rely l m → post a m
  | .ended (.error _) => True

theorem Stands.later {rely grant : Ledger → Ledger → Prop} {post : α → Ledger → Prop} {l m : Ledger}
    {p : Visit.Phase α} (hr : Steady rely) (h : Stands rely grant post l p) (hlm : rely l m) :
    Stands rely grant post m p := by
  match p, h with
  | .waiting _, h => exact Withstands.later hr h hlm
  | .inside _ _, h => exact Withstands.later hr h hlm
  | .ended (.ok _), h => exact fun n hn hmn => h n hn (hr.trans hlm hmn)
  | .ended (.error _), _ => trivial

/-- Each visit grants what all others rely on. -/
def grantOf (rely : Nat → Ledger → Ledger → Prop) (i : Nat) (l m : Ledger) : Prop :=
  ∀ j, i ≠ j → rely j l m

/-- All visits withstand each other. -/
structure Withstood (rely : Nat → Ledger → Ledger → Prop) (post : Nat → α → Ledger → Prop)
    (g : Hall α) :
    Prop where
  wellKept : g.ledger.WellKept
  stands : ∀ i p, g.phase? i = some p → Stands (rely i) (grantOf rely i) (post i) g.ledger p

theorem Withstood.setPhase (hr : ∀ i, Steady (rely i)) (h : g.Withstood rely post) {l : Ledger}
    (hl : l.WellKept) (hg : grantOf rely i g.ledger l) {p : Visit.Phase α}
    (hp : Stands (rely i) (grantOf rely i) (post i) l p) :
    ({ g with ledger := l }.setPhase i p).Withstood rely post := by
  refine ⟨hl, fun j q hq => ?_⟩
  by_cases hij : i = j
  · subst hij
    rw [phase?_setPhase, if_pos rfl, Option.map_eq_some_iff] at hq
    obtain ⟨-, -, rfl⟩ := hq
    exact hp
  · rw [phase?_setPhase_of_ne hij] at hq
    exact (h.stands j q hq).later (hr j) (hg j hij)

theorem Withstood.stepped (hr : ∀ i, Steady (rely i)) (h : g.Withstood rely post)
    (hs : Stepped g i g') :
    g'.HasFailed ∨ g'.Withstood rely post := by
  have still : grantOf rely i g.ledger g.ledger := fun j _ => (hr j).refl g.ledger
  cases hs with
  | enter hp =>
    have hp := h.stands i _ hp
    exact .inr (h.setPhase hr h.wellKept still hp)
  | finish hp =>
    have hp := h.stands i _ hp
    exact .inr (h.setPhase hr h.wellKept still hp)
  | fail hp => exact .inl ⟨i, _, phase?_setPhase_self (g := { g with ledger := _ }) hp _⟩
  | note hp =>
    have hp := h.stands i _ hp
    exact .inr (h.setPhase hr h.wellKept still hp)
  | perform hp hc =>
    have hask := h.stands i _ hp g.ledger h.wellKept ((hr i).refl _)
    rw [hc] at hask
    exact .inr (h.setPhase hr (perform_revocable h.wellKept hc).wellKept hask.1 hask.2)
  | refuse hp hc =>
    have hask := h.stands i _ hp g.ledger h.wellKept ((hr i).refl _)
    rw [hc] at hask
    exact .inr (h.setPhase hr h.wellKept still hask)

/-- Visits that withstand each other do so throughout, unless one fails. -/
theorem run_stands (hr : ∀ i, Steady (rely i)) (h : g.Withstood rely post) (schedule : List Nat) :
    (g.run schedule).HasFailed ∨ (g.run schedule).Withstood rely post :=
  run_induction (Q := fun _ => True) (fun hs _ h => h.stepped hr hs) h fun _ _ => trivial

end Mixed

section InTurn

variable {program P Q : SessionProgram α} {l m : Ledger}

/-- What a visit has made of the ledger, if nobody else has changed it meanwhile. -/
def Made (program : SessionProgram α) (l : Ledger) : Visit.Phase α → Ledger → Prop
  | .waiting rest, m => rest = program ∧ m = l
  | .inside rest _, m => ∀ a n, Gives rest m a n → Gives program l a n
  | .ended (.ok a), m => Gives program l a m
  | .ended (.error _), _ => False

theorem Made.stepped {p : Visit.Phase α} (hp : g.phase? i = some p) (hm : Made program l p g.ledger)
    (hs : Stepped g i g') : g'.HasFailed ∨ ∃ p', g'.phase? i = some p' ∧
    Made program l p' g'.ledger := by
  cases hs with
  | enter hq =>
    obtain rfl := Option.some.inj (hp.symm.trans hq)
    obtain ⟨rfl, hl⟩ := hm
    exact .inr ⟨_, phase?_setPhase_self hq _, fun a n hg => hl ▸ hg⟩
  | finish hq =>
    obtain rfl := Option.some.inj (hp.symm.trans hq)
    exact .inr ⟨_, phase?_setPhase_self hq _, hm _ _ ⟨rfl, rfl⟩⟩
  | fail hq => exact .inl ⟨i, _, phase?_setPhase_self (g := { g with ledger := _ }) hq _⟩
  | note hq =>
    obtain rfl := Option.some.inj (hp.symm.trans hq)
    exact .inr ⟨_, phase?_setPhase_self hq _, hm⟩
  | perform hq hc =>
    obtain rfl := Option.some.inj (hp.symm.trans hq)
    refine .inr ⟨_, phase?_setPhase_self (g := { g with ledger := _ }) hq _, fun a n hg => hm a n ?_⟩
    simp only [Gives, hc]
    exact hg
  | refuse hq hc =>
    obtain rfl := Option.some.inj (hp.symm.trans hq)
    refine .inr ⟨_, phase?_setPhase_self hq _, fun a n hg => hm a n ?_⟩
    simp only [Gives, hc]
    exact hg

def isInside (g : Hall α) (i : Nat) : Bool := (g.visits[i]?).any Visit.isInside

theorem isInside_of_phase? {d : SessionProgram α} {u : List Undo}
    (h : g.phase? i = some (.inside d u)) :
    g.isInside i = true := by
  obtain ⟨w, hw, hp⟩ := Option.map_eq_some_iff.mp h
  simp [isInside, hw, Visit.isInside, hp]

/-- At no time are the first two visits inside together. -/
def InTurn (g : Hall α) (schedule : List Nat) : Prop :=
  ∀ past ∈ schedule.inits, ¬((g.run past).isInside 0 = true ∧ (g.run past).isInside 1 = true)

instance (g : Hall α) (schedule : List Nat) : Decidable (g.InTurn schedule) :=
  inferInstanceAs (Decidable (∀ past ∈ schedule.inits, _))

/-- Of two visits, the first is over or the second has not begun. -/
structure Ordered (i j : Nat) (P Q : SessionProgram α) (l : Ledger) (g : Hall α) : Prop where
  made : ∃ m p q, g.phase? i = some p ∧ g.phase? j = some q ∧ Made P l p m ∧ Made Q m q g.ledger ∧
    ((∃ a, p = .ended (.ok a)) ∨ q = .waiting Q)
  others : ∀ k, k ≠ i → k ≠ j → g.phase? k = none

/-- The visit whose turn it is goes on, or the other one begins in its place. -/
theorem Ordered.stepped {k : Nat} (hij : i ≠ j) (h : g.Ordered i j P Q l) (hs : Stepped g k g')
    (hn : ¬(g'.isInside i = true ∧ g'.isInside j = true)) :
    g'.HasFailed ∨ g'.Ordered i j P Q l ∨ g'.Ordered j i Q P l := by
  obtain ⟨⟨m, p, q, hp, hq, hP, hQ, horder⟩, hothers⟩ := h
  have others (n : Nat) (hi : n ≠ i) (hj : n ≠ j) : g'.phase? n = none := by
    have hkn : k ≠ n := by
      rintro rfl
      obtain ⟨r, hr⟩ := hs.phase?_isSome
      rw [hothers k hi hj] at hr
      cases hr
    exact (hs.phase?_of_ne hkn).trans (hothers n hi hj)
  by_cases hki : k = i
  · subst hki
    have hwaiting : q = .waiting Q := by
      refine horder.resolve_left ?_
      rintro ⟨a, rfl⟩
      exact hs.not_ended hp
    subst hwaiting
    obtain ⟨-, rfl⟩ := hQ
    rcases hP.stepped hp hs with hf | ⟨p', hp', hP'⟩
    · exact .inl hf
    · exact .inr (.inl ⟨⟨_, p', _, hp', (hs.phase?_of_ne hij).trans hq, hP', ⟨rfl, rfl⟩, .inr rfl⟩,
        others⟩)
  · obtain rfl : k = j := by
      by_contra hkj
      obtain ⟨r, hr⟩ := hs.phase?_isSome
      rw [hothers k hki hkj] at hr
      cases hr
    have hp' : g'.phase? i = some p := (hs.phase?_of_ne hki).trans hp
    rcases hQ.stepped hq hs with hf | ⟨q', hq', hQ'⟩
    · exact .inl hf
    · rcases horder with hended | rfl
      · exact .inr (.inl ⟨⟨m, p, q', hp', hq', hP, hQ', .inl hended⟩, others⟩)
      · -- the second begins: before the first, after it, or while it is inside
        match p, hP with
        | .waiting rest, hP =>
          obtain ⟨rfl, rfl⟩ := hP
          refine .inr (.inr ⟨⟨_, q', _, hq', hp', hQ', ⟨rfl, rfl⟩, .inr rfl⟩, ?_⟩)
          exact fun n hn hn' => others n hn' hn
        | .inside d u, hP =>
          refine absurd ⟨isInside_of_phase? hp', ?_⟩ hn
          cases hs with
          | enter hw => exact isInside_of_phase? (phase?_setPhase_self hq _)
          | finish hw => simp [hq] at hw
          | fail hw => simp [hq] at hw
          | note hw => simp [hq] at hw
          | perform hw => simp [hq] at hw
          | refuse hw => simp [hq] at hw
        | .ended (.ok a), hP =>
          exact .inr (.inl ⟨⟨m, _, q', hp', hq', hP, hQ', .inl ⟨a, rfl⟩⟩, others⟩)
        | .ended (.error e), hP => exact hP.elim

/-- Two visits that never overlap come to the same as one transaction after the other. -/
theorem run_inTurn (hg : g.ledger = l) (hP : g.phase? 0 = some (.waiting P))
    (hQ : g.phase? 1 = some (.waiting Q))
    (hothers : ∀ k, k ≠ 0 → k ≠ 1 → g.phase? k = none) {schedule : List Nat}
    (hn : g.InTurn schedule) {a b : α}
    (ha : (g.run schedule).phase? 0 = some (.ended (.ok a)))
    (hb : (g.run schedule).phase? 1 = some (.ended (.ok b))) :
    ∃ m, (Gives P l a m ∧ Gives Q m b (g.run schedule).ledger) ∨
      (Gives Q l b m ∧ Gives P m a (g.run schedule).ledger) := by
  have hstart : g.Ordered 0 1 P Q l ∨ g.Ordered 1 0 Q P l :=
    .inl ⟨⟨l, _, _, hP, hQ, ⟨rfl, rfl⟩, ⟨rfl, hg⟩, .inr rfl⟩, hothers⟩
  have hstep {g g' : Hall α} {i : Nat} (hs : Stepped g i g')
      (hn : ¬(g'.isInside 0 = true ∧ g'.isInside 1 = true))
      (h : g.Ordered 0 1 P Q l ∨ g.Ordered 1 0 Q P l) :
      g'.HasFailed ∨ g'.Ordered 0 1 P Q l ∨ g'.Ordered 1 0 Q P l := by
    rcases h with h | h
    · exact h.stepped (by decide) hs hn
    · exact (h.stepped (by decide) hs fun hi => hn hi.symm).imp_right Or.symm
  have hended : ¬(g.run schedule).HasFailed := by
    refine not_hasFailed fun k p hk => ?_
    by_cases hk₀ : k = 0
    · exact ⟨a, hk₀ ▸ ha⟩
    · by_cases hk₁ : k = 1
      · exact ⟨b, hk₁ ▸ hb⟩
      · rw [hothers k hk₀ hk₁] at hk
        cases hk
  rcases run_induction hstep hstart fun past hp =>
    hn past (List.mem_inits past schedule |>.mpr hp) with hf | h | h
  · exact absurd hf hended
  · obtain ⟨m, p, q, hp, hq, hP, hQ, -⟩ := h.made
    obtain rfl := Option.some.inj (hp.symm.trans ha)
    obtain rfl := Option.some.inj (hq.symm.trans hb)
    exact ⟨m, .inl ⟨hP, hQ⟩⟩
  · obtain ⟨m, q, p, hq, hp, hQ, hP, -⟩ := h.made
    obtain rfl := Option.some.inj (hp.symm.trans ha)
    obtain rfl := Option.some.inj (hq.symm.trans hb)
    exact ⟨m, .inr ⟨hQ, hP⟩⟩

end InTurn

end Hall

end AdvisoryLedger

import AdvisoryLedger.Proofs.Ledger.Entering
import AdvisoryLedger.Proofs.Ledger.Places
import AdvisoryLedger.Proofs.Ledger.Renumbering

namespace AdvisoryLedger

namespace Ledger

variable {l m n : Ledger} {undo : List Undo} {call : Call} {calls more : List Call}

/-- Requests bring one ledger to another. Ids may be passed over, and a request that is refused does
nothing. -/
inductive ComesTo : Ledger → List Call → Ledger → Prop
  | rest (l : Ledger) : ComesTo l [] l
  | made {l m : Ledger} {call : Call} {rest : List Call} {id : Int} {p : Performed call.Reply}
    (hn : l.nextId ≤ id) (hp : { l with nextId := id }.perform call = .ok p)
    (h : ComesTo p.ledger rest m) : ComesTo l (call :: rest) m
  | refused {l m : Ledger} {call : Call} {rest : List Call} {e : Failure}
    (hp : l.perform call = .error e) (h : ComesTo l rest m) : ComesTo l (call :: rest) m

theorem ComesTo.append (h : l.ComesTo calls m) (h' : m.ComesTo more n) :
    l.ComesTo (calls ++ more) n := by
  induction h with
  | rest l => exact h'
  | made hn hp _ ih => exact .made hn hp (ih h')
  | refused hp _ ih => exact .refused hp (ih h')

theorem ledger_of_question {p : Performed call.Reply} (hc : isQuestion call = true)
    (hp : l.perform call = .ok p) :
    p.ledger = l := by
  cases performs_of_perform hp with
  | read _ reply => rfl
  | _ => cases hc

theorem comesTo_question (l : Ledger) (hc : isQuestion call = true) : l.ComesTo [call] l := by
  cases hp : l.perform call with
  | error e => exact .refused hp (.rest l)
  | ok p =>
    have h := ComesTo.made (Int.le_refl l.nextId) hp (.rest p.ledger)
    rwa [ledger_of_question hc hp] at h

/-- A request concerns no place that something would be put back in, neither as it is nor as it
would be then. -/
def keepsClear (l : Ledger) (undo : List Undo) (call : Call) : Bool :=
  undo.all fun u => !l.concerns call u.place && !(l.rollback undo).concerns call u.place

/-- A ledger is another one with changes over it that can be taken back. -/
structure Over (l m : Ledger) (undo : List Undo) : Prop where
  wellKept : l.WellKept
  beneath : m.WellKept
  nextId_le : m.nextId ≤ l.nextId
  places : ∀ u ∈ undo, u.place.IsBelow l.nextId
  agrees : (l.rollback undo).Agrees m

namespace Over

theorem refl (hl : l.WellKept) : l.Over l [] := ⟨hl, hl, Int.le_refl _, by simp, Agrees.refl l⟩

theorem perform (h : l.Over m undo) {p : Performed call.Reply} (hp : l.perform call = .ok p) :
    p.ledger.Over m (p.undo ++ undo) := by
  have hr := perform_revocable h.wellKept hp
  refine ⟨hr.wellKept, h.beneath, Int.le_trans h.nextId_le hr.nextId_le, ?_, ?_⟩
  · intro u hu
    rcases List.mem_append.mp hu with hu | hu
    · exact perform_places h.wellKept hp u hu
    · exact (h.places u hu).mono hr.nextId_le
  · rw [rollback_append]
    exact (hr.agrees.rollback undo).trans h.agrees

theorem rollback (h : l.Over m undo) : (l.rollback undo).Over m [] := by
  obtain ⟨hd, hn⟩ := h.wellKept.distinct.rollback undo
  have hle : m.nextId ≤ (l.rollback undo).nextId := hn.symm ▸ h.nextId_le
  exact ⟨h.beneath.of_agrees h.agrees hd hle, h.beneath, hle, by simp, h.agrees⟩

/-- The ledger beneath may pass over the ids that the changes have used up. -/
theorem renumber (h : l.Over m undo) : l.Over { m with nextId := l.nextId } undo := by
  have hm : Agrees { m with nextId := l.nextId } m := { Agrees.refl m with }
  exact ⟨h.wellKept, h.beneath.of_agrees hm { h.beneath.distinct with } h.nextId_le,
    Int.le_refl _, h.places,
    { h.agrees with }⟩

/-- What keeps clear of the changes concerns no place of theirs, in neither ledger. -/
theorem clear (h : l.Over m undo) (hk : l.keepsClear undo call = true) {u : Undo} (hu : u ∈ undo) :
    l.concerns call u.place = false ∧ m.concerns call u.place = false := by
  have hu' := List.all_eq_true.mp hk u hu
  rw [concerns_congr (agrees_iff_sameAt.mp h.agrees u.place)] at hu'
  simpa using hu'

theorem sameAt (h : l.Over m undo) {q : Place} (hq : ∀ u ∈ undo, u.place ≠ q) : l.SameAt m q :=
  (sameAt_rollback hq).symm.trans (agrees_iff_sameAt.mp h.agrees q)

theorem sameAt_of_concerns (h : l.Over m undo) (hk : l.keepsClear undo call = true) {q : Place}
    (hq : l.concerns call q = true ∨ m.concerns call q = true) : l.SameAt m q := by
  refine h.sameAt ?_
  rintro u hu rfl
  obtain ⟨hl, hm⟩ := h.clear hk hu
  simp [hl, hm] at hq

/-- A change that keeps clear of those over the ledger comes through to it. -/
theorem through (h : l.Over m undo) (hk : l.keepsClear undo call = true) {p : Performed call.Reply}
    (hp : l.perform call = .ok p) : ∃ k, m.ComesTo [call] k ∧ p.ledger.Over k undo := by
  cases hc : isQuestion call with
  | true =>
    rw [ledger_of_question hc hp]
    exact ⟨m, comesTo_question m hc, h⟩
  | false =>
    have hr := h.renumber
    obtain ⟨p', hp'⟩ := granted_of_sameAt h.wellKept hr.beneath hc
      (fun q hq => hr.sameAt_of_concerns hk hq) hp
    obtain ⟨hn, hsame⟩ := perform_sameAt h.wellKept hr.beneath rfl hp hp'
    have hrev := perform_revocable h.wellKept hp
    refine ⟨p'.ledger, .made h.nextId_le hp' (.rest _), hrev.wellKept,
      (perform_revocable hr.beneath hp').wellKept,
      Int.le_of_eq hn.symm, fun u hu => (h.places u hu).mono hrev.nextId_le, ?_⟩
    refine agrees_iff_sameAt.mpr fun q => ?_
    by_cases hq : ∃ u ∈ undo, u.place = q
    · -- the change leaves this place, and it is put back from both
      obtain ⟨u, hu, rfl⟩ := hq
      obtain ⟨hcl, hcm⟩ := hr.clear hk hu
      have hl := (perform_frame h.wellKept hp (h.places u hu) hcl).rollback undo
      have hm := perform_frame hr.beneath hp' (h.places u hu) hcm
      exact (hl.trans (agrees_iff_sameAt.mp hr.agrees _)).trans hm.symm
    · -- nothing is put back in this place
      have hne : ∀ u ∈ undo, u.place ≠ q := fun u hu he => hq ⟨u, hu, he⟩
      exact (sameAt_rollback hne).trans (hsame q (hr.sameAt hne))

/-- A request that keeps clear of the changes over the ledger and is refused, is refused beneath
them as well. -/
theorem refuses (h : l.Over m undo) (hk : l.keepsClear undo call = true) {e : Failure}
    (hp : l.perform call = .error e) : m.ComesTo [call] m := by
  cases hc : isQuestion call with
  | true => exact comesTo_question m hc
  | false =>
    cases hp' : m.perform call with
    | error e' => exact .refused hp' (.rest m)
    | ok p =>
      obtain ⟨p', hok⟩ := granted_of_sameAt h.beneath h.wellKept hc
        (fun q hq => (h.sameAt_of_concerns hk hq.symm).symm) hp'
      rw [hp] at hok
      cases hok

end Over

end Ledger

/-- What a visit would put back, all under its own id. -/
def Visit.Phase.undo {α : Type} : Visit.Phase α → List Undo
  | .inside _ undo => undo.map Undo.original
  | _ => []

namespace Hall

variable {α : Type} {g g' : Hall α} {i : Nat} {l m : Ledger} {calls : List Call}

/-- Two transactions that have been opened without a lock. -/
def opened (l : Ledger) (a b : SessionProgram α) : Hall α :=
  { ledger := l, visits := [⟨none, .inside a []⟩, ⟨none, .inside b []⟩] }

/-- Whose turn it is. The first may also be broken off, and the callers of both may give advisories
of updates other ids. -/
inductive Turn
  | first
  | second
  | breakOff (e : Failure)
  | renumber (i n : Nat) (id : Int)

def Turn.deed : Turn → Deed α
  | .first => .move (.step 0)
  | .second => .move (.step 1)
  | .breakOff e => .move (.breakOff 0 e)
  | .renumber i n id => .renumber i n id

def playTurns (g : Hall α) (turns : List Turn) : Hall α := g.acts (turns.map Turn.deed)

def undoOf (g : Hall α) (i : Nat) : List Undo := ((g.phase? i).map Visit.Phase.undo).getD []

def request? (g : Hall α) : Turn → Option Call
  | .second =>
    match g.phase? 1 with
    | some (.inside (.ask call _) _) => some call
    | _ => none
  | _ => none

def requests (g : Hall α) : List Turn → List Call
  | [] => []
  | t :: rest => (g.request? t).toList ++ (g.act t.deed).requests rest

/-- The second always keeps clear of what the first would put back. -/
def isUntangled (g : Hall α) : List Turn → Bool
  | [] => true
  | t :: rest => (g.request? t).all (g.ledger.keepsClear (g.undoOf 0)) &&
    (g.act t.deed).isUntangled rest

/-- The ledger is what requests have made of another one, and over that what the first would take
back. -/
def HasSpared (l : Ledger) (calls : List Call) (g : Hall α) : Prop :=
  ∃ m, l.ComesTo calls m ∧ g.ledger.Over m (g.undoOf 0)

theorem undoOf_eq {p : Visit.Phase α} (hp : g.phase? i = some p) : g.undoOf i = p.undo := by
  rw [undoOf, hp, Option.map_some, Option.getD_some]

theorem over_undo {p : Visit.Phase α} (ho : g.ledger.Over m (g.undoOf i))
    (hp : g.phase? i = some p) :
    g.ledger.Over m p.undo := undoOf_eq hp ▸ ho

theorem HasSpared.setPhase {p q : Visit.Phase α} {l' : Ledger} (hq : g.phase? 0 = some q)
    (hm : l.ComesTo calls m)
    (ho : l'.Over m p.undo) : ({ g with ledger := l' }.setPhase 0 p).HasSpared l calls := by
  refine ⟨m, hm, ?_⟩
  rw [undoOf_eq (phase?_setPhase_self (g := { g with ledger := l' }) hq p)]
  exact ho

theorem HasSpared.keep {p q : Visit.Phase α} (h : g.HasSpared l calls) (hq : g.phase? 0 = some q)
    (hu : p.undo = q.undo) : (g.setPhase 0 p).HasSpared l calls := by
  obtain ⟨m, hm, ho⟩ := h
  have ho : g.ledger.Over m p.undo := hu.symm ▸ over_undo ho hq
  exact .setPhase hq hm ho

/-- What is taken back under its own ids leaves what requests have made. -/
theorem HasSpared.rollback (h : g.HasSpared l calls) {rest : SessionProgram α} {undo : List Undo}
    (hp : g.phase? 0 = some (.inside rest undo)) (hf : undo.all Undo.isTrue = true) (e : Failure) :
    ({ g with ledger := g.ledger.rollback undo }.setPhase 0 (.ended (.error e))).HasSpared
      l calls := by
  obtain ⟨m, hm, ho⟩ := h
  have hback := (over_undo ho hp).rollback
  simp only [Visit.Phase.undo, Undo.map_original_of_isTrue hf] at hback
  exact .setPhase hp hm hback

theorem HasSpared.first (h : g.HasSpared l calls) (hs : Stepped g 0 g')
    (hf : g.isFaithfulTo (.move (.step 0)) = true) (hn : ∀ a, g'.phase? 0 ≠ some (.ended (.ok a))) :
    g'.HasSpared l calls := by
  cases hs with
  | enter hp _ => exact h.keep hp rfl
  | finish hp => exact absurd (phase?_setPhase_self hp _) (hn _)
  | fail hp =>
    simp only [isFaithfulTo, hp] at hf
    exact h.rollback hp hf _
  | note hp => exact h.keep hp rfl
  | perform hp hc =>
    obtain ⟨m, hm, ho⟩ := h
    have hover := (over_undo ho hp).perform hc
    refine .setPhase hp hm ?_
    rwa [Visit.Phase.undo, List.map_append, Ledger.map_original_perform ho.wellKept hc]
  | refuse hp _ => exact h.keep hp rfl

theorem HasSpared.second (h : g.HasSpared l calls) (hs : Stepped g 1 g')
    (hn : ∀ e, g'.phase? 1 ≠ some (.ended (.error e)))
    (hk : (g.request? .second).all (g.ledger.keepsClear (g.undoOf 0)) = true) :
    g'.HasSpared l (calls ++ (g.request? .second).toList) := by
  obtain ⟨m, hm, ho⟩ := h
  have hundo : g'.undoOf 0 = g.undoOf 0 := by rw [undoOf, undoOf, hs.phase?_of_ne (by decide)]
  rw [HasSpared, hundo]
  cases hs with
  | enter hp _ => exact ⟨m, by simpa [request?, hp] using hm, ho⟩
  | finish hp => exact ⟨m, by simpa [request?, hp] using hm, ho⟩
  | fail hp => exact absurd (phase?_setPhase_self (g := { g with ledger := _ }) hp _) (hn _)
  | note hp => exact ⟨m, by simpa [request?, hp] using hm, ho⟩
  | perform hp hc =>
    simp only [request?, hp, Option.all_some, Option.toList_some] at hk ⊢
    obtain ⟨k, hk, ho⟩ := ho.through hk hc
    exact ⟨k, hm.append hk, ho⟩
  | refuse hp hc =>
    simp only [request?, hp, Option.all_some, Option.toList_some] at hk ⊢
    exact ⟨m, hm.append (ho.refuses hk hc), ho⟩

theorem HasSpared.breakOff (h : g.HasSpared l calls) {e : Failure}
    (hf : g.isFaithfulTo (.move (.breakOff 0 e)) = true) : (g.breakOff 0 e).HasSpared l calls := by
  cases hp : g.phase? 0 with
  | none => rwa [breakOff_absent e hp]
  | some p =>
    cases p with
    | waiting program =>
      rw [breakOff_waiting e hp]
      exact h.keep hp rfl
    | inside rest undo =>
      simp only [isFaithfulTo, hp] at hf
      rw [breakOff_inside e hp]
      exact h.rollback hp hf e
    | ended result => rwa [breakOff_ended e hp]

/-- Other ids of advisories change neither what would be put back nor anything in the ledger. -/
theorem HasSpared.renumber (h : g.HasSpared l calls) (i n : Nat) (id : Int) :
    (g.renumber i n id).HasSpared l calls := by
  obtain ⟨m, hm, ho⟩ := h
  refine ⟨m, hm, ?_⟩
  have hundo (g : Hall α) (j : Nat) : g.undoOf j = g.original.undoOf j := by
    rw [undoOf, undoOf, phase?_original]
    cases g.phase? j with
    | none => rfl
    | some p => cases p <;> simp [Visit.Phase.undo, Visit.Phase.original, Undo.original_original]
  rw [hundo, original_renumber, ← hundo, ledger_renumber]
  exact ho

theorem request?_eq_none (hs : g.step 1 = none) : g.request? .second = none := by
  simp only [request?]
  split
  · next call next undo hp =>
    cases hc : g.ledger.perform call with
    | ok p => cases (step_perform hp hc).symm.trans hs
    | error e => cases (step_refuse hp hc).symm.trans hs
  · rfl

theorem ended_acts {x : Except Failure α} (h : g.phase? i = some (.ended x))
    (deeds : List (Deed α)) : (g.acts deeds).phase? i = some (.ended x) := by
  induction deeds generalizing g with
  | nil => exact h
  | cons d rest ih =>
    cases d with
    | move m => exact ih ((went g m).ended h)
    | renumber j n id => exact ih (phase?_renumber_of_ended h j n id)

/-- What a turn does, if neither of the two ends in another way than it will. -/
theorem HasSpared.turn (h : g.HasSpared l calls) (t : Turn) (hf : g.isFaithfulTo t.deed = true)
    (ha : ∀ a, (g.act t.deed).phase? 0 ≠ some (.ended (.ok a)))
    (hb : ∀ e, (g.act t.deed).phase? 1 ≠ some (.ended (.error e)))
    (hk : (g.request? t).all (g.ledger.keepsClear (g.undoOf 0)) = true) :
    (g.act t.deed).HasSpared l (calls ++ (g.request? t).toList) := by
  cases t with
  | first =>
    simp only [Turn.deed, act, move, request?, Option.toList_none, List.append_nil] at ha ⊢
    cases hs : g.step 0 with
    | none => exact h
    | some g' =>
      rw [hs] at ha
      exact h.first (stepped_of_step hs) hf ha
  | breakOff e =>
    simp only [request?, Option.toList_none, List.append_nil]
    exact h.breakOff hf
  | renumber i n id =>
    simp only [request?, Option.toList_none, List.append_nil]
    exact h.renumber i n id
  | second =>
    simp only [Turn.deed, act, move] at hb ⊢
    cases hs : g.step 1 with
    | some g' =>
      rw [hs] at hb
      exact h.second (stepped_of_step hs) hb hk
    | none => simpa [request?_eq_none hs] using h

theorem HasSpared.turns (h : g.HasSpared l calls) {turns : List Turn} {e : Failure} {r : α}
    (hf : g.isFaithful (turns.map Turn.deed) = true)
    (ha : (g.playTurns turns).phase? 0 = some (.ended (.error e)))
    (hb : (g.playTurns turns).phase? 1 = some (.ended (.ok r))) (hu : g.isUntangled turns = true) :
    (g.playTurns turns).HasSpared l (calls ++ g.requests turns) := by
  induction turns generalizing g calls with
  | nil => simpa [requests, playTurns, acts] using h
  | cons t rest ih =>
    obtain ⟨hft, hfrest⟩ := Bool.and_eq_true_iff.mp hf
    obtain ⟨hk, hrest⟩ := Bool.and_eq_true_iff.mp hu
    have ha' : ∀ a, (g.act t.deed).phase? 0 ≠ some (.ended (.ok a)) := by
      intro a hok
      cases (ended_acts hok (rest.map Turn.deed)).symm.trans ha
    have hb' : ∀ e, (g.act t.deed).phase? 1 ≠ some (.ended (.error e)) := by
      intro e' herror
      cases (ended_acts herror (rest.map Turn.deed)).symm.trans hb
    have hturn := ih (h.turn t hft ha' hb' hk) hfrest ha hb hrest
    rwa [List.append_assoc] at hturn

/-- Of two transactions that are open side by side, one is rolled back and the other commits.
However their requests are mixed, if the other always keeps clear of what the first would put back,
and the advisories of the first's updates have the ids that they were passed with when it is rolled
back, the ledger comes to what the requests of the other make of it alone, up to the ids of new
rows. -/
theorem rollback_spares (hl : l.WellKept) {a b : SessionProgram α} {turns : List Turn}
    {e : Failure} {r : α} (hf : (opened l a b).isFaithful (turns.map Turn.deed) = true)
    (ha : ((opened l a b).playTurns turns).phase? 0 = some (.ended (.error e)))
    (hb : ((opened l a b).playTurns turns).phase? 1 = some (.ended (.ok r)))
    (hu : (opened l a b).isUntangled turns = true) :
    ∃ m, l.ComesTo ((opened l a b).requests turns) m ∧
      ((opened l a b).playTurns turns).ledger.Agrees m := by
  have hstart : (opened l a b).HasSpared l [] := ⟨l, .rest l, .refl hl⟩
  obtain ⟨m, hm, ho⟩ := hstart.turns hf ha hb hu
  rw [undoOf_eq ha] at ho
  exact ⟨m, hm, ho.agrees⟩

/-- Enters an advisory, gives it a title and sets a property. -/
def entry (vulnId name : String) : SessionProgram Unit := do
  let a ← Call.ask (.insertAdvisory { vulnId })
  Call.ask (.updateAdvisory { a with title := some name })
  Call.ask (.setConfig "feed" name (some vulnId))

/-- Two entries side by side, the first of which is broken off. Its advisory has another id for a
while. -/
theorem rollback_spares_entries :
    let g := opened {} (entry "CVE-1" "first") (entry "CVE-2" "second")
    let turns := [.first, .second, .first, .second, .renumber 0 0 2, .second, .renumber 0 0 1,
      .breakOff .wrongKind, .second]
    g.isFaithful (turns.map Turn.deed) = true ∧
      (g.playTurns turns).phase? 0 = some (.ended (.error .wrongKind)) ∧
      (g.playTurns turns).phase? 1 = some (.ended (.ok ())) ∧ g.isUntangled turns = true ∧
      ∃ m, Ledger.ComesTo {} (g.requests turns) m ∧ (g.playTurns turns).ledger.Agrees m := by
  exact ⟨by decide, rfl, rfl, by decide,
    rollback_spares Ledger.wellKept_empty (by decide) rfl rfl (by decide)⟩

/-- Sets a property and puts back what it knows to have been there, but fails. -/
def trial : SessionProgram Unit := do
  Call.ask (.setConfig "feed" "since" (some "1"))
  Call.ask (.setConfig "feed" "since" (some "0"))
  .fail .wrongKind

def advance : SessionProgram Unit := Call.ask (.setConfig "feed" "since" (some "2"))

/-- A property that the second sets and commits is as it was before both when the first has been
rolled back. -/
theorem rollback_overwrites :
    let g := opened { config := [(("feed", "since"), some "0")] } trial advance
    let turns := [.first, .second, .second, .first, .first]
    (g.playTurns turns).phase? 0 = some (.ended (.error .wrongKind)) ∧
      (g.playTurns turns).phase? 1 = some (.ended (.ok ())) ∧
      (∀ m, g.ledger.ComesTo (g.requests turns) m →
        m.config.get? ("feed", "since") = some (some "2")) ∧
      (g.playTurns turns).ledger.config.get? ("feed", "since") = some (some "0") := by
  refine ⟨rfl, rfl, fun m hm => ?_, rfl⟩
  change Ledger.ComesTo _ [.setConfig "feed" "since" (some "2")] m at hm
  cases hm with
  | made _ hp h =>
    obtain rfl := Except.ok.inj hp
    cases h
    rfl
  | refused hp => cases hp

end Hall

end AdvisoryLedger

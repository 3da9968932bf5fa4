import AdvisoryLedger.Proofs.Reconcile.Minutes

namespace AdvisoryLedger

open Ledger

namespace Advisory

variable {reports : List Advisory} {struck : Nat → Option Failure} {bound : Int}
    {a : Advisory} {i j : Nat}

/-- What stands in the minutes of a visit, by how far it has come: with the copies that the two
ledgers had before it, and those that they have now. -/
inductive Recorded (bound : Int) (a : Advisory) (struck : Option Failure)
    (base base' now now' : Option Advisory) :
    Visit.Phase (Advisory × SyncOutcome) → Result → Prop
  | inside {d : SessionProgram (Advisory × SyncOutcome)} {undo : List Undo} {r : Result}
    (stage : Stage bound a base d undo now) (served : Served bound a base' struck r now') :
    Recorded bound a struck base base' now now' (.inside d undo) r
  | ended {x y : Advisory × SyncOutcome} (alike : Alike bound x.1 y.1) (outcome : x.2 = y.2)
    (naturalKey : x.1.naturalKey = a.naturalKey) (kept : base.map Advisory.id = some x.1.id)
    (kept' : base'.map Advisory.id = some y.1.id) :
    Recorded bound a struck base base' now now' (.ended (.ok x)) (.ok y)
  | failed (e : Failure) :
    Recorded bound a struck base base' now now' (.ended (.error e)) (.error e)

/-- Of a visit that has ended, only the rows that its copies are on matter still. -/
theorem Recorded.outside {e : Option Failure} {base base' now now' b b' : Option Advisory}
    {p : Visit.Phase (Advisory × SyncOutcome)} {r : Result}
    (h : Recorded bound a e base base' now now' p r)
    (hout : ∀ rest undo, p ≠ .inside rest undo)
    (hkeep : ∀ x, base = some x → b.map Advisory.id = some x.id)
    (hkeep' : ∀ x, base' = some x → b'.map Advisory.id = some x.id)
    (later later' : Option Advisory) :
    Recorded bound a e b b' later later' p r := by
  cases h with
  | inside stage served => exact absurd rfl (hout _ _)
  | failed e => exact .failed e
  | ended halike houtcome hkey hkept hkept' =>
    obtain ⟨x, hx, hxid⟩ := Option.map_eq_some_iff.mp hkept
    obtain ⟨y, hy, hyid⟩ := Option.map_eq_some_iff.mp hkept'
    refine .ended halike houtcome hkey ?_ ?_
    · rw [hkeep x hx, hxid]
    · rw [hkeep' y hy, hyid]

/-- How a hall stands to the minutes of the visits that have entered it. `base` and `base'` are the
copies that the two ledgers have apart from what the visits inside are about. -/
structure InStep (bound : Int) (reports : List Advisory) (struck : Nat → Option Failure)
    (g : Hall (Advisory × SyncOutcome)) (t : Minutes)
    (base base' : Source × String → Option Advisory) : Prop where
  attended : Attended reports g
  sound : g.Sound
  oneRow : g.ledger.OneRowEach
  nextId : bound ≤ g.ledger.nextId
  wellKept' : t.ledger.WellKept
  oneRow' : t.ledger.OneRowEach
  nextId' : bound ≤ t.ledger.nextId
  keyed : ∀ key b, base key = some b → b.naturalKey = key
  alike : ∀ key, Option.Rel (Alike bound) (base key) (base' key)
  idle : ∀ key, (∀ i a, reports[i]? = some a → a.naturalKey = key → ¬ g.Within i) →
    g.ledger.copy? key = base key ∧ t.ledger.copy? key = base' key
  recorded : ∀ i r, (i, r) ∈ t.results → ∃ a p, reports[i]? = some a ∧ g.phase? i = some p ∧
    Recorded bound a (struck i) (base a.naturalKey) (base' a.naturalKey)
      (g.ledger.copy? a.naturalKey)
      (t.ledger.copy? a.naturalKey) p r
  present : ∀ i, (g.Within i ∨ ∃ x, g.phase? i = some (.ended (.ok x))) → ∃ r, (i, r) ∈ t.results

namespace InStep

variable {g g' : Hall (Advisory × SyncOutcome)} {t : Minutes}
    {base base' : Source × String → Option Advisory}
  {d : SessionProgram (Advisory × SyncOutcome)} {undo : List Undo}

theorem elsewhere (h : InStep bound reports struck g t base base') (hi : reports[i]? = some a)
    {key : Source × String} (hk : key ≠ a.naturalKey) {p : Visit.Phase (Advisory × SyncOutcome)}
    (hnone : ∀ j c, reports[j]? = some c → c.naturalKey = key → ¬ (g.setPhase i p).Within j) :
    g.ledger.copy? key = base key ∧ t.ledger.copy? key = base' key := by
  refine h.idle key fun j c hj hck hg => ?_
  have hij : i ≠ j := by
    rintro rfl
    obtain rfl := Option.some.inj (hi.symm.trans hj)
    exact hk hck.symm
  exact hnone j c hj hck ((Hall.within_setPhase_of_ne hij p).mpr hg)

theorem advance (h : InStep bound reports struck g t base base') (hi : reports[i]? = some a)
    (hp : g.phase? i = some (.inside d undo)) (l : Ledger)
    (p : Visit.Phase (Advisory × SyncOutcome)) (b b' now : Option Advisory)
    (hsound : Hall.Sound ({ g with ledger := l }.setPhase i p)) (horow : l.OneRowEach)
    (hn : bound ≤ l.nextId)
    (hcopy : l.copy? = Function.update g.ledger.copy? a.naturalKey now)
    (hw : ∀ program, p ≠ .waiting program)
    (hkey : ∀ x, b = some x → x.naturalKey = a.naturalKey) (halike : Option.Rel (Alike bound) b b')
    (hkeep : ∀ x, base a.naturalKey = some x → b.map Advisory.id = some x.id)
    (hkeep' : ∀ x, base' a.naturalKey = some x → b'.map Advisory.id = some x.id)
    (hidle : (∀ rest undo, p ≠ .inside rest undo) → now = b ∧ t.ledger.copy? a.naturalKey = b')
    (hrecorded : ∀ r, Recorded bound a (struck i) (base a.naturalKey) (base' a.naturalKey)
      (g.ledger.copy? a.naturalKey) (t.ledger.copy? a.naturalKey) (.inside d undo) r →
      Recorded bound a (struck i) b b' now (t.ledger.copy? a.naturalKey) p r) :
    InStep bound reports struck ({ g with ledger := l }.setPhase i p) t
      (Function.update base a.naturalKey b) (Function.update base' a.naturalKey b') := by
  have hwithin : g.Within i := ⟨d, undo, hp⟩
  have hphase (j : Nat) (hij : i ≠ j) :
      ({ g with ledger := l }.setPhase i p).phase? j = g.phase? j :=
    Hall.phase?_setPhase_of_ne hij p
  have hself : ({ g with ledger := l }.setPhase i p).phase? i = some p :=
    Hall.phase?_setPhase_self (g := { g with ledger := l }) hp p
  have hothers (j : Nat) (c : Advisory) (hij : i ≠ j) (hj : reports[j]? = some c)
      (hk : c.naturalKey = a.naturalKey) : ¬ g.Within j :=
    fun hg => hij (h.attended.alone i j a c hi hj hk.symm hwithin hg)
  refine ⟨h.attended.setPhase hi hp hw (fun j c hij hj hk _ => hothers j c hij hj hk) l,
    hsound, horow, hn,
    h.wellKept', h.oneRow', h.nextId', ?_, ?_, ?_, ?_, ?_⟩
  · intro key x hx
    by_cases hk : key = a.naturalKey
    · subst hk
      rw [Function.update_self] at hx
      exact hkey x hx
    · rw [Function.update_of_ne hk] at hx
      exact h.keyed key x hx
  · intro key
    by_cases hk : key = a.naturalKey
    · subst hk
      rw [Function.update_self, Function.update_self]
      exact halike
    · rw [Function.update_of_ne hk, Function.update_of_ne hk]
      exact h.alike key
  · intro key hnone
    change l.copy? key = _ ∧ _
    rw [hcopy]
    by_cases hk : key = a.naturalKey
    · subst hk
      rw [Function.update_self, Function.update_self, Function.update_self]
      refine hidle ?_
      rintro rest undo rfl
      exact hnone i a hi rfl ⟨rest, undo, hself⟩
    · rw [Function.update_of_ne hk, Function.update_of_ne hk, Function.update_of_ne hk]
      exact h.elsewhere hi hk hnone
  · intro j r hj
    obtain ⟨c, q, hc, hq, hr⟩ := h.recorded j r hj
    by_cases hij : i = j
    · subst hij
      obtain rfl := Option.some.inj (hi.symm.trans hc)
      obtain rfl := Option.some.inj (hp.symm.trans hq)
      refine ⟨a, p, hi, hself, ?_⟩
      change Recorded _ _ _ _ _ (l.copy? _) _ _ _
      rw [hcopy, Function.update_self, Function.update_self, Function.update_self]
      exact hrecorded r hr
    · refine ⟨c, q, hc, (hphase j hij).trans hq, ?_⟩
      change Recorded _ _ _ _ _ (l.copy? _) _ _ _
      rw [hcopy]
      by_cases hk : c.naturalKey = a.naturalKey
      · -- a visit with the same lock cannot be inside as well
        rw [hk] at hr ⊢
        rw [Function.update_self, Function.update_self]
        refine hr.outside ?_ hkeep hkeep' _ _
        rintro rest undo rfl
        exact hothers j c hij hc hk ⟨rest, undo, hq⟩
      · rw [Function.update_of_ne hk, Function.update_of_ne hk, Function.update_of_ne hk]
        exact hr
  · intro j hj
    refine h.present j ?_
    by_cases hij : i = j
    · exact hij ▸ .inl hwithin
    · rcases hj with hg | ⟨x, hx⟩
      · exact .inl ((Hall.within_setPhase_of_ne (g := { g with ledger := l }) hij p).mp hg)
      · exact .inr ⟨x, (hphase j hij).symm.trans hx⟩

theorem enter (h : InStep bound reports struck g t base base')
    {program : SessionProgram (Advisory × SyncOutcome)} (hp : g.phase? i = some (.waiting program))
    (hm : g.mayEnter i = true) :
    InStep bound reports struck (g.setPhase i (.inside program []))
      (t.next reports struck i) base base' := by
  obtain ⟨a, hi, -⟩ := h.attended.report_of_phase? hp
  obtain rfl := h.attended.waiting i program a hp hi
  have hnobody {j : Nat} {b : Advisory} (hj : reports[j]? = some b)
    (hk : b.naturalKey = a.naturalKey) :
      ¬ g.Within j := ((h.attended.mayEnter_iff hi ⟨_, hp⟩).mp hm j b hj hk).1
  obtain ⟨hcopy, hcopy'⟩ := h.idle a.naturalKey fun j b hj hk => hnobody hj hk
  obtain ⟨r, now, m, ht, hserved, hm', hw, ho, hn⟩ :=
    Minutes.served struck h.wellKept' h.oneRow' h.nextId' hi
  rw [hcopy'] at hserved
  have hphase (j : Nat) (hij : i ≠ j) : (g.setPhase i (.inside a.sync [])).phase? j = g.phase? j :=
    Hall.phase?_setPhase_of_ne hij _
  have hself : (g.setPhase i (.inside a.sync [])).phase? i = some (.inside a.sync []) :=
    Hall.phase?_setPhase_self hp _
  rw [ht]
  refine ⟨h.attended.setPhase hi hp (by simp) (fun j b _ hj hk _ => hnobody hj hk) g.ledger,
    h.sound.stepped (.enter hp hm), h.oneRow, h.nextId, hw, ho, hn, h.keyed, h.alike, ?_, ?_, ?_⟩
  · intro key hnone
    have hk : key ≠ a.naturalKey := by
      rintro rfl
      exact hnone i a hi rfl ⟨_, _, hself⟩
    change _ ∧ m.copy? _ = _
    rw [hm', Function.update_of_ne hk]
    exact h.elsewhere hi hk hnone
  · intro j r' hj
    rcases List.mem_append.mp hj with hj | hj
    · obtain ⟨c, q, hc, hq, hr⟩ := h.recorded j r' hj
      have hij : i ≠ j := by
        rintro rfl
        obtain rfl := Option.some.inj (hp.symm.trans hq)
        cases hr
      refine ⟨c, q, hc, (hphase j hij).trans hq, ?_⟩
      change Recorded _ _ _ _ _ _ (m.copy? _) _ _
      rw [hm']
      by_cases hk : c.naturalKey = a.naturalKey
      · refine hr.outside ?_ (fun x hx => by rw [hx, Option.map_some])
          (fun x hx => by rw [hx, Option.map_some]) _ _
        rintro rest undo rfl
        exact hnobody hc hk ⟨rest, undo, hq⟩
      · rw [Function.update_of_ne hk]
        exact hr
    · obtain ⟨rfl, rfl⟩ := Prod.mk.inj (List.mem_singleton.mp hj)
      refine ⟨a, _, hi, hself, ?_⟩
      change Recorded _ _ _ _ _ (g.ledger.copy? _) (m.copy? _) _ _
      rw [hm', Function.update_self, hcopy]
      exact .inside .start hserved
  · intro j hj
    by_cases hij : i = j
    · exact hij ▸ ⟨r, List.mem_append_right _ (List.mem_singleton_self _)⟩
    · have hg : g.Within j ∨ ∃ x, g.phase? j = some (.ended (.ok x)) := by
        rcases hj with hg | ⟨x, hx⟩
        · exact .inl ((Hall.within_setPhase_of_ne hij _).mp hg)
        · exact .inr ⟨x, (hphase j hij).symm.trans hx⟩
      obtain ⟨r', hr'⟩ := h.present j hg
      exact ⟨r', List.mem_append_left _ hr'⟩

/-- What happens to visits that are not inside, and do not come in, goes unrecorded. -/
theorem aside (h : InStep bound reports struck g t base base') (hattended : Attended reports g')
    (hsound : g'.Sound) (hledger : g'.ledger = g.ledger) (hwithin : ∀ j, g'.Within j ↔ g.Within j)
    (hphase : ∀ j p, (∀ program, p ≠ .waiting program) → g.phase? j = some p → g'.phase? j = some p)
    (hended : ∀ j x, g'.phase? j = some (.ended (.ok x)) → g.phase? j = some (.ended (.ok x))) :
    InStep bound reports struck g' t base base' := by
  refine ⟨hattended, hsound, hledger ▸ h.oneRow, hledger ▸ h.nextId, h.wellKept', h.oneRow',
    h.nextId', h.keyed,
    h.alike, ?_, ?_, ?_⟩
  · intro key hnone
    rw [hledger]
    exact h.idle key fun j c hj hck hg => hnone j c hj hck ((hwithin j).mpr hg)
  · intro j r hj
    obtain ⟨c, q, hc, hq, hr⟩ := h.recorded j r hj
    refine ⟨c, q, hc, hphase j q ?_ hq, hledger ▸ hr⟩
    rintro program rfl
    cases hr
  · intro j hj
    refine h.present j ?_
    rcases hj with hg | ⟨x, hx⟩
    · exact .inl ((hwithin j).mp hg)
    · exact .inr ⟨x, hended j x hx⟩

theorem turnAway (h : InStep bound reports struck g t base base')
    {program : SessionProgram (Advisory × SyncOutcome)} (hp : g.phase? i = some (.waiting program))
    (e : Failure) :
    InStep bound reports struck (g.setPhase i (.ended (.error e))) t base base' := by
  obtain ⟨a, hi, -⟩ := h.attended.report_of_phase? hp
  refine h.aside (h.attended.setPhase hi hp (by simp) (by simp) g.ledger)
    (h.sound.moved (.turnAway hp e)) rfl
    ?_ ?_ ?_
  · intro j
    by_cases hij : i = j
    · subst hij
      rw [Hall.within_setPhase_self hp]
      simp [Hall.Within, hp]
    · exact Hall.within_setPhase_of_ne hij _
  · intro j p hw hj
    have hij : i ≠ j := by
      rintro rfl
      exact hw program (Option.some.inj (hj.symm.trans hp))
    exact (Hall.phase?_setPhase_of_ne hij _).trans hj
  · intro j x hj
    by_cases hij : i = j
    · subst hij
      cases (Hall.phase?_setPhase_self hp _).symm.trans hj
    · exact (Hall.phase?_setPhase_of_ne hij _).symm.trans hj

theorem arrive (h : InStep bound reports struck g t base base')
    (ha : reports[g.visits.length]? = some a) :
    InStep bound reports struck (g.arrive (some a.lockKey) a.sync) t base base' := by
  have old (j : Nat) (p : Visit.Phase (Advisory × SyncOutcome))
    (hw : ∀ program, p ≠ .waiting program) :
      (g.arrive (some a.lockKey) a.sync).phase? j = some p ↔ g.phase? j = some p := by
    rw [Hall.phase?_arrive]
    split
    · next hj =>
      have hnone : g.phase? j = none := by
        rw [hj]
        simp [Hall.phase?]
      rw [hnone, Option.some.injEq]
      exact ⟨fun he => absurd he.symm (hw a.sync), fun he => by cases he⟩
    · rfl
  refine h.aside (h.attended.arrive ha) (h.sound.moved (.arrive _ _)) rfl ?_ ?_ ?_
  · intro j
    constructor
    · rintro ⟨rest, undo, hq⟩
      exact ⟨rest, undo, (old j _ (by simp)).mp hq⟩
    · rintro ⟨rest, undo, hq⟩
      exact ⟨rest, undo, (old j _ (by simp)).mpr hq⟩
  · exact fun j p hw hj => (old j p hw).mpr hj
  · exact fun j x hj => (old j _ (by simp)).mp hj

theorem inside (h : InStep bound reports struck g t base base') (hi : reports[i]? = some a)
    (hp : g.phase? i = some (.inside d undo)) :
    Stage bound a (base a.naturalKey) d undo (g.ledger.copy? a.naturalKey) ∧
      ∃ r, Served bound a (base' a.naturalKey) (struck i) r (t.ledger.copy? a.naturalKey) := by
  obtain ⟨r, hr⟩ := h.present i (.inl ⟨d, undo, hp⟩)
  obtain ⟨b, q, hb, hq, hrecorded⟩ := h.recorded i r hr
  obtain rfl := Option.some.inj (hi.symm.trans hb)
  obtain rfl := Option.some.inj (hp.symm.trans hq)
  cases hrecorded with
  | inside stage served => exact ⟨stage, r, served⟩

theorem finish (h : InStep bound reports struck g t base base') {x : Advisory × SyncOutcome}
    (hp : g.phase? i = some (.inside (.done x) undo)) (hs : struck i = none) :
    ∃ base base', InStep bound reports struck (g.setPhase i (.ended (.ok x))) t base base' := by
  obtain ⟨a, hi, -⟩ := h.attended.report_of_phase? hp
  obtain ⟨stage, r, served⟩ := h.inside hi hp
  obtain ⟨id, hid, hx, hnow⟩ := stage.done bound (Int.le_refl bound)
  rw [hs] at served
  generalize hnow' : t.ledger.copy? a.naturalKey = now' at served
  cases served with
  | @through id' hid' =>
    obtain ⟨halike, houtcome⟩ := Alike.comesTo (a := a) (h.alike a.naturalKey) hid hid'
    have hkey : x.1.naturalKey = a.naturalKey := by
      rw [hx]
      exact naturalKey_comesTo fun b hb => h.keyed _ b hb
    rw [← hx] at halike
    refine ⟨_, _, h.advance hi hp g.ledger (.ended (.ok x)) (some x.1)
      (some (a.comesTo id' (base' a.naturalKey)).1) (some x.1)
      (h.sound.stepped (.finish hp)) h.oneRow h.nextId ?_ (by simp) ?_ (.some halike) ?_ ?_ ?_ ?_⟩
    · rw [← hnow, Function.update_eq_self]
    · rintro _ ⟨⟩
      exact hkey
    · intro b hb
      rw [Option.map_some, hx, id_comesTo hb]
    · intro b hb
      rw [Option.map_some, id_comesTo hb]
    · exact fun _ => ⟨rfl, hnow'⟩
    · rintro r' (⟨stage', served'⟩ | _ | _)
      rw [hs, hnow'] at served'
      generalize hrow : some (a.comesTo id' (base' a.naturalKey)).1 = now'' at served'
      cases served' with
      | @through id'' hid'' =>
        obtain ⟨halike', houtcome'⟩ := Alike.comesTo (a := a) (h.alike a.naturalKey) hid hid''
        rw [← hx] at halike' houtcome'
        exact .ended halike' houtcome' hkey rfl rfl

theorem onward (h : InStep bound reports struck g t base base')
    (hp : g.phase? i = some (.inside d undo))
    (hs : Hall.Stepped g i g')
    (hstruck : ∀ x, g'.phase? i = some (.ended (.ok x)) → struck i = none) :
    ∃ base base', InStep bound reports struck g' t base base' := by
  obtain ⟨a, hi, -⟩ := h.attended.report_of_phase? hp
  obtain ⟨stage, -⟩ := h.inside hi hp
  cases hs with
  | enter hq =>
    cases hp.symm.trans hq
  | @finish x undo' hq =>
    exact h.finish hq (hstruck x (Hall.phase?_setPhase_self hq _))
  | fail hq =>
    cases hp.symm.trans hq
    rcases stage.shape with ⟨x, hx⟩ | ⟨call, next, hx⟩ <;> cases hx
  | note hq =>
    cases hp.symm.trans hq
    rcases stage.shape with ⟨x, hx⟩ | ⟨call, next, hx⟩ <;> cases hx
  | @perform call next undo' p hq hc =>
    cases hp.symm.trans hq
    obtain ⟨p', now, hc', stage', hcopy, horow⟩ := stage.ask h.sound.wellKept h.oneRow h.nextId rfl
      fun b hb => h.keyed _ b hb
    obtain rfl := Except.ok.inj (hc.symm.trans hc')
    have hle := (perform_revocable h.sound.wellKept hc).nextId_le
    refine ⟨_, _, h.advance hi hp p.ledger (.inside (next (.ok p.reply)) (p.undo ++ undo))
      (base a.naturalKey) (base' a.naturalKey) now
      (h.sound.stepped (.perform hp hc)) horow (Int.le_trans h.nextId hle) hcopy (by simp)
      (fun b hb => h.keyed _ b hb) (h.alike _) (fun b hb => by rw [hb, Option.map_some])
      (fun b hb => by rw [hb, Option.map_some]) (fun hn => absurd rfl (hn _ _)) ?_⟩
    rintro r' (⟨-, served'⟩ | _ | _)
    exact .inside stage' served'
  | refuse hq hc =>
    cases hp.symm.trans hq
    obtain ⟨p', now, hc', -⟩ :=
      stage.ask h.sound.wellKept h.oneRow h.nextId rfl fun b hb => h.keyed _ b hb
    cases hc.symm.trans hc'

/-- A visit that is broken off takes back what it did, and its report was struck. -/
theorem breakOff (h : InStep bound reports struck g t base base')
    (hp : g.phase? i = some (.inside d undo)) {e : Failure} (hs : struck i = some e) :
    ∃ base base', InStep bound reports struck
      ({ g with ledger := g.ledger.rollback undo }.setPhase i
        (.ended (.error e))) t base base' := by
  obtain ⟨a, hi, -⟩ := h.attended.report_of_phase? hp
  obtain ⟨stage, r, served⟩ := h.inside hi hp
  obtain ⟨hcopy, horow⟩ := stage.back h.sound.wellKept h.oneRow rfl fun b hb => h.keyed _ b hb
  have hn := (h.sound.wellKept.rollback (h.sound.fits i d undo hp)).2
  rw [hs] at served
  refine ⟨_, _, h.advance hi hp (g.ledger.rollback undo) (.ended (.error e)) (base a.naturalKey)
    (base' a.naturalKey) (base a.naturalKey) (h.sound.moved (.breakOff hp e)) horow
    (hn ▸ h.nextId) hcopy (by simp) (fun b hb => h.keyed _ b hb) (h.alike _)
    (fun b hb => by rw [hb, Option.map_some]) (fun b hb => by rw [hb, Option.map_some]) ?_ ?_⟩
  · intro _
    refine ⟨rfl, ?_⟩
    generalize t.ledger.copy? a.naturalKey = now' at served
    cases served with
    | struck => rfl
  · rintro r' (⟨-, served'⟩ | _ | _)
    rw [hs] at served'
    generalize t.ledger.copy? a.naturalKey = now' at served'
    cases served' with
    | struck => exact .failed e

theorem empty {l : Ledger} (hl : l.WellKept) (ho : l.OneRowEach) (reports : List Advisory)
    (struck : Nat → Option Failure) :
    InStep l.nextId reports struck { ledger := l } ⟨l, []⟩ l.copy? l.copy? where
  attended := {
    locks := by simp [Hall.lock?]
    waiting := by simp [Hall.phase?]
    alone := by simp [Hall.Within, Hall.phase?] }
  sound := ⟨hl, by simp [Hall.phase?]⟩
  oneRow := ho
  nextId := Int.le_refl _
  wellKept' := hl
  oneRow' := ho
  nextId' := Int.le_refl _
  keyed _ _ hb := naturalKey_of_copy? hb
  alike key := by
    cases l.copy? key with
    | none => exact .none
    | some b => exact .some (.refl _ b)
  idle _ _ := ⟨rfl, rfl⟩
  recorded := by simp
  present := by simp [Hall.Within, Hall.phase?]

end InStep

/-- What may happen where reports are reconciled side by side: one more is brought in, one goes on
by a step, or one is broken off. -/
inductive Event
  | report (a : Advisory)
  | step (i : Nat)
  | breakOff (i : Nat) (e : Failure)

namespace Event

def report? : Event → Option Advisory
  | report a => some a
  | _ => none

def move : Event → Hall.Move (Advisory × SyncOutcome)
  | report a => .arrive (some a.lockKey) a.sync
  | step i => .step i
  | breakOff i e => .breakOff i e

end Event

def reportsOf (events : List Event) : List Advisory := events.filterMap Event.report?

def failure? (g : Hall (Advisory × SyncOutcome)) (i : Nat) : Option Failure :=
  match g.phase? i with
  | some (.ended (.error e)) => some e
  | _ => none

section Events

variable {g g' : Hall (Advisory × SyncOutcome)} {t : Minutes}
    {base base' : Source × String → Option Advisory}

theorem InStep.event (h : InStep bound reports struck g t base base') {event : Event}
    (hreport : ∀ a, event = .report a → reports[g.visits.length]? = some a)
    (hstruck : ∀ i r, (g.move event.move).phase? i = some (.ended r) →
      struck i = (failure? (g.move event.move) i)) :
    (∃ base base', InStep bound reports struck (g.move event.move)
      ((g.entering event.move).toList.foldl (Minutes.next reports struck) t) base base') ∧
    ((g.entering event.move).toList.foldl (Minutes.next reports struck) t).results.map Prod.fst =
      t.results.map Prod.fst ++ (g.entering event.move).toList := by
  have hw := g.went event.move
  generalize g.move event.move = g' at hw hstruck ⊢
  generalize g.entering event.move = e at hw ⊢
  generalize hm : event.move = m at hw
  cases hw with
  | rest => exact ⟨⟨_, _, h⟩, by simp⟩
  | arrive lock program =>
    cases event with
    | report a =>
      cases hm
      exact ⟨⟨_, _, h.arrive (hreport a rfl)⟩, by simp⟩
    | _ => cases hm
  | @enter i program hp hmay =>
    refine ⟨⟨_, _, h.enter hp hmay⟩, ?_⟩
    obtain ⟨a, hi, -⟩ := h.attended.report_of_phase? hp
    simp [Minutes.next, hi]
  | onward hp hs =>
    refine ⟨h.onward hp hs fun x hx => ?_, by simp⟩
    rw [hstruck _ _ hx, failure?, hx]
  | turnAway hp e => exact ⟨⟨_, _, h.turnAway hp e⟩, by simp⟩
  | @breakOff i rest undo hp e =>
    have hended := Hall.phase?_setPhase_self (g := { g with ledger := g.ledger.rollback undo }) hp
      (.ended (.error e))
    refine ⟨h.breakOff hp ?_, by simp⟩
    rw [hstruck i _ hended, failure?, hended]

theorem length_visits_play (g : Hall (Advisory × SyncOutcome)) (events : List Event) :
    (g.play (events.map Event.move)).visits.length = g.visits.length +
      (reportsOf events).length := by
  induction events generalizing g with
  | nil => rfl
  | cons event rest ih =>
    have hrest := ih (g.move event.move)
    rw [g.length_visits_move event.move] at hrest
    rw [List.map_cons, Hall.play, List.foldl_cons, ← Hall.play, hrest]
    cases event with
    | report a => exact (Nat.add_assoc _ _ _).trans (congrArg _ (Nat.add_comm _ _))
    | step i => rfl
    | breakOff i e => rfl

/-- From event to event the hall keeps in step with the minutes. -/
theorem InStep.play (h : InStep bound reports struck g t base base') (events : List Event)
    (hreports : reports.drop g.visits.length = reportsOf events)
    (hstruck : struck = failure? (g.play (events.map Event.move))) :
    (∃ base base', InStep bound reports struck (g.play (events.map Event.move))
      ((g.order (events.map Event.move)).foldl (Minutes.next reports struck) t) base base') ∧
    ((g.order (events.map Event.move)).foldl (Minutes.next reports struck) t).results.map Prod.fst =
      t.results.map Prod.fst ++ g.order (events.map Event.move) := by
  induction events generalizing g t base base' with
  | nil => exact ⟨⟨_, _, h⟩, by simp [Hall.order]⟩
  | cons event rest ih =>
    have hlength := g.length_visits_move event.move
    have hnext : ∀ a, event = .report a → reports[g.visits.length]? = some a := by
      rintro a rfl
      rw [← List.head?_drop, hreports]
      rfl
    obtain ⟨⟨_, _, hevent⟩, hresults⟩ := h.event hnext fun i r hr => by
      rw [hstruck, failure?, failure?, hr, List.map_cons, Hall.play, List.foldl_cons]
      have hended := Hall.ended_play hr (rest.map Event.move)
      rw [Hall.play] at hended
      rw [hended]
    have hrest : reports.drop (g.move event.move).visits.length = reportsOf rest := by
      rw [hlength]
      cases event with
      | report a => rw [← List.drop_drop, hreports]; rfl
      | step i => exact hreports
      | breakOff i e => exact hreports
    obtain ⟨hplay, hall⟩ := ih hevent hrest hstruck
    rw [List.map_cons, Hall.order, List.foldl_append]
    refine ⟨hplay, ?_⟩
    rw [hall, hresults, List.append_assoc]

theorem InStep.settled (h : InStep bound reports struck g t base base')
    (hended : ∀ i < reports.length, ∃ r, g.phase? i = some (.ended r)) :
    g.ledger.copy? = base ∧ t.ledger.copy? = base' := by
  have hidle (key : Source × String) : g.ledger.copy? key = base key ∧
      t.ledger.copy? key = base' key := by
    refine h.idle key fun i a hi _ hg => ?_
    obtain ⟨r, hr⟩ := hended i (List.getElem?_eq_some_iff.mp hi).1
    obtain ⟨rest, undo, hp⟩ := hg
    cases hr.symm.trans hp
  exact ⟨funext fun key => (hidle key).1, funext fun key => (hidle key).2⟩

end Events

/-- How the rows of one ledger are numbered in another: rows that are not new have the same ids in
both. -/
structure Renumbers (number : Int → Int) (bound : Int) (l m : Ledger) : Prop where
  old : ∀ i, i < bound → number i = i
  new : ∀ i, bound ≤ i → bound ≤ number i
  injective : ∀ i j b c, l.advisories.get? i = some b → l.advisories.get? j = some c →
    number i = number j → i = j
  rows : ∀ j c, m.advisories.get? j = some c ↔
    ∃ i b, l.advisories.get? i = some b ∧ number i = j ∧ c = b.renumbered (some j)

/-- What became of a report, with the row under the id that it has elsewhere. -/
def renumberedResult (number : Int → Int) (r : Result) : Result :=
  r.map fun x => (x.1.renumbered (x.1.id.map number), x.2)

/-- The id that the copy on a row has in another ledger. -/
def numberIn (l m : Ledger) (i : Int) : Int :=
  (((l.advisories.get? i).bind fun b => m.copy? b.naturalKey).bind Advisory.id).getD i

section Numbers

variable {l m : Ledger} {b c : Advisory} {k n : Int}

theorem numberIn_of_copy? (hl : l.WellKept) (hb : l.copy? c.naturalKey = some b)
    (hc : m.copy? c.naturalKey = some c) (hk : b.id = some k) (hn : c.id = some n) :
    numberIn l m k = n := by
  obtain ⟨i, hi, hget⟩ := get?_of_copy? hl hb
  obtain rfl := Option.some.inj (hk.symm.trans hi)
  simp only [numberIn, hget, Option.bind_some, naturalKey_of_copy? hb, hc, hn, Option.getD_some]

theorem exists_counterpart (hl : l.WellKept) (ho : l.OneRowEach) (hm : m.WellKept)
    (h : ∀ key, Option.Rel (Alike bound) (l.copy? key) (m.copy? key))
    (hb : l.advisories.get? k = some b) :
    ∃ c, m.advisories.get? (numberIn l m k) = some c ∧ Alike bound b c ∧ b.id = some k ∧
      c.id = some (numberIn l m k) := by
  have hcopy := (copy?_eq_some_iff hl ho).mpr ⟨k, hb, rfl⟩
  have hrel := h b.naturalKey
  rw [hcopy] at hrel
  generalize hc : m.copy? b.naturalKey = c? at hrel
  cases hrel with
  | @some _ c halike =>
    obtain ⟨j, hj, hget⟩ := get?_of_copy? hm hc
    have hbid := (hl.advisories k b hb).1
    rw [halike.naturalKey] at hcopy hc
    rw [numberIn_of_copy? hl hcopy hc hbid hj]
    exact ⟨c, hget, halike, hbid, hj⟩

theorem numberIn_of_none (hk : l.advisories.get? k = none) :
    numberIn l m k = k := by simp [numberIn, hk]

/-- Ledgers whose copies are alike are the same but for the ids of new rows. -/
theorem renumbers_numberIn (hl : l.WellKept) (ho : l.OneRowEach) (hm : m.WellKept)
    (hmo : m.OneRowEach)
    (h : ∀ key, Option.Rel (Alike bound) (l.copy? key) (m.copy? key)) :
    Renumbers (numberIn l m) bound l m := by
  constructor
  · intro i hi
    cases hget : l.advisories.get? i with
    | none => exact numberIn_of_none hget
    | some b =>
      obtain ⟨c, -, halike, hbid, hcid⟩ := exists_counterpart hl ho hm h hget
      exact Option.some.inj (hcid.symm.trans ((halike.old i hi).mp hbid))
  · intro i hi
    cases hget : l.advisories.get? i with
    | none => rwa [numberIn_of_none hget]
    | some b =>
      obtain ⟨c, -, halike, hbid, hcid⟩ := exists_counterpart hl ho hm h hget
      by_contra hlt
      have hold := (halike.old _ (Int.not_le.mp hlt)).mpr hcid
      have heq := Option.some.inj (hbid.symm.trans hold)
      exact hlt (heq ▸ hi)
  · intro i j b c hb hc hij
    obtain ⟨b', hb', halike, -⟩ := exists_counterpart hl ho hm h hb
    obtain ⟨c', hc', halike', -⟩ := exists_counterpart hl ho hm h hc
    rw [hij] at hb'
    obtain rfl := Option.some.inj (hb'.symm.trans hc')
    exact ho i j b c hb hc (halike.naturalKey.trans halike'.naturalKey.symm)
  · intro j c
    constructor
    · intro hc
      have hcopy := (copy?_eq_some_iff hm hmo).mpr ⟨j, hc, rfl⟩
      have hrel := h c.naturalKey
      rw [hcopy] at hrel
      generalize hb : l.copy? c.naturalKey = b? at hrel
      cases hrel with
      | @some b _ halike =>
        obtain ⟨i, hi, hget⟩ := get?_of_copy? hl hb
        have hcid := (hm.advisories j c hc).1
        refine ⟨i, b, hget, numberIn_of_copy? hl hb hcopy hi hcid, ?_⟩
        rw [← hcid]
        exact halike.rest.symm
    · rintro ⟨i, b, hb, rfl, rfl⟩
      obtain ⟨c, hget, halike, -, hcid⟩ := exists_counterpart hl ho hm h hb
      rw [hget, ← halike.rest, hcid]

end Numbers

def sideBySide (l : Ledger) (events : List Event) : Hall (Advisory × SyncOutcome) :=
  Hall.play { ledger := l } (events.map Event.move)

/-- The reports in the order in which their reconciliations entered. -/
def entered (l : Ledger) (events : List Event) : List Nat := Hall.order { ledger := l } (events.map Event.move)

/-- The same reports in that order one after the other; those that failed side by side fail. -/
def minutes (l : Ledger) (events : List Event) : Minutes :=
  inTurn (reportsOf events) (failure? (sideBySide l events)) l (entered l events)

/-- Reports about one advisory exclude each other, and no others do. -/
structure Exclusive (reports : List Advisory) (g : Hall (Advisory × SyncOutcome)) : Prop where
  alone : ∀ i j a b, reports[i]? = some a → reports[j]? = some b → a.naturalKey = b.naturalKey →
    g.Within i → g.Within j → i = j
  mayEnter : ∀ i a, reports[i]? = some a → g.Waits i → (g.mayEnter i = true ↔
    ∀ j b, reports[j]? = some b → b.naturalKey = a.naturalKey → ¬ g.Within j ∧
      (j < i → ¬ g.Waits j))

/-- Reports that are reconciled side by side, with any of them broken off anywhere: no advisory ever
has two rows. Once all have ended, the rows and what became of each report are, but for the ids of
new rows, those of the reports that entered in their turn. -/
theorem serializable {l : Ledger} (hl : l.WellKept) (ho : l.OneRowEach) (events : List Event) :
    (sideBySide l events).ledger.OneRowEach ∧
      (∀ a b : Advisory, a.lockKey = b.lockKey ↔ a.naturalKey = b.naturalKey) ∧
      Exclusive (reportsOf events) (sideBySide l events) ∧
      (entered l events).Nodup ∧ (minutes l events).results.map Prod.fst = entered l events ∧
      ((sideBySide l events).isOver = true →
        (∀ i < (reportsOf events).length, i ∉ entered l events →
          ∃ e, (sideBySide l events).phase? i = some (.ended (.error e))) ∧
        ∃ number, Renumbers number l.nextId (sideBySide l events).ledger (minutes l events).ledger ∧
          ∀ i r, (i, r) ∈ (minutes l events).results →
            ∃ r', (sideBySide l events).phase? i = some (.ended r') ∧
              r = renumberedResult number r') := by
  have hempty := InStep.empty hl ho (reportsOf events) (failure? (sideBySide l events))
  obtain ⟨⟨base, base', h⟩, hresults⟩ := hempty.play events rfl rfl
  change InStep _ _ _ (sideBySide l events) (minutes l events) base base' at h
  change (minutes l events).results.map Prod.fst = entered l events at hresults
  refine ⟨h.oneRow, lockKey_eq_iff,
    ⟨h.attended.alone, fun i a hi hw => h.attended.mayEnter_iff hi hw⟩,
    Hall.nodup_order _ _, hresults, fun hover => ?_⟩
  have hended (i : Nat) (hi : i < (reportsOf events).length) :
      ∃ r, (sideBySide l events).phase? i = some (.ended r) := by
    refine Hall.ended_of_isOver hover ?_
    rw [sideBySide, length_visits_play]
    simpa using hi
  constructor
  · intro i hi hout
    obtain ⟨r, hr⟩ := hended i hi
    cases r with
    | error e => exact ⟨e, hr⟩
    | ok x =>
      obtain ⟨r', hr'⟩ := h.present i (.inr ⟨x, hr⟩)
      exact absurd (hresults ▸ List.mem_map_of_mem hr') hout
  · obtain ⟨hbase, hbase'⟩ := h.settled hended
    have hrel := h.alike
    rw [← hbase, ← hbase'] at hrel
    refine ⟨_, renumbers_numberIn h.sound.wellKept h.oneRow h.wellKept' h.oneRow' hrel,
      fun i r hr => ?_⟩
    obtain ⟨a, p, hi, hp, hrecorded⟩ := h.recorded i r hr
    obtain ⟨r', hr'⟩ := hended i (List.getElem?_eq_some_iff.mp hi).1
    obtain rfl := Option.some.inj (hp.symm.trans hr')
    refine ⟨r', hp, ?_⟩
    cases hrecorded with
    | failed e => rfl
    | @ended x y halike houtcome hkey hkept hkept' =>
      rw [← hbase] at hkept
      rw [← hbase'] at hkept'
      obtain ⟨b, hb, hbid⟩ := Option.map_eq_some_iff.mp hkept
      obtain ⟨c, hc, hcid⟩ := Option.map_eq_some_iff.mp hkept'
      obtain ⟨k, hk, -⟩ := get?_of_copy? h.sound.wellKept hb
      obtain ⟨n, hn, -⟩ := get?_of_copy? h.wellKept' hc
      have hkn : numberIn (sideBySide l events).ledger (minutes l events).ledger k = n := by
        rw [← naturalKey_of_copy? hc] at hb hc
        exact numberIn_of_copy? h.sound.wellKept hb hc hk hn
      have hx : x.1.id.map (numberIn (sideBySide l events).ledger (minutes l events).ledger) =
          y.1.id := by
        rw [← hbid, hk, ← hcid, hn, Option.map_some, hkn]
      have hy : y = (x.1.renumbered y.1.id, x.2) := Prod.ext halike.rest.symm houtcome.symm
      rw [renumberedResult, Except.map, hx, ← hy]

/-- Three reports, two of them on one advisory. The third enters first and writes last, and the
second is broken off when it has written. -/
def contention : List Event :=
  [.report { vulnId := "CVE-1" }, .report { vulnId := "CVE-1", description := some "x" },
    .report { vulnId := "CVE-2" }, .step 2, .step 1, .step 0, .step 0, .step 0, .step 0, .step 1,
      .step 1, .step 1,
    .breakOff 1 .wrongKind, .step 2, .step 2, .step 2]

theorem serializable_contended :
    ({} : Ledger).WellKept ∧ ({} : Ledger).OneRowEach ∧ entered {} contention = [2, 0, 1] ∧
      (failure? (sideBySide {} contention) 1).isSome = true ∧
      (sideBySide {} contention).ledger.advisories.map (fun x => (x.1, x.2.vulnId)) =
        [(1, "CVE-1"), (2, "CVE-2")] ∧
      (minutes {} contention).ledger.advisories.map (fun x => (x.1, x.2.vulnId)) =
        [(1, "CVE-2"), (2, "CVE-1")] ∧
      ∃ number, Renumbers number 1 (sideBySide {} contention).ledger
        (minutes {} contention).ledger := by
  have ho : ({} : Ledger).OneRowEach := by simp [OneRowEach, Table.get?]
  obtain ⟨-, -, -, -, -, hended⟩ := serializable wellKept_empty ho contention
  obtain ⟨-, number, hnumber, -⟩ := hended (by decide +kernel)
  exact ⟨wellKept_empty, ho, by decide +kernel, by decide +kernel, by decide +kernel,
    by decide +kernel, number, hnumber⟩

end Advisory

end AdvisoryLedger

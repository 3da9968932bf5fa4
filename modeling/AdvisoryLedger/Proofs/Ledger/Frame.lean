import AdvisoryLedger.Proofs.Ledger.Entries

namespace AdvisoryLedger

/-- Every operation that the dialogue may ask for is of a kind. -/
def Dialogue.Asks {Op : Type} {Reply : Op → Type} {α : Type} (P : Op → Prop) :
    Dialogue Op Reply α → Prop
  | .done _ => True
  | .fail _ => True
  | .note _ rest => rest.Asks P
  | .ask op next => P op ∧ ∀ r, (next r).Asks P

namespace Dialogue

variable {Op : Type} {Reply : Op → Type} {α β : Type} {P : Op → Prop}

theorem Asks.bind {d : Dialogue Op Reply α} (h : d.Asks P) {f : α → Dialogue Op Reply β}
    (hf : ∀ a, (f a).Asks P) : (d >>= f).Asks P := by
  change (d.bind f).Asks P
  induction d with
  | done a => exact hf a
  | fail => trivial
  | note entry rest ih => exact ih h
  | ask op next ih => exact ⟨h.1, fun r => ih r (h.2 r)⟩

end Dialogue

theorem Dialogue.Asks.mono {Op : Type} {Reply : Op → Type} {α : Type} {P Q : Op → Prop}
    {d : Dialogue Op Reply α} (h : d.Asks P) (hpq : ∀ op, P op → Q op) : d.Asks Q := by
  induction d with
  | done a => trivial
  | fail => trivial
  | note entry rest ih => exact ih h
  | ask op next ih => exact ⟨hpq op h.1, fun r => ih r (h.2 r)⟩

/-- The dialogue fails as soon as an operation does, and asks for operations of one kind only. -/
structure Dialogue.Confined {Op : Type} {Reply : Op → Type} {α : Type} (P : Op → Prop)
    (d : Dialogue Op Reply α) : Prop where
  strict : d.Strict
  asks : d.Asks P

namespace Dialogue

variable {Op : Type} {Reply : Op → Type} {α β : Type} {P : Op → Prop}

theorem Confined.bind {d : Dialogue Op Reply α} (h : d.Confined P) {f : α → Dialogue Op Reply β}
    (hf : ∀ a, (f a).Confined P) : (d >>= f).Confined P :=
  ⟨h.strict.bind fun a => (hf a).strict, h.asks.bind fun a => (hf a).asks⟩

theorem Confined.mono {Q : Op → Prop} {d : Dialogue Op Reply α} (h : d.Confined P)
    (hpq : ∀ op, P op → Q op) : d.Confined Q := ⟨h.strict, h.asks.mono hpq⟩

theorem confined_pure (a : α) : (pure a : Dialogue Op Reply α).Confined P := ⟨trivial, trivial⟩

theorem confined_fail (e : Failure) : (.fail e : Dialogue Op Reply α).Confined P :=
  ⟨trivial, trivial⟩

theorem confined_log (entry : LogEntry) : (log entry : Dialogue Op Reply Unit).Confined P :=
  ⟨trivial, trivial⟩

theorem confined_ite {c : Prop} [Decidable c] {d e : Dialogue Op Reply α} (hd : d.Confined P)
    (he : e.Confined P) : (if c then d else e).Confined P := by
  split
  · exact hd
  · exact he

theorem confined_ofExcept (x : Except Failure α) :
    (ofExcept x : Dialogue Op Reply α).Confined P := by
  cases x <;> exact ⟨trivial, trivial⟩

end Dialogue

theorem Call.confined_ask {P : Call → Prop} {call : Call} (h : P call) : call.ask.Confined P := by
  refine ⟨call.strict_ask, h, ?_⟩
  intro r
  exact (Dialogue.confined_ofExcept r).asks

namespace Ledger

variable {l m n : Ledger}

/-- Nothing has changed but the entries of one advisory and one source, the association of that
advisory, and rows of ranges that were not there before. -/
structure StaysWithin (v : Int) (s : Source) (l m : Ledger) : Prop where
  advisories : ∀ id, m.advisories.get? id = l.advisories.get? id
  config : ∀ key, m.config.get? key = l.config.get? key
  associated : ∀ w, w ≠ v → m.associated w = l.associated w
  ranges : ∀ id r, l.ranges.get? id = some r → m.ranges.get? id = some r
  attributions : ∀ id a, a.advisoryId ≠ v ∨ a.source ≠ s →
    (m.attributions.get? id = some a ↔ l.attributions.get? id = some a)

namespace StaysWithin

variable {v : Int} {s : Source}

theorem refl (v : Int) (s : Source) (l : Ledger) : StaysWithin v s l l :=
  ⟨fun _ => rfl, fun _ => rfl, fun _ _ => rfl, fun _ _ h => h, fun _ _ _ => Iff.rfl⟩

theorem trans (h : StaysWithin v s l m) (h' : StaysWithin v s m n) : StaysWithin v s l n where
  advisories id := (h'.advisories id).trans (h.advisories id)
  config key := (h'.config key).trans (h.config key)
  associated w hw := (h'.associated w hw).trans (h.associated w hw)
  ranges id r hr := h'.ranges id r (h.ranges id r hr)
  attributions id a ha := (h'.attributions id a ha).trans (h.attributions id a ha)

theorem of_agrees (h : m.Agrees l) : StaysWithin v s l m where
  advisories := h.advisories
  config := h.config
  associated w _ := h.associated w
  ranges id r hr := (h.ranges id).trans hr
  attributions id a _ := by rw [h.attributions id]

end StaysWithin

/-- The requests that stay within the entries of an advisory and a source. -/
def IsWithin (v : Int) (s : Source) : Call → Prop
  | .insertAdvisory _ => False
  | .updateAdvisory _ => False
  | .insertAttribution a => a.advisoryId = v ∧ a.source = s
  | .touchAttributions w _ x _ => w = v ∧ x = s
  | .deleteAttributions w _ x => w = v ∧ x = s
  | .setRanges w _ => w = v
  | .setConfig .. => False
  | _ => True

section

variable {v : Int} {s : Source}

theorem not_isMatch {a : Attribution} (h : a.advisoryId ≠ v ∨ a.source ≠ s) (k : Int)
    (ids : List Int) :
    isMatch v ids s (k, a) = false := by
  rcases h with h | h <;> simp [isMatch, h]

theorem WellKept.insertAttribution_within (hl : l.WellKept) {a : Attribution}
    (ha : a.advisoryId = v ∧ a.source = s) :
    StaysWithin v s l { l with attributions := l.attributions.put l.nextId a, nextId := l.nextId + 1 } := by
  refine { StaysWithin.refl v s l with attributions := ?_ }
  intro id b hb
  have hn := Table.get?_eq_none_iff.mpr hl.attributions.bound_notMem
  rw [Table.get?_put]
  split
  · next he =>
    rw [← he, hn]
    simp only [Option.some.injEq, reduceCtorEq, iff_false]
    rintro rfl
    rcases hb with h | h
    · exact h ha.1
    · exact h ha.2
  · exact Iff.rfl

theorem WellKept.insertRange_within (hl : l.WellKept) (r : AffectedRange) :
    StaysWithin v s l { l with ranges := l.ranges.put l.nextId r, nextId := l.nextId + 1 } := by
  refine { StaysWithin.refl v s l with ranges := ?_ }
  intro id q hq
  have hne : l.nextId ≠ id := by
    have hlt := (hl.ranges id q hq).2
    omega
  rw [Table.get?_put, if_neg hne]
  exact hq

theorem touched_within (ids : List Int) (t : Moment) :
    StaysWithin v s l { l with attributions := l.touched v ids s t } := by
  refine { StaysWithin.refl v s l with attributions := ?_ }
  intro id b hb
  rw [touched, Table.get?_mapWhere]
  constructor
  · intro h
    obtain ⟨a, ha, rfl⟩ := Option.map_eq_some_iff.mp h
    have ha' : a.advisoryId ≠ v ∨ a.source ≠ s := by
      by_cases hm : isMatch v ids s (id, a) = true
      · simpa [hm] using hb
      · simpa [hm] using hb
    rw [not_isMatch ha']
    exact ha
  · intro h
    rw [h, Option.map_some, not_isMatch hb]
    rfl

theorem WellKept.remaining_within (hl : l.WellKept) (ids : List Int) :
    StaysWithin v s l { l with attributions := l.remaining v ids s } := by
  refine { StaysWithin.refl v s l with attributions := ?_ }
  intro id b hb
  rw [remaining, Table.get?_filter hl.distinct.attributions, Option.filter_eq_some_iff,
    not_isMatch hb]
  simp

theorem setRanges_within (ids : RowSet) :
    StaysWithin v s l { l with associations := l.associations.put v ids } := by
  refine { StaysWithin.refl v s l with associated := ?_ }
  intro w hw
  rw [associated_put, if_neg hw.symm]

/-- A request within the entries of an advisory and a source changes nothing beyond them. -/
theorem perform_within (hl : l.WellKept) {call : Call} (hc : IsWithin v s call)
    {p : Performed call.Reply} (h : l.perform call = .ok p) : StaysWithin v s l p.ledger := by
  cases performs_of_perform h with
  | read _ reply => exact StaysWithin.refl v s l
  | insertAdvisory _ => exact hc.elim
  | updateAdvisory _ _ => exact hc.elim
  | insertRange r => exact hl.insertRange_within _
  | insertAttribution _ => exact hl.insertAttribution_within hc
  | touchAttributions id ids source seenAt =>
    rw [hl.foldl_touch]
    obtain ⟨rfl, rfl⟩ := hc
    exact touched_within ids seenAt
  | deleteAttributions id ids source =>
    rw [hl.foldl_delete]
    obtain ⟨rfl, rfl⟩ := hc
    exact hl.remaining_within ids
  | setRanges id ids =>
    obtain rfl := hc
    exact setRanges_within _
  | setConfig group name value => exact hc.elim

theorem Gives.within {α : Type} {program : SessionProgram α} {a : α} (h : Gives program l a m)
    (hl : l.WellKept) (hp : program.Asks (IsWithin v s)) : StaysWithin v s l m := by
  induction program generalizing l with
  | done b => exact h.2 ▸ StaysWithin.refl v s l
  | fail e => exact h.elim
  | note entry rest ih => exact ih h hl hp
  | ask call next ih =>
    simp only [Gives] at h
    cases hq : l.perform call with
    | error e =>
      rw [hq] at h
      exact ih _ h hl (hp.2 _)
    | ok p =>
      rw [hq] at h
      have hw := perform_within hl hp.1 hq
      exact hw.trans (ih _ h (perform_revocable hl hq).wellKept (hp.2 _))

theorem perform_advisories {call : Call} (hc : IsWithin v s call) {p : Performed call.Reply}
    (h : l.perform call = .ok p) : p.ledger.advisories = l.advisories := by
  cases performs_of_perform h with
  | insertAdvisory _ => exact hc.elim
  | updateAdvisory _ _ => exact hc.elim
  | _ => rfl

theorem Gives.advisories {α : Type} {program : SessionProgram α} {a : α} (h : Gives program l a m)
    (hp : program.Asks (IsWithin v s)) : m.advisories = l.advisories := by
  induction program generalizing l with
  | done b => rw [h.2]
  | fail e => exact h.elim
  | note entry rest ih => exact ih h hp
  | ask call next ih =>
    simp only [Gives] at h
    cases hq : l.perform call with
    | error e =>
      rw [hq] at h
      exact ih _ h (hp.2 _)
    | ok p =>
      rw [hq] at h
      exact (ih _ h (hp.2 _)).trans (perform_advisories hp.1 hq)

end

section

variable {v i : Int} {s : Source} {call : Call} {p : Performed call.Reply}

theorem perform_keepsRange (hl : l.WellKept) (h : l.perform call = .ok p) {r : AffectedRange}
    (hr : l.ranges.get? i = some r) : p.ledger.ranges.get? i = some r := by
  cases performs_of_perform h with
  | insertRange q => exact (hl.insertRange_within (v := 0) (s := .nvd) _).ranges i r hr
  | _ => exact hr

/-- Only a request that deletes a range's attributions by a source makes the source attribute it no
more. -/
theorem perform_keepsAttributed (hl : l.WellKept) (h : l.perform call = .ok p)
    (hd : ∀ ids, call = .deleteAttributions v ids s → i ∉ ids) (ha : l.isAttributed v i s = true) :
    p.ledger.isAttributed v i s = true := by
  rw [isAttributed_iff] at ha ⊢
  cases performs_of_perform h with
  | insertAttribution _ =>
    rw [hl.entries_insertAttribution]
    split <;> simp [ha]
  | touchAttributions id ids source seenAt =>
    rw [hl.foldl_touch, entries_touched]
    split <;> simpa using ha
  | deleteAttributions id ids source =>
    rw [hl.foldl_delete, entries_remaining, if_neg]
    · exact ha
    · rintro ⟨rfl, hi, rfl⟩
      exact hd ids rfl hi
  | _ => exact ha

theorem perform_keepsAssociated (h : l.perform call = .ok p)
    (hk : call.kind ≠ .setRanges) (v : Int) :
    p.ledger.associated v = l.associated v := by
  cases performs_of_perform h with
  | setRanges => exact absurd rfl hk
  | _ => rfl

end

end Ledger

/-- A program confined to an advisory and a source changes nothing beyond them, also where it fails
and is taken back. -/
theorem FaultyLedger.transact_within {α : Type} {program : SessionProgram α} {v : Int} {s : Source}
    (hp : program.Confined (Ledger.IsWithin v s)) {f : FaultyLedger} (hf : f.ledger.WellKept) :
    Ledger.StaysWithin v s f.ledger (f.transact program).state.ledger := by
  cases h : (f.transact program).result with
  | ok a => exact (gives_of_transact hp.strict h).within hf hp.asks
  | error e => exact Ledger.StaysWithin.of_agrees (transact_agrees hf h)

end AdvisoryLedger

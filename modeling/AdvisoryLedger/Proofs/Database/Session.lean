import AdvisoryLedger.Database.Session
import AdvisoryLedger.Proofs.Database.Row

namespace AdvisoryLedger

namespace Dialogue

variable {Op Op' : Type} {Reply : Op → Type} {Reply' : Op' → Type} {α β σ : Type}
  (answer : (op : Op') → σ → Except Failure (Reply' op) × σ)

theorem run_answered (d : Dialogue Op' Reply' α)
    (k : Except Failure α → Dialogue Op' Reply' β) (s : σ) :
    ((expand.answered d k).run answer s).result =
      ((k (d.run answer s).result).run answer (d.run answer s).state).result ∧
      ((expand.answered d k).run answer s).state =
        ((k (d.run answer s).result).run answer (d.run answer s).state).state := by
  induction d generalizing s with
  | done => exact ⟨rfl, rfl⟩
  | fail => exact ⟨rfl, rfl⟩
  | note entry rest ih => exact ih s
  | ask op next ih => exact ih _ _

/-- A party that holds a dialogue of its own for every operation. -/
def party (f : (op : Op) → Dialogue Op' Reply' (Reply op)) (op : Op) (s : σ) :
    Except Failure (Reply op) × σ :=
  (((f op).run answer s).result, ((f op).run answer s).state)

theorem run_expand (f : (op : Op) → Dialogue Op' Reply' (Reply op))
    (d : Dialogue Op Reply α) (s : σ) :
    ((d.expand f).run answer s).result = (d.run (party answer f) s).result ∧
      ((d.expand f).run answer s).state = (d.run (party answer f) s).state := by
  induction d generalizing s with
  | done => exact ⟨rfl, rfl⟩
  | fail => exact ⟨rfl, rfl⟩
  | note entry rest ih => exact ih s
  | ask op next ih =>
    obtain ⟨hr, hs⟩ := run_answered answer (f op) (fun reply => (next reply).expand f) s
    obtain ⟨hr', hs'⟩ := ih ((f op).run answer s).result ((f op).run answer s).state
    exact ⟨hr.trans hr', hs.trans hs'⟩

end Dialogue

namespace Database

open Statement

variable {δ : Type}

abbrev Answering (δ : Type) := (s : Statement) → δ → Except Failure s.Reply × δ

/-- A conversation between a begin and a commit. One that fails leaves the database as it was. -/
def within {α : Type} (answer : Answering δ) (c : Conversation α) (d : δ) : Run δ α :=
  let r := c.run answer d
  match r.result with
  | .ok a => ⟨.ok a, r.state, r.entries⟩
  | .error e => ⟨.error e, d, r.entries⟩

@[reducible] def store (answer : Answering δ) : Store δ :=
  ⟨fun lock program d => within answer (transaction lock program) d⟩

/-- What a database holds of advisories: the row of each identity, and the id that the next row
gets. -/
structure Holding where
  row? : Source × String → Option Row
  nextId : Int

/-- The database gives back what was written. Rows are found by identity, a new one gets the next
id, and writing goes over the values of the row of that id. -/
structure GivesBack (answer : Answering δ) (holding : δ → Holding) : Prop where
  lock : ∀ d key, ∃ status d', answer (.lock key) d = (.ok status, d') ∧ holding d' = holding d
  select : ∀ d forUpdate source vulnId, ∃ d', answer (.selectAdvisory forUpdate source vulnId) d =
    (.ok ((holding d).row? (source, vulnId)), d') ∧ holding d' = holding d
  insert : ∀ d source vulnId values, values.length = valueColumns.length →
    (holding d).row? (source, vulnId) = none →
    ∃ row d', answer (.insertAdvisory source vulnId values) d = (.ok (some row), d') ∧
      row.Holds (.int (holding d).nextId) source vulnId values ∧
      holding d' = ⟨Function.update (holding d).row? (source, vulnId) (some row),
        (holding d).nextId + 1⟩
  update : ∀ d source vulnId row id previous values, values.length = valueColumns.length →
    (holding d).row? (source, vulnId) = some row → row.Holds (.int id) source vulnId previous →
    ∃ status new d', answer (.updateAdvisory values id) d = (.ok status, d') ∧
      new.Holds (.int id) source vulnId values ∧
      holding d' = ⟨Function.update (holding d).row? (source, vulnId) (some new),
        (holding d).nextId⟩

/-- What a session answers to a request. -/
def serve (answer : Answering δ) (locked : Bool) (call : Call) (d : δ) :
    Except Failure call.Reply × δ :=
  Dialogue.party answer (converse locked) call d

variable {answer : Answering δ} {holding : δ → Holding}

theorem length_advisoryValues (a : Advisory) : (advisoryValues a).length = valueColumns.length := by
  simp [advisoryValues, valueColumns]

theorem presentRow_holds {row : Row} {id : Cell} {source : Source} {vulnId : String}
    {values : List Cell}
    (h : row.Holds id source vulnId values) : presentRow (some row) = some row := by
  cases row with
  | nil => cases h.id
  | cons _ _ => rfl

namespace GivesBack

variable (h : GivesBack answer holding) (locked : Bool)

include h

theorem serve_getAdvisory_none {d : δ} {source : Source} {vulnId : String}
    (hd : (holding d).row? (source, vulnId) = none) :
    ∃ d', serve answer locked (.getAdvisory source vulnId) d = (.ok none, d') ∧
      holding d' = holding d := by
  obtain ⟨d', ha, hd'⟩ := h.select d locked source vulnId
  refine ⟨d', ?_, hd'⟩
  simp only [serve, Dialogue.party, converse, send, Dialogue.call, bind, Dialogue.bind,
    Dialogue.run, ha, hd, presentRow, readRow, Dialogue.ofExcept, pure]

theorem serve_getAdvisory {d : δ} {row : Row} {reported a : Advisory} {id : Int}
    (hd : (holding d).row? reported.naturalKey = some row) (hs : row.States a id) :
    ∃ d', serve answer locked (.getAdvisory reported.source reported.vulnId) d =
      (.ok (some (a.stated (some id))), d') ∧ holding d' = holding d := by
  obtain ⟨d', ha, hd'⟩ := h.select d locked reported.source reported.vulnId
  refine ⟨d', ?_, hd'⟩
  have hd : (holding d).row? (reported.source, reported.vulnId) = some row := hd
  simp only [serve, Dialogue.party, converse, send, Dialogue.call, bind, Dialogue.bind,
    Dialogue.run, ha, hd, presentRow_holds hs, readRow, hs.advisory, Dialogue.ofExcept, pure]
  rfl

theorem serve_insertAdvisory {d : δ} {a : Advisory} (hd : (holding d).row? a.naturalKey = none) :
    ∃ row d', serve answer locked (.insertAdvisory a) d =
      (.ok (a.stated (some (holding d).nextId)), d') ∧
      row.States a (holding d).nextId ∧
      holding d' = ⟨Function.update (holding d).row? a.naturalKey (some row),
        (holding d).nextId + 1⟩ := by
  obtain ⟨row, d', ha, hrow, hd'⟩ :=
    h.insert d a.source a.vulnId (advisoryValues a) (length_advisoryValues a) hd
  have hs : row.States a (holding d).nextId := hrow
  refine ⟨row, d', ?_, hs, hd'⟩
  simp only [serve, Dialogue.party, converse, send, Dialogue.call, bind, Dialogue.bind,
    Dialogue.run, ha, Dialogue.ofExcept, hs.advisory]

theorem serve_updateAdvisory {d : δ} {row : Row} {old a : Advisory} {id : Int}
    (hd : (holding d).row? a.naturalKey = some row) (hs : row.States old id)
    (hk : old.naturalKey = a.naturalKey) (hid : a.id = some id) :
    ∃ new d', serve answer locked (.updateAdvisory a) d = (.ok (), d') ∧ new.States a id ∧
      holding d' = ⟨Function.update (holding d).row? a.naturalKey (some new),
        (holding d).nextId⟩ := by
  obtain ⟨hsource, hvulnId⟩ := Prod.mk.inj hk
  have hrow : row.Holds (.int id) a.source a.vulnId (advisoryValues old) := hsource ▸ hvulnId ▸ hs
  obtain ⟨status, new, d', ha, hnew, hd'⟩ :=
    h.update d a.source a.vulnId row id (advisoryValues old) (advisoryValues a)
      (length_advisoryValues a) hd hrow
  refine ⟨new, d', ?_, hnew, hd'⟩
  simp only [serve, Dialogue.party, converse, hid, send, Dialogue.call, bind, Dialogue.bind,
    Dialogue.run, ha, Dialogue.ofExcept, pure]

/-- A transaction with a lock is the program, held with what sessions answer once the lock is
taken. -/
theorem transact {α : Type} {program : SessionProgram α} {key : String}
    (hkey : key.isEmpty = false) {d : δ} {a : α} (After : Holding → Prop)
    (hrun : ∀ d', holding d' = holding d → (program.run (serve answer true) d').result = .ok a ∧
      After (holding (program.run (serve answer true) d').state)) :
    ((store answer).transact (some key) program d).result = .ok a ∧
      After (holding ((store answer).transact (some key) program d).state) := by
  obtain ⟨status, d', ha, hd'⟩ := h.lock d key
  obtain ⟨hr, hs⟩ := hrun d' hd'
  obtain ⟨hresult, hstate⟩ := Dialogue.run_expand answer (converse true) program d'
  have hlocked : (transaction (some key) program).run answer d =
      (program.expand (converse true)).run answer d' := by
    simp only [transaction, Option.getD_some, hkey, Bool.false_eq_true, if_false, send,
      Dialogue.call, bind, Dialogue.bind, Dialogue.run, ha, Dialogue.ofExcept]
  change (within answer (transaction (some key) program) d).result = .ok a ∧
    After (holding (within answer (transaction (some key) program) d).state)
  simp only [within, hlocked, hresult.trans hr, hstate]
  exact ⟨trivial, hs⟩

end GivesBack

end Database

end AdvisoryLedger

import AdvisoryLedger.Log

namespace AdvisoryLedger

/-- A computation that asks for operations; the answer to one may be that it failed. -/
inductive Dialogue (Op : Type) (Reply : Op → Type) (α : Type) : Type
  | done (result : α)
  | fail (cause : Failure)
  | note (entry : LogEntry) (rest : Dialogue Op Reply α)
  | ask (op : Op) (next : Except Failure (Reply op) → Dialogue Op Reply α)

structure Run (σ α : Type) where
  result : Except Failure α
  state : σ
  entries : List LogEntry := []

namespace Dialogue

variable {Op : Type} {Reply : Op → Type} {α β : Type}

def bind : Dialogue Op Reply α → (α → Dialogue Op Reply β) → Dialogue Op Reply β
  | .done a, f => f a
  | .fail e, _ => .fail e
  | .note entry rest, f => .note entry (rest.bind f)
  | .ask op next, f => .ask op fun reply => (next reply).bind f

instance : Monad (Dialogue Op Reply) where
  pure := .done
  bind := bind

def ofExcept : Except Failure α → Dialogue Op Reply α
  | .ok a => .done a
  | .error e => .fail e

instance : MonadLift (Except Failure) (Dialogue Op Reply) := ⟨ofExcept⟩

def attempt (op : Op) : Dialogue Op Reply (Except Failure (Reply op)) := .ask op .done

def call (op : Op) : Dialogue Op Reply (Reply op) := .ask op ofExcept

def log (entry : LogEntry) : Dialogue Op Reply Unit := .note entry (.done ())

def run {σ : Type} (answer : (op : Op) → σ → Except Failure (Reply op) × σ) :
    Dialogue Op Reply α → σ → Run σ α
  | .done a, s => ⟨.ok a, s, []⟩
  | .fail e, s => ⟨.error e, s, []⟩
  | .note entry rest, s =>
    let r := rest.run answer s
    { r with entries := entry :: r.entries }
  | .ask op next, s =>
    let (reply, s) := answer op s
    (next reply).run answer s

/-- The dialogue with every operation replaced by a dialogue in other terms. -/
def expand {Op' : Type} {Reply' : Op' → Type} (f : (op : Op) → Dialogue Op' Reply' (Reply op)) :
    Dialogue Op Reply α → Dialogue Op' Reply' α
  | .done a => .done a
  | .fail e => .fail e
  | .note entry rest => .note entry (rest.expand f)
  | .ask op next => answered (f op) fun reply => (next reply).expand f
where
  /-- Goes on from the outcome of the inner dialogue, also where that failed. -/
  answered {γ δ : Type} : Dialogue Op' Reply' γ → (Except Failure γ → Dialogue Op' Reply' δ) →
      Dialogue Op' Reply' δ
    | .done a, k => k (.ok a)
    | .fail e, k => k (.error e)
    | .note entry rest, k => .note entry (answered rest k)
    | .ask op next, k => .ask op fun reply => answered (next reply) k

@[simp] theorem done_bind (a : α) (f : α → Dialogue Op Reply β) : (done a).bind f = f a := rfl

theorem bind_done (d : Dialogue Op Reply α) : d.bind done = d := by
  induction d with
  | done => rfl
  | fail => rfl
  | note entry rest ih => simp [bind, ih]
  | ask op next ih => simp [bind, ih]

/-- Holding two dialogues after each other: the second starts from the state that the first left. -/
theorem run_bind {σ : Type} (answer : (op : Op) → σ → Except Failure (Reply op) × σ)
    (d : Dialogue Op Reply α) (f : α → Dialogue Op Reply β) (s : σ) :
    (d.bind f).run answer s =
      match (d.run answer s).result with
      | .ok a =>
        let r := (f a).run answer (d.run answer s).state
        { r with entries := (d.run answer s).entries ++ r.entries }
      | .error e => ⟨.error e, (d.run answer s).state, (d.run answer s).entries⟩ := by
  induction d generalizing s with
  | done => rfl
  | fail => rfl
  | note entry rest ih =>
    simp only [bind, run, ih]
    cases (rest.run answer s).result <;> rfl
  | ask op next ih => simp only [bind, run, ih]

end Dialogue

end AdvisoryLedger

import AdvisoryLedger.Database.Session

namespace AdvisoryLedger

inductive Sent
  | began
  | statement (s : Statement)
  | committed
  | rolledBack
  | poolClosed

/-- Answers still to come, and what was sent, the last first. An answer may be that the statement
failed. -/
structure Rehearsal where
  statuses : List (Except Failure Json) := []
  acknowledgements : List (Except Failure Unit) := []
  rowLists : List (Except Failure (List Row)) := []
  rows : List (Except Failure (Option Row)) := []
  values : List (Except Failure Json) := []
  sent : List Sent := []

namespace Rehearsal

instance : Inhabited Rehearsal := ⟨{}⟩

/-- The next answer, and those behind it; `default` where there is none. -/
def next {α : Type} (default : α) : List (Except Failure α) →
    Except Failure α × List (Except Failure α)
  | [] => (.ok default, [])
  | a :: rest => (a, rest)

def reply (r : Rehearsal) : (verb : Statement.Verb) → Except Failure verb.Reply × Rehearsal
  | .execute =>
    let (a, statuses) := next (.text "UPDATE 0") r.statuses
    (a, { r with statuses })
  | .executeMany =>
    let (a, acknowledgements) := next () r.acknowledgements
    (a, { r with acknowledgements })
  | .fetch =>
    let (a, rowLists) := next [] r.rowLists
    (a, { r with rowLists })
  | .fetchRow =>
    let (a, rows) := next none r.rows
    (a, { r with rows })
  | .fetchValue =>
    let (a, values) := next .null r.values
    (a, { r with values })

def mark (m : Sent) (r : Rehearsal) : Rehearsal := { r with sent := m :: r.sent }

def answer (s : Statement) (r : Rehearsal) : Except Failure s.Reply × Rehearsal :=
  (r.mark (.statement s)).reply s.verb

/-- A conversation between a begin and a commit, or a rollback where it failed. -/
def within {α : Type} (c : Conversation α) (r : Rehearsal) : Run Rehearsal α :=
  let x := c.run answer (r.mark .began)
  match x.result with
  | .ok a => ⟨.ok a, x.state.mark .committed, x.entries⟩
  | .error e => ⟨.error e, x.state.mark .rolledBack, x.entries⟩

instance : Store Rehearsal := ⟨fun lock program r => within (Database.transaction lock program) r⟩

def sendAll : List Statement → Conversation Unit
  | [] => pure ()
  | s :: rest => do
    let _ ← s.send
    sendAll rest

def defineTables : Work Rehearsal Unit := do
  (fun r =>
    let x := within (sendAll Schema.statements) r
    ⟨x.result, x.state, []⟩ : Work Rehearsal Unit)
  Work.log ⟨.database, .info, "🏗️ Database schema is up to date", none⟩

def close : Work Rehearsal Unit := do
  (fun r => ⟨.ok (), r.mark .poolClosed, []⟩ : Work Rehearsal Unit)
  Work.log ⟨.database, .info, "🔌 Database pool closed", none⟩

end Rehearsal

end AdvisoryLedger

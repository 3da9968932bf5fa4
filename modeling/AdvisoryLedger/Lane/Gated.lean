import AdvisoryLedger.Lane.Basic
import AdvisoryLedger.Json.Literal

namespace AdvisoryLedger

structure GatedLane where
  lane : Lane Json := {}
  permits : Option Nat := none
  unwritable : List Json := []
  label : Json → String := Json.literal
  written : List Json := []
  hasWritten : Bool := false
  entries : List LogEntry := []

namespace GatedLane

instance : Inhabited GatedLane := ⟨{}⟩

def log (g : GatedLane) (entry : LogEntry) : GatedLane := { g with entries := g.entries ++ [entry] }

/-- Writes the record that the worker holds, which uses up a permit. -/
def write (g : GatedLane) (record : Json) : Option GatedLane :=
  let g := { g with hasWritten := true }
  if g.permits = some 0 then none
  else
    let g := { g with permits := g.permits.map (· - 1) }
    if g.unwritable.any record.same then
      some ({ g with lane := g.lane.finish false }.log
        (Lane.failureEntry (g.label record) (.broken ("cannot write " ++ record.display))))
    else some { g with lane := g.lane.finish true, written := g.written ++ [record] }

def step (g : GatedLane) : Option GatedLane :=
  match g.lane.worker with
  | .writing record => g.write record
  | _ => g.lane.take.map fun lane =>
    match lane.worker with
    | .writing _ => { g with lane, hasWritten := true }
    | _ => { g with lane }

/-- Steps of the worker until it cannot move. -/
def settle : Nat → GatedLane → GatedLane
  | 0, g => g
  | steps + 1, g =>
    match g.step with
    | some g => settle steps g
    | none => g

/-- Each slot takes at most two steps, and so does what the worker holds already. -/
def calm (g : GatedLane) : GatedLane :=
  settle (2 * (g.lane.queue.length + g.lane.blocked.length) + 2) g

def submit (g : GatedLane) (record : Json) : GatedLane := calm { g with lane := g.lane.submit record }

def start (g : GatedLane) : GatedLane := calm { g with lane := g.lane.start }

def drain (g : GatedLane) : GatedLane := calm { g with lane := g.lane.drain }

def cancel (g : GatedLane) : GatedLane :=
  let g := { g with lane := g.lane.cancel }
  match g.lane.abandonedEntry? with
  | some entry => g.log entry
  | none => g

def leave (g : GatedLane) : GatedLane := (g.log g.lane.waitingEntry).drain

def release (g : GatedLane) (count : Nat) : GatedLane := calm { g with permits := g.permits.map (· + count) }

end GatedLane

end AdvisoryLedger

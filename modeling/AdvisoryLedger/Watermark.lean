import AdvisoryLedger.Work
import AdvisoryLedger.Json.Access

namespace AdvisoryLedger

structure Watermark where
  group : String := "vuln-source"
  name : String := "nvd.api.last.modified.epoch.seconds"

namespace Watermark

/-- The seconds that a property says; one that is no number is logged and counts as none. -/
def read (name : String) (value : Json) : Noted Int := do
  let text ← value.trimmedText
  if Text.isDigits text then
    match Text.readInt? text with
    | some n => pure n
    | none => Noted.fail .invalidValue
  else do
    if !text.isEmpty then
      Noted.log ⟨.watermark, .warning,
        "⚠️ Ignoring non-numeric checkpoint " ++ name ++ "=" ++ Text.quoted text, none⟩
    pure 0

variable {σ : Type} [Store σ]

def load (w : Watermark) : Work σ Int := do
  let value ← Work.transact none (Call.ask (.getConfig w.group w.name))
  read w.name value

/-- Moves the watermark, and says whether there was anything to move it to. -/
def advance (w : Watermark) : Option Moment → Work σ Bool
  | none => do
    Work.log ⟨.watermark, .debug, "Encountered no modified CVEs", none⟩
    pure false
  | some m => do
    Work.log ⟨.watermark, .debug, "Latest captured modification date: " ++ m.toIso, none⟩
    Work.transact none
      (Call.ask (.setConfig w.group w.name (some (toString m.wholeEpochSeconds))))
    pure true

def reset (w : Watermark) : Work σ Unit := do
  Work.transact none (Call.ask (.setConfig w.group w.name none))
  Work.log ⟨.watermark, .info, "🔄 Reset checkpoint " ++ w.group ++ "/" ++ w.name, none⟩

end Watermark

end AdvisoryLedger

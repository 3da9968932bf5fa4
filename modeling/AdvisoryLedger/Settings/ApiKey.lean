import AdvisoryLedger.Log
import AdvisoryLedger.Secret.Token
import AdvisoryLedger.Settings.Basic
import AdvisoryLedger.Text.Blank

namespace AdvisoryLedger.Settings

def undecryptedEntry (fault : Secret.TokenFault) : LogEntry :=
  ⟨.settings, .warning,
    "⚠️ Failed to decrypt API key; Continuing without authentication: " ++ fault.describe, none⟩

def resolveApiKey (s : Settings) : Noted (Option String) :=
  match s.apiKey.bind Text.trimmed? with
  | none => pure none
  | some key =>
    if s.apiKeyIsEncrypted then
      match Secret.reveal (s.secretKey.getD "") key with
      | .ok key => pure (some key)
      | .error fault => do
        Noted.log (undecryptedEntry fault)
        pure none
    else pure (some key)

end AdvisoryLedger.Settings

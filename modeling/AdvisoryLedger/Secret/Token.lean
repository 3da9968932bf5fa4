import AdvisoryLedger.Secret.Base64
import AdvisoryLedger.Secret.Cipher
import AdvisoryLedger.Secret.Unicode

namespace AdvisoryLedger.Secret

inductive TokenFault
  | key
  | token
  | encoding (fault : EncodingFault)

def TokenFault.describe : TokenFault → String
  | .key => "ValueError('Fernet key must be 32 url-safe base64-encoded bytes.')"
  | .token => "InvalidToken()"
  | .encoding fault => fault.describe

structure Key where
  signing : List UInt8
  encryption : List UInt8

def Key.read (s : String) : Except TokenFault Key :=
  match decode s with
  | some bytes => if bytes.length = 32 then .ok ⟨bytes.take 16, bytes.drop 16⟩ else .error .key
  | none => .error .key

/-- The bytes that a token hides. Its code is checked before anything is decrypted. -/
def Key.open? (k : Key) (token : String) : Option (List UInt8) := do
  let bytes ← decode token
  let (signed, code) := bytes.splitAt (bytes.length - 32)
  if bytes.head? = some 0x80 && 9 ≤ bytes.length && authenticationCode k.signing signed = code then
    decrypt? k.encryption ((signed.drop 9).take 16) (signed.drop 25)
  else none

def reveal (key token : String) : Except TokenFault String := do
  let k ← Key.read key
  match k.open? token with
  | none => .error .token
  | some bytes =>
    match textOfBytes bytes with
    | .ok s => .ok s
    | .error fault => .error (.encoding fault)

end AdvisoryLedger.Secret

import AdvisoryLedger.Text.Quoted

namespace AdvisoryLedger.Secret

inductive EncodingFault.Reason
  | start | continuation | ending
  deriving DecidableEq, Repr

/-- The bytes from `first` up to `last`, which does not belong to them, cannot be read. -/
structure EncodingFault where
  bytes : List UInt8
  first : Nat
  last : Nat
  reason : EncodingFault.Reason

def quotedByte (mark : Char) (b : UInt8) : List Char :=
  if b < 0x7f then Text.quotedChar mark (Char.ofNat b.toNat) else '\\' :: 'x' :: Text.hexDigits 2 b.toNat

def quotedBytes (bytes : List UInt8) : String :=
  let mark := Text.quoteMark (bytes.map fun b => Char.ofNat b.toNat)
  String.ofList ('b' :: mark :: bytes.flatMap (quotedByte mark) ++ [mark])

def EncodingFault.describe (f : EncodingFault) : String :=
  let reason := match f.reason with
    | .start => "invalid start byte"
    | .continuation => "invalid continuation byte"
    | .ending => "unexpected end of data"
  "UnicodeDecodeError('utf-8', " ++ quotedBytes f.bytes ++ ", " ++ toString f.first ++ ", " ++
    toString f.last ++ ", '" ++ reason ++ "')"

/-- How many bytes follow a first byte, and the range of the one that comes next. It is narrower
where a shorter form exists, and where the code point would be none. -/
def followers? (b : UInt8) : Option (Nat × UInt8 × UInt8) :=
  if b < 0x80 then some (0, 0x80, 0xbf)
  else if b < 0xc2 then none
  else if b < 0xe0 then some (1, 0x80, 0xbf)
  else if b = 0xe0 then some (2, 0xa0, 0xbf)
  else if b = 0xed then some (2, 0x80, 0x9f)
  else if b < 0xf0 then some (2, 0x80, 0xbf)
  else if b = 0xf0 then some (3, 0x90, 0xbf)
  else if b < 0xf4 then some (3, 0x80, 0xbf)
  else if b = 0xf4 then some (3, 0x80, 0x8f)
  else none

def leadingBits (b : UInt8) (followers : Nat) : Nat :=
  match followers with
  | 0 => b.toNat
  | n => b.toNat % (1 <<< (6 - n))

/-- The code point begun is continued by bytes still due; `seen` counts the bytes read before it. -/
structure Begun where
  point : Nat
  due : Nat
  low : UInt8
  high : UInt8
  seen : Nat

/-- Reads on; `position` counts the bytes read so far. -/
def decodePoints (position : Nat) (begun : Option Begun) :
    List UInt8 → Except (Nat × Nat × EncodingFault.Reason) (List Char)
  | [] =>
    match begun with
    | none => .ok []
    | some p => .error (p.seen, position, .ending)
  | b :: rest =>
    match begun with
    | some p =>
      if p.low ≤ b && b ≤ p.high then
        let point := 64 * p.point + b.toNat % 64
        if p.due = 1 then (decodePoints (position + 1) none rest).map (Char.ofNat point :: ·)
        else decodePoints (position + 1) (some ⟨point, p.due - 1, 0x80, 0xbf, p.seen⟩) rest
      else .error (p.seen, position, .continuation)
    | none =>
      match followers? b with
      | none => .error (position, position + 1, .start)
      | some (0, _, _) => (decodePoints (position + 1) none rest).map (Char.ofNat b.toNat :: ·)
      | some (due, low, high) =>
        decodePoints (position + 1) (some ⟨leadingBits b due, due, low, high, position⟩) rest

def textOfBytes (bytes : List UInt8) : Except EncodingFault String :=
  match decodePoints 0 none bytes with
  | .ok cs => .ok (String.ofList cs)
  | .error (first, last, reason) => .error ⟨bytes, first, last, reason⟩

example : (textOfBytes [0xc3, 0xa9, 0x61]).toOption = some "éa" := by decide +kernel

end AdvisoryLedger.Secret

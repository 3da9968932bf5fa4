namespace AdvisoryLedger.Secret

def sextet? (c : Char) : Option Nat :=
  if 'A' ≤ c && c ≤ 'Z' then some (c.toNat - 65)
  else if 'a' ≤ c && c ≤ 'z' then some (c.toNat - 71)
  else if '0' ≤ c && c ≤ '9' then some (c.toNat + 4)
  else if c = '+' || c = '-' then some 62
  else if c = '/' || c = '_' then some 63
  else none

def groupBytes : List Nat → List UInt8
  | [a, b] => [.ofNat (4 * a + b / 16)]
  | [a, b, c] => [.ofNat (4 * a + b / 16), .ofNat (b % 16 * 16 + c / 4)]
  | [a, b, c, d] => [.ofNat (4 * a + b / 16), .ofNat (b % 16 * 16 + c / 4), .ofNat (c % 4 * 64 + d)]
  | _ => []

/-- Reads on with a group begun and the padding seen since. A group that padding fills ends the
text; a group left open makes it unreadable. -/
def decodeFrom (group : List Nat) (pads : Nat) : List Char → Option (List UInt8)
  | [] => if group.isEmpty then some [] else none
  | c :: rest =>
    if c = '=' then
      if 2 ≤ group.length && 4 ≤ group.length + pads + 1 then some (groupBytes group)
      else decodeFrom group (if 2 ≤ group.length then pads + 1 else pads) rest
    else
      match sextet? c with
      | none => decodeFrom group pads rest
      | some v =>
        let group := group ++ [v]
        if group.length = 4 then (decodeFrom [] 0 rest).map (groupBytes group ++ ·)
        else decodeFrom group 0 rest

def decode (s : String) : Option (List UInt8) := decodeFrom [] 0 s.toList

example : decode "TWE=" = some [77, 97] ∧ decode "TWE" = none ∧
    decode "T W\nF-" = some [77, 97, 126] := by
  decide +kernel

end AdvisoryLedger.Secret

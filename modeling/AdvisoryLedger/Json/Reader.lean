import AdvisoryLedger.Json.Basic
import AdvisoryLedger.Binary64.Reading

namespace AdvisoryLedger.Json

def hexValue? (c : Char) : Option Nat :=
  if c.isDigit then some (c.toNat - 48)
  else if 'a' ≤ c && c ≤ 'f' then some (c.toNat - 87)
  else if 'A' ≤ c && c ≤ 'F' then some (c.toNat - 55)
  else none

def readUnit? : List Char → Option (Nat × List Char)
  | a :: b :: c :: d :: rest => do
    let a ← hexValue? a
    let b ← hexValue? b
    let c ← hexValue? c
    let d ← hexValue? d
    some (((a * 16 + b) * 16 + c) * 16 + d, rest)
  | _ => none

def escaped? : Char → Option Char
  | '"' => some '"'
  | '\\' => some '\\'
  | '/' => some '/'
  | 'b' => some '\x08'
  | 'f' => some '\x0c'
  | 'n' => some '\n'
  | 'r' => some '\r'
  | 't' => some '\t'
  | _ => none

/-- What follows a backslash; two units of a surrogate pair make one character. -/
def readEscape? : List Char → Option (Char × List Char)
  | 'u' :: rest => do
    let (unit, rest) ← readUnit? rest
    if 0xD800 ≤ unit ∧ unit < 0xDC00 then
      match rest with
      | '\\' :: 'u' :: more => do
        let (low, rest) ← readUnit? more
        if 0xDC00 ≤ low ∧ low < 0xE000 then
          some (Char.ofNat (0x10000 + (unit - 0xD800) * 0x400 + (low - 0xDC00)), rest)
        else none
      | _ => none
    else some (Char.ofNat unit, rest)
  | c :: rest => (escaped? c).map (·, rest)
  | [] => none

/-- The text up to the closing quote and what follows it. -/
def readText? : Nat → List Char → List Char → Option (String × List Char)
  | 0, _, _ => none
  | fuel + 1, cs, seen =>
    match cs with
    | '"' :: rest => some (String.ofList seen.reverse, rest)
    | '\\' :: rest => do
      let (c, rest) ← readEscape? rest
      readText? fuel rest (c :: seen)
    | c :: rest => readText? fuel rest (c :: seen)
    | [] => none

def isSpace (c : Char) : Bool := c = ' ' || c = '\t' || c = '\n' || c = '\r'

def skipSpace (cs : List Char) : List Char := cs.dropWhile isSpace

def isNumberChar (c : Char) : Bool :=
  c.isDigit || c = '-' || c = '+' || c = '.' || c = 'e' || c = 'E'

/-- A number is whole unless it has a point or an exponent. -/
def ofNumeral? (cs : List Char) : Option Json :=
  if cs.any fun c => c = '.' || c = 'e' || c = 'E' then (Binary64.read? (String.ofList cs)).map .real
  else
    let (negative, digits) := Text.splitSign cs
    (Text.numeralDigits digits).map fun ds =>
      let n : Int := Text.ofDigits ds
      .int (if negative then -n else n)

def dropWord? (word : String) (cs : List Char) : Option (List Char) :=
  if word.toList.isPrefixOf cs then some (cs.drop word.length) else none

mutual

/-- Each step takes a character, so the length of the text is enough fuel. -/
def readValue? : Nat → List Char → Option (Json × List Char)
  | 0, _ => none
  | fuel + 1, cs =>
    match skipSpace cs with
    | '"' :: rest => (readText? (rest.length + 1) rest []).map fun (s, rest) => (.text s, rest)
    | '[' :: rest =>
      match skipSpace rest with
      | ']' :: rest => some (.list [], rest)
      | rest => (readItems? fuel rest []).map fun (items, rest) => (.list items, rest)
    | '\x7b' :: rest =>
      match skipSpace rest with
      | '\x7d' :: rest => some (.object [], rest)
      | rest => (readMembers? fuel rest []).map fun (members, rest) => (.object members, rest)
    | 'n' :: rest => (dropWord? "ull" rest).map (Json.null, ·)
    | 't' :: rest => (dropWord? "rue" rest).map (Json.flag true, ·)
    | 'f' :: rest => (dropWord? "alse" rest).map (Json.flag false, ·)
    | cs =>
      let numeral := cs.takeWhile isNumberChar
      (ofNumeral? numeral).map (·, cs.drop numeral.length)

def readItems? : Nat → List Char → List Json → Option (List Json × List Char)
  | 0, _, _ => none
  | fuel + 1, cs, seen => do
    let (item, rest) ← readValue? fuel cs
    match skipSpace rest with
    | ',' :: rest => readItems? fuel rest (item :: seen)
    | ']' :: rest => some ((item :: seen).reverse, rest)
    | _ => none

def readMembers? : Nat → List Char → List (String × Json) →
    Option (List (String × Json) × List Char)
  | 0, _, _ => none
  | fuel + 1, cs, seen =>
    match skipSpace cs with
    | '"' :: rest => do
      let (name, rest) ← readText? (rest.length + 1) rest []
      match skipSpace rest with
      | ':' :: rest => do
        let (value, rest) ← readValue? fuel rest
        let seen := Table.put name value seen
        match skipSpace rest with
        | ',' :: rest => readMembers? fuel rest seen
        | '\x7d' :: rest => some (seen, rest)
        | _ => none
      | _ => none
    | _ => none

end

def read? (s : String) : Option Json :=
  let cs := s.toList
  match readValue? (cs.length + 1) cs with
  | some (value, rest) => if (skipSpace rest).isEmpty then some value else none
  | none => none

end AdvisoryLedger.Json

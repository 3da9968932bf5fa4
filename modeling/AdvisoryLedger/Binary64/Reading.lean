import AdvisoryLedger.Text.Numeral
import AdvisoryLedger.Binary64.Rounding

namespace AdvisoryLedger.Binary64

open Text

/-- An underscore is allowed between two digits only; where all are, they are dropped. -/
def dropUnderscores? : Bool → List Char → Option (List Char)
  | _, [] => some []
  | afterDigit, '_' :: rest =>
    if afterDigit && (rest.head?.map isDecimal).getD false then
      dropUnderscores? false rest else none
  | _, c :: rest => (dropUnderscores? (isDecimal c) rest).map (c :: ·)

def spanDigits : List Char → List Nat × List Char
  | [] => ([], [])
  | c :: rest =>
    match digitValue? c with
    | some d => let (ds, tail) := spanDigits rest; (d :: ds, tail)
    | none => ([], c :: rest)

/-- An exponent that must take up all of the text; none at all counts as zero. -/
def readExponent? : List Char → Option Int
  | [] => some 0
  | c :: rest =>
    if c = 'e' || c = 'E' then
      let (negative, cs) := splitSign rest
      match spanDigits cs with
      | (d :: ds, []) =>
        some (if negative then -(ofDigits (d :: ds) : Int) else (ofDigits (d :: ds) : Int))
      | _ => none
    else none

def readUnsigned? (negative : Bool) (cs : List Char) : Option Binary64 :=
  let (whole, rest) := spanDigits cs
  let (part, tail) := match rest with
    | '.' :: rest => spanDigits rest
    | _ => ([], rest)
  if whole.isEmpty && part.isEmpty then none
  else do
    let e ← readExponent? tail
    some (ofDecimal negative (ofDigits (whole ++ part)) (e - part.length))

def readNamed? (negative : Bool) (cs : List Char) : Option Binary64 :=
  let name := cs.map Char.toLower
  if name = "inf".toList || name = "infinity".toList then some (.infinity negative)
  else if name = "nan".toList then some .nan
  else none

def read? (s : String) : Option Binary64 := do
  let cs ← dropUnderscores? false (trimBy isNumberBlank s.toList)
  let (negative, body) := splitSign cs
  match readNamed? negative body with
  | some x => some x
  | none => readUnsigned? negative body

end AdvisoryLedger.Binary64

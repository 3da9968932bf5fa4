import AdvisoryLedger.Failure
import AdvisoryLedger.Text.Numeral

namespace AdvisoryLedger.Setting

/-- Zeros in front are dropped, also where underscores stand among them; `previous` was the last of
them. -/
def dropZeros (previous : Char) : List Char → Option (List Char)
  | [] => some [previous]
  | c :: rest =>
    if c = '0' || c = '_' then dropZeros c rest
    else if '1' ≤ c && c ≤ '9' then some (c :: rest)
    else if c = '.' then some (previous :: c :: rest)
    else none

/-- Begins with a digit or with a minus sign, after which zeros in front stay. -/
def significant : List Char → Option (List Char)
  | '0' :: rest => dropZeros '0' rest
  | '-' :: rest => some ('-' :: rest)
  | c :: rest => if '1' ≤ c && c ≤ '9' then some (c :: rest) else none
  | [] => none

def dropFraction (cs : List Char) : List Char :=
  if ((cs.dropWhile (· ≠ '.')).drop 1).all (· = '0') then cs.takeWhile (· ≠ '.') else cs

def hasDoubleUnderscore : List Char → Bool
  | '_' :: '_' :: _ => true
  | _ :: rest => hasDoubleUnderscore rest
  | [] => false

/-- Underscores may part the digits, but not begin or end the numeral. -/
def dropUnderscores (cs : List Char) : List Char :=
  if cs.head? = some '_' || cs.getLast? = some '_' || hasDoubleUnderscore cs then cs
  else cs.filter (· ≠ '_')

def withoutPlus : List Char → Option (List Char)
  | '+' :: '-' :: _ => none
  | '+' :: rest => some rest
  | cs => some cs

def digits? (cs : List Char) : Option Nat :=
  if !cs.isEmpty && cs.all Char.isDigit then some (Text.ofDigits (cs.map fun c => c.toNat - 48)) else none

def signedDigits? : List Char → Option Int
  | '-' :: rest => (digits? rest).map fun n => -(n : Int)
  | cs => (digits? cs).map fun n => (n : Int)

def integerOfText (s : String) : Except SettingFault Int :=
  let cs := Text.trimBy Text.isNumberBlank s.toList
  match (withoutPlus cs).bind significant with
  | none => .error .integerText
  | some cs =>
    let cs := dropUnderscores (dropFraction cs)
    if Text.maxNumeralDigits < cs.length then .error .integerSize
    else
      match signedDigits? cs with
      | some n => .ok n
      | none => .error .integerText

/-- Whole fractions beyond these bounds are not taken for whole numbers. -/
def fractionLimit : Int := 0x8000000000000000

def integer : Json → Except SettingFault Int
  | .flag b => .ok (if b then 1 else 0)
  | .int n => .ok n
  | .real x =>
    match x.truncate? with
    | none => .error .infinite
    | some n =>
      if !Json.sameWhole n x then .error .integerFraction
      else if -fractionLimit < n && n < fractionLimit then .ok n
      else .error .integerSize
  | .text s => integerOfText s
  | _ => .error .integerKind

def flagOfText (s : String) : Except SettingFault Bool :=
  let word := String.ofList (s.toList.map Char.toLower)
  if ["true", "t", "yes", "y", "on", "1"].contains word then .ok true
  else if ["false", "f", "no", "n", "off", "0"].contains word then .ok false
  else .error .flagText

def flagOfInt (n : Int) : Except SettingFault Bool :=
  if n = 1 then .ok true else if n = 0 then .ok false else .error .flagText

def flag : Json → Except SettingFault Bool
  | .flag b => .ok b
  | .int n => flagOfInt n
  | .real x =>
    match integer (.real x) with
    | .ok n => flagOfInt n
    | .error _ => .error .flagKind
  | .text s => flagOfText s
  | _ => .error .flagKind

def text : Json → Except SettingFault String
  | .text s => .ok s
  | _ => .error .textKind

/-- A text that may be left out by giving null. -/
def optionalText : Json → Except SettingFault (Option String)
  | .null => .ok none
  | v => (text v).map some

example : (integerOfText " +0_42.00 ").toOption = some 42 ∧
    (integerOfText "1__0").toOption = none := by
  decide +kernel

end AdvisoryLedger.Setting

import AdvisoryLedger.Json.Basic

namespace AdvisoryLedger.Json

def writtenChar (c : Char) : List Char :=
  if c = '"' || c = '\\' then ['\\', c]
  else if c.toNat < 32 then '\\' :: 'u' :: Text.hexDigits 4 c.toNat
  else [c]

def writeText (s : String) : String :=
  String.ofList ('"' :: s.toList.flatMap writtenChar ++ ['"'])

mutual

def write : Json → String
  | .null => "null"
  | .flag b => if b then "true" else "false"
  | .int n => toString n
  | .real x => x.render
  | .text s => writeText s
  | .list items => "[" ++ ",".intercalate (writeItems items) ++ "]"
  | .object members => "\x7b" ++ ",".intercalate (writeMembers members) ++ "\x7d"

def writeItems : List Json → List String
  | [] => []
  | item :: rest => write item :: writeItems rest

def writeMembers : List (String × Json) → List String
  | [] => []
  | (name, value) :: rest => (writeText name ++ ":" ++ write value) :: writeMembers rest

end

end AdvisoryLedger.Json

import AdvisoryLedger.Json.Basic

namespace AdvisoryLedger.Json

def joined (parts : List String) : String := ", ".intercalate parts

mutual

def literal : Json → String
  | .null => "None"
  | .flag b => if b then "True" else "False"
  | .int n => toString n
  | .real x => x.render
  | .text s => Text.quoted s
  | .list items => "[" ++ joined (literals items) ++ "]"
  | .object members => "\x7b" ++ joined (memberLiterals members) ++ "\x7d"

def literals : List Json → List String
  | [] => []
  | item :: rest => literal item :: literals rest

def memberLiterals : List (String × Json) → List String
  | [] => []
  | (name, value) :: rest => (Text.quoted name ++ ": " ++ literal value) :: memberLiterals rest

end

def display : Json → String
  | .text s => s
  | value => literal value

end AdvisoryLedger.Json

namespace AdvisoryLedger.Text

/-- White space as Unicode has it, with the separators U+001C to U+001F and without U+200B and
U+FEFF. -/
def isBlank (c : Char) : Bool :=
  let n := c.toNat
  (9 ≤ n && n ≤ 13) || (28 ≤ n && n ≤ 32) || n = 0x85 || n = 0xA0 || n = 0x1680 ||
    (0x2000 ≤ n && n ≤ 0x200A) || n = 0x2028 || n = 0x2029 || n = 0x202F || n = 0x205F || n = 0x3000

/-- Blanks at both ends are dropped, blanks inside are kept. -/
def trimBy (blank : Char → Bool) (cs : List Char) : List Char :=
  ((cs.dropWhile blank).reverse.dropWhile blank).reverse

def trimChars (cs : List Char) : List Char := trimBy isBlank cs

def trim (s : String) : String := String.ofList (trimChars s.toList)

/-- A text that is blank throughout says nothing, so it counts as absent. -/
def trimmed? (s : String) : Option String :=
  match trimChars s.toList with
  | [] => none
  | cs => some (String.ofList cs)

def wordsFrom : List Char → List Char → List (List Char)
  | [], [] => []
  | [], word => [word.reverse]
  | c :: rest, word =>
    if isBlank c then
      match word with
      | [] => wordsFrom rest []
      | _ => word.reverse :: wordsFrom rest []
    else wordsFrom rest (c :: word)

def words (s : String) : List String := (wordsFrom s.toList []).map String.ofList

end AdvisoryLedger.Text

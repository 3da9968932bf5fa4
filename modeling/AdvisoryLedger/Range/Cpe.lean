import AdvisoryLedger.Failure

namespace AdvisoryLedger

/-- The eleven components of a CPE name; an empty one is absent. -/
structure Cpe where
  part : Option String
  vendor : Option String
  product : Option String
  version : Option String
  update : Option String
  edition : Option String
  language : Option String
  swEdition : Option String
  targetSw : Option String
  targetHw : Option String
  other : Option String
  deriving DecidableEq, Repr

namespace Cpe

/-- The fields of a text; `escaped` tells that a backslash stands directly in front. -/
def splitFields (escaped : Bool) : List Char → List (List Char)
  | [] => [[]]
  | c :: rest =>
    if c = ':' && !escaped then [] :: splitFields false rest
    else
      match splitFields (c = '\\') rest with
      | [] => [[c]]
      | field :: fields => (c :: field) :: fields

/-- A backslash in front of a colon is dropped, every other one stays. -/
def unescape : List Char → List Char
  | '\\' :: ':' :: rest => ':' :: unescape rest
  | c :: rest => c :: unescape rest
  | [] => []

def component (field : List Char) : Option String :=
  match field with
  | [] => none
  | _ => some (String.ofList (unescape field))

def ofFields? : List (List Char) → Option Cpe
  | [scheme, edition, a, b, c, d, e, f, g, h, i, j, k] =>
    if scheme = "cpe".toList && edition = "2.3".toList then
      some ⟨component a, component b, component c, component d, component e, component f,
        component g, component h, component i, component j, component k⟩
    else none
  | _ => none

def read? (s : String) : Option Cpe := ofFields? (splitFields false s.toList)

def components (c : Cpe) : List (Option String) :=
  [c.part, c.vendor, c.product, c.version, c.update, c.edition, c.language, c.swEdition, c.targetSw,
    c.targetHw, c.other]

def escape : List Char → List Char
  | [] => []
  | c :: rest => if c = ':' then '\\' :: ':' :: escape rest else c :: escape rest

def write (c : Cpe) : String :=
  "cpe:2.3:" ++ ":".intercalate (c.components.map fun v =>
    String.ofList (escape ((v.map String.toList).getD [])))

theorem unescape_cons {c : Char} {rest : List Char} (h : c ≠ '\\' ∨ rest.head? ≠ some ':') :
    unescape (c :: rest) = c :: unescape rest := by
  rw [unescape]
  rintro r rfl rfl
  simp at h

theorem head?_escape_ne (cs : List Char) : (escape cs).head? ≠ some ':' := by
  cases cs with
  | nil => simp [escape]
  | cons c rest => by_cases h : c = ':' <;> simp [escape, h]

theorem unescape_escape (cs : List Char) : unescape (escape cs) = cs := by
  induction cs with
  | nil => rfl
  | cons c rest ih =>
    by_cases h : c = ':'
    · simp [escape, unescape, h, ih]
    · simp [escape, h, unescape_cons (.inr (head?_escape_ne rest)), ih]

end Cpe

end AdvisoryLedger

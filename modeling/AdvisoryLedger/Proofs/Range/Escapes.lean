import AdvisoryLedger.Proofs.Range.Cpe

namespace AdvisoryLedger.Cpe

/-- What components are spelt with: plain characters, and pairs of a backslash and any one
character. -/
inductive Glyph
  | plain (c : Char) (isPlain : c ≠ '\\' ∧ c ≠ ':')
  | pair (c : Char)
  deriving DecidableEq

namespace Glyph

def spelling : Glyph → List Char
  | plain c _ => [c]
  | pair c => ['\\', c]

/-- A pair with a colon says that colon; everything else says what it is spelt as. -/
def reading : Glyph → List Char
  | plain c _ => [c]
  | pair c => if c = ':' then [':'] else ['\\', c]

end Glyph

/-- What a component says, read glyph by glyph; one without glyphs is absent. -/
def reading? (gs : List Glyph) : Option String :=
  if gs.isEmpty then none else some (String.ofList (gs.flatMap Glyph.reading))

def formatted (components : List (List Glyph)) : String :=
  "cpe:2.3:" ++ ":".intercalate (components.map fun gs => String.ofList (gs.flatMap Glyph.spelling))

section Split

/-- Each field begins anew behind a separator, and goes on behind a colon with a backslash in
front. -/
theorem length_splitFields_intercalate {fields : List (List Char)} (hne : fields ≠ [])
    (hw : ∀ field ∈ fields, isWhole false field = true) :
    (splitFields false ([':'].intercalate fields)).length =
      fields.dropLast.countP (fun field => field.getLast? ≠ some '\\') + 1 := by
  induction fields with
  | nil => exact absurd rfl hne
  | cons field rest ih =>
    obtain ⟨hfield, hrest⟩ := List.forall_mem_cons.mp hw
    cases rest with
    | nil => simp [splitFields_of_isWhole hfield]
    | cons next more =>
      rw [List.intercalate_cons_cons, List.append_assoc, splitFields_append hfield, endsEscaped_eq,
        List.length_modifyHead, List.singleton_append, List.dropLast_cons_cons, List.countP_cons]
      have hmore := ih (List.cons_ne_nil next more) hrest
      by_cases hend : field.getLast? = some '\\'
      · rw [decide_eq_true hend, splitFields_cons (fun _ => rfl), List.length_modifyHead]
        simpa [hend] using hmore
      · rw [decide_eq_false hend, splitFields_colon, List.length_cons, hmore]
        simp [hend]

end Split

section Spelling

theorem isWhole_spelling (escaped : Bool) (gs : List Glyph) :
    isWhole escaped (gs.flatMap Glyph.spelling) = true := by
  induction gs generalizing escaped with
  | nil => rfl
  | cons g rest ih =>
    cases g with
    | plain c hc => simp [Glyph.spelling, isWhole, hc.2, ih]
    | pair c => simp [Glyph.spelling, isWhole, ih]

theorem head?_spelling_ne (gs : List Glyph) : (gs.flatMap Glyph.spelling).head? ≠ some ':' := by
  cases gs with
  | nil => simp
  | cons g rest =>
    cases g with
    | plain c hc => simpa [Glyph.spelling] using hc.2
    | pair c => simp [Glyph.spelling]

/-- Dropping the backslashes in front of colons reads a component glyph by glyph. -/
theorem unescape_spelling (gs : List Glyph) :
    unescape (gs.flatMap Glyph.spelling) = gs.flatMap Glyph.reading := by
  induction gs with
  | nil => rfl
  | cons g rest ih =>
    rw [List.flatMap_cons, List.flatMap_cons, ← ih]
    have hhead := head?_spelling_ne rest
    cases g with
    | plain c hc => exact unescape_cons (.inl hc.1)
    | pair c =>
      by_cases hc : c = ':'
      · subst hc
        rfl
      · have hpair : (c :: rest.flatMap Glyph.spelling).head? ≠ some ':' := by simpa using hc
        simp only [Glyph.spelling, Glyph.reading, if_neg hc, List.cons_append, List.nil_append]
        rw [unescape_cons (.inr hpair), unescape_cons (.inr hhead)]

theorem component_spelling (gs : List Glyph) :
    component (gs.flatMap Glyph.spelling) = reading? gs := by
  cases gs with
  | nil => rfl
  | cons g rest =>
    have hne : (g :: rest).flatMap Glyph.spelling ≠ [] := by cases g <;> simp [Glyph.spelling]
    rw [component_of_ne_nil hne, unescape_spelling]
    rfl

/-- A spelling ends with a backslash if its last glyph is a pair of two. -/
theorem getLast?_spelling (gs : List Glyph) :
    (gs.flatMap Glyph.spelling).getLast? = some '\\' ↔ gs.getLast? = some (.pair '\\') := by
  rcases List.eq_nil_or_concat gs with rfl | ⟨init, g, rfl⟩
  · simp
  · cases g with
    | plain c hc => simp [Glyph.spelling, hc.1]
    | pair c => simp [Glyph.spelling]

end Spelling

theorem formatted_eq (components : List (List Glyph)) : formatted components =
    "cpe:2.3:" ++ String.ofList
      ([':'].intercalate (components.map fun gs => gs.flatMap Glyph.spelling)) := by
  rw [← intercalate_ofList, List.map_map]
  rfl

section Formatted

variable {components : List (List Glyph)}

theorem length_splitFields_formatted (hne : components ≠ []) :
    (splitFields false ([':'].intercalate
      (components.map fun gs => gs.flatMap Glyph.spelling))).length =
      components.dropLast.countP (fun gs => gs.getLast? ≠ some (.pair '\\')) + 1 := by
  rw [length_splitFields_intercalate (by simpa using hne), ← List.map_dropLast, List.countP_map]
  · simp [Function.comp_def, getLast?_spelling]
  · exact List.forall_mem_map.mpr fun gs _ => isWhole_spelling false gs

theorem read?_formatted (hlen : components.length = 11)
    (hends : ∀ gs ∈ components.dropLast, gs.getLast? ≠ some (.pair '\\')) {c : Cpe} :
    read? (formatted components) = some c ↔ c.components = components.map reading? := by
  have hfields : splitFields false
    ([':'].intercalate (components.map fun gs => gs.flatMap Glyph.spelling)) =
      components.map fun gs => gs.flatMap Glyph.spelling := by
    apply splitFields_intercalate
    · exact List.ne_nil_of_length_pos (by simp [hlen])
    · exact List.forall_mem_map.mpr fun gs _ => isWhole_spelling false gs
    · rw [← List.map_dropLast]
      exact List.forall_mem_map.mpr fun gs hm => mt (getLast?_spelling gs).mp (hends gs hm)
  rw [formatted_eq, read?_named, String.toList_ofList, hfields, List.map_map, Function.comp_def]
  simp only [component_spelling, List.length_map, hlen, true_and]

/-- A formatted name is read as its components, unless one that is not the last ends with a pair of
two backslashes; then it is no name at all. -/
theorem isSome_read?_formatted (hlen : components.length = 11) :
    ((read? (formatted components)).isSome = true ↔
      ∀ gs ∈ components.dropLast, gs.getLast? ≠ some (.pair '\\')) ∧
    ∀ c, read? (formatted components) = some c → c.components = components.map reading? := by
  have hiff : (read? (formatted components)).isSome = true ↔
      ∀ gs ∈ components.dropLast, gs.getLast? ≠ some (.pair '\\') := by
    constructor
    · intro h
      obtain ⟨c, hc⟩ := Option.isSome_iff_exists.mp h
      rw [formatted_eq, read?_named, String.toList_ofList,
        length_splitFields_formatted (List.ne_nil_of_length_pos (by omega))] at hc
      have hall : components.dropLast.countP (fun gs => gs.getLast? ≠ some (.pair '\\')) =
          components.dropLast.length := by
        rw [List.length_dropLast]
        omega
      simpa using List.countP_eq_length.mp hall
    · intro hends
      obtain ⟨c, hc⟩ := exists_components (components.map reading?) (by simpa using hlen)
      exact Option.isSome_iff_exists.mpr ⟨c, (read?_formatted hlen hends).mpr hc⟩
  refine ⟨hiff, fun c hc => ?_⟩
  exact (read?_formatted hlen (hiff.mp (Option.isSome_iff_exists.mpr ⟨c, hc⟩))).mp hc

end Formatted

def star : List Glyph := [.plain '*' (by decide)]

/-- A vendor of three pairs, and a last component of one. -/
def pairedName : List (List Glyph) :=
  [[.plain 'a' (by decide)], [.pair '\\', .pair ':', .pair '-'], []] ++ .replicate 7 star ++
    [[.pair '\\']]

theorem isSome_read?_formatted_paired : pairedName.length = 11 ∧
    formatted pairedName = "cpe:2.3:a:\\\\\\:\\-::*:*:*:*:*:*:*:\\\\" ∧
      (read? (formatted pairedName)).isSome = true ∧
    ∀ c, read? (formatted pairedName) = some c → c.components =
      [some "a", some "\\\\:\\-", none] ++ .replicate 7 (some "*") ++ [some "\\\\"] := by
  have hlen : pairedName.length = 11 := rfl
  obtain ⟨hiff, hreading⟩ := isSome_read?_formatted hlen
  exact ⟨hlen, by decide +kernel, hiff.mpr (by decide), hreading⟩

/-- The vendor ends with a pair of two backslashes. -/
def backslashedName : List (List Glyph) :=
  [[.plain 'a' (by decide)], [.plain 'b' (by decide), .pair '\\']] ++ .replicate 9 star

/-- Its separator is taken for a colon of the vendor, and the text for no name. -/
theorem read?_formatted_backslashed : backslashedName.length = 11 ∧
    formatted backslashedName = "cpe:2.3:a:b\\\\:*:*:*:*:*:*:*:*:*" ∧
      read? (formatted backslashedName) = none := by
  decide +kernel

end AdvisoryLedger.Cpe

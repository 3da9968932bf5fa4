import AdvisoryLedger.Range.Cpe

namespace AdvisoryLedger.Cpe

/-- Each character of a text with the one directly in front of it. -/
def withPrevious (previous : Option Char) (cs : List Char) : List (Option Char × Char) :=
  (previous :: cs.map some).zip cs

/-- A colon separates, unless a backslash stands directly in front of it. -/
def isSeparator (c : Option Char × Char) : Bool := c.2 = ':' && c.1 ≠ some '\\'

/-- What stands between the separators of a text. -/
def parts (s : String) : List String :=
  ((withPrevious none s.toList).splitOnP isSeparator).map fun part =>
    String.ofList (part.map Prod.snd)

section Split

variable {escaped : Bool} {c : Char} {field rest : List Char}

theorem splitFields_ne_nil (escaped : Bool) (cs : List Char) : splitFields escaped cs ≠ [] := by
  cases cs with
  | nil => simp [splitFields]
  | cons c rest =>
    unfold splitFields
    split
    · simp
    · split <;> simp

theorem splitFields_colon (rest : List Char) :
    splitFields false (':' :: rest) = [] :: splitFields false rest := by
  simp [splitFields]

theorem splitFields_cons (h : c = ':' → escaped = true) :
    splitFields escaped (c :: rest) = (splitFields (c = '\\') rest).modifyHead (c :: ·) := by
  have hn : ¬(c = ':' && !escaped) = true := by simpa using h
  rw [splitFields, if_neg hn]
  cases hs : splitFields (c = '\\') rest with
  | nil => exact absurd hs (splitFields_ne_nil _ _)
  | cons field fields => rfl

theorem map_splitOnP_withPrevious (previous : Option Char) (cs : List Char) :
    ((withPrevious previous cs).splitOnP isSeparator).map (fun part => part.map Prod.snd) =
      splitFields (previous = some '\\') cs := by
  induction cs generalizing previous with
  | nil => rfl
  | cons c rest ih =>
    have hcons : withPrevious previous (c :: rest) = (previous, c) :: withPrevious (some c) rest :=
      rfl
    have hc : decide (some c = some '\\') = decide (c = '\\') := decide_eq_decide.mpr (by simp)
    have hrest := hc ▸ ih (some c)
    rw [hcons, List.splitOnP_cons_eq_if_modifyHead]
    split
    · next h =>
      obtain ⟨rfl, hp⟩ : c = ':' ∧ previous ≠ some '\\' := by simpa [isSeparator] using h
      rw [List.map_cons, hrest, decide_eq_false hp]
      exact (splitFields_colon rest).symm
    · next h =>
      rw [splitFields_cons (by simpa [isSeparator] using h), ← hrest]
      cases (withPrevious (some c) rest).splitOnP isSeparator <;> rfl

theorem parts_eq (s : String) : parts s = (splitFields false s.toList).map String.ofList := by
  have h := map_splitOnP_withPrevious none s.toList
  rw [decide_eq_false (by simp)] at h
  rw [parts, ← h, List.map_map]
  rfl

theorem intercalate_splitFields (escaped : Bool) (cs : List Char) :
    [':'].intercalate (splitFields escaped cs) = cs := by
  induction cs generalizing escaped with
  | nil => rfl
  | cons c rest ih =>
    by_cases h : c = ':' → escaped = true
    · have hrest := ih (c = '\\')
      rw [splitFields_cons h]
      cases hs : splitFields (c = '\\') rest with
      | nil => exact absurd hs (splitFields_ne_nil _ _)
      | cons field fields => rw [List.modifyHead_cons, List.intercalate_cons_cons_left, ← hs, hrest]
    · obtain ⟨rfl, he⟩ := Classical.not_imp.mp h
      obtain rfl := Bool.eq_false_iff.mpr he
      rw [splitFields_colon, List.intercalate_cons_of_ne_nil (splitFields_ne_nil _ _), ih]
      rfl

def isWhole (escaped : Bool) : List Char → Bool
  | [] => true
  | c :: rest => (c ≠ ':' || escaped) && isWhole (c = '\\') rest

/-- Whether what comes behind stands behind a backslash. -/
def endsEscaped (escaped : Bool) : List Char → Bool
  | [] => escaped
  | c :: rest => endsEscaped (c = '\\') rest

theorem isWhole_cons : isWhole escaped (c :: rest) = true ↔
    (c = ':' → escaped = true) ∧ isWhole (c = '\\') rest = true := by
  cases escaped <;> simp [isWhole]

theorem endsEscaped_eq (field : List Char) :
    endsEscaped false field = decide (field.getLast? = some '\\') := by
  have hcons (c : Char) (rest : List Char) :
      endsEscaped (c = '\\') rest = decide ((c :: rest).getLast? = some '\\') := by
    induction rest generalizing c with
    | nil => simp [endsEscaped]
    | cons d rest ih => rw [endsEscaped, ih, List.getLast?_cons_cons]
  cases field with
  | nil => rfl
  | cons c rest => exact hcons c rest

/-- In front of a text, what holds no separator is part of its first field. -/
theorem splitFields_append (h : isWhole escaped field = true) (rest : List Char) :
    splitFields escaped (field ++ rest) =
      (splitFields (endsEscaped escaped field) rest).modifyHead (field ++ ·) := by
  induction field generalizing escaped with
  | nil => exact (congrFun List.modifyHead_id _).symm
  | cons c cs ih =>
    obtain ⟨hc, hcs⟩ := isWhole_cons.mp h
    rw [List.cons_append, splitFields_cons hc, ih hcs, List.modifyHead_modifyHead]
    rfl

theorem splitFields_of_isWhole (h : isWhole escaped field = true) :
    splitFields escaped field = [field] := by
  have hs := splitFields_append h []
  rwa [List.append_nil, splitFields, List.modifyHead_cons, List.append_nil] at hs

/-- Whole fields, none but the last of which ends with a backslash, are what their text is split
into. -/
theorem splitFields_intercalate {fields : List (List Char)} (hne : fields ≠ [])
    (hw : ∀ field ∈ fields, isWhole false field = true)
    (he : ∀ field ∈ fields.dropLast, field.getLast? ≠ some '\\') :
    splitFields false ([':'].intercalate fields) = fields := by
  induction fields with
  | nil => exact absurd rfl hne
  | cons field rest ih =>
    obtain ⟨hfield, hrest⟩ := List.forall_mem_cons.mp hw
    cases rest with
    | nil => rw [List.intercalate_singleton, splitFields_of_isWhole hfield]
    | cons next more =>
      rw [List.dropLast_cons_cons] at he
      obtain ⟨hend, hends⟩ := List.forall_mem_cons.mp he
      rw [List.intercalate_cons_cons, List.append_assoc, splitFields_append hfield, endsEscaped_eq,
        decide_eq_false hend, List.singleton_append, splitFields_colon,
        ih (List.cons_ne_nil _ _) hrest hends, List.modifyHead_cons, List.append_nil]

theorem isWhole_splitFields (escaped : Bool) (cs : List Char) : ∃ field fields,
    splitFields escaped cs = field :: fields ∧ isWhole escaped field = true ∧
      ∀ field ∈ fields, isWhole false field = true := by
  induction cs generalizing escaped with
  | nil => exact ⟨[], [], rfl, rfl, by simp⟩
  | cons c rest ih =>
    obtain ⟨field, fields, hs, hfield, hfields⟩ := ih (c = '\\')
    by_cases h : c = ':' → escaped = true
    · exact ⟨c :: field, fields, by rw [splitFields_cons h, hs]; rfl, isWhole_cons.mpr ⟨h, hfield⟩, hfields⟩
    · obtain ⟨rfl, he⟩ := Classical.not_imp.mp h
      obtain rfl := Bool.eq_false_iff.mpr he
      exact ⟨[], field :: fields, by rw [splitFields_colon, ← hs]; rfl, rfl,
        List.forall_mem_cons.mpr ⟨hfield, hfields⟩⟩

theorem isWhole_of_mem_splitFields {cs : List Char} (h : field ∈ splitFields false cs) :
    isWhole false field = true := by
  obtain ⟨first, fields, hs, hfirst, hfields⟩ := isWhole_splitFields false cs
  rw [hs] at h
  rcases List.mem_cons.mp h with rfl | h
  · exact hfirst
  · exact hfields field h

end Split

section Escape

variable {field : List Char}

def fieldOf (v : Option String) : List Char := escape ((v.map String.toList).getD [])

theorem isWhole_escape (escaped : Bool) (cs : List Char) : isWhole escaped (escape cs) = true := by
  induction cs generalizing escaped with
  | nil => rfl
  | cons c rest ih => by_cases h : c = ':' <;> simp [escape, h, isWhole, ih]

theorem getLast?_escape (cs : List Char) : (escape cs).getLast? = cs.getLast? := by
  induction cs with
  | nil => rfl
  | cons c rest ih => by_cases h : c = ':' <;> simp [escape, h, List.getLast?_cons, ih]

theorem escape_ne_nil {cs : List Char} (h : cs ≠ []) : escape cs ≠ [] := by
  cases cs with
  | nil => exact absurd rfl h
  | cons c rest => by_cases hc : c = ':' <;> simp [escape, hc]

/-- In a whole field every colon has its backslash, so that dropping backslashes loses nothing. -/
theorem escape_unescape (h : isWhole false field = true) : escape (unescape field) = field := by
  fun_induction unescape field with
  | case1 rest ih =>
    have hrest : isWhole false rest = true := by simpa [isWhole] using h
    rw [escape, if_pos rfl, ih hrest]
  | case2 c rest hpair ih =>
    obtain ⟨hc, hrest⟩ := isWhole_cons.mp h
    have hcolon : c ≠ ':' := fun e => Bool.false_ne_true (hc e)
    have hfree : isWhole false rest = true := by
      cases rest with
      | nil => rfl
      | cons d more =>
        obtain ⟨hd, hmore⟩ := isWhole_cons.mp hrest
        refine isWhole_cons.mpr ⟨?_, hmore⟩
        rintro rfl
        exact absurd rfl (hpair more (of_decide_eq_true (hd rfl)))
    rw [escape, if_neg hcolon, ih hfree]
  | case3 => rfl

theorem component_of_ne_nil (h : field ≠ []) :
    component field = some (String.ofList (unescape field)) := by
  cases field with
  | nil => exact absurd rfl h
  | cons c rest => rfl

theorem component_fieldOf {v : Option String} (h : v ≠ some "") : component (fieldOf v) = v := by
  cases v with
  | none => rfl
  | some s =>
    have hs : s.toList ≠ [] := fun hs => h (congrArg some (String.toList_eq_nil_iff.mp hs))
    change component (escape s.toList) = some s
    rw [component_of_ne_nil (escape_ne_nil hs), unescape_escape, String.ofList_toList]

theorem fieldOf_component (h : isWhole false field = true) : fieldOf (component field) = field := by
  cases field with
  | nil => rfl
  | cons c rest =>
    rw [component_of_ne_nil (List.cons_ne_nil c rest), fieldOf, Option.map_some, Option.getD_some,
      String.toList_ofList, escape_unescape h]

theorem getLast?_fieldOf (v : Option String) :
    (fieldOf v).getLast? = v.bind fun s => s.toList.getLast? := by
  cases v with
  | none => rfl
  | some s => exact getLast?_escape s.toList

end Escape

theorem components_injective : Function.Injective components := by
  intro c d h
  cases c
  cases d
  simpa [components] using h

theorem exists_components (vs : List (Option String)) (h : vs.length = 11) : ∃ c :
    Cpe, c.components = vs := by
  match vs, h with
  | [a, b, c, d, e, f, g, h, i, j, k], _ => exact ⟨⟨a, b, c, d, e, f, g, h, i, j, k⟩, rfl⟩

/-- A text is the name of its thirteen fields, the first two of which are fixed. -/
theorem ofFields?_eq_some {ps : List (List Char)} {c : Cpe} : ofFields? ps = some c ↔
    ∃ fs, ps = "cpe".toList :: "2.3".toList :: fs ∧ fs.length = 11 ∧
      c.components = fs.map component := by
  constructor
  · intro h
    unfold ofFields? at h
    split at h
    · split at h
      · next hp =>
        obtain ⟨hs, he⟩ := (Bool.and_eq_true _ _).mp hp
        obtain rfl := of_decide_eq_true hs
        obtain rfl := of_decide_eq_true he
        cases h
        exact ⟨_, rfl, rfl, rfl⟩
      · cases h
    · cases h
  · rintro ⟨fs, rfl, hlen, hc⟩
    match fs, hlen with
    | [_, _, _, _, _, _, _, _, _, _, _], _ => exact congrArg some (components_injective hc.symm)

theorem read?_eq_some {s : String} {c : Cpe} : read? s = some c ↔
    ∃ fs, splitFields false s.toList = "cpe".toList :: "2.3".toList :: fs ∧ fs.length = 11 ∧
      c.components = fs.map component := ofFields?_eq_some

theorem splitFields_named (cs : List Char) :
    splitFields false ("cpe:2.3:".toList ++ cs) = "cpe".toList :: "2.3".toList ::
      splitFields false cs := rfl

theorem read?_named {t : String} {c : Cpe} : read? ("cpe:2.3:" ++ t) = some c ↔
    (splitFields false t.toList).length = 11 ∧
      c.components = (splitFields false t.toList).map component := by
  rw [read?_eq_some, String.toList_append, splitFields_named]
  constructor
  · rintro ⟨fs, hs, h⟩
    obtain rfl := List.cons.inj (List.cons.inj hs).2 |>.2
    exact h
  · intro h
    exact ⟨_, rfl, h⟩

theorem intercalate_ofList (fields : List (List Char)) :
    ":".intercalate (fields.map String.ofList) = String.ofList ([':'].intercalate fields) := by
  apply String.toList_injective
  simp only [String.toList_intercalate, String.toList_ofList, List.map_map, Function.comp_def,
    List.map_id']
  rfl

theorem write_eq (c : Cpe) :
    c.write = "cpe:2.3:" ++ String.ofList ([':'].intercalate (c.components.map fieldOf)) := by
  rw [← intercalate_ofList, List.map_map]
  rfl

theorem write_of_read? {s : String} {c : Cpe} (h : read? s = some c) : c.write = s := by
  obtain ⟨fs, hs, hlen, hc⟩ := read?_eq_some.mp h
  have hback : (fs.map component).map fieldOf = fs := by
    rw [List.map_map]
    refine (List.map_congr_left fun f hf => ?_).trans (List.map_id fs)
    have hmem : f ∈ splitFields false s.toList :=
      hs ▸ List.mem_cons_of_mem _ (List.mem_cons_of_mem _ hf)
    exact fieldOf_component (isWhole_of_mem_splitFields hmem)
  have hne : fs ≠ [] := List.ne_nil_of_length_pos (by omega)
  have hjoin : [':'].intercalate ("cpe".toList :: "2.3".toList :: fs) =
      "cpe:2.3:".toList ++ [':'].intercalate fs := by
    rw [List.intercalate_cons_cons, List.intercalate_cons_of_ne_nil hne]
    rfl
  rw [← hs, intercalate_splitFields] at hjoin
  apply String.toList_injective
  rw [write_eq, hc, hback, hjoin, String.toList_append,
    @String.toList_ofList ([':'].intercalate fs)]

/-- A name is read from its text if no component is an empty text and none but the last ends with a
backslash. -/
theorem read?_write {c : Cpe} (hv : ∀ v ∈ c.components, v ≠ some "")
    (hl : ∀ v ∈ c.components.dropLast, v.bind (fun s => s.toList.getLast?) ≠ some '\\') :
    read? c.write = some c := by
  have hfields : splitFields false ([':'].intercalate (c.components.map fieldOf)) =
      c.components.map fieldOf := by
    apply splitFields_intercalate
    · simp [components]
    · exact List.forall_mem_map.mpr fun v _ => isWhole_escape false _
    · rw [← List.map_dropLast]
      exact List.forall_mem_map.mpr fun v hm => (getLast?_fieldOf v).symm ▸ hl v hm
  rw [write_eq, read?_named, String.toList_ofList, hfields, List.map_map]
  exact ⟨rfl, ((List.map_congr_left fun v hm => component_fieldOf (hv v hm)).trans
    (List.map_id _)).symm⟩

theorem isSome_read?_iff (s : String) :
    (read? s).isSome = true ↔ (parts s).length = 13 ∧ ["cpe", "2.3"] <+: parts s := by
  rw [Option.isSome_iff_exists, parts_eq]
  constructor
  · rintro ⟨c, hc⟩
    obtain ⟨fs, hs, hlen, -⟩ := read?_eq_some.mp hc
    rw [hs]
    exact ⟨by simp [hlen], fs.map String.ofList, rfl⟩
  · rintro ⟨hlen, rest, hrest⟩
    obtain ⟨scheme, more, hs, hscheme, hmore⟩ := List.map_eq_cons_iff.mp hrest.symm
    obtain ⟨edition, fs, rfl, hedition, -⟩ := List.map_eq_cons_iff.mp hmore
    obtain ⟨c, hc⟩ := exists_components (fs.map component) (by simpa [hs] using hlen)
    rw [← String.toList_inj, String.toList_ofList] at hscheme hedition
    subst hscheme hedition
    exact ⟨c, read?_eq_some.mpr ⟨fs, hs, by simpa [hs] using hlen, hc⟩⟩

/-- Reading a CPE name loses nothing, and undoes writing one. -/
theorem read?_lossless :
    (∀ s, (read? s).isSome = true ↔ (parts s).length = 13 ∧ ["cpe", "2.3"] <+: parts s) ∧
    (∀ s c, read? s = some c → c.write = s) ∧
    (∀ s t c, read? s = some c → read? t = some c → s = t) ∧
    ∀ c : Cpe, (∀ v ∈ c.components, v ≠ some "") →
      (∀ v ∈ c.components.dropLast, v.bind (fun s => s.toList.getLast?) ≠ some '\\') →
      read? c.write = some c := by
  refine ⟨isSome_read?_iff, fun s c => write_of_read?, ?_, fun c => read?_write⟩
  intro s t c hs ht
  rw [← write_of_read? hs, write_of_read? ht]

/-- Colons at either end of a component, one behind a backslash, and a backslash at the very end. -/
def colonedCpe : Cpe :=
  ⟨some "a", none, some ":http:", some "1\\:0", none, none, some "*", none, none, none, some "\\"⟩

theorem read?_lossless_coloned : colonedCpe.write = "cpe:2.3:a::\\:http\\::1\\\\:0:::*::::\\" ∧
    read? colonedCpe.write = some colonedCpe ∧
    ∀ s, read? s = some colonedCpe → s = "cpe:2.3:a::\\:http\\::1\\\\:0:::*::::\\" := by
  have hwrite : colonedCpe.write = "cpe:2.3:a::\\:http\\::1\\\\:0:::*::::\\" := by decide +kernel
  have hread := read?_lossless.2.2.2 colonedCpe (by decide) (by decide)
  exact ⟨hwrite, hread, fun s hs => (read?_lossless.2.2.1 s _ _ hs hread).trans hwrite⟩

end AdvisoryLedger.Cpe

import AdvisoryLedger.Proofs.Feed.Page
import AdvisoryLedger.Proofs.Table

namespace AdvisoryLedger

/-- Adding what is not there yet keeps the first of those that are the same. -/
theorem foldl_firsts {α : Type} (same : α → α → Bool) (xs : List α) :
    xs.foldl (fun found x => if found.any (same x) then found else found ++ [x]) [] =
      xs.eraseDupsBy same := by
  have hloop (found : List α) :
      xs.foldl (fun found x => if found.any (same x) then found else found ++ [x]) found =
        List.eraseDupsBy.loop same xs found.reverse := by
    induction xs generalizing found with
    | nil => simp [List.eraseDupsBy.loop]
    | cons x rest ih =>
      rw [List.foldl_cons, ih, List.eraseDupsBy.loop, List.any_reverse]
      cases found.any (same x) <;> simp
  exact hloop []

theorem Noted.note_bind {α β : Type} (entry : LogEntry) (x : Noted α) (f : α → Noted β) :
    ((⟨x.result, entry :: x.entries⟩ : Noted α) >>= f) =
      ⟨(x >>= f).result, entry :: (x >>= f).entries⟩ := by
  change Noted.bind _ f = ⟨(Noted.bind x f).result, entry :: (Noted.bind x f).entries⟩
  unfold Noted.bind
  cases x.result <;> rfl

namespace Json

def memberOrNull (name : String) (v : Json) : Json := (v.member? name).getD .null

def isObject : Json → Bool
  | .object _ => true
  | _ => false

/-- What counts as absent, or a list of items that all pass. -/
def isListOf (test : Json → Bool) (v : Json) : Bool :=
  !v.isTruthy || match v with
    | .list items => items.all test
    | _ => false

/-- An object with a member that passes; a missing one counts as null. -/
def hasMember (name : String) (test : Json → Bool) (v : Json) : Bool :=
  v.isObject && test (v.memberOrNull name)

def mapItems (f : Json → Json) : Json → Json
  | .list items => .list (items.map f)
  | v => v

def filterItems (test : Json → Bool) : Json → Json
  | .list items => .list (items.filter test)
  | v => v

def modifyMember (name : String) (f : Json → Json) : Json → Json
  | .object members => .object (Table.modify name f members)
  | v => v

section

variable {test test' : Json → Bool} {f : Json → Json} {v : Json} {name : String}

theorem elementsIfAny_of_isListOf (h : v.isListOf test = true) : v.elementsIfAny = .ok v.items := by
  cases v with
  | list items => cases items <;> rfl
  | _ =>
    simp only [isListOf, Bool.or_false, Bool.not_eq_true'] at h
    simp [elementsIfAny, h, items]

theorem forall_mem_items (h : v.isListOf test = true) : ∀ item ∈ v.items, test item = true := by
  cases v with
  | list items =>
    cases items with
    | nil => simp [items]
    | cons item rest => simpa [isListOf, isTruthy, items] using h
  | _ => simp [items]

theorem member_of_isObject (h : v.isObject = true) (name : String) :
    v.member name = .ok (v.memberOrNull name) := by
  cases v with
  | object members => rfl
  | _ => cases h

theorem isObject_of_hasMember (h : v.hasMember name test = true) : v.isObject = true :=
  ((Bool.and_eq_true _ _).mp h).1

theorem of_hasMember (h : v.hasMember name test = true) : test (v.memberOrNull name) = true :=
  ((Bool.and_eq_true _ _).mp h).2

theorem items_mapItems (f : Json → Json) (v : Json) :
    (v.mapItems f).items = v.items.map f := by cases v <;> rfl

theorem items_filterItems (test : Json → Bool) (v : Json) :
    (v.filterItems test).items = v.items.filter test := by
  cases v <;> rfl

theorem memberOrNull_modifyMember (hf : f .null = .null) (v : Json) :
    (v.modifyMember name f).memberOrNull name = f (v.memberOrNull name) := by
  cases v with
  | object members =>
    simp only [modifyMember, memberOrNull, member?, lookup, Table.get?_modify, if_true]
    cases Table.get? members name with
    | none => exact hf.symm
    | some w => rfl
  | _ => exact hf.symm

theorem isListOf_mapItems (hf : ∀ v, test v = true → test' (f v) = true)
    (h : v.isListOf test = true) : (v.mapItems f).isListOf test' = true := by
  have hall := forall_mem_items h
  cases v with
  | list items =>
    have hmapped : (items.map f).all test' = true :=
      List.all_eq_true.mpr (List.forall_mem_map.mpr fun x hx => hf x (hall x hx))
    simp only [mapItems, isListOf, hmapped, Bool.or_true]
  | _ => exact h

theorem isListOf_filterItems (h : v.isListOf test = true) :
    (v.filterItems test').isListOf test = true := by
  have hall := forall_mem_items h
  cases v with
  | list items =>
    have hfiltered : (items.filter test').all test = true :=
      List.all_eq_true.mpr fun x hx => hall x (List.mem_filter.mp hx).1
    simp only [filterItems, isListOf, hfiltered, Bool.or_true]
  | _ => exact h

theorem hasMember_modifyMember (hnull : f .null = .null)
    (hf : ∀ v, test v = true → test' (f v) = true)
    (h : v.hasMember name test = true) : (v.modifyMember name f).hasMember name test' = true := by
  have hv := isObject_of_hasMember h
  rw [hasMember, memberOrNull_modifyMember hnull, hf _ (of_hasMember h), Bool.and_true]
  cases v with
  | object members => rfl
  | _ => cases hv

end

end Json

namespace Record

/-- Configurations that can be walked, level by level, down to matches that all pass. -/
def isLaidOut (test : Json → Bool) (configurations : Json) : Bool :=
  configurations.isListOf (Json.hasMember "nodes"
    (Json.isListOf (Json.hasMember "cpeMatch" (Json.isListOf test))))

def matchesOfNode (node : Json) : List Json := (node.memberOrNull "cpeMatch").items

def matchesOfConfiguration (configuration : Json) : List Json :=
  (configuration.memberOrNull "nodes").items.flatMap matchesOfNode

/-- The matches of configurations, in the order of the document. -/
def matchesOf (configurations : Json) : List Json :=
  configurations.items.flatMap matchesOfConfiguration

/-- The match is about a vulnerable platform; others are passed over. -/
def isVulnerable (m : Json) : Bool := (m.memberOrNull "vulnerable").isTruthy

/-- The bounds of the versions that are affected. -/
def boundsOf (m : Json) : List Json :=
  [m.memberOrNull "versionStartIncluding", m.memberOrNull "versionStartExcluding",
    m.memberOrNull "versionEndIncluding", m.memberOrNull "versionEndExcluding"]

def isMisbounded (m : Json) : Bool := (boundsOf m).any fun v => !v.isHashable

/-- The range of a match whose criteria were read. -/
def rangeOf (m : Json) (s : String) (c : Cpe) : AffectedRange where
  cpe23 := .text s
  part := .ofText? c.part
  vendor := .ofText? c.vendor
  product := .ofText? c.product
  version := .ofText? c.version
  update := .ofText? c.update
  edition := .ofText? c.edition
  language := .ofText? c.language
  swEdition := .ofText? c.swEdition
  targetSw := .ofText? c.targetSw
  targetHw := .ofText? c.targetHw
  other := .ofText? c.other
  startIncluding := m.memberOrNull "versionStartIncluding"
  startExcluding := m.memberOrNull "versionStartExcluding"
  endIncluding := m.memberOrNull "versionEndIncluding"
  endExcluding := m.memberOrNull "versionEndExcluding"
  vulnerable := .flag (isVulnerable m)

/-- A range can be looked up unless a bound of it is a list or an object. -/
theorem isHashable_rangeOf (m : Json) (s : String) (c : Cpe) :
    (rangeOf m s c).isHashable = !isMisbounded m := by
  have htext (s : String) : (Json.text s).isHashable = true := rfl
  have hflag (b : Bool) : (Json.flag b).isHashable = true := rfl
  have htext? (v : Option String) : (Json.ofText? v).isHashable = true := by cases v <;> rfl
  simp [AffectedRange.isHashable, AffectedRange.key, rangeOf, htext, hflag, htext?, isMisbounded,
    boundsOf]

theorem ofMatch_eq {m : Json} (hm : m.isObject = true) : ofMatch m =
    match m.member? "criteria" with
    | none => .error (.missingKey "criteria")
    | some (.text s) =>
      match Cpe.read? s with
      | none => .error (.notCpe s)
      | some c => .ok (rangeOf m s c)
    | some _ => .error .wrongKind := by
  cases m with
  | object members =>
    simp only [ofMatch, Json.required, Json.member, Json.member?, bind, Except.bind]
    cases Json.lookup "criteria" members with
    | none => rfl
    | some v =>
      cases v with
      | text s =>
        cases hc : Cpe.read? s with
        | none => simp only [hc]
        | some c => simp only [hc]; rfl
      | _ => rfl
  | _ => cases hm

/-- What the walk makes of a match. -/
inductive Finding
  | passedOver
  | refused (cause : Failure)
  | taken (r : AffectedRange)
  /-- The criteria are no text, or a bound cannot be looked up. -/
  | spoiling

/-- Only vulnerable platforms count, and criteria have to be the name of one. -/
def finding (m : Json) : Finding :=
  if isVulnerable m then
    match m.member? "criteria" with
    | none => .refused (.missingKey "criteria")
    | some (.text s) =>
      match Cpe.read? s with
      | none => .refused (.notCpe s)
      | some c => if isMisbounded m then .spoiling else .taken (rangeOf m s c)
    | some _ => .spoiling
  else .passedOver

def refusal (vulnId : String) (m : Json) (cause : Failure) : LogEntry :=
  ⟨.conversion, .warning, "⚠️ " ++ vulnId ++ ": skipping malformed cpeMatch " ++
    (m.memberOrNull "criteria").literal ++ ": " ++ cause.message, none⟩

def isSpoiling (m : Json) : Bool :=
  match finding m with
  | .spoiling => true
  | _ => false

def range? (m : Json) : Option AffectedRange :=
  match finding m with
  | .taken r => some r
  | _ => none

def warning? (vulnId : String) (m : Json) : Option LogEntry :=
  match finding m with
  | .refused cause => some (refusal vulnId m cause)
  | _ => none

/-- A range is found only in a match that is read as that range, and can be looked up. -/
theorem taken_of_range? {m : Json} {r : AffectedRange} (hm : m.isObject = true)
    (h : range? m = some r) :
    isVulnerable m = true ∧ ofMatch m = .ok r ∧ r.isHashable = true := by
  rw [ofMatch_eq hm]
  unfold range? finding at h
  cases hv : isVulnerable m with
  | false => simp [hv] at h
  | true =>
    simp only [hv, if_true] at h
    cases hl : m.member? "criteria" with
    | none => simp [hl] at h
    | some v =>
      cases v with
      | text s =>
        cases hc : Cpe.read? s with
        | none => simp [hl, hc] at h
        | some c =>
          cases hb : isMisbounded m with
          | true => simp [hl, hc, hb] at h
          | false =>
            simp only [hl, hc, hb, Bool.false_eq_true, if_false, Option.some.injEq] at h
            subst h
            exact ⟨rfl, by simp only [hc], by rw [isHashable_rangeOf, hb, Bool.not_false]⟩
      | _ => simp [hl] at h

/-- A range behind those already found, unless one of them is the same. -/
def addOnce (found : List AffectedRange) (r : AffectedRange) : List AffectedRange :=
  if found.any r.same then found else found ++ [r]

theorem addRange_eq {r : AffectedRange} (found : List AffectedRange) :
    addRange found r = if r.isHashable then .ok (addOnce found r) else .error .wrongKind := by
  cases h : r.isHashable <;> simp [addRange, addOnce, AffectedRange.lookupKey, h, bind, Except.bind]

theorem rangesOfMatches_cons {m : Json} (hm : m.isObject = true) (vulnId : String)
    (found : List AffectedRange) (rest : List Json) : rangesOfMatches vulnId found (m :: rest) =
      match finding m with
      | .passedOver => rangesOfMatches vulnId found rest
      | .refused cause => ⟨(rangesOfMatches vulnId found rest).result,
          refusal vulnId m cause :: (rangesOfMatches vulnId found rest).entries⟩
      | .taken r => rangesOfMatches vulnId (addOnce found r) rest
      | .spoiling => .fail .wrongKind := by
  rw [rangesOfMatches, Json.member_of_isObject hm, Json.member_of_isObject hm, ofMatch_eq hm]
  change (if isVulnerable m = true then _ else _) = _
  unfold finding
  split
  · cases m.member? "criteria" with
    | none => rfl
    | some v =>
      cases v with
      | text s =>
        cases hc : Cpe.read? s with
        | none => simp only [hc]; rfl
        | some c =>
          simp only [hc, addRange_eq, isHashable_rangeOf]
          cases isMisbounded m <;> rfl
      | _ => rfl
  · rfl

section Walk

variable {vulnId : String} {found : List AffectedRange} {ms : List Json}

theorem rangesOfMatches_append (hms : ∀ m ∈ ms, m.isObject = true) (found : List AffectedRange)
    (rest : List Json) :
    rangesOfMatches vulnId found (ms ++ rest) =
      rangesOfMatches vulnId found ms >>= fun found => rangesOfMatches vulnId found rest := by
  induction ms generalizing found with
  | nil => rfl
  | cons m more ih =>
    obtain ⟨hm, hmore⟩ := List.forall_mem_cons.mp hms
    rw [List.cons_append, rangesOfMatches_cons hm, rangesOfMatches_cons hm]
    cases finding m with
    | passedOver => exact ih hmore found
    | refused cause =>
      simp only [ih hmore]
      exact (Noted.note_bind ..).symm
    | taken r => exact ih hmore _
    | spoiling => rfl

/-- Without a match that spoils it, a walk finds the ranges of its matches, and warns of those it
refuses. -/
theorem rangesOfMatches_eq (hms : ∀ m ∈ ms, m.isObject = true) (hs : ∀ m ∈ ms, isSpoiling m = false)
    (found : List AffectedRange) : rangesOfMatches vulnId found ms =
      ⟨.ok ((ms.filterMap range?).foldl addOnce found), ms.filterMap (warning? vulnId)⟩ := by
  induction ms generalizing found with
  | nil => rfl
  | cons m rest ih =>
    obtain ⟨hm, hrest⟩ := List.forall_mem_cons.mp hms
    obtain ⟨hspoil, hspoils⟩ := List.forall_mem_cons.mp hs
    rw [rangesOfMatches_cons hm, List.filterMap_cons, List.filterMap_cons, range?, warning?]
    rw [isSpoiling] at hspoil
    cases hf : finding m with
    | passedOver => exact ih hrest hspoils found
    | refused cause => simp only [ih hrest hspoils]
    | taken r => exact ih hrest hspoils _
    | spoiling => simp [hf] at hspoil

theorem rangesOfMatches_spoiled (hms : ∀ m ∈ ms, m.isObject = true)
    (hs : ∃ m ∈ ms, isSpoiling m = true)
    (found : List AffectedRange) :
    (rangesOfMatches vulnId found ms).result = .error .wrongKind := by
  induction ms generalizing found with
  | nil => simp at hs
  | cons m rest ih =>
    obtain ⟨hm, hrest⟩ := List.forall_mem_cons.mp hms
    rw [rangesOfMatches_cons hm]
    rw [List.exists_mem_cons_iff, isSpoiling] at hs
    cases hf : finding m with
    | spoiling => rfl
    | _ => exact ih hrest (hs.resolve_left (by simp [hf])) _

end Walk

section Layout

variable {test : Json → Bool} {vulnId : String} {configurations : Json}

/-- A walk that goes through matches, item by item, goes through the matches of all items. -/
theorem walk_eq_flatMap (walk : List AffectedRange → List Json → Noted (List AffectedRange))
    {matches' : Json → List Json} {items : List Json} (hnil : ∀ found, walk found [] = pure found)
    (hcons : ∀ item ∈ items, ∀ found rest, walk found (item :: rest) =
      rangesOfMatches vulnId found (matches' item) >>= fun found => walk found rest)
    (hms : ∀ item ∈ items, ∀ m ∈ matches' item, m.isObject = true) (found : List AffectedRange) :
    walk found items = rangesOfMatches vulnId found (items.flatMap matches') := by
  induction items generalizing found with
  | nil => exact hnil found
  | cons item rest ih =>
    obtain ⟨hitem, hrest⟩ := List.forall_mem_cons.mp hms
    have ih := ih (fun x hx => hcons x (List.mem_cons_of_mem item hx)) hrest
    rw [hcons item List.mem_cons_self, List.flatMap_cons, rangesOfMatches_append hitem]
    simp only [ih]

theorem rangesOfNodes_eq (htest : ∀ m, test m = true → m.isObject = true) {nodes : List Json}
    (h : ∀ node ∈ nodes, node.hasMember "cpeMatch" (Json.isListOf test) = true)
    (found : List AffectedRange) :
    rangesOfNodes vulnId found nodes =
      rangesOfMatches vulnId found (nodes.flatMap matchesOfNode) := by
  refine walk_eq_flatMap (rangesOfNodes vulnId) (fun _ => rfl) ?_ ?_ found
  · intro node hn found rest
    rw [rangesOfNodes, Json.member_of_isObject (Json.isObject_of_hasMember (h node hn))]
    change (liftM (Json.memberOrNull "cpeMatch" node).elementsIfAny >>= fun ms =>
      rangesOfMatches vulnId found ms >>= fun found => rangesOfNodes vulnId found rest) = _
    rw [Json.elementsIfAny_of_isListOf (Json.of_hasMember (h node hn))]
    rfl
  · intro node hn m hm
    exact htest m (Json.forall_mem_items (Json.of_hasMember (h node hn)) m hm)

theorem forall_mem_matchesOfConfiguration {c : Json}
    (h : c.hasMember "nodes"
      (Json.isListOf (Json.hasMember "cpeMatch" (Json.isListOf test))) = true) :
    ∀ m ∈ matchesOfConfiguration c, test m = true := by
  intro m hm
  obtain ⟨node, hn, hm⟩ := List.mem_flatMap.mp hm
  exact Json.forall_mem_items
    (Json.of_hasMember (Json.forall_mem_items (Json.of_hasMember h) node hn)) m hm

theorem rangesOfConfigurations_eq (htest : ∀ m, test m = true → m.isObject = true) {cs : List Json}
    (h : ∀ c ∈ cs, c.hasMember "nodes"
      (Json.isListOf (Json.hasMember "cpeMatch" (Json.isListOf test))) = true)
    (found : List AffectedRange) : rangesOfConfigurations vulnId found cs =
      rangesOfMatches vulnId found (cs.flatMap matchesOfConfiguration) := by
  refine walk_eq_flatMap (rangesOfConfigurations vulnId) (fun _ => rfl) ?_ ?_ found
  · intro c hc found rest
    have hlist := Json.of_hasMember (h c hc)
    rw [rangesOfConfigurations, Json.member_of_isObject (Json.isObject_of_hasMember (h c hc))]
    change (liftM (Json.memberOrNull "nodes" c).elementsIfAny >>= fun nodes =>
      rangesOfNodes vulnId found nodes >>= fun found => rangesOfConfigurations vulnId found rest) =
        _
    rw [Json.elementsIfAny_of_isListOf hlist, matchesOfConfiguration,
      ← rangesOfNodes_eq htest (Json.forall_mem_items hlist)]
    rfl
  · exact fun c hc m hm => htest m (forall_mem_matchesOfConfiguration (h c hc) m hm)

/-- A walk through configurations is one through their matches. -/
theorem ranges_eq (htest : ∀ m, test m = true → m.isObject = true)
    (h : isLaidOut test configurations = true) :
    ranges vulnId configurations = rangesOfMatches vulnId [] (matchesOf configurations) := by
  have hfirst : ranges vulnId configurations =
      rangesOfConfigurations vulnId [] configurations.items := by
    rw [ranges, Json.elementsIfAny_of_isListOf h]
    rfl
  rw [hfirst, rangesOfConfigurations_eq htest (Json.forall_mem_items h), matchesOf]

theorem forall_mem_matchesOf (h : isLaidOut test configurations = true) :
    ∀ m ∈ matchesOf configurations, test m = true := by
  intro m hm
  obtain ⟨c, hc, hm⟩ := List.mem_flatMap.mp hm
  exact forall_mem_matchesOfConfiguration (Json.forall_mem_items h c hc) m hm

end Layout

def isConvertible (m : Json) : Bool := (ofMatch m).isOk

/-- Configurations without the matches that cannot be read. -/
def onlyConvertible : Json → Json :=
  Json.mapItems (Json.modifyMember "nodes"
    (Json.mapItems (Json.modifyMember "cpeMatch" (Json.filterItems isConvertible))))

theorem matchesOf_onlyConvertible (configurations : Json) :
    matchesOf (onlyConvertible configurations) =
      (matchesOf configurations).filter isConvertible := by
  have hnode (node : Json) :
    matchesOfNode (node.modifyMember "cpeMatch" (Json.filterItems isConvertible)) =
      (matchesOfNode node).filter isConvertible := by
    rw [matchesOfNode, Json.memberOrNull_modifyMember rfl, Json.items_filterItems]
    rfl
  have hconfiguration (c : Json) : matchesOfConfiguration (c.modifyMember "nodes"
      (Json.mapItems (Json.modifyMember "cpeMatch" (Json.filterItems isConvertible)))) =
      (matchesOfConfiguration c).filter isConvertible := by
    rw [matchesOfConfiguration, Json.memberOrNull_modifyMember rfl, Json.items_mapItems]
    simp only [matchesOfConfiguration, List.flatMap_map, List.filter_flatMap, hnode]
  simp only [matchesOf, onlyConvertible, Json.items_mapItems, List.flatMap_map, List.filter_flatMap,
    hconfiguration]

theorem isLaidOut_onlyConvertible {test : Json → Bool} {configurations : Json}
    (h : isLaidOut test configurations = true) :
    isLaidOut test (onlyConvertible configurations) = true :=
  Json.isListOf_mapItems (fun _ hc => Json.hasMember_modifyMember rfl
    (fun _ hn => Json.isListOf_mapItems (fun _ hnode => Json.hasMember_modifyMember rfl
      (fun _ hms => Json.isListOf_filterItems hms) hnode) hn) hc) h

theorem filterMap_range?_filter {ms : List Json} (hms : ∀ m ∈ ms, m.isObject = true) :
    (ms.filter isConvertible).filterMap range? = ms.filterMap range? := by
  rw [List.filterMap_filter]
  refine List.filterMap_congr fun m hm => ?_
  cases hr : range? m with
  | none => simp
  | some r => simp [isConvertible, (taken_of_range? (hms m hm) hr).2.1, Except.isOk, Except.toBool]

/-- A walk through matches ends well just in case none of them spoils it; the matches that cannot be
read then make no difference to what it finds. -/
theorem ranges_returns_iff {configurations : Json}
    (h : isLaidOut Json.isObject configurations = true) (vulnId : String) :
    ((∃ found, (ranges vulnId configurations).result = .ok found) ↔
      ∀ m ∈ matchesOf configurations, isSpoiling m = false) ∧
    ((∃ m ∈ matchesOf configurations, isSpoiling m = true) →
      (ranges vulnId configurations).result = .error .wrongKind) ∧
    ∀ found, (ranges vulnId configurations).result = .ok found →
      (ranges vulnId (onlyConvertible configurations)).result = .ok found := by
  have hms := forall_mem_matchesOf h
  have hspoiled : (∃ m ∈ matchesOf configurations, isSpoiling m = true) →
      (ranges vulnId configurations).result = .error .wrongKind := by
    intro hs
    rw [ranges_eq (fun _ => id) h, rangesOfMatches_spoiled hms hs]
  have hiff : (∃ found, (ranges vulnId configurations).result = .ok found) ↔
      ∀ m ∈ matchesOf configurations, isSpoiling m = false := by
    constructor
    · rintro ⟨found, hfound⟩ m hm
      by_contra hs
      rw [hspoiled ⟨m, hm, by simpa using hs⟩] at hfound
      cases hfound
    · intro hs
      exact ⟨_, by rw [ranges_eq (fun _ => id) h, rangesOfMatches_eq hms hs]⟩
  refine ⟨hiff, hspoiled, fun found hfound => ?_⟩
  have hs := hiff.mp ⟨found, hfound⟩
  have hms' := forall_mem_matchesOf (isLaidOut_onlyConvertible h)
  have hs' : ∀ m ∈ matchesOf (onlyConvertible configurations), isSpoiling m = false := by
    intro m hm
    rw [matchesOf_onlyConvertible] at hm
    exact hs m (List.mem_filter.mp hm).1
  rw [ranges_eq (fun _ => id) h, rangesOfMatches_eq hms hs] at hfound
  rw [ranges_eq (fun _ => id) (isLaidOut_onlyConvertible h), rangesOfMatches_eq hms' hs',
    matchesOf_onlyConvertible,
    filterMap_range?_filter hms]
  exact hfound

def configurationOf (ms : List Json) : Json :=
  .list [.object [("nodes", .list [.object [("cpeMatch", .list ms)]])]]

def widgetMatch : Json :=
  .object [("vulnerable", .flag true), ("criteria", .text "cpe:2.3:a:acme:widget:*:*:*:*:*:*:*:*")]

def namelessMatch : Json := .object [("vulnerable", .flag true)]

def numberedMatch : Json := .object [("vulnerable", .flag true), ("criteria", .int 5)]

/-- A match without criteria is left out. -/
theorem ranges_returns_namelessMatch :
    isLaidOut Json.isObject (configurationOf [namelessMatch, widgetMatch]) = true ∧
    ∃ found, (ranges "CVE-1" (configurationOf [namelessMatch, widgetMatch])).result = .ok found ∧
      (ranges "CVE-1" (onlyConvertible (configurationOf [namelessMatch, widgetMatch]))).result =
        .ok found := by
  have h : isLaidOut Json.isObject (configurationOf [namelessMatch, widgetMatch]) = true := rfl
  obtain ⟨hiff, -, hsame⟩ := ranges_returns_iff h "CVE-1"
  obtain ⟨found, hfound⟩ := hiff.mpr (by decide +kernel)
  exact ⟨h, found, hfound, hsame found hfound⟩

/-- A number for criteria cannot be read either, and ends the walk. -/
theorem ranges_fails_numberedMatch :
    isLaidOut Json.isObject (configurationOf [numberedMatch, widgetMatch]) = true ∧
    isConvertible numberedMatch = false ∧
    (ranges "CVE-1" (configurationOf [numberedMatch, widgetMatch])).result = .error .wrongKind ∧
    (ranges "CVE-1" (onlyConvertible (configurationOf [numberedMatch, widgetMatch]))).result.isOk =
      true := by
  exact ⟨rfl, rfl, rfl, by decide +kernel⟩

end Record

end AdvisoryLedger

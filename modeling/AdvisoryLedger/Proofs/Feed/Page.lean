import AdvisoryLedger.Document.Advisory
import AdvisoryLedger.Feed.Harvest

namespace AdvisoryLedger

def Json.items : Json → List Json
  | .list xs => xs
  | _ => []

namespace FeedAnswer

def ofPage (total : Int) (items : List Json) : FeedAnswer :=
  .response 200 (.ok (.object [("totalResults", .int total), ("vulnerabilities", .list items)]))

/-- The object that comes back with an answer that has one. -/
def page? : FeedAnswer → Option Json
  | .response _ (.ok (.object members)) => some (.object members)
  | _ => none

/-- The records of a page; there are none without a list of them. -/
def records (answer : FeedAnswer) : List Json :=
  ((answer.page?.bind (Json.member? "vulnerabilities")).map Json.items).getD []

/-- How many records the answer says there are in all. -/
def announced? (answer : FeedAnswer) : Option Int := do
  (← (← answer.page?).member? "totalResults").integer.toOption

end FeedAnswer

def FeedStamp.ofJson? : Json → Option Moment
  | .text s => read? s
  | _ => none

/-- When the record of an item was last modified, if that can be read. -/
def lastModified? (item : Json) : Option Moment := do
  FeedStamp.ofJson? (← (← item.member? "cve").member? "lastModified")

/-- The later of two times, the first where they are the same. -/
def Moment.later (last : Option Moment) (m : Moment) : Option Moment :=
  match last with
  | none => some m
  | some l => if l.before m then some m else some l

namespace Moment

variable {last : Option Moment} {m t : Moment}

theorem exists_later (last : Option Moment) (t : Moment) : ∃ m, later last t = some m := by
  cases last with
  | none => exact ⟨t, rfl⟩
  | some l => cases hb : l.before t <;> simp [later, hb]

theorem later_eq_some (h : later last t = some m) :
    (m = t ∨ last = some m) ∧ t.instant ≤ m.instant ∧ ∀ x, last = some x →
      x.instant ≤ m.instant := by
  cases last with
  | none =>
    cases h
    exact ⟨.inl rfl, Int.le_refl _, by simp⟩
  | some l =>
    cases hb : l.before t with
    | true =>
      have hlt : l.instant < t.instant := of_decide_eq_true hb
      simp only [later, hb, if_true, Option.some.injEq] at h
      subst h
      exact ⟨.inl rfl, Int.le_refl _, by simpa using Int.le_of_lt hlt⟩
    | false =>
      have hge : ¬l.instant < t.instant := of_decide_eq_false hb
      simp only [later, hb, Bool.false_eq_true, if_false, Option.some.injEq] at h
      subst h
      exact ⟨.inr rfl, Int.not_lt.mp hge, by simp⟩

theorem foldl_later {times : List Moment} (h : times.foldl later last = some m) :
    (m ∈ times ∨ last = some m) ∧ (∀ x ∈ times, x.instant ≤ m.instant) ∧
      ∀ x, last = some x → x.instant ≤ m.instant := by
  induction times generalizing last with
  | nil =>
    refine ⟨.inr h, by simp, ?_⟩
    rintro x rfl
    cases h
    exact Int.le_refl _
  | cons t rest ih =>
    obtain ⟨hfrom, hall, hlast⟩ := ih h
    obtain ⟨l, hl⟩ := exists_later last t
    obtain ⟨heither, ht, hbefore⟩ := later_eq_some hl
    have hlm := hlast l hl
    refine ⟨?_, List.forall_mem_cons.mpr ⟨Int.le_trans ht hlm, hall⟩,
      fun x hx => Int.le_trans (hbefore x hx) hlm⟩
    rcases hfrom with hmem | hm
    · exact .inl (List.mem_cons_of_mem _ hmem)
    · obtain rfl := Option.some.inj (hl.symm.trans hm)
      refine heither.imp_left ?_
      rintro rfl
      exact List.mem_cons_self

theorem foldl_later_eq_none {times : List Moment} (h : times.foldl later last = none) :
    times = [] ∧ last = none := by
  induction times generalizing last with
  | nil => exact ⟨rfl, h⟩
  | cons t rest ih =>
    obtain ⟨l, hl⟩ := exists_later last t
    rw [List.foldl_cons, hl] at h
    cases (ih h).2

end Moment

theorem Noted.result_bind_ok {α β : Type} {x : Noted α} {f : α → Noted β} {b : β} :
    (x >>= f).result = .ok b ↔ ∃ a, x.result = .ok a ∧ (f a).result = .ok b := by
  change (Noted.bind x f).result = .ok b ↔ _
  unfold Noted.bind
  cases x.result with
  | error e => simp
  | ok a => simp

theorem Json.member_ok {name : String} {v w : Json} (h : v.member name = .ok w) :
    ∃ members, v = .object members ∧ w = (lookup name members).getD .null := by
  cases v with
  | object members => exact ⟨members, rfl, (Except.ok.inj h).symm⟩
  | _ => cases h

theorem Record.stamp_result {v : Json} {m : Option Moment} (h : (stamp v).result = .ok m) :
    m = FeedStamp.ofJson? v := by
  unfold stamp at h
  split at h
  · next ht =>
    cases v with
    | text s =>
      dsimp only at h
      cases hr : FeedStamp.read? s with
      | some x =>
        rw [hr] at h
        cases h
        exact hr.symm
      | none =>
        rw [hr] at h
        cases h
        exact hr.symm
    | _ => cases h
  · next hf =>
    cases h
    cases v with
    | text s =>
      obtain rfl : s = "" := by simpa [Json.isTruthy] using hf
      rfl
    | _ => rfl

/-- A timestamp that can be read has something in it, and nothing is logged about it. -/
theorem Record.stamp_of_read? {s : String} {m : Moment} (h : FeedStamp.read? s = some m) :
    stamp (.text s) = pure (some m) := by
  cases ht : (Json.text s).isTruthy with
  | true =>
    rw [stamp, if_pos ht]
    simp only [h]
  | false =>
    obtain rfl : s = "" := by simpa [Json.isTruthy] using ht
    cases h

theorem Json.member?_of_falsy {v : Json} (h : v.isTruthy = false) (name : String) :
    v.member? name = none := by
  cases v with
  | object members =>
    obtain rfl : members = [] := by simpa [isTruthy] using h
    rfl
  | _ => rfl

theorem FeedStamp.ofJson?_getD (v : Option Json) : ofJson? (v.getD .null) = v.bind ofJson? := by
  cases v <;> rfl

theorem FeedClient.modified_result {item : Json} {m : Option Moment}
    (h : (modified item).result = .ok m) :
    m = lastModified? item := by
  obtain ⟨cve, hcve, h⟩ := Noted.result_bind_ok.mp h
  obtain ⟨value, hvalue, h⟩ := Noted.result_bind_ok.mp h
  obtain ⟨members, rfl, rfl⟩ := Json.member_ok hcve
  obtain ⟨fields, hfields, rfl⟩ := Json.member_ok hvalue
  have hm := Record.stamp_result h
  rw [FeedStamp.ofJson?_getD] at hm
  simp only [lastModified?, Json.member?]
  cases hl : Json.lookup "cve" members with
  | none =>
    simp [hl, Json.orEmptyObject, Json.isTruthy] at hfields
    subst hfields
    exact hm
  | some v =>
    simp only [hl, Option.getD_some, Json.orEmptyObject] at hfields
    split at hfields
    · subst hfields
      exact hm
    · next hfalsy =>
      cases hfields
      rw [hm]
      change none = (v.member? "lastModified").bind FeedStamp.ofJson?
      rw [Json.member?_of_falsy (by simpa using hfalsy)]
      rfl

namespace FeedClient

variable {c : FeedClient}

theorem observe_eq (c : FeedClient) (m : Option Moment) :
    c.observe m = { c with lastUpdated := m.toList.foldl Moment.later c.lastUpdated } := by
  cases m with
  | none => rfl
  | some m =>
    simp only [observe, Option.toList_some, List.foldl_cons, List.foldl_nil, Moment.later]
    cases hl : c.lastUpdated with
    | none => rfl
    | some l =>
      dsimp only
      split
      · rfl
      · rw [← hl]

/-- A client that has looked at all items knows the latest time at which one of them was
modified. -/
theorem observeAll_ok {items : List Json} (h : (c.observeAll items).1.result = .ok ()) :
    (∀ item ∈ items, (modified item).result = .ok (lastModified? item)) ∧ (c.observeAll items).2 =
      { c with lastUpdated := (items.filterMap lastModified?).foldl Moment.later c.lastUpdated } := by
  induction items generalizing c with
  | nil => exact ⟨by simp, rfl⟩
  | cons item rest ih =>
    unfold observeAll at h ⊢
    cases hm : (modified item).result with
    | error e => simp [hm] at h
    | ok m =>
      obtain rfl := modified_result hm
      simp only [hm] at h ⊢
      obtain ⟨hall, hclient⟩ := ih h
      refine ⟨List.forall_mem_cons.mpr ⟨hm, hall⟩, ?_⟩
      rw [hclient, observe_eq, List.filterMap_cons]
      cases lastModified? item <;> rfl

theorem observeAll_of_forall {items : List Json}
    (h : ∀ item ∈ items, ∃ m, (modified item).result = .ok m) :
    (c.observeAll items).1.result = .ok () := by
  induction items generalizing c with
  | nil => rfl
  | cons item rest ih =>
    obtain ⟨⟨m, hm⟩, hrest⟩ := List.forall_mem_cons.mp h
    simp only [observeAll, hm]
    exact ih hrest

theorem ofOptions_ok {o : FeedOptions} (h : (ofOptions o).result = .ok c) : ∃ apiKey delay window,
    c = { endpoint := o.endpoint, apiKey, pageSize := o.pageSize, delay, window } := by
  obtain ⟨window, -, h⟩ := Noted.result_bind_ok.mp h
  dsimp only at h
  split at h
  · obtain ⟨u, -, h⟩ := Noted.result_bind_ok.mp h
    cases h
    exact ⟨_, _, window, rfl⟩
  · cases h
    exact ⟨_, _, window, rfl⟩

theorem carry_ne_ok {α : Type} (c : FeedClient) (e : Failure) (a : α) :
    (c.carry e).result ≠ .ok a := by
  cases e <;> simp [carry, fault, Noted.fail]

theorem body_ok {answer : FeedAnswer} {page : Json} (h : (c.body answer).result = .ok page) :
    ∃ members, page = .object members ∧ answer = .response 200 (.ok (.object members)) := by
  unfold body at h
  split at h
  · exact absurd h (c.carry_ne_ok _ _)
  · split at h
    · cases h
    · next hs =>
      obtain rfl := Decidable.not_not.mp hs
      split at h
      · exact absurd h (c.carry_ne_ok _ _)
      · next members =>
        cases h
        exact ⟨members, rfl, rfl⟩
      · cases h

theorem announced_ok {members : Table String Json} {total n : Int}
    (h : (c.announced (.object members)).result = .ok total)
    (hn : (Json.lookup "totalResults" members).bind (fun v => v.integer.toOption) = some n) :
    n = total := by
  unfold announced at h
  dsimp only at h
  cases hl : Json.lookup "totalResults" members with
  | none => simp [hl] at hn
  | some v =>
    simp only [hl] at h
    simp only [hl, Option.bind_some] at hn
    cases hv : v.integer with
    | error e => simp [hv, Except.toOption] at hn
    | ok m =>
      simp only [hv] at h
      simp only [hv, Except.toOption, Option.some.injEq] at hn
      exact hn.symm.trans (Except.ok.inj h)

theorem eq_nil_of_readable_texts (names : List String)
    (hr : ∀ item ∈ names.map Json.text, ∃ m, (modified item).result = .ok m) : names = [] := by
  cases names with
  | nil => rfl
  | cons name rest =>
    obtain ⟨m, hm⟩ := hr (.text name) List.mem_cons_self
    cases hm

theorem elementsIfAny_of_readable {v : Json} {items : List Json} (h : v.elementsIfAny = .ok items)
    (hr : ∀ item ∈ items, ∃ m, (modified item).result = .ok m) : items = v.items := by
  unfold Json.elementsIfAny at h
  split at h
  · cases v with
    | list xs => exact (Except.ok.inj h).symm
    | object members =>
      cases h
      have hnil := eq_nil_of_readable_texts (members.map Prod.fst) (by simpa using hr)
      simpa [Json.items] using hnil
    | text s =>
      cases h
      have hnil := eq_nil_of_readable_texts (s.toList.map String.singleton) (by simpa using hr)
      simpa [Json.items] using hnil
    | _ => cases h
  · next hf =>
    cases h
    cases v with
    | list xs =>
      obtain rfl : xs = [] := by simpa [Json.isTruthy] using hf
      rfl
    | _ => rfl

/-- Where a page takes the client. -/
def past (c : FeedClient) (total : Int) (items : List Json) : FeedClient :=
  { c with
    total := some total
    start := if items.isEmpty then total else c.start + items.length
    lastUpdated := (items.filterMap lastModified?).foldl Moment.later c.lastUpdated }

/-- What follows from the items of an answer for a client that gets them. -/
structure Received (c : FeedClient) (answer : FeedAnswer) (items : List Json)
    (total : Int) : Prop where
  records : answer.records = items
  announced : ∀ n, answer.announced? = some n → n = total
  readable : ∀ item ∈ items, (modified item).result = .ok (lastModified? item)
  client : (c.receive answer).2 = c.past total items

theorem receive_of_page {answer : FeedAnswer} {members : Table String Json} {total : Int}
    (hb : (c.body answer).result = .ok (.object members))
    (ht : (c.announced (.object members)).result = .ok total) :
    (c.receive answer).1.result = (c.turn total (.object members)).1.result ∧
      (c.receive answer).2 = (c.turn total (.object members)).2 := by
  have hx : (do
      let page ← c.body answer
      pure (page, ← c.announced page) : Noted (Json × Int)).result = .ok (.object members, total) :=
    Noted.result_bind_ok.mpr ⟨_, hb, Noted.result_bind_ok.mpr ⟨_, ht, rfl⟩⟩
  simp only [receive, hx]
  exact ⟨trivial, trivial⟩

/-- How far a client has come. -/
structure Progress where
  start : Int
  total : Option Int
  lastUpdated : Option Moment

def progress (c : FeedClient) : Progress := ⟨c.start, c.total, c.lastUpdated⟩

theorem observeAll_frame (c : FeedClient) (items : List Json) :
    ∃ m, (c.observeAll items).2 = { c with lastUpdated := m } := by
  induction items generalizing c with
  | nil => exact ⟨c.lastUpdated, rfl⟩
  | cons item rest ih =>
    simp only [observeAll]
    split
    · exact ⟨c.lastUpdated, rfl⟩
    · next m _ =>
      obtain ⟨last, hlast⟩ := ih (c.observe m)
      refine ⟨last, hlast.trans ?_⟩
      rw [observe_eq]

theorem turn_frame (c : FeedClient) (total : Int) (page : Json) : ∃ start last,
    (c.turn total page).2 = { c with total := some total, start := start, lastUpdated := last } := by
  unfold turn
  dsimp only
  split
  · exact ⟨c.start, c.lastUpdated, rfl⟩
  · next items _ =>
    obtain ⟨last, hlast⟩ :=
      observeAll_frame ({ c with total := some total }.advance total items) items
    exact ⟨_, last, hlast⟩

/-- An answer changes how far the client has come, and nothing else of it. -/
theorem receive_frame (c : FeedClient) (answer : FeedAnswer) : ∃ p : Progress,
    (c.receive answer).2 = { c with start := p.start, total := p.total, lastUpdated := p.lastUpdated } := by
  unfold receive
  dsimp only
  split
  · exact ⟨c.progress, rfl⟩
  · next page total _ =>
    obtain ⟨start, last, hturn⟩ := turn_frame c total page
    exact ⟨⟨start, some total, last⟩, hturn⟩

theorem turn_of_items (c : FeedClient) (total : Int) {members : Table String Json}
    {items : List Json}
    (hi : ((Json.object members).member "vulnerabilities").bind Json.elementsIfAny = .ok items) :
    (c.turn total (.object members)).1.result =
        (({ c with total := some total }.advance total items).observeAll items).1.result.map
          (fun _ => items) ∧
      (c.turn total (.object members)).2 =
        (({ c with total := some total }.advance total items).observeAll items).2 := by
  simp only [turn, hi]
  refine ⟨?_, trivial⟩
  cases hx : (({ c with total := some total }.advance total items).observeAll items).1.result with
  | error e => simp [bind, Noted.bind, hx, Except.map]
  | ok u => simp [bind, Noted.bind, hx, Except.map, Noted.log, pure]

theorem page_of_receive_ok {answer : FeedAnswer} {items : List Json}
    (h : (c.receive answer).1.result = .ok items) :
    ∃ members total, (c.body answer).result = .ok (.object members) ∧
      (c.announced (.object members)).result = .ok total := by
  simp only [receive] at h
  split at h
  · cases h
  · next page total hx =>
    obtain ⟨page', hb, hx⟩ := Noted.result_bind_ok.mp hx
    obtain ⟨total', ht, hx⟩ := Noted.result_bind_ok.mp hx
    cases hx
    obtain ⟨members, rfl, -⟩ := body_ok hb
    exact ⟨members, total, hb, ht⟩

theorem receive_ok {answer : FeedAnswer} {items : List Json}
    (h : (c.receive answer).1.result = .ok items) :
    ∃ total, c.Received answer items total := by
  obtain ⟨members, total, hb, ht⟩ := page_of_receive_ok h
  obtain ⟨hresult, hclient⟩ := receive_of_page hb ht
  rw [hresult] at h
  cases hi : ((Json.object members).member "vulnerabilities").bind Json.elementsIfAny with
  | error e => simp [turn, hi, Noted.fail] at h
  | ok xs =>
    obtain ⟨hturn, hpast⟩ := turn_of_items c total hi
    rw [hturn] at h
    cases ho : (({ c with total := some total }.advance total xs).observeAll xs).1.result with
    | error e => simp [ho, Except.map] at h
    | ok u =>
      obtain rfl : xs = items := by simpa [ho, Except.map] using h
      obtain ⟨hreadable, hobserved⟩ := observeAll_ok ho
      obtain ⟨members', hm, rfl⟩ := body_ok hb
      cases hm
      refine ⟨total, ?_, ?_, hreadable, hclient.trans (hpast.trans hobserved)⟩
      · have hlist := elementsIfAny_of_readable hi fun item hitem => ⟨_, hreadable item hitem⟩
        rw [hlist]
        -- a page without a list of items has none, on either side
        simp only [FeedAnswer.records, FeedAnswer.page?, Option.bind_some, Json.member?]
        cases Json.lookup "vulnerabilities" members <;> rfl
      · intro n hn
        exact announced_ok ht hn

end FeedClient

end AdvisoryLedger

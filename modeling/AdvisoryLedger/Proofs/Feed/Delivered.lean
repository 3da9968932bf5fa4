import AdvisoryLedger.Proofs.Feed.Reading

namespace AdvisoryLedger

namespace FeedAnswer

/-- What a page in good order announces, zero where it says nothing. -/
def total? (members : Table String Json) : Option Int :=
  match Json.lookup "totalResults" members with
  | some v => v.integer.toOption
  | none => some 0

def items? (members : Table String Json) : Option (List Json) :=
  match Json.lookup "vulnerabilities" members with
  | some (.list items) => some items
  | some _ => none
  | none => some []

/-- What is announced and the items of a page that was delivered in good order. -/
def delivery? : FeedAnswer → Option (Int × List Json)
  | .response 200 (.ok (.object members)) => do some (← total? members, ← items? members)
  | _ => none

def next (start total : Int) (items : List Json) : Int := if items.isEmpty then total
    else start + items.length

/-- The items of a feed from an index on, up to the page that is the last by what it announces or
because it is empty. -/
def delivered (start : Int) : List FeedAnswer → Option (List Json)
  | [] => none
  | answer :: rest => do
    let (total, items) ← answer.delivery?
    let n := next start total items
    if n < total then some (items ++ (← delivered n rest)) else some items

theorem delivery?_eq_some {answer : FeedAnswer} {total : Int} {items : List Json}
    (h : answer.delivery? = some (total, items)) :
    ∃ members, answer = .response 200 (.ok (.object members)) ∧
      total? members = some total ∧ items? members = some items := by
  unfold delivery? at h
  split at h
  · next members =>
    obtain ⟨t, ht, h⟩ := Option.bind_eq_some_iff.mp h
    obtain ⟨xs, hxs, h⟩ := Option.bind_eq_some_iff.mp h
    cases h
    exact ⟨members, rfl, ht, hxs⟩
  · cases h

theorem delivered_cons {start : Int} {answer : FeedAnswer} {rest : List FeedAnswer}
    {items : List Json} (h : delivered start (answer :: rest) = some items) : ∃ total first more,
      answer.delivery? = some (total, first) ∧ items = first ++ more ∧
      (next start total first < total → delivered (next start total first) rest = some more) ∧
      (¬next start total first < total → more = []) := by
  obtain ⟨⟨total, first⟩, hfirst, h⟩ := Option.bind_eq_some_iff.mp h
  dsimp only at h
  split at h
  · next hlt =>
    obtain ⟨more, hmore, h⟩ := Option.bind_eq_some_iff.mp h
    exact ⟨total, first, more, hfirst, (Option.some.inj h).symm, fun _ => hmore,
      fun hge => absurd hlt hge⟩
  · next hge =>
    refine ⟨total, first, [], hfirst, ?_, fun hlt => absurd hlt hge, fun _ => rfl⟩
    rw [List.append_nil]
    exact (Option.some.inj h).symm

end FeedAnswer

/-- An item that does not stand in the way: it can be looked at, and what it is found to be does not
end the reading. -/
def Record.isReadable (item : Json) : Bool :=
  (FeedClient.modified item).result.isOk && goesOn (ofItem item).result

namespace FeedClient

theorem announced_of_total {members : Table String Json} {total : Int}
    (h : FeedAnswer.total? members = some total) (c : FeedClient) :
    (c.announced (.object members)).result = .ok total := by
  unfold FeedAnswer.total? at h
  unfold announced
  dsimp only
  cases hl : Json.lookup "totalResults" members with
  | none =>
    rw [hl] at h
    cases h
    rfl
  | some v =>
    cases hv : v.integer with
    | error e => simp [hl, hv, Except.toOption] at h
    | ok n =>
      obtain rfl : n = total := by simpa [hl, hv, Except.toOption] using h
      simp only [hv]
      rfl

theorem elements_of_items {members : Table String Json} {items : List Json}
    (h : FeedAnswer.items? members = some items) :
    ((Json.object members).member "vulnerabilities").bind Json.elementsIfAny = .ok items := by
  unfold FeedAnswer.items? at h
  simp only [Json.member, Except.bind]
  cases hl : Json.lookup "vulnerabilities" members with
  | none =>
    rw [hl] at h
    cases h
    rfl
  | some v =>
    cases v with
    | list xs =>
      rw [hl] at h
      cases h
      cases items <;> rfl
    | _ => simp [hl] at h

variable {c : FeedClient} {answer : FeedAnswer} {total : Int} {items : List Json}

/-- A page that was delivered is had just in case every item of it can be looked at. -/
theorem receive_of_delivery (h : answer.delivery? = some (total, items)) :
    ((c.receive answer).1.result = .ok items ∧
      (∀ item ∈ items, (modified item).result.isOk = true) ∧
      (c.receive answer).2 = c.past total items) ∨
    ((∃ e, (c.receive answer).1.result = .error e) ∧
      ∃ item ∈ items, (modified item).result.isOk = false) := by
  obtain ⟨members, rfl, htotal, hitems⟩ := FeedAnswer.delivery?_eq_some h
  have hbody : (c.body (.response 200 (.ok (.object members)))).result = .ok (.object members) :=
    rfl
  obtain ⟨hresult, hclient⟩ := receive_of_page hbody (announced_of_total htotal c)
  obtain ⟨hturn, hpast⟩ := turn_of_items c total (elements_of_items hitems)
  rw [hresult, hclient, hturn, hpast]
  cases ho : (({ c with total := some total }.advance total items).observeAll items).1.result with
  | ok u =>
    obtain ⟨hreadable, hobserved⟩ := observeAll_ok ho
    exact .inl ⟨rfl, fun item hm => by rw [hreadable item hm]; rfl, hobserved⟩
  | error e =>
    refine .inr ⟨⟨e, rfl⟩, ?_⟩
    -- had every item been looked at, there were no error
    refine Classical.byContradiction fun hnone => ?_
    have hall : ∀ item ∈ items, ∃ m, (modified item).result = .ok m := by
      intro item hm
      cases hx : (modified item).result with
      | ok m => exact ⟨m, rfl⟩
      | error f => exact absurd ⟨item, hm, by rw [hx]; rfl⟩ hnone
    rw [observeAll_of_forall hall] at ho
    cases ho

end FeedClient

namespace Harvest

open Record

variable {c : FeedClient} {now : Rat} {silence : TransportFault} {answer : FeedAnswer}
    {rest : List FeedAnswer}

theorem ofItems_error {items : List Json} {e : Failure} (h : (ofItems items).2 = .error e) :
    ∃ item ∈ items, goesOn (ofItem item).result = false := by
  refine Classical.byContradiction fun hnone => ?_
  rw [ofItems_ok.mpr fun item hm => by simpa using fun hbad => hnone ⟨item, hm, hbad⟩] at h
  cases h

/-- A page that has been read to its end, and the client that goes on behind it. -/
structure PageRead (silence : TransportFault) (c : FeedClient) (now : Rat) (answer : FeedAnswer)
    (rest : List FeedAnswer) (total : Int) (items : List Json) : Prop where
  readable : ∀ item ∈ items, isReadable item = true
  ending : (read silence c now (answer :: rest)).ending =
    (read silence (answered c now answer) (c.sendTime now) rest).ending
  pages : c.pages (answer :: rest) = items :: (answered c now answer).pages rest
  start : (answered c now answer).start = FeedAnswer.next c.start total items
  hasNext : (answered c now answer).hasNext = decide (FeedAnswer.next c.start total items < total)

/-- A page that was delivered is read to its end, or an item of it ends the reading. -/
theorem read_delivery (now : Rat) (hn : c.hasNext = true) {total : Int} {items : List Json}
    (hd : answer.delivery? = some (total, items)) : PageRead silence c now answer rest total items ∨
      (∃ e, (read silence c now (answer :: rest)).ending = .error e) ∧
        ∃ item ∈ items, isReadable item = false := by
  rcases FeedClient.receive_of_delivery hd (c := c) with ⟨hr, hlooked, hpast⟩ | ⟨⟨e, hr⟩,
    item, hm, hbad⟩
  · cases hi : (ofItems items).2 with
    | error e =>
      obtain ⟨item, hm, hbad⟩ := ofItems_error hi
      exact .inr ⟨⟨e, by rw [read_of_broken hn hr hi]⟩, item, hm, by simp [isReadable, hbad]⟩
    | ok u =>
      have hall := ofItems_ok.mp hi
      have hclient : answered c now answer =
          { c.past total items with lastSent := some (c.sendTime now) } := by
        rw [answered, hpast]
      refine .inl ⟨?_, by rw [read_of_page hn hr hi], ?_, by rw [hclient]; rfl, by rw [hclient]; rfl⟩
      · intro item hm
        simp [isReadable, hlooked item hm, hall item hm]
      · simp only [FeedClient.pages, hn, if_true, hr, pages_answered]
  · exact .inr ⟨⟨e, by rw [read_of_error hn hr]⟩, item, hm, by simp [isReadable, hbad]⟩

/-- A feed that delivers is read to the end just in case every item can be dealt with. -/
theorem read_delivered {answers : List FeedAnswer} {items : List Json} (hn : c.hasNext = true)
    (hd : FeedAnswer.delivered c.start answers = some items) :
    ((read silence c now answers).ending = .ok () ↔ ∀ item ∈ items, isReadable item = true) ∧
      ((read silence c now answers).ending = .ok () → (c.pages answers).flatten = items) := by
  induction answers generalizing c now items with
  | nil => cases hd
  | cons answer rest ih =>
    obtain ⟨total, first, more, hfirst, rfl, hmore, hlast⟩ := FeedAnswer.delivered_cons hd
    rcases read_delivery now hn hfirst with page | ⟨⟨e, he⟩, item, hm, hbad⟩
    · rw [page.ending, page.pages, List.flatten_cons, List.forall_mem_append]
      by_cases hlt : FeedAnswer.next c.start total first < total
      · have hnext := page.hasNext.trans (decide_eq_true hlt)
        obtain ⟨hiff, hflat⟩ := @ih _ (c.sendTime now) _ hnext (by rw [page.start]; exact hmore hlt)
        exact ⟨hiff.trans ⟨fun h => ⟨page.readable, h⟩, And.right⟩, fun h => by rw [hflat h]⟩
      · obtain rfl := hlast hlt
        have hdone := page.hasNext.trans (decide_eq_false hlt)
        rw [read_done hdone]
        refine ⟨⟨fun _ => ⟨page.readable, by simp⟩, fun _ => rfl⟩, fun _ => ?_⟩
        cases rest <;> simp [FeedClient.pages, hdone]
    · have hfails : (read silence c now (answer :: rest)).ending ≠ .ok () := by simp [he]
      refine ⟨⟨fun h => absurd h hfails, fun h => ?_⟩, fun h => absurd h hfails⟩
      rw [h item (List.mem_append_left _ hm)] at hbad
      cases hbad

end Harvest

end AdvisoryLedger

import AdvisoryLedger.Proofs.Feed.Page

namespace AdvisoryLedger

namespace FeedClient

variable (c : FeedClient) (x : Option Rat)

theorem observeAll_sent (items : List Json) :
    ({ c with lastSent := x } : FeedClient).observeAll items =
    ((c.observeAll items).1, { (c.observeAll items).2 with lastSent := x }) := by
  induction items generalizing c with
  | nil => rfl
  | cons item rest ih =>
    simp only [observeAll]
    cases (modified item).result with
    | error e => rfl
    | ok m =>
      have hc : ({ c with lastSent := x } : FeedClient).observe m = { c.observe m with lastSent := x } := by
        rw [observe_eq, observe_eq]
      simp only [hc, ih]

theorem turn_sent (total : Int) (page : Json) :
    ({ c with lastSent := x } : FeedClient).turn total page =
    ((c.turn total page).1, { (c.turn total page).2 with lastSent := x }) := by
  unfold turn
  cases (page.member "vulnerabilities").bind Json.elementsIfAny with
  | error e => rfl
  | ok items =>
    have h := observeAll_sent ({ c with total := some total }.advance total items) x items
    simp only [advance] at h ⊢
    rw [h]
    rfl

/-- What an answer brings does not depend on when the request for it was sent. -/
theorem receive_sent (answer : FeedAnswer) :
    ({ c with lastSent := x } : FeedClient).receive answer =
    ((c.receive answer).1, { (c.receive answer).2 with lastSent := x }) := by
  have hbody (a : FeedAnswer) : ({ c with lastSent := x } : FeedClient).body a = c.body a := rfl
  have hannounced (page : Json) : ({ c with lastSent := x } : FeedClient).announced page = c.announced page := rfl
  simp only [receive, hbody, hannounced]
  split
  · rfl
  · simp only [turn_sent]

/-- The pages that a client gets while it asks for more, up to the first that it cannot have. -/
def pages (c : FeedClient) : List FeedAnswer → List (List Json)
  | [] => []
  | answer :: rest =>
    if c.hasNext then
      match (c.receive answer).1.result with
      | .ok items => items :: (c.receive answer).2.pages rest
      | .error _ => []
    else []

theorem pages_sent (answers : List FeedAnswer) :
    ({ c with lastSent := x } : FeedClient).pages answers = c.pages answers := by
  induction answers generalizing c with
  | nil => rfl
  | cons answer rest ih =>
    have hn : ({ c with lastSent := x } : FeedClient).hasNext = c.hasNext := rfl
    simp only [pages, receive_sent, hn]
    split
    · cases (c.receive answer).1.result with
      | error e => rfl
      | ok items => exact congrArg (items :: ·) (ih _)
    · rfl

end FeedClient

/-- An item of a page, whatever it was found to be. -/
def FeedEvent.item? : FeedEvent → Option (Except Failure (Option Report))
  | .item result => some result
  | _ => none

namespace Record

/-- What an item is found to be does not end the reading. -/
def goesOn : Except Failure (Option Report) → Bool
  | .ok _ => true
  | .error e => e.isSkippable

def isSkipped : Except Failure (Option Report) → Bool
  | .ok _ => false
  | .error e => e.isSkippable

/-- What items are found to be, up to the first that ends the reading. -/
def readings : List Json → List (Except Failure (Option Report))
  | [] => []
  | item :: rest =>
    if goesOn (ofItem item).result then (ofItem item).result :: readings rest
      else [(ofItem item).result]

def report? : Except Failure (Option Report) → Option Report
  | .ok r => r
  | .error _ => none

/-- An item that does not fail has no record in it, or it is found to be what its record says. -/
theorem ofItem_ok {item : Json} {found : Option Report} (h : (ofItem item).result = .ok found) :
    (found = none ∧ item.member "cve" = .ok .null) ∨
      ∃ cve x, found = some x ∧ item.member "cve" = .ok cve ∧ (advisory cve).result = .ok x.1 := by
  obtain ⟨cve, hm, h⟩ := Noted.result_bind_ok.mp h
  split at h
  · cases h
    exact .inl ⟨rfl, hm⟩
  · obtain ⟨a, ha, h⟩ := Noted.result_bind_ok.mp h
    obtain ⟨_, -, h⟩ := Noted.result_bind_ok.mp h
    obtain ⟨ranges, -, h⟩ := Noted.result_bind_ok.mp h
    cases h
    exact .inr ⟨cve, (a, ranges), rfl, hm, ha⟩

theorem readings_append {items : List Json} (h : ∀ item ∈ items, goesOn (ofItem item).result = true)
    (more : List Json) : readings (items ++ more) = readings items ++ readings more := by
  induction items with
  | nil => rfl
  | cons item rest ih =>
    obtain ⟨hitem, hrest⟩ := List.forall_mem_cons.mp h
    simp only [List.cons_append, readings, hitem, if_true, ih hrest]

theorem readings_of_forall {items : List Json}
    (h : ∀ item ∈ items, goesOn (ofItem item).result = true) :
    readings items = items.map fun item => (ofItem item).result := by
  induction items with
  | nil => rfl
  | cons item rest ih =>
    obtain ⟨hitem, hrest⟩ := List.forall_mem_cons.mp h
    simp only [readings, hitem, if_true, ih hrest, List.map_cons]

end Record

namespace Harvest

variable {silence : TransportFault} {c : FeedClient} {now : Rat} {answer : FeedAnswer}
    {rest : List FeedAnswer}

open Record

theorem ofItem_items (item : Json) :
    (FeedEvent.ofItem item).filterMap FeedEvent.item? = [(ofItem item).result] := by
  have hentries (entries : List LogEntry) :
      (entries.map FeedEvent.entry).filterMap FeedEvent.item? = [] := by
    simp [List.filterMap_map, Function.comp_def, FeedEvent.item?]
  simp only [FeedEvent.ofItem, List.filterMap_append, hentries]
  rfl

theorem ofItems_items (items : List Json) :
    (ofItems items).1.filterMap FeedEvent.item? = readings items := by
  induction items with
  | nil => rfl
  | cons item rest ih =>
    cases hx : (ofItem item).result with
    | ok r =>
      simp only [ofItems, readings, hx, goesOn, if_true, List.filterMap_append, ofItem_items, ih,
        List.singleton_append]
    | error e =>
      simp only [ofItems, readings, hx, goesOn]
      split
      · simp only [List.filterMap_append, ofItem_items, ih, List.singleton_append, hx]
      · rw [ofItem_items, hx]

theorem ofItems_ok {items : List Json} :
    (ofItems items).2 = .ok () ↔ ∀ item ∈ items, goesOn (ofItem item).result = true := by
  induction items with
  | nil => simp [ofItems]
  | cons item rest ih =>
    simp only [ofItems, List.forall_mem_cons, ← ih]
    cases hx : (ofItem item).result with
    | ok r => simp [goesOn]
    | error e => cases hs : e.isSkippable <;> simp [goesOn, hs]

theorem ofItems_broken {items : List Json} {e : Failure} (h : (ofItems items).2 = .error e)
    (more : List Json) :
    readings (items ++ more) = readings items := by
  induction items with
  | nil => cases h
  | cons item rest ih =>
    simp only [ofItems] at h
    simp only [List.cons_append, readings]
    cases hx : (ofItem item).result with
    | ok r =>
      simp only [hx] at h
      simp only [goesOn, if_true, ih h]
    | error f =>
      simp only [hx] at h
      cases hs : f.isSkippable with
      | true =>
        simp only [hs, if_true] at h
        simp only [goesOn, hs, if_true, ih h]
      | false => simp [goesOn, hs]

theorem pageEvents_items (c : FeedClient) (now : Rat) (page : Noted (List Json)) :
    (pageEvents c now page).filterMap FeedEvent.item? = [] := by
  simp [pageEvents, FeedEvent.item?]

/-- The client after an answer to the request that it sends at a time. -/
def answered (c : FeedClient) (now : Rat) (answer : FeedAnswer) : FeedClient :=
  { (c.receive answer).2 with lastSent := some (c.sendTime now) }

section Read

variable (hn : c.hasNext = true)

include hn

theorem read_silent (silence : TransportFault) (now : Rat) : read silence c now [] =
    ⟨pageEvents c now (c.receive (.lost (.transport silence))).1,
      answered c now (.lost (.transport silence)), [], c.sendTime now,
      .error (.fetch (.transport silence c.start) c.endpoint)⟩ := by
  simp only [read, hn, if_true, FeedClient.request, FeedClient.receive_sent]
  rfl

theorem read_of_error {e : Failure} (h : (c.receive answer).1.result = .error e) :
    read silence c now (answer :: rest) =
      ⟨pageEvents c now (c.receive answer).1, answered c now answer, rest, c.sendTime now,
        .error e⟩ := by
  simp only [read, hn, if_true, FeedClient.request, FeedClient.receive_sent, h]
  rfl

theorem read_of_broken {items : List Json} {e : Failure}
    (h : (c.receive answer).1.result = .ok items) (hi : (ofItems items).2 = .error e) :
    read silence c now (answer :: rest) =
      ⟨pageEvents c now (c.receive answer).1 ++ (ofItems items).1, answered c now answer, rest,
        c.sendTime now, .error e⟩ := by
  simp only [read, hn, if_true, FeedClient.request, FeedClient.receive_sent, h, hi]
  rfl

theorem read_of_page {items : List Json} (h : (c.receive answer).1.result = .ok items)
    (hi : (ofItems items).2 = .ok ()) :
    read silence c now (answer :: rest) =
      { read silence (answered c now answer) (c.sendTime now) rest with
        events := pageEvents c now (c.receive answer).1 ++ (ofItems items).1 ++
          (read silence (answered c now answer) (c.sendTime now) rest).events } := by
  simp only [read, hn, if_true, FeedClient.request, FeedClient.receive_sent, h, hi]
  rfl

end Read

theorem read_done (hn : c.hasNext = false) (answers : List FeedAnswer) :
    read silence c now answers = ⟨[], c, answers, now, .ok ()⟩ := by
  cases answers <;> simp [read, hn]

theorem pages_answered (c : FeedClient) (now : Rat) (answer : FeedAnswer)
    (answers : List FeedAnswer) :
    (answered c now answer).pages answers = (c.receive answer).2.pages answers :=
  (c.receive answer).2.pages_sent _ answers

def found (h : Harvest) : List (Except Failure (Option Report)) :=
  h.events.filterMap FeedEvent.item?

/-- The items among the events are those of the pages that the client gets, up to the first that
ends the reading. -/
theorem found_read (silence : TransportFault) (c : FeedClient) (now : Rat)
    (answers : List FeedAnswer) :
    (read silence c now answers).found = readings (c.pages answers).flatten := by
  -- a page either ends the reading, and then what follows it does not count on either side, or it
  -- stands before what the rest of the answers brings
  change (read silence c now answers).events.filterMap FeedEvent.item? = _
  induction answers generalizing c now with
  | nil =>
    cases hn : c.hasNext with
    | false => rw [read_done hn]; rfl
    | true =>
      rw [read_silent hn, pageEvents_items]
      rfl
  | cons answer rest ih =>
    cases hn : c.hasNext with
    | false => rw [read_done hn]; simp [FeedClient.pages, hn, readings]
    | true =>
      cases hr : (c.receive answer).1.result with
      | error e =>
        rw [read_of_error hn hr, pageEvents_items]
        simp [FeedClient.pages, hn, hr, readings]
      | ok items =>
        have hpages : c.pages (answer :: rest) = items :: (answered c now answer).pages rest := by
          simp only [FeedClient.pages, hn, if_true, hr, pages_answered]
        rw [hpages, List.flatten_cons]
        cases hi : (ofItems items).2 with
        | error e =>
          rw [read_of_broken hn hr hi, ofItems_broken hi, List.filterMap_append, pageEvents_items,
            ofItems_items]
          rfl
        | ok u =>
          rw [read_of_page hn hr hi, readings_append (ofItems_ok.mp hi)]
          simp only [List.filterMap_append, pageEvents_items, ofItems_items, ih, List.nil_append]

theorem reports_eq (h : Harvest) : h.reports = h.found.filterMap report? := by
  have hreport : FeedEvent.report? = fun e => e.item?.bind report? := by
    funext e
    rcases e with _ | _ | (_ | _) <;> rfl
  rw [found, List.filterMap_filterMap, reports, hreport]

end Harvest

/-- The client gets a page for each of these answers, every item of them can be dealt with, and
there is no more to ask for. -/
inductive FeedClient.Reads : FeedClient → List FeedAnswer → FeedClient → Prop
  | done {c : FeedClient} : c.hasNext = false → Reads c [] c
  | page {c d : FeedClient} {answer : FeedAnswer} {rest : List FeedAnswer} (sent : Option Rat) :
    c.hasNext = true → (c.receive answer).1.result = .ok answer.records →
    (∀ item ∈ answer.records, Record.goesOn (Record.ofItem item).result = true) →
    Reads { (c.receive answer).2 with lastSent := sent } rest d → Reads c (answer :: rest) d

theorem Harvest.reads {silence : TransportFault} {c : FeedClient} {now : Rat}
    {answers : List FeedAnswer} (h : (read silence c now answers).ending = .ok ()) : ∃ taken,
      answers = taken ++ (read silence c now answers).answers ∧
        c.Reads taken (read silence c now answers).client := by
  induction answers generalizing c now with
  | nil =>
    cases hn : c.hasNext with
    | false => exact ⟨[], by rw [read_done hn]; exact ⟨rfl, .done hn⟩⟩
    | true =>
      rw [read_silent hn] at h
      cases h
  | cons answer rest ih =>
    cases hn : c.hasNext with
    | false => exact ⟨[], by rw [read_done hn]; exact ⟨rfl, .done hn⟩⟩
    | true =>
      cases hr : (c.receive answer).1.result with
      | error e =>
        rw [read_of_error hn hr] at h
        cases h
      | ok items =>
        cases hi : (ofItems items).2 with
        | error e =>
          rw [read_of_broken hn hr hi] at h
          cases h
        | ok u =>
          rw [read_of_page hn hr hi] at h ⊢
          obtain ⟨taken, hanswers, hreads⟩ := ih h
          obtain ⟨total, received⟩ := FeedClient.receive_ok hr
          have hall := ofItems_ok.mp hi
          rw [← received.records] at hr hall
          exact ⟨answer :: taken, congrArg (answer :: ·) hanswers, .page _ hn hr hall hreads⟩

namespace FeedClient.Reads

variable {c d : FeedClient} {taken : List FeedAnswer}

theorem goesOn (h : c.Reads taken d) :
    ∀ item ∈ taken.flatMap FeedAnswer.records,
      Record.goesOn (Record.ofItem item).result = true := by
  induction h with
  | done => simp
  | page sent hn hr hall _ ih =>
    intro item hm
    rw [List.flatMap_cons] at hm
    exact (List.mem_append.mp hm).elim (hall item) (ih item)

theorem readings_eq (h : c.Reads taken d) : Record.readings (taken.flatMap FeedAnswer.records) =
    (taken.flatMap FeedAnswer.records).map fun item => (Record.ofItem item).result :=
  Record.readings_of_forall h.goesOn

theorem pages_eq (h : c.Reads taken d) (rest : List FeedAnswer) :
    c.pages (taken ++ rest) = taken.map FeedAnswer.records := by
  induction h with
  | done hn => cases rest <;> simp [pages, hn]
  | page sent hn hr _ _ ih =>
    rw [pages_sent] at ih
    simp only [List.cons_append, pages, hn, if_true, hr, ih, List.map_cons]

/-- In the end the client knows the latest time at which a record was modified. -/
theorem lastUpdated (h : c.Reads taken d) : d.lastUpdated =
    ((taken.flatMap FeedAnswer.records).filterMap lastModified?).foldl Moment.later c.lastUpdated := by
  induction h with
  | done => rfl
  | page sent hn hr _ _ ih =>
    obtain ⟨total, received⟩ := receive_ok hr
    rw [ih, received.client, List.flatMap_cons, List.filterMap_append, List.foldl_append]
    rfl

/-- There is no more to ask for because the last page was empty, or because as many records came as
it said there are. -/
theorem complete (h : c.Reads taken d) (hn : c.hasNext = true) :
    ∃ earlier last, taken = earlier ++ [last] ∧
    ∀ n, last.announced? = some n →
      last.records = [] ∨ n ≤ c.start + ((taken.flatMap FeedAnswer.records).length : Int) := by
  induction h with
  | done hd => simp [hn] at hd
  | @page c e answer rest sent _ hr _ hrest ih =>
    obtain ⟨total, received⟩ := receive_ok hr
    have hnext : ({ (c.receive answer).2 with lastSent := sent } : FeedClient).hasNext =
        decide ((c.past total answer.records).start < total) := by
      rw [received.client]
      rfl
    cases hmore : ({ (c.receive answer).2 with lastSent := sent } : FeedClient).hasNext with
    | false =>
      -- this page is the last one, and says how many there are
      obtain rfl : rest = [] := by
        cases hrest with
        | done => rfl
        | page _ hn' => simp [hmore] at hn'
      refine ⟨[], answer, rfl, ?_⟩
      intro n hannounced
      obtain rfl := received.announced n hannounced
      have hstart : ¬(c.past n answer.records).start < n :=
        of_decide_eq_false (hnext.symm.trans hmore)
      cases hrecords : answer.records with
      | nil => exact .inl rfl
      | cons r more =>
        right
        simp only [past, hrecords, List.isEmpty_cons, Bool.false_eq_true, if_false] at hstart
        simp only [List.flatMap_cons, List.flatMap_nil, List.append_nil, hrecords]
        omega
    | true =>
      -- an empty page leaves nothing to ask for, so this one had records and the count goes on behind them
      obtain ⟨earlier, last, rfl, hlast⟩ := ih hmore
      refine ⟨answer :: earlier, last, rfl, ?_⟩
      intro n hannounced
      refine (hlast n hannounced).imp_right fun hle => ?_
      have hstart : (c.past total answer.records).start < total :=
        of_decide_eq_true (hnext.symm.trans hmore)
      cases hrecords : answer.records with
      | nil => simp [past, hrecords] at hstart
      | cons r more =>
        have hpast : ({ (c.receive answer).2 with lastSent := sent } : FeedClient).start =
            c.start + ((r :: more).length : Int) := by
          simp only [received.client, past, hrecords, List.isEmpty_cons, Bool.false_eq_true,
            if_false]
        rw [hpast] at hle
        rw [List.flatMap_cons, List.length_append, hrecords]
        omega

end FeedClient.Reads

end AdvisoryLedger

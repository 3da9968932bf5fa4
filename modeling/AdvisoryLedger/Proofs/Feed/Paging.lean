import AdvisoryLedger.Proofs.Feed.Delivered

namespace AdvisoryLedger

/-- A page in good order: it says how many items there are in all, and has some of them. A value
that stands for nothing has none. -/
def FeedAnswer.IsPage (answer : FeedAnswer) (total : Int) (page : List Json) : Prop :=
  ∃ members, answer = .response 200 (.ok (.object members)) ∧ total? members = some total ∧
    ((Json.lookup "vulnerabilities" members).getD .null = .list page ∨
      ((Json.lookup "vulnerabilities" members).getD .null).isTruthy = false ∧ page = [])

/-- The latest of some times, or none if there are no times. -/
def Moment.IsLatest (times : List Moment) : Option Moment → Prop
  | none => times = []
  | some m => m ∈ times ∧ ∀ t ∈ times, t.instant ≤ m.instant

theorem Moment.isLatest_foldl (times : List Moment) : IsLatest times (times.foldl later none) := by
  cases h : times.foldl later none with
  | none => exact (foldl_later_eq_none h).1
  | some m =>
    obtain ⟨hfrom, hlatest, -⟩ := foldl_later h
    exact ⟨hfrom.resolve_right (by simp), hlatest⟩

namespace Record

def isTime : Json → Bool
  | .text _ => true
  | v => !v.isTruthy

/-- An item in good order is an object. Its record, if it has one, is an object too, and tells in
text when it was modified, if at all. -/
def isWellFormed : Json → Bool
  | .object members =>
    match ((Json.lookup "cve" members).getD .null).orEmptyObject with
    | .object fields => isTime ((Json.lookup "lastModified" fields).getD .null)
    | _ => false
  | _ => false

theorem stamp_of_isTime {v : Json} (h : isTime v = true) : ∃ m, (stamp v).result = .ok m := by
  unfold stamp
  split
  · next ht =>
    cases v with
    | text s =>
      dsimp only
      cases FeedStamp.read? s with
      | some m => exact ⟨some m, rfl⟩
      | none => exact ⟨none, rfl⟩
    | _ => simp_all [isTime]
  · exact ⟨none, rfl⟩

end Record

namespace FeedClient

/-- A request and what came back for it. -/
structure Exchange where
  request : FeedRequest
  page : Except Failure (List Json)

def Exchange.items (x : Exchange) : List Json := x.page.toOption.getD []

/-- Asks as long as there is more, each time when its time has come. What the feed answers may
depend on how often it was asked before. -/
def loop (server : Nat → FeedRequest → FeedAnswer) (c : FeedClient) : List Rat →
    List Exchange × FeedClient
  | [] => ([], c)
  | now :: later =>
    if c.hasNext then
      let (r, sent) := c.request now
      let (page, received) := sent.receive (server 0 r)
      match page.result with
      | .error e => ([⟨r, .error e⟩], received)
      | .ok items =>
        let (rest, last) := loop (fun n => server (n + 1)) received later
        (⟨r, .ok items⟩ :: rest, last)
    else ([], c)

section Loop

variable {c : FeedClient}

theorem loop_done (server : Nat → FeedRequest → FeedAnswer) (h : c.hasNext = false)
    (times : List Rat) :
    loop server c times = ([], c) := by
  cases times with
  | nil => rfl
  | cons now later => simp only [loop, h, Bool.false_eq_true, if_false]

/-- A feed with these answers, that is silent afterwards. -/
def scripted (silence : TransportFault) (answers : List FeedAnswer) (n : Nat) (_ : FeedRequest) :
    FeedAnswer :=
  answers.getD n (.lost (.transport silence))

theorem loop_cons (server : Nat → FeedRequest → FeedAnswer) (h : c.hasNext = true) (now : Rat)
    (later : List Rat) :
    let r := (c.request now).1
    loop server c (now :: later) =
      match (c.receive (server 0 r)).1.result with
      | .error e => ([⟨r, .error e⟩], Harvest.answered c now (server 0 r))
      | .ok items =>
        let x := loop (fun n => server (n + 1)) (Harvest.answered c now (server 0 r)) later
        (⟨r, .ok items⟩ :: x.1, x.2) := by
  simp only [loop, h, if_true, request, receive_sent, Harvest.answered]

/-- When a reading asks: the first time at once, and then each time as soon as the request before
has gone out. -/
def askingTimes (now : Rat) : List FeedRequest → List Rat
  | [] => []
  | r :: later => now :: askingTimes r.sentAt later

theorem ofItems_requests (items : List Json) :
    (Harvest.ofItems items).1.filterMap FeedEvent.request? = [] := by
  have hitem (item : Json) : (FeedEvent.ofItem item).filterMap FeedEvent.request? = [] := by
    simp [FeedEvent.ofItem, FeedEvent.request?, List.filterMap_map, Function.comp_def]
  induction items with
  | nil => rfl
  | cons item rest ih =>
    unfold Harvest.ofItems
    split
    · simp only [List.filterMap_append, hitem, ih, List.append_nil]
    · split
      · simp only [List.filterMap_append, hitem, ih, List.append_nil]
      · exact hitem item

theorem pageEvents_requests (c : FeedClient) (now : Rat) (page : Noted (List Json)) :
    (Harvest.pageEvents c now page).filterMap FeedEvent.request? = [(c.request now).1] := by
  simp [Harvest.pageEvents, FeedEvent.request?]

/-- Asking for page after page comes to the events of a reading: the same requests go out, the items
of the pages are found to be what was read, and the client is the same in the end. -/
structure ComesTo (x : List Exchange × FeedClient) (events : List FeedEvent)
    (last : FeedClient) : Prop where
  requests : x.1.map Exchange.request = events.filterMap FeedEvent.request?
  found : Record.readings (x.1.flatMap Exchange.items) = events.filterMap FeedEvent.item?
  client : x.2 = last

/-- The reading of a whole feed is asking for page after page, each time as soon as the request
before has gone out. An item that ends the reading ends the asking as well. -/
theorem loop_read (silence : TransportFault) (c : FeedClient) (now : Rat)
    (answers : List FeedAnswer) :
    let h := Harvest.read silence c now answers
    ComesTo (loop (scripted silence answers) c
      (askingTimes now (h.events.filterMap FeedEvent.request?)))
      h.events h.client := by
  dsimp only
  induction answers generalizing c now with
  | nil =>
    cases hn : c.hasNext with
    | false =>
      rw [Harvest.read_done hn]
      exact ⟨rfl, rfl, rfl⟩
    | true =>
      have hlost : (c.receive (scripted silence [] 0 (c.request now).1)).1.result =
          .error (.fetch (.transport silence c.start) c.endpoint) := rfl
      rw [Harvest.read_silent hn, pageEvents_requests, askingTimes, loop_cons _ hn, hlost]
      exact ⟨(pageEvents_requests c now _).symm, (Harvest.pageEvents_items c now _).symm, rfl⟩
  | cons answer rest ih =>
    have hfirst : scripted silence (answer :: rest) 0 (c.request now).1 = answer := rfl
    have hlater : (fun n => scripted silence (answer :: rest) (n + 1)) = scripted silence rest :=
      rfl
    cases hn : c.hasNext with
    | false =>
      rw [Harvest.read_done hn]
      exact ⟨rfl, rfl, rfl⟩
    | true =>
      cases hr : (c.receive answer).1.result with
      | error e =>
        rw [Harvest.read_of_error hn hr, pageEvents_requests, askingTimes, loop_cons _ hn, hfirst,
          hr]
        exact ⟨(pageEvents_requests c now _).symm, (Harvest.pageEvents_items c now _).symm, rfl⟩
      | ok items =>
        have hpage (events : List FeedEvent) : (Harvest.pageEvents c now (c.receive answer).1 ++
            (Harvest.ofItems items).1 ++ events).filterMap FeedEvent.request? =
              (c.request now).1 :: events.filterMap FeedEvent.request? := by
          rw [List.filterMap_append, List.filterMap_append, pageEvents_requests, ofItems_requests]
          rfl
        have hitems : (Harvest.pageEvents c now (c.receive answer).1 ++
            (Harvest.ofItems items).1).filterMap FeedEvent.item? = Record.readings items := by
          rw [List.filterMap_append, Harvest.pageEvents_items, Harvest.ofItems_items,
            List.nil_append]
        cases hi : (Harvest.ofItems items).2 with
        | error e =>
          -- the reading asks no more, so that there is no time at which the loop would go on
          have hlast := hpage []
          rw [List.append_nil] at hlast
          rw [Harvest.read_of_broken hn hr hi, hlast, List.filterMap_nil, askingTimes, askingTimes,
            loop_cons _ hn, hfirst, hr]
          refine ⟨hlast.symm, ?_, rfl⟩
          rw [hitems]
          exact congrArg Record.readings (List.append_nil items)
        | ok u =>
          have hrest := ih (Harvest.answered c now answer) (c.sendTime now)
          rw [Harvest.read_of_page hn hr hi, hpage, askingTimes, loop_cons _ hn, hfirst, hr, hlater]
          refine ⟨?_, ?_, hrest.client⟩
          · rw [hpage]
            exact congrArg (_ :: ·) hrest.requests
          · rw [List.filterMap_append, hitems, ← hrest.found]
            exact Record.readings_append (Harvest.ofItems_ok.mp hi) _

end Loop

/-- A feed that holds a list of items. Asked for those from an index on, it tells how many there are
in all, and brings as many as it likes of those that come next, though not none of some. -/
def Serves (pageSize : Int) (items : List Json) (server : Nat → FeedRequest → FeedAnswer) : Prop :=
  ∀ n r (s : Nat), r.pageSize = pageSize → r.start = (s : Int) → s < items.length ∨ items = [] →
    ∃ page, (server n r).IsPage items.length page ∧ page <+: items.drop s ∧ (items ≠ [] → page ≠ [])

/-- A client that has got so many of the items. -/
structure HasRead (items : List Json) (s : Nat) (c : FeedClient) : Prop where
  start : c.start = (s : Int)
  le : s ≤ items.length
  total : c.total = some (items.length : Int) ∨ c.total = none ∧ s = 0
  lastUpdated : c.lastUpdated = ((items.take s).filterMap lastModified?).foldl Moment.later none

/-- What has come of asking for the items from an index on. -/
structure Delivers (items : List Json) (s : Nat) (exchanges : List Exchange)
    (last : FeedClient) : Prop where
  ended : last.hasNext = false
  received : ∀ x ∈ exchanges, ∃ page, x.page = .ok page
  pages : exchanges.flatMap Exchange.items = items.drop s
  starts : ∀ i x, exchanges[i]? = some x →
    x.request.start = ((s + ((exchanges.take i).flatMap Exchange.items).length : Nat) : Int)
  latest : Moment.IsLatest (items.filterMap lastModified?) last.lastUpdated

theorem modified_of_isWellFormed {item : Json} (h : Record.isWellFormed item = true) :
    ∃ m, (modified item).result = .ok m := by
  unfold Record.isWellFormed at h
  split at h
  · next members =>
    split at h
    · next fields hfields =>
      obtain ⟨m, hm⟩ := Record.stamp_of_isTime h
      have hcve : (Json.object members).member "cve" =
        .ok ((Json.lookup "cve" members).getD .null) := rfl
      have hlast : ((Json.lookup "cve" members).getD .null).orEmptyObject.member "lastModified" =
          .ok ((Json.lookup "lastModified" fields).getD .null) := by
        rw [hfields]
        rfl
      exact ⟨m, Noted.result_bind_ok.mpr ⟨_, hcve, Noted.result_bind_ok.mpr ⟨_, hlast, hm⟩⟩⟩
    · cases h
  · cases h

variable {c : FeedClient} {answer : FeedAnswer} {total : Int} {page items : List Json} {s : Nat}

theorem receive_page (h : answer.IsPage total page)
    (hpage : ∀ item ∈ page, Record.isWellFormed item = true) :
    (c.receive answer).1.result = .ok page ∧ (c.receive answer).2 = c.past total page := by
  obtain ⟨members, rfl, htotal, hitems⟩ := h
  have hbody : (c.body (.response 200 (.ok (.object members)))).result = .ok (.object members) :=
    rfl
  have helements : ((Json.object members).member "vulnerabilities").bind Json.elementsIfAny =
      .ok page := by
    change ((Json.lookup "vulnerabilities" members).getD .null).elementsIfAny = .ok page
    rcases hitems with hlist | ⟨hfalsy, rfl⟩
    · rw [hlist]
      cases page <;> rfl
    · rw [Json.elementsIfAny, if_neg (by simp [hfalsy])]
  obtain ⟨hresult, hclient⟩ := receive_of_page hbody (announced_of_total htotal c)
  obtain ⟨hturn, hpast⟩ := turn_of_items c total helements
  have hobserved : (({ c with total := some total }.advance total page).observeAll page).1.result =
      .ok () :=
    observeAll_of_forall fun item hm => modified_of_isWellFormed (hpage item hm)
  rw [hresult, hclient, hturn, hpast, hobserved]
  exact ⟨rfl, (observeAll_ok hobserved).2⟩

namespace HasRead

theorem hasNext (h : HasRead items s c) (hn : c.hasNext = true) : s < items.length ∨
    items = [] := by
  rcases h.total with ht | ⟨-, rfl⟩
  · have hlt : c.start < items.length := by simpa [FeedClient.hasNext, ht] using hn
    have hstart := h.start
    omega
  · cases items with
    | nil => exact .inr rfl
    | cons item rest => exact .inl (Nat.zero_lt_succ _)

theorem eq_length (h : HasRead items s c) (hn : c.hasNext = false) : s = items.length := by
  rcases h.total with ht | ⟨ht, -⟩
  · have hge : items.length ≤ c.start := by simpa [FeedClient.hasNext, ht] using hn
    have hstart := h.start
    have hle := h.le
    omega
  · rw [FeedClient.hasNext, ht] at hn
    cases hn

theorem past (h : HasRead items s c) (hp : page <+: items.drop s) (hne : items ≠ [] → page ≠ []) :
    HasRead items (s + page.length) (c.past items.length page) := by
  have hle := h.le
  have hlength : page.length ≤ items.length - s := by
    have hle := hp.length_le
    rwa [List.length_drop] at hle
  refine ⟨?_, by omega, .inl rfl, ?_⟩
  · have hstart := h.start
    simp only [FeedClient.past]
    split
    · next hempty =>
      -- an empty page can only be the first and last
      obtain rfl := List.isEmpty_iff.mp hempty
      obtain rfl : items = [] := Classical.byContradiction fun hi => hne hi rfl
      simp only [List.length_nil] at hle ⊢
      omega
    · omega
  · have htake : items.take (s + page.length) = items.take s ++ page := by
      rw [List.take_add, ← List.prefix_iff_eq_take.mp hp]
    simp only [FeedClient.past]
    rw [htake, List.filterMap_append, List.foldl_append, h.lastUpdated]

theorem delivers_nil (h : HasRead items s c) (hn : c.hasNext = false) : Delivers items s [] c := by
  obtain rfl := h.eq_length hn
  refine ⟨hn, by simp, by simp, by simp, ?_⟩
  rw [h.lastUpdated, List.take_length]
  exact Moment.isLatest_foldl _

end HasRead

theorem Delivers.cons {exchanges : List Exchange} {last : FeedClient} {r : FeedRequest}
    (h : Delivers items (s + page.length) exchanges last) (hr : r.start = (s : Int))
    (hp : page <+: items.drop s) : Delivers items s (⟨r, .ok page⟩ :: exchanges) last := by
  have hdrop : items.drop s = page ++ items.drop (s + page.length) := by
    obtain ⟨rest, hrest⟩ := hp
    rw [← List.drop_drop, ← hrest, List.drop_left]
  refine ⟨h.ended, List.forall_mem_cons.mpr ⟨⟨page, rfl⟩, h.received⟩, ?_, ?_, h.latest⟩
  · rw [List.flatMap_cons, h.pages, hdrop]
    rfl
  · intro i x hx
    cases i with
    | zero =>
      cases hx
      simpa using hr
    | succ i =>
      have hpage : (Exchange.items ⟨r, .ok page⟩).length = page.length := rfl
      rw [h.starts i x hx, List.take_succ_cons, List.flatMap_cons, List.length_append, hpage,
        Nat.add_assoc]

/-- Asked often enough, a feed delivers all that is left. -/
theorem HasRead.delivers {server : Nat → FeedRequest → FeedAnswer} (h : HasRead items s c)
    (hitems : ∀ item ∈ items, Record.isWellFormed item = true)
    (hserver : Serves c.pageSize items server)
    {times : List Rat} (htimes : c.hasNext = true → max 1 (items.length - s) ≤ times.length) :
    Delivers items s (loop server c times).1 (loop server c times).2 := by
  induction times generalizing c s server with
  | nil =>
    refine h.delivers_nil ?_
    rw [← Bool.not_eq_true]
    intro hn
    have hlength := htimes hn
    simp only [List.length_nil] at hlength
    omega
  | cons now later ih =>
    cases hn : c.hasNext with
    | false =>
      simp only [loop, hn]
      exact h.delivers_nil hn
    | true =>
      obtain ⟨page, hpage, hfirst, hne⟩ := hserver 0 (c.request now).1 s rfl h.start (h.hasNext hn)
      have hwell : ∀ item ∈ page, Record.isWellFormed item = true :=
        fun item hm => hitems item (List.mem_of_mem_drop (hfirst.subset hm))
      obtain ⟨hresult, hreceived⟩ := receive_page (c := (c.request now).2) hpage hwell
      have hsent : HasRead items s (c.request now).2 := ⟨h.start, h.le, h.total, h.lastUpdated⟩
      have hpast := hsent.past hfirst hne
      have hlater : ((c.request now).2.past items.length page).hasNext = true →
          max 1 (items.length - (s + page.length)) ≤ later.length := by
        intro hnext
        have hlength := htimes hn
        have hstart := hpast.start
        have hlt : ((c.request now).2.past items.length page).start < items.length :=
          of_decide_eq_true hnext
        have hleft : s + page.length < items.length := by omega
        have hpos : 0 < page.length :=
          List.length_pos_iff.mpr (hne (List.ne_nil_of_length_pos (by omega)))
        simp only [List.length_cons] at hlength
        omega
      have hrest := ih hpast (fun n r t => hserver (n + 1) r t) hlater
      simp only [loop, hn, hresult, hreceived, if_true]
      exact hrest.cons h.start hfirst

/-- A client that asks a feed for page after page, as long as there is more, comes to an end with
all items, each once and in their order. -/
theorem loop_delivers {o : FeedOptions} (ho : (ofOptions o).result = .ok c)
    {server : Nat → FeedRequest → FeedAnswer}
    (hitems : ∀ item ∈ items, Record.isWellFormed item = true)
    (hserver : Serves o.pageSize items server)
    {times : List Rat} (htimes : max 1 items.length ≤ times.length) :
    Delivers items 0 (loop server c times).1 (loop server c times).2 := by
  obtain ⟨apiKey, delay, window, rfl⟩ := ofOptions_ok ho
  have hfresh : HasRead items 0 { endpoint := o.endpoint, apiKey, pageSize := o.pageSize, delay, window } :=
    ⟨rfl, Nat.zero_le _, .inr ⟨rfl, rfl⟩, rfl⟩
  exact hfresh.delivers hitems hserver fun _ => htimes

/-- A feed that brings a number of items at a time. -/
def inPages (items : List Json) (length : Nat → Nat) (n : Nat) (r : FeedRequest) : FeedAnswer :=
  .ofPage items.length ((items.drop r.start.toNat).take (length n))

theorem serves_inPages (pageSize : Int) (items : List Json) {length : Nat → Nat}
    (hlength : ∀ n, 0 < length n) :
    Serves pageSize items (inPages items length) := by
  intro n r s _ hstart hs
  have hnat : r.start.toNat = s := by omega
  refine ⟨(items.drop s).take (length n), ⟨_, rfl, rfl, .inl ?_⟩, List.take_prefix _ _, ?_⟩
  · rw [hnat]
    rfl
  · intro hne hempty
    have hlt : s < items.length := hs.resolve_right hne
    rcases List.take_eq_nil_iff.mp hempty with hzero | hdrop
    · exact absurd hzero (Nat.ne_of_gt (hlength n))
    · exact absurd (List.drop_eq_nil_iff.mp hdrop) (Nat.not_le.mpr hlt)

/-- Of three items one tells a time that can be read. -/
def listed : List Json :=
  [.object [("cve", .object [("lastModified", .text "soon")])],
    .object [("cve", .object [("lastModified", .text "2024-01-02T00:00:00.000")])], .object []]

theorem loop_delivers_inPages : ∃ c, (ofOptions { endpoint := "feed" }).result = .ok c ∧
    (∀ item ∈ listed, Record.isWellFormed item = true) ∧
      Serves 2000 listed (inPages listed fun n => n % 2 + 1) ∧
    Delivers listed 0 (loop (inPages listed fun n => n % 2 + 1) c [0, 10, 20]).1
      (loop (inPages listed fun n => n % 2 + 1) c [0, 10, 20]).2 := by
  have hitems : ∀ item ∈ listed, Record.isWellFormed item = true := by decide
  have hserver : Serves 2000 listed (inPages listed fun n => n % 2 + 1) :=
    serves_inPages 2000 listed fun n => Nat.succ_pos _
  exact ⟨_, rfl, hitems, hserver, loop_delivers (o := { endpoint := "feed" }) rfl hitems hserver (by decide)⟩

end FeedClient

end AdvisoryLedger

import AdvisoryLedger.Proofs.Feed.Next

namespace AdvisoryLedger

/-- The answer announces no more records than that, if it announces any. A page without a total
announces none. -/
def FeedAnswer.AnnouncesAtMost (bound : Nat) (answer : FeedAnswer) : Prop :=
  ∀ members total, answer = .response 200 (.ok (.object members)) → total? members = some total →
    total ≤ bound

namespace FeedClient

/-- Requests in turn, none of which asks from before a start, that come to an end. -/
structure Ends (start : Int) (most : Nat) (server : Nat → FeedRequest → FeedAnswer)
    (times : List Rat) (exchanges : List Exchange) (last : FeedClient) : Prop where
  length_le : exchanges.length ≤ most
  start_le : ∀ x ∈ exchanges, start ≤ x.request.start
  ascending : (exchanges.map fun x => x.request.start).Pairwise (· < ·)
  /-- With a time for each request there is an end, by the last page or by one that could not be
  had. -/
  ended : most ≤ times.length → last.hasNext = false ∨ ∃ x ∈ exchanges, ∃ e, x.page = .error e
  received : ∀ i x total page, exchanges[i]? = some x → (server i x.request).IsPage total page →
    (∀ item ∈ page, Record.isWellFormed item = true) → x.page = .ok page

variable {c : FeedClient} {answer : FeedAnswer} {items : List Json} {bound : Nat}

theorem total?_of_announced {members : Table String Json} {total : Int}
    (h : (c.announced (.object members)).result = .ok total) :
    FeedAnswer.total? members = some total := by
  rw [announced_eq] at h
  rw [FeedAnswer.total?_eq]
  split at h
  · next n hn =>
    rw [hn]
    exact congrArg some (Except.ok.inj h)
  · cases h
  · cases h

/-- A client that gets a page and has more to ask for has moved on, and within what the page
announces. -/
theorem start_lt_of_hasNext (ha : answer.AnnouncesAtMost bound)
    (h : (c.receive answer).1.result = .ok items) (hn : (c.receive answer).2.hasNext = true) :
    c.start < (c.receive answer).2.start ∧ (c.receive answer).2.start < bound := by
  obtain ⟨members, total, hb, ht⟩ := page_of_receive_ok h
  obtain ⟨total', hreceived⟩ := receive_ok h
  -- both ways of reading the answer tell the same total
  obtain ⟨start, last, hturn⟩ := turn_frame c total (.object members)
  have htotal : (c.receive answer).2.total = some total := by rw [(receive_of_page hb ht).2, hturn]
  obtain rfl : total' = total := by simpa [hreceived.client, past] using htotal
  obtain ⟨members', hm, rfl⟩ := body_ok hb
  cases hm
  have hle := ha members total' rfl (total?_of_announced ht)
  have hlt : (c.past total' items).start < total' := by
    rw [hreceived.client] at hn
    exact of_decide_eq_true hn
  have hne : items.isEmpty ≠ true := by
    intro hempty
    simp only [past, hempty, if_true] at hlt
    omega
  have hpos : 0 < items.length :=
    List.length_pos_iff.mpr fun hnil => hne (List.isEmpty_iff.mpr hnil)
  have hstart : (c.past total' items).start = c.start + items.length := if_neg hne
  rw [hreceived.client]
  omega

section Ends

variable {server : Nat → FeedRequest → FeedAnswer} {x : Exchange} {now : Rat} {later : List Rat}
    {most : Nat}
  {last : FeedClient}
  (hfirst : ∀ total page, (server 0 x.request).IsPage total page →
    (∀ item ∈ page, Record.isWellFormed item = true) → x.page = .ok page)

include hfirst

theorem Ends.one (hend : last.hasNext = false ∨ ∃ e, x.page = .error e) (hmost : 1 ≤ most) :
    Ends x.request.start most server (now :: later) [x] last := by
  refine ⟨hmost, by simp, List.pairwise_singleton _ _, fun _ => hend.imp_right ?_, ?_⟩
  · rintro ⟨e, he⟩
    exact ⟨x, List.mem_singleton_self x, e, he⟩
  · intro i y total page hy
    cases i with
    | zero =>
      cases hy
      exact hfirst total page
    | succ i => simp at hy

/-- A request in front of those that come later and ask for what is behind it. -/
theorem Ends.cons {start : Int} {rest : List Exchange} {less : Nat}
    (h : Ends start less (fun n => server (n + 1)) later rest last)
    (hstart : x.request.start < start)
    (hless : less + 1 ≤ most) :
    Ends x.request.start most server (now :: later) (x :: rest) last := by
  have hbehind : ∀ y ∈ rest, x.request.start < y.request.start :=
    fun y hy => Int.lt_of_lt_of_le hstart (h.start_le y hy)
  refine ⟨?_, List.forall_mem_cons.mpr ⟨Int.le_refl _, fun y hy => Int.le_of_lt (hbehind y hy)⟩, ?_,
    ?_, ?_⟩
  · have hlength := h.length_le
    simp only [List.length_cons]
    omega
  · rw [List.map_cons, List.pairwise_cons]
    exact ⟨List.forall_mem_map.mpr hbehind, h.ascending⟩
  · intro hmost
    simp only [List.length_cons] at hmost
    refine (h.ended (by omega)).imp_right ?_
    rintro ⟨y, hy, e, he⟩
    exact ⟨y, List.mem_cons_of_mem x hy, e, he⟩
  · intro i y total page hy
    cases i with
    | zero =>
      cases hy
      exact hfirst total page
    | succ i => exact h.received i y total page hy

end Ends

theorem ends_from {server : Nat → FeedRequest → FeedAnswer}
    (hserver : ∀ n r, (server n r).AnnouncesAtMost bound)
    (c : FeedClient) (times : List Rat) : Ends c.start (max 1 (bound - c.start).toNat) server times
      (loop server c times).1 (loop server c times).2 := by
  -- what can still be announced falls with every page but the last
  induction times generalizing c server with
  | nil =>
    refine ⟨Nat.zero_le _, by simp [loop], by simp [loop], fun h => ?_, by simp [loop]⟩
    simp only [List.length_nil] at h
    omega
  | cons now later ih =>
    cases hn : c.hasNext with
    | false =>
      rw [loop_done server hn]
      exact ⟨Nat.zero_le _, by simp, by simp, fun _ => .inl hn, by simp⟩
    | true =>
      have hgood (total : Int) (page : List Json)
        (hpage : (server 0 (c.request now).1).IsPage total page)
          (hwell : ∀ item ∈ page, Record.isWellFormed item = true) :=
        (receive_page (c := (c.request now).2) hpage hwell).1
      have hone : 1 ≤ max 1 (bound - c.start).toNat := Nat.le_max_left _ _
      cases hr : ((c.request now).2.receive (server 0 (c.request now).1)).1.result with
      | error e =>
        rw [hr] at hgood
        simp only [loop, hn, if_true, hr]
        exact Ends.one (x := ⟨(c.request now).1, .error e⟩) hgood (.inr ⟨e, rfl⟩) hone
      | ok items =>
        rw [hr] at hgood
        simp only [loop, hn, if_true, hr]
        cases hnext : ((c.request now).2.receive (server 0 (c.request now).1)).2.hasNext with
        | false =>
          rw [loop_done _ hnext]
          exact Ends.one (x := ⟨(c.request now).1, .ok items⟩) hgood (.inl hnext) hone
        | true =>
          obtain ⟨hlt, hbound⟩ := start_lt_of_hasNext (hserver 0 (c.request now).1) hr hnext
          have hlt : c.start < ((c.request now).2.receive (server 0 (c.request now).1)).2.start :=
            hlt
          exact Ends.cons (x := ⟨(c.request now).1, .ok items⟩) hgood
            (ih (fun n r => hserver (n + 1) r) _) hlt (by omega)

/-- Whatever a feed answers, as long as it never announces more than a bound, a new client makes at
most as many requests, though always one, asks from a later index on each time, and comes to an
end. -/
theorem loop_ends {o : FeedOptions} (ho : (ofOptions o).result = .ok c)
    {server : Nat → FeedRequest → FeedAnswer}
    (hserver : ∀ n r, (server n r).AnnouncesAtMost bound) (times : List Rat) :
    Ends 0 (max 1 bound) server times (loop server c times).1 (loop server c times).2 := by
  obtain ⟨apiKey, delay, window, rfl⟩ := ofOptions_ok ho
  have hends := ends_from hserver { endpoint := o.endpoint, apiKey, pageSize := o.pageSize, delay, window } times
  simpa using hends

theorem announcesAtMost_ofPage {total : Int} (h : total ≤ bound) (items : List Json) :
    (FeedAnswer.ofPage total items).AnnouncesAtMost bound := by
  intro members total' hmembers htotal
  cases hmembers
  cases htotal
  exact h

/-- A feed that announces more with every page, up to three records, and brings one at a time. -/
def growing (n : Nat) (_ : FeedRequest) : FeedAnswer := .ofPage (min (n + 2) 3) [recordOf "soon"]

theorem loop_ends_growing : (ofOptions { endpoint := "feed" }).result = .ok newcomer ∧
    (∀ n r, (growing n r).AnnouncesAtMost 3) ∧ (loop growing newcomer [0, 6, 12, 18]).1.length = 3 ∧
    Ends 0 (max 1 3) growing [0, 6, 12, 18] (loop growing newcomer [0, 6, 12, 18]).1
      (loop growing newcomer [0, 6, 12, 18]).2 := by
  have hgrowing : ∀ n r, (growing n r).AnnouncesAtMost 3 :=
    fun n r => announcesAtMost_ofPage (by omega) _
  exact ⟨rfl, hgrowing, by decide +kernel, loop_ends (o := { endpoint := "feed" }) rfl hgrowing _⟩

end FeedClient

end AdvisoryLedger

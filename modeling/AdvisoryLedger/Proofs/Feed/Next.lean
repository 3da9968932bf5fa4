import AdvisoryLedger.Proofs.Feed.Matches
import AdvisoryLedger.Proofs.Feed.Paging

namespace AdvisoryLedger

theorem Noted.result_bind_error {α β : Type} {x : Noted α} {f : α → Noted β} {e : Failure} :
    (x >>= f).result = .error e ↔ x.result = .error e ∨ ∃ a, x.result = .ok a ∧
      (f a).result = .error e := by
  change (Noted.bind x f).result = .error e ↔ _
  unfold Noted.bind
  cases x.result with
  | error e => simp
  | ok a => simp

namespace FeedAnswer

/-- What can come back from a server: a fault of transport, or a status with a body that decodes, if
at all, to some JSON value. -/
def isOfServer : FeedAnswer → Bool
  | .lost (.transport _) => true
  | .lost _ => false
  | .response _ (.ok _) => true
  | .response _ (.error (.transport _)) => true
  | .response _ (.error _) => false

/-- Of the pages, the client takes in those whose items are records in good order, and refuses those
whose total is no number at all. It can do neither with an infinite total, which is a number and not
whole. -/
def isManageable : FeedAnswer → Bool
  | .response 200 (.ok (.object members)) =>
    match ((Json.lookup "totalResults" members).getD (.int 0)).integer with
    | .ok _ => ((Json.lookup "vulnerabilities" members).getD .null).isListOf Record.isWellFormed
    | .error .outOfRange => false
    | .error _ => true
  | _ => true

theorem isPage_of_isListOf {members : Table String Json} {total : Int}
    (ht : total? members = some total)
    (hv : ((Json.lookup "vulnerabilities" members).getD .null).isListOf Record.isWellFormed =
      true) :
    (response 200 (.ok (.object members))).IsPage total
      ((Json.lookup "vulnerabilities" members).getD .null).items := by
  refine ⟨members, rfl, ht, ?_⟩
  cases h : (Json.lookup "vulnerabilities" members).getD .null with
  | list items => exact .inl rfl
  | _ =>
    rw [h] at hv
    simp only [Json.isListOf, Bool.or_false, Bool.not_eq_true'] at hv
    exact .inr ⟨hv, rfl⟩

theorem total?_eq (members : Table String Json) :
    total? members = ((Json.lookup "totalResults" members).getD (.int 0)).integer.toOption := by
  unfold total?
  cases Json.lookup "totalResults" members <;> rfl

theorem records_eq (members : Table String Json) : (response 200 (.ok (.object members))).records =
    ((Json.lookup "vulnerabilities" members).getD .null).items := by
  unfold records
  simp only [page?, Option.bind_some, Json.member?]
  cases Json.lookup "vulnerabilities" members <;> rfl

end FeedAnswer

theorem Record.stamp_error {v : Json} {e : Failure} (h : (stamp v).result = .error e) :
    e = .noSuchMember := by
  unfold stamp at h
  split at h
  · cases v with
    | text s =>
      dsimp only at h
      cases hr : FeedStamp.read? s <;> simp [hr, Noted.log, bind, Noted.bind, pure] at h
    | _ => exact (Except.error.inj h).symm
  · cases h

theorem Record.isTime_of_stamp {v : Json} {m : Option Moment} (h : (stamp v).result = .ok m) :
    isTime v = true := by
  unfold stamp at h
  split at h
  · cases v with
    | text s => rfl
    | _ => cases h
  · next hf =>
    cases v with
    | text s => rfl
    | _ => simpa [isTime] using hf

theorem Json.elementsIfAny_error {v : Json} {e : Failure} (h : v.elementsIfAny = .error e) :
    e = .wrongKind := by
  unfold elementsIfAny at h
  split at h
  · cases v with
    | list xs => cases h
    | object members => cases h
    | text s => cases h
    | _ => exact (Except.error.inj h).symm
  · cases h

theorem Json.member_error {v : Json} {name : String} {e : Failure} (h : v.member name = .error e) :
    e = .noSuchMember := by
  cases v with
  | object members => cases h
  | _ => exact (Except.error.inj h).symm

theorem Json.isListOf_isWellFormed {v : Json} {items : List Json} (h : v.elementsIfAny = .ok items)
    (hr : ∀ item ∈ items, Record.isWellFormed item = true) :
    v.isListOf Record.isWellFormed = true := by
  have htexts (names : List String)
    (hn : ∀ item ∈ names.map Json.text, Record.isWellFormed item = true) :
      names = [] := by
    cases names with
    | nil => rfl
    | cons name rest => cases hn (.text name) List.mem_cons_self
  unfold Json.isListOf
  cases ht : v.isTruthy with
  | false => rfl
  | true =>
    rw [elementsIfAny, if_pos ht] at h
    cases v with
    | list xs =>
      cases h
      exact List.all_eq_true.mpr hr
    | object members =>
      cases h
      have hnil := htexts (members.map Prod.fst) (by simpa using hr)
      simp [isTruthy, List.map_eq_nil_iff.mp hnil] at ht
    | text s =>
      cases h
      have hnil := htexts (s.toList.map String.singleton) (by simpa using hr)
      simp [isTruthy, String.toList_eq_nil_iff.mp (List.map_eq_nil_iff.mp hnil)] at ht
    | _ => cases h

namespace FeedClient

/-- The call either returns the items of the page or reports a fault of the feed; then the client
has come no further than before. -/
def Next.Settles (x : Next) (c : FeedClient) (answer : FeedAnswer) : Prop :=
  x.page = .ok answer.records ∨
    (∃ fault, x.page = .error (.fetch fault c.endpoint)) ∧ x.client.progress = c.progress

variable {c : FeedClient} {answer : FeedAnswer} {now : Rat} {total : Int}
    {members : Table String Json}

theorem next_of_hasNext (h : c.hasNext = true) (now : Rat) (answer : FeedAnswer) :
    c.next now answer =
    ⟨some (c.request now).1, (c.receive answer).1.result, Harvest.answered c now answer,
      c.requestEntry :: (c.receive answer).1.entries⟩ := by
  simp only [next, h, if_true, request, receive_sent, Harvest.answered]

theorem next_of_done (h : c.hasNext = false) (now : Rat) (answer : FeedAnswer) :
    c.next now answer = ⟨none, .ok [], c, []⟩ := by
  simp only [next, h, Bool.false_eq_true, if_false]

theorem modified_error {item : Json} {e : Failure} (h : (modified item).result = .error e) :
    e = .noSuchMember := by
  rcases Noted.result_bind_error.mp h with hcve | ⟨cve, -, h⟩
  · exact Json.member_error hcve
  · rcases Noted.result_bind_error.mp h with hlast | ⟨v, -, hstamp⟩
    · exact Json.member_error hlast
    · exact Record.stamp_error hstamp

theorem isWellFormed_of_modified {item : Json} {m : Option Moment}
    (h : (modified item).result = .ok m) :
    Record.isWellFormed item = true := by
  obtain ⟨cve, hcve, h⟩ := Noted.result_bind_ok.mp h
  obtain ⟨v, hv, h⟩ := Noted.result_bind_ok.mp h
  obtain ⟨members, rfl, rfl⟩ := Json.member_ok hcve
  obtain ⟨fields, hfields, rfl⟩ := Json.member_ok hv
  simp only [Record.isWellFormed, hfields]
  exact Record.isTime_of_stamp h

theorem observeAll_error {items : List Json} {e : Failure}
    (h : (c.observeAll items).1.result = .error e) :
    e = .noSuchMember := by
  induction items generalizing c with
  | nil => cases h
  | cons item rest ih =>
    unfold observeAll at h
    cases hm : (modified item).result with
    | error f =>
      simp only [hm] at h
      obtain rfl := Except.error.inj h
      exact modified_error hm
    | ok m =>
      simp only [hm] at h
      exact ih h

theorem receive_of_no_page {e : Failure} (h : (c.body answer).result = .error e ∨
    ∃ page, (c.body answer).result = .ok page ∧ (c.announced page).result = .error e) :
    (c.receive answer).1.result = .error e ∧ (c.receive answer).2 = c := by
  have hx : (do
      let page ← c.body answer
      pure (page, ← c.announced page) : Noted (Json × Int)).result = .error e := by
    refine Noted.result_bind_error.mpr (h.imp_right ?_)
    rintro ⟨page, hb, ht⟩
    exact ⟨page, hb, Noted.result_bind_error.mpr (.inl ht)⟩
  simp only [receive, hx]
  exact ⟨trivial, trivial⟩

theorem body_of_server (h : answer.isOfServer = true) (c : FeedClient) :
    (∃ members, answer = .response 200 (.ok (.object members))) ∨
      answer.isManageable = true ∧
        ∃ fault, (c.body answer).result = .error (.fetch fault c.endpoint) := by
  cases answer with
  | lost e =>
    cases e with
    | transport cause => exact .inr ⟨rfl, _, rfl⟩
    | _ => cases h
  | response status body =>
    by_cases hs : status = 200
    · subst hs
      cases body with
      | error e =>
        cases e with
        | transport cause => exact .inr ⟨rfl, _, rfl⟩
        | _ => cases h
      | ok page =>
        cases page with
        | object members => exact .inl ⟨members, rfl⟩
        | _ => exact .inr ⟨rfl, _, rfl⟩
    · refine .inr ⟨?_, .status status c.start, ?_⟩
      · simp [FeedAnswer.isManageable, hs]
      · simp only [FeedClient.body, hs, ne_eq, not_false_eq_true, if_true, fault]

theorem announced_eq (c : FeedClient) (members : Table String Json) :
    (c.announced (.object members)).result =
    match ((Json.lookup "totalResults" members).getD (.int 0)).integer with
    | .ok n => .ok n
    | .error .outOfRange => .error .outOfRange
    | .error _ => .error (.fetch
      (.invalidTotal ((Json.lookup "totalResults" members).getD (.int 0))) c.endpoint) := by
  unfold announced
  dsimp only
  cases Json.lookup "totalResults" members with
  | none => rfl
  | some v =>
    simp only [Option.getD_some]
    cases v.integer with
    | ok n => rfl
    | error e => cases e <;> rfl

/-- Other items are not had, and yet the client has taken over the total by then. -/
theorem receive_of_no_records (hb : (c.body answer).result = .ok (.object members))
    (ht : (c.announced (.object members)).result = .ok total)
    (hv : ((Json.lookup "vulnerabilities" members).getD .null).isListOf Record.isWellFormed =
      false) :
    ((c.receive answer).1.result = .error .wrongKind ∨
      (c.receive answer).1.result = .error .noSuchMember) ∧
      (c.receive answer).2.total = some total := by
  obtain ⟨hresult, hclient⟩ := receive_of_page hb ht
  obtain ⟨start, last, hturn⟩ := turn_frame c total (.object members)
  rw [hresult, hclient, hturn]
  refine ⟨?_, rfl⟩
  cases hi : ((Json.object members).member "vulnerabilities").bind Json.elementsIfAny with
  | error e =>
    obtain rfl : e = .wrongKind :=
      Json.elementsIfAny_error (v := (Json.lookup "vulnerabilities" members).getD .null) hi
    left
    simp only [turn, hi, Noted.fail]
  | ok items =>
    right
    rw [(turn_of_items c total hi).1]
    cases ho : (({ c with total := some total }.advance total items).observeAll items).1.result with
    | error e => rw [observeAll_error ho]; rfl
    | ok u =>
      have hreadable := (observeAll_ok ho).1
      have hwell : ∀ item ∈ items, Record.isWellFormed item = true :=
        fun item hm => isWellFormed_of_modified (hreadable item hm)
      rw [Json.isListOf_isWellFormed hi hwell] at hv
      cases hv

/-- The call ends in a failure that is no fault of the feed. It leaves the client as it was only
where the total is infinite; otherwise the client has the total of the page that it did not get. -/
def Next.Strays (x : Next) (c : FeedClient) (answer : FeedAnswer) : Prop :=
  x.page = .error .outOfRange ∧ x.client.progress = c.progress ∨
    (x.page = .error .wrongKind ∨ x.page = .error .noSuchMember) ∧
      ∃ members total, answer = .response 200 (.ok (.object members)) ∧
        FeedAnswer.total? members = some total ∧
        x.client.total = some total

theorem Next.Strays.not_settles {x : Next} (h : x.Strays c answer) : ¬x.Settles c answer := by
  rintro (hpage | ⟨⟨fault, hpage⟩, -⟩)
  · rcases h with ⟨h, -⟩ | ⟨h | h, -⟩ <;> cases h.symm.trans hpage
  · rcases h with ⟨h, -⟩ | ⟨h | h, -⟩ <;> cases h.symm.trans hpage

theorem next_cases (hn : c.hasNext = true) (hs : answer.isOfServer = true) (now : Rat) :
    answer.isManageable = true ∧ (c.next now answer).Settles c answer ∨
      answer.isManageable = false ∧ (c.next now answer).Strays c answer := by
  rw [next_of_hasNext hn]
  have hprogress : (Harvest.answered c now answer).progress = (c.receive answer).2.progress := rfl
  rcases body_of_server hs c with ⟨members, rfl⟩ | ⟨hm, fault, hb⟩
  · have hb : (c.body (.response 200 (.ok (.object members)))).result = .ok (.object members) := rfl
    have ha := announced_eq c members
    cases hi : ((Json.lookup "totalResults" members).getD (.int 0)).integer with
    | ok total =>
      rw [hi] at ha
      have ht : FeedAnswer.total? members = some total := by rw [FeedAnswer.total?_eq, hi]; rfl
      cases hv : ((Json.lookup "vulnerabilities" members).getD .null).isListOf Record.isWellFormed with
      | true =>
        have hreceived := (receive_page (c := c) (FeedAnswer.isPage_of_isListOf ht hv) (Json.forall_mem_items hv)).1
        refine .inl ⟨by simp only [FeedAnswer.isManageable, hi, hv], .inl ?_⟩
        rw [hreceived, FeedAnswer.records_eq]
      | false =>
        obtain ⟨hresult, htotal⟩ := receive_of_no_records hb ha hv
        exact .inr ⟨by simp only [FeedAnswer.isManageable, hi, hv],
          .inr ⟨hresult, members, total, rfl, ht, htotal⟩⟩
    | error e =>
      have hkept {f : Failure} (hf : (c.announced (.object members)).result = .error f) :=
        receive_of_no_page (.inr ⟨_, hb, hf⟩)
      cases e with
      | outOfRange =>
        obtain ⟨hresult, hclient⟩ := hkept (ha.trans (by rw [hi]))
        exact .inr ⟨by simp only [FeedAnswer.isManageable, hi],
          .inl ⟨hresult, by rw [hprogress, hclient]⟩⟩
      | _ =>
        obtain ⟨hresult, hclient⟩ := hkept (ha.trans (by rw [hi]))
        exact .inl ⟨by simp only [FeedAnswer.isManageable, hi],
          .inr ⟨⟨_, hresult⟩, by rw [hprogress, hclient]⟩⟩
  · obtain ⟨hresult, hclient⟩ := receive_of_no_page (.inl hb)
    exact .inl ⟨hm, .inr ⟨⟨fault, hresult⟩, by rw [hprogress, hclient]⟩⟩

/-- A call settles just in case the answer is manageable, whatever the server answers. Otherwise it
strays. -/
theorem next_settles_iff (hn : c.hasNext = true) (hs : answer.isOfServer = true) :
    ((c.next now answer).Settles c answer ↔ answer.isManageable = true) ∧
      (answer.isManageable = false → (c.next now answer).Strays c answer) := by
  rcases next_cases hn hs now with ⟨hm, h⟩ | ⟨hm, h⟩
  · exact ⟨⟨fun _ => hm, fun _ => h⟩, fun hf => by rw [hm] at hf; cases hf⟩
  · exact ⟨⟨fun hsettles => absurd hsettles h.not_settles, fun ht => by rw [hm] at ht; cases ht⟩, fun _ => h⟩

def newcomer : FeedClient := { endpoint := "feed", delay := delayWithoutKey }

def recordOf (time : String) : Json := .object [("cve", .object [("lastModified", .text time)])]

theorem next_settles_iff_recordOf : newcomer.hasNext = true ∧
    (FeedAnswer.ofPage 3 [recordOf "soon"]).isOfServer = true ∧
    (newcomer.next 0 (.ofPage 3 [recordOf "soon"])).Settles newcomer
      (.ofPage 3 [recordOf "soon"]) :=
  ⟨rfl, rfl, (next_settles_iff rfl rfl).1.mpr (by decide)⟩

/-- A page may have a text among its records. The call for it fails, but with no fault of the feed,
and the client has come further, although it got no record. -/
theorem next_strays_text : (ofOptions { endpoint := "feed" }).result = .ok newcomer ∧
    newcomer.hasNext = true ∧
    let answer := FeedAnswer.ofPage 3 [recordOf "2024-03-01T10:00:00.000", .text "x"]
    let x := newcomer.next 0 answer
    answer.isOfServer = true ∧ ¬x.Settles newcomer answer ∧ x.page = .error .noSuchMember ∧
      x.client.start = 2 ∧ x.client.total = some 3 ∧ x.client.lastUpdated.isSome = true := by
  refine ⟨rfl, rfl, rfl, ?_, rfl, rfl, rfl, by decide +kernel⟩
  rintro (hpage | ⟨⟨fault, hpage⟩, -⟩)
  · cases hpage
  · cases hpage

end FeedClient

end AdvisoryLedger

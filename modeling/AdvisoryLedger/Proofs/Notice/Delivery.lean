import AdvisoryLedger.Proofs.Notice.Subscriptions

namespace AdvisoryLedger

/-- A subscriber was told of a notice, and took it well or failed. -/
structure Telling where
  subscriber : String
  notice : Notice
  succeeded : Bool

namespace Notice

/-- The notices that follow, after a success or after a failure. -/
def followers : Notice → Bool → List Notice
  | .chain _ _ onSuccess _, true => onSuccess
  | .chain _ _ _ onFailure, false => onFailure
  | _, _ => []

theorem sizeOf_lt_of_mem_followers {n m : Notice} {succeeded : Bool}
    (h : m ∈ n.followers succeeded) :
    sizeOf m < sizeOf n := by
  cases n with
  | plain label => cases h
  | index label content => cases h
  | chain label isRefresh onSuccess onFailure =>
    cases succeeded with
    | true =>
      have := List.sizeOf_lt_of_mem (show m ∈ onSuccess from h)
      simp only [chain.sizeOf_spec]
      omega
    | false =>
      have := List.sizeOf_lt_of_mem (show m ∈ onFailure from h)
      simp only [chain.sizeOf_spec]
      omega

/-- What holds of a notice whenever it holds of those that follow it holds of every notice. -/
theorem follow {P : Notice → Prop}
    (step : ∀ n : Notice, (∀ succeeded, ∀ m ∈ n.followers succeeded, P m) → P n)
    (n : Notice) : P n :=
  step n fun _ m hm =>
    have := sizeOf_lt_of_mem_followers hm
    follow step m
termination_by sizeOf n

end Notice

/-- All of these subscribers were told of the notice, in this order, and nobody else was. -/
structure Told (subscribers : List String) (n : Notice) (tellings : List Telling) : Prop where
  subscribers : tellings.map (·.subscriber) = subscribers
  notice : ∀ t ∈ tellings, t.notice = n

theorem Told.cons {subscribers : List String} {n : Notice} {tellings : List Telling}
    (h : Told subscribers n tellings) (subscriber : String) (succeeded : Bool) :
    Told (subscriber :: subscribers) n (⟨subscriber, n, succeeded⟩ :: tellings) where
  subscribers := by rw [List.map_cons, h.subscribers]
  notice := List.forall_mem_cons.mpr ⟨rfl, h.notice⟩

mutual

/-- The tellings that a notice leads to: those who hear it are told, and then what follows is
delivered. -/
inductive Delivered (hearers : Topic → List String) : Notice → Bool → List Telling → Prop
  | intro {n : Notice} {own later : List Telling} (told : Told (hearers n.topic) n own)
      (followed : AllDelivered hearers (n.followers (own.all (·.succeeded))) later) :
      Delivered hearers n (own.all (·.succeeded)) (own ++ later)

/-- Notices are delivered one after the other, whatever comes of each. -/
inductive AllDelivered (hearers : Topic → List String) : List Notice → List Telling → Prop
  | nil : AllDelivered hearers [] []
  | cons {n : Notice} {rest : List Notice} {succeeded : Bool} {tellings later : List Telling}
      (first : Delivered hearers n succeeded tellings) (others : AllDelivered hearers rest later) :
      AllDelivered hearers (n :: rest) (tellings ++ later)

end

namespace Hub

variable {σ : Type}

/-- A hub with a record of who was told what. -/
def recording (h : Hub σ) (tellings : List Telling) : Hub (σ × List Telling) :=
  { h with state := (h.state, tellings) }

def unrecorded (h : Hub (σ × List Telling)) : Hub σ := { h with state := h.state.1 }

/-- Does what another handler does, and makes a record of it. -/
def Handler.recorded (handle : Handler σ) : Handler (σ × List Telling) := fun subscriber n h =>
  let (result, next) := handle subscriber n h.unrecorded
  (result, next.recording (h.state.2 ++ [⟨subscriber, n, result.isOk⟩]))

/-- A handler that subscribes nobody and takes no subscription back. -/
def Handler.KeepsSubscriptions (handle : Handler σ) : Prop :=
  ∀ subscriber n h, (handle subscriber n h).2.subscriptions = h.subscriptions

def begun (n : Notice) (h : Hub σ) : Hub σ := { h with dispatched := h.dispatched ++ [n] }

/-- Who is told what when a notice is dispatched. -/
def tellings (handle : Handler σ) (n : Notice) (h : Hub σ) : List Telling :=
  (dispatch handle.recorded n (h.recording [])).2.state.2

variable {handle : Handler σ}

theorem Handler.recorded_recording (handle : Handler σ) (subscriber : String)
    (n : Notice) (h : Hub σ)
    (earlier : List Telling) : handle.recorded subscriber n (h.recording earlier) =
      ((handle subscriber n h).1,
        (handle subscriber n h).2.recording
          (earlier ++ [⟨subscriber, n, (handle subscriber n h).1.isOk⟩])) := rfl

theorem dispatch_eq (handle : Handler σ) (n : Notice) (h : Hub σ) :
    dispatch handle n h =
      let r := deliver handle n (h.subscriptions.hearing n.topic) (h.begun n)
      (r.1, dispatchAll handle (n.followers r.1) r.2) := by
  cases n with
  | plain label => simp only [dispatch, Notice.followers, dispatchAll, begun]
  | index label content => simp only [dispatch, Notice.followers, dispatchAll, begun]
  | chain label isRefresh onSuccess onFailure =>
    simp only [dispatch, begun]
    split
    · next hr => rw [hr, Notice.followers]
    · next hr => rw [Bool.eq_false_iff.mpr hr, Notice.followers]

theorem deliver_subscriptions (hkeeps : handle.KeepsSubscriptions) (n : Notice)
    (subscribers : List String)
    (h : Hub σ) : (deliver handle n subscribers h).2.subscriptions = h.subscriptions := by
  induction subscribers generalizing h with
  | nil => rfl
  | cons subscriber rest ih =>
    have hkept := hkeeps subscriber n h
    cases hx : handle subscriber n h with
    | mk result next =>
      rw [hx] at hkept
      rw [deliver, hx]
      cases result with
      | ok u => exact (ih next).trans hkept
      | error e => exact (ih _).trans hkept

/-- Every subscriber in turn is told, and the answer is whether all took it well. -/
theorem deliver_recorded (handle : Handler σ) (n : Notice) (subscribers : List String) (h : Hub σ)
    (earlier : List Telling) : ∃ own, Told subscribers n own ∧
      (deliver handle n subscribers h).1 = own.all (·.succeeded) ∧
      deliver handle.recorded n subscribers (h.recording earlier) =
        ((deliver handle n subscribers h).1,
          (deliver handle n subscribers h).2.recording (earlier ++ own)) := by
  induction subscribers generalizing h earlier with
  | nil => exact ⟨[], ⟨rfl, nofun⟩, rfl, by rw [List.append_nil]; rfl⟩
  | cons subscriber rest ih =>
    cases hx : handle subscriber n h with
    | mk result next =>
      rw [deliver, deliver, Handler.recorded_recording, hx]
      cases result with
      | ok u =>
        obtain ⟨own, htold, hall, hrest⟩ := ih next (earlier ++ [⟨subscriber, n, true⟩])
        rw [← List.append_cons] at hrest
        exact ⟨⟨subscriber, n, true⟩ :: own, htold.cons subscriber true, hall, hrest⟩
      | error e =>
        obtain ⟨own, htold, -, hrest⟩ := ih (next.log (failureEntry subscriber n.topic e))
          (earlier ++ [⟨subscriber, n, false⟩])
        rw [← List.append_cons] at hrest
        exact ⟨⟨subscriber, n, false⟩ :: own, htold.cons subscriber false, rfl,
          congrArg (fun r => (false, r.2)) hrest⟩

/-- A record of dispatching a notice changes nothing but itself, and what is added to it is the
delivery. -/
def IsRecorded (handle : Handler σ) (s : Subscriptions) (n : Notice) : Prop :=
  ∀ (h : Hub σ) (earlier : List Telling), h.subscriptions = s → ∃ added,
    dispatch handle.recorded n (h.recording earlier) =
      ((dispatch handle n h).1, (dispatch handle n h).2.recording (earlier ++ added)) ∧
    Delivered s.hearing n (dispatch handle n h).1 added ∧ (dispatch handle n h).2.subscriptions = s

theorem dispatchAll_recorded {s : Subscriptions} {ns : List Notice}
    (hns : ∀ n ∈ ns, IsRecorded handle s n)
    {h : Hub σ} (hs : h.subscriptions = s) (earlier : List Telling) : ∃ added,
      dispatchAll handle.recorded ns (h.recording earlier) =
        (dispatchAll handle ns h).recording (earlier ++ added) ∧
      AllDelivered s.hearing ns added ∧ (dispatchAll handle ns h).subscriptions = s := by
  induction ns generalizing h earlier with
  | nil =>
    rw [dispatchAll, dispatchAll]
    exact ⟨[], by rw [List.append_nil], .nil, hs⟩
  | cons n rest ih =>
    obtain ⟨hn, hrest⟩ := List.forall_mem_cons.mp hns
    obtain ⟨told, hrecorded, hdelivered, hkept⟩ := hn h earlier hs
    obtain ⟨later, hlater, hall, hend⟩ := ih hrest hkept (earlier ++ told)
    rw [dispatchAll, dispatchAll, hrecorded]
    exact ⟨told ++ later, by rw [hlater, List.append_assoc], .cons hdelivered hall, hend⟩

/-- By the notices that follow: who hears the notice is told first, and whether all took it well
decides the rest. -/
theorem isRecorded (hkeeps : handle.KeepsSubscriptions) (s : Subscriptions) (n : Notice) :
    IsRecorded handle s n := by
  induction n using Notice.follow with
  | step n ih =>
    intro h earlier hs
    obtain ⟨own, htold, hall, hrecorded⟩ :=
      deliver_recorded handle n (h.subscriptions.hearing n.topic) (h.begun n) earlier
    have hkept := deliver_subscriptions hkeeps n (h.subscriptions.hearing n.topic) (h.begun n)
    cases hd : deliver handle n (h.subscriptions.hearing n.topic) (h.begun n) with
    | mk succeeded next =>
      rw [hd] at hall hrecorded hkept
      obtain ⟨later, hlater, hfollowed, hend⟩ :=
        dispatchAll_recorded (ih succeeded) (hkept.trans hs) (earlier ++ own)
      subst hs
      -- Both runs come to the same answer, so that the same notices follow.
      have hplain : dispatch handle n h =
          (succeeded, dispatchAll handle (n.followers succeeded) next) := by
        rw [dispatch_eq, hd]
      have hrun : dispatch handle.recorded n (h.recording earlier) =
          (succeeded, dispatchAll handle.recorded (n.followers succeeded)
            (next.recording (earlier ++ own))) := by
        rw [dispatch_eq]
        exact congrArg (fun r => (r.1, dispatchAll handle.recorded (n.followers r.1) r.2)) hrecorded
      rw [hplain, hrun, hlater]
      refine ⟨own ++ later, by rw [List.append_assoc], ?_, hend⟩
      obtain rfl : succeeded = own.all (·.succeeded) := hall
      exact .intro htold hfollowed

/-- Who is told what is the delivery of the notice to those whom earlier calls have left subscribed;
to make a record of it changes nothing. -/
theorem dispatch_delivers (changes : List SubscriptionChange) (handle : Handler σ)
    (hkeeps : handle.KeepsSubscriptions) (n : Notice) (h : Hub σ)
    (hs : h.subscriptions = Subscriptions.after changes) :
    dispatch handle.recorded n (h.recording []) =
      ((dispatch handle n h).1, (dispatch handle n h).2.recording (tellings handle n h)) ∧
    Delivered (Subscriptions.hearers changes) n (dispatch handle n h).1 (tellings handle n h) ∧
    (dispatch handle n h).2.subscriptions = h.subscriptions := by
  obtain ⟨added, hrecorded, hdelivered, hkept⟩ := isRecorded hkeeps _ n h [] rfl
  have htellings : tellings handle n h = added := by
    rw [tellings, hrecorded]
    rfl
  have hhearers : h.subscriptions.hearing = Subscriptions.hearers changes := by
    rw [hs]
    exact funext (Subscriptions.hearing_after changes)
  rw [htellings, ← hhearers]
  exact ⟨hrecorded, hdelivered, hkept⟩

def auditChanges : List SubscriptionChange :=
  [.subscribe .chained "audit", .subscribe .any "screen", .subscribe .refresh "feed",
    .subscribe .any "former",
    .unsubscribe .any "former"]

def failingAudit : Handler Unit :=
  fun subscriber _ h => (if subscriber = "audit" then .error .wrongKind else .ok (), h)

/-- A refresh with notices for both ends, one of which has notices of its own. -/
def auditedRefresh : Notice :=
  .chain "refresh" true [.plain "done"] [.chain "alarm" false [] [.plain "alarm failed"],
    .plain "end"]

/-- The refresh fails for one of three subscribers, and so does the first notice that follows. -/
theorem dispatch_delivers_auditedRefresh :
    failingAudit.KeepsSubscriptions ∧
    Delivered (Subscriptions.hearers auditChanges) auditedRefresh false
      (tellings failingAudit auditedRefresh ⟨.after auditChanges, (), [], []⟩) ∧
    (tellings failingAudit auditedRefresh ⟨.after auditChanges, (), [], []⟩).map
        (fun t => (t.subscriber, t.notice.label, t.succeeded)) =
      [("audit", "refresh", false), ("screen", "refresh", true), ("feed", "refresh", true),
        ("audit", "alarm", false), ("screen", "alarm", true), ("screen", "alarm failed", true),
        ("screen", "end", true)] := by
  have hkeeps : failingAudit.KeepsSubscriptions := fun _ _ _ => rfl
  obtain ⟨-, hdelivered, -⟩ := dispatch_delivers auditChanges failingAudit hkeeps auditedRefresh
    ⟨.after auditChanges, (), [], []⟩ rfl
  have hfailed : (dispatch failingAudit auditedRefresh ⟨.after auditChanges, (), [], []⟩).1 =
      false := by
    decide +kernel
  rw [hfailed] at hdelivered
  exact ⟨hkeeps, hdelivered, by decide +kernel⟩

end Hub

end AdvisoryLedger

import AdvisoryLedger.Proofs.Feed.Next
import Mathlib.Algebra.Order.Ring.Rat
import Mathlib.Tactic.Linarith
import Mathlib.Tactic.Ring

namespace AdvisoryLedger.FeedClient

/-- A call for the next page: when it is made, and what comes back if a request goes out for it. How
long that takes matters only for when the next call can be made, and calls are allowed at any
time. -/
structure NextCall where
  madeAt : Rat
  answer : FeedAnswer

def afterCalls (c : FeedClient) : List NextCall → FeedClient
  | [] => c
  | x :: rest => (c.next x.madeAt x.answer).client.afterCalls rest

/-- When each of some calls in turn sends its request, if it sends one. -/
def sendTimes (c : FeedClient) : List NextCall → List (Option Rat)
  | [] => []
  | x :: rest =>
    let n := c.next x.madeAt x.answer
    n.sent.map FeedRequest.sentAt :: n.client.sendTimes rest

def lastOf (times : List (Option Rat)) : Option Rat := (times.filterMap id).getLast?

/-- When a request is due, by when others went out before it. -/
def dueTime (delay : Rat) (earlier : List (Option Rat)) (madeAt : Rat) : Rat :=
  match lastOf earlier with
  | none => madeAt
  | some last => max madeAt (last + delay)

variable {c : FeedClient} {answer : FeedAnswer} {now delay : Rat}

theorem lastOf_concat (earlier : List (Option Rat)) (t : Option Rat) :
    lastOf (earlier ++ [t]) = t.or (lastOf earlier) := by
  cases t <;> simp [lastOf]

/-- Waiting for what remains of the delay means going out at the end of it. -/
theorem sendTime_eq (hd : c.delay.toRat? = some delay) {earlier : List (Option Rat)}
    (hlast : c.lastSent = lastOf earlier) (now : Rat) :
    c.sendTime now = dueTime delay earlier now := by
  unfold sendTime dueTime
  rw [hlast, hd]
  cases lastOf earlier with
  | none => rfl
  | some last =>
    dsimp only [Option.getD_some]
    split
    · next hwait =>
      have hdue : now ≤ last + delay := by linarith
      rw [max_eq_right hdue]
      ring
    · next hgone =>
      have hdue : last + delay ≤ now := by linarith
      rw [max_eq_left hdue]

theorem sent_next (c : FeedClient) (now : Rat) (answer : FeedAnswer) :
    (c.next now answer).sent.map FeedRequest.sentAt = if c.hasNext then some (c.sendTime now)
      else none := by
  cases hn : c.hasNext with
  | false =>
    rw [next_of_done hn]
    rfl
  | true =>
    rw [next_of_hasNext hn]
    rfl

theorem lastSent_next (c : FeedClient) (now : Rat) (answer : FeedAnswer) :
    (c.next now answer).client.lastSent =
      ((c.next now answer).sent.map FeedRequest.sentAt).or c.lastSent := by
  rw [sent_next]
  cases hn : c.hasNext with
  | false =>
    rw [next_of_done hn]
    rfl
  | true =>
    rw [next_of_hasNext hn]
    rfl

theorem delay_next (c : FeedClient) (now : Rat) (answer : FeedAnswer) :
    (c.next now answer).client.delay = c.delay := by
  cases hn : c.hasNext with
  | false => rw [next_of_done hn]
  | true =>
    obtain ⟨p, hreceived⟩ := receive_frame c answer
    rw [next_of_hasNext hn]
    change (c.receive answer).2.delay = c.delay
    rw [hreceived]

theorem sendTimes_from (hd : c.delay.toRat? = some delay) {earlier : List (Option Rat)}
    (hlast : c.lastSent = lastOf earlier) {calls : List NextCall} {i : Nat} {x : NextCall}
    (hx : calls[i]? = some x) :
    (c.sendTimes calls)[i]? = some (if (c.afterCalls (calls.take i)).hasNext
      then some (dueTime delay (earlier ++ (c.sendTimes calls).take i) x.madeAt) else none) := by
  induction calls generalizing c earlier i with
  | nil => simp at hx
  | cons y rest ih =>
    cases i with
    | zero =>
      cases hx
      simp only [sendTimes, sent_next, sendTime_eq hd hlast, List.getElem?_cons_zero,
        List.take_zero, afterCalls, List.append_nil]
    | succ i =>
      have hnext : (c.next y.madeAt y.answer).client.lastSent =
          lastOf (earlier ++ [(c.next y.madeAt y.answer).sent.map FeedRequest.sentAt]) := by
        rw [lastOf_concat, lastSent_next, hlast]
      have hrest := ih ((delay_next c y.madeAt y.answer).symm ▸ hd) hnext hx
      simpa only [sendTimes, List.getElem?_cons_succ, List.take_succ_cons, afterCalls,
        List.append_assoc, List.singleton_append] using hrest

/-- Of calls made at any times to a new client, whatever comes back for them, those made while there
is more to ask for send a request, and no others do. The first request goes out when its call is
made, and every later one then or when the delay since the one before it has passed, whichever is
later. -/
theorem sendTimes_spaced {o : FeedOptions} (ho : (ofOptions o).result = .ok c)
    (hd : c.delay.toRat? = some delay)
    {calls : List NextCall} {i : Nat} {x : NextCall} (hx : calls[i]? = some x) :
    (c.sendTimes calls)[i]? = some (if (c.afterCalls (calls.take i)).hasNext
      then some (dueTime delay ((c.sendTimes calls).take i) x.madeAt) else none) := by
  have hlast : c.lastSent = lastOf [] := by
    obtain ⟨apiKey, delay', window, rfl⟩ := ofOptions_ok ho
    rfl
  exact sendTimes_from hd hlast hx

/-- A page, an answer that is lost, and a call that comes before the delay since that has passed. -/
def hasty : List NextCall :=
  [⟨0, .ofPage 3 [recordOf "soon"]⟩, ⟨2, .lost (.transport .timeout)⟩,
    ⟨7, .ofPage 3 [recordOf "soon"]⟩]

theorem sendTimes_spaced_hasty : (ofOptions { endpoint := "feed" }).result = .ok newcomer ∧
    newcomer.delay.toRat? = some 6 ∧ hasty[2]? = some ⟨7, .ofPage 3 [recordOf "soon"]⟩ ∧
    (newcomer.sendTimes hasty)[2]? = some (some 12) := by
  have hnew : (ofOptions { endpoint := "feed" }).result = .ok newcomer := rfl
  have hdelay : newcomer.delay.toRat? = some 6 := by decide +kernel
  have hcall : hasty[2]? = some ⟨7, .ofPage 3 [recordOf "soon"]⟩ := rfl
  refine ⟨hnew, hdelay, hcall, ?_⟩
  rw [sendTimes_spaced hnew hdelay hcall]
  decide +kernel

end AdvisoryLedger.FeedClient

import AdvisoryLedger.Lane.Basic

namespace AdvisoryLedger.Lane

variable {α : Type}

/-- How the caller stands to the lane. -/
inductive Door (α : Type)
  | free
  /-- A record waits for room. -/
  | asking (record : α)
  /-- The stop mark waits for room. -/
  | closing
  /-- The stop mark is the last in the queue. -/
  | closed
  /-- The worker has come to the stop mark. -/
  | gone

namespace Door

def blocked : Door α → List (Slot α)
  | asking r => [.record r]
  | closing => [.stop]
  | _ => []

def asked : Door α → List α
  | asking r => [r]
  | _ => []

def stop : Door α → List (Slot α)
  | closed => [.stop]
  | _ => []

def lastCall : Door α → CallState
  | free => .done
  | asking _ => .queueing
  | closing => .queueing
  | closed => .joining
  | gone => .done

def isClosed : Door α → Bool
  | free => false
  | asking _ => false
  | _ => true

/-- How many steps of the worker depend on what the door still holds. -/
def due : Door α → Nat
  | asking _ => 2
  | closing => 1
  | closed => 1
  | _ => 0

def letIn : Door α → Door α
  | asking _ => free
  | closing => closed
  | d => d

theorem asked_letIn (d : Door α) : d.letIn.asked = [] := by cases d <;> rfl

theorem blocked_letIn (d : Door α) : d.letIn.blocked = [] := by cases d <;> rfl

theorem isClosed_letIn (d : Door α) : d.letIn.isClosed = d.isClosed := by cases d <;> rfl

theorem letIn_gone {d : Door α} : d.letIn = .gone ↔ d = .gone := by cases d <;> simp [letIn]

/-- A record that is let in stands where it asked to; a stop mark is the last. -/
theorem stop_append_blocked (d : Door α) :
    d.stop ++ d.blocked = d.asked.map .record ++ d.letIn.stop := by
  cases d <;> rfl

end Door

structure View (α : Type) where
  inHand : Option α := none
  waiting : List α := []
  door : Door α := .free
  completed : Nat := 0
  failed : Nat := 0

namespace View

def worker (v : View α) : Worker α :=
  match v.door, v.inHand with
  | .gone, _ => .ended
  | _, some r => .writing r
  | _, none => .idle

/-- The records that are still to be written, in the order in which they were submitted. -/
def outstanding (v : View α) : List α := v.inHand.toList ++ v.waiting ++ v.door.asked

def push (v : View α) (r : α) : View α := { v with waiting := v.waiting ++ [r] }

/-- The next step of a worker that holds nothing: it takes the first record, which makes room for
what waited, or comes to the stop mark. -/
def take? (v : View α) : Option (View α) :=
  match v.inHand, v.waiting, v.door with
  | none, r :: rest, d =>
    some { v with inHand := some r, waiting := rest ++ d.asked, door := d.letIn }
  | none, [], .closed => some { v with door := .gone }
  | _, _, _ => none

def finish (v : View α) (succeeded : Bool) : View α :=
  if succeeded then { v with inHand := none, completed := v.completed + 1 }
  else { v with inHand := none, failed := v.failed + 1 }

/-- How many steps the worker has before it: two for a record, one for the stop mark. -/
def due (v : View α) : Nat := v.inHand.toList.length + 2 * v.waiting.length + v.door.due

theorem outstanding_push (v : View α) (r : α) (h : v.door = .free) :
    (v.push r).outstanding = v.outstanding ++ [r] := by
  simp [outstanding, push, h, Door.asked]

theorem outstanding_asking (v : View α) (r : α) (h : v.door = .free) :
    ({ v with door := .asking r } : View α).outstanding = v.outstanding ++ [r] := by
  simp [outstanding, h, Door.asked]

/-- A worker that can move takes the first record or comes to the stop mark. -/
theorem take?_eq_some {v w : View α} (h : v.take? = some w) :
    (∃ r rest, v.inHand = none ∧ v.waiting = r :: rest ∧
      w = { v with inHand := some r, waiting := rest ++ v.door.asked, door := v.door.letIn }) ∨
    (v.inHand = none ∧ v.waiting = [] ∧ v.door = .closed ∧ w = { v with door := .gone }) := by
  unfold take? at h
  split at h
  · next r rest hi hw => exact .inl ⟨r, rest, hi, hw, (Option.some.inj h).symm⟩
  · next hi hw hd => exact .inr ⟨hi, hw, hd, (Option.some.inj h).symm⟩
  · cases h

theorem outstanding_take? {v w : View α} (h : v.take? = some w) :
    w.outstanding = v.outstanding := by
  rcases take?_eq_some h with ⟨r, rest, hi, hw, rfl⟩ | ⟨hi, hw, hd, rfl⟩
  · simp [outstanding, hi, hw, Door.asked_letIn]
  · simp [outstanding, hd, Door.asked]

theorem due_take? {v w : View α} (h : v.take? = some w) : w.due < v.due := by
  rcases take?_eq_some h with ⟨r, rest, hi, hw, rfl⟩ | ⟨hi, hw, hd, rfl⟩
  · cases hd : v.door <;> simp [due, hi, hw, hd, Door.asked, Door.letIn, Door.due] <;> omega
  · simp [due, hi, hw, hd, Door.due]

/-- A worker that holds nothing has to move where a record is in the queue. -/
theorem take?_ne_none {v : View α} (hi : v.inHand = none) (hw : v.waiting ≠ [] ∨ v.door = .closed) :
    v.take? ≠ none := by
  cases h : v.waiting with
  | nil =>
    have hd := hw.resolve_left (fun hn => hn h)
    simp [take?, hi, h, hd]
  | cons r rest => simp [take?, hi, h]

theorem outstanding_finish {v : View α} {r : α} (h : v.inHand = some r) (succeeded : Bool) :
    v.outstanding = r :: (v.finish succeeded).outstanding := by
  cases succeeded <;> simp [outstanding, finish, h]

theorem door_finish (v : View α) (succeeded : Bool) : (v.finish succeeded).door = v.door := by
  cases succeeded <;> rfl

theorem failed_finish (v : View α) (succeeded : Bool) :
    (v.finish succeeded).failed = v.failed + if succeeded then 0 else 1 := by
  cases succeeded <;> rfl

theorem due_finish {v : View α} {r : α} (h : v.inHand = some r) (succeeded : Bool) :
    (v.finish succeeded).due < v.due := by
  cases succeeded <;> simp [due, finish, h]

theorem failed_take? {v w : View α} (h : v.take? = some w) : w.failed = v.failed := by
  rcases take?_eq_some h with ⟨r, rest, -, -, rfl⟩ | ⟨-, -, -, rfl⟩ <;> rfl

theorem worker_free {v : View α} (h : v.door = .free) :
    v.worker = match v.inHand with | some r => .writing r | none => .idle := by
  cases hi : v.inHand <;> simp [worker, h, hi]

theorem worker_of_some {v : View α} {r : α} (hi : v.inHand = some r) (ho : v.door ≠ .gone) :
    v.worker = .writing r := by
  rw [worker, hi]
  split <;> simp_all

theorem worker_of_none {v : View α} (hi : v.inHand = none) (ho : v.door ≠ .gone) :
    v.worker = .idle := by
  rw [worker, hi]
  split <;> simp_all

theorem worker_writing {v : View α} {r : α} (h : v.worker = .writing r) : v.inHand = some r := by
  unfold worker at h
  split at h
  · cases h
  · next x hi hd =>
    cases h
    exact hi
  · cases h

theorem worker_idle {v : View α} (h : v.worker = .idle) : v.inHand = none := by
  unfold worker at h
  split at h
  · cases h
  · cases h
  · next hi _ => exact hi

/-- Short of the end, the worker does not heed the door. -/
theorem worker_door {v : View α} {d : Door α} (h : v.door = .free) (hd : d ≠ .gone) :
    ({ v with door := d } : View α).worker = v.worker := by
  rw [worker_free h]
  cases d <;> cases hi : v.inHand <;> simp_all [worker]

end View

section Put

variable (l : Lane α)

theorem put_of_room (slot : Slot α) (h : l.hasRoom = true) :
    l.put slot = (l.record .queueing).accept l.calls.length slot := if_pos h

theorem put_record_of_room (r : α) (h : l.hasRoom = true) : l.put (.record r) =
    { l with queue := l.queue ++ [.record r], submitted := l.submitted + 1, calls := l.calls ++ [.done] } := by
  rw [l.put_of_room _ h]
  simp [accept, setCall, record]

theorem put_stop_of_room (h : l.hasRoom = true) : l.put .stop =
    { l with queue := l.queue ++ [.stop], calls := l.calls ++ [l.joined] } := by
  rw [l.put_of_room _ h]
  simp [accept, setCall, record, joined]

theorem put_of_full (slot : Slot α) (h : l.hasRoom = false) : l.put slot =
    { l with blocked := l.blocked ++ [(l.calls.length, slot)], calls := l.calls ++ [.queueing] } := by
  have hr : ¬(l.record .queueing).hasRoom = true := by
    rw [show (l.record .queueing).hasRoom = l.hasRoom from rfl, h]
    exact Bool.false_ne_true
  exact if_neg hr

end Put

/-- The lane is in the state that the view says. -/
structure Shows (l : Lane α) (v : View α) : Prop where
  worker : l.worker = v.worker
  queue : l.queue = v.waiting.map .record ++ v.door.stop
  blocked : l.blocked = v.door.blocked.map fun slot => (l.calls.length - 1, slot)
  lastCall : l.calls.getLast? = some v.door.lastCall
  isClosed : l.isClosed = v.door.isClosed
  submitted : l.submitted = l.completed + l.failed + v.inHand.toList.length + v.waiting.length
  completed : l.completed = v.completed
  failed : l.failed = v.failed
  /-- Only a queue that is not empty makes anybody wait. -/
  full : v.door.blocked ≠ [] → v.waiting ≠ []
  ended : v.door = .gone → v.inHand = none ∧ v.waiting = []

theorem shows_start (bound : Nat) : (({ bound } : Lane α).start).Shows {} where
  worker := rfl
  queue := rfl
  blocked := rfl
  lastCall := rfl
  isClosed := rfl
  submitted := rfl
  completed := rfl
  failed := rfl
  full h := absurd rfl h
  ended h := by cases h

namespace Shows

variable {l : Lane α} {v : View α}

theorem wake (h : l.Shows v) (hd : v.door = .free) : l.wake = l := by
  have hw := h.worker
  rw [View.worker_free hd] at hw
  unfold Lane.wake
  cases hi : v.inHand <;> simp only [hi] at hw <;> simp only [hw]

theorem queue_free (h : l.Shows v) (hd : v.door = .free) : l.queue = v.waiting.map .record := by
  rw [h.queue, hd]
  exact List.append_nil _

theorem blocked_free (h : l.Shows v) (hd : v.door = .free) : l.blocked = [] := by
  rw [h.blocked, hd]
  rfl

theorem waiting_ne_nil (h : l.Shows v) (hd : v.door = .free) (hr : l.hasRoom = false) :
    v.waiting ≠ [] := by
  intro hn
  have hq : l.queue = [] := by simp [h.queue_free hd, hn]
  simp only [hasRoom, hq, List.length_nil, Bool.or_eq_false_iff, decide_eq_false_iff_not] at hr
  omega

/-- The caller's next call leaves its slot in the queue or before the door. -/
theorem enter (h : l.Shows v) (hd : v.door = .free) {d : Door α} (hopen : d ≠ .gone)
    (hfull : d.blocked ≠ [] → v.waiting ≠ []) {m : Lane α} (hm : m = { l with
      isClosed := d.isClosed, queue := l.queue ++ d.stop, calls := l.calls ++ [d.lastCall]
      blocked := d.blocked.map fun slot => (l.calls.length, slot) }) : m.Shows { v with door := d } := by
  subst hm
  refine { h with
    worker := ?_, queue := ?_, blocked := ?_, lastCall := ?_, isClosed := rfl, full := hfull, ended := ?_ }
  · exact h.worker.trans (View.worker_door hd hopen).symm
  · exact congrArg (· ++ d.stop) (h.queue_free hd)
  · simp
  · simp
  · exact fun ho => absurd ho hopen

/-- A record that is submitted joins the queue, or waits for room behind one that is not empty. -/
theorem submit (h : l.Shows v) (hd : v.door = .free) (r : α) :
    (l.submit r).Shows (v.push r) ∨ (l.submit r).Shows { v with door := .asking r } := by
  have hc : l.isClosed = false := by rw [h.isClosed, hd]; rfl
  have hs := h.submitted
  simp only [Lane.submit, hc, h.wake hd, Bool.false_eq_true, if_false]
  cases hr : l.hasRoom with
  | true =>
    left
    rw [l.put_record_of_room r hr]
    refine { h with queue := ?_, blocked := ?_, lastCall := ?_, submitted := ?_, full := ?_, ended := ?_ }
    · simp [h.queue_free hd, View.push, hd, Door.stop]
    · simp [h.blocked_free hd, View.push, hd, Door.blocked]
    · simp [View.push, hd, Door.lastCall]
    · simp only [View.push, List.length_append, List.length_cons, List.length_nil]
      omega
    · simp [View.push]
    · simp [View.push, hd]
  | false =>
    right
    refine h.enter hd (by simp) (fun _ => h.waiting_ne_nil hd hr) ?_
    rw [l.put_of_full _ hr, h.blocked_free hd]
    simp [hc, Door.isClosed, Door.stop, Door.lastCall, Door.blocked]

/-- The stop mark joins the queue, or waits for room behind one that is not empty. -/
theorem drain (h : l.Shows v) (hd : v.door = .free) :
    l.drain.Shows { v with door := .closed } ∨ l.drain.Shows { v with door := .closing } := by
  have hw := h.worker
  rw [View.worker_free hd] at hw
  have hput : l.drain = ({ l with isClosed := true } : Lane α).put .stop := by
    cases hi : v.inHand <;> simp only [hi] at hw <;> simp [Lane.drain, hw]
  have hj : ({ l with isClosed := true } : Lane α).joined = .joining := by
    cases hi : v.inHand <;> simp only [hi] at hw <;> simp [joined, hw]
  rw [hput]
  cases hr : l.hasRoom with
  | true =>
    left
    refine h.enter hd (by simp) (fun hb => absurd rfl hb) ?_
    rw [put_stop_of_room { l with isClosed := true } hr, hj]
    simp [h.blocked_free hd, Door.isClosed, Door.stop, Door.lastCall, Door.blocked]
  | false =>
    right
    refine h.enter hd (by simp) (fun _ => h.waiting_ne_nil hd hr) ?_
    rw [put_of_full { l with isClosed := true } .stop hr]
    simp [h.blocked_free hd, Door.isClosed, Door.stop, Door.lastCall, Door.blocked]

theorem finish (h : l.Shows v) {r : α} (hi : v.inHand = some r) (succeeded : Bool) :
    (l.finish succeeded).Shows (v.finish succeeded) := by
  have hd : v.door ≠ .gone := by
    intro ho
    rw [(h.ended ho).1] at hi
    cases hi
  have hw : l.worker = .writing r := h.worker.trans (View.worker_of_some hi hd)
  have hi' : (v.finish succeeded).inHand = none := by cases succeeded <;> rfl
  have hd' := v.door_finish succeeded
  have hv : (v.finish succeeded).waiting = v.waiting := by cases succeeded <;> rfl
  have hidle : (v.finish succeeded).worker = .idle := View.worker_of_none hi' (hd' ▸ hd)
  have hs := h.submitted
  have hc := h.completed
  have hf := h.failed
  simp only [hi, Option.toList_some, List.length_cons, List.length_nil] at hs
  unfold Lane.finish
  simp only [hw]
  cases succeeded with
  | true =>
    refine { h with worker := hidle.symm, submitted := ?_, completed := ?_, ended := ?_ }
    · simp only [if_true, hi', hv, Option.toList_none, List.length_nil]
      omega
    · exact congrArg (· + 1) hc
    · intro ho
      exact absurd ho hd
  | false =>
    refine { h with worker := hidle.symm, submitted := ?_, failed := ?_, ended := ?_ }
    · simp only [Bool.false_eq_true, if_false, hi', hv, Option.toList_none, List.length_nil]
      omega
    · exact congrArg (· + 1) hf
    · intro ho
      exact absurd ho hd

theorem set_last {calls : List CallState} {c : CallState} (h : calls.getLast? = some c)
    (d : CallState) : (calls.set (calls.length - 1) d).getLast? = some d := by
  obtain ⟨earlier, rfl⟩ := List.getLast?_eq_some_iff.mp h
  simp

/-- What waited for room is let in, and the call that made it wait goes on. -/
theorem acceptNext_of_door {l : Lane α} (d : Door α) {r : α} (hw : l.worker = .writing r)
    (hb : l.blocked = d.blocked.map fun slot => (l.calls.length - 1, slot))
    (hc : l.calls.getLast? = some d.lastCall) : ∃ calls, calls.getLast? = some d.letIn.lastCall ∧
      l.acceptNext = { l with
        queue := l.queue ++ d.blocked, blocked := [], submitted := l.submitted + d.asked.length, calls } := by
  have unblocked (hn : l.blocked = []) : l.acceptNext = { l with
      queue := l.queue ++ [], blocked := [], submitted := l.submitted + 0, calls := l.calls } := by
    simp only [acceptNext, hn, List.append_nil, Nat.add_zero]
    rw [← hn]
  cases d with
  | free => exact ⟨_, hc, unblocked hb⟩
  | asking x =>
    exact ⟨_, set_last hc .done,
      by simp [acceptNext, hb, Door.blocked, accept, setCall, Door.asked]⟩
  | closing =>
    exact ⟨_, set_last hc .joining,
      by simp [acceptNext, hb, Door.blocked, accept, setCall, joined, hw, Door.asked]⟩
  | closed => exact ⟨_, hc, unblocked hb⟩
  | gone => exact ⟨_, hc, unblocked hb⟩

theorem take_record (h : l.Shows v) {r : α} {rest : List α} (hi : v.inHand = none)
    (hw : v.waiting = r :: rest) : ∃ m, l.take = some m ∧
      m.Shows { v with inHand := some r, waiting := rest ++ v.door.asked, door := v.door.letIn } := by
  have hopen : v.door ≠ .gone := by
    intro ho
    have hn := (h.ended ho).2
    rw [hw] at hn
    cases hn
  have hworker : l.worker = .idle := h.worker.trans (View.worker_of_none hi hopen)
  have hqueue : l.queue = .record r :: (rest.map .record ++ v.door.stop) := by rw [h.queue, hw]; rfl
  have hsubmitted := h.submitted
  simp only [hi, hw, Option.toList_none, List.length_nil, List.length_cons] at hsubmitted
  -- room is made as soon as the record is in hand, before the worker begins to write it
  obtain ⟨calls, hlast, hm⟩ := acceptNext_of_door (l := { l with
    queue := rest.map .record ++ v.door.stop, worker := .writing r }) v.door rfl h.blocked h.lastCall
  have htake : l.take = some ({ l with
      queue := rest.map .record ++ v.door.stop, worker := .writing r } : Lane α).acceptNext := by
    simp only [Lane.take, hworker, hqueue]
  refine ⟨_, htake.trans (congrArg some hm), ?_⟩
  refine
    { h with
      worker := ?_, queue := ?_, blocked := ?_, lastCall := hlast, isClosed := ?_, submitted := ?_, full := ?_,
      ended := ?_ }
  · simp only [View.worker]
    cases hd : v.door <;> simp_all [Door.letIn]
  · simp [Door.stop_append_blocked]
  · simp [Door.blocked_letIn]
  · exact h.isClosed.trans v.door.isClosed_letIn.symm
  · simp only [Option.toList_some, List.length_append, List.length_cons, List.length_nil]
    omega
  · exact fun hb => absurd v.door.blocked_letIn hb
  · exact fun ho => absurd (Door.letIn_gone.mp ho) hopen

/-- At the stop mark the worker ends, and with it the call that waits for it. -/
theorem take_stop (h : l.Shows v) (hi : v.inHand = none) (hw : v.waiting = [])
    (hd : v.door = .closed) :
    ∃ m, l.take = some m ∧ m.Shows { v with door := .gone } := by
  have hworker := h.worker
  simp only [View.worker, hd, hi] at hworker
  have hqueue : l.queue = [.stop] := by rw [h.queue, hw, hd]; rfl
  have hb : l.blocked = [] := by rw [h.blocked, hd]; rfl
  have hlast : l.calls.getLast? = some .joining := by rw [h.lastCall, hd]; rfl
  refine ⟨({ l with queue := [] } : Lane α).conclude .ended .done, ?_, ?_⟩
  · simp only [Lane.take, hworker, hqueue, acceptNext, hb]
  · refine { h with
      worker := rfl, queue := ?_, blocked := hb, lastCall := ?_, isClosed := ?_, full := ?_, ended := ?_ }
    · simp [conclude, hw, Door.stop]
    · simp [conclude, hlast, Door.lastCall]
    · exact h.isClosed.trans (by rw [hd]; rfl)
    · simp [Door.blocked]
    · exact fun _ => ⟨hi, hw⟩

theorem take (h : l.Shows v) :
    match v.take? with
    | some w => ∃ m, l.take = some m ∧ m.Shows w
    | none => l.take = none := by
  cases ht : v.take? with
  | some w =>
    rcases View.take?_eq_some ht with ⟨r, rest, hi, hw, rfl⟩ | ⟨hi, hw, hd, rfl⟩
    · exact h.take_record hi hw
    · exact h.take_stop hi hw hd
  | none =>
    -- a lane that could take something would have it at the front of the queue, where the view has it too
    have hq := h.queue
    simp only [Lane.take]
    split
    · next hidle hr =>
      have hi := View.worker_idle (h.worker.symm.trans hidle)
      cases hw : v.waiting with
      | cons x rest => simp [View.take?, hi, hw] at ht
      | nil =>
        rw [hr, hw] at hq
        cases hd : v.door <;> simp [hd, Door.stop] at hq
    · next hidle hs =>
      have hi := View.worker_idle (h.worker.symm.trans hidle)
      rw [hs] at hq
      cases hw : v.waiting with
      | cons x rest => simp [hw] at hq
      | nil => cases hd : v.door <;> simp_all [Door.stop, View.take?]
    · rfl

end Shows

end AdvisoryLedger.Lane

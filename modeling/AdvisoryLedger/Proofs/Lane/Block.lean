import AdvisoryLedger.Proofs.Lane.Room

namespace AdvisoryLedger.Lane

/-- How far the block has come. -/
inductive Block.Stage
  | inside
  /-- The lane is drained, after a failure or without. -/
  | leaving (failed : Bool)
  /-- Cancelled, and the worker with it. -/
  | cancelled
  /-- Cancelled while the stop mark waited for room, so that the worker goes on. -/
  | unattended
  deriving DecidableEq

/-- Whoever runs the block is still there. -/
def Block.Stage.isAttended : Block.Stage → Bool
  | inside => true
  | leaving _ => true
  | _ => false

structure Block (α : Type) where
  lane : Lane α
  ahead : List α
  /-- The records that were passed to the lane, in order. The last may still wait for room. -/
  given : List α := []
  /-- The records that the worker has begun to write, in order. -/
  started : List α := []
  stage : Block.Stage := .inside

variable {α : Type}

def inHand (l : Lane α) : Option α :=
  match l.worker with
  | .writing r => some r
  | _ => none

def Slot.record? : Slot α → Option α
  | record r => some r
  | stop => none

def waiting (l : Lane α) : List α := l.queue.filterMap Slot.record?

namespace Block

/-- Whose turn it is, and what becomes of it. -/
inductive Act
  | submit
  | letIn
  | leave (failed : Bool)
  | cancel
  /-- The worker takes the next slot, and begins to write if it is a record. -/
  | take
  | finish (succeeded : Bool)

/-- Steps that are not brought about from outside. -/
def Act.isOwn : Act → Bool
  | leave failed => !failed
  | cancel => false
  | _ => true

def enter (bound : Nat) (records : List α) : Block α :=
  { lane := ({ bound } : Lane α).start, ahead := records }

/-- The next record is submitted, unless the one before still waits for room. -/
def submit (b : Block α) : Option (Block α) :=
  match b.stage, b.lane.blocked, b.ahead with
  | .inside, [], r :: rest =>
    some { b with lane := b.lane.submit r, ahead := rest, given := b.given ++ [r] }
  | _, _, _ => none

def leave (b : Block α) (failed : Bool) : Option (Block α) :=
  match b.stage, b.lane.blocked with
  | .inside, [] =>
    if failed || b.ahead.isEmpty then some { b with lane := b.lane.drain, stage := .leaving failed } else none
  | _, _ => none

/-- The call that drains the lane has come back. -/
def hasLeft (b : Block α) : Bool :=
  match b.stage with
  | .leaving _ => decide (b.lane.calls.getLast? = some .done)
  | _ => false

/-- The block may be cancelled until it is left, also while it waits. Inside, the lane is cancelled
with it; a call that drains the lane is only interrupted. -/
def cancel (b : Block α) : Option (Block α) :=
  match b.stage with
  | .inside => some { b with lane := b.lane.withdraw.cancel, stage := .cancelled }
  | .leaving _ =>
    if b.hasLeft then none
    else some { b with
      lane := b.lane.interrupt, stage := if b.lane.blocked.isEmpty then .cancelled else .unattended }
  | _ => none

def take (b : Block α) : Option (Block α) :=
  b.lane.pull.map fun lane => { b with lane, started := b.started ++ lane.inHand.toList }

def finish (b : Block α) (succeeded : Bool) : Option (Block α) :=
  b.lane.inHand.map fun _ => { b with lane := b.lane.finish succeeded }

def step (b : Block α) : Act → Option (Block α)
  | .submit => b.submit
  | .letIn => b.lane.letNextIn.map fun lane => { b with lane }
  | .leave failed => b.leave failed
  | .cancel => b.cancel
  | .take => b.take
  | .finish succeeded => b.finish succeeded

def play (b : Block α) : List Act → Option (Block α)
  | [] => some b
  | act :: acts => (b.step act).bind fun c => c.play acts

end Block

theorem inHand_eq_some {l : Lane α} {r : α} : l.inHand = some r ↔ l.worker = .writing r := by
  cases h : l.worker <;> simp [inHand, h]

theorem queue_prefix_settled (l : Lane α) : l.queue <+: l.settled.queue := by
  unfold settled
  split
  · exact ⟨_, (queue_acceptNext l).symm⟩
  · exact List.prefix_rfl

theorem waiting_of_queue {l : Lane α} {records : List α} (h : l.queue = records.map .record) :
    l.waiting = records := by
  rw [waiting, h, List.filterMap_map]
  exact List.filterMap_some

theorem Shows.waiting {l : Lane α} {v : View α} (h : l.Shows v) : l.waiting = v.waiting := by
  have hrecords : (v.waiting.map Slot.record).filterMap Slot.record? = v.waiting := by
    rw [List.filterMap_map]
    exact List.filterMap_some
  have hstop : v.door.stop.filterMap Slot.record? = [] := by cases v.door <;> rfl
  rw [Lane.waiting, h.queue, List.filterMap_append, hrecords, hstop, List.append_nil]

namespace Block

variable {b c : Block α} {v : View α} {bound : Nat} {records : List α}

/-- What the lane shows of a block, once everyone who finds room is let in. -/
structure Shows (b : Block α) (v : View α) : Prop where
  lane : b.lane.settled.Shows v
  alone : b.lane.OneWaits
  given : b.given = b.started ++ v.waiting ++ v.door.asked
  started : b.started.length = v.completed + v.failed + v.inHand.toList.length
  inside : b.stage = .inside ↔ v.door.isClosed = false

namespace Shows

theorem order (h : b.Shows v) : b.started ++ b.lane.waiting <+: b.given := by
  have hqueue : b.lane.waiting <+: v.waiting := by
    rw [← h.lane.waiting]
    exact (queue_prefix_settled b.lane).filterMap _
  rw [h.given, List.append_assoc]
  exact (List.prefix_append_right_inj _).mpr (hqueue.trans (List.prefix_append _ _))

theorem worker (h : b.Shows v) : b.lane.worker = v.worker :=
  (worker_settled b.lane).symm.trans h.lane.worker

theorem counts (h : b.Shows v) : b.lane.completed = v.completed ∧ b.lane.failed = v.failed :=
  ⟨(completed_settled b.lane).symm.trans h.lane.completed,
    (failed_settled b.lane).symm.trans h.lane.failed⟩

theorem started_le (h : b.Shows v) : b.started.length ≤ b.lane.completed + b.lane.failed + 1 := by
  have hhand : v.inHand.toList.length ≤ 1 := by cases v.inHand <;> simp
  obtain ⟨hcompleted, hfailed⟩ := h.counts
  have hstarted := h.started
  omega

theorem door_blocked (h : b.Shows v) (hb : b.lane.blocked = []) : v.door.blocked = [] := by
  have hblocked := h.lane.blocked
  rw [settled_of_nil hb, hb] at hblocked
  exact List.map_eq_nil_iff.mp hblocked.symm

theorem door_free (h : b.Shows v) (hs : b.stage = .inside) (hb : b.lane.blocked = []) :
    v.door = .free := by
  have hopen := h.inside.mp hs
  have hnil := h.door_blocked hb
  cases hd : v.door <;> simp [hd, Door.isClosed, Door.blocked] at hopen hnil ⊢

theorem blocked_of_gone (h : b.Shows v) (hd : v.door = .gone) : b.lane.blocked = [] := by
  refine blocked_of_settled ?_ ?_
  · rw [h.lane.queue, (h.lane.ended hd).2, hd]
    rfl
  · rw [h.lane.blocked, hd]
    rfl

theorem inHand_eq (h : b.Shows v) (hopen : v.door ≠ .gone) : b.lane.inHand = v.inHand := by
  cases hi : v.inHand with
  | some r => exact inHand_eq_some.mpr (h.worker.trans (View.worker_of_some hi hopen))
  | none => rw [inHand, h.worker.trans (View.worker_of_none hi hopen)]

theorem submit (h : b.Shows v) (hs : b.stage = .inside) (hb : b.lane.blocked = []) (r : α)
    (rest : List α) :
    ∃ w, Shows { b with lane := b.lane.submit r, ahead := rest, given := b.given ++ [r] } w := by
  have hd := h.door_free hs hb
  have hlane := h.lane
  rw [settled_of_nil hb] at hlane
  have hgiven := h.given
  rw [hd, show (Door.free : Door α).asked = [] from rfl, List.append_nil] at hgiven
  rcases hlane.submit hd r with hshows | hshows
  · refine ⟨v.push r, (settled_submit hb r).symm ▸ hshows, .submit hb r, ?_, h.started, ?_⟩
    · simp [View.push, hd, Door.asked, hgiven]
    · simp [View.push, hd, Door.isClosed, hs]
  · refine ⟨{ v with door := .asking r }, (settled_submit hb r).symm ▸ hshows, .submit hb r, ?_,
      h.started, ?_⟩
    · simp [Door.asked, hgiven]
    · simp [Door.isClosed, hs]

theorem leave (h : b.Shows v) (hs : b.stage = .inside) (hb : b.lane.blocked = []) (failed : Bool) :
    ∃ w, Shows { b with lane := b.lane.drain, stage := .leaving failed } w := by
  have hd := h.door_free hs hb
  have hlane := h.lane
  rw [settled_of_nil hb] at hlane
  have hgiven := h.given
  rw [hd, show (Door.free : Door α).asked = [] from rfl] at hgiven
  rcases hlane.drain hd with hshows | hshows
  · refine ⟨{ v with door := .closed }, (settled_drain hb).symm ▸ hshows, .drain hb, hgiven,
      h.started, ?_⟩
    simp [Door.isClosed]
  · refine ⟨{ v with door := .closing }, (settled_drain hb).symm ▸ hshows, .drain hb, hgiven,
      h.started, ?_⟩
    simp [Door.isClosed]

theorem letNextIn (h : b.Shows v) {m : Lane α} (hm : b.lane.letNextIn = some m) :
    Shows { b with lane := m } v := by
  obtain ⟨hsettled, -⟩ := settled_letNextIn h.alone.length_le hm
  exact ⟨hsettled.symm ▸ h.lane, h.alone.letNextIn hm, h.given, h.started, h.inside⟩

theorem take (h : b.Shows v) (hfits : b.lane.Fits bound) {m : Lane α} (hm : b.lane.pull = some m) :
    ∃ w, Shows { b with lane := m, started := b.started ++ m.inHand.toList } w := by
  have hlane := h.lane.take
  rw [settled_pull hfits h.alone.length_le hm] at hlane
  have halone := h.alone.pull hm
  cases ht : v.take? with
  | none => simp [ht] at hlane
  | some w =>
    rw [ht] at hlane
    obtain ⟨_, hsome, hshows⟩ := hlane
    obtain rfl := Option.some.inj hsome
    have hworker : m.worker = w.worker := (worker_settled m).symm.trans hshows.worker
    have hgiven := h.given
    have hstarted := h.started
    rcases View.take?_eq_some ht with ⟨r, rest, hi, hw, rfl⟩ | ⟨hi, hw, hd, rfl⟩
    · have hopen : v.door.letIn ≠ .gone := by
        intro ho
        have hgone := (h.lane.ended (Door.letIn_gone.mp ho)).2
        rw [hw] at hgone
        cases hgone
      have hhand : m.inHand = some r :=
        inHand_eq_some.mpr (hworker.trans (View.worker_of_some rfl hopen))
      refine ⟨_, hshows, halone, ?_, ?_, ?_⟩
      · simp [hgiven, hw, hhand, Door.asked_letIn]
      · simp [hstarted, hi, hhand]
      · exact h.inside.trans (by rw [Door.isClosed_letIn])
    · have hhand : m.inHand = none := by
        rw [inHand, hworker]
        rfl
      refine ⟨_, hshows, halone, ?_, ?_, ?_⟩
      · simp [hgiven, hw, hd, hhand, Door.asked]
      · simp [hstarted, hi, hhand]
      · exact h.inside.trans (by rw [hd]; rfl)

theorem finish (h : b.Shows v) {r : α} (hr : b.lane.inHand = some r) (succeeded : Bool) :
    ∃ w, Shows { b with lane := b.lane.finish succeeded } w := by
  have hw := inHand_eq_some.mp hr
  have hi : v.inHand = some r := View.worker_writing (h.worker.symm.trans hw)
  have hstarted := h.started
  refine ⟨v.finish succeeded, (settled_finish hw succeeded).symm ▸ h.lane.finish hi succeeded,
    h.alone.finish succeeded, ?_, ?_, ?_⟩
  · rw [View.door_finish]
    cases succeeded <;> exact h.given
  · cases succeeded <;> simp [View.finish, hstarted, hi] <;> omega
  · rw [View.door_finish]
    exact h.inside

/-- Somebody who waits for room is let in, or the worker makes it. So it is with the stop mark in
the queue. -/
theorem moves (h : b.Shows v) (hwait : b.lane.blocked ≠ [] ∨ v.door = .closed) :
    ∃ act : Act, act.isOwn = true ∧ (b.step act).isSome = true := by
  -- the worker of a settled lane has something before it, and so has that of the lane itself
  have work (hsettled : b.lane.settled = b.lane) (hopen : v.door ≠ .gone)
      (hsome : v.waiting ≠ [] ∨ v.door = .closed) :
      ∃ act : Act, act.isOwn = true ∧ (b.step act).isSome = true := by
    cases hi : v.inHand with
    | some r =>
      have hhand := (h.inHand_eq hopen).trans hi
      exact ⟨.finish true, rfl, by simp [step, Block.finish, hhand]⟩
    | none =>
      have hlane := h.lane.take
      rw [hsettled, take_eq_pull] at hlane
      cases ht : v.take? with
      | none => exact absurd ht (View.take?_ne_none hi hsome)
      | some w =>
        rw [ht] at hlane
        obtain ⟨m, hm, -⟩ := hlane
        obtain ⟨m', hm', -⟩ := Option.map_eq_some_iff.mp hm
        exact ⟨.take, rfl, by simp [step, Block.take, hm']⟩
  cases hb : b.lane.blocked with
  | nil =>
    have hd := hwait.resolve_left (fun hn => hn hb)
    exact work (settled_of_nil hb) (by simp [hd]) (.inr hd)
  | cons first rest =>
    cases hr : b.lane.hasRoom with
    | true => exact ⟨.letIn, rfl, by simp [step, Lane.letNextIn, hb, hr]⟩
    | false =>
      have hsettled : b.lane.settled = b.lane := by simp [settled, hr]
      have hblocked := h.lane.blocked
      rw [hsettled, hb] at hblocked
      have hdoor : v.door.blocked ≠ [] := by
        intro hn
        rw [hn] at hblocked
        cases hblocked
      refine work hsettled ?_ (.inl (h.lane.full hdoor))
      rintro hd
      exact hdoor (by rw [hd]; rfl)

/-- Whoever leaves has left when the worker has come to the stop mark. -/
theorem hasLeft_iff (h : b.Shows v) {failed : Bool} (hs : b.stage = .leaving failed) :
    b.hasLeft = true ↔ v.door = .gone := by
  have hclosed : v.door.isClosed ≠ false := fun ho => by simp [h.inside.mpr ho] at hs
  simp only [hasLeft, hs, decide_eq_true_eq]
  cases hb : b.lane.blocked with
  | nil =>
    have hlast := h.lane.lastCall
    rw [settled_of_nil hb] at hlast
    rw [hlast, Option.some.injEq]
    cases hd : v.door <;> simp [hd, Door.isClosed, Door.lastCall] at hclosed ⊢
  | cons first rest =>
    have hblocked : b.lane.blocked ≠ [] := by simp [hb]
    rw [h.alone.lastCall hblocked]
    exact iff_of_false (by simp) fun hd => hblocked (h.blocked_of_gone hd)

end Shows

/-- What remains of a block that was cancelled with its worker. -/
structure Abandoned (b : Block α) : Prop where
  worker : b.lane.worker = .cancelled
  blocked : b.lane.blocked = []
  order : b.started ++ b.lane.waiting <+: b.given
  started_le : b.started.length ≤ b.lane.completed + b.lane.failed + 1

/-- What remains of a block that was cancelled while the stop mark waited for room. -/
structure Unattended (b : Block α) : Prop where
  worker : b.lane.worker = match b.lane.inHand with | some r => .writing r | none => .idle
  blocked : b.lane.blocked = []
  queue : b.lane.queue = b.lane.waiting.map .record
  given : b.given = b.started ++ b.lane.waiting
  started : b.started.length = b.lane.completed + b.lane.failed + b.lane.inHand.toList.length

namespace Shows

theorem cancel (h : b.Shows v) (hs : b.stage = .inside) :
    Abandoned { b with lane := b.lane.withdraw.cancel, stage := .cancelled } := by
  have hopen : v.door ≠ .gone := by
    intro hd
    have hinside := h.inside.mp hs
    rw [hd] at hinside
    cases hinside
  have halive : b.lane.worker = .idle ∨ ∃ r, b.lane.worker = .writing r := by
    cases hi : v.inHand with
    | none => exact .inl (h.worker.trans (View.worker_of_none hi hopen))
    | some r => exact .inr ⟨r, h.worker.trans (View.worker_of_some hi hopen)⟩
  obtain ⟨hqueue, hblocked, -, hcompleted, hfailed⟩ := b.lane.withdraw.cancel_frame
  obtain ⟨hqueue', -, -, hworker', hcompleted', hfailed'⟩ := b.lane.withdraw_frame
  refine ⟨worker_cancel (hworker'.symm ▸ halive), hblocked.trans h.alone.blocked_withdraw, ?_, ?_⟩
  · rw [Lane.waiting, hqueue, hqueue']
    exact h.order
  · simp only [hcompleted, hcompleted', hfailed, hfailed']
    exact h.started_le

theorem interrupt (h : b.Shows v) (hb : b.lane.blocked = []) :
    Abandoned { b with lane := b.lane.interrupt, stage := .cancelled } := by
  have hlane : b.lane.interrupt = b.lane.conclude .cancelled .cancelled := by
    simp only [Lane.interrupt, hb]
  rw [hlane]
  exact ⟨rfl, hb, h.order, h.started_le⟩

/-- While the stop mark waits for room, there are only records in the queue. -/
theorem queue_of_closing (h : b.Shows v) (hs : b.stage ≠ .inside) (hb : b.lane.blocked ≠ []) :
    b.lane.queue = v.waiting.map .record ∧ v.door.asked = [] ∧ v.door ≠ .gone := by
  have hclosed : v.door.isClosed ≠ false := fun ho => hs (h.inside.mpr ho)
  have hqueue := h.lane.queue
  have hblocked := h.lane.blocked
  cases hr : b.lane.hasRoom with
  | false =>
    have hsettled : b.lane.settled = b.lane := by simp [settled, hr]
    rw [hsettled] at hqueue hblocked
    cases hd : v.door with
    | closing => exact ⟨by simpa [hd, Door.stop] using hqueue, rfl, by simp⟩
    | free => simp [hd, Door.isClosed] at hclosed
    | asking r => simp [hd, Door.isClosed] at hclosed
    | closed => exact absurd (by simpa [hd, Door.blocked] using hblocked) hb
    | gone => exact absurd (by simpa [hd, Door.blocked] using hblocked) hb
  | true =>
    -- the mark would be let in at once, and stand behind what is in the queue
    obtain ⟨⟨number, slot⟩, hfirst⟩ : ∃ first, b.lane.blocked = [first] :=
      List.length_eq_one_iff.mp (Nat.le_antisymm h.alone.length_le (List.length_pos_iff.mpr hb))
    have hsettled : b.lane.settled = b.lane.acceptNext := by simp [settled, hr]
    rw [hsettled, queue_acceptNext, hfirst] at hqueue
    rw [hsettled, blocked_acceptNext, hfirst] at hblocked
    cases hd : v.door with
    | closed => exact ⟨And.left (by simpa [hd, Door.stop] using hqueue), rfl, by simp⟩
    | free => simp [hd, Door.isClosed] at hclosed
    | asking r => simp [hd, Door.isClosed] at hclosed
    | closing => simp [hd, Door.blocked] at hblocked
    | gone => simp [hd, (h.lane.ended hd).2, Door.stop] at hqueue

/-- The stop mark has not come into the queue, and the worker has not been told. -/
theorem withdraw (h : b.Shows v) (hs : b.stage ≠ .inside) (hb : b.lane.blocked ≠ []) :
    Unattended { b with lane := b.lane.interrupt, stage := .unattended } := by
  obtain ⟨hqueue, hasked, hopen⟩ := h.queue_of_closing hs hb
  have hhand := h.inHand_eq hopen
  have hlane : b.lane.interrupt = b.lane.withdraw := by
    cases hfirst : b.lane.blocked with
    | nil => exact absurd hfirst hb
    | cons first rest => simp only [Lane.interrupt, hfirst]
  obtain ⟨hqueue', -, -, hworker', hcompleted', hfailed'⟩ := b.lane.withdraw_frame
  have hwaiting : b.lane.waiting = v.waiting := waiting_of_queue hqueue
  have hwaiting' : b.lane.withdraw.waiting = b.lane.waiting := by
    rw [Lane.waiting, hqueue', ← Lane.waiting]
  have hhand' : b.lane.withdraw.inHand = b.lane.inHand := by rw [inHand, hworker', ← inHand]
  have hgiven := h.given
  have hstarted := h.started
  obtain ⟨hcompleted, hfailed⟩ := h.counts
  rw [hlane]
  refine ⟨?_, h.alone.blocked_withdraw, ?_, ?_, ?_⟩
  · simp only [hworker', hhand', hhand]
    cases hi : v.inHand with
    | some r => exact h.worker.trans (View.worker_of_some hi hopen)
    | none => exact h.worker.trans (View.worker_of_none hi hopen)
  · simp only [hqueue', hwaiting', hqueue, hwaiting]
  · simpa only [hwaiting', hwaiting, hasked, List.append_nil] using hgiven
  · simp only [hcompleted', hfailed', hhand', hhand]
    omega

end Shows

namespace Unattended

theorem started_le (h : b.Unattended) :
    b.started.length ≤ b.lane.completed + b.lane.failed + 1 := by
  have hstarted := h.started
  have hhand : b.lane.inHand.toList.length ≤ 1 := by cases b.lane.inHand <;> simp
  omega

theorem take (h : b.Unattended) {m : Lane α} (hm : b.lane.pull = some m) :
    Unattended { b with lane := m, started := b.started ++ m.inHand.toList } ∧
      b.lane.inHand = none ∧ b.lane.waiting = m.inHand.toList ++ m.waiting ∧ m.inHand ≠ none := by
  have hqueue := h.queue
  have hgiven := h.given
  have hstarted := h.started
  unfold pull at hm
  split at hm
  · next r rest hw hq =>
    cases hm
    have hhand : b.lane.inHand = none := by rw [inHand, hw]
    obtain ⟨records, hwaiting, hrest⟩ : ∃ records, b.lane.waiting = r :: records ∧
        rest = records.map .record := by
      rw [hq] at hqueue
      cases hwaiting : b.lane.waiting with
      | nil => simp [hwaiting] at hqueue
      | cons x records =>
        rw [hwaiting, List.map_cons, List.cons.injEq, Slot.record.injEq] at hqueue
        exact ⟨records, by rw [hqueue.1], hqueue.2⟩
    have hrecords : Lane.waiting { b.lane with queue := rest, worker := .writing r } = records :=
      waiting_of_queue hrest
    refine ⟨⟨rfl, h.blocked, ?_, ?_, ?_⟩, hhand, ?_, by simp [inHand]⟩
    · exact hrest.trans (congrArg _ hrecords.symm)
    · simpa [hrecords, inHand, hwaiting] using hgiven
    · simp only [hhand, Option.toList_none, List.length_nil] at hstarted
      simp [inHand, hstarted]
    · simp [hrecords, inHand, hwaiting]
  · next rest hw hq =>
    rw [hq] at hqueue
    cases hwaiting : b.lane.waiting <;> simp [hwaiting] at hqueue
  · cases hm

theorem finish (h : b.Unattended) {r : α} (hr : b.lane.inHand = some r) (succeeded : Bool) :
    Unattended { b with lane := b.lane.finish succeeded } := by
  have hstarted := h.started
  have hw := inHand_eq_some.mp hr
  simp only [hr, Option.toList_some, List.length_singleton] at hstarted
  unfold Lane.finish
  simp only [hw]
  cases succeeded with
  | true =>
    refine ⟨rfl, h.blocked, h.queue, h.given, ?_⟩
    simp only [if_true, inHand, Option.toList_none, List.length_nil]
    omega
  | false =>
    refine ⟨rfl, h.blocked, h.queue, h.given, ?_⟩
    simp only [Bool.false_eq_true, if_false, inHand, Option.toList_none, List.length_nil]
    omega

end Unattended

structure Sound (bound : Nat) (records : List α) (b : Block α) : Prop where
  fits : b.lane.Fits bound
  records : b.given ++ b.ahead = records
  complete : b.stage = .leaving false → b.ahead = []
  standing : (b.stage.isAttended = true ∧ ∃ v, b.Shows v) ∨ (b.stage = .cancelled ∧ b.Abandoned) ∨
    (b.stage = .unattended ∧ b.Unattended)

theorem sound_enter (bound : Nat) (records : List α) :
    (enter bound records).Sound bound records where
  fits := ⟨rfl, fun _ => Nat.zero_le _⟩
  records := rfl
  complete h := by cases h
  standing := by
    refine .inl ⟨rfl, {}, ?_, .of_nil rfl, rfl, rfl, by simp [enter, Door.isClosed]⟩
    exact (settled_of_nil (l := (enter bound records).lane) rfl).symm ▸ shows_start bound

namespace Sound

theorem shows (h : b.Sound bound records) (hs : b.stage.isAttended = true) : ∃ v, b.Shows v := by
  rcases h.standing with ⟨-, hv⟩ | ⟨hc, -⟩ | ⟨hc, -⟩
  · exact hv
  · simp [hc, Stage.isAttended] at hs
  · simp [hc, Stage.isAttended] at hs

theorem abandoned (h : b.Sound bound records) (hs : b.stage = .cancelled) : b.Abandoned := by
  rcases h.standing with ⟨ha, -⟩ | ⟨-, hb⟩ | ⟨hc, -⟩
  · simp [hs, Stage.isAttended] at ha
  · exact hb
  · simp [hs] at hc

theorem unattended (h : b.Sound bound records) (hs : b.stage = .unattended) : b.Unattended := by
  rcases h.standing with ⟨ha, -⟩ | ⟨hc, -⟩ | ⟨-, hb⟩
  · simp [hs, Stage.isAttended] at ha
  · simp [hs] at hc
  · exact hb

theorem submit (h : b.Sound bound records) (hc : b.submit = some c) : c.Sound bound records := by
  unfold Block.submit at hc
  split at hc
  · next r rest hs hb ha =>
    cases hc
    obtain ⟨v, hv⟩ := h.shows (by simp [hs, Stage.isAttended])
    refine ⟨h.fits.submit r, ?_, ?_, .inl ⟨by simp [hs, Stage.isAttended], hv.submit hs hb r rest⟩⟩
    · rw [← h.records, ha, List.append_assoc]
      rfl
    · simp [hs]
  · cases hc

theorem leave (h : b.Sound bound records) {failed : Bool} (hc : b.leave failed = some c) :
    c.Sound bound records := by
  unfold Block.leave at hc
  split at hc
  · next hs hb =>
    split at hc
    · next hall =>
      cases hc
      obtain ⟨v, hv⟩ := h.shows (by simp [hs, Stage.isAttended])
      refine ⟨h.fits.drain, h.records, ?_, .inl ⟨rfl, hv.leave hs hb failed⟩⟩
      intro hfailed
      simp_all
    · cases hc
  · cases hc

theorem cancel (h : b.Sound bound records) (hc : b.cancel = some c) : c.Sound bound records := by
  unfold Block.cancel at hc
  split at hc
  · next hs =>
    cases hc
    obtain ⟨v, hv⟩ := h.shows (by simp [hs, Stage.isAttended])
    exact ⟨h.fits.abandon, h.records, by simp, .inr (.inl ⟨rfl, hv.cancel hs⟩)⟩
  · next failed hs =>
    split at hc
    · cases hc
    · cases hc
      obtain ⟨v, hv⟩ := h.shows (by simp [hs, Stage.isAttended])
      cases hb : b.lane.blocked with
      | nil => exact ⟨h.fits.interrupt, h.records, by simp, .inr (.inl ⟨rfl, hv.interrupt hb⟩)⟩
      | cons first rest =>
        exact ⟨h.fits.interrupt, h.records, by simp,
          .inr (.inr ⟨rfl, hv.withdraw (by simp [hs]) (by simp [hb])⟩)⟩
  · cases hc

theorem letNextIn (h : b.Sound bound records) {m : Lane α} (hm : b.lane.letNextIn = some m) :
    ({ b with lane := m } : Block α).Sound bound records := by
  refine ⟨h.fits.letNextIn hm, h.records, h.complete, ?_⟩
  rcases h.standing with ⟨hs, v, hv⟩ | ⟨-, ha⟩ | ⟨-, hu⟩
  · exact .inl ⟨hs, v, hv.letNextIn hm⟩
  · simp [Lane.letNextIn, ha.blocked] at hm
  · simp [Lane.letNextIn, hu.blocked] at hm

theorem take (h : b.Sound bound records) (hc : b.take = some c) : c.Sound bound records := by
  obtain ⟨m, hm, rfl⟩ := Option.map_eq_some_iff.mp hc
  refine ⟨h.fits.pull hm, h.records, h.complete, ?_⟩
  rcases h.standing with ⟨hs, v, hv⟩ | ⟨-, ha⟩ | ⟨hs, hu⟩
  · exact .inl ⟨hs, hv.take h.fits hm⟩
  · simp [Lane.pull, ha.worker] at hm
  · exact .inr (.inr ⟨hs, (hu.take hm).1⟩)

theorem finish (h : b.Sound bound records) {succeeded : Bool} (hc : b.finish succeeded = some c) :
    c.Sound bound records := by
  obtain ⟨r, hr, rfl⟩ := Option.map_eq_some_iff.mp hc
  refine ⟨h.fits.finish succeeded, h.records, h.complete, ?_⟩
  rcases h.standing with ⟨hs, v, hv⟩ | ⟨-, ha⟩ | ⟨hs, hu⟩
  · exact .inl ⟨hs, hv.finish hr succeeded⟩
  · simp [Lane.inHand, ha.worker] at hr
  · exact .inr (.inr ⟨hs, hu.finish hr succeeded⟩)

theorem step (h : b.Sound bound records) {act : Act} (hc : b.step act = some c) :
    c.Sound bound records := by
  cases act with
  | submit => exact h.submit hc
  | letIn =>
    obtain ⟨m, hm, rfl⟩ := Option.map_eq_some_iff.mp hc
    exact h.letNextIn hm
  | leave failed => exact h.leave hc
  | cancel => exact h.cancel hc
  | take => exact h.take hc
  | finish succeeded => exact h.finish hc

theorem play (h : b.Sound bound records) {acts : List Act} (hc : b.play acts = some c) :
    c.Sound bound records := by
  induction acts generalizing b with
  | nil => exact Option.some.inj hc ▸ h
  | cons act acts ih =>
    obtain ⟨d, hd, hc⟩ := Option.bind_eq_some_iff.mp hc
    exact ih (h.step hd) hc

/-- Until the block is left, it can go on or the worker can. -/
theorem moves (h : b.Sound bound records) (hs : b.stage.isAttended = true)
    (hleft : b.hasLeft = false) :
    ∃ act : Act, act.isOwn = true ∧ (b.step act).isSome = true := by
  obtain ⟨v, hv⟩ := h.shows hs
  cases hb : b.lane.blocked with
  | cons first rest => exact hv.moves (.inl (by simp [hb]))
  | nil =>
    cases hstage : b.stage with
    | inside =>
      cases ha : b.ahead with
      | nil => exact ⟨.leave false, rfl, by simp [Block.step, Block.leave, hstage, hb, ha]⟩
      | cons r rest => exact ⟨.submit, rfl, by simp [Block.step, Block.submit, hstage, hb, ha]⟩
    | leaving failed =>
      -- the stop mark is in the queue, since it neither waits for room nor was come to
      have hclosed : v.door = .closed := by
        have hnil := hv.door_blocked hb
        have hgone : v.door ≠ .gone := fun hd => by simp [(hv.hasLeft_iff hstage).mpr hd] at hleft
        have hfree : v.door.isClosed ≠ false := fun ho => by simp [hv.inside.mpr ho] at hstage
        cases hd : v.door <;> simp [hd, Door.isClosed, Door.blocked] at hnil hgone hfree ⊢
      exact hv.moves (.inr hclosed)
    | cancelled => simp [hstage, Stage.isAttended] at hs
    | unattended => simp [hstage, Stage.isAttended] at hs

/-- When the call that drains the lane has come back, nothing that was submitted is missing. -/
theorem written (h : b.Sound bound records) (hleft : b.hasLeft = true) :
    b.lane.worker = .ended ∧ b.started = b.given ∧
      b.lane.completed + b.lane.failed = b.lane.submitted ∧ b.lane.submitted = b.given.length := by
  obtain ⟨failed, hs⟩ : ∃ failed, b.stage = .leaving failed := by
    unfold hasLeft at hleft
    split at hleft
    · next failed hs => exact ⟨failed, hs⟩
    · cases hleft
  obtain ⟨v, hv⟩ := h.shows (by simp [hs, Stage.isAttended])
  have hd := (hv.hasLeft_iff hs).mp hleft
  obtain ⟨hi, hw⟩ := hv.lane.ended hd
  have hgiven : b.given = b.started := by simp [hv.given, hw, hd, Door.asked]
  have hsubmitted := hv.lane.submitted
  have hstarted := hv.started
  obtain ⟨hcompleted, hfailed⟩ := hv.counts
  rw [settled_of_nil (hv.blocked_of_gone hd)] at hsubmitted
  simp only [hi, hw, Option.toList_none, List.length_nil] at hsubmitted hstarted
  refine ⟨hv.worker.trans (by rw [View.worker, hd]), hgiven.symm, ?_, ?_⟩
  · omega
  · rw [hgiven]
    omega

end Sound

theorem Abandoned.step (h : b.Abandoned) (hs : b.stage = .cancelled) (act : Act) :
    b.step act = none := by
  cases act with
  | submit => simp [Block.step, Block.submit, hs]
  | letIn => simp [Block.step, Lane.letNextIn, h.blocked]
  | leave failed => simp [Block.step, Block.leave, hs]
  | cancel => simp [Block.step, Block.cancel, hs]
  | take => simp [Block.step, Block.take, Lane.pull, h.worker]
  | finish succeeded => simp [Block.step, Block.finish, Lane.inHand, h.worker]

theorem Abandoned.play (h : b.Abandoned) (hs : b.stage = .cancelled) {acts : List Act}
    (hc : b.play acts = some c) : c = b := by
  cases acts with
  | nil => exact (Option.some.inj hc).symm
  | cons act acts =>
    rw [Block.play, h.step hs act] at hc
    cases hc

namespace Unattended

/-- How many steps the worker of an unattended block has before it. -/
def due (b : Block α) : Nat := b.lane.inHand.toList.length + 2 * b.lane.waiting.length

/-- The worker of an unattended block can go on as long as there is anything before it. -/
theorem next (h : b.Unattended) (hdue : due b ≠ 0) :
    ∃ act c, b.step act = some c ∧ c.Unattended ∧ c.given = b.given ∧ due c < due b := by
  cases hi : b.lane.inHand with
  | some r =>
    have hw := inHand_eq_some.mp hi
    refine ⟨.finish true, _, by simp only [Block.step, Block.finish, hi, Option.map_some],
      h.finish hi true, rfl, ?_⟩
    have hhand : (b.lane.finish true).inHand = none := by
      simp only [Lane.finish, hw, inHand, if_true]
    have hwaiting : (b.lane.finish true).waiting = b.lane.waiting := by
      simp only [Lane.finish, hw, if_true]
      rfl
    simp only [due, hhand, hwaiting, hi, Option.toList_none, Option.toList_some, List.length_nil,
      List.length_singleton]
    omega
  | none =>
    obtain ⟨m, hm⟩ : ∃ m, b.lane.pull = some m := by
      have hworker := h.worker
      rw [hi] at hworker
      cases hwaiting : b.lane.waiting with
      | nil => exact absurd (by simp [due, hi, hwaiting]) hdue
      | cons r rest =>
        have hqueue := h.queue
        rw [hwaiting, List.map_cons] at hqueue
        exact ⟨_, by simp only [pull, hworker, hqueue]; rfl⟩
    obtain ⟨hu, -, hwaiting, hhand⟩ := h.take hm
    refine ⟨.take, _, by simp only [Block.step, Block.take, hm, Option.map_some], hu, rfl, ?_⟩
    obtain ⟨r, hr⟩ := Option.ne_none_iff_exists'.mp hhand
    simp only [due, hi, hwaiting, hr, Option.toList_none, Option.toList_some, List.length_nil,
      List.length_append, List.length_singleton]
    omega

/-- It goes on until all is written. -/
theorem play_rest (h : b.Unattended) :
    ∃ acts c, b.play acts = some c ∧ c.started = c.given ∧ c.given = b.given ∧
      c.lane.completed + c.lane.failed = b.given.length := by
  induction hn : due b using Nat.strongRecOn generalizing b with
  | ind n ih =>
    by_cases hdue : due b = 0
    · have hnone : b.lane.inHand.toList.length = 0 ∧ b.lane.waiting.length = 0 := by
        unfold due at hdue
        omega
      have hhand : b.lane.inHand = none := by simpa using hnone.1
      have hwaiting : b.lane.waiting = [] := List.eq_nil_of_length_eq_zero hnone.2
      have hgiven := h.given
      have hstarted := h.started
      rw [hwaiting, List.append_nil] at hgiven
      rw [hhand, Option.toList_none, List.length_nil] at hstarted
      exact ⟨[], b, rfl, hgiven.symm, rfl, by rw [hgiven, hstarted, Nat.add_zero]⟩
    · obtain ⟨act, c, hc, hu, hgiven, hlt⟩ := h.next hdue
      obtain ⟨acts, d, hd, hall, hgiven', hcount⟩ := ih (due c) (hn ▸ hlt) hu rfl
      refine ⟨act :: acts, d, ?_, hall, hgiven'.trans hgiven, by rw [hcount, hgiven]⟩
      rw [Block.play, hc, Option.bind_some, hd]

end Unattended

/-- What a block keeps to, whoever has the turn when and whichever writes fail. -/
structure Orderly (bound : Nat) (records : List α) (b : Block α) : Prop where
  /-- Writes are begun in the order of the records, each at most once. -/
  inOrder : b.started <+: b.given ∧ b.given <+: records
  /-- All writes that were begun are over, except one at most. -/
  oneAtATime : b.started.length ≤ b.lane.completed + b.lane.failed + 1
  bounded : 0 < bound → b.lane.pending ≤ bound
  /-- Short of the end, the block can go on by itself, or its worker can. -/
  notStuck : b.stage.isAttended = true → b.hasLeft = false →
    ∃ act : Act, act.isOwn = true ∧ (b.step act).isSome = true
  /-- When the call that drains the lane has come back, the worker is over and all is written. -/
  written : b.hasLeft = true → b.lane.worker = .ended ∧ b.started = b.given ∧
    b.lane.completed + b.lane.failed = b.lane.submitted ∧ b.lane.submitted = b.given.length
  /-- Without a failure nothing was left unsubmitted. -/
  complete : b.stage = .leaving false → b.given = records
  /-- Nothing happens on a cancelled block, and what is in its queue stands behind what was
  begun. -/
  abandoned : b.stage = .cancelled → (∀ acts c, b.play acts = some c → c = b) ∧
    b.started ++ b.lane.waiting <+: b.given
  /-- Where the stop mark still waited for room, the worker of a block that was cancelled writes
  what is in the queue. -/
  unattended : b.stage = .unattended → b.given = b.started ++ b.lane.waiting ∧
    ∃ acts c, b.play acts = some c ∧ c.started = c.given ∧ c.given = b.given ∧
      c.lane.completed + c.lane.failed = b.given.length

theorem Sound.orderly (h : b.Sound bound records) : b.Orderly bound records := by
  obtain ⟨horder, hle⟩ : b.started ++ b.lane.waiting <+: b.given ∧
      b.started.length ≤ b.lane.completed + b.lane.failed + 1 := by
    rcases h.standing with ⟨-, v, hv⟩ | ⟨-, ha⟩ | ⟨-, hu⟩
    · exact ⟨hv.order, hv.started_le⟩
    · exact ⟨ha.order, ha.started_le⟩
    · exact ⟨hu.given ▸ List.prefix_rfl, hu.started_le⟩
  refine ⟨⟨(List.prefix_append _ _).trans horder, ⟨_, h.records⟩⟩, hle, h.fits.length_le, h.moves,
    h.written, ?_, ?_, ?_⟩
  · intro hs
    have hrecords := h.records
    rwa [h.complete hs, List.append_nil] at hrecords
  · exact fun hs => ⟨fun acts c hc => (h.abandoned hs).play hs hc, horder⟩
  · exact fun hs => ⟨(h.unattended hs).given, (h.unattended hs).play_rest⟩

/-- A block keeps to this at all times. -/
theorem play_orderly {bound : Nat} {records : List α} {acts : List Act} {b : Block α}
    (h : (enter bound records).play acts = some b) : b.Orderly bound records :=
  ((sound_enter bound records).play h).orderly

/-- The third record waits for room, and so does the stop mark; the first cannot be written. -/
def backpressure : List Act :=
  [.submit, .take, .submit, .submit, .finish false, .take, .letIn, .leave false, .finish true,
    .take, .finish true, .letIn, .take]

theorem play_orderly_backpressure : ∃ b : Block Nat,
    (enter 1 [10, 20, 30]).play backpressure = some b ∧
    b.hasLeft = true ∧ b.started = [10, 20, 30] ∧ b.lane.failed = 1 ∧ b.Orderly 1 [10, 20, 30] := by
  obtain ⟨b, hb, hleft⟩ : ∃ b : Block Nat, (enter 1 [10, 20, 30]).play backpressure = some b ∧
      b.hasLeft = true ∧ b.started = [10, 20, 30] ∧ b.lane.failed = 1 :=
    ⟨_, rfl, by decide, rfl, rfl⟩
  exact ⟨b, hb, hleft.1, hleft.2.1, hleft.2.2, play_orderly hb⟩

/-- The second record is in the queue, which is full, and the block is cancelled as it waits to
drain the lane. -/
def interruption : List Act := [.submit, .take, .submit, .leave false, .cancel]

/-- The second write is begun after the block was cancelled. -/
theorem interruption_writes : ∃ b c : Block Nat, (enter 1 [10, 20]).play interruption = some b ∧
    b.stage = .unattended ∧ b.started = [10] ∧ b.lane.waiting = [20] ∧
    b.play [.finish true, .take] = some c ∧ c.started = [10, 20] :=
  ⟨_, _, rfl, rfl, rfl, rfl, rfl, rfl⟩

end Block

end AdvisoryLedger.Lane

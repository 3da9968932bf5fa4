import AdvisoryLedger.Proofs.Lane.View

namespace AdvisoryLedger.Lane

variable {α : Type} {l m : Lane α}

def pull (l : Lane α) : Option (Lane α) :=
  match l.worker, l.queue with
  | .idle, .record r :: rest => some { l with queue := rest, worker := .writing r }
  | .idle, .stop :: rest => some ({ l with queue := rest }.conclude .ended .done)
  | _, _ => none

/-- Where there is room, the first of those who wait is let in. -/
def letNextIn (l : Lane α) : Option (Lane α) :=
  match l.blocked with
  | [] => none
  | _ :: _ => if l.hasRoom then some l.acceptNext else none

/-- The lane on which the first of those who wait has been let in if there is room. -/
def settled (l : Lane α) : Lane α := if l.hasRoom then l.acceptNext else l

/-- At most one call waits for room, and then it is the last that was made. -/
structure OneWaits (l : Lane α) : Prop where
  length_le : l.blocked.length ≤ 1
  lastCall : l.blocked ≠ [] → l.calls.getLast? = some .queueing

/-- The queue holds no more than the bound allows. -/
structure Fits (l : Lane α) (bound : Nat) : Prop where
  bound_eq : l.bound = bound
  length_le : 0 < bound → l.queue.length ≤ bound

section Accept

variable (l) (number : Nat) (slot : Slot α)

@[simp] theorem queue_accept :
    (l.accept number slot).queue = l.queue ++ [slot] := by cases slot <;> rfl

@[simp] theorem bound_accept : (l.accept number slot).bound = l.bound := by cases slot <;> rfl

@[simp] theorem blocked_accept : (l.accept number slot).blocked = l.blocked := by cases slot <;> rfl

@[simp] theorem worker_accept : (l.accept number slot).worker = l.worker := by cases slot <;> rfl

@[simp] theorem completed_accept :
    (l.accept number slot).completed = l.completed := by cases slot <;> rfl

@[simp] theorem failed_accept : (l.accept number slot).failed = l.failed := by cases slot <;> rfl

end Accept

section AcceptNext

variable (l)

@[simp] theorem worker_acceptNext : l.acceptNext.worker = l.worker := by
  unfold acceptNext
  split <;> simp

@[simp] theorem completed_acceptNext : l.acceptNext.completed = l.completed := by
  unfold acceptNext
  split <;> simp

@[simp] theorem failed_acceptNext : l.acceptNext.failed = l.failed := by
  unfold acceptNext
  split <;> simp

@[simp] theorem blocked_acceptNext : l.acceptNext.blocked = l.blocked.tail := by
  unfold acceptNext
  split <;> simp_all

theorem queue_acceptNext :
    l.acceptNext.queue = l.queue ++ (l.blocked.head?.map Prod.snd).toList := by
  unfold acceptNext
  split <;> simp_all

end AcceptNext

theorem acceptNext_of_nil (h : l.blocked = []) : l.acceptNext = l := by simp only [acceptNext, h]

theorem settled_of_nil (h : l.blocked = []) : l.settled = l := by
  rw [settled, acceptNext_of_nil h, ite_self]

theorem worker_settled (l : Lane α) : l.settled.worker = l.worker := by
  unfold settled
  split <;> simp

theorem completed_settled (l : Lane α) : l.settled.completed = l.completed := by
  unfold settled
  split <;> simp

theorem failed_settled (l : Lane α) : l.settled.failed = l.failed := by
  unfold settled
  split <;> simp

/-- Where nobody waits and nothing is in the queue, nobody was let in. -/
theorem blocked_of_settled (hqueue : l.settled.queue = []) (hblocked : l.settled.blocked = []) :
    l.blocked = [] := by
  unfold settled at hqueue hblocked
  split at hqueue
  · rw [queue_acceptNext] at hqueue
    have hhead := (List.append_eq_nil_iff.mp hqueue).2
    cases hb : l.blocked with
    | nil => rfl
    | cons first rest => simp [hb] at hhead
  · next hroom => rwa [if_neg hroom] at hblocked

/-- It makes no difference to the call that is let in whether the worker ends before or after. -/
theorem conclude_acceptNext (h : l.worker = .idle) :
    l.acceptNext.conclude .ended .done = (l.conclude .ended .done).acceptNext := by
  obtain ⟨bound, queue, blocked, worker, isClosed, submitted, completed, failed, calls⟩ := l
  cases h
  rcases blocked with - | ⟨⟨number, - | -⟩, rest⟩
  · rfl
  · simp [acceptNext, accept, conclude, setCall, List.map_set]
  · simp [acceptNext, accept, conclude, setCall, joined, List.map_set]

theorem take_eq_pull (l : Lane α) : l.take = l.pull.map acceptNext := by
  unfold take
  split
  · next hw hq => simp only [pull, hw, hq, Option.map_some]
  · next rest hw hq =>
    have hc := conclude_acceptNext (l := { l with queue := rest }) hw
    rw [hc]
    simp only [pull, hw, hq, Option.map_some]
  · next hrecord hstop =>
    have hnone : l.pull = none := by
      unfold pull
      split
      · next hw hq => exact (hrecord _ _ hw hq).elim
      · next hw hq => exact (hstop _ hw hq).elim
      · rfl
    rw [hnone, Option.map_none]

/-- What is in the queue is taken from the front, and what is let in goes to the end. -/
theorem pull_acceptNext (h : l.pull = some m) : l.acceptNext.pull = some m.acceptNext := by
  unfold pull at h
  split at h
  · next r rest hw hq =>
    cases h
    obtain ⟨bound, queue, blocked, worker, isClosed, submitted, completed, failed, calls⟩ := l
    cases hw
    cases hq
    rcases blocked with - | ⟨⟨number, - | -⟩, rest⟩ <;> rfl
  · next rest hw hq =>
    cases h
    have hc := conclude_acceptNext (l := { l with queue := rest }) hw
    rw [← hc]
    obtain ⟨bound, queue, blocked, worker, isClosed, submitted, completed, failed, calls⟩ := l
    cases hw
    cases hq
    rcases blocked with - | ⟨⟨number, - | -⟩, rest⟩ <;> rfl
  · cases h

/-- The worker's step takes one slot from the queue and leaves alone who waits. -/
theorem pull_frame (h : l.pull = some m) :
    m.bound = l.bound ∧ m.blocked = l.blocked ∧ m.queue.length + 1 = l.queue.length := by
  unfold pull at h
  split at h
  · next hq =>
    cases h
    simp [hq]
  · next hq =>
    cases h
    simp [conclude, hq]
  · cases h

theorem settled_pull {bound : Nat} (hfits : l.Fits bound) (hone : l.blocked.length ≤ 1)
    (h : l.pull = some m) : l.settled.take = some m.settled := by
  obtain ⟨hbound, hblocked, hqueue⟩ := pull_frame h
  have hroom : m.hasRoom = true := by
    have hlength := hfits.length_le
    simp only [hasRoom, hbound, hfits.bound_eq, Bool.or_eq_true, decide_eq_true_eq]
    omega
  rw [settled, settled, if_pos hroom, take_eq_pull]
  split
  · -- nobody is left who could come in on the room that the worker makes
    have hnil : m.acceptNext.blocked = [] := by
      rw [blocked_acceptNext, hblocked]
      exact List.eq_nil_of_length_eq_zero (by simp only [List.length_tail]; omega)
    rw [pull_acceptNext h, Option.map_some, acceptNext_of_nil hnil]
  · rw [h, Option.map_some]

theorem finish_acceptNext {r : α} (hw : l.worker = .writing r) (succeeded : Bool) :
    (l.finish succeeded).acceptNext = l.acceptNext.finish succeeded := by
  obtain ⟨bound, queue, blocked, worker, isClosed, submitted, completed, failed, calls⟩ := l
  cases hw
  cases succeeded <;> rcases blocked with - | ⟨⟨number, - | -⟩, rest⟩ <;> rfl

theorem settled_finish {r : α} (hw : l.worker = .writing r) (succeeded : Bool) :
    (l.finish succeeded).settled = l.settled.finish succeeded := by
  have hroom : (l.finish succeeded).hasRoom = l.hasRoom := by
    cases succeeded <;> simp only [finish, hw] <;> rfl
  rw [settled, settled, hroom, finish_acceptNext hw]
  split <;> rfl

theorem settled_letNextIn (hone : l.blocked.length ≤ 1) (h : l.letNextIn = some m) :
    m.settled = l.settled ∧ m.blocked = [] := by
  unfold letNextIn at h
  split at h
  · cases h
  · split at h
    · next hroom =>
      cases h
      have hnil : l.acceptNext.blocked = [] := by
        rw [blocked_acceptNext]
        exact List.eq_nil_of_length_eq_zero (by simp only [List.length_tail]; omega)
      exact ⟨by rw [settled_of_nil hnil, settled, if_pos hroom], hnil⟩
    · cases h

section Calls

variable {bound : Nat} {slot : Slot α} {r : α}

theorem settled_put (h : l.blocked = []) (slot : Slot α) : (l.put slot).settled = l.put slot := by
  cases hr : l.hasRoom with
  | true =>
    refine settled_of_nil ?_
    rw [l.put_of_room _ hr, blocked_accept]
    exact h
  | false =>
    rw [l.put_of_full _ hr, settled, if_neg]
    rw [show ∀ b c, ({ l with blocked := b, calls := c } : Lane α).hasRoom = l.hasRoom from fun _ _ => rfl, hr]
    exact Bool.false_ne_true

theorem blocked_wake (l : Lane α) : l.wake.blocked = l.blocked := by
  unfold wake
  split <;> rfl

theorem settled_submit (h : l.blocked = []) (r : α) : (l.submit r).settled = l.submit r := by
  unfold submit
  split
  · exact settled_of_nil h
  · exact settled_put (l.blocked_wake.trans h) _

theorem settled_drain (h : l.blocked = []) : l.drain.settled = l.drain := by
  unfold drain
  dsimp only
  split
  · exact settled_of_nil h
  · exact settled_put (l := { l with isClosed := true }) h _

theorem cancel_frame (l : Lane α) : l.cancel.queue = l.queue ∧ l.cancel.blocked = l.blocked ∧
    l.cancel.bound = l.bound ∧ l.cancel.completed = l.completed ∧ l.cancel.failed = l.failed := by
  unfold cancel
  dsimp only
  split <;> exact ⟨rfl, rfl, rfl, rfl, rfl⟩

theorem worker_cancel (h : l.worker = .idle ∨ ∃ r, l.worker = .writing r) :
    l.cancel.worker = .cancelled := by
  unfold cancel
  rcases h with h | ⟨r, h⟩ <;> simp only [h] <;> rfl

theorem withdraw_frame (l : Lane α) : l.withdraw.queue = l.queue ∧
    l.withdraw.blocked = l.blocked.tail ∧
    l.withdraw.bound = l.bound ∧ l.withdraw.worker = l.worker ∧
    l.withdraw.completed = l.completed ∧ l.withdraw.failed = l.failed := by
  unfold withdraw
  split
  · next h => exact ⟨rfl, by simp [h], rfl, rfl, rfl, rfl⟩
  · next h => exact ⟨rfl, by simp [h, setCall], rfl, rfl, rfl, rfl⟩

end Calls

namespace OneWaits

theorem of_nil (h : l.blocked = []) : l.OneWaits := by
  refine ⟨?_, fun hn => absurd h hn⟩
  rw [h]
  exact Nat.zero_le 1

theorem blocked_withdraw (h : l.OneWaits) : l.withdraw.blocked = [] := by
  obtain ⟨-, hblocked, -⟩ := l.withdraw_frame
  have hlength := h.length_le
  refine List.eq_nil_of_length_eq_zero ?_
  simp only [hblocked, List.length_tail]
  omega

theorem put (h : l.blocked = []) (slot : Slot α) : (l.put slot).OneWaits := by
  cases hr : l.hasRoom with
  | true =>
    refine of_nil ?_
    rw [l.put_of_room _ hr, blocked_accept]
    exact h
  | false =>
    rw [l.put_of_full _ hr, h]
    exact ⟨Nat.le_refl 1, fun _ => List.getLast?_concat⟩

theorem submit (h : l.blocked = []) (r : α) : (l.submit r).OneWaits := by
  unfold Lane.submit
  split
  · exact of_nil h
  · exact put (l.blocked_wake.trans h) _

theorem drain (h : l.blocked = []) : l.drain.OneWaits := by
  unfold Lane.drain
  dsimp only
  split
  · exact of_nil h
  · exact put (l := { l with isClosed := true }) h _

theorem letNextIn (h : l.OneWaits) (hm : l.letNextIn = some m) : m.OneWaits :=
  of_nil (settled_letNextIn h.length_le hm).2

theorem pull (h : l.OneWaits) (hm : l.pull = some m) : m.OneWaits := by
  have hblocked := (pull_frame hm).2.1
  refine ⟨hblocked ▸ h.length_le, fun hn => ?_⟩
  have hlast := h.lastCall (hblocked ▸ hn)
  unfold Lane.pull at hm
  split at hm
  · cases hm
    exact hlast
  · cases hm
    simp [conclude, hlast]
  · cases hm

theorem finish (h : l.OneWaits) (succeeded : Bool) : (l.finish succeeded).OneWaits := by
  unfold Lane.finish
  split
  · split <;> exact ⟨h.length_le, h.lastCall⟩
  · exact h

end OneWaits

namespace Fits

variable {bound : Nat}

theorem accept (h : l.Fits bound) (hroom : l.hasRoom = true) (number : Nat) (slot : Slot α) :
    (l.accept number slot).Fits bound := by
  refine ⟨(bound_accept l number slot).trans h.bound_eq, fun hb => ?_⟩
  simp only [hasRoom, Bool.or_eq_true, decide_eq_true_eq, h.bound_eq] at hroom
  rw [queue_accept, List.length_append, List.length_singleton]
  omega

theorem acceptNext (h : l.Fits bound) (hroom : l.hasRoom = true) : l.acceptNext.Fits bound := by
  unfold Lane.acceptNext
  split
  · exact h
  · next rest _ => exact accept (l := { l with blocked := rest }) ⟨h.bound_eq, h.length_le⟩ hroom _ _

theorem letNextIn (h : l.Fits bound) (hm : l.letNextIn = some m) : m.Fits bound := by
  unfold Lane.letNextIn at hm
  split at hm
  · cases hm
  · split at hm
    · next hroom => exact Option.some.inj hm ▸ h.acceptNext hroom
    · cases hm

theorem put (h : l.Fits bound) (slot : Slot α) : (l.put slot).Fits bound := by
  cases hr : l.hasRoom with
  | true =>
    rw [l.put_of_room _ hr]
    exact accept (l := l.record .queueing) ⟨h.bound_eq, h.length_le⟩ hr _ _
  | false =>
    rw [l.put_of_full _ hr]
    exact ⟨h.bound_eq, h.length_le⟩

theorem submit (h : l.Fits bound) (r : α) : (l.submit r).Fits bound := by
  have hwake : l.wake.Fits bound := by
    unfold Lane.wake
    split
    · exact ⟨h.bound_eq, h.length_le⟩
    · exact h
  unfold Lane.submit
  split
  · exact ⟨h.bound_eq, h.length_le⟩
  · exact hwake.put _

theorem drain (h : l.Fits bound) : l.drain.Fits bound := by
  have hclosed : ({ l with isClosed := true } : Lane α).Fits bound := ⟨h.bound_eq, h.length_le⟩
  unfold Lane.drain
  dsimp only
  split
  · exact ⟨h.bound_eq, h.length_le⟩
  · exact hclosed.put _

theorem pull (h : l.Fits bound) (hm : l.pull = some m) : m.Fits bound := by
  obtain ⟨hbound, -, hqueue⟩ := pull_frame hm
  refine ⟨hbound.trans h.bound_eq, fun hb => ?_⟩
  have hlength := h.length_le hb
  omega

theorem finish (h : l.Fits bound) (succeeded : Bool) : (l.finish succeeded).Fits bound := by
  unfold Lane.finish
  split
  · split <;> exact ⟨h.bound_eq, h.length_le⟩
  · exact h

theorem abandon (h : l.Fits bound) : l.withdraw.cancel.Fits bound := by
  obtain ⟨hq, -, hb, -⟩ := l.withdraw.cancel_frame
  obtain ⟨hq', -, hb', -⟩ := l.withdraw_frame
  exact ⟨hb.trans (hb'.trans h.bound_eq), by rw [hq, hq']; exact h.length_le⟩

theorem interrupt (h : l.Fits bound) : l.interrupt.Fits bound := by
  unfold Lane.interrupt
  split
  · exact ⟨h.bound_eq, h.length_le⟩
  · obtain ⟨hq, -, hb, -⟩ := l.withdraw_frame
    exact ⟨hb.trans h.bound_eq, by rw [hq]; exact h.length_le⟩

end Fits

end AdvisoryLedger.Lane

import AdvisoryLedger.Feed.Harvest
import AdvisoryLedger.Work

namespace AdvisoryLedger

structure Site (σ : Type) where
  store : σ
  answers : List FeedAnswer := []
  silence : TransportFault
  now : Rat := 0
  /-- What the clock shows when it is read for the n-th time, counted from zero. -/
  clock : Nat → Moment
  readings : Nat := 0
  requests : List FeedRequest := []
  closed : Nat := 0

namespace Site

variable {σ α : Type}

instance [Store σ] : Store (Site σ) := ⟨fun lock program s =>
  let r := Store.transact lock program s.store
  ⟨r.result, { s with store := r.state }, r.entries⟩⟩

def onStore (w : Work σ α) : Work (Site σ) α := fun s =>
  let x := w s.store
  ⟨x.result, { s with store := x.state }, x.traces⟩

/-- Reads the clock, which counts. -/
def seenNow : Work (Site σ) Moment := fun s =>
  ⟨.ok (s.clock s.readings), { s with readings := s.readings + 1 }, []⟩

/-- Reads the whole feed with a client, and closes it. -/
def harvest (c : FeedClient) (s : Site σ) : Harvest × Site σ :=
  let h := Harvest.read s.silence c s.now s.answers
  (h, { s with
    answers := h.answers, now := h.now, requests := s.requests ++ h.events.filterMap FeedEvent.request?
    closed := s.closed + 1 })

end Site

end AdvisoryLedger

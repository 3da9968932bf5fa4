import AdvisoryLedger.Notice.Basic

namespace AdvisoryLedger

/-- Subscribers by topic, in the order in which topics were first subscribed to. -/
abbrev Subscriptions := Table Topic (List String)

namespace Subscriptions

def subscribe (s : Subscriptions) (topic : Topic) (subscriber : String) : Subscriptions :=
  s.put topic ((s.get? topic).getD [] ++ [subscriber])

def unsubscribe (s : Subscriptions) (topic : Topic) (subscriber : String) : Subscriptions :=
  s.modify topic fun subscribers => subscribers.erase subscriber

/-- Those who hear notices of a topic; who subscribed more than once hears them as often. -/
def hearing (s : Subscriptions) (topic : Topic) : List String :=
  s.flatMap fun row => if row.1.covers topic then row.2 else []

def isHeard (s : Subscriptions) (topic : Topic) : Bool := !(s.hearing topic).isEmpty

end Subscriptions

/-- The subscriptions, what the subscribers work on, and what has been dispatched and logged. -/
structure Hub (σ : Type) where
  subscriptions : Subscriptions := []
  state : σ
  dispatched : List Notice := []
  entries : List LogEntry := []

namespace Hub

variable {σ : Type}

def subscribe (h : Hub σ) (topic : Topic) (subscriber : String) : Hub σ :=
  { h with subscriptions := h.subscriptions.subscribe topic subscriber }

def unsubscribe (h : Hub σ) (topic : Topic) (subscriber : String) : Hub σ :=
  { h with subscriptions := h.subscriptions.unsubscribe topic subscriber }

def log (h : Hub σ) (entry : LogEntry) : Hub σ := { h with entries := h.entries ++ [entry] }

abbrev Handler (σ : Type) := String → Notice → Hub σ → Except Failure Unit × Hub σ

def failureEntry (subscriber : String) (topic : Topic) (cause : Failure) : LogEntry :=
  ⟨.notices, .error, "❌ Subscriber " ++ subscriber ++ " failed for " ++ topic.name ++ ": ", some cause⟩

def deliver (handle : Handler σ) (n : Notice) : List String → Hub σ → Bool × Hub σ
  | [], h => (true, h)
  | subscriber :: rest, h =>
    match handle subscriber n h with
    | (.ok _, h) => deliver handle n rest h
    | (.error e, h) =>
      let (_, h) := deliver handle n rest (h.log (failureEntry subscriber n.topic e))
      (false, h)

mutual

/-- Delivers a notice and what follows it. What happens to those that follow does not change the
answer. -/
def dispatch (handle : Handler σ) (n : Notice) (h : Hub σ) : Bool × Hub σ :=
  let h := { h with dispatched := h.dispatched ++ [n] }
  let (succeeded, h) := deliver handle n (h.subscriptions.hearing n.topic) h
  match n with
  | .plain _ => (succeeded, h)
  | .index .. => (succeeded, h)
  | .chain _ _ onSuccess onFailure =>
    (succeeded, if succeeded then dispatchAll handle onSuccess h else dispatchAll handle onFailure h)

def dispatchAll (handle : Handler σ) (ns : List Notice) (h : Hub σ) : Hub σ :=
  match ns with
  | [] => h
  | n :: rest => dispatchAll handle rest (dispatch handle n h).2

end

end Hub

end AdvisoryLedger

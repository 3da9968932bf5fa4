import AdvisoryLedger.Feed.Client

namespace AdvisoryLedger

/-- An advisory as the feed reports it, and the ranges reported with it. -/
abbrev Report := Advisory × List AffectedRange

inductive FeedEvent
  | request (request : FeedRequest)
  | entry (entry : LogEntry)
  /-- An item of a page: a report, nothing, or something that is no report. -/
  | item (result : Except Failure (Option Report))

namespace FeedEvent

def request? : FeedEvent → Option FeedRequest
  | .request r => some r
  | _ => none

def report? : FeedEvent → Option Report
  | .item (.ok r) => r
  | _ => none

def ofItem (item : Json) : List FeedEvent :=
  let x := Record.ofItem item
  x.entries.map .entry ++ [.item x.result]

end FeedEvent

def Failure.isSkippable : Failure → Bool
  | .recordWithoutId => true
  | _ => false

/-- What was read, the client and the answers left, the time it ended, and why it ended early, if it
did. -/
structure Harvest where
  events : List FeedEvent
  client : FeedClient
  answers : List FeedAnswer
  now : Rat
  ending : Except Failure Unit

namespace Harvest

/-- The items of a page, up to the first that ends the reading. -/
def ofItems : List Json → List FeedEvent × Except Failure Unit
  | [] => ([], .ok ())
  | item :: rest =>
    match (Record.ofItem item).result with
    | .ok _ =>
      let (events, ending) := ofItems rest
      (FeedEvent.ofItem item ++ events, ending)
    | .error e =>
      if e.isSkippable then
        let (events, ending) := ofItems rest
        (FeedEvent.ofItem item ++ events, ending)
      else (FeedEvent.ofItem item, .error e)

def pageEvents (c : FeedClient) (now : Rat) (page : Noted (List Json)) : List FeedEvent :=
  .request (c.request now).1 :: .entry c.requestEntry :: page.entries.map .entry

/-- Reads page after page. Once there are no more answers, the feed is silent, and the cause is
given. -/
def read (silence : TransportFault) (c : FeedClient) (now : Rat) : List FeedAnswer → Harvest
  | [] =>
    if c.hasNext then
      let (sent, c') := c.request now
      let (page, c') := c'.receive (.lost (.transport silence))
      ⟨pageEvents c now page, c', [], sent.sentAt, page.result.map fun _ => ()⟩
    else ⟨[], c, [], now, .ok ()⟩
  | answer :: rest =>
    if c.hasNext then
      let (sent, c') := c.request now
      let (page, c') := c'.receive answer
      let first := pageEvents c now page
      match page.result with
      | .error e => ⟨first, c', rest, sent.sentAt, .error e⟩
      | .ok items =>
        let (events, ending) := ofItems items
        match ending with
        | .error e => ⟨first ++ events, c', rest, sent.sentAt, .error e⟩
        | .ok _ =>
          let h := read silence c' sent.sentAt rest
          { h with events := first ++ events ++ h.events }
    else ⟨[], c, answer :: rest, now, .ok ()⟩

def reports (h : Harvest) : List Report := h.events.filterMap FeedEvent.report?

end Harvest

end AdvisoryLedger
